import Firmware.Proofs.Token.LineByLine
import Firmware.Proofs.Token.Printing
import Mathlib.Data.List.Basic

/-! # How a line is read

A line falls into pieces: blank characters and the spellings of tokens, and at the end
perhaps a comment, or characters that show an error with all that is skipped behind them.
The lexer delivers the tokens and the error at the places of their pieces. Each token is the
longest one that begins where it does. -/

namespace Firmware

/-! ## The characters of a lexeme -/

def Sign.symbol : Sign → Char
  | .equals => '='
  | .less => '<'
  | .greater => '>'
  | .bang => '!'

namespace Lexeme

/-- The characters of which a lexeme has been read. -/
def HasSpelling (characters : List Char) : Lexeme → Prop
  | .complete token => token.HasSpelling characters
  | .slash => characters = ['/']
  | .sign kind => characters = [kind.symbol]
  | .integer value => IsNumeral characters ∧ Nat.ofDigitChars 10 characters 0 = value
  | .word letters => characters = letters.toList
  | .text content | .escape content => characters = '"' :: content.toList

theorem hasSpelling_of_start {character : Char} {lexeme : Lexeme}
    (started : start character = some lexeme) : lexeme.HasSpelling [character] := by
  unfold start at started
  split at started
  case h_15 =>
      split at started
      · cases started
        simp [HasSpelling]
      · split at started
        · next digit =>
            cases started
            refine ⟨⟨by simp, by simpa using digit⟩, ?_⟩
            rw [Nat.ofDigitChars_cons, Nat.mul_zero, Nat.zero_add, digitValue]
            rfl
        · cases started
  all_goals
    cases started
    rfl

theorem HasSpelling.extend {lexeme extended : Lexeme} {characters : List Char}
    (spelling : lexeme.HasSpelling characters) {character : Char}
    (grown : lexeme.extend character = .grown extended) :
    extended.HasSpelling (characters ++ [character]) := by
  cases lexeme with
  | complete => cases grown
  | slash =>
      simp only [Lexeme.extend] at grown
      split at grown <;> cases grown
  | sign kind =>
      rw [HasSpelling] at spelling
      simp only [Lexeme.extend] at grown
      split at grown <;> cases grown
      next equals =>
        rw [spelling, equals]
        cases kind <;> rfl
  | integer value =>
      rcases spelling with ⟨⟨nonempty, areDigits⟩, rfl⟩
      simp only [Lexeme.extend] at grown
      split at grown
      · next digit =>
          split at grown <;> cases grown
          refine ⟨⟨by simp, ?_⟩, ?_⟩
          · intro other member
            rcases List.mem_append.mp member with before | last
            · exact areDigits other before
            · rwa [List.mem_singleton.mp last]
          · rw [Nat.ofDigitChars_append, Nat.ofDigitChars_cons, digitValue]
            rfl
      · cases grown
  | word letters =>
      rw [HasSpelling] at spelling
      simp only [Lexeme.extend] at grown
      split at grown <;> cases grown
      simp [HasSpelling, spelling]
  | text content =>
      rw [HasSpelling] at spelling
      simp only [Lexeme.extend] at grown
      split at grown
      · cases grown
      · split at grown
        · next quote =>
            cases grown
            simp [HasSpelling, Token.HasSpelling, Token.print, Expr.quote, spelling, quote]
        · split at grown <;> cases grown <;> simp [HasSpelling, spelling]
  | escape content =>
      rw [HasSpelling] at spelling
      simp only [Lexeme.extend] at grown
      split at grown <;> cases grown
      simp [HasSpelling, spelling]

theorem HasSpelling.settle {lexeme : Lexeme} {characters : List Char}
    (spelling : lexeme.HasSpelling characters) {token : Token}
    (settled : lexeme.settle = .ok token) : token.HasSpelling characters := by
  cases lexeme with
  | complete =>
      cases settled
      exact spelling
  | slash =>
      cases settled
      exact spelling
  | sign kind => cases kind <;> cases settled <;> exact spelling
  | integer value =>
      cases settled
      exact ⟨spelling.1, congrArg Int.ofNat spelling.2⟩
  | word letters =>
      rw [HasSpelling] at spelling
      simp only [Lexeme.settle] at settled
      cases known : Keyword.ofWord? letters with
      | some keyword =>
          rw [known] at settled
          cases settled
          rw [spelling, Token.HasSpelling, String.ofList_toList]
          have same := List.find?_some known
          exact same
      | none =>
          rw [known] at settled
          cases settled
          exact spelling
  | text | escape => cases settled

/-- What holds of the first character of a token, and still holds with every further one,
holds of all that has been read. -/
theorem ofCharacters?_induction {motive : List Char → Lexeme → Prop}
    (first : ∀ {character lexeme}, start character = some lexeme → motive [character] lexeme)
    (further : ∀ {lexeme extended read}, motive read lexeme → ∀ {character},
      lexeme.extend character = .grown extended → motive (read ++ [character]) extended)
    {characters : List Char} {lexeme : Lexeme} (found : ofCharacters? characters = some lexeme) :
    motive characters lexeme := by
  have grows : ∀ (more read : List Char) (lexeme grown : Lexeme), motive read lexeme →
      lexeme.grow? more = some grown → motive (read ++ more) grown := by
    intro more
    induction more with
    | nil =>
        intro read lexeme grown holds grows
        cases grows
        rwa [List.append_nil]
    | cons character more induction =>
        intro read lexeme grown holds grows
        rw [grow?] at grows
        split at grows
        · next extended extends_ =>
            have later := induction _ _ _ (further holds extends_) grows
            rwa [List.append_assoc] at later
        · cases grows
  cases characters with
  | nil => cases found
  | cons character rest =>
      rcases Option.bind_eq_some_iff.mp found with ⟨started, starts, grown⟩
      exact grows rest [character] started lexeme (first starts) grown

theorem hasSpelling_of_ofCharacters? {characters : List Char} {lexeme : Lexeme}
    (found : ofCharacters? characters = some lexeme) : lexeme.HasSpelling characters :=
  ofCharacters?_induction hasSpelling_of_start HasSpelling.extend found

theorem wellFormed_of_ofCharacters? {characters : List Char} {lexeme : Lexeme}
    (found : ofCharacters? characters = some lexeme) : lexeme.WellFormed :=
  @ofCharacters?_induction (fun _ lexeme => lexeme.WellFormed) wellFormed_of_start
    (fun wellFormed => wellFormed.extend) _ _ found

end Lexeme

/-! ## Tokens are read as far as they go -/

namespace Token.Spelled

variable {token : Token} {characters : List Char} {next : Char}

theorem wellFormed (spelled : token.Spelled characters next) : token.WellFormed := by
  rcases spelled with ⟨lexeme, found, settled, -⟩
  exact (Lexeme.wellFormed_of_ofCharacters? found).settle settled

theorem hasSpelling (spelled : token.Spelled characters next) :
    token.HasSpelling characters := by
  rcases spelled with ⟨lexeme, found, settled, -⟩
  exact (Lexeme.hasSpelling_of_ofCharacters? found).settle settled

theorem ne_nil (spelled : token.Spelled characters next) : characters ≠ [] := by
  rcases spelled with ⟨lexeme, found, -, -⟩
  intro empty
  rw [empty] at found
  cases found

/-- No token is spelled by the characters of a token and some more. -/
theorem longest (spelled : token.Spelled characters next) {other : Token}
    (wellFormed : other.WellFormed) (more : List Char) :
    ¬ other.HasSpelling (characters ++ next :: more) := by
  intro spelling
  have blank : isBlank ' ' = true := by decide
  rcases wellFormed.spelled_of_hasSpelling spelling blank with ⟨whole, foundWhole, -, -⟩
  rcases spelled with ⟨lexeme, found, -, ended⟩
  cases characters with
  | nil => cases found
  | cons first rest =>
      rcases Option.bind_eq_some_iff.mp found with ⟨started, starts, grows⟩
      rw [List.cons_append, Lexeme.ofCharacters?, starts, Option.bind_some, Lexeme.grow?_append,
        grows, Option.bind_some, Lexeme.grow?, ended] at foundWhole
      cases foundWhole

/-- A token ends one column behind its last character. -/
theorem advance_past_dropLast (spelled : token.Spelled characters next) (position : Position) :
    (position.past characters.dropLast).advance = position.past characters := by
  have split := List.dropLast_concat_getLast spelled.ne_nil
  have noBlank : isBlank (characters.getLast spelled.ne_nil) = false := by
    apply spelled.wellFormed.isBlank_of_getLast? spelled.hasSpelling
    exact List.getLast?_eq_some_getLast spelled.ne_nil
  have noNewline : characters.getLast spelled.ne_nil ≠ '\n' := by
    intro newline
    rw [newline] at noBlank
    cases noBlank
  have noTab : characters.getLast spelled.ne_nil ≠ '\t' := by
    intro tab
    rw [tab] at noBlank
    cases noBlank
  calc
    (position.past characters.dropLast).advance
        = (position.past characters.dropLast).after (characters.getLast spelled.ne_nil) := by
          rw [Position.after, if_neg noNewline, if_neg noTab]
    _ = position.past (characters.dropLast ++ [characters.getLast spelled.ne_nil]) := by
          rw [Position.past_append]
          rfl
    _ = position.past characters := by rw [split]

end Token.Spelled

/-! ## The pieces of a line -/

/-- Reading some characters of a line shows an error at the first one of the rest, or at the
end of the line if nothing is left. -/
inductive LexicalError.Shown : LexicalError → List Char → List Char → Prop
  | badCharacter {character rest} :
      Lexeme.start character = none → isBlank character = false →
      Shown (.badCharacter character) [] (character :: rest)
  | expected {rest} : rest.head? ≠ some '=' → Shown (.expected '=') ['!'] rest
  | integerOverflow {digits digit rest} :
      IsNumeral digits → digit.isDigit = true →
      Nat.ofDigitChars 10 digits 0 ≤ largestInteger →
      largestInteger < Nat.ofDigitChars 10 (digits ++ [digit]) 0 →
      Shown .integerOverflow digits (digit :: rest)
  | unterminatedText {content} :
      (IsContent content ∨ ∃ before, IsContent before ∧ content = before ++ ['\\']) →
      Shown .unterminatedText ('"' :: content) []

/-- What is delivered for the characters of a line, the first one of which stands at a given
position. -/
inductive Line.Reads (name : String) : Position → List Char → List Lexed → Prop
  | nil {position} : Reads name position [] []
  | blank {position character rest outcomes} :
      isBlank character = true → Reads name (position.after character) rest outcomes →
      Reads name position (character :: rest) outcomes
  | remark {position text} : Reads name position ('/' :: '/' :: text) []
  | token {position token characters rest outcomes} :
      token.Spelled characters (rest.headD '\n') →
      Reads name (position.past characters) rest outcomes →
      Reads name position (characters ++ rest)
        (.ok { value := token, location := ⟨name, position, position.past characters⟩ } ::
          outcomes)
  | fault {position error characters rest} :
      error.Shown characters rest →
      Reads name position (characters ++ rest)
        [.error { value := error, location := .single name (position.past characters) }]

namespace Lexeme

/-- A lexeme grows as long as the next character lets it. -/
theorem exists_grow? (lexeme : Lexeme) (line : List Char) :
    ∃ more rest grown, line = more ++ rest ∧ lexeme.grow? more = some grown ∧
      ∀ bigger, grown.extend (rest.headD '\n') ≠ .grown bigger := by
  induction line generalizing lexeme with
  | nil =>
      refine ⟨[], [], lexeme, rfl, rfl, ?_⟩
      intro bigger grown
      rw [List.headD_nil, LexerMode.extend_newline] at grown
      cases grown
  | cons character line induction =>
      cases extended : lexeme.extend character with
      | grown larger =>
          rcases induction larger with ⟨more, rest, grown, split, grows, ends⟩
          refine ⟨character :: more, rest, grown, by rw [split]; rfl, ?_, ends⟩
          rw [grow?, extended]
          exact grows
      | comment | refused | ended =>
          refine ⟨[], character :: line, lexeme, rfl, rfl, ?_⟩
          intro bigger grown
          rw [List.headD_cons, extended] at grown
          cases grown

theorem exists_ofCharacters? {first : Char} {lexeme : Lexeme}
    (started : start first = some lexeme) (line : List Char) :
    ∃ characters rest grown, first :: line = characters ++ rest ∧ rest.length ≤ line.length ∧
      ofCharacters? characters = some grown ∧
        ∀ bigger, grown.extend (rest.headD '\n') ≠ .grown bigger := by
  rcases lexeme.exists_grow? line with ⟨more, rest, grown, rfl, grows, ends⟩
  refine ⟨first :: more, rest, grown, rfl, by simp, ?_, ends⟩
  rw [ofCharacters?, started, Option.bind_some, grows]

end Lexeme

namespace LexicalError

theorem shown_of_refused {characters rest : List Char} {lexeme : Lexeme} {character : Char}
    {error : LexicalError} (found : Lexeme.ofCharacters? characters = some lexeme)
    (refused : lexeme.extend character = .refused error) :
    error.Shown characters (character :: rest) := by
  have spelling := Lexeme.hasSpelling_of_ofCharacters? found
  have wellFormed := Lexeme.wellFormed_of_ofCharacters? found
  cases lexeme with
  | integer value =>
      rcases spelling with ⟨numeral, rfl⟩
      simp only [Lexeme.extend] at refused
      split at refused
      · next digit =>
          split at refused <;> cases refused
          next exceeds =>
            refine .integerOverflow numeral digit wellFormed ?_
            rw [Nat.ofDigitChars_append, Nat.ofDigitChars_cons]
            exact Nat.lt_of_not_le exceeds
      · cases refused
  | complete => cases refused
  | slash | sign | word | escape =>
      simp only [Lexeme.extend] at refused
      split at refused <;> cases refused
  | text content =>
      simp only [Lexeme.extend] at refused
      split at refused
      · cases refused
      · split at refused
        · cases refused
        · split at refused <;> cases refused

theorem eq_nil_of_headD {rest : List Char} (noNewline : '\n' ∉ rest)
    (newline : rest.headD '\n' = '\n') : rest = [] := by
  cases rest with
  | nil => rfl
  | cons first rest =>
      rw [List.headD_cons] at newline
      rw [newline] at noNewline
      exact absurd List.mem_cons_self noNewline

theorem shown_of_unsettled {characters rest : List Char} {lexeme : Lexeme} {error : LexicalError}
    (found : Lexeme.ofCharacters? characters = some lexeme) (noNewline : '\n' ∉ rest)
    (ended : lexeme.extend (rest.headD '\n') = .ended)
    (unsettled : lexeme.settle = .error error) : error.Shown characters rest := by
  have spelling := Lexeme.hasSpelling_of_ofCharacters? found
  have wellFormed := Lexeme.wellFormed_of_ofCharacters? found
  cases lexeme with
  | complete | slash | integer => cases unsettled
  | word letters =>
      simp only [Lexeme.settle] at unsettled
      split at unsettled <;> cases unsettled
  | sign kind =>
      cases kind <;> cases unsettled
      rw [spelling]
      apply Shown.expected
      intro equals
      rw [List.headD_eq_head?_getD, equals] at ended
      cases ended
  | text content =>
      cases unsettled
      simp only [Lexeme.extend] at ended
      split at ended
      · next newline =>
          rw [spelling, eq_nil_of_headD noNewline newline]
          exact .unterminatedText (.inl wellFormed)
      · split at ended
        · cases ended
        · split at ended <;> cases ended
  | escape content =>
      cases unsettled
      simp only [Lexeme.extend] at ended
      split at ended
      · next newline =>
          rw [spelling, eq_nil_of_headD noNewline newline]
          exact .unterminatedText (.inr wellFormed)
      · cases ended

end LexicalError

theorem Lexeme.eq_slash_of_extend {lexeme : Lexeme} {character : Char}
    (commented : lexeme.extend character = .comment) : lexeme = .slash ∧ character = '/' := by
  cases lexeme with
  | slash =>
      simp only [extend] at commented
      split at commented
      · next slash =>
          exact ⟨rfl, slash⟩
      · cases commented
  | complete => cases commented
  | sign | word | escape =>
      simp only [extend] at commented
      split at commented <;> cases commented
  | integer value =>
      simp only [extend] at commented
      split at commented
      · split at commented <;> cases commented
      · cases commented
  | text content =>
      simp only [extend] at commented
      split at commented
      · cases commented
      · split at commented
        · cases commented
        · split at commented <;> cases commented

/-- A token of a line is delivered, and then what is behind it. -/
theorem LexerMode.scan_token {token : Token} {characters rest : List Char}
    (spelled : token.Spelled characters (rest.headD '\n')) (name : String)
    (position : Position) :
    between.scan name position (characters ++ (rest ++ ['\n'])) =
      .ok { value := token, location := ⟨name, position, position.past characters⟩ } ::
        between.scan name (position.past characters) (rest ++ ['\n']) := by
  have next : ∃ others, rest ++ ['\n'] = rest.headD '\n' :: others := by
    cases rest with
    | nil => exact ⟨[], rfl⟩
    | cons first rest => exact ⟨rest ++ ['\n'], rfl⟩
  rcases next with ⟨others, next⟩
  rw [next, scan_spelled spelled, spelled.advance_past_dropLast]

/-- Behind an error nothing of its line is delivered. -/
theorem LexerMode.scan_given_up {rest : List Char} (noNewline : '\n' ∉ rest) {mode : LexerMode}
    {name : String} {position : Position} {outcomes : List Lexed}
    (stepped : mode.step (.single name position) (rest.headD '\n') =
      (outcomes, recover (rest.headD '\n'))) :
    mode.scan name position (rest ++ ['\n']) = outcomes := by
  cases rest with
  | nil =>
      rw [List.nil_append, scan_newline]
      exact congrArg Prod.fst stepped
  | cons character rest =>
      rw [List.mem_cons, not_or] at noNewline
      rw [List.headD_cons, recover, if_neg (Ne.symm noNewline.1)] at stepped
      rw [List.cons_append, scan_cons, stepped, scan_recovering noNewline.2, List.append_nil]

namespace Line

variable {characters rest : List Char} {lexeme : Lexeme}

/-- A lexeme that cannot grow is a token, starts a comment, or shows an error. -/
theorem reads_of_lexeme (name : String) (position : Position)
    (found : Lexeme.ofCharacters? characters = some lexeme)
    (ends : ∀ bigger, lexeme.extend (rest.headD '\n') ≠ .grown bigger)
    (noNewline : '\n' ∉ rest)
    (behind : Reads name (position.past characters) rest
      (LexerMode.between.scan name (position.past characters) (rest ++ ['\n']))) :
    Reads name position (characters ++ rest)
      (LexerMode.between.scan name position (characters ++ (rest ++ ['\n']))) := by
  cases extended : lexeme.extend (rest.headD '\n') with
  | grown bigger => exact absurd extended (ends bigger)
  | comment =>
      rcases Lexeme.eq_slash_of_extend extended with ⟨rfl, slash⟩
      have spelling := Lexeme.hasSpelling_of_ofCharacters? found
      rw [Lexeme.HasSpelling] at spelling
      subst spelling
      cases rest with
      | nil => cases slash
      | cons first text =>
          rw [List.headD_cons] at slash
          subst slash
          rw [List.mem_cons, not_or] at noNewline
          have skipped := LexerMode.scan_comment noNewline.2 name
            ((position.after '/').after '/') []
          rcases skipped with ⟨_, skipped⟩
          have nothing : LexerMode.between.scan name position
              (['/'] ++ ('/' :: text ++ ['\n'])) = [] := skipped
          rw [nothing]
          exact .remark
  | refused error =>
      have given : LexerMode.between.scan name position (characters ++ (rest ++ ['\n'])) =
          [.error { value := error, location := .single name (position.past characters) }] := by
        rw [LexerMode.scan_ofCharacters? found]
        apply LexerMode.scan_given_up noNewline
        simp only [LexerMode.reading, LexerMode.step, extended]
      rw [given]
      cases rest with
      | nil =>
          rw [List.headD_nil, LexerMode.extend_newline] at extended
          cases extended
      | cons first rest => exact .fault (LexicalError.shown_of_refused found extended)
  | ended =>
      cases settled : lexeme.settle with
      | ok token =>
          have spelled : token.Spelled characters (rest.headD '\n') :=
            ⟨lexeme, found, settled, extended⟩
          rw [LexerMode.scan_token spelled]
          exact .token spelled behind
      | error error =>
          have given : LexerMode.between.scan name position (characters ++ (rest ++ ['\n'])) =
              [.error { value := error, location := .single name (position.past characters) }] := by
            rw [LexerMode.scan_ofCharacters? found]
            apply LexerMode.scan_given_up noNewline
            simp only [LexerMode.reading, LexerMode.step, extended, settled]
          rw [given]
          exact .fault (LexicalError.shown_of_unsettled found noNewline extended settled)

/-- The lexer delivers for a line what its pieces give. -/
theorem reads_scan (name : String) (position : Position) {line : List Char}
    (noNewline : '\n' ∉ line) :
    Reads name position line (LexerMode.between.scan name position (line ++ ['\n'])) := by
  -- A token takes several characters at once, so the induction is on the length of the line.
  induction length : line.length using Nat.strongRecOn generalizing line position with
  | ind size induction =>
      cases line with
      | nil => exact .nil
      | cons first line =>
          have noNewlineBehind : '\n' ∉ line := fun member =>
            noNewline (List.mem_cons_of_mem _ member)
          have shorter : line.length < size := by
            rw [← length, List.length_cons]
            exact Nat.lt_succ_self _
          cases started : Lexeme.start first with
          | some lexeme =>
              rcases Lexeme.exists_ofCharacters? started line with
                ⟨characters, rest, grown, split, bound, found, ends⟩
              rw [split, List.append_assoc]
              have noNewlineRest : '\n' ∉ rest := by
                rw [split] at noNewline
                exact fun member => noNewline (List.mem_append_right _ member)
              apply reads_of_lexeme name position found ends noNewlineRest
              exact induction rest.length (by omega) _ noNewlineRest rfl
          | none =>
              cases blank : isBlank first with
              | true =>
                  rw [List.cons_append, LexerMode.scan_cons]
                  simp only [LexerMode.step, LexerMode.enter, started, blank, if_true,
                    List.nil_append]
                  exact .blank blank (induction line.length shorter _ noNewlineBehind rfl)
              | false =>
                  have given : LexerMode.between.scan name position (first :: line ++ ['\n']) =
                      [.error { value := .badCharacter first
                                location := .single name position }] := by
                    apply LexerMode.scan_given_up noNewline
                    simp [LexerMode.step, LexerMode.enter, started, blank]
                  rw [given]
                  exact .fault (.badCharacter started blank)

end Line

/-! ## Where the outcomes of a line stand -/

namespace Lexed

def location : Lexed → Location
  | .ok token => token.location
  | .error error => error.location

/-- A token or an error belongs to some characters of a line, with others before and behind
them. -/
def StandsAt (name : String) (position : Position) (before characters rest : List Char) :
    Lexed → Prop
  | .ok token => token.value.Spelled characters (rest.headD '\n') ∧
      token.location = ⟨name, position.past before, position.past (before ++ characters)⟩
  | .error error => error.value.Shown characters rest ∧
      error.location = .single name (position.past (before ++ characters))

theorem StandsAt.behind {name : String} {position : Position}
    {before characters rest front : List Char} {outcome : Lexed}
    (stands : StandsAt name (position.past front) before characters rest outcome) :
    StandsAt name position (front ++ before) characters rest outcome := by
  cases outcome <;> simpa [StandsAt, Position.past_append] using stands

end Lexed

namespace Line.Reads

variable {name : String} {position : Position} {line : List Char} {outcomes : List Lexed}
  {outcome : Lexed}

/-- Every token and every error of a line belongs to a piece of it. -/
theorem exists_piece (reads : Reads name position line outcomes)
    (member : outcome ∈ outcomes) :
    ∃ before characters rest, line = before ++ (characters ++ rest) ∧
      Lexed.StandsAt name position before characters rest outcome := by
  induction reads with
  | nil => cases member
  | @blank position character rest outcomes blank _ induction =>
      rcases induction member with ⟨before, characters, behind, rfl, stands⟩
      have single : position.after character = position.past [character] := rfl
      rw [single] at stands
      exact ⟨[character] ++ before, characters, behind, rfl, stands.behind⟩
  | remark => cases member
  | @token position token characters rest outcomes spelled _ induction =>
      rcases List.mem_cons.mp member with rfl | later
      · exact ⟨[], characters, rest, rfl, spelled, rfl⟩
      · rcases induction later with ⟨before, inside, behind, rfl, stands⟩
        refine ⟨characters ++ before, inside, behind, ?_, stands.behind⟩
        rw [List.append_assoc]
  | @fault position error characters rest shown =>
      cases List.mem_singleton.mp member
      exact ⟨[], characters, rest, rfl, shown, rfl⟩

theorem le_start (reads : Reads name position line outcomes) (member : outcome ∈ outcomes) :
    position ≤ (Lexed.location outcome).start := by
  rcases reads.exists_piece member with ⟨before, characters, rest, -, stands⟩
  cases outcome with
  | ok token =>
      rw [Lexed.location, stands.2]
      exact position.le_past before
  | error error =>
      rw [Lexed.location, stands.2]
      exact position.le_past (before ++ characters)

theorem start_lt_stop (reads : Reads name position line outcomes) (member : outcome ∈ outcomes) :
    (Lexed.location outcome).start < (Lexed.location outcome).stop := by
  rcases reads.exists_piece member with ⟨before, characters, rest, -, stands⟩
  cases outcome with
  | ok token =>
      rw [Lexed.location, stands.2, Position.past_append]
      exact Position.lt_past _ stands.1.ne_nil
  | error error =>
      rw [Lexed.location, stands.2, Position.lt_iff]
      exact .inr ⟨rfl, Nat.lt_succ_self _⟩

theorem line_start (reads : Reads name position line outcomes) (noNewline : '\n' ∉ line)
    (member : outcome ∈ outcomes) : (Lexed.location outcome).start.line = position.line := by
  rcases reads.exists_piece member with ⟨before, characters, rest, rfl, stands⟩
  simp only [List.mem_append, not_or] at noNewline
  cases outcome with
  | ok token =>
      rw [Lexed.location, stands.2]
      exact Position.line_past noNewline.1 position
  | error error =>
      rw [Lexed.location, stands.2]
      apply Position.line_past
      simpa using ⟨noNewline.1, noNewline.2.1⟩

theorem line_stop (reads : Reads name position line outcomes) (noNewline : '\n' ∉ line)
    (member : outcome ∈ outcomes) : (Lexed.location outcome).stop.line = position.line := by
  rcases reads.exists_piece member with ⟨before, characters, rest, rfl, stands⟩
  simp only [List.mem_append, not_or] at noNewline
  have inside : '\n' ∉ before ++ characters := by
    simpa using ⟨noNewline.1, noNewline.2.1⟩
  cases outcome <;>
    rw [Lexed.location, stands.2] <;> exact Position.line_past inside position

/-- The outcomes of a line stand one behind another. -/
theorem pairwise (reads : Reads name position line outcomes) :
    outcomes.Pairwise fun first second =>
      (Lexed.location first).stop ≤ (Lexed.location second).start := by
  induction reads with
  | nil | remark => exact .nil
  | blank _ _ induction => exact induction
  | token _ behind induction =>
      apply List.Pairwise.cons _ induction
      intro later member
      exact behind.le_start member
  | fault => exact List.pairwise_singleton _ _

end Line.Reads

/-! ## The rows of a source -/

namespace Line

/-- What is delivered for a line of a given number. -/
def outcomes (name : String) (number : Nat) (line : String) : List Lexed :=
  LexerMode.between.scan name ⟨number, 1⟩ (line.toList ++ ['\n'])

theorem reads_outcomes {line : String} (noNewline : '\n' ∉ line.toList) (name : String)
    (number : Nat) : Reads name ⟨number, 1⟩ line.toList (outcomes name number line) :=
  reads_scan name ⟨number, 1⟩ noNewline

/-- If no line fails to be read, all lines are readable. -/
theorem eq_map_readable {lines : List (Option String)}
    (all : lines.length ≤ (readable lines).length) : lines = (readable lines).map some := by
  induction lines with
  | nil => rfl
  | cons first rest induction =>
      cases first with
      | none => simp [readable] at all
      | some text =>
          rw [readable, List.map_cons, ← induction]
          simpa [readable] using all

end Line

namespace Source

variable {name : String} {bytes : List UInt8}

theorem lexed_ofBytes (name : String) (bytes : List UInt8) :
    (Source.ofBytes name bytes).lexed =
      ((Source.ofBytes name bytes).readable.zipIdx.flatMap fun row =>
        Line.outcomes name (row.2 + 1) row.1) ++
      Line.inputErrors name 0 (Source.ofBytes name bytes).lines := by
  have noNewlines : ∀ line, some line ∈ (Source.ofBytes name bytes).lines →
      '\n' ∉ line.toList := fun line member =>
    newline_not_mem_of_mem_lines member
  have whole : (Source.ofBytes name bytes).lexed = _ := Line.run_characters name 0 noNewlines
  have rows : ∀ row ∈ (Source.ofBytes name bytes).readable.zipIdx,
      Line.outcomes name (row.2 + 1) row.1 =
        (Line.lexed name row.1).map (Lexed.down row.2) := by
    intro row member
    have noNewline := newline_not_mem_of_mem_readable (List.fst_mem_of_mem_zipIdx member)
    rw [← Line.scan_below noNewline, Line.outcomes, Position.down, Nat.add_comm]
  rw [whole]
  refine congrArg (· ++ _) ?_
  apply List.flatMap_congr
  intro row member
  exact (rows row member).symm

/-- Every outcome belongs to a line, unless a line cannot be read. -/
theorem exists_line_of_mem_lexed {outcome : Lexed}
    (member : outcome ∈ (Source.ofBytes name bytes).lexed) :
    (∃ index line, (Source.ofBytes name bytes).readable[index]? = some line ∧
      outcome ∈ Line.outcomes name (index + 1) line) ∨
    outcome ∈ Line.inputErrors name 0 (Source.ofBytes name bytes).lines := by
  rw [lexed_ofBytes] at member
  rcases List.mem_append.mp member with inRows | input
  · left
    rcases List.mem_flatMap.mp inRows with ⟨⟨line, index⟩, row, inRow⟩
    exact ⟨index, line, List.mk_mem_zipIdx_iff_getElem?.mp row, inRow⟩
  · right
    exact input

end Source

end Firmware
