import Firmware.Expression.Basic
import Firmware.Proofs.Source.Placement
import Firmware.Proofs.Source.Text
import Firmware.Proofs.Token.WellFormed

/-! # Spellings of tokens

A token ends where the next character is no part of it. So characters that are spelled
like some tokens, each followed by a character that ends it, are read as these tokens,
wherever in a source they stand. -/

namespace Firmware

namespace Lexeme

def grow? : Lexeme → List Char → Option Lexeme
  | lexeme, [] => some lexeme
  | lexeme, character :: rest =>
      match lexeme.extend character with
      | .grown extended => extended.grow? rest
      | _ => none

/-- The lexeme of the characters of a token. -/
def ofCharacters? : List Char → Option Lexeme
  | [] => none
  | first :: rest => (start first).bind fun lexeme => lexeme.grow? rest

end Lexeme

/-- Characters are the spelling of a token that ends before a given character. -/
def Token.Spelled (token : Token) (characters : List Char) (next : Char) : Prop :=
  ∃ lexeme, Lexeme.ofCharacters? characters = some lexeme ∧
    lexeme.settle = .ok token ∧ lexeme.extend next = .ended

/-- Characters are the spellings of some tokens, with any blank characters and comments
between them. -/
inductive Spells : List Char → List Token → Prop
  | nil : Spells [] []
  | blank {character rest tokens} :
      isBlank character = true → Spells rest tokens → Spells (character :: rest) tokens
  | comment {remark rest tokens} :
      '\n' ∉ remark → Spells rest tokens → Spells ('/' :: '/' :: (remark ++ '\n' :: rest)) tokens
  | token {token characters next rest tokens} :
      token.Spelled characters next → Spells (next :: rest) tokens →
      Spells (characters ++ next :: rest) (token :: tokens)

/-! ## Characters that start a token -/

theorem isWordPart_eq (character : Char) :
    isWordPart character = (isWordStart character || character.isDigit) := by
  rw [isWordPart, isWordStart, Char.isAlphanum, Bool.or_right_comm]

theorem toNat_of_isWordStart {character : Char} (starts : isWordStart character = true) :
    (65 ≤ character.toNat ∧ character.toNat ≤ 90) ∨ character.toNat = 95 ∨
      (97 ≤ character.toNat ∧ character.toNat ≤ 122) := by
  rcases Bool.or_eq_true_iff.mp starts with letter | underscore
  · rcases Bool.or_eq_true_iff.mp letter with upper | lower
    · exact .inl (of_decide_eq_true upper)
    · rcases Bool.and_eq_true_iff.mp lower with ⟨least, greatest⟩
      exact .inr (.inr ⟨of_decide_eq_true least, of_decide_eq_true greatest⟩)
  · rw [beq_iff_eq.mp underscore]
    exact .inr (.inl rfl)

theorem isWordStart_of_isDigit {character : Char} (digit : character.isDigit = true) :
    isWordStart character = false := by
  rw [← Bool.not_eq_true]
  intro starts
  have codes := toNat_of_isWordStart starts
  have bounds : 48 ≤ character.toNat ∧ character.toNat ≤ 57 := Char.isDigit_iff_toNat.mp digit
  omega

theorem isWordPart_of_isBlank {character : Char} (blank : isBlank character = true) :
    isWordPart character = false := by
  rw [isWordPart_eq, ← Bool.not_eq_true, Bool.or_eq_true]
  simp only [isBlank, Bool.or_eq_true, Bool.and_eq_true, decide_eq_true_eq, beq_iff_eq] at blank
  rintro (starts | digit)
  · have codes := toNat_of_isWordStart starts
    omega
  · have bounds : 48 ≤ character.toNat ∧ character.toNat ≤ 57 := Char.isDigit_iff_toNat.mp digit
    omega

namespace Lexeme

theorem start_of_isBlank {character : Char} (blank : isBlank character = true) :
    start character = none := by
  have noPart := isWordPart_of_isBlank blank
  rw [isWordPart_eq, Bool.or_eq_false_iff] at noPart
  unfold start
  split
  case h_15 => simp [noPart.1, noPart.2]
  all_goals cases blank

theorem start_of_isWordStart {character : Char} (starts : isWordStart character = true) :
    start character = some (.word character.toString) := by
  unfold start
  split
  case h_15 => rw [if_pos starts]
  all_goals cases starts

theorem start_of_isDigit {character : Char} (digit : character.isDigit = true) :
    start character = some (.integer (digitValue character)) := by
  unfold start
  split
  case h_15 => simp [isWordStart_of_isDigit digit, digit]
  all_goals cases digit

end Lexeme

/-! ## Lexing spellings -/

namespace LexerMode

/-- What is delivered for characters that begin at a position of a source. -/
def scan (mode : LexerMode) (name : String) (position : Position) (characters : List Char) :
    List Lexed :=
  mode.run (.single name position) (Item.locate name position (characters.map some))

theorem scan_cons (mode : LexerMode) (name : String) (position : Position) (character : Char)
    (rest : List Char) :
    mode.scan name position (character :: rest) =
      (mode.step (.single name position) character).1 ++
        (mode.step (.single name position) character).2.scan name (position.after character)
          rest :=
  rfl

/-- The mode in the middle of a token of which the characters `read` have been read, the
first one at `start`. -/
def reading (lexeme : Lexeme) (name : String) (start : Position) (read : List Char) : LexerMode :=
  .within lexeme (.single name start) (.single name (start.past read.dropLast))

/-- As long as characters extend a lexeme, nothing is delivered. -/
theorem scan_grow? {lexeme grown : Lexeme} {characters : List Char}
    (grows : lexeme.grow? characters = some grown) (name : String) (start : Position)
    (read rest : List Char) :
    (reading lexeme name start read).scan name (start.past read) (characters ++ rest) =
      (reading grown name start (read ++ characters)).scan name
        (start.past (read ++ characters)) rest := by
  induction characters generalizing lexeme read with
  | nil =>
      cases grows
      rw [List.append_nil, List.nil_append]
  | cons character characters induction =>
      unfold Lexeme.grow? at grows
      split at grows
      · next extended extends_ =>
          have later := induction grows (read ++ [character])
          rw [List.append_assoc, List.singleton_append, Position.past_append] at later
          rw [List.cons_append, scan_cons, ← later, reading, reading, List.dropLast_concat]
          simp only [step, extends_, List.nil_append]
          rfl
      · cases grows

theorem scan_ofCharacters? {lexeme : Lexeme} {characters : List Char}
    (found : Lexeme.ofCharacters? characters = some lexeme) (name : String) (start : Position)
    (rest : List Char) :
    between.scan name start (characters ++ rest) =
      (reading lexeme name start characters).scan name (start.past characters) rest := by
  cases characters with
  | nil => cases found
  | cons first characters =>
      rcases Option.bind_eq_some_iff.mp found with ⟨started, starts, grows⟩
      have grown := scan_grow? grows name start [first] rest
      rw [List.cons_append, scan_cons]
      simp only [step, enter, starts, List.nil_append]
      exact grown

/-- A token is delivered before the character that ends it is read. -/
theorem scan_ended {lexeme : Lexeme} {token : Token} {next : Char}
    (ended : lexeme.extend next = .ended) (settled : lexeme.settle = .ok token)
    (name : String) (position : Position) (first last : Location) (rest : List Char) :
    (within lexeme first last).scan name position (next :: rest) =
      .ok { value := token, location := first.span last } ::
        between.scan name position (next :: rest) := by
  rw [scan_cons, scan_cons]
  simp only [step, ended, settled, List.cons_append]

theorem scan_spelled {token : Token} {characters : List Char} {next : Char}
    (spelled : token.Spelled characters next) (name : String) (start : Position)
    (rest : List Char) :
    between.scan name start (characters ++ next :: rest) =
      .ok { value := token
            location := ⟨name, start, (start.past characters.dropLast).advance⟩ } ::
        between.scan name (start.past characters) (next :: rest) := by
  rcases spelled with ⟨lexeme, found, settled, ended⟩
  rw [scan_ofCharacters? found]
  exact scan_ended ended settled name _ _ _ rest

theorem scan_comment {remark : List Char} (noNewline : '\n' ∉ remark) (name : String)
    (position : Position) (rest : List Char) :
    ∃ newPosition,
      comment.scan name position (remark ++ '\n' :: rest) = between.scan name newPosition rest := by
  induction remark generalizing position with
  | nil => exact ⟨position.after '\n', rfl⟩
  | cons character remark induction =>
      rw [List.mem_cons, not_or] at noNewline
      rcases induction noNewline.2 (position.after character) with ⟨newPosition, scanned⟩
      refine ⟨newPosition, ?_⟩
      rw [List.cons_append, scan_cons]
      simp only [step, if_neg (Ne.symm noNewline.1), List.nil_append]
      exact scanned

theorem scan_spells {characters : List Char} {tokens : List Token}
    (spells : Spells characters tokens) (name : String) (position : Position) :
    ∃ located : List (Located Token), between.scan name position characters = located.map .ok ∧
      located.map Located.value = tokens := by
  induction spells generalizing position with
  | nil => exact ⟨[], rfl, rfl⟩
  | @blank character rest tokens blank _ induction =>
      rcases induction (position.after character) with ⟨located, scanned, values⟩
      refine ⟨located, ?_, values⟩
      rw [scan_cons]
      simp only [step, enter, Lexeme.start_of_isBlank blank, blank, if_true, List.nil_append]
      exact scanned
  | @comment remark rest tokens noNewline _ induction =>
      rcases scan_comment noNewline name ((position.after '/').after '/') rest with
        ⟨newPosition, skipped⟩
      rcases induction newPosition with ⟨located, scanned, values⟩
      refine ⟨located, ?_, values⟩
      rw [← scanned, ← skipped]
      rfl
  | @token token characters next rest tokens spelled _ induction =>
      rcases induction (position.past characters) with ⟨located, scanned, values⟩
      rw [scan_spelled spelled, scanned]
      exact ⟨_ :: located, rfl, by simp [values]⟩

end LexerMode

theorem Lexed.collect_map_ok (located : List (Located Token)) :
    collect (located.map .ok) = .ok located := by
  have noErrors : (located.map (Except.ok : _ → Lexed)).filterMap error? = [] := by
    simp [List.filterMap_map, Function.comp_def, error?]
  have tokens : (located.map (Except.ok : _ → Lexed)).filterMap token? = located := by
    simp [List.filterMap_map, Function.comp_def, token?]
  rw [collect, noErrors, tokens]

/-- The tokens of a text are those that the text, with the end of its line, spells. -/
theorem Source.tokens_of_spells {text : String} {tokens : List Token} (name : String)
    (nonempty : text.toList ≠ []) (noNewline : '\n' ∉ text.toList)
    (spells : Spells (text.toList ++ ['\n']) tokens) :
    ∃ located, (Source.ofBytes name (utf8 text)).tokens = .ok located ∧
      located.map Located.value = tokens := by
  rcases LexerMode.scan_spells spells name {} with ⟨located, scanned, values⟩
  refine ⟨located, ?_, values⟩
  rw [ofBytes_utf8 name nonempty noNewline, ← Lexed.collect_map_ok, ← scanned]
  simp [Source.tokens, lex, LexerMode.scan, items, start, Line.characters]

/-! ## The usual spellings -/

/-- A token as a source usually writes it. -/
def Token.print : Token → String
  | .identifier name => name
  | .keyword word => word.spelling
  | .integer value => toString value
  | .text content => Expr.quote content
  | .operator kind => kind.symbol
  | .assign => "="
  | .colon => ":"
  | .semicolon => ";"
  | .comma => ","
  | .openParen => "("
  | .closeParen => ")"

/-- A character in front of which a token ends. -/
def Token.EndsBefore (next : Char) : Token → Prop
  | .identifier _ | .keyword _ | .integer _ => isWordPart next = false
  | .operator .divide => next ≠ '/'
  | .operator .less | .operator .greater | .assign => next ≠ '='
  | _ => True

theorem push_append_ofList (text : String) (character : Char) (rest : List Char) :
    text.push character ++ String.ofList rest = text ++ String.ofList (character :: rest) := by
  rw [← String.toList_inj]
  simp

/-- One digit or more. -/
def IsNumeral (characters : List Char) : Prop :=
  characters ≠ [] ∧ ∀ digit ∈ characters, digit.isDigit = true

theorem isNumeral_repr (value : Nat) : IsNumeral value.repr.toList := by
  refine ⟨?_, fun digit => isDigit_of_mem_repr⟩
  rw [Nat.toList_repr]
  exact Nat.toDigits_ne_nil

theorem ofDigitChars_repr (value : Nat) : Nat.ofDigitChars 10 value.repr.toList 0 = value := by
  rw [Nat.toList_repr, Nat.ofDigitChars_ten_toDigits]

namespace Lexeme

theorem grow?_append (lexeme : Lexeme) (first second : List Char) :
    lexeme.grow? (first ++ second) = (lexeme.grow? first).bind fun grown => grown.grow? second := by
  induction first generalizing lexeme with
  | nil => rfl
  | cons character rest induction =>
      rw [List.cons_append, grow?, grow?]
      split
      · exact induction _
      · rfl

theorem grow?_word {characters : List Char}
    (parts : ∀ character ∈ characters, isWordPart character = true) (letters : String) :
    (word letters).grow? characters = some (.word (letters ++ String.ofList characters)) := by
  induction characters generalizing letters with
  | nil => simp [grow?]
  | cons character rest induction =>
      have part := parts character List.mem_cons_self
      have restParts : ∀ other ∈ rest, isWordPart other = true := fun other member =>
        parts other (List.mem_cons_of_mem _ member)
      simp only [grow?, extend, part, if_true]
      rw [induction restParts, push_append_ofList]

/-- Digits are read in decimal. -/
theorem grow?_integer {digits : List Char}
    (areDigits : ∀ digit ∈ digits, digit.isDigit = true) (value : Nat)
    (bound : Nat.ofDigitChars 10 digits value ≤ largestInteger) :
    (integer value).grow? digits = some (.integer (Nat.ofDigitChars 10 digits value)) := by
  induction digits generalizing value with
  | nil => rfl
  | cons digit rest induction =>
      have isDigit := areDigits digit List.mem_cons_self
      have restDigits : ∀ other ∈ rest, other.isDigit = true := fun other member =>
        areDigits other (List.mem_cons_of_mem _ member)
      rw [Nat.ofDigitChars_cons] at bound ⊢
      have prefixBound : 10 * value + digitValue digit ≤ largestInteger := by
        rw [Nat.ofDigitChars_eq_ofDigitChars_zero] at bound
        have positive : 0 < 10 ^ rest.length := Nat.pow_pos (by decide)
        calc
          10 * value + digitValue digit ≤ 10 ^ rest.length * (10 * value + digitValue digit) :=
            Nat.le_mul_of_pos_left _ positive
          _ ≤ largestInteger := Nat.le_trans (Nat.le_add_right _ _) bound
      simp only [grow?, extend, isDigit, if_true, prefixBound]
      exact induction restDigits _ bound

theorem grow?_text {characters : List Char} (closed : IsContent characters) (content : String) :
    (text content).grow? (characters ++ ['"']) =
      some (.complete (.text (content ++ String.ofList characters))) := by
  induction closed generalizing content with
  | nil => simp [grow?, extend]
  | plain noQuote noBackslash noNewline _ induction =>
      rw [List.cons_append, grow?, extend]
      simp only [noQuote, noBackslash, noNewline, if_false]
      rw [induction, push_append_ofList]
  | escaped noNewline _ induction =>
      rw [List.cons_append, List.cons_append, grow?, extend]
      simp only [Char.reduceEq, if_false, if_true]
      rw [grow?, extend, if_neg noNewline]
      simp only []
      rw [induction, push_append_ofList, push_append_ofList]

theorem extend_word_eq_ended {next : Char} (noPart : isWordPart next = false)
    (letters : String) : (word letters).extend next = .ended := by
  simp [extend, noPart]

theorem extend_integer_eq_ended {next : Char} (noPart : isWordPart next = false) (value : Nat) :
    (integer value).extend next = .ended := by
  rw [isWordPart_eq, Bool.or_eq_false_iff] at noPart
  simp [extend, noPart.2]

theorem ofCharacters?_word {letters : String} (isWord : IsWord letters.toList) :
    ofCharacters? letters.toList = some (.word letters) := by
  match split : letters.toList, isWord with
  | first :: rest, ⟨starts, parts⟩ =>
      have whole : first.toString ++ String.ofList rest = letters := by
        rw [← String.toList_inj]
        simp [split]
      rw [ofCharacters?, start_of_isWordStart starts, Option.bind_some, grow?_word parts, whole]

theorem ofCharacters?_numeral {digits : List Char} (numeral : IsNumeral digits)
    (bound : Nat.ofDigitChars 10 digits 0 ≤ largestInteger) :
    ofCharacters? digits = some (.integer (Nat.ofDigitChars 10 digits 0)) := by
  match digits, numeral with
  | first :: rest, ⟨_, areDigits⟩ =>
      have isDigit := areDigits first List.mem_cons_self
      have restDigits : ∀ other ∈ rest, other.isDigit = true := fun other member =>
        areDigits other (List.mem_cons_of_mem _ member)
      have shifted : Nat.ofDigitChars 10 (first :: rest) 0 =
          Nat.ofDigitChars 10 rest (digitValue first) := by
        rw [Nat.ofDigitChars_cons, Nat.mul_zero, Nat.zero_add, digitValue]
      rw [shifted] at bound ⊢
      rw [ofCharacters?, start_of_isDigit isDigit, Option.bind_some]
      exact grow?_integer restDigits (digitValue first) bound

theorem ofCharacters?_repr {value : Nat} (bound : value ≤ largestInteger) :
    ofCharacters? value.repr.toList = some (.integer value) := by
  have decimal := ofDigitChars_repr value
  rw [← decimal] at bound
  have found := ofCharacters?_numeral (isNumeral_repr value) bound
  rwa [decimal] at found

theorem ofCharacters?_quote {content : String} (closed : IsContent content.toList) :
    ofCharacters? (Expr.quote content).toList = some (.complete (.text content)) := by
  have characters : (Expr.quote content).toList = '"' :: (content.toList ++ ['"']) := by
    simp [Expr.quote]
  rw [characters]
  refine (grow?_text closed "").trans ?_
  rw [String.ofList_toList, String.empty_append]

end Lexeme

theorem Keyword.isWord_spelling (keyword : Keyword) : IsWord keyword.spelling.toList := by
  cases keyword <;> decide

/-- A well-formed token is read from its usual spelling. -/
theorem Token.WellFormed.spelled {token : Token} (wellFormed : token.WellFormed) {next : Char}
    (ends : token.EndsBefore next) : token.Spelled token.print.toList next := by
  cases token with
  | identifier name =>
      rcases wellFormed with ⟨isWord, noKeyword⟩
      refine ⟨.word name, Lexeme.ofCharacters?_word isWord, ?_, Lexeme.extend_word_eq_ended ends _⟩
      rw [Lexeme.settle, (Keyword.ofWord?_eq_none_iff name).mpr noKeyword]
  | keyword word =>
      refine ⟨.word word.spelling, Lexeme.ofCharacters?_word word.isWord_spelling, ?_,
        Lexeme.extend_word_eq_ended ends _⟩
      rw [Lexeme.settle, Keyword.ofWord?_spelling]
  | integer value =>
      rcases wellFormed with ⟨nonneg, bound⟩
      rcases Int.eq_ofNat_of_zero_le nonneg with ⟨magnitude, rfl⟩
      exact ⟨.integer magnitude, Lexeme.ofCharacters?_repr (Int.ofNat_le.mp bound), rfl,
        Lexeme.extend_integer_eq_ended ends _⟩
  | text content => exact ⟨_, Lexeme.ofCharacters?_quote wellFormed, rfl, rfl⟩
  | operator kind =>
      cases kind with
      | divide => exact ⟨.slash, rfl, rfl, if_neg ends⟩
      | less => exact ⟨.sign .less, rfl, rfl, if_neg ends⟩
      | greater => exact ⟨.sign .greater, rfl, rfl, if_neg ends⟩
      | _ => exact ⟨.complete (.operator _), rfl, rfl, rfl⟩
  | assign => exact ⟨.sign .equals, rfl, rfl, if_neg ends⟩
  | colon | semicolon | comma | openParen | closeParen => exact ⟨.complete _, rfl, rfl, rfl⟩

theorem isWordPart_of_mem_isWord {characters : List Char} (isWord : IsWord characters) :
    ∀ character ∈ characters, isWordPart character = true := by
  match characters, isWord with
  | first :: rest, ⟨starts, parts⟩ =>
      intro character member
      rcases List.mem_cons.mp member with rfl | later
      · rw [isWordPart_eq, starts, Bool.true_or]
      · exact parts character later

/-- A token is spelled on one line. -/
theorem Token.WellFormed.newline_not_mem_print {token : Token} (wellFormed : token.WellFormed) :
    '\n' ∉ token.print.toList := by
  cases token with
  | identifier name =>
      intro newline
      cases isWordPart_of_mem_isWord wellFormed.1 _ newline
  | keyword word =>
      intro newline
      cases isWordPart_of_mem_isWord word.isWord_spelling _ newline
  | integer value =>
      rcases Int.eq_ofNat_of_zero_le wellFormed.1 with ⟨magnitude, rfl⟩
      intro newline
      cases isDigit_of_mem_repr newline
  | text content =>
      have absent : '\n' ∉ content.toList := IsContent.newline_not_mem wellFormed
      simpa [print, Expr.quote] using absent
  | operator kind => cases kind <;> decide
  | assign | colon | semicolon | comma | openParen | closeParen => decide

end Firmware
