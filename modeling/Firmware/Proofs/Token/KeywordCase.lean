import Firmware.Build
import Firmware.Proofs.Token.Reading
import Mathlib.Data.List.Forall2

/-! # The case of keywords

Letters inside keywords may change their case: the lexer delivers the same tokens and errors
at the same locations, so that the program, its analysis and its code stay the same. Letters
elsewhere (in names, texts, comments, and behind an error) keep theirs. -/

namespace Firmware

/-! ## Characters in another case -/

theorem eq_of_toLower_eq {character other : Char} (noLetter : other.isAlpha = false)
    (same : character.toLower = other.toLower) : character = other := by
  have unchanged : other.toLower = other := by
    rcases isAlpha_or_toLower_eq other with letter | unchanged
    · rw [noLetter] at letter
      cases letter
    · exact unchanged
  rw [unchanged] at same
  rcases isAlpha_or_toLower_eq character with letter | lower
  · rw [← isAlpha_toLower, same, noLetter] at letter
    cases letter
  · rw [← lower, same]

theorem isAlpha_of_isDigit {character : Char} (digit : character.isDigit = true) :
    character.isAlpha = false := by
  have noStart := isWordStart_of_isDigit digit
  rw [isWordStart, Bool.or_eq_false_iff] at noStart
  exact noStart.1

theorem newline_not_mem_of_map_toLower {line other : List Char}
    (same : other.map Char.toLower = line.map Char.toLower) (noNewline : '\n' ∉ line) :
    '\n' ∉ other := by
  intro newline
  have lowered : Char.toLower '\n' ∈ line.map Char.toLower := by
    rw [← same]
    exact List.mem_map_of_mem newline
  rcases List.mem_map.mp lowered with ⟨character, member, equal⟩
  rw [eq_of_toLower_eq (by decide) equal] at member
  exact noNewline member

theorem Position.after_of_toLower_eq {character other : Char}
    (same : other.toLower = character.toLower) (position : Position) :
    position.after other = position.after character := by
  have equal : ∀ special : Char, special.isAlpha = false →
      (other = special ↔ character = special) := by
    intro special noLetter
    constructor
    · rintro rfl
      exact eq_of_toLower_eq noLetter same.symm
    · rintro rfl
      exact eq_of_toLower_eq noLetter same
  rw [after, after, if_congr (equal '\n' (by decide)) rfl rfl]
  exact if_congr Iff.rfl rfl (if_congr (equal '\t' (by decide)) rfl rfl)

theorem Position.past_of_map_toLower {characters other : List Char}
    (same : other.map Char.toLower = characters.map Char.toLower) (position : Position) :
    position.past other = position.past characters := by
  induction characters generalizing other position with
  | nil =>
      rw [List.map_nil, List.map_eq_nil_iff] at same
      rw [same]
  | cons character characters induction =>
      cases other with
      | nil => cases same
      | cons first other =>
          rw [List.map_cons, List.map_cons, List.cons.injEq] at same
          rw [past_cons, past_cons, after_of_toLower_eq same.1, induction same.2]

namespace Lexeme

/-- The case of the next letter does not matter to the end of a token. -/
theorem extend_eq_ended_of_toLower_eq {lexeme : Lexeme} {token : Token}
    (settled : lexeme.settle = .ok token) {next other : Char}
    (same : other.toLower = next.toLower) (ended : lexeme.extend next = .ended) :
    lexeme.extend other = .ended := by
  cases lexeme with
  | complete => rfl
  | slash =>
      simp only [extend] at ended ⊢
      split
      · next slash =>
          subst slash
          rw [eq_of_toLower_eq (by decide) same.symm] at ended
          cases ended
      · rfl
  | sign kind =>
      simp only [extend] at ended ⊢
      split
      · next equals =>
          subst equals
          rw [eq_of_toLower_eq (by decide) same.symm] at ended
          cases ended
      · rfl
  | integer value =>
      cases digit : other.isDigit with
      | false => simp [extend, digit]
      | true => rwa [eq_of_toLower_eq (isAlpha_of_isDigit digit) same.symm] at ended
  | word letters =>
      have samePart : isWordPart other = isWordPart next := by
        rw [← isWordPart_toLower, same, isWordPart_toLower]
      cases part : isWordPart next with
      | true => simp [extend, part] at ended
      | false => simp [extend, samePart, part]
  | text | escape => cases settled

end Lexeme

namespace Token.Spelled

variable {characters other : List Char} {next changed : Char}

theorem of_next {token : Token} (spelled : token.Spelled characters next)
    (same : changed.toLower = next.toLower) : token.Spelled characters changed := by
  rcases spelled with ⟨lexeme, found, settled, ended⟩
  exact ⟨lexeme, found, settled, Lexeme.extend_eq_ended_of_toLower_eq settled same ended⟩

/-- A keyword is also spelled by the same letters in another case. -/
theorem of_map_toLower {word : Keyword} (spelled : (Token.keyword word).Spelled characters next)
    (same : other.map Char.toLower = characters.map Char.toLower) :
    (Token.keyword word).Spelled other next := by
  have spelling : (Token.keyword word).HasSpelling other := by
    have before := of_decide_eq_true spelled.hasSpelling
    apply decide_eq_true
    rw [before, String.toList_ofList, String.toList_ofList, same]
  have isWord := isWord_of_hasSpelling_keyword spelled.hasSpelling
  rcases spelled with ⟨lexeme, found, settled, ended⟩
  have isLexeme : Lexeme.word (String.ofList characters) = lexeme := by
    rw [← String.toList_ofList (l := characters)] at isWord found
    rw [Lexeme.ofCharacters?_word isWord] at found
    exact Option.some.inj found
  subst isLexeme
  have noPart : isWordPart next = false := by
    cases part : isWordPart next with
    | false => rfl
    | true => simp [Lexeme.extend, part] at ended
  refine ⟨.word (String.ofList other), ?_, ?_, Lexeme.extend_word_eq_ended noPart _⟩
  · rw [← Lexeme.ofCharacters?_word (Keyword.isWord_of_sameIgnoringCase spelling),
      String.toList_ofList]
  · rw [Lexeme.settle, Keyword.ofWord?_of_sameIgnoringCase spelling]

end Token.Spelled

/-! ## Respelled lines -/

def Token.isKeyword : Token → Bool
  | .keyword _ => true
  | _ => false

namespace Lexed

/-- A keyword whose location covers a position. -/
def KeywordAt (position : Position) : Lexed → Prop
  | .ok token => token.value.isKeyword = true ∧ token.location.Covers position
  | .error _ => False

instance (position : Position) : DecidablePred (KeywordAt position)
  | .ok _ => inferInstanceAs (Decidable (_ ∧ _))
  | .error _ => .isFalse id

theorem KeywordAt.covers {position : Position} {outcome : Lexed}
    (keyword : KeywordAt position outcome) : (location outcome).Covers position := by
  cases outcome with
  | ok token => exact keyword.2
  | error error => cases keyword

end Lexed

/-- A character that stays as it is or, inside a keyword, changes its case. -/
def Respelled (outcomes : List Lexed) (entry : Position × Char) (character : Char) : Prop :=
  character = entry.2 ∨
    character.toLower = entry.2.toLower ∧ ∃ outcome ∈ outcomes, Lexed.KeywordAt entry.1 outcome

instance (outcomes : List Lexed) (entry : Position × Char) (character : Char) :
    Decidable (Respelled outcomes entry character) :=
  inferInstanceAs (Decidable (_ ∨ _))

namespace Respelled

variable {outcomes kept : List Lexed} {entry : Position × Char} {character : Char}

theorem toLower_eq (respelled : Respelled outcomes entry character) :
    character.toLower = entry.2.toLower := by
  rcases respelled with rfl | ⟨same, -⟩
  · rfl
  · exact same

/-- Only what covers a character matters to it. -/
theorem restrict (respelled : Respelled outcomes entry character)
    (covering : ∀ outcome ∈ outcomes, (Lexed.location outcome).Covers entry.1 → outcome ∈ kept) :
    Respelled kept entry character := by
  rcases respelled with unchanged | ⟨same, outcome, member, keyword⟩
  · exact .inl unchanged
  · exact .inr ⟨same, outcome, covering outcome member keyword.covers, keyword⟩

/-- Outside of keywords nothing changes. -/
theorem eq_of_free (respelled : Respelled outcomes entry character)
    (free : ∀ outcome ∈ outcomes, ¬ Lexed.KeywordAt entry.1 outcome) : character = entry.2 := by
  rcases respelled with unchanged | ⟨-, outcome, member, keyword⟩
  · exact unchanged
  · exact absurd keyword (free outcome member)

end Respelled

namespace Line

variable {outcomes kept : List Lexed} {position : Position} {characters other : List Char}

theorem map_toLower_of_respelled
    (respelled : List.Forall₂ (Respelled outcomes) (placed position characters) other) :
    other.map Char.toLower = characters.map Char.toLower := by
  induction characters generalizing position other with
  | nil =>
      cases respelled
      rfl
  | cons character characters induction =>
      rcases List.forall₂_cons_left_iff.mp respelled with ⟨first, rest, changed, behind, rfl⟩
      rw [List.map_cons, List.map_cons, changed.toLower_eq, induction behind]

theorem restrict_respelled
    (respelled : List.Forall₂ (Respelled outcomes) (placed position characters) other)
    (covering : ∀ entry ∈ placed position characters, ∀ outcome ∈ outcomes,
      (Lexed.location outcome).Covers entry.1 → outcome ∈ kept) :
    List.Forall₂ (Respelled kept) (placed position characters) other := by
  have both := (List.forall₂_and_left _ _).mpr ⟨covering, respelled⟩
  exact both.imp fun entry character facts => facts.2.restrict facts.1

theorem eq_of_respelled
    (respelled : List.Forall₂ (Respelled outcomes) (placed position characters) other)
    (free : ∀ entry ∈ placed position characters, ∀ outcome ∈ outcomes,
      ¬ Lexed.KeywordAt entry.1 outcome) : other = characters := by
  have both := (List.forall₂_and_left _ _).mpr ⟨free, respelled⟩
  have same : List.Forall₂ (fun entry character => entry.2 = character)
      (placed position characters) other :=
    both.imp fun entry character facts => (facts.2.eq_of_free facts.1).symm
  rw [← List.forall₂_map_left_iff, map_snd_placed, List.forall₂_eq_eq_eq] at same
  exact same.symm

theorem exists_split_of_forall₂ {R : Position × Char → Char → Prop} {first second : List Char}
    (related : List.Forall₂ R (placed position (first ++ second)) other) :
    ∃ front behind, other = front ++ behind ∧
      List.Forall₂ R (placed position first) front ∧
      List.Forall₂ R (placed (position.past first) second) behind := by
  induction first generalizing position other with
  | nil => exact ⟨[], other, rfl, .nil, related⟩
  | cons character first induction =>
      rcases List.forall₂_cons_left_iff.mp related with ⟨changed, rest, head, tail, rfl⟩
      rcases induction tail with ⟨front, behind, rfl, frontRelated, behindRelated⟩
      exact ⟨changed :: front, behind, rfl, .cons head frontRelated, behindRelated⟩

/-- A token is also read from its characters respelled. -/
theorem spelled_of_respelled {name : String} {token : Token} {next changed : Char}
    (spelled : token.Spelled characters next) (same : changed.toLower = next.toLower)
    (respelled : List.Forall₂
      (Respelled [.ok ⟨token, ⟨name, position, position.past characters⟩⟩])
      (placed position characters) other) :
    token.Spelled other changed := by
  by_cases isKeyword : token.isKeyword = true
  · cases token with
    | keyword word =>
        exact (spelled.of_map_toLower (map_toLower_of_respelled respelled)).of_next same
    | _ => cases isKeyword
  · have unchanged : other = characters := by
      apply eq_of_respelled respelled
      intro entry _ outcome member keyword
      cases List.mem_singleton.mp member
      exact isKeyword keyword.1
    rw [unchanged]
    exact spelled.of_next same

theorem toLower_headD_of_respelled
    (respelled : List.Forall₂ (Respelled outcomes) (placed position characters) other) :
    (other.headD '\n').toLower = (characters.headD '\n').toLower := by
  cases characters with
  | nil =>
      cases respelled
      rfl
  | cons character characters =>
      rcases List.forall₂_cons_left_iff.mp respelled with ⟨first, rest, changed, -, rfl⟩
      exact changed.toLower_eq

/-- A line with respelled keywords gives the same tokens and errors. -/
theorem Reads.scan_of_respelled {name : String} {line : List Char}
    (reads : Reads name position line outcomes)
    (delivered : LexerMode.between.scan name position (line ++ ['\n']) = outcomes)
    (respelled : List.Forall₂ (Respelled outcomes) (placed position line) other) :
    LexerMode.between.scan name position (other ++ ['\n']) = outcomes := by
  induction reads generalizing other with
  | nil | remark =>
      rw [eq_of_respelled respelled (by simp)]
      exact delivered
  | fault =>
      rw [eq_of_respelled respelled (by simp [Lexed.KeywordAt])]
      exact delivered
  | @blank position character rest outcomes blank behind induction =>
      rcases List.forall₂_cons_left_iff.mp respelled with ⟨first, others, changed, later, rfl⟩
      have unchanged : first = character := by
        apply changed.eq_of_free
        intro outcome member keyword
        have beyond := (position.lt_after character).trans_le (behind.le_start member)
        exact absurd keyword.covers.1 (not_le.mpr beyond)
      subst unchanged
      have skipped : ∀ text, LexerMode.between.scan name position (first :: text) =
          LexerMode.between.scan name (position.after first) text := by
        intro text
        rw [LexerMode.scan_cons]
        simp only [LexerMode.step, LexerMode.enter, Lexeme.start_of_isBlank blank, blank, if_true,
          List.nil_append]
      rw [List.cons_append, skipped] at delivered ⊢
      exact induction delivered later
  | @token position token characters rest outcomes spelled behind induction =>
      rcases exists_split_of_forall₂ respelled with ⟨front, others, rfl, inside, later⟩
      have own : List.Forall₂
          (Respelled [.ok ⟨token, ⟨name, position, position.past characters⟩⟩])
          (placed position characters) front := by
        apply restrict_respelled inside
        intro entry entryMember outcome member covers
        rcases List.mem_cons.mp member with same | beyond
        · exact List.mem_singleton.mpr same
        · have before := (placed_bounds entryMember).2.trans_le (behind.le_start beyond)
          exact absurd covers.1 (not_le.mpr before)
      have behindRespelled : List.Forall₂ (Respelled outcomes)
          (placed (position.past characters) rest) others := by
        apply restrict_respelled later
        intro entry entryMember outcome member covers
        rcases List.mem_cons.mp member with rfl | beyond
        · exact absurd covers.2 (not_lt.mpr (placed_bounds entryMember).1)
        · exact beyond
      have spelledAgain := spelled_of_respelled spelled
        (toLower_headD_of_respelled behindRespelled) own
      have samePast := Position.past_of_map_toLower (map_toLower_of_respelled own) position
      rw [List.append_assoc, LexerMode.scan_token spelled, List.cons.injEq] at delivered
      rw [List.append_assoc, LexerMode.scan_token spelledAgain, samePast,
        induction delivered.2 behindRespelled]

end Line

/-! ## Respelled texts -/

theorem LexerMode.scan_line {line : List Char} (noNewline : '\n' ∉ line) (mode : LexerMode)
    (name : String) (position : Position) (rest : List Char) :
    mode.scan name position (line ++ '\n' :: rest) =
      mode.scan name position (line ++ ['\n']) ++ between.scan name position.newline rest := by
  have split := run_line noNewline mode name position (rest.map some)
  rw [scan, List.map_append, List.map_cons, split]
  rfl

namespace Line

variable {name : String} {lines : List (List Char)} {other : List Char}

theorem le_start_of_mem_scan (noNewlines : ∀ line ∈ lines, '\n' ∉ line) {position : Position}
    {outcome : Lexed}
    (member : outcome ∈ LexerMode.between.scan name position (lines.flatMap (· ++ ['\n']))) :
    position ≤ (Lexed.location outcome).start := by
  induction lines generalizing position with
  | nil => cases member
  | cons line lines induction =>
      rw [List.forall_mem_cons] at noNewlines
      rw [List.flatMap_cons, List.append_assoc, List.singleton_append,
        LexerMode.scan_line noNewlines.1] at member
      rcases List.mem_append.mp member with here | below
      · exact (reads_scan name position noNewlines.1).le_start here
      · exact (position.lt_after '\n').le.trans (induction noNewlines.2 below)

theorem scan_lines_of_respelled (noNewlines : ∀ line ∈ lines, '\n' ∉ line)
    (position : Position)
    (respelled : List.Forall₂
      (Respelled (LexerMode.between.scan name position (lines.flatMap (· ++ ['\n']))))
      (placed position (lines.flatMap (· ++ ['\n']))) other) :
    LexerMode.between.scan name position other =
      LexerMode.between.scan name position (lines.flatMap (· ++ ['\n'])) := by
  induction lines generalizing position other with
  | nil =>
      cases respelled
      rfl
  | cons line lines induction =>
      rw [List.forall_mem_cons] at noNewlines
      rw [List.flatMap_cons, List.append_assoc, List.singleton_append,
        LexerMode.scan_line noNewlines.1] at respelled ⊢
      have reads := reads_scan name position noNewlines.1
      rcases exists_split_of_forall₂ respelled with ⟨changed, behind, rfl, inLine, fromNewline⟩
      rcases List.forall₂_cons_left_iff.mp fromNewline with
        ⟨newline, below, isNewline, inBelow, rfl⟩
      obtain rfl : newline = '\n' := eq_of_toLower_eq (by decide) isNewline.toLower_eq
      rw [Position.past_newline noNewlines.1] at inBelow
      -- What is delivered for the lines below starts there, and what is delivered for this line
      -- ends on it, so each part of the text only depends on its own outcomes.
      have lineRespelled : List.Forall₂
          (Respelled (LexerMode.between.scan name position (line ++ ['\n'])))
          (placed position line) changed := by
        apply restrict_respelled inLine
        intro entry entryMember outcome member covers
        rcases List.mem_append.mp member with here | later
        · exact here
        · have before := (placed_bounds entryMember).2.trans
            ((position.past line).lt_after '\n')
          rw [Position.past_newline noNewlines.1] at before
          have start := before.trans_le (le_start_of_mem_scan noNewlines.2 later)
          exact absurd covers.1 (not_le.mpr start)
      have belowRespelled : List.Forall₂
          (Respelled (LexerMode.between.scan name position.newline
            (lines.flatMap (· ++ ['\n']))))
          (placed position.newline (lines.flatMap (· ++ ['\n']))) below := by
        apply restrict_respelled inBelow
        intro entry entryMember outcome member covers
        rcases List.mem_append.mp member with here | later
        · have stop := (placed_bounds entryMember).1.trans_lt covers.2
          have sameLine := reads.line_stop noNewlines.1 here
          have nextLine : position.newline.line = position.line + 1 := rfl
          rw [Position.lt_iff] at stop
          omega
        · exact later
      have noNewlineChanged := newline_not_mem_of_map_toLower
        (map_toLower_of_respelled lineRespelled) noNewlines.1
      rw [LexerMode.scan_line noNewlineChanged, reads.scan_of_respelled rfl lineRespelled,
        induction noNewlines.2 position.newline belowRespelled]

/-- What a text delivers is respelled together with the text. -/
theorem delivered_of_respelled {outcomes : List Lexed} {position : Position}
    {characters : List Char}
    (respelled : List.Forall₂ (Respelled outcomes) (placed position characters) other) :
    List.Forall₂ (Respelled outcomes) (placed position (delivered characters))
      (delivered other) := by
  fun_induction delivered characters generalizing position other with
  | case1 =>
      cases respelled
      exact .nil
  | case2 =>
      rcases List.forall₂_cons_left_iff.mp respelled with ⟨first, rest, changed, behind, rfl⟩
      cases behind
      obtain rfl : first = '\n' := eq_of_toLower_eq (by decide) changed.toLower_eq
      exact .cons changed .nil
  | case3 last noNewline =>
      rcases List.forall₂_cons_left_iff.mp respelled with ⟨first, rest, changed, behind, rfl⟩
      cases behind
      have stillNone : first ≠ '\n' := by
        rintro rfl
        exact noNewline (eq_of_toLower_eq (by decide) changed.toLower_eq.symm)
      rw [delivered, if_neg stillNone]
      exact .cons changed (.cons (.inl rfl) .nil)
  | case4 character next rest ends induction =>
      rcases List.forall₂_cons_left_iff.mp respelled with ⟨first, behind, changed, tail, rfl⟩
      rcases List.forall₂_cons_left_iff.mp tail with ⟨second, others, newline, -, rfl⟩
      obtain rfl : first = '\r' := by
        rw [ends.1] at changed
        exact eq_of_toLower_eq (by decide) changed.toLower_eq
      obtain rfl : second = '\n' := by
        rw [ends.2] at newline
        exact eq_of_toLower_eq (by decide) newline.toLower_eq
      have later := induction tail
      rw [ends.2, delivered_newline, delivered_newline] at later
      rw [ends.2, delivered_return, delivered_newline, delivered_newline]
      have below : (position.after character).after '\n' = position.after '\n' := by
        rw [ends.1]
        have noNewline : '\n' ∉ ['\r'] := by decide
        exact Position.past_newline noNewline position
      rw [placed, below] at later
      exact .cons (.inl rfl) (List.forall₂_cons.mp later).2
  | case5 character next rest noEnd induction =>
      rcases List.forall₂_cons_left_iff.mp respelled with ⟨first, behind, changed, tail, rfl⟩
      rcases List.forall₂_cons_left_iff.mp tail with ⟨second, others, nextChanged, -, rfl⟩
      have stillNoEnd : ¬ (first = '\r' ∧ second = '\n') := by
        rintro ⟨rfl, rfl⟩
        exact noEnd ⟨eq_of_toLower_eq (by decide) changed.toLower_eq.symm,
          eq_of_toLower_eq (by decide) nextChanged.toLower_eq.symm⟩
      rw [delivered, if_neg stillNoEnd]
      exact .cons changed (induction tail)

end Line

namespace Source

theorem lexed_utf8 (name text : String) :
    (Source.ofBytes name (utf8 text)).lexed =
      LexerMode.between.scan name {} (Line.delivered text.toList) := by
  rw [LexerMode.scan, ← characters_ofBytes_utf8 name]
  rfl

/-- A text with the case of some letters inside its keywords changed. -/
def KeywordsRespelled (name text other : String) : Prop :=
  List.Forall₂ (Respelled (Source.ofBytes name (utf8 text)).lexed) (Line.placed {} text.toList)
    other.toList

instance (name text other : String) : Decidable (KeywordsRespelled name text other) :=
  inferInstanceAs (Decidable (List.Forall₂ _ _ _))

theorem lexed_of_respelled {name text other : String}
    (respelled : KeywordsRespelled name text other) :
    (Source.ofBytes name (utf8 other)).lexed = (Source.ofBytes name (utf8 text)).lexed := by
  have delivered := Line.delivered_of_respelled respelled
  rcases Line.exists_delivered_eq text.toList with ⟨lines, noNewlines, delivers⟩
  rw [lexed_utf8 name text, delivers] at delivered
  rw [lexed_utf8, lexed_utf8, delivers]
  exact Line.scan_lines_of_respelled noNewlines {} delivered

/-- The spelling of keywords matters neither to the tokens and errors of a text nor to what
becomes of them. -/
theorem keyword_case_irrelevant {name text other : String}
    (respelled : KeywordsRespelled name text other) :
    let source := Source.ofBytes name (utf8 text)
    let changed := Source.ofBytes name (utf8 other)
    changed.lexed = source.lexed ∧ changed.program = source.program ∧
      changed.accept = source.accept ∧
      changed.program.map Program.generate = source.program.map Program.generate := by
  intro source changed
  have lexed : changed.lexed = source.lexed := lexed_of_respelled respelled
  have tokens : changed.tokens = source.tokens := congrArg Lexed.collect lexed
  have program : changed.program = source.program := by
    rw [Source.program, tokens]
    rfl
  have accept : changed.accept = source.accept := by
    rw [Source.accept, program]
    rfl
  exact ⟨lexed, program, accept, by rw [program]⟩

/-- Keywords before an error may change, but not what looks like one behind it. -/
theorem faulty_line_respelled :
    let text := "VAR inteiro: fimX;\r\nrepita \"fim\" Fim @ fim"
    let other := "var INTEIRO: fimX;\r\nRePiTa \"fim\" FIM @ fim"
    let source := Source.ofBytes "case" (utf8 text)
    let changed := Source.ofBytes "case" (utf8 other)
    KeywordsRespelled "case" text other ∧
      changed.lexed = source.lexed ∧ changed.program = source.program ∧
      changed.accept = source.accept ∧
      changed.program.map Program.generate = source.program.map Program.generate := by
  intro text other source changed
  have respelled : KeywordsRespelled "case" text other := by
    decide +kernel
  exact ⟨respelled, keyword_case_irrelevant respelled⟩

end Source

end Firmware
