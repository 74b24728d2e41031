import Firmware.Proofs.Source.Lines
import Firmware.Proofs.Token.Spelling

/-! # Printed tokens

Tokens are printed one after another, each followed by a blank character and then by any
blank characters and comments. Whatever lines the text falls into, and whether its lines
end with a carriage return or not, its source has exactly these tokens. The other way
round, the lexer delivers well-formed tokens only, and those can be printed. -/

namespace Firmware

/-- A source may write a keyword in any mix of cases, and any other token in one way. -/
def Token.WrittenAs (spelling : String) : Token → Prop
  | .keyword word => sameIgnoringCase word.spelling spelling = true
  | token => spelling = token.print

/-- What a source may write for a token: a keyword in any mix of cases, an integer with any
zeros in front of it, and any other token in one way. -/
def Token.HasSpelling (characters : List Char) : Token → Prop
  | .keyword word => sameIgnoringCase word.spelling (String.ofList characters) = true
  | .integer value =>
      IsNumeral characters ∧ (Nat.ofDigitChars 10 characters 0 : Int) = value
  | token => characters = token.print.toList

/-- Blank characters, and comments with the newlines that end them. -/
inductive IsFiller : List Char → Prop
  | nil : IsFiller []
  | blank {character rest} :
      isBlank character = true → IsFiller rest → IsFiller (character :: rest)
  | comment {remark rest} :
      '\n' ∉ remark → IsFiller rest → IsFiller ('/' :: '/' :: (remark ++ '\n' :: rest))

/-- Characters that keep tokens apart: a blank one, and any filler behind it. -/
def IsSeparator : List Char → Prop
  | [] => False
  | first :: rest => isBlank first = true ∧ IsFiller rest

/-- Well-formed tokens are printed by some characters. -/
inductive PrintedBy : List Token → List Char → Prop
  | nil : PrintedBy [] []
  | cons {token spelling separator tokens rest} :
      token.WellFormed → token.WrittenAs spelling → IsSeparator separator →
      PrintedBy tokens rest →
      PrintedBy (token :: tokens) (spelling.toList ++ (separator ++ rest))

/-! ## Keywords in any mix of cases -/

theorem toLower_eq_of_isUpper_eq_false {character : Char} (other : character.isUpper = false) :
    character.toLower = character :=
  dif_neg (of_decide_eq_false other)

theorem isLower_toLower_of_isUpper {character : Char} (upper : character.isUpper = true) :
    character.toLower.isLower = true := by
  have range : character.val ≥ 'A'.val ∧ character.val ≤ 'Z'.val := of_decide_eq_true upper
  have lowered : character.toLower.val = character.val + ('a'.val - 'A'.val) := by
    exact congrArg Char.val (dif_pos range)
  have bounds : 'a'.val ≤ character.toLower.val ∧ character.toLower.val ≤ 'z'.val := by
    rw [lowered]
    simp only [ge_iff_le, UInt32.le_iff_toNat_le, Char.reduceVal, UInt32.reduceToNat] at range ⊢
    grind [UInt32.toNat_add]
  exact Bool.and_eq_true_iff.mpr ⟨decide_eq_true bounds.1, decide_eq_true bounds.2⟩

theorem isAlpha_of_isUpper {character : Char} (upper : character.isUpper = true) :
    character.isAlpha = true :=
  Bool.or_eq_true_iff.mpr (.inl upper)

theorem isAlpha_of_isLower {character : Char} (lower : character.isLower = true) :
    character.isAlpha = true :=
  Bool.or_eq_true_iff.mpr (.inr lower)

theorem isAlpha_or_toLower_eq (character : Char) :
    character.isAlpha = true ∨ character.toLower = character := by
  cases upper : character.isUpper with
  | true => exact .inl (isAlpha_of_isUpper upper)
  | false => exact .inr (toLower_eq_of_isUpper_eq_false upper)

theorem isAlpha_toLower (character : Char) : character.toLower.isAlpha = character.isAlpha := by
  cases upper : character.isUpper with
  | true => rw [isAlpha_of_isUpper upper, isAlpha_of_isLower (isLower_toLower_of_isUpper upper)]
  | false => rw [toLower_eq_of_isUpper_eq_false upper]

theorem isWordStart_toLower (character : Char) :
    isWordStart character.toLower = isWordStart character := by
  rcases isAlpha_or_toLower_eq character with letter | same
  · simp only [isWordStart, isAlpha_toLower, letter, Bool.true_or]
  · rw [same]

theorem isWordPart_toLower (character : Char) :
    isWordPart character.toLower = isWordPart character := by
  rcases isAlpha_or_toLower_eq character with letter | same
  · simp only [isWordPart, Char.isAlphanum, isAlpha_toLower, letter, Bool.true_or]
  · rw [same]

theorem isWord_map_toLower (characters : List Char) :
    IsWord (characters.map Char.toLower) ↔ IsWord characters := by
  cases characters with
  | nil => rfl
  | cons first rest => simp [IsWord, isWordStart_toLower, isWordPart_toLower]

namespace Keyword

variable {keyword : Keyword} {spelling : String}

theorem isWord_of_sameIgnoringCase (same : sameIgnoringCase keyword.spelling spelling = true) :
    IsWord spelling.toList := by
  rw [← isWord_map_toLower, ← of_decide_eq_true same, isWord_map_toLower]
  exact keyword.isWord_spelling

theorem ofWord?_of_sameIgnoringCase (same : sameIgnoringCase keyword.spelling spelling = true) :
    ofWord? spelling = some keyword := by
  rw [← ofWord?_spelling keyword]
  simp only [ofWord?, sameIgnoringCase, of_decide_eq_true same]

end Keyword

/-! ## Spellings before a separator -/

namespace Token

variable {token : Token} {characters : List Char}

theorem endsBefore_of_isBlank (token : Token) {next : Char} (blank : isBlank next = true) :
    token.EndsBefore next := by
  have differs : ∀ character, isBlank character = false → next ≠ character := by
    rintro character noBlank rfl
    rw [noBlank] at blank
    cases blank
  cases token with
  | identifier | keyword | integer => exact isWordPart_of_isBlank blank
  | operator kind =>
      cases kind with
      | divide | less | greater => exact differs _ (by decide)
      | _ => trivial
  | assign => exact differs _ (by decide)
  | _ => trivial

theorem WellFormed.hasSpelling_of_writtenAs {spelling : String} (wellFormed : token.WellFormed)
    (written : token.WrittenAs spelling) : token.HasSpelling spelling.toList := by
  cases token with
  | keyword word => rwa [HasSpelling, String.ofList_toList]
  | integer value =>
      rcases Int.eq_ofNat_of_zero_le wellFormed.1 with ⟨magnitude, rfl⟩
      rw [written]
      exact ⟨isNumeral_repr magnitude, congrArg Int.ofNat (ofDigitChars_repr magnitude)⟩
  | _ => exact congrArg String.toList written

theorem isWord_of_hasSpelling_keyword {word : Keyword}
    (spelling : (Token.keyword word).HasSpelling characters) : IsWord characters := by
  rw [← String.toList_ofList (l := characters)]
  exact Keyword.isWord_of_sameIgnoringCase spelling

/-- A well-formed token is read from each of its spellings before a blank character. -/
theorem WellFormed.spelled_of_hasSpelling (wellFormed : token.WellFormed)
    (spelling : token.HasSpelling characters) {next : Char} (blank : isBlank next = true) :
    token.Spelled characters next := by
  cases token with
  | keyword word =>
      refine ⟨.word (String.ofList characters), ?_, ?_, ?_⟩
      · have isWord := Keyword.isWord_of_sameIgnoringCase spelling
        rw [← Lexeme.ofCharacters?_word isWord, String.toList_ofList]
      · rw [Lexeme.settle, Keyword.ofWord?_of_sameIgnoringCase spelling]
      · exact Lexeme.extend_word_eq_ended (isWordPart_of_isBlank blank) _
  | integer value =>
      rcases spelling with ⟨numeral, rfl⟩
      refine ⟨.integer _, Lexeme.ofCharacters?_numeral numeral ?_, rfl, ?_⟩
      · exact Int.ofNat_le.mp wellFormed.2
      · exact Lexeme.extend_integer_eq_ended (isWordPart_of_isBlank blank) _
  | _ =>
      rw [spelling]
      exact wellFormed.spelled (endsBefore_of_isBlank _ blank)

theorem WellFormed.newline_not_mem_of_hasSpelling (wellFormed : token.WellFormed)
    (spelling : token.HasSpelling characters) : '\n' ∉ characters := by
  cases token with
  | keyword word =>
      intro newline
      cases isWordPart_of_mem_isWord (isWord_of_hasSpelling_keyword spelling) _ newline
  | integer value =>
      intro newline
      cases spelling.1.2 _ newline
  | _ =>
      rw [spelling]
      exact wellFormed.newline_not_mem_print

theorem isBlank_of_isWordPart {character : Char} (part : isWordPart character = true) :
    isBlank character = false := by
  rw [← Bool.not_eq_true]
  intro blank
  rw [isWordPart_of_isBlank blank] at part
  cases part

/-- No spelling ends with a blank character, though a text may hold some. -/
theorem WellFormed.isBlank_of_getLast? (wellFormed : token.WellFormed)
    (spelling : token.HasSpelling characters) {last : Char}
    (ends : characters.getLast? = some last) : isBlank last = false := by
  have member := List.mem_of_getLast? ends
  cases token with
  | keyword word =>
      apply isBlank_of_isWordPart
      exact isWordPart_of_mem_isWord (isWord_of_hasSpelling_keyword spelling) last member
  | identifier name =>
      rw [spelling] at member
      apply isBlank_of_isWordPart
      exact isWordPart_of_mem_isWord wellFormed.1 last member
  | integer value =>
      apply isBlank_of_isWordPart
      rw [isWordPart_eq, spelling.1.2 last member, Bool.or_true]
  | text content =>
      have closed : (Expr.quote content).toList = ('"' :: content.toList) ++ ['"'] := by
        simp [Expr.quote]
      rw [spelling, print, closed, List.getLast?_concat] at ends
      cases ends
      decide
  | operator kind =>
      rw [spelling] at ends
      cases kind <;> cases ends <;> decide
  | assign | colon | semicolon | comma | openParen | closeParen =>
      rw [spelling] at ends
      cases ends
      decide

end Token

/-! ## Printed texts in a source -/

namespace Spells

variable {rest : List Char} {tokens : List Token}

/-- A blank character is delivered as one, or together with the newline behind it. -/
theorem delivered_blank {character : Char} (blank : isBlank character = true)
    (spells : Spells (Line.delivered rest) tokens) :
    ∃ next others, Line.delivered (character :: rest) = next :: others ∧
      isBlank next = true ∧ Spells (next :: others) tokens := by
  by_cases last : rest = []
  · subst last
    rw [Line.delivered]
    split
    · exact ⟨_, _, rfl, by decide, .blank (by decide) spells⟩
    · exact ⟨_, _, rfl, blank, .blank blank (.blank (by decide) spells)⟩
  by_cases ends : character = '\r' ∧ rest.head? = some '\n'
  · rcases ends with ⟨rfl, head⟩
    rcases List.head?_eq_some_iff.mp head with ⟨others, rfl⟩
    rw [Line.delivered_newline] at spells
    rw [Line.delivered_return, Line.delivered_newline]
    exact ⟨_, _, rfl, by decide, spells⟩
  · exact ⟨_, _, Line.delivered_cons last ends, blank, .blank blank spells⟩

theorem delivered_filler {filler : List Char} (isFiller : IsFiller filler)
    (spells : Spells (Line.delivered rest) tokens) :
    Spells (Line.delivered (filler ++ rest)) tokens := by
  induction isFiller with
  | nil => exact spells
  | blank blank _ induction =>
      rcases induction.delivered_blank blank with ⟨next, others, delivers, -, stillSpells⟩
      rwa [List.cons_append, delivers]
  | @comment remark filler noNewline _ induction =>
      rcases Line.delivered_line noNewline (filler ++ rest) with ⟨shortened, stillNone, delivers⟩
      have slashes : Line.delivered (['/', '/'] ++ (remark ++ '\n' :: (filler ++ rest))) =
          ['/', '/'] ++ Line.delivered (remark ++ '\n' :: (filler ++ rest)) :=
        Line.delivered_append (by decide) (by decide) (by simp)
      rw [delivers] at slashes
      have whole : '/' :: '/' :: (remark ++ '\n' :: filler) ++ rest =
          ['/', '/'] ++ (remark ++ '\n' :: (filler ++ rest)) := by
        simp
      rw [whole, slashes]
      exact .comment stillNone induction

end Spells

theorem PrintedBy.spells {tokens : List Token} {characters : List Char}
    (printed : PrintedBy tokens characters) : Spells (Line.delivered characters) tokens := by
  induction printed with
  | nil => exact .nil
  | @cons token spelling separator tokens rest wellFormed written isSeparator _ induction =>
      match separator, isSeparator with
      | first :: filler, ⟨blank, isFiller⟩ =>
          rcases (induction.delivered_filler isFiller).delivered_blank blank with
            ⟨next, others, delivers, nextBlank, behind⟩
          have hasSpelling := wellFormed.hasSpelling_of_writtenAs written
          have noReturn : spelling.toList.getLast? ≠ some '\r' := by
            intro last
            cases wellFormed.isBlank_of_getLast? hasSpelling last
          rw [Line.delivered_append (wellFormed.newline_not_mem_of_hasSpelling hasSpelling)
            noReturn (by simp)]
          rw [List.cons_append, delivers]
          exact .token (wellFormed.spelled_of_hasSpelling hasSpelling nextBlank) behind

/-- The tokens of a text are those that the characters it delivers spell. -/
theorem Source.tokens_of_spells_delivered {text : String} {tokens : List Token} (name : String)
    (spells : Spells (Line.delivered text.toList) tokens) :
    ∃ located, (Source.ofBytes name (utf8 text)).tokens = .ok located ∧
      located.map Located.value = tokens := by
  rcases LexerMode.scan_spells spells name {} with ⟨located, scanned, values⟩
  refine ⟨located, ?_, values⟩
  rw [← Lexed.collect_map_ok, ← scanned, LexerMode.scan, ← Source.characters_ofBytes_utf8 name]
  rfl

/-- Lexing undoes printing, and delivers nothing that cannot be printed. -/
theorem lexing_undoes_printing :
    (∀ (name text : String) (tokens : List Token), PrintedBy tokens text.toList →
      ∃ located, (Source.ofBytes name (utf8 text)).tokens = .ok located ∧
        located.map Located.value = tokens) ∧
    ∀ (start : Location) (items : List Item) (token : Located Token),
      .ok token ∈ lex start items → token.value.WellFormed := by
  constructor
  · intro name text tokens printed
    exact Source.tokens_of_spells_delivered name printed.spells
  · intro start items token member
    exact @LexerMode.WellFormed.run .between trivial start items token member

theorem division_before_comment_read_back :
    ∃ located,
      (Source.ofBytes "blink" (utf8 "CONFIG x / // half\r\n\"\\\"\" ")).tokens = .ok located ∧
      located.map Located.value =
        [.keyword .config, .identifier "x", .operator .divide, .text "\\\""] := by
  have keyword : (Token.keyword .config).WellFormed := trivial
  have name : (Token.identifier "x").WellFormed :=
    ⟨by decide, (Keyword.ofWord?_eq_none_iff "x").mp (by decide)⟩
  have division : (Token.operator .divide).WellFormed := trivial
  have quote : (Token.text "\\\"").WellFormed := .escaped (by decide) .nil
  have upperCase : (Token.keyword .config).WrittenAs "CONFIG" := by
    rw [Token.WrittenAs]
    decide
  have blank : IsSeparator [' '] := ⟨by decide, .nil⟩
  have remark : IsFiller "// half\r\n".toList :=
    @IsFiller.comment " half\r".toList [] (by decide) .nil
  have commented : IsSeparator (' ' :: "// half\r\n".toList) := ⟨by decide, remark⟩
  have printed := PrintedBy.cons keyword upperCase blank
    (.cons name rfl blank (.cons division rfl commented (.cons quote rfl blank .nil)))
  exact lexing_undoes_printing.1 "blink" _ _ printed

end Firmware
