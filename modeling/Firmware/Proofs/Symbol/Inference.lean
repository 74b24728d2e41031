import Firmware.Proofs.Expression.RoundTrip
import Firmware.Symbol.Inference

/-! # Types of rendered expressions

The type of an expression is read off its text. Every operation is rendered between
parentheses, so of the rules for texts exactly one applies to each kind of root, whatever is
below it. Main statement: the type is a function of the root alone. -/

namespace Firmware

/-- The type that an expression has by its root: a name has the type that is declared for it,
and so have the names that truth values are rendered as. -/
def Expr.rootType (table : SymbolTable) : Expr → VarType
  | .text _ => .text
  | .reference name => (table.typeOf? name).getD .undefined
  | .boolean value => (table.typeOf? (truthName value)).getD .undefined
  | .integer _ | .parens _ | .negate _ | .binary _ _ _ => .integer

/-! ## Words and numerals -/

theorem isArithmetic_of_isWordPart {character : Char} (isPart : isWordPart character = true) :
    isArithmetic character = false := by
  rw [← Bool.not_eq_true]
  intro sign
  simp only [isArithmetic, decide_eq_true_eq, List.mem_cons, List.not_mem_nil, or_false] at sign
  rcases sign with rfl | rfl | rfl | rfl | rfl | rfl <;> cases isPart

theorem IsWord.head?_ne {characters : List Char} (isWord : IsWord characters) {other : Char}
    (noStart : isWordStart other = false) : characters.head? ≠ some other := by
  match characters, isWord with
  | first :: rest, ⟨starts, _⟩ =>
      intro same
      cases same
      rw [noStart] at starts
      cases starts

theorem IsWord.isIntegerLiteral_eq {characters : List Char} (isWord : IsWord characters) :
    isIntegerLiteral characters = false := by
  simp only [isIntegerLiteral, if_neg (isWord.head?_ne (by decide : isWordStart '-' = false))]
  match characters, isWord with
  | first :: rest, ⟨starts, _⟩ =>
      cases digit : first.isDigit with
      | false => simp [digit]
      | true =>
          rw [isWordStart_of_isDigit digit] at starts
          cases starts

namespace IsNumeral

variable {characters : List Char}

theorem head?_ne (numeral : IsNumeral characters) {other : Char}
    (noDigit : other.isDigit = false) : characters.head? ≠ some other := by
  intro first
  rw [numeral.2 other (List.mem_of_mem_head? first)] at noDigit
  cases noDigit

theorem not_isWord (numeral : IsNumeral characters) : ¬ IsWord characters := by
  intro isWord
  match characters, isWord with
  | first :: rest, ⟨starts, _⟩ =>
      rw [isWordStart_of_isDigit (numeral.2 first List.mem_cons_self)] at starts
      cases starts

theorem isIntegerLiteral_eq (numeral : IsNumeral characters) :
    isIntegerLiteral characters = true := by
  simp only [isIntegerLiteral, if_neg (numeral.head?_ne (by decide : '-'.isDigit = false))]
  simpa [IsNumeral] using numeral

end IsNumeral

/-! ## The rules for texts -/

namespace SymbolTable

/-- All names of a table are identifiers that a source can hold. -/
def NamesWellFormed (table : SymbolTable) : Prop :=
  ∀ entry ∈ table.entries, (Token.identifier entry.1).WellFormed

variable {table : SymbolTable} {text : String}

theorem typeOf?_eq_none_of_not_isWord (named : table.NamesWellFormed)
    (noWord : ¬ IsWord text.toList) : table.typeOf? text = none := by
  rw [typeOf?, Option.map_eq_none_iff, find?, List.lookup_eq_none_iff]
  intro entry member
  rw [bne_iff_ne]
  intro same
  subst same
  exact noWord (named entry member).1

/-- What is no word cannot be a name, so a numeral or a sign of arithmetic decides. -/
theorem infer_of_not_isWord (named : table.NamesWellFormed) (noWord : ¬ IsWord text.toList)
    (noQuote : text.toList.head? ≠ some '"')
    (arithmetic : isIntegerLiteral text.toList = true ∨ text.toList.any isArithmetic = true) :
    table.infer text = .integer := by
  rw [infer, if_neg noQuote, typeOf?_eq_none_of_not_isWord named noWord]
  rcases arithmetic with numeral | sign
  · rw [numeral]
    rfl
  · rw [sign]
    exact ite_self _

theorem infer_of_isNumeral (named : table.NamesWellFormed) (numeral : IsNumeral text.toList) :
    table.infer text = .integer :=
  infer_of_not_isWord named numeral.not_isWord (numeral.head?_ne (by decide))
    (.inl numeral.isIntegerLiteral_eq)

theorem infer_of_openParen (named : table.NamesWellFormed)
    (opens : text.toList.head? = some '(') : table.infer text = .integer := by
  rcases List.head?_eq_some_iff.mp opens with ⟨rest, characters⟩
  apply infer_of_not_isWord named
  · rw [characters]
    intro isWord
    cases isWord.1
  · rw [opens]
    decide
  · rw [characters]
    exact .inr rfl

theorem infer_quote (table : SymbolTable) (content : String) :
    table.infer (Expr.quote content) = .text := by
  apply if_pos
  simp [Expr.quote]

/-- No other rule applies to a word, so only its declaration counts. -/
theorem infer_of_isWord (table : SymbolTable) (isWord : IsWord text.toList) :
    table.infer text = (table.typeOf? text).getD .undefined := by
  have noSign : text.toList.any isArithmetic = false := by
    rw [List.any_eq_false]
    intro character member
    rw [isArithmetic_of_isWordPart (isWordPart_of_mem_isWord isWord character member)]
    exact Bool.false_ne_true
  rw [infer, if_neg (isWord.head?_ne (by decide)), isWord.isIntegerLiteral_eq, noSign]
  cases table.typeOf? text <;> rfl

/-! ## Expressions -/

/-- The type of a rendered expression of a source is that of its root. -/
theorem infer_render_eq_rootType {source : Source} {tokens : List Token} {expression : Expr}
    (held : source.Holds tokens)
    (read : OpenExpression.empty.complete? tokens = some expression)
    (named : table.NamesWellFormed) :
    table.infer expression.render = expression.rootType table := by
  have derivation := (OpenExpression.complete?_empty_eq_some_iff _ _).mp read
  have wellFormed := derivation.printed_wellFormed held.wellFormed
  cases expression with
  | integer value =>
      rcases Int.eq_ofNat_of_zero_le (wellFormed _ List.mem_cons_self).1 with ⟨magnitude, rfl⟩
      exact infer_of_isNumeral named (isNumeral_repr magnitude)
  | text content => exact infer_quote table content
  | reference name => exact infer_of_isWord table (wellFormed _ List.mem_cons_self).1
  | boolean value =>
      rw [Expr.render_boolean]
      exact infer_of_isWord table (wellFormed _ List.mem_cons_self).1
  | parens | negate | binary => exact infer_of_openParen named (by simp [Expr.render])

/-- A sum of texts counts as an integer, and `verdadeiro` has the type of a variable `true`. -/
theorem infer_sum_of_texts :
    let table : SymbolTable :=
      { entries := [("nome", { type := .text }), ("true", { type := .boolean })] }
    table.NamesWellFormed ∧ table.infer "(nome+\"led\")" = .integer ∧
      table.infer "true" = .boolean := by
  intro table
  have named : table.NamesWellFormed := by
    intro entry member
    simp only [table, List.mem_cons, List.not_mem_nil, or_false] at member
    rcases member with rfl | rfl
    · exact ⟨by decide, (Keyword.ofWord?_eq_none_iff "nome").mp (by decide)⟩
    · exact Expr.wellFormed_truthName true
  have sumHeld : Source.Holds { name := "blink", lines := [some "nome + \"led\""] }
      [.identifier "nome", .operator .plus, .text "led"] :=
    ⟨_, rfl, List.infix_rfl⟩
  have truthHeld : Source.Holds { name := "blink", lines := [some "verdadeiro"] }
      [.keyword .verdadeiro] :=
    ⟨_, rfl, List.infix_rfl⟩
  refine ⟨named, ?_, ?_⟩
  · exact @infer_render_eq_rootType table _ _
      (.binary .plus (.reference "nome") (.text "led")) sumHeld rfl named
  · exact @infer_render_eq_rootType table _ _ (.boolean true) truthHeld rfl named

end SymbolTable

end Firmware
