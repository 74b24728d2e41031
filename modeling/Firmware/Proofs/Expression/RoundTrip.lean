import Firmware.Proofs.Expression.Reading
import Firmware.Proofs.Token.Spelling

/-! # Reading the text of an expression

The text of an expression puts every operation in parentheses. Read as a source, it
is the same expression again, up to these parentheses and to the truth values, which
the sketch writes as names. -/

namespace Firmware

namespace Expr

def truthName (value : Bool) : String :=
  if value then "true" else "false"

/-- An expression without its parentheses, and with names for truth values. -/
def skeleton : Expr → Expr
  | .integer value => .integer value
  | .text content => .text content
  | .reference name => .reference name
  | .boolean value => .reference (truthName value)
  | .parens inner => inner.skeleton
  | .negate operand => .negate operand.skeleton
  | .binary operator left right => .binary operator left.skeleton right.skeleton

def printed : Expr → List Token
  | .integer value => [.integer value]
  | .text content => [.text content]
  | .reference name => [.identifier name]
  | .boolean value => [.identifier (truthName value)]
  | .parens inner => .openParen :: (inner.printed ++ [.closeParen])
  | .negate operand => .openParen :: .operator .minus :: (operand.printed ++ [.closeParen])
  | .binary operator left right =>
      .openParen :: (left.printed ++ .operator operator :: (right.printed ++ [.closeParen]))

/-- The expression that is read from the text of an expression. -/
def reread : Expr → Expr
  | .integer value => .integer value
  | .text content => .text content
  | .reference name => .reference name
  | .boolean value => .reference (truthName value)
  | .parens inner => .parens inner.reread
  | .negate operand => .parens (.negate operand.reread)
  | .binary operator left right => .parens (.binary operator left.reread right.reread)

theorem skeleton_reread (expression : Expr) :
    expression.reread.skeleton = expression.skeleton := by
  induction expression with
  | integer | text | reference | boolean => rfl
  | parens _ induction => exact induction
  | negate _ induction => exact congrArg negate induction
  | binary operator _ _ leftInduction rightInduction =>
      rw [reread, skeleton, skeleton, skeleton, leftInduction, rightInduction]

theorem render_boolean (value : Bool) : (boolean value).render = truthName value := by
  cases value <;> rfl

theorem wellFormed_truthName (value : Bool) : (Token.identifier (truthName value)).WellFormed := by
  refine ⟨?_, (Keyword.ofWord?_eq_none_iff _).mp ?_⟩
  · cases value <;> decide
  · cases value <;> decide

end Expr

/-! ## From tokens to expressions -/

namespace Phrase.Derives

variable {tokens : List Token} {value : Expr}

theorem of_atom (phrase : Phrase) (atom : Derives .atom tokens value value.render) :
    phrase.Derives tokens value value.render := by
  cases phrase with
  | atom => exact atom
  | unary => exact .atom atom
  | product => exact .unary (.atom atom)
  | sum => exact .product (.unary (.atom atom))
  | expression => exact .sum (.product (.unary (.atom atom)))

theorem of_whole (rank : Rank) (derivation : rank.whole.Derives tokens value value.render) :
    Derives .expression tokens value value.render := by
  cases rank with
  | comparison => exact derivation
  | sum => exact .sum derivation
  | product => exact .sum (.product derivation)

/-- The tokens of a rendered expression are an atom of the grammar. -/
theorem printed (expression : Expr) :
    Derives .atom expression.printed expression.reread expression.reread.render := by
  induction expression with
  | integer value => exact .integer value
  | text content => exact .text content
  | reference name => exact .reference name
  | boolean value => exact .reference (Expr.truthName value)
  | parens inner induction => exact .parens (of_atom .expression induction)
  | negate operand induction =>
      exact .parens (.sum (.product (.unary (.negate (of_atom .unary induction)))))
  | binary operator left right leftInduction rightInduction =>
      have operation := Rank.whole_of_binary operator (of_atom _ leftInduction)
        (of_atom _ rightInduction)
      have tokens : (Expr.binary operator left right).printed = Token.openParen ::
          (left.printed ++ .operator operator :: right.printed) ++ [.closeParen] := by
        simp [Expr.printed]
      rw [tokens]
      exact .parens (of_whole operator.rank operation)

theorem printed_wellFormed {phrase : Phrase} {text : String}
    (derivation : phrase.Derives tokens value text)
    (wellFormed : ∀ token ∈ tokens, token.WellFormed) :
    ∀ token ∈ value.printed, token.WellFormed := by
  induction derivation with
  | integer | text | reference => exact wellFormed
  | verdadeiro | falso => simpa [Expr.printed] using Expr.wellFormed_truthName _
  | parens _ induction =>
      have inside := induction fun token member => wellFormed token (by simp [member])
      intro token member
      simp only [Expr.printed, List.mem_cons, List.mem_append, List.not_mem_nil, or_false] at member
      rcases member with rfl | inner | rfl
      · trivial
      · exact inside token inner
      · trivial
  | negate _ induction =>
      have inside := induction fun token member => wellFormed token (by simp [member])
      intro token member
      simp only [Expr.printed, List.mem_cons, List.mem_append, List.not_mem_nil, or_false] at member
      rcases member with rfl | rfl | inner | rfl
      · trivial
      · trivial
      · exact inside token inner
      · trivial
  | atom _ induction | unary _ induction | product _ induction | sum _ induction =>
      exact induction wellFormed
  | multiply _ _ _ leftInduction rightInduction | add _ _ _ leftInduction rightInduction
  | compare _ _ _ leftInduction rightInduction =>
      have left := leftInduction fun token member => wellFormed token (by simp [member])
      have right := rightInduction fun token member => wellFormed token (by simp [member])
      intro token member
      simp only [Expr.printed, List.mem_cons, List.mem_append, List.not_mem_nil, or_false] at member
      rcases member with rfl | onLeft | rfl | onRight | rfl
      · trivial
      · exact left token onLeft
      · trivial
      · exact right token onRight
      · trivial

end Phrase.Derives

/-! ## From expressions to characters -/

theorem Operator.exists_symbol_eq_cons (operator : Operator) :
    ∃ first rest, operator.symbol.toList = first :: rest ∧ isWordPart first = false := by
  cases operator <;> exact ⟨_, _, rfl, by decide⟩

theorem Operator.endsBefore (operator : Operator) {next : Char} (noSlash : next ≠ '/')
    (noEquals : next ≠ '=') : (Token.operator operator).EndsBefore next := by
  cases operator with
  | divide => exact noSlash
  | less | greater => exact noEquals
  | _ => trivial

namespace Expr

theorem render_eq_flatMap (expression : Expr) :
    expression.render.toList = expression.printed.flatMap fun token => token.print.toList := by
  induction expression with
  | integer | text | reference => simp [printed, render, Token.print]
  | boolean => simp [printed, render_boolean, Token.print]
  | parens _ induction => simp [printed, render, Token.print, induction]
  | negate _ induction => simp [printed, render, Token.print, Operator.symbol, induction]
  | binary _ _ _ leftInduction rightInduction =>
      simp [printed, render, Token.print, leftInduction, rightInduction]

theorem newline_not_mem_render {expression : Expr}
    (wellFormed : ∀ token ∈ expression.printed, token.WellFormed) :
    '\n' ∉ expression.render.toList := by
  rw [render_eq_flatMap, List.mem_flatMap]
  rintro ⟨token, member, newline⟩
  exact (wellFormed token member).newline_not_mem_print newline

/-- The text of an expression begins with a character that no operator goes on with. -/
theorem exists_head?_render {expression : Expr}
    (wellFormed : ∀ token ∈ expression.printed, token.WellFormed) :
    ∃ first, expression.render.toList.head? = some first ∧ first ≠ '/' ∧ first ≠ '=' := by
  cases expression with
  | integer value =>
      rcases wellFormed _ List.mem_cons_self with ⟨nonneg, bound⟩
      rcases Int.eq_ofNat_of_zero_le nonneg with ⟨magnitude, rfl⟩
      have digits : (integer magnitude).render.toList = Nat.toDigits 10 magnitude := Nat.toList_repr
      rw [digits]
      match split : Nat.toDigits 10 magnitude, Nat.toDigits_ne_nil with
      | first :: rest, _ =>
          have digit : first.isDigit = true :=
            Nat.isDigit_of_mem_toDigits (by decide) (by decide) (split ▸ List.mem_cons_self)
          refine ⟨first, rfl, ?_, ?_⟩
          · rintro rfl
            cases digit
          · rintro rfl
            cases digit
  | reference name =>
      have isWord := (wellFormed _ List.mem_cons_self).1
      rw [render]
      match name.toList, isWord with
      | first :: rest, ⟨starts, _⟩ =>
          refine ⟨first, rfl, ?_, ?_⟩
          · rintro rfl
            cases starts
          · rintro rfl
            cases starts
  | boolean value => cases value <;> exact ⟨_, rfl, by decide, by decide⟩
  | text content => exact ⟨'"', by simp [render, quote], by decide, by decide⟩
  | parens inner => exact ⟨'(', by simp [render], by decide, by decide⟩
  | negate operand => exact ⟨'(', by simp [render], by decide, by decide⟩
  | binary operator left right => exact ⟨'(', by simp [render], by decide, by decide⟩

end Expr

namespace Spells

variable {rest : List Char} {tokens : List Token}

theorem print_append {token : Token} (wellFormed : token.WellFormed) {next : Char}
    (ends : token.EndsBefore next) (spells : Spells (next :: rest) tokens) :
    Spells (token.print.toList ++ next :: rest) (token :: tokens) :=
  .token (wellFormed.spelled ends) spells

theorem openParen {next : Char} (spells : Spells (next :: rest) tokens) :
    Spells ('(' :: next :: rest) (.openParen :: tokens) :=
  @print_append rest tokens .openParen trivial next trivial spells

theorem closeParen {next : Char} (spells : Spells (next :: rest) tokens) :
    Spells (')' :: next :: rest) (.closeParen :: tokens) :=
  @print_append rest tokens .closeParen trivial next trivial spells

/-- A parenthesis or an operator may stand before the text of an expression. -/
theorem openParen_render {expression : Expr}
    (wellFormed : ∀ token ∈ expression.printed, token.WellFormed)
    (spells : Spells (expression.render.toList ++ rest) tokens) :
    Spells ('(' :: (expression.render.toList ++ rest)) (.openParen :: tokens) := by
  rcases Expr.exists_head?_render wellFormed with ⟨first, begins, -⟩
  rcases List.head?_eq_some_iff.mp begins with ⟨others, characters⟩
  rw [characters] at spells ⊢
  exact spells.openParen

theorem operator_render (operator : Operator) {expression : Expr}
    (wellFormed : ∀ token ∈ expression.printed, token.WellFormed)
    (spells : Spells (expression.render.toList ++ rest) tokens) :
    Spells (operator.symbol.toList ++ (expression.render.toList ++ rest))
      (.operator operator :: tokens) := by
  rcases Expr.exists_head?_render wellFormed with ⟨first, begins, noSlash, noEquals⟩
  rcases List.head?_eq_some_iff.mp begins with ⟨others, characters⟩
  rw [characters] at spells ⊢
  exact @print_append _ _ (.operator operator) trivial first
    (operator.endsBefore noSlash noEquals) spells

end Spells

namespace Expr

/-- The text of an expression spells its tokens before any character that cannot go on
with a word. -/
theorem spells_render {expression : Expr}
    (wellFormed : ∀ token ∈ expression.printed, token.WellFormed) {next : Char}
    {rest : List Char} {tokens : List Token} (ends : isWordPart next = false)
    (spells : Spells (next :: rest) tokens) :
    Spells (expression.render.toList ++ next :: rest) (expression.printed ++ tokens) := by
  induction expression generalizing next rest tokens with
  | integer | reference => exact .print_append (wellFormed _ List.mem_cons_self) ends spells
  | boolean =>
      rw [render_boolean]
      exact .print_append (wellFormed _ List.mem_cons_self) ends spells
  | text => exact .print_append (wellFormed _ List.mem_cons_self) trivial spells
  | parens inner induction =>
      have innerFormed : ∀ token ∈ inner.printed, token.WellFormed := fun token member =>
        wellFormed token (by simp [printed, member])
      have inside := induction innerFormed rfl spells.closeParen
      simpa [render, printed] using inside.openParen_render innerFormed
  | negate operand induction =>
      have operandFormed : ∀ token ∈ operand.printed, token.WellFormed := fun token member =>
        wellFormed token (by simp [printed, member])
      have inside := induction operandFormed rfl spells.closeParen
      have negated : Spells ('-' :: (operand.render.toList ++ ')' :: next :: rest)) _ :=
        inside.operator_render .minus operandFormed
      simpa [render, printed] using negated.openParen
  | binary operator left right leftInduction rightInduction =>
      have leftFormed : ∀ token ∈ left.printed, token.WellFormed := fun token member =>
        wellFormed token (by simp [printed, member])
      have rightFormed : ∀ token ∈ right.printed, token.WellFormed := fun token member =>
        wellFormed token (by simp [printed, member])
      have onRight := rightInduction rightFormed rfl spells.closeParen
      have operation := onRight.operator_render operator rightFormed
      rcases operator.exists_symbol_eq_cons with ⟨first, others, symbol, noPart⟩
      rw [symbol, List.cons_append] at operation
      have onLeft := leftInduction leftFormed noPart operation
      simpa [render, printed, symbol] using onLeft.openParen_render leftFormed

/-- Rendering an expression loses nothing but the parentheses and the kind of its truth
values: the text is read as a source with the same skeleton. -/
theorem render_read_back {source : Source} {tokens : List (Located Token)} {expression : Expr}
    (lexed : source.tokens = .ok tokens)
    (read : OpenExpression.empty.complete? (tokens.map Located.value) = some expression)
    (name : String) :
    ∃ printed reread, (Source.ofBytes name (utf8 expression.render)).tokens = .ok printed ∧
      OpenExpression.empty.complete? (printed.map Located.value) = some reread ∧
      reread.skeleton = expression.skeleton := by
  have derivation := (OpenExpression.complete?_empty_eq_some_iff _ _).mp read
  have wellFormed := derivation.printed_wellFormed (by
    intro token member
    rcases List.mem_map.mp member with ⟨located, delivered, rfl⟩
    exact Source.tokens_wellFormed lexed located delivered)
  have nonempty : expression.render.toList ≠ [] := by
    rcases exists_head?_render wellFormed with ⟨first, begins, -⟩
    intro empty
    simp [empty] at begins
  have spells : Spells (expression.render.toList ++ ['\n']) (expression.printed ++ []) :=
    spells_render wellFormed (by decide) (.blank (by decide) .nil)
  rcases Source.tokens_of_spells name nonempty (newline_not_mem_render wellFormed) spells with
    ⟨printed, reads, values⟩
  rw [List.append_nil] at values
  refine ⟨printed, expression.reread, reads, ?_, skeleton_reread expression⟩
  rw [values, OpenExpression.complete?_empty_eq_some_iff]
  exact .of_atom .expression (.printed expression)

theorem negation_read_back :
    ∃ printed reread, (Source.ofBytes "sketch" (utf8 "((-x)==true)")).tokens = .ok printed ∧
      OpenExpression.empty.complete? (printed.map Located.value) = some reread ∧
      reread.skeleton = .binary .equal (.negate (.reference "x")) (.reference "true") :=
  @render_read_back { name := "blink", lines := [some "-x == verdadeiro"] } _
    (.binary .equal (.negate (.reference "x")) (.boolean true)) rfl rfl "sketch"

end Expr

end Firmware
