import Firmware.Expression.Basic

/-! # The grammar of expressions

Which tokens are an expression, which one they are, and which text it has. The
operators of a sum and of a product group to the left, so the left operand is
itself a sum or a product; a comparison has two sums, and none may follow it. -/

namespace Firmware

/-- The kinds of phrases, from the one that binds loosest to the one that binds
tightest. -/
inductive Phrase where
  | expression
  | sum
  | product
  | unary
  | atom
  deriving DecidableEq, Repr

namespace Phrase

/-- The tokens are a phrase that stands for an expression with a text. Operators
are listed with the text they have. -/
inductive Derives : Phrase → List Token → Expr → String → Prop
  | integer (value : Int) :
      Derives .atom [.integer value] (.integer value) (toString value)
  | text (content : String) :
      Derives .atom [.text content] (.text content) ("\"" ++ content ++ "\"")
  | reference (name : String) :
      Derives .atom [.identifier name] (.reference name) name
  | verdadeiro : Derives .atom [.keyword .verdadeiro] (.boolean true) "true"
  | falso : Derives .atom [.keyword .falso] (.boolean false) "false"
  | parens {tokens inner text} :
      Derives .expression tokens inner text →
      Derives .atom (.openParen :: tokens ++ [.closeParen]) (.parens inner)
        ("(" ++ text ++ ")")
  | atom {tokens value text} :
      Derives .atom tokens value text → Derives .unary tokens value text
  | negate {tokens operand text} :
      Derives .unary tokens operand text →
      Derives .unary (.operator .minus :: tokens) (.negate operand) ("(-" ++ text ++ ")")
  | unary {tokens value text} :
      Derives .unary tokens value text → Derives .product tokens value text
  | multiply {operator symbol leftTokens left leftText rightTokens right rightText} :
      (operator, symbol) ∈ [(.times, "*"), (.divide, "/")] →
      Derives .product leftTokens left leftText →
      Derives .unary rightTokens right rightText →
      Derives .product (leftTokens ++ .operator operator :: rightTokens)
        (.binary operator left right) ("(" ++ leftText ++ symbol ++ rightText ++ ")")
  | product {tokens value text} :
      Derives .product tokens value text → Derives .sum tokens value text
  | add {operator symbol leftTokens left leftText rightTokens right rightText} :
      (operator, symbol) ∈ [(.plus, "+"), (.minus, "-")] →
      Derives .sum leftTokens left leftText →
      Derives .product rightTokens right rightText →
      Derives .sum (leftTokens ++ .operator operator :: rightTokens)
        (.binary operator left right) ("(" ++ leftText ++ symbol ++ rightText ++ ")")
  | sum {tokens value text} :
      Derives .sum tokens value text → Derives .expression tokens value text
  | compare {operator symbol leftTokens left leftText rightTokens right rightText} :
      (operator, symbol) ∈
        [(.equal, "=="), (.notEqual, "!="), (.less, "<"), (.lessOrEqual, "<="),
          (.greater, ">"), (.greaterOrEqual, ">=")] →
      Derives .sum leftTokens left leftText →
      Derives .sum rightTokens right rightText →
      Derives .expression (leftTokens ++ .operator operator :: rightTokens)
        (.binary operator left right) ("(" ++ leftText ++ symbol ++ rightText ++ ")")

/-! The operators of the grammar are those of the ranks that the reader tells apart. -/

theorem mem_products_iff (operator : Operator) (symbol : String) :
    (operator, symbol) ∈ [(Operator.times, "*"), (.divide, "/")] ↔
      operator.rank = .product ∧ symbol = operator.symbol := by
  cases operator <;> simp [Operator.rank, Operator.symbol]

theorem mem_sums_iff (operator : Operator) (symbol : String) :
    (operator, symbol) ∈ [(Operator.plus, "+"), (.minus, "-")] ↔
      operator.rank = .sum ∧ symbol = operator.symbol := by
  cases operator <;> simp [Operator.rank, Operator.symbol]

theorem mem_comparisons_iff (operator : Operator) (symbol : String) :
    (operator, symbol) ∈
        [(Operator.equal, "=="), (.notEqual, "!="), (.less, "<"), (.lessOrEqual, "<="),
          (.greater, ">"), (.greaterOrEqual, ">=")] ↔
      operator.rank = .comparison ∧ symbol = operator.symbol := by
  cases operator <;> simp [Operator.rank, Operator.symbol]

/-- The grammar gives an expression the text that it is rendered as. -/
theorem Derives.text_eq_render {phrase : Phrase} {tokens : List Token} {value : Expr}
    {text : String} (derivation : phrase.Derives tokens value text) :
    text = value.render := by
  induction derivation with
  | integer | text | reference | verdadeiro | falso => rfl
  | parens _ induction => rw [induction]; rfl
  | negate _ induction => rw [induction]; rfl
  | atom _ induction | unary _ induction | product _ induction | sum _ induction =>
      exact induction
  | multiply member _ _ leftInduction rightInduction =>
      rw [leftInduction, rightInduction, ((mem_products_iff _ _).mp member).2]
      rfl
  | add member _ _ leftInduction rightInduction =>
      rw [leftInduction, rightInduction, ((mem_sums_iff _ _).mp member).2]
      rfl
  | compare member _ _ leftInduction rightInduction =>
      rw [leftInduction, rightInduction, ((mem_comparisons_iff _ _).mp member).2]
      rfl

end Phrase

end Firmware
