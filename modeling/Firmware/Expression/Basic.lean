import Firmware.Token.Basic

/-! # Expressions

Expressions of the language and the text they have in the sketch. The text puts
every operation in parentheses of its own, so that it means the same whatever
precedence its reader gives to the operators. -/

namespace Firmware

/-- An expression. Parentheses written in the source are kept. -/
inductive Expr where
  | integer (value : Int)
  | text (content : String)
  | reference (name : String)
  | boolean (value : Bool)
  | parens (inner : Expr)
  | negate (operand : Expr)
  | binary (operator : Operator) (left right : Expr)
  deriving DecidableEq, Repr

namespace Expr

/-- A text between the quotes that the source has around it. -/
def quote (content : String) : String :=
  "\"" ++ content ++ "\""

def render : Expr → String
  | .integer value => toString value
  | .text content => quote content
  | .reference name => name
  | .boolean true => "true"
  | .boolean false => "false"
  | .parens inner => "(" ++ inner.render ++ ")"
  | .negate operand => "(-" ++ operand.render ++ ")"
  | .binary operator left right =>
      "(" ++ left.render ++ operator.symbol ++ right.render ++ ")"

/-- An expression under a number of minus signs. -/
def negated : Nat → Expr → Expr
  | 0, operand => operand
  | count + 1, operand => .negate (negated count operand)

def ofToken? : Token → Option Expr
  | .integer value => some (.integer value)
  | .text content => some (.text content)
  | .identifier name => some (.reference name)
  | .keyword .verdadeiro => some (.boolean true)
  | .keyword .falso => some (.boolean false)
  | _ => none

end Expr

end Firmware
