import Firmware.Expression.Basic
import Firmware.Program.SyntaxError

/-! # Reading expressions

An expression is read token by token. Operators of one rank group to the left,
products bind tighter than sums, and sums tighter than the one comparison that an
expression may have. What has been read so far is kept as the operands that still
wait for one to their right, at most one for each rank, with the parentheses that
are open around them. -/

namespace Firmware

/-- A left operand and the operator behind it. -/
abbrev Waiting := Option (Expr × Operator)

/-- Gives a waiting left operand its right one. -/
def Waiting.join : Waiting → Expr → Expr
  | none, right => right
  | some (left, operator), right => .binary operator left right

/-- The left operands that wait for a right one, by the rank of their operators. -/
structure Pending where
  comparison : Waiting := none
  sum : Waiting := none
  product : Waiting := none
  deriving DecidableEq, Repr

namespace Pending

def joinProduct (pending : Pending) (operand : Expr) : Expr :=
  pending.product.join operand

def joinSum (pending : Pending) (operand : Expr) : Expr :=
  pending.sum.join (pending.joinProduct operand)

def join (pending : Pending) (operand : Expr) : Expr :=
  pending.comparison.join (pending.joinSum operand)

/-- What waits behind an operator that follows `operand`. An expression takes no
second comparison. -/
def push (pending : Pending) (operand : Expr) (operator : Operator) : Option Pending :=
  match operator.rank with
  | .product =>
      some { pending with product := some (pending.joinProduct operand, operator) }
  | .sum =>
      some { comparison := pending.comparison
             sum := some (pending.joinSum operand, operator) }
  | .comparison =>
      match pending.comparison with
      | none => some { comparison := some (pending.joinSum operand, operator) }
      | some _ => none

end Pending

/-- The place of an operand: what waits for it, and the minus signs before it. -/
structure Gap where
  pending : Pending := {}
  negations : Nat := 0
  deriving DecidableEq, Repr

/-- An expression of which some tokens have been read: either an operand is due, or
one has just been read. `outer` holds the place of each open parenthesis, the
innermost first. -/
inductive OpenExpression where
  | due (gap : Gap) (outer : List Gap)
  | read (pending : Pending) (operand : Expr) (outer : List Gap)
  deriving DecidableEq, Repr

/-- What a token does to an open expression. A token that ends it is no part of it. -/
inductive ExpressionStep where
  | extended (reading : OpenExpression)
  | ended (value : Expr)
  deriving DecidableEq, Repr

namespace OpenExpression

def empty : OpenExpression := .due {} []

def fill (gap : Gap) (operand : Expr) (outer : List Gap) : OpenExpression :=
  .read gap.pending (operand.negated gap.negations) outer

/-- A token that cannot go on with the expression ends it, unless a parenthesis is
still open. -/
def close (pending : Pending) (operand : Expr) (token : Token) :
    List Gap → Except SyntaxError ExpressionStep
  | [] => .ok (.ended (pending.join operand))
  | _ :: _ => .error (.unexpectedToken .closeParen token)

def step : OpenExpression → Token → Except SyntaxError ExpressionStep
  | .due gap outer, .operator .minus =>
      .ok (.extended (.due { gap with negations := gap.negations + 1 } outer))
  | .due gap outer, .openParen => .ok (.extended (.due {} (gap :: outer)))
  | .due gap outer, token =>
      match Expr.ofToken? token with
      | some operand => .ok (.extended (fill gap operand outer))
      | none => .error .expectedExpression
  | .read pending operand (gap :: outer), .closeParen =>
      .ok (.extended (fill gap (.parens (pending.join operand)) outer))
  | .read pending operand outer, .operator operator =>
      match pending.push operand operator with
      | some pending => .ok (.extended (.due { pending } outer))
      | none => close pending operand (.operator operator) outer
  | .read pending operand outer, token => close pending operand token outer

/-- The expression if the tokens end here. -/
def finish : OpenExpression → Except SyntaxError Expr
  | .due _ _ => .error .unexpectedEnd
  | .read pending operand [] => .ok (pending.join operand)
  | .read _ _ (_ :: _) => .error (.missingToken .closeParen)

end OpenExpression

end Firmware
