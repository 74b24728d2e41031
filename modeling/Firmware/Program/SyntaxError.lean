import Firmware.Token.Basic

/-! # Syntax errors -/

namespace Firmware

/-- Why a list of tokens is no program. -/
inductive SyntaxError where
  | unexpectedToken (expected found : Token)
  | missingToken (expected : Token)
  | expectedIdentifier
  | expectedType
  | expectedDirection
  | expectedCommand
  | expectedExpression
  | expectedOperand
  | expectedInteger
  | nestedBlock
  | trailingInput
  | unexpectedEnd
  deriving DecidableEq, Repr

def SyntaxError.message : SyntaxError → String
  | .unexpectedToken expected found =>
      "Expected " ++ expected.describe ++ ", found " ++ found.describe ++ " instead"
  | .missingToken expected =>
      "Expected " ++ expected.describe ++ ", none was found instead"
  | .expectedIdentifier => "Expected identifier"
  | .expectedType => "Expected any of `inteiro`, `texto`, `booleano`"
  | .expectedDirection => "Expected `saida` or `entrada`"
  | .expectedCommand => "Expected a command or `fim`"
  | .expectedExpression => "Expected an expression"
  | .expectedOperand => "Expected an identifier or literal"
  | .expectedInteger => "Expected an integer literal"
  | .nestedBlock => "Commands inside `se` and `enquanto` blocks are not supported"
  | .trailingInput => "Unexpected input after the `repita` block"
  | .unexpectedEnd => "Abrupt end of program"

end Firmware
