import Firmware.Symbol.Table

/-! # Types of expressions

The type of an expression is read off its text by the first rule that applies: a
quote in front makes it a text, a declared name has its declared type, a decimal
number is an integer, and so is whatever holds an operator or a parenthesis. The
parts of an expression are not looked at. -/

namespace Firmware

/-- Whether characters are a decimal number, with a minus sign or without. -/
def isIntegerLiteral (characters : List Char) : Bool :=
  let digits := if characters.head? = some '-' then characters.tail else characters
  !digits.isEmpty && digits.all Char.isDigit

/-- Whether a character shows an arithmetic expression. -/
def isArithmetic (character : Char) : Bool :=
  character ∈ ['+', '-', '*', '/', '(', ')']

/-- The type of an expression with the given text. -/
def SymbolTable.infer (table : SymbolTable) (expression : String) : VarType :=
  if expression.toList.head? = some '"' then
    .text
  else
    match table.typeOf? expression with
    | some type => type
    | none =>
        if isIntegerLiteral expression.toList then .integer
        else if expression.toList.any isArithmetic then .integer
        else .undefined

end Firmware
