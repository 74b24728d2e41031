import Firmware.Expression.Reading
import Firmware.Program.Basic

/-! # Forms

A form says which tokens may follow and which value they make. Each token that is
read turns a form into the form of what is left, so a form is also the state of a
reader in the middle of a declaration or a command. -/

namespace Firmware

/-- The tokens still to be read for a value of type `α`. -/
inductive Form (α : Type) : Type where
  /-- The last token. -/
  | closing (expected : Token) (value : α)
  /-- `fim`, with no command before it. -/
  | emptyBody (value : α)
  /-- One certain token. -/
  | token (expected : Token) (rest : Form α)
  /-- `taken` if `marker` comes next, and else `otherwise`. -/
  | branch (marker : Token) (taken otherwise : Form α)
  /-- A type. -/
  | type (rest : VarType → Form α)
  /-- The direction of a pin. -/
  | direction (rest : PinDirection → Form α)
  /-- An identifier. -/
  | identifier (rest : String → Form α)
  /-- More identifiers, each behind a comma. -/
  | names (collected : List String) (rest : List String → Form α)
  /-- An integer. -/
  | integer (rest : Int → Form α)
  /-- A single literal or identifier. -/
  | operand (rest : String → Form α)
  /-- An expression of which some tokens may have been read. -/
  | expression (reading : OpenExpression) (rest : String → Form α)

/-- What is left after a token: a form, or nothing. -/
inductive FormStep (α : Type) : Type where
  | more (form : Form α)
  | done (value : α)

namespace Form

/-- The text of a token that is an operand by itself. -/
def operandText : Token → Option String
  | .text content => some (Expr.quote content)
  | .identifier name => some name
  | .integer value => some (toString value)
  | _ => none

/-- The type that a token names. -/
def typeOf : Token → Option VarType
  | .keyword .inteiro => some .integer
  | .keyword .texto => some .text
  | .keyword .booleano => some .boolean
  | _ => none

/-- The direction that a token names. -/
def directionOf : Token → Option PinDirection
  | .keyword .saida => some .output
  | .keyword .entrada => some .input
  | _ => none

/-- The name that a token is. -/
def nameOf : Token → Option String
  | .identifier name => some name
  | _ => none

/-- The integer that a token is. -/
def integerOf : Token → Option Int
  | .integer value => some value
  | _ => none

/-- Goes on with what a token stands for, or fails for want of it. -/
def proceed (error : SyntaxError) (rest : β → Form α) :
    Option β → Except SyntaxError (FormStep α)
  | some value => .ok (.more (rest value))
  | none => .error error

def step : Form α → Token → Except SyntaxError (FormStep α)
  | .closing expected value, found =>
      if found = expected then .ok (.done value)
      else .error (.unexpectedToken expected found)
  | .emptyBody value, found =>
      if found = .keyword .fim then .ok (.done value) else .error .nestedBlock
  | .token expected rest, found =>
      if found = expected then .ok (.more rest)
      else .error (.unexpectedToken expected found)
  | .branch marker taken otherwise, found =>
      if found = marker then .ok (.more taken) else otherwise.step found
  | .type rest, found => proceed .expectedType rest (typeOf found)
  | .direction rest, found => proceed .expectedDirection rest (directionOf found)
  | .identifier rest, found => proceed .expectedIdentifier rest (nameOf found)
  | .names collected rest, found =>
      if found = .comma then
        .ok (.more (.identifier fun name => .names (collected ++ [name]) rest))
      else
        (rest collected).step found
  | .integer rest, found => proceed .expectedInteger rest (integerOf found)
  | .operand rest, found => proceed .expectedOperand rest (operandText found)
  | .expression reading rest, found =>
      match reading.step found with
      | .ok (.extended reading) => .ok (.more (.expression reading rest))
      | .ok (.ended value) => (rest value.render).step found
      | .error error => .error error

/-- What is wrong if the tokens end here. -/
def missing : Form α → SyntaxError
  | .closing expected _ => .missingToken expected
  | .token expected _ => .missingToken expected
  | .branch _ _ otherwise => otherwise.missing
  | .names collected rest => (rest collected).missing
  | .expression reading rest =>
      match reading.finish with
      | .ok value => (rest value.render).missing
      | .error error => error
  | .emptyBody _ | .type _ | .direction _ | .identifier _ | .integer _ | .operand _ =>
      .unexpectedEnd

end Form

end Firmware
