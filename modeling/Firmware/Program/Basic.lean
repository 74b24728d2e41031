/-! # Programs

A program declares variables, has commands that run once, and commands that run
over and over. Expressions inside commands are kept as the text that they have in
the sketch. -/

namespace Firmware

/-- The type of a variable or an expression. -/
inductive VarType where
  | integer
  | text
  | boolean
  | undefined
  deriving DecidableEq, Repr

/-- A type as messages name it. -/
def VarType.describe : VarType → String
  | .integer => "inteiro"
  | .text => "texto"
  | .boolean => "booleano"
  | .undefined => "indefinido"

inductive PinDirection where
  | output
  | input
  deriving DecidableEq, Repr

def PinDirection.describe : PinDirection → String
  | .output => "saida"
  | .input => "entrada"

structure Declaration where
  name : String
  type : VarType
  deriving DecidableEq, Repr

/-- A command of either block. Conditionals and loops have no body. -/
inductive Command where
  | assign (target value : String)
  | configurePin (pin : String) (direction : PinDirection)
  | configurePwm (pin : String) (frequency resolution : Int)
  | adjustPwm (pin value : String)
  | connectWifi (ssid password : String)
  | wait (time : String)
  | turnOn (pin : String)
  | turnOff (pin : String)
  | sendHttp (url data : String)
  | configureSerial (baud : Int)
  | writeSerial (message : String)
  | readSerial
  | readDigital (target pin : String)
  | readAnalog (target pin : String)
  | conditional (condition : String)
  | whileLoop (condition : String)
  | undefined
  deriving DecidableEq, Repr

/-- A program: `setup` runs once, then `loop` runs over and over. -/
structure Program where
  declarations : List Declaration := []
  setup : List Command := []
  loop : List Command := []
  deriving DecidableEq, Repr

/-- All commands in the order in which they first run. -/
def Program.commands (program : Program) : List Command :=
  program.setup ++ program.loop

end Firmware
