import Firmware.Symbol.Inference

/-! # Semantic analysis

The commands of a program are checked in the order in which they run, against the
table of its declarations. A command that configures a pin changes the table, so
what is allowed depends on the commands before it. -/

namespace Firmware

namespace VarType

/-- Whether a value of type `inferred` must not be assigned to a variable of type
`declared`: a text and an integer exclude each other, and nothing else does. -/
def clash (declared inferred : VarType) : Bool :=
  (declared == .integer && inferred == .text) || (declared == .text && inferred == .integer)

end VarType

namespace SymbolTable

/-- Checks a command, and records what it configures. -/
def check (table : SymbolTable) : Command → Except SemanticError SymbolTable
  | .assign target value => do
      let declared := (← table.get target).type
      let inferred := table.infer value
      if declared.clash inferred then .error (.typeMismatch target declared inferred)
      else .ok table
  | .configurePin pin direction => do
      let _ ← table.get pin
      .ok (table.modify pin fun symbol =>
        { symbol with isPin := true, mode := .ofDirection direction })
  | .configurePwm pin _ _ => do
      let _ ← table.get pin
      .ok (table.modify pin fun symbol => { symbol with isPwm := true })
  | .adjustPwm pin _ => do
      if (← table.get pin).isPwm then .ok table
      else .error (.pwmNotConfigured pin)
  | .turnOn pin | .turnOff pin => do
      let symbol ← table.get pin
      if !symbol.isPin then .error (.notConfiguredAsPin pin)
      else if symbol.mode ≠ .output then .error (.wrongPinMode pin .output)
      else .ok table
  | .readDigital target pin | .readAnalog target pin => do
      let _ ← table.get target
      let symbol ← table.get pin
      if symbol.isPin ∧ symbol.mode = .input then .ok table
      else .error (.wrongPinMode pin .input)
  | .connectWifi .. | .wait .. | .sendHttp .. | .configureSerial .. | .writeSerial ..
  | .readSerial | .conditional .. | .whileLoop .. | .undefined => .ok table

end SymbolTable

/-- The symbols of a program after all its commands, or the first violated rule. -/
def Program.analyze (program : Program) : Except SemanticError SymbolTable := do
  let table ← SymbolTable.ofDeclarations program.declarations
  program.commands.foldlM SymbolTable.check table

end Firmware
