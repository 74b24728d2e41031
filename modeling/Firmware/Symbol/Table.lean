import Firmware.Program.Basic

/-! # Symbols

The symbol table holds the declared variables with the hardware roles that the
commands checked so far have given them. -/

namespace Firmware

/-- The direction a variable is configured with as a pin, if it is. -/
inductive PinMode where
  | unset
  | output
  | input
  deriving DecidableEq, Repr

def PinMode.ofDirection : PinDirection → PinMode
  | .output => .output
  | .input => .input

/-- What is known of a variable: its type, whether it has been configured as a pin
and as a PWM output, and the direction it has as a pin. -/
structure Symbol where
  type : VarType
  isPin : Bool := false
  isPwm : Bool := false
  mode : PinMode := .unset
  deriving DecidableEq, Repr

/-- A violated rule of declarations or of pins. -/
inductive SemanticError where
  | duplicateDeclaration (name : String)
  | undeclaredVariable (name : String)
  | typeMismatch (target : String) (declared inferred : VarType)
  | notConfiguredAsPin (pin : String)
  | wrongPinMode (pin : String) (required : PinDirection)
  | pwmNotConfigured (pin : String)
  deriving DecidableEq, Repr

def SemanticError.message : SemanticError → String
  | .duplicateDeclaration name => "Variable `" ++ name ++ "` is declared more than once"
  | .undeclaredVariable name => "Variable `" ++ name ++ "` is not declared"
  | .typeMismatch target declared inferred =>
      "Type mismatch in assignment to `" ++ target ++ "`: declared `" ++
        declared.describe ++ "`, found `" ++ inferred.describe ++ "`"
  | .notConfiguredAsPin pin => "`" ++ pin ++ "` is not configured as a pin"
  | .wrongPinMode pin required =>
      "Pin `" ++ pin ++ "` is not configured as `" ++ required.describe ++ "`"
  | .pwmNotConfigured pin =>
      "Pin `" ++ pin ++ "` must be configured with `configurarPWM` before `ajustarPWM`"

/-- The symbols of a program by name, in the order of their declarations. -/
structure SymbolTable where
  entries : List (String × Symbol) := []
  deriving DecidableEq, Repr

namespace SymbolTable

def find? (table : SymbolTable) (name : String) : Option Symbol :=
  table.entries.lookup name

/-- The symbol of a name that has to be declared. -/
def get (table : SymbolTable) (name : String) : Except SemanticError Symbol :=
  match table.find? name with
  | some symbol => .ok symbol
  | none => .error (.undeclaredVariable name)

def typeOf? (table : SymbolTable) (name : String) : Option VarType :=
  (table.find? name).map Symbol.type

/-- Adds a variable without any role. Its name must be new. -/
def declare (table : SymbolTable) (declaration : Declaration) :
    Except SemanticError SymbolTable :=
  match table.find? declaration.name with
  | some _ => .error (.duplicateDeclaration declaration.name)
  | none =>
      .ok { entries := table.entries ++ [(declaration.name, { type := declaration.type })] }

def ofDeclarations (declarations : List Declaration) : Except SemanticError SymbolTable :=
  declarations.foldlM declare {}

def modify (table : SymbolTable) (name : String) (change : Symbol → Symbol) : SymbolTable :=
  { entries := table.entries.map fun entry =>
      if entry.1 = name then (entry.1, change entry.2) else entry }

private theorem lookup_map_modify (entries : List (String × Symbol)) (name sought : String)
    (change : Symbol → Symbol) :
    (entries.map fun entry =>
      if entry.1 = name then (entry.1, change entry.2) else entry).lookup sought =
      if sought = name then (entries.lookup sought).map change
      else entries.lookup sought := by
  induction entries with
  | nil => simp
  | cons entry rest induction =>
      rcases entry with ⟨key, symbol⟩
      by_cases named : key = name
      · subst name
        by_cases here : sought = key
        · subst sought
          simp
        · have absent : (sought == key) = false := by simpa using here
          simpa [List.lookup_cons, here, absent] using induction
      · by_cases here : sought = key
        · subst sought
          simp [named]
        · have absent : (sought == key) = false := by simpa using here
          simpa [List.lookup_cons, named, absent] using induction

/-- A change reaches the symbol of its name and no other. -/
theorem find?_modify (table : SymbolTable) (name sought : String)
    (change : Symbol → Symbol) :
    (table.modify name change).find? sought =
      if sought = name then (table.find? sought).map change else table.find? sought :=
  lookup_map_modify table.entries name sought change

end SymbolTable

end Firmware
