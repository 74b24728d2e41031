import Firmware.Symbol.Analysis

/-! # Operations that work on a symbol table in place

A table that is filled and checked in place keeps what an operation has written before it
meets a fault. Here every operation is spelled out as lookups, tests and single writes, and
is shown to have the outcome of the operation that gives a new table. Main statement: in
every table that operations lead to, failed ones included, a symbol is a pin exactly if it
has a direction, and the next operation writes nothing if it fails, and else no more than it
is meant to. -/

namespace Firmware

/-- Work on a table in place. What has been written stays, also if a fault follows. -/
abbrev TableUpdate := EStateM SemanticError SymbolTable

namespace TableUpdate

def lookUp (name : String) : TableUpdate Symbol := do
  match (← get).find? name with
  | some symbol => return symbol
  | none => throw (.undeclaredVariable name)

def refuseIf (wrong : Bool) (error : SemanticError) : TableUpdate Unit :=
  if wrong then throw error else return ()

def write (name : String) (change : Symbol → Symbol) : TableUpdate Unit :=
  modify fun table => table.modify name change

def declare (declaration : Declaration) : TableUpdate Unit := do
  refuseIf ((← get).find? declaration.name).isSome (.duplicateDeclaration declaration.name)
  modify fun table =>
    { entries := table.entries ++ [(declaration.name, { type := declaration.type })] }

/-- Checks a command. The role and the direction of a pin are written one after the other. -/
def check : Command → TableUpdate Unit
  | .assign target value => do
      let declared := (← lookUp target).type
      let inferred := (← get).infer value
      refuseIf (declared.clash inferred) (.typeMismatch target declared inferred)
  | .configurePin pin direction => do
      let _ ← lookUp pin
      write pin fun symbol => { symbol with isPin := true }
      write pin fun symbol => { symbol with mode := .ofDirection direction }
  | .configurePwm pin _ _ => do
      let _ ← lookUp pin
      write pin fun symbol => { symbol with isPwm := true }
  | .adjustPwm pin _ => do
      refuseIf (!(← lookUp pin).isPwm) (.pwmNotConfigured pin)
  | .turnOn pin | .turnOff pin => do
      let symbol ← lookUp pin
      refuseIf (!symbol.isPin) (.notConfiguredAsPin pin)
      refuseIf (symbol.mode != .output) (.wrongPinMode pin .output)
  | .readDigital target pin | .readAnalog target pin => do
      let _ ← lookUp target
      let symbol ← lookUp pin
      refuseIf (!(symbol.isPin && symbol.mode == .input)) (.wrongPinMode pin .input)
  | _ => return ()

/-- How an operation ends that gives a new table or fails, if a failure leaves the old one. -/
def ofOutcome (table : SymbolTable) :
    Except SemanticError SymbolTable → EStateM.Result SemanticError SymbolTable Unit
  | .ok after => .ok () after
  | .error error => .error error table

end TableUpdate

/-- An operation on a table. -/
inductive TableOperation where
  | declare (declaration : Declaration)
  | check (command : Command)
  deriving DecidableEq, Repr

namespace TableOperation

def perform : TableOperation → TableUpdate Unit
  | .declare declaration => TableUpdate.declare declaration
  | .check command => TableUpdate.check command

/-- The new table that an operation gives, if it does not fail. -/
def outcome (table : SymbolTable) : TableOperation → Except SemanticError SymbolTable
  | .declare declaration => table.declare declaration
  | .check command => table.check command

/-- The table that an operation leaves behind, whether it fails or not. -/
def leaves (table : SymbolTable) (operation : TableOperation) : SymbolTable :=
  match operation.perform table with
  | .ok _ after | .error _ after => after

/-- The table behind operations on an empty one. -/
def reached (operations : List TableOperation) : SymbolTable :=
  operations.foldl leaves {}

end TableOperation

/-! ## The outcome in place -/

/-- Two writes to one symbol are one write. -/
theorem SymbolTable.modify_modify (table : SymbolTable) (name : String)
    (first second : Symbol → Symbol) :
    (table.modify name first).modify name second = table.modify name (second ∘ first) := by
  simp only [modify, List.map_map, mk.injEq]
  apply List.map_congr_left
  intro entry _
  by_cases here : entry.1 = name <;> simp [here]

namespace TableUpdate

variable (table : SymbolTable)

theorem run_lookUp (name : String) :
    (lookUp name).run table =
      match table.get name with
      | .ok symbol => .ok symbol table
      | .error error => .error error table := by
  simp only [lookUp, EStateM.run_bind, EStateM.run_get, SymbolTable.get]
  cases table.find? name <;> rfl

theorem run_refuseIf (wrong : Bool) (error : SemanticError) :
    (refuseIf wrong error).run table = if wrong then .error error table else .ok () table := by
  cases wrong <;> rfl

theorem run_declare (declaration : Declaration) :
    (declare declaration).run table = ofOutcome table (table.declare declaration) := by
  simp only [declare, EStateM.run_bind, EStateM.run_get, run_refuseIf, EStateM.run_modify,
    SymbolTable.declare]
  cases table.find? declaration.name <;> rfl

theorem run_check (command : Command) :
    (check command).run table = ofOutcome table (table.check command) := by
  cases command with
  | assign target value =>
      simp only [check, SymbolTable.check, EStateM.run_bind, run_lookUp]
      cases table.get target with
      | error => rfl
      | ok symbol =>
          simp only [EStateM.run_get, run_refuseIf, bind, Except.bind]
          split <;> rfl
  | configurePin pin direction =>
      simp only [check, SymbolTable.check, EStateM.run_bind, run_lookUp]
      cases table.get pin with
      | error => rfl
      | ok symbol =>
          simp only [write, EStateM.run_modify, SymbolTable.modify_modify]
          rfl
  | configurePwm pin frequency resolution =>
      simp only [check, SymbolTable.check, EStateM.run_bind, run_lookUp]
      cases table.get pin <;> rfl
  | adjustPwm pin value =>
      simp only [check, SymbolTable.check, EStateM.run_bind, run_lookUp]
      cases table.get pin with
      | error => rfl
      | ok symbol =>
          rcases symbol with ⟨_, _, isPwm, _⟩
          cases isPwm <;> rfl
  | turnOn pin | turnOff pin =>
      simp only [check, SymbolTable.check, EStateM.run_bind, run_lookUp]
      cases table.get pin with
      | error => rfl
      | ok symbol =>
          rcases symbol with ⟨_, isPin, _, mode⟩
          cases isPin with
          | false => rfl
          | true => cases mode <;> rfl
  | readDigital target pin | readAnalog target pin =>
      simp only [check, SymbolTable.check, EStateM.run_bind, run_lookUp]
      cases table.get target with
      | error => rfl
      | ok targetSymbol =>
          simp only [bind, Except.bind]
          cases table.get pin with
          | error => rfl
          | ok symbol =>
              rcases symbol with ⟨_, isPin, _, mode⟩
              cases isPin with
              | false => rfl
              | true => cases mode <;> rfl
  | _ => rfl

end TableUpdate

namespace TableOperation

/-- In place an operation has the same outcome, and a failure writes nothing. -/
theorem run_perform (table : SymbolTable) (operation : TableOperation) :
    operation.perform.run table = TableUpdate.ofOutcome table (operation.outcome table) := by
  cases operation with
  | declare declaration => exact TableUpdate.run_declare table declaration
  | check command => exact TableUpdate.run_check table command

theorem leaves_eq (table : SymbolTable) (operation : TableOperation) :
    operation.leaves table =
      match operation.outcome table with
      | .ok after => after
      | .error _ => table := by
  have performed : operation.perform table =
      TableUpdate.ofOutcome table (operation.outcome table) := run_perform table operation
  rw [leaves, performed]
  cases operation.outcome table <;> rfl

end TableOperation

/-! ## What an operation may write -/

/-- The pin whose symbol a command configures. -/
def Command.configured? : Command → Option String
  | .configurePin pin _ | .configurePwm pin _ _ => some pin
  | _ => none

/-- A symbol with the same type, and at least the same roles. -/
structure Symbol.Extends (before after : Symbol) : Prop where
  type : after.type = before.type
  isPin : before.isPin = true → after.isPin = true
  isPwm : before.isPwm = true → after.isPwm = true

namespace Symbol

/-- A symbol is a pin exactly if it has a direction. -/
def Directed (symbol : Symbol) : Prop :=
  symbol.isPin = true ↔ symbol.mode ≠ .unset

theorem directed_ofDirection (symbol : Symbol) (direction : PinDirection) :
    Directed { symbol with isPin := true, mode := .ofDirection direction } := by
  cases direction <;> simp [Directed, PinMode.ofDirection]

end Symbol

namespace SymbolTable

variable {table after : SymbolTable}

/-- A check that looks a symbol up succeeds as what follows does. -/
theorem get_bind_eq_ok {name : String} {rest : Symbol → Except SemanticError SymbolTable}
    (checked : (table.get name >>= rest) = .ok after) :
    ∃ symbol, table.get name = .ok symbol ∧ rest symbol = .ok after := by
  cases found : table.get name with
  | error =>
      rw [found] at checked
      cases checked
  | ok symbol =>
      rw [found] at checked
      exact ⟨symbol, rfl, checked⟩

/-- What a successful check can be: it leaves the table, or adds to the symbol of the pin
that its command configures, and never a role as a pin without a direction. -/
theorem check_cases {command : Command} (checked : table.check command = .ok after) :
    after = table ∨ ∃ pin change, command.configured? = some pin ∧
      after = table.modify pin change ∧ (∀ symbol : Symbol, symbol.Extends (change symbol)) ∧
      ∀ symbol : Symbol, symbol.Directed → (change symbol).Directed := by
  cases command with
  | configurePin pin direction =>
      rcases get_bind_eq_ok checked with ⟨symbol, -, modified⟩
      cases modified
      refine .inr ⟨pin, _, rfl, rfl, fun _ => ⟨rfl, fun _ => rfl, id⟩, fun other _ => ?_⟩
      exact other.directed_ofDirection direction
  | configurePwm pin frequency resolution =>
      rcases get_bind_eq_ok checked with ⟨symbol, -, modified⟩
      cases modified
      exact .inr ⟨pin, _, rfl, rfl, fun _ => ⟨rfl, id, fun _ => rfl⟩, fun _ directed => directed⟩
  | assign target value =>
      rcases get_bind_eq_ok checked with ⟨symbol, -, compatible⟩
      simp only at compatible
      split at compatible <;> cases compatible
      exact .inl rfl
  | adjustPwm pin value =>
      rcases get_bind_eq_ok checked with ⟨symbol, -, configured⟩
      split at configured <;> cases configured
      exact .inl rfl
  | turnOn pin | turnOff pin =>
      rcases get_bind_eq_ok checked with ⟨symbol, -, written⟩
      split at written
      · cases written
      · split at written <;> cases written
        exact .inl rfl
  | readDigital target pin | readAnalog target pin =>
      rcases get_bind_eq_ok checked with ⟨targetSymbol, -, found⟩
      rcases get_bind_eq_ok found with ⟨symbol, -, read⟩
      split at read <;> cases read
      exact .inl rfl
  | _ =>
      cases checked
      exact .inl rfl

theorem declare_eq_ok {declaration : Declaration}
    (declared : table.declare declaration = .ok after) :
    table.find? declaration.name = none ∧
      after.entries = table.entries ++ [(declaration.name, { type := declaration.type })] := by
  rw [declare] at declared
  split at declared
  · cases declared
  · next new =>
      cases declared
      exact ⟨new, rfl⟩

/-- Every name has one symbol, which is a pin exactly if it has a direction. -/
structure Consistent (table : SymbolTable) : Prop where
  distinct : (table.entries.map Prod.fst).Nodup
  directed : ∀ entry ∈ table.entries, entry.2.Directed

theorem map_fst_modify (name : String) (change : Symbol → Symbol) :
    (table.modify name change).entries.map Prod.fst = table.entries.map Prod.fst := by
  rw [modify, List.map_map]
  apply List.map_congr_left
  intro entry _
  by_cases here : entry.1 = name <;> simp [here]

theorem Consistent.modify (consistent : table.Consistent) (name : String)
    {change : Symbol → Symbol}
    (directed : ∀ symbol : Symbol, symbol.Directed → (change symbol).Directed) :
    (table.modify name change).Consistent := by
  refine ⟨?_, ?_⟩
  · rw [map_fst_modify]
    exact consistent.distinct
  · intro entry member
    rcases List.mem_map.mp member with ⟨old, oldMember, rfl⟩
    split
    · exact directed _ (consistent.directed old oldMember)
    · exact consistent.directed old oldMember

theorem Consistent.declare (consistent : table.Consistent) {declaration : Declaration}
    (declared : table.declare declaration = .ok after) : after.Consistent := by
  rcases declare_eq_ok declared with ⟨new, entries⟩
  refine ⟨?_, ?_⟩
  · have unused : declaration.name ∉ table.entries.map Prod.fst := by
      rw [find?, List.lookup_eq_none_iff] at new
      intro member
      rcases List.mem_map.mp member with ⟨entry, old, same⟩
      exact absurd (new entry old) (by simp [same])
    rw [entries, List.map_append, List.nodup_append]
    refine ⟨consistent.distinct, by simp, ?_⟩
    intro name old added once same
    rw [List.map_singleton, List.mem_singleton] at once
    rw [same, once] at old
    exact unused old
  · intro entry member
    rw [entries] at member
    rcases List.mem_append.mp member with old | added
    · exact consistent.directed entry old
    · rw [List.mem_singleton.mp added]
      simp [Symbol.Directed]

theorem Consistent.check (consistent : table.Consistent) {command : Command}
    (checked : table.check command = .ok after) : after.Consistent := by
  rcases check_cases checked with rfl | ⟨pin, change, -, rfl, -, directed⟩
  · exact consistent
  · exact consistent.modify pin directed

theorem find?_declare {declaration : Declaration}
    (declared : table.declare declaration = .ok after) (name : String) :
    after.find? name =
      if name = declaration.name then some { type := declaration.type }
      else table.find? name := by
  rcases declare_eq_ok declared with ⟨new, entries⟩
  rw [find?, entries, List.lookup_append, ← find?]
  by_cases here : name = declaration.name
  · subst here
    simp [new]
  · have other : (name == declaration.name) = false := by simpa using here
    simp [here, List.lookup_cons, other]

/-- A successful check keeps all symbols, with their types and roles, and all but the one
that its command configures as they are. -/
theorem check_frame {command : Command} (checked : table.check command = .ok after) :
    after.entries.map Prod.fst = table.entries.map Prod.fst ∧
      (∀ name before, table.find? name = some before →
        ∃ now, after.find? name = some now ∧ before.Extends now) ∧
      ∀ name, command.configured? ≠ some name → after.find? name = table.find? name := by
  rcases check_cases checked with rfl | ⟨pin, change, configured, rfl, extension, -⟩
  · refine ⟨rfl, fun name before found => ⟨before, found, ?_⟩, fun _ _ => rfl⟩
    exact ⟨rfl, id, id⟩
  · refine ⟨map_fst_modify pin change, ?_, ?_⟩
    · intro name before found
      rw [find?_modify, found]
      split
      · exact ⟨_, rfl, extension before⟩
      · exact ⟨_, rfl, rfl, id, id⟩
    · intro name other
      rw [find?_modify, if_neg]
      rintro rfl
      exact other configured

end SymbolTable

/-! ## Runs of operations -/

namespace TableOperation

theorem consistent_outcome {table after : SymbolTable} (consistent : table.Consistent)
    {operation : TableOperation} (succeeded : operation.outcome table = .ok after) :
    after.Consistent := by
  cases operation with
  | declare declaration => exact consistent.declare succeeded
  | check command => exact consistent.check succeeded

theorem consistent_leaves {table : SymbolTable} (consistent : table.Consistent)
    (operation : TableOperation) : (operation.leaves table).Consistent := by
  rw [leaves_eq]
  cases succeeded : operation.outcome table with
  | error => exact consistent
  | ok after => exact consistent_outcome consistent succeeded

theorem consistent_empty : SymbolTable.Consistent {} :=
  ⟨List.nodup_nil, fun _ member => by cases member⟩

theorem consistent_foldl {table : SymbolTable} (consistent : table.Consistent)
    (operations : List TableOperation) : (operations.foldl leaves table).Consistent := by
  induction operations generalizing table with
  | nil => exact consistent
  | cons operation operations induction =>
      exact induction (consistent_leaves consistent operation)

theorem outcome_of_run_ok {table after : SymbolTable} {operation : TableOperation}
    (performed : operation.perform.run table = .ok () after) :
    operation.outcome table = .ok after := by
  rw [run_perform] at performed
  cases outcome : operation.outcome table with
  | error => rw [outcome] at performed; cases performed
  | ok => rw [outcome] at performed; cases performed; rfl

/-- Whatever operations have been tried on an empty table, every symbol of it is a pin
exactly if it has a direction. The next operation leaves the table alone if it fails; if not,
a declaration adds its own symbol and nothing else, and a check adds at most to the symbol
that its command configures. -/
theorem reached_consistent_and_framed (operations : List TableOperation) :
    (reached operations).Consistent ∧
    (∀ operation : TableOperation, operation.perform.run (reached operations) =
      TableUpdate.ofOutcome (reached operations) (operation.outcome (reached operations))) ∧
    (∀ (operation : TableOperation) (error : SemanticError) (after : SymbolTable),
      operation.perform.run (reached operations) = .error error after →
        after = reached operations) ∧
    (∀ (declaration : Declaration) (after : SymbolTable),
      (perform (.declare declaration)).run (reached operations) = .ok () after →
        (reached operations).find? declaration.name = none ∧
        after.entries = (reached operations).entries ++ [(declaration.name,
          { type := declaration.type, isPin := false, isPwm := false, mode := .unset })] ∧
        ∀ name ≠ declaration.name, after.find? name = (reached operations).find? name) ∧
    ∀ (command : Command) (after : SymbolTable),
      (perform (.check command)).run (reached operations) = .ok () after →
        after.entries.map Prod.fst = (reached operations).entries.map Prod.fst ∧
        (∀ name before, (reached operations).find? name = some before →
          ∃ now, after.find? name = some now ∧ before.Extends now) ∧
        ∀ name, command.configured? ≠ some name →
          after.find? name = (reached operations).find? name := by
  refine ⟨?_, run_perform _, ?_, ?_, ?_⟩
  · exact consistent_foldl consistent_empty operations
  · intro operation error after failed
    rw [run_perform] at failed
    cases outcome : operation.outcome (reached operations) with
    | ok => rw [outcome] at failed; cases failed
    | error => rw [outcome] at failed; cases failed; rfl
  · intro declaration after performed
    have declared := outcome_of_run_ok performed
    rcases SymbolTable.declare_eq_ok declared with ⟨new, entries⟩
    refine ⟨new, entries, ?_⟩
    intro name other
    rw [SymbolTable.find?_declare declared, if_neg other]
  · intro command after performed
    exact SymbolTable.check_frame (outcome_of_run_ok performed)

/-- A pin that could not be written before it was configured, and is then used for PWM. -/
theorem led_keeps_direction :
    let tried : List TableOperation :=
      [.declare ⟨"led", .integer⟩, .check (.turnOn "led"), .declare ⟨"led", .text⟩,
        .check (.configurePin "led" .output)]
    ∃ after now, (perform (.check (.configurePwm "led" 5000 8))).run (reached tried) =
        .ok () after ∧ after.find? "led" = some now ∧ now.isPin = true ∧
      after.entries.map Prod.fst = ["led"] := by
  intro tried
  rcases reached_consistent_and_framed tried with ⟨-, -, -, -, framed⟩
  have performed : (perform (.check (.configurePwm "led" 5000 8))).run (reached tried) =
      .ok () { entries := [("led", ⟨.integer, true, true, .output⟩)] } := by rfl
  rcases framed _ _ performed with ⟨names, kept, -⟩
  rcases kept "led" ⟨.integer, true, false, .output⟩ rfl with ⟨now, found, extension⟩
  exact ⟨_, now, performed, found, extension.isPin rfl, names⟩

end TableOperation

end Firmware
