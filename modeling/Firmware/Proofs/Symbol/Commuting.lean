import Firmware.Proofs.Symbol.InPlace

/-! # Commands that can be checked in either order

A check looks at the symbol of the pin that its command works with, at the types of
variables, and at nothing else. It changes at most the symbol of the pin that its command
configures, and never a type. So the order of two commands does not matter, unless one of
them configures the pin of the other, and neither does the order of the commands of a block
as far as it comes from exchanging such neighbours. -/

namespace Firmware

namespace Command

/-- The pin that a command works with. The target of a reading is not one. -/
def pin? : Command → Option String
  | .configurePin pin _ | .configurePwm pin _ _ | .adjustPwm pin _ => some pin
  | .turnOn pin | .turnOff pin => some pin
  | .readDigital _ pin | .readAnalog _ pin => some pin
  | _ => none

/-- Neither command configures the pin of the other. -/
def Independent (first second : Command) : Prop :=
  (∀ pin ∈ first.configured?, second.pin? ≠ some pin) ∧
    ∀ pin ∈ second.configured?, first.pin? ≠ some pin

instance : DecidableRel Independent := fun _ _ =>
  inferInstanceAs (Decidable (_ ∧ _))

theorem Independent.symm {first second : Command} (independent : first.Independent second) :
    second.Independent first :=
  ⟨independent.2, independent.1⟩

theorem pin?_of_configured? {command : Command} {pin : String}
    (configures : command.configured? = some pin) : command.pin? = some pin := by
  cases command with
  | configurePin | configurePwm => exact configures
  | _ => cases configures

/-! ## A check as a test and a change -/

/-- What a command makes of the symbol that it configures. -/
def change : Command → Symbol → Symbol
  | .configurePin _ direction, symbol =>
      { symbol with isPin := true, mode := .ofDirection direction }
  | .configurePwm .., symbol => { symbol with isPwm := true }
  | _, symbol => symbol

/-- The table behind a command that has passed its check. -/
def effect (command : Command) (table : SymbolTable) : SymbolTable :=
  match command.configured? with
  | some pin => table.modify pin command.change
  | none => table

/-- What a command requires of the table. -/
def Passes (table : SymbolTable) : Command → Prop
  | .assign target value =>
      ∃ declared, table.typeOf? target = some declared ∧
        declared.clash (table.infer value) = false
  | .configurePin pin _ | .configurePwm pin _ _ => ∃ symbol, table.find? pin = some symbol
  | .adjustPwm pin _ => ∃ symbol, table.find? pin = some symbol ∧ symbol.isPwm = true
  | .turnOn pin | .turnOff pin =>
      ∃ symbol, table.find? pin = some symbol ∧ symbol.isPin = true ∧ symbol.mode = .output
  | .readDigital target pin | .readAnalog target pin =>
      (∃ declared, table.typeOf? target = some declared) ∧
        ∃ symbol, table.find? pin = some symbol ∧ symbol.isPin = true ∧ symbol.mode = .input
  | _ => True

end Command

namespace SymbolTable

variable {table other after : SymbolTable} {command first second : Command}

theorem get_bind_eq_ok_iff {name : String} {rest : Symbol → Except SemanticError SymbolTable} :
    (table.get name >>= rest) = .ok after ↔
      ∃ symbol, table.find? name = some symbol ∧ rest symbol = .ok after := by
  cases found : table.find? name <;> simp [get, found, bind, Except.bind]

theorem refuse_eq_ok_iff {wrong : Prop} [Decidable wrong] {error : SemanticError}
    {rest : Except SemanticError SymbolTable} :
    (if wrong then .error error else rest) = .ok after ↔ ¬ wrong ∧ rest = .ok after := by
  by_cases is : wrong <;> simp [is]

theorem permit_eq_ok_iff {right : Prop} [Decidable right] {error : SemanticError} :
    (if right then .ok table else .error error) = Except.ok after ↔ right ∧ after = table := by
  by_cases is : right <;> simp [is, eq_comm]

/-- What holds of the type of a declared variable can be said of its symbol. -/
theorem exists_type_iff {name : String} {Rule : VarType → Prop} :
    (∃ declared, table.typeOf? name = some declared ∧ Rule declared) ↔
      ∃ symbol, table.find? name = some symbol ∧ Rule symbol.type := by
  cases found : table.find? name <;> simp [typeOf?, found]

theorem exists_typeOf?_iff {name : String} :
    (∃ declared, table.typeOf? name = some declared) ↔
      ∃ symbol, table.find? name = some symbol := by
  cases found : table.find? name <;> simp [typeOf?, found]

/-- A check succeeds if its command passes, and then changes the table by the effect. -/
theorem check_eq_ok_iff :
    table.check command = .ok after ↔ command.Passes table ∧ after = command.effect table := by
  cases command with
  | assign target value =>
      simp only [check, get_bind_eq_ok_iff, refuse_eq_ok_iff, Command.Passes, exists_type_iff,
        Bool.not_eq_true, Except.ok.injEq, ← and_assoc, exists_and_right]
      rw [eq_comm]
      rfl
  | configurePin pin | configurePwm pin =>
      simp only [check, get_bind_eq_ok_iff, Command.Passes, Except.ok.injEq, exists_and_right]
      rw [eq_comm]
      rfl
  | adjustPwm pin value =>
      simp only [check, get_bind_eq_ok_iff, permit_eq_ok_iff, Command.Passes, ← and_assoc,
        exists_and_right]
      rfl
  | turnOn pin | turnOff pin =>
      simp only [check, get_bind_eq_ok_iff, refuse_eq_ok_iff, Command.Passes, Bool.not_eq_true',
        Bool.not_eq_false, Decidable.not_not, Except.ok.injEq, ← and_assoc, exists_and_right, ne_eq]
      rw [eq_comm]
      rfl
  | readDigital target pin | readAnalog target pin =>
      simp only [check, get_bind_eq_ok_iff, permit_eq_ok_iff, Command.Passes, exists_typeOf?_iff,
        ← and_assoc, exists_and_right]
      rfl
  | _ =>
      simp only [check, Except.ok.injEq, Command.Passes, true_and]
      exact eq_comm

/-- A check goes on with the effect of its command, if the command passes. -/
theorem check_bind_eq_ok_iff {rest : SymbolTable → Except SemanticError SymbolTable} :
    (table.check command >>= rest) = .ok after ↔
      command.Passes table ∧ rest (command.effect table) = .ok after := by
  cases checked : table.check command with
  | ok middle =>
      rcases check_eq_ok_iff.mp checked with ⟨passes, rfl⟩
      exact (and_iff_right passes).symm
  | error error =>
      constructor
      · intro failed
        cases failed
      · intro succeeds
        rw [check_eq_ok_iff.mpr ⟨succeeds.1, rfl⟩] at checked
        cases checked

/-! ## What the order of two commands changes -/

theorem find?_effect {name : String} (other : command.configured? ≠ some name) :
    (command.effect table).find? name = table.find? name := by
  unfold Command.effect
  split
  · next pin configures =>
      rw [find?_modify, if_neg]
      intro same
      exact other (same ▸ configures)
  · rfl

theorem typeOf?_effect (command : Command) (table : SymbolTable) (name : String) :
    (command.effect table).typeOf? name = table.typeOf? name := by
  have keepsType : ∀ symbol, (command.change symbol).type = symbol.type := by
    intro symbol
    cases command <;> rfl
  unfold Command.effect
  split
  · rw [typeOf?, find?_modify, typeOf?]
    split
    · rw [Option.map_map]
      exact congrArg (Option.map · _) (funext keepsType)
    · rfl
  · rfl

/-- Types and the symbol of its pin are all that a command depends on. -/
theorem passes_congr (types : ∀ name, other.typeOf? name = table.typeOf? name)
    (pins : ∀ pin ∈ command.pin?, other.find? pin = table.find? pin) :
    command.Passes other ↔ command.Passes table := by
  cases command with
  | assign target value => simp only [Command.Passes, infer, types]
  | configurePin pin | configurePwm pin | adjustPwm pin | turnOn pin | turnOff pin =>
      simp only [Command.Passes, pins pin rfl]
  | readDigital target pin | readAnalog target pin =>
      simp only [Command.Passes, types, pins pin rfl]
  | _ => exact Iff.rfl

theorem passes_effect_iff (independent : first.Independent second) (table : SymbolTable) :
    second.Passes (first.effect table) ↔ second.Passes table := by
  apply passes_congr (typeOf?_effect first table)
  intro pin works
  apply find?_effect
  intro configures
  exact independent.1 pin configures works

theorem modify_comm {left right : String} (different : left ≠ right) (table : SymbolTable)
    (change another : Symbol → Symbol) :
    (table.modify left change).modify right another =
      (table.modify right another).modify left change := by
  simp only [modify, List.map_map, mk.injEq]
  apply List.map_congr_left
  intro entry _
  by_cases isLeft : entry.1 = left
  · simp [isLeft, different]
  · by_cases isRight : entry.1 = right <;> simp [isLeft, isRight, Ne.symm different]

theorem effect_comm (independent : first.Independent second) (table : SymbolTable) :
    second.effect (first.effect table) = first.effect (second.effect table) := by
  unfold Command.effect
  cases firstPin : first.configured? with
  | none => rfl
  | some left =>
      cases secondPin : second.configured? with
      | none => rfl
      | some right =>
          apply modify_comm
          intro same
          apply independent.1 left firstPin
          rw [same]
          exact Command.pin?_of_configured? secondPin

/-- Independent commands pass their checks in either order, and what follows sees the same
table. -/
theorem check_check_bind_comm (independent : first.Independent second)
    (rest : SymbolTable → Except SemanticError SymbolTable) :
    (table.check first >>= fun middle => middle.check second >>= rest) = .ok after ↔
      (table.check second >>= fun middle => middle.check first >>= rest) = .ok after := by
  simp only [check_bind_eq_ok_iff]
  rw [passes_effect_iff independent, passes_effect_iff independent.symm,
    effect_comm independent, and_left_comm]

end SymbolTable

/-! ## Reordered blocks -/

namespace Command

/-- Two blocks that differ by exchanges of neighbours that are independent. -/
inductive Reordered : List Command → List Command → Prop
  | refl (commands) : Reordered commands commands
  | swap {first second} (rest) :
      first.Independent second → Reordered (first :: second :: rest) (second :: first :: rest)
  | cons (command) {commands others} :
      Reordered commands others → Reordered (command :: commands) (command :: others)
  | trans {commands between others} :
      Reordered commands between → Reordered between others → Reordered commands others

namespace Reordered

variable {commands others : List Command}

theorem append_left (reordered : Reordered commands others) (front : List Command) :
    Reordered (front ++ commands) (front ++ others) := by
  induction front with
  | nil => exact reordered
  | cons command front induction => exact .cons command induction

theorem append_right (reordered : Reordered commands others) (back : List Command) :
    Reordered (commands ++ back) (others ++ back) := by
  induction reordered with
  | refl => exact .refl _
  | swap rest independent => exact .swap (rest ++ back) independent
  | cons command _ induction => exact .cons command induction
  | trans _ _ before behind => exact .trans before behind

/-- Reordered commands lead from the same tables to the same tables. -/
theorem foldlM_check (reordered : Reordered commands others) (table after : SymbolTable) :
    commands.foldlM SymbolTable.check table = .ok after ↔
      others.foldlM SymbolTable.check table = .ok after := by
  induction reordered generalizing table with
  | refl => exact Iff.rfl
  | swap rest independent =>
      simp only [List.foldlM_cons]
      exact SymbolTable.check_check_bind_comm independent (rest.foldlM SymbolTable.check)
  | cons command _ induction =>
      simp only [List.foldlM_cons, SymbolTable.check_bind_eq_ok_iff, induction]
  | trans _ _ before behind => exact (before table).trans (behind table)

end Reordered

/-- An assignment configures nothing and works with no pin. -/
theorem assign_independent (target value : String) (command : Command) :
    (Command.assign target value).Independent command :=
  ⟨nofun, nofun⟩

end Command

namespace Program

theorem analyze_of_reordered {program other : Program}
    (declarations : program.declarations = other.declarations)
    (setup : Command.Reordered program.setup other.setup)
    (loop : Command.Reordered program.loop other.loop) (table : SymbolTable) :
    program.analyze = .ok table ↔ other.analyze = .ok table := by
  have commands : Command.Reordered program.commands other.commands :=
    (setup.append_right program.loop).trans (loop.append_left other.setup)
  rw [analyze, analyze, declarations]
  cases SymbolTable.ofDeclarations other.declarations with
  | error error => exact Iff.rfl
  | ok initial => exact commands.foldlM_check initial table

/-- Two commands can be checked in either order if neither configures the pin of the other.
So exchanges of such neighbours change neither whether a program is accepted nor its table,
and an assignment can be moved past any command. -/
theorem independent_commands_commute :
    (∀ (table : SymbolTable) (first second : Command), first.Independent second →
      ∀ after, (table.check first >>= fun middle => middle.check second) = .ok after ↔
        (table.check second >>= fun middle => middle.check first) = .ok after) ∧
    (∀ program other : Program, program.declarations = other.declarations →
      Command.Reordered program.setup other.setup → Command.Reordered program.loop other.loop →
        ∀ table, program.analyze = .ok table ↔ other.analyze = .ok table) ∧
    ∀ (front back : List Command) (target value : String) (command : Command),
      Command.Reordered (front ++ .assign target value :: command :: back)
        (front ++ command :: .assign target value :: back) := by
  refine ⟨?_, ?_, ?_⟩
  · intro table first second independent after
    simpa only [bind_pure] using SymbolTable.check_check_bind_comm independent pure
  · intro program other declarations setup loop
    exact analyze_of_reordered declarations setup loop
  · intro front back target value command
    exact .append_left (.swap back (Command.assign_independent target value command)) front

/-- A light and a fan that are configured one after the other. -/
def lightAndFan (setup : List Command) : Program where
  declarations := [⟨"led", .integer⟩, ⟨"fan", .integer⟩, ⟨"level", .integer⟩]
  setup
  loop := [.turnOn "led", .adjustPwm "fan" "level"]

/-- The fan may be configured before the light, and the level may be set last. -/
theorem lightAndFan_reordered :
    let level : Command := .assign "level" "led"
    let led : Command := .configurePin "led" .output
    let fan : Command := .configurePwm "fan" 5000 8
    Command.Reordered [level, led, fan] [fan, led, level] ∧
      ∃ table, (lightAndFan [level, led, fan]).analyze = .ok table ∧
        (lightAndFan [fan, led, level]).analyze = .ok table := by
  intro level led fan
  have reordered : Command.Reordered [level, led, fan] [fan, led, level] :=
    .trans (.swap [fan] (by decide))
      (.trans (.cons led (.swap [] (by decide))) (.swap [level] (by decide)))
  have accepted : (lightAndFan [level, led, fan]).analyze =
      .ok { entries := [("led", ⟨.integer, true, false, .output⟩),
        ("fan", ⟨.integer, false, true, .unset⟩), ("level", { type := .integer })] } := by
    rfl
  rcases independent_commands_commute with ⟨-, unchanged, -⟩
  refine ⟨reordered, _, accepted, ?_⟩
  exact (unchanged (lightAndFan [level, led, fan]) (lightAndFan [fan, led, level]) rfl
    reordered (.refl _) _).mp accepted

end Program

end Firmware
