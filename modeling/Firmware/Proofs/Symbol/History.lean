import Firmware.Symbol.Analysis

/-! # Symbols by the history of a program

What the analysis knows of a variable at some command is settled by the declarations
and by the commands before it: its type, the direction that the last configuration as
a pin gave it, and whether it has been configured as a PWM output. Whether a command
is allowed, and how it fails otherwise, is stated here in these terms. -/

namespace Firmware

def Declaration.typeOf? (declarations : List Declaration) (name : String) : Option VarType :=
  (declarations.find? fun declaration => declaration.name = name).map Declaration.type

namespace Command

def direction? (pin : String) : Command → Option PinDirection
  | .configurePin configured direction => if configured = pin then some direction else none
  | _ => none

def configuresPwm (pin : String) : Command → Bool
  | .configurePwm configured _ _ => configured = pin
  | _ => false

/-- The direction of the last command that configures a pin. -/
def lastDirection? (commands : List Command) (pin : String) : Option PinDirection :=
  (commands.filterMap (direction? pin)).getLast?

theorem lastDirection?_append (first second : List Command) (pin : String) :
    lastDirection? (first ++ second) pin =
      (lastDirection? second pin).or (lastDirection? first pin) := by
  rw [lastDirection?, List.filterMap_append, List.getLast?_append]
  rfl

theorem lastDirection?_single (command : Command) (pin : String) :
    lastDirection? [command] pin = command.direction? pin := by
  cases known : command.direction? pin <;> simp [lastDirection?, known]

end Command

/-! ## The table after some commands -/

/-- What is known of a declared name behind some commands. -/
def Symbol.recorded (commands : List Command) (name : String) (type : VarType) : Symbol where
  type := type
  isPin := (Command.lastDirection? commands name).isSome
  isPwm := commands.any (Command.configuresPwm name)
  mode :=
    match Command.lastDirection? commands name with
    | none => .unset
    | some direction => .ofDirection direction

/-- The table of some declarations behind some commands. -/
def SymbolTable.recorded (declarations : List Declaration) (commands : List Command) :
    SymbolTable where
  entries := declarations.map fun declaration =>
    (declaration.name, Symbol.recorded commands declaration.name declaration.type)

namespace SymbolTable

theorem find?_recorded (declarations : List Declaration) (commands : List Command)
    (name : String) :
    (recorded declarations commands).find? name =
      (Declaration.typeOf? declarations name).map (Symbol.recorded commands name) := by
  induction declarations with
  | nil => rfl
  | cons declaration declarations induction =>
      by_cases here : declaration.name = name
      · subst here
        simp [find?, recorded, Declaration.typeOf?]
      · have absent : (name == declaration.name) = false := by
          simpa using Ne.symm here
        simpa [find?, recorded, Declaration.typeOf?, List.lookup_cons, here, absent]
          using induction

theorem typeOf?_recorded (declarations : List Declaration) (commands : List Command)
    (name : String) :
    (recorded declarations commands).typeOf? name = Declaration.typeOf? declarations name := by
  rw [typeOf?, find?_recorded, Option.map_map]
  exact Option.map_id_apply

/-- Commands do not change the type of an expression. -/
theorem infer_recorded (declarations : List Declaration) (commands : List Command)
    (expression : String) :
    (recorded declarations commands).infer expression =
      (recorded declarations []).infer expression := by
  simp only [infer, typeOf?_recorded]

/-- A command that configures nothing leaves the table as it is. -/
theorem recorded_append_of_idle {declarations : List Declaration} {commands : List Command}
    {command : Command} (noDirection : ∀ pin, command.direction? pin = none)
    (noPwm : ∀ pin, command.configuresPwm pin = false) :
    recorded declarations (commands ++ [command]) = recorded declarations commands := by
  simp only [recorded, Symbol.recorded, Command.lastDirection?_append,
    Command.lastDirection?_single, noDirection, Option.none_or, List.any_append, List.any_cons,
    noPwm, List.any_nil, Bool.or_false]

end SymbolTable

/-! ## What a command requires -/

def Declaration.Declares (declarations : List Declaration) (name : String) : Prop :=
  name ∈ declarations.map Declaration.name

theorem Declaration.typeOf?_eq_none_iff (declarations : List Declaration) (name : String) :
    typeOf? declarations name = none ↔ ¬ Declares declarations name := by
  simp [typeOf?, Declares]

theorem Declaration.exists_typeOf?_iff (declarations : List Declaration) (name : String) :
    (∃ type, typeOf? declarations name = some type) ↔ Declares declarations name := by
  rw [← Option.isSome_iff_exists, ← Option.ne_none_iff_isSome, Ne, typeOf?_eq_none_iff,
    Classical.not_not]

namespace VarType

/-- A text for an integer, or an integer for a text. -/
def Clashes (declared inferred : VarType) : Prop :=
  (declared = .integer ∧ inferred = .text) ∨ (declared = .text ∧ inferred = .integer)

theorem clash_eq_true_iff (declared inferred : VarType) :
    declared.clash inferred = true ↔ declared.Clashes inferred := by
  simp [clash, Clashes]

end VarType

namespace Command

/-- The variables of a command, in the order in which they are looked up. -/
def names : Command → List String
  | .assign target _ => [target]
  | .configurePin pin _ | .configurePwm pin _ _ | .adjustPwm pin _ => [pin]
  | .turnOn pin | .turnOff pin => [pin]
  | .readDigital target pin | .readAnalog target pin => [target, pin]
  | _ => []

variable (declarations : List Declaration) (earlier : List Command)

/-- A command is allowed behind the earlier ones. -/
def Allowed : Command → Prop
  | .assign target value => ∃ declared, Declaration.typeOf? declarations target = some declared ∧
      ¬ declared.Clashes ((SymbolTable.recorded declarations []).infer value)
  | .configurePin pin _ | .configurePwm pin _ _ => Declaration.Declares declarations pin
  | .adjustPwm pin _ => Declaration.Declares declarations pin ∧
      ∃ frequency resolution, .configurePwm pin frequency resolution ∈ earlier
  | .turnOn pin | .turnOff pin => Declaration.Declares declarations pin ∧
      lastDirection? earlier pin = some .output
  | .readDigital target pin | .readAnalog target pin =>
      Declaration.Declares declarations target ∧ Declaration.Declares declarations pin ∧
        lastDirection? earlier pin = some .input
  | _ => True

/-- How a command fails behind the earlier ones. A variable that is not declared comes
before anything else that is wrong. -/
inductive Violates : Command → SemanticError → Prop
  | undeclared {command name} :
      command.names.find? (fun name => (Declaration.typeOf? declarations name).isNone) =
        some name →
      Violates command (.undeclaredVariable name)
  | mismatch {target value declared inferred} :
      Declaration.typeOf? declarations target = some declared →
      (SymbolTable.recorded declarations []).infer value = inferred →
      declared.Clashes inferred →
      Violates (.assign target value) (.typeMismatch target declared inferred)
  | noPwm {pin value} :
      Declaration.Declares declarations pin →
      (∀ frequency resolution, .configurePwm pin frequency resolution ∉ earlier) →
      Violates (.adjustPwm pin value) (.pwmNotConfigured pin)
  | turnOnUnset {pin} :
      Declaration.Declares declarations pin → lastDirection? earlier pin = none →
      Violates (.turnOn pin) (.notConfiguredAsPin pin)
  | turnOffUnset {pin} :
      Declaration.Declares declarations pin → lastDirection? earlier pin = none →
      Violates (.turnOff pin) (.notConfiguredAsPin pin)
  | turnOnInput {pin} :
      Declaration.Declares declarations pin → lastDirection? earlier pin = some .input →
      Violates (.turnOn pin) (.wrongPinMode pin .output)
  | turnOffInput {pin} :
      Declaration.Declares declarations pin → lastDirection? earlier pin = some .input →
      Violates (.turnOff pin) (.wrongPinMode pin .output)
  | readDigital {target pin} :
      Declaration.Declares declarations target → Declaration.Declares declarations pin →
      lastDirection? earlier pin ≠ some .input →
      Violates (.readDigital target pin) (.wrongPinMode pin .input)
  | readAnalog {target pin} :
      Declaration.Declares declarations target → Declaration.Declares declarations pin →
      lastDirection? earlier pin ≠ some .input →
      Violates (.readAnalog target pin) (.wrongPinMode pin .input)

end Command

/-! ## Checking a command against the table of the earlier ones -/

namespace SymbolTable

variable {declarations : List Declaration} {earlier : List Command}

theorem get_recorded {name : String} {type : VarType}
    (known : Declaration.typeOf? declarations name = some type) :
    (recorded declarations earlier).get name = .ok (Symbol.recorded earlier name type) := by
  rw [get, find?_recorded, known]
  rfl

theorem get_recorded_of_undeclared {name : String}
    (unknown : Declaration.typeOf? declarations name = none) :
    (recorded declarations earlier).get name = .error (.undeclaredVariable name) := by
  rw [get, find?_recorded, unknown]
  rfl

theorem modify_recorded_pin (pin : String) (direction : PinDirection) :
    (recorded declarations earlier).modify pin
        (fun symbol => { symbol with isPin := true, mode := .ofDirection direction }) =
      recorded declarations (earlier ++ [.configurePin pin direction]) := by
  simp only [modify, recorded, List.map_map, mk.injEq]
  apply List.map_congr_left
  intro declaration _
  by_cases here : declaration.name = pin
  · subst here
    simp [Symbol.recorded, Command.lastDirection?_append, Command.lastDirection?_single,
      Command.direction?, Command.configuresPwm]
  · simp [Symbol.recorded, Command.lastDirection?_append, Command.lastDirection?_single,
      Command.direction?, Command.configuresPwm, here, Ne.symm here]

theorem modify_recorded_pwm (pin : String) (frequency resolution : Int) :
    (recorded declarations earlier).modify pin (fun symbol => { symbol with isPwm := true }) =
      recorded declarations (earlier ++ [.configurePwm pin frequency resolution]) := by
  simp only [modify, recorded, List.map_map, mk.injEq]
  apply List.map_congr_left
  intro declaration _
  by_cases here : declaration.name = pin
  · subst here
    simp [Symbol.recorded, Command.lastDirection?_append, Command.lastDirection?_single,
      Command.direction?, Command.configuresPwm]
  · simp [Symbol.recorded, Command.lastDirection?_append, Command.lastDirection?_single,
      Command.direction?, Command.configuresPwm, here, Ne.symm here]

theorem any_configuresPwm_iff (commands : List Command) (pin : String) :
    commands.any (Command.configuresPwm pin) = true ↔
      ∃ frequency resolution, .configurePwm pin frequency resolution ∈ commands := by
  rw [List.any_eq_true]
  constructor
  · rintro ⟨command, member, configures⟩
    cases command with
    | configurePwm configured frequency resolution =>
        obtain rfl : configured = pin := by simpa [Command.configuresPwm] using configures
        exact ⟨frequency, resolution, member⟩
    | _ => cases configures
  · rintro ⟨frequency, resolution, member⟩
    exact ⟨_, member, by simp [Command.configuresPwm]⟩

/-! Both commands that write a pin are checked in one way, and so are both that read one. -/

theorem check_turnOn_recorded {pin : String} (declared : Declaration.Declares declarations pin) :
    (recorded declarations earlier).check (.turnOn pin) =
      match Command.lastDirection? earlier pin with
      | none => .error (.notConfiguredAsPin pin)
      | some .input => .error (.wrongPinMode pin .output)
      | some .output => .ok (recorded declarations earlier) := by
  rcases (Declaration.exists_typeOf?_iff _ _).mpr declared with ⟨type, known⟩
  rw [check, get_recorded known]
  cases last : Command.lastDirection? earlier pin with
  | none => simp [bind, Except.bind, Symbol.recorded, last]
  | some direction =>
      cases direction <;> simp [bind, Except.bind, Symbol.recorded, last, PinMode.ofDirection]

theorem check_readDigital_recorded {target pin : String}
    (targetDeclared : Declaration.Declares declarations target)
    (pinDeclared : Declaration.Declares declarations pin) :
    (recorded declarations earlier).check (.readDigital target pin) =
      if Command.lastDirection? earlier pin = some .input then
        .ok (recorded declarations earlier)
      else
        .error (.wrongPinMode pin .input) := by
  rcases (Declaration.exists_typeOf?_iff _ _).mpr targetDeclared with ⟨targetType, targetKnown⟩
  rcases (Declaration.exists_typeOf?_iff _ _).mpr pinDeclared with ⟨pinType, pinKnown⟩
  rw [check, get_recorded targetKnown, get_recorded pinKnown]
  cases last : Command.lastDirection? earlier pin with
  | none => simp [bind, Except.bind, Symbol.recorded, last]
  | some direction =>
      cases direction <;> simp [bind, Except.bind, Symbol.recorded, last, PinMode.ofDirection]

/-- An allowed command leaves the table of the commands up to it. -/
theorem check_recorded_of_allowed {command : Command}
    (allowed : command.Allowed declarations earlier) :
    (recorded declarations earlier).check command =
      .ok (recorded declarations (earlier ++ [command])) := by
  cases command with
  | assign target value =>
      rcases allowed with ⟨declared, known, compatible⟩
      rw [recorded_append_of_idle (fun _ => rfl) (fun _ => rfl)]
      rw [← VarType.clash_eq_true_iff, ← infer_recorded declarations earlier] at compatible
      simp [check, get_recorded known, bind, Except.bind, Symbol.recorded, compatible]
  | configurePin pin direction =>
      rcases (Declaration.exists_typeOf?_iff _ _).mpr allowed with ⟨type, known⟩
      rw [check, get_recorded known, ← modify_recorded_pin]
      rfl
  | configurePwm pin frequency resolution =>
      rcases (Declaration.exists_typeOf?_iff _ _).mpr allowed with ⟨type, known⟩
      rw [check, get_recorded known, ← modify_recorded_pwm]
      rfl
  | adjustPwm pin value =>
      rcases allowed with ⟨declared, configured⟩
      rcases (Declaration.exists_typeOf?_iff _ _).mpr declared with ⟨type, known⟩
      rw [← any_configuresPwm_iff] at configured
      rw [recorded_append_of_idle (fun _ => rfl) (fun _ => rfl)]
      simp [check, get_recorded known, bind, Except.bind, Symbol.recorded, configured]
  | turnOn pin | turnOff pin =>
      rw [recorded_append_of_idle (fun _ => rfl) (fun _ => rfl)]
      refine (check_turnOn_recorded allowed.1).trans ?_
      rw [allowed.2]
  | readDigital target pin | readAnalog target pin =>
      rw [recorded_append_of_idle (fun _ => rfl) (fun _ => rfl)]
      refine (check_readDigital_recorded allowed.1 allowed.2.1).trans ?_
      rw [if_pos allowed.2.2]
  | _ =>
      rw [recorded_append_of_idle (fun _ => rfl) (fun _ => rfl)]
      rfl

/-- The first variable that is not declared stops the check of its command. -/
theorem check_recorded_of_undeclared {command : Command} {name : String}
    (missing : command.names.find?
      (fun name => (Declaration.typeOf? declarations name).isNone) = some name) :
    (recorded declarations earlier).check command = .error (.undeclaredVariable name) := by
  cases command with
  | assign used | configurePin used | configurePwm used | adjustPwm used | turnOn used
  | turnOff used =>
      cases known : Declaration.typeOf? declarations used with
      | none =>
          obtain rfl : used = name := by
            simpa [Command.names, List.find?_cons, known] using missing
          rw [check, get_recorded_of_undeclared known]
          rfl
      | some type => simp [Command.names, known] at missing
  | readDigital target pin | readAnalog target pin =>
      cases targetKnown : Declaration.typeOf? declarations target with
      | none =>
          obtain rfl : target = name := by
            simpa [Command.names, List.find?_cons, targetKnown] using missing
          rw [check, get_recorded_of_undeclared targetKnown]
          rfl
      | some targetType =>
          cases pinKnown : Declaration.typeOf? declarations pin with
          | none =>
              obtain rfl : pin = name := by
                simpa [Command.names, List.find?_cons, targetKnown, pinKnown] using missing
              rw [check, get_recorded targetKnown, get_recorded_of_undeclared pinKnown]
              rfl
          | some pinType => simp [Command.names, targetKnown, pinKnown] at missing
  | _ => cases missing

theorem check_recorded_of_violates {command : Command} {error : SemanticError}
    (violates : command.Violates declarations earlier error) :
    (recorded declarations earlier).check command = .error error := by
  cases violates with
  | undeclared missing => exact check_recorded_of_undeclared missing
  | mismatch known inferred clashes =>
      subst inferred
      rw [← VarType.clash_eq_true_iff] at clashes
      simp [check, get_recorded known, bind, Except.bind, Symbol.recorded,
        infer_recorded declarations earlier, clashes]
  | @noPwm pin value declared unconfigured =>
      rcases (Declaration.exists_typeOf?_iff _ _).mpr declared with ⟨type, known⟩
      have absent : earlier.any (Command.configuresPwm pin) = false := by
        rw [Bool.eq_false_iff, Ne, any_configuresPwm_iff]
        rintro ⟨frequency, resolution, member⟩
        exact unconfigured frequency resolution member
      simp [check, get_recorded known, bind, Except.bind, Symbol.recorded, absent]
  | turnOnUnset declared unset | turnOffUnset declared unset =>
      refine (check_turnOn_recorded declared).trans ?_
      rw [unset]
  | turnOnInput declared input | turnOffInput declared input =>
      refine (check_turnOn_recorded declared).trans ?_
      rw [input]
  | readDigital targetDeclared pinDeclared other | readAnalog targetDeclared pinDeclared other =>
      refine (check_readDigital_recorded targetDeclared pinDeclared).trans ?_
      rw [if_neg other]

end SymbolTable

end Firmware
