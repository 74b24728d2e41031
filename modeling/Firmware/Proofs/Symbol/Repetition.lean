import Firmware.Proofs.Symbol.Analysis

/-! # Running the loop more than once

The analysis goes through the loop once, while the commands of the loop run over and
over. A later pass starts with the directions that the pass before it has left behind,
so it can break a rule that the first pass keeps. It does so exactly when a pin is used
ahead of its first configuration in the loop, and the loop leaves the pin in the other
direction. -/

namespace Firmware

def Command.requires? : Command → Option (String × PinDirection)
  | .turnOn pin | .turnOff pin => some (pin, .output)
  | .readDigital _ pin | .readAnalog _ pin => some (pin, .input)
  | _ => none

namespace Program

/-- The program whose loop is some number of passes through the loop. -/
def repeated (program : Program) (passes : Nat) : Program :=
  { program with loop := (List.replicate passes program.loop).flatten }

/-- A pin that is used ahead of its first configuration in the loop is left by the loop
in the direction of that use, if the loop configures it at all. -/
def Restores (program : Program) : Prop :=
  Everywhere (fun before command => ∀ pin direction,
    command.requires? = some (pin, direction) → Command.lastDirection? before pin = none →
      ∀ left, Command.lastDirection? program.loop pin = some left → left = direction)
    program.loop

/-- A pin that is switched on as an output and then made an input. -/
def handover : Program where
  declarations := [⟨"led", .integer⟩]
  setup := [.configurePin "led" .output]
  loop := [.turnOn "led", .configurePin "led" .input]

/-- One pass through a loop may be accepted, and two may not. -/
theorem handover_accepted_once :
    (∃ table, handover.analyze = .ok table) ∧
      (handover.repeated 2).analyze = .error (.wrongPinMode "led" .output) :=
  ⟨⟨.recorded handover.declarations handover.commands, by decide⟩, by decide⟩

end Program

/-! ## What a command sees of the passes before it -/

namespace Command

variable {declarations : List Declaration} {earlier later : List Command} {command : Command}

theorem Allowed.lastDirection?_eq (allowed : command.Allowed declarations earlier)
    {pin : String} {direction : PinDirection}
    (required : command.requires? = some (pin, direction)) :
    lastDirection? earlier pin = some direction := by
  cases command with
  | turnOn | turnOff =>
      cases required
      exact allowed.2
  | readDigital | readAnalog =>
      cases required
      exact allowed.2.2
  | _ => cases required

/-- Behind more commands, an allowed command depends on the directions of its pins only. -/
theorem Allowed.of_subset_iff (allowed : command.Allowed declarations earlier)
    (subset : earlier ⊆ later) :
    command.Allowed declarations later ↔ ∀ pin direction,
      command.requires? = some (pin, direction) → lastDirection? later pin = some direction := by
  constructor
  · intro stillAllowed pin direction required
    exact stillAllowed.lastDirection?_eq required
  · intro directed
    cases command with
    | adjustPwm pin value =>
        rcases allowed with ⟨declared, frequency, resolution, configured⟩
        exact ⟨declared, frequency, resolution, subset configured⟩
    | turnOn pin | turnOff pin => exact ⟨allowed.1, directed pin .output rfl⟩
    | readDigital target pin | readAnalog target pin =>
        exact ⟨allowed.1, allowed.2.1, directed pin .input rfl⟩
    | _ => exact allowed

/-- Each pass through a loop leaves the directions that the first pass has left. -/
theorem lastDirection?_passes (setup loop : List Command) (passes : Nat) (pin : String) :
    lastDirection? (setup ++ (List.replicate (passes + 1) loop).flatten) pin =
      (lastDirection? loop pin).or (lastDirection? setup pin) := by
  induction passes with
  | zero => simp [lastDirection?_append]
  | succ passes induction =>
      rw [List.replicate_succ', List.flatten_concat, ← List.append_assoc, lastDirection?_append,
        induction, ← Option.or_assoc, Option.or_self]

/-- A command that is allowed in the first pass through a loop is allowed in a later one
when the loop leaves its pins as the command requires them. -/
theorem Allowed.later_pass_iff {setup loop before : List Command}
    (allowed : command.Allowed declarations (setup ++ before)) (passes : Nat) :
    command.Allowed declarations
        (setup ++ (List.replicate (passes + 1) loop).flatten ++ before) ↔
      ∀ pin direction, command.requires? = some (pin, direction) →
        lastDirection? before pin = none →
          ∀ left, lastDirection? loop pin = some left → left = direction := by
  have subset : setup ++ before ⊆
      setup ++ (List.replicate (passes + 1) loop).flatten ++ before := by
    intro known member
    simp only [List.mem_append] at member ⊢
    tauto
  rw [allowed.of_subset_iff subset]
  refine forall₃_congr fun pin direction required => ?_
  have once := allowed.lastDirection?_eq required
  rw [lastDirection?_append] at once
  rw [lastDirection?_append, lastDirection?_passes]
  cases configured : lastDirection? before pin with
  | some given =>
      rw [configured, Option.some_or] at once
      simp [once]
  | none =>
      rw [configured, Option.none_or] at once
      cases left : lastDirection? loop pin <;> simp [once]

end Command

namespace Program

variable {program : Program}

theorem later_pass_allowed_iff
    (allowed : Everywhere (Command.Allowed program.declarations) program.commands)
    (passes : Nat) :
    Everywhere (fun before => Command.Allowed program.declarations
        (program.setup ++ (List.replicate (passes + 1) program.loop).flatten ++ before))
      program.loop ↔ program.Restores := by
  have firstPass := ((everywhere_append_iff _ _ _).mp allowed).2
  refine forall₃_congr fun before command after => forall_congr' fun split => ?_
  exact (firstPass before command after split).later_pass_iff passes

/-- All passes are allowed when the second one is. -/
theorem all_passes_allowed_iff
    (allowed : Everywhere (Command.Allowed program.declarations) program.commands)
    (passes : Nat) :
    Everywhere (Command.Allowed program.declarations) (program.repeated (passes + 2)).commands ↔
      program.Restores := by
  have lastPass : ∀ count, (program.repeated (count + 2)).commands =
      (program.repeated (count + 1)).commands ++ program.loop := by
    intro count
    simp only [commands, repeated]
    rw [List.replicate_succ', List.flatten_concat, List.append_assoc]
  induction passes with
  | zero =>
      have once : (program.repeated 1).commands = program.commands := by
        simp [commands, repeated]
      rw [lastPass, everywhere_append_iff, once, and_iff_right allowed, ← once]
      exact later_pass_allowed_iff allowed 0
  | succ passes induction =>
      rw [lastPass, everywhere_append_iff]
      refine (and_congr_left' induction).trans ?_
      exact and_iff_left_of_imp (later_pass_allowed_iff allowed (passes + 1)).mpr

/-- An accepted program stays accepted over any number of passes through its loop if the
loop restores the directions of its pins, and over one pass only otherwise. -/
theorem repeated_accepted_iff (accepted : ∃ table, program.analyze = .ok table) {passes : Nat}
    (positive : 1 ≤ passes) :
    (∃ table, (program.repeated passes).analyze = .ok table) ↔
      passes = 1 ∨ program.Restores := by
  rcases accepted with ⟨table, analyzed⟩
  rcases (analyze_eq_ok_iff _ _).mp analyzed with ⟨⟨distinct, allowed⟩, -⟩
  match passes, positive with
  | 1, _ =>
      have once : program.repeated 1 = program := by
        simp [repeated]
      simp [once, analyzed]
  | passes + 2, _ =>
      have several : passes + 2 ≠ 1 := by omega
      rw [or_iff_right several, ← all_passes_allowed_iff allowed passes]
      constructor
      · rintro ⟨final, accepted⟩
        exact ((analyze_eq_ok_iff _ _).mp accepted).1.allowed
      · intro allowed
        exact ⟨_, analyze_of_accepted ⟨distinct, allowed⟩⟩

/-- A pin that the loop reads as an input, uses as an output and makes an input again. -/
def exchange : Program where
  declarations := [⟨"pin", .integer⟩, ⟨"level", .integer⟩]
  setup := [.configurePin "pin" .input]
  loop := [.readDigital "level" "pin", .configurePin "pin" .output, .turnOn "pin",
    .configurePin "pin" .input]

theorem exchange_restores : exchange.Restores := by
  have once : ∃ table, exchange.analyze = .ok table :=
    ⟨.recorded exchange.declarations exchange.commands, by decide⟩
  have twice : ∃ table, (exchange.repeated 2).analyze = .ok table :=
    ⟨.recorded exchange.declarations exchange.commands, by decide⟩
  exact ((repeated_accepted_iff once (by decide)).mp twice).resolve_left (by decide)

end Program

end Firmware
