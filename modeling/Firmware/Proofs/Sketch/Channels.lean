import Firmware.Proofs.Source.Text
import Firmware.Proofs.Symbol.Analysis
import Firmware.Sketch.Code

/-! # Channels of the pins that a program uses for PWM

The analysis asks only that a pin is configured for PWM before it is adjusted, in either
block. Channels are bound by the setup alone. So every pin that the setup uses for PWM has
a channel, and a pin that the loop uses has one exactly if the setup configures it as
well. The lines of a sketch that define constants are those of the pins that have a channel. -/

namespace Firmware

/-- The pin that a command configures or adjusts for PWM. -/
def Command.pwmPin? : Command → Option String
  | .configurePwm pin _ _ | .adjustPwm pin _ => some pin
  | _ => none

/-- The constants of the channel of a pin. -/
def PwmChannel.names (pin : String) : List String :=
  [numberName pin, frequencyName pin, resolutionName pin]

namespace Program

def HasChannel (program : Program) (pin : String) : Prop :=
  ∃ channel, (PwmChannels.allocate program.setup).get? pin = some channel

end Program

/-! ## The pins that have a channel -/

namespace PwmChannels

theorem isSome_get?_iff (channels : PwmChannels) (pin : String) :
    (channels.get? pin).isSome = true ↔ ∃ channel, (pin, channel) ∈ channels.bindings := by
  rw [get?, List.lookup_isSome_iff]
  simp

theorem get?_bind_configurePwm (channels : PwmChannels) (configured : String)
    (frequency resolution : Int) (pin : String) :
    (channels.bind (.configurePwm configured frequency resolution)).get? pin =
      (channels.get? pin).or
        (if pin = configured then
          some { number := channels.bindings.length, frequency, resolution }
        else none) := by
  rw [bind]
  cases bound : channels.get? configured with
  | some channel =>
      by_cases here : pin = configured
      · rw [here, bound, Option.some_or]
      · rw [if_neg here, Option.or_none]
  | none =>
      rw [get?, List.lookup_append, get?]
      congr 1
      by_cases here : pin = configured
      · simp [here]
      · have other : (pin == configured) = false := by simpa using here
        simp [List.lookup_cons, here, other]

theorem isSome_get?_bind (channels : PwmChannels) (command : Command) (pin : String) :
    ((channels.bind command).get? pin).isSome =
      ((channels.get? pin).isSome || command.configuresPwm pin) := by
  cases command with
  | configurePwm configured frequency resolution =>
      rw [get?_bind_configurePwm, Option.isSome_or, Command.configuresPwm]
      by_cases here : pin = configured
      · simp [here]
      · simp [here, Ne.symm here]
  | _ => simp [bind, Command.configuresPwm]

theorem allocate_concat (commands : List Command) (command : Command) :
    allocate (commands ++ [command]) = (allocate commands).bind command :=
  List.foldl_concat ..

theorem isSome_get?_allocate (commands : List Command) (pin : String) :
    ((allocate commands).get? pin).isSome = commands.any (Command.configuresPwm pin) := by
  induction commands using List.reverseRecOn with
  | nil => rfl
  | append_singleton commands command induction =>
      rw [allocate_concat, isSome_get?_bind, List.any_append, ← induction]
      simp

end PwmChannels

namespace Program

theorem hasChannel_iff (program : Program) (pin : String) :
    program.HasChannel pin ↔
      ∃ frequency resolution, .configurePwm pin frequency resolution ∈ program.setup := by
  rw [HasChannel, ← Option.isSome_iff_exists, PwmChannels.isSome_get?_allocate,
    SymbolTable.any_configuresPwm_iff]

/-- What the setup uses for PWM, it has configured before. -/
theorem hasChannel_of_mem_setup {program : Program}
    (accepted : ∃ table, program.analyze = .ok table) {command : Command}
    (member : command ∈ program.setup) {pin : String} (uses : command.pwmPin? = some pin) :
    program.HasChannel pin := by
  rcases accepted with ⟨table, analyzed⟩
  have allowed := ((analyze_eq_ok_iff _ _).mp analyzed).1.allowed
  rw [commands, everywhere_append_iff] at allowed
  rcases List.append_of_mem member with ⟨before, after, split⟩
  have here := allowed.1 before command after split
  rw [hasChannel_iff]
  cases command with
  | configurePwm configured frequency resolution =>
      cases uses
      exact ⟨frequency, resolution, member⟩
  | adjustPwm adjusted value =>
      cases uses
      rcases here with ⟨-, frequency, resolution, configured⟩
      refine ⟨frequency, resolution, ?_⟩
      rw [split]
      exact List.mem_append_left _ configured
  | _ => cases uses

end Program

/-! ## The constants of a sketch -/

/-- Characters behind their last mark, and those before it, are read off the whole. -/
theorem append_cons_inj_of_not_mem {α : Type} {mark : α} {front otherFront back otherBack : List α}
    (absent : mark ∉ back) (otherAbsent : mark ∉ otherBack)
    (same : front ++ mark :: back = otherFront ++ mark :: otherBack) :
    front = otherFront ∧ back = otherBack := by
  rcases List.append_eq_append_iff.mp same with ⟨rest, split, others⟩ | ⟨rest, split, others⟩
  · cases rest with
    | nil =>
        refine ⟨by simpa using split.symm, by simpa using others⟩
    | cons first rest =>
        rw [List.cons_append, List.cons.injEq] at others
        exact absurd (others.2 ▸ List.mem_append_right _ List.mem_cons_self) absent
  · cases rest with
    | nil =>
        refine ⟨by simpa using split, by simpa using others.symm⟩
    | cons first rest =>
        rw [List.cons_append, List.cons.injEq] at others
        exact absurd (others.2 ▸ List.mem_append_right _ List.mem_cons_self) otherAbsent

namespace PwmChannel

theorem constant_inj {name other : String} {value otherValue : Int}
    (same : constant name (toString value) = constant other (toString otherValue)) :
    name = other := by
  have noEquals : ∀ value : Int, '=' ∉ ' ' :: (toString value).toList ++ [';'] := by
    intro value
    simpa using not_mem_toString (by decide) (by decide) value
  have texts : name.toList ++ [' '] ++ '=' :: (' ' :: (toString value).toList ++ [';']) =
      other.toList ++ [' '] ++ '=' :: (' ' :: (toString otherValue).toList ++ [';']) := by
    have whole := congrArg (fun line => line.text.toList) same
    simpa [constant] using whole
  have names := (append_cons_inj_of_not_mem (noEquals _) (noEquals _) texts).1
  exact String.toList_inj.mp (List.append_cancel_right names)

theorem pin_eq_of_mem_names {name pin other : String} (member : name ∈ names pin)
    (otherMember : name ∈ names other) : pin = other := by
  simp only [names, List.mem_cons, List.not_mem_nil, or_false] at member otherMember
  rcases member with rfl | rfl | rfl <;> rcases otherMember with same | same | same <;>
    simp_all [numberName, frequencyName, resolutionName, ← String.toList_inj]

/-- The lines of a channel define the constants of its pin. -/
theorem exists_mem_code_iff (name pin : String) (channel : PwmChannel) :
    (∃ value : Int, constant name (toString value) ∈ channel.code pin) ↔ name ∈ names pin := by
  have number : toString channel.number = toString (channel.number : Int) := rfl
  simp only [code, names, number, List.mem_cons, List.not_mem_nil, or_false]
  constructor
  · rintro ⟨value, first | second | third⟩
    · exact .inl (constant_inj first)
    · exact .inr (.inl (constant_inj second))
    · exact .inr (.inr (constant_inj third))
  · rintro (rfl | rfl | rfl)
    · exact ⟨_, .inl rfl⟩
    · exact ⟨_, .inr (.inl rfl)⟩
    · exact ⟨_, .inr (.inr rfl)⟩

end PwmChannel

namespace Sketch

variable (name value : String)

theorem constant_not_mem_headers : PwmChannel.constant name value ∉ headers := by
  simp [headers, PwmChannel.constant, ← String.toList_inj]

theorem constant_not_mem_globals (declarations : List Declaration) :
    PwmChannel.constant name value ∉ globals declarations := by
  intro member
  simp only [globals, List.mem_cons, List.mem_map] at member
  rcases member with blank | heading | ⟨declaration, -, declared⟩
  · simp [PwmChannel.constant, ← String.toList_inj] at blank
  · simp [PwmChannel.constant, ← String.toList_inj] at heading
  · rcases declaration with ⟨variableName, _ | _ | _ | _⟩ <;>
      simp [Declaration.code, VarType.code, PwmChannel.constant, ← String.toList_inj] at declared

/-- Constants are not nested, and the body of a function is. -/
theorem constant_not_mem_function (functionName : String) (commands : List Command) :
    PwmChannel.constant name value ∉ function functionName commands := by
  intro member
  simp only [function, CodeLine.block, CodeLine.nested, List.mem_cons, List.mem_append,
    List.mem_map, List.not_mem_nil, or_false] at member
  rcases member with blank | (opening | ⟨line, -, nested⟩) | closing
  · simp [PwmChannel.constant, ← String.toList_inj] at blank
  · simp [PwmChannel.constant, ← String.toList_inj] at opening
  · simp [PwmChannel.constant] at nested
  · simp [PwmChannel.constant, ← String.toList_inj] at closing

theorem constant_mem_channels_iff (bound : PwmChannels) :
    PwmChannel.constant name value ∈ channels bound ↔
      ∃ pin channel, (pin, channel) ∈ bound.bindings ∧
        PwmChannel.constant name value ∈ channel.code pin := by
  unfold channels
  split
  · next empty =>
      simp [List.isEmpty_iff.mp empty]
  · simp [PwmChannel.constant, ← String.toList_inj, List.mem_flatMap]

end Sketch

namespace Program

/-- The lines of a sketch define the constants of the pins that have a channel. -/
theorem constant_mem_code_iff (program : Program) {name pin : String}
    (named : name ∈ PwmChannel.names pin) :
    (∃ value : Int, PwmChannel.constant name (toString value) ∈ program.code) ↔
      program.HasChannel pin := by
  have lines : (∃ value : Int, PwmChannel.constant name (toString value) ∈ program.code) ↔
      ∃ boundPin channel, (boundPin, channel) ∈ (PwmChannels.allocate program.setup).bindings ∧
        name ∈ PwmChannel.names boundPin := by
    simp only [code, List.mem_append, Sketch.constant_not_mem_headers,
      Sketch.constant_not_mem_globals, Sketch.constant_not_mem_function,
      Sketch.constant_mem_channels_iff, false_or, or_false]
    constructor
    · rintro ⟨value, boundPin, channel, member, defined⟩
      exact ⟨boundPin, channel, member,
        (PwmChannel.exists_mem_code_iff _ _ _).mp ⟨value, defined⟩⟩
    · rintro ⟨boundPin, channel, member, boundNamed⟩
      rcases (PwmChannel.exists_mem_code_iff _ _ channel).mpr boundNamed with ⟨value, defined⟩
      exact ⟨value, boundPin, channel, member, defined⟩
  have bound : program.HasChannel pin ↔
      ∃ channel, (pin, channel) ∈ (PwmChannels.allocate program.setup).bindings := by
    rw [HasChannel, ← Option.isSome_iff_exists, PwmChannels.isSome_get?_iff]
  rw [lines, bound]
  constructor
  · rintro ⟨boundPin, channel, member, boundNamed⟩
    rw [PwmChannel.pin_eq_of_mem_names named boundNamed]
    exact ⟨channel, member⟩
  · rintro ⟨channel, member⟩
    exact ⟨pin, channel, member, named⟩

end Program

end Firmware
