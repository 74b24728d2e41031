import Firmware.Proofs.Sketch.Agreement
import Firmware.Proofs.Sketch.TopLevel
import Mathlib.Algebra.Group.Nat.Defs
import Mathlib.Data.Finset.Card

/-! # The numbers of channels

Channels are numbered from zero on and without gaps, in the order in which commands first
configure their pins for PWM. So the number of a pin counts the pins that are configured
before it, and what further commands configure is bound behind the rest. -/

namespace Firmware

namespace Command

def configuredPwm? : Command → Option String
  | .configurePwm pin _ _ => some pin
  | _ => none

/-- The pins that some commands configure for PWM. -/
def pwmPins (commands : List Command) : Finset String :=
  (commands.filterMap configuredPwm?).toFinset

/-- The place of the first command that configures a pin for PWM, which is behind the last
command if none does. -/
def firstPwm (commands : List Command) (pin : String) : Nat :=
  commands.findIdx (configuresPwm pin)

theorem configuredPwm?_eq_some_iff (command : Command) (pin : String) :
    command.configuredPwm? = some pin ↔ command.configuresPwm pin = true := by
  cases command <;> simp [configuredPwm?, configuresPwm]

theorem mem_pwmPins_iff_any (commands : List Command) (pin : String) :
    pin ∈ pwmPins commands ↔ commands.any (configuresPwm pin) = true := by
  rw [pwmPins, List.mem_toFinset, List.mem_filterMap, List.any_eq_true]
  simp only [configuredPwm?_eq_some_iff]

theorem mem_pwmPins_iff (commands : List Command) (pin : String) :
    pin ∈ pwmPins commands ↔
      ∃ frequency resolution, .configurePwm pin frequency resolution ∈ commands := by
  rw [mem_pwmPins_iff_any, SymbolTable.any_configuresPwm_iff]

theorem firstPwm_lt_length_iff (commands : List Command) (pin : String) :
    firstPwm commands pin < commands.length ↔ pin ∈ pwmPins commands := by
  rw [firstPwm, List.findIdx_lt_length, mem_pwmPins_iff_any, List.any_eq_true]

/-- The pins that are configured before some place are those that are first configured
there. -/
theorem pwmPins_take (commands : List Command) (index : Nat) :
    pwmPins (commands.take index) =
      {pin ∈ pwmPins commands | firstPwm commands pin < index} := by
  ext pin
  rw [Finset.mem_filter, ← firstPwm_lt_length_iff, ← firstPwm_lt_length_iff, firstPwm,
    List.findIdx_take, List.length_take, firstPwm]
  omega

/-- The first command that configures a pin. -/
theorem exists_getElem?_firstPwm {commands : List Command} {pin : String}
    (member : pin ∈ pwmPins commands) :
    ∃ frequency resolution,
      commands[firstPwm commands pin]? = some (.configurePwm pin frequency resolution) := by
  have inside := (firstPwm_lt_length_iff commands pin).mpr member
  have configures : commands[firstPwm commands pin].configuresPwm pin = true :=
    List.findIdx_getElem
  rw [List.getElem?_eq_getElem inside]
  cases found : commands[firstPwm commands pin] with
  | configurePwm configured frequency resolution =>
      rw [found] at configures
      obtain rfl : configured = pin := by simpa [configuresPwm] using configures
      exact ⟨frequency, resolution, rfl⟩
  | _ =>
      rw [found] at configures
      cases configures

end Command

namespace PwmChannels

open Command

/-! ## One command -/

theorem prefix_bind (channels : PwmChannels) (command : Command) :
    channels.bindings <+: (channels.bind command).bindings := by
  cases command with
  | configurePwm pin frequency resolution =>
      rw [bind]
      split
      · exact List.prefix_rfl
      · exact List.prefix_append _ _
  | _ => exact List.prefix_rfl

/-- The channels have the numbers from zero on, in this order. -/
def Numbered (channels : PwmChannels) : Prop :=
  channels.bindings.map (fun binding => binding.2.number) = List.range channels.bindings.length

theorem Numbered.bind {channels : PwmChannels} (numbered : channels.Numbered) (command : Command) :
    (channels.bind command).Numbered := by
  cases command with
  | configurePwm pin frequency resolution =>
      rw [PwmChannels.bind]
      split
      · exact numbered
      · rw [Numbered, List.map_append, numbered, List.length_append]
        exact List.range_succ.symm
  | _ => exact numbered

/-! ## All commands -/

theorem prefix_foldl_bind (channels : PwmChannels) (commands : List Command) :
    channels.bindings <+: (commands.foldl bind channels).bindings := by
  induction commands generalizing channels with
  | nil => exact List.prefix_rfl
  | cons command commands induction =>
      exact (channels.prefix_bind command).trans (induction (channels.bind command))

theorem prefix_allocate_append (commands further : List Command) :
    (allocate commands).bindings <+: (allocate (commands ++ further)).bindings := by
  rw [allocate, allocate, List.foldl_append]
  exact prefix_foldl_bind _ further

theorem numbered_allocate (commands : List Command) : (allocate commands).Numbered := by
  induction commands using List.reverseRecOn with
  | nil => rfl
  | append_singleton commands command induction =>
      rw [allocate_concat]
      exact induction.bind command

theorem mem_pins_iff (channels : PwmChannels) (pin : String) :
    pin ∈ channels.bindings.map Prod.fst ↔ (channels.get? pin).isSome = true := by
  rw [isSome_get?_iff]
  simp

theorem mem_pins_allocate_iff (commands : List Command) (pin : String) :
    pin ∈ (allocate commands).bindings.map Prod.fst ↔ pin ∈ pwmPins commands := by
  rw [mem_pins_iff, isSome_get?_allocate, mem_pwmPins_iff_any]

/-- There are as many channels as pins that the commands configure. -/
theorem length_allocate (commands : List Command) :
    (allocate commands).bindings.length = (pwmPins commands).card := by
  have pins : ((allocate commands).bindings.map Prod.fst).toFinset = pwmPins commands := by
    ext pin
    rw [List.mem_toFinset, mem_pins_allocate_iff]
  rw [← pins, List.toFinset_card_of_nodup (nodup_allocate commands), List.length_map]

theorem get?_allocate_firstPwm {commands : List Command} {pin : String} {frequency resolution : Int}
    (first : commands[firstPwm commands pin]? = some (.configurePwm pin frequency resolution)) :
    (allocate commands).get? pin =
      some { number := {other ∈ pwmPins commands |
               firstPwm commands other < firstPwm commands pin}.card,
             frequency, resolution } := by
  rcases List.getElem?_eq_some_iff.mp first with ⟨inside, found⟩
  have split : commands = commands.take (firstPwm commands pin) ++
      .configurePwm pin frequency resolution :: commands.drop (firstPwm commands pin + 1) := by
    rw [← found, ← List.drop_eq_getElem_cons inside, List.take_append_drop]
  have unconfigured : (commands.take (firstPwm commands pin)).any (configuresPwm pin) = false := by
    rw [← Bool.not_eq_true, ← mem_pwmPins_iff_any, pwmPins_take, Finset.mem_filter]
    exact fun earlier => Nat.lt_irrefl _ earlier.2
  have bound := get?_allocate_of_first unconfigured frequency resolution
    (commands.drop (firstPwm commands pin + 1))
  rwa [← split, length_allocate, pwmPins_take] at bound

theorem mem_bindings_of_get? {channels : PwmChannels} {pin : String} {channel : PwmChannel}
    (bound : channels.get? pin = some channel) : (pin, channel) ∈ channels.bindings := by
  rcases List.lookup_eq_some_iff.mp bound with ⟨before, after, split, -⟩
  rw [split]
  exact List.mem_append_right _ List.mem_cons_self

/-- The number of a channel is its place. -/
theorem Numbered.getElem?_number {channels : PwmChannels} (numbered : channels.Numbered)
    {binding : String × PwmChannel} (member : binding ∈ channels.bindings) :
    channels.bindings[binding.2.number]? = some binding := by
  rcases List.getElem?_of_mem member with ⟨index, found⟩
  have inside := (List.getElem?_eq_some_iff.mp found).1
  have number := congrArg (·[index]?) numbered
  rw [List.getElem?_map, found, List.getElem?_range inside] at number
  obtain rfl : binding.2.number = index := by simpa using number
  exact found

/-- The channels are those of the pins that some commands configure for PWM, in the order in
which the commands first do so. -/
structure InOrderOf (channels : PwmChannels) (commands : List Command) : Prop where
  pins : ∀ pin, pin ∈ channels.bindings.map Prod.fst ↔
    ∃ frequency resolution, .configurePwm pin frequency resolution ∈ commands
  once : (channels.bindings.map Prod.fst).Nodup
  /-- A pin has the settings of the first command that configures it, and its number counts the
  pins that are first configured before. -/
  first : ∀ pin ∈ pwmPins commands, ∃ frequency resolution,
    commands[firstPwm commands pin]? = some (.configurePwm pin frequency resolution) ∧
      channels.get? pin =
        some { number := {other ∈ pwmPins commands |
                 firstPwm commands other < firstPwm commands pin}.card,
               frequency, resolution }
  unbound : ∀ pin ∉ pwmPins commands, channels.get? pin = none
  numbered : channels.Numbered
  injective : ∀ pin other channel otherChannel, channels.get? pin = some channel →
    channels.get? other = some otherChannel → channel.number = otherChannel.number → pin = other
  /-- With fewer than `2 ^ 32` pins, all numbers are words of 32 bits. -/
  fits : (pwmPins commands).card < 2 ^ 32 → ∀ binding ∈ channels.bindings,
    (UInt32.ofNat binding.2.number).toNat = binding.2.number

/-- Channels are allocated in the order in which the commands first configure their pins, and
further commands leave them as they are. -/
theorem allocate_inOrderOf (commands : List Command) :
    (allocate commands).InOrderOf commands ∧
      ∀ further, (allocate commands).bindings <+: (allocate (commands ++ further)).bindings := by
  have numbered := numbered_allocate commands
  refine ⟨⟨?_, nodup_allocate commands, ?_, ?_, numbered, ?_, ?_⟩, ?_⟩
  · intro pin
    rw [mem_pins_allocate_iff, mem_pwmPins_iff]
  · intro pin member
    rcases exists_getElem?_firstPwm member with ⟨frequency, resolution, found⟩
    exact ⟨frequency, resolution, found, get?_allocate_firstPwm found⟩
  · intro pin absent
    rw [← mem_pins_allocate_iff, mem_pins_iff] at absent
    exact Option.not_isSome_iff_eq_none.mp absent
  · intro pin other channel otherChannel bound otherBound same
    have found := numbered.getElem?_number (mem_bindings_of_get? bound)
    have otherFound := numbered.getElem?_number (mem_bindings_of_get? otherBound)
    dsimp only at found otherFound
    rw [same, otherFound, Option.some.injEq, Prod.mk.injEq] at found
    exact found.1.symm
  · intro few binding member
    have inside := (List.getElem?_eq_some_iff.mp (numbered.getElem?_number member)).1
    rw [length_allocate] at inside
    exact UInt32.toNat_ofNat_of_lt' (inside.trans few)
  · exact prefix_allocate_append commands

/-- A pin that is configured again keeps its channel. -/
example :
    (allocate [.configurePwm "red" 5000 8, .wait "10", .configurePwm "blue" 1000 10,
      .configurePwm "red" 200 12]).bindings =
      [("red", ⟨0, 5000, 8⟩), ("blue", ⟨1, 1000, 10⟩)] := by
  decide

end PwmChannels

end Firmware
