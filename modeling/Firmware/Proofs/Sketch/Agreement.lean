import Firmware.Proofs.Sketch.ReadBack

/-! # Programs with the same sketch

A sketch tells its program apart from all others that are read from sources, up to settings of
PWM that come too late to count: a pin keeps those of the first command of the setup that
configures it. -/

namespace Firmware

/-- The first command that configures a pin for PWM stands at the same place among the other
commands, with the same settings. -/
def Command.FirstSettingsIn (commands others : List Command) : Prop :=
  ∀ before pin frequency resolution after,
    commands = before ++ .configurePwm pin frequency resolution :: after →
    before.any (configuresPwm pin) = false →
    others[before.length]? = some (.configurePwm pin frequency resolution)

/-- Two programs agree in all that a sketch carries. The commands at the same place are the
same, or they configure the same pin for PWM. In that case the settings are the same as well if
no command before them in the setup configures the pin. -/
structure Program.Agrees (program other : Program) : Prop where
  declarations : program.declarations = other.declarations
  setup : program.setup.map Command.withoutSettings = other.setup.map Command.withoutSettings
  firstSettings : Command.FirstSettingsIn program.setup other.setup
  loop : program.loop.map Command.withoutSettings = other.loop.map Command.withoutSettings

/-! ## The code of the parts -/

namespace Command

theorem eq_or_of_withoutSettings_eq {command other : Command}
    (same : command.withoutSettings = other.withoutSettings) :
    command = other ∨ ∃ pin frequency resolution otherFrequency otherResolution,
      command = .configurePwm pin frequency resolution ∧
        other = .configurePwm pin otherFrequency otherResolution := by
  cases command with
  | configurePwm pin frequency resolution =>
      cases other with
      | configurePwm otherPin otherFrequency otherResolution =>
          obtain rfl : pin = otherPin := by simpa [withoutSettings] using same
          exact .inr ⟨pin, _, _, _, _, rfl, rfl⟩
      | _ => simp [withoutSettings] at same
  | _ =>
      cases other with
      | configurePwm => simp [withoutSettings] at same
      | _ => exact .inl same

theorem configuresPwm_withoutSettings (pin : String) (command : Command) :
    command.withoutSettings.configuresPwm pin = command.configuresPwm pin := by
  cases command <;> rfl

theorem code_withoutSettings (command : Command) : command.withoutSettings.code = command.code := by
  cases command <;> rfl

variable {command other : Command}

theorem WellFormed.code_append_inj (wellFormed : command.WellFormed)
    (otherWellFormed : other.WellFormed) {rest otherRest : List CodeLine}
    (same : command.code ++ rest = other.code ++ otherRest) :
    command.withoutSettings = other.withoutSettings ∧ rest = otherRest := by
  have read := congrArg CodeReader.command same
  rw [wellFormed.read_code, otherWellFormed.read_code] at read
  simpa using read

theorem WellFormed.code_ne_nil (wellFormed : command.WellFormed) : command.code ≠ [] := by
  intro empty
  have read := wellFormed.read_code []
  rw [empty] at read
  cases read

/-- The commands of a function are read back from the lines of its body. -/
theorem map_withoutSettings_eq_of_code_eq {commands others : List Command}
    (wellFormed : ∀ command ∈ commands, command.WellFormed)
    (otherWellFormed : ∀ command ∈ others, command.WellFormed)
    (same : commands.flatMap code = others.flatMap code) :
    commands.map withoutSettings = others.map withoutSettings :=
  map_eq_of_flatMap_eq withoutSettings (fun _ => WellFormed.code_ne_nil)
    (fun _ _ _ _ formed otherFormed => formed.code_append_inj otherFormed)
    wellFormed otherWellFormed same

end Command

theorem Declaration.WellFormed.code_inj {declaration other : Declaration}
    (wellFormed : declaration.WellFormed) (otherWellFormed : other.WellFormed)
    (same : declaration.code = other.code) : declaration = other := by
  rcases declaration with ⟨name, type⟩
  rcases other with ⟨otherName, otherType⟩
  have known := wellFormed.2
  have otherKnown := otherWellFormed.2
  cases type <;> cases otherType <;>
    simp_all [code, VarType.code, ← String.toList_inj]

theorem Declaration.eq_of_code_eq {declarations others : List Declaration}
    (wellFormed : ∀ declaration ∈ declarations, declaration.WellFormed)
    (otherWellFormed : ∀ declaration ∈ others, declaration.WellFormed)
    (same : declarations.map code = others.map code) : declarations = others := by
  rw [List.map_eq_flatMap, List.map_eq_flatMap] at same
  have read := map_eq_of_flatMap_eq id (fun _ _ => List.cons_ne_nil _ _)
    (fun declaration other rest otherRest formed otherFormed lines => by
      rw [List.singleton_append, List.singleton_append, List.cons.injEq] at lines
      exact ⟨formed.code_inj otherFormed lines.1, lines.2⟩)
    wellFormed otherWellFormed same
  simpa using read

theorem PwmChannel.constant_value_inj {name : String} {value other : Int}
    (same : constant name (toString value) = constant name (toString other)) : value = other := by
  have texts : toString value = toString other := by
    simpa [constant, ← String.toList_inj] using same
  rw [← CodeReader.integer_toString value, texts, CodeReader.integer_toString]

theorem PwmChannel.code_append_inj {pin other : String} {channel otherChannel : PwmChannel}
    {rest otherRest : List CodeLine}
    (same : channel.code pin ++ rest = otherChannel.code other ++ otherRest) :
    (pin, channel) = (other, otherChannel) ∧ rest = otherRest := by
  have number : ∀ channel : PwmChannel,
      toString channel.number = toString (channel.number : Int) := fun _ => rfl
  simp only [code, number, List.cons_append, List.nil_append, List.cons.injEq] at same
  rcases same with ⟨numbers, frequencies, resolutions, rests⟩
  obtain rfl : pin = other := by
    have names := constant_inj numbers
    simpa [numberName, ← String.toList_inj] using names
  have sameNumber := Int.ofNat_inj.mp (constant_value_inj numbers)
  have sameFrequency := constant_value_inj frequencies
  have sameResolution := constant_value_inj resolutions
  rcases channel with ⟨number, frequency, resolution⟩
  rcases otherChannel with ⟨otherNumber, otherFrequency, otherResolution⟩
  simp_all

/-- A block is read back from its lines. -/
theorem CodeLine.block_inj {opening otherOpening : String} {body otherBody : List CodeLine}
    (same : block opening body = block otherOpening otherBody) : body = otherBody := by
  have deeper : Function.Injective fun line : CodeLine =>
      { line with depth := line.depth + 1 } := by
    intro line otherLine equal
    rcases line with ⟨depth, text⟩
    rcases otherLine with ⟨otherDepth, otherText⟩
    simpa using equal
  have inside := List.append_cancel_right same
  exact List.map_injective_iff.mpr deeper (List.cons.inj inside).2

/-! ## Sections -/

/-- The constants of the PWM channels, which are left out if there are none. -/
def PwmChannels.sections (channels : PwmChannels) : List (List CodeLine) :=
  if channels.bindings.isEmpty then [] else [(Sketch.channels channels).tail]

theorem PwmChannels.sections_inj {channels others : PwmChannels}
    (same : channels.sections = others.sections) : channels = others := by
  rcases channels with ⟨bindings⟩
  rcases others with ⟨otherBindings⟩
  cases bindings with
  | nil =>
      cases otherBindings with
      | nil => rfl
      | cons => cases same
  | cons =>
      cases otherBindings with
      | nil => cases same
      | cons =>
          have lines := (List.cons.inj (List.cons.inj same).1).2
          have read := map_eq_of_flatMap_eq id (fun _ _ => List.cons_ne_nil _ _)
            (fun _ _ _ _ _ _ => PwmChannel.code_append_inj) (fun _ _ => trivial)
            (fun _ _ => trivial) lines
          rw [List.map_id, List.map_id] at read
          exact congrArg mk read

namespace Program

/-- The parts of a sketch between its blank lines. -/
def sections (program : Program) : List (List CodeLine) :=
  Sketch.headers :: (Sketch.globals program.declarations).tail ::
    ((PwmChannels.allocate program.setup).sections ++
      [(Sketch.function "setup" program.setup).tail, (Sketch.function "loop" program.loop).tail])

theorem code_eq_intercalate (program : Program) :
    program.code = [({} : CodeLine)].intercalate program.sections := by
  rw [code, sections, PwmChannels.sections]
  split
  · next empty =>
      simp [Sketch.channels, empty, Sketch.globals, Sketch.function, List.intercalate]
  · next bound =>
      simp [Sketch.channels, bound, Sketch.globals, Sketch.function, List.intercalate]

theorem blank_not_mem_function_tail (name : String) (commands : List Command) :
    ({} : CodeLine) ∉ (Sketch.function name commands).tail := by
  intro member
  simp only [Sketch.function, List.tail_cons, CodeLine.block, CodeLine.nested, List.cons_append,
    List.mem_cons, List.mem_append, List.mem_map, List.not_mem_nil, or_false] at member
  rcases member with opening | ⟨line, -, nested⟩ | closing
  · simp [← String.toList_inj] at opening
  · simp at nested
  · simp at closing

theorem blank_not_mem_of_mem_sections (program : Program) :
    ∀ lines ∈ program.sections, ({} : CodeLine) ∉ lines := by
  simp only [sections, List.forall_mem_append, List.forall_mem_cons]
  refine ⟨by decide, ?_, ?_, blank_not_mem_function_tail _ _, blank_not_mem_function_tail _ _,
    List.forall_mem_nil _⟩
  · simp [Sketch.globals, Declaration.code]
  · unfold PwmChannels.sections
    split
    · exact List.forall_mem_nil _
    · next bound =>
        simp [Sketch.channels, bound, PwmChannel.code, PwmChannel.constant]

variable {program other : Program}

theorem sections_eq_of_code_eq (same : program.code = other.code) :
    program.sections = other.sections := by
  rw [code_eq_intercalate, code_eq_intercalate] at same
  have split := congrArg (List.splitOn {}) same
  rwa [List.splitOn_intercalate _ program.blank_not_mem_of_mem_sections (by simp [sections]),
    List.splitOn_intercalate _ other.blank_not_mem_of_mem_sections (by simp [sections])] at split

/-- The code of a program says which code its parts have, and which channels it binds. -/
theorem code_eq_iff : program.code = other.code ↔
    program.declarations.map Declaration.code = other.declarations.map Declaration.code ∧
    PwmChannels.allocate program.setup = PwmChannels.allocate other.setup ∧
    program.setup.flatMap Command.code = other.setup.flatMap Command.code ∧
    program.loop.flatMap Command.code = other.loop.flatMap Command.code := by
  constructor
  · intro same
    have split := sections_eq_of_code_eq same
    simp only [sections, Sketch.globals, List.tail_cons, List.cons.injEq, true_and] at split
    rcases split with ⟨declarations, others⟩
    -- The functions are the last two sections, whether or not there is one for channels.
    rcases List.append_inj' others rfl with ⟨channels, functions⟩
    rw [List.cons.injEq, List.cons.injEq] at functions
    exact ⟨declarations, PwmChannels.sections_inj channels, CodeLine.block_inj functions.1,
      CodeLine.block_inj functions.2.1⟩
  · intro parts
    rcases parts with ⟨declarations, channels, setup, loop⟩
    simp only [code, Sketch.globals, Sketch.function, declarations, channels, setup, loop]

end Program

/-! ## Settings that count -/

namespace PwmChannels

theorem get?_foldl_of_some {channels : PwmChannels} {pin : String} {channel : PwmChannel}
    (bound : channels.get? pin = some channel) (commands : List Command) :
    (commands.foldl bind channels).get? pin = some channel := by
  induction commands generalizing channels with
  | nil => exact bound
  | cons command commands induction =>
      apply induction
      cases command with
      | configurePwm => rw [get?_bind_configurePwm, bound, Option.some_or]
      | _ => exact bound

/-- A pin has the settings of the first command that configures it. -/
theorem get?_allocate_of_first {before : List Command} {pin : String}
    (first : before.any (Command.configuresPwm pin) = false) (frequency resolution : Int)
    (after : List Command) :
    (allocate (before ++ .configurePwm pin frequency resolution :: after)).get? pin =
      some { number := (allocate before).bindings.length, frequency, resolution } := by
  have unbound : (allocate before).get? pin = none := by
    rw [← Option.not_isSome_iff_eq_none, isSome_get?_allocate, first]
    decide
  rw [allocate, List.foldl_append, List.foldl_cons]
  apply get?_foldl_of_some
  rw [← allocate, get?_bind_configurePwm, unbound, if_pos rfl, Option.none_or]

variable {commands others : List Command}

theorem allocate_eq_of_firstSettingsIn
    (same : commands.map Command.withoutSettings = others.map Command.withoutSettings)
    (firstSettings : Command.FirstSettingsIn commands others) :
    allocate commands = allocate others := by
  -- From the right end, so that the last commands meet the same channels.
  induction commands using List.reverseRecOn generalizing others with
  | nil =>
      obtain rfl : others = [] := by simpa using same.symm
      rfl
  | append_singleton commands command induction =>
      rw [List.map_append, List.map_singleton] at same
      rcases List.map_eq_append_iff.mp same.symm with ⟨earlier, last, rfl, sameEarlier, sameLast⟩
      rcases List.map_eq_singleton_iff.mp sameLast with ⟨other, rfl, sameCommand⟩
      have lengths : earlier.length = commands.length := by
        simpa using congrArg List.length sameEarlier
      have channels : allocate commands = allocate earlier := by
        apply induction sameEarlier.symm
        intro before pin frequency resolution after split first
        have found := firstSettings before pin frequency resolution (after ++ [command])
          (by simp [split]) first
        have inside : before.length < earlier.length := by
          rw [lengths, split]
          simp
        rwa [List.getElem?_append_left inside] at found
      rw [allocate_concat, allocate_concat, ← channels]
      rcases Command.eq_or_of_withoutSettings_eq sameCommand with equal |
        ⟨pin, otherFrequency, otherResolution, frequency, resolution, rfl, rfl⟩
      · rw [equal]
      · cases configured : commands.any (Command.configuresPwm pin) with
        | true =>
            rw [← isSome_get?_allocate, Option.isSome_iff_exists] at configured
            rcases configured with ⟨channel, bound⟩
            simp only [bind, bound]
        | false =>
            have found := firstSettings commands pin frequency resolution [] rfl configured
            rw [← lengths, List.getElem?_concat_length] at found
            rw [Option.some.inj found]

theorem firstSettingsIn_of_allocate_eq
    (same : commands.map Command.withoutSettings = others.map Command.withoutSettings)
    (channels : allocate commands = allocate others) :
    Command.FirstSettingsIn commands others := by
  intro before pin frequency resolution after split first
  rw [split, List.map_append, List.map_cons] at same
  rcases List.map_eq_append_iff.mp same.symm with
    ⟨otherBefore, behind, otherSplit, sameBefore, sameBehind⟩
  rcases List.map_eq_cons_iff.mp sameBehind with ⟨command, otherAfter, rfl, sameCommand, -⟩
  have lengths : otherBefore.length = before.length := by
    simpa using congrArg List.length sameBefore
  suffices equal : command = .configurePwm pin frequency resolution by
    rw [otherSplit, ← lengths, equal]
    simp
  rcases Command.eq_or_of_withoutSettings_eq sameCommand with equal |
    ⟨_, otherFrequency, otherResolution, _, _, otherConfigures, configures⟩
  · exact equal
  · -- The two commands are the first of their pin, so both are in the settings of its channel.
    cases configures
    have otherFirst : otherBefore.any (Command.configuresPwm pin) = false := by
      have pins := congrArg (List.any · (Command.configuresPwm pin)) sameBefore
      simpa [List.any_map, Function.comp_def, Command.configuresPwm_withoutSettings, first]
        using pins
    have bound := get?_allocate_of_first first frequency resolution after
    rw [← split, channels, otherSplit, otherConfigures, get?_allocate_of_first otherFirst,
      Option.some.injEq, PwmChannel.mk.injEq] at bound
    rw [otherConfigures, bound.2.1, bound.2.2]

end PwmChannels

namespace Program

variable {program other : Program}

theorem Agrees.code_eq (agrees : program.Agrees other) : program.code = other.code := by
  have codes : ∀ {commands others : List Command},
      commands.map Command.withoutSettings = others.map Command.withoutSettings →
      commands.flatMap Command.code = others.flatMap Command.code := by
    intro commands others same
    have lines := congrArg (List.flatMap Command.code) same
    simpa [List.flatMap_map, Command.code_withoutSettings] using lines
  rw [code_eq_iff, agrees.declarations]
  exact ⟨rfl, PwmChannels.allocate_eq_of_firstSettingsIn agrees.setup agrees.firstSettings,
    codes agrees.setup, codes agrees.loop⟩

theorem WellFormed.agrees_of_code_eq (wellFormed : program.WellFormed)
    (otherWellFormed : other.WellFormed) (same : program.code = other.code) :
    program.Agrees other := by
  rcases code_eq_iff.mp same with ⟨declarations, channels, setupCode, loopCode⟩
  have setup := Command.map_withoutSettings_eq_of_code_eq wellFormed.setup
    otherWellFormed.setup setupCode
  exact {
    declarations := Declaration.eq_of_code_eq wellFormed.declarations
      otherWellFormed.declarations declarations
    setup
    firstSettings := PwmChannels.firstSettingsIn_of_allocate_eq setup channels
    loop := Command.map_withoutSettings_eq_of_code_eq wellFormed.loop otherWellFormed.loop
      loopCode }

/-- Two programs that are read from sources have the same sketch exactly if they agree. -/
theorem generate_eq_iff_agrees {source otherSource : Source} (read : source.program = .ok program)
    (otherRead : otherSource.program = .ok other) :
    program.generate = other.generate ↔ program.Agrees other := by
  have wellFormed := Source.program_wellFormed read
  have otherWellFormed := Source.program_wellFormed otherRead
  constructor
  · intro same
    exact wellFormed.agrees_of_code_eq otherWellFormed
      (wellFormed.code_eq_of_generate_eq otherWellFormed same)
  · intro agrees
    rw [generate, generate, agrees.code_eq]

/-- A name of a network that holds code is not mistaken for this code. -/
theorem quoted_code_told_apart :
    let source : Source :=
      { name := "plain", lines := [some "config conectarWifi \"a\" \"b\"; fim repita fim"] }
    let otherSource : Source :=
      { name := "quoted"
        lines := [some "config conectarWifi \"a\\\".c_str(), \\\"b\" \"b\"; fim repita fim"] }
    let program : Program := { setup := [.connectWifi "\"a\"" "\"b\""] }
    let other : Program := { setup := [.connectWifi "\"a\\\".c_str(), \\\"b\"" "\"b\""] }
    source.program = .ok program ∧ otherSource.program = .ok other ∧
      program.generate ≠ other.generate := by
  intro source otherSource program other
  have read : source.program = .ok program := by decide +kernel
  have otherRead : otherSource.program = .ok other := by decide +kernel
  refine ⟨read, otherRead, ?_⟩
  intro same
  have commands := ((generate_eq_iff_agrees read otherRead).mp same).setup
  revert commands
  decide

end Program

end Firmware
