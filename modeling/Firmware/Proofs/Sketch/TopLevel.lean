import Firmware.Proofs.Sketch.Lines

/-! # Names at the top level of a sketch

Three kinds of names are defined outside of the functions of a sketch: the variables of the
program, the constants of its PWM channels, and the functions themselves. The analysis compares
the variables with each other only, so a variable can have the name of something else. -/

namespace Firmware

/-! ## Names that lines define -/

/-- What can follow the name in a definition: a value, parameters, or the end. -/
def endsDeclarator (character : Char) : Bool :=
  character == '=' || character == '(' || character == ';'

/-- The last word of some characters, which blanks may follow. -/
def lastWord (characters : List Char) : List Char :=
  let backwards := (characters.reverse.span (· == ' ')).2
  (backwards.span isWordPart).1.reverse

/-- The name that a line defines outside of all functions: the last word in front of what can
follow a name. -/
def CodeLine.definedName? (line : CodeLine) : Option String :=
  let (declarator, others) := line.text.toList.span fun character => !endsDeclarator character
  let name := lastWord declarator
  if line.depth = 0 ∧ others ≠ [] ∧ name ≠ [] then some (String.ofList name) else none

def CodeLine.definedNames (lines : List CodeLine) : List String :=
  lines.filterMap definedName?

def Program.topLevelNames (program : Program) : List String :=
  CodeLine.definedNames program.code

theorem lastWord_append {name gap : List Char} (isWord : IsWord name)
    (blank : ∀ character ∈ gap, (character == ' ') = true) (front : List Char) :
    lastWord (front ++ ' ' :: (name ++ gap)) = name := by
  have parts := isWordPart_of_mem_isWord isWord
  have backwards : (front ++ ' ' :: (name ++ gap)).reverse =
      gap.reverse ++ (name.reverse ++ ' ' :: front.reverse) := by
    simp
  have behindGap : (gap.reverse ++ (name.reverse ++ ' ' :: front.reverse)).span (· == ' ') =
      (gap.reverse, name.reverse ++ ' ' :: front.reverse) := by
    apply span_append
    · simpa using blank
    · cases reversed : name.reverse with
      | nil =>
          rw [List.reverse_eq_nil_iff.mp reversed] at isWord
          exact isWord.elim
      | cons last earlier =>
          have part := parts last (List.mem_reverse.mp (reversed ▸ List.mem_cons_self))
          have noBlank : last ≠ ' ' := by
            intro isBlank
            rw [isBlank] at part
            cases part
          simpa using noBlank
  have inName : (name.reverse ++ ' ' :: front.reverse).span isWordPart =
      (name.reverse, ' ' :: front.reverse) := by
    apply span_append
    · simpa using parts
    · simp [isWordPart]
  simp only [lastWord, backwards, behindGap, inName, List.reverse_reverse]

theorem endsDeclarator_of_isWordPart {character : Char} (part : isWordPart character = true) :
    endsDeclarator character = false := by
  cases ends : endsDeclarator character with
  | false => rfl
  | true =>
      simp only [endsDeclarator, Bool.or_eq_true, beq_iff_eq] at ends
      rcases ends with (rfl | rfl) | rfl <;> cases part

namespace CodeLine

theorem definedName?_of_text {line : CodeLine} (outside : line.depth = 0) {name : String}
    (isWord : IsWord name.toList) (front gap others : String)
    (text : line.text = front ++ " " ++ name ++ gap ++ others)
    (plain : (front.toList.all fun character => !endsDeclarator character) = true)
    (blank : (gap.toList.all fun character => character == ' ') = true)
    (ends : ∃ mark, others.toList.head? = some mark ∧ endsDeclarator mark = true) :
    line.definedName? = some name := by
  rcases ends with ⟨mark, first, ends⟩
  rw [List.all_eq_true] at plain blank
  have characters : line.text.toList =
      (front.toList ++ ' ' :: (name.toList ++ gap.toList)) ++ others.toList := by
    simp [text]
  have span : line.text.toList.span (fun character => !endsDeclarator character) =
      (front.toList ++ ' ' :: (name.toList ++ gap.toList), others.toList) := by
    rw [characters]
    apply span_append
    · simp only [List.forall_mem_append, List.forall_mem_cons]
      refine ⟨plain, by decide, ?_, ?_⟩
      · intro character member
        rw [endsDeclarator_of_isWordPart (isWordPart_of_mem_isWord isWord character member)]
        decide
      · intro character member
        rw [beq_iff_eq.mp (blank character member)]
        decide
    · simp [first, ends]
  have named : name.toList ≠ [] := by
    intro empty
    rw [empty] at isWord
    exact isWord
  have followed : others.toList ≠ [] := by
    intro empty
    rw [empty] at first
    cases first
  simp only [definedName?, span, lastWord_append isWord blank, String.ofList_toList]
  exact if_pos ⟨outside, followed, named⟩

theorem definedNames_append (lines others : List CodeLine) :
    definedNames (lines ++ others) = definedNames lines ++ definedNames others :=
  List.filterMap_append

theorem definedNames_nested (lines : List CodeLine) : definedNames (nested lines) = [] := by
  rw [definedNames, List.filterMap_eq_nil_iff]
  intro line member
  rcases List.mem_map.mp member with ⟨inner, -, rfl⟩
  simp [definedName?]

theorem definedName?_blank : definedName? {} = none := by decide

theorem definedNames_below {heading : String} (plain : definedName? { text := heading } = none)
    (lines : List CodeLine) :
    definedNames ({} :: { text := heading } :: lines) = definedNames lines := by
  rw [definedNames, List.filterMap_cons_none definedName?_blank, List.filterMap_cons_none plain,
    definedNames]

end CodeLine

theorem Declaration.WellFormed.definedName?_code {declaration : Declaration}
    (wellFormed : declaration.WellFormed) :
    declaration.code.definedName? = some declaration.name := by
  apply CodeLine.definedName?_of_text rfl wellFormed.1 declaration.type.code "" ";"
  · simp [code]
  · cases declaration.type <;> decide
  · decide
  · exact ⟨';', rfl, rfl⟩

theorem PwmChannel.definedName?_constant {name : String} (isWord : IsWord name.toList)
    (value : String) : (constant name value).definedName? = some name := by
  apply CodeLine.definedName?_of_text rfl isWord "const int" " " ("= " ++ value ++ ";")
  · simp [constant, ← String.toList_inj]
  · decide
  · decide
  · exact ⟨'=', by simp, rfl⟩

theorem PwmChannel.definedNames_code {pin : String} (isWord : IsWord pin.toList)
    (channel : PwmChannel) : CodeLine.definedNames (channel.code pin) = names pin := by
  have defines : ∀ name ∈ names pin, ∀ value, (constant name value).definedName? = some name :=
    fun name member => definedName?_constant (isWord_of_mem_names isWord member)
  simp only [names, List.forall_mem_cons] at defines
  simp only [CodeLine.definedNames, code, names, List.filterMap_cons, defines.1, defines.2.1,
    defines.2.2.1, List.filterMap_nil]

theorem Sketch.definedNames_function (name : String) (isWord : IsWord name.toList)
    (commands : List Command) : CodeLine.definedNames (function name commands) = [name] := by
  have opening : CodeLine.definedName? { text := "void " ++ name ++ "() " ++ "\x7b" } =
      some name := by
    apply CodeLine.definedName?_of_text rfl isWord "void" "" "() \x7b"
    · simp [← String.toList_inj]
    · decide
    · decide
    · exact ⟨'(', rfl, rfl⟩
  have closing : CodeLine.definedNames [{ text := "\x7d" }] = [] := by decide
  rw [function, CodeLine.definedNames, List.filterMap_cons_none CodeLine.definedName?_blank,
    ← CodeLine.definedNames, CodeLine.block, CodeLine.definedNames_append, closing,
    CodeLine.definedNames, List.filterMap_cons_some opening, ← CodeLine.definedNames,
    CodeLine.definedNames_nested, List.append_nil]

/-! ## Names of channels -/

namespace PwmChannels

theorem nodup_bind {channels : PwmChannels} (distinct : (channels.bindings.map Prod.fst).Nodup)
    (command : Command) : ((channels.bind command).bindings.map Prod.fst).Nodup := by
  cases command with
  | configurePwm pin frequency resolution =>
      rw [bind]
      cases bound : channels.get? pin with
      | some => exact distinct
      | none =>
          rw [get?, List.lookup_eq_none_iff] at bound
          have fresh : pin ∉ channels.bindings.map Prod.fst := by
            intro member
            rcases List.mem_map.mp member with ⟨binding, inside, same⟩
            exact absurd same.symm (by simpa using bound binding inside)
          rw [List.map_append, List.map_singleton, ← List.concat_eq_append]
          exact distinct.concat fresh
  | _ => exact distinct

/-- No pin has two channels. -/
theorem nodup_allocate (commands : List Command) :
    ((allocate commands).bindings.map Prod.fst).Nodup := by
  induction commands using List.reverseRecOn with
  | nil => exact List.nodup_nil
  | append_singleton commands command induction =>
      rw [allocate_concat]
      exact nodup_bind induction command

/-- The constants of all channels. -/
def names (channels : PwmChannels) : List String :=
  channels.bindings.flatMap fun binding => PwmChannel.names binding.1

theorem nodup_names_allocate (commands : List Command) : (allocate commands).names.Nodup := by
  rw [names, List.nodup_flatMap]
  constructor
  · intro binding _
    simp [PwmChannel.names, PwmChannel.numberName, PwmChannel.frequencyName,
      PwmChannel.resolutionName, ← String.toList_inj]
  · have distinct := nodup_allocate commands
    rw [List.Nodup, List.pairwise_map] at distinct
    apply distinct.imp
    intro first second different
    apply List.disjoint_left.mpr
    intro name member otherMember
    exact different (PwmChannel.pin_eq_of_mem_names member otherMember)

theorem mem_names_allocate_iff (program : Program) (name : String) :
    name ∈ (allocate program.setup).names ↔
      ∃ pin, program.HasChannel pin ∧ name ∈ PwmChannel.names pin := by
  simp only [names, List.mem_flatMap, Program.HasChannel, ← Option.isSome_iff_exists,
    isSome_get?_iff]
  constructor
  · intro inBinding
    rcases inBinding with ⟨⟨pin, channel⟩, bound, named⟩
    exact ⟨pin, ⟨channel, bound⟩, named⟩
  · intro ofPin
    rcases ofPin with ⟨pin, ⟨channel, bound⟩, named⟩
    exact ⟨(pin, channel), bound, named⟩

theorem ne_function_of_mem_names {channels : PwmChannels} {name : String}
    (member : name ∈ channels.names) : name ≠ "setup" ∧ name ≠ "loop" := by
  rcases List.mem_flatMap.mp member with ⟨⟨pin, channel⟩, -, named⟩
  have initial : name.toList.head? ∈ [some 'c', some 'f', some 'r'] := by
    simp only [PwmChannel.names, List.mem_cons, List.not_mem_nil, or_false] at named
    rcases named with rfl | rfl | rfl
    · simp [PwmChannel.numberName]
    · simp [PwmChannel.frequencyName]
    · simp [PwmChannel.resolutionName]
  constructor
  · intro same
    rw [same] at initial
    revert initial
    decide
  · intro same
    rw [same] at initial
    revert initial
    decide

/-- The names that the sketch makes up are distinct. -/
theorem nodup_names_append_functions (commands : List Command) :
    ((allocate commands).names ++ ["setup", "loop"]).Nodup := by
  rw [List.nodup_append]
  refine ⟨nodup_names_allocate _, by decide, ?_⟩
  intro name member function isFunction
  have different := ne_function_of_mem_names member
  simp only [List.mem_cons, List.not_mem_nil, or_false] at isFunction
  rcases isFunction with rfl | rfl
  · exact different.1
  · exact different.2

end PwmChannels

/-! ## Accepted programs -/

theorem Sketch.definedNames_globals {declarations : List Declaration}
    (wellFormed : ∀ declaration ∈ declarations, declaration.WellFormed) :
    CodeLine.definedNames (globals declarations) = declarations.map Declaration.name := by
  rw [globals, CodeLine.definedNames_below (by decide), CodeLine.definedNames,
    List.filterMap_map, ← List.filterMap_eq_map]
  apply List.filterMap_congr
  intro declaration member
  exact (wellFormed declaration member).definedName?_code

theorem Sketch.definedNames_channels {bound : PwmChannels}
    (words : ∀ pin channel, (pin, channel) ∈ bound.bindings → IsWord pin.toList) :
    CodeLine.definedNames (channels bound) = bound.names := by
  unfold channels
  split
  · next empty =>
      simp [CodeLine.definedNames, PwmChannels.names, List.isEmpty_iff.mp empty]
  · rw [CodeLine.definedNames_below (by decide), CodeLine.definedNames, List.filterMap_flatMap]
    apply List.flatMap_congr
    intro binding member
    exact PwmChannel.definedNames_code (words _ _ member) _

theorem Program.WellFormed.topLevelNames_eq {program : Program} (wellFormed : program.WellFormed) :
    program.topLevelNames = program.declarations.map Declaration.name ++
      (PwmChannels.allocate program.setup).names ++ ["setup", "loop"] := by
  have headers : CodeLine.definedNames Sketch.headers = [] := by decide
  have channels := Sketch.definedNames_channels fun _ _ =>
    PwmChannels.isWord_of_mem_allocate wellFormed.setup
  have setup := Sketch.definedNames_function "setup" (by decide) program.setup
  have loop := Sketch.definedNames_function "loop" (by decide) program.loop
  simp only [topLevelNames, code, CodeLine.definedNames_append, headers,
    Sketch.definedNames_globals wellFormed.declarations, channels, setup, loop]
  simp

theorem Source.accept_eq_ok {source : Source} {program : Program}
    (accepted : source.accept = .ok program) :
    source.program = .ok program ∧ ∃ table, program.analyze = .ok table := by
  rw [accept] at accepted
  cases read : source.program with
  | error =>
      rw [read] at accepted
      cases accepted
  | ok result =>
      rw [read] at accepted
      change (result.analyze.mapError Rejection.semantic >>= fun _ => pure result) =
        .ok program at accepted
      cases analyzed : result.analyze with
      | error =>
          rw [analyzed] at accepted
          cases accepted
      | ok table =>
          rw [analyzed] at accepted
          obtain rfl : result = program := Except.ok.inj accepted
          exact ⟨rfl, table, analyzed⟩

/-- The names that the sketch of an accepted source defines are distinct exactly if no variable
has the name of a function or of a constant of a channel. -/
theorem Source.topLevelNames_of_accept {source : Source} {program : Program}
    (accepted : source.accept = .ok program) :
    program.topLevelNames = program.declarations.map Declaration.name ++
      (PwmChannels.allocate program.setup).names ++ ["setup", "loop"] ∧
    (program.topLevelNames.Nodup ↔ ∀ declaration ∈ program.declarations,
      declaration.name ≠ "setup" ∧ declaration.name ≠ "loop" ∧
      ∀ pin, program.HasChannel pin → declaration.name ∉ PwmChannel.names pin) := by
  rcases Source.accept_eq_ok accepted with ⟨read, table, analyzed⟩
  have names := (Source.program_wellFormed read).topLevelNames_eq
  have distinct := ((Program.analyze_eq_ok_iff _ _).mp analyzed).1.distinct
  refine ⟨names, ?_⟩
  rw [names, List.append_assoc, List.nodup_append]
  constructor
  · intro whole declaration listed
    have apart := whole.2.2 declaration.name (List.mem_map_of_mem listed)
    refine ⟨apart _ (by simp), apart _ (by simp), ?_⟩
    intro pin bound named
    have constant := (PwmChannels.mem_names_allocate_iff program _).mpr ⟨pin, bound, named⟩
    exact apart _ (List.mem_append_left _ constant) rfl
  · intro apart
    refine ⟨distinct, PwmChannels.nodup_names_append_functions _, ?_⟩
    intro name declared other member same
    rcases List.mem_map.mp declared with ⟨declaration, listed, rfl⟩
    rcases apart declaration listed with ⟨noSetup, noLoop, noConstant⟩
    rcases List.mem_append.mp member with constant | function
    · rcases (PwmChannels.mem_names_allocate_iff program _).mp constant with ⟨pin, bound, named⟩
      rw [← same] at named
      exact noConstant pin bound named
    · simp only [List.mem_cons, List.not_mem_nil, or_false] at function
      rcases function with isSetup | isLoop
      · exact noSetup (same.trans isSetup)
      · exact noLoop (same.trans isLoop)

theorem Source.dimmer_names_distinct :
    let source : Source :=
      { name := "dimmer"
        lines := [some "var inteiro: led;",
          some "config configurarPWM led com frequencia 5000, resolucao 8; fim repita fim"] }
    ∃ program, source.accept = .ok program ∧
      program.topLevelNames = ["led", "canal_led", "freq_led", "resol_led", "setup", "loop"] ∧
      program.topLevelNames.Nodup := by
  intro source
  have accepted : source.accept = .ok
      { declarations := [⟨"led", .integer⟩], setup := [.configurePwm "led" 5000 8] } := by
    decide +kernel
  have names := (topLevelNames_of_accept accepted).1
  refine ⟨_, accepted, names, ?_⟩
  rw [names]
  decide

/-- A variable with the name of a function is accepted, and the sketch defines it twice. -/
theorem Source.setup_defined_twice :
    let source : Source :=
      { name := "twice", lines := [some "var inteiro: setup;", some "config fim repita fim"] }
    ∃ program, source.accept = .ok program ∧
      program.topLevelNames = ["setup", "setup", "loop"] ∧ ¬ program.topLevelNames.Nodup := by
  intro source
  have accepted : source.accept = .ok { declarations := [⟨"setup", .integer⟩] } := by
    decide +kernel
  have names : Program.topLevelNames { declarations := [⟨"setup", .integer⟩] } =
      ["setup", "setup", "loop"] := by
    decide +kernel
  refine ⟨_, accepted, names, ?_⟩
  rw [names]
  decide

end Firmware
