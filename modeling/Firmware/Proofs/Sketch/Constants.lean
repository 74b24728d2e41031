import Firmware.Proofs.Sketch.Mentions

/-! # The constants of a sketch

The code of a PWM command refers to constants of its pin, and nothing else that a sketch makes up
has the name of such a constant. Main statement: in the sketch of an accepted program, all
constants that the PWM commands of `setup()` refer to are defined, and of those that the PWM
commands of `loop()` refer to, the constants of the pins that the setup configures. -/

namespace Firmware

/-! ## Names of constants -/

/-- A word that names a constant of a channel. -/
structure PwmChannel.IsName (name : String) : Prop where
  named : ∃ pin, name ∈ names pin
  word : ∀ character ∈ name.toList, isWordPart character = true

/-- No name of a constant of a channel begins in the text. -/
def Plain (text : String) : Prop :=
  ∀ mark ∈ ["canal_", "freq_", "resol_"], ¬ mark.toList <:+: text.toList

instance : DecidablePred Plain := fun text =>
  inferInstanceAs
    (Decidable (∀ mark ∈ ["canal_", "freq_", "resol_"], ¬ mark.toList <:+: text.toList))

theorem plain_of_not_mem {text : String} (absent : '_' ∉ text.toList) : Plain text := by
  intro mark member inside
  apply absent
  apply inside.subset
  simp only [List.mem_cons, List.not_mem_nil, or_false] at member
  rcases member with rfl | rfl | rfl <;> decide

theorem plain_toString (value : Int) : Plain (toString value) :=
  plain_of_not_mem (not_mem_toString (by decide) (by decide) value)

theorem plain_blanks (count : Nat) : Plain (.ofList (List.replicate count ' ')) :=
  plain_of_not_mem (by simp)

namespace PwmChannel.IsName

variable {name text front back opening closing gap : String}

theorem not_mentions_of_plain (isName : IsName name) (plain : Plain text) :
    ¬ Mentions text name := by
  intro mentioned
  rcases mentioned with ⟨before, after, rfl, -, -⟩
  rcases isName.named with ⟨pin, named⟩
  simp only [names, List.mem_cons, List.not_mem_nil, or_false] at named
  simp only [Plain, List.forall_mem_cons] at plain
  rcases named with rfl | rfl | rfl
  · exact plain.1 ⟨before.toList, pin.toList ++ after.toList, by simp [numberName]⟩
  · exact plain.2.1 ⟨before.toList, pin.toList ++ after.toList, by simp [frequencyName]⟩
  · exact plain.2.2.1 ⟨before.toList, pin.toList ++ after.toList, by simp [resolutionName]⟩

theorem mentions_opening_iff (isName : IsName name) (plain : Plain opening)
    (ends : EndsApart opening) : Mentions (opening ++ text) name ↔ Mentions text name := by
  constructor
  · intro mentioned
    exact (mentioned.of_append isName.word (.inl ends)).resolve_left
      (isName.not_mentions_of_plain plain)
  · intro mentioned
    simpa using mentioned.between ends (by decide : BeginsApart "")

theorem mentions_closing_iff (isName : IsName name) (plain : Plain closing)
    (begins : BeginsApart closing) : Mentions (text ++ closing) name ↔ Mentions text name := by
  constructor
  · intro mentioned
    exact (mentioned.of_append isName.word (.inr begins)).resolve_right
      (isName.not_mentions_of_plain plain)
  · intro mentioned
    simpa using mentioned.between (by decide : EndsApart "") begins

theorem mentions_gap_iff (isName : IsName name) (plain : Plain gap) (begins : BeginsApart gap)
    (ends : EndsApart gap) (nonempty : gap ≠ "") :
    Mentions (front ++ gap ++ back) name ↔ Mentions front name ∨ Mentions back name := by
  constructor
  · intro mentioned
    rw [← isName.mentions_closing_iff plain begins]
    exact mentioned.of_append isName.word (.inl (ends.append_left nonempty))
  · intro inPart
    rcases inPart with inFront | inBack
    · have apart : BeginsApart (gap ++ back) := begins.append_right nonempty
      simpa [String.append_assoc] using inFront.between (by decide : EndsApart "") apart
    · simpa using inBack.between (ends.append_left nonempty) (by decide : BeginsApart "")

theorem mentions_block_iff (isName : IsName name) (body : List CodeLine) :
    (∃ line ∈ CodeLine.block opening body, Mentions line.text name) ↔
      Mentions (opening ++ "\x7b") name ∨ ∃ line ∈ body, Mentions line.text name := by
  have closes : ¬ Mentions "\x7d" name := isName.not_mentions_of_plain (by decide +kernel)
  simp [CodeLine.block, CodeLine.nested, closes]

end PwmChannel.IsName

/-! ## What the code of commands refers to -/

namespace Command

/-- The constants that the code of a command refers to. -/
def constants : Command → List String
  | .configurePwm pin _ _ => PwmChannel.names pin
  | .adjustPwm pin _ => [PwmChannel.numberName pin]
  | _ => []

/-- The names and expressions that stand in the code of a command as they are. -/
def texts : Command → List String
  | .assign first second | .readDigital first second | .readAnalog first second
  | .connectWifi first second | .sendHttp first second => [first, second]
  | .configurePin text _ | .configurePwm text _ _ | .turnOn text | .turnOff text
  | .adjustPwm _ text | .wait text | .writeSerial text | .conditional text
  | .whileLoop text => [text]
  | .configureSerial _ | .readSerial | .undefined => []

/-- The constants of a command and its own texts are all that its code can mention. -/
theorem mentions_code_iff (command : Command) {name : String} (isName : PwmChannel.IsName name) :
    (∃ line ∈ command.code, Mentions line.text name) ↔
      ∃ part ∈ command.constants ++ command.texts, Mentions part name := by
  have noPart : (∃ part ∈ ([] : List String), Mentions part name) ↔ False := by simp
  have noLine : (∃ line ∈ ([] : List CodeLine), Mentions line.text name) ↔ False := by simp
  have literal : ∀ {text}, Plain text → (Mentions text name ↔ False) := by
    intro text plain
    exact iff_false_intro (isName.not_mentions_of_plain plain)
  have numeral : ∀ value : Int, Mentions (toString value) name ↔ False := by
    intro value
    exact literal (plain_toString value)
  have direction : ∀ direction : PinDirection, Mentions direction.code name ↔ False := by
    intro direction
    cases direction <;> exact literal (by decide +kernel)
  -- What stands between the parts of a line keeps them apart, and mentions nothing itself.
  cases command <;>
    simp (disch := decide +kernel) only [code, constants, texts, PwmChannel.names,
      List.cons_append, List.nil_append, List.exists_mem_cons_iff, noPart, noLine, literal,
      numeral, direction, isName.mentions_block_iff, isName.mentions_gap_iff,
      isName.mentions_opening_iff, isName.mentions_closing_iff, or_false, false_or]
  case configurePwm pin _ _ => tauto

/-- The code of a command refers to the constants of the command, whatever its pin is called. -/
theorem mentions_of_mem_constants {command : Command} {name : String}
    (member : name ∈ command.constants) : ∃ line ∈ command.code, Mentions line.text name := by
  have atEnd : BeginsApart ");" := by decide
  have behind : ∀ rest, BeginsApart (", " ++ rest) := by
    intro rest
    exact BeginsApart.append_right (by decide) (by decide)
  have before : ∀ front, EndsApart (front ++ ", ") := by
    intro front
    exact EndsApart.append_left (by decide) (by decide)
  cases command with
  | configurePwm pin frequency resolution =>
      refine ⟨_, List.mem_cons_self, ?_⟩
      simp only [constants, PwmChannel.names, List.mem_cons, List.not_mem_nil, or_false] at member
      rcases member with rfl | rfl | rfl
      · have inside := (Mentions.refl (PwmChannel.numberName pin)).between
          (by decide : EndsApart "ledcSetup(")
          (behind (PwmChannel.frequencyName pin ++ ", " ++ PwmChannel.resolutionName pin ++ ");"))
        simpa [String.append_assoc] using inside
      · have inside := (Mentions.refl (PwmChannel.frequencyName pin)).between
          (before ("ledcSetup(" ++ PwmChannel.numberName pin))
          (behind (PwmChannel.resolutionName pin ++ ");"))
        simpa [String.append_assoc] using inside
      · have inside := (Mentions.refl (PwmChannel.resolutionName pin)).between
          (before ("ledcSetup(" ++ PwmChannel.numberName pin ++ ", " ++
            PwmChannel.frequencyName pin)) atEnd
        simpa [String.append_assoc] using inside
  | adjustPwm pin value =>
      obtain rfl : name = PwmChannel.numberName pin := by simpa [constants] using member
      refine ⟨_, List.mem_cons_self, ?_⟩
      have inside := (Mentions.refl (PwmChannel.numberName pin)).between
        (by decide : EndsApart "ledcWrite(") (behind (value ++ ");"))
      simpa [String.append_assoc] using inside
  | _ => cases member

theorem exists_pwmPin?_of_mem_constants {command : Command} {name : String}
    (member : name ∈ command.constants) :
    ∃ pin, command.pwmPin? = some pin ∧ name ∈ PwmChannel.names pin := by
  cases command with
  | configurePwm pin frequency resolution => exact ⟨pin, rfl, member⟩
  | adjustPwm pin value =>
      obtain rfl : name = PwmChannel.numberName pin := by simpa [constants] using member
      exact ⟨pin, rfl, List.mem_cons_self⟩
  | _ => cases member

theorem WellFormed.isWord_of_pwmPin? {command : Command} (wellFormed : command.WellFormed)
    {pin : String} (uses : command.pwmPin? = some pin) : IsWord pin.toList := by
  cases command with
  | configurePwm configured frequency resolution =>
      cases uses
      exact wellFormed
  | adjustPwm adjusted value =>
      cases uses
      exact wellFormed.1
  | _ => cases uses

/-- Where the pin is a word, a constant mentions no other name. -/
theorem WellFormed.mentions_constants_iff {command : Command} (wellFormed : command.WellFormed)
    (name : String) :
    (∃ constant ∈ command.constants, Mentions constant name) ↔ name ∈ command.constants := by
  constructor
  · intro inConstant
    rcases inConstant with ⟨constant, member, mentioned⟩
    rcases exists_pwmPin?_of_mem_constants member with ⟨pin, uses, named⟩
    have isWord := PwmChannel.isWord_of_mem_names (wellFormed.isWord_of_pwmPin? uses) named
    rwa [← mentioned.eq_of_word (isWordPart_of_mem_isWord isWord)]
  · intro member
    exact ⟨name, member, Mentions.refl name⟩

end Command

/-! ## What functions refer to -/

namespace CodeLine

theorem mentions_joined_iff {name : String} (isName : PwmChannel.IsName name)
    (lines : List CodeLine) :
    Mentions (joined lines) name ↔ ∃ line ∈ lines, Mentions line.text name := by
  constructor
  · intro mentioned
    induction lines with
    | nil => exact absurd mentioned (isName.not_mentions_of_plain (by decide +kernel))
    | cons line lines induction =>
        rw [joined_cons, render] at mentioned
        rcases mentioned.of_append isName.word (.inl (EndsApart.append_left (by decide)
          (by decide))) with inLine | inRest
        · rw [isName.mentions_closing_iff (by decide +kernel) (by decide),
            isName.mentions_opening_iff (plain_blanks _) (endsApart_blanks _)] at inLine
          exact ⟨line, List.mem_cons_self, inLine⟩
        · rcases induction inRest with ⟨other, member, inOther⟩
          exact ⟨other, List.mem_cons_of_mem line member, inOther⟩
  · intro inLine
    rcases inLine with ⟨line, member, mentioned⟩
    exact mentions_joined member mentioned

end CodeLine

namespace Sketch

def functionText (name : String) (commands : List Command) : String :=
  CodeLine.joined (function name commands)

/-- A text refers to the constants of some commands, and beyond these mentions such names only
where the commands themselves do. -/
structure RefersTo (text : String) (commands : List Command) : Prop where
  constants : ∀ command ∈ commands, ∀ name ∈ command.constants, Mentions text name
  /-- A pin can be called anything, and then a word can stand inside of a constant. -/
  names : ∀ name, PwmChannel.IsName name → (Mentions text name ↔
    ∃ command ∈ commands, ∃ part ∈ command.constants ++ command.texts, Mentions part name)
  /-- Where pins are words, the constants are the words. -/
  words : (∀ command ∈ commands, command.WellFormed) → ∀ name, PwmChannel.IsName name →
    (Mentions text name ↔ ∃ command ∈ commands,
      name ∈ command.constants ∨ ∃ own ∈ command.texts, Mentions own name)

section Function

variable {function : String} (plain : Plain ("void " ++ function ++ "() " ++ "\x7b"))
  (commands : List Command)

theorem mentions_functionText {command : Command} (member : command ∈ commands) {name : String}
    (named : name ∈ command.constants) : Mentions (functionText function commands) name := by
  rcases Command.mentions_of_mem_constants named with ⟨line, inCode, mentioned⟩
  have inBody : { line with depth := line.depth + 1 } ∈
      CodeLine.nested (commands.flatMap Command.code) := by
    exact List.mem_map_of_mem (List.mem_flatMap_of_mem member inCode)
  have inFunction : { line with depth := line.depth + 1 } ∈ Sketch.function function commands := by
    simp only [Sketch.function, CodeLine.block]
    exact List.mem_cons_of_mem _ (List.mem_append_left _ (List.mem_cons_of_mem _ inBody))
  exact CodeLine.mentions_joined inFunction mentioned

include plain in
theorem mentions_functionText_iff {name : String} (isName : PwmChannel.IsName name) :
    Mentions (functionText function commands) name ↔
      ∃ command ∈ commands, ∃ part ∈ command.constants ++ command.texts, Mentions part name := by
  have blank : ¬ Mentions "" name := isName.not_mentions_of_plain (by decide +kernel)
  have opening := isName.not_mentions_of_plain plain
  rw [functionText, CodeLine.mentions_joined_iff isName, Sketch.function,
    List.exists_mem_cons_iff, isName.mentions_block_iff, or_iff_right blank,
    or_iff_right opening]
  constructor
  · intro inLine
    rcases inLine with ⟨line, member, mentioned⟩
    rcases List.mem_flatMap.mp member with ⟨command, listed, inCode⟩
    exact ⟨command, listed, (command.mentions_code_iff isName).mp ⟨line, inCode, mentioned⟩⟩
  · intro inCommand
    rcases inCommand with ⟨command, listed, inParts⟩
    rcases (command.mentions_code_iff isName).mpr inParts with ⟨line, inCode, mentioned⟩
    exact ⟨line, List.mem_flatMap_of_mem listed inCode, mentioned⟩

include plain in
/-- A function refers to the constants of its commands. -/
theorem functionText_refersTo : RefersTo (functionText function commands) commands where
  constants := by
    intro command member name named
    exact mentions_functionText commands member named
  names := by
    intro name isName
    exact mentions_functionText_iff plain commands isName
  words := by
    intro wellFormed name isName
    rw [mentions_functionText_iff plain commands isName]
    refine exists_congr fun command => and_congr_right fun member => ?_
    simp only [List.mem_append, or_and_right, exists_or,
      (wellFormed command member).mentions_constants_iff]

end Function

end Sketch

/-! ## What sketches define -/

namespace Program

/-- A line of the sketch defines a constant of some name. -/
def Defines (program : Program) (name : String) : Prop :=
  ∃ (value : Int) (before after : String),
    program.generate =
      before ++ ("const int " ++ name ++ " = " ++ toString value ++ ";\n") ++ after ∧
    ∀ character ∈ before.toList.getLast?, character = '\n'

theorem render_constant (name value : String) :
    (PwmChannel.constant name value).render = "const int " ++ name ++ " = " ++ value ++ ";\n" := by
  simp [PwmChannel.constant, CodeLine.render, CodeLine.indentation, ← String.toList_inj]

/-- The sketch defines the constants of the pins that have a channel. -/
theorem defines_of_hasChannel {program : Program} {pin : String} (bound : program.HasChannel pin)
    {name : String} (named : name ∈ PwmChannel.names pin) : program.Defines name := by
  rcases (constant_mem_code_iff program named).mpr bound with ⟨value, member⟩
  rcases List.append_of_mem member with ⟨before, after, split⟩
  refine ⟨value, CodeLine.joined before, CodeLine.joined after, ?_,
    CodeLine.eq_newline_of_getLast?_joined before⟩
  rw [generate_eq_joined, split, CodeLine.joined_append, CodeLine.joined_cons, render_constant]
  simp only [String.append_assoc]

/-- The sketch of a program from a source defines the constants of no other pins. -/
theorem WellFormed.hasChannel_of_defines {program : Program} (wellFormed : program.WellFormed)
    {pin : String} (isWord : IsWord pin.toList) {name : String}
    (named : name ∈ PwmChannel.names pin) (defined : program.Defines name) :
    program.HasChannel pin := by
  rcases defined with ⟨value, before, after, whole, starts⟩
  have noNewline : '\n' ∉ name.toList := by
    exact (PwmChannel.isWord_of_mem_names isWord named).not_mem (by decide)
  have clean := PwmChannel.constant_clean noNewline value
  have characters : (CodeLine.joined program.code).toList = before.toList ++
      ((PwmChannel.constant name (toString value)).render.toList ++ after.toList) := by
    rw [← generate_eq_joined, whole, render_constant]
    simp
  have member := CodeLine.mem_of_joined_eq wellFormed.code_clean clean starts characters
  exact (constant_mem_code_iff program named).mp ⟨value, member⟩

/-! ## Accepted programs -/

/-- The setup of the program configures a pin for PWM. -/
def SetupConfigures (program : Program) (pin : String) : Prop :=
  ∃ frequency resolution, .configurePwm pin frequency resolution ∈ program.setup

/-- The commands of a program, its channels and the text of its sketch fit together. -/
structure ChannelsAgree (program : Program) : Prop where
  /-- Every pin that the setup uses for PWM has a channel. -/
  setup : ∀ command ∈ program.setup, ∀ pin, command.pwmPin? = some pin → program.HasChannel pin
  /-- A pin that the loop uses for PWM has a channel exactly if the setup configures it. -/
  loop : ∀ command ∈ program.loop, ∀ pin, command.pwmPin? = some pin →
    (program.HasChannel pin ↔ program.SetupConfigures pin)
  /-- The two functions end the sketch. -/
  functions : ∃ front, program.generate = front ++
    Sketch.functionText "setup" program.setup ++ Sketch.functionText "loop" program.loop
  /-- `setup()` refers to the constants of its PWM commands, and makes up no other reference. -/
  setupRefers : Sketch.RefersTo (Sketch.functionText "setup" program.setup) program.setup
  /-- `loop()` refers to the constants of its PWM commands, and makes up no other reference. -/
  loopRefers : Sketch.RefersTo (Sketch.functionText "loop" program.loop) program.loop
  /-- The constants that the commands of `setup()` refer to are defined. -/
  setupDefined : ∀ command ∈ program.setup, ∀ name ∈ command.constants, program.Defines name
  /-- The constants that the commands of `loop()` refer to are defined if the setup configures
  their pin, and in a program from a source only then. -/
  loopDefined : ∀ command ∈ program.loop, ∀ pin, command.pwmPin? = some pin →
    ∀ name ∈ command.constants, (program.SetupConfigures pin → program.Defines name) ∧
      (program.WellFormed → program.Defines name → program.SetupConfigures pin)
  /-- All constants of a pin are defined if it has a channel, and in a program from a source only
  then. -/
  defined : ∀ pin, ∀ name ∈ PwmChannel.names pin,
    (program.HasChannel pin → program.Defines name) ∧
      (program.WellFormed → IsWord pin.toList → program.Defines name → program.HasChannel pin)

/-- A pin that is dimmed, and configured for that, by the loop alone. -/
def lateDimmer : Program where
  declarations := [⟨"led", .integer⟩]
  loop := [.configurePwm "led" 5000 8, .adjustPwm "led" "128"]

theorem lateDimmer_wellFormed : lateDimmer.WellFormed := by
  have isWord : IsWord "led".toList := by decide
  have value : IsExpression "128" := by
    refine ⟨.integer 128, by decide, ?_⟩
    simp [Expr.printed, Token.WellFormed, largestInteger]
  refine ⟨?_, ?_, ?_⟩
  · rw [lateDimmer, List.forall_mem_singleton]
    exact ⟨isWord, by decide⟩
  · exact List.forall_mem_nil _
  · rw [lateDimmer, List.forall_mem_cons, List.forall_mem_singleton]
    exact ⟨isWord, isWord, value⟩

/-- A pin that is configured for PWM by the setup and dimmed by the loop. -/
def dimmer : Program where
  declarations := [⟨"led", .integer⟩]
  setup := [.configurePwm "led" 5000 8]
  loop := [.adjustPwm "led" "128"]

end Program

end Firmware
