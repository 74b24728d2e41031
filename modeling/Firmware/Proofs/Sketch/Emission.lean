import Firmware.Proofs.Sketch.Output

/-! # Writing a sketch piece by piece

A sketch can be written without first making a list of its lines: an emitter keeps count of the
blanks before a line, writes these and each piece of the line for itself, raises the count for the
body of a block, and gives up at the first write that fails. Main statement: the emitter of a
program does to every output what writing the lines of its sketch does, and ends with no blanks
to write, also where a write inside of a block fails. -/

namespace Firmware

/-- An output to which lines are written, and the number of blanks before the next one. -/
structure EmissionState where
  output : Sink
  indent : Nat := 0
  deriving DecidableEq, Repr

/-- A part of the work on a sketch. -/
abbrev Emitter := EStateM WriteError EmissionState Unit

namespace Emitter

/-- Something that is done to the output alone. -/
def onOutput (action : EStateM WriteError Sink Unit) : Emitter := fun state =>
  match action state.output with
  | .ok _ output => .ok () { state with output }
  | .error error output => .error error { state with output }

def write (piece : String) : Emitter :=
  onOutput (Sink.write (utf8 piece))

/-- Writes the blanks before a line, some pieces of the line, and the rest of it. -/
def line (pieces : List String) (rest : String) : Emitter := do
  (List.replicate (← get).indent " ").forM write
  pieces.forM write
  write (rest ++ "\n")

def blankLine : Emitter :=
  write "\n"

/-- Does something with more blanks before each line. The number of blanks becomes what it was,
whether that fails or not. -/
def block (body : Emitter) : Emitter := fun state =>
  match body { state with indent := state.indent + CodeLine.indentation } with
  | .ok _ state => .ok () { state with indent := state.indent - CodeLine.indentation }
  | .error error state =>
      .error error { state with indent := state.indent - CodeLine.indentation }

def command : Command → Emitter
  | .assign target value => line [target, " = ", value] ";"
  | .configurePin pin direction => line ["pinMode(", pin, ", ", direction.code] ");"
  | .configurePwm pin _ _ => do
      line ["ledcSetup(canal_", pin, ", freq_", pin, ", resol_", pin] ");"
      line ["ledcAttachPin(", pin, ", canal_", pin] ");"
  | .adjustPwm pin value => line ["ledcWrite(canal_", pin, ", ", value] ");"
  | .connectWifi ssid password => do
      line ["WiFi.begin(", ssid, ".c_str(), ", password] ".c_str());"
      line [] "while (WiFi.status() != WL_CONNECTED) \x7b"
      block (line ["delay(", toString networkPoll] ");")
      line [] "\x7d"
  | .wait time => line ["delay(", time] ");"
  | .turnOn pin => line ["digitalWrite(", pin] ", HIGH);"
  | .turnOff pin => line ["digitalWrite(", pin] ", LOW);"
  | .sendHttp url data => do
      line [] "\x7b"
      block do
        line [] "HTTPClient http;"
        line ["http.begin(", url] ");"
        line [] "http.addHeader(\"Content-Type\", \"application/x-www-form-urlencoded\");"
        line ["http.POST(", data] ");"
        line [] "http.end();"
      line [] "\x7d"
  | .configureSerial baud => line ["Serial.begin(", toString baud] ");"
  | .writeSerial message => line ["Serial.println(", message] ");"
  | .readSerial => do
      line [] "\x7b"
      block (line [] "String valor = Serial.readStringUntil('\\n');")
      line [] "\x7d"
  | .readDigital target pin => line [target, " = digitalRead(", pin] ");"
  | .readAnalog target pin => line [target, " = analogRead(", pin] ");"
  | .conditional condition => line ["// se ", condition] ": comandos aninhados não expandidos"
  | .whileLoop condition =>
      line ["// enquanto ", condition] ": comandos aninhados não expandidos"
  | .undefined => pure ()

def function (name : String) (commands : List Command) : Emitter := do
  blankLine
  line ["void ", name] "() \x7b"
  block (commands.forM command)
  line [] "\x7d"

def constants (binding : String × PwmChannel) : Emitter := do
  line ["const int canal_", binding.1, " = ", toString binding.2.number] ";"
  line ["const int freq_", binding.1, " = ", toString binding.2.frequency] ";"
  line ["const int resol_", binding.1, " = ", toString binding.2.resolution] ";"

def channels (bound : PwmChannels) : Emitter := do
  if !bound.bindings.isEmpty then
    blankLine
    line [] "// ========== Canais PWM =========="
  bound.bindings.forM constants

/-- Writes all of a sketch. -/
def sketch (program : Program) : Emitter := do
  ["Arduino.h", "WiFi.h", "HTTPClient.h"].forM fun header => line ["#include <", header] ">"
  blankLine
  line [] "// ========== Variáveis Globais =========="
  program.declarations.forM fun declaration =>
    line [declaration.type.code, " ", declaration.name] ";"
  channels (PwmChannels.allocate program.setup)
  function "setup" program.setup
  function "loop" program.loop

/-! ## Pieces -/

theorem onOutput_pure : onOutput (pure ()) = pure () :=
  rfl

/-- What is done to the output in two steps can be done by two emitters. -/
theorem onOutput_bind (first second : EStateM WriteError Sink Unit) :
    onOutput (do first; second) = (do onOutput first; onOutput second) := by
  funext state
  simp only [onOutput, bind, EStateM.bind]
  cases first state.output <;> rfl

theorem write_append (first second : String) :
    write (first ++ second) = (do write first; write second) := by
  have bytes : utf8 (first ++ second) = utf8 first ++ utf8 second := by
    simp [utf8_eq_flatMap]
  rw [write, bytes, Sink.write_append, onOutput_bind]
  rfl

theorem forM_write (pieces : List String) : pieces.forM write = write (String.join pieces) := by
  induction pieces with
  | nil =>
      have empty : utf8 (String.join []) = [] := by simp [utf8_eq_flatMap]
      rw [write, empty, Sink.write_empty, onOutput_pure]
      rfl
  | cons piece pieces induction =>
      rw [String.join_cons, write_append, ← induction]
      rfl

/-! ## Lines -/

/-- With blanks for some depth, the emitter does to every output what writing some lines does,
and leaves the number of blanks as it is. -/
def EmitsAt (depth : Nat) (emitter : Emitter) (lines : List CodeLine) : Prop :=
  ∀ output, emitter { output, indent := CodeLine.indentation * depth } =
    onOutput (Sink.writeLines lines) { output, indent := CodeLine.indentation * depth }

section Lines

variable {depth : Nat}

theorem emitsAt_pure : EmitsAt depth (pure ()) [] := by
  intro output
  rfl

theorem EmitsAt.seq {first second : Emitter} {lines others : List CodeLine}
    (emits : EmitsAt depth first lines) (emitsNext : EmitsAt depth second others) :
    EmitsAt depth (do first; second) (lines ++ others) := by
  intro output
  rw [Sink.writeLines_append, onOutput_bind]
  simp only [bind, EStateM.bind, emits output]
  simp only [onOutput]
  cases Sink.writeLines lines output with
  | ok _ output => exact emitsNext output
  | error error output => rfl

theorem EmitsAt.forM {α : Type} {emitter : α → Emitter} {code : α → List CodeLine}
    (emits : ∀ item, EmitsAt depth (emitter item) (code item)) (items : List α) :
    EmitsAt depth (items.forM emitter) (items.flatMap code) := by
  induction items with
  | nil => exact emitsAt_pure
  | cons item items induction => exact (emits item).seq induction

/-- The body of a block is one level deeper, and the block ends where it has begun. -/
theorem EmitsAt.block {body : Emitter} {lines : List CodeLine}
    (emits : EmitsAt (depth + 1) body lines) : EmitsAt depth (block body) lines := by
  intro output
  have deeper : CodeLine.indentation * depth + CodeLine.indentation =
      CodeLine.indentation * (depth + 1) := rfl
  rw [Emitter.block]
  simp only [deeper, emits output]
  simp only [onOutput]
  cases Sink.writeLines lines output <;> rfl

theorem join_replicate_blank (count : Nat) :
    String.join (List.replicate count " ") = .ofList (List.replicate count ' ') := by
  induction count with
  | zero => rfl
  | succ count induction =>
      rw [List.replicate_succ, String.join_cons, induction]
      simp [List.replicate_succ]

/-- The pieces of a line are written one after the other, and the whole line is what counts. -/
theorem emitsAt_line {pieces : List String} {rest text : String}
    (whole : (String.join pieces).toList ++ rest.toList = text.toList) :
    EmitsAt depth (line pieces rest) [{ depth, text }] := by
  intro output
  have characters : String.join (List.replicate (CodeLine.indentation * depth) " ") ++
      (String.join pieces ++ (rest ++ "\n")) = CodeLine.render { depth, text } := by
    rw [join_replicate_blank, CodeLine.render, ← String.toList_inj]
    simp [← whole]
  rw [Sink.writeLines_singleton, ← characters]
  change ((List.replicate (CodeLine.indentation * depth) " ").forM write >>= fun _ =>
    pieces.forM write >>= fun _ => write (rest ++ "\n")) _ = write _ _
  rw [forM_write, forM_write, ← write_append, ← write_append]

theorem emitsAt_blankLine : EmitsAt 0 blankLine [{}] := by
  intro output
  have blank : CodeLine.render {} = "\n" := by decide
  rw [Sink.writeLines_singleton, blank]
  rfl

/-- A block between the lines that open and close it. -/
theorem EmitsAt.braced {pieces : List String} {rest text : String} {body : Emitter}
    {lines : List CodeLine} (opens : (String.join pieces).toList ++ rest.toList = text.toList)
    (emits : EmitsAt (depth + 1) body lines) :
    EmitsAt depth (do line pieces rest; Emitter.block body; line [] "\x7d")
      ({ depth, text } :: (lines ++ [{ depth, text := "\x7d" }])) :=
  (emitsAt_line opens).seq (emits.block.seq (emitsAt_line (by simp)))

end Lines

/-! ## The parts of a sketch -/

/-- Commands stand in functions, one level deep. -/
theorem emitsAt_command (given : Command) :
    EmitsAt 1 (command given) (CodeLine.nested given.code) := by
  cases given with
  | configurePwm pin =>
      refine EmitsAt.seq (emitsAt_line ?_) (emitsAt_line ?_)
      · simp [PwmChannel.numberName, PwmChannel.frequencyName, PwmChannel.resolutionName]
      · simp [PwmChannel.numberName]
  | connectWifi ssid password =>
      refine EmitsAt.seq (emitsAt_line ?_) (EmitsAt.braced ?_ (emitsAt_line ?_)) <;> simp
  | sendHttp url data =>
      refine EmitsAt.braced ?_ (EmitsAt.seq (emitsAt_line ?_) (EmitsAt.seq (emitsAt_line ?_)
        (EmitsAt.seq (emitsAt_line ?_) (EmitsAt.seq (emitsAt_line ?_) (emitsAt_line ?_))))) <;>
        simp
  | readSerial => exact EmitsAt.braced (by simp) (emitsAt_line (by simp))
  | undefined => exact emitsAt_pure
  | _ => exact emitsAt_line (by simp [PwmChannel.numberName])

theorem emitsAt_function (name : String) (commands : List Command) :
    EmitsAt 0 (function name commands) (Sketch.function name commands) := by
  have body : EmitsAt 1 (commands.forM command)
      (CodeLine.nested (commands.flatMap Command.code)) := by
    rw [CodeLine.nested, List.map_flatMap]
    exact EmitsAt.forM emitsAt_command commands
  exact emitsAt_blankLine.seq (EmitsAt.braced (by simp) body)

theorem emitsAt_constants (binding : String × PwmChannel) :
    EmitsAt 0 (constants binding) (binding.2.code binding.1) := by
  refine EmitsAt.seq (emitsAt_line ?_) (EmitsAt.seq (emitsAt_line ?_) (emitsAt_line ?_)) <;>
    simp [PwmChannel.numberName, PwmChannel.frequencyName, PwmChannel.resolutionName]

theorem emitsAt_heading (text : String) : EmitsAt 0 (line [] text) [{ text }] :=
  emitsAt_line (by simp)

theorem emitsAt_channels (bound : PwmChannels) :
    EmitsAt 0 (channels bound) (Sketch.channels bound) := by
  have below := EmitsAt.forM emitsAt_constants bound.bindings
  unfold channels Sketch.channels
  cases empty : bound.bindings.isEmpty with
  | true =>
      rw [List.isEmpty_iff.mp empty]
      exact emitsAt_pure
  | false => exact emitsAt_blankLine.seq ((emitsAt_heading _).seq below)

theorem emitsAt_header (name : String) :
    EmitsAt 0 (line ["#include <", name] ">") [{ text := "#include <" ++ name ++ ">" }] :=
  emitsAt_line (by simp)

theorem emitsAt_declaration (declaration : Declaration) :
    EmitsAt 0 (line [declaration.type.code, " ", declaration.name] ";") [declaration.code] :=
  emitsAt_line (by simp)

theorem emitsAt_sketch (program : Program) : EmitsAt 0 (sketch program) program.code := by
  have headers := EmitsAt.forM emitsAt_header ["Arduino.h", "WiFi.h", "HTTPClient.h"]
  have declarations := EmitsAt.forM emitsAt_declaration program.declarations
  rw [← List.map_eq_flatMap] at headers declarations
  have functions := (emitsAt_function "setup" program.setup).seq
    (emitsAt_function "loop" program.loop)
  have channels := emitsAt_channels (PwmChannels.allocate program.setup)
  have heading := emitsAt_heading "// ========== Variáveis Globais =========="
  simp only [Program.code, List.append_assoc]
  exact headers.seq (emitsAt_blankLine.seq (heading.seq (declarations.seq
    (channels.seq functions))))

end Emitter

/-- The emitter of a program does to every output what writing the lines of the sketch does, and
leaves no blanks to write behind. -/
theorem Emitter.sketch_eq_emit (program : Program) (output : Sink) :
    sketch program { output } =
      match program.emit output with
      | .ok _ output => .ok () { output, indent := 0 }
      | .error error output => .error error { output, indent := 0 } :=
  emitsAt_sketch program output

end Firmware
