import Firmware.Sketch.Channels

/-! # The sketch of a program

A program becomes one C++ file: headers, global variables, the constants of the
PWM channels, and the functions `setup` and `loop` with the commands of the two
blocks in order. Every command has a fixed form. Programs are taken as they are;
whether they make sense is for the analysis to say. -/

namespace Firmware

/-- A line of code and how deep it is nested. -/
structure CodeLine where
  depth : Nat := 0
  text : String := ""
  deriving DecidableEq, Repr

namespace CodeLine

def indentation : Nat := 2

/-- The characters of a line, with those that end it. -/
def render (line : CodeLine) : String :=
  String.ofList (List.replicate (indentation * line.depth) ' ') ++ line.text ++ "\n"

def nested (lines : List CodeLine) : List CodeLine :=
  lines.map fun line => { line with depth := line.depth + 1 }

/-- A line that opens a block, the lines inside, and the one that closes it. -/
def block (opening : String) (body : List CodeLine) : List CodeLine :=
  { text := opening ++ "\x7b" } :: nested body ++ [{ text := "\x7d" }]

end CodeLine

def VarType.code : VarType → String
  | .integer => "int"
  | .text => "String"
  | .boolean => "bool"
  | .undefined => "int"

def PinDirection.code : PinDirection → String
  | .output => "OUTPUT"
  | .input => "INPUT"

def Declaration.code (declaration : Declaration) : CodeLine :=
  { text := declaration.type.code ++ " " ++ declaration.name ++ ";" }

namespace PwmChannel

def numberName (pin : String) : String := "canal_" ++ pin

def frequencyName (pin : String) : String := "freq_" ++ pin

def resolutionName (pin : String) : String := "resol_" ++ pin

def constant (name value : String) : CodeLine :=
  { text := "const int " ++ name ++ " = " ++ value ++ ";" }

def code (pin : String) (channel : PwmChannel) : List CodeLine :=
  [constant (numberName pin) (toString channel.number),
    constant (frequencyName pin) (toString channel.frequency),
    constant (resolutionName pin) (toString channel.resolution)]

end PwmChannel

/-- How long the sketch waits between two looks at the state of the network, in
milliseconds. -/
def networkPoll : Nat := 500

def Command.code : Command → List CodeLine
  | .assign target value => [{ text := target ++ " = " ++ value ++ ";" }]
  | .configurePin pin direction =>
      [{ text := "pinMode(" ++ pin ++ ", " ++ direction.code ++ ");" }]
  | .configurePwm pin _ _ =>
      [{ text := "ledcSetup(" ++ PwmChannel.numberName pin ++ ", " ++
          PwmChannel.frequencyName pin ++ ", " ++ PwmChannel.resolutionName pin ++ ");" },
        { text := "ledcAttachPin(" ++ pin ++ ", " ++ PwmChannel.numberName pin ++ ");" }]
  | .adjustPwm pin value =>
      [{ text := "ledcWrite(" ++ PwmChannel.numberName pin ++ ", " ++ value ++ ");" }]
  | .connectWifi ssid password =>
      { text := "WiFi.begin(" ++ ssid ++ ".c_str(), " ++ password ++ ".c_str());" } ::
        CodeLine.block "while (WiFi.status() != WL_CONNECTED) "
          [{ text := "delay(" ++ toString networkPoll ++ ");" }]
  | .wait time => [{ text := "delay(" ++ time ++ ");" }]
  | .turnOn pin => [{ text := "digitalWrite(" ++ pin ++ ", HIGH);" }]
  | .turnOff pin => [{ text := "digitalWrite(" ++ pin ++ ", LOW);" }]
  | .sendHttp url data =>
      CodeLine.block ""
        [{ text := "HTTPClient http;" },
          { text := "http.begin(" ++ url ++ ");" },
          { text := "http.addHeader(\"Content-Type\", " ++
              "\"application/x-www-form-urlencoded\");" },
          { text := "http.POST(" ++ data ++ ");" },
          { text := "http.end();" }]
  | .configureSerial baud => [{ text := "Serial.begin(" ++ toString baud ++ ");" }]
  | .writeSerial message => [{ text := "Serial.println(" ++ message ++ ");" }]
  | .readSerial =>
      CodeLine.block "" [{ text := "String valor = Serial.readStringUntil('\\n');" }]
  | .readDigital target pin => [{ text := target ++ " = digitalRead(" ++ pin ++ ");" }]
  | .readAnalog target pin => [{ text := target ++ " = analogRead(" ++ pin ++ ");" }]
  | .conditional condition =>
      [{ text := "// se " ++ condition ++ ": comandos aninhados não expandidos" }]
  | .whileLoop condition =>
      [{ text := "// enquanto " ++ condition ++ ": comandos aninhados não expandidos" }]
  | .undefined => []

namespace Sketch

/-- The headers of the libraries that the commands use. -/
def headers : List CodeLine :=
  ["Arduino.h", "WiFi.h", "HTTPClient.h"].map fun name =>
    { text := "#include <" ++ name ++ ">" }

/-- The global variables, below a heading. -/
def globals (declarations : List Declaration) : List CodeLine :=
  {} :: { text := "// ========== Variáveis Globais ==========" } ::
    declarations.map Declaration.code

/-- The constants of the PWM channels, below a heading if there are any. -/
def channels (channels : PwmChannels) : List CodeLine :=
  if channels.bindings.isEmpty then
    []
  else
    {} :: { text := "// ========== Canais PWM ==========" } ::
      channels.bindings.flatMap fun binding => binding.2.code binding.1

/-- A function with the code of a list of commands. -/
def function (name : String) (commands : List Command) : List CodeLine :=
  {} :: CodeLine.block ("void " ++ name ++ "() ") (commands.flatMap Command.code)

end Sketch

def Program.code (program : Program) : List CodeLine :=
  Sketch.headers ++ Sketch.globals program.declarations ++
    Sketch.channels (PwmChannels.allocate program.setup) ++
    Sketch.function "setup" program.setup ++ Sketch.function "loop" program.loop

def Program.generate (program : Program) : String :=
  String.join (program.code.map CodeLine.render)

end Firmware
