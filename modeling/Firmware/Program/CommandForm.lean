import Firmware.Program.Form

/-! # The forms of declarations and commands -/

namespace Firmware

/-- What follows `var`: a type, a colon, and one name or more. -/
def Declaration.form : Form (List Declaration) :=
  .type fun type =>
    .token .colon <|
    .identifier fun name =>
    .names [name] fun names =>
    .closing .semicolon (names.map fun name => { name, type })

namespace Command

/-- What follows the variable at the start of an assignment. The value is read from
a pin or given by an expression. -/
def assignment (target : String) : Form Command :=
  .token .assign <|
  .branch (.keyword .lerDigital)
    (.identifier fun pin => .closing .semicolon (.readDigital target pin)) <|
  .branch (.keyword .lerAnalogico)
    (.identifier fun pin => .closing .semicolon (.readAnalog target pin)) <|
  .expression .empty fun value =>
  .closing .semicolon (.assign target value)

/-- What follows the keyword at the start of a command, if it can stand there. -/
def form : Keyword → Option (Form Command)
  | .configurar => some <|
      .identifier fun pin =>
      .token (.keyword .como) <|
      .direction fun direction =>
      .closing .semicolon (.configurePin pin direction)
  | .configurarPWM => some <|
      .identifier fun pin =>
      .token (.keyword .com) <|
      .token (.keyword .frequencia) <|
      .integer fun frequency =>
      let resolved : Form Command :=
        .token (.keyword .resolucao) <|
        .integer fun resolution =>
        .closing .semicolon (.configurePwm pin frequency resolution)
      .branch .comma resolved resolved
  | .ajustarPWM => some <|
      .identifier fun pin =>
      .token (.keyword .com) <|
      .token (.keyword .valor) <|
      .expression .empty fun value =>
      .closing .semicolon (.adjustPwm pin value)
  | .conectarWifi => some <|
      .operand fun ssid =>
      .operand fun password =>
      .closing .semicolon (.connectWifi ssid password)
  | .esperar => some <|
      .expression .empty fun time =>
      .closing .semicolon (.wait time)
  | .ligar => some <|
      .identifier fun pin =>
      .closing .semicolon (.turnOn pin)
  | .desligar => some <|
      .identifier fun pin =>
      .closing .semicolon (.turnOff pin)
  | .enviarHttp => some <|
      .operand fun url =>
      .operand fun data =>
      .closing .semicolon (.sendHttp url data)
  | .configurarSerial => some <|
      .integer fun baud =>
      .closing .semicolon (.configureSerial baud)
  | .escreverSerial => some <|
      .expression .empty fun message =>
      .closing .semicolon (.writeSerial message)
  | .lerSerial => some <|
      .closing .semicolon .readSerial
  | .se => some <|
      .expression .empty fun condition =>
      .token (.keyword .entao) <|
      .emptyBody (.conditional condition)
  | .enquanto => some <|
      .expression .empty fun condition =>
      .emptyBody (.whileLoop condition)
  | _ => none

end Command

end Firmware
