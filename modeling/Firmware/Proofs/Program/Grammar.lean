import Firmware.Program.Basic
import Firmware.Proofs.Expression.Grammar

/-! # The grammar of programs

Which tokens are a program, and which one they are: lines that declare variables,
then the commands that run once, then those that run over and over. -/

namespace Firmware

inductive Keyword.NamesType : Keyword → VarType → Prop
  | inteiro : NamesType .inteiro .integer
  | texto : NamesType .texto .text
  | booleano : NamesType .booleano .boolean

inductive Keyword.NamesDirection : Keyword → PinDirection → Prop
  | saida : NamesDirection .saida .output
  | entrada : NamesDirection .entrada .input

/-- A token that is an operand by itself, and its text. -/
inductive Token.IsOperand : Token → String → Prop
  | text (content : String) : IsOperand (.text content) ("\"" ++ content ++ "\"")
  | identifier (name : String) : IsOperand (.identifier name) name
  | integer (value : Int) : IsOperand (.integer value) (toString value)

/-- Zero or more pieces of one kind, one behind the other. -/
inductive Sequence {α : Type} (Piece : List Token → α → Prop) : List Token → List α → Prop
  | nil : Sequence Piece [] []
  | cons {first value rest values} :
      Piece first value → Sequence Piece rest values →
      Sequence Piece (first ++ rest) (value :: values)

namespace Declaration

inductive Names : List Token → List String → Prop
  | single (name : String) : Names [.identifier name] [name]
  | more {name tokens names} :
      Names tokens names →
      Names (.identifier name :: .comma :: tokens) (name :: names)

/-- A line declares all its names with its type. -/
inductive Line : List Token → List Declaration → Prop
  | intro {word type tokens names} :
      Keyword.NamesType word type → Names tokens names →
      Line (.keyword .var :: .keyword word :: .colon :: tokens ++ [.semicolon])
        (names.map fun name => { name, type })

end Declaration

namespace Command

inductive Derives : List Token → Command → Prop
  | assign {target tokens value text} :
      Phrase.expression.Derives tokens value text →
      Derives (.identifier target :: .assign :: tokens ++ [.semicolon]) (.assign target text)
  | readDigital (target pin : String) :
      Derives [.identifier target, .assign, .keyword .lerDigital, .identifier pin, .semicolon]
        (.readDigital target pin)
  | readAnalog (target pin : String) :
      Derives [.identifier target, .assign, .keyword .lerAnalogico, .identifier pin, .semicolon]
        (.readAnalog target pin)
  | configurePin {pin word direction} :
      Keyword.NamesDirection word direction →
      Derives [.keyword .configurar, .identifier pin, .keyword .como, .keyword word, .semicolon]
        (.configurePin pin direction)
  | configurePwm (pin : String) (frequency resolution : Int) :
      Derives [.keyword .configurarPWM, .identifier pin, .keyword .com, .keyword .frequencia,
          .integer frequency, .keyword .resolucao, .integer resolution, .semicolon]
        (.configurePwm pin frequency resolution)
  | configurePwmWithComma (pin : String) (frequency resolution : Int) :
      Derives [.keyword .configurarPWM, .identifier pin, .keyword .com, .keyword .frequencia,
          .integer frequency, .comma, .keyword .resolucao, .integer resolution, .semicolon]
        (.configurePwm pin frequency resolution)
  | adjustPwm {pin tokens value text} :
      Phrase.expression.Derives tokens value text →
      Derives (.keyword .ajustarPWM :: .identifier pin :: .keyword .com :: .keyword .valor ::
          tokens ++ [.semicolon])
        (.adjustPwm pin text)
  | connectWifi {first second ssid password} :
      Token.IsOperand first ssid → Token.IsOperand second password →
      Derives [.keyword .conectarWifi, first, second, .semicolon] (.connectWifi ssid password)
  | wait {tokens value text} :
      Phrase.expression.Derives tokens value text →
      Derives (.keyword .esperar :: tokens ++ [.semicolon]) (.wait text)
  | turnOn (pin : String) :
      Derives [.keyword .ligar, .identifier pin, .semicolon] (.turnOn pin)
  | turnOff (pin : String) :
      Derives [.keyword .desligar, .identifier pin, .semicolon] (.turnOff pin)
  | sendHttp {first second url data} :
      Token.IsOperand first url → Token.IsOperand second data →
      Derives [.keyword .enviarHttp, first, second, .semicolon] (.sendHttp url data)
  | configureSerial (baud : Int) :
      Derives [.keyword .configurarSerial, .integer baud, .semicolon] (.configureSerial baud)
  | writeSerial {tokens value text} :
      Phrase.expression.Derives tokens value text →
      Derives (.keyword .escreverSerial :: tokens ++ [.semicolon]) (.writeSerial text)
  | readSerial : Derives [.keyword .lerSerial, .semicolon] .readSerial
  | conditional {tokens value text} :
      Phrase.expression.Derives tokens value text →
      Derives (.keyword .se :: tokens ++ [.keyword .entao, .keyword .fim]) (.conditional text)
  | whileLoop {tokens value text} :
      Phrase.expression.Derives tokens value text →
      Derives (.keyword .enquanto :: tokens ++ [.keyword .fim]) (.whileLoop text)

end Command

/-- The tokens of a whole program. -/
inductive Program.Derives : List Token → Program → Prop
  | intro {heading lines setupTokens setup loopTokens loop} :
      Sequence Declaration.Line heading lines →
      Sequence Command.Derives setupTokens setup →
      Sequence Command.Derives loopTokens loop →
      Derives
        (heading ++ .keyword .config :: setupTokens ++ .keyword .fim ::
          .keyword .repita :: loopTokens ++ [.keyword .fim])
        { declarations := lines.flatten, setup, loop }

end Firmware
