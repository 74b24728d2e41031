/-! # Keywords

The reserved words of the language. A word of a source is a keyword in any mix of
upper and lower case; messages show the spelling given here. -/

namespace Firmware

inductive Keyword where
  | var
  | inteiro
  | texto
  | booleano
  | config
  | repita
  | fim
  | configurar
  | como
  | saida
  | entrada
  | configurarPWM
  | ajustarPWM
  | com
  | frequencia
  | resolucao
  | valor
  | conectarWifi
  | esperar
  | ligar
  | desligar
  | enviarHttp
  | configurarSerial
  | escreverSerial
  | lerSerial
  | lerDigital
  | lerAnalogico
  | se
  | entao
  | senao
  | enquanto
  | verdadeiro
  | falso
  deriving DecidableEq, Repr

/-- Whether two texts agree up to the case of their ASCII letters. -/
def sameIgnoringCase (first second : String) : Bool :=
  decide (first.toList.map Char.toLower = second.toList.map Char.toLower)

namespace Keyword

/-- The word as the language writes it. -/
def spelling : Keyword → String
  | .var => "var"
  | .inteiro => "inteiro"
  | .texto => "texto"
  | .booleano => "booleano"
  | .config => "config"
  | .repita => "repita"
  | .fim => "fim"
  | .configurar => "configurar"
  | .como => "como"
  | .saida => "saida"
  | .entrada => "entrada"
  | .configurarPWM => "configurarPWM"
  | .ajustarPWM => "ajustarPWM"
  | .com => "com"
  | .frequencia => "frequencia"
  | .resolucao => "resolucao"
  | .valor => "valor"
  | .conectarWifi => "conectarWifi"
  | .esperar => "esperar"
  | .ligar => "ligar"
  | .desligar => "desligar"
  | .enviarHttp => "enviarHttp"
  | .configurarSerial => "configurarSerial"
  | .escreverSerial => "escreverSerial"
  | .lerSerial => "lerSerial"
  | .lerDigital => "lerDigital"
  | .lerAnalogico => "lerAnalogico"
  | .se => "se"
  | .entao => "entao"
  | .senao => "senao"
  | .enquanto => "enquanto"
  | .verdadeiro => "verdadeiro"
  | .falso => "falso"

def all : List Keyword :=
  [.var, .inteiro, .texto, .booleano, .config, .repita, .fim, .configurar, .como,
    .saida, .entrada, .configurarPWM, .ajustarPWM, .com, .frequencia, .resolucao,
    .valor, .conectarWifi, .esperar, .ligar, .desligar, .enviarHttp,
    .configurarSerial, .escreverSerial, .lerSerial, .lerDigital, .lerAnalogico,
    .se, .entao, .senao, .enquanto, .verdadeiro, .falso]

theorem mem_all (keyword : Keyword) : keyword ∈ all := by
  cases keyword <;> decide

/-- The keyword that a word is, whatever the case of its letters. -/
def ofWord? (word : String) : Option Keyword :=
  all.find? fun keyword => sameIgnoringCase keyword.spelling word

theorem ofWord?_spelling (keyword : Keyword) : ofWord? keyword.spelling = some keyword := by
  cases keyword <;> decide

end Keyword

end Firmware
