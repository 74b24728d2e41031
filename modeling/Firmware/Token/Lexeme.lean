import Firmware.Source.Line
import Firmware.Text.Quoted
import Firmware.Token.Basic

/-! # Lexemes

A lexeme is a token of which some characters have been read. It says how each
further character extends it, and which token it is once it can grow no more. -/

namespace Firmware

/-- A fault in the characters of a source. -/
inductive LexicalError where
  | input (error : InputError)
  | badCharacter (character : Char)
  | expected (character : Char)
  | integerOverflow
  | unterminatedText
  deriving DecidableEq, Repr

/-- The largest integer that a source may write. -/
def largestInteger : Nat := 2147483647

def LexicalError.message : LexicalError → String
  | .input _ => "I/O error"
  | .badCharacter character => "Bad character " ++ quoted character ++ " in input stream"
  | .expected character => "Expected " ++ quoted character
  | .integerOverflow =>
      "Integer literal overflow, valid range is [0, " ++ toString largestInteger ++ "]"
  | .unterminatedText => "Unterminated string literal"

/-- A character that is a token of its own or, with `=` behind it, a longer one. -/
inductive Sign where
  | equals
  | less
  | greater
  | bang
  deriving DecidableEq, Repr

namespace Sign

/-- The token of a sign without `=` behind it. There is none for `!`. -/
def alone : Sign → Except LexicalError Token
  | .equals => .ok .assign
  | .less => .ok (.operator .less)
  | .greater => .ok (.operator .greater)
  | .bang => .error (.expected '=')

def withEquals : Sign → Token
  | .equals => .operator .equal
  | .less => .operator .lessOrEqual
  | .greater => .operator .greaterOrEqual
  | .bang => .operator .notEqual

end Sign

/-- The beginning of a token. -/
inductive Lexeme where
  | complete (token : Token)
  | slash
  | sign (kind : Sign)
  | integer (value : Nat)
  | word (letters : String)
  | text (content : String)
  | escape (content : String)
  deriving DecidableEq, Repr

def isWordStart (character : Char) : Bool :=
  character.isAlpha || character == '_'

def isWordPart (character : Char) : Bool :=
  character.isAlphanum || character == '_'

def digitValue (digit : Char) : Nat :=
  digit.toNat - '0'.toNat

/-- What a character does to a lexeme. -/
inductive Extension where
  /-- It is one more character of the token. -/
  | grown (lexeme : Lexeme)
  /-- It shows that the lexeme starts a comment. -/
  | comment
  /-- It would belong to the token, but the token would not be a valid one. -/
  | refused (error : LexicalError)
  /-- It is no part of the token. -/
  | ended
  deriving DecidableEq, Repr

namespace Lexeme

/-- The lexeme that a character starts, if it can start a token. -/
def start (character : Char) : Option Lexeme :=
  match character with
  | ':' => some (.complete .colon)
  | ';' => some (.complete .semicolon)
  | ',' => some (.complete .comma)
  | '+' => some (.complete (.operator .plus))
  | '-' => some (.complete (.operator .minus))
  | '*' => some (.complete (.operator .times))
  | '(' => some (.complete .openParen)
  | ')' => some (.complete .closeParen)
  | '/' => some .slash
  | '"' => some (.text "")
  | '=' => some (.sign .equals)
  | '<' => some (.sign .less)
  | '>' => some (.sign .greater)
  | '!' => some (.sign .bang)
  | character =>
      if isWordStart character then some (.word character.toString)
      else if character.isDigit then some (.integer (digitValue character))
      else none

/-- What the next character does to a lexeme. Integers may not exceed the largest
one, and texts may not go on behind the end of their line. -/
def extend : Lexeme → Char → Extension
  | .complete _, _ => .ended
  | .slash, character => if character = '/' then .comment else .ended
  | .sign kind, character =>
      if character = '=' then .grown (.complete kind.withEquals) else .ended
  | .integer value, character =>
      if character.isDigit then
        let extended := 10 * value + digitValue character
        if extended ≤ largestInteger then .grown (.integer extended)
        else .refused .integerOverflow
      else
        .ended
  | .word letters, character =>
      if isWordPart character then .grown (.word (letters.push character)) else .ended
  | .text content, character =>
      if character = '\n' then .ended
      else if character = '"' then .grown (.complete (.text content))
      else if character = '\\' then .grown (.escape (content.push character))
      else .grown (.text (content.push character))
  | .escape content, character =>
      if character = '\n' then .ended
      else .grown (.text (content.push character))

/-- The token of a lexeme that grows no more. -/
def settle : Lexeme → Except LexicalError Token
  | .complete token => .ok token
  | .slash => .ok (.operator .divide)
  | .sign kind => kind.alone
  | .integer value => .ok (.integer value)
  | .word letters =>
      match Keyword.ofWord? letters with
      | some keyword => .ok (.keyword keyword)
      | none => .ok (.identifier letters)
  | .text _ | .escape _ => .error .unterminatedText

end Lexeme

end Firmware
