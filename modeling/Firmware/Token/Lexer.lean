import Firmware.Source.Stream
import Firmware.Text.Blank
import Firmware.Token.Lexeme

/-! # From characters to tokens

The lexer goes once over a character stream. Between tokens it skips blank
characters; a token ends before the first character that is no part of it, and a
comment runs to the end of its line. After an error the rest of the line is
skipped, so that errors of later lines are found as well. -/

namespace Firmware

/-- A token or an error, with its location. -/
abbrev Lexed := Except (Located LexicalError) (Located Token)

/-- What the lexer is in the middle of. A lexeme comes with the locations of its
first and its last character. -/
inductive LexerMode where
  | between
  | comment
  | recovering
  | within (lexeme : Lexeme) (first last : Location)
  deriving DecidableEq, Repr

namespace LexerMode

/-- The mode behind a character that is skipped after an error. -/
def recover (character : Char) : LexerMode :=
  if character = '\n' then .between else .recovering

/-- Reads a character that stands between tokens at the location `here`. -/
def enter (here : Location) (character : Char) : List Lexed × LexerMode :=
  match Lexeme.start character with
  | some lexeme => ([], .within lexeme here here)
  | none =>
      if isBlank character then
        ([], .between)
      else
        ([.error { value := .badCharacter character, location := here }],
          recover character)

/-- Reads the character at the location `here`. A token is delivered when the
character behind it is read, and an error lies at the character that shows it. -/
def step (mode : LexerMode) (here : Location) (character : Char) :
    List Lexed × LexerMode :=
  match mode with
  | .between => enter here character
  | .comment => ([], if character = '\n' then .between else .comment)
  | .recovering => ([], recover character)
  | .within lexeme first last =>
      match lexeme.extend character with
      | .grown lexeme => ([], .within lexeme first here)
      | .comment => ([], .comment)
      | .refused error => ([.error { value := error, location := here }], recover character)
      | .ended =>
          match lexeme.settle with
          | .ok token =>
              let entered := enter here character
              (.ok { value := token, location := first.span last } :: entered.1, entered.2)
          | .error error =>
              ([.error { value := error, location := here }], recover character)

/-- What is left to deliver when the stream ends at the location `here`. -/
def finish (mode : LexerMode) (here : Location) : List Lexed :=
  match mode with
  | .within lexeme first last =>
      match lexeme.settle with
      | .ok token => [.ok { value := token, location := first.span last }]
      | .error error => [.error { value := error, location := here }]
  | _ => []

/-- All that is delivered for the items of a stream whose first character stands
at the location `here`. A failed read gives up the token under way. -/
def run (mode : LexerMode) (here : Location) : List Item → List Lexed
  | [] => mode.finish here
  | .failure error :: rest =>
      .error { value := .input error, location := here } :: run .recovering here rest
  | .character value next :: rest =>
      let stepped := mode.step here value
      stepped.1 ++ run stepped.2 next rest

end LexerMode

/-- The tokens and errors of a character stream that begins at `start`. -/
def lex (start : Location) (items : List Item) : List Lexed :=
  LexerMode.between.run start items

namespace Lexed

def token? : Lexed → Option (Located Token)
  | .ok token => some token
  | .error _ => none

def error? : Lexed → Option (Located LexicalError)
  | .ok _ => none
  | .error error => some error

/-- All the tokens if there is no error, else all the errors. -/
def collect (outcomes : List Lexed) :
    Except (List (Located LexicalError)) (List (Located Token)) :=
  match outcomes.filterMap error? with
  | [] => .ok (outcomes.filterMap token?)
  | errors => .error errors

end Lexed

/-- The tokens of a source, or its lexical errors. -/
def Source.tokens (source : Source) :
    Except (List (Located LexicalError)) (List (Located Token)) :=
  Lexed.collect (lex source.start source.items)

end Firmware
