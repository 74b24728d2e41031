import Firmware.Program.CommandForm
import Firmware.Source.Location

/-! # Reading programs

A program is read token by token: declarations, the `config` block, the `repita`
block, and nothing behind them. The first token that no program could have in its
place is an error there. -/

namespace Firmware

/-- The two blocks of a program. -/
inductive Block where
  | setup
  | loop
  deriving DecidableEq, Repr

/-- How far the reader of a program has come. -/
inductive Stage where
  /-- Before a declaration or the first block. -/
  | heading
  /-- Inside a declaration. -/
  | declaration (form : Form (List Declaration))
  /-- Before a command or the end of a block. -/
  | commands (block : Block)
  /-- Inside a command. -/
  | command (block : Block) (form : Form Command)
  /-- Between the blocks. -/
  | separator
  /-- Behind the second block. -/
  | complete

/-- The part of a program that has been read, and what is being read. -/
structure Draft where
  program : Program := {}
  stage : Stage := .heading

/-- A program with one more command in a block. -/
def Program.append (program : Program) (command : Command) : Block → Program
  | .setup => { program with setup := program.setup ++ [command] }
  | .loop => { program with loop := program.loop ++ [command] }

namespace Stage

/-- The stage behind the end of a block. -/
def afterBlock : Block → Stage
  | .setup => .separator
  | .loop => .complete

/-- What is wrong if the tokens end at a stage. -/
def missing : Stage → Option SyntaxError
  | .heading => some (.missingToken (.keyword .config))
  | .declaration form => some form.missing
  | .commands _ => some .unexpectedEnd
  | .command _ form => some form.missing
  | .separator => some (.missingToken (.keyword .repita))
  | .complete => none

end Stage

namespace Draft

/-- Reads the first token of a command, or the `fim` behind the last one. -/
def enterCommand (program : Program) (block : Block) :
    Token → Except SyntaxError Draft
  | .identifier target =>
      .ok { program, stage := .command block (Command.assignment target) }
  | .keyword .fim => .ok { program, stage := .afterBlock block }
  | .keyword word =>
      match Command.form word with
      | some form => .ok { program, stage := .command block form }
      | none => .error .expectedCommand
  | _ => .error .expectedCommand

def step (draft : Draft) (token : Token) : Except SyntaxError Draft :=
  match draft.stage with
  | .heading =>
      if token = .keyword .var then
        .ok { draft with stage := .declaration Declaration.form }
      else if token = .keyword .config then
        .ok { draft with stage := .commands .setup }
      else
        .error (.unexpectedToken (.keyword .config) token)
  | .declaration form =>
      match form.step token with
      | .ok (.more form) => .ok { draft with stage := .declaration form }
      | .ok (.done declarations) =>
          .ok { program :=
                  { draft.program with
                    declarations := draft.program.declarations ++ declarations }
                stage := .heading }
      | .error error => .error error
  | .commands block => enterCommand draft.program block token
  | .command block form =>
      match form.step token with
      | .ok (.more form) => .ok { draft with stage := .command block form }
      | .ok (.done command) =>
          .ok { program := draft.program.append command block
                stage := .commands block }
      | .error error => .error error
  | .separator =>
      if token = .keyword .repita then
        .ok { draft with stage := .commands .loop }
      else
        .error (.unexpectedToken (.keyword .repita) token)
  | .complete => .error .trailingInput

/-- Reads all tokens. An error lies at the token that shows it; if the tokens end
too early, it lies at the last one, which `last` locates. -/
def read (draft : Draft) (last : Location) :
    List (Located Token) → Except (Located SyntaxError) Program
  | [] =>
      match draft.stage.missing with
      | none => .ok draft.program
      | some error => .error { value := error, location := last }
  | token :: rest =>
      match draft.step token.value with
      | .ok draft => draft.read token.location rest
      | .error error => .error { value := error, location := token.location }

end Draft

/-- Reads a program from the tokens of a source that begins at `start`. -/
def parse (start : Location) (tokens : List (Located Token)) :
    Except (Located SyntaxError) Program :=
  Draft.read {} start tokens

end Firmware
