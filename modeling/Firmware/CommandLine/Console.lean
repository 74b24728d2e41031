import Firmware.Build
import Firmware.CommandLine.Options
import Firmware.Sketch.Output

/-! # Runs of the command

What a run does is said once, in terms of the few operations that it needs of its
surroundings. -/

namespace Firmware.CommandLine

/-- A failure of the operating system, with its number. -/
structure SystemError where
  description : String
  code : Nat
  deriving DecidableEq, Repr

def SystemError.message (error : SystemError) : String :=
  error.description ++ " (os error " ++ toString error.code ++ ")"

namespace SystemError

/-- There is nothing of a given name, or no directory to put it in. -/
def noSuchFile : SystemError :=
  { description := "No such file or directory", code := 2 }

/-- Something other than a directory is used as one. -/
def notDirectory : SystemError :=
  { description := "Not a directory", code := 20 }

/-- A directory is used as a file. -/
def isDirectory : SystemError :=
  { description := "Is a directory", code := 21 }

/-- A name or a path has too many bytes. -/
def nameTooLong : SystemError :=
  { description := "File name too long", code := 36 }

end SystemError

/-- What a run can ask of its surroundings. -/
class Console (m : Type → Type) where
  /-- All bytes of the standard input. -/
  readStandard : m (List UInt8)
  /-- All bytes of what a path leads to, and `none` if it can be opened but not read,
  as with a directory. -/
  readFile : String → m (Except SystemError (Option (List UInt8)))
  /-- Makes a file empty, or a new one if there is none. -/
  createFile : String → m (Except SystemError Unit)
  /-- Writes a text to a file that has been created. -/
  writeFile : String → String → m (Except SystemError Unit)
  /-- Writes a text to the standard output. -/
  print : String → m (Except SystemError Unit)
  /-- Writes a text to the standard error. -/
  log : String → m Unit

/-- The status with which a run ends. -/
inductive Status where
  | success
  | failure
  | misuse
  deriving DecidableEq, Repr

/-- The number of a status. -/
def Status.code : Status → Nat
  | .success => 0
  | .failure => 1
  | .misuse => 2

/-- The name and the version of the command. -/
def version : String := "ESP32 DSL compiler 1.0.0\n"

/-- A failure of the system, below what was tried. -/
def failureText (context : String) (error : SystemError) : String :=
  "Error: " ++ context ++ "\n\nCaused by:\n    " ++ error.message ++ "\n"

/-- What a verbose run says of a program that has passed the analysis. -/
def summary (program : Program) : String :=
  "Semantic analysis finished without errors (" ++
    toString program.declarations.length ++ " declarations, " ++
    toString program.commands.length ++ " commands)\n"

section

variable {m : Type → Type} [Monad m] [Console m]

/-- Logs a failure of the system. -/
def fail (context : String) (error : SystemError) : m Status := do
  Console.log (failureText context error)
  return .failure

/-- Writes the sketch of an accepted program. -/
def deliver (options : Options) (program : Program) : m Status :=
  match options.output with
  | .standard => do
      match ← Console.print program.generate with
      | .error error => fail "Failed to emit to stdout" error
      | .ok _ => return .success
  | .file path => do
      match ← Console.createFile path with
      | .error error => fail ("Failed to open for writing: " ++ path) error
      | .ok _ =>
          match ← Console.writeFile path program.generate with
          | .error error => fail ("Failed to emit to file: " ++ path) error
          | .ok _ => do
              if options.verbose then
                Console.log ("C++ code written to " ++ path ++ "\n")
              return .success

/-- Compiles a source as the options say. A rejected one is reported, and nothing
is written for it. -/
def build (options : Options) (source : Source) : m Status :=
  match source.accept with
  | .error rejection => do
      Console.log (rejection.report source).render
      return .failure
  | .ok program => do
      if options.verbose then
        Console.log (summary program)
      if options.check then
        return .success
      else
        deliver options program

/-- Compiles the source that the options name. -/
def compile (options : Options) : m Status :=
  match options.input with
  | .standard => do
      build options (Source.ofBytes "<stdin>" (← Console.readStandard))
  | .file path => do
      match ← Console.readFile path with
      | .error error => fail ("Failed to open for reading: " ++ path) error
      | .ok (some bytes) => build options (Source.ofBytes path bytes)
      | .ok none => build options (Source.unreadable path)

/-- Runs the command with the given arguments. -/
def run (arguments : List String) : m Status := do
  match Request.ofArguments arguments with
  | .error error => do
      Console.log error.message
      return .misuse
  | .ok .version =>
      match ← Console.print version with
      | .error error => fail "Failed to emit to stdout" error
      | .ok _ => return .success
  | .ok (.compile options) => compile options

end

end Firmware.CommandLine
