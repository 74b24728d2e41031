/-! # Command-line arguments -/

namespace Firmware.CommandLine

/-- Where to read from or to write to. -/
inductive Endpoint where
  | standard
  | file (path : String)
  deriving DecidableEq, Repr

/-- A single hyphen stands for the standard stream. -/
def Endpoint.ofArgument (argument : String) : Endpoint :=
  if argument = "-" then .standard else .file argument

/-- What a run is asked to do. -/
structure Options where
  input : Endpoint
  output : Endpoint := .standard
  check : Bool := false
  verbose : Bool := false
  deriving DecidableEq, Repr

/-- A request to print the version, or to compile. -/
inductive Request where
  | version
  | compile (options : Options)
  deriving DecidableEq, Repr

/-- Why arguments make no request. -/
inductive UsageError where
  | missingInput
  | missingValue (flag : String)
  | repeatedArgument (argument : String)
  | unknownArgument (argument : String)
  deriving DecidableEq, Repr

def UsageError.message : UsageError → String
  | .missingInput => "error: Missing argument <INPUT>\n"
  | .missingValue flag => "error: The argument " ++ flag ++ " requires a value\n"
  | .repeatedArgument argument =>
      "error: The argument " ++ argument ++ " was given more than once\n"
  | .unknownArgument argument => "error: Unexpected argument " ++ argument ++ "\n"

/-- The arguments read so far. -/
structure Arguments where
  input : Option Endpoint := none
  output : Option Endpoint := none
  check : Bool := false
  verbose : Bool := false
  deriving DecidableEq, Repr

/-- Whether an argument is a flag rather than a value. -/
def isFlag (argument : String) : Bool :=
  argument.toList.head? = some '-' && argument ≠ "-"

namespace Arguments

/-- The request that the arguments make together. -/
def finish (arguments : Arguments) : Except UsageError Request :=
  match arguments.input with
  | none => .error .missingInput
  | some input =>
      .ok (.compile
        { input, output := arguments.output.getD .standard
          check := arguments.check, verbose := arguments.verbose })

/-- Takes an argument for the input, of which there is one. -/
def takeInput (arguments : Arguments) (argument : String) : Except UsageError Arguments :=
  if arguments.input.isSome then .error (.unknownArgument argument)
  else .ok { arguments with input := some (.ofArgument argument) }

/-- Reads arguments from left to right. Behind a double hyphen there are no flags.

A flag is an argument of its own, and its value is the next argument. The shorter spellings that
join several of them into one argument are not known here and are refused: a value behind its
flag (`-oFILE`, `--output=FILE`) and short flags in a row (`-vo FILE`). Nor is there a flag that
asks for help. -/
def read (arguments : Arguments) : List String → Except UsageError Request
  | [] => arguments.finish
  | argument :: rest =>
      if argument = "--" then do
        (← rest.foldlM takeInput arguments).finish
      else if argument = "--check" then
        if arguments.check then .error (.repeatedArgument argument)
        else read { arguments with check := true } rest
      else if argument = "-v" ∨ argument = "--verbose" then
        if arguments.verbose then .error (.repeatedArgument argument)
        else read { arguments with verbose := true } rest
      else if argument = "-o" ∨ argument = "--output" then
        match rest with
        | [] => .error (.missingValue argument)
        | value :: rest =>
            if isFlag value then .error (.missingValue argument)
            else if arguments.output.isSome then .error (.repeatedArgument argument)
            else read { arguments with output := some (.ofArgument value) } rest
      else if isFlag argument then
        .error (.unknownArgument argument)
      else
        match arguments.takeInput argument with
        | .ok arguments => arguments.read rest
        | .error error => .error error

end Arguments

/-- Whether a flag among the arguments asks for the version. -/
def asksVersion (arguments : List String) : Bool :=
  (arguments.takeWhile (· ≠ "--")).any fun argument =>
    argument == "--version" || argument == "-V"

/-- The request that a list of arguments makes. The version is printed whatever else
the arguments say. -/
def Request.ofArguments (arguments : List String) : Except UsageError Request :=
  if asksVersion arguments then .ok .version else Arguments.read {} arguments

end Firmware.CommandLine
