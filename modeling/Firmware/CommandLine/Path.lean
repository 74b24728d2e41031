import Firmware.CommandLine.Console

/-! # Paths

A path is a list of names with slashes between them. Several slashes count as one;
one in front starts at the root, and one behind the last name asks for a
directory. -/

namespace Firmware.CommandLine

/-- A path, split at its slashes. -/
structure Path where
  /-- Whether the path starts at the root. -/
  absolute : Bool
  names : List String
  /-- Whether a slash stands behind the last name. -/
  slashed : Bool
  deriving DecidableEq, Repr

namespace Path

/-- The largest number of bytes in a path. -/
def limit : Nat := 4095

/-- The largest number of bytes in a name. -/
def nameLimit : Nat := 255

/-- What stands between the slashes of a path, which may be nothing. -/
def split : List Char → List (List Char)
  | [] => [[]]
  | character :: rest =>
      if character = '/' then
        [] :: split rest
      else
        match split rest with
        | [] => [[character]]
        | name :: names => (character :: name) :: names

/-- The path that a text writes. It must not be empty, nor too long. -/
def ofText (text : String) : Except SystemError Path :=
  if text.isEmpty then
    .error .noSuchFile
  else if (utf8 text).length > limit then
    .error .nameTooLong
  else
    .ok {
      absolute := text.toList.head? = some '/'
      names := ((split text.toList).filter (· ≠ [])).map String.ofList
      slashed := text.toList.getLast? = some '/' }

/-- Whether a name stands for a directory that every directory knows: itself, or the
one around it. -/
def isDots (name : String) : Bool :=
  name == "." || name == ".."

/-- Whether a name is longer than the name of a file can be. -/
def isTooLong (name : String) : Bool :=
  decide ((utf8 name).length > nameLimit)

end Path

end Firmware.CommandLine
