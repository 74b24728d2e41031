import Firmware.Source.Line
import Firmware.Source.Location

/-! # The characters of a source

A source is read character by character, each line followed by a newline. With
every character comes the location of the one behind it, so that a reader knows
at any time where the next character will stand. A line that cannot be read
gives one failure in place of its characters, and nothing follows. -/

namespace Firmware

/-- A named sequence of lines, `none` for one that cannot be read. -/
structure Source where
  name : String
  lines : List (Option String)
  deriving DecidableEq, Repr

/-- One item of a character stream: a character with the location behind it, or
the error of an attempt to read that failed. -/
inductive Item where
  | character (value : Char) (next : Location)
  | failure (error : InputError)
  deriving DecidableEq, Repr

/-- What the lines of a source hold, before any location is known: characters,
and `none` for a line that cannot be read. -/
def Line.characters : List (Option String) → List (Option Char)
  | [] => []
  | none :: _ => [none]
  | some line :: rest => line.toList.map some ++ some '\n' :: characters rest

/-- Adds to every character the location of the one behind it. -/
def Item.locate (name : String) (position : Position) : List (Option Char) → List Item
  | [] => []
  | none :: rest => .failure .unreadable :: locate name position rest
  | some value :: rest =>
      .character value (Location.single name (position.after value)) ::
        locate name (position.after value) rest

namespace Source

/-- The source that some bytes hold. Lines that are no text cannot be read. -/
def ofBytes (name : String) (bytes : List UInt8) : Source :=
  { name, lines := (Line.split bytes).map Line.decode }

/-- A source of which not even the first line can be read. -/
def unreadable (name : String) : Source :=
  { name, lines := [none] }

def start (source : Source) : Location :=
  Location.single source.name {}

def items (source : Source) : List Item :=
  Item.locate source.name {} (Line.characters source.lines)

/-- The lines known after the first `reads` items have been read. -/
def reached (source : Source) (reads : Nat) : List String :=
  Line.reached reads source.lines

/-- The lines known after the whole stream has been read. -/
def readable (source : Source) : List String :=
  Line.readable source.lines

/-- The locations delivered with the characters among `items`, behind that of the
first character. -/
def locations (source : Source) (items : List Item) : List Location :=
  source.start :: items.filterMap fun
    | .character _ next => some next
    | .failure _ => none

end Source

end Firmware
