/-! # Lines of a source

A source is a sequence of bytes. A line ends at a line feed, which is no part of
it, and neither is a carriage return right before that line feed. What follows
the last line feed is a line of its own, unless nothing follows. -/

namespace Firmware

/-- Why the input cannot be read, in the words of what reports it. -/
structure InputError where
  description : String
  deriving DecidableEq, Repr

/-- The error for a line that is no text or cannot be read at all. -/
def InputError.unreadable : InputError :=
  { description := "unreadable line" }

namespace Line

def lineFeed : UInt8 := 10

/-- The byte that is dropped from the end of a line when a line feed follows it. -/
def carriageReturn : UInt8 := 13

/-- Puts a byte in front of the first line, which it starts if there is none. -/
def prepend (byte : UInt8) : List (List UInt8) → List (List UInt8)
  | [] => [[byte]]
  | line :: rest => (byte :: line) :: rest

def split : List UInt8 → List (List UInt8)
  | [] => []
  | [byte] => if byte = lineFeed then [[]] else [[byte]]
  | byte :: following :: rest =>
      if byte = lineFeed then
        [] :: split (following :: rest)
      else if byte = carriageReturn ∧ following = lineFeed then
        [] :: split rest
      else
        prepend byte (split (following :: rest))

/-- The text of a line, if its bytes are one in UTF-8. -/
def decode (bytes : List UInt8) : Option String :=
  String.fromUTF8? (ByteArray.mk bytes.toArray)

/-- The lines that can be read: those before the first one that cannot. -/
def readable : List (Option String) → List String
  | some line :: rest => line :: readable rest
  | _ => []

/-- The lines of which some character, the newline behind it included, is among
the first `reads` ones. A line that cannot be read hides all that follow it. -/
def reached : Nat → List (Option String) → List String
  | reads + 1, some line :: rest => line :: reached (reads - line.length) rest
  | _, _ => []

/-- The line of a number counted from one, and the empty text if there is none. -/
def numbered (lines : List String) (number : Nat) : String :=
  if number = 0 then "" else lines.getD (number - 1) ""

end Line

end Firmware
