import Firmware.Source.Line
import Firmware.Source.Location

/-! # Error reports

A report lists errors under a common kind. An error with a place is followed by
an excerpt of the source: the lines it covers, numbered, and below them carets
under its columns. -/

namespace Firmware

/-- A location, with the lines of its source that are known. -/
structure Place where
  location : Location
  lines : List String
  deriving DecidableEq, Repr

structure Diagnostic where
  message : String
  place : Option Place := none
  deriving DecidableEq, Repr

/-- A list of errors of one kind. -/
structure Report where
  kind : String := "error"
  diagnostics : List Diagnostic := []
  deriving DecidableEq, Repr

def repeated (count : Nat) (character : Char) : String :=
  String.ofList (List.replicate count character)

namespace Place

/-- The number of columns that line numbers take. -/
def gutter (place : Place) : Nat :=
  (toString place.location.stop.line).length

/-- What stands to the right of the gutter, behind a bar. -/
def row (place : Place) (label text : String) : String :=
  repeated (place.gutter - label.length) ' ' ++ label ++ " |" ++ text ++ "\n"

/-- The numbers of the lines covered. There are none if the place ends on a line
before the one it starts on. -/
def numbers (place : Place) : List Nat :=
  List.range' place.location.start.line
    (place.location.stop.line + 1 - place.location.start.line)

def sourceRow (place : Place) (number : Nat) : String :=
  place.row (toString number) (" " ++ Line.numbered place.lines number)

def firstCaret (place : Place) : Nat :=
  min place.location.start.column place.location.stop.back.column

def lastCaret (place : Place) : Nat :=
  max place.location.start.column place.location.stop.back.column

def caretRow (place : Place) : String :=
  place.row "" (" " ++ repeated (place.firstCaret - 1) ' ' ++
    repeated (place.lastCaret - place.firstCaret + 1) '^')

def excerpt (place : Place) : String :=
  " --> " ++ place.location.render ++ "\n" ++ place.row "" "" ++
    String.join (place.numbers.map place.sourceRow) ++ place.caretRow

end Place

/-- An error under its kind, with the excerpt at its place if it has one. -/
def Diagnostic.render (diagnostic : Diagnostic) (kind : String) : String :=
  kind ++ ": " ++ diagnostic.message ++ "\n" ++
    (match diagnostic.place with
      | some place => place.excerpt
      | none => "") ++ "\n"

/-- All errors, and below them how many they are. -/
def Report.render (report : Report) : String :=
  if report.diagnostics.isEmpty then
    "No errors were reported\n"
  else
    String.join (report.diagnostics.map (·.render report.kind)) ++
      "Build failed with " ++ toString report.diagnostics.length ++
      (if report.diagnostics.length = 1 then " error" else " errors") ++ "\n"

end Firmware
