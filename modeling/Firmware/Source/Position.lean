/-! # Positions in a source

Lines and columns count from one. A position moves past a character: a newline
starts the next line, a tab goes on to the column behind the next tab stop, and
any other character takes one column. -/

namespace Firmware

/-- A line and a column of a source, both counted from one. -/
structure Position where
  line : Nat := 1
  column : Nat := 1
  deriving DecidableEq, Repr

namespace Position

/-- The number of columns from one tab stop to the next. -/
def tabStop : Nat := 4

def advance (position : Position) : Position :=
  { position with column := position.column + 1 }

/-- One column to the left, but never before the first one. -/
def back (position : Position) : Position :=
  { position with column := max (position.column - 1) 1 }

def newline (position : Position) : Position :=
  { line := position.line + 1, column := 1 }

/-- The first column behind the next tab stop. -/
def tab (position : Position) : Position :=
  { position with column := 1 + ((position.column - 1) / tabStop + 1) * tabStop }

/-- The position behind a character that stands at `position`. -/
def after (position : Position) (character : Char) : Position :=
  if character = '\n' then position.newline
  else if character = '\t' then position.tab
  else position.advance

/-- No character leads to a column before the first one. -/
theorem one_le_column_after (position : Position) (character : Char) :
    1 ≤ (position.after character).column := by
  unfold after
  split
  · exact Nat.le_refl 1
  · split
    · exact Nat.le_add_right 1 _
    · exact Nat.le_add_left 1 _

/-- Line and column with a colon between them. -/
def render (position : Position) : String :=
  toString position.line ++ ":" ++ toString position.column

end Position

end Firmware
