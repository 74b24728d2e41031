import Firmware.Proofs.Source.Text
import Firmware.Report
import Firmware.Source.Stream
import Mathlib.Data.List.Basic
import Mathlib.Order.MinMax

/-! # The layout of an excerpt

An excerpt may go from any location of a source to any other one, also backwards and over
lines whose numbers have different lengths. Main statement: its rows are those of the lines
from the first to the last one, between a row without text and the row of carets; the bars of
all rows stand below each other; and no subtraction on the way to the carets falls below zero,
since every position that reading gives has a column of at least one. -/

namespace Firmware

/-- The largest width that a text can be padded to. -/
def widthLimit : Nat := 65535

/-- The difference of two numbers, if it does not fall below zero. -/
def difference? (larger smaller : Nat) : Option Nat :=
  if smaller ≤ larger then some (larger - smaller) else none

/-- Some copies of a character, if the width of a padded text can be that large. -/
def padding? (count : Nat) (character : Char) : Option String :=
  if count ≤ widthLimit then some (repeated count character) else none

theorem difference?_of_le {larger smaller : Nat} (le : smaller ≤ larger) :
    difference? larger smaller = some (larger - smaller) :=
  if_pos le

theorem padding?_of_le {count : Nat} (le : count ≤ widthLimit) (character : Char) :
    padding? count character = some (repeated count character) :=
  if_pos le

namespace Place

/-- The place from the start of `first` to the stop of `last`. -/
def between (first last : Location) (lines : List String) : Place :=
  { location := first.span last, lines }

/-- The row of carets, if each of its widths can be computed and padded to. -/
def caretRow? (place : Place) : Option String := do
  let skipped ← difference? place.firstCaret 1
  let distance ← difference? place.lastCaret place.firstCaret
  let blanks ← padding? skipped ' '
  let carets ← padding? (distance + 1) '^'
  return place.row "" (" " ++ blanks ++ carets)

/-- The excerpt, if its row of carets can be computed. -/
def excerpt? (place : Place) : Option String := do
  let carets ← place.caretRow?
  return " --> " ++ place.location.render ++ "\n" ++ place.row "" "" ++
    String.join (place.numbers.map place.sourceRow) ++ carets

/-- The rows below the first line of an excerpt. -/
def rows (place : Place) : List String :=
  place.row "" "" :: place.numbers.map place.sourceRow ++ [place.caretRow]

/-- The excerpt at a place is laid out in rows, with carets from column `left` to column
`right`. -/
structure LaidOut (place : Place) (left right : Nat) : Prop where
  /-- No subtraction falls below zero, and no width is beyond the limit. -/
  computed : place.excerpt? = some place.excerpt
  rows : place.excerpt =
    " --> " ++ place.location.render ++ "\n" ++ String.join place.rows
  /-- The numbers of the rows are those from the first to the last line. -/
  covered : ∀ number, number ∈ place.numbers ↔
    place.location.start.line ≤ number ∧ number ≤ place.location.stop.line
  increasing : place.numbers.Pairwise (· < ·)
  blank : (place.row "" "").toList = List.replicate place.gutter ' ' ++ [' ', '|', '\n']
  /-- A number stands at the right of the gutter, and the line behind the bar. -/
  numbered : ∀ number ∈ place.numbers, (place.sourceRow number).toList =
    (toString number).toList.leftpad place.gutter ' ' ++ [' ', '|', ' '] ++
      (Line.numbered place.lines number).toList ++ ['\n']
  /-- There is at least one caret. -/
  carets : ∃ skipped marked, skipped + 1 = left ∧ skipped + marked = right ∧ 1 ≤ marked ∧
    place.caretRow.toList = List.replicate place.gutter ' ' ++ [' ', '|', ' '] ++
      List.replicate skipped ' ' ++ List.replicate marked '^' ++ ['\n']
  /-- The first bar of every row stands behind the gutter and one more column. -/
  aligned : ∀ row ∈ place.rows, row.toList.idxOf '|' = place.gutter + 1

/-! ## Rows -/

theorem toList_row (place : Place) (label text : String) :
    (place.row label text).toList =
      label.toList.leftpad place.gutter ' ' ++ [' ', '|'] ++ text.toList ++ ['\n'] := by
  simp [row, repeated, List.leftpad, String.length_toList]

/-- A label that fits into the gutter leaves the bar in its column. -/
theorem idxOf_bar_row (place : Place) {label : String} (fits : label.length ≤ place.gutter)
    (noBar : '|' ∉ label.toList) (text : String) :
    (place.row label text).toList.idxOf '|' = place.gutter + 1 := by
  have width : (label.toList.leftpad place.gutter ' ').length = place.gutter := by
    rw [List.length_leftpad, String.length_toList, Nat.max_eq_left fits]
  have noBarBefore : '|' ∉ label.toList.leftpad place.gutter ' ' ++ [' '] := by
    simpa [List.leftpad] using noBar
  have split : (place.row label text).toList =
      (label.toList.leftpad place.gutter ' ' ++ [' ']) ++ '|' :: (text.toList ++ ['\n']) := by
    rw [toList_row]
    simp
  rw [split, List.idxOf_append_of_notMem noBarBefore, List.idxOf_cons_self, Nat.add_zero,
    List.length_append, width, List.length_singleton]

/-- A larger number has no fewer digits. -/
theorem length_toString_le {small large : Nat} (le : small ≤ large) :
    (toString small).length ≤ (toString large).length := by
  have positive : 0 < (toString large).length := Nat.length_repr_pos
  -- The number of digits is told by the powers of ten that are larger.
  have bound : large < 10 ^ (toString large).length :=
    (Nat.length_repr_le_iff positive).mp le_rfl
  exact (Nat.length_repr_le_iff positive).mpr (le.trans_lt bound)

theorem bar_not_mem_toString (number : Nat) : '|' ∉ (toString number).toList := by
  intro member
  cases isDigit_of_mem_repr member

variable {place : Place}

theorem mem_numbers_iff {number : Nat} : number ∈ place.numbers ↔
    place.location.start.line ≤ number ∧ number ≤ place.location.stop.line := by
  rw [numbers, List.mem_range'_1]
  omega

/-- The number of every line that is shown fits into the gutter. -/
theorem length_toString_le_gutter {number : Nat} (member : number ∈ place.numbers) :
    (toString number).length ≤ place.gutter :=
  length_toString_le (mem_numbers_iff.mp member).2

theorem idxOf_bar_of_mem_rows {row : String} (member : row ∈ place.rows) :
    row.toList.idxOf '|' = place.gutter + 1 := by
  have margin : ∀ text, (place.row "" text).toList.idxOf '|' = place.gutter + 1 :=
    idxOf_bar_row place (Nat.zero_le _) (by simp)
  simp only [rows, List.cons_append, List.mem_cons, List.mem_append, List.mem_map,
    List.not_mem_nil, or_false] at member
  rcases member with rfl | ⟨number, isNumber, rfl⟩ | rfl
  · exact margin _
  · exact idxOf_bar_row place (length_toString_le_gutter isNumber) (bar_not_mem_toString number) _
  · exact margin _

/-! ## Carets -/

section Carets

variable (positive : 1 ≤ place.firstCaret) (narrow : place.lastCaret ≤ widthLimit)

theorem firstCaret_le_lastCaret (place : Place) : place.firstCaret ≤ place.lastCaret :=
  min_le_max

include positive narrow

theorem caretRow?_eq : place.caretRow? = some place.caretRow := by
  have ordered := place.firstCaret_le_lastCaret
  have skipped : place.firstCaret - 1 ≤ widthLimit := by
    omega
  have marked : place.lastCaret - place.firstCaret + 1 ≤ widthLimit := by
    omega
  rw [caretRow?, difference?_of_le positive, difference?_of_le ordered]
  simp only [Option.bind_eq_bind, Option.bind_some, padding?_of_le skipped, padding?_of_le marked]
  rfl

/-- A place whose columns are neither zero nor too large is laid out in rows. -/
theorem laidOut : place.LaidOut place.firstCaret place.lastCaret where
  computed := by
    rw [excerpt?, caretRow?_eq positive narrow]
    rfl
  rows := by
    rw [rows, excerpt]
    simp [String.append_assoc]
  covered := fun _ => mem_numbers_iff
  increasing := List.pairwise_lt_range' ..
  blank := by
    rw [toList_row]
    simp [List.leftpad]
  numbered := by
    intro number member
    rw [sourceRow, toList_row]
    simp
  carets := by
    refine ⟨place.firstCaret - 1, place.lastCaret - place.firstCaret + 1, ?_, ?_, ?_, ?_⟩
    · omega
    · have ordered := place.firstCaret_le_lastCaret
      omega
    · omega
    · rw [caretRow, toList_row]
      simp [List.leftpad, repeated]
  aligned := fun _ => idxOf_bar_of_mem_rows

end Carets

section Between

variable (first : Location) {last : Location} (oneColumn : last.stop = last.start.advance)
  (positive : 1 ≤ last.start.column) (lines : List String)

include oneColumn positive

/-- The last column that a location of one column covers is the one it starts at. -/
theorem column_back_stop : last.stop.back.column = last.start.column := by
  rw [oneColumn]
  exact Nat.max_eq_left positive

theorem firstCaret_between : (between first last lines).firstCaret =
    min first.start.column last.start.column :=
  congrArg (min first.start.column) (column_back_stop oneColumn positive)

theorem lastCaret_between : (between first last lines).lastCaret =
    max first.start.column last.start.column :=
  congrArg (max first.start.column) (column_back_stop oneColumn positive)

end Between

end Place

/-! ## The locations of a source -/

/-- A location that comes with a character is one column wide, and that column is counted from
one. -/
theorem Item.column_of_mem_locate {name : String} {position : Position}
    {characters : List (Option Char)} {value : Char} {next : Location}
    (member : .character value next ∈ locate name position characters) :
    1 ≤ next.start.column ∧ next.stop = next.start.advance := by
  induction characters generalizing position with
  | nil => cases member
  | cons character rest induction =>
      cases character with
      | none =>
          rw [locate, List.mem_cons] at member
          rcases member with isFailure | later
          · cases isFailure
          · exact induction later
      | some character =>
          rw [locate, List.mem_cons] at member
          rcases member with here | later
          · cases here
            exact ⟨position.one_le_column_after value, rfl⟩
          · exact induction later

namespace Source

variable {source : Source} {reads : Nat} {first last : Location}

theorem column_of_mem_locations {location : Location}
    (given : location ∈ source.locations (source.items.take reads)) :
    1 ≤ location.start.column ∧ location.stop = location.start.advance := by
  rcases List.mem_cons.mp given with isStart | withCharacter
  · rw [isStart]
    exact ⟨le_rfl, rfl⟩
  · rcases List.mem_filterMap.mp withCharacter with ⟨item, isItem, isLocation⟩
    cases item with
    | failure => cases isLocation
    | character value next =>
        cases isLocation
        exact Item.column_of_mem_locate (List.mem_of_mem_take isItem)

/-- The excerpt from one location that reading a source has given to another one is laid out in
rows, whichever of them comes first, if neither is too far to the right. -/
theorem laidOut_between (firstGiven : first ∈ source.locations (source.items.take reads))
    (lastGiven : last ∈ source.locations (source.items.take reads))
    (firstNarrow : first.start.column ≤ widthLimit)
    (lastNarrow : last.start.column ≤ widthLimit) :
    (Place.between first last (source.reached reads)).LaidOut
      (min first.start.column last.start.column) (max first.start.column last.start.column) := by
  have firstPositive := (column_of_mem_locations firstGiven).1
  rcases column_of_mem_locations lastGiven with ⟨lastPositive, oneColumn⟩
  have leftmost := Place.firstCaret_between first oneColumn lastPositive (source.reached reads)
  have rightmost := Place.lastCaret_between first oneColumn lastPositive (source.reached reads)
  rw [← leftmost, ← rightmost]
  apply Place.laidOut
  · rw [leftmost]
    exact le_min firstPositive lastPositive
  · rw [rightmost]
    exact max_le firstNarrow lastNarrow

/-- The ninth and the tenth line of a source, whose numbers differ in length, are shown between
two of its locations, and none of its lines the other way round. -/
theorem notes_laidOut :
    let notes := Source.ofBytes "notes" (utf8 "\n\n\n\n\n\n\n\n\tab\nc\td")
    let upper := Location.single "notes" ⟨9, 6⟩
    let lower := Location.single "notes" ⟨10, 2⟩
    (upper ∈ notes.locations (notes.items.take 14) ∧
      lower ∈ notes.locations (notes.items.take 14)) ∧
    (Place.between upper lower (notes.reached 14)).LaidOut 2 6 ∧
      (Place.between lower upper (notes.reached 14)).LaidOut 2 6 := by
  intro notes upper lower
  have upperGiven : upper ∈ notes.locations (notes.items.take 14) := by
    decide +kernel
  have lowerGiven : lower ∈ notes.locations (notes.items.take 14) := by
    decide +kernel
  exact ⟨⟨upperGiven, lowerGiven⟩,
    laidOut_between upperGiven lowerGiven (by decide) (by decide),
    laidOut_between lowerGiven upperGiven (by decide) (by decide)⟩

example :
    let upper := Location.single "notes" ⟨9, 6⟩
    let lower := Location.single "notes" ⟨10, 2⟩
    let lines := List.replicate 8 "" ++ ["\tab", "c\td"]
    (Place.between upper lower lines).excerpt =
        " --> notes:[9:6-10:2]\n   |\n 9 | \tab\n10 | c\td\n   |  ^^^^^\n" ∧
      (Place.between lower upper lines).excerpt =
        " --> notes:[10:2-9:6]\n  |\n  |  ^^^^^\n" := by
  decide +kernel

end Source

end Firmware
