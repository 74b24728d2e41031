import Mathlib.Data.Prod.Lex
import Firmware.Source.Stream

/-! # Where characters stand

Positions are ordered as a source is read: by lines, and on a line by columns. Every
character leads further on, so the characters of a text stand at increasing positions, and
those of a part of it are exactly the ones from where the part begins to where it ends. -/

namespace Firmware

namespace Position

instance : LinearOrder Position :=
  LinearOrder.lift' (fun position => toLex (position.line, position.column)) (by
    intro first second same
    cases first
    cases second
    simpa using same)

theorem lt_iff {first second : Position} :
    first < second ↔
      first.line < second.line ∨ first.line = second.line ∧ first.column < second.column :=
  Prod.Lex.toLex_lt_toLex

theorem le_iff {first second : Position} :
    first ≤ second ↔
      first.line < second.line ∨ first.line = second.line ∧ first.column ≤ second.column :=
  Prod.Lex.toLex_le_toLex

/-- The position behind some characters, of which the first stands at `position`. -/
def past (position : Position) (characters : List Char) : Position :=
  characters.foldl after position

@[simp] theorem past_nil (position : Position) : position.past [] = position := rfl

@[simp] theorem past_cons (position : Position) (character : Char) (rest : List Char) :
    position.past (character :: rest) = (position.after character).past rest := rfl

theorem past_append (position : Position) (first second : List Char) :
    position.past (first ++ second) = (position.past first).past second :=
  List.foldl_append

theorem lt_after (position : Position) (character : Char) :
    position < position.after character := by
  rw [lt_iff, after]
  split
  · left
    exact Nat.lt_succ_self position.line
  · right
    split
    · refine ⟨rfl, ?_⟩
      change position.column < 1 + ((position.column - 1) / 4 + 1) * 4
      omega
    · exact ⟨rfl, Nat.lt_succ_self position.column⟩

theorem le_past (position : Position) (characters : List Char) :
    position ≤ position.past characters := by
  induction characters generalizing position with
  | nil => exact le_refl position
  | cons character rest induction =>
      exact (position.lt_after character).le.trans (induction (position.after character))

theorem lt_past (position : Position) {characters : List Char} (nonempty : characters ≠ []) :
    position < position.past characters := by
  cases characters with
  | nil => contradiction
  | cons character rest =>
      exact (position.lt_after character).trans_le ((position.after character).le_past rest)

theorem line_after {character : Char} (noNewline : character ≠ '\n') (position : Position) :
    (position.after character).line = position.line := by
  rw [after, if_neg noNewline]
  split <;> rfl

theorem line_past {characters : List Char} (noNewline : '\n' ∉ characters)
    (position : Position) : (position.past characters).line = position.line := by
  induction characters generalizing position with
  | nil => rfl
  | cons character rest induction =>
      rw [List.mem_cons, not_or] at noNewline
      rw [past_cons, induction noNewline.2, line_after (Ne.symm noNewline.1)]

theorem one_le_column_past {position : Position} (positive : 1 ≤ position.column)
    (characters : List Char) : 1 ≤ (position.past characters).column := by
  induction characters generalizing position with
  | nil => exact positive
  | cons character rest induction => exact induction (position.one_le_column_after character)

/-- On a line, the column behind some characters is the position there. -/
theorem mk_column_past {number : Nat} {characters : List Char} (noNewline : '\n' ∉ characters) :
    (⟨number, (past ⟨number, 1⟩ characters).column⟩ : Position) =
      past ⟨number, 1⟩ characters := by
  have sameLine := line_past noNewline ⟨number, 1⟩
  cases reached : past ⟨number, 1⟩ characters with
  | mk line column =>
      rw [reached] at sameLine
      exact congrArg (Position.mk · column) sameLine.symm

/-- Behind the end of a line stands the beginning of the next one. -/
theorem past_newline {line : List Char} (noNewline : '\n' ∉ line) (position : Position) :
    (position.past line).after '\n' = position.newline := by
  change (position.past line).newline = position.newline
  rw [newline, line_past noNewline, newline]

end Position

/-! ## Characters with their positions -/

namespace Line

/-- Characters with the positions at which they stand, the first one at `position`. -/
def placed (position : Position) : List Char → List (Position × Char)
  | [] => []
  | character :: rest => (position, character) :: placed (position.after character) rest

theorem placed_append (position : Position) (first second : List Char) :
    placed position (first ++ second) =
      placed position first ++ placed (position.past first) second := by
  induction first generalizing position with
  | nil => rfl
  | cons character rest induction =>
      rw [List.cons_append, placed, induction]
      rfl

theorem map_snd_placed (position : Position) (characters : List Char) :
    (placed position characters).map Prod.snd = characters := by
  induction characters generalizing position with
  | nil => rfl
  | cons character rest induction => rw [placed, List.map_cons, induction]

theorem length_placed (position : Position) (characters : List Char) :
    (placed position characters).length = characters.length := by
  conv_rhs => rw [← map_snd_placed position characters, List.length_map]

theorem head?_placed (position : Position) {characters : List Char} (nonempty : characters ≠ []) :
    (placed position characters).head?.map Prod.fst = some position := by
  cases characters with
  | nil => contradiction
  | cons => rfl

theorem getLast?_placed (position : Position) {characters : List Char}
    (nonempty : characters ≠ []) :
    (placed position characters).getLast?.map Prod.fst =
      some (position.past characters.dropLast) := by
  conv_lhs => rw [← List.dropLast_concat_getLast nonempty, placed_append]
  rw [placed, placed, List.getLast?_concat]
  rfl

theorem placed_bounds {position : Position} {characters : List Char} {entry : Position × Char}
    (member : entry ∈ placed position characters) :
    position ≤ entry.1 ∧ entry.1 < position.past characters := by
  induction characters generalizing position with
  | nil => cases member
  | cons character rest induction =>
      rcases List.mem_cons.mp member with rfl | later
      · exact ⟨le_refl position, position.lt_past (by simp)⟩
      · have bounds := induction later
        exact ⟨(position.lt_after character).le.trans bounds.1, bounds.2⟩

theorem line_of_mem_placed {position : Position} {characters : List Char}
    (noNewline : '\n' ∉ characters) {entry : Position × Char}
    (member : entry ∈ placed position characters) : entry.1.line = position.line := by
  have bounds := placed_bounds member
  have last := Position.line_past noNewline position
  rw [Position.le_iff, Position.lt_iff] at bounds
  omega

/-- At the position behind some characters stands the first one of the rest. -/
theorem mem_placed_past {position : Position} {before rest : List Char} {character : Char} :
    (position.past before, character) ∈ placed position (before ++ rest) ↔
      rest.head? = some character := by
  rw [placed_append, List.mem_append]
  constructor
  · intro member
    rcases member with earlier | later
    · exact absurd (placed_bounds earlier).2 (lt_irrefl _)
    · cases rest with
      | nil => cases later
      | cons first rest =>
          rcases List.mem_cons.mp later with same | beyond
          · cases same
            rfl
          · have bound := (placed_bounds beyond).1
            exact absurd ((position.past before).lt_after first) (not_lt.mpr bound)
  · intro begins
    rcases List.head?_eq_some_iff.mp begins with ⟨others, rfl⟩
    exact .inr List.mem_cons_self

end Line

/-- The positions from the start of a location to right before its stop. -/
def Location.Covers (location : Location) (position : Position) : Prop :=
  location.start ≤ position ∧ position < location.stop

instance (location : Location) : DecidablePred location.Covers := fun _ =>
  inferInstanceAs (Decidable (_ ∧ _))

namespace Line

/-- From where some characters begin, exactly those and the ones behind them stand. -/
theorem filter_onward (position : Position) (before rest : List Char) :
    (placed position (before ++ rest)).filter (fun entry => position.past before ≤ entry.1) =
      placed (position.past before) rest := by
  have none : (placed position before).filter
      (fun entry => position.past before ≤ entry.1) = [] := by
    apply List.filter_eq_nil_iff.mpr
    intro entry member
    simpa using (placed_bounds member).2
  have all : (placed (position.past before) rest).filter
      (fun entry => position.past before ≤ entry.1) = placed (position.past before) rest := by
    apply List.filter_eq_self.mpr
    intro entry member
    simpa using (placed_bounds member).1
  rw [placed_append, List.filter_append, none, all, List.nil_append]

/-- A location from where some characters begin to where they end covers exactly those. -/
theorem filter_covers (name : String) (position : Position) (before inside behind : List Char) :
    (placed position (before ++ (inside ++ behind))).filter (fun entry =>
        Location.Covers ⟨name, position.past before, position.past (before ++ inside)⟩ entry.1) =
      placed (position.past before) inside := by
  have onward := filter_onward position before (inside ++ behind)
  have split : (placed position (before ++ (inside ++ behind))).filter (fun entry =>
        Location.Covers ⟨name, position.past before, position.past (before ++ inside)⟩ entry.1) =
      ((placed position (before ++ (inside ++ behind))).filter
        (fun entry => position.past before ≤ entry.1)).filter
        (fun entry => entry.1 < position.past (before ++ inside)) := by
    rw [List.filter_filter]
    apply List.filter_congr
    intro entry _
    rw [Bool.and_comm, ← Bool.decide_and]
    rfl
  have inner : (placed (position.past before) inside).filter
      (fun entry => entry.1 < position.past (before ++ inside)) =
        placed (position.past before) inside := by
    apply List.filter_eq_self.mpr
    intro entry member
    simpa [Position.past_append] using (placed_bounds member).2
  have outer : (placed ((position.past before).past inside) behind).filter
      (fun entry => entry.1 < position.past (before ++ inside)) = [] := by
    apply List.filter_eq_nil_iff.mpr
    intro entry member
    simpa [Position.past_append] using (placed_bounds member).1
  rw [split, onward, placed_append, List.filter_append, inner, outer, List.append_nil]

end Line

end Firmware
