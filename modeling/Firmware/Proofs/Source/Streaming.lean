import Firmware.Proofs.Source.Lines
import Firmware.Proofs.Source.Placement
import Mathlib.Algebra.Group.Nat.Defs
import Mathlib.Data.List.DropRight
import Mathlib.Data.List.Induction

/-! # Reading a source item by item

A source is read lazily: a line is loaded when the characters of the one before it are used
up, and from then on it is known to whoever shows an excerpt. The position runs one character
ahead. Main statement: whatever the bytes of a source are, the items read are the characters of
its lines, each line followed by a newline, up to the first line that cannot be read; each
character comes with the place of the next one, which can be told from the characters read;
and a line is known as soon as one of its characters has been read. -/

namespace Firmware

/-- A source of which some items have been read. -/
structure SourceReader where
  name : String
  /-- The lines that have not been loaded. -/
  unread : List (Option String)
  /-- The lines that have been loaded. -/
  known : List String := []
  /-- The characters of the last known line that have not been read. -/
  pending : List Char := []
  /-- The position of the next character. -/
  position : Position := {}
  failed : Bool := false
  deriving DecidableEq, Repr

namespace SourceReader

/-- Reads the next item, if there is one. Nothing can be read behind a failure. -/
def next (reader : SourceReader) : Option Item × SourceReader :=
  if reader.failed then
    (none, reader)
  else
    match reader.pending, lines : reader.unread with
    | value :: pending, _ =>
        let position := reader.position.after value
        (some (.character value (.single reader.name position)),
          { reader with pending, position })
    | [], [] => (none, reader)
    | [], none :: unread => (some (.failure .unreadable), { reader with unread, failed := true })
    | [], some line :: unread =>
        have : unread.length < reader.unread.length := by simp [lines]
        next { reader with
          unread
          known := reader.known ++ [line]
          pending := line.toList ++ ['\n'] }
termination_by reader.unread.length

/-- The source behind some reads. -/
def after (reader : SourceReader) : Nat → SourceReader
  | 0 => reader
  | reads + 1 => (reader.after reads).next.2

/-- All items that have not been read. -/
def remaining (reader : SourceReader) : List Item :=
  if reader.failed then []
  else
    Item.locate reader.name reader.position
      (reader.pending.map some ++ Line.characters reader.unread)

/-- The lines that will be known behind some more reads. -/
def knownBehind (reader : SourceReader) (reads : Nat) : List String :=
  if reader.failed then reader.known
  else reader.known ++ Line.reached (reads - reader.pending.length) reader.unread

/-! ## One read -/

section Loading

variable {reader : SourceReader} {line : String} {unread : List (Option String)}

/-- Loading a line changes nothing of what remains to be read. -/
theorem remaining_load (lines : reader.unread = some line :: unread)
    (used : reader.pending = []) :
    remaining { reader with
      unread, known := reader.known ++ [line], pending := line.toList ++ ['\n'] } =
      reader.remaining := by
  simp [remaining, lines, used, Line.characters]

/-- A line that is loaded is the next to be known. -/
theorem knownBehind_load (working : ¬ reader.failed = true)
    (lines : reader.unread = some line :: unread) (used : reader.pending = []) (reads : Nat) :
    knownBehind { reader with
      unread, known := reader.known ++ [line], pending := line.toList ++ ['\n'] } (reads + 1) =
      reader.knownBehind (reads + 1) := by
  simp [knownBehind, working, lines, used, Line.reached, String.length_toList]

end Loading

/-- A read gives the first of the items that remain, and leaves the others. -/
theorem next_accounts (reader : SourceReader) :
    reader.next.1 = reader.remaining.head? ∧
      reader.next.2.remaining = reader.remaining.tail := by
  fun_induction next reader with
  | case1 reader failed => simp [remaining, failed]
  | case2 reader working value pending used position =>
      simp [remaining, working, used, Item.locate, position]
  | case3 reader working lines used =>
      simp [remaining, working, lines, used, Line.characters, Item.locate]
  | case4 reader working unread lines used =>
      simp [remaining, working, lines, used, Line.characters, Item.locate]
  | case5 reader working line unread lines used _ induction =>
      rwa [remaining_load lines used] at induction

theorem knownBehind_next (reader : SourceReader) (reads : Nat) :
    reader.next.2.knownBehind reads = reader.knownBehind (reads + 1) := by
  fun_induction next reader with
  | case1 reader failed => simp [knownBehind, failed]
  | case2 reader working value pending used position =>
      simp [knownBehind, working, used]
  | case3 reader working lines used => simp [knownBehind, working, lines, used, Line.reached]
  | case4 reader working unread lines used =>
      simp [knownBehind, working, lines, used, Line.reached]
  | case5 reader working line unread lines used _ induction =>
      rwa [knownBehind_load working lines used] at induction

/-! ## All reads -/

theorem remaining_after (reader : SourceReader) (reads : Nat) :
    (reader.after reads).remaining = reader.remaining.drop reads := by
  induction reads with
  | zero => rfl
  | succ reads induction => rw [after, (next_accounts _).2, induction, List.tail_drop]

theorem next_after (reader : SourceReader) (reads : Nat) :
    (reader.after reads).next.1 = reader.remaining[reads]? := by
  rw [(next_accounts _).1, remaining_after, List.head?_drop]

theorem knownBehind_after (reader : SourceReader) (reads more : Nat) :
    (reader.after reads).knownBehind more = reader.knownBehind (reads + more) := by
  induction reads generalizing more with
  | zero => rw [after, Nat.zero_add]
  | succ reads induction =>
      rw [after, knownBehind_next, induction, Nat.add_right_comm, Nat.add_assoc]

theorem knownBehind_zero (reader : SourceReader) : reader.knownBehind 0 = reader.known := by
  simp [knownBehind, Line.reached]

theorem known_after (reader : SourceReader) (reads : Nat) :
    (reader.after reads).known = reader.knownBehind reads := by
  rw [← knownBehind_zero, knownBehind_after, Nat.add_zero]

end SourceReader

namespace Source

/-- A source of which nothing has been read. -/
def opened (source : Source) : SourceReader where
  name := source.name
  unread := source.lines

theorem next_opened (source : Source) (reads : Nat) :
    (source.opened.after reads).next.1 = source.items[reads]? := by
  exact source.opened.next_after reads

theorem known_opened (source : Source) (reads : Nat) :
    (source.opened.after reads).known = source.reached reads := by
  exact source.opened.known_after reads

end Source

/-! ## The characters of the items -/

namespace Line

/-- The characters of some lines, each line followed by a newline. -/
def joined (lines : List String) : List Char :=
  lines.flatMap fun line => line.toList ++ ['\n']

/-- The number of columns that characters take on one line. A tab goes on to the next multiple
of the distance between tab stops. -/
def width (characters : List Char) : Nat :=
  characters.foldl (fun taken character =>
    if character = '\t' then (taken / Position.tabStop + 1) * Position.tabStop
    else taken + 1) 0

theorem width_concat (characters : List Char) (character : Char) :
    width (characters ++ [character]) =
      if character = '\t' then (width characters / Position.tabStop + 1) * Position.tabStop
      else width characters + 1 := by
  simp [width]

/-- Fewer characters take no more columns. -/
theorem width_le_width_append (characters more : List Char) :
    width characters ≤ width (characters ++ more) := by
  induction more using List.reverseRecOn with
  | nil => rw [List.append_nil]
  | append_singleton more character induction =>
      rw [← List.append_assoc, width_concat]
      split
      · rw [Position.tabStop]
        omega
      · omega

/-- Characters at the beginning of some lines are whole lines and a part of the next one. -/
theorem exists_take_joined (lines : List String) (count : Nat) :
    ∃ before part, before <+: lines ∧ (joined lines).take count = joined before ++ part ∧
      (part = [] ∨ ∃ line ∈ lines, part <+: line.toList) := by
  induction lines generalizing count with
  | nil => exact ⟨[], [], List.prefix_rfl, by simp [joined], .inl rfl⟩
  | cons line rest induction =>
      have first : joined (line :: rest) = line.toList ++ '\n' :: joined rest := by
        simp [joined]
      by_cases inside : count ≤ line.toList.length
      · refine ⟨[], line.toList.take count, List.nil_prefix, ?_, .inr ⟨line, ?_, ?_⟩⟩
        · rw [first, List.take_append_of_le_length inside]
          rfl
        · exact List.mem_cons_self
        · exact List.take_prefix count line.toList
      · rcases Nat.exists_eq_add_of_lt (Nat.lt_of_not_le inside) with ⟨more, rfl⟩
        rcases induction more with ⟨before, part, isPrefix, taken, ofLine⟩
        refine ⟨line :: before, part, List.cons_prefix_cons.mpr ⟨rfl, isPrefix⟩, ?_, ?_⟩
        · rw [first, Nat.add_assoc, List.take_length_add_append, List.take_succ_cons, taken]
          simp [joined]
        · rcases ofLine with empty | ⟨other, member, partial_⟩
          · exact .inl empty
          · exact .inr ⟨other, List.mem_cons_of_mem line member, partial_⟩

theorem count_newline_joined {lines : List String}
    (clean : ∀ line ∈ lines, '\n' ∉ line.toList) : (joined lines).count '\n' = lines.length := by
  induction lines with
  | nil => rfl
  | cons line rest induction =>
      have first : line.toList.count '\n' = 0 := by
        exact List.count_eq_zero.mpr (clean line List.mem_cons_self)
      have others := induction fun other member =>
        clean other (List.mem_cons_of_mem line member)
      unfold joined at others ⊢
      rw [List.flatMap_cons, List.count_append, List.count_append, first, others]
      simp [Nat.add_comm]

/-- Behind whole lines, the part of the next one is what stands behind the last newline. -/
theorem rtakeWhile_joined_append (lines : List String) {part : List Char}
    (clean : '\n' ∉ part) : (joined lines ++ part).rtakeWhile (· ≠ '\n') = part := by
  have whole : ∀ character ∈ part.reverse, decide (character ≠ '\n') = true := by
    intro character member
    have inPart : character ∈ part := List.mem_reverse.mp member
    exact decide_eq_true (ne_of_mem_of_not_mem inPart clean)
  rw [List.rtakeWhile, List.reverse_append, List.takeWhile_append_of_pos whole]
  cases lines using List.reverseRecOn with
  | nil => simp [joined]
  | append_singleton lines line => simp [joined]

/-- For each character of some lines, the newline behind each line included, the number of
its line. There are `above` lines before. -/
def lineNumbers (above : Nat) : List String → List Nat
  | [] => []
  | line :: rest => List.replicate (line.length + 1) (above + 1) ++ lineNumbers (above + 1) rest

/-- A line that cannot be read is the last one that is noticed. -/
theorem exists_split_readable (lines : List (Option String)) :
    lines = (readable lines).map some ∧ characters lines = (joined (readable lines)).map some ∨
    ∃ later, lines = (readable lines).map some ++ none :: later ∧
      characters lines = (joined (readable lines)).map some ++ [none] := by
  fun_induction readable lines with
  | case1 line rest induction =>
      rcases induction with ⟨all, delivered⟩ | ⟨later, before, delivered⟩
      · left
        refine ⟨?_, ?_⟩
        · rw [List.map_cons, ← all]
        · simp [characters, delivered, joined]
      · right
        refine ⟨later, ?_, ?_⟩
        · rw [List.map_cons, List.cons_append, ← before]
        · simp [characters, delivered, joined]
  | case2 lines other =>
      cases lines with
      | nil => exact .inl ⟨rfl, rfl⟩
      | cons line rest =>
          cases line with
          | some line => exact absurd rfl (other line rest)
          | none => exact .inr ⟨rest, rfl, rfl⟩

/-- Behind the characters of the lines that can be read there is nothing but a failure. -/
theorem characters_eq_append (lines : List (Option String)) :
    ∃ rest, characters lines = (joined (readable lines)).map some ++ rest ∧
      ∀ character ∈ rest, character = none := by
  rcases exists_split_readable lines with ⟨-, delivered⟩ | ⟨later, -, delivered⟩
  · exact ⟨[], by rw [delivered, List.append_nil], by simp⟩
  · exact ⟨[none], delivered, by simp⟩

theorem lt_of_mem_lineNumbers {above number : Nat} {lines : List String}
    (member : number ∈ lineNumbers above lines) : above < number := by
  induction lines generalizing above with
  | nil => cases member
  | cons line rest induction =>
      rcases List.mem_append.mp member with here | later
      · rw [List.eq_of_mem_replicate here]
        exact Nat.lt_succ_self above
      · exact Nat.lt_of_succ_lt (induction later)

/-- A line is reached as soon as one of the characters read has its number. -/
theorem getElem?_reached (above reads index : Nat) (lines : List (Option String)) :
    (reached reads lines)[index]? =
      if above + index + 1 ∈ (lineNumbers above (readable lines)).take reads then
        (readable lines)[index]?
      else
        none := by
  fun_induction reached reads lines generalizing above index with
  | case1 reads line rest induction =>
      have read : (lineNumbers above (readable (some line :: rest))).take (reads + 1) =
          List.replicate (min (reads + 1) (line.length + 1)) (above + 1) ++
            (lineNumbers (above + 1) (readable rest)).take (reads - line.length) := by
        rw [readable, lineNumbers, List.take_append, List.take_replicate, List.length_replicate,
          Nat.add_sub_add_right]
      rw [read, readable]
      cases index with
      | zero => simp
      | succ index =>
          have other : above + 1 + index + 1 ∈
              List.replicate (min (reads + 1) (line.length + 1)) (above + 1) ++
                (lineNumbers (above + 1) (readable rest)).take (reads - line.length) ↔
              above + 1 + index + 1 ∈
                (lineNumbers (above + 1) (readable rest)).take (reads - line.length) := by
            rw [List.mem_append, or_iff_right]
            intro member
            have same := List.eq_of_mem_replicate member
            omega
          rw [List.getElem?_cons_succ, List.getElem?_cons_succ, induction (above + 1) index,
            ← Nat.add_assoc, Nat.add_right_comm above index 1]
          simp only [other]
  | case2 lines reads unread =>
      match reads, lines with
      | 0, _ => simp
      | reads + 1, [] => simp [readable]
      | reads + 1, none :: rest => simp [readable]
      | reads + 1, some line :: rest => exact absurd rfl (unread reads line rest rfl)

/-- The text of a line is known if one of its characters has been read, and empty else. -/
theorem numbered_reached (reads number : Nat) (lines : List (Option String)) :
    numbered (reached reads lines) number =
      if number ∈ (lineNumbers 0 (readable lines)).take reads then
        (readable lines).getD (number - 1) ""
      else
        "" := by
  cases number with
  | zero =>
      rw [if_neg]
      · rfl
      · intro member
        exact Nat.lt_irrefl 0 (lt_of_mem_lineNumbers (List.mem_of_mem_take member))
  | succ index =>
      rw [numbered, if_neg (Nat.succ_ne_zero index), Nat.add_sub_cancel, List.getD_eq_getElem?_getD,
        getElem?_reached 0, Nat.zero_add]
      split
      · rw [List.getD_eq_getElem?_getD]
      · rfl

end Line

namespace Item

def value? : Item → Option Char
  | .character value _ => some value
  | .failure _ => none

theorem map_value?_locate (name : String) (position : Position)
    (characters : List (Option Char)) :
    (locate name position characters).map value? = characters := by
  induction characters generalizing position with
  | nil => rfl
  | cons character rest induction =>
      cases character with
      | none => exact congrArg (none :: ·) (induction position)
      | some character =>
          exact congrArg (some character :: ·) (induction (position.after character))

/-- Each character comes with the position behind all characters up to it. -/
theorem getElem?_locate (name : String) (position : Position) (characters : List Char)
    (rest : List (Option Char)) {index : Nat} (inside : index < characters.length) :
    (locate name position (characters.map some ++ rest))[index]? =
      some (.character characters[index]
        (.single name (position.past (characters.take (index + 1))))) := by
  induction characters generalizing position index with
  | nil => cases inside
  | cons character characters induction =>
      cases index with
      | zero => rfl
      | succ index =>
          exact induction (position.after character) (Nat.lt_of_succ_lt_succ inside)

/-- The locations of characters, of which the first one stands at `position`, follow each
other. -/
theorem pairwise_locate (name : String) (position : Position)
    (characters : List (Option Char)) :
    (.single name position :: (locate name position characters).filterMap fun
      | .character _ next => some next
      | .failure _ => none).Pairwise fun earlier later : Location =>
        earlier.start < later.start := by
  induction characters generalizing position with
  | nil => exact List.pairwise_singleton _ _
  | cons character rest induction =>
      cases character with
      | none => exact induction position
      | some character =>
          have later := induction (position.after character)
          have further := position.lt_after character
          refine List.Pairwise.cons ?_ later
          intro other member
          rcases List.mem_cons.mp member with same | beyond
          · rw [same]
            exact further
          · exact further.trans ((List.pairwise_cons.mp later).1 other beyond)

end Item

/-- The position behind some characters is told by the number of newlines among them, and by
the width of what stands behind the last newline. -/
theorem Position.past_eq (characters : List Char) :
    Position.past {} characters =
      { line := 1 + characters.count '\n'
        column := 1 + Line.width (characters.rtakeWhile (· ≠ '\n')) } := by
  induction characters using List.reverseRecOn with
  | nil => rfl
  | append_singleton characters character induction =>
      rw [past_append, induction, past_cons, past_nil, List.count_append, List.rtakeWhile_concat]
      by_cases newline : character = '\n'
      · subst newline
        rfl
      · have none : [character].count '\n' = 0 := by
          simpa [List.count_singleton] using newline
        rw [none, if_pos (by simpa using newline), Line.width_concat, after, if_neg newline]
        by_cases isTab : character = '\t'
        · simp [isTab, tab]
        · simp [isTab, advance, Nat.add_assoc]

namespace Position

/-- Line and column are words of 32 bits. -/
def Fits (position : Position) : Prop :=
  position.line < 2 ^ 32 ∧ position.column < 2 ^ 32

/-- There is no more than one further line, and no more than one column behind the characters
of a line. -/
theorem past_take_joined_le {lines : List String} (clean : ∀ line ∈ lines, '\n' ∉ line.toList)
    {most : Nat} (narrow : ∀ line ∈ lines, Line.width line.toList ≤ most) (count : Nat) :
    (past {} ((Line.joined lines).take count)).line ≤ lines.length + 1 ∧
      (past {} ((Line.joined lines).take count)).column ≤ most + 1 := by
  rcases Line.exists_take_joined lines count with ⟨before, part, isPrefix, taken, ofLine⟩
  have wholeLines : (Line.joined before).count '\n' = before.length := by
    exact Line.count_newline_joined fun line member => clean line (isPrefix.subset member)
  have cleanPart : '\n' ∉ part ∧ Line.width part ≤ most := by
    rcases ofLine with rfl | ⟨line, member, more, whole⟩
    · exact ⟨List.not_mem_nil, Nat.zero_le most⟩
    · have inside := clean line member
      have wide := narrow line member
      rw [← whole] at inside wide
      refine ⟨?_, (Line.width_le_width_append part more).trans wide⟩
      intro newline
      exact inside (List.mem_append_left more newline)
  have noMore : part.count '\n' = 0 := List.count_eq_zero.mpr cleanPart.1
  have fewer := isPrefix.length_le
  rw [taken, past_eq, Line.rtakeWhile_joined_append before cleanPart.1, List.count_append,
    wholeLines, noMore]
  constructor
  · change 1 + (before.length + 0) ≤ lines.length + 1
    omega
  · change 1 + Line.width part ≤ most + 1
    omega

end Position

/-! ## The lines of bytes -/

namespace Line

def withoutReturn (line : List UInt8) : List UInt8 :=
  if line.getLast? = some carriageReturn then line.dropLast else line

/-- The lines of bytes: each ends before a line feed, without a carriage return right there,
and what follows the last line feed is a line if it is not empty. -/
inductive Breaks : List UInt8 → List (List UInt8) → Prop
  | nil : Breaks [] []
  | last {line} : lineFeed ∉ line → line ≠ [] → Breaks line [line]
  | ended (line) {rest lines} : lineFeed ∉ line → Breaks rest lines →
      Breaks (line ++ lineFeed :: rest) (withoutReturn line :: lines)

/-- One more byte at the beginning belongs to the first line. -/
theorem Breaks.cons {byte : UInt8} {bytes : List UInt8} {lines : List (List UInt8)}
    (breaks : Breaks bytes lines) (other : byte ≠ lineFeed)
    (noEnd : ¬ (byte = carriageReturn ∧ bytes.head? = some lineFeed)) :
    Breaks (byte :: bytes) (prepend byte lines) := by
  cases breaks with
  | nil => exact .last (by simpa using Ne.symm other) (by simp)
  | last noLineFeed nonempty =>
      refine .last ?_ (by simp)
      simpa using ⟨Ne.symm other, noLineFeed⟩
  | ended line noLineFeed behind =>
      have kept : withoutReturn (byte :: line) = byte :: withoutReturn line := by
        cases line with
        | nil =>
            have noReturn : byte ≠ carriageReturn := by
              intro isReturn
              exact noEnd ⟨isReturn, rfl⟩
            simp [withoutReturn, noReturn]
        | cons next line =>
            rw [withoutReturn, withoutReturn, List.getLast?_cons_cons]
            split <;> rfl
      rw [prepend, ← kept]
      refine .ended (byte :: line) ?_ behind
      simpa using ⟨Ne.symm other, noLineFeed⟩

theorem breaks_split (bytes : List UInt8) : Breaks bytes (split bytes) := by
  fun_induction split bytes with
  | case1 => exact .nil
  | case2 => exact .ended [] (by simp) .nil
  | case3 byte other => exact .last (by simpa using Ne.symm other) (by simp)
  | case4 following rest induction => exact .ended [] (by simp) induction
  | case5 byte following rest _ ends induction =>
      rw [ends.1, ends.2]
      exact .ended [carriageReturn] (by decide) induction
  | case6 byte following rest other noEnd induction =>
      apply induction.cons other
      simpa using noEnd

end Line

/-! ## The source of bytes -/

/-- How the source of some bytes is read. -/
structure Source.Streams (source : Source) (bytes : List UInt8) : Prop where
  /-- The lines are those of the bytes. -/
  lines : ∃ pieces, Line.Breaks bytes pieces ∧ source.lines = pieces.map Line.decode
  /-- Reads give the items one by one, and from then on nothing. -/
  reads : ∀ count, (source.opened.after count).next.1 = source.items[count]?
  /-- The items are the characters of all lines, or of those before the first one that cannot
  be read, and then one failure. -/
  characters :
    source.lines = source.readable.map some ∧
      source.items.map Item.value? = (Line.joined source.readable).map some ∨
    ∃ later, source.lines = source.readable.map some ++ none :: later ∧
      source.items.map Item.value? = (Line.joined source.readable).map some ++ [none]
  /-- The place that comes with a character is told by the characters up to that one. -/
  places : ∀ index value next, source.items[index]? = some (.character value next) →
    let read := (Line.joined source.readable).take (index + 1)
    next.name = source.name ∧
      next.start.line = 1 + read.count '\n' ∧
      next.start.column = 1 + Line.width (read.rtakeWhile (· ≠ '\n')) ∧
      next.stop = { next.start with column := next.start.column + 1 }
  /-- The places follow each other. -/
  increasing : (source.locations source.items).Pairwise fun earlier later =>
    earlier.start < later.start
  /-- Lines and columns are words of 32 bits if the number of lines and their widths, one more
  line and two more columns included, are. -/
  fits : source.readable.length + 1 < 2 ^ 32 →
    (∀ line ∈ source.readable, Line.width line.toList + 2 < 2 ^ 32) →
    ∀ location ∈ source.locations source.items, location.start.Fits ∧ location.stop.Fits
  /-- A line is known if one of its characters has been read, its newline included. -/
  known : ∀ count number, Line.numbered (source.opened.after count).known number =
    if number ∈ (Line.lineNumbers 0 source.readable).take count then
      source.readable.getD (number - 1) ""
    else
      ""

namespace Source

theorem places_items (source : Source) {index : Nat} {value : Char} {next : Location}
    (found : source.items[index]? = some (.character value next)) :
    next = .single source.name
      (Position.past {} ((Line.joined source.readable).take (index + 1))) := by
  have read : (Line.characters source.lines)[index]? = some (some value) := by
    rw [← Item.map_value?_locate source.name {} (Line.characters source.lines), List.getElem?_map]
    exact congrArg (Option.map Item.value?) found
  rcases Line.characters_eq_append source.lines with ⟨rest, whole, failures⟩
  change Line.characters source.lines = (Line.joined source.readable).map some ++ rest at whole
  by_cases inside : index < (Line.joined source.readable).length
  · have placed := Item.getElem?_locate source.name {} (Line.joined source.readable) rest inside
    rw [← whole] at placed
    have same := Option.some_inj.mp (found.symm.trans placed)
    cases same
    rfl
  · rw [whole, List.getElem?_append_right (by simpa using Nat.le_of_not_lt inside)] at read
    cases failures (some value) (List.mem_of_getElem? read)

/-- Every location is that of a position behind some characters of the source. -/
theorem exists_eq_single_of_mem_locations (source : Source) {location : Location}
    (member : location ∈ source.locations source.items) :
    ∃ count, location = .single source.name
      (Position.past {} ((Line.joined source.readable).take count)) := by
  rcases List.mem_cons.mp member with first | later
  · exact ⟨0, first⟩
  · rcases List.mem_filterMap.mp later with ⟨item, read, delivers⟩
    cases item with
    | failure error => cases delivers
    | character value next =>
        cases delivers
        rcases List.mem_iff_getElem?.mp read with ⟨index, found⟩
        exact ⟨index + 1, places_items source found⟩

/-- The source of any bytes is read as it should be. -/
theorem streams_ofBytes (name : String) (bytes : List UInt8) :
    (Source.ofBytes name bytes).Streams bytes where
  lines := ⟨Line.split bytes, Line.breaks_split bytes, rfl⟩
  reads := next_opened _
  characters := by
    rw [items, Item.map_value?_locate]
    exact Line.exists_split_readable _
  places := by
    intro index value next found
    have place := places_items _ found
    rw [Position.past_eq] at place
    rw [place]
    exact ⟨rfl, rfl, rfl, rfl⟩
  increasing := Item.pairwise_locate name {} _
  fits := by
    intro fewLines narrow location member
    rcases exists_eq_single_of_mem_locations _ member with ⟨count, rfl⟩
    have widths : ∀ line ∈ (Source.ofBytes name bytes).readable,
        Line.width line.toList ≤ 2 ^ 32 - 3 := by
      intro line inside
      have wide := narrow line inside
      omega
    have bounds := Position.past_take_joined_le
      (fun line => newline_not_mem_of_mem_readable) widths count
    simp only [Location.single, Position.Fits, Position.advance]
    omega
  known := by
    intro count number
    rw [known_opened]
    exact Line.numbered_reached count number _

end Source

end Firmware
