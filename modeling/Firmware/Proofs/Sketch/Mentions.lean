import Firmware.Proofs.Sketch.Lines

/-! # Names that a text mentions

A text mentions a name that stands in it with no character of a word right beside it. A text made
of parts mentions what one of the parts mentions, and where no word goes on from one part to the
next, it mentions no other words. So the lines of a sketch can be looked at one by one. -/

namespace Firmware

/-! ## Names in a text -/

/-- The text does not begin with a character of a word. -/
def BeginsApart (text : String) : Prop :=
  ∀ character ∈ text.toList.head?, isWordPart character = false

/-- The text does not end with a character of a word. -/
def EndsApart (text : String) : Prop :=
  ∀ character ∈ text.toList.getLast?, isWordPart character = false

instance : DecidablePred BeginsApart := fun text =>
  decidable_of_iff ((text.toList.head?.all fun character => !isWordPart character) = true)
    (by cases first : text.toList.head? <;> simp [BeginsApart, first])

instance : DecidablePred EndsApart := fun text =>
  decidable_of_iff ((text.toList.getLast?.all fun character => !isWordPart character) = true)
    (by cases last : text.toList.getLast? <;> simp [EndsApart, last])

/-- A name stands in a text, and no character of a word stands right beside it. -/
def Mentions (text name : String) : Prop :=
  ∃ before after, text = before ++ name ++ after ∧ EndsApart before ∧ BeginsApart after

/-- Of two ways to cut a text in two, one cuts where the other does or further on. -/
theorem append_eq_append_cases {front back first second : String}
    (same : front ++ back = first ++ second) :
    (∃ middle, first = front ++ middle ∧ back = middle ++ second) ∨
      ∃ middle, front = first ++ middle ∧ second = middle ++ back := by
  have characters := congrArg String.toList same
  rw [String.toList_append, String.toList_append] at characters
  rcases List.append_eq_append_iff.mp characters with ⟨middle, left, right⟩ | ⟨middle, left, right⟩
  · left
    exact ⟨.ofList middle, by simp [← String.toList_inj, left],
      by simp [← String.toList_inj, right]⟩
  · right
    exact ⟨.ofList middle, by simp [← String.toList_inj, left],
      by simp [← String.toList_inj, right]⟩

section Apart

variable {text other : String}

theorem BeginsApart.append (begins : BeginsApart text) (otherBegins : BeginsApart other) :
    BeginsApart (text ++ other) := by
  intro character first
  rw [String.toList_append, List.head?_append] at first
  rcases Option.or_eq_some_iff.mp first with inText | ⟨-, inOther⟩
  · exact begins character inText
  · exact otherBegins character inOther

theorem EndsApart.append (ends : EndsApart text) (otherEnds : EndsApart other) :
    EndsApart (text ++ other) := by
  intro character last
  rw [String.toList_append, List.getLast?_append] at last
  rcases Option.or_eq_some_iff.mp last with inOther | ⟨-, inText⟩
  · exact otherEnds character inOther
  · exact ends character inText

theorem BeginsApart.append_right (begins : BeginsApart text) (nonempty : text ≠ "") :
    BeginsApart (text ++ other) := by
  intro character first
  apply begins
  rw [String.toList_append, List.head?_append_of_ne_nil _ (by simpa using nonempty)] at first
  exact first

theorem EndsApart.append_left (ends : EndsApart text) (nonempty : text ≠ "") :
    EndsApart (other ++ text) := by
  intro character last
  apply ends
  rw [String.toList_append, List.getLast?_append_of_ne_nil _ (by simpa using nonempty)] at last
  exact last

theorem BeginsApart.of_append (begins : BeginsApart (text ++ other)) : BeginsApart text := by
  intro character first
  apply begins
  rw [String.toList_append, List.head?_append, Option.mem_def.mp first]
  rfl

theorem EndsApart.of_append (ends : EndsApart (text ++ other)) : EndsApart other := by
  intro character last
  apply ends
  rw [String.toList_append, List.getLast?_append, Option.mem_def.mp last]
  rfl

theorem empty_of_beginsApart (word : ∀ character ∈ text.toList, isWordPart character = true)
    (begins : BeginsApart text) : text = "" := by
  cases characters : text.toList with
  | nil => exact String.toList_inj.mp characters
  | cons first rest =>
      have part := word first (by simp [characters])
      have apart := begins first (by simp [characters])
      rw [part] at apart
      cases apart

theorem empty_of_endsApart (word : ∀ character ∈ text.toList, isWordPart character = true)
    (ends : EndsApart text) : text = "" := by
  cases last : text.toList.getLast? with
  | none => exact String.toList_inj.mp (List.getLast?_eq_none_iff.mp last)
  | some character =>
      have part := word character (List.mem_of_getLast? last)
      have apart := ends character last
      rw [part] at apart
      cases apart

end Apart

namespace Mentions

variable {text front back name : String}

theorem refl (name : String) : Mentions name name :=
  ⟨"", "", by simp, by decide, by decide⟩

/-- What a part of a text mentions, the whole text does. -/
theorem between (mentioned : Mentions text name) (ends : EndsApart front)
    (begins : BeginsApart back) : Mentions (front ++ text ++ back) name := by
  rcases mentioned with ⟨before, after, rfl, starts, stops⟩
  exact ⟨front ++ before, after ++ back, by simp [String.append_assoc], ends.append starts,
    stops.append begins⟩

/-- A word that a text mentions is mentioned by one of two parts, if a character between
them belongs to no word. -/
theorem of_append (mentioned : Mentions (front ++ back) name)
    (word : ∀ character ∈ name.toList, isWordPart character = true)
    (apart : EndsApart front ∨ BeginsApart back) : Mentions front name ∨ Mentions back name := by
  rcases mentioned with ⟨before, after, whole, starts, stops⟩
  rw [String.append_assoc] at whole
  rcases append_eq_append_cases whole with ⟨rest, rfl, rfl⟩ | ⟨rest, rfl, remains⟩
  · right
    exact ⟨rest, after, by rw [String.append_assoc], starts.of_append, stops⟩
  · rcases append_eq_append_cases remains with ⟨last, rfl, rfl⟩ | ⟨last, rfl, rfl⟩
    · left
      exact ⟨before, last, by rw [String.append_assoc], starts, stops.of_append⟩
    · -- The cut is inside the name, so one part of the name is empty.
      rcases apart with ends | begins
      · obtain rfl : rest = "" := by
          exact empty_of_endsApart (fun character member => word character (by simp [member]))
            ends.of_append
        right
        exact ⟨"", after, by simp, by decide, stops⟩
      · obtain rfl : last = "" := by
          exact empty_of_beginsApart (fun character member => word character (by simp [member]))
            begins.of_append
        left
        exact ⟨before, "", by simp, starts, by decide⟩

/-- A word mentions no other word. -/
theorem eq_of_word {part name : String} (mentioned : Mentions part name)
    (word : ∀ character ∈ part.toList, isWordPart character = true) : part = name := by
  rcases mentioned with ⟨before, after, rfl, ends, begins⟩
  obtain rfl : before = "" := by
    exact empty_of_endsApart (fun character member => word character (by simp [member])) ends
  obtain rfl : after = "" := by
    exact empty_of_beginsApart (fun character member => word character (by simp [member])) begins
  simp

end Mentions

/-! ## Names in lines -/

namespace CodeLine

theorem endsApart_joined (lines : List CodeLine) : EndsApart (joined lines) := by
  intro character last
  rw [eq_newline_of_getLast?_joined lines character last]
  decide

theorem endsApart_blanks (count : Nat) : EndsApart (.ofList (List.replicate count ' ')) := by
  intro character last
  have blank : character = ' ' := by
    exact List.eq_of_mem_replicate (List.mem_of_getLast? (by simpa using last))
  rw [blank]
  decide

/-- What a line mentions, a text with that line does. -/
theorem mentions_joined {lines : List CodeLine} {line : CodeLine} (member : line ∈ lines)
    {name : String} (mentioned : Mentions line.text name) : Mentions (joined lines) name := by
  rcases List.append_of_mem member with ⟨before, after, rfl⟩
  have ends := (endsApart_joined before).append (endsApart_blanks (indentation * line.depth))
  have begins : BeginsApart ("\n" ++ joined after) := by
    exact BeginsApart.append_right (by decide) (by decide)
  have inside := mentioned.between ends begins
  simpa [joined_append, joined_cons, render, String.append_assoc] using inside

end CodeLine

end Firmware
