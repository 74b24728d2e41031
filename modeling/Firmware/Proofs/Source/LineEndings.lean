import Firmware.Build
import Firmware.Proofs.Sketch.Lines
import Firmware.Proofs.Source.Streaming
import Firmware.Proofs.Token.LineByLine

/-! # Line endings

A line may end with a newline alone or with a carriage return before it, and the last line of a
text need not be ended. A reader does not see the difference, since lines are given without what
ends them. Main statement: two texts that differ in this way alone are the same source, so they
are read alike and lead to the same program or the same report. -/

namespace Firmware

namespace Line

/-- A character of a text at its place, with a carriage return before it if it is a newline and
the place is chosen. -/
def withReturn (chosen : Nat → Bool) (entry : Char × Nat) : List Char :=
  if entry.1 = '\n' ∧ chosen entry.2 then ['\r', '\n'] else [entry.1]

/-- A text with carriage returns before the newlines at chosen places. -/
def withReturns (chosen : Nat → Bool) (characters : List Char) : List Char :=
  characters.zipIdx.flatMap (withReturn chosen)

/-- What may be added to a text of which the last line is not ended. -/
def endings : List (List Char) := [[], ['\n'], ['\r', '\n']]

end Line

/-- A text with carriage returns before some of its newlines, and perhaps with an end of its
last line. -/
structure Source.LineEndingsChanged (text other : String) : Prop where
  noReturn : '\r' ∉ text.toList
  changed : ∃ chosen, ∃ ending ∈ Line.endings,
    other.toList = Line.withReturns chosen text.toList ++ ending ∧
    (ending ≠ [] → text.toList ≠ [] ∧ text.toList.getLast? ≠ some '\n')

/-! ## What changed texts deliver -/

namespace Line

theorem delivered_cons_of_ne {character : Char} (noReturn : character ≠ '\r') {rest : List Char}
    (nonempty : rest ≠ []) : delivered (character :: rest) = character :: delivered rest := by
  apply delivered_cons nonempty
  intro ends
  exact noReturn ends.1

/-- Carriage returns before newlines are not delivered, whatever stands behind the text. -/
theorem delivered_returns {characters : List Char} (noReturn : '\r' ∉ characters)
    (chosen : Nat → Bool) (above : Nat) (ending : List Char) :
    delivered ((characters.zipIdx above).flatMap (withReturn chosen) ++ ending) =
      delivered (characters ++ ending) := by
  induction characters generalizing above with
  | nil => rfl
  | cons character rest induction =>
      rw [List.mem_cons, not_or] at noReturn
      have later := induction noReturn.2 (above + 1)
      rw [List.zipIdx_cons, List.flatMap_cons, List.append_assoc, List.cons_append, withReturn]
      by_cases newline : character = '\n'
      · subst newline
        rw [delivered_newline, ← later]
        split
        · exact (delivered_return _).trans (delivered_newline _)
        · exact delivered_newline _
      · rw [if_neg (fun ends => newline ends.1), List.singleton_append]
        by_cases last : rest ++ ending = []
        · rcases List.append_eq_nil_iff.mp last with ⟨noRest, noEnding⟩
          rw [noRest, noEnding]
          rfl
        · have nonempty : (rest.zipIdx (above + 1)).flatMap (withReturn chosen) ++ ending ≠ [] := by
            intro empty
            rw [empty] at later
            exact delivered_ne_nil last later.symm
          rw [delivered_cons_of_ne (Ne.symm noReturn.1) nonempty,
            delivered_cons_of_ne (Ne.symm noReturn.1) last, later]

theorem delivered_ending {ending : List Char} (isEnding : ending ∈ endings)
    (nonempty : ending ≠ []) : delivered ending = ['\n'] := by
  simp only [endings, List.mem_cons, List.not_mem_nil, or_false] at isEnding
  rcases isEnding with empty | newline | returned
  · exact absurd empty nonempty
  · rw [newline]
    rfl
  · rw [returned]
    exact delivered_return []

/-- The end of a last line that is not ended yet is delivered anyway. -/
theorem delivered_ended {characters ending : List Char} (noReturn : '\r' ∉ characters)
    (nonempty : characters ≠ []) (unended : characters.getLast? ≠ some '\n')
    (isEnding : ending ∈ endings) (ends : ending ≠ []) :
    delivered (characters ++ ending) = delivered characters := by
  induction characters with
  | nil => contradiction
  | cons character rest induction =>
      rw [List.mem_cons, not_or] at noReturn
      have goesOn {behind : List Char} (nonempty : behind ≠ []) :
          delivered (character :: behind) = character :: delivered behind :=
        delivered_cons_of_ne (Ne.symm noReturn.1) nonempty
      cases rest with
      | nil =>
          have noNewline : character ≠ '\n' := by simpa using unended
          rw [List.singleton_append, goesOn ends, delivered_ending isEnding ends, delivered,
            if_neg noNewline]
      | cons next rest =>
          rw [List.getLast?_cons_cons] at unended
          have later := induction noReturn.2 (List.cons_ne_nil next rest) unended
          rw [List.cons_append, goesOn (by simp), later, goesOn (List.cons_ne_nil next rest)]

/-- Lines are read off their sequence, each followed by a newline. -/
theorem eq_of_flatMap_eq {lines others : List (List Char)}
    (noNewlines : ∀ line ∈ lines, '\n' ∉ line) (otherNoNewlines : ∀ line ∈ others, '\n' ∉ line)
    (same : lines.flatMap (· ++ ['\n']) = others.flatMap (· ++ ['\n'])) : lines = others := by
  have cut : ∀ {line : List Char}, '\n' ∉ line → ∀ rest : List Char,
      (line ++ ['\n'] ++ rest).span (· != '\n') = (line, '\n' :: rest) := by
    intro line noNewline rest
    rw [List.append_assoc, List.singleton_append]
    apply span_append
    · intro character member
      simpa using ne_of_mem_of_not_mem member noNewline
    · simp
  have parts : lines.map id = others.map id := by
    apply map_eq_of_flatMap_eq id _ _ noNewlines otherNoNewlines same
    · intro line _
      simp
    · intro line other rest otherRest noNewline otherNoNewline together
      have both := congrArg (List.span (· != '\n')) together
      rw [cut noNewline, cut otherNoNewline] at both
      cases both
      exact ⟨rfl, rfl⟩
  simpa using parts

end Line

namespace Source

/-- Texts that deliver the same characters are the same source. -/
theorem ofBytes_eq_of_delivered {text other : String}
    (same : Line.delivered other.toList = Line.delivered text.toList) (name : String) :
    Source.ofBytes name (utf8 other) = Source.ofBytes name (utf8 text) := by
  rcases exists_lines_ofBytes_utf8 name text with ⟨lines, decoded, delivers⟩
  rcases exists_lines_ofBytes_utf8 name other with ⟨others, otherDecoded, otherDelivers⟩
  have noNewlines : ∀ {text : String} {lines : List (List Char)},
      (Source.ofBytes name (utf8 text)).lines = lines.map (fun line => some (String.ofList line)) →
      ∀ line ∈ lines, '\n' ∉ line := by
    intro text lines decoded line member
    have isLine : some (String.ofList line) ∈ (Source.ofBytes name (utf8 text)).lines := by
      rw [decoded]
      exact List.mem_map_of_mem member
    simpa using newline_not_mem_of_mem_lines isLine
  rw [delivers, otherDelivers] at same
  have sameLines := Line.eq_of_flatMap_eq (noNewlines otherDecoded) (noNewlines decoded) same
  have result : (Source.ofBytes name (utf8 other)).lines =
      (Source.ofBytes name (utf8 text)).lines := by
    rw [otherDecoded, decoded, sameLines]
  exact congrArg (Source.mk name) result

theorem LineEndingsChanged.delivered_eq {text other : String}
    (changed : LineEndingsChanged text other) :
    Line.delivered other.toList = Line.delivered text.toList := by
  rcases changed with ⟨noReturn, chosen, ending, isEnding, written, unended⟩
  rw [written, Line.withReturns, Line.delivered_returns noReturn]
  by_cases ends : ending = []
  · rw [ends, List.append_nil]
  · rcases unended ends with ⟨nonempty, noNewline⟩
    exact Line.delivered_ended noReturn nonempty noNewline isEnding ends

/-- Another source is read in the same way and comes to the same. -/
structure ReadAlike (source other : Source) : Prop where
  start : other.start = source.start
  /-- Reads give the same characters and locations. -/
  items : ∀ reads, (other.opened.after reads).next.1 = (source.opened.after reads).next.1
  /-- The same lines are known behind them. -/
  known : ∀ reads, (other.opened.after reads).known = (source.opened.after reads).known
  lexed : other.lexed = source.lexed
  tokens : other.tokens = source.tokens
  program : other.program = source.program
  accepted : other.accept = source.accept
  report : ∀ rejection, source.accept = .error rejection →
    (rejection.report other).render = (rejection.report source).render
  code : other.program.map Program.generate = source.program.map Program.generate

/-- How its lines end does not matter to what becomes of a text. -/
theorem line_endings_irrelevant {text other : String} (changed : LineEndingsChanged text other)
    (name : String) :
    ReadAlike (Source.ofBytes name (utf8 text)) (Source.ofBytes name (utf8 other)) := by
  have same := ofBytes_eq_of_delivered changed.delivered_eq name
  rw [same]
  exact ⟨rfl, fun _ => rfl, fun _ => rfl, rfl, rfl, rfl, rfl, fun _ _ => rfl, rfl⟩

/-- A comment, a blank line, a text that is not closed and a last line that is not ended. -/
theorem mixed_endings_read_alike :
    let text := "// led\n\nvar texto: \"a\nled"
    let other := "// led\r\n\nvar texto: \"a\r\nled\r\n"
    LineEndingsChanged text other ∧
      ReadAlike (Source.ofBytes "mixed" (utf8 text)) (Source.ofBytes "mixed" (utf8 other)) := by
  intro text other
  have changed : LineEndingsChanged text other := by
    have unreturned : '\r' ∉ text.toList := by decide +kernel
    refine ⟨unreturned, fun place => place != 7, ['\r', '\n'], by decide, by decide +kernel, ?_⟩
    intro _
    exact ⟨by decide +kernel, by decide +kernel⟩
  exact ⟨changed, line_endings_irrelevant changed "mixed"⟩

end Source

end Firmware
