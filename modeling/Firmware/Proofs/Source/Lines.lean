import Firmware.Proofs.Source.Text

/-! # The lines of a source

No line holds a newline, and a line that can be read is encoded by its bytes. The source
of a text delivers the characters of the text, with two changes: a carriage return right
before a newline is dropped, and the last line is ended by a newline if it is not yet. -/

namespace Firmware

/-! ## Bytes of lines -/

namespace Line

theorem lineFeed_not_mem_of_mem_split (bytes : List UInt8) :
    ∀ line ∈ split bytes, lineFeed ∉ line := by
  fun_induction split bytes with
  | case1 => simp
  | case2 => simp
  | case3 byte other => simpa using Ne.symm other
  | case4 following rest induction =>
      intro line member
      rcases List.mem_cons.mp member with rfl | later
      · simp
      · exact induction line later
  | case5 byte following rest _ _ induction =>
      intro line member
      rcases List.mem_cons.mp member with rfl | later
      · simp
      · exact induction line later
  | case6 byte following rest other _ induction =>
      intro line member
      cases lines : split (following :: rest) with
      | nil =>
          rw [lines, prepend, List.mem_singleton] at member
          simpa [member] using Ne.symm other
      | cons first later =>
          rw [lines] at induction
          rw [lines, prepend] at member
          rcases List.mem_cons.mp member with rfl | others
          · simpa using ⟨Ne.symm other, induction first List.mem_cons_self⟩
          · exact induction line (List.mem_cons_of_mem _ others)

theorem utf8_of_decode {bytes : List UInt8} {line : String} (decoded : decode bytes = some line) :
    utf8 line = bytes := by
  rw [decode, String.fromUTF8?] at decoded
  split at decoded
  · cases decoded
    rw [utf8_eq_data]
    rfl
  · cases decoded

theorem mem_of_mem_readable {lines : List (Option String)} {line : String}
    (member : line ∈ readable lines) : some line ∈ lines := by
  induction lines with
  | nil => cases member
  | cons first rest induction =>
      cases first with
      | none => cases member
      | some text =>
          rcases List.mem_cons.mp member with rfl | later
          · exact List.mem_cons_self
          · exact List.mem_cons_of_mem _ (induction later)

end Line

theorem Source.newline_not_mem_of_mem_lines {name : String} {bytes : List UInt8} {line : String}
    (member : some line ∈ (Source.ofBytes name bytes).lines) : '\n' ∉ line.toList := by
  rcases List.mem_map.mp member with ⟨lineBytes, split, decoded⟩
  intro newline
  apply Line.lineFeed_not_mem_of_mem_split bytes lineBytes split
  rw [← Line.utf8_of_decode decoded, utf8_eq_flatMap, List.mem_flatMap]
  exact ⟨'\n', newline, by decide⟩

theorem Source.newline_not_mem_of_mem_readable {name : String} {bytes : List UInt8} {line : String}
    (member : line ∈ (Source.ofBytes name bytes).readable) : '\n' ∉ line.toList :=
  newline_not_mem_of_mem_lines (Line.mem_of_mem_readable member)

/-! ## The characters of a text -/

namespace Line

theorem split_lineFeed (rest : List UInt8) : split (lineFeed :: rest) = [] :: split rest := by
  cases rest <;> rfl

theorem split_return (rest : List UInt8) :
    split (carriageReturn :: lineFeed :: rest) = split (lineFeed :: rest) := by
  rw [split_lineFeed]
  rfl

/-- Bytes without a line feed belong to the line of the bytes behind them. -/
theorem split_append {front back line : List UInt8} {rest : List (List UInt8)}
    (noLineFeed : lineFeed ∉ front)
    (noReturn : carriageReturn ∉ front ∨ back.head? ≠ some lineFeed)
    (following : split back = line :: rest) :
    split (front ++ back) = (front ++ line) :: rest := by
  induction front with
  | nil => exact following
  | cons byte front induction =>
      simp only [List.mem_cons, not_or] at noLineFeed noReturn
      have later := induction noLineFeed.2 (noReturn.imp_left And.right)
      cases behind : front ++ back with
      | nil =>
          rw [behind] at later
          cases later
      | cons next others =>
          have noEnd : ¬ (byte = carriageReturn ∧ next = lineFeed) := by
            rintro ⟨rfl, rfl⟩
            cases front with
            | nil =>
                rw [List.nil_append] at behind
                rcases noReturn with absent | other
                · exact absent.1 rfl
                · exact other (by rw [behind]; rfl)
            | cons first front =>
                cases behind
                exact noLineFeed.2 List.mem_cons_self
          rw [behind] at later
          rw [List.cons_append, behind, split, if_neg (Ne.symm noLineFeed.1), if_neg noEnd, later]
          rfl

/-- The characters that the source of a text delivers. -/
def delivered : List Char → List Char
  | [] => []
  | [last] => if last = '\n' then ['\n'] else [last, '\n']
  | character :: next :: rest =>
      if character = '\r' ∧ next = '\n' then delivered (next :: rest)
      else character :: delivered (next :: rest)

theorem delivered_return (rest : List Char) :
    delivered ('\r' :: '\n' :: rest) = delivered ('\n' :: rest) := by
  simp [delivered]

theorem delivered_ne_nil {characters : List Char} (nonempty : characters ≠ []) :
    delivered characters ≠ [] := by
  fun_induction delivered characters with
  | case1 => contradiction
  | case2 => simp
  | case3 => simp
  | case4 character next rest _ induction => exact induction (by simp)
  | case5 => simp

theorem delivered_cons {character : Char} {rest : List Char} (nonempty : rest ≠ [])
    (noEnd : ¬ (character = '\r' ∧ rest.head? = some '\n')) :
    delivered (character :: rest) = character :: delivered rest := by
  cases rest with
  | nil => contradiction
  | cons next rest =>
      rw [delivered, if_neg]
      simpa using noEnd

theorem delivered_newline (rest : List Char) :
    delivered ('\n' :: rest) = '\n' :: delivered rest := by
  cases rest with
  | nil => rfl
  | cons next rest => exact delivered_cons (by simp) (by simp)

/-- Characters on one line are delivered as they are. -/
theorem delivered_append {front back : List Char} (noNewline : '\n' ∉ front)
    (noReturn : front.getLast? ≠ some '\r') (nonempty : back ≠ []) :
    delivered (front ++ back) = front ++ delivered back := by
  induction front with
  | nil => rfl
  | cons character front induction =>
      rw [List.mem_cons, not_or] at noNewline
      cases front with
      | nil =>
          have other : character ≠ '\r' := by simpa using noReturn
          exact delivered_cons nonempty fun ends => other ends.1
      | cons next front =>
          have noReturnBehind : (next :: front).getLast? ≠ some '\r' := by
            rwa [List.getLast?_cons_cons] at noReturn
          have noEnd : ¬ (character = '\r' ∧ ((next :: front) ++ back).head? = some '\n') := by
            rintro ⟨-, newline⟩
            rw [List.cons_append, List.head?_cons, Option.some_inj] at newline
            exact noNewline.2 (newline ▸ List.mem_cons_self)
          rw [List.cons_append, delivered_cons (by simp) noEnd,
            induction noNewline.2 noReturnBehind]
          rfl

/-- The rest of a line is delivered, except for a carriage return at its end. -/
theorem delivered_line {line : List Char} (noNewline : '\n' ∉ line) (rest : List Char) :
    ∃ shortened, '\n' ∉ shortened ∧
      delivered (line ++ '\n' :: rest) = shortened ++ '\n' :: delivered rest := by
  induction line with
  | nil => exact ⟨[], by simp, delivered_newline rest⟩
  | cons character line induction =>
      rw [List.mem_cons, not_or] at noNewline
      rcases induction noNewline.2 with ⟨shortened, stillNone, delivers⟩
      by_cases ends : character = '\r' ∧ (line ++ '\n' :: rest).head? = some '\n'
      · rcases ends with ⟨rfl, head⟩
        rcases List.head?_eq_some_iff.mp head with ⟨others, behind⟩
        refine ⟨shortened, stillNone, ?_⟩
        rw [List.cons_append, behind, delivered_return, ← behind, delivers]
      · refine ⟨character :: shortened, by simpa using ⟨noNewline.1, stillNone⟩, ?_⟩
        rw [List.cons_append, delivered_cons (by simp) ends, delivers]
        rfl

theorem lineFeed_not_mem_utf8EncodeChar {character : Char} (noNewline : character ≠ '\n') :
    lineFeed ∉ String.utf8EncodeChar character := fun member =>
  noNewline (eq_newline_of_mem_utf8EncodeChar member)

theorem return_not_mem_utf8EncodeChar {character : Char} (noReturn : character ≠ '\r') :
    carriageReturn ∉ String.utf8EncodeChar character := by
  intro member
  have code : character.toNat = 13 := toNat_eq_of_mem_utf8EncodeChar (by decide) member
  exact noReturn (Char.ext (UInt32.toNat_inj.mp code))

theorem head?_utf8_ne_lineFeed {characters : List Char}
    (noNewline : characters.head? ≠ some '\n') :
    (characters.flatMap String.utf8EncodeChar).head? ≠ some lineFeed := by
  cases characters with
  | nil => simp
  | cons first rest =>
      have other : first ≠ '\n' := by simpa using noNewline
      rcases List.exists_cons_of_ne_nil (String.utf8EncodeChar_ne_nil : _ ≠ []) with
        ⟨byte, bytes, encoded⟩
      have absent := lineFeed_not_mem_utf8EncodeChar other
      rw [encoded, List.mem_cons, not_or] at absent
      rw [List.flatMap_cons, encoded]
      simpa using Ne.symm absent.1

/-- The lines of a text are texts again, and they hold what the text delivers. -/
theorem exists_split_eq (characters : List Char) :
    ∃ lines : List (List Char),
      split (characters.flatMap String.utf8EncodeChar) =
        lines.map (fun line => line.flatMap String.utf8EncodeChar) ∧
      delivered characters = lines.flatMap (· ++ ['\n']) := by
  induction characters with
  | nil => exact ⟨[], rfl, rfl⟩
  | cons character rest induction =>
      rcases induction with ⟨lines, splits, delivers⟩
      by_cases newline : character = '\n'
      · subst newline
        refine ⟨[] :: lines, ?_, ?_⟩
        · rw [List.map_cons, ← splits]
          exact split_lineFeed _
        · rw [delivered_newline, delivers]
          rfl
      have noLineFeed := lineFeed_not_mem_utf8EncodeChar newline
      by_cases last : rest = []
      · subst last
        refine ⟨[[character]], ?_, by simp [delivered, newline]⟩
        simpa using split_of_not_mem noLineFeed String.utf8EncodeChar_ne_nil
      by_cases ends : character = '\r' ∧ rest.head? = some '\n'
      · rcases ends with ⟨rfl, head⟩
        rcases List.head?_eq_some_iff.mp head with ⟨others, rfl⟩
        rw [delivered_return]
        exact ⟨lines, (split_return _).trans splits, delivers⟩
      rw [delivered_cons last ends]
      cases lines with
      | nil => exact absurd delivers (delivered_ne_nil last)
      | cons line lines =>
          refine ⟨(character :: line) :: lines, ?_, by rw [delivers]; rfl⟩
          have noReturn : carriageReturn ∉ String.utf8EncodeChar character ∨
              (rest.flatMap String.utf8EncodeChar).head? ≠ some lineFeed := by
            by_cases isReturn : character = '\r'
            · exact .inr (head?_utf8_ne_lineFeed fun head => ends ⟨isReturn, head⟩)
            · exact .inl (return_not_mem_utf8EncodeChar isReturn)
          exact split_append noLineFeed noReturn splits

theorem exists_delivered_eq (characters : List Char) :
    ∃ lines : List (List Char), (∀ line ∈ lines, '\n' ∉ line) ∧
      delivered characters = lines.flatMap (· ++ ['\n']) := by
  rcases exists_split_eq characters with ⟨lines, splits, delivers⟩
  refine ⟨lines, ?_, delivers⟩
  intro line member newline
  have isLine : line.flatMap String.utf8EncodeChar ∈
      split (characters.flatMap String.utf8EncodeChar) := by
    rw [splits]
    exact List.mem_map_of_mem member
  apply lineFeed_not_mem_of_mem_split _ _ isLine
  exact List.mem_flatMap.mpr ⟨'\n', newline, by decide⟩

theorem characters_eq (lines : List (List Char)) :
    characters (lines.map fun line => some (String.ofList line)) =
      (lines.flatMap (· ++ ['\n'])).map some := by
  induction lines with
  | nil => rfl
  | cons line lines induction => simp [characters, induction]

end Line

/-- The lines of a text can all be read, and they hold what the text delivers. -/
theorem Source.exists_lines_ofBytes_utf8 (name text : String) :
    ∃ lines : List (List Char),
      (Source.ofBytes name (utf8 text)).lines = lines.map (fun line => some (String.ofList line)) ∧
      Line.delivered text.toList = lines.flatMap (· ++ ['\n']) := by
  rcases Line.exists_split_eq text.toList with ⟨lines, splits, delivers⟩
  refine ⟨lines, ?_, delivers⟩
  rw [ofBytes, utf8_eq_flatMap, splits, List.map_map]
  refine List.map_congr_left fun line _ => ?_
  rw [← decode_utf8, utf8_eq_flatMap, String.toList_ofList]
  rfl

/-- Lines that are all known can all be read. -/
theorem Line.readable_map_some (lines : List String) : readable (lines.map some) = lines := by
  induction lines with
  | nil => rfl
  | cons line lines induction => exact congrArg (line :: ·) induction

theorem Source.lines_ofBytes_utf8 (name text : String) :
    (Source.ofBytes name (utf8 text)).lines =
      (Source.ofBytes name (utf8 text)).readable.map some := by
  rcases Source.exists_lines_ofBytes_utf8 name text with ⟨lines, decoded, -⟩
  have known : (Source.ofBytes name (utf8 text)).lines = (lines.map String.ofList).map some := by
    rw [decoded, List.map_map]
    rfl
  rw [Source.readable, known, Line.readable_map_some]

theorem Source.characters_ofBytes_utf8 (name text : String) :
    Line.characters (Source.ofBytes name (utf8 text)).lines =
      (Line.delivered text.toList).map some := by
  rcases Source.exists_lines_ofBytes_utf8 name text with ⟨lines, decoded, delivers⟩
  rw [decoded, delivers, Line.characters_eq]

end Firmware
