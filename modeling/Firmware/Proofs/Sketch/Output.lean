import Firmware.Proofs.Source.Text

/-! # Sketches in an output of limited room

A sink fills up with the beginning of what is written to it. Where a text is cut into
writes makes no difference: each write goes on where the one before it has stopped, and
the first that does not fit takes what is left of the room. So a sketch that is written
line by line fares like one write of its whole text. -/

namespace Firmware

namespace Sink

/-- A sink of some room and with some error, behind the attempt to write a text to it. -/
def offered (failure : WriteError) (room : Nat) (text : List UInt8) : Sink where
  room := some (room - text.length)
  written := text.take (min room text.length)
  failure

/-- How the attempt ends to write a text to a sink of some room: well if the text fits, and else
with what is made of the error of the sink. -/
def offer {Error : Type} (report : WriteError → Error) (failure : WriteError) (room : Nat)
    (text : List UInt8) : EStateM.Result Error Sink Unit :=
  if text.length ≤ room then .ok () (offered failure room text)
  else .error (report failure) (offered failure room text)

theorem write_empty : write [] = pure () := by
  funext sink
  rcases sink with ⟨_ | room, written, failure⟩ <;> simp [write, pure, EStateM.pure]

/-- A text is written as well in two parts. -/
theorem write_append (first second : List UInt8) :
    write (first ++ second) = (do write first; write second) := by
  funext sink
  rcases sink with ⟨_ | room, written, failure⟩
  · simp [write, bind, EStateM.bind]
  · by_cases firstFits : first.length ≤ room
    · have sum : (first ++ second).length ≤ room ↔ second.length ≤ room - first.length := by
        rw [List.length_append]
        omega
      have left : room - (first ++ second).length = room - first.length - second.length := by
        rw [List.length_append]
        omega
      have taken : (first ++ second).take room = first ++ second.take (room - first.length) := by
        rw [List.take_append, List.take_of_length_le firstFits]
      simp only [write, bind, EStateM.bind, firstFits, if_true, sum, left, taken,
        List.append_assoc]
    · have tooLong : ¬ (first ++ second).length ≤ room := by
        rw [List.length_append]
        omega
      have taken : (first ++ second).take room = first.take room :=
        List.take_append_of_le_length (by omega)
      simp only [write, bind, EStateM.bind, firstFits, tooLong, if_false, taken]

theorem forM_write (pieces : List (List UInt8)) :
    pieces.forM write = write pieces.flatten := by
  induction pieces with
  | nil => exact write_empty.symm
  | cons piece pieces induction =>
      rw [List.flatten_cons, write_append, ← induction]
      rfl

theorem writeLines_eq_forM (lines : List CodeLine) :
    writeLines lines = (lines.map fun line => utf8 line.render).forM write := by
  induction lines with
  | nil => rfl
  | cons line lines induction =>
      rw [writeLines, induction]
      rfl

theorem writeLines_singleton (line : CodeLine) : writeLines [line] = write (utf8 line.render) := by
  rw [writeLines, writeLines]
  exact bind_pure_unit

theorem writeLines_append (lines others : List CodeLine) :
    writeLines (lines ++ others) = (do writeLines lines; writeLines others) := by
  induction lines with
  | nil => rfl
  | cons line lines induction =>
      rw [List.cons_append, writeLines, writeLines, induction, bind_assoc]

theorem write_limited (failure : WriteError) (room : Nat) (text : List UInt8) :
    write text { room := some room, failure } = offer id failure room text := by
  by_cases fits : text.length ≤ room
  · simp [write, offer, offered, fits]
  · have least : min room text.length = room := by omega
    have noRoom : room - text.length = 0 := by omega
    simp [write, offer, offered, fits, least, noRoom]

end Sink

theorem utf8_join (texts : List String) : utf8 (String.join texts) = (texts.map utf8).flatten := by
  simp only [utf8_eq_flatMap, String.toList_join, List.flatMap_assoc, List.flatten_eq_flatMap,
    List.flatMap_map, id]

namespace Program

variable (program : Program)

theorem emit_eq_write : program.emit = Sink.write (utf8 program.generate) := by
  rw [emit, Sink.writeLines_eq_forM, Sink.forM_write, generate, utf8_join, List.map_map]
  rfl

variable {program}

theorem compile_of_refused {error : SemanticError} (refused : program.analyze = .error error) :
    program.compile = throw (.semantic error) := by
  rw [compile, refused]

theorem compile_of_accepted {table : SymbolTable} (accepted : program.analyze = .ok table) :
    program.compile = program.emit.adaptExcept .output := by
  rw [compile, accepted]

/-- An output of limited room holds the beginning of the sketch, whatever pieces the sketch
is written in, and writing it succeeds if all of it fits, and else fails with the error of the
output. A program that the analysis refuses leaves the output as it was. -/
theorem limited_output (program : Program) (failure : WriteError) (room : Nat) :
    program.emit { room := some room, failure } =
      Sink.offer id failure room (utf8 program.generate) ∧
    (∀ pieces : List (List UInt8), pieces.flatten = utf8 program.generate →
      pieces.forM Sink.write = program.emit) ∧
    (∀ error, program.analyze = .error error →
      program.compile { room := some room, failure } =
        .error (.semantic error) { room := some room, written := [], failure }) ∧
    ∀ table, program.analyze = .ok table →
      program.compile { room := some room, failure } =
        Sink.offer .output failure room (utf8 program.generate) := by
  have emitted : program.emit { room := some room, failure } =
      Sink.offer id failure room (utf8 program.generate) := by
    rw [emit_eq_write, Sink.write_limited]
  refine ⟨emitted, ?_, ?_, ?_⟩
  · intro pieces whole
    rw [Sink.forM_write, whole, emit_eq_write]
  · intro error refused
    rw [compile_of_refused refused]
    rfl
  · intro table accepted
    rw [compile_of_accepted accepted, EStateM.adaptExcept, emitted]
    by_cases fits : (utf8 program.generate).length ≤ room
    · simp only [Sink.offer, fits, if_true]
    · simp only [Sink.offer, fits, if_false, id]

end Program

end Firmware
