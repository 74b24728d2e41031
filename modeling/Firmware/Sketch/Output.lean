import Firmware.Sketch.Code
import Firmware.Symbol.Analysis

/-! # Writing sketches

A sink takes bytes until its room is used up. It takes as much of a write as fits
and fails with an error of its own if that is not all of it. A sketch is written
line by line, and writing stops at the first failure. -/

namespace Firmware

/-- Why a sink takes no more, in its own words. -/
structure WriteError where
  message : String
  deriving DecidableEq, Repr

/-- A place to write to: the room that is left, without end if `none`, all bytes
taken so far, and the error of a write for which the room does not suffice. -/
structure Sink where
  room : Option Nat := none
  written : List UInt8 := []
  failure : WriteError := { message := "full" }
  deriving DecidableEq, Repr

inductive CompileError where
  | semantic (error : SemanticError)
  | output (error : WriteError)
  deriving DecidableEq, Repr

def CompileError.message : CompileError → String
  | .semantic error => error.message
  | .output _ => "I/O error"

def utf8 (text : String) : List UInt8 :=
  text.toUTF8.toList

def Sink.write (bytes : List UInt8) : EStateM WriteError Sink Unit := fun sink =>
  match sink.room with
  | none => .ok () { sink with written := sink.written ++ bytes }
  | some room =>
      if bytes.length ≤ room then
        .ok () { sink with
          room := some (room - bytes.length), written := sink.written ++ bytes }
      else
        .error sink.failure { sink with
          room := some 0, written := sink.written ++ bytes.take room }

def Sink.writeLines : List CodeLine → EStateM WriteError Sink Unit
  | [] => pure ()
  | line :: rest => do
      write (utf8 line.render)
      writeLines rest

namespace Program

/-- Writes the sketch of a program, whether it makes sense or not. -/
def emit (program : Program) : EStateM WriteError Sink Unit :=
  Sink.writeLines program.code

/-- Writes the sketch of a program that passes the analysis, and of no other. -/
def compile (program : Program) : EStateM CompileError Sink Unit :=
  match program.analyze with
  | .error error => throw (.semantic error)
  | .ok _ => program.emit.adaptExcept .output

end Program

end Firmware
