import Firmware.CommandLine.Console

/-! # The command

Runs the compiler on the files and the standard streams of the process. -/

namespace Firmware.CommandLine

/-- A failed operation on files or streams, as the system describes it. -/
def SystemError.ofFailure : IO.Error → SystemError
  | .noFileOrDirectory _ _ _ => .noSuchFile
  | .noSuchThing _ code details | .inappropriateType _ code details
  | .permissionDenied _ code details | .resourceExhausted _ code details
  | .alreadyExists _ code details | .invalidArgument _ code details =>
      { description := details, code := code.toNat }
  | error => { description := toString error, code := 0 }

/-- The outcome of an action, with its failure as a value. -/
def attempt (action : IO α) : IO (Except SystemError α) := do
  match ← action.toBaseIO with
  | .ok value => return .ok value
  | .error error => return .error (SystemError.ofFailure error)

/-- Reads a stream to its end. -/
partial def readAll (stream : IO.FS.Stream) (bytes : ByteArray) : IO ByteArray := do
  let chunk ← stream.read 65536
  if chunk.isEmpty then return bytes
  readAll stream (bytes ++ chunk)

instance : Console IO where
  readStandard := do return (← readAll (← IO.getStdin) .empty).toList
  readFile path := do
    match ← attempt (IO.FS.Handle.mk path .read) with
    | .error error => return .error error
    | .ok handle =>
        match ← attempt handle.readBinToEnd with
        | .ok bytes => return .ok (some bytes.toList)
        | .error _ => return .ok none
  createFile path := attempt (IO.FS.writeFile path "")
  writeFile path text := attempt (IO.FS.writeFile path text)
  print text := attempt do
    let stream ← IO.getStdout
    stream.putStr text
    stream.flush
  log text := do (← IO.getStderr).putStr text

end Firmware.CommandLine

def main (arguments : List String) : IO UInt32 := do
  return (← Firmware.CommandLine.run arguments).code.toUInt32
