import Firmware.Program.Reading
import Firmware.Report
import Firmware.Symbol.Analysis
import Firmware.Token.Lexer

/-! # From a source to an accepted program -/

namespace Firmware

/-- Why a source is not accepted. -/
inductive Rejection where
  | lexical (errors : List (Located LexicalError))
  | syntactic (error : Located SyntaxError)
  | semantic (error : SemanticError)
  deriving DecidableEq, Repr

namespace Source

/-- The program that a source writes, not yet analysed. -/
def program (source : Source) : Except Rejection Program := do
  let tokens ← source.tokens.mapError .lexical
  (parse source.start tokens).mapError .syntactic

/-- The program that a source writes, if it passes the analysis. -/
def accept (source : Source) : Except Rejection Program := do
  let program ← source.program
  let _ ← program.analyze.mapError .semantic
  return program

/-- An error at a location of a source that has been read to its end. -/
def diagnostic (source : Source) (message : String) (location : Location) : Diagnostic :=
  { message, place := some { location, lines := source.readable } }

end Source

namespace Rejection

/-- The kind of error that a rejection reports. -/
def kind : Rejection → String
  | .lexical _ => "Lexical error"
  | .syntactic _ => "Syntax error"
  | .semantic _ => "Semantic error"

/-- The errors of a rejected source. Semantic errors have no place. -/
def diagnostics (source : Source) : Rejection → List Diagnostic
  | .lexical errors =>
      errors.map fun error => source.diagnostic error.value.message error.location
  | .syntactic error => [source.diagnostic error.value.message error.location]
  | .semantic error => [{ message := error.message }]

/-- The report on a rejected source. -/
def report (source : Source) (rejection : Rejection) : Report :=
  { kind := rejection.kind, diagnostics := rejection.diagnostics source }

end Rejection

end Firmware
