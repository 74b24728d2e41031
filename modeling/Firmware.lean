import Firmware.CommandLine.Workspace
import Firmware.Main
import Firmware.Proofs.Source.Text
import Firmware.Proofs.Source.Lines
import Firmware.Proofs.Token.WellFormed
import Firmware.Proofs.Token.Spelling
import Firmware.Proofs.Token.Printing
import Firmware.Proofs.Token.LineByLine
import Firmware.Proofs.Expression.Grammar
import Firmware.Proofs.Expression.Reading
import Firmware.Proofs.Expression.RoundTrip
import Firmware.Proofs.Program.Grammar
import Firmware.Proofs.Program.Form
import Firmware.Proofs.Program.CommandForm
import Firmware.Proofs.Program.Reading
import Firmware.Proofs.Program.EarliestError
import Firmware.Proofs.Program.WellFormed
import Firmware.Proofs.Symbol.History
import Firmware.Proofs.Symbol.Analysis
import Firmware.Proofs.Symbol.Repetition
import Firmware.Proofs.Symbol.InPlace
import Firmware.Proofs.Symbol.Inference
import Firmware.Proofs.Sketch.Channels
import Firmware.Proofs.Sketch.Lines
import Firmware.Proofs.Sketch.Mentions
import Firmware.Proofs.Sketch.Constants
import Firmware.Proofs.Sketch.Output
import Firmware.Proofs.Sketch.ReadBack
import Firmware.Proofs.Sketch.Agreement
import Firmware.Proofs.Sketch.TopLevel
import Firmware.Proofs.Token.Reading
import Firmware.Proofs.Token.KeywordCase
import Firmware.Proofs.Token.Partition
import Firmware.Proofs.Report.Underlining
import Firmware.Proofs.CommandLine.Effects
import Firmware.Proofs.Expression.Adjacency
import Firmware.Proofs.Program.ExpectedToken
import Firmware.Proofs.Sketch.Numbering
import Firmware.Proofs.Symbol.Commuting
import Firmware.Proofs.Token.OnDemand
import Firmware.Proofs.Report.Layout
import Firmware.Proofs.Source.Streaming
import Firmware.Proofs.Token.Lookahead
import Firmware.Proofs.Source.LineEndings
import Firmware.Proofs.Token.Numeral
import Firmware.Proofs.Sketch.Emission
