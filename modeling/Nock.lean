import Nock.Main
import Nock.Parts
import Nock.Proofs.CrashLog
import Nock.Proofs.Machine.Context
import Nock.Proofs.Machine.Simulation
import Nock.Proofs.Table
import Nock.Tensor.Convert
import Nock.Tensor.OfValue
import Nock.Tensor.Printer
import Nock.Value.Address
import Nock.Evaluation.Position
import Nock.Value.Compare
import Nock.Proofs.Machine.Space
import Nock.Proofs.Program.Loop
import Nock.Proofs.LoopFree
import Nock.Proofs.Machine.TailCall
import Nock.Noun.Reader
import Nock.Proofs.Equations
import Nock.Proofs.Printing
import Nock.Value.Rules
import Nock.Proofs.Conversion
import Nock.Proofs.Machine.Ending
import Nock.Proofs.Program.Round
import Nock.Proofs.Program.Sum
import Nock.Proofs.Tensor.ElementType
import Nock.Tensor.Rules
import Nock.Proofs.Tensor.Spelling
import Nock.Proofs.Tensor.RoundTrip
import Nock.Proofs.Tensor.Narrowing
import Nock.Proofs.Tensor.Valid
import Nock.Proofs.Tensor.Rank
import Nock.Proofs.Tensor.ShortAxis
import Nock.Proofs.Tensor.Reading
import Nock.Proofs.Axis.Count
import Nock.Proofs.Axis.Edit
import Nock.Proofs.Axis.Lookup
import Nock.Proofs.Recursion.Nesting
import Nock.Proofs.Program.Nesting
import Nock.Proofs.Program.Predecessor
import Nock.Proofs.Rounding
import Nock.Proofs.Binary.Quotient
import Nock.Proofs.Binary.Nearest
import Nock.Proofs.Binary.PartialSums
import Nock.Proofs.Timing.Sample
import Nock.Proofs.Timing.Verdict
import Nock.Proofs.Axis.Compose
import Nock.Proofs.Axis.EditLaws
import Nock.Proofs.Equality
import Nock.Proofs.Conversion.FirstFault
import Nock.Proofs.Axis.Leaf
import Nock.Proofs.Axis.ListPosition
import Nock.Proofs.Text.Numeral
import Nock.Proofs.Timing.SizeList
import Nock.Proofs.Machine.Independence
import Nock.Proofs.Brackets
import Nock.Proofs.Timing.Percentile
