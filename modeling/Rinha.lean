import Rinha.Binary64.Arithmetic
import Rinha.Binary64.Basic
import Rinha.Binary64.Rounded
import Rinha.Binary64.Shortest
import Rinha.CommandLine.Execution
import Rinha.CommandLine.Files
import Rinha.CommandLine.Options
import Rinha.CommandLine.Path
import Rinha.Content
import Rinha.Decimal
import Rinha.Diagnostic
import Rinha.Error
import Rinha.Evaluation
import Rinha.Fault
import Rinha.Json.Basic
import Rinha.Json.Operation
import Rinha.Json.Reader
import Rinha.Json.Template
import Rinha.Limits
import Rinha.Location
import Rinha.Main
import Rinha.Node.Alike
import Rinha.Node.Basic
import Rinha.Node.Dump
import Rinha.Number
import Rinha.Operation
import Rinha.Repetition
import Rinha.Session
import Rinha.Source
import Rinha.Store
import Rinha.Text.Numeral
import Rinha.Text.Printable
import Rinha.Text.Quoted
import Rinha.Text.Utf8
import Rinha.Value
import Rinha.Wire
import Rinha.Proofs.DepthLimit
import Rinha.Proofs.Observation
import Rinha.Proofs.Depth
import Rinha.Proofs.Failures
import Rinha.Proofs.Frame
import Rinha.Proofs.Semantics
import Rinha.Proofs.Values
import Rinha.Proofs.Validity
import Rinha.Proofs.Adequacy
import Rinha.Proofs.History
import Rinha.Proofs.Lexical
import Rinha.Proofs.WellScoped
import Rinha.Proofs.ErrorLocation
import Rinha.Proofs.Sessions
import Rinha.Proofs.Register
import Rinha.Proofs.Identity
import Rinha.Proofs.Correspondence
import Rinha.Proofs.Isolation
import Rinha.Proofs.Transcript
import Rinha.Proofs.Erasure
import Rinha.Proofs.Safety
import Rinha.Proofs.Labels
import Rinha.Proofs.Layout
import Rinha.Proofs.Grammar
import Rinha.Proofs.Restatement
import Rinha.Proofs.Encoding
import Rinha.Proofs.Texts
import Rinha.Proofs.Unambiguous
import Rinha.Proofs.Digits
import Rinha.Proofs.Arguments
import Rinha.Proofs.Command
import Rinha.Proofs.Termination
import Rinha.Proofs.Height
import Rinha.Proofs.Exit
import Rinha.Proofs.EvaluationTree
import Rinha.Proofs.Unread
import Rinha.Proofs.Sequence
import Rinha.Proofs.Equality
import Rinha.Proofs.Order
import Rinha.Proofs.Division
import Rinha.Proofs.Position
import Rinha.Proofs.Carets
import Rinha.Proofs.Conversion
import Rinha.Proofs.Visibility
import Rinha.Proofs.Parameters
