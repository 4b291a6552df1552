import Lifecycle.Proofs.Run.Budget
import Lifecycle.Call.Playback
import Lifecycle.Call.Pool
import Lifecycle.Main
import Lifecycle.Record
import Lifecycle.Proofs.Run.Reachable
import Lifecycle.Proofs.Run.Steps
import Lifecycle.Proofs.Event.Accepted
import Lifecycle.Proofs.Run.Course
import Lifecycle.Proofs.Run.Played
import Lifecycle.Proofs.Run.Accounting
import Lifecycle.Proofs.Number.Digits
import Lifecycle.Proofs.Number.Shortest
import Lifecycle.Proofs.Number.Literal
import Lifecycle.Proofs.Number.Layout
import Lifecycle.Proofs.Json.Lexeme
import Lifecycle.Proofs.Json.RoundTrip
import Lifecycle.Proofs.Json.Wire
import Lifecycle.Proofs.Json.Datum
import Lifecycle.Proofs.Call.Payload
import Lifecycle.Proofs.Event.Context
import Lifecycle.Proofs.Call.Fidelity
import Lifecycle.Json.Merging
import Lifecycle.Proofs.Run.Cancellation
import Lifecycle.Proofs.Json.Path
import Lifecycle.Proofs.Json.Order
import Lifecycle.Proofs.Json.Merged
import Lifecycle.Proofs.Call.Agreement
import Lifecycle.Proofs.Number.Nearest
import Lifecycle.Proofs.Number.ReadBack
import Lifecycle.Proofs.Json.Tree
import Lifecycle.Proofs.Json.Normal
import Lifecycle.Proofs.Call.Sent
import Lifecycle.Proofs.Call.Checked
import Lifecycle.Proofs.Event.Contract
import Lifecycle.Proofs.Run.Verdict
import Lifecycle.Call.Race
import Lifecycle.Proofs.Call.Race
import Lifecycle.Proofs.Call.Rejected
import Lifecycle.Proofs.Call.Refinement
import Lifecycle.Proofs.Command.ExitStatus
import Lifecycle.Proofs.Run.Monotone
import Lifecycle.Proofs.Log.Credentials
import Lifecycle.Proofs.Operation.Isolation
import Lifecycle.Proofs.Report.LastAnswer
import Lifecycle.Proofs.Run.Interleaving
import Lifecycle.Run.Concurrent
import Lifecycle.Proofs.Log.Hidden
import Lifecycle.Proofs.Number.Whole
import Lifecycle.Proofs.Event.Absence
import Lifecycle.Proofs.Event.Delay
import Lifecycle.Proofs.Number.Rounding
import Lifecycle.Proofs.Run.Delay
import Lifecycle.Proofs.Time.Sleep
import Lifecycle.Proofs.Time.Wait
import Lifecycle.Proofs.Event.Warnings
import Lifecycle.Proofs.Json.Nodes
import Lifecycle.Proofs.Call.FirstFault
import Lifecycle.Proofs.Command.Configuration
import Lifecycle.Proofs.Log.Chronicle
import Lifecycle.Proofs.Log.Summary
import Lifecycle.Run.SignalPort
import Lifecycle.Proofs.Run.Shutdown
import Lifecycle.Assembly.History
import Lifecycle.Proofs.Assembly.Once
import Lifecycle.Proofs.Log.Places
import Lifecycle.Proofs.Log.Rearranged
import Lifecycle.Proofs.Log.Lines
import Lifecycle.Proofs.Log.Exact
