import NetReplay.Device.Kind
import NetReplay.Device.Recorder
import NetReplay.Files.Directory
import NetReplay.Host.Basic
import NetReplay.Json.Printer
import NetReplay.Model.Loading
import NetReplay.Program.Basic
import NetReplay.Settings.Basic
import NetReplay.Log.State
import NetReplay.Log.Timing
import NetReplay.Weights.Builder
import NetReplay.Proofs.Json.Grammar
import NetReplay.Proofs.Json.Literal
import NetReplay.Proofs.Json.RoundTrip
import NetReplay.Proofs.Json.Decode
import NetReplay.Proofs.Weights.Layout
import NetReplay.Proofs.Weights.RoundTrip
import NetReplay.Proofs.Host.Binding
import NetReplay.Proofs.Launch.Coverage
import NetReplay.Proofs.Device.Runs
import NetReplay.Proofs.Host.Operations
import NetReplay.Proofs.Host.Dispatch
import NetReplay.Proofs.Model.Resolve
import NetReplay.Proofs.Model.Setup
import NetReplay.Proofs.Model.Refinement
import NetReplay.Proofs.Json.Reading
import NetReplay.Proofs.Weights.Entry
import NetReplay.Proofs.Weights.Visit
import NetReplay.Proofs.Weights.Acceptance
import NetReplay.Proofs.Weights.Safety
import NetReplay.Proofs.Weights.Frame
import NetReplay.Proofs.Weights.Members
import NetReplay.Proofs.Weights.Truncation
import NetReplay.Proofs.Weights.Reserved
import NetReplay.Proofs.Device.Conversation
import NetReplay.Proofs.Model.Conversation
import NetReplay.Proofs.Model.Dispatching
import NetReplay.Proofs.Model.Provisioning
import NetReplay.Proofs.Model.Protocol
import NetReplay.Proofs.Model.Validation
import NetReplay.Proofs.Host.Effect
import NetReplay.Proofs.Host.Transfers
import NetReplay.Proofs.Host.Clones
import NetReplay.Proofs.Model.Beside
import NetReplay.Proofs.Model.Furnishing
import NetReplay.Proofs.Model.Crowd
import NetReplay.Proofs.Model.Stock
import NetReplay.Proofs.Host.Creation
import NetReplay.Proofs.Model.Shadowing
import NetReplay.Proofs.Launch.Groups
import NetReplay.Proofs.Host.Refusal
import NetReplay.Proofs.Host.Slots
import NetReplay.Proofs.Json.Record
import NetReplay.Proofs.Program.Rendering
import NetReplay.Proofs.Program.Decoding
import NetReplay.Proofs.Weights.RawData
import NetReplay.Proofs.Weights.Canonical
import NetReplay.Proofs.Weights.Respelling
import NetReplay.Proofs.Model.Allocation
import NetReplay.Proofs.Json.Collecting
import NetReplay.Proofs.Program.Described
import NetReplay.Proofs.Program.Verdict
import NetReplay.Proofs.Model.Outcome
import NetReplay.Proofs.Host.Pasts
import NetReplay.Proofs.Host.Kernels
import NetReplay.Proofs.Log.Spans
import NetReplay.Proofs.Log.Installing
import NetReplay.Proofs.Model.Failures
import NetReplay.Proofs.Model.Loading
import NetReplay.Proofs.Text.Spelling
import NetReplay.Proofs.Settings.Variables
