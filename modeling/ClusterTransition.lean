import ClusterTransition.Action
import ClusterTransition.CommandLine.Arguments
import ClusterTransition.CommandLine.ConfigCommands
import ClusterTransition.CommandLine.Disk
import ClusterTransition.CommandLine.Files
import ClusterTransition.CommandLine.GraphCommands
import ClusterTransition.CommandLine.Invocation
import ClusterTransition.CommandLine.Layout
import ClusterTransition.CommandLine.Options
import ClusterTransition.CommandLine.Program
import ClusterTransition.CommandLine.SnapshotCommands
import ClusterTransition.Config
import ClusterTransition.Controller
import ClusterTransition.Document
import ClusterTransition.Duration
import ClusterTransition.Engine.Basic
import ClusterTransition.Engine.Cluster
import ClusterTransition.Engine.Dispatch
import ClusterTransition.Engine.Reports
import ClusterTransition.Error
import ClusterTransition.Graph.Basic
import ClusterTransition.Graph.Pass
import ClusterTransition.Graph.Propagation
import ClusterTransition.Json.Basic
import ClusterTransition.Json.Decode
import ClusterTransition.Json.Printer
import ClusterTransition.Json.Reader
import ClusterTransition.Json.Scalar
import ClusterTransition.Ledger
import ClusterTransition.Loop
import ClusterTransition.Main
import ClusterTransition.Number.Binary64
import ClusterTransition.Number.Shortest
import ClusterTransition.Proofs.Graph.Plan
import ClusterTransition.Record.Action
import ClusterTransition.Record.Config
import ClusterTransition.Record.Document
import ClusterTransition.Record.Format
import ClusterTransition.Record.Reader
import ClusterTransition.Record.Report
import ClusterTransition.Record.Snapshot
import ClusterTransition.Rehearsal.Play
import ClusterTransition.Rehearsal.Script
import ClusterTransition.Rehearsal.Stage
import ClusterTransition.Rehearsal.WorkingDirectory
import ClusterTransition.Simulation
import ClusterTransition.Snapshot.Digest
import ClusterTransition.Snapshot.Node
import ClusterTransition.Snapshot.Sha256
import ClusterTransition.Sorting
import ClusterTransition.Synapse
import ClusterTransition.Table
import ClusterTransition.Text.Blank
import ClusterTransition.Text.Numeral
import ClusterTransition.Text.Path
import ClusterTransition.Text.Split
import ClusterTransition.Timers
import ClusterTransition.TransitionKey
import ClusterTransition.Vocabulary
import ClusterTransition.Yaml.Block
import ClusterTransition.Yaml.Cursor
import ClusterTransition.Yaml.Decode
import ClusterTransition.Yaml.Node
import ClusterTransition.Yaml.Plain
import ClusterTransition.Yaml.Printer
import ClusterTransition.Yaml.Property
import ClusterTransition.Yaml.Quoted
import ClusterTransition.Yaml.Scalar
import ClusterTransition.Yaml.Token
import ClusterTransition.Proofs.Lists
import ClusterTransition.Proofs.Graph.Edits
import ClusterTransition.Proofs.Pass.Steps
import ClusterTransition.Proofs.Pass.Recording
import ClusterTransition.Proofs.Graph.Handling
import ClusterTransition.Proofs.Engine.Moves
import ClusterTransition.Proofs.Document.Loading
import ClusterTransition.Proofs.Engine.Prerequisites
import ClusterTransition.Proofs.Ledger.Charges
import ClusterTransition.Proofs.Pass.Ownership
import ClusterTransition.Proofs.Engine.Accounting
import ClusterTransition.Proofs.Engine.Dispatching
import ClusterTransition.Proofs.Engine.Throttle
import ClusterTransition.Proofs.Engine.Overload
import ClusterTransition.Proofs.Pass.Visits
import ClusterTransition.Proofs.Graph.Course
import ClusterTransition.Proofs.Document.Executable
import ClusterTransition.Proofs.Engine.Progress
import ClusterTransition.Proofs.Engine.Completion
import ClusterTransition.Proofs.Graph.Onward
import ClusterTransition.Proofs.Pass.Firing
import ClusterTransition.Proofs.Engine.Once
import ClusterTransition.Proofs.Engine.Members
import ClusterTransition.Proofs.Timers
import ClusterTransition.Proofs.Engine.Waiting
import ClusterTransition.Proofs.Engine.Numbering
import ClusterTransition.Proofs.Engine.Supervision
import ClusterTransition.Proofs.Pass.Counting
import ClusterTransition.Proofs.Engine.Quiescence
import ClusterTransition.Proofs.Engine.Residue
import ClusterTransition.Proofs.Engine.Arrival
import ClusterTransition.Proofs.Engine.Refusals
import ClusterTransition.Proofs.Engine.Levels
import ClusterTransition.Proofs.Engine.Veto
import ClusterTransition.Proofs.Engine.Requests
import ClusterTransition.Proofs.Loop.Passes
import ClusterTransition.Proofs.Loop.Outstanding
import ClusterTransition.Proofs.Engine.Lifecycle
import ClusterTransition.Proofs.Engine.Ratchet
import ClusterTransition.Proofs.Document.ReadyOrders
import ClusterTransition.Proofs.Engine.Batches
import ClusterTransition.Proofs.Simulation.Closure
import ClusterTransition.Proofs.Sorting
import ClusterTransition.Proofs.Snapshot.SortedForm
import ClusterTransition.Proofs.Snapshot.Rendering
import ClusterTransition.Proofs.Graph.Commuting
import ClusterTransition.Proofs.Graph.Spreading
import ClusterTransition.Proofs.Engine.Results
import ClusterTransition.Proofs.Engine.Confluence
import ClusterTransition.Proofs.Engine.Isolation
import ClusterTransition.Proofs.TransitionKey
import ClusterTransition.Proofs.Engine.Sending
import ClusterTransition.Proofs.Engine.Answers
import ClusterTransition.Proofs.Document.Verdict
import ClusterTransition.Proofs.Json.RoundTrip
import ClusterTransition.Proofs.Record.Fields
import ClusterTransition.Proofs.Record.ReadBack
import ClusterTransition.Proofs.Record.Nested
import ClusterTransition.Proofs.Engine.Traces
import ClusterTransition.Proofs.Pass.Outcome
import ClusterTransition.Proofs.Fencing.Chronicle
import ClusterTransition.Proofs.Fencing.Settling
import ClusterTransition.Proofs.Fencing.Order
import ClusterTransition.Proofs.Deadlines
import ClusterTransition.Proofs.Controller
import ClusterTransition.Proofs.Graph.Filing
import ClusterTransition.Proofs.Pass.Lockstep
import ClusterTransition.Proofs.Simulation.Tolerance
import ClusterTransition.Proofs.Engine.Filing
import ClusterTransition.Proofs.Engine.StatusRecords
import ClusterTransition.Proofs.Snapshot.Versions
import ClusterTransition.Proofs.DecodedKeys
import ClusterTransition.Proofs.Pass.Skipping
import ClusterTransition.Proofs.Engine.Smooth
import ClusterTransition.Proofs.CommandLine.Disk
import ClusterTransition.Proofs.CommandLine.DigestLines
import ClusterTransition.Proofs.Rehearsal.Writing
import ClusterTransition.Proofs.CommandLine.Signing
import ClusterTransition.Proofs.Engine.Exemptions
import ClusterTransition.Proofs.Engine.Timeouts
import ClusterTransition.Proofs.Ledger.Peers
