import Wardian.Lib.Prog
import Wardian.Lib.Text
import Wardian.Lib.Kahn
import Wardian.Lib.Table
import Wardian.Lib.JsonText
import Wardian.Lib.Numbered
import Wardian.Lib.Lineage
import Wardian.Json
import Wardian.Automation.Blueprint
import Wardian.Automation.Condition
import Wardian.Automation.Registry
import Wardian.Automation.Validate
import Wardian.Automation.WellFormed
import Wardian.Engine.Event
import Wardian.Engine.State
import Wardian.Engine.Graph
import Wardian.Engine.Interpolate
import Wardian.Engine.Core
import Wardian.Engine.Marking
import Wardian.Engine.Executor
import Wardian.Engine.Store
import Wardian.Engine.Driver
import Wardian.Engine.Operations
import Wardian.Engine.Replay
import Wardian.Engine.Machine
import Wardian.Engine.Pass
import Wardian.Engine.DriverMoves
import Wardian.Engine.Driving
import Wardian.Engine.Runs
import Wardian.Engine.Barrier
import Wardian.Engine.Progress
import Wardian.Engine.Dispatch
import Wardian.Engine.Agree
import Wardian.Engine.Recorded
import Wardian.Engine.History
import Wardian.Engine.Agreement
import Wardian.Engine.Finality
import Wardian.Engine.Recovery
import Wardian.Engine.Decisions
import Wardian.Leases.Lease
import Wardian.Leases.Store
import Wardian.Leases.History
import Wardian.Leases.Exclusion
import Wardian.Leases.Retention
import Wardian.Schedule.Definition
import Wardian.Schedule.Planner
import Wardian.Schedule.Accounting
import Wardian.Topology.Topology
import Wardian.Topology.Pairs
import Wardian.Topology.Deletion
import Wardian.Workbench.Document
import Wardian.Workbench.Slots
import Wardian.Workbench.Requests
import Wardian.Workbench.Effects
import Wardian.Workbench.CompareAndSwap
import Wardian.Messaging.Store
import Wardian.Messaging.Admission
import Wardian.Messaging.Claims
import Wardian.Messaging.Reply
import Wardian.Messaging.Receive
import Wardian.Messaging.TaskTurns
import Wardian.Messaging.History
import Wardian.Messaging.Rows
import Wardian.Messaging.Ownership
import Wardian.Messaging.Mailbox
import Wardian.Messaging.Replies
import Wardian.Messaging.Terminal
import Wardian.Messaging.Mail
import Wardian.Messaging.Paging
import Wardian.Lib.Calls
import Wardian.Terminal.Session
import Wardian.Terminal.Replay
import Wardian.Terminal.Control
import Wardian.Terminal.Actor
import Wardian.Terminal.Rules
import Wardian.Terminal.Effects
import Wardian.Terminal.Lease
import Wardian.Terminal.Mirror
import Wardian.Terminal.Reading
import Wardian.Terminal.Board
import Wardian.Terminal.Plain
import Wardian.Terminal.Deadline
import Wardian.Memory.Store
import Wardian.Memory.Writes
import Wardian.Lib.Framing
import Wardian.Memory.Maintenance
import Wardian.Memory.Changes
import Wardian.Lib.Results
import Wardian.Memory.Normal
import Wardian.Lib.Utf8
import Wardian.Lib.JsonShape
import Wardian.Archive.Jsonl
import Wardian.Interactions.ProviderInput
import Wardian.Memory.Effects
import Wardian.Memory.Operations
import Wardian.Interactions.Generations
import Wardian.Lib.Lines
import Wardian.ProviderLog.Transcript
import Wardian.ProviderLog.Acquisition
import Wardian.ProviderLog.Reading
import Wardian.ProviderLog.Cursor
import Wardian.ProviderLog.History
import Wardian.ProviderLog.Consumption
import Wardian.Archive.Capture
import Wardian.Memory.Transactions
import Wardian.Memory.History
import Wardian.Memory.Selection
import Wardian.Memory.Checkpoints
import Wardian.Memory.Resumes
import Wardian.Memory.Chains
import Wardian.Messaging.Idempotence
import Wardian.Lib.Amortized
import Wardian.Engine.Guards
import Wardian.Engine.Iterations
import Wardian.Engine.Potential
import Wardian.Engine.Bounds
import Wardian.Recovery.Operations
import Wardian.Recovery.Survival
import Wardian.Remote.Limits
import Wardian.Remote.AuthSession
import Wardian.Remote.Throttle
import Wardian.Listeners.Arming
import Wardian.Terminal.Filter
import Wardian.Lib.Lossy
import Wardian.Terminal.PtyDecode
import Wardian.Lib.Newest
import Wardian.Workers.Child
import Wardian.Workers.Lifecycle
import Wardian.Workbench.AtomicFile
import Wardian.Workbench.Crash
import Wardian.Lib.Tiling
import Wardian.Lib.Decimal
import Wardian.Workbench.ExactFraction
import Wardian.Workbench.Rectangles
import Wardian.Lib.Civil
import Wardian.Schedule.Validation
import Wardian.Schedule.NextRun
import Wardian.Archive.Narrative
import Wardian.Lib.Bracketed
import Wardian.Terminal.Delivery
import Wardian.Interactions.Transport
import Wardian.Memory.Workspaces
import Wardian.Memory.Scopes
import Wardian.Lib.Groups
import Wardian.Archive.Turns
import Wardian.Archive.TurnPartition
import Wardian.Archive.BackgroundCapture
import Wardian.Archive.CaptureAdmission
import Wardian.Memory.Budget
import Wardian.Library.Deployments
import Wardian.Library.Reconcile
import Wardian.Agents.Replacement
import Wardian.Agents.ReplacementRecovery
import Wardian.Automation.Cycles
import Wardian.Workbench.NegativeZero
import Wardian.Lib.Counter
