/-
The boundary between the engine and its host.

Everything with a side effect goes through a `StepExecutor`; the engine knows nothing about what it
does or answers.  The rest of the host is what the process around the engine decides: the clock,
the writes that fail, the operator's cancellations and the calls that lose the approval guard.
-/

import Wardian.Automation.Blueprint
import Wardian.Engine.Reread
import Wardian.Lib.Prog

set_option autoImplicit false

namespace Wardian.Engine

open Automation (Blueprint)

/-! ### Requests -/

structure AgentTaskRequest where
  node : String
  agent : String
  prompt : String
  outputSchema : Option String

structure DecisionRequest where
  node : String
  agent : String
  prompt : String
  choices : List String

structure ShellRequest where
  node : String
  command : String
  cwd : Option String

structure ScriptRequest where
  node : String
  runtime : String
  path : String

/-- The delivery of one workspace artifact. -/
structure MessageSendRequest where
  node : String
  recipient : String
  artifactPath : String

structure NotifyRequest where
  node : String
  message : String

structure MemoryCommitRequest where
  node : String
  agentId : String
  workspace : Option String
  conversationId : Option String
  sourceSequence : Option Nat
  archiveAvailable : Option Bool
  idempotencyKey : Option String
  payload : Value

/-! ### The host -/

/-- The executor of side effects, over a state `ω` of its own. -/
structure StepExecutor (ω : Type) where
  runAgentTask : AgentTaskRequest → Prog ω StepError Value
  runDecision : DecisionRequest → Prog ω StepError String
  runShell : ShellRequest → Prog ω StepError Value
  runScript : ScriptRequest → Prog ω StepError Value
  /-- Answers the recipient's id; the flag says that no node but a trigger has started. -/
  preflightMessageSend : MessageSendRequest → Bool → Prog ω StepError String
  messageSend : MessageSendRequest → Prog ω StepError Value
  notify : NotifyRequest → Prog ω StepError Unit
  memoryCommit : MemoryCommitRequest → Prog ω StepError Value

/-- What the engine runs in. -/
structure Host (ω : Type) extends StepExecutor ω where
  /-- The current time. -/
  now : ω → String × ω
  /-- Whether the next write to the run directory fails, or the process stops before it. -/
  writeFails : ω → Bool × ω
  /-- Whether the operator has asked for cancellation since the marker was last read. -/
  operatorCancels : ω → Bool × ω
  /-- Whether another call holds the guard of the approval decision. -/
  guardContended : ω → Bool × ω
  /-- The hash of the graph of a blueprint. -/
  blueprintHash : Blueprint → String
  /-- How a floating-point number that is written to the run directory reads back. -/
  readFloat : ReadFloat

/-- A host with a script.  The clock stands still, nobody cancels, numbers read back as they are, the
executor answers by the node, and the state lists which of the next writes fail. -/
def Host.scripted (time : String) (answer : String → Except StepError Value) :
    Host (List Bool) where
  runAgentTask := fun req => Prog.ofExcept (answer req.node)
  runDecision := fun req =>
    Prog.ofExcept ((answer req.node).map fun output => output.asStr.getD "")
  runShell := fun req => Prog.ofExcept (answer req.node)
  runScript := fun req => Prog.ofExcept (answer req.node)
  preflightMessageSend := fun req _ =>
    Prog.ofExcept ((answer req.node).map fun output => output.asStr.getD "")
  messageSend := fun req => Prog.ofExcept (answer req.node)
  notify := fun req => Prog.ofExcept ((answer req.node).map fun _ => ())
  memoryCommit := fun req => Prog.ofExcept (answer req.node)
  now := fun script => (time, script)
  writeFails := fun script => (script.headD false, script.tail)
  operatorCancels := fun script => (false, script)
  guardContended := fun script => (false, script)
  blueprintHash := fun bp => bp.id
  readFloat := fun text nonzero => (text, nonzero)

/-! ### The run directory -/

/-- The files of a run, as they read. -/
structure RunDir where
  /-- The lines of `events.jsonl`. -/
  events : List Event := []
  /-- The contents of `state.json`. -/
  checkpoint : Option RunState := none
  /-- The contents of `blueprint.json`. -/
  blueprint : Option Blueprint := none
  /-- Whether `cancel.marker` exists. -/
  cancelMarker : Bool := false

/-- What an onlooker sees of a run.  Observations are not part of the program: nothing reads them,
and they give the statements about runs their subject. -/
inductive Observation
  /-- A node is dispatched in this state. -/
  | dispatched (node : String) (state : RunState)
  /-- An event is appended to the log; it takes the state `before` to the state `after`. -/
  | emitted (before : RunState) (kind : EventKind) (after : RunState)
  /-- Finalization is planned from this state. -/
  | planned (state : RunState)
  /-- A message is handed to the executor. -/
  | sent (request : MessageSendRequest)

/-- The run directory and the host, with the observations so far, the latest first. -/
structure World (ω : Type) where
  dir : RunDir
  host : ω
  trace : List Observation := []

/-- A program of the engine. -/
abbrev EngineProg (ω : Type) : Type → Type := Prog (World ω) EngineError

end Wardian.Engine
