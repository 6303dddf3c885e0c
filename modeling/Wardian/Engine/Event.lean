/-
The events of a run and the errors of the engine.

The event log of a run is append-only; folding it gives the state of the run.
-/

import Wardian.Json

set_option autoImplicit false

namespace Wardian.Engine

/-- What an event says happened. -/
inductive EventKind
  | runStarted (runId : Option String) (blueprintHash : Option String) (blueprintId : String)
      (schema : Nat) (trigger : Value)
  | messageSendPrepared (node recipientId artifactPath : String)
  | nodeStarted (node : String)
  | nodeCompleted (node : String) (output : Value)
  | decisionCompleted (node : String) (output : Value) (port : String)
  | stateUpdated (node op : String) (entries : Value)
  | notification (node message : String)
  | nodeFailed (node error : String)
  | branchTaken (node port : String)
  | decisionMade (node port : String)
  | loopIteration (node : String) (iteration : Nat)
  | loopCompleted (node : String)
  | nodeSkipped (node : String)
  | awaitingApproval (node : String)
  | approvalGranted (node actor : String) (note : Option String)
  | approvalRejected (node actor : String) (note : Option String)
  | runCompleted
  | runFailed (error : String)
  deriving DecidableEq

/-- One line of the event log. -/
structure Event where
  seq : Nat
  ts : String
  kind : EventKind
  deriving DecidableEq

/-- The errors of the engine. -/
inductive EngineError
  /-- Reading or writing the run directory failed, or the process stopped there. -/
  | io
  | notAwaitingApproval (node : String)
  | approvalDecisionInProgress
  | invalidState (message : String)
  /-- Not an error of the source: the bound on the passes of the driver was reached. -/
  | unfinished
  deriving DecidableEq

/-- The text of an error. -/
def EngineError.display : EngineError → String
  | .io => "io error"
  | .notAwaitingApproval node => s!"run is not awaiting approval at node `{node}`"
  | .approvalDecisionInProgress => "approval decision is already being resolved for this run"
  | .invalidState message => s!"invalid run state: {message}"
  | .unfinished => "unfinished"

/-- An error of one step: its message. -/
structure StepError where
  message : String

/-- The prefix that marks a skipped step. -/
def skippedPrefix : String := "WARDIAN_STEP_SKIPPED:"

/-- Whether an error says that the step was skipped. -/
def StepError.isSkipped (e : StepError) : Bool :=
  skippedPrefix.toList.isPrefixOf e.message.toList

/-- The text of a step error. -/
def StepError.display (e : StepError) : String := s!"step failed: {e.message}"

end Wardian.Engine
