/-
The operations on a run directory.
-/

import Wardian.Engine.Driver

set_option autoImplicit false

namespace Wardian.Engine

open Automation (Blueprint Node validate)

variable {ω : Type}

/-! ### Checks -/

/-- Only valid blueprints run. -/
def ensureValidBlueprint (bp : Blueprint) : Except EngineError Unit :=
  let report := validate bp
  if report.isValid then .ok ()
  else
    let diagnostics := "; ".intercalate (report.errors.map fun d => s!"{d.code}: {d.message}")
    .error (.invalidState s!"automation blueprint is invalid: {diagnostics}")

/-- A run goes on only with the blueprint that it was started with. -/
def ensureBlueprintMatches (hash : Blueprint → String) (bp : Blueprint) (s : RunState) :
    Except EngineError Unit :=
  if s.blueprintId ≠ bp.id then
    .error (.invalidState
      s!"automation blueprint identity mismatch: run belongs to `{s.blueprintId}`, requested `{bp.id}`")
  else
    match s.blueprintHash with
    | none => .ok ()
    | some expected =>
      if expected ≠ hash bp then
        .error (.invalidState
          s!"automation blueprint changed after run start: expected {expected}, found {hash bp}")
      else .ok ()

def sequenceGap (expected found : Nat) : EngineError :=
  .invalidState s!"automation event sequence gap: expected {expected}, got {found}"

/-- Check that the sequence numbers go on from `expected`, and return the next one. -/
def validateSequenceFrom : Nat → List Event → Except EngineError Nat
  | expected, [] => .ok expected
  | expected, ev :: rest =>
    if ev.seq ≠ expected then .error (sequenceGap expected ev.seq)
    else validateSequenceFrom (expected + 1) rest

/-- Check that an event log starts at zero and has no gaps, and return the next number. -/
def validateEventSequence (events : List Event) : Except EngineError Nat :=
  validateSequenceFrom 0 events

/-- Whether a state has one of the run ids that stand for a run to be reconstructed. -/
def isSentinelRunId (runId : String) : Bool := runId == "replay" || runId == "rebuilt"

/-- Check the identity in the first event, which a checkpoint could hide. -/
def validateEventIdentity (bp : Blueprint) (s : RunState) (events : List Event) :
    Except EngineError Unit :=
  match events with
  | ⟨0, _, .runStarted runId eventHash blueprintId schema _⟩ :: _ =>
    let logRunId := runId.getD ""
    let checkpointHash := s.blueprintHash.getD ""
    let logHash := eventHash.getD ""
    if blueprintId ≠ bp.id then
      .error (.invalidState
        s!"automation event belongs to blueprint `{blueprintId}`, requested `{bp.id}`")
    else if schema ≠ bp.schema then
      .error (.invalidState
        s!"automation event schema is {schema}, requested blueprint schema is {bp.schema}")
    else if s.blueprintId ≠ bp.id then
      .error (.invalidState
        s!"automation checkpoint belongs to blueprint `{s.blueprintId}`, requested `{bp.id}`")
    else if !isSentinelRunId s.runId && runId.isSome && runId ≠ some s.runId then
      .error (.invalidState
        s!"automation checkpoint belongs to run `{s.runId}`, event log belongs to `{logRunId}`")
    else if eventHash.isSome && s.blueprintHash.isSome && s.blueprintHash ≠ eventHash then
      .error (.invalidState
        s!"automation checkpoint blueprint hash is `{checkpointHash}`, event log hash is `{logHash}`")
    else .ok ()
  -- the source also prints the event
  | _ => .error (.invalidState "automation event log must start with run_started at sequence 0")

/-! ### Reconstruction -/

/-- Fold the events that the checkpoint, which ends before `checkpointNextSeq`, does not hold. -/
def foldTail (bp : Blueprint) (checkpointNextSeq : Nat) :
    Nat → RunState → List Event → Except EngineError RunState
  | _, s, [] => .ok s
  | expected, s, ev :: rest =>
    if ev.seq ≠ expected then .error (sequenceGap expected ev.seq)
    else if checkpointNextSeq ≤ ev.seq then
      if ev.seq ≠ s.nextSeq then .error (sequenceGap s.nextSeq ev.seq)
      else
        match apply bp s ev with
        | .error e => .error e
        | .ok s' => foldTail bp checkpointNextSeq (expected + 1) s' rest
    else foldTail bp checkpointNextSeq (expected + 1) s rest

/-- Validate an event log and fold the part of it that the state does not represent. -/
def foldEventLog (bp : Blueprint) (s : RunState) (events : List Event) :
    Except EngineError RunState := do
  if events.isEmpty then .error (.invalidState "automation event log is empty")
  else
    let eventNextSeq ← validateEventSequence events
    validateEventIdentity bp s events
    let s' ← foldTail bp s.nextSeq 0 s events
    if eventNextSeq < s.nextSeq then
      .error (.invalidState
        s!"automation event log ends at sequence {events.length - 1}, checkpoint expects {s.nextSeq - 1}")
    else .ok s'

/-- The state of a run directory: its checkpoint with the tail of the log. -/
def loadState (bp : Blueprint) : EngineProg ω RunState := do
  let checkpoint ← readCheckpoint
  let events ← readEvents
  Prog.ofExcept (foldEventLog bp (checkpoint.getD (RunState.new "rebuilt" bp.id)) events)

/-- The state that the whole log gives. -/
def replay (host : Host ω) (bp : Blueprint) : EngineProg ω RunState := do
  let events ← readEvents
  let s ← Prog.ofExcept (foldEventLog bp (RunState.new "replay" bp.id) events)
  Prog.ofExcept (ensureBlueprintMatches host.blueprintHash bp s)
  return s

/-! ### Driving a run -/

/-- Start a run by writing its first event and checkpoint. -/
def initializeWithId (host : Host ω) (bp : Blueprint) (runId : String) (trigger : Value) :
    EngineProg ω RunState := do
  Prog.ofExcept (ensureValidBlueprint bp)
  let s := RunState.new runId bp.id
  writeBlueprintSnapshot host bp
  emit host bp s
    (.runStarted (some s.runId) (some (host.blueprintHash bp)) bp.id bp.schema trigger)

/-- Drive a run from a state. -/
def driveFromState (host : Host ω) (bp : Blueprint) (fuel : Nat) (s : RunState) :
    EngineProg ω RunState := do
  Prog.ofExcept (ensureValidBlueprint bp)
  Prog.ofExcept (ensureBlueprintMatches host.blueprintHash bp s)
  drive host bp fuel s

/-- Start a run and drive it. -/
def startWithId (host : Host ω) (bp : Blueprint) (fuel : Nat) (runId : String) (trigger : Value) :
    EngineProg ω RunState := do
  let s ← initializeWithId host bp runId trigger
  driveFromState host bp fuel s

/-- The nodes that were in flight, loops apart. -/
def interruptedNodes (bp : Blueprint) (s : RunState) : List String :=
  (s.nodes.toList.filter fun p => p.2 = .running &&
    ((bp.findNode p.1).map fun n => n.type != "loop").getD true).map Prod.fst

/-- Make the nodes that were in flight pending again. -/
def remarkInterrupted (bp : Blueprint) (s : RunState) : RunState :=
  (interruptedNodes bp s).foldl (fun s id => s.setNodeStatus id .pending) s

/-- Resume a run from its directory. -/
def resume (host : Host ω) (bp : Blueprint) (fuel : Nat) : EngineProg ω RunState := do
  Prog.ofExcept (ensureValidBlueprint bp)
  let s ← loadState bp
  Prog.ofExcept (ensureBlueprintMatches host.blueprintHash bp s)
  if s.status = .awaitingApproval then return s
  else drive host bp fuel (remarkInterrupted bp s)

/-! ### Approvals -/

/-- Take the guard of the approval decision.  It is held until the call ends. -/
def acquireApprovalDecisionGuard (host : Host ω) : EngineProg ω Unit := do
  if ← ask host.guardContended then Prog.fail .approvalDecisionInProgress else return

/-- The node of the latest approval gate in a log. -/
def latestAwaiting (events : List Event) : Option String :=
  events.reverse.findSome? fun ev =>
    match ev.kind with
    | .awaitingApproval node => some node
    | _ => none

/-- A decision must name the gate that the run is parked at. -/
def ensureApprovalNode (bp : Blueprint) (requested : String) : EngineProg ω Unit := do
  if !isApproval bp requested then
    Prog.fail (.invalidState s!"approval decision targets non-approval node `{requested}`")
  else
    match latestAwaiting (← readEvents) with
    | none => Prog.fail (.invalidState "awaiting approval node is missing from the event log")
    | some expected =>
      if expected ≠ requested then
        Prog.fail (.invalidState
          s!"approval decision targets `{requested}`, but run is awaiting approval at `{expected}`")
      else return

/-- Record a decision on a parked run. -/
def recordDecision (host : Host ω) (bp : Blueprint) (node : String) (kind : EventKind) :
    EngineProg ω RunState := do
  acquireApprovalDecisionGuard host
  let s ← loadState bp
  Prog.ofExcept (ensureValidBlueprint bp)
  Prog.ofExcept (ensureBlueprintMatches host.blueprintHash bp s)
  if s.status ≠ .awaitingApproval then Prog.fail (.notAwaitingApproval node)
  else
    ensureApprovalNode bp node
    emit host bp s kind

/-- Record that the approval is granted. -/
def recordApprovalGranted (host : Host ω) (bp : Blueprint) (node actor : String)
    (note : Option String) : EngineProg ω RunState :=
  recordDecision host bp node (.approvalGranted node actor note)

/-- Grant the approval and drive the run on. -/
def grantApproval (host : Host ω) (bp : Blueprint) (fuel : Nat) (node actor : String)
    (note : Option String) : EngineProg ω RunState := do
  let s ← recordApprovalGranted host bp node actor note
  driveFromState host bp fuel s

/-- Record that the approval is rejected, which fails the run. -/
def rejectApproval (host : Host ω) (bp : Blueprint) (node actor : String)
    (note : Option String) : EngineProg ω RunState :=
  recordDecision host bp node (.approvalRejected node actor note)

/-! ### Cancellation -/

/-- Cancel a run that is parked.  A running one keeps its marker for the driver. -/
def cancel (host : Host ω) (bp : Blueprint) : EngineProg ω RunState := do
  acquireApprovalDecisionGuard host
  let s ← loadState bp
  Prog.ofExcept (ensureBlueprintMatches host.blueprintHash bp s)
  match s.status with
  | .awaitingApproval =>
    let s ← emit host bp s (.runFailed cancelledMessage)
    clearCancellationRequest host
    return s
  | .completed | .failed =>
    clearCancellationRequest host
    return s
  | .running => return s

def isRunFailure (message : String) (ev : Event) : Bool := ev.kind = .runFailed message

/-- Append a failure unless the log has it, and write the checkpoint of the failed run.  The
checkpoint `s` is taken as it is, without the tail of the log. -/
def recordFailure (host : Host ω) (s : RunState) (events : List Event) (eventNextSeq : Nat)
    (message : String) : EngineProg ω RunState := do
  let recorded := events.any (isRunFailure message)
  if !recorded then appendEvent host ⟨eventNextSeq, ← ask host.now, .runFailed message⟩
  let s' := { s with
    nextSeq := if recorded then eventNextSeq else eventNextSeq + 1
    status := .failed
    failure := some message }
  writeCheckpoint host s'
  return s'

/-- The sequence number after the log, when the checkpoint is not ahead of it. -/
def checkedNextSeq (s : RunState) (events : List Event) : Except EngineError Nat := do
  let eventNextSeq ← validateEventSequence events
  if s.nextSeq > eventNextSeq then
    .error (.invalidState
      s!"automation checkpoint expects sequence {s.nextSeq}, event log ends at {eventNextSeq - 1}")
  else .ok eventNextSeq

/-- Cancel a parked run from its checkpoint and log alone. -/
def cancelAwaiting (host : Host ω) : EngineProg ω RunState := do
  acquireApprovalDecisionGuard host
  match ← readCheckpoint with
  | none => Prog.fail (.invalidState "automation checkpoint is missing")
  | some s =>
    if s.status ≠ .awaitingApproval then Prog.fail (.notAwaitingApproval "unknown")
    else
      let events ← readEvents
      let eventNextSeq ← Prog.ofExcept (checkedNextSeq s events)
      let s' ← recordFailure host s events eventNextSeq cancelledMessage
      clearCancellationRequest host
      return s'

/-! ### Failures recorded by the host -/

/-- Record that a detached execution could not start. -/
def markRunFailed (host : Host ω) (message : String) : EngineProg ω RunState := do
  match ← readCheckpoint with
  | none => Prog.fail (.invalidState "automation checkpoint is missing")
  | some s =>
    if s.status = .completed then
      Prog.fail (.invalidState "automation run is already completed")
    else if s.status = .failed ∨ s.status = .awaitingApproval then return s
    else
      let events ← readEvents
      let eventNextSeq ← Prog.ofExcept (checkedNextSeq s events)
      recordFailure host s events eventNextSeq message

/-- The failure of a run that a restart interrupted. -/
def interruptedMessage : String := "automation run interrupted by application restart"

/-- What the library holds under the id of a blueprint: nothing, a file that does not parse, or a
blueprint. -/
abbrev Library : Type := String → Option (Option Blueprint)

/-- The state of an interrupted run: the replay of its log on the blueprint snapshot or, when there
is none, on the blueprint in the library; without either, its checkpoint moved to the end of the
log. -/
def recoverInterruptedState (hash : Blueprint → String) (library : Library)
    (checkpoint : RunState) (dir : RunDir) : Option RunState :=
  let replayed := fun bp : Blueprint =>
    (do
      let s ← foldEventLog bp (RunState.new "replay" bp.id) dir.events
      ensureBlueprintMatches hash bp s
      return s : Except EngineError RunState).toOption
  match dir.blueprint with
  | some snapshot => replayed snapshot
  | none =>
    match library checkpoint.blueprintId with
    | some (some bp) => replayed bp
    | some none => none
    | none =>
      match checkedNextSeq checkpoint dir.events with
      | .ok eventNextSeq => some { checkpoint with nextSeq := eventNextSeq }
      | .error _ => none

/-- What the startup sweep does with one run directory; the answer is the recovered run. -/
def failInterruptedRun (host : Host ω) (library : Library) :
    EngineProg ω (Option RunState) := do
  match ← readCheckpoint with
  | none => return none
  | some checkpoint =>
    if checkpoint.status ≠ .running then return none
    else
      let dir := (← Prog.get).dir
      match recoverInterruptedState host.blueprintHash library checkpoint dir with
      | none => return none
      | some s =>
        if s.status = .completed ∨ s.status = .failed then
          writeCheckpoint host s
          return some s
        else
          let eventNextSeq ← Prog.ofExcept (validateEventSequence dir.events)
          return some (← recordFailure host s dir.events eventNextSeq interruptedMessage)

end Wardian.Engine
