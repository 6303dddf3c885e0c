/-
The driver: it consults the core, executes the nodes through the host and keeps the run directory.

The main loop runs under a bound on its passes.  When the bound is reached it stops with the error
`unfinished`, which is not one of the source.
-/

import Wardian.Engine.Core
import Wardian.Engine.Store

set_option autoImplicit false

namespace Wardian.Engine

open Automation (Blueprint Node findNodeType validatePath lookupTruthy)

variable {ω : Type}

/-! ### Events -/

/-- Stamp an event, fold it, append it to the log and write the checkpoint. -/
def emit (host : Host ω) (bp : Blueprint) (s : RunState) (kind : EventKind) :
    EngineProg ω RunState := do
  let ts ← ask host.now
  let ev : Event := ⟨s.nextSeq, ts, kind⟩
  let s' ← Prog.ofExcept (apply bp s ev)
  appendEvent host ev
  observe (.emitted s kind s')
  writeCheckpoint host s'
  return s'

/-- Emit events in order. -/
def emitAll (host : Host ω) (bp : Blueprint) : RunState → List EventKind → EngineProg ω RunState
  | s, [] => return s
  | s, kind :: kinds => do
      let s' ← emit host bp s kind
      emitAll host bp s' kinds

/-! ### Fields of a node -/

/-- A string field of a node, empty when it is missing. -/
def stringField (nd : Node) (key : String) : String :=
  ((JsonMap.get? nd.fields key).bind Value.asStr).getD ""

/-- A field that may be missing. -/
def optionalField (nd : Node) (key : String) : Option String :=
  (JsonMap.get? nd.fields key).bind Value.asStr

def unresolved (path : String) : StepError := ⟨s!"unresolved \x7b\x7b{path}\x7d\x7d"⟩

/-- A string field of a node with its placeholders replaced. -/
def resolvedField (s : RunState) (nd : Node) (key : String) : Except StepError String :=
  match resolve (stringField nd key) s.registry with
  | .ok text => .ok text
  | .error path => .error (unresolved path)

/-! ### Message delivery -/

/-- A delivery field of a `message_send` node. -/
def deliveryField (nd : Node) (s : RunState) (key : String) : Except StepError String :=
  match (JsonMap.get? nd.fields key).bind Value.asStr with
  | none => .error ⟨s!"missing message_send field `{key}`"⟩
  | some raw =>
    match resolve raw s.registry with
    | .ok text => .ok text
    | .error path => .error (unresolved path)

/-- The request of a `message_send` node: its binding, or else its resolved fields. -/
def messageSendRequest (nd : Node) (s : RunState) : Except StepError MessageSendRequest :=
  match s.messageDeliveries[nd.id]? with
  | some binding => .ok ⟨nd.id, binding.recipientId, binding.artifactPath⟩
  | none =>
    match deliveryField nd s "recipient" with
    | .error e => .error e
    | .ok recipient =>
      match deliveryField nd s "artifact_path" with
      | .error e => .error e
      | .ok artifactPath => .ok ⟨nd.id, recipient, artifactPath⟩

/-! ### Side effects -/

/-- What a step produced. -/
structure ExecutedStep where
  output : Value
  chosenPort : Option String := none
  notification : Option String := none

def taskRequest (s : RunState) (nd : Node) : Except StepError AgentTaskRequest := do
  let agent ← resolvedField s nd "agent"
  let prompt ← resolvedField s nd "prompt"
  return ⟨nd.id, agent, prompt, optionalField nd "output_schema"⟩

/-- The choices that a decision declares. -/
def declaredChoices (nd : Node) : List String :=
  (((JsonMap.get? nd.fields "choices").bind Value.asArray).getD []).filterMap Value.asStr

def decisionRequest (s : RunState) (nd : Node) : Except StepError DecisionRequest := do
  let agent ← resolvedField s nd "agent"
  let prompt ← resolvedField s nd "prompt"
  return ⟨nd.id, agent, prompt, declaredChoices nd⟩

def shellRequest (s : RunState) (nd : Node) : Except StepError ShellRequest := do
  let command ← resolvedField s nd "command"
  return ⟨nd.id, command, optionalField nd "cwd"⟩

def scriptRequest (s : RunState) (nd : Node) : Except StepError ScriptRequest := do
  let runtime ← resolvedField s nd "runtime"
  let path ← resolvedField s nd "path"
  return ⟨nd.id, runtime, path⟩

/-- The output of the trigger, as a memory commit reads it. -/
def triggerOutput (s : RunState) : Option Value :=
  (s.registry.get? "trigger").bind fun trigger => trigger.get? "output"

/-- The request of a memory commit.  Its principal must be the one of the invocation. -/
def memoryCommitRequest (s : RunState) (nd : Node) : Except StepError MemoryCommitRequest := do
  let sourceNode ← resolvedField s nd "source_node"
  if Text.trim (stringField nd "agent_id").toList ≠
      "\x7b\x7btrigger.output.agent_id\x7d\x7d".toList then
    .error ⟨"memory_commit agent_id must be the invocation-owned \x7b\x7btrigger.output.agent_id\x7d\x7d"⟩
  else
    let agentId ← resolvedField s nd "agent_id"
    match s.nodeOutput sourceNode with
    | none => .error ⟨s!"memory_commit source node `{sourceNode}` has no output"⟩
    | some payload =>
      let field := fun key => (triggerOutput s).bind fun output => output.get? key
      return {
        node := nd.id
        agentId := agentId
        workspace := (field "workspace").bind Value.asStr
        conversationId := (field "conversation_id").bind Value.asStr
        sourceSequence := (field "source_sequence").bind Value.asU64
        archiveAvailable := (field "archive_available").bind Value.asBool
        idempotencyKey := (field "idempotency_key").bind Value.asStr
        payload := payload }

/-- Call the executor with a request, when there is one. -/
def callWith {ρ α : Type} (request : Except StepError ρ) (call : ρ → Prog ω StepError α) :
    EngineProg ω (Except StepError α) :=
  match request with
  | .error e => return .error e
  | .ok req => callExecutor (call req)

/-- A step that produced an output. -/
def ExecutedStep.ofOutput (output : Value) : ExecutedStep := { output := output }

/-- The answer of a decision: one of the declared choices. -/
def decisionStep (nd : Node) (port : String) : Except StepError ExecutedStep :=
  if (declaredChoices nd).contains port then
    .ok { output := .object [("chosen", .string port)], chosenPort := some port }
  else .error ⟨s!"decision chose undeclared port `{port}`"⟩

/-- Interpolate the fields of a node and call the executor for it. -/
def runSideEffect (host : Host ω) (s : RunState) (nd : Node) :
    EngineProg ω (Except StepError ExecutedStep) := do
  if nd.type = "task" then
    return (← callWith (taskRequest s nd) host.runAgentTask).map ExecutedStep.ofOutput
  else if nd.type = "decision" then
    return (← callWith (decisionRequest s nd) host.runDecision).bind (decisionStep nd)
  else if nd.type = "shell" then
    return (← callWith (shellRequest s nd) host.runShell).map ExecutedStep.ofOutput
  else if nd.type = "script" then
    return (← callWith (scriptRequest s nd) host.runScript).map ExecutedStep.ofOutput
  else if nd.type = "message_send" then
    match messageSendRequest nd s with
    | .error e => return .error e
    | .ok req =>
      observe (.sent req)
      return (← callExecutor (host.messageSend req)).map ExecutedStep.ofOutput
  else if nd.type = "notify" then
    match resolvedField s nd "message" with
    | .error e => return .error e
    | .ok message =>
      return (← callExecutor (host.notify ⟨nd.id, message⟩)).map fun _ =>
        { output := .object [], notification := some message }
  else if nd.type = "memory_commit" then
    return (← callWith (memoryCommitRequest s nd) host.memoryCommit).map ExecutedStep.ofOutput
  else return .error ⟨s!"no executor for node type `{nd.type}`"⟩

/-! ### Nodes that the engine executes itself -/

/-- The port that a branch takes. -/
def evalBranch (s : RunState) (nd : Node) : Except EngineError String :=
  match validatePath (stringField nd "condition") with
  | .error message => .error (.invalidState s!"branch condition is invalid: {message}")
  | .ok path => .ok (if lookupTruthy s.registry path then "on_true" else "on_false")

mutual

/-- A value with the placeholders of its strings replaced. -/
def resolveJson (registry : Value) : Value → Except StepError Value
  | .string text =>
    match resolve text registry with
    | .ok text => .ok (.string text)
    | .error path => .error (unresolved path)
  | .array values =>
    match resolveJsonList registry values with
    | .ok values => .ok (.array values)
    | .error e => .error e
  | .object members =>
    match resolveJsonMembers registry members with
    | .ok members => .ok (.object members)
    | .error e => .error e
  | .null => .ok .null
  | .bool b => .ok (.bool b)
  | .number n => .ok (.number n)

def resolveJsonList (registry : Value) : List Value → Except StepError (List Value)
  | [] => .ok []
  | v :: vs =>
    match resolveJson registry v with
    | .error e => .error e
    | .ok v =>
      match resolveJsonList registry vs with
      | .error e => .error e
      | .ok vs => .ok (v :: vs)

def resolveJsonMembers (registry : Value) :
    List (String × Value) → Except StepError (List (String × Value))
  | [] => .ok []
  | (key, v) :: rest =>
    match resolveJson registry v with
    | .error e => .error e
    | .ok v =>
      match resolveJsonMembers registry rest with
      | .error e => .error e
      | .ok rest => .ok ((key, v) :: rest)

end

/-- The output of a state node, and the change of the storage that it asks for. -/
def executeState (s : RunState) (nd : Node) :
    Except StepError (Value × Option (String × Value)) :=
  match (JsonMap.get? nd.fields "op").bind Value.asStr with
  | none => .error ⟨"state node requires an operation"⟩
  | some op =>
    match resolveJson s.registry ((JsonMap.get? nd.fields "entries").getD (.object [])) with
    | .error e => .error e
    | .ok entries =>
      match entries.asObject with
      | none => .error ⟨"state entries must be an object"⟩
      | some entryMap =>
        match (s.registry.get? "storage").bind Value.asObject with
        | none => .error ⟨"run registry storage must be an object"⟩
        | some storage =>
          if op = "get" then
            if entryMap.isEmpty then .ok (.object storage, none)
            else
              .ok (.object (entryMap.map fun kv =>
                (kv.1, (JsonMap.get? storage kv.1).getD .null)), none)
          else if op = "set" ∨ op = "merge" ∨ op = "delete" then
            .ok (if op = "delete" then .object [] else entries, some (op, entries))
          else .error ⟨s!"unknown state op: {op}"⟩

/-- Whether a node type is a trigger. -/
def isTriggerType (type : String) : Bool := "_trigger".toList.isSuffixOf type.toList

/-- The output of a trigger or join. -/
def passThroughOutput (s : RunState) (nd : Node) : Value :=
  if isTriggerType nd.type then (triggerOutput s).getD (.object []) else .object []

/-! ### Dispatch -/

/-- Record what the executor answered. -/
def recordStep (host : Host ω) (bp : Blueprint) (s : RunState) (node : String) :
    Except StepError ExecutedStep → EngineProg ω RunState
  | .ok executed => do
      let s ← match executed.notification with
        | some message => emit host bp s (.notification node message)
        | none => pure s
      match executed.chosenPort with
      | some port => emit host bp s (.decisionCompleted node executed.output port)
      | none => emit host bp s (.nodeCompleted node executed.output)
  | .error e =>
    if e.isSkipped then emit host bp s (.nodeSkipped node)
    else emit host bp s (.nodeFailed node e.message)

/-- Execute a state node and record the outcome. -/
def dispatchState (host : Host ω) (bp : Blueprint) (s : RunState) (nd : Node) :
    EngineProg ω RunState := do
  let s ← emit host bp s (.nodeStarted nd.id)
  match executeState s nd with
  | .ok (output, update) =>
    let s ← match update with
      | some (op, entries) => emit host bp s (.stateUpdated nd.id op entries)
      | none => pure s
    emit host bp s (.nodeCompleted nd.id output)
  | .error e => emit host bp s (.nodeFailed nd.id e.message)

/-- Execute a node of the blueprint. -/
def dispatchNode (host : Host ω) (bp : Blueprint) (s : RunState) (nd : Node) :
    EngineProg ω RunState := do
  if ((findNodeType nd.type).map fun d => d.supported) = some false then
    emit host bp s (.nodeFailed nd.id
      s!"node type `{nd.type}` is registered but not supported by the automation runtime")
  else if isTriggerType nd.type ∨ nd.type = "join" then
    emit host bp s (.nodeCompleted nd.id (passThroughOutput s nd))
  else if isApproval bp nd.id then emit host bp s (.awaitingApproval nd.id)
  else if nd.type = "loop" then emit host bp s (.loopIteration nd.id 0)
  else if nd.type = "branch" then
    match evalBranch s nd with
    | .ok port => emit host bp s (.branchTaken nd.id port)
    | .error e => emit host bp s (.nodeFailed nd.id e.display)
  else if nd.type = "state" then dispatchState host bp s nd
  else
    let s ← emit host bp s (.nodeStarted nd.id)
    let result ← runSideEffect host s nd
    recordStep host bp s nd.id result

/-- Execute one runnable node. -/
def dispatch (host : Host ω) (bp : Blueprint) (s : RunState) (node : String) :
    EngineProg ω RunState := do
  observe (.dispatched node s)
  match bp.findNode node with
  | none => Prog.fail (.invalidState s!"missing node {node}")
  | some nd => dispatchNode host bp s nd

/-! ### The main loop -/

/-- The error of a run that the operator cancelled. -/
def cancelledMessage : String := "automation cancelled by operator"

/-- Clear the cancellation marker of a run that has ended. -/
def clearWhenEnded (host : Host ω) (s : RunState) : EngineProg ω Unit :=
  if s.status = .completed ∨ s.status = .failed then clearCancellationRequest host else return

/-- What a cancellation does after a node: a running run fails. -/
def cancelDispatch (host : Host ω) (bp : Blueprint) (s : RunState) : EngineProg ω RunState :=
  if s.status = .running then do
    let s ← emit host bp s (.runFailed cancelledMessage)
    clearWhenEnded host s
    return s
  else do
    clearWhenEnded host s
    return s

/-- Execute runnable nodes in order; the flag says whether the run goes on. -/
def dispatchAll (host : Host ω) (bp : Blueprint) :
    RunState → List String → EngineProg ω (RunState × Bool)
  | s, [] => return (s, true)
  | s, node :: rest => do
      let s ← dispatch host bp s node
      if s.status = .awaitingApproval then return (s, false)
      else if ← cancellationRequested host then
        let s ← cancelDispatch host bp s
        return (s, false)
      else if s.status = .failed then return (s, false)
      else dispatchAll host bp s rest

/-- The nodes that finalization skips, in the order of their ids. -/
def newlySkipped (s finalized : RunState) : List String :=
  (finalized.nodes.toList.filter fun p =>
    p.2 = .skipped && s.statusOrPending p.1 ≠ .skipped).map Prod.fst

/-- What a cancellation does at the head of a pass. -/
def consumeCancellation (host : Host ω) (bp : Blueprint) (s : RunState) :
    EngineProg ω RunState :=
  match s.status with
  | .running => do
      let s ← emit host bp s (.runFailed cancelledMessage)
      clearCancellationRequest host
      return s
  | .completed | .failed => do
      clearCancellationRequest host
      return s
  | .awaitingApproval => return s

/-- Plan finalization and persist the nodes that it skips; the first state is the planned one and
the second the one reached. -/
def finalizePass (host : Host ω) (bp : Blueprint) (s : RunState) :
    EngineProg ω (RunState × RunState) := do
  observe (.planned s)
  let finalized := finalizeIfDone bp s
  let s ← emitAll host bp s ((newlySkipped s finalized).map EventKind.nodeSkipped)
  writeCheckpoint host s
  return (finalized, s)

/-- The passes of the main loop: advance loops, finalize, then dispatch each runnable node. -/
def drivePasses (host : Host ω) (bp : Blueprint) : Nat → RunState → EngineProg ω RunState
  | 0, _ => Prog.fail .unfinished
  | fuel + 1, s => do
      if ← cancellationRequested host then consumeCancellation host bp s
      else
        match advanceLoops bp s with
        | .error e => emit host bp s (.runFailed e.display)
        | .ok events =>
          let s ← emitAll host bp s events
          let (finalized, s) ← finalizePass host bp s
          if finalized.status ≠ .running then
            if finalized.status = .completed then emit host bp s .runCompleted else return s
          else
            match step bp s with
            | [] => return s
            | runnable => do
                let (s, goesOn) ← dispatchAll host bp s runnable
                if goesOn then drivePasses host bp fuel s else return s

/-- Bind one `message_send` node before any task runs; the error stops the run. -/
def preflightNode (host : Host ω) (bp : Blueprint) (s : RunState) (fresh : Bool) (nd : Node) :
    EngineProg ω (RunState × Except StepError Unit) := do
  match messageSendRequest nd s with
  | .error e => return (s, .error e)
  | .ok req =>
    match ← callExecutor (host.preflightMessageSend req fresh) with
    | .error e => return (s, .error e)
    | .ok recipientId =>
      match s.messageDeliveries[nd.id]? with
      | some binding =>
        if binding.recipientId ≠ recipientId then
          return (s, .error ⟨"bound message_send recipient no longer exists"⟩)
        else return (s, .ok ())
      | none =>
        let s ← emit host bp s (.messageSendPrepared nd.id recipientId req.artifactPath)
        return (s, .ok ())

/-- Bind `message_send` nodes in order; the flag says whether the run goes on. -/
def preflight (host : Host ω) (bp : Blueprint) (fresh : Bool) :
    RunState → List Node → EngineProg ω (RunState × Bool)
  | s, [] => return (s, true)
  | s, nd :: rest => do
      if s.nodeStatus nd.id = some .completed ∨ s.nodeStatus nd.id = some .skipped then
        preflight host bp fresh s rest
      else
        match ← preflightNode host bp s fresh nd with
        | (s, .ok ()) => preflight host bp fresh s rest
        | (s, .error e) =>
          let s ← emit host bp s
            (.runFailed s!"message_send preflight `{nd.id}`: {e.display}")
          return (s, false)

/-- Whether no node but a trigger has started. -/
def isFresh (bp : Blueprint) (s : RunState) : Bool :=
  !bp.nodes.any fun nd => nd.type != "manual_trigger" && (s.nodeStatus nd.id).isSome

/-- The `message_send` nodes. -/
def messageSendNodes (bp : Blueprint) : List Node :=
  bp.nodes.filter fun nd => nd.type == "message_send"

/-- Drive a run until it completes, fails or parks on an approval, in at most `fuel` passes. -/
def drive (host : Host ω) (bp : Blueprint) (fuel : Nat) (s : RunState) :
    EngineProg ω RunState := do
  let s := s.normalizeLegacy
  if s.status = .running then
    let (s, goesOn) ← preflight host bp (isFresh bp s) s (messageSendNodes bp)
    if goesOn then drivePasses host bp fuel s else return s
  else drivePasses host bp fuel s

end Wardian.Engine
