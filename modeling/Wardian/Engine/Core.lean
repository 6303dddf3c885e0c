/-
The pure core of the engine: which nodes can run, and how an event changes the state.
-/

import Wardian.Engine.Event
import Wardian.Engine.Graph
import Wardian.Engine.Interpolate
import Wardian.Engine.State

set_option autoImplicit false

namespace Wardian.Engine

open Automation (Blueprint Edge Node validatePath lookupTruthy)

/-! ### Runnable nodes -/

/-- Whether an edge into a node has been delivered or skipped. -/
def resolved (s : RunState) (node : String) (i : Nat) : Bool :=
  i ∈ s.deliveredTo node || i ∈ s.skippedEdges

/-- Whether a node can run: it is pending, and its inbound edges are resolved with one of them
delivered.  A node without inbound edges is an entry, unless it is in the body of a loop. -/
def runnable (bp : Blueprint) (s : RunState) (nd : Node) : Bool :=
  s.statusOrPending nd.id = .pending &&
    if inbound bp nd.id = [] then nd.parent.isNone
    else (inbound bp nd.id).all (resolved s nd.id) &&
      (inbound bp nd.id).any fun i => i ∈ s.deliveredTo nd.id

/-- The nodes that can run now. -/
def step (bp : Blueprint) (s : RunState) : List String :=
  if s.status ≠ .running then [] else (bp.nodes.filter (runnable bp s)).map (·.id)

/-! ### Changes of the state -/

/-- The output of a trigger, as the run sees it. -/
def runtimeTriggerOutput (trigger : Value) (timestamp : String) : Value :=
  match trigger with
  | .object m => .object (JsonMap.entryOrInsert m "timestamp" (.string timestamp))
  | other => .object [("timestamp", .string timestamp), ("payload", other)]

/-- Deliver one edge when it leaves from the port, and skip it otherwise. -/
def deliverEdge (bp : Blueprint) (port : String) (s : RunState) (i : Nat) : RunState :=
  match bp.edges[i]? with
  | none => s
  | some e =>
    if e.fromPort = port then
      let s' := { s with
        skippedEdges := s.skippedEdges.erase i
        delivered := s.delivered.insert e.toNode (insert i (s.deliveredTo e.toNode)) }
      -- a later port of a loop makes a successor that was skipped runnable again
      if s.statusOrPending e.toNode = .skipped then s'.setNodeStatus e.toNode .pending else s'
    else { s with skippedEdges := insert i s.skippedEdges }

/-- Deliver the edges out of one port of a node and skip the others. -/
def deliverFromPort (bp : Blueprint) (s : RunState) (node port : String) : RunState :=
  (outbound bp node).foldl (deliverEdge bp port) s

/-- Deliver only the chosen port. -/
def deliverChosenPort (bp : Blueprint) (s : RunState) (node chosen : String) : RunState :=
  deliverFromPort bp s node chosen

/-- Skip a node with all its outbound edges. -/
def skipNode (bp : Blueprint) (s : RunState) (node : String) : RunState :=
  let s' := s.setNodeStatus node .skipped
  { s' with skippedEdges := s'.skippedEdges ∪ (outbound bp node).toFinset }

/-- Change the storage of the run. -/
def applyStateUpdate (s : RunState) (op : String) (entries : Value) :
    Except EngineError RunState :=
  match entries.asObject with
  | none => .error (.invalidState "state entries must be an object")
  | some entries =>
    match s.registry.get? "storage" with
    | none => .error (.invalidState "run registry is missing storage")
    | some storage =>
      match storage.asObject with
      | none => .error (.invalidState "run registry storage must be an object")
      | some storage =>
        let update := fun storage' : JsonMap =>
          { s with registry := s.registry.indexMut "storage" fun _ => .object storage' }
        if op = "set" ∨ op = "merge" then
          .ok (update (entries.foldl (fun st kv => JsonMap.insert st kv.1 kv.2) storage))
        else if op = "delete" then
          .ok (update ((JsonMap.keys entries).foldl JsonMap.remove storage))
        else .error (.invalidState s!"unknown state op: {op}")

/-- Keep the output of a body node as the previous one, and make the node pending again. -/
def resetBodyNode (s : RunState) (node : String) : RunState :=
  let s₁ := match s.nodeOutput node with
    | some output =>
      { s with
        registry := s.registry.indexMut "nodes" fun nodes =>
          nodes.indexMut node fun n => n.indexMut "prev" fun _ => output }
    | none => s
  let s₂ := s₁.setNodeStatus node .pending
  { s₂ with delivered := s₂.delivered.erase node }

/-- Whether an edge is inside the body of a loop or enters it from the loop. -/
def isBodyEdge (bp : Blueprint) (loopId : String) (i : Nat) : Bool :=
  match bp.edges[i]? with
  | none => false
  | some e =>
    (bodyNodes bp loopId).contains e.toNode &&
      ((bodyNodes bp loopId).contains e.fromNode || e.fromNode == loopId)

/-- Enter a loop, or start its next iteration. -/
def applyLoopIteration (bp : Blueprint) (s : RunState) (loopId : String) (iteration : Nat) :
    Except EngineError RunState :=
  if iteration = 0 then
    let s₁ := s.setNodeStatus loopId .running
    .ok (deliverFromPort bp { s₁ with loopIter := s₁.loopIter.insert loopId 0 } loopId "body")
  else
    match s.loopIter[loopId]? with
    | none => .error (.invalidState s!"loop `{loopId}` advanced before its initial iteration")
    | some previous =>
      if previous + 1 ≠ iteration then
        .error (.invalidState
          s!"loop `{loopId}` expected iteration {previous + 1}, got {iteration}")
      else
        let s₁ := (bodyNodes bp loopId).foldl resetBodyNode s
        let s₂ := { s₁ with
          skippedEdges := s₁.skippedEdges.filter fun i => ¬isBodyEdge bp loopId i
          loopIter := s₁.loopIter.insert loopId iteration }
        .ok (deliverFromPort bp s₂ loopId "body")

/-! ### Events -/

/-- Fold the start of a run. -/
def applyRunStarted (bp : Blueprint) (s : RunState) (ts : String) (runId blueprintHash :
    Option String) (blueprintId : String) (schema : Nat) (trigger : Value) :
    Except EngineError RunState :=
  if blueprintId ≠ bp.id then
    .error (.invalidState
      s!"automation event belongs to blueprint `{blueprintId}`, requested `{bp.id}`")
  else if schema ≠ bp.schema then
    .error (.invalidState
      s!"automation event schema is {schema}, requested blueprint schema is {bp.schema}")
  else
    match runId with
    | some id =>
      if s.nextSeq = 0 ∧ s.runId ≠ "replay" ∧ s.runId ≠ "rebuilt" ∧ s.runId ≠ id then
        .error (.invalidState s!"automation run identity changed from `{s.runId}` to `{id}`")
      else
        let s' := { s with runId := id, blueprintHash := blueprintHash.or s.blueprintHash }
        .ok (s'.normalizeLegacy.setTrigger (runtimeTriggerOutput trigger ts))
    | none =>
      let s' := { s with blueprintHash := blueprintHash.or s.blueprintHash }
      .ok (s'.normalizeLegacy.setTrigger (runtimeTriggerOutput trigger ts))

/-- Fold the binding of a `message_send` node. -/
def applyMessageSendPrepared (s : RunState) (node recipientId artifactPath : String) :
    Except EngineError RunState :=
  let binding : MessageDeliveryBinding := ⟨recipientId, artifactPath⟩
  match s.messageDeliveries[node]? with
  | some previous =>
    if previous ≠ binding then
      .error (.invalidState "message_send binding cannot change within a run")
    else .ok { s with messageDeliveries := s.messageDeliveries.insert node binding }
  | none => .ok { s with messageDeliveries := s.messageDeliveries.insert node binding }

/-- Whether the definition of a node routes through its completion. -/
def isDecision (bp : Blueprint) (node : String) : Bool :=
  match bp.findNode node with
  | some definition => definition.type == "decision"
  | none => false

/-- Fold the completion of a node; a decision has no normal `out` port. -/
def completeNode (bp : Blueprint) (s : RunState) (node : String) (output : Value) : RunState :=
  let s' := (s.setNodeOutput node output).setNodeStatus node .completed
  if isDecision bp node then s' else deliverFromPort bp s' node "out"

/-- Fold what an event says into the state. -/
def applyKind (bp : Blueprint) (s : RunState) (ts : String) :
    EventKind → Except EngineError RunState
  | .runStarted runId blueprintHash blueprintId schema trigger =>
    applyRunStarted bp s ts runId blueprintHash blueprintId schema trigger
  | .messageSendPrepared node recipientId artifactPath =>
    applyMessageSendPrepared s node recipientId artifactPath
  | .nodeStarted node => .ok (s.setNodeStatus node .running)
  | .nodeCompleted node output => .ok (completeNode bp s node output)
  | .decisionCompleted node output port =>
    .ok (deliverChosenPort bp ((s.setNodeOutput node output).setNodeStatus node .completed)
      node port)
  | .stateUpdated _ op entries => applyStateUpdate s op entries
  | .notification _ _ => .ok s
  | .nodeFailed node error =>
    .ok { s.setNodeStatus node .failed with
      status := .failed, failure := some s!"{node}: {error}" }
  | .branchTaken node port | .decisionMade node port =>
    .ok (deliverChosenPort bp (s.setNodeStatus node .completed) node port)
  | .nodeSkipped node => .ok (skipNode bp s node)
  | .runCompleted => .ok { s with status := .completed }
  | .runFailed error => .ok { s with status := .failed, failure := some error }
  | .loopIteration node iteration => applyLoopIteration bp s node iteration
  | .loopCompleted node =>
    .ok (deliverFromPort bp (s.setNodeStatus node .completed) node "done")
  | .awaitingApproval node =>
    .ok { s.setNodeStatus node .running with status := .awaitingApproval }
  | .approvalGranted node _ _ =>
    .ok (deliverFromPort bp ({ s with status := .running }.setNodeStatus node .completed)
      node "out")
  | .approvalRejected node _ _ =>
    .ok { s.setNodeStatus node .failed with
      status := .failed, failure := some s!"{node}: approval rejected" }

/-- Fold one event into the state. -/
def apply (bp : Blueprint) (s : RunState) (ev : Event) : Except EngineError RunState :=
  match applyKind bp s ev.ts ev.kind with
  | .ok s' => .ok { s' with nextSeq := ev.seq + 1 }
  | .error e => .error e

/-! ### Finalization -/

/-- The pending nodes all of whose inbound edges are skipped. -/
def unreachableNodes (bp : Blueprint) (s : RunState) : List String :=
  (bp.nodes.filter fun nd => s.statusOrPending nd.id = .pending &&
    (inbound bp nd.id ≠ [] && (inbound bp nd.id).all fun i => i ∈ s.skippedEdges)).map (·.id)

/-- Skip unreachable nodes until there are none; every round skips one, so the number of nodes
bounds the rounds. -/
def cascadeSkips (bp : Blueprint) : Nat → RunState → RunState
  | 0, s => s
  | fuel + 1, s =>
    match unreachableNodes bp s with
    | [] => s
    | toSkip => cascadeSkips bp fuel (toSkip.foldl (skipNode bp) s)

/-- Whether a node is running. -/
def anyRunning (s : RunState) : Bool := s.nodes.toList.any fun p => p.2 = .running

/-- Skip what can no longer run, and complete the run when nothing runs or can run. -/
def finalizeIfDone (bp : Blueprint) (s : RunState) : RunState :=
  if s.status ≠ .running then s
  else
    let s' := cascadeSkips bp bp.nodes.length s
    if !anyRunning s' && (step bp s').isEmpty then { s' with status := .completed } else s'

/-! ### Loops -/

/-- The largest number of the field's type. -/
def maxU32 : Nat := 2 ^ 32 - 1

/-- A number field: a number, or a template that resolves to one. -/
def resolveU32Field (fields : JsonMap) (key : String) (registry : Value) (default : Nat) : Nat :=
  match JsonMap.get? fields key with
  | none => default
  | some value =>
    match value.asU64 with
    | some n => min n maxU32
    | none =>
      match value.asStr with
      | none => default
      | some template =>
        match resolve template registry with
        | .error _ => default
        | .ok text =>
          match Text.parseU64 (Text.trim text.toList) with
          | some n => min n maxU32
          | none => default

/-- The bound on the iterations of a loop; at least one. -/
def maxIterations (registry : Value) (loopNode : Option Node) : Nat :=
  match loopNode with
  | some nd => max (resolveU32Field nd.fields "max_iterations" registry 1) 1
  | none => 1

/-- Whether the condition that ends a loop holds. -/
def untilMet (registry : Value) (loopId : String) (loopNode : Option Node) :
    Except EngineError Bool :=
  match loopNode.bind fun nd => JsonMap.get? nd.fields "until" with
  | none => .ok false
  | some value =>
    match value.asStr with
    | none => .error (.invalidState s!"loop `{loopId}` until condition must be a registry path")
    | some condition =>
      match validatePath condition with
      | .error message =>
        .error (.invalidState s!"loop `{loopId}` until condition is invalid: {message}")
      | .ok path => .ok (lookupTruthy registry path)

/-- Whether a node has ended in this iteration. -/
def terminal (s : RunState) (node : String) : Bool :=
  s.statusOrPending node = .completed || s.statusOrPending node = .skipped ||
    s.statusOrPending node = .failed

/-- The event of one running loop, once its body has ended. -/
def advanceLoop (bp : Blueprint) (s : RunState) (lp : String) :
    Except EngineError (Option EventKind) :=
  let body := bodyNodes bp lp
  if body.isEmpty then .ok (some (.loopCompleted lp))
  else if !body.all (terminal s) then .ok none
  else
    let iter := (s.loopIter[lp]?).getD 0
    let loopNode := bp.findNode lp
    match untilMet s.registry lp loopNode with
    | .error e => .error e
    | .ok met =>
      if !met && iter + 1 < maxIterations s.registry loopNode then
        .ok (some (.loopIteration lp (iter + 1)))
      else .ok (some (.loopCompleted lp))

/-- The events of a list of running loops. -/
def advanceEach (bp : Blueprint) (s : RunState) : List String → Except EngineError (List EventKind)
  | [] => .ok []
  | lp :: rest =>
    match advanceLoop bp s lp with
    | .error e => .error e
    | .ok event =>
      match advanceEach bp s rest with
      | .error e => .error e
      | .ok events => .ok (event.toList ++ events)

/-- The running loops. -/
def runningLoops (bp : Blueprint) (s : RunState) : List String :=
  (bp.nodes.filter fun nd => nd.type == "loop" && s.statusOrPending nd.id = .running).map (·.id)

/-- The events of the running loops whose body has ended: the next iteration or the end. -/
def advanceLoops (bp : Blueprint) (s : RunState) : Except EngineError (List EventKind) :=
  advanceEach bp s (runningLoops bp s)

/-- Whether a node is an approval gate. -/
def isApproval (bp : Blueprint) (node : String) : Bool :=
  match bp.findNode node with
  | some n => n.type == "approval"
  | none => false

end Wardian.Engine
