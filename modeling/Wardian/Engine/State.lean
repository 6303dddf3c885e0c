/-
The state of a run.

A node that the table of statuses does not name is pending.  Edges are named by their index in the
blueprint.

Main results:

* `RunState.normalizeLegacy_of_normal` — normalizing a normal state changes nothing.
-/

import Wardian.Json
import Wardian.Lib.Table

set_option autoImplicit false

namespace Wardian.Engine

inductive RunStatus
  | running
  | awaitingApproval
  | completed
  | failed
  deriving DecidableEq

inductive NodeStatus
  | pending
  | running
  | completed
  | failed
  | skipped
  deriving DecidableEq

/-- The recipient and the artifact that a `message_send` node is bound to. -/
structure MessageDeliveryBinding where
  recipientId : String
  artifactPath : String
  deriving DecidableEq

/-- The state of a run. -/
structure RunState where
  runId : String
  blueprintId : String
  blueprintHash : Option String
  status : RunStatus
  /-- The statuses of the nodes; a node that is not here is pending. -/
  nodes : Table NodeStatus
  /-- Outputs, trigger, storage and run identity, as templates and conditions see them. -/
  registry : Value
  /-- The current iteration of each entered loop, from zero. -/
  loopIter : Table Nat
  /-- The inbound edges delivered to each node. -/
  delivered : Table (Finset Nat)
  /-- The edges that were not taken. -/
  skippedEdges : Finset Nat
  nextSeq : Nat
  failure : Option String
  messageDeliveries : Table MessageDeliveryBinding
  deriving DecidableEq

namespace RunState

/-- The state of a fresh run. -/
def new (runId blueprintId : String) : RunState where
  runId := runId
  blueprintId := blueprintId
  blueprintHash := none
  status := .running
  nodes := ∅
  registry := .object [("nodes", .object []), ("trigger", .object [("output", .object [])]),
    ("storage", .object []), ("run", .object [("id", .string runId)])]
  loopIter := ∅
  delivered := ∅
  skippedEdges := ∅
  nextSeq := 0
  failure := none
  messageDeliveries := ∅

/-- Add the registry members introduced after the first checkpoint format. -/
def normalizeLegacy (s : RunState) : RunState :=
  match s.registry with
  | .object m =>
    let m := JsonMap.insert m "run" (.object [("id", .string s.runId)])
    { s with registry := .object (JsonMap.entryOrInsert m "storage" (.object [])) }
  | _ => s

def nodeStatus (s : RunState) (id : String) : Option NodeStatus := s.nodes[id]?

def statusOrPending (s : RunState) (id : String) : NodeStatus := (s.nodeStatus id).getD .pending

def setNodeStatus (s : RunState) (id : String) (status : NodeStatus) : RunState :=
  { s with nodes := s.nodes.insert id status }

def setNodeOutput (s : RunState) (id : String) (output : Value) : RunState :=
  { s with
    registry := s.registry.indexMut "nodes" fun nodes =>
      nodes.indexMut id fun node => node.indexMut "output" fun _ => output }

def nodeOutput (s : RunState) (id : String) : Option Value :=
  (s.registry.get? "nodes").bind fun nodes => (nodes.get? id).bind fun node => node.get? "output"

def setTrigger (s : RunState) (output : Value) : RunState :=
  { s with
    registry := s.registry.indexMut "trigger" fun trigger =>
      trigger.indexMut "output" fun _ => output }

/-- The inbound edges delivered to a node. -/
def deliveredTo (s : RunState) (id : String) : Finset Nat := (s.delivered[id]?).getD ∅

/-! ### Statuses -/

theorem statusOrPending_setNodeStatus (s : RunState) (id n : String) (status : NodeStatus) :
    (s.setNodeStatus id status).statusOrPending n =
      if id = n then status else s.statusOrPending n := by
  simp only [statusOrPending, nodeStatus, setNodeStatus, Table.lookup_insert]
  split <;> rfl

/-! ### Normal states -/

/-- The registry of a normal state names the run and has storage. -/
def Normal (s : RunState) : Prop :=
  s.registry.get? "run" = some (.object [("id", .string s.runId)]) ∧
    ∃ v, s.registry.get? "storage" = some v

theorem normal_new (runId blueprintId : String) : (new runId blueprintId).Normal :=
  ⟨rfl, _, rfl⟩

theorem normalizeLegacy_frame {β : Type} {f : RunState → β} (s : RunState)
    (hf : ∀ registry, f { s with registry := registry } = f s) : f s.normalizeLegacy = f s := by
  unfold normalizeLegacy
  split
  · exact hf _
  · rfl

variable {s : RunState}

theorem normalizeLegacy_of_normal (h : s.Normal) : s.normalizeLegacy = s := by
  obtain ⟨hrun, v, hstor⟩ := h
  unfold normalizeLegacy
  split
  · rename_i m hm
    rw [hm] at hrun hstor
    simp only [JsonMap.insert_of_get? hrun, JsonMap.entryOrInsert_of_get? _ hstor, ← hm]
  · rfl

/-- A fresh state that takes the id of a run is the fresh state of that run. -/
theorem normalizeLegacy_new (runId id blueprintId : String) (hash : Option String) :
    { new runId blueprintId with runId := id, blueprintHash := hash }.normalizeLegacy =
      { new id blueprintId with blueprintHash := hash } := by
  simp [normalizeLegacy, new, JsonMap.insert, JsonMap.entryOrInsert, JsonMap.contains,
    JsonMap.get?]

theorem normal_normalizeLegacy {m : JsonMap} (h : s.registry = .object m) : s.normalizeLegacy.Normal := by
  simp only [normalizeLegacy, h, Normal, Value.get?]
  constructor
  · unfold JsonMap.entryOrInsert
    split
    · rw [JsonMap.get?_insert_self]
    · rw [JsonMap.get?_insert, if_neg (by decide), JsonMap.get?_insert_self]
  · unfold JsonMap.entryOrInsert
    split
    · rename_i hc
      exact Option.isSome_iff_exists.1 hc
    · exact ⟨_, JsonMap.get?_insert_self _ _ _⟩

end RunState

end Wardian.Engine
