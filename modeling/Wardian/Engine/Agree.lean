/-
States that differ in the statuses of their nodes and in numbers that were read back.

Resuming a run makes the nodes that were in flight pending again, without an event.  So the state
that drives on and the state that the log gives may differ in the statuses of nodes; everything else
agrees, and stays so, because no event reads more of the statuses than whether a node is skipped,
and what it decides from that is a status.  They may also differ in floating-point numbers, which
were read back more often in one of them than in the other.

Main results:

* `Engine.Agree.apply_ok` — agreeing states take an event to agreeing states;
* `Engine.agree_remarkInterrupted` — resuming keeps everything but statuses.
-/

import Wardian.Engine.Replay

set_option autoImplicit false

namespace Wardian.Engine

open Automation (Blueprint)

/-! ### Other statuses -/

/-- The state with other statuses of its nodes. -/
def RunState.withNodes (s : RunState) (nodes : Table NodeStatus) : RunState :=
  { s with nodes := nodes }

/-- Two states are the same in everything but the statuses of their nodes. -/
def Renode (s t : RunState) : Prop := ∃ nodes, t = s.withNodes nodes

theorem Renode.refl (s : RunState) : Renode s s := ⟨s.nodes, rfl⟩

theorem Renode.symm {s t : RunState} (h : Renode s t) : Renode t s := by
  obtain ⟨nodes, rfl⟩ := h
  exact ⟨s.nodes, rfl⟩

theorem Renode.trans {s t u : RunState} (h : Renode s t) (h' : Renode t u) : Renode s u := by
  obtain ⟨nodes, rfl⟩ := h
  obtain ⟨nodes', rfl⟩ := h'
  exact ⟨nodes', rfl⟩

variable {s t : RunState}

theorem Renode.frame {β : Type} {f : RunState → β} (h : Renode s t)
    (hf : ∀ s nodes, f (s.withNodes nodes) = f s) : f t = f s := by
  obtain ⟨nodes, rfl⟩ := h
  exact hf s nodes

theorem Renode.status (h : Renode s t) : t.status = s.status :=
  h.frame fun _ _ => rfl

theorem Renode.nextSeq (h : Renode s t) : t.nextSeq = s.nextSeq :=
  h.frame fun _ _ => rfl

theorem Renode.sameRun (h : Renode s t) : SameRun s t :=
  ⟨h.frame fun _ _ => rfl, h.frame fun _ _ => rfl, h.frame fun _ _ => rfl⟩

theorem Renode.normal (h : Renode s t) (hs : s.Normal) : t.Normal :=
  hs.congr (h.frame (f := RunState.runId) fun _ _ => rfl)
    (h.frame (f := RunState.registry) fun _ _ => rfl)

/-! ### Changes of the state -/

theorem Renode.setNodeStatus (h : Renode s t) (node : String)
    (status : NodeStatus) : Renode (s.setNodeStatus node status) (t.setNodeStatus node status) := by
  obtain ⟨nodes, rfl⟩ := h
  exact ⟨_, rfl⟩

/-- A change that reads and writes no status keeps the rest the same. -/
theorem Renode.map (h : Renode s t) (f : RunState → RunState)
    (hf : ∀ s nodes, f (s.withNodes nodes) = (f s).withNodes nodes) : Renode (f s) (f t) := by
  obtain ⟨nodes, rfl⟩ := h
  exact ⟨nodes, hf s nodes⟩

variable {bp : Blueprint}

theorem Renode.deliverEdge (h : Renode s t) (port : String)
    (i : Nat) : Renode (deliverEdge bp port s i) (deliverEdge bp port t i) := by
  obtain ⟨nodes, rfl⟩ := h
  unfold Engine.deliverEdge
  split
  · exact ⟨nodes, rfl⟩
  · split
    · -- whether the target was skipped decides only its status
      split <;> split <;> exact ⟨_, rfl⟩
    · exact ⟨nodes, rfl⟩

theorem Renode.deliverFromPort {bp : Blueprint} {s t : RunState} (h : Renode s t)
    (node port : String) : Renode (deliverFromPort bp s node port) (deliverFromPort bp t node port) := by
  unfold Engine.deliverFromPort
  induction outbound bp node generalizing s t with
  | nil => exact h
  | cons i edges ih => exact ih (h.deliverEdge port i)

theorem Renode.resetBodyNode (h : Renode s t) (node : String) :
    Renode (resetBodyNode s node) (resetBodyNode t node) := by
  obtain ⟨nodes, rfl⟩ := h
  have houtp : (s.withNodes nodes).nodeOutput node = s.nodeOutput node := rfl
  unfold Engine.resetBodyNode
  rw [houtp]
  cases s.nodeOutput node <;> exact ⟨_, rfl⟩

theorem Renode.foldl_resetBodyNode (h : Renode s t) (body : List String) :
    Renode (body.foldl Engine.resetBodyNode s) (body.foldl Engine.resetBodyNode t) := by
  induction body generalizing s t with
  | nil => exact h
  | cons b body ih => exact ih (h.resetBodyNode b)

theorem Renode.completeNode (h : Renode s t) (node : String)
    (output : Value) : Renode (completeNode bp s node output) (completeNode bp t node output) := by
  have hset : Renode ((s.setNodeOutput node output).setNodeStatus node .completed)
      ((t.setNodeOutput node output).setNodeStatus node .completed) :=
    (h.map (fun s => s.setNodeOutput node output) fun _ _ => rfl).setNodeStatus node .completed
  unfold Engine.completeNode
  dsimp only
  split
  · exact hset
  · exact hset.deliverFromPort node "out"

/-! ### Events -/

/-- Two results are related states, or the same error. -/
def RenodeResult : Except EngineError RunState → Except EngineError RunState → Prop
  | .ok s, .ok t => Renode s t
  | .error e, .error e' => e = e'
  | _, _ => False

theorem RenodeResult.of_eq {r r' : Except EngineError RunState} (h : r = r') : RenodeResult r r' := by
  subst h
  cases r with
  | ok s => exact Renode.refl s
  | error e => rfl

theorem RenodeResult.ite {p : Prop} [Decidable p] {d : Decidable p}
    {r₁ r₂ r₁' r₂' : Except EngineError RunState} (h₁ : RenodeResult r₁ r₁') (h₂ : RenodeResult r₂ r₂') :
    RenodeResult (if p then r₁ else r₂) (@ite _ p d r₁' r₂') := by
  by_cases hp : p
  · rw [if_pos hp, if_pos hp]
    exact h₁
  · rw [if_neg hp, if_neg hp]
    exact h₂

theorem renodeResult_applyRunStarted (h : Renode s t) (ts : String) (runId hash : Option String)
    (blueprintId : String) (schema : Nat) (trigger : Value) :
    RenodeResult (applyRunStarted bp s ts runId hash blueprintId schema trigger)
      (applyRunStarted bp t ts runId hash blueprintId schema trigger) := by
  have hset : ∀ id : String,
      Renode ({ s with runId := id, blueprintHash := hash.or s.blueprintHash }.normalizeLegacy.setTrigger
          (runtimeTriggerOutput trigger ts))
        ({ t with runId := id, blueprintHash := hash.or t.blueprintHash }.normalizeLegacy.setTrigger
          (runtimeTriggerOutput trigger ts)) := by
    intro id
    refine h.map (fun s => { s with
      runId := id, blueprintHash := hash.or s.blueprintHash }.normalizeLegacy.setTrigger
        (runtimeTriggerOutput trigger ts)) fun s nodes => ?_
    unfold RunState.normalizeLegacy
    cases hreg : s.registry <;> simp only [RunState.withNodes, hreg] <;> rfl
  obtain ⟨nodes, rfl⟩ := h
  unfold applyRunStarted
  split
  · rfl
  · split
    · rfl
    · cases runId with
      | none => exact hset s.runId
      | some id =>
        exact RenodeResult.ite (RenodeResult.of_eq rfl) (hset id)

theorem renodeResult_applyMessageSendPrepared (h : Renode s t) (node recipientId artifactPath : String) :
    RenodeResult (applyMessageSendPrepared s node recipientId artifactPath)
      (applyMessageSendPrepared t node recipientId artifactPath) := by
  have hset := h.map (fun s => { s with
    messageDeliveries := s.messageDeliveries.insert node ⟨recipientId, artifactPath⟩ })
    fun _ _ => rfl
  obtain ⟨nodes, rfl⟩ := h
  unfold applyMessageSendPrepared
  dsimp only [RunState.withNodes]
  split
  · split
    · rfl
    · exact hset
  · exact hset

theorem renodeResult_applyStateUpdate (h : Renode s t) (op : String)
    (entries : Value) : RenodeResult (applyStateUpdate s op entries)
      (applyStateUpdate t op entries) := by
  have hset : ∀ storage : JsonMap,
      Renode { s with registry := s.registry.indexMut "storage" fun _ => .object storage }
        { t with registry := t.registry.indexMut "storage" fun _ => .object storage } :=
    fun storage => h.map (fun s => { s with
      registry := s.registry.indexMut "storage" fun _ => .object storage }) fun _ _ => rfl
  obtain ⟨nodes, rfl⟩ := h
  unfold applyStateUpdate
  dsimp only [RunState.withNodes]
  split
  · rfl
  · split
    · rfl
    · split
      · rfl
      · split
        · exact hset _
        · split
          · exact hset _
          · rfl

theorem renodeResult_applyLoopIteration (h : Renode s t)
    (loopId : String) (iteration : Nat) : RenodeResult (applyLoopIteration bp s loopId iteration)
      (applyLoopIteration bp t loopId iteration) := by
  have henter : ∀ {s t : RunState}, Renode s t →
      Renode { s with loopIter := s.loopIter.insert loopId iteration }
        { t with loopIter := t.loopIter.insert loopId iteration } :=
    fun h => h.map (fun s => { s with loopIter := s.loopIter.insert loopId iteration })
      fun _ _ => rfl
  have hrst := h.foldl_resetBodyNode (bodyNodes bp loopId)
  have hfilt := hrst.map (fun s => { s with
    skippedEdges := s.skippedEdges.filter fun i => ¬isBodyEdge bp loopId i }) fun _ _ => rfl
  have hiter : t.loopIter = s.loopIter := h.frame fun _ _ => rfl
  unfold applyLoopIteration
  rw [hiter]
  split
  · rename_i hzero
    subst hzero
    exact (henter (h.setNodeStatus loopId .running)).deliverFromPort loopId "body"
  · split
    · rfl
    · split
      · rfl
      · exact (henter hfilt).deliverFromPort loopId "body"

theorem renodeResult_applyKind (h : Renode s t) (ts : String)
    (kind : EventKind) : RenodeResult (applyKind bp s ts kind) (applyKind bp t ts kind) := by
  have hend : ∀ {s t : RunState}, Renode s t → ∀ status failure,
      Renode { s with status := status, failure := failure }
        { t with status := status, failure := failure } :=
    fun h status failure => h.map (fun s => { s with status := status, failure := failure })
      fun _ _ => rfl
  have hstat : ∀ {s t : RunState}, Renode s t → ∀ status,
      Renode { s with status := status } { t with status := status } :=
    fun h status => h.map (fun s => { s with status := status }) fun _ _ => rfl
  cases kind with
  | runStarted => exact renodeResult_applyRunStarted h ts _ _ _ _ _
  | messageSendPrepared => exact renodeResult_applyMessageSendPrepared h _ _ _
  | nodeStarted node => exact h.setNodeStatus node .running
  | nodeCompleted node output => exact h.completeNode node output
  | decisionCompleted node output port =>
    exact ((h.map (fun s => s.setNodeOutput node output) fun _ _ => rfl).setNodeStatus node
      .completed).deliverFromPort node port
  | stateUpdated node op entries => exact renodeResult_applyStateUpdate h op entries
  | notification => exact h
  | nodeFailed node error | approvalRejected node actor note => exact hend (h.setNodeStatus node .failed) _ _
  | branchTaken node port | decisionMade node port =>
    exact (h.setNodeStatus node .completed).deliverFromPort node port
  | nodeSkipped node =>
    exact (h.setNodeStatus node .skipped).map (fun s => { s with
      skippedEdges := s.skippedEdges ∪ (outbound bp node).toFinset }) fun _ _ => rfl
  | runCompleted => exact hstat h _
  | runFailed error => exact hend h _ _
  | loopIteration node iteration => exact renodeResult_applyLoopIteration h node iteration
  | loopCompleted node => exact (h.setNodeStatus node .completed).deliverFromPort node "done"
  | awaitingApproval node => exact hstat (h.setNodeStatus node .running) _
  | approvalGranted node actor note =>
    exact ((hstat h .running).setNodeStatus node .completed).deliverFromPort node "out"

theorem Renode.apply_ok {s' : RunState} {ev : Event} (h : Renode s t)
    (happ : apply bp s ev = .ok s') : ∃ t', apply bp t ev = .ok t' ∧ Renode s' t' := by
  obtain ⟨s₁, h₁, rfl⟩ := Engine.apply_ok happ
  have hres : RenodeResult (applyKind bp s ev.ts ev.kind) (applyKind bp t ev.ts ev.kind) :=
    renodeResult_applyKind h ev.ts ev.kind
  rw [h₁] at hres
  cases hkind : applyKind bp t ev.ts ev.kind with
  | error e =>
    rw [hkind] at hres
    exact absurd hres id
  | ok t₁ =>
    rw [hkind] at hres
    refine ⟨{ t₁ with nextSeq := ev.seq + 1 }, by rw [apply, hkind], ?_⟩
    exact Renode.map hres (fun s => { s with nextSeq := ev.seq + 1 }) fun _ _ => rfl

/-! ### Numbers that were read back -/

/-- Two states agree in everything but the statuses of their nodes and floating-point numbers. -/
def Agree (s t : RunState) : Prop := Renode s.erase t.erase

theorem Agree.refl (s : RunState) : Agree s s := Renode.refl s.erase

theorem Agree.symm (h : Agree s t) : Agree t s := Renode.symm h

theorem Agree.trans {u : RunState} (h : Agree s t) (h' : Agree t u) : Agree s u := Renode.trans h h'

theorem Renode.agree (h : Renode s t) : Agree s t := h.imp fun _ ht => congrArg RunState.erase ht

theorem Agree.status (h : Agree s t) : t.status = s.status :=
  Renode.status (s := s.erase) (t := t.erase) h

theorem Agree.nextSeq (h : Agree s t) : t.nextSeq = s.nextSeq :=
  Renode.nextSeq (s := s.erase) (t := t.erase) h

theorem Agree.sameRun (h : Agree s t) : SameRun s t := by
  obtain ⟨hrun, hbp, hhash⟩ := Renode.sameRun h
  exact ⟨hrun, hbp, hhash⟩

theorem Agree.normal (h : Agree s t) (hs : s.Normal) : t.Normal :=
  RunState.normal_reread.1 (Renode.normal h (RunState.normal_reread.2 hs))

/-- Reading a state back keeps the agreement. -/
theorem agree_reread {read : ReadFloat} : Agree s (t.reread read) ↔ Agree s t := by
  rw [Agree, RunState.erase_reread]
  rfl

/-- Agreeing states take an event to agreeing states. -/
theorem Agree.apply_ok {s' : RunState} {ev : Event} (h : Agree s t)
    (happ : apply bp s ev = .ok s') : ∃ t', apply bp t ev = .ok t' ∧ Agree s' t' := by
  obtain ⟨u, hu, hrel⟩ := Renode.apply_ok h (apply_reread_ok s happ)
  have herase : (apply bp t ev).map RunState.erase = .ok u := (apply_reread t ev).symm.trans hu
  cases happ' : apply bp t ev with
  | error e =>
    rw [happ'] at herase
    cases herase
  | ok t' =>
    rw [happ'] at herase
    obtain rfl := Except.ok.inj herase
    exact ⟨t', rfl, hrel⟩

/-! ### Resuming -/

theorem renode_remarkInterrupted (bp : Blueprint) (s : RunState) : Renode s (remarkInterrupted bp s) := by
  unfold remarkInterrupted
  generalize interruptedNodes bp s = nodes
  induction nodes generalizing s with
  | nil => exact Renode.refl s
  | cons node nodes ih =>
    have hset : Renode s (s.setNodeStatus node .pending) := ⟨_, rfl⟩
    exact hset.trans (ih _)

theorem agree_remarkInterrupted (bp : Blueprint) (s : RunState) : Agree s (remarkInterrupted bp s) :=
  (renode_remarkInterrupted bp s).agree

theorem remarkInterrupted_eq (h : interruptedNodes bp s = []) : remarkInterrupted bp s = s := by
  rw [remarkInterrupted, h]
  rfl

end Wardian.Engine
