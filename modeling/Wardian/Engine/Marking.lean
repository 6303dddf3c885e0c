/-
The marking of a run: what its state says about the graph.

Forget the registry, the bindings and the bookkeeping of a state, and what is left is a token game.
Nodes have statuses, edges hold tokens or are skipped, and an event moves tokens: a node that ends
pulses one of its ports, a skipped node skips its edges, a new iteration of a loop clears its body.
The invariants of runs are about this game; the state of the engine follows it.

Main results:

* `Engine.marking_applyKind` — folding an event into a state moves its marking by the effect of the
  event;
* `Engine.status_applyKind` — what an event does to the status of the run.
-/

import Wardian.Engine.Core

set_option autoImplicit false

namespace Wardian.Engine

open List
open Automation (Blueprint Edge Node)

/-! ### Edges -/

/-- Edge `i` leaves from `node`. -/
def Leaves (bp : Blueprint) (i : Nat) (node : String) : Prop :=
  ∃ e, bp.edges[i]? = some e ∧ e.fromNode = node

/-- Edge `i` leaves from a port of `node`. -/
def LeavesPort (bp : Blueprint) (i : Nat) (node port : String) : Prop :=
  ∃ e, bp.edges[i]? = some e ∧ e.fromNode = node ∧ e.fromPort = port

/-- Edge `i` enters `node`. -/
def Enters (bp : Blueprint) (i : Nat) (node : String) : Prop :=
  ∃ e, bp.edges[i]? = some e ∧ e.toNode = node

variable {bp : Blueprint} {i : Nat} {node port : String}

theorem LeavesPort.leaves (h : LeavesPort bp i node port) : Leaves bp i node := by
  obtain ⟨e, he, hfrom, -⟩ := h
  exact ⟨e, he, hfrom⟩

theorem Leaves.unique {u v : String} (hu : Leaves bp i u) (hv : Leaves bp i v) : u = v := by
  obtain ⟨e, he, rfl⟩ := hu
  obtain ⟨e', he', rfl⟩ := hv
  rw [he] at he'
  rw [Option.some.inj he']

theorem Enters.unique {u v : String} (hu : Enters bp i u) (hv : Enters bp i v) : u = v := by
  obtain ⟨e, he, rfl⟩ := hu
  obtain ⟨e', he', rfl⟩ := hv
  rw [he] at he'
  rw [Option.some.inj he']

theorem mem_inbound_iff : i ∈ inbound bp node ↔ Enters bp i node := mem_inbound

theorem mem_outbound_iff : i ∈ outbound bp node ↔ Leaves bp i node := mem_outbound

/-! ### Markings and their moves -/

/-- The statuses of the nodes, the edges that hold a token and the edges that are skipped. -/
structure Marking where
  status : String → NodeStatus
  delivered : Set Nat
  skipped : Set Nat

namespace Marking

/-- Set the status of a node. -/
def mark (m : Marking) (node : String) (status : NodeStatus) : Marking :=
  { m with status := Function.update m.status node status }

open Classical in
/-- Put tokens on the edges of one port of a node and skip its other edges; a skipped node that
gets a token is pending again. -/
noncomputable def pulse (bp : Blueprint) (m : Marking) (node port : String) : Marking where
  status := fun n =>
    if m.status n = .skipped ∧ ∃ i, LeavesPort bp i node port ∧ Enters bp i n then .pending
    else m.status n
  delivered := m.delivered ∪ {i | LeavesPort bp i node port}
  skipped := {i | i ∈ m.skipped ∧ ¬Leaves bp i node} ∪
    {i | Leaves bp i node ∧ ¬LeavesPort bp i node port}

/-- Skip a node and all its edges. -/
def skip (bp : Blueprint) (m : Marking) (node : String) : Marking :=
  { m.mark node .skipped with skipped := m.skipped ∪ {i | Leaves bp i node} }

open Classical in
/-- Clear the body of a loop. -/
noncomputable def reset (bp : Blueprint) (m : Marking) (loopId : String) : Marking where
  status := fun n => if n ∈ bodyNodes bp loopId then .pending else m.status n
  delivered := {i | i ∈ m.delivered ∧ ∀ n ∈ bodyNodes bp loopId, ¬Enters bp i n}
  skipped := {i | i ∈ m.skipped ∧ isBodyEdge bp loopId i = false}

end Marking

/-- The marking of a state. -/
def marking (bp : Blueprint) (s : RunState) : Marking where
  status := s.statusOrPending
  delivered := {i | ∃ n, Enters bp i n ∧ i ∈ s.deliveredTo n}
  skipped := {i | i ∈ s.skippedEdges}

@[simp] theorem status_marking (bp : Blueprint) (s : RunState) (n : String) :
    (marking bp s).status n = s.statusOrPending n := rfl

variable {s : RunState}

theorem mem_delivered_marking {n : String}
    (h : Enters bp i n) : i ∈ (marking bp s).delivered ↔ i ∈ s.deliveredTo n := by
  constructor
  · rintro ⟨n', h', hi⟩
    rwa [h.unique h']
  · exact fun hi => ⟨n, h, hi⟩

theorem marking_setNodeStatus (bp : Blueprint) (s : RunState) (node : String) (status : NodeStatus) :
    marking bp (s.setNodeStatus node status) = (marking bp s).mark node status := by
  simp only [marking, Marking.mark, Marking.mk.injEq]
  refine ⟨funext fun n => ?_, rfl, rfl⟩
  rw [RunState.statusOrPending_setNodeStatus, Function.update_apply]
  simp only [eq_comm]

/-! ### Delivering a port -/

theorem deliverEdge_frame {β : Type} {f : RunState → β} (bp : Blueprint) (port : String)
    (s : RunState) (i : Nat)
    (hf : ∀ nodes delivered skipped,
      f { s with nodes := nodes, delivered := delivered, skippedEdges := skipped } = f s) :
    f (deliverEdge bp port s i) = f s := by
  unfold deliverEdge
  split
  · rfl
  · split
    · dsimp only
      split
      · exact hf _ _ _
      · exact hf s.nodes _ _
    · exact hf s.nodes s.delivered _

theorem deliverFromPort_frame {β : Type} {f : RunState → β} (bp : Blueprint)
    (node port : String) (s : RunState)
    (hf : ∀ s nodes delivered skipped,
      f { s with nodes := nodes, delivered := delivered, skippedEdges := skipped } = f s) :
    f (deliverFromPort bp s node port) = f s := by
  unfold deliverFromPort
  generalize outbound bp node = edges
  induction edges generalizing s with
  | nil => rfl
  | cons i edges ih =>
    rw [foldl_cons, ih, deliverEdge_frame bp port s i (hf s)]

@[simp] theorem deliverFromPort_status (bp : Blueprint) (s : RunState) (node port : String) :
    (deliverFromPort bp s node port).status = s.status :=
  deliverFromPort_frame bp node port s fun _ _ _ _ => rfl

@[simp] theorem deliverFromPort_registry (bp : Blueprint) (s : RunState) (node port : String) :
    (deliverFromPort bp s node port).registry = s.registry :=
  deliverFromPort_frame bp node port s fun _ _ _ _ => rfl

@[simp] theorem deliverFromPort_runId (bp : Blueprint) (s : RunState) (node port : String) :
    (deliverFromPort bp s node port).runId = s.runId :=
  deliverFromPort_frame bp node port s fun _ _ _ _ => rfl

@[simp] theorem deliverFromPort_blueprintId (bp : Blueprint) (s : RunState)
    (node port : String) : (deliverFromPort bp s node port).blueprintId = s.blueprintId :=
  deliverFromPort_frame bp node port s fun _ _ _ _ => rfl

@[simp] theorem deliverFromPort_blueprintHash (bp : Blueprint) (s : RunState)
    (node port : String) : (deliverFromPort bp s node port).blueprintHash = s.blueprintHash :=
  deliverFromPort_frame bp node port s fun _ _ _ _ => rfl

@[simp] theorem deliverFromPort_loopIter (bp : Blueprint) (s : RunState) (node port : String) :
    (deliverFromPort bp s node port).loopIter = s.loopIter :=
  deliverFromPort_frame bp node port s fun _ _ _ _ => rfl

theorem mem_deliveredTo_deliverEdge {j : Nat} {n : String} :
    j ∈ (deliverEdge bp port s i).deliveredTo n ↔ j ∈ s.deliveredTo n ∨
      (j = i ∧ ∃ e, bp.edges[i]? = some e ∧ e.fromPort = port ∧ e.toNode = n) := by
  unfold deliverEdge
  split
  · rename_i hnone
    simp [hnone]
  · rename_i e he
    split
    · rename_i hport
      have hdeld : ∀ s' : RunState,
          s'.delivered = s.delivered.insert e.toNode (insert i (s.deliveredTo e.toNode)) →
          (j ∈ s'.deliveredTo n ↔ j ∈ s.deliveredTo n ∨
            (j = i ∧ ∃ e, bp.edges[i]? = some e ∧ e.fromPort = port ∧ e.toNode = n)) := by
        intro s' hs'
        simp only [RunState.deliveredTo, hs', Table.lookup_insert, he, Option.some.injEq,
          exists_eq_left', hport, true_and]
        by_cases hn : e.toNode = n
        · subst hn
          simp [or_comm]
        · simp [hn]
      dsimp only
      split
      · exact hdeld _ rfl
      · exact hdeld _ rfl
    · rename_i hport
      simp [RunState.deliveredTo, he, hport]

/-- One delivered edge is not skipped any more; an edge from another port is. -/
theorem mem_skippedEdges_deliverEdge {j : Nat} {e : Edge} (he : bp.edges[i]? = some e) :
    j ∈ (deliverEdge bp port s i).skippedEdges ↔
      if j = i then e.fromPort ≠ port else j ∈ s.skippedEdges := by
  simp only [deliverEdge, he]
  split
  · rename_i hport
    have hskip : ∀ s' : RunState, s'.skippedEdges = s.skippedEdges.erase i →
        (j ∈ s'.skippedEdges ↔ if j = i then e.fromPort ≠ port else j ∈ s.skippedEdges) := by
      intro s' hs'
      rw [hs', Finset.mem_erase]
      by_cases hj : j = i <;> simp [hj, hport]
    split
    · exact hskip _ rfl
    · exact hskip _ rfl
  · rename_i hport
    rw [Finset.mem_insert]
    by_cases hj : j = i <;> simp [hj, hport]

/-- One delivered edge makes its target pending when it was skipped. -/
theorem statusOrPending_deliverEdge (port : String) (s : RunState)
    {e : Edge} (he : bp.edges[i]? = some e) (n : String) :
    (deliverEdge bp port s i).statusOrPending n =
      if s.statusOrPending n = .skipped ∧ e.fromPort = port ∧ e.toNode = n then .pending
      else s.statusOrPending n := by
  simp only [deliverEdge, he]
  by_cases hport : e.fromPort = port
  · simp only [hport, if_true, true_and]
    by_cases hskip : s.statusOrPending e.toNode = .skipped
    · rw [if_pos hskip, RunState.statusOrPending_setNodeStatus]
      by_cases hn : e.toNode = n
      · subst hn
        simp [hskip]
      · simp only [hn, and_false, if_false]
        rfl
    · rw [if_neg hskip]
      have : ¬(s.statusOrPending n = .skipped ∧ e.toNode = n) := by
        rintro ⟨h, rfl⟩
        exact hskip h
      rw [if_neg this]
      rfl
  · simp only [hport, if_false, false_and, and_false]
    rfl

/-- What delivering a list of edges does, with `taken` the edges of the list that leave from the
port and `left` the others. -/
theorem foldl_deliverEdge (port : String) :
    ∀ (edges : List Nat) (s : RunState), (∀ i ∈ edges, ∃ e, bp.edges[i]? = some e) →
      (∀ j n, j ∈ (edges.foldl (deliverEdge bp port) s).deliveredTo n ↔ j ∈ s.deliveredTo n ∨
        (j ∈ edges ∧ ∃ e, bp.edges[j]? = some e ∧ e.fromPort = port ∧ e.toNode = n)) ∧
      (∀ j, j ∈ (edges.foldl (deliverEdge bp port) s).skippedEdges ↔
        (j ∉ edges ∧ j ∈ s.skippedEdges) ∨
        (j ∈ edges ∧ ∃ e, bp.edges[j]? = some e ∧ e.fromPort ≠ port)) ∧
      (∀ n, (s.statusOrPending n = .skipped ∧ ∃ j ∈ edges,
          ∃ e, bp.edges[j]? = some e ∧ e.fromPort = port ∧ e.toNode = n) →
        (edges.foldl (deliverEdge bp port) s).statusOrPending n = .pending) ∧
      (∀ n, ¬(s.statusOrPending n = .skipped ∧ ∃ j ∈ edges,
          ∃ e, bp.edges[j]? = some e ∧ e.fromPort = port ∧ e.toNode = n) →
        (edges.foldl (deliverEdge bp port) s).statusOrPending n = s.statusOrPending n) := by
  intro edges
  induction edges with
  | nil => intro s _; simp
  | cons i edges ih =>
    intro s hedges
    obtain ⟨e, he⟩ := hedges i mem_cons_self
    obtain ⟨hdeld, hskip, hpendi, hkept⟩ :=
      ih (deliverEdge bp port s i) fun j hj => hedges j (mem_cons_of_mem _ hj)
    have hstat := statusOrPending_deliverEdge port s he
    refine ⟨fun j n => ?_, fun j => ?_, fun n hn => ?_, fun n hn => ?_⟩
    · rw [foldl_cons, hdeld, mem_deliveredTo_deliverEdge, mem_cons]
      constructor
      · rintro ((h | ⟨rfl, h⟩) | ⟨h, h'⟩)
        · exact .inl h
        · exact .inr ⟨.inl rfl, h⟩
        · exact .inr ⟨.inr h, h'⟩
      · rintro (h | ⟨rfl | h, h'⟩)
        · exact .inl (.inl h)
        · exact .inl (.inr ⟨rfl, h'⟩)
        · exact .inr ⟨h, h'⟩
    · rw [foldl_cons, hskip, mem_skippedEdges_deliverEdge he, mem_cons]
      by_cases hj : j = i
      · subst hj
        simp only [if_true, true_or, not_true, false_and, false_or, true_and, he,
          Option.some.injEq, exists_eq_left']
        by_cases hmem : j ∈ edges <;> simp [hmem]
      · simp [hj]
    · rw [foldl_cons]
      obtain ⟨hs, j, hj, e', he', hport, hto⟩ := hn
      rcases mem_cons.1 hj with rfl | hj
      · -- the first edge makes the node pending, and the others leave it so
        rw [he] at he'
        obtain rfl := Option.some.inj he'
        have hpend : (deliverEdge bp port s j).statusOrPending n = .pending := by
          rw [hstat, if_pos ⟨hs, hport, hto⟩]
        rw [hkept n fun h => by rw [hpend] at h; exact absurd h.1 (by decide), hpend]
      · by_cases hfst : e.fromPort = port ∧ e.toNode = n
        · have hpend : (deliverEdge bp port s i).statusOrPending n = .pending := by
            rw [hstat, if_pos ⟨hs, hfst⟩]
          rw [hkept n fun h => by rw [hpend] at h; exact absurd h.1 (by decide), hpend]
        · refine hpendi n ⟨?_, j, hj, e', he', hport, hto⟩
          rw [hstat, if_neg fun h => hfst h.2, hs]
    · rw [foldl_cons]
      have hfst : ¬(s.statusOrPending n = .skipped ∧ e.fromPort = port ∧ e.toNode = n) :=
        fun h => hn ⟨h.1, i, mem_cons_self, e, he, h.2⟩
      have hs : (deliverEdge bp port s i).statusOrPending n = s.statusOrPending n := by
        rw [hstat, if_neg hfst]
      rw [hkept n ?_, hs]
      rw [hs]
      rintro ⟨h, j, hj, h'⟩
      exact hn ⟨h, j, mem_cons_of_mem _ hj, h'⟩

theorem marking_deliverFromPort (bp : Blueprint) (s : RunState) (node port : String) :
    marking bp (deliverFromPort bp s node port) = (marking bp s).pulse bp node port := by
  have hport : ∀ j e, bp.edges[j]? = some e → e.fromPort = port →
      (j ∈ outbound bp node ↔ LeavesPort bp j node port) := by
    intro j e he hp
    rw [mem_outbound]
    constructor
    · rintro ⟨e', he', hfrom⟩
      rw [he] at he'
      obtain rfl := Option.some.inj he'
      exact ⟨e, he, hfrom, hp⟩
    · exact fun h => h.leaves
  obtain ⟨hdeld, hskip, hpend, hkept⟩ := foldl_deliverEdge port
    (outbound bp node) s fun i hi => by
      obtain ⟨e, he, -⟩ := mem_outbound.1 hi
      exact ⟨e, he⟩
  have htkn : ∀ n, (∃ j ∈ outbound bp node,
        ∃ e, bp.edges[j]? = some e ∧ e.fromPort = port ∧ e.toNode = n) ↔
      ∃ j, LeavesPort bp j node port ∧ Enters bp j n := by
    intro n
    constructor
    · rintro ⟨j, hj, e, he, hp, hto⟩
      exact ⟨j, (hport j e he hp).1 hj, e, he, hto⟩
    · rintro ⟨j, ⟨e, he, hfrom, hp⟩, e', he', hto⟩
      rw [he] at he'
      obtain rfl := Option.some.inj he'
      exact ⟨j, mem_outbound.2 ⟨e, he, hfrom⟩, e, he, hp, hto⟩
  unfold deliverFromPort
  simp only [marking, Marking.pulse, Marking.mk.injEq]
  refine ⟨funext fun n => ?_, Set.ext fun j => ?_, Set.ext fun j => ?_⟩
  · by_cases h : s.statusOrPending n = .skipped ∧ ∃ j, LeavesPort bp j node port ∧ Enters bp j n
    · exact (hpend n ⟨h.1, (htkn n).2 h.2⟩).trans (if_pos h).symm
    · exact (hkept n fun h' => h ⟨h'.1, (htkn n).1 h'.2⟩).trans (if_neg h).symm
  · simp only [Set.mem_union, Set.mem_ofPred_eq, hdeld]
    constructor
    · rintro ⟨n, hn, h | ⟨hj, e, he, hp, hto⟩⟩
      · exact .inl ⟨n, hn, h⟩
      · exact .inr ((hport j e he hp).1 hj)
    · rintro (⟨n, hn, h⟩ | ⟨e, he, hfrom, hp⟩)
      · exact ⟨n, hn, .inl h⟩
      · exact ⟨e.toNode, ⟨e, he, rfl⟩, .inr ⟨mem_outbound.2 ⟨e, he, hfrom⟩, e, he, hp, rfl⟩⟩
  · simp only [Set.mem_union, Set.mem_ofPred_eq, hskip, mem_outbound_iff]
    constructor
    · rintro (⟨hj, h⟩ | ⟨hj, e, he, hp⟩)
      · exact .inl ⟨h, hj⟩
      · refine .inr ⟨hj, ?_⟩
        rintro ⟨e', he', -, hp'⟩
        rw [he] at he'
        exact hp (Option.some.inj he' ▸ hp')
    · rintro (⟨h, hj⟩ | ⟨⟨e, he, hfrom⟩, hp⟩)
      · exact .inl ⟨hj, h⟩
      · exact .inr ⟨⟨e, he, hfrom⟩, e, he, fun h => hp ⟨e, he, hfrom, h⟩⟩

/-! ### Skipping and clearing -/

theorem marking_skipNode (bp : Blueprint) (s : RunState) (node : String) :
    marking bp (skipNode bp s node) = (marking bp s).skip bp node := by
  have h := marking_setNodeStatus bp s node .skipped
  simp only [marking, Marking.mark, Marking.mk.injEq] at h
  simp only [skipNode, marking, Marking.skip, Marking.mark, Marking.mk.injEq]
  refine ⟨h.1, rfl, Set.ext fun i => ?_⟩
  simp only [Set.mem_ofPred_eq, Finset.mem_union, mem_toFinset, Set.mem_union,
    mem_outbound_iff]
  exact Iff.rfl

theorem foldl_resetBodyNode_frame {β : Type} {f : RunState → β} :
    ∀ (body : List String) (s : RunState),
      (∀ s registry nodes delivered,
        f { s with registry := registry, nodes := nodes, delivered := delivered } = f s) →
      f (body.foldl resetBodyNode s) = f s := by
  intro body
  induction body with
  | nil => intro s _; rfl
  | cons b body ih =>
    intro s hf
    rw [foldl_cons, ih _ hf]
    unfold resetBodyNode
    split
    · exact hf s _ _ _
    · exact hf s s.registry _ _

theorem resetBodyNode_nodes (s : RunState) (node : String) :
    (resetBodyNode s node).nodes = s.nodes.insert node .pending := by
  unfold resetBodyNode
  split <;> rfl

theorem resetBodyNode_delivered (s : RunState) (node : String) :
    (resetBodyNode s node).delivered = s.delivered.erase node := by
  unfold resetBodyNode
  split <;> rfl

theorem foldl_resetBodyNode :
    ∀ (body : List String) (s : RunState),
      (∀ n, (body.foldl resetBodyNode s).statusOrPending n =
        if n ∈ body then .pending else s.statusOrPending n) ∧
      (∀ n, (body.foldl resetBodyNode s).deliveredTo n =
        if n ∈ body then ∅ else s.deliveredTo n) := by
  intro body
  induction body with
  | nil => intro s; simp
  | cons b body ih =>
    intro s
    obtain ⟨hstat, hdeld⟩ := ih (resetBodyNode s b)
    constructor
    · intro n
      rw [foldl_cons, hstat]
      simp only [RunState.statusOrPending, RunState.nodeStatus, resetBodyNode_nodes,
        Table.lookup_insert, mem_cons]
      by_cases hmem : n ∈ body
      · simp [hmem]
      · by_cases hb : b = n
        · simp [hb]
        · simp [hmem, hb, Ne.symm hb]
    · intro n
      rw [foldl_cons, hdeld]
      simp only [RunState.deliveredTo, resetBodyNode_delivered, Table.lookup_erase,
        mem_cons]
      by_cases hmem : n ∈ body
      · simp [hmem]
      · by_cases hb : b = n
        · simp [hb]
        · simp [hmem, hb, Ne.symm hb]

theorem marking_reset (bp : Blueprint) (s : RunState) (loopId : String) (loopIter : Table Nat) :
    let s₁ := (bodyNodes bp loopId).foldl resetBodyNode s
    marking bp { s₁ with
      skippedEdges := s₁.skippedEdges.filter fun i => ¬isBodyEdge bp loopId i
      loopIter := loopIter } = (marking bp s).reset bp loopId := by
  intro s₁
  obtain ⟨hstat, hdeld⟩ := foldl_resetBodyNode (bodyNodes bp loopId) s
  have hskip : s₁.skippedEdges = s.skippedEdges :=
    foldl_resetBodyNode_frame _ _ fun _ _ _ _ => rfl
  simp only [marking, Marking.reset, Marking.mk.injEq]
  refine ⟨funext fun n => ?_, Set.ext fun i => ?_, Set.ext fun i => ?_⟩
  · refine (hstat n).trans ?_
    split <;> rfl
  · simp only [Set.mem_ofPred_eq]
    constructor
    · rintro ⟨n, hn, hi⟩
      have hi' : i ∈ s₁.deliveredTo n := hi
      rw [hdeld n] at hi'
      split at hi'
      · simp at hi'
      · rename_i hbody
        exact ⟨⟨n, hn, hi'⟩, fun n' hn' hent => hbody (hn.unique hent ▸ hn')⟩
    · rintro ⟨⟨n, hn, hi⟩, hbody⟩
      refine ⟨n, hn, ?_⟩
      have : i ∈ s₁.deliveredTo n := by
        rw [hdeld n, if_neg fun h => hbody n h hn]
        exact hi
      exact this
  · simp [hskip]

/-! ### The effect of an event -/

/-- The move of an event. -/
noncomputable def effect (bp : Blueprint) (m : Marking) : EventKind → Marking
  | .runStarted .. | .messageSendPrepared .. | .stateUpdated .. | .notification ..
  | .runCompleted | .runFailed _ => m
  | .nodeStarted node | .awaitingApproval node => m.mark node .running
  | .nodeCompleted node _ =>
    if isDecision bp node then m.mark node .completed
    else (m.mark node .completed).pulse bp node "out"
  | .decisionCompleted node _ port | .branchTaken node port | .decisionMade node port =>
    (m.mark node .completed).pulse bp node port
  | .nodeFailed node _ | .approvalRejected node _ _ => m.mark node .failed
  | .nodeSkipped node => m.skip bp node
  | .loopIteration node iteration =>
    if iteration = 0 then (m.mark node .running).pulse bp node "body"
    else (m.reset bp node).pulse bp node "body"
  | .loopCompleted node => (m.mark node .completed).pulse bp node "done"
  | .approvalGranted node _ _ => (m.mark node .completed).pulse bp node "out"

variable {s' : RunState} {ts : String}

theorem applyRunStarted_ok {runId hash : Option String} {blueprintId : String} {schema : Nat}
    {trigger : Value} (h : applyRunStarted bp s ts runId hash blueprintId schema trigger = .ok s') :
    ∃ id hash', s' = { s with runId := id, blueprintHash := hash' }.normalizeLegacy.setTrigger
      (runtimeTriggerOutput trigger ts) := by
  unfold applyRunStarted at h
  split at h
  · cases h
  · split at h
    · cases h
    · split at h
      · split at h
        · cases h
        · exact ⟨_, _, (Except.ok.inj h).symm⟩
      · exact ⟨s.runId, _, (Except.ok.inj h).symm⟩

theorem applyMessageSendPrepared_ok {recipientId artifactPath : String}
    (h : applyMessageSendPrepared s node recipientId artifactPath = .ok s') :
    s' = { s with
      messageDeliveries := s.messageDeliveries.insert node ⟨recipientId, artifactPath⟩ } := by
  simp only [applyMessageSendPrepared] at h
  split at h
  · split at h
    · cases h
    · exact (Except.ok.inj h).symm
  · exact (Except.ok.inj h).symm

theorem applyStateUpdate_ok {op : String} {entries : Value} (h : applyStateUpdate s op entries = .ok s') :
    ∃ storage : JsonMap,
      s' = { s with registry := s.registry.indexMut "storage" fun _ => .object storage } := by
  unfold applyStateUpdate at h
  split at h
  · cases h
  · split at h
    · cases h
    · split at h
      · cases h
      · dsimp only at h
        split at h
        · exact ⟨_, (Except.ok.inj h).symm⟩
        · split at h
          · exact ⟨_, (Except.ok.inj h).symm⟩
          · cases h

theorem applyLoopIteration_ok {loopId : String}
    {iteration : Nat} (h : applyLoopIteration bp s loopId iteration = .ok s') :
    (iteration = 0 ∧ s' = deliverFromPort bp
      { s.setNodeStatus loopId .running with loopIter := s.loopIter.insert loopId 0 }
      loopId "body") ∨
    (iteration ≠ 0 ∧ s.loopIter[loopId]? = some (iteration - 1) ∧ ∃ s₁,
      s₁ = (bodyNodes bp loopId).foldl resetBodyNode s ∧
      s' = deliverFromPort bp { s₁ with
        skippedEdges := s₁.skippedEdges.filter fun i => ¬isBodyEdge bp loopId i
        loopIter := s₁.loopIter.insert loopId iteration } loopId "body") := by
  unfold applyLoopIteration at h
  split at h
  · exact .inl ⟨‹_›, (Except.ok.inj h).symm⟩
  · split at h
    · cases h
    · rename_i previous hprev
      split at h
      · cases h
      · rename_i hnext
        refine .inr ⟨‹_›, ?_, _, rfl, (Except.ok.inj h).symm⟩
        rw [hprev, ← Decidable.not_not.1 hnext, Nat.add_sub_cancel]

variable {kind : EventKind}

/-- Folding an event moves the marking by the effect of the event. -/
theorem marking_applyKind (h : applyKind bp s ts kind = .ok s') :
    marking bp s' = effect bp (marking bp s) kind := by
  cases kind with
  | runStarted runId hash blueprintId schema trigger =>
    obtain ⟨id, hash', rfl⟩ := applyRunStarted_ok h
    exact RunState.normalizeLegacy_frame (f := marking bp) _ fun _ => rfl
  | messageSendPrepared node recipientId artifactPath =>
    rw [applyMessageSendPrepared_ok h]
    rfl
  | nodeStarted node | awaitingApproval node =>
    cases h
    exact marking_setNodeStatus bp s node .running
  | nodeCompleted node output =>
    cases h
    have hmark : marking bp ((s.setNodeOutput node output).setNodeStatus node .completed) =
        (marking bp s).mark node .completed := marking_setNodeStatus bp _ node .completed
    simp only [completeNode, effect]
    split
    · exact hmark
    · rw [marking_deliverFromPort, hmark]
  | decisionCompleted node output port =>
    cases h
    have hmark : marking bp ((s.setNodeOutput node output).setNodeStatus node .completed) =
        (marking bp s).mark node .completed := marking_setNodeStatus bp _ node .completed
    rw [deliverChosenPort, marking_deliverFromPort, hmark]
    rfl
  | stateUpdated node op entries =>
    obtain ⟨storage, rfl⟩ := applyStateUpdate_ok h
    rfl
  | notification node message | runCompleted | runFailed error =>
    cases h
    rfl
  | nodeFailed node error | approvalRejected node actor note =>
    cases h
    exact marking_setNodeStatus bp s node .failed
  | branchTaken node port | decisionMade node port =>
    cases h
    rw [deliverChosenPort, marking_deliverFromPort, marking_setNodeStatus]
    rfl
  | loopIteration node iteration =>
    rcases applyLoopIteration_ok h with ⟨rfl, rfl⟩ | ⟨hne, -, s₁, rfl, rfl⟩
    · rw [marking_deliverFromPort]
      have := marking_setNodeStatus bp s node .running
      simp only [effect, if_true]
      rw [← this]
      rfl
    · rw [marking_deliverFromPort, marking_reset]
      simp only [effect, if_neg hne]
  | loopCompleted node | approvalGranted node actor note =>
    cases h
    rw [marking_deliverFromPort, marking_setNodeStatus]
    rfl
  | nodeSkipped node =>
    cases h
    exact marking_skipNode bp s node

/-! ### The status of the run -/

/-- What an event does to the status of the run. -/
def runEffect (status : RunStatus) : EventKind → RunStatus
  | .nodeFailed .. | .approvalRejected .. | .runFailed _ => .failed
  | .runCompleted => .completed
  | .awaitingApproval _ => .awaitingApproval
  | .approvalGranted .. => .running
  | _ => status

theorem status_applyKind (h : applyKind bp s ts kind = .ok s') : s'.status = runEffect s.status kind := by
  cases kind with
  | runStarted runId hash blueprintId schema trigger =>
    obtain ⟨id, hash', rfl⟩ := applyRunStarted_ok h
    exact RunState.normalizeLegacy_frame (f := RunState.status) _ fun _ => rfl
  | messageSendPrepared node recipientId artifactPath =>
    rw [applyMessageSendPrepared_ok h]
    rfl
  | nodeCompleted node output =>
    cases h
    simp only [completeNode]
    split
    · rfl
    · rw [deliverFromPort_status]
      rfl
  | stateUpdated node op entries =>
    obtain ⟨storage, rfl⟩ := applyStateUpdate_ok h
    rfl
  | loopIteration node iteration =>
    rcases applyLoopIteration_ok h with ⟨-, rfl⟩ | ⟨-, -, s₁, rfl, rfl⟩
    · rw [deliverFromPort_status]
      rfl
    · rw [deliverFromPort_status]
      exact foldl_resetBodyNode_frame (f := RunState.status) _ _ fun _ _ _ _ => rfl
  | decisionCompleted | branchTaken | decisionMade | loopCompleted | approvalGranted =>
    cases h
    simp only [deliverChosenPort, deliverFromPort_status]
    rfl
  | nodeStarted | notification | nodeFailed | nodeSkipped | awaitingApproval
  | approvalRejected | runCompleted | runFailed =>
    cases h
    rfl

/-! ### Folding an event -/

variable {ev : Event}

theorem apply_ok (h : apply bp s ev = .ok s') :
    ∃ s₁, applyKind bp s ev.ts ev.kind = .ok s₁ ∧ s' = { s₁ with nextSeq := ev.seq + 1 } := by
  unfold apply at h
  split at h
  · exact ⟨_, ‹_›, (Except.ok.inj h).symm⟩
  · cases h

theorem marking_apply (h : apply bp s ev = .ok s') : marking bp s' = effect bp (marking bp s) ev.kind := by
  obtain ⟨s₁, h₁, rfl⟩ := apply_ok h
  exact (marking_applyKind h₁ : marking bp s₁ = _)

theorem statusOrPending_apply (h : apply bp s ev = .ok s') (n : String) :
    s'.statusOrPending n = (effect bp (marking bp s) ev.kind).status n := by
  rw [← marking_apply h, status_marking]

theorem status_apply (h : apply bp s ev = .ok s') : s'.status = runEffect s.status ev.kind := by
  obtain ⟨s₁, h₁, rfl⟩ := apply_ok h
  exact (status_applyKind h₁ : s₁.status = _)

theorem nextSeq_apply (h : apply bp s ev = .ok s') : s'.nextSeq = ev.seq + 1 := by
  obtain ⟨s₁, -, rfl⟩ := apply_ok h
  rfl

end Wardian.Engine
