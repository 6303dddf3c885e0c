/-
Event logs and the states they give.

A journal is an event log as the engine writes it: it starts a run, its sequence numbers count from
zero, and its events fold without an error.  The state it gives can be reached by folding the whole
log or by folding what follows any prefix onto the state of that prefix.

Main results:

* `Engine.Journal.snoc` — appending an event that folds;
* `Engine.Journal.foldEventLog_new` — a fresh state, with the whole log, gives its state;
* `Engine.Journal.loadedState_end` — a checkpoint at the end of the log is what loads.
-/

import Wardian.Engine.Marking
import Wardian.Engine.Operations

set_option autoImplicit false

namespace Wardian.Engine

open List
open Automation (Blueprint)

/-! ### What events keep -/

/-- The event that starts a run. -/
def EventKind.isStart : EventKind → Bool
  | .runStarted .. => true
  | _ => false

@[simp] theorem EventKind.isStart_reread (read : ReadFloat) (kind : EventKind) :
    (kind.reread read).isStart = kind.isStart := by
  cases kind <;> rfl

@[simp] theorem runEffect_reread (read : ReadFloat) (status : RunStatus) (kind : EventKind) :
    runEffect status (kind.reread read) = runEffect status kind := by
  cases kind <;> rfl

/-- Two states belong to the same run. -/
structure SameRun (s t : RunState) : Prop where
  runId : t.runId = s.runId
  blueprintId : t.blueprintId = s.blueprintId
  blueprintHash : t.blueprintHash = s.blueprintHash

theorem SameRun.refl (s : RunState) : SameRun s s := ⟨rfl, rfl, rfl⟩

theorem SameRun.trans {s t u : RunState} (h : SameRun s t) (h' : SameRun t u) : SameRun s u :=
  ⟨h'.runId.trans h.runId, h'.blueprintId.trans h.blueprintId,
    h'.blueprintHash.trans h.blueprintHash⟩

theorem SameRun.of_erase {s t : RunState} (h : t.erase = s.erase) : SameRun s t := by
  rw [RunState.eq_of_erase h]
  exact ⟨rfl, rfl, rfl⟩

theorem sameRun_deliverFromPort (bp : Blueprint) (s : RunState) (node port : String) :
    SameRun s (deliverFromPort bp s node port) := ⟨by simp, by simp, by simp⟩

theorem sameRun_foldl_resetBodyNode (body : List String) (s : RunState) :
    SameRun s (body.foldl resetBodyNode s) :=
  ⟨foldl_resetBodyNode_frame (f := RunState.runId) _ _ fun _ _ _ _ => rfl,
    foldl_resetBodyNode_frame (f := RunState.blueprintId) _ _ fun _ _ _ _ => rfl,
    foldl_resetBodyNode_frame (f := RunState.blueprintHash) _ _ fun _ _ _ _ => rfl⟩

variable {s s' : RunState} {ts : String} {kind : EventKind}

theorem sameRun_applyKind {bp : Blueprint}
    (hstart : kind.isStart = false) (h : applyKind bp s ts kind = .ok s') : SameRun s s' := by
  have hdeli : ∀ t : RunState, SameRun s t → ∀ node port,
      SameRun s (deliverFromPort bp t node port) :=
    fun t ht node port => ht.trans (sameRun_deliverFromPort bp t node port)
  cases kind with
  | runStarted => cases hstart
  | messageSendPrepared node recipientId artifactPath =>
    rw [applyMessageSendPrepared_ok h]
    exact ⟨rfl, rfl, rfl⟩
  | nodeCompleted node output =>
    cases h
    simp only [completeNode]
    split
    · exact ⟨rfl, rfl, rfl⟩
    · exact hdeli _ (by exact ⟨rfl, rfl, rfl⟩) _ _
  | stateUpdated node op entries =>
    obtain ⟨storage, rfl⟩ := applyStateUpdate_ok h
    exact ⟨rfl, rfl, rfl⟩
  | loopIteration node iteration =>
    rcases applyLoopIteration_ok h with ⟨-, rfl⟩ | ⟨-, -, s₁, rfl, rfl⟩
    · exact hdeli _ (by exact ⟨rfl, rfl, rfl⟩) _ _
    · have hrst := sameRun_foldl_resetBodyNode (bodyNodes bp node) s
      exact hdeli _ (by exact ⟨hrst.runId, hrst.blueprintId, hrst.blueprintHash⟩) _ _
  | decisionCompleted | branchTaken | decisionMade | loopCompleted | approvalGranted =>
    cases h
    exact hdeli _ (by exact ⟨rfl, rfl, rfl⟩) _ _
  | nodeStarted | notification | nodeFailed | nodeSkipped | awaitingApproval
  | approvalRejected | runCompleted | runFailed =>
    cases h
    exact ⟨rfl, rfl, rfl⟩

variable {ev : Event}

theorem sameRun_apply {bp : Blueprint}
    (hstart : ev.kind.isStart = false) (h : apply bp s ev = .ok s') : SameRun s s' := by
  obtain ⟨s₁, h₁, rfl⟩ := apply_ok h
  obtain ⟨hrun, hbp, hhash⟩ := sameRun_applyKind hstart h₁
  exact ⟨hrun, hbp, hhash⟩

/-! ### Normal states stay normal -/

theorem RunState.Normal.registry_object (h : s.Normal) : ∃ m, s.registry = .object m := by
  obtain ⟨hrun, -⟩ := h
  cases hreg : s.registry with
  | object m => exact ⟨m, rfl⟩
  | null | bool | number | string | array => rw [hreg] at hrun; cases hrun

variable {t : RunState}

/-- Changing a member of the registry other than the identity of the run. -/
theorem RunState.Normal.indexMut (h : s.Normal) (key : String) (f : Value → Value) (hrun : t.runId = s.runId)
    (hreg : t.registry = s.registry.indexMut key f) (hkey : key ≠ "run") : t.Normal := by
  obtain ⟨m, hm⟩ := h.registry_object
  obtain ⟨hid, v, hstor⟩ := h
  have hnull : s.registry ≠ .null := by rw [hm]; exact fun h => by cases h
  refine ⟨?_, ?_⟩
  · rw [hreg, Value.get?_indexMut_ne _ _ hkey hnull, hrun]
    exact hid
  · by_cases hkey' : key = "storage"
    · rw [hreg, hkey', hm, Value.get?_indexMut_object]
      exact ⟨_, rfl⟩
    · rw [hreg, Value.get?_indexMut_ne _ _ hkey' hnull]
      exact ⟨v, hstor⟩

theorem RunState.Normal.congr {s t : RunState} (h : s.Normal) (hrun : t.runId = s.runId)
    (hreg : t.registry = s.registry) : t.Normal := by
  unfold RunState.Normal
  rw [hrun, hreg]
  exact h

theorem RunState.Normal.deliverFromPort {bp : Blueprint} (h : s.Normal)
    (node port : String) : (deliverFromPort bp s node port).Normal :=
  h.congr (by simp) (by simp)

theorem RunState.Normal.setNodeOutput {node : String} {output : Value} (h : s.Normal)
    (hrun : t.runId = s.runId) (hreg : t.registry = (s.setNodeOutput node output).registry) : t.Normal :=
  h.indexMut "nodes"
    (fun nodes => nodes.indexMut node fun n => n.indexMut "output" fun _ => output)
    hrun hreg (by decide)

theorem RunState.Normal.resetBodyNode (h : s.Normal) (node : String) : (resetBodyNode s node).Normal := by
  unfold Engine.resetBodyNode
  split
  · rename_i output _
    exact h.indexMut "nodes"
      (fun nodes => nodes.indexMut node fun n => n.indexMut "prev" fun _ => output)
      (by rfl) (by rfl) (by decide)
  · exact h.congr rfl rfl

theorem RunState.Normal.foldl_resetBodyNode (h : s.Normal) (body : List String) :
    (body.foldl Engine.resetBodyNode s).Normal := by
  induction body generalizing s with
  | nil => exact h
  | cons b body ih => exact ih (h.resetBodyNode b)

theorem normal_applyRunStarted {bp : Blueprint} {runId hash : Option String} {blueprintId : String}
    {schema : Nat} {trigger : Value} (hs : s.Normal)
    (h : applyRunStarted bp s ts runId hash blueprintId schema trigger = .ok s') : s'.Normal := by
  obtain ⟨m, hm⟩ := hs.registry_object
  obtain ⟨id, hash', rfl⟩ := applyRunStarted_ok h
  have hnorm : { s with runId := id, blueprintHash := hash' }.normalizeLegacy.Normal :=
    RunState.normal_normalizeLegacy hm
  exact hnorm.indexMut "trigger"
    (fun t => t.indexMut "output" fun _ => runtimeTriggerOutput trigger ts)
    rfl rfl (by decide)

theorem normal_applyKind {bp : Blueprint}
    (hs : s.Normal) (h : applyKind bp s ts kind = .ok s') : s'.Normal := by
  cases kind with
  | runStarted => exact normal_applyRunStarted hs h
  | messageSendPrepared node recipientId artifactPath =>
    rw [applyMessageSendPrepared_ok h]
    exact hs.congr rfl rfl
  | nodeCompleted node output =>
    cases h
    simp only [completeNode]
    split
    · exact hs.setNodeOutput rfl rfl
    · exact (hs.setNodeOutput (t := (s.setNodeOutput node output).setNodeStatus node .completed)
        rfl rfl).deliverFromPort _ _
  | decisionCompleted node output port =>
    cases h
    exact (hs.setNodeOutput (t := (s.setNodeOutput node output).setNodeStatus node .completed)
      rfl rfl).deliverFromPort _ _
  | stateUpdated node op entries =>
    obtain ⟨storage, rfl⟩ := applyStateUpdate_ok h
    exact hs.indexMut "storage" (fun _ => .object storage)
      (by rfl) (by rfl) (by decide)
  | loopIteration node iteration =>
    rcases applyLoopIteration_ok h with ⟨-, rfl⟩ | ⟨-, -, s₁, rfl, rfl⟩
    · exact RunState.Normal.deliverFromPort (hs.congr (by rfl) (by rfl)) _ _
    · exact RunState.Normal.deliverFromPort
        ((hs.foldl_resetBodyNode (bodyNodes bp node)).congr (by rfl) (by rfl)) _ _
  | branchTaken | decisionMade | loopCompleted | approvalGranted =>
    cases h
    exact RunState.Normal.deliverFromPort (hs.congr (by rfl) (by rfl)) _ _
  | nodeStarted | notification | nodeFailed | nodeSkipped | awaitingApproval
  | approvalRejected | runCompleted | runFailed =>
    cases h
    exact hs.congr (by rfl) (by rfl)

theorem normal_apply {bp : Blueprint} (hs : s.Normal) (h : apply bp s ev = .ok s') : s'.Normal := by
  obtain ⟨s₁, h₁, rfl⟩ := apply_ok h
  exact (normal_applyKind hs h₁).congr rfl rfl

/-! ### Folding events -/

/-- Fold events in order. -/
def foldEvents (bp : Blueprint) (s : RunState) (events : List Event) :
    Except EngineError RunState := events.foldlM (apply bp) s

@[simp] theorem foldEvents_nil (bp : Blueprint) (s : RunState) : foldEvents bp s [] = .ok s := rfl

theorem foldEvents_cons (bp : Blueprint) (s : RunState) (ev : Event) (events : List Event) :
    foldEvents bp s (ev :: events) =
      match apply bp s ev with
      | .ok s' => foldEvents bp s' events
      | .error e => .error e := by
  simp only [foldEvents, foldlM_cons]
  cases apply bp s ev <;> rfl

variable {xs ys : List Event}

theorem foldEvents_append {bp : Blueprint} :
    foldEvents bp s (xs ++ ys) =
      match foldEvents bp s xs with
      | .ok s' => foldEvents bp s' ys
      | .error e => .error e := by
  simp only [foldEvents, foldlM_append]
  cases List.foldlM (apply bp) s xs <;> rfl

variable {s₂ : RunState}

theorem foldEvents_append_ok {bp : Blueprint} {s₁ : RunState} (hx : foldEvents bp s xs = .ok s₁)
    (hy : foldEvents bp s₁ ys = .ok s₂) : foldEvents bp s (xs ++ ys) = .ok s₂ := by
  rw [foldEvents_append, hx]
  exact hy

/-- A fold of a whole list passes through the fold of its first part. -/
theorem foldEvents_append_inv {bp : Blueprint} (h : foldEvents bp s (xs ++ ys) = .ok s₂) :
    ∃ s₁, foldEvents bp s xs = .ok s₁ ∧ foldEvents bp s₁ ys = .ok s₂ := by
  rw [foldEvents_append] at h
  split at h
  · exact ⟨_, ‹_›, h⟩
  · cases h

variable {events : List Event}

theorem foldEvents_cons_inv {bp : Blueprint} (h : foldEvents bp s (ev :: events) = .ok s₂) :
    ∃ s₁, apply bp s ev = .ok s₁ ∧ foldEvents bp s₁ events = .ok s₂ := by
  rw [foldEvents_cons] at h
  split at h
  · exact ⟨_, ‹_›, h⟩
  · cases h

theorem foldEvents_inv {bp : Blueprint} {I : RunState → Prop}
    (hstep : ∀ s s' ev, ev ∈ events → I s → apply bp s ev = .ok s' → I s') :
    ∀ {s s' : RunState}, I s → foldEvents bp s events = .ok s' → I s' := by
  induction events with
  | nil => intro s s' hs h; cases h; exact hs
  | cons ev events ih =>
    intro s s' hs h
    obtain ⟨s₁, h₁, h₂⟩ := foldEvents_cons_inv h
    exact ih (fun s s' ev' hev => hstep s s' ev' (mem_cons_of_mem _ hev))
      (hstep s s₁ ev mem_cons_self hs h₁) h₂

/-! ### Sequence numbers -/

/-- The sequence numbers go on from `expected`. -/
def SeqFrom (expected : Nat) (events : List Event) : Prop :=
  ∀ i ev, events[i]? = some ev → ev.seq = expected + i

theorem SeqFrom.tail {expected : Nat} {ev : Event} {events : List Event}
    (h : SeqFrom expected (ev :: events)) : SeqFrom (expected + 1) events := by
  intro i ev' hi
  have := h (i + 1) ev' (by simpa using hi)
  omega

theorem SeqFrom.head {expected : Nat} (h : SeqFrom expected (ev :: events)) : ev.seq = expected := h 0 ev rfl

theorem SeqFrom.cons {expected : Nat} {ev : Event} {events : List Event} (hev : ev.seq = expected)
    (h : SeqFrom (expected + 1) events) : SeqFrom expected (ev :: events) := by
  intro i ev' hi
  cases i with
  | zero =>
    rw [getElem?_cons_zero, Option.some.injEq] at hi
    rw [← hi, hev, Nat.add_zero]
  | succ i =>
    rw [getElem?_cons_succ] at hi
    rw [h i ev' hi]
    omega

theorem SeqFrom.append {expected : Nat} :
    ∀ {xs ys : List Event}, SeqFrom expected xs → SeqFrom (expected + xs.length) ys →
      SeqFrom expected (xs ++ ys) := by
  intro xs ys hx hy i ev hi
  rcases Nat.lt_or_ge i xs.length with hlt | hge
  · rw [getElem?_append_left hlt] at hi
    exact hx i ev hi
  · rw [getElem?_append_right hge] at hi
    have := hy _ ev hi
    omega

theorem validateSequenceFrom_of_seqFrom :
    ∀ {events : List Event} {expected : Nat}, SeqFrom expected events →
      validateSequenceFrom expected events = .ok (expected + events.length) := by
  intro events
  induction events with
  | nil => intro expected _; rfl
  | cons ev events ih =>
    intro expected h
    rw [validateSequenceFrom, if_neg (by simp [h.head]), ih h.tail, length_cons]
    congr 1
    omega

/-- On a log without gaps, the fold of the tail is the fold of what follows the checkpoint. -/
theorem foldTail_eq {bp : Blueprint} :
    ∀ {events : List Event} {k expected : Nat} {s : RunState}, SeqFrom expected events →
      s.nextSeq = max k expected →
      foldTail bp k expected s events = foldEvents bp s (events.drop (k - expected)) := by
  intro events
  induction events with
  | nil => intro k expected s _ _; simp [foldTail]
  | cons ev events ih =>
    intro k expected s hseq hs
    have hev := hseq.head
    rw [foldTail, if_neg (by simp [hev])]
    by_cases hk : k ≤ expected
    · rw [if_pos (by omega), if_neg (by omega), Nat.sub_eq_zero_of_le hk, drop_zero,
        foldEvents_cons]
      cases happ : apply bp s ev with
      | error e => rfl
      | ok s' =>
        have hnext := nextSeq_apply happ
        have hdrop : k - (expected + 1) = 0 := by omega
        dsimp only
        rw [ih hseq.tail (by omega), hdrop, drop_zero]
    · rw [if_neg (by omega), ih hseq.tail (by omega)]
      have hdrop : k - expected = (k - (expected + 1)) + 1 := by omega
      rw [hdrop, drop_succ_cons]

/-! ### Journals -/

/-- The log of a run, with the state that it gives. -/
structure Journal (bp : Blueprint) (events : List Event) (s : RunState) : Prop where
  /-- The first event starts the run, and no other does. -/
  start : ∃ ts id hash trigger rest, events =
    ⟨0, ts, .runStarted (some id) (some hash) bp.id bp.schema trigger⟩ :: rest ∧
      s.runId = id ∧ s.blueprintHash = some hash ∧
      ∀ ev ∈ rest, ev.kind.isStart = false
  seqs : SeqFrom 0 events
  fold : foldEvents bp (RunState.new "replay" bp.id) events = .ok s

namespace Journal

variable {bp : Blueprint} {events : List Event} {s : RunState}

theorem ne_nil (h : Journal bp events s) : events ≠ [] := by
  obtain ⟨ts, id, hash, trigger, rest, rfl, -⟩ := h.start
  simp

theorem normal (h : Journal bp events s) : s.Normal :=
  foldEvents_inv (fun _ _ _ _ hs happ => normal_apply hs happ)
    (RunState.normal_new _ _) h.fold

/-- The state after folding a sequence numbers its next event by the length. -/
theorem foldEvents_nextSeq {s s' : RunState} :
    ∀ {events : List Event} {k : Nat}, SeqFrom k events → s.nextSeq = k →
      foldEvents bp s events = .ok s' → s'.nextSeq = k + events.length := by
  intro events
  induction events generalizing s with
  | nil => intro k _ hs h; cases h; simpa using hs
  | cons ev events ih =>
    intro k hseq hs h
    obtain ⟨s₁, h₁, h₂⟩ := foldEvents_cons_inv h
    have hnext := nextSeq_apply h₁
    rw [hseq.head] at hnext
    rw [ih hseq.tail hnext h₂, length_cons]
    omega

theorem nextSeq (h : Journal bp events s) : s.nextSeq = events.length := by
  simpa using foldEvents_nextSeq h.seqs rfl h.fold

/-- What the start of a run gives, from every fresh state that may take its id. -/
theorem apply_start {runId ts id hash : String} {seq : Nat} {trigger : Value}
    (hid : runId = "replay" ∨ runId = "rebuilt" ∨ runId = id) :
    apply bp (RunState.new runId bp.id)
      ⟨seq, ts, .runStarted (some id) (some hash) bp.id bp.schema trigger⟩ =
    .ok { ({ RunState.new id bp.id with blueprintHash := some hash }.setTrigger
      (runtimeTriggerOutput trigger ts)) with nextSeq := seq + 1 } := by
  have hchk : ¬((RunState.new runId bp.id).nextSeq = 0 ∧
      (RunState.new runId bp.id).runId ≠ "replay" ∧
      (RunState.new runId bp.id).runId ≠ "rebuilt" ∧ (RunState.new runId bp.id).runId ≠ id) := by
    rintro ⟨-, h₁, h₂, h₃⟩
    rcases hid with h | h | h
    · exact h₁ h
    · exact h₂ h
    · exact h₃ h
  have hkind : applyRunStarted bp (RunState.new runId bp.id) ts (some id) (some hash) bp.id
      bp.schema trigger = .ok ({ RunState.new id bp.id with blueprintHash := some hash }.setTrigger
        (runtimeTriggerOutput trigger ts)) := by
    unfold applyRunStarted
    rw [if_neg (by simp), if_neg (by simp)]
    dsimp only
    rw [if_neg hchk, Option.some_or, RunState.normalizeLegacy_new]
  simp only [apply, applyKind, hkind]

variable {s' : RunState}

theorem of_start {ts id hash : String} {trigger : Value}
    (h : apply bp (RunState.new "replay" bp.id)
      ⟨0, ts, .runStarted (some id) (some hash) bp.id bp.schema trigger⟩ = .ok s') :
    Journal bp [⟨0, ts, .runStarted (some id) (some hash) bp.id bp.schema trigger⟩] s' := by
  have hs' := h
  rw [apply_start (.inl rfl)] at hs'
  obtain rfl := Except.ok.inj hs'
  refine ⟨⟨ts, id, hash, trigger, [], rfl, rfl, rfl, by simp⟩, ?_, ?_⟩
  · exact SeqFrom.cons rfl fun i ev hi => by simp at hi
  · rw [foldEvents_cons, h]
    rfl

theorem snoc (h : Journal bp events s) (ev : Event) (hseq : ev.seq = s.nextSeq)
    (hstart : ev.kind.isStart = false) (happ : apply bp s ev = .ok s') :
    Journal bp (events ++ [ev]) s' := by
  obtain ⟨ts, id, hash, trigger, rest, rfl, hid, hhash, hrest⟩ := h.start
  have hsame := sameRun_apply hstart happ
  refine ⟨⟨ts, id, hash, trigger, rest ++ [ev], rfl, hsame.runId.trans hid,
    hsame.blueprintHash.trans hhash, ?_⟩, ?_, ?_⟩
  · intro ev' hev'
    rcases mem_append.1 hev' with hev' | hev'
    · exact hrest ev' hev'
    · rw [mem_singleton.1 hev']
      exact hstart
  · refine h.seqs.append (SeqFrom.cons ?_ fun i ev hi => by simp at hi)
    rw [hseq, h.nextSeq]
    omega
  · refine foldEvents_append_ok h.fold ?_
    rw [foldEvents_cons, happ]
    rfl

/-- A nonempty prefix of a journal is a journal of the state it gives. -/
theorem take (h : Journal bp events s) {k : Nat} (hk : 0 < k) :
    ∃ c, Journal bp (events.take k) c ∧ foldEvents bp c (events.drop k) = .ok s := by
  obtain ⟨ts, id, hash, trigger, rest, hevs, hid, hhash, hrest⟩ := h.start
  have hspl := take_append_drop k events
  have hfold := h.fold
  rw [← hspl] at hfold
  obtain ⟨c, hc, htail⟩ := foldEvents_append_inv hfold
  have hdrop : ∀ ev ∈ events.drop k, ev.kind.isStart = false := by
    intro ev hev
    rw [hevs] at hev
    obtain ⟨k, rfl⟩ := Nat.exists_eq_succ_of_ne_zero (by omega : k ≠ 0)
    rw [Nat.succ_eq_add_one, drop_succ_cons] at hev
    exact hrest ev (mem_of_mem_drop hev)
  have hsame : SameRun c s :=
    foldEvents_inv (I := SameRun c)
      (fun t t' ev hev ht happ => ht.trans (sameRun_apply (hdrop ev hev) happ))
      (SameRun.refl c) htail
  refine ⟨c, ⟨⟨ts, id, hash, trigger, rest.take (k - 1), ?_, hsame.runId.symm.trans hid,
    hsame.blueprintHash.symm.trans hhash, fun ev hev => hrest ev (mem_of_mem_take hev)⟩,
    ?_, hc⟩, htail⟩
  · rw [hevs]
    obtain ⟨k, rfl⟩ := Nat.exists_eq_succ_of_ne_zero (by omega : k ≠ 0)
    simp
  · intro i ev hi
    refine h.seqs i ev ?_
    rw [getElem?_take] at hi
    split at hi
    · exact hi
    · cases hi

theorem blueprintId (h : Journal bp events s) : s.blueprintId = bp.id := by
  have hkeep : ∀ t t' : RunState, ∀ ev : Event, t.blueprintId = bp.id →
      apply bp t ev = .ok t' → t'.blueprintId = bp.id := by
    intro t t' ev ht happ
    by_cases hstart : ev.kind.isStart = false
    · exact (sameRun_apply hstart happ).blueprintId.trans ht
    · obtain ⟨t₁, h₁, rfl⟩ := apply_ok happ
      cases hkind : ev.kind with
      | runStarted runId hash blueprintId schema trigger =>
        rw [hkind] at h₁
        obtain ⟨id, hash', rfl⟩ := applyRunStarted_ok h₁
        refine Eq.trans ?_ ht
        exact RunState.normalizeLegacy_frame (f := RunState.blueprintId) _ fun _ => rfl
      | _ => rw [hkind] at hstart; exact absurd rfl hstart
  exact foldEvents_inv (I := fun t => t.blueprintId = bp.id)
    (fun t t' ev _ ht happ => hkeep t t' ev ht happ) rfl h.fold

variable {c : RunState}

theorem validateEventIdentity_ok (h : Journal bp events s)
    (hbp : c.blueprintId = bp.id) (hid : isSentinelRunId c.runId = true ∨ c.runId = s.runId)
    (hhash : c.blueprintHash = none ∨ c.blueprintHash = s.blueprintHash) :
    validateEventIdentity bp c events = .ok () := by
  obtain ⟨ts, id, hash, trigger, rest, rfl, hid', hhash', -⟩ := h.start
  have hrun : ¬((!isSentinelRunId c.runId && (some id).isSome && some id ≠ some c.runId) =
      true) := by
    rcases hid with hid | hid
    · simp [hid]
    · simp [hid, hid']
  have hbh : ¬(((some hash).isSome && c.blueprintHash.isSome &&
      c.blueprintHash ≠ some hash) = true) := by
    rcases hhash with hhash | hhash
    · simp [hhash]
    · simp [hhash, hhash']
  simp only [validateEventIdentity, ne_eq, not_true, if_false, hbp]
  rw [if_neg (by simpa using hrun), if_neg (by simpa using hbh)]

/-- Folding a log onto a state of the run that represents its first `k` events. -/
theorem foldEventLog_eq (h : Journal bp events s) {k : Nat} (hk : k ≤ events.length) (hc : c.nextSeq = k)
    (hbp : c.blueprintId = bp.id) (hid : isSentinelRunId c.runId = true ∨ c.runId = s.runId)
    (hhash : c.blueprintHash = none ∨ c.blueprintHash = s.blueprintHash) :
    foldEventLog bp c events = foldEvents bp c (events.drop k) := by
  have hseq : validateEventSequence events = .ok events.length := by
    rw [validateEventSequence, validateSequenceFrom_of_seqFrom h.seqs, Nat.zero_add]
  have htail : foldTail bp c.nextSeq 0 c events = foldEvents bp c (events.drop k) := by
    rw [foldTail_eq h.seqs (by simp), hc, Nat.sub_zero]
  unfold foldEventLog
  rw [if_neg (by simpa using h.ne_nil), hseq, h.validateEventIdentity_ok hbp hid hhash]
  change (foldTail bp c.nextSeq 0 c events >>= _) = _
  rw [htail]
  cases foldEvents bp c (events.drop k) with
  | error e => rfl
  | ok s' =>
    change (if events.length < c.nextSeq then _ else _) = _
    rw [if_neg (by omega)]

/-- A fresh state that stands for the run to be reconstructed gives the state of the log. -/
theorem foldEventLog_new (h : Journal bp events s) {runId : String}
    (hid : runId = "replay" ∨ runId = "rebuilt") :
    foldEventLog bp (RunState.new runId bp.id) events = .ok s := by
  have hsent : isSentinelRunId runId = true := by
    rcases hid with rfl | rfl <;> decide
  rw [h.foldEventLog_eq (Nat.zero_le _) rfl rfl (.inl hsent) (.inl rfl), drop_zero]
  obtain ⟨ts, id, hash, trigger, rest, rfl, -⟩ := h.start
  rw [← h.fold, foldEvents_cons, foldEvents_cons,
    apply_start (.inl rfl), apply_start (by rcases hid with rfl | rfl <;> simp)]

end Journal

/-! ### Loading a directory -/

/-- What loading the directory gives. -/
def loadedState (bp : Blueprint) (dir : RunDir) : Except EngineError RunState :=
  foldEventLog bp ((dir.checkpoint.map RunState.normalizeLegacy).getD
    (RunState.new "rebuilt" bp.id)) dir.events

/-- A checkpoint at the end of the log is what loads. -/
theorem Journal.loadedState_end {bp : Blueprint} {dir : RunDir} {s c : RunState}
    (h : Journal bp dir.events s) (hcp : dir.checkpoint = some c) (hnorm : c.Normal)
    (hnext : c.nextSeq = dir.events.length) (hsame : SameRun c s) : loadedState bp dir = .ok c := by
  unfold loadedState
  rw [hcp, Option.map_some, Option.getD_some, RunState.normalizeLegacy_of_normal hnorm,
    h.foldEventLog_eq le_rfl hnext (hsame.blueprintId.symm.trans h.blueprintId)
      (.inr hsame.runId.symm) (.inr hsame.blueprintHash.symm), drop_length]
  rfl

/-- What replaying the log of the directory gives. -/
def replayedState (hash : Blueprint → String) (bp : Blueprint) (dir : RunDir) :
    Except EngineError RunState :=
  (foldEventLog bp (RunState.new "replay" bp.id) dir.events).bind fun s =>
    (ensureBlueprintMatches hash bp s).map fun _ => s

variable {ω : Type} {host : Host ω} {bp : Blueprint}

theorem loadState_eq (w : World ω) : loadState bp w = (loadedState bp w.dir, w) := rfl

theorem replay_eq (w : World ω) : replay host bp w = (replayedState host.blueprintHash bp w.dir, w) := by
  change Prog.andThen (Prog.ofExcept (foldEventLog bp (RunState.new "replay" bp.id) w.dir.events))
    (fun s => Prog.andThen (Prog.ofExcept (ensureBlueprintMatches host.blueprintHash bp s))
      fun _ => Prog.ret s) w = _
  simp only [Prog.andThen, Prog.ofExcept, Prog.ret, replayedState]
  cases foldEventLog bp (RunState.new "replay" bp.id) w.dir.events with
  | error e => rfl
  | ok s =>
    simp only [Except.bind]
    cases ensureBlueprintMatches host.blueprintHash bp s <;> rfl

theorem wp_loadState {w : World ω} {Q : RunState → World ω → Prop}
    {R : EngineError → World ω → Prop} (hok : ∀ s, loadedState bp w.dir = .ok s → Q s w)
    (herr : ∀ e, loadedState bp w.dir = .error e → R e w) :
    Prog.Wp (loadState bp) Q R w := by
  unfold Prog.Wp
  rw [loadState_eq]
  exact Prog.wp_ofExcept_of hok herr

end Wardian.Engine
