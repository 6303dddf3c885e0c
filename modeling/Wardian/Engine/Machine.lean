/-
Runs as a transition system.

A run moves by dispatching a node and by events.  Which events may come next depends on the phase:
between passes loops advance and unreachable nodes are skipped; a dispatched node opens with one
event of its own and, when it has a side effect, works until another one of its events ends it; a
gate parks the run until it is loaded from its directory and granted.  The driver makes no other
moves, so what every move preserves holds of every run.

Main results:

* `Engine.Reach.inv` — what every move preserves holds after any number of moves;
* `Engine.Reach.sound` — the phase agrees with the statuses.
-/

import Wardian.Automation.WellFormed
import Wardian.Engine.Marking
import Wardian.Engine.Executor

set_option autoImplicit false

namespace Wardian.Engine

open Automation (Blueprint Node IsLoop InBody WellFormed)

/-! ### Moves -/

/-- What a run is doing. -/
inductive Phase
  /-- Nothing: it is between two nodes. -/
  | idle
  /-- A node is dispatched and has no event yet. -/
  | opening (node : String)
  /-- The side effect of a node is under way. -/
  | working (node : String)
  /-- It waits for the approval of a gate. -/
  | parked (node : String)
  /-- It has completed or failed. -/
  | ended
  deriving DecidableEq

/-- The events that are legal in a phase of a run in state `s`, with the phase they lead to. -/
inductive Legal (bp : Blueprint) (s : RunState) : Phase → EventKind → Phase → Prop
  | prepares (node recipientId artifactPath : String) :
      Legal bp s .idle (.messageSendPrepared node recipientId artifactPath) .idle
  | passes {node : String} (output : Value) (hloop : ¬IsLoop bp node)
      (hdec : isDecision bp node = false) :
      Legal bp s (.opening node) (.nodeCompleted node output) .idle
  | starts {node : String} (hloop : ¬IsLoop bp node) :
      Legal bp s (.opening node) (.nodeStarted node) (.working node)
  | parks {node : String} (hgate : isApproval bp node = true) :
      Legal bp s (.opening node) (.awaitingApproval node) (.parked node)
  | enters {node : String} (hloop : IsLoop bp node) :
      Legal bp s (.opening node) (.loopIteration node 0) .idle
  | branches {node : String} (port : String) (hloop : ¬IsLoop bp node) :
      Legal bp s (.opening node) (.branchTaken node port) .idle
  | refuses {node : String} (error : String) :
      Legal bp s (.opening node) (.nodeFailed node error) .ended
  | updates {node : String} (op : String) (entries : Value) :
      Legal bp s (.working node) (.stateUpdated node op entries) (.working node)
  | notifies {node : String} (message : String) :
      Legal bp s (.working node) (.notification node message) (.working node)
  | finishes {node : String} (output : Value) (hdec : isDecision bp node = false) :
      Legal bp s (.working node) (.nodeCompleted node output) .idle
  | decides {node : String} (output : Value) (port : String) :
      Legal bp s (.working node) (.decisionCompleted node output port) .idle
  | skips {node : String} : Legal bp s (.working node) (.nodeSkipped node) .idle
  | fails {node : String} (error : String) :
      Legal bp s (.working node) (.nodeFailed node error) .ended
  | iterates {node : String} {iteration : Nat} (hloop : IsLoop bp node)
      (hrunn : s.statusOrPending node = .running) (hnext : iteration ≠ 0) :
      Legal bp s .idle (.loopIteration node iteration) .idle
  | closes {node : String} (hloop : IsLoop bp node)
      (hrunn : s.statusOrPending node = .running) :
      Legal bp s .idle (.loopCompleted node) .idle
  | cascades {node : String} (hpend : s.statusOrPending node = .pending) :
      Legal bp s .idle (.nodeSkipped node) .idle
  | completes : Legal bp s .idle .runCompleted .ended
  | aborts (error : String) : Legal bp s .idle (.runFailed error) .ended
  | grants {node : String} (actor : String) (note : Option String) :
      Legal bp s (.parked node) (.approvalGranted node actor note) .idle

/-- A run: its state, what it is doing, and what has been observed of it, the latest first. -/
structure Machine where
  state : RunState
  phase : Phase
  trace : List Observation

/-- A node that the driver dispatches is pending; it has a token on an inbound edge or is an entry
of the graph. -/
structure Ready (bp : Blueprint) (s : RunState) (node : String) : Prop where
  pending : s.statusOrPending node = .pending
  entry : (∀ i, ¬Enters bp i node) → ∀ p, ¬InBody bp node p
  token : (∃ i, Enters bp i node) → ∃ i, Enters bp i node ∧ i ∈ s.deliveredTo node

/-- No running loop waits to be advanced: each has a body node that has not ended. -/
def Advanced (bp : Blueprint) (s : RunState) : Prop :=
  ∀ loopId, IsLoop bp loopId → s.statusOrPending loopId = .running →
    ∃ b, InBody bp b loopId ∧ terminal s b = false

/-- One move of a run. -/
inductive Move (bp : Blueprint) : Machine → Machine → Prop
  | emits {s s' : RunState} {phase phase' : Phase} {trace : List Observation} {kind : EventKind}
      {ts : String} (hleg : Legal bp s phase kind phase')
      (happ : apply bp s ⟨s.nextSeq, ts, kind⟩ = .ok s') :
      Move bp ⟨s, phase, trace⟩ ⟨s', phase', .emitted s kind s' :: trace⟩
  | dispatches {s : RunState} {trace : List Observation} {node : String} {nd : Node}
      (hnode : bp.findNode node = some nd) (hrdy : Ready bp s node) :
      Move bp ⟨s, .idle, trace⟩ ⟨s, .opening node, .dispatched node s :: trace⟩
  | plans {s : RunState} {trace : List Observation} (hadvd : Advanced bp s) :
      Move bp ⟨s, .idle, trace⟩ ⟨s, .idle, .planned s :: trace⟩
  | sends {s : RunState} {trace : List Observation} {node : String} (req : MessageSendRequest) :
      Move bp ⟨s, .working node, trace⟩ ⟨s, .working node, .sent req :: trace⟩
  | reloads {s : RunState} {trace : List Observation} {node : String} {registry : Value}
      (hread : registry.reread eraseFloat = s.registry.reread eraseFloat) :
      Move bp ⟨s, .parked node, trace⟩ ⟨{ s with registry := registry }, .parked node, trace⟩

/-- Any number of moves. -/
abbrev Reach (bp : Blueprint) : Machine → Machine → Prop := Relation.ReflTransGen (Move bp)

/-- The kinds of the events observed, the latest first. -/
def emittedKinds : List Observation → List EventKind
  | [] => []
  | .emitted _ kind _ :: trace => kind :: emittedKinds trace
  | _ :: trace => emittedKinds trace

/-- The states that finalization was planned from, the latest first. -/
def plannedStates : List Observation → List RunState
  | [] => []
  | .planned s :: trace => s :: plannedStates trace
  | _ :: trace => plannedStates trace

/-- What every move preserves holds after any number of moves. -/
theorem Reach.inv {bp : Blueprint} {I : Machine → Prop} (hmove : ∀ m m', I m → Move bp m m' → I m')
    {m m' : Machine} (h : Reach bp m m') (hm : I m) : I m' := by
  induction h with
  | refl => exact hm
  | tail _ hstep ih => exact hmove _ _ ih hstep

/-! ### What moves do to a marking -/

variable {bp : Blueprint} {m : Marking} {node port n : String} {i : Nat}

namespace Marking

@[simp] theorem status_mark (status : NodeStatus) :
    (m.mark node status).status n = if n = node then status else m.status n := by
  simp only [mark, Function.update_apply]

theorem status_pulse_cases (bp : Blueprint) (m : Marking) (node port n : String) :
    (m.pulse bp node port).status n = m.status n ∨
    (m.status n = .skipped ∧ (m.pulse bp node port).status n = .pending ∧
      ∃ i, LeavesPort bp i node port ∧ Enters bp i n) := by
  simp only [pulse]
  split
  · rename_i h
    exact .inr ⟨h.1, rfl, h.2⟩
  · exact .inl rfl

theorem status_pulse_of_ne (h : m.status n ≠ .skipped) : (m.pulse bp node port).status n = m.status n := by
  rcases status_pulse_cases bp m node port n with h' | ⟨h', -⟩
  · exact h'
  · exact absurd h' h

theorem mem_delivered_pulse : i ∈ (m.pulse bp node port).delivered ↔
    i ∈ m.delivered ∨ LeavesPort bp i node port := Iff.rfl

theorem mem_skipped_pulse : i ∈ (m.pulse bp node port).skipped ↔
    (i ∈ m.skipped ∧ ¬Leaves bp i node) ∨ (Leaves bp i node ∧ ¬LeavesPort bp i node port) := Iff.rfl

@[simp] theorem status_skip : (m.skip bp node).status n = if n = node then .skipped else m.status n := by
  simp only [skip, mark, Function.update_apply]

@[simp] theorem delivered_skip : (m.skip bp node).delivered = m.delivered := rfl

theorem mem_skipped_skip : i ∈ (m.skip bp node).skipped ↔ i ∈ m.skipped ∨ Leaves bp i node :=
  Iff.rfl

variable {p : String}

theorem status_reset_of_inBody (h : InBody bp n p) : (m.reset bp p).status n = .pending := by
  obtain ⟨nd, hnd, hid, hp⟩ := h
  simp only [reset]
  rw [if_pos (mem_bodyNodes.2 ⟨nd, hnd, hp, hid⟩)]

theorem status_reset_of_not_inBody (h : ¬InBody bp n p) : (m.reset bp p).status n = m.status n := by
  simp only [reset]
  rw [if_neg]
  intro hmem
  obtain ⟨nd, hnd, hp, hid⟩ := mem_bodyNodes.1 hmem
  exact h ⟨nd, hnd, hid, hp⟩

theorem mem_delivered_reset : i ∈ (m.reset bp p).delivered ↔
    i ∈ m.delivered ∧ ∀ n, InBody bp n p → ¬Enters bp i n := by
  simp only [reset, Set.mem_ofPred_eq, mem_bodyNodes, InBody]
  constructor
  · rintro ⟨hi, h⟩
    refine ⟨hi, ?_⟩
    rintro n ⟨nd, hnd, hid, hp⟩
    exact h n ⟨nd, hnd, hp, hid⟩
  · rintro ⟨hi, h⟩
    refine ⟨hi, ?_⟩
    rintro n ⟨nd, hnd, hp, hid⟩
    exact h n ⟨nd, hnd, hid, hp⟩

theorem mem_skipped_reset : i ∈ (m.reset bp p).skipped ↔
    i ∈ m.skipped ∧ isBodyEdge bp p i = false := Iff.rfl

end Marking

/-! ### What an event leaves alone -/

/-- The node whose token an event moves. -/
def EventKind.actor : EventKind → Option String
  | .nodeStarted node | .nodeCompleted node _ | .decisionCompleted node _ _ | .nodeFailed node _
  | .branchTaken node _ | .decisionMade node _ | .loopIteration node _ | .loopCompleted node
  | .nodeSkipped node | .awaitingApproval node | .approvalGranted node _ _
  | .approvalRejected node _ _ => some node
  | _ => none

/-- The loop whose body an event clears. -/
def EventKind.resets : EventKind → Option String
  | .loopIteration node iteration => if iteration = 0 then none else some node
  | _ => none

/-- An event clears this node. -/
def EventKind.Clears (bp : Blueprint) (kind : EventKind) (node : String) : Prop :=
  ∃ p ∈ kind.resets, InBody bp node p

instance (bp : Blueprint) (kind : EventKind) (node : String) : Decidable (kind.Clears bp node) :=
  inferInstanceAs (Decidable (∃ p ∈ kind.resets, InBody bp node p))

/-- The port that an event pulses. -/
def EventKind.pulses (bp : Blueprint) : EventKind → Option (String × String)
  | .nodeCompleted node _ => if isDecision bp node then none else some (node, "out")
  | .decisionCompleted node _ port | .branchTaken node port | .decisionMade node port =>
    some (node, port)
  | .loopIteration node _ => some (node, "body")
  | .loopCompleted node => some (node, "done")
  | .approvalGranted node _ _ => some (node, "out")
  | _ => none

variable {kind : EventKind}

/-- An event changes the status of a node only when it is the actor, is cleared, or is skipped and
gets a token. -/
theorem status_effect (hact : kind.actor ≠ some n) (hrst : ∀ p, kind.resets = some p → ¬InBody bp n p) :
    (effect bp m kind).status n = m.status n ∨
    (m.status n = .skipped ∧ (effect bp m kind).status n = .pending ∧ ∃ v port i,
      kind.pulses bp = some (v, port) ∧ LeavesPort bp i v port ∧ Enters bp i n) := by
  have hpulse : ∀ (m' : Marking) (v port : String), m'.status n = m.status n →
      kind.pulses bp = some (v, port) →
      (m'.pulse bp v port).status n = m.status n ∨
      (m.status n = .skipped ∧ (m'.pulse bp v port).status n = .pending ∧ ∃ v port i,
        kind.pulses bp = some (v, port) ∧ LeavesPort bp i v port ∧ Enters bp i n) := by
    intro m' v port hm' hp
    rcases Marking.status_pulse_cases bp m' v port n with h | ⟨h, h', i, hi⟩
    · exact .inl (h.trans hm')
    · exact .inr ⟨hm' ▸ h, h', v, port, i, hp, hi⟩
  have hmark : ∀ {v : String} {st : NodeStatus}, some v ≠ some n →
      (m.mark v st).status n = m.status n := by
    intro v st hv
    rw [Marking.status_mark, if_neg fun h : n = v => hv (congrArg some h.symm)]
  cases kind with
  | runStarted | messageSendPrepared | stateUpdated | notification | runCompleted | runFailed =>
    exact .inl rfl
  | nodeStarted | awaitingApproval | nodeFailed | approvalRejected => exact .inl (hmark hact)
  | nodeCompleted v output =>
    by_cases hd : isDecision bp v = true
    · simp only [effect, hd, if_true]
      exact .inl (hmark hact)
    · simp only [effect, hd]
      exact hpulse _ _ _ (hmark hact) (by simp [EventKind.pulses, hd])
  | decisionCompleted | branchTaken | decisionMade | loopCompleted | approvalGranted =>
    exact hpulse _ _ _ (hmark hact) rfl
  | nodeSkipped v =>
    left
    simp only [effect, Marking.status_skip]
    rw [if_neg fun h : n = v => hact (congrArg some h.symm)]
  | loopIteration v iteration =>
    simp only [effect]
    split
    · exact hpulse _ _ _ (hmark hact) rfl
    · rename_i hne
      refine hpulse _ _ _ ?_ rfl
      exact Marking.status_reset_of_not_inBody (hrst v (by simp [EventKind.resets, hne]))

theorem delivered_effect (h : i ∈ (effect bp m kind).delivered) :
    i ∈ m.delivered ∨ ∃ v port, kind.pulses bp = some (v, port) ∧ LeavesPort bp i v port := by
  cases kind with
  | nodeCompleted v output =>
    by_cases hd : isDecision bp v = true
    · simp only [effect, hd, if_true] at h
      exact .inl h
    · simp only [effect, hd] at h
      exact h.imp_right fun h => ⟨v, "out", by simp [EventKind.pulses, hd], h⟩
  | decisionCompleted | branchTaken | decisionMade | loopCompleted | approvalGranted =>
    exact h.imp_right fun h => ⟨_, _, rfl, h⟩
  | loopIteration v iteration =>
    simp only [effect] at h
    split at h
    · exact h.imp_right fun h => ⟨v, "body", rfl, h⟩
    · rcases h with h | h
      · exact .inl (Marking.mem_delivered_reset.1 h).1
      · exact .inr ⟨v, "body", rfl, h⟩
  | _ => exact .inl h

/-- An event takes tokens from the edges into a cleared body only. -/
theorem delivered_effect_of_mem (h : i ∈ m.delivered)
    (hrst : ∀ p, kind.resets = some p → ∀ n, InBody bp n p → ¬Enters bp i n) :
    i ∈ (effect bp m kind).delivered := by
  cases kind with
  | nodeCompleted v output =>
    simp only [effect]
    split
    · exact h
    · exact .inl h
  | decisionCompleted | branchTaken | decisionMade | loopCompleted | approvalGranted =>
    exact .inl h
  | loopIteration v iteration =>
    simp only [effect]
    split
    · exact .inl h
    · rename_i hne
      exact .inl (Marking.mem_delivered_reset.2
        ⟨h, hrst v (by simp [EventKind.resets, hne])⟩)
  | _ => exact h

/-! ### The phase agrees with the statuses -/

theorem not_isLoop_of_isApproval (h : isApproval bp node = true) : ¬IsLoop bp node := by
  rintro ⟨nd, hnd, htype⟩
  rw [isApproval, hnd] at h
  simp [htype] at h

/-- What the phase says about the state. -/
def PhaseSound (bp : Blueprint) (s : RunState) (trace : List Observation) : Phase → Prop
  | .idle => s.status = .running
  | .opening node => s.status = .running ∧ s.statusOrPending node = .pending
  | .working node =>
    s.status = .running ∧ s.statusOrPending node = .running ∧ ¬IsLoop bp node
  | .parked node => s.status = .awaitingApproval ∧ s.statusOrPending node = .running ∧
      isApproval bp node = true ∧ ∃ kinds, emittedKinds trace = .awaitingApproval node :: kinds
  | .ended => s.status = .completed ∨ s.status = .failed

variable {s : RunState} {phase phase' : Phase} {trace : List Observation}

theorem Legal.sound {s' : RunState} {ts : String} (h : PhaseSound bp s trace phase)
    (hleg : Legal bp s phase kind phase') (happ : apply bp s ⟨s.nextSeq, ts, kind⟩ = .ok s') :
    PhaseSound bp s' (.emitted s kind s' :: trace) phase' := by
  have hstat := status_apply happ
  have hnode : ∀ v, s'.statusOrPending v = (effect bp (marking bp s) kind).status v :=
    statusOrPending_apply happ
  cases hleg with
  | prepares | iterates | closes | cascades => exact hstat.trans h
  | passes | enters | branches | finishes | decides | skips => exact hstat.trans h.1
  | starts hloop =>
    refine ⟨hstat.trans h.1, ?_, hloop⟩
    rw [hnode]
    simp [effect]
  | parks hgate =>
    refine ⟨hstat, ?_, hgate, _, rfl⟩
    rw [hnode]
    simp [effect]
  | updates | notifies =>
    refine ⟨hstat.trans h.1, ?_, h.2.2⟩
    rw [hnode]
    exact h.2.1
  | refuses | fails | aborts => exact .inr hstat
  | completes => exact .inl hstat
  | grants => exact hstat

theorem Reach.sound {m m' : Machine} (h : Reach bp m m')
    (hm : PhaseSound bp m.state m.trace m.phase) : PhaseSound bp m'.state m'.trace m'.phase := by
  refine Reach.inv (I := fun m => PhaseSound bp m.state m.trace m.phase) ?_ h hm
  rintro m m' hm hmove
  cases hmove with
  | emits hleg happ => exact hleg.sound hm happ
  | dispatches hnode hrdy => exact ⟨hm, hrdy.pending⟩
  | plans | sends | reloads => exact hm

variable {v : String}

/-- The actor of a legal event is pending or running; a loop that acts while it runs starts an
iteration or ends. -/
theorem Legal.actor_status (h : PhaseSound bp s trace phase) (hleg : Legal bp s phase kind phase')
    (hv : kind.actor = some v) :
    s.statusOrPending v = .pending ∨ (s.statusOrPending v = .running ∧
      (IsLoop bp v → kind = .loopCompleted v ∨ kind.resets = some v)) := by
  cases hleg with
  | prepares | updates | notifies | completes | aborts => cases hv
  | passes | starts | parks | enters | branches | refuses =>
    cases hv
    exact .inl h.2
  | finishes | decides | skips | fails =>
    cases hv
    exact .inr ⟨h.2.1, fun hl => absurd hl h.2.2⟩
  | iterates hloop hrunn hnext =>
    cases hv
    exact .inr ⟨hrunn, fun _ => .inr (by simp [EventKind.resets, hnext])⟩
  | closes hloop hrunn =>
    cases hv
    exact .inr ⟨hrunn, fun _ => .inl rfl⟩
  | cascades hpend =>
    cases hv
    exact .inl hpend
  | grants =>
    cases hv
    exact .inr ⟨h.2.1, fun hl => absurd hl (not_isLoop_of_isApproval h.2.2.1)⟩

variable {p : String}

theorem status_cleared (h : kind.resets = some p)
    (hbody : InBody bp n p) : (effect bp m kind).status n = .pending := by
  cases kind with
  | loopIteration v iteration =>
    simp only [EventKind.resets] at h
    split at h
    · cases h
    · rename_i hne
      cases h
      simp only [effect, if_neg hne]
      have hrst := Marking.status_reset_of_inBody (m := m) hbody
      rw [Marking.status_pulse_of_ne (by rw [hrst]; decide), hrst]
  | _ => cases h

/-- The actor of an event is not pending after it, unless it is a loop that clears itself. -/
theorem status_actor (hact : kind.actor = some n)
    (hrst : ∀ p, kind.resets = some p → m.status n ≠ .pending ∧ m.status n ≠ .skipped ∧ ¬InBody bp n p) :
    (effect bp m kind).status n ≠ .pending := by
  have hmark : ∀ {st : NodeStatus} {port : String}, st ≠ .pending → st ≠ .skipped →
      ((m.mark n st).pulse bp n port).status n ≠ .pending := by
    intro st port hp hs
    have hself : (m.mark n st).status n = st := by simp
    rw [Marking.status_pulse_of_ne (hself.symm ▸ hs), hself]
    exact hp
  cases kind with
  | runStarted | messageSendPrepared | stateUpdated | notification | runCompleted | runFailed =>
    cases hact
  | nodeStarted | awaitingApproval | nodeFailed | approvalRejected | nodeSkipped =>
    cases hact
    simp [effect]
  | nodeCompleted v output =>
    cases hact
    simp only [effect]
    split
    · simp
    · exact hmark (by decide) (by decide)
  | decisionCompleted | branchTaken | decisionMade | loopCompleted | approvalGranted =>
    cases hact
    exact hmark (by decide) (by decide)
  | loopIteration v iteration =>
    cases hact
    simp only [effect]
    split
    · exact hmark (by decide) (by decide)
    · rename_i hne
      obtain ⟨hp, hs, hbody⟩ := hrst n (by simp [EventKind.resets, hne])
      have hself := Marking.status_reset_of_not_inBody (m := m) hbody
      rw [Marking.status_pulse_of_ne (hself.symm ▸ hs), hself]
      exact hp

theorem EventKind.actor_of_resets (h : kind.resets = some p) : kind.actor = some p := by
  cases kind with
  | loopIteration v iteration =>
    simp only [EventKind.resets] at h
    split at h <;> cases h
    rfl
  | _ => cases h

theorem Legal.resets_running (hleg : Legal bp s phase kind phase') (h : kind.resets = some p) :
    IsLoop bp p ∧ s.statusOrPending p = .running := by
  cases hleg with
  | iterates hloop hrunn hnext =>
    rw [EventKind.resets, if_neg hnext] at h
    cases h
    exact ⟨hloop, hrunn⟩
  | _ => cases h

theorem Legal.actor_of_opening
    (hleg : Legal bp s (.opening node) kind phase') : kind.actor = some node := by
  cases hleg <;> rfl

theorem Legal.enters_of_running (hsnd : PhaseSound bp s trace phase) (hleg : Legal bp s phase kind phase')
    (hloop : IsLoop bp node) (hact : kind.actor = some node)
    (h : (effect bp m kind).status node = .running) :
    kind = .loopIteration node 0 ∨ s.statusOrPending node = .running := by
  cases hleg with
  | enters =>
    cases hact
    exact .inl rfl
  | iterates _ hrun | closes _ hrun =>
    cases hact
    exact .inr hrun
  | passes _ hn | starts hn | branches _ hn =>
    cases hact
    exact absurd hloop hn
  | parks hgate =>
    cases hact
    exact absurd hloop (not_isLoop_of_isApproval hgate)
  | finishes | decides | skips | fails | grants =>
    cases hact
    exact .inr hsnd.2.1
  | refuses | cascades =>
    cases hact
    simp [effect] at h
  | prepares | updates | notifies | completes | aborts => cases hact

/-- A port is pulsed by the node at work, which a loop is only when it is entered, or by a running
loop. -/
theorem Legal.pulses_origin (hsnd : PhaseSound bp s trace phase) (hleg : Legal bp s phase kind phase')
    (hpuls : kind.pulses bp = some (v, port)) :
    ((phase = .opening v ∨ phase = .working v ∨ phase = .parked v) ∧
      (IsLoop bp v → kind = .loopIteration v 0)) ∨
      (IsLoop bp v ∧ s.statusOrPending v = .running) := by
  cases hleg with
  | prepares | starts | parks | refuses | updates | notifies | skips | fails | cascades
  | completes | aborts => cases hpuls
  | passes output hloop hdec =>
    simp only [EventKind.pulses, hdec, Bool.false_eq_true, if_false] at hpuls
    cases hpuls
    exact .inl ⟨.inl rfl, fun hl => absurd hl hloop⟩
  | finishes output hdec =>
    simp only [EventKind.pulses, hdec, Bool.false_eq_true, if_false] at hpuls
    cases hpuls
    exact .inl ⟨.inr (.inl rfl), fun hl => absurd hl hsnd.2.2⟩
  | enters hloop =>
    cases hpuls
    exact .inl ⟨.inl rfl, fun _ => rfl⟩
  | branches _ hloop =>
    cases hpuls
    exact .inl ⟨.inl rfl, fun hl => absurd hl hloop⟩
  | decides =>
    cases hpuls
    exact .inl ⟨.inr (.inl rfl), fun hl => absurd hl hsnd.2.2⟩
  | grants =>
    cases hpuls
    exact .inl ⟨.inr (.inr rfl), fun hl => absurd hl (not_isLoop_of_isApproval hsnd.2.2.1)⟩
  | iterates hloop hrunn | closes hloop hrunn =>
    cases hpuls
    exact .inr ⟨hloop, hrunn⟩

/-- An event that pulses a port acts for the node of the port. -/
theorem EventKind.actor_of_pulses (h : kind.pulses bp = some (v, port)) : kind.actor = some v := by
  cases kind with
  | nodeCompleted node output =>
    simp only [EventKind.pulses] at h
    split at h
    · cases h
    · cases h
      rfl
  | decisionCompleted | branchTaken | decisionMade | loopIteration | loopCompleted
  | approvalGranted =>
    cases h
    rfl
  | _ => cases h

end Wardian.Engine
