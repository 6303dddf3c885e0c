/-
The barrier before a node.

A node waits until its inbound edges are delivered or skipped, so that no token reaches it after it
has started.  The barrier holds as long as a skipped edge stays skipped.  Entering a loop skips the
edges of its `done` port, though, and a node that the cascade has skipped becomes pending again when
it gets a token after all, with its own edges still skipped; a token may then pass such an edge
after the node behind it has started.

An edge is sealed when this cannot happen: its source has ended for good, or it is the loop around
the node, which passes its tokens on only when it clears the body.  A run whose dispatched nodes
have only sealed edges left keeps the barrier.

Main results:

* `Engine.Quiet.effect` — quiet nodes stay quiet;
* `Engine.Run.barrier` — runs with sealed dispatches keep the barrier;
* `Engine.barrier_broken` — a join that starts before the loop in front of it is done.
-/

import Wardian.Engine.Runs

set_option autoImplicit false

namespace Wardian.Engine

open List
open Automation (Blueprint Node Edge IsLoop InBody WellFormed validate wellFormed_of_isValid)

/-! ### The barrier -/

/-- The node has been dispatched before a token passed edge `i`, and has not been cleared since. -/
def Owed (bp : Blueprint) (node : String) (i : Nat) : List Observation → Prop
  | [] => False
  | .dispatched v s :: trace => (v = node ∧ i ∉ s.deliveredTo node) ∨ Owed bp node i trace
  | .emitted _ kind _ :: trace => ¬kind.Clears bp node ∧ Owed bp node i trace
  | .planned _ :: trace | .sent _ :: trace => Owed bp node i trace

/-- No token passes an edge into a node that has been dispatched before. -/
def Barrier (bp : Blueprint) : List Observation → Prop
  | [] => True
  | .emitted s kind s' :: trace =>
    (∀ node i, Enters bp i node → Owed bp node i (.emitted s kind s' :: trace) →
      i ∉ s'.deliveredTo node) ∧ Barrier bp trace
  | .dispatched _ _ :: trace | .planned _ :: trace | .sent _ :: trace => Barrier bp trace

instance Owed.decidable (bp : Blueprint) (node : String) (i : Nat) :
    ∀ trace, Decidable (Owed bp node i trace)
  | [] => inferInstanceAs (Decidable False)
  | .dispatched v s :: trace =>
    have := Owed.decidable bp node i trace
    inferInstanceAs (Decidable ((v = node ∧ i ∉ s.deliveredTo node) ∨ Owed bp node i trace))
  | .emitted _ kind _ :: trace =>
    have := Owed.decidable bp node i trace
    inferInstanceAs (Decidable (¬kind.Clears bp node ∧ Owed bp node i trace))
  | .planned _ :: trace | .sent _ :: trace => Owed.decidable bp node i trace

/-- The edges of a blueprint can be listed with their targets. -/
theorem forall_enters_iff (bp : Blueprint) (P : String → Nat → Prop) :
    (∀ node i, Enters bp i node → P node i) ↔ ∀ p ∈ bp.edges.zipIdx, P p.1.toNode p.2 := by
  constructor
  · rintro h ⟨e, i⟩ hmem
    exact h e.toNode i ⟨e, mem_zipIdx_iff_getElem?.1 hmem, rfl⟩
  · rintro h node i ⟨e, he, rfl⟩
    exact h (e, i) (mem_zipIdx_iff_getElem?.2 he)

instance Barrier.decidable (bp : Blueprint) : ∀ trace, Decidable (Barrier bp trace)
  | [] => inferInstanceAs (Decidable True)
  | .emitted s kind s' :: trace =>
    have := Barrier.decidable bp trace
    have : Decidable (∀ node i, Enters bp i node →
        Owed bp node i (.emitted s kind s' :: trace) → i ∉ s'.deliveredTo node) :=
      decidable_of_iff _ (forall_enters_iff bp fun node i =>
        Owed bp node i (.emitted s kind s' :: trace) → i ∉ s'.deliveredTo node).symm
    inferInstanceAs (Decidable (_ ∧ Barrier bp trace))
  | .dispatched _ _ :: trace | .planned _ :: trace | .sent _ :: trace =>
    Barrier.decidable bp trace

/-! ### Sealed edges -/

/-- The edge comes from the running loop around the node, which pulses it only with the next
iteration of the body. -/
def Repeats (bp : Blueprint) (status : String → NodeStatus) (node : String) (e : Edge) : Prop :=
  InBody bp node e.fromNode ∧ status e.fromNode = .running ∧ e.fromPort ≠ "done"

/-- A node acts no more, at least until the loop around `node` clears its body. -/
inductive Quiet (bp : Blueprint) (status : String → NodeStatus) (node : String) : String → Prop
  | completed {u : String} (hstat : status u = .completed)
      (hbody : ∀ p, InBody bp u p → ¬InBody bp node p → Quiet bp status node p) :
      Quiet bp status node u
  | skipped {u : String} (hstat : status u = .skipped)
      (hbody : ∀ p, InBody bp u p → ¬InBody bp node p → Quiet bp status node p)
      (hin : ∀ e ∈ bp.edges, e.toNode = u → ¬Repeats bp status node e →
        Quiet bp status node e.fromNode) : Quiet bp status node u

/-- No token will pass the edge, at least until the loop around `node` clears its body. -/
def Sealed (bp : Blueprint) (status : String → NodeStatus) (node : String) (e : Edge) : Prop :=
  ¬Repeats bp status node e → Quiet bp status node e.fromNode

/-- Each dispatched node has sealed edges where it has no token. -/
def SealedDispatches (bp : Blueprint) : List Observation → Prop
  | [] => True
  | .dispatched node s :: trace =>
    (∀ i e, bp.edges[i]? = some e → e.toNode = node → i ∉ s.deliveredTo node →
      Sealed bp s.statusOrPending node e) ∧ SealedDispatches bp trace
  | .emitted _ _ _ :: trace | .planned _ :: trace | .sent _ :: trace => SealedDispatches bp trace

variable {bp : Blueprint} {s s' : RunState} {phase phase' : Phase} {trace : List Observation}
  {kind : EventKind} {node u v port : String} {i : Nat}

variable {status : String → NodeStatus}

theorem Quiet.ended (h : Quiet bp status node u) : status u = .completed ∨ status u = .skipped := by
  cases h with
  | completed hstat => exact .inl hstat
  | skipped hstat => exact .inr hstat

theorem Quiet.not_actor (hsnd : PhaseSound bp s trace phase) (hleg : Legal bp s phase kind phase')
    (h : Quiet bp s.statusOrPending node u) : kind.actor ≠ some u := by
  intro hact
  have hstat := hleg.actor_status hsnd hact
  rcases h.ended with h | h <;> rw [h] at hstat <;> simp at hstat

/-- The loop around a quiet node does not clear it, unless it clears `node` as well. -/
theorem Quiet.not_cleared (hleg : Legal bp s phase kind phase') (hclrs : ¬kind.Clears bp node)
    (hbody : ∀ p, InBody bp u p → ¬InBody bp node p → Quiet bp s.statusOrPending node p) :
    ∀ p, kind.resets = some p → ¬InBody bp u p := by
  intro p hp hup
  have hrunn := (hleg.resets_running hp).2
  rcases (hbody p hup fun hnp => hclrs ⟨p, hp, hnp⟩).ended with h | h <;>
    exact absurd (hrunn.symm.trans h) (by decide)

variable {e : Edge}

/-- The running loop around `node` does not pulse such an edge without clearing `node`. -/
theorem Repeats.not_pulsed (hwf : WellFormed bp) (hsnd : PhaseSound bp s trace phase)
    (hleg : Legal bp s phase kind phase') (hclrs : ¬kind.Clears bp node)
    (h : Repeats bp s.statusOrPending node e) : kind.pulses bp ≠ some (e.fromNode, e.fromPort) := by
  intro hpuls
  obtain ⟨hbody, hrunn, hport⟩ := h
  have hloop := hwf.isLoop_of_inBody hbody
  rcases hleg.actor_status hsnd (EventKind.actor_of_pulses hpuls) with hpend | ⟨-, hacts⟩
  · exact absurd (hrunn.symm.trans hpend) (by decide)
  · rcases hacts hloop with rfl | hrsts
    · simp only [EventKind.pulses, Option.some.injEq, Prod.mk.injEq, true_and] at hpuls
      exact hport hpuls.symm
    · exact hclrs ⟨_, hrsts, hbody⟩

/-- The running loop around `node` goes on running, or it is done. -/
theorem Repeats.effect (hwf : WellFormed bp) (hsnd : PhaseSound bp s trace phase)
    (hleg : Legal bp s phase kind phase') (hclrs : ¬kind.Clears bp node)
    (h : Repeats bp s.statusOrPending node e) : Sealed bp (effect bp (marking bp s) kind).status node e := by
  intro hnot
  obtain ⟨hbody, hrunn, hport⟩ := h
  have hloop := hwf.isLoop_of_inBody hbody
  have htop : ∀ p, ¬InBody bp e.fromNode p := fun p => hwf.not_inBody_of_isLoop hloop
  by_cases hact : kind.actor = some e.fromNode
  · rcases hleg.actor_status hsnd hact with hpend | ⟨-, hacts⟩
    · exact absurd (hrunn.symm.trans hpend) (by decide)
    · rcases hacts hloop with rfl | hrsts
      · refine .completed ?_ fun p hp => absurd hp (htop p)
        have hself : ((marking bp s).mark e.fromNode .completed).status e.fromNode = .completed := by
          simp
        simp only [Engine.effect]
        rw [Marking.status_pulse_of_ne (by rw [hself]; decide), hself]
      · exact absurd ⟨_, hrsts, hbody⟩ hclrs
  · rcases status_effect (m := marking bp s) hact fun p _ => htop p with heq | ⟨hskip, -⟩
    · exact absurd ⟨hbody, heq.trans hrunn, hport⟩ hnot
    · exact absurd (hrunn.symm.trans hskip) (by decide)

theorem Quiet.effect (hwf : WellFormed bp) (hsnd : PhaseSound bp s trace phase)
    (hleg : Legal bp s phase kind phase') (hclrs : ¬kind.Clears bp node)
    (h : Quiet bp s.statusOrPending node u) : Quiet bp (effect bp (marking bp s) kind).status node u := by
  induction h with
  | @completed u hstat hbody ih =>
    have hact := (Quiet.completed hstat hbody).not_actor hsnd hleg
    have hclrd := Quiet.not_cleared hleg hclrs hbody
    rcases status_effect (m := marking bp s) hact hclrd with heq | ⟨hskip, -⟩
    · exact .completed (heq.trans hstat) ih
    · exact absurd (hstat.symm.trans hskip) (by decide)
  | @skipped u hstat hbody hin ih ihin =>
    have hact := (Quiet.skipped hstat hbody hin).not_actor hsnd hleg
    have hclrd := Quiet.not_cleared hleg hclrs hbody
    rcases status_effect (m := marking bp s) hact hclrd with
      heq | ⟨-, -, v, port, i, hpuls, ⟨e, he, rfl, rfl⟩, ⟨e', he', hto⟩⟩
    · refine .skipped (heq.trans hstat) ih fun e he hto hnot => ?_
      by_cases hrpts : Repeats bp s.statusOrPending node e
      · exact hrpts.effect hwf hsnd hleg hclrs hnot
      · exact ihin e he hto hrpts
    · -- a token reaches the node: its source is quiet, or the loop around `node`
      obtain rfl : e = e' := Option.some.inj (he.symm.trans he')
      have hmem := mem_of_getElem? he
      by_cases hrpts : Repeats bp s.statusOrPending node e
      · exact absurd hpuls (hrpts.not_pulsed hwf hsnd hleg hclrs)
      · exact absurd (EventKind.actor_of_pulses hpuls)
          ((hin e hmem hto hrpts).not_actor hsnd hleg)

theorem Sealed.effect (hwf : WellFormed bp) (hsnd : PhaseSound bp s trace phase)
    (hleg : Legal bp s phase kind phase') (hclrs : ¬kind.Clears bp node)
    (h : Sealed bp s.statusOrPending node e) : Sealed bp (effect bp (marking bp s) kind).status node e := by
  by_cases hrpts : Repeats bp s.statusOrPending node e
  · exact hrpts.effect hwf hsnd hleg hclrs
  · exact fun _ => (h hrpts).effect hwf hsnd hleg hclrs

theorem Sealed.not_pulsed (hwf : WellFormed bp) (hsnd : PhaseSound bp s trace phase)
    (hleg : Legal bp s phase kind phase') (hclrs : ¬kind.Clears bp node)
    (h : Sealed bp s.statusOrPending node e) : kind.pulses bp ≠ some (e.fromNode, e.fromPort) := by
  by_cases hrpts : Repeats bp s.statusOrPending node e
  · exact hrpts.not_pulsed hwf hsnd hleg hclrs
  · exact fun hpuls => (h hrpts).not_actor hsnd hleg (EventKind.actor_of_pulses hpuls)

/-! ### Runs with sealed dispatches -/

/-- What is owed is sealed and has no token. -/
structure BarrierInv (bp : Blueprint) (m : Machine) : Prop where
  barrier : Barrier bp m.trace
  owed : ∀ node i e, bp.edges[i]? = some e → e.toNode = node → Owed bp node i m.trace →
    Sealed bp m.state.statusOrPending node e ∧ i ∉ m.state.deliveredTo node

theorem BarrierInv.emits (hwf : WellFormed bp) {ts : String} (h : BarrierInv bp ⟨s, phase, trace⟩)
    (hsnd : PhaseSound bp s trace phase) (hleg : Legal bp s phase kind phase')
    (happ : apply bp s ⟨s.nextSeq, ts, kind⟩ = .ok s') :
    BarrierInv bp ⟨s', phase', .emitted s kind s' :: trace⟩ := by
  have howed : ∀ node i e, bp.edges[i]? = some e → e.toNode = node →
      Owed bp node i (.emitted s kind s' :: trace) →
      Sealed bp s'.statusOrPending node e ∧ i ∉ s'.deliveredTo node := by
    rintro node i e he hto ⟨hclrs, howed⟩
    obtain ⟨hsld, hnot⟩ := h.owed node i e he hto howed
    have hstat : s'.statusOrPending = (effect bp (marking bp s) kind).status :=
      funext (statusOrPending_apply happ)
    refine ⟨?_, fun hd => ?_⟩
    · rw [hstat]
      exact hsld.effect hwf hsnd hleg hclrs
    · have hntrs : Enters bp i node := ⟨e, he, hto⟩
      rw [← mem_delivered_marking hntrs, marking_apply happ] at hd
      rcases delivered_effect hd with hd | ⟨v, port, hpuls, e', he', rfl, rfl⟩
      · exact hnot ((mem_delivered_marking hntrs).1 hd)
      · obtain rfl : e = e' := Option.some.inj (he.symm.trans he')
        exact hsld.not_pulsed hwf hsnd hleg hclrs hpuls
  refine ⟨⟨fun node i hi ho => ?_, h.barrier⟩, howed⟩
  obtain ⟨e, he, hto⟩ := hi
  exact (howed node i e he hto ho).2

variable {m : Machine}

/-- Every move with sealed dispatches keeps what is owed sealed. -/
theorem BarrierInv.move (hwf : WellFormed bp) {m' : Machine} (h : BarrierInv bp m)
    (hsnd : PhaseSound bp m.state m.trace m.phase) (hmove : Move bp m m')
    (hsld : SealedDispatches bp m'.trace) : BarrierInv bp m' := by
  cases hmove with
  | emits hleg happ => exact h.emits hwf hsnd hleg happ
  | plans | sends | reloads => exact ⟨h.barrier, h.owed⟩
  | @dispatches s trace v nd hnode hrdy =>
    refine ⟨h.barrier, ?_⟩
    rintro node i e he hto (⟨rfl, hnot⟩ | howed)
    · exact ⟨hsld.1 i e he hto hnot, hnot⟩
    · exact h.owed node i e he hto howed

theorem Initial.barrierInv (h : Initial bp m) : BarrierInv bp m := by
  obtain ⟨s₀, kind, htr, -⟩ := h.trace
  refine ⟨?_, fun node i e he hto howed => ?_⟩
  · rw [htr]
    exact ⟨fun _ _ _ howed => howed.2.elim, trivial⟩
  · rw [htr] at howed
    exact howed.2.elim

theorem SealedDispatches.tail {o : Observation} (h : SealedDispatches bp (o :: trace)) :
    SealedDispatches bp trace := by
  cases o with
  | dispatched => exact h.2
  | _ => exact h

theorem Reach.barrierInv (hwf : WellFormed bp) {m₀ : Machine} (hinit : Initial bp m₀)
    (h : Reach bp m₀ m) (hsld : SealedDispatches bp m.trace) : BarrierInv bp m := by
  induction h with
  | refl => exact hinit.barrierInv
  | @tail m m' hrch hmove ih =>
    have htail : SealedDispatches bp m.trace := by
      cases hmove with
      | emits | dispatches | plans | sends => exact hsld.tail
      | reloads => exact hsld
    exact (ih htail).move hwf (Reach.sound hrch hinit.sound) hmove hsld

/-! ### Testing for sealed edges -/

instance (bp : Blueprint) (status : String → NodeStatus) (node : String) (e : Edge) :
    Decidable (Repeats bp status node e) :=
  inferInstanceAs (Decidable (InBody bp node e.fromNode ∧ status e.fromNode = .running ∧
    e.fromPort ≠ "done"))

/-- A test for quiet nodes that follows the edges back to a depth. -/
def isQuiet (bp : Blueprint) (status : String → NodeStatus) (node : String) : Nat → String → Bool
  | 0, _ => false
  | depth + 1, u =>
    (bp.nodes.all fun nd => nd.id != u || nd.parent.all fun p =>
      decide (InBody bp node p) || isQuiet bp status node depth p) &&
    (status u = .completed || status u = .skipped && bp.edges.all fun e =>
      e.toNode != u || decide (Repeats bp status node e) ||
        isQuiet bp status node depth e.fromNode)

theorem quiet_of_isQuiet :
    ∀ {depth : Nat} {u : String}, isQuiet bp status node depth u = true →
      Quiet bp status node u := by
  intro depth
  induction depth with
  | zero => exact fun h => by cases h
  | succ depth ih =>
    intro u h
    simp only [isQuiet, Bool.and_eq_true, Bool.or_eq_true, all_eq_true, Option.all_eq_true,
      bne_iff_ne, decide_eq_true_eq] at h
    obtain ⟨hbody, hstat⟩ := h
    have hout : ∀ p, InBody bp u p → ¬InBody bp node p → Quiet bp status node p := by
      rintro p ⟨nd, hnd, hid, hp⟩ hnp
      exact ih (((hbody nd hnd).resolve_left fun hne => hne hid) p hp |>.resolve_left hnp)
    rcases hstat with hcompd | ⟨hskip, hin⟩
    · exact .completed hcompd hout
    · refine .skipped hskip hout fun e he hto hnot => ih ?_
      exact (hin e he).resolve_left fun h => h.elim (fun hne => hne hto) hnot

/-- A test for runs with sealed dispatches. -/
def hasSealedDispatches (bp : Blueprint) (depth : Nat) : List Observation → Bool
  | [] => true
  | .dispatched node s :: trace =>
    (bp.edges.zipIdx.all fun p => p.1.toNode != node || decide (p.2 ∈ s.deliveredTo node) ||
      decide (Repeats bp s.statusOrPending node p.1) ||
      isQuiet bp s.statusOrPending node depth p.1.fromNode) && hasSealedDispatches bp depth trace
  | .emitted _ _ _ :: trace | .planned _ :: trace | .sent _ :: trace =>
    hasSealedDispatches bp depth trace

theorem sealedDispatches_of_test {depth : Nat} :
    ∀ {trace : List Observation}, hasSealedDispatches bp depth trace = true →
      SealedDispatches bp trace := by
  intro trace
  induction trace with
  | nil => exact fun _ => trivial
  | cons o trace ih =>
    intro h
    cases o with
    | dispatched node s =>
      simp only [hasSealedDispatches, Bool.and_eq_true, all_eq_true, Bool.or_eq_true,
        bne_iff_ne, decide_eq_true_eq] at h
      refine ⟨fun i e he hto hnot hrpts => ?_, ih h.2⟩
      have htest := h.1 (e, i) (mem_zipIdx_iff_getElem?.2 he)
      rcases htest with ((hne | hd) | hr) | hq
      · exact absurd hto hne
      · exact absurd hd hnot
      · exact absurd hr hrpts
      · exact quiet_of_isQuiet hq
    | emitted | planned | sent => exact ih h

variable {ω : Type} {host : Host ω} {w : World ω}

/-- In every run with sealed dispatches, no token passes an edge into a node that has been
dispatched before. -/
theorem Run.barrier (hval : (validate bp).isValid = true) {r : Except EngineError RunState}
    (h : Run host bp r w) (hsld : SealedDispatches bp w.trace) : Barrier bp w.trace := by
  have hwf := wellFormed_of_isValid hval
  rcases h.reachable hval with hnil | ⟨m, ⟨m₀, hinit, hrch⟩, htr⟩
  · rw [hnil]
    trivial
  · rw [← htr] at hsld ⊢
    exact (Reach.barrierInv hwf hinit hrch hsld).barrier

/-! ### Runs of small blueprints -/

/-- A join of the two ports of a branch. -/
def joinAfterBranch : Blueprint where
  id := "branch"
  name := "branch"
  nodes := [
    { id := "start", type := "manual_trigger" },
    { id := "check", type := "branch", fields := [("condition", .string "trigger.output.payload")] },
    { id := "left", type := "join" },
    { id := "right", type := "join" },
    { id := "end", type := "join" } ]
  edges := [
    { fromNode := "start", toNode := "check" },
    { fromNode := "check", toNode := "left", fromPort := "on_true" },
    { fromNode := "check", toNode := "right", fromPort := "on_false" },
    { fromNode := "left", toNode := "end" },
    { fromNode := "right", toNode := "end" } ]

/-- A join of a trigger and of the loop that it starts. -/
def joinAfterLoop : Blueprint where
  id := "loop"
  name := "loop"
  nodes := [
    { id := "start", type := "manual_trigger" },
    { id := "loop", type := "loop" },
    { id := "join", type := "join" },
    { id := "step", type := "join", parent := some "loop" } ]
  edges := [
    { fromNode := "start", toNode := "loop" },
    { fromNode := "start", toNode := "join" },
    { fromNode := "loop", toNode := "join", fromPort := "done" },
    { fromNode := "loop", toNode := "step", fromPort := "body" } ]

/-- Behind a branch, a join waits for the one port and does not wait for the other, which is
sealed. -/
theorem barrier_joinAfterBranch :
    SealedDispatches joinAfterBranch (scriptedRun joinAfterBranch (.ok .null) (.bool true)).2.trace ∧
      Barrier joinAfterBranch (scriptedRun joinAfterBranch (.ok .null) (.bool true)).2.trace := by
  have htest : hasSealedDispatches joinAfterBranch 3
      (scriptedRun joinAfterBranch (.ok .null) (.bool true)).2.trace = true := by decide +kernel
  have hsld := sealedDispatches_of_test htest
  exact ⟨hsld, Run.barrier (by decide +kernel) (run_scriptedRun joinAfterBranch (.ok .null) (.bool true))
    hsld⟩

/-- A join behind a loop starts before the loop is done, and a token reaches it afterwards. -/
theorem barrier_broken : (validate joinAfterLoop).isValid = true ∧
    ∃ (host : Host (List Bool)) (r : Except EngineError RunState) (w : World (List Bool)),
      Run host joinAfterLoop r w ∧ ¬Barrier joinAfterLoop w.trace :=
  ⟨by decide +kernel, _, _, _, run_scriptedRun joinAfterLoop (.ok .null) .null, by decide +kernel⟩

end Wardian.Engine
