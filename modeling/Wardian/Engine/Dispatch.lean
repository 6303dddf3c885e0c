/-
How often a node is dispatched.

A dispatched node is pending, and the events of its dispatch leave it completed, failed, running or
skipped.  Two things make it pending again: an iteration of its loop, which clears the body, and a
token that reaches it while it is skipped.  The second is meant for the nodes that the cascade has
skipped provisionally, but the executor skips nodes too, and such a node has been dispatched.  As
long as no token reaches a node that was dispatched and then skipped, a node outside the bodies is
dispatched at most once, and a body node at most once for each iteration of its loop.

Main results:

* `Engine.Run.atMostOnce` — runs that revive no node dispatch at most once;
* `Engine.revived_dispatched_twice` — a run that revives a node dispatches it twice.
-/

import Wardian.Engine.Runs

set_option autoImplicit false

namespace Wardian.Engine

open List
open Automation (Blueprint Node IsLoop InBody WellFormed validate wellFormed_of_isValid)

/-! ### Counting -/

/-- Whether an observation is a dispatch of this node. -/
def isDispatchOf (node : String) : Observation → Bool
  | .dispatched v _ => v == node
  | _ => false

/-- Whether an observation is an iteration of this loop. -/
def isIterationOf (loopId : String) : Observation → Bool
  | .emitted _ (.loopIteration v _) _ => v == loopId
  | _ => false

/-- How often a node has been dispatched. -/
def dispatchCount (node : String) (trace : List Observation) : Nat :=
  trace.countP (isDispatchOf node)

/-- How many iterations of a loop have begun. -/
def iterationCount (loopId : String) (trace : List Observation) : Nat :=
  trace.countP (isIterationOf loopId)

/-- Outside the bodies a node is dispatched at most once, and in a body at most once for each
iteration of the loop. -/
structure AtMostOnce (bp : Blueprint) (trace : List Observation) : Prop where
  outside : ∀ node, (∀ p, ¬InBody bp node p) → dispatchCount node trace ≤ 1
  inside : ∀ node p, InBody bp node p → dispatchCount node trace ≤ iterationCount p trace

/-! ### Revivals -/

/-- The node has been dispatched since it was last cleared. -/
def DispatchedSince (bp : Blueprint) (node : String) : List Observation → Prop
  | [] => False
  | .dispatched v _ :: trace => v = node ∨ DispatchedSince bp node trace
  | .emitted _ kind _ :: trace => ¬kind.Clears bp node ∧ DispatchedSince bp node trace
  | .planned _ :: trace | .sent _ :: trace => DispatchedSince bp node trace

instance DispatchedSince.decidable (bp : Blueprint) (node : String) :
    ∀ trace, Decidable (DispatchedSince bp node trace)
  | [] => inferInstanceAs (Decidable False)
  | .dispatched v _ :: trace =>
    have := DispatchedSince.decidable bp node trace
    inferInstanceAs (Decidable (v = node ∨ DispatchedSince bp node trace))
  | .emitted _ kind _ :: trace =>
    have := DispatchedSince.decidable bp node trace
    inferInstanceAs (Decidable (¬kind.Clears bp node ∧ DispatchedSince bp node trace))
  | .planned _ :: trace | .sent _ :: trace => DispatchedSince.decidable bp node trace

/-- In state `s`, after `trace`, the event gives a token to a node that was dispatched and then
skipped. -/
def Revives (bp : Blueprint) (trace : List Observation) (s : RunState) (kind : EventKind) : Prop :=
  ∃ e ∈ bp.edges, kind.pulses bp = some (e.fromNode, e.fromPort) ∧
    s.statusOrPending e.toNode = .skipped ∧ DispatchedSince bp e.toNode trace

instance (bp : Blueprint) (trace : List Observation) (s : RunState) (kind : EventKind) :
    Decidable (Revives bp trace s kind) :=
  inferInstanceAs (Decidable (∃ e ∈ bp.edges, kind.pulses bp = some (e.fromNode, e.fromPort) ∧
    s.statusOrPending e.toNode = .skipped ∧ DispatchedSince bp e.toNode trace))

/-- No event of the run revives a node. -/
def NoRevival (bp : Blueprint) : List Observation → Prop
  | [] => True
  | .emitted s kind _ :: trace => ¬Revives bp trace s kind ∧ NoRevival bp trace
  | .dispatched _ _ :: trace | .planned _ :: trace | .sent _ :: trace => NoRevival bp trace

instance NoRevival.decidable (bp : Blueprint) : ∀ trace, Decidable (NoRevival bp trace)
  | [] => inferInstanceAs (Decidable True)
  | .emitted s kind _ :: trace =>
    have := NoRevival.decidable bp trace
    inferInstanceAs (Decidable (¬Revives bp trace s kind ∧ NoRevival bp trace))
  | .dispatched _ _ :: trace | .planned _ :: trace | .sent _ :: trace =>
    NoRevival.decidable bp trace

/-! ### Orderly runs -/

/-- The loop has been entered. -/
def EnteredLoop (p : String) (trace : List Observation) : Prop :=
  ∃ s s', .emitted s (.loopIteration p 0) s' ∈ trace

theorem EnteredLoop.cons {p : String} {trace : List Observation} (h : EnteredLoop p trace)
    (o : Observation) : EnteredLoop p (o :: trace) := by
  obtain ⟨s, s', hmem⟩ := h
  exact ⟨s, s', mem_cons_of_mem _ hmem⟩

/-- Each dispatch is the first since the node was last cleared; a body waits for its loop to be
entered, and so do the later iterations of the loop. -/
def Orderly (bp : Blueprint) : List Observation → Prop
  | [] => True
  | .dispatched v _ :: trace =>
    (¬DispatchedSince bp v trace ∧ ∀ p, InBody bp v p → EnteredLoop p trace) ∧ Orderly bp trace
  | .emitted _ kind _ :: trace =>
    (∀ p, kind.resets = some p → EnteredLoop p trace) ∧ Orderly bp trace
  | _ :: trace => Orderly bp trace

variable {bp : Blueprint} {m m' : Machine} {node p : String} {trace : List Observation}

theorem not_clears_of_outside {kind : EventKind} (h : ∀ p, ¬InBody bp node p) :
    ¬kind.Clears bp node := fun ⟨p, _, hp⟩ => h p hp

theorem dispatchCount_outside (houts : ∀ p, ¬InBody bp node p) :
    ∀ {trace : List Observation}, Orderly bp trace →
      dispatchCount node trace ≤ 1 ∧
      (¬DispatchedSince bp node trace → dispatchCount node trace = 0) := by
  intro trace
  induction trace with
  | nil => exact fun _ => ⟨Nat.zero_le _, fun _ => rfl⟩
  | cons o trace ih =>
    intro h
    cases o with
    | dispatched v s =>
      obtain ⟨⟨hfrs, -⟩, htr⟩ := h
      obtain ⟨hle, hzero⟩ := ih htr
      by_cases hv : v = node
      · subst hv
        refine ⟨?_, fun hn => absurd (.inl rfl) hn⟩
        simp only [dispatchCount, countP_cons, isDispatchOf, beq_self_eq_true, if_true]
        exact Nat.le_of_eq (congrArg (· + 1) (hzero hfrs))
      · have hcnt : dispatchCount node (.dispatched v s :: trace) =
            dispatchCount node trace := by
          simp [dispatchCount, isDispatchOf, hv]
        rw [hcnt]
        exact ⟨hle, fun hn => hzero fun hs => hn (.inr hs)⟩
    | emitted s kind s' =>
      obtain ⟨hle, hzero⟩ := ih h.2
      exact ⟨hle, fun hn => hzero fun hs => hn ⟨not_clears_of_outside houts, hs⟩⟩
    | planned s | sent req => exact ih h

/-- A body node is dispatched at most once for each iteration of its loop. -/
theorem dispatchCount_inside (hwf : WellFormed bp) (hbody : InBody bp node p) :
    ∀ {trace : List Observation}, Orderly bp trace →
      (¬EnteredLoop p trace → dispatchCount node trace = 0) ∧
      (EnteredLoop p trace → dispatchCount node trace ≤ iterationCount p trace ∧
        (¬DispatchedSince bp node trace →
          dispatchCount node trace + 1 ≤ iterationCount p trace)) := by
  intro trace
  induction trace with
  | nil => exact fun _ => ⟨fun _ => rfl, fun ⟨_, _, h⟩ => absurd h (not_mem_nil)⟩
  | cons o trace ih =>
    intro h
    cases o with
    | dispatched v s =>
      obtain ⟨⟨hfrs, hente⟩, htr⟩ := h
      obtain ⟨hzero, hsome⟩ := ih htr
      have hiff : EnteredLoop p (.dispatched v s :: trace) ↔ EnteredLoop p trace := by
        simp [EnteredLoop]
      rw [hiff]
      by_cases hv : v = node
      · subst hv
        have hp := hente p hbody
        have hcnt : dispatchCount v (.dispatched v s :: trace) =
            dispatchCount v trace + 1 := by simp [dispatchCount, isDispatchOf]
        rw [hcnt]
        exact ⟨fun hn => absurd hp hn,
          fun _ => ⟨(hsome hp).2 hfrs, fun hn => absurd (.inl rfl) hn⟩⟩
      · have hcnt : dispatchCount node (.dispatched v s :: trace) =
            dispatchCount node trace := by
          simp [dispatchCount, isDispatchOf, hv]
        rw [hcnt]
        exact ⟨hzero, fun hp => ⟨(hsome hp).1, fun hn => (hsome hp).2 fun hs => hn (.inr hs)⟩⟩
    | emitted s kind s' =>
      obtain ⟨hearl, htr⟩ := h
      obtain ⟨hzero, hsome⟩ := ih htr
      have hcnt : dispatchCount node (.emitted s kind s' :: trace) =
          dispatchCount node trace := rfl
      rw [hcnt]
      by_cases hiter : ∃ k, kind = .loopIteration p k
      · obtain ⟨k, rfl⟩ := hiter
        have hcnt' : iterationCount p (.emitted s (.loopIteration p k) s' :: trace) =
            iterationCount p trace + 1 := by simp [iterationCount, isIterationOf]
        have hle : dispatchCount node trace ≤ iterationCount p trace := by
          by_cases hp : EnteredLoop p trace
          · exact (hsome hp).1
          · rw [hzero hp]
            exact Nat.zero_le _
        rw [hcnt']
        refine ⟨fun hn => hzero fun hp => hn (hp.cons _), fun _ => ⟨?_, fun _ => ?_⟩⟩
        · exact Nat.le_succ_of_le hle
        · exact Nat.succ_le_succ hle
      · have hcnt' : iterationCount p (.emitted s kind s' :: trace) =
            iterationCount p trace := by
          have : isIterationOf p (.emitted s kind s') = false := by
            cases kind with
            | loopIteration v k =>
              simp only [isIterationOf, beq_eq_false_iff_ne]
              exact fun hv => hiter ⟨k, by rw [hv]⟩
            | _ => rfl
          simp [iterationCount, this]
        have hiff : EnteredLoop p (.emitted s kind s' :: trace) ↔ EnteredLoop p trace := by
          constructor
          · rintro ⟨s₁, s₂, hmem⟩
            rcases mem_cons.1 hmem with heq | hmem
            · cases heq
              exact absurd ⟨0, rfl⟩ hiter
            · exact ⟨s₁, s₂, hmem⟩
          · exact fun hp => hp.cons _
        have hkeep : ¬kind.Clears bp node := by
          rintro ⟨q, hq, hinq⟩
          obtain rfl := hwf.inBody_unique hinq hbody
          cases kind with
          | loopIteration v k =>
            simp only [EventKind.resets] at hq
            split at hq
            · cases hq
            · cases hq
              exact hiter ⟨k, rfl⟩
          | _ => cases hq
        rw [hcnt', hiff]
        exact ⟨hzero, fun hp => ⟨(hsome hp).1, fun hn => (hsome hp).2 fun hs => hn ⟨hkeep, hs⟩⟩⟩
    | planned s =>
      have hiff : EnteredLoop p (.planned s :: trace) ↔ EnteredLoop p trace := by
        simp [EnteredLoop]
      rw [hiff]
      exact ih h
    | sent req =>
      have hiff : EnteredLoop p (.sent req :: trace) ↔ EnteredLoop p trace := by
        simp [EnteredLoop]
      rw [hiff]
      exact ih h

theorem Orderly.counted (hwf : WellFormed bp) (h : Orderly bp trace) : AtMostOnce bp trace := by
  refine ⟨fun node houts => (dispatchCount_outside houts h).1, fun node p hbody => ?_⟩
  obtain ⟨hzero, hsome⟩ := dispatchCount_inside hwf hbody h
  by_cases hp : EnteredLoop p trace
  · exact (hsome hp).1
  · rw [hzero hp]
    exact Nat.zero_le _

/-! ### Runs that revive no node are orderly -/

/-- How the dispatches of a run agree with its phase and its statuses. -/
structure DispatchInv (bp : Blueprint) (m : Machine) : Prop where
  orderly : Orderly bp m.trace
  /-- A node at work has been dispatched. -/
  active : ∀ n, m.phase = .opening n ∨ m.phase = .working n ∨ m.phase = .parked n →
    DispatchedSince bp n m.trace
  /-- A dispatched node is pending only until its first event. -/
  spent : ∀ n, DispatchedSince bp n m.trace → m.state.statusOrPending n = .pending →
    m.phase = .opening n
  /-- A running loop has been entered. -/
  entered : ∀ n, IsLoop bp n → m.state.statusOrPending n = .running → EnteredLoop n m.trace
  /-- The body of a loop has tokens only after the loop has been entered. -/
  fed : ∀ n p, InBody bp n p → ∀ i, Enters bp i n → i ∈ m.state.deliveredTo n →
    EnteredLoop p m.trace
  body : ∀ n p, InBody bp n p → DispatchedSince bp n m.trace → EnteredLoop p m.trace

theorem Initial.dispatchInv (h : Initial bp m) : DispatchInv bp m := by
  obtain ⟨s₀, kind, htr, hstart⟩ := h.trace
  have hmark := h.marking
  have hstat : ∀ n, m.state.statusOrPending n = .pending := by
    intro n
    rw [← status_marking bp, hmark]
  have hdeld : ∀ n i, Enters bp i n → i ∉ m.state.deliveredTo n := by
    intro n i hi hmem
    rw [← mem_delivered_marking hi, hmark] at hmem
    exact hmem
  have hsince : ∀ n, ¬DispatchedSince bp n m.trace := by
    intro n hn
    rw [htr] at hn
    exact hn.2
  refine ⟨?_, ?_, ?_, ?_, ?_, ?_⟩
  · rw [htr]
    refine ⟨fun p hp => ?_, trivial⟩
    cases kind with
    | runStarted => cases hp
    | _ => cases hstart
  · intro n hn
    rw [h.phase] at hn
    rcases hn with hn | hn | hn <;> cases hn
  · exact fun n hn => absurd hn (hsince n)
  · intro n _ hn
    rw [hstat] at hn
    cases hn
  · exact fun n p _ i hi hmem => absurd hmem (hdeld n i hi)
  · exact fun n p _ hn => absurd hn (hsince n)

theorem DispatchInv.emits (hwf : WellFormed bp) {s s' : RunState} {phase phase' : Phase} {kind : EventKind}
    {ts : String} (h : DispatchInv bp ⟨s, phase, trace⟩) (hsnd : PhaseSound bp s trace phase)
    (hleg : Legal bp s phase kind phase') (happ : apply bp s ⟨s.nextSeq, ts, kind⟩ = .ok s')
    (hrevi : ¬Revives bp trace s kind) : DispatchInv bp ⟨s', phase', .emitted s kind s' :: trace⟩ := by
  have hstat : ∀ v, s'.statusOrPending v = (effect bp (marking bp s) kind).status v :=
    statusOrPending_apply happ
  have hrsts : ∀ p, kind.resets = some p → IsLoop bp p ∧ s.statusOrPending p = .running :=
    fun p => hleg.resets_running
  refine ⟨⟨fun p hp => h.entered p (hrsts p hp).1 (hrsts p hp).2, h.orderly⟩, ?_, ?_, ?_, ?_,
    fun n p hbody hn => (h.body n p hbody hn.2).cons _⟩
  · -- the node at work stays the same
    intro n hn
    have hclrs : ∀ n, kind.resets = none → ¬kind.Clears bp n := by
      rintro n hnone ⟨p, hp, -⟩
      rw [hnone] at hp
      cases hp
    cases hleg with
    | starts hloop | parks hgate =>
      refine ⟨hclrs n rfl, h.active n ?_⟩
      simpa using hn
    | updates op entries | notifies message => exact ⟨hclrs n rfl, h.active n hn⟩
    | _ => rcases hn with hn | hn | hn <;> cases hn
  · -- a dispatched node does not become pending
    rintro n ⟨hkeep, hsince⟩ hpend
    rw [hstat] at hpend
    by_cases hact : kind.actor = some n
    · refine absurd hpend (status_actor hact fun p hp => ?_)
      obtain rfl : p = n := by simpa [EventKind.actor_of_resets hp] using hact
      obtain ⟨hloop, hrunn⟩ := hrsts p hp
      rw [status_marking, hrunn]
      exact ⟨by decide, by decide, hwf.not_inBody_of_isLoop hloop⟩
    · rcases status_effect (m := marking bp s) hact fun p hp hb => hkeep ⟨p, hp, hb⟩ with
        heq | ⟨hskip, -, v, port, i, hp, hl, he⟩
      · obtain rfl : phase = .opening n := h.spent n hsince (heq.symm.trans hpend)
        exact absurd hleg.actor_of_opening hact
      · obtain ⟨e, hedge, rfl, rfl⟩ := hl
        obtain ⟨e', hedge', rfl⟩ := he
        obtain rfl : e = e' := Option.some.inj (hedge.symm.trans hedge')
        exact absurd ⟨e, mem_of_getElem? hedge, hp, hskip, hsince⟩ hrevi
  · -- a loop that begins to run is entered
    intro n hloop hrunn
    by_cases hold : s.statusOrPending n = .running
    · exact (h.entered n hloop hold).cons _
    rw [hstat] at hrunn
    by_cases hact : kind.actor = some n
    · rcases hleg.enters_of_running hsnd hloop hact hrunn with rfl | hrun
      · exact ⟨s, s', mem_cons_self⟩
      · exact absurd hrun hold
    · rcases status_effect (m := marking bp s) hact
        (fun p _ => hwf.not_inBody_of_isLoop hloop) with heq | ⟨-, hpend, -⟩
      · exact absurd (heq.symm.trans hrunn) hold
      · rw [hpend] at hrunn
        cases hrunn
  · -- a token on an edge into a body comes from the loop or from the body
    intro n p hbody i hi hmem
    by_cases hold : i ∈ s.deliveredTo n
    · exact (h.fed n p hbody i hi hold).cons _
    rw [← mem_delivered_marking hi, marking_apply happ] at hmem
    obtain ⟨v, port, hpuls, e, he, rfl, -⟩ := (delivered_effect hmem).resolve_left
      fun hd => hold ((mem_delivered_marking hi).1 hd)
    obtain ⟨e', he', rfl⟩ := hi
    obtain rfl : e = e' := Option.some.inj (he.symm.trans he')
    have hmem := mem_of_getElem? he
    rcases hleg.pulses_origin hsnd hpuls with ⟨hwork, hntrs⟩ | ⟨hloop, hrunn⟩
    · rcases hwf.body_input e hmem p hbody with hfrom | hfrom
      · rw [hntrs (hfrom.symm ▸ hwf.isLoop_of_inBody hbody), hfrom]
        exact ⟨s, s', mem_cons_self⟩
      · exact (h.body _ p hfrom (h.active _ hwork)).cons _
    · rcases hwf.body_input e hmem p hbody with hfrom | hfrom
      · exact (h.entered p (hfrom ▸ hloop) (hfrom ▸ hrunn)).cons _
      · exact absurd hfrom (hwf.not_inBody_of_isLoop hloop)

theorem DispatchInv.move (hwf : WellFormed bp) (h : DispatchInv bp m)
    (hsnd : PhaseSound bp m.state m.trace m.phase) (hmove : Move bp m m')
    (hfree : NoRevival bp m'.trace) : DispatchInv bp m' := by
  cases hmove with
  | emits hleg happ => exact h.emits hwf hsnd hleg happ hfree.1
  | plans | sends =>
    exact ⟨h.orderly, h.active, h.spent, fun n hl hr => (h.entered n hl hr).cons _,
      fun n p hb i hi hd => (h.fed n p hb i hi hd).cons _,
      fun n p hb hn => (h.body n p hb hn).cons _⟩
  | reloads => exact ⟨h.orderly, h.active, h.spent, h.entered, h.fed, h.body⟩
  | @dispatches s trace v nd hnode hrdy =>
    have hfrs : ¬DispatchedSince bp v trace := by
      intro hsince
      have := h.spent v hsince hrdy.pending
      cases this
    have hbody : ∀ p, InBody bp v p → EnteredLoop p trace := by
      intro p hp
      obtain ⟨e, he, hto⟩ := hwf.body_reached v p hp
      obtain ⟨i, hi⟩ := mem_iff_getElem?.1 he
      obtain ⟨j, hj, hd⟩ := hrdy.token ⟨i, e, hi, hto⟩
      exact h.fed v p hp j hj hd
    refine ⟨⟨⟨hfrs, hbody⟩, h.orderly⟩, ?_, ?_, ?_, ?_, ?_⟩
    · intro n hn
      left
      simpa using hn
    · rintro n (rfl | hn) hpend
      · rfl
      · have := h.spent n hn hpend
        cases this
    · exact fun n hloop hrunn => (h.entered n hloop hrunn).cons _
    · exact fun n p hb i hi hd => (h.fed n p hb i hi hd).cons _
    · rintro n p hb (rfl | hn)
      · exact (hbody p hb).cons _
      · exact (h.body n p hb hn).cons _

theorem NoRevival.tail {o : Observation} (h : NoRevival bp (o :: trace)) : NoRevival bp trace := by
  cases o with
  | emitted => exact h.2
  | _ => exact h

theorem Reach.dispatchInv (hwf : WellFormed bp) {m₀ : Machine} (hinit : Initial bp m₀)
    (h : Reach bp m₀ m) (hfree : NoRevival bp m.trace) : DispatchInv bp m := by
  induction h with
  | refl => exact hinit.dispatchInv
  | @tail m m' hrch hmove ih =>
    have htail : NoRevival bp m.trace := by
      cases hmove with
      | emits | dispatches | plans | sends => exact hfree.tail
      | reloads => exact hfree
    exact (ih htail).move hwf (Reach.sound hrch hinit.sound) hmove hfree

variable {ω : Type} {host : Host ω} {w : World ω}

/-- In every run that revives no node, a node outside the bodies is dispatched at most once, and a
body node at most once for each iteration of its loop. -/
theorem Run.atMostOnce (hval : (validate bp).isValid = true) {r : Except EngineError RunState}
    (h : Run host bp r w) (hfree : NoRevival bp w.trace) : AtMostOnce bp w.trace := by
  have hwf := wellFormed_of_isValid hval
  rcases h.reachable hval with hnil | ⟨m, ⟨m₀, hinit, hrch⟩, htr⟩
  · rw [hnil]
    exact ⟨fun _ _ => Nat.zero_le _, fun _ _ _ => Nat.zero_le _⟩
  · rw [← htr] at hfree ⊢
    exact (hrch.dispatchInv hwf hinit hfree).orderly.counted hwf

/-! ### Runs of a small blueprint -/

/-- A shell that runs beside a loop, and again when the loop is done. -/
def besideLoop : Blueprint where
  id := "beside"
  name := "beside"
  nodes := [
    { id := "start", type := "manual_trigger" },
    { id := "loop", type := "loop", fields := [("max_iterations", .number (.posInt 2))] },
    { id := "shell", type := "shell", fields := [("command", .string "make")] },
    { id := "step", type := "join", parent := some "loop" } ]
  edges := [
    { fromNode := "start", toNode := "loop" },
    { fromNode := "start", toNode := "shell" },
    { fromNode := "loop", toNode := "shell", fromPort := "done" },
    { fromNode := "loop", toNode := "step", fromPort := "body" } ]

/-- A run that revives no node: the executor completes the shell. -/
theorem run_atMostOnce_beside : NoRevival besideLoop (scriptedRun besideLoop (.ok .null) .null).2.trace ∧
    AtMostOnce besideLoop (scriptedRun besideLoop (.ok .null) .null).2.trace := by
  have hval : (validate besideLoop).isValid = true := by decide
  have hfree : NoRevival besideLoop (scriptedRun besideLoop (.ok .null) .null).2.trace := by decide +kernel
  exact ⟨hfree, Run.atMostOnce hval (run_scriptedRun besideLoop (.ok .null) .null) hfree⟩

/-- A run that revives a node dispatches it twice: the executor skips the shell, and the end of the
loop makes it pending again. -/
theorem revived_dispatched_twice :
    (validate besideLoop).isValid = true ∧
      ∃ (host : Host (List Bool)) (r : Except EngineError RunState) (w : World (List Bool)),
        Run host besideLoop r w ∧ ¬AtMostOnce besideLoop w.trace := by
  refine ⟨by decide, _, _, _, run_scriptedRun besideLoop (.error ⟨skippedPrefix⟩) .null, fun h => ?_⟩
  have houts : ∀ p, ¬InBody besideLoop "shell" p := by
    rintro p ⟨nd, hnd, hid, hp⟩
    simp only [besideLoop, mem_cons, not_mem_nil, or_false] at hnd
    rcases hnd with rfl | rfl | rfl | rfl <;> simp at hid hp
  have htwice : dispatchCount "shell" (scriptedRun besideLoop (.error ⟨skippedPrefix⟩) .null).2.trace = 2 := by
    decide +kernel
  have hle := h.outside "shell" houts
  omega

end Wardian.Engine
