/-
When a run is left running.

Between two passes the nodes that run are loops, and what has ended has settled its edges.  So in a
state where nothing can run, a pending node of the smallest rank in a body has all its inbound edges
settled, and is then runnable or unreachable.  A run in which nothing can run and a loop is open is
therefore one whose body has ended: had it ended before the pass, the pass would have advanced the
loop, and so the cascade of the same pass has ended it.

Main results:

* `Engine.stuck_iff_strands` — a pass of a run is stuck exactly when it strands a loop;
* `Engine.left_running` — a run that is left running.
-/

import Wardian.Engine.Runs

set_option autoImplicit false

namespace Wardian.Engine

open Bool
open List
open Automation (Blueprint Node IsLoop InBody WellFormed validate wellFormed_of_isValid)

variable {bp : Blueprint} {m : Marking} {n v port p : String}

/-! ### Settled edges -/

/-- The edges out of a node hold a token or are skipped. -/
def Resolved (bp : Blueprint) (m : Marking) (n : String) : Prop :=
  ∀ i, Leaves bp i n → i ∈ m.delivered ∨ i ∈ m.skipped

theorem resolved_pulse_self : Resolved bp (m.pulse bp n port) n := by
  intro i hi
  by_cases hport : LeavesPort bp i n port
  · exact .inl (Marking.mem_delivered_pulse.2 (.inr hport))
  · exact .inr (Marking.mem_skipped_pulse.2 (.inr ⟨hi, hport⟩))

theorem resolved_skip_self : Resolved bp (m.skip bp n) n :=
  fun _ hi => .inr (Marking.mem_skipped_skip.2 (.inr hi))

theorem Resolved.pulse (h : Resolved bp m n) : Resolved bp (m.pulse bp v port) n := by
  by_cases hv : v = n
  · subst hv
    exact resolved_pulse_self
  · intro i hi
    rcases h i hi with hd | hs
    · exact .inl (Marking.mem_delivered_pulse.2 (.inl hd))
    · exact .inr (Marking.mem_skipped_pulse.2 (.inl ⟨hs, fun hv' => hv (hv'.unique hi)⟩))

theorem Resolved.skip (h : Resolved bp m n) : Resolved bp (m.skip bp v) n := by
  intro i hi
  rcases h i hi with hd | hs
  · exact .inl hd
  · exact .inr (Marking.mem_skipped_skip.2 (.inl hs))

/-- Clearing a body leaves the edges alone that do not enter it. -/
theorem Resolved.reset (h : Resolved bp m n)
    (hout : ∀ i, Leaves bp i n → ∀ b, InBody bp b p → ¬Enters bp i b) :
    Resolved bp (m.reset bp p) n := by
  intro i hi
  rcases h i hi with hd | hs
  · exact .inl (Marking.mem_delivered_reset.2 ⟨hd, hout i hi⟩)
  · refine .inr (Marking.mem_skipped_reset.2 ⟨hs, ?_⟩)
    obtain ⟨e, he, rfl⟩ := hi
    simp only [isBodyEdge, he, and_eq_false_iff]
    left
    rw [eq_false_iff]
    intro hto
    exact hout i ⟨e, he, rfl⟩ e.toNode (mem_bodyNodes_iff.1 (contains_iff_mem.1 hto))
      ⟨e, he, rfl⟩

/-- An event leaves the edges out of a node settled, unless it clears the node. -/
theorem Resolved.effect (hwf : WellFormed bp) {kind : EventKind}
    (hclear : ∀ p, kind.resets = some p → ¬InBody bp n p) (h : Resolved bp m n) :
    Resolved bp (effect bp m kind) n := by
  have hmark : ∀ {v : String} {st : NodeStatus}, Resolved bp (m.mark v st) n := fun i hi => h i hi
  cases kind with
  | nodeCompleted v output =>
    simp only [Engine.effect]
    split
    · exact hmark
    · exact hmark.pulse
  | decisionCompleted | branchTaken | decisionMade | loopCompleted | approvalGranted =>
    exact hmark.pulse
  | nodeSkipped => exact h.skip
  | loopIteration v iteration =>
    simp only [Engine.effect]
    split
    · exact hmark.pulse
    · rename_i hne
      by_cases hv : v = n
      · subst hv
        exact resolved_pulse_self
      · refine Resolved.pulse (h.reset fun i hi b hb hto => ?_)
        obtain ⟨e, he, rfl⟩ := hi
        obtain ⟨e', he', rfl⟩ := hto
        obtain rfl : e = e' := Option.some.inj (he.symm.trans he')
        rcases hwf.body_input e (mem_of_getElem? he) v hb with hfrom | hfrom
        · exact hv hfrom.symm
        · exact hclear v (by simp [EventKind.resets, hne]) hfrom
  | _ => exact h

/-! ### What has ended -/

/-- A node has ended, or it is a loop that has been entered. -/
def Settled (bp : Blueprint) (m : Marking) (n : String) : Prop :=
  m.status n = .completed ∨ m.status n = .skipped ∨ (m.status n = .running ∧ IsLoop bp n)

/-- What has ended has settled its edges; what runs is a loop or at work; what fails ends the
run. -/
structure FlowInv (bp : Blueprint) (s : RunState) (phase : Phase) : Prop where
  resolved : ∀ n, Settled bp (marking bp s) n → Resolved bp (marking bp s) n
  running : ∀ n, s.statusOrPending n = .running →
    IsLoop bp n ∨ phase = .working n ∨ phase = .parked n
  failed : ∀ n, s.statusOrPending n = .failed → phase = .ended

variable {kind : EventKind}

theorem Legal.actor_left {s : RunState} {phase phase' : Phase} {trace : List Observation}
    (hwf : WellFormed bp) (hsnd : PhaseSound bp s trace phase)
    (hleg : Legal bp s phase kind phase') (hact : kind.actor = some n) :
    ((effect bp (marking bp s) kind).status n = .failed ∧ phase' = .ended) ∨
      ((effect bp (marking bp s) kind).status n = .running ∧ ¬IsLoop bp n ∧
        (phase' = .working n ∨ phase' = .parked n)) ∨
      ((effect bp (marking bp s) kind).status n = .running ∧ IsLoop bp n ∧
        Resolved bp (effect bp (marking bp s) kind) n) ∨
      (((effect bp (marking bp s) kind).status n = .completed ∨
        (effect bp (marking bp s) kind).status n = .skipped) ∧
        Resolved bp (effect bp (marking bp s) kind) n) := by
  have hpulse : ∀ {st : NodeStatus} {port : String}, st ≠ .skipped →
      (((marking bp s).mark n st).pulse bp n port).status n = st := by
    intro st port hst
    have hself : ((marking bp s).mark n st).status n = st := by simp
    rw [Marking.status_pulse_of_ne (hself.symm ▸ hst), hself]
  cases hleg with
  | prepares | updates | notifies | completes | aborts => cases hact
  | passes output hloop hdec | finishes output hdec =>
    cases hact
    simp only [Engine.effect, hdec, false_eq_true, if_false]
    exact .inr (.inr (.inr ⟨.inl (hpulse (by decide)), resolved_pulse_self⟩))
  | branches | decides | closes | grants =>
    cases hact
    exact .inr (.inr (.inr ⟨.inl (hpulse (by decide)), resolved_pulse_self⟩))
  | starts hloop =>
    cases hact
    exact .inr (.inl ⟨by simp [Engine.effect], hloop, .inl rfl⟩)
  | parks hgate =>
    cases hact
    exact .inr (.inl ⟨by simp [Engine.effect], not_isLoop_of_isApproval hgate, .inr rfl⟩)
  | enters hloop =>
    cases hact
    exact .inr (.inr (.inl ⟨hpulse (by decide), hloop, resolved_pulse_self⟩))
  | iterates hloop hrunn hnext =>
    cases hact
    refine .inr (.inr (.inl ⟨?_, hloop, ?_⟩))
    · have hself : ((marking bp s).reset bp n).status n = .running :=
        (Marking.status_reset_of_not_inBody (hwf.not_inBody_of_isLoop hloop)).trans hrunn
      simp only [Engine.effect, if_neg hnext]
      rw [Marking.status_pulse_of_ne (by rw [hself]; decide), hself]
    · simp only [Engine.effect, if_neg hnext]
      exact resolved_pulse_self
  | skips | cascades =>
    cases hact
    exact .inr (.inr (.inr ⟨.inr (by simp [Engine.effect]), resolved_skip_self⟩))
  | refuses | fails =>
    cases hact
    exact .inl ⟨by simp [Engine.effect], rfl⟩

theorem Legal.phase_of_work {s : RunState} {phase phase' : Phase} (hleg : Legal bp s phase kind phase')
    (hwork : phase = .working n ∨ phase = .parked n) : kind.actor = some n ∨ phase' = phase := by
  rcases hwork with rfl | rfl <;> cases hleg <;> first | exact .inl rfl | exact .inr rfl

theorem FlowInv.emits (hwf : WellFormed bp) {s s' : RunState} {phase phase' : Phase}
    {trace : List Observation} {kind : EventKind} {ts : String} (h : FlowInv bp s phase)
    (hsnd : PhaseSound bp s trace phase) (hleg : Legal bp s phase kind phase')
    (happ : apply bp s ⟨s.nextSeq, ts, kind⟩ = .ok s') : FlowInv bp s' phase' := by
  have hmrkg : marking bp s' = effect bp (marking bp s) kind := marking_apply happ
  have hstat : ∀ n, s'.statusOrPending n = (effect bp (marking bp s) kind).status n :=
    statusOrPending_apply happ
  -- a node is the actor, or it is pending now, or its status is the old one and it is not cleared
  have hcs : ∀ n, kind.actor = some n ∨ s'.statusOrPending n = .pending ∨
      (kind.actor ≠ some n ∧ s'.statusOrPending n = s.statusOrPending n ∧
        ∀ p, kind.resets = some p → ¬InBody bp n p) := by
    intro n
    by_cases hact : kind.actor = some n
    · exact .inl hact
    by_cases hclear : ∃ p, kind.resets = some p ∧ InBody bp n p
    · obtain ⟨p, hp, hbody⟩ := hclear
      exact .inr (.inl ((hstat n).trans (status_cleared hp hbody)))
    · have hkeep : ∀ p, kind.resets = some p → ¬InBody bp n p :=
        fun p hp hb => hclear ⟨p, hp, hb⟩
      rcases status_effect (m := marking bp s) hact hkeep with heq | ⟨-, hpend, -⟩
      · exact .inr (.inr ⟨hact, (hstat n).trans heq, hkeep⟩)
      · exact .inr (.inl ((hstat n).trans hpend))
  refine ⟨fun n hn => ?_, fun n hn => ?_, fun n hn => ?_⟩
  · rw [hmrkg] at hn ⊢
    rcases hcs n with hact | hpend | ⟨-, heq, hkeep⟩
    · rcases hleg.actor_left hwf hsnd hact with ⟨hf, -⟩ | ⟨hr, hloop, -⟩ | ⟨-, -, h⟩ | ⟨-, h⟩
      · rcases hn with hn | hn | ⟨hn, -⟩ <;> exact absurd (hf.symm.trans hn) (by decide)
      · rcases hn with hn | hn | ⟨-, hn⟩
        · exact absurd (hr.symm.trans hn) (by decide)
        · exact absurd (hr.symm.trans hn) (by decide)
        · exact absurd hn hloop
      · exact h
      · exact h
    · rw [hstat] at hpend
      rcases hn with hn | hn | ⟨hn, -⟩ <;> exact absurd (hpend.symm.trans hn) (by decide)
    · refine Resolved.effect hwf hkeep (h.resolved n ?_)
      rw [hstat] at heq
      unfold Settled at hn ⊢
      rwa [heq] at hn
  · rcases hcs n with hact | hpend | ⟨hact, heq, -⟩
    · rw [hstat] at hn
      rcases hleg.actor_left hwf hsnd hact with ⟨hf, -⟩ | ⟨-, -, h⟩ | ⟨-, h, -⟩ | ⟨h | h, -⟩
      · exact absurd (hf.symm.trans hn) (by decide)
      · exact .inr h
      · exact .inl h
      · exact absurd (h.symm.trans hn) (by decide)
      · exact absurd (h.symm.trans hn) (by decide)
    · exact absurd (hpend.symm.trans hn) (by decide)
    · refine (h.running n (heq.symm.trans hn)).imp_right fun hwork => ?_
      rw [(hleg.phase_of_work hwork).resolve_left hact]
      exact hwork
  · rcases hcs n with hact | hpend | ⟨hact, heq, -⟩
    · rw [hstat] at hn
      rcases hleg.actor_left hwf hsnd hact with ⟨-, h⟩ | ⟨h, -⟩ | ⟨h, -⟩ | ⟨h | h, -⟩
      · exact h
      all_goals exact absurd (h.symm.trans hn) (by decide)
    · exact absurd (hpend.symm.trans hn) (by decide)
    · have hend := h.failed n (heq.symm.trans hn)
      rw [hend] at hleg
      cases hleg

theorem Reach.flowInv (hwf : WellFormed bp) {m₀ m : Machine} (hinit : Initial bp m₀)
    (h : Reach bp m₀ m) : FlowInv bp m.state m.phase := by
  induction h with
  | refl =>
    have hstat : ∀ n, m₀.state.statusOrPending n = .pending := by
      intro n
      rw [← status_marking bp, hinit.marking]
    refine ⟨fun n hn => ?_, fun n hn => ?_, fun n hn => ?_⟩
    · simp [Settled, hstat] at hn
    · exact absurd ((hstat n).symm.trans hn) (by decide)
    · exact absurd ((hstat n).symm.trans hn) (by decide)
  | @tail m m' hrch hmove ih =>
    have hsnd := Reach.sound hrch hinit.sound
    cases hmove with
    | emits hleg happ => exact ih.emits hwf hsnd hleg happ
    | plans | sends => exact ih
    | reloads => exact ⟨ih.resolved, ih.running, ih.failed⟩
    | @dispatches s trace v nd hnode hrdy =>
      refine ⟨ih.resolved, fun n hn => ?_, fun n hn => ?_⟩
      · rcases ih.running n hn with h | h | h
        · exact .inl h
        · cases h
        · cases h
      · have := ih.failed n hn
        cases this

/-! ### Planning -/

variable {s : RunState}

theorem anyRunning_iff : anyRunning s = true ↔ ∃ n, s.statusOrPending n = .running := by
  simp only [anyRunning, any_eq_true, decide_eq_true_eq]
  constructor
  · rintro ⟨⟨n, st⟩, hmem, hst⟩
    refine ⟨n, ?_⟩
    simp only [RunState.statusOrPending, RunState.nodeStatus, Table.mem_toList.1 hmem]
    exact hst
  · rintro ⟨n, hn⟩
    refine ⟨(n, .running), Table.mem_toList.2 ?_, rfl⟩
    unfold RunState.statusOrPending RunState.nodeStatus at hn
    cases hget : s.nodes[n]? with
    | none => rw [hget] at hn; cases hn
    | some st => rw [hget] at hn; exact congrArg some hn

theorem stuck_iff (hrun : s.status = .running) :
    Stuck bp s ↔ (∃ n, (finalizeIfDone bp s).statusOrPending n = .running) ∧
      step bp (finalizeIfDone bp s) = [] := by
  obtain ⟨nodes, heq, hnds⟩ := cascadeSkips_eq bp bp.nodes.length s
  have hstat : (cascadeSkips bp bp.nodes.length s).status = .running := by
    rw [heq, (marking_foldl_skipNode bp nodes s).2.2.2, hrun]
  unfold Stuck
  refine and_congr_left fun hstep => ?_
  have hfin : finalizeIfDone bp s = 
      if !anyRunning (cascadeSkips bp bp.nodes.length s) &&
        (step bp (cascadeSkips bp bp.nodes.length s)).isEmpty then
        { cascadeSkips bp bp.nodes.length s with status := .completed }
      else cascadeSkips bp bp.nodes.length s := by
    unfold finalizeIfDone
    rw [if_neg (by simp [hrun])]
  rw [← anyRunning_iff]
  by_cases hany : anyRunning (cascadeSkips bp bp.nodes.length s) = true
  · simp only [hany, Bool.not_true, Bool.false_and, false_eq_true, if_false] at hfin
    rw [hfin]
    exact ⟨fun _ => hany, fun _ => hstat⟩
  · by_cases hemp : (step bp (cascadeSkips bp bp.nodes.length s)).isEmpty = true
    · simp only [hany, hemp, Bool.not_false, Bool.and_self, if_true] at hfin
      rw [hfin]
      exact iff_of_false (fun h => by cases h) hany
    · simp only [hany, hemp, Bool.and_false, false_eq_true, if_false] at hfin
      rw [hfin] at hstep
      exact absurd (by rw [hstep]; rfl) hemp

/-- The cascade of a pass ends the body of an open loop, and nothing can run. -/
def Strands (bp : Blueprint) (s : RunState) : Prop :=
  ∃ l, IsLoop bp l ∧ s.statusOrPending l = .running ∧
    (∃ b, InBody bp b l ∧ terminal s b = false) ∧
    (∀ b, InBody bp b l → terminal (finalizeIfDone bp s) b = true) ∧
    step bp (finalizeIfDone bp s) = []

/-- A node that has ended after the cascade has settled its edges. -/
theorem settled_of_terminal {fin : RunState} {nodes : List String} (hflow : FlowInv bp s .idle)
    (hfin : fin.statusOrPending n = if n ∈ nodes then .skipped else s.statusOrPending n)
    (h : terminal fin n = true) : n ∈ nodes ∨ Settled bp (marking bp s) n := by
  by_cases hn : n ∈ nodes
  · exact .inl hn
  · right
    rw [if_neg hn] at hfin
    simp only [terminal, hfin, or_eq_true, decide_eq_true_eq] at h
    rcases h with (h | h) | h
    · exact .inl h
    · exact .inr (.inl h)
    · have := hflow.failed n h
      cases this

theorem terminal_of_stuck (hwf : WellFormed bp) (hrun : s.status = .running) (hflow : FlowInv bp s .idle)
    (hstk : Stuck bp s) {l : String} (hloop : IsLoop bp l) (hl : s.statusOrPending l = .running) :
    ∀ b, InBody bp b l → terminal (finalizeIfDone bp s) b = true := by
  obtain ⟨nodes, hmrkg, hnds, -, hunre⟩ := finalizeIfDone_eq bp hrun
  obtain ⟨hstat, hdeld, hskip, -⟩ := marking_foldl_skipNode bp nodes s
  have hfin : ∀ n, (finalizeIfDone bp s).statusOrPending n =
      if n ∈ nodes then .skipped else s.statusOrPending n := by
    intro n
    rw [← status_marking bp, hmrkg, status_marking, hstat]
  have hresd : ∀ n, n ∈ nodes ∨ Settled bp (marking bp s) n →
      Resolved bp (marking bp (finalizeIfDone bp s)) n := by
    rintro n hn i hi
    rw [hmrkg, hdeld, hskip]
    rcases hn with hn | hn
    · exact .inr (.inr ⟨n, hn, hi⟩)
    · exact (hflow.resolved n hn i hi).imp_right .inl
  obtain ⟨rank, hrank⟩ := hwf.exists_rank
  -- the induction is on the rank: the sources of the edges into a body node come before it
  have main : ∀ (k : Nat) (b : String), rank b = k → InBody bp b l →
      terminal (finalizeIfDone bp s) b = true := by
    intro k
    induction k using Nat.strong_induction_on with
    | _ k ih =>
      intro b hk hb
      by_contra hterm
      rw [not_eq_true, terminal_eq_false] at hterm
      have hpend : (finalizeIfDone bp s).statusOrPending b = .pending := by
        refine hterm.resolve_right fun hr => ?_
        rw [hfin] at hr
        split at hr
        · cases hr
        · rcases hflow.running b hr with hloop' | hwork | hwork
          · exact hwf.not_inBody_of_isLoop hloop' hb
          · cases hwork
          · cases hwork
      have hin : ∀ i, Enters bp i b → i ∈ (marking bp (finalizeIfDone bp s)).delivered ∨
          i ∈ (marking bp (finalizeIfDone bp s)).skipped := by
        rintro i ⟨e, he, rfl⟩
        have hmem := mem_of_getElem? he
        refine hresd e.fromNode ?_ i ⟨e, he, rfl⟩
        rcases hwf.body_input e hmem l hb with hfrom | hfrom
        · rw [hfrom]
          exact .inr (.inr (.inr ⟨hl, hloop⟩))
        · have hend := ih (rank e.fromNode) (hk ▸ hrank e hmem) e.fromNode rfl hfrom
          exact settled_of_terminal hflow (hfin e.fromNode) hend
      obtain ⟨nd, hnd, hid, -⟩ := id hb
      obtain ⟨e, he, hto⟩ := hwf.body_reached b l hb
      obtain ⟨j, hj⟩ := mem_iff_getElem?.1 he
      by_cases htok : ∃ i, Enters bp i b ∧ i ∈ (marking bp (finalizeIfDone bp s)).delivered
      · have hmem := mem_step_of hstk.1 ⟨nd, hnd, hid⟩ hpend hin htok
        rw [hstk.2] at hmem
        cases hmem
      · have hmem : b ∈ unreachableNodes bp (finalizeIfDone bp s) :=
          mem_unreachableNodes.2 ⟨⟨nd, hnd, hid⟩, hpend, ⟨j, e, hj, hto⟩,
            fun i hi => (hin i hi).resolve_left fun hd => htok ⟨i, hi, hd⟩⟩
        rw [hunre] at hmem
        cases hmem
  exact fun b hb => main _ b rfl hb

theorem stuck_iff_strands (hwf : WellFormed bp) (hrun : s.status = .running)
    (hflow : FlowInv bp s .idle) (hadvd : Advanced bp s) : Stuck bp s ↔ Strands bp s := by
  obtain ⟨nodes, hmrkg, hnds, -, -⟩ := finalizeIfDone_eq bp hrun
  have hfin : ∀ n, (finalizeIfDone bp s).statusOrPending n = .running ↔
      s.statusOrPending n = .running := by
    intro n
    rw [← status_marking bp, hmrkg, status_marking, (marking_foldl_skipNode bp nodes s).1]
    split
    · rename_i hn
      rw [hnds n hn]
      decide
    · rfl
  constructor
  · intro hstk
    obtain ⟨⟨l, hl⟩, hstep⟩ := (stuck_iff hrun).1 hstk
    rw [hfin] at hl
    have hloop : IsLoop bp l := by
      rcases hflow.running l hl with h | h | h
      · exact h
      · cases h
      · cases h
    exact ⟨l, hloop, hl, hadvd l hloop hl,
      terminal_of_stuck hwf hrun hflow hstk hloop hl, hstep⟩
  · rintro ⟨l, -, hl, -, -, hstep⟩
    exact (stuck_iff hrun).2 ⟨⟨l, (hfin l).2 hl⟩, hstep⟩

/-- The states that a run has planned finalization from. -/
structure Planned (bp : Blueprint) (s : RunState) : Prop where
  running : s.status = .running
  flow : FlowInv bp s .idle
  advanced : Advanced bp s

theorem Reach.planned (hwf : WellFormed bp) {m₀ m : Machine} (hinit : Initial bp m₀)
    (h : Reach bp m₀ m) : ∀ p ∈ plannedStates m.trace, Planned bp p := by
  induction h with
  | refl =>
    obtain ⟨s₀, kind, htr, -⟩ := hinit.trace
    rw [htr]
    simp [plannedStates]
  | @tail m m' hrch hmove ih =>
    cases hmove with
    | emits | dispatches | sends | reloads => exact ih
    | plans hadvd =>
      intro p hp
      rcases mem_cons.1 hp with rfl | hp
      · exact ⟨Reach.sound hrch hinit.sound, Reach.flowInv hwf hinit hrch, hadvd⟩
      · exact ih p hp

variable {ω : Type} {host : Host ω} {w : World ω}

/-- A call that returns has left the run in one of its resting states, unless a pass of the run has
stranded a loop. -/
theorem Run.ended_iff (hval : (validate bp).isValid = true) (h : Run host bp (.ok s) w) :
    (s.status = .completed ∨ s.status = .failed ∨ s.status = .awaitingApproval) ↔
      ∀ p ∈ plannedStates w.trace, ¬Strands bp p := by
  have hwf := wellFormed_of_isValid hval
  have hiff := h.running_iff hval
  have hplnd : ∀ p ∈ plannedStates w.trace, (Stuck bp p ↔ Strands bp p) := by
    rcases h.reachable hval with hnil | ⟨m, ⟨m₀, hinit, hrch⟩, htr⟩
    · rw [hnil]
      simp [plannedStates]
    · rw [← htr]
      intro p hp
      obtain ⟨hrun, hflow, hadvd⟩ := Reach.planned hwf hinit hrch p hp
      exact stuck_iff_strands hwf hrun hflow hadvd
  constructor
  · intro hend p hp hstra
    have hrunn := hiff.2 ⟨p, hp, (hplnd p hp).2 hstra⟩
    rw [hrunn] at hend
    simp at hend
  · intro hfree
    have hne : s.status ≠ .running := fun hrunn => by
      obtain ⟨p, hp, hstk⟩ := hiff.1 hrunn
      exact hfree p hp ((hplnd p hp).1 hstk)
    cases hs : s.status with
    | running => exact absurd hs hne
    | completed => exact .inl rfl
    | failed => exact .inr (.inl rfl)
    | awaitingApproval => exact .inr (.inr rfl)

/-! ### Runs of a small blueprint -/

/-- A loop whose body branches, and goes on at one of the two ports only. -/
def branchInLoop : Blueprint where
  id := "branching"
  name := "branching"
  nodes := [
    { id := "start", type := "manual_trigger" },
    { id := "loop", type := "loop" },
    { id := "check", type := "branch", parent := some "loop"
      fields := [("condition", .string "trigger.output.payload")] },
    { id := "step", type := "join", parent := some "loop" } ]
  edges := [
    { fromNode := "start", toNode := "loop" },
    { fromNode := "loop", toNode := "check", fromPort := "body" },
    { fromNode := "check", toNode := "step", fromPort := "on_true" } ]

/-- How a call answered: the status of the state that it returned. -/
def answeredStatus (r : Except EngineError RunState) : Option RunStatus :=
  r.toOption.map (·.status)

/-- The branch takes the port that goes on, and no pass strands the loop. -/
theorem ended_iff_branching : ∃ s, (scriptedRun branchInLoop (.ok .null) (.bool true)).1 = .ok s ∧
    ∀ p ∈ plannedStates (scriptedRun branchInLoop (.ok .null) (.bool true)).2.trace, ¬Strands branchInLoop p := by
  have hstat : answeredStatus (scriptedRun branchInLoop (.ok .null) (.bool true)).1 = some .completed := by
    decide +kernel
  cases hr : (scriptedRun branchInLoop (.ok .null) (.bool true)).1 with
  | error e => rw [hr] at hstat; cases hstat
  | ok s =>
    have hrun := run_scriptedRun branchInLoop (.ok .null) (.bool true)
    rw [hr] at hrun hstat
    have hcompd : s.status = .completed := Option.some.inj hstat
    exact ⟨s, rfl, (Run.ended_iff (by decide) hrun).1 (.inl hcompd)⟩

/-- A run that is left running: the branch takes the other port, and the cascade ends the body after
the loop could have been advanced. -/
theorem left_running : (validate branchInLoop).isValid = true ∧
    ∃ (host : Host (List Bool)) (s : RunState) (w : World (List Bool)),
      Run host branchInLoop (.ok s) w ∧ s.status = .running := by
  have hstat : answeredStatus (scriptedRun branchInLoop (.ok .null) (.bool false)).1 = some .running := by
    decide +kernel
  cases hr : (scriptedRun branchInLoop (.ok .null) (.bool false)).1 with
  | error e => rw [hr] at hstat; cases hstat
  | ok s =>
    have hrun := run_scriptedRun branchInLoop (.ok .null) (.bool false)
    rw [hr] at hrun hstat
    exact ⟨by decide, _, s, _, hrun, Option.some.inj hstat⟩

end Wardian.Engine
