/-
One pass of the driver, as facts about states.

A pass advances the loops whose body has ended, plans which nodes finalization skips, and takes the
nodes that can run.

Main results:

* `Engine.advanceLoops_ok` — which loops the events of a pass advance;
* `Engine.marking_finalizeIfDone` — what finalization skips;
* `Engine.ready_of_mem_step` — a runnable node is ready.
-/

import Wardian.Engine.Driver
import Wardian.Engine.Machine

set_option autoImplicit false

namespace Wardian.Engine

open List
open Automation (Blueprint Node IsLoop InBody WellFormed)

variable {bp : Blueprint} {s s' : RunState}

/-! ### Advancing loops -/

/-- The event ends a loop or starts its next iteration. -/
def AdvanceOf (loopId : String) (kind : EventKind) : Prop :=
  kind = .loopCompleted loopId ∨ ∃ iteration, iteration ≠ 0 ∧ kind = .loopIteration loopId iteration

variable {n : String}

theorem terminal_eq_false : terminal s n = false ↔
    s.statusOrPending n = .pending ∨ s.statusOrPending n = .running := by
  unfold terminal
  cases s.statusOrPending n <;> simp

variable {loopId : String}

theorem mem_bodyNodes_iff {b : String} : b ∈ bodyNodes bp loopId ↔ InBody bp b loopId := by
  rw [mem_bodyNodes]
  constructor
  · rintro ⟨nd, hnd, hp, hid⟩
    exact ⟨nd, hnd, hid, hp⟩
  · rintro ⟨nd, hnd, hid, hp⟩
    exact ⟨nd, hnd, hp, hid⟩

variable {kind : EventKind}

theorem advanceLoop_some (h : advanceLoop bp s loopId = .ok (some kind)) : AdvanceOf loopId kind := by
  unfold advanceLoop at h
  dsimp only at h
  split at h
  · cases h
    exact .inl rfl
  · split at h
    · cases h
    · split at h
      · cases h
      · split at h
        · cases h
          exact .inr ⟨_, Nat.succ_ne_zero _, rfl⟩
        · cases h
          exact .inl rfl

/-- A loop that is not advanced has a body node that has not ended. -/
theorem advanceLoop_none (h : advanceLoop bp s loopId = .ok none) :
    ∃ b, InBody bp b loopId ∧ terminal s b = false := by
  unfold advanceLoop at h
  dsimp only at h
  split at h
  · cases h
  · split at h
    · rename_i hterm
      rw [Bool.not_eq_true', all_eq_false] at hterm
      obtain ⟨b, hb, hfls⟩ := hterm
      exact ⟨b, mem_bodyNodes_iff.1 hb, by simpa using hfls⟩
    · split at h
      · cases h
      · split at h <;> cases h

theorem advanceEach_ok : ∀ {loops : List String} {events : List EventKind},
    advanceEach bp s loops = .ok events →
    ∃ advanced : List String, advanced.Sublist loops ∧ Forall₂ AdvanceOf advanced events ∧
      ∀ l ∈ loops, l ∉ advanced → ∃ b, InBody bp b l ∧ terminal s b = false := by
  intro loops
  induction loops with
  | nil =>
    intro events h
    cases h
    exact ⟨[], Sublist.slnil, .nil, by simp⟩
  | cons l loops ih =>
    intro events h
    rw [advanceEach] at h
    split at h
    · cases h
    · rename_i event hevent
      split at h
      · cases h
      · rename_i rest hrest
        cases h
        obtain ⟨advanced, hsub, hforall, hkept⟩ := ih hrest
        cases event with
        | none =>
          refine ⟨advanced, hsub.cons l, hforall, fun l' hl' hnot => ?_⟩
          rcases mem_cons.1 hl' with rfl | hl'
          · exact advanceLoop_none hevent
          · exact hkept l' hl' hnot
        | some kind =>
          refine ⟨l :: advanced, hsub.cons_cons l,
            .cons (advanceLoop_some hevent) hforall, fun l' hl' hnot => ?_⟩
          rw [mem_cons, not_or] at hnot
          rcases mem_cons.1 hl' with rfl | hl'
          · exact absurd rfl hnot.1
          · exact hkept l' hl' hnot.2

variable {l : String}

theorem mem_runningLoops (hwf : WellFormed bp) :
    l ∈ runningLoops bp s ↔ IsLoop bp l ∧ s.statusOrPending l = .running := by
  simp only [runningLoops, mem_map, mem_filter, Bool.and_eq_true, beq_iff_eq,
    decide_eq_true_eq]
  constructor
  · rintro ⟨nd, ⟨hnd, htype, hstat⟩, rfl⟩
    exact ⟨hwf.isLoop_of_mem hnd htype, hstat⟩
  · rintro ⟨⟨nd, hnd, htype⟩, hstat⟩
    obtain ⟨hmem, rfl⟩ := Automation.Blueprint.findNode_some hnd
    exact ⟨nd, ⟨hmem, htype, hstat⟩, rfl⟩

/-- The part of a pass still to come: the loops `rest` are running and have an event, and every
other running loop has a body node that has not ended. -/
structure Advancing (bp : Blueprint) (rest : List String) (s : RunState) : Prop where
  nodup : rest.Nodup
  running : ∀ l ∈ rest, IsLoop bp l ∧ s.statusOrPending l = .running
  done : ∀ l, IsLoop bp l → s.statusOrPending l = .running → l ∉ rest →
    ∃ b, InBody bp b l ∧ terminal s b = false

theorem advanceLoops_ok (hwf : WellFormed bp) {events : List EventKind} (h : advanceLoops bp s = .ok events) :
    ∃ advanced, Forall₂ AdvanceOf advanced events ∧ Advancing bp advanced s := by
  obtain ⟨advanced, hsub, hforall, hkept⟩ := advanceEach_ok h
  have hndp : (runningLoops bp s).Nodup :=
    (filter_sublist.map _).nodup hwf.nodup
  refine ⟨advanced, hforall, hsub.nodup hndp, fun l hl => ?_, fun l hl hrunn hnot => ?_⟩
  · exact (mem_runningLoops hwf).1 (hsub.subset hl)
  · exact hkept l ((mem_runningLoops hwf).2 ⟨hl, hrunn⟩) hnot

theorem AdvanceOf.actor (h : AdvanceOf l kind) : kind.actor = some l := by
  rcases h with rfl | ⟨iteration, -, rfl⟩ <;> rfl

theorem AdvanceOf.resets_eq {p : String} (h : AdvanceOf l kind) (hp : kind.resets = some p) : p = l := by
  rcases h with rfl | ⟨iteration, hne, rfl⟩
  · cases hp
  · simp only [EventKind.resets, if_neg hne, Option.some.injEq] at hp
    exact hp.symm

theorem Advancing.apply (hwf : WellFormed bp) {rest : List String} {ev : Event}
    (h : Advancing bp (l :: rest) s) (hadv : AdvanceOf l ev.kind)
    (happ : apply bp s ev = .ok s') : Advancing bp rest s' := by
  obtain ⟨hloop, hrunn⟩ := h.running l mem_cons_self
  obtain ⟨hl, hndp⟩ := nodup_cons.1 h.nodup
  have hmrkg : ∀ n, s'.statusOrPending n = (effect bp (marking bp s) ev.kind).status n :=
    statusOrPending_apply happ
  have hoth : ∀ n, n ≠ l → ¬InBody bp n l → s'.statusOrPending n = s.statusOrPending n ∨
      (s.statusOrPending n = .skipped ∧ s'.statusOrPending n = .pending) := by
    intro n hn hbody
    have hact : ev.kind.actor ≠ some n :=
      fun ha => hn (Option.some.inj (hadv.actor.symm.trans ha)).symm
    have := status_effect (m := marking bp s) hact
      (fun p hp hb => hbody (hadv.resets_eq hp ▸ hb))
    rw [hmrkg]
    exact this.imp_right fun h => ⟨h.1, h.2.1⟩
  have hloops : ∀ n, IsLoop bp n → n ≠ l → s'.statusOrPending n = s.statusOrPending n ∨
      (s.statusOrPending n = .skipped ∧ s'.statusOrPending n = .pending) :=
    fun n hn hne => hoth n hne (hwf.not_inBody_of_isLoop hn)
  refine ⟨hndp, fun n hn => ?_, fun n hn hr hnot => ?_⟩
  · obtain ⟨hn', hr⟩ := h.running n (mem_cons_of_mem _ hn)
    refine ⟨hn', ?_⟩
    rcases hloops n hn' (fun he => hl (he ▸ hn)) with he | ⟨he, -⟩
    · exact he.trans hr
    · rw [hr] at he
      cases he
  · by_cases he : n = l
    · -- the loop itself: a new iteration leaves its body pending
      subst he
      rcases hadv with hk | ⟨iteration, hne, hk⟩
      · exfalso
        rw [hmrkg, hk] at hr
        simp only [effect] at hr
        rw [Marking.status_pulse_of_ne (by simp)] at hr
        simp at hr
      · obtain ⟨nd, hnd, htype⟩ := hn
        obtain ⟨hmem, rfl⟩ := Automation.Blueprint.findNode_some hnd
        obtain ⟨b, hb⟩ := hwf.loop_body nd hmem htype
        refine ⟨b, hb, terminal_eq_false.2 (.inl ?_)⟩
        have hrst := Marking.status_reset_of_inBody (m := marking bp s) hb
        rw [hmrkg, hk]
        simp only [effect, if_neg hne]
        rw [Marking.status_pulse_of_ne (by rw [hrst]; decide), hrst]
    · -- another loop: its body node has not ended either
      have hr' : s.statusOrPending n = .running := by
        rcases hloops n hn he with h' | ⟨-, h'⟩
        · exact h'.symm.trans hr
        · rw [hr] at h'
          cases h'
      obtain ⟨b, hb, hnt⟩ := h.done n hn hr' (by simp [he, hnot])
      refine ⟨b, hb, ?_⟩
      have hbl : b ≠ l := fun h => hwf.not_inBody_of_isLoop (h ▸ hloop) hb
      rcases hoth b hbl (fun h => he (hwf.inBody_unique hb h)) with h' | ⟨h', -⟩
      · rw [terminal_eq_false] at hnt ⊢
        rwa [h']
      · rw [terminal_eq_false, h'] at hnt
        rcases hnt with hnt | hnt <;> cases hnt

theorem Advancing.advanced (h : Advancing bp [] s) : Advanced bp s :=
  fun l hl hr => h.done l hl hr (by simp)

/-! ### Finalization -/

theorem marking_foldl_skipNode (bp : Blueprint) :
    ∀ (nodes : List String) (s : RunState),
      (∀ n, (nodes.foldl (skipNode bp) s).statusOrPending n =
        if n ∈ nodes then .skipped else s.statusOrPending n) ∧
      (marking bp (nodes.foldl (skipNode bp) s)).delivered = (marking bp s).delivered ∧
      (∀ i, i ∈ (marking bp (nodes.foldl (skipNode bp) s)).skipped ↔
        i ∈ (marking bp s).skipped ∨ ∃ n ∈ nodes, Leaves bp i n) ∧
      (nodes.foldl (skipNode bp) s).status = s.status := by
  intro nodes
  induction nodes with
  | nil => intro s; simp
  | cons v nodes ih =>
    intro s
    obtain ⟨hstat, hdeld, hskipp, hrun⟩ := ih (skipNode bp s v)
    have hskip := marking_skipNode bp s v
    have hv : ∀ n, (skipNode bp s v).statusOrPending n =
        if n = v then .skipped else s.statusOrPending n := by
      intro n
      simpa using congrFun (congrArg Marking.status hskip) n
    refine ⟨fun n => ?_, ?_, fun i => ?_, hrun⟩
    · rw [foldl_cons, hstat, hv]
      by_cases hn : n ∈ nodes
      · simp [hn]
      · by_cases he : n = v <;> simp [hn, he]
    · rw [foldl_cons, hdeld, hskip, Marking.delivered_skip]
    · rw [foldl_cons, hskipp, hskip, Marking.mem_skipped_skip]
      simp only [mem_cons, exists_eq_or_imp]
      tauto

theorem cascadeSkips_eq (bp : Blueprint) : ∀ (fuel : Nat) (s : RunState), ∃ nodes : List String,
    cascadeSkips bp fuel s = nodes.foldl (skipNode bp) s ∧
      ∀ n ∈ nodes, s.statusOrPending n = .pending := by
  intro fuel
  induction fuel with
  | zero => intro s; exact ⟨[], rfl, by simp⟩
  | succ fuel ih =>
    intro s
    have hpend : ∀ n ∈ unreachableNodes bp s, s.statusOrPending n = .pending := by
      intro n hn
      obtain ⟨nd, hnd, rfl⟩ := mem_map.1 hn
      have := (mem_filter.1 hnd).2
      simp only [Bool.and_eq_true, decide_eq_true_eq] at this
      exact this.1
    rw [cascadeSkips]
    split
    · exact ⟨[], rfl, by simp⟩
    · obtain ⟨nodes, heq, hnds⟩ := ih ((unreachableNodes bp s).foldl (skipNode bp) s)
      refine ⟨unreachableNodes bp s ++ nodes, by rw [heq, foldl_append], fun n hn => ?_⟩
      rcases mem_append.1 hn with hn | hn
      · exact hpend n hn
      · have h := hnds n hn
        rw [(marking_foldl_skipNode _ _ _).1] at h
        split at h
        · cases h
        · exact h

/-- The number of nodes that are pending. -/
def pendingCount (bp : Blueprint) (s : RunState) : Nat :=
  bp.nodes.countP fun nd => s.statusOrPending nd.id = .pending

theorem pendingCount_skip_lt {v : String} (hv : v ∈ unreachableNodes bp s) :
    pendingCount bp ((unreachableNodes bp s).foldl (skipNode bp) s) < pendingCount bp s := by
  have hstat := (marking_foldl_skipNode bp (unreachableNodes bp s) s).1
  obtain ⟨nd, hnd, hid⟩ := mem_map.1 hv
  obtain ⟨hmem, hnd⟩ := mem_filter.1 hnd
  simp only [Bool.and_eq_true, decide_eq_true_eq] at hnd
  unfold pendingCount
  rw [countP_eq_length_filter, countP_eq_length_filter]
  have hsub : (bp.nodes.filter fun nd =>
        ((unreachableNodes bp s).foldl (skipNode bp) s).statusOrPending nd.id = .pending).Sublist
      (bp.nodes.filter fun nd => s.statusOrPending nd.id = .pending) := by
    refine monotone_filter_right _ fun nd' h => ?_
    rw [decide_eq_true_eq, hstat] at h
    split at h
    · cases h
    · simpa using h
  refine lt_of_le_of_ne hsub.length_le fun heq => ?_
  have hin : nd ∈ bp.nodes.filter fun nd => s.statusOrPending nd.id = .pending :=
    mem_filter.2 ⟨hmem, by simpa using hnd.1⟩
  rw [← hsub.eq_of_length heq] at hin
  have := (mem_filter.1 hin).2
  rw [decide_eq_true_eq, hstat, hid, if_pos hv] at this
  cases this

/-- With enough rounds the cascade skips everything that it can. -/
theorem unreachableNodes_cascadeSkips : ∀ (fuel : Nat) (s : RunState),
    pendingCount bp s ≤ fuel → unreachableNodes bp (cascadeSkips bp fuel s) = [] := by
  intro fuel
  induction fuel with
  | zero =>
    intro s h
    rw [cascadeSkips]
    by_contra hne
    obtain ⟨v, hv⟩ := exists_mem_of_ne_nil _ hne
    have := pendingCount_skip_lt hv
    omega
  | succ fuel ih =>
    intro s h
    rw [cascadeSkips]
    split
    · assumption
    · rename_i hne
      refine ih _ ?_
      obtain ⟨v, hv⟩ := exists_mem_of_ne_nil _ hne
      have := pendingCount_skip_lt hv
      omega

/-- Whether a node can run, and whether it is unreachable, depends on the marking only. -/
theorem runnable_congr (h : marking bp s = marking bp s') (nd : Node) :
    runnable bp s nd = runnable bp s' nd := by
  have hstat : ∀ n, s.statusOrPending n = s'.statusOrPending n := fun n =>
    congrFun (congrArg Marking.status h) n
  have hdeld : ∀ i ∈ inbound bp nd.id,
      decide (i ∈ s.deliveredTo nd.id) = decide (i ∈ s'.deliveredTo nd.id) := by
    intro i hi
    have he := mem_inbound_iff.1 hi
    rw [decide_eq_decide, ← mem_delivered_marking he, ← mem_delivered_marking he, h]
  have hskip : ∀ i, decide (i ∈ s.skippedEdges) = decide (i ∈ s'.skippedEdges) := by
    intro i
    have : i ∈ (marking bp s).skipped ↔ i ∈ (marking bp s').skipped := by rw [h]
    rw [decide_eq_decide]
    exact this
  have hall : (inbound bp nd.id).all (resolved s nd.id) =
      (inbound bp nd.id).all (resolved s' nd.id) := by
    rw [Bool.eq_iff_iff, all_eq_true, all_eq_true]
    refine forall_congr' fun i => forall_congr' fun hi => ?_
    simp only [resolved, hdeld i hi, hskip i]
  have hany : ((inbound bp nd.id).any fun i => i ∈ s.deliveredTo nd.id) =
      (inbound bp nd.id).any fun i => i ∈ s'.deliveredTo nd.id := by
    rw [Bool.eq_iff_iff, any_eq_true, any_eq_true]
    refine exists_congr fun i => and_congr_right fun hi => ?_
    rw [hdeld i hi]
  simp only [runnable, hstat, hall, hany]

theorem step_congr (h : marking bp s = marking bp s') (hrun : s.status = s'.status) :
    step bp s = step bp s' := by
  unfold step
  rw [hrun, filter_congr fun nd _ => runnable_congr h nd]

theorem mem_unreachableNodes : n ∈ unreachableNodes bp s ↔
    (∃ nd ∈ bp.nodes, nd.id = n) ∧ s.statusOrPending n = .pending ∧ (∃ i, Enters bp i n) ∧
      ∀ i, Enters bp i n → i ∈ (marking bp s).skipped := by
  have hne : ∀ n, inbound bp n ≠ [] ↔ ∃ i, Enters bp i n := by
    intro n
    constructor
    · intro h
      obtain ⟨i, hi⟩ := exists_mem_of_ne_nil _ h
      exact ⟨i, mem_inbound_iff.1 hi⟩
    · rintro ⟨i, hi⟩
      exact ne_nil_of_mem (mem_inbound_iff.2 hi)
  simp only [unreachableNodes, mem_map, mem_filter, Bool.and_eq_true, decide_eq_true_eq,
    all_eq_true, hne, mem_inbound_iff]
  constructor
  · rintro ⟨nd, ⟨hnd, hp, hi, hall⟩, rfl⟩
    exact ⟨⟨nd, hnd, rfl⟩, hp, hi, fun i h => hall i h⟩
  · rintro ⟨⟨nd, hnd, rfl⟩, hp, hi, hall⟩
    exact ⟨nd, ⟨hnd, hp, hi, fun i h => hall i h⟩, rfl⟩

/-- What finalization skips: some pending nodes, with all their edges. -/
theorem finalizeIfDone_eq (bp : Blueprint) (hrun : s.status = .running) : ∃ nodes : List String,
    marking bp (finalizeIfDone bp s) = marking bp (nodes.foldl (skipNode bp) s) ∧
      (∀ n ∈ nodes, s.statusOrPending n = .pending) ∧
      ((finalizeIfDone bp s).status = .running ∨ (finalizeIfDone bp s).status = .completed) ∧
      unreachableNodes bp (finalizeIfDone bp s) = [] := by
  obtain ⟨nodes, heq, hnds⟩ := cascadeSkips_eq bp bp.nodes.length s
  have hstat : (cascadeSkips bp bp.nodes.length s).status = .running := by
    rw [heq, (marking_foldl_skipNode bp nodes s).2.2.2, hrun]
  have hunre : unreachableNodes bp (cascadeSkips bp bp.nodes.length s) = [] :=
    unreachableNodes_cascadeSkips _ _ countP_le_length
  have hmrkg : marking bp (finalizeIfDone bp s) =
      marking bp (cascadeSkips bp bp.nodes.length s) := by
    unfold finalizeIfDone
    rw [if_neg (by simp [hrun])]
    dsimp only
    split <;> rfl
  refine ⟨nodes, by rw [hmrkg, heq], hnds, ?_, ?_⟩
  · unfold finalizeIfDone
    rw [if_neg (by simp [hrun])]
    dsimp only
    split
    · exact .inr rfl
    · exact .inl hstat
  · rw [← List.isEmpty_iff, ← Bool.not_eq_false, isEmpty_eq_false_iff_exists_mem] at hunre ⊢
    rintro ⟨n, hn⟩
    refine hunre ⟨n, ?_⟩
    rw [mem_unreachableNodes] at hn ⊢
    have hst : (finalizeIfDone bp s).statusOrPending n =
        (cascadeSkips bp bp.nodes.length s).statusOrPending n :=
      congrFun (congrArg Marking.status hmrkg) n
    rw [← hst, ← hmrkg]
    exact hn

/-- The nodes that a pass skips are those that finalization skips. -/
theorem mem_newlySkipped {fin : RunState} : n ∈ newlySkipped s fin ↔
    fin.statusOrPending n = .skipped ∧ s.statusOrPending n ≠ .skipped := by
  simp only [newlySkipped, mem_map, mem_filter, Bool.and_eq_true, decide_eq_true_eq]
  constructor
  · rintro ⟨⟨k, v⟩, ⟨hmem, hv, hs⟩, rfl⟩
    refine ⟨?_, hs⟩
    simp only [RunState.statusOrPending, RunState.nodeStatus, Table.mem_toList.1 hmem]
    exact hv
  · rintro ⟨hfin, hs⟩
    refine ⟨(n, .skipped), ⟨Table.mem_toList.2 ?_, rfl, hs⟩, rfl⟩
    simp only [RunState.statusOrPending, RunState.nodeStatus] at hfin
    cases h : fin.nodes[n]? with
    | none => rw [h] at hfin; cases hfin
    | some v => rw [h] at hfin; exact congrArg some hfin

theorem nodup_newlySkipped (s fin : RunState) : (newlySkipped s fin).Nodup := by
  unfold newlySkipped
  rw [nodup_iff_pairwise_ne, pairwise_map]
  refine List.Pairwise.imp ?_ (List.Pairwise.filter _ Std.ExtTreeMap.distinct_keys_toList)
  intro a b h he
  exact h (Std.LawfulEqCmp.compare_eq_iff_eq.2 he)

/-- A pass that skips the planned nodes has the marking of the finalized state. -/
theorem marking_finalizeIfDone (bp : Blueprint) (hrun : s.status = .running) :
    marking bp ((newlySkipped s (finalizeIfDone bp s)).foldl (skipNode bp) s) =
      marking bp (finalizeIfDone bp s) ∧
    ∀ n ∈ newlySkipped s (finalizeIfDone bp s), s.statusOrPending n = .pending := by
  obtain ⟨nodes, heq, hnds, -⟩ := finalizeIfDone_eq bp hrun
  obtain ⟨hstat, hdeld, hskip, -⟩ := marking_foldl_skipNode bp nodes s
  have hmem : ∀ n, n ∈ newlySkipped s (finalizeIfDone bp s) ↔ n ∈ nodes := by
    intro n
    have hn : (finalizeIfDone bp s).statusOrPending n =
        if n ∈ nodes then .skipped else s.statusOrPending n := by
      rw [← hstat n]
      exact congrFun (congrArg Marking.status heq) n
    rw [mem_newlySkipped, hn]
    constructor
    · rintro ⟨h, hs⟩
      by_contra hnot
      rw [if_neg hnot] at h
      exact hs h
    · intro h
      refine ⟨if_pos h, ?_⟩
      rw [hnds n h]
      decide
  refine ⟨?_, fun n hn => hnds n ((hmem n).1 hn)⟩
  obtain ⟨hstat', hdeld', hskip', -⟩ :=
    marking_foldl_skipNode bp (newlySkipped s (finalizeIfDone bp s)) s
  have hflds : ∀ m m' : Marking, (∀ n, m.status n = m'.status n) → m.delivered = m'.delivered →
      (∀ i, i ∈ m.skipped ↔ i ∈ m'.skipped) → m = m' := by
    rintro ⟨st, d, sk⟩ ⟨st', d', sk'⟩ h₁ h₂ h₃
    simp only [Marking.mk.injEq]
    exact ⟨funext h₁, h₂, Set.ext h₃⟩
  rw [heq]
  refine hflds _ _ (fun n => ?_) (hdeld'.trans hdeld.symm) fun i => ?_
  · change RunState.statusOrPending _ n = RunState.statusOrPending _ n
    rw [hstat', hstat]
    simp only [hmem]
  · rw [hskip', hskip]
    simp only [hmem]

/-! ### Runnable nodes -/

theorem ready_of_mem_step (hwf : WellFormed bp) (h : n ∈ step bp s) :
    (∃ nd, bp.findNode n = some nd) ∧ Ready bp s n := by
  unfold step at h
  split at h
  · cases h
  · obtain ⟨nd, hnd, rfl⟩ := mem_map.1 h
    obtain ⟨hmem, hrun⟩ := mem_filter.1 hnd
    simp only [runnable, Bool.and_eq_true, decide_eq_true_eq] at hrun
    obtain ⟨hpend, hrun⟩ := hrun
    refine ⟨⟨nd, hwf.findNode_of_mem hmem⟩, hpend, fun hno p hb => ?_, fun ⟨i, hi⟩ => ?_⟩
    · have hnil : inbound bp nd.id = [] :=
        eq_nil_iff_forall_not_mem.2 fun i hi => hno i (mem_inbound_iff.1 hi)
      rw [if_pos hnil] at hrun
      obtain ⟨nd', hnd', hid, hp⟩ := hb
      have hfind := hwf.findNode_of_mem hnd'
      rw [hid, hwf.findNode_of_mem hmem] at hfind
      obtain rfl := Option.some.inj hfind
      simp [hp] at hrun
    · have hne : inbound bp nd.id ≠ [] := ne_nil_of_mem (mem_inbound_iff.2 hi)
      rw [if_neg hne, Bool.and_eq_true, any_eq_true] at hrun
      obtain ⟨j, hj, hd⟩ := hrun.2
      exact ⟨j, mem_inbound_iff.1 hj, by simpa using hd⟩

/-- A pending node can run when its inbound edges are settled and one of them holds a token. -/
theorem mem_step_of (hrun : s.status = .running) (hnode : ∃ nd ∈ bp.nodes, nd.id = n)
    (hpend : s.statusOrPending n = .pending)
    (hsetl : ∀ i, Enters bp i n → i ∈ (marking bp s).delivered ∨ i ∈ (marking bp s).skipped)
    (htok : ∃ i, Enters bp i n ∧ i ∈ (marking bp s).delivered) : n ∈ step bp s := by
  obtain ⟨nd, hnd, rfl⟩ := hnode
  obtain ⟨i, hi, hdeld⟩ := htok
  unfold step
  rw [if_neg (by simp [hrun])]
  refine mem_map.2 ⟨nd, mem_filter.2 ⟨hnd, ?_⟩, rfl⟩
  have hne : inbound bp nd.id ≠ [] := ne_nil_of_mem (mem_inbound_iff.2 hi)
  simp only [runnable, Bool.and_eq_true, decide_eq_true_eq, if_neg hne, all_eq_true,
    any_eq_true]
  refine ⟨hpend, fun j hj => ?_, i, mem_inbound_iff.2 hi, (mem_delivered_marking hi).1 hdeld⟩
  have hj' := mem_inbound_iff.1 hj
  simp only [resolved, Bool.or_eq_true, decide_eq_true_eq]
  exact (hsetl j hj').imp_left (mem_delivered_marking hj').1

theorem nodup_step (hwf : WellFormed bp) : (step bp s).Nodup := by
  unfold step
  split
  · exact nodup_nil
  · exact (filter_sublist.map _).nodup hwf.nodup

end Wardian.Engine
