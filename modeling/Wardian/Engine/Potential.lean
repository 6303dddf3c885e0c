/-
Why a run ends.

Nodes wake each other along the edges, and a loop wakes its body: from a node of the graph only nodes
of higher rank are made pending again.  A node's share of the potential is what its dispatch and all
that it wakes are worth; a running loop keeps enough for the iterations that it may still start.  No
move of a run raises the sum of the shares, and a dispatch lowers it.

Main results:

* `Engine.Ranking.potential_emits` — an event does not raise the potential;
* `Engine.Run.dispatches_le` — the potential bounds the dispatches of a run.
-/

import Wardian.Engine.Iterations
import Wardian.Lib.Amortized

set_option autoImplicit false

namespace Wardian.Engine

open Amortized
open Automation (Blueprint Node IsLoop InBody WellFormed)
open Amortized (weight change)

variable {bp : Blueprint} {m m' : Machine} {s s' : RunState} {phase phase' : Phase}
  {trace trace' : List Observation} {n v : String}

/-! ### Ranks -/

/-- Ranks of the nodes that rise along the edges, and from a loop to its body. -/
structure Ranking (bp : Blueprint) where
  rank : String → Nat
  height : Nat
  edge : ∀ e ∈ bp.edges, rank e.fromNode < rank e.toNode
  body : ∀ b p, InBody bp b p → rank p < rank b
  le_height : ∀ nd ∈ bp.nodes, rank nd.id ≤ height

theorem rank_body (hwf : WellFormed bp) {rank : String → Nat}
    (hrank : ∀ e ∈ bp.edges, rank e.fromNode < rank e.toNode) :
    ∀ (r : Nat) {b p : String}, rank b = r → InBody bp b p → rank p < rank b := by
  intro r
  induction r using Nat.strong_induction_on with
  | h r ih =>
    intro b p hr hb
    obtain ⟨e, he, rfl⟩ := hwf.body_reached b p hb
    have hlt := hrank e he
    rcases hwf.body_input e he p hb with rfl | hin
    · exact hlt
    · exact (ih _ (hr ▸ hlt) rfl hin).trans hlt

theorem WellFormed.exists_ranking (hwf : WellFormed bp) : Nonempty (Ranking bp) := by
  obtain ⟨rank, hrank⟩ := hwf.exists_rank
  refine ⟨⟨rank, (bp.nodes.map fun nd => rank nd.id).sum, hrank,
    fun b p hb => rank_body hwf hrank _ rfl hb, fun nd hnd => ?_⟩⟩
  exact List.single_le_sum (fun _ _ => Nat.zero_le _) _ (List.mem_map_of_mem hnd)

/-! ### Shares -/

/-- The ids of the nodes. -/
def nodeIds (bp : Blueprint) : Finset String := (bp.nodes.map (·.id)).toFinset

/-- One unit at a loop pays for every node behind it, once for each number of an iteration. -/
def base (bp : Blueprint) : Nat := (2 ^ 32 + 2) * (nodeIds bp).card + 1

theorem base_pos : 0 < base bp := Nat.succ_pos _

namespace Ranking

variable (ρ : Ranking bp)

/-- What making a node pending is worth. -/
def worth (n : String) : Nat := weight (base bp) ρ.height (ρ.rank n)

/-- What making one node behind this one pending is worth, at most. -/
def gain (n : String) : Nat := change (base bp) ρ.height (ρ.rank n)

/-- The share of a node in the potential. -/
def share (s : RunState) (phase : Phase) (n : String) : Nat :=
  if phase = .opening n then ρ.worth n - 1
  else
    match s.statusOrPending n with
    | .pending => ρ.worth n
    | .running =>
      if IsLoop bp n then
        (2 ^ 32 - (s.loopIter[n]?).getD 0 + 1) * ((nodeIds bp).card * ρ.gain n)
      else ρ.worth n - 1
    | .completed | .skipped | .failed => 0

/-- The sum of the shares. -/
def potential (s : RunState) (phase : Phase) : Nat :=
  ∑ n ∈ nodeIds bp, ρ.share s phase n

/-- The potential is at most this. -/
def bound : Nat := (nodeIds bp).card * base bp ^ (ρ.height + 1)

variable {ρ}

theorem worth_pos : 0 < ρ.worth n := weight_pos base_pos

theorem worth_le_gain (h : ρ.rank v < ρ.rank n) : ρ.worth n ≤ ρ.gain v :=
  weight_le_change base_pos h

theorem mem_nodeIds : n ∈ nodeIds bp ↔ ∃ nd ∈ bp.nodes, nd.id = n := by
  simp [nodeIds]

theorem rank_le (hn : n ∈ nodeIds bp) : ρ.rank n ≤ ρ.height := by
  obtain ⟨nd, hnd, rfl⟩ := mem_nodeIds.1 hn
  exact ρ.le_height nd hnd

/-- A unit pays for the nodes behind it, and for one unit more. -/
theorem mul_gain_lt_worth (hn : n ∈ nodeIds bp) :
    (2 ^ 32 + 2) * ((nodeIds bp).card * ρ.gain n) < ρ.worth n := by
  rw [← Nat.mul_assoc]
  exact mul_change_lt_weight (rank_le hn) (Nat.lt_succ_self _)

theorem card_gain_lt_worth (hn : n ∈ nodeIds bp) : (nodeIds bp).card * ρ.gain n < ρ.worth n :=
  (Nat.le_mul_of_pos_left _ (by decide)).trans_lt (mul_gain_lt_worth hn)

theorem share_le (hn : n ∈ nodeIds bp) : ρ.share s phase n ≤ ρ.worth n := by
  unfold share
  split
  · exact Nat.sub_le _ _
  · split
    · exact le_rfl
    · split
      · refine le_trans ?_ (mul_gain_lt_worth hn).le
        refine Nat.mul_le_mul_right _ ?_
        omega
      · exact Nat.sub_le _ _
    · exact Nat.zero_le _
    · exact Nat.zero_le _
    · exact Nat.zero_le _

theorem potential_le : ρ.potential s phase ≤ ρ.bound := by
  refine (Finset.sum_le_card_nsmul _ _ (base bp ^ (ρ.height + 1)) fun n hn => ?_).trans_eq ?_
  · exact (share_le hn).trans (weight_le base_pos)
  · rw [smul_eq_mul]
    rfl

theorem share_opening : ρ.share s (.opening n) n = ρ.worth n - 1 := if_pos rfl

theorem share_pending (hph : phase ≠ .opening n) (h : s.statusOrPending n = .pending) :
    ρ.share s phase n = ρ.worth n := by
  rw [share, if_neg hph, h]

theorem share_working (hph : phase ≠ .opening n) (h : s.statusOrPending n = .running)
    (hloop : ¬IsLoop bp n) : ρ.share s phase n = ρ.worth n - 1 := by
  rw [share, if_neg hph, h]
  exact if_neg hloop

theorem share_loop (hph : phase ≠ .opening n) (h : s.statusOrPending n = .running)
    (hloop : IsLoop bp n) : ρ.share s phase n =
      (2 ^ 32 - (s.loopIter[n]?).getD 0 + 1) * ((nodeIds bp).card * ρ.gain n) := by
  rw [share, if_neg hph, h]
  exact if_pos hloop

theorem share_ended (hph : phase ≠ .opening n) (h : terminal s n = true) : ρ.share s phase n = 0 := by
  unfold terminal at h
  rw [share, if_neg hph]
  cases hstat : s.statusOrPending n with
  | pending | running =>
    rw [hstat] at h
    cases h
  | completed | skipped | failed => rfl

theorem share_congr (hph : phase ≠ .opening n) (hph' : phase' ≠ .opening n)
    (h : s'.statusOrPending n = s.statusOrPending n)
    (hiter : s'.loopIter[n]? = s.loopIter[n]?) : ρ.share s' phase' n = ρ.share s phase n := by
  rw [share, share, if_neg hph, if_neg hph', h, hiter]

/-! ### One event -/

variable {kind : EventKind}

theorem ne_opening (h : Legal bp s phase kind phase') : phase' ≠ .opening n := by
  cases h <;> exact fun h => by cases h

variable {ts : String}

/-- An event raises the share of a node that does not act for it only when it makes the node
pending, and then the node is behind the one that acts. -/
theorem share_other (hwf : WellFormed bp) (hleg : Legal bp s phase kind phase')
    (happ : apply bp s ⟨s.nextSeq, ts, kind⟩ = .ok s') (hact : kind.actor ≠ some n) :
    ρ.share s' phase' n = ρ.share s phase n ∨
      ∃ v ∈ nodeIds bp, kind.actor = some v ∧
        (kind.resets = some v ∨ ∃ port, kind.pulses bp = some (v, port)) ∧
        ρ.share s' phase' n ≤ ρ.gain v := by
  have hph : phase ≠ .opening n := by
    rintro rfl
    exact hact hleg.actor_of_opening
  have hph' : phase' ≠ .opening n := ne_opening hleg
  have hiter : s'.loopIter[n]? = s.loopIter[n]? := by
    refine loopIter_apply_other (fun iteration hkind => hact ?_) happ
    rw [show kind = .loopIteration n iteration from hkind]
    rfl
  have hstat : s'.statusOrPending n = (effect bp (marking bp s) kind).status n :=
    statusOrPending_apply happ n
  by_cases hclrd : ∃ p, kind.resets = some p ∧ InBody bp n p
  · obtain ⟨p, hp, hbody⟩ := hclrd
    obtain ⟨hloop, -⟩ := hleg.resets_running hp
    have hpend : s'.statusOrPending n = .pending := hstat.trans (status_cleared hp hbody)
    refine .inr ⟨p, mem_nodeIds.2 ?_, EventKind.actor_of_resets hp, .inl hp, ?_⟩
    · obtain ⟨nd, hnd, -⟩ := hloop
      exact ⟨nd, Automation.Blueprint.findNode_some hnd⟩
    · rw [share_pending hph' hpend]
      exact worth_le_gain (ρ.body n p hbody)
  · have hkept := status_effect (m := marking bp s) hact
      fun p hp hbody => hclrd ⟨p, hp, hbody⟩
    rw [← hstat] at hkept
    rcases hkept with hsame | ⟨-, hpend, v, port, i, hpuls, hlvs, hntrs⟩
    · exact .inl (share_congr hph hph' hsame hiter)
    · obtain ⟨e, he, hfrom, -⟩ := hlvs
      obtain ⟨e', he', rfl⟩ := hntrs
      obtain rfl : e = e' := Option.some.inj (he.symm.trans he')
      have hrank := ρ.edge e (List.mem_of_getElem? he)
      refine .inr ⟨v, ?_, EventKind.actor_of_pulses hpuls, .inr ⟨port, hpuls⟩, ?_⟩
      · obtain ⟨nd, hnd⟩ := (hwf.edge_ends e (List.mem_of_getElem? he)).1
        obtain ⟨hmem, hid⟩ := Automation.Blueprint.findNode_some hnd
        exact mem_nodeIds.2 ⟨nd, hmem, hid.trans hfrom⟩
      · rw [share_pending hph' hpend]
        exact worth_le_gain (hfrom ▸ hrank)

theorem status_mark_pulse {mk : Marking} {st : NodeStatus} {port : String}
    (hst : st ≠ .skipped) : ((mk.mark v st).pulse bp v port).status v = st := by
  have hself : (mk.mark v st).status v = st := by simp
  rw [Marking.status_pulse_of_ne (hself.symm ▸ hst), hself]

theorem share_actor (ρ : Ranking bp) (hwf : WellFormed bp) (hsnd : PhaseSound bp s trace phase)
    (hleg : Legal bp s phase kind phase') (happ : apply bp s ⟨s.nextSeq, ts, kind⟩ = .ok s')
    (hact : kind.actor = some v) (hv : v ∈ nodeIds bp)
    (hbnd : ∀ l iteration, kind = .loopIteration l iteration → iteration ≠ 0 → iteration < 2 ^ 32) :
    ρ.share s' phase' v + (nodeIds bp).card * ρ.gain v ≤ ρ.share s phase v ∨
      (ρ.share s' phase' v ≤ ρ.share s phase v ∧ kind.resets = none ∧ kind.pulses bp = none) := by
  have hph' : phase' ≠ .opening v := ne_opening hleg
  have hstat : s'.statusOrPending v = (effect bp (marking bp s) kind).status v :=
    statusOrPending_apply happ v
  have hpays : (nodeIds bp).card * ρ.gain v < ρ.worth v := card_gain_lt_worth hv
  -- a node that ends keeps nothing
  have hend : ∀ st, s'.statusOrPending v = st → (st = .completed ∨ st = .skipped ∨ st = .failed) →
      ρ.share s' phase' v = 0 := by
    intro st hst hcs
    refine share_ended hph' ?_
    unfold terminal
    rw [hst]
    rcases hcs with rfl | rfl | rfl <;> rfl
  cases hleg with
  | prepares | updates | notifies | completes | aborts => cases hact
  | passes output hloop hdec =>
    cases hact
    simp only [effect, hdec, Bool.false_eq_true, if_false] at hstat
    rw [status_mark_pulse (by decide)] at hstat
    rw [hend _ hstat (.inl rfl), share_opening]
    exact .inl (by omega)
  | branches port hloop =>
    cases hact
    rw [effect, status_mark_pulse (by decide)] at hstat
    rw [hend _ hstat (.inl rfl), share_opening]
    exact .inl (by omega)
  | enters hloop =>
    cases hact
    simp only [effect, if_true] at hstat
    rw [status_mark_pulse (by decide)] at hstat
    rw [share_loop hph' hstat hloop, (loopIter_apply_self rfl happ).1, share_opening]
    have hloops : (2 ^ 32 + 2) * ((nodeIds bp).card * ρ.gain v) < ρ.worth v := mul_gain_lt_worth hv
    refine .inl ?_
    simp only [Option.getD_some, Nat.sub_zero]
    rw [← Nat.succ_mul]
    omega
  | starts hloop =>
    cases hact
    have hrunn : s'.statusOrPending v = .running := hstat.trans (by simp [effect])
    rw [share_working hph' hrunn hloop, share_opening]
    exact .inr ⟨le_rfl, rfl, rfl⟩
  | parks hgate =>
    cases hact
    have hrunn : s'.statusOrPending v = .running := hstat.trans (by simp [effect])
    rw [share_working hph' hrunn (not_isLoop_of_isApproval hgate), share_opening]
    exact .inr ⟨le_rfl, rfl, rfl⟩
  | refuses | fails =>
    cases hact
    rw [hend .failed (hstat.trans (by simp [effect])) (.inr (.inr rfl))]
    exact .inr ⟨Nat.zero_le _, rfl, rfl⟩
  | skips | cascades =>
    cases hact
    rw [hend .skipped (hstat.trans (by simp [effect])) (.inr (.inl rfl))]
    exact .inr ⟨Nat.zero_le _, rfl, rfl⟩
  | finishes output hdec =>
    cases hact
    simp only [effect, hdec, Bool.false_eq_true, if_false] at hstat
    rw [status_mark_pulse (by decide)] at hstat
    rw [hend _ hstat (.inl rfl), share_working (by simp) hsnd.2.1 hsnd.2.2]
    exact .inl (by omega)
  | decides output port =>
    cases hact
    rw [effect, status_mark_pulse (by decide)] at hstat
    rw [hend _ hstat (.inl rfl), share_working (by simp) hsnd.2.1 hsnd.2.2]
    exact .inl (by omega)
  | grants =>
    cases hact
    rw [effect, status_mark_pulse (by decide)] at hstat
    rw [hend _ hstat (.inl rfl), share_working (by simp) hsnd.2.1
      (not_isLoop_of_isApproval hsnd.2.2.1)]
    exact .inl (by omega)
  | closes hloop hrunn =>
    cases hact
    rw [effect, status_mark_pulse (by decide)] at hstat
    rw [hend _ hstat (.inl rfl), share_loop (by simp) hrunn hloop, Nat.zero_add]
    exact .inl (Nat.le_mul_of_pos_left _ (Nat.succ_pos _))
  | @iterates _ iteration hloop hrunn hnext =>
    cases hact
    obtain ⟨hself, hprev⟩ := loopIter_apply_self rfl happ
    have hlt := hbnd v iteration rfl hnext
    have hrunn' : s'.statusOrPending v = .running := by
      have hrst := Marking.status_reset_of_not_inBody (m := marking bp s)
        (hwf.not_inBody_of_isLoop hloop (p := v))
      simp only [effect, if_neg hnext] at hstat
      rw [Marking.status_pulse_of_ne (by rw [hrst, status_marking, hrunn]; decide),
        hrst] at hstat
      exact hstat.trans hrunn
    rw [share_loop hph' hrunn' hloop, share_loop (by simp) hrunn hloop, hself,
      hprev hnext, ← Nat.succ_mul]
    refine .inl (Nat.mul_le_mul_right _ ?_)
    simp only [Option.getD_some]
    omega

theorem potential_emits (ρ : Ranking bp) (hwf : WellFormed bp) (hsnd : PhaseSound bp s trace phase)
    (hleg : Legal bp s phase kind phase') (happ : apply bp s ⟨s.nextSeq, ts, kind⟩ = .ok s')
    (hbnd : ∀ l iteration, kind = .loopIteration l iteration → iteration ≠ 0 → iteration < 2 ^ 32) :
    ρ.potential s' phase' ≤ ρ.potential s phase := by
  have hoths : ∀ n, kind.actor ≠ some n → ρ.share s' phase' n = ρ.share s phase n ∨ _ :=
    fun n => share_other hwf hleg happ
  by_cases hv : ∃ v ∈ nodeIds bp, kind.actor = some v
  · obtain ⟨v, hmem, hact⟩ := hv
    have hne : ∀ n, n ≠ v → kind.actor ≠ some n := by
      intro n hn h
      exact hn (Option.some.inj (h.symm.trans hact))
    rcases share_actor ρ hwf hsnd hleg happ hact hmem hbnd with hpays | hkeeps
    · refine sum_le_of_pays hmem (fun n hn hnv => ?_) hpays
      rcases hoths n (hne n hnv) with hsame | ⟨u, -, hu, -, hle⟩
      · omega
      · obtain rfl : u = v := Option.some.inj (hu.symm.trans hact)
        omega
    · obtain ⟨hle, hrsts, hpuls⟩ := hkeeps
      refine Finset.sum_le_sum fun n hn => ?_
      by_cases hnv : n = v
      · exact hnv ▸ hle
      · rcases hoths n (hne n hnv) with hsame | ⟨u, -, -, hwakes, -⟩
        · exact hsame.le
        · exfalso
          rcases hwakes with h | ⟨port, h⟩
          · rw [hrsts] at h
            cases h
          · rw [hpuls] at h
            cases h
  · refine Finset.sum_le_sum fun n hn => ?_
    rcases hoths n (fun h => hv ⟨n, hn, h⟩) with hsame | ⟨u, hmem, hu, -⟩
    · exact hsame.le
    · exact absurd ⟨u, hmem, hu⟩ hv

theorem potential_dispatches (ρ : Ranking bp) {node : String} {nd : Node} (hnode : bp.findNode node = some nd)
    (hrdy : Ready bp s node) : ρ.potential s (.opening node) + 1 ≤ ρ.potential s .idle := by
  obtain ⟨hmem, hid⟩ := Automation.Blueprint.findNode_some hnode
  refine sum_succ_le (v := node) (mem_nodeIds.2 ⟨nd, hmem, hid⟩) (fun n _ hne => ?_) ?_
  · refine (share_congr (by simp) (fun h => hne ?_) rfl rfl).le
    cases h
    rfl
  · rw [share_opening, share_pending (by simp) hrdy.pending]
    have hpos : 0 < ρ.worth node := worth_pos
    omega

end Ranking

/-! ### Runs -/

theorem resolveU32Field_le (fields : JsonMap) (key : String) (registry : Value) {default : Nat}
    (hdflt : default ≤ maxU32) : resolveU32Field fields key registry default ≤ maxU32 := by
  unfold resolveU32Field
  split
  · exact hdflt
  · split
    · exact Nat.min_le_right _ _
    · split
      · exact hdflt
      · split
        · exact hdflt
        · split
          · exact Nat.min_le_right _ _
          · exact hdflt

theorem maxIterations_le (registry : Value) (loopNode : Option Node) :
    maxIterations registry loopNode ≤ maxU32 := by
  unfold maxIterations
  split
  · exact max_le (resolveU32Field_le _ _ _ (by decide)) (by decide)
  · decide

/-- **The potential bounds the dispatches of a run** whose events are guarded. -/
theorem Reach.potential_le (hwf : WellFormed bp) (ρ : Ranking bp) (h : Reach bp m m')
    (hsnd : PhaseSound bp m.state m.trace m.phase) : ∃ new, m'.trace = new ++ m.trace ∧
      (Guarded bp m.trace new →
        ρ.potential m'.state m'.phase + dispatches new ≤ ρ.potential m.state m.phase) := by
  refine (Reach.inv (I := fun m' => PhaseSound bp m'.state m'.trace m'.phase ∧
    ∃ new, m'.trace = new ++ m.trace ∧ (Guarded bp m.trace new →
      ρ.potential m'.state m'.phase + dispatches new ≤ ρ.potential m.state m.phase)) ?_ h
    ⟨hsnd, [], rfl, fun _ => le_rfl⟩).2
  rintro m₁ m₂ ⟨hsnd₁, new, htr, hle⟩ hmove
  refine ⟨Reach.sound (.single hmove) hsnd₁, ?_⟩
  cases hmove with
  | @emits s s' phase phase' trace kind ts hleg happ =>
    refine ⟨.emitted s kind s' :: new, congrArg (_ :: ·) htr, fun hgrdd => ?_⟩
    have hbnd : ∀ l iteration, kind = .loopIteration l iteration → iteration ≠ 0 →
        iteration < 2 ^ 32 := by
      rintro l iteration rfl hne
      obtain ⟨⟨registry, hlt⟩, -⟩ := hgrdd.1 hne
      have hmax : maxIterations registry (bp.findNode l) ≤ 2 ^ 32 - 1 := maxIterations_le _ _
      omega
    have hstep := ρ.potential_emits hwf hsnd₁ hleg happ hbnd
    have hcnt : dispatches (.emitted s kind s' :: new) = dispatches new := by
      simp [dispatches]
    have hprev := hle hgrdd.2
    rw [hcnt]
    exact (Nat.add_le_add_right hstep _).trans hprev
  | @dispatches s trace node nd hnode hrdy =>
    refine ⟨.dispatched node s :: new, congrArg (_ :: ·) htr, fun hgrdd => ?_⟩
    have hstep := ρ.potential_dispatches hnode hrdy
    have hcnt : dispatches (.dispatched node s :: new) = dispatches new + 1 := by
      simp [dispatches]
    have hprev : ρ.potential s .idle + dispatches new ≤ _ := hle hgrdd
    show ρ.potential s (.opening node) + _ ≤ _
    omega
  | @plans s trace hadvd =>
    exact ⟨.planned s :: new, congrArg (_ :: ·) htr, hle⟩
  | @sends s trace node req =>
    exact ⟨.sent req :: new, congrArg (_ :: ·) htr, hle⟩
  | reloads => exact ⟨new, htr, hle⟩

end Wardian.Engine
