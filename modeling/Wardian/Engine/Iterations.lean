/-
The iterations of a loop.

A loop is entered once, with iteration 0; each later iteration follows the one before it, and after
the loop has completed it does not start again.  Between two events of a loop its body runs: the
node behind the `body` port has a token, so the plan of a pass does not skip it, and the loop goes on
only when that node has ended.

Main results:

* `Engine.Reach.loopInv` — every loop of a run has a stage, and every iteration runs its body.
-/

import Wardian.Engine.Guards

set_option autoImplicit false

namespace Wardian.Engine

open List
open Automation (Blueprint Node IsLoop InBody WellFormed validate)

variable {bp : Blueprint} {m m' : Machine} {s s' : RunState} {phase phase' : Phase}
  {trace : List Observation} {l : String} {ev : Event}

/-! ### The number of the iteration -/

theorem loopIter_apply_self {iteration : Nat} (hkind : ev.kind = .loopIteration l iteration)
    (h : apply bp s ev = .ok s') : s'.loopIter[l]? = some iteration ∧
      (iteration ≠ 0 → s.loopIter[l]? = some (iteration - 1)) := by
  obtain ⟨t, happ, rfl⟩ := apply_ok h
  rw [hkind] at happ
  rcases applyLoopIteration_ok happ with ⟨rfl, rfl⟩ | ⟨-, hprev, s₁, -, rfl⟩
  · refine ⟨?_, fun h => absurd rfl h⟩
    show (deliverFromPort bp _ l "body").loopIter[l]? = _
    rw [deliverFromPort_loopIter]
    exact (Table.lookup_insert ..).trans (if_pos rfl)
  · refine ⟨?_, fun _ => hprev⟩
    show (deliverFromPort bp _ l "body").loopIter[l]? = _
    rw [deliverFromPort_loopIter]
    exact (Table.lookup_insert ..).trans (if_pos rfl)

theorem loopIter_apply_other (hkind : ∀ iteration, ev.kind ≠ .loopIteration l iteration)
    (h : apply bp s ev = .ok s') : s'.loopIter[l]? = s.loopIter[l]? := by
  obtain ⟨t, happ, rfl⟩ := apply_ok h
  show t.loopIter[l]? = s.loopIter[l]?
  cases hk : ev.kind with
  | runStarted =>
    rw [hk] at happ
    obtain ⟨id, hash', rfl⟩ := applyRunStarted_ok happ
    exact RunState.normalizeLegacy_frame (f := fun s : RunState => s.loopIter[l]?) _ fun _ => rfl
  | messageSendPrepared =>
    rw [hk] at happ
    rw [applyMessageSendPrepared_ok happ]
  | stateUpdated =>
    rw [hk] at happ
    obtain ⟨storage, rfl⟩ := applyStateUpdate_ok happ
    rfl
  | loopIteration v iteration =>
    rw [hk] at happ
    have hne : v ≠ l := fun he => hkind iteration (he ▸ hk)
    rcases applyLoopIteration_ok happ with ⟨rfl, rfl⟩ | ⟨-, -, s₁, rfl, rfl⟩
    · rw [deliverFromPort_loopIter]
      exact (Table.lookup_insert ..).trans (if_neg hne)
    · rw [deliverFromPort_loopIter]
      refine ((Table.lookup_insert ..).trans (if_neg hne)).trans ?_
      exact foldl_resetBodyNode_frame (f := fun s : RunState => s.loopIter[l]?)
        (bodyNodes bp v) s fun _ _ _ _ => rfl
  | nodeCompleted v output =>
    rw [hk] at happ
    cases happ
    unfold completeNode
    dsimp only
    split
    · rfl
    · rw [deliverFromPort_loopIter]
      rfl
  | decisionCompleted | branchTaken | decisionMade | loopCompleted | approvalGranted =>
    rw [hk] at happ
    cases happ
    simp only [deliverChosenPort, deliverFromPort_loopIter]
    rfl
  | _ =>
    rw [hk] at happ
    cases happ
    rfl

/-! ### The events of a loop -/

/-- The loop that an event is about. -/
def EventKind.loopOf : EventKind → Option String
  | .loopIteration loopId _ | .loopCompleted loopId => some loopId
  | _ => none

/-- The events of a loop among others. -/
def loopKinds (loopId : String) (kinds : List EventKind) : List EventKind :=
  kinds.filter fun kind => kind.loopOf = some loopId

/-- The iterations from 0 on, `count` of them, in order. -/
def iterations (loopId : String) (count : Nat) : List EventKind :=
  (range count).map (.loopIteration loopId)

theorem iterations_succ (loopId : String) (count : Nat) :
    iterations loopId (count + 1) = iterations loopId count ++ [.loopIteration loopId count] := by
  simp [iterations, range_succ]

variable {kind : EventKind}

theorem EventKind.actor_of_loopOf (h : kind.loopOf = some l) : kind.actor = some l := by
  cases kind <;> first | exact h | cases h

variable {kinds : List EventKind}

theorem loopKinds_cons (h : kind.loopOf = some l) :
    loopKinds l (kind :: kinds) = kind :: loopKinds l kinds := by
  simp [loopKinds, h]

theorem loopKinds_cons_other
    (h : kind.loopOf ≠ some l) : loopKinds l (kind :: kinds) = loopKinds l kinds := by
  simp [loopKinds, h]

/-- A node of the body has been dispatched since the last iteration of the loop began. -/
def RanBody (bp : Blueprint) (loopId : String) : List Observation → Prop
  | [] => False
  | .dispatched node _ :: trace => InBody bp node loopId ∨ RanBody bp loopId trace
  | .emitted _ kind _ :: trace =>
    (∀ iteration, kind ≠ .loopIteration loopId iteration) ∧ RanBody bp loopId trace
  | .planned _ :: trace | .sent _ :: trace => RanBody bp loopId trace

/-- Whenever a loop went on, a node of its body had been dispatched in the iteration that ended. -/
def EachRan (bp : Blueprint) (loopId : String) : List Observation → Prop
  | [] => True
  | .emitted _ kind _ :: trace =>
    (AdvanceOf loopId kind → RanBody bp loopId trace) ∧ EachRan bp loopId trace
  | .dispatched _ _ :: trace | .planned _ :: trace | .sent _ :: trace => EachRan bp loopId trace

/-! ### The body of a loop -/

/-- The node is being dispatched, or its side effect or its gate is open. -/
def Phase.Active (phase : Phase) (node : String) : Prop :=
  phase = .opening node ∨ phase = .working node ∨ phase = .parked node

/-- A node that no token has reached. -/
structure Asleep (bp : Blueprint) (s : RunState) (phase : Phase) (node : String) : Prop where
  status : s.statusOrPending node = .pending ∨ s.statusOrPending node = .skipped
  token : ∀ i, Enters bp i node → i ∉ s.deliveredTo node
  phase : ¬phase.Active node

/-- A node that has a token which nothing takes away before it is dispatched. -/
structure Awake (bp : Blueprint) (s : RunState) (trace : List Observation) (i : Nat)
    (node : String) : Prop where
  pending : s.statusOrPending node = .pending
  edge : i ∉ (marking bp s).skipped
  plan : ∀ s₀, planOf trace = some s₀ → node ∉ newlySkipped s₀ (finalizeIfDone bp s₀)

/-- An edge from the `body` port of a loop into its body. -/
structure BodyEntry (bp : Blueprint) (loopId : String) (i : Nat) (node : String) : Prop where
  leaves : LeavesPort bp i loopId "body"
  enters : Enters bp i node
  body : InBody bp node loopId

/-- How far a loop has come. -/
inductive LoopStage (bp : Blueprint) (loopId : String) (m : Machine) : Prop
  /-- The loop has not been entered, and nothing has reached its body. -/
  | fresh (kinds : loopKinds loopId (emittedKinds m.trace) = [])
      (status : m.state.statusOrPending loopId ≠ .running ∧
        m.state.statusOrPending loopId ≠ .completed)
      (body : ∀ b, InBody bp b loopId → Asleep bp m.state m.phase b)
  | running (last : Nat)
      (kinds : loopKinds loopId (emittedKinds m.trace) = (iterations loopId (last + 1)).reverse)
      (status : m.state.statusOrPending loopId = .running)
      (iter : m.state.loopIter[loopId]? = some last)
      (active : ∀ b, InBody bp b loopId → m.phase.Active b → RanBody bp loopId m.trace)
      (entry : ∀ i b, BodyEntry bp loopId i b →
        RanBody bp loopId m.trace ∨ Awake bp m.state m.trace i b)
  | completed (last : Nat)
      (kinds : loopKinds loopId (emittedKinds m.trace) =
        .loopCompleted loopId :: (iterations loopId (last + 1)).reverse)
      (status : m.state.statusOrPending loopId = .completed)

/-! ### What a plan skips -/

variable {i : Nat} {b : String}

/-- A cascade does not skip a node behind an open edge from a node that it does not skip. -/
theorem cascadeSkips_keeps {u : String} (hlvs : Leaves bp i u)
    (hntrs : Enters bp i b) : ∀ (fuel : Nat) {s : RunState}, s.statusOrPending u ≠ .pending →
      i ∉ (marking bp s).skipped → s.statusOrPending b ≠ .skipped →
      (cascadeSkips bp fuel s).statusOrPending b ≠ .skipped := by
  intro fuel
  induction fuel with
  | zero => exact fun _ _ h => h
  | succ fuel ih =>
    intro s hu hi hb
    rw [cascadeSkips]
    split
    · exact hb
    · obtain ⟨hstat, -, hskip, -⟩ := marking_foldl_skipNode bp (unreachableNodes bp s) s
      have hub : b ∉ unreachableNodes bp s := fun h =>
        hi ((mem_unreachableNodes.1 h).2.2.2 i hntrs)
      have huu : u ∉ unreachableNodes bp s := fun h => hu (mem_unreachableNodes.1 h).2.1
      refine ih ?_ (fun h => ?_) ?_
      · rw [hstat, if_neg huu]
        exact hu
      · rcases (hskip i).1 h with h | ⟨n, hn, hlvs'⟩
        · exact hi h
        · exact huu (hlvs.unique hlvs' ▸ hn)
      · rw [hstat, if_neg hub]
        exact hb

theorem not_mem_newlySkipped {u : String} (hlvs : Leaves bp i u)
    (hntrs : Enters bp i b) (hu : s.statusOrPending u ≠ .pending)
    (hi : i ∉ (marking bp s).skipped) : b ∉ newlySkipped s (finalizeIfDone bp s) := by
  rw [mem_newlySkipped]
  rintro ⟨hfin, hb⟩
  unfold finalizeIfDone at hfin
  split at hfin
  · exact hb hfin
  · refine cascadeSkips_keeps hlvs hntrs bp.nodes.length hu hi hb ?_
    dsimp only at hfin
    split at hfin
    · exact hfin
    · exact hfin

theorem skipped_effect {mk : Marking} (h : i ∈ (effect bp mk kind).skipped) :
    i ∈ mk.skipped ∨ ∃ v, kind.actor = some v ∧ Leaves bp i v := by
  have hpulse : ∀ {mk' : Marking} {v port : String}, kind.actor = some v →
      (i ∈ mk'.skipped → i ∈ mk.skipped) → i ∈ (mk'.pulse bp v port).skipped →
      i ∈ mk.skipped ∨ ∃ v, kind.actor = some v ∧ Leaves bp i v := by
    intro mk' v port hv hsub h
    rcases Marking.mem_skipped_pulse.1 h with ⟨h, -⟩ | ⟨h, -⟩
    · exact .inl (hsub h)
    · exact .inr ⟨v, hv, h⟩
  cases kind with
  | nodeCompleted v output =>
    simp only [effect] at h
    split at h
    · exact .inl h
    · exact hpulse rfl id h
  | decisionCompleted | branchTaken | decisionMade | loopCompleted | approvalGranted =>
    exact hpulse rfl id h
  | loopIteration v iteration =>
    simp only [effect] at h
    split at h
    · exact hpulse rfl id h
    · exact hpulse rfl (fun h => (Marking.mem_skipped_reset.1 h).1) h
  | nodeSkipped v =>
    rcases Marking.mem_skipped_skip.1 h with h | h
    · exact .inl h
    · exact .inr ⟨v, rfl, h⟩
  | _ => exact .inl h

/-! ### Events of other nodes -/

theorem Legal.active {n : String} (h : Legal bp s phase kind phase')
    (hact : phase'.Active n) : phase.Active n := by
  cases h <;> rcases hact with h | h | h <;> cases h <;>
    first | exact .inl rfl | exact .inr (.inl rfl)

/-- A node that no token has reached does not act, except to be skipped by a plan. -/
theorem Legal.skips_of_inactive {n : String} (h : Legal bp s phase kind phase') (hactor : kind.actor = some n)
    (hloop : ¬IsLoop bp n) (hph : ¬phase.Active n) : kind = .nodeSkipped n := by
  cases h with
  | prepares | updates | notifies | completes | aborts => cases hactor
  | passes | starts | parks | enters | branches | refuses =>
    cases hactor
    exact absurd (.inl rfl) hph
  | finishes | decides | skips | fails =>
    cases hactor
    exact absurd (.inr (.inl rfl)) hph
  | grants =>
    cases hactor
    exact absurd (.inr (.inr rfl)) hph
  | iterates h | closes h =>
    cases hactor
    exact absurd h hloop
  | cascades =>
    cases hactor
    rfl

section Other

variable {kind : EventKind} {ts : String}

/-- The status of a body node after an event of another node than the loop. -/
theorem status_body (hwf : WellFormed bp) {b : String} (hb : InBody bp b l)
    (happ : apply bp s ⟨s.nextSeq, ts, kind⟩ = .ok s') (hactor : kind.actor ≠ some l)
    (hself : kind.actor ≠ some b) : s'.statusOrPending b = s.statusOrPending b ∨
      (s.statusOrPending b = .skipped ∧ s'.statusOrPending b = .pending) := by
  rw [statusOrPending_apply happ]
  refine (status_effect (m := marking bp s) hself fun p hp hbody => hactor ?_).imp_right
    fun h => ⟨h.1, h.2.1⟩
  rw [EventKind.actor_of_resets hp, hwf.inBody_unique hbody hb]

/-- What no token has reached stays so, as long as the loop does nothing. -/
theorem Asleep.emits (hwf : WellFormed bp) (hsnd : PhaseSound bp s trace phase)
    (hleg : Legal bp s phase kind phase') (happ : apply bp s ⟨s.nextSeq, ts, kind⟩ = .ok s')
    (hactor : kind.actor ≠ some l) (h : ∀ b, InBody bp b l → Asleep bp s phase b) {b : String}
    (hb : InBody bp b l) : Asleep bp s' phase' b := by
  obtain ⟨hstat, htok, hph⟩ := h b hb
  have hnotl : ∀ v, InBody bp v l → ¬IsLoop bp v := fun v hv hl => hwf.not_inBody_of_isLoop hl hv
  refine ⟨?_, fun i hi hmem => ?_, fun hact => hph (hleg.active hact)⟩
  · by_cases hself : kind.actor = some b
    · obtain rfl := hleg.skips_of_inactive hself (hnotl b hb) hph
      refine .inr ((statusOrPending_apply happ b).trans ?_)
      simp [effect]
    · rcases status_body hwf hb happ hactor hself with hsame | ⟨-, hpend⟩
      · rw [hsame]
        exact hstat
      · exact .inl hpend
  · rw [← mem_delivered_marking hi, marking_apply happ] at hmem
    rcases delivered_effect hmem with hmem | ⟨v, port, hpuls, e, he, hfrom, -⟩
    · exact htok i hi ((mem_delivered_marking hi).1 hmem)
    · -- only the loop and its body have edges into the body
      obtain ⟨e', he', rfl⟩ := hi
      obtain rfl : e = e' := Option.some.inj (he.symm.trans he')
      rcases hwf.body_input e (mem_of_getElem? he) l hb with heq | hin
      · exact hactor (heq ▸ hfrom ▸ EventKind.actor_of_pulses hpuls)
      · rw [hfrom] at hin
        rcases hleg.pulses_origin hsnd hpuls with ⟨hat, -⟩ | ⟨hl, -⟩
        · exact (h v hin).phase hat
        · exact hnotl v hin hl

theorem planOf_emitted {s₀ : RunState} (h : planOf (.emitted s kind s' :: trace) = some s₀) :
    planOf trace = some s₀ := by
  cases kind <;> first | exact h | cases h

theorem Awake.emits (hwf : WellFormed bp) {i : Nat} {b : String} (hent : BodyEntry bp l i b)
    (hleg : Legal bp s phase kind phase') (happ : apply bp s ⟨s.nextSeq, ts, kind⟩ = .ok s')
    (hgrd : Guard bp trace s kind) (hactor : kind.actor ≠ some l) (hph : ¬phase.Active b)
    (h : Awake bp s trace i b) : Awake bp s' (.emitted s kind s' :: trace) i b := by
  obtain ⟨hpend, hedge, hplan⟩ := h
  have hself : kind.actor ≠ some b := by
    intro hself
    obtain rfl := hleg.skips_of_inactive hself
      (fun hl => hwf.not_inBody_of_isLoop hl hent.body) hph
    obtain ⟨s₀, hs₀, hmem⟩ := hgrd hpend
    exact hplan s₀ hs₀ hmem
  refine ⟨?_, fun hmem => ?_, fun s₀ hs₀ => hplan s₀ (planOf_emitted hs₀)⟩
  · rcases status_body hwf hent.body happ hactor hself with hsame | ⟨hskip, -⟩
    · exact hsame.trans hpend
    · rw [hpend] at hskip
      cases hskip
  · rw [marking_apply happ] at hmem
    rcases skipped_effect hmem with hmem | ⟨v, hv, hlvs⟩
    · exact hedge hmem
    · exact hactor (hv.trans (congrArg some (hlvs.unique hent.leaves.leaves)))

theorem LoopStage.emits_other (hwf : WellFormed bp) (hloop : IsLoop bp l)
    (hsnd : PhaseSound bp s trace phase) (hleg : Legal bp s phase kind phase')
    (happ : apply bp s ⟨s.nextSeq, ts, kind⟩ = .ok s') (hgrd : Guard bp trace s kind)
    (hactor : kind.actor ≠ some l) (h : LoopStage bp l ⟨s, phase, trace⟩) :
    LoopStage bp l ⟨s', phase', .emitted s kind s' :: trace⟩ := by
  have hks : loopKinds l (emittedKinds (.emitted s kind s' :: trace)) =
      loopKinds l (emittedKinds trace) :=
    loopKinds_cons_other fun h => hactor (EventKind.actor_of_loopOf h)
  have hnot : ∀ iteration, kind ≠ .loopIteration l iteration := by
    rintro iteration rfl
    exact hactor rfl
  have hstat : s'.statusOrPending l = s.statusOrPending l ∨
      (s.statusOrPending l = .skipped ∧ s'.statusOrPending l = .pending) := by
    rw [statusOrPending_apply happ]
    exact (status_effect (m := marking bp s) hactor
      fun p _ => hwf.not_inBody_of_isLoop hloop).imp_right fun h => ⟨h.1, h.2.1⟩
  have hkeeps : ∀ st, s.statusOrPending l = st → st ≠ .skipped → s'.statusOrPending l = st := by
    intro st hst hne
    rcases hstat with hsame | ⟨hskip, -⟩
    · exact hsame.trans hst
    · exact absurd (hst.symm.trans hskip) hne
  cases h with
  | fresh hnone hfrs hbody =>
    refine .fresh (hks.trans hnone) ?_ fun b hb =>
      Asleep.emits hwf hsnd hleg happ hactor hbody hb
    show s'.statusOrPending l ≠ _ ∧ s'.statusOrPending l ≠ _
    rcases hstat with hsame | ⟨-, hpend⟩
    · rw [hsame]
      exact hfrs
    · rw [hpend]
      exact ⟨by decide, by decide⟩
  | running last hnone hrunn hiter hact hents =>
    refine .running last (hks.trans hnone) (hkeeps _ hrunn (by decide))
      ((loopIter_apply_other hnot happ).trans hiter)
      (fun b hb hat => ⟨hnot, hact b hb (hleg.active hat)⟩) fun i b hent => ?_
    by_cases hran : RanBody bp l trace
    · exact .inl ⟨hnot, hran⟩
    · refine .inr (((hents i b hent).resolve_left hran).emits hwf hent hleg happ hgrd
        hactor fun hat => hran (hact b hent.body hat))
  | completed last hnone hcompd =>
    exact .completed last (hks.trans hnone) (hkeeps _ hcompd (by decide))

end Other

/-! ### Events of the loop -/

section Own

variable {kind : EventKind} {ts : String}

/-- An iteration leaves the node behind the `body` port with a token. -/
theorem awake_of_iteration (hwf : WellFormed bp) {iteration i : Nat} {b : String}
    (hent : BodyEntry bp l i b) (hloop : IsLoop bp l)
    (happ : apply bp s ⟨s.nextSeq, ts, .loopIteration l iteration⟩ = .ok s')
    (hfrs : iteration = 0 → s.statusOrPending b = .pending ∨ s.statusOrPending b = .skipped) :
    Awake bp s' (.emitted s (.loopIteration l iteration) s' :: trace) i b := by
  obtain ⟨hlvs, hntrs, hbody⟩ := hent
  have hbl : b ≠ l := fun he => hwf.not_inBody_of_isLoop (he ▸ hloop) hbody
  have hpulsed : ∀ mk : Marking, mk.status b = .pending ∨ mk.status b = .skipped →
      (mk.pulse bp l "body").status b = .pending ∧ i ∉ (mk.pulse bp l "body").skipped := by
    intro mk hmk
    refine ⟨?_, fun h => ?_⟩
    · rcases hmk with hmk | hmk
      · rw [Marking.status_pulse_of_ne (by rw [hmk]; decide), hmk]
      · simp only [Marking.pulse]
        exact if_pos ⟨hmk, i, hlvs, hntrs⟩
    · rcases Marking.mem_skipped_pulse.1 h with ⟨-, h⟩ | ⟨-, h⟩
      · exact h hlvs.leaves
      · exact h hlvs
  have hmrkg := marking_apply happ
  suffices h : (effect bp (marking bp s) (.loopIteration l iteration)).status b = .pending ∧
      i ∉ (effect bp (marking bp s) (.loopIteration l iteration)).skipped by
    refine ⟨(statusOrPending_apply happ b).trans h.1, ?_, fun s₀ h => by cases h⟩
    rw [hmrkg]
    exact h.2
  simp only [effect]
  split
  · rename_i hzero
    refine hpulsed _ ?_
    rw [Marking.status_mark, if_neg hbl]
    exact hfrs hzero
  · exact hpulsed _ (.inl (Marking.status_reset_of_inBody hbody))

theorem LoopStage.emits_own (hwf : WellFormed bp) (hloop : IsLoop bp l) (hsnd : PhaseSound bp s trace phase)
    (hleg : Legal bp s phase kind phase') (happ : apply bp s ⟨s.nextSeq, ts, kind⟩ = .ok s')
    (hactor : kind.actor = some l) (h : LoopStage bp l ⟨s, phase, trace⟩) :
    LoopStage bp l ⟨s', phase', .emitted s kind s' :: trace⟩ := by
  have hstat : s'.statusOrPending l = (effect bp (marking bp s) kind).status l :=
    statusOrPending_apply happ l
  -- an event that ends a loop that has not been entered
  have hends : kind.loopOf ≠ some l → s.statusOrPending l = .pending →
      (∀ b, InBody bp b l → ¬phase'.Active b) →
      (s'.statusOrPending l = .skipped ∨ s'.statusOrPending l = .failed) →
      (∀ b, b ≠ l → s'.statusOrPending b = s.statusOrPending b) →
      (∀ b, InBody bp b l → ∀ i, Enters bp i b → (i ∈ s'.deliveredTo b ↔ i ∈ s.deliveredTo b)) →
      LoopStage bp l ⟨s', phase', .emitted s kind s' :: trace⟩ := by
    intro hkind hpend hph hend hoths htoks
    cases h with
    | fresh hnone _ hbody =>
      refine .fresh ((loopKinds_cons_other hkind).trans hnone) ?_ fun b hb => ?_
      · rcases hend with h | h <;> rw [h] <;> decide
      · have hbl : b ≠ l := fun he => hwf.not_inBody_of_isLoop (he ▸ hloop) hb
        obtain ⟨hst, htok, -⟩ := hbody b hb
        refine ⟨?_, fun i hi hmem => htok i hi ((htoks b hb i hi).1 hmem), hph b hb⟩
        show s'.statusOrPending b = _ ∨ s'.statusOrPending b = _
        rw [hoths b hbl]
        exact hst
    | running _ _ hrunn => exact absurd (hpend.symm.trans hrunn) (by decide)
    | completed _ _ hcompd => exact absurd (hpend.symm.trans hcompd) (by decide)
  have hmrkd : ∀ st, effect bp (marking bp s) kind = (marking bp s).mark l st ∨
      effect bp (marking bp s) kind = (marking bp s).skip bp l →
      (∀ b, b ≠ l → s'.statusOrPending b = s.statusOrPending b) ∧
      ∀ b, InBody bp b l → ∀ i, Enters bp i b → (i ∈ s'.deliveredTo b ↔ i ∈ s.deliveredTo b) := by
    intro st heff
    refine ⟨fun b hb => ?_, fun b _ i hi => ?_⟩
    · rw [statusOrPending_apply happ b]
      rcases heff with h | h
      · rw [h, Marking.status_mark, if_neg hb]
        rfl
      · rw [h, Marking.status_skip, if_neg hb]
        rfl
    · rw [← mem_delivered_marking hi, ← mem_delivered_marking hi, marking_apply happ]
      rcases heff with h | h <;> rw [h] <;> rfl
  cases hleg with
  | prepares | updates | notifies | completes | aborts => cases hactor
  | passes _ hnot | starts hnot | branches _ hnot =>
    cases hactor
    exact absurd hloop hnot
  | parks hgate =>
    cases hactor
    exact absurd hloop (not_isLoop_of_isApproval hgate)
  | finishes | decides | skips | fails =>
    cases hactor
    exact absurd hloop hsnd.2.2
  | grants =>
    cases hactor
    exact absurd hloop (not_isLoop_of_isApproval hsnd.2.2.1)
  | refuses error =>
    cases hactor
    obtain ⟨hoths, htoks⟩ := hmrkd .failed (.inl rfl)
    refine hends (by simp [EventKind.loopOf]) hsnd.2 (fun b _ hat => ?_) (.inr ?_) hoths htoks
    · rcases hat with h | h | h <;> cases h
    · exact hstat.trans (by simp [effect])
  | cascades hpend =>
    cases hactor
    obtain ⟨hoths, htoks⟩ := hmrkd .skipped (.inr rfl)
    refine hends (by simp [EventKind.loopOf]) hpend (fun b _ hat => ?_) (.inl ?_) hoths htoks
    · rcases hat with h | h | h <;> cases h
    · exact hstat.trans (by simp [effect])
  | enters =>
    cases hactor
    cases h with
    | running _ _ hrunn =>
      have hpend : s.statusOrPending l = .pending := hsnd.2
      exact absurd (hpend.symm.trans hrunn) (by decide)
    | completed _ _ hcompd =>
      have hpend : s.statusOrPending l = .pending := hsnd.2
      exact absurd (hpend.symm.trans hcompd) (by decide)
    | fresh hnone _ hbody =>
      refine .running 0 ((loopKinds_cons rfl).trans (congrArg _ hnone)) ?_
        (loopIter_apply_self rfl happ).1 (fun b _ hat => ?_) fun i b hent => .inr ?_
      · refine hstat.trans ?_
        simp only [effect, if_true]
        rw [Marking.status_pulse_of_ne (by simp)]
        simp
      · rcases hat with h | h | h <;> cases h
      · exact awake_of_iteration hwf hent hloop happ fun _ => (hbody b hent.body).status
  | @iterates _ iteration _ hrunn hnext =>
    cases hactor
    cases h with
    | fresh _ hfrs => exact absurd hrunn hfrs.1
    | completed _ _ hcompd => exact absurd (hrunn.symm.trans hcompd) (by decide)
    | running last hks _ hiter _ _ =>
      obtain ⟨hself, hprev⟩ := loopIter_apply_self rfl happ
      obtain rfl : iteration = last + 1 := by
        have hlast : some last = some (iteration - 1) := hiter.symm.trans (hprev hnext)
        have heq := Option.some.inj hlast
        omega
      refine .running (last + 1) ?_ ?_ hself (fun b _ hat => ?_) fun i b hent => .inr ?_
      · rw [iterations_succ, reverse_append]
        exact (loopKinds_cons rfl).trans (congrArg _ hks)
      · have hrst := Marking.status_reset_of_not_inBody (m := marking bp s)
          (hwf.not_inBody_of_isLoop hloop (p := l))
        refine hstat.trans ?_
        simp only [effect, if_neg hnext]
        rw [Marking.status_pulse_of_ne (by rw [hrst, status_marking, hrunn]; decide),
          hrst]
        exact hrunn
      · rcases hat with h | h | h <;> cases h
      · exact awake_of_iteration hwf hent hloop happ fun h => absurd h hnext
  | closes _ hrunn =>
    cases hactor
    cases h with
    | fresh _ hfrs => exact absurd hrunn hfrs.1
    | completed _ _ hcompd => exact absurd (hrunn.symm.trans hcompd) (by decide)
    | running last hks _ _ _ _ =>
      refine .completed last ((loopKinds_cons rfl).trans (congrArg _ hks)) ?_
      refine hstat.trans ?_
      rw [effect, Marking.status_pulse_of_ne (by simp)]
      simp

end Own

/-! ### Runs -/

theorem LoopStage.dispatches (hwf : WellFormed bp) {node : String} (hrdy : Ready bp s node)
    (h : LoopStage bp l ⟨s, .idle, trace⟩) :
    LoopStage bp l ⟨s, .opening node, .dispatched node s :: trace⟩ := by
  cases h with
  | fresh hks hstat hbody =>
    refine .fresh hks hstat fun b hb => ?_
    obtain ⟨hst, htok, -⟩ := hbody b hb
    refine ⟨hst, htok, fun hat => ?_⟩
    obtain rfl : node = b := by
      rcases hat with h | h | h <;> cases h
      rfl
    -- a ready node of a body has a token
    obtain ⟨e, he, hto⟩ := hwf.body_reached node l hb
    obtain ⟨i, hi⟩ := mem_iff_getElem?.1 he
    obtain ⟨j, hntrs, hmem⟩ := hrdy.token ⟨i, e, hi, hto⟩
    exact htok j hntrs hmem
  | running last hks hstat hiter _ hents =>
    refine .running last hks hstat hiter (fun b hb hat => ?_) fun i b hent => ?_
    · obtain rfl : node = b := by
        rcases hat with h | h | h <;> cases h
        rfl
      exact .inl hb
    · rcases hents i b hent with hran | ⟨hpend, hedge, -⟩
      · exact .inl (.inr hran)
      · exact .inr ⟨hpend, hedge, fun s₀ h => by cases h⟩
  | completed last hks hstat => exact .completed last hks hstat

/-- A plan leaves a loop where it is, and does not skip what has a token. -/
theorem LoopStage.plans (h : LoopStage bp l ⟨s, .idle, trace⟩) :
    LoopStage bp l ⟨s, .idle, .planned s :: trace⟩ := by
  cases h with
  | fresh hks hstat hbody => exact .fresh hks hstat hbody
  | running last hks hstat hiter hact hents =>
    refine .running last hks hstat hiter hact fun i b hent => ?_
    rcases hents i b hent with hran | ⟨hpend, hedge, -⟩
    · exact .inl hran
    · refine .inr ⟨hpend, hedge, ?_⟩
      rintro s₀ ⟨⟩
      refine not_mem_newlySkipped hent.leaves.leaves hent.enters ?_ hedge
      rw [show s.statusOrPending l = .running from hstat]
      decide
  | completed last hks hstat => exact .completed last hks hstat

/-- What holds of a loop in every run. -/
structure LoopInv (bp : Blueprint) (loopId : String) (m : Machine) : Prop where
  stage : LoopStage bp loopId m
  ran : EachRan bp loopId m.trace

theorem LoopStage.ranBody (hent : BodyEntry bp l i b)
    (hleg : Legal bp s phase kind phase') (hgrd : Guard bp trace s kind)
    (hadv : AdvanceOf l kind) (h : LoopStage bp l ⟨s, phase, trace⟩) : RanBody bp l trace := by
  have hrunn : s.statusOrPending l = .running := by
    rcases hadv with rfl | ⟨iteration, hne, rfl⟩
    · cases hleg with
      | closes _ hrunn => exact hrunn
    · cases hleg with
      | enters => exact absurd rfl hne
      | iterates _ hrunn => exact hrunn
  have hend : ∀ b, InBody bp b l → terminal s b = true := by
    rcases hadv with rfl | ⟨iteration, hne, rfl⟩
    · exact hgrd
    · exact (hgrd hne).2
  cases h with
  | fresh _ hfrs => exact absurd hrunn hfrs.1
  | completed _ _ hcompd => exact absurd (hrunn.symm.trans hcompd) (by decide)
  | running _ _ _ _ _ hents =>
    refine (hents i b hent).resolve_right fun hawake => ?_
    have hb := hend b hent.body
    unfold terminal at hb
    rw [show s.statusOrPending b = .pending from hawake.pending] at hb
    cases hb

theorem LoopInv.move (hwf : WellFormed bp) (hloop : IsLoop bp l)
    (hent : BodyEntry bp l i b) (hsnd : PhaseSound bp m.state m.trace m.phase)
    (hgrd : ∀ s kind s' , m'.trace = .emitted s kind s' :: m.trace → Guard bp m.trace s kind)
    (h : LoopInv bp l m) (hmove : Move bp m m') : LoopInv bp l m' := by
  cases hmove with
  | @emits s s' phase phase' trace kind ts hleg happ =>
    have hg := hgrd s kind s' rfl
    refine ⟨?_, fun hadv => h.stage.ranBody hent hleg hg hadv, h.ran⟩
    by_cases hactor : kind.actor = some l
    · exact h.stage.emits_own hwf hloop hsnd hleg happ hactor
    · exact h.stage.emits_other hwf hloop hsnd hleg happ hg hactor
  | dispatches hnode hrdy => exact ⟨h.stage.dispatches hwf hrdy, h.ran⟩
  | plans hadvd => exact ⟨h.stage.plans, h.ran⟩
  | @sends s trace node req =>
    refine ⟨?_, h.ran⟩
    obtain ⟨hstg, -⟩ := h
    cases hstg with
    | fresh hks hstat hbody => exact .fresh hks hstat hbody
    | running last hks hstat hiter hact hents =>
      refine .running last hks hstat hiter hact fun i b hent => ?_
      rcases hents i b hent with hran | ⟨hpend, hedge, -⟩
      · exact .inl hran
      · exact .inr ⟨hpend, hedge, fun s₀ h => by cases h⟩
    | completed last hks hstat => exact .completed last hks hstat
  | reloads =>
    refine ⟨?_, h.ran⟩
    obtain ⟨hstg, -⟩ := h
    cases hstg with
    | fresh hks hstat hbody =>
      exact .fresh hks hstat fun b hb => ⟨(hbody b hb).status, (hbody b hb).token, (hbody b hb).phase⟩
    | running last hks hstat hiter hact hents =>
      exact .running last hks hstat hiter hact fun i b hent =>
        (hents i b hent).imp_right fun h => ⟨h.pending, h.edge, h.plan⟩
    | completed last hks hstat => exact .completed last hks hstat

theorem Initial.loopInv (h : Initial bp m) : LoopInv bp l m := by
  obtain ⟨s₀, kind, htr, hstart⟩ := h.trace
  have hmark := h.marking
  have hstat : ∀ n, m.state.statusOrPending n = .pending := by
    intro n
    rw [← status_marking bp, hmark]
  have hloopOf : kind.loopOf ≠ some l := by
    cases kind with
    | runStarted => simp [EventKind.loopOf]
    | _ => cases hstart
  refine ⟨.fresh ?_ ?_ fun b _ => ⟨.inl (hstat b), fun i hi hmem => ?_, fun hat => ?_⟩, ?_⟩
  · rw [htr]
    exact loopKinds_cons_other hloopOf
  · rw [hstat]
    exact ⟨by decide, by decide⟩
  · rw [← mem_delivered_marking hi, hmark] at hmem
    exact hmem
  · rw [h.phase] at hat
    rcases hat with h | h | h <;> cases h
  · rw [htr]
    refine ⟨?_, trivial⟩
    rintro (rfl | ⟨iteration, -, rfl⟩) <;> cases hstart

/-- **Every loop of a run has a stage**, and each of its iterations has run its body. -/
theorem Reach.loopInv (hwf : WellFormed bp) (hloop : IsLoop bp l)
    (hent : BodyEntry bp l i b) (hinit : Initial bp m) (h : Reach bp m m') :
    ∃ new, m'.trace = new ++ m.trace ∧ (Guarded bp m.trace new → LoopInv bp l m') := by
  refine (Reach.inv (I := fun m' => PhaseSound bp m'.state m'.trace m'.phase ∧
    ∃ new, m'.trace = new ++ m.trace ∧ (Guarded bp m.trace new → LoopInv bp l m')) ?_ h
    ⟨hinit.sound, [], rfl, fun _ => hinit.loopInv⟩).2
  rintro m₁ m₂ ⟨hsnd, new, htr, hinv⟩ hmove
  refine ⟨Reach.sound (.single hmove) hsnd, ?_⟩
  obtain ⟨o, ho⟩ | hsame : (∃ o, m₂.trace = o :: m₁.trace) ∨ m₂.trace = m₁.trace := by
    cases hmove <;> first | exact .inl ⟨_, rfl⟩ | exact .inr rfl
  case inr =>
    refine ⟨new, hsame.trans htr, fun hgrdd => ?_⟩
    refine (hinv hgrdd).move hwf hloop hent hsnd (fun s kind s' h => ?_) hmove
    exact absurd (hsame.symm.trans h) (cons_ne_self _ _).symm
  refine ⟨o :: new, by rw [ho, htr, cons_append], fun hgrdd => ?_⟩
  have hboth : Guarded bp m.trace new ∧ ∀ s kind s', o = .emitted s kind s' →
      Guard bp m₁.trace s kind := by
    rw [htr]
    cases o with
    | emitted s kind s' =>
      refine ⟨hgrdd.2, ?_⟩
      rintro _ _ _ ⟨⟩
      exact hgrdd.1
    | dispatched | planned | sent => exact ⟨hgrdd, fun _ _ _ h => by cases h⟩
  refine (hinv hboth.1).move hwf hloop hent hsnd (fun s kind s' h => ?_) hmove
  rw [ho] at h
  exact hboth.2 s kind s' (List.cons.inj h).1

end Wardian.Engine
