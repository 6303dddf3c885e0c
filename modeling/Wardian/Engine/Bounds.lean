/-
Runs are finite, and so are loops.

The potential of a blueprint bounds the dispatches of every run of it, whatever the executor answers
and however often the run is granted and driven on; so a drive that may make as many passes never
stops at the bound on its passes.  The log of a run has the iterations of each loop in order, and no
more of them than the bound of the loop allows.

Main results:

* `Engine.drive_bounded` — a drive from any state dispatches a bounded number of nodes;
* `Engine.Run.loopRecord` — the events of a loop in the log of a run;
* `Engine.loops_bounded` — both, of every run.
-/

import Wardian.Engine.Potential
import Wardian.Engine.Recorded

set_option autoImplicit false

namespace Wardian.Engine

open List
open Automation (Blueprint Node IsLoop InBody WellFormed validate wellFormed_of_isValid)
open Prog (Wp)

variable {ω α : Type} {host : Host ω} {bp : Blueprint} {s : RunState} {w w' : World ω}

/-! ### Operations that drive -/

theorem tame_ofExcept {r : Except EngineError α} (h : r ≠ .error .unfinished) :
    Tame (ω := ω) bp (Prog.ofExcept r) :=
  fun _ => Prog.wp_ofExcept_of (fun _ _ => .of_eq rfl rfl)
    fun _ he => ⟨.of_eq rfl rfl, fun hu => h (hu ▸ he)⟩

theorem ensureValidBlueprint_ne : ensureValidBlueprint bp ≠ .error .unfinished := by
  unfold ensureValidBlueprint
  dsimp only
  split <;> simp

theorem ensureBlueprintMatches_ne {hash : Blueprint → String} :
    ensureBlueprintMatches hash bp s ≠ .error .unfinished := by
  unfold ensureBlueprintMatches
  split
  · simp
  · split
    · simp
    · split <;> simp

theorem tame_initializeWithId (runId : String) (trigger : Value) :
    Tame bp (initializeWithId host bp runId trigger) := by
  unfold initializeWithId
  refine (tame_ofExcept ensureValidBlueprint_ne).bind fun _ => ?_
  refine Tame.bind ?_ fun _ => tame_emit fun _ => trivial
  intro w
  unfold writeBlueprintSnapshot
  rw [Prog.wp_bind, Prog.wp_get]
  split
  · exact Prog.wp_ite (fun _ => ⟨.of_eq rfl rfl, by simp⟩) fun _ => .of_eq rfl rfl
  · exact wp_persist (fun _ => ⟨.of_eq rfl rfl, by simp⟩) fun _ => .of_eq rfl rfl

theorem validateSequenceFrom_ne : ∀ (events : List Event) (expected : Nat),
    validateSequenceFrom expected events ≠ .error .unfinished := by
  intro events
  induction events with
  | nil => exact fun _ h => by cases h
  | cons ev events ih =>
    intro expected
    rw [validateSequenceFrom]
    split
    · simp [sequenceGap]
    · exact ih _

theorem foldTail_ne : ∀ (events : List Event) (k expected : Nat) (s : RunState),
    foldTail bp k expected s events ≠ .error .unfinished := by
  intro events
  induction events with
  | nil => exact fun _ _ _ h => by cases h
  | cons ev events ih =>
    intro k expected s
    rw [foldTail]
    split
    · simp [sequenceGap]
    · split
      · split
        · simp [sequenceGap]
        · split
          · rename_i e happ
            exact fun h => apply_ne_unfinished happ (Except.error.inj h)
          · exact ih _ _ _
      · exact ih _ _ _

theorem validateEventIdentity_ne (events : List Event) :
    validateEventIdentity bp s events ≠ .error .unfinished := by
  unfold validateEventIdentity
  split
  · dsimp only
    repeat' split
    all_goals simp
  · simp

theorem bind_ne {β : Type} {x : Except EngineError α} {f : α → Except EngineError β}
    {e : EngineError} (hx : x ≠ .error e) (hf : ∀ a, f a ≠ .error e) : (x >>= f) ≠ .error e := by
  cases x with
  | error e' => exact fun h => hx (congrArg _ (Except.error.inj h))
  | ok a => exact hf a

theorem foldEventLog_ne (events : List Event) : foldEventLog bp s events ≠ .error .unfinished := by
  unfold foldEventLog
  split
  · simp
  · refine bind_ne (validateSequenceFrom_ne events 0) fun next => ?_
    refine bind_ne (validateEventIdentity_ne events) fun _ => ?_
    refine bind_ne (foldTail_ne events _ _ _) fun s' => ?_
    split <;> simp

theorem tame_recordDecision {kind : EventKind} (node : String)
    (hgrd : ∀ trace s, Guard bp trace s kind) : Tame bp (recordDecision host bp node kind) := by
  unfold recordDecision acquireApprovalDecisionGuard ensureApprovalNode
  refine Tame.bind ?_ fun _ => ?_
  · refine (tame_ask _).bind fun contended => .ite (fun _ => ?_) fun _ => .pure _
    exact fun _ => ⟨.of_eq rfl rfl, by decide⟩
  refine Tame.bind ?_ fun s => ?_
  · exact fun w => tame_ofExcept (foldEventLog_ne _) w
  refine (tame_ofExcept ensureValidBlueprint_ne).bind fun _ => ?_
  refine (tame_ofExcept ensureBlueprintMatches_ne).bind fun _ => ?_
  refine .ite (fun _ _ => ⟨.of_eq rfl rfl, by simp⟩) fun _ => ?_
  refine Tame.bind ?_ fun _ => tame_emit fun _ => hgrd _ _
  refine .ite (fun _ _ => ⟨.of_eq rfl rfl, by simp⟩) fun _ w => ?_
  simp only [readEvents, Prog.wp_bind, Prog.wp_get, Prog.wp_pure]
  split
  · exact ⟨.of_eq rfl rfl, by simp⟩
  · exact Prog.wp_ite (fun _ => ⟨.of_eq rfl rfl, by simp⟩) fun _ => .of_eq rfl rfl

/-! ### Driving from any state -/

/-- What an operation that may drive leaves: guarded observations, and the bound on the passes is
reached only after as many dispatches. -/
def Drives (bp : Blueprint) (fuel : Nat) (m : EngineProg ω RunState) : Prop :=
  ∀ w, Wp m (fun _ w' => Grown bp w w') (fun e w' => Grown bp w w' ∧
    (e = .unfinished → dispatches w.trace + fuel ≤ dispatches w'.trace)) w

theorem Drives.after {m : EngineProg ω α} {f : α → EngineProg ω RunState} {fuel : Nat}
    (hm : Tame bp m) (hf : ∀ a, Drives bp fuel (f a)) : Drives bp fuel (m >>= f) := by
  intro w
  rw [Prog.wp_bind]
  refine hm.wp (fun a w₁ h₁ => ?_) fun e w₁ h hne => ⟨h, fun he => absurd he hne⟩
  refine Prog.wp_mono (hf a w₁) (fun _ _ h₂ => h₁.trans h₂) fun e w₂ h₂ => ⟨h₁.trans h₂.1, ?_⟩
  intro he
  exact (Nat.add_le_add_right h₁.dispatches_le _).trans (h₂.2 he)

theorem drives_driveFromState (hval : (validate bp).isValid = true) (fuel : Nat) (s : RunState) :
    Drives bp fuel (driveFromState host bp fuel s) := by
  unfold driveFromState
  refine .after (tame_ofExcept ensureValidBlueprint_ne) fun _ => ?_
  refine .after (tame_ofExcept ensureBlueprintMatches_ne) fun _ w => ?_
  exact wp_drive_grown (wellFormed_of_isValid hval) fuel

theorem drives_startWithId (hval : (validate bp).isValid = true) (fuel : Nat) (runId : String)
    (trigger : Value) : Drives bp fuel (startWithId host bp fuel runId trigger) := by
  unfold startWithId
  exact .after (tame_initializeWithId runId trigger) fun s => drives_driveFromState hval fuel s

theorem drives_grantApproval (hval : (validate bp).isValid = true) (fuel : Nat) (node actor : String)
    (note : Option String) : Drives bp fuel (grantApproval host bp fuel node actor note) := by
  unfold grantApproval recordApprovalGranted
  refine .after (tame_recordDecision node fun _ _ => trivial) fun s => ?_
  exact drives_driveFromState hval fuel s

theorem Drives.grown {m : EngineProg ω RunState} {fuel : Nat} (h : Drives bp fuel m)
    (w : World ω) : Grown bp w (m w).2 ∧ ((m w).1 = .error .unfinished →
      dispatches w.trace + fuel ≤ dispatches (m w).2.trace) := by
  have hwp := h w
  unfold Prog.Wp at hwp
  rcases hm : m w with ⟨e | s, w'⟩ <;> rw [hm] at hwp
  · exact ⟨hwp.1, fun he => hwp.2 (Except.error.inj he)⟩
  · exact ⟨hwp, fun he => by cases he⟩

theorem follows_reach (read : ReadFloat) (m₀ : Machine) : Follows (ω := ω) read bp
    (fun _ phase s w => PhaseSound bp s w.trace phase ∧ s.Normal ∧ Reach bp m₀ ⟨s, phase, w.trace⟩)
    (fun w => ∃ m, Reach bp m₀ m ∧ m.trace = w.trace) where
  sound h := h.1
  normal h := RunState.normalizeLegacy_of_normal h.2.1
  stops h := ⟨_, h.2.2, rfl⟩
  aside h htr _ _ _ := by
    rw [htr]
    exact h
  saves h := h
  emits {ps phase phase' s s' w kind ts} h hleg happ := by
    have hmove : Move bp ⟨s, phase, w.trace⟩ ⟨s', phase', .emitted s kind s' :: w.trace⟩ :=
      .emits hleg happ
    exact ⟨⟨_, h.2.2.tail hmove, rfl⟩, hleg.sound h.1 happ, normal_apply h.2.1 happ,
      h.2.2.tail hmove⟩
  dispatches h hnode hrdy :=
    ⟨⟨h.1, hrdy.pending⟩, h.2.1, h.2.2.tail (.dispatches hnode hrdy)⟩
  plans h hadvd := ⟨h.1, h.2.1, h.2.2.tail (.plans hadvd)⟩
  sends h _ _ _ := ⟨h.1, h.2.1, h.2.2.tail (.sends _)⟩

theorem lingers_undispatched (read : ReadFloat) (old : List Observation) : Lingers (ω := ω) read bp
    (fun s w => s.Normal ∧ ∃ new, w.trace = new ++ old ∧ dispatches new = 0)
    (fun w => ∃ new, w.trace = new ++ old ∧ dispatches new = 0) where
  normal h := RunState.normalizeLegacy_of_normal h.1
  stops h := h.2
  aside h htr _ _ _ := by
    rw [htr]
    exact h
  saves h := h
  plans {s w} h := by
    obtain ⟨hnorm, new, htr, hcnt⟩ := h
    refine ⟨hnorm, .planned s :: new, congrArg (_ :: ·) htr, ?_⟩
    simpa [dispatches] using hcnt
  emits {s s' w kind ts} h _ _ happ := by
    obtain ⟨hnorm, new, htr, hcnt⟩ := h
    have hnew : ∃ new, (.emitted s kind s' :: w.trace) = new ++ old ∧ dispatches new = 0 := by
      refine ⟨.emitted s kind s' :: new, congrArg (_ :: ·) htr, ?_⟩
      simpa [dispatches] using hcnt
    exact ⟨hnew, normal_apply hnorm happ, hnew⟩

/-- **A drive dispatches a bounded number of nodes**, from whatever state it starts. -/
theorem drive_bounded (hval : (validate bp).isValid = true) (ρ : Ranking bp) (fuel : Nat)
    {fields : JsonMap} (hreg : s.registry = .object fields) (w : World ω) :
    ∃ new, (drive host bp fuel s w).2.trace = new ++ w.trace ∧ dispatches new ≤ ρ.bound := by
  have hwf := wellFormed_of_isValid hval
  have hnorm := RunState.normal_normalizeLegacy hreg
  have hsame : drive host bp fuel s = drive host bp fuel s.normalizeLegacy := by
    unfold drive
    rw [RunState.normalizeLegacy_of_normal hnorm]
  rw [hsame]
  generalize s.normalizeLegacy = s at hnorm
  obtain ⟨new, htr, hgrdd, -⟩ := (Drives.grown (fun _ => wp_drive_grown hwf fuel) w :
    Grown bp w (drive host bp fuel s w).2 ∧ _).1
  refine ⟨new, htr, ?_⟩
  by_cases hrunn : s.status = .running
  · have hfree : ∀ p ∈ ([] : List RunState), ¬Stuck bp p := by simp
    have hwp : Wp (drive host bp fuel s) _ _ w := wp_drive hwf
      (follows_reach host.readFloat ⟨s, .idle, w.trace⟩) fuel hfree ⟨hrunn, hnorm, .refl⟩
    obtain ⟨m, hrch, hm⟩ : ∃ m, Reach bp ⟨s, .idle, w.trace⟩ m ∧
        m.trace = (drive host bp fuel s w).2.trace := by
      refine (Prog.wp_mono hwp ?_ fun _ _ h => h).final
      rintro s' w' ⟨ps, ⟨phase, ⟨-, -, hrch⟩, -⟩, -⟩
      exact ⟨_, hrch, rfl⟩
    obtain ⟨new', htr', hle⟩ := hrch.potential_le hwf ρ hrunn
    obtain rfl : new = new' := by
      rw [hm, htr] at htr'
      exact append_cancel_right htr'
    have hbnd : ρ.potential s .idle ≤ ρ.bound := Ranking.potential_le
    have hpote := hle hgrdd
    dsimp only at hpote
    omega
  · obtain ⟨new', htr', hcnt⟩ : ∃ new', (drive host bp fuel s w).2.trace = new' ++ w.trace ∧
        dispatches new' = 0 := by
      refine (Prog.wp_mono (wp_drive_ended (lingers_undispatched host.readFloat w.trace) fuel
        ⟨hnorm, [], rfl, rfl⟩ hrunn) (fun _ _ h => h.2) fun _ _ h => h).final
    obtain rfl : new = new' := by
      rw [htr] at htr'
      exact append_cancel_right htr'
    rw [hcnt]
    exact Nat.zero_le _

/-! ### Runs -/

variable {r : Except EngineError RunState}

/-- The log of a run holds the events that were observed, and all of them are guarded. -/
theorem Run.guarded (hval : (validate bp).isValid = true) (h : Run host bp r w) : Guarded bp [] w.trace ∧
      eraseKinds (w.dir.events.map (·.kind)) = eraseKinds (emittedKinds w.trace).reverse := by
  have hstep : ∀ {w w' : World ω}, Grown bp w w' → Guarded bp [] w.trace →
      eraseKinds (w.dir.events.map (·.kind)) = eraseKinds (emittedKinds w.trace).reverse →
      Guarded bp [] w'.trace ∧
        eraseKinds (w'.dir.events.map (·.kind)) = eraseKinds (emittedKinds w'.trace).reverse := by
    rintro w w' ⟨new, htr, hgrdd, hlog⟩ hold hlgd
    rw [htr]
    refine ⟨Guarded.append (by rwa [append_nil]) hold, ?_⟩
    rw [hlog, emittedKinds_append, reverse_append, eraseKinds, map_append, ← eraseKinds,
      hlgd]
    exact (map_append ..).symm
  induction h with
  | @starts w w' r fuel runId trigger hemp hcall =>
    have hdrvs : Drives bp fuel (startWithId host bp fuel runId trigger) :=
      drives_startWithId hval fuel runId trigger
    have hgr := (hdrvs.grown w).1
    rw [hcall] at hgr
    refine hstep hgr ?_ ?_
    · rw [hemp.trace]
      trivial
    · rw [hemp.trace, hemp.events]
      rfl
  | @grants s w w₁ w' r fuel node actor note hrun hbtw hcall ih =>
    have hdrvs : Drives bp fuel (grantApproval host bp fuel node actor note) :=
      drives_grantApproval hval fuel node actor note
    have hgr := (hdrvs.grown w₁).1
    rw [hcall] at hgr
    refine hstep hgr ?_ ?_
    · rw [hbtw.trace]
      exact ih.1
    · rw [hbtw.trace, hbtw.events]
      exact ih.2

theorem Guarded.later {new old : List Observation} : ∀ {newer : List Observation},
    Guarded bp old (newer ++ new) → Guarded bp (new ++ old) newer := by
  intro newer
  induction newer with
  | nil => exact fun _ => trivial
  | cons o newer ih =>
    intro h
    cases o with
    | emitted s kind s' =>
      refine ⟨?_, ih h.2⟩
      rw [← append_assoc]
      exact h.1
    | dispatched | planned | sent => exact ih h

/-- **The dispatches of a run are bounded**, over all its drives together. -/
theorem Run.dispatches_le (hval : (validate bp).isValid = true) (ρ : Ranking bp)
    (h : Run host bp r w) : dispatches w.trace ≤ ρ.bound := by
  rcases h.reachable hval with hnil | ⟨m, ⟨m₀, hinit, hrch⟩, htr⟩
  · rw [hnil]
    exact Nat.zero_le _
  · obtain ⟨new, hnew, hle⟩ := hrch.potential_le (wellFormed_of_isValid hval) ρ hinit.sound
    have hgrdd := (h.guarded hval).1
    rw [← htr, hnew] at hgrdd ⊢
    have hbnd : ρ.potential m₀.state m₀.phase ≤ ρ.bound := Ranking.potential_le
    have hpote := hle (by simpa using Guarded.later hgrdd)
    obtain ⟨s₀, kind, hstart, -⟩ := hinit.trace
    have hzero : dispatches m₀.trace = 0 := by
      rw [hstart]
      simp [dispatches]
    rw [dispatches_append, hzero]
    omega

/-! ### Loops -/

/-- A field that is an integer and no template. -/
def integerLiteral : Value → Option Int
  | .number (.posInt n) => some n
  | .number (.negInt n) => some n
  | _ => none

/-- What the log says about a loop: its iterations in order, from 0 on, and then perhaps its end. -/
structure LoopRecord (bp : Blueprint) (kinds : List EventKind) (loopId : String) (count : Nat)
    (ended : Bool) : Prop where
  kinds : loopKinds loopId kinds =
    iterations loopId count ++ if ended then [.loopCompleted loopId] else []
  entered : ended = true → 0 < count
  count_le : count ≤ 2 ^ 32 - 1
  literal : ∀ nd value n, bp.findNode loopId = some nd →
    JsonMap.get? nd.fields "max_iterations" = some value → integerLiteral value = some n →
    (count : Int) ≤ max 1 n

theorem maxIterations_literal {registry value : Value} {nd : Node} {n : Int}
    (hvl : JsonMap.get? nd.fields "max_iterations" = some value)
    (hlit : integerLiteral value = some n) :
    (maxIterations registry (some nd) : Int) ≤ max 1 n := by
  unfold maxIterations resolveU32Field
  simp only [hvl]
  unfold integerLiteral at hlit
  split at hlit
  · cases hlit
    simp only [Value.asU64]
    omega
  · cases hlit
    simp [Value.asU64, Value.asStr]
  · cases hlit

/-- The iterations after the first are within the bound of the loop. -/
theorem Guarded.bound {loopId : String} {iteration : Nat} (hne : iteration ≠ 0) :
    ∀ {old new : List Observation}, Guarded bp old new →
      .loopIteration loopId iteration ∈ emittedKinds new →
      ∃ registry, iteration < maxIterations registry (bp.findNode loopId) := by
  intro old new
  induction new with
  | nil => exact fun _ h => absurd h not_mem_nil
  | cons o new ih =>
    intro hgrdd hmem
    cases o with
    | emitted s kind s' =>
      rcases mem_cons.1 hmem with rfl | hmem
      · exact (hgrdd.1 hne).1
      · exact ih hgrdd.2 hmem
    | dispatched | planned | sent => exact ih hgrdd hmem

theorem loopKinds_reverse (loopId : String) (kinds : List EventKind) :
    loopKinds loopId kinds.reverse = (loopKinds loopId kinds).reverse := filter_reverse ..

/-- The events of a loop are among those without floating-point numbers. -/
theorem loopKinds_eraseKinds (loopId : String) (kinds : List EventKind) :
    loopKinds loopId (eraseKinds kinds) = loopKinds loopId kinds := by
  induction kinds with
  | nil => rfl
  | cons kind kinds ih =>
    have hkind : (kind.reread eraseFloat).loopOf = kind.loopOf := by cases kind <;> rfl
    by_cases hloop : kind.loopOf = some loopId
    · have hsame : kind.reread eraseFloat = kind := by
        cases kind <;> first | rfl | cases hloop
      rw [loopKinds_cons hloop, ← ih, eraseKinds, map_cons, hsame, loopKinds_cons hloop]
      rfl
    · rw [loopKinds_cons_other hloop, ← ih]
      exact loopKinds_cons_other (hkind ▸ hloop)

/-- **The events of a loop in the log of a run**, and its body has run in each iteration. -/
theorem Run.loopRecord (hval : (validate bp).isValid = true)
    (h : Run host bp r w) {loopId : String} (hloop : IsLoop bp loopId) :
    (∃ count ended, LoopRecord bp (w.dir.events.map (·.kind)) loopId count ended) ∧
      EachRan bp loopId w.trace := by
  obtain ⟨hgrdd, hlgd⟩ := h.guarded hval
  have hlog : loopKinds loopId (w.dir.events.map (·.kind)) =
      (loopKinds loopId (emittedKinds w.trace)).reverse := by
    rw [← loopKinds_eraseKinds, hlgd, loopKinds_eraseKinds, loopKinds_reverse]
  rcases h.reachable hval with hnil | ⟨m, ⟨m₀, hinit, hrch⟩, htr⟩
  · rw [hnil] at hlog ⊢
    refine ⟨⟨0, false, hlog, by simp, by decide, fun nd value n _ _ _ => ?_⟩, trivial⟩
    omega
  · have hwf := wellFormed_of_isValid hval
    obtain ⟨l, hl, htype⟩ := hloop
    obtain ⟨hmem, rfl⟩ := Automation.Blueprint.findNode_some hl
    obtain ⟨e, he, hfrom, hport, hbody⟩ := Automation.exists_body_entry hval hmem htype
    obtain ⟨i, hi⟩ := mem_iff_getElem?.1 he
    have hent : BodyEntry bp l.id i e.toNode := ⟨⟨e, hi, hfrom, hport⟩, ⟨e, hi, rfl⟩, hbody⟩
    obtain ⟨new, hnew, hinv⟩ := hrch.loopInv hwf ⟨l, hl, htype⟩ hent hinit
    rw [← htr] at hlog hgrdd ⊢
    have hltr : Guarded bp m₀.trace new := by
      rw [hnew] at hgrdd
      simpa using Guarded.later hgrdd
    obtain ⟨hstg, hran⟩ := hinv hltr
    refine ⟨?_, hran⟩
    -- the last iteration is within the bound that the registry gave it
    have hbnds : ∀ last, .loopIteration l.id last ∈ emittedKinds m.trace →
        last + 1 ≤ 2 ^ 32 - 1 ∧ ∀ nd value n, bp.findNode l.id = some nd →
          JsonMap.get? nd.fields "max_iterations" = some value → integerLiteral value = some n →
          ((last + 1 : Nat) : Int) ≤ max 1 n := by
      intro last hlast
      by_cases hzero : last = 0
      · subst hzero
        exact ⟨by decide, fun nd value n _ _ _ => by omega⟩
      · obtain ⟨registry, hlt⟩ := hgrdd.bound hzero hlast
        refine ⟨Nat.succ_le_of_lt (hlt.trans_le (maxIterations_le _ _)), ?_⟩
        intro nd value n hnd hvl hlit
        rw [hnd] at hlt
        have hmax : (maxIterations registry (some nd) : Int) ≤ max 1 n :=
          maxIterations_literal hvl hlit
        omega
    have hmem : ∀ last, .loopIteration l.id last ∈ loopKinds l.id (emittedKinds m.trace) →
        .loopIteration l.id last ∈ emittedKinds m.trace := fun last h => mem_of_mem_filter h
    have hlast : ∀ last, .loopIteration l.id last ∈ iterations l.id (last + 1) := by
      intro last
      rw [iterations_succ]
      exact mem_append_right _ mem_cons_self
    cases hstg with
    | fresh hks _ _ =>
      refine ⟨0, false, ?_, by simp, by decide, fun nd value n _ _ _ => by omega⟩
      rw [hlog, hks]
      rfl
    | running last hks _ _ _ _ =>
      obtain ⟨hcnt, hlit⟩ := hbnds last (hmem last (by
        rw [hks, mem_reverse]
        exact hlast last))
      refine ⟨last + 1, false, ?_, by simp, hcnt, hlit⟩
      rw [hlog, hks, reverse_reverse]
      simp
    | completed last hks _ =>
      obtain ⟨hcnt, hlit⟩ := hbnds last (hmem last (by
        rw [hks]
        exact mem_cons_of_mem _ (mem_reverse.2 (hlast last))))
      refine ⟨last + 1, true, ?_, fun _ => Nat.succ_pos _, hcnt, hlit⟩
      rw [hlog, hks, reverse_cons, reverse_reverse]
      rfl

/-- **Runs are finite, and so are loops.**  There is a bound on the dispatches of every drive, from
whatever state, and of every run with all its drives; a drive that may make more passes than that
does not stop at the bound on its passes.  Of each loop the log of a run has the iterations in order
and perhaps its end, no more iterations than the loop may make, and its body has run in each. -/
theorem loops_bounded (hval : (validate bp).isValid = true) :
    (∃ bound, ∀ {ω : Type} (host : Host ω),
      (∀ (fuel : Nat) (s : RunState) (w : World ω), (∃ fields, s.registry = .object fields) →
        (∃ new, (drive host bp fuel s w).2.trace = new ++ w.trace ∧ dispatches new ≤ bound) ∧
        (bound < fuel → (drive host bp fuel s w).1 ≠ .error .unfinished)) ∧
      ∀ r w, Run host bp r w → dispatches w.trace ≤ bound) ∧
    ∀ {ω : Type} {host : Host ω} {r : Except EngineError RunState} {w : World ω},
      Run host bp r w → ∀ loopId, IsLoop bp loopId →
        (∃ count ended, LoopRecord bp (w.dir.events.map (·.kind)) loopId count ended) ∧
          EachRan bp loopId w.trace := by
  have hwf := wellFormed_of_isValid hval
  obtain ⟨ρ⟩ := WellFormed.exists_ranking hwf
  refine ⟨⟨ρ.bound, fun host => ⟨fun fuel s w hreg => ?_, fun r w h => h.dispatches_le hval ρ⟩⟩,
    fun h loopId hloop => h.loopRecord hval hloop⟩
  obtain ⟨fields, hflds⟩ := hreg
  obtain ⟨new, htr, hle⟩ : ∃ new, (drive host bp fuel s w).2.trace = new ++ w.trace ∧
      dispatches new ≤ ρ.bound := drive_bounded hval ρ fuel hflds w
  refine ⟨⟨new, htr, hle⟩, fun hfuel hunfi => ?_⟩
  have hdrvs : Drives bp fuel (drive host bp fuel s) := fun _ => wp_drive_grown hwf fuel
  have hcnt := (hdrvs.grown w).2 hunfi
  rw [htr, dispatches_append] at hcnt
  omega

/-- A loop that may make two iterations makes two. -/
theorem loops_bounded_besideLoop :
    (∃ count ended, LoopRecord besideLoop
      ((scriptedRun besideLoop (.ok .null) .null).2.dir.events.map (·.kind)) "loop" count ended) ∧
    loopKinds "loop" ((scriptedRun besideLoop (.ok .null) .null).2.dir.events.map (·.kind)) =
      iterations "loop" 2 ++ [.loopCompleted "loop"] := by
  have hval : (validate besideLoop).isValid = true := by decide
  have hloop : IsLoop besideLoop "loop" := by decide
  refine ⟨?_, by decide +kernel⟩
  exact ((loops_bounded hval).2 (run_scriptedRun besideLoop (.ok .null) .null) "loop" hloop).1

end Wardian.Engine
