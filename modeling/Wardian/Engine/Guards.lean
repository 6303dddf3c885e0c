/-
What the driver checks before the events of a pass.

A loop starts its next iteration, or ends, only when its body has ended; the next iteration is one
that the bound of the loop allows; and a pass skips only the nodes that its plan skips.  The moves of
a run do not say so, since most of what holds of runs does not need it.  Here the driver is followed
once more, and what it adds to the observations of a run is seen to be guarded.

Main results:

* `Engine.wp_drivePasses_grown`, `Engine.wp_drive_grown` — driving is guarded, and reaches the bound
  on its passes only with that many dispatches.
-/

import Wardian.Engine.Dispatch

set_option autoImplicit false

namespace Wardian.Engine

open List
open Automation (Blueprint Node IsLoop InBody WellFormed validate wellFormed_of_isValid)
open Prog (Wp wp_bind wp_ite wp_modify wp_mono wp_ofExcept_of)

variable {ω α β : Type} {host : Host ω} {bp : Blueprint} {s s' : RunState} {w w' : World ω}
  {old new trace : List Observation}

/-! ### Guarded events -/

/-- The state that finalization was planned from, as long as nothing but skips has followed. -/
def planOf : List Observation → Option RunState
  | .planned s :: _ => some s
  | .emitted _ (.nodeSkipped _) _ :: trace => planOf trace
  | _ => none

/-- What the driver has checked of an event, after `trace` and in state `s`. -/
def Guard (bp : Blueprint) (trace : List Observation) (s : RunState) : EventKind → Prop
  | .loopIteration loopId iteration => iteration ≠ 0 →
      (∃ registry, iteration < maxIterations registry (bp.findNode loopId)) ∧
        ∀ b, InBody bp b loopId → terminal s b = true
  | .loopCompleted loopId => ∀ b, InBody bp b loopId → terminal s b = true
  | .nodeSkipped node => s.statusOrPending node = .pending →
      ∃ s₀, planOf trace = some s₀ ∧ node ∈ newlySkipped s₀ (finalizeIfDone bp s₀)
  | _ => True

/-- Every event of `new`, which came after `old`, is guarded. -/
def Guarded (bp : Blueprint) (old : List Observation) : List Observation → Prop
  | [] => True
  | .emitted s kind _ :: new => Guard bp (new ++ old) s kind ∧ Guarded bp old new
  | .dispatched _ _ :: new | .planned _ :: new | .sent _ :: new => Guarded bp old new

theorem Guarded.append : ∀ {newer : List Observation}, Guarded bp (new ++ old) newer →
    Guarded bp old new → Guarded bp old (newer ++ new) := by
  intro newer
  induction newer with
  | nil => exact fun _ h => h
  | cons o newer ih =>
    intro hnewer h
    cases o with
    | emitted s kind s' =>
      refine ⟨?_, ih hnewer.2 h⟩
      show Guard bp (newer ++ new ++ old) s kind
      rw [append_assoc]
      exact hnewer.1
    | dispatched | planned | sent => exact ih hnewer h

/-- How often any node has been dispatched. -/
def dispatches (trace : List Observation) : Nat :=
  trace.countP fun o => match o with
    | .dispatched _ _ => true
    | _ => false

theorem dispatches_append (new old : List Observation) :
    dispatches (new ++ old) = dispatches new + dispatches old := countP_append ..

theorem emittedKinds_append : ∀ (new old : List Observation),
    emittedKinds (new ++ old) = emittedKinds new ++ emittedKinds old := by
  intro new old
  induction new with
  | nil => rfl
  | cons o new ih =>
    cases o with
    | emitted s kind s' => exact congrArg (kind :: ·) ih
    | dispatched | planned | sent => exact ih

/-- Guarded observations have been added, and their events to the log. -/
def Grown (bp : Blueprint) (w w' : World ω) : Prop :=
  ∃ new, w'.trace = new ++ w.trace ∧ Guarded bp w.trace new ∧
    eraseKinds (w'.dir.events.map (·.kind)) =
      eraseKinds (w.dir.events.map (·.kind) ++ (emittedKinds new).reverse)

theorem Grown.of_eq (h : w'.trace = w.trace) (hevs : w'.dir.events = w.dir.events) : Grown bp w w' := by
  refine ⟨[], h, trivial, ?_⟩
  rw [hevs]
  exact congrArg eraseKinds (append_nil _).symm

theorem Grown.trans {w₁ w₂ w₃ : World ω} (h : Grown bp w₁ w₂) (h' : Grown bp w₂ w₃) : Grown bp w₁ w₃ := by
  obtain ⟨new, htr, hgrdd, hlog⟩ := h
  obtain ⟨newer, htr', hgrdd', hlog'⟩ := h'
  refine ⟨newer ++ new, ?_, Guarded.append (htr ▸ hgrdd') hgrdd, ?_⟩
  · rw [htr', htr, append_assoc]
  · rw [hlog', emittedKinds_append, reverse_append, ← append_assoc, eraseKinds,
      map_append, ← eraseKinds, hlog]
    exact (map_append ..).symm

theorem Grown.dispatches_le (h : Grown bp w w') : dispatches w.trace ≤ dispatches w'.trace := by
  obtain ⟨new, htr, -, -⟩ := h
  rw [htr, dispatches_append]
  exact Nat.le_add_left _ _

/-! ### Tame programs -/

/-- The program adds guarded observations only, and does not stop at the bound on the passes. -/
def Tame (bp : Blueprint) (m : EngineProg ω α) : Prop :=
  ∀ w, Wp m (fun _ w' => Grown bp w w') (fun e w' => Grown bp w w' ∧ e ≠ .unfinished) w

variable {m : EngineProg ω α} {R : EngineError → World ω → Prop}

theorem Tame.wp (h : Tame bp m) {Q : α → World ω → Prop} (hQ : ∀ a w', Grown bp w w' → Q a w')
    (hR : ∀ e w', Grown bp w w' → e ≠ .unfinished → R e w') : Wp m Q R w :=
  wp_mono (h w) hQ fun e w' h => hR e w' h.1 h.2

theorem Tame.pure (a : α) : Tame (ω := ω) bp (Pure.pure a) := fun _ => .of_eq rfl rfl

theorem Tame.bind {f : α → EngineProg ω β} (hm : Tame bp m)
    (hf : ∀ a, Tame bp (f a)) : Tame bp (m >>= f) := by
  intro w
  rw [wp_bind]
  refine hm.wp (fun a w₁ h => ?_) fun e w₁ h hne => ⟨h, hne⟩
  exact (hf a).wp (fun _ _ h' => h.trans h') fun _ _ h' hne => ⟨h.trans h', hne⟩

theorem Tame.ite {c : Prop} [Decidable c] {m n : EngineProg ω α} (hm : c → Tame bp m)
    (hn : ¬c → Tame bp n) : Tame bp (if c then m else n) := by
  split
  · exact hm ‹_›
  · exact hn ‹_›

theorem tame_persist {write : RunDir → RunDir} (hwrite : ∀ dir, (write dir).events = dir.events) :
    Tame bp (persist host write) :=
  fun w => wp_persist (fun _ => ⟨.of_eq rfl rfl, by decide⟩) fun _ => .of_eq rfl (hwrite w.dir)

theorem tame_writeCheckpoint (s : RunState) : Tame bp (writeCheckpoint host s) :=
  tame_persist fun _ => rfl

theorem tame_clearCancellationRequest : Tame bp (clearCancellationRequest host) :=
  tame_persist fun _ => rfl

theorem tame_ask (question : ω → α × ω) : Tame bp (ask question) := fun _ => .of_eq rfl rfl

theorem tame_callExecutor (call : Prog ω StepError α) : Tame bp (callExecutor call) :=
  fun _ => .of_eq rfl rfl

theorem tame_cancellationRequested : Tame bp (cancellationRequested host) :=
  fun _ => Engine.wp_cancellationRequested fun _ _ _ => .of_eq rfl rfl

theorem apply_ne_unfinished {ev : Event} {e : EngineError} (h : apply bp s ev = .error e) :
    e ≠ .unfinished := by
  rintro rfl
  simp only [apply] at h
  split at h
  · cases h
  · rename_i e' happ
    obtain rfl : e' = .unfinished := Except.error.inj h
    cases hkind : ev.kind with
    | runStarted =>
      rw [hkind] at happ
      simp only [applyKind, applyRunStarted] at happ
      grind
    | messageSendPrepared =>
      rw [hkind] at happ
      simp only [applyKind, applyMessageSendPrepared] at happ
      grind
    | stateUpdated =>
      rw [hkind] at happ
      simp only [applyKind, applyStateUpdate] at happ
      grind
    | loopIteration =>
      rw [hkind] at happ
      simp only [applyKind, applyLoopIteration] at happ
      grind
    | _ =>
      rw [hkind] at happ
      cases happ

variable {kind : EventKind} {Q : RunState → World ω → Prop}

theorem wp_emit_grown (hgrd : Guard bp w.trace s kind)
    (hQ : ∀ s' ts w', apply bp s ⟨s.nextSeq, ts, kind⟩ = .ok s' →
      w'.trace = .emitted s kind s' :: w.trace → Grown bp w w' → Q s' w')
    (hR : ∀ e w', Grown bp w w' → e ≠ .unfinished → R e w') : Wp (emit host bp s kind) Q R w := by
  have hgr : ∀ (w' : World ω) (s' : RunState) (ts : String),
      w'.trace = .emitted s kind s' :: w.trace →
      w'.dir.events = w.dir.events ++ [Event.reread host.readFloat ⟨s.nextSeq, ts, kind⟩] →
      Grown bp w w' := by
    intro w' s' ts htr hevs
    refine ⟨[.emitted s kind s'], htr, ⟨hgrd, trivial⟩, ?_⟩
    rw [hevs, map_append]
    exact eraseKinds_snoc rfl kind
  unfold emit
  rw [wp_bind]
  refine Engine.wp_ask fun ts host₁ => ?_
  rw [wp_bind]
  refine wp_ofExcept_of (fun s' happ => ?_)
    fun e he => hR e _ (.of_eq rfl rfl) (apply_ne_unfinished he)
  simp only [wp_bind]
  refine wp_persist (fun host₂ => hR .io _ (.of_eq rfl rfl) (by decide)) fun host₂ => ?_
  simp only [observe, wp_modify]
  exact wp_persist (fun host₃ => hR .io _ (hgr _ s' ts rfl rfl) (by decide))
    fun host₃ => hQ s' ts _ happ rfl (hgr _ s' ts rfl rfl)

theorem tame_emit (hgrd : ∀ trace, Guard bp trace s kind) : Tame bp (emit host bp s kind) :=
  fun w => wp_emit_grown (hgrd w.trace) (fun _ _ _ _ _ h => h) fun _ _ h hne => ⟨h, hne⟩

/-! ### Dispatching -/

theorem tame_observe {o : Observation} (ho : ∀ s kind s', o ≠ .emitted s kind s') :
    Tame (ω := ω) bp (observe o) := by
  intro w
  refine ⟨[o], rfl, ?_⟩
  cases o with
  | emitted s kind s' => exact absurd rfl (ho s kind s')
  | dispatched | planned | sent => exact ⟨trivial, congrArg eraseKinds (append_nil _).symm⟩

theorem tame_callWith {ρ : Type} (request : Except StepError ρ) (call : ρ → Prog ω StepError α) :
    Tame bp (callWith request call) := by
  unfold callWith
  split
  · exact .pure _
  · exact tame_callExecutor _

theorem tame_runSideEffect (s : RunState) (nd : Node) : Tame bp (runSideEffect host s nd) := by
  have hcall : ∀ {ρ α : Type} (request : Except StepError ρ) (call : ρ → Prog ω StepError α)
      (f : Except StepError α → Except StepError ExecutedStep),
      Tame bp (do return f (← callWith request call)) :=
    fun request call f => (tame_callWith request call).bind fun _ => .pure _
  unfold runSideEffect
  refine .ite (fun _ => hcall _ _ _) fun _ => ?_
  refine .ite (fun _ => hcall _ _ _) fun _ => ?_
  refine .ite (fun _ => hcall _ _ _) fun _ => ?_
  refine .ite (fun _ => hcall _ _ _) fun _ => ?_
  refine .ite (fun _ => ?_) fun _ => ?_
  · split
    · exact .pure _
    · refine (tame_observe (by simp)).bind fun _ => ?_
      exact (tame_callExecutor _).bind fun _ => .pure _
  refine .ite (fun _ => ?_) fun _ => ?_
  · split
    · exact .pure _
    · exact (tame_callExecutor _).bind fun _ => .pure _
  exact .ite (fun _ => hcall _ _ _) fun _ => .pure _

/-- A node that has started is skipped by the executor, not by the plan. -/
theorem tame_recordStep {node : String} (hstrd : s.statusOrPending node ≠ .pending)
    (r : Except StepError ExecutedStep) : Tame bp (recordStep host bp s node r) := by
  cases r with
  | error e =>
    refine .ite (fun _ => ?_) fun _ => ?_
    · exact tame_emit fun _ h => absurd h hstrd
    · exact tame_emit fun _ => trivial
  | ok step =>
    have hlast : ∀ s, Tame bp (recordStep host bp s node (.ok { step with notification := none })) := by
      intro s
      refine (Tame.pure s).bind fun s => ?_
      cases step.chosenPort with
      | some port | none => exact tame_emit fun _ => trivial
    cases hntfd : step.notification with
    | none =>
      obtain ⟨output, port, notified⟩ := step
      obtain rfl : notified = none := hntfd
      exact hlast s
    | some message =>
      rw [recordStep, hntfd]
      exact Tame.bind (tame_emit fun _ => trivial) hlast

theorem tame_dispatchState (s : RunState) (nd : Node) : Tame bp (dispatchState host bp s nd) := by
  unfold dispatchState
  refine Tame.bind (tame_emit fun _ => trivial) fun s => ?_
  split
  · rename_i output update _
    cases update with
    | none => exact (Tame.pure s).bind fun s => tame_emit fun _ => trivial
    | some entry => exact Tame.bind (tame_emit fun _ => trivial) fun s => tame_emit fun _ => trivial
  · exact tame_emit fun _ => trivial

theorem tame_dispatchNode (s : RunState) (nd : Node) : Tame bp (dispatchNode host bp s nd) := by
  unfold dispatchNode
  refine .ite (fun _ => tame_emit fun _ => trivial) fun _ => ?_
  refine .ite (fun _ => tame_emit fun _ => trivial) fun _ => ?_
  refine .ite (fun _ => tame_emit fun _ => trivial) fun _ => ?_
  refine .ite (fun _ => tame_emit fun _ h => absurd rfl h) fun _ => ?_
  refine .ite (fun _ => ?_) fun _ => ?_
  · split
    · exact tame_emit fun _ => trivial
    · exact tame_emit fun _ => trivial
  refine .ite (fun _ => tame_dispatchState s nd) fun _ => ?_
  intro w
  rw [wp_bind]
  refine wp_emit_grown (by trivial) (fun s₁ ts w₁ happ _ h₁ => ?_) fun e w₁ h hne => ⟨h, hne⟩
  have hstrd : s₁.statusOrPending nd.id ≠ .pending := by
    rw [statusOrPending_apply happ]
    simp [effect]
  rw [wp_bind]
  refine (tame_runSideEffect s₁ nd).wp (fun r w₂ h₂ => ?_) fun e w₂ h₂ hne => ⟨h₁.trans h₂, hne⟩
  exact (tame_recordStep hstrd r).wp (fun _ _ h₃ => h₁.trans (h₂.trans h₃))
    fun _ _ h₃ hne => ⟨h₁.trans (h₂.trans h₃), hne⟩

theorem wp_dispatch_grown {node : String}
    (hQ : ∀ s' w', Grown bp w w' → dispatches w.trace < dispatches w'.trace → Q s' w')
    (hR : ∀ e w', Grown bp w w' → e ≠ .unfinished → R e w') : Wp (dispatch host bp s node) Q R w := by
  have hntd : Grown bp w (w.noted (.dispatched node s)) := 
    ⟨[.dispatched node s], rfl, trivial, congrArg eraseKinds (append_nil _).symm⟩
  have hcnt : dispatches (.dispatched node s :: w.trace) = dispatches w.trace + 1 := by
    simp [dispatches]
  unfold dispatch
  rw [wp_bind]
  simp only [observe, wp_modify]
  cases bp.findNode node with
  | none => exact hR _ _ hntd (by simp)
  | some nd =>
    refine (tame_dispatchNode s nd).wp (fun s' w' h => hQ s' w' (hntd.trans h) ?_)
      fun e w' h hne => hR e w' (hntd.trans h) hne
    have hle : dispatches (.dispatched node s :: w.trace) ≤ dispatches w'.trace :=
      h.dispatches_le
    omega

theorem tame_clearWhenEnded (s : RunState) : Tame bp (clearWhenEnded host s) := by
  unfold clearWhenEnded
  exact Tame.ite (fun _ => tame_clearCancellationRequest) fun _ => .pure _

theorem tame_cancelDispatch (s : RunState) : Tame bp (cancelDispatch host bp s) := by
  unfold cancelDispatch
  refine .ite (fun _ => ?_) fun _ => ?_
  · refine Tame.bind (tame_emit fun _ => trivial) fun s => ?_
    exact (tame_clearWhenEnded s).bind fun _ => .pure _
  · exact (tame_clearWhenEnded s).bind fun _ => .pure _

theorem tame_dispatch (s : RunState) (node : String) : Tame bp (dispatch host bp s node) :=
  fun _ => wp_dispatch_grown (fun _ _ h _ => h) fun _ _ h hne => ⟨h, hne⟩

theorem tame_dispatchAll : ∀ (nodes : List String) (s : RunState),
    Tame bp (dispatchAll host bp s nodes) := by
  intro nodes
  induction nodes with
  | nil => exact fun s => .pure _
  | cons node rest ih =>
    intro s
    rw [dispatchAll]
    refine (tame_dispatch s node).bind fun s => ?_
    refine .ite (fun _ => .pure _) fun _ => ?_
    refine tame_cancellationRequested.bind fun cancelled => ?_
    refine .ite (fun _ => ?_) fun _ => ?_
    · exact (tame_cancelDispatch s).bind fun s => .pure _
    · exact .ite (fun _ => .pure _) fun _ => ih s

/-- Dispatching nodes, when there are any, is at least one more. -/
theorem wp_dispatchAll_grown {nodes : List String} (hne : nodes ≠ []) {Q : RunState × Bool → World ω → Prop}
    (hQ : ∀ r w', Grown bp w w' → dispatches w.trace < dispatches w'.trace → Q r w')
    (hR : ∀ e w', Grown bp w w' → e ≠ .unfinished → R e w') : Wp (dispatchAll host bp s nodes) Q R w := by
  cases nodes with
  | nil => exact absurd rfl hne
  | cons node rest =>
    rw [dispatchAll, wp_bind]
    refine wp_dispatch_grown (fun s₁ w₁ h₁ hlt => ?_) hR
    have htail : Tame bp (if s₁.status = .awaitingApproval then Pure.pure (s₁, false)
        else do
          if ← cancellationRequested host then
            let s ← cancelDispatch host bp s₁
            return (s, false)
          else if s₁.status = .failed then return (s₁, false)
          else dispatchAll host bp s₁ rest) := by
      refine .ite (fun _ => .pure _) fun _ => ?_
      refine tame_cancellationRequested.bind fun cancelled => ?_
      refine .ite (fun _ => ?_) fun _ => ?_
      · exact (tame_cancelDispatch s₁).bind fun s => .pure _
      · exact .ite (fun _ => .pure _) fun _ => tame_dispatchAll rest s₁
    refine htail.wp (fun r w₂ h₂ => hQ r w₂ (h₁.trans h₂) ?_) fun e w₂ h₂ hne => hR e w₂ (h₁.trans h₂) hne
    have hle := h₂.dispatches_le
    omega

/-! ### The events of a pass -/

/-- The event advances a loop whose body has ended, within its bound. -/
structure Advances (bp : Blueprint) (s : RunState) (loopId : String) (kind : EventKind) : Prop where
  advance : AdvanceOf loopId kind
  ended : ∀ b, InBody bp b loopId → terminal s b = true
  bound : ∀ iteration, kind = .loopIteration loopId iteration →
    ∃ registry, iteration < maxIterations registry (bp.findNode loopId)

variable {l : String}

theorem Advances.guard (h : Advances bp s l kind) (trace : List Observation) : Guard bp trace s kind := by
  rcases h.advance with rfl | ⟨iteration, hne, rfl⟩
  · exact h.ended
  · exact fun _ => ⟨h.bound iteration rfl, h.ended⟩

theorem advances_of_advanceLoop (h : advanceLoop bp s l = .ok (some kind)) : Advances bp s l kind := by
  refine ⟨advanceLoop_some h, ?_, ?_⟩
  · intro b hb
    have hmem : b ∈ bodyNodes bp l := mem_bodyNodes_iff.2 hb
    unfold advanceLoop at h
    dsimp only at h
    split at h
    · rename_i hemp
      rw [List.isEmpty_iff.1 hemp] at hmem
      cases hmem
    · split at h
      · cases h
      · rename_i hall
        rw [Bool.not_eq_true', Bool.not_eq_false] at hall
        exact all_eq_true.1 hall b hmem
  · rintro iteration rfl
    unfold advanceLoop at h
    dsimp only at h
    split at h
    · cases h
    · split at h
      · cases h
      · split at h
        · cases h
        · split at h
          · rename_i hbnd
            cases h
            rw [Bool.and_eq_true, decide_eq_true_eq] at hbnd
            exact ⟨_, hbnd.2⟩
          · cases h

/-- Every event that advances loops advances one whose body has ended. -/
theorem advances_of_advanceEach : ∀ {loops : List String} {events : List EventKind},
    advanceEach bp s loops = .ok events →
    ∃ advanced : List String, advanced.Sublist loops ∧
      Forall₂ (Advances bp s) advanced events := by
  intro loops
  induction loops with
  | nil =>
    intro events h
    cases h
    exact ⟨[], Sublist.slnil, .nil⟩
  | cons l loops ih =>
    intro events h
    rw [advanceEach] at h
    split at h
    · cases h
    · rename_i event hevent
      split at h
      · cases h
      · rename_i rest hrest
        cases h
        obtain ⟨advanced, hsub, hforall⟩ := ih hrest
        cases event with
        | none => exact ⟨advanced, hsub.cons l, hforall⟩
        | some kind =>
          exact ⟨l :: advanced, hsub.cons_cons l, .cons (advances_of_advanceLoop hevent) hforall⟩

theorem Advances.apply (hwf : WellFormed bp) {l' : String} {ev : Event} (h : Advances bp s l' kind)
    (hne : l' ≠ l) (hloop : IsLoop bp l) (hadv : AdvanceOf l ev.kind) (happ : apply bp s ev = .ok s') :
    Advances bp s' l' kind := by
  refine ⟨h.advance, fun b hb => ?_, h.bound⟩
  have hbl : b ≠ l := fun he => hwf.not_inBody_of_isLoop (he ▸ hloop) hb
  have hstat := status_effect (m := marking bp s)
    (fun ha : ev.kind.actor = some b => hbl (Option.some.inj (hadv.actor.symm.trans ha)).symm)
    (fun p hp hb' => hne (hwf.inBody_unique hb (hadv.resets_eq hp ▸ hb')))
  have hend := h.ended b hb
  rcases hstat with hsame | ⟨-, -, v, port, i, hpuls, hlvs, hntrs⟩
  · rw [terminal, statusOrPending_apply happ, hsame]
    exact hend
  · -- the loop that is advanced has no edge into the body of another
    exfalso
    obtain rfl : l = v :=
      Option.some.inj (hadv.actor.symm.trans (EventKind.actor_of_pulses hpuls))
    obtain ⟨e, he, hfrom, -⟩ := hlvs
    obtain ⟨e', he', rfl⟩ := hntrs
    obtain rfl : e = e' := Option.some.inj (he.symm.trans he')
    rcases hwf.body_input e (mem_of_getElem? he) l' hb with heq | hin
    · exact hne (heq.symm.trans hfrom)
    · exact hwf.not_inBody_of_isLoop (hfrom ▸ hloop) hin

theorem tame_advance (hwf : WellFormed bp) : ∀ {advanced : List String} {events : List EventKind}
    {s : RunState}, advanced.Nodup → (∀ l ∈ advanced, IsLoop bp l) →
    Forall₂ (Advances bp s) advanced events → Tame bp (emitAll host bp s events) := by
  intro advanced
  induction advanced with
  | nil =>
    intro events s _ _ hforall
    cases hforall
    exact .pure _
  | cons l advanced ih =>
    intro events s hndp hloops hforall
    cases hforall with
    | @cons _ kind _ events hadv hforall =>
      obtain ⟨hl, hndp⟩ := nodup_cons.1 hndp
      intro w
      rw [emitAll, wp_bind]
      refine wp_emit_grown (hadv.guard _) (fun s₁ ts w₁ happ _ h₁ => ?_)
        fun e w₁ h hne => ⟨h, hne⟩
      have hrest : Forall₂ (Advances bp s₁) advanced events := by
        rw [forall₂_iff_get] at hforall ⊢
        refine ⟨hforall.1, fun i hi hi' => ?_⟩
        have hmem : advanced.get ⟨i, hi⟩ ∈ advanced := get_mem ..
        exact (hforall.2 i hi hi').apply hwf (ne_of_mem_of_not_mem hmem hl)
          (hloops l mem_cons_self) hadv.advance happ
      exact (ih hndp (fun l hl => hloops l (mem_cons_of_mem _ hl)) hrest).wp
        (fun _ _ h₂ => h₁.trans h₂) fun _ _ h₂ hne => ⟨h₁.trans h₂, hne⟩

theorem wp_skipAll_grown {s₀ : RunState} : ∀ {nodes : List String} {s : RunState} {w : World ω},
    (∀ n ∈ nodes, n ∈ newlySkipped s₀ (finalizeIfDone bp s₀)) → planOf w.trace = some s₀ →
    Wp (emitAll host bp s (nodes.map EventKind.nodeSkipped)) (fun _ w' => Grown bp w w')
      (fun e w' => Grown bp w w' ∧ e ≠ .unfinished) w := by
  intro nodes
  induction nodes with
  | nil => exact fun _ _ => .of_eq rfl rfl
  | cons node nodes ih =>
    intro s w hnds hplan
    have hgrd : Guard bp w.trace s (.nodeSkipped node) :=
      fun _ => ⟨s₀, hplan, hnds node mem_cons_self⟩
    rw [map_cons, emitAll, wp_bind]
    refine wp_emit_grown hgrd (fun s₁ ts w₁ _ htr h₁ => ?_) fun e w₁ h hne => ⟨h, hne⟩
    refine wp_mono (ih (fun n hn => hnds n (mem_cons_of_mem _ hn)) ?_)
      (fun _ _ h₂ => h₁.trans h₂) fun _ _ h₂ => ⟨h₁.trans h₂.1, h₂.2⟩
    rw [htr]
    exact hplan

theorem tame_finalizePass (s : RunState) : Tame bp (finalizePass host bp s) := by
  intro w
  have hplnd : Grown bp w (w.noted (.planned s)) := 
    ⟨[.planned s], rfl, trivial, congrArg eraseKinds (append_nil _).symm⟩
  unfold finalizePass
  rw [wp_bind]
  simp only [observe, wp_modify]
  rw [wp_bind]
  refine wp_mono (wp_skipAll_grown (w := w.noted (.planned s)) (fun _ h => h) rfl)
    (fun s₁ w₁ h₁ => ?_) fun _ _ h₁ => ⟨hplnd.trans h₁.1, h₁.2⟩
  exact ((tame_writeCheckpoint s₁).bind fun _ => .pure _).wp
    (fun _ _ h₂ => (hplnd.trans h₁).trans h₂)
    fun _ _ h₂ hne => ⟨(hplnd.trans h₁).trans h₂, hne⟩

/-! ### Driving -/

theorem tame_consumeCancellation (s : RunState) : Tame bp (consumeCancellation host bp s) := by
  unfold consumeCancellation
  split
  · refine Tame.bind (tame_emit fun _ => trivial) fun s => ?_
    exact tame_clearCancellationRequest.bind fun _ => .pure _
  · exact tame_clearCancellationRequest.bind fun _ => .pure _
  · exact tame_clearCancellationRequest.bind fun _ => .pure _
  · exact .pure _

/-- **The passes of the driver are guarded**, and every pass that another follows dispatches. -/
theorem wp_drivePasses_grown (hwf : WellFormed bp) : ∀ (fuel : Nat) {s : RunState} {w : World ω},
    Wp (drivePasses host bp fuel s) (fun _ w' => Grown bp w w')
      (fun e w' => Grown bp w w' ∧
        (e = .unfinished → dispatches w.trace + fuel ≤ dispatches w'.trace)) w := by
  intro fuel
  induction fuel with
  | zero => exact fun {s w} => ⟨.of_eq rfl rfl, fun _ => le_rfl⟩
  | succ fuel ih =>
    intro s w
    -- what is tame does not stop at the bound
    have htame : ∀ {m : EngineProg ω RunState} {w₁ : World ω}, Tame bp m → Grown bp w w₁ →
        Wp m (fun _ w' => Grown bp w w') (fun e w' => Grown bp w w' ∧
          (e = .unfinished → dispatches w.trace + (fuel + 1) ≤ dispatches w'.trace)) w₁ :=
      fun hm h₁ => hm.wp (fun _ _ h => h₁.trans h)
        fun _ _ h hne => ⟨h₁.trans h, fun he => absurd he hne⟩
    have hstop : ∀ {e : EngineError} {w₁ w₂ : World ω}, Grown bp w w₁ → Grown bp w₁ w₂ →
        e ≠ .unfinished → Grown bp w w₂ ∧
          (e = .unfinished → dispatches w.trace + (fuel + 1) ≤ dispatches w₂.trace) :=
      fun h₁ h₂ hne => ⟨h₁.trans h₂, fun he => absurd he hne⟩
    rw [drivePasses, wp_bind]
    refine tame_cancellationRequested.wp (fun cancelled w₁ h₁ => ?_)
      fun e w₁ h hne => hstop (.of_eq rfl rfl) h hne
    refine wp_ite (fun _ => htame (tame_consumeCancellation s) h₁) fun _ => ?_
    split
    · exact htame (tame_emit fun _ => trivial) h₁
    · rename_i events hevs
      obtain ⟨advanced, hsub, hforall⟩ := advances_of_advanceEach hevs
      have hndp : advanced.Nodup := hsub.nodup ((filter_sublist.map _).nodup hwf.nodup)
      have hloops : ∀ l ∈ advanced, IsLoop bp l :=
        fun l hl => ((mem_runningLoops hwf).1 (hsub.subset hl)).1
      rw [wp_bind]
      refine (tame_advance hwf hndp hloops hforall).wp (fun s₂ w₂ h₂ => ?_)
        fun e w₂ h hne => hstop h₁ h hne
      replace h₂ := h₁.trans h₂
      rw [wp_bind]
      refine (tame_finalizePass s₂).wp (fun r w₃ h₃ => ?_) fun e w₃ h hne => hstop h₂ h hne
      obtain ⟨finalized, s₃⟩ := r
      replace h₃ := h₂.trans h₃
      dsimp only
      refine wp_ite (fun _ => ?_) fun _ => ?_
      · exact htame (.ite (fun _ => tame_emit fun _ => trivial) fun _ => .pure _) h₃
      · split
        · exact htame (.pure _) h₃
        · rename_i runnable hrunn
          rw [wp_bind]
          refine wp_dispatchAll_grown hrunn (fun r w₄ h₄ hlt => ?_)
            fun e w₄ h hne => hstop h₃ h hne
          obtain ⟨s₄, goesOn⟩ := r
          have hle := h₃.dispatches_le
          replace h₄ := h₃.trans h₄
          dsimp only
          refine wp_ite (fun _ => ?_) fun _ => htame (.pure _) h₄
          refine wp_mono ih (fun _ _ h₅ => h₄.trans h₅) fun e w₅ h₅ => ?_
          refine ⟨h₄.trans h₅.1, fun he => ?_⟩
          have hrest := h₅.2 he
          omega

theorem tame_preflight {fresh : Bool} : ∀ (nodes : List Node) (s : RunState),
    Tame bp (preflight host bp fresh s nodes) := by
  intro nodes
  induction nodes with
  | nil => exact fun s => .pure _
  | cons nd nodes ih =>
    intro s
    have hnode : Tame bp (preflightNode host bp s fresh nd) := by
      unfold preflightNode
      split
      · exact .pure _
      · refine (tame_callExecutor _).bind fun r => ?_
        split
        · exact .pure _
        · split
          · exact .ite (fun _ => .pure _) fun _ => .pure _
          · exact Tame.bind (tame_emit fun _ => trivial) fun _ => .pure _
    rw [preflight]
    refine .ite (fun _ => ih s) fun _ => hnode.bind fun r => ?_
    obtain ⟨s, r⟩ := r
    cases r with
    | ok u => exact ih s
    | error e => exact Tame.bind (tame_emit fun _ => trivial) fun _ => .pure _

/-- **Driving is guarded**, and stops at the bound on its passes only after as many dispatches. -/
theorem wp_drive_grown (hwf : WellFormed bp) (fuel : Nat) :
    Wp (drive host bp fuel s) (fun _ w' => Grown bp w w')
      (fun e w' => Grown bp w w' ∧
        (e = .unfinished → dispatches w.trace + fuel ≤ dispatches w'.trace)) w := by
  unfold drive
  dsimp only
  refine wp_ite (fun _ => ?_) fun _ => wp_drivePasses_grown hwf fuel
  rw [wp_bind]
  refine (tame_preflight _ _).wp (fun r w₁ h₁ => ?_)
    fun e w₁ h hne => ⟨h, fun he => absurd he hne⟩
  obtain ⟨s₁, goesOn⟩ := r
  refine wp_ite (fun _ => ?_) fun _ => h₁
  refine wp_mono (wp_drivePasses_grown hwf fuel) (fun _ _ h₂ => h₁.trans h₂)
    fun e w₂ h₂ => ⟨h₁.trans h₂.1, fun he => ?_⟩
  have hle := h₁.dispatches_le
  have hrest := h₂.2 he
  omega

end Wardian.Engine
