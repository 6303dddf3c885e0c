/-
The passes of the driver.

A pass advances the loops, plans finalization, skips what is unreachable and dispatches what can
run.  An assertion that follows the moves of a run is kept by every pass, and by the whole drive; a
drive leaves the run with nothing under way, and leaves it running exactly when a pass was stuck.

Main results:

* `Engine.wp_dispatchAll`, `Engine.wp_finalizePass` — the parts of a pass;
* `Engine.wp_drivePasses`, `Engine.wp_drive` — driving a run.
-/

import Wardian.Engine.DriverMoves
import Wardian.Engine.Operations

set_option autoImplicit false

namespace Wardian.Engine

open List
open Automation (Blueprint Node IsLoop InBody WellFormed validate wellFormed_of_isValid)
open Prog (Wp wp_bind wp_ite wp_modify wp_mono)

variable {ω : Type} {host : Host ω} {bp : Blueprint}
  {I : List RunState → Phase → RunState → World ω → Prop} {R : World ω → Prop}
  {ps : List RunState} {phase phase' : Phase} {s s' : RunState} {w : World ω}

/-- Finalization planned from this state leaves the run running with nothing to run. -/
def Stuck (bp : Blueprint) (s : RunState) : Prop :=
  (finalizeIfDone bp s).status = .running ∧ step bp (finalizeIfDone bp s) = []

/-! ### The events of a pass -/

variable {Q : RunState → World ω → Prop}

/-- The events that advance loops leave no loop to be advanced. -/
theorem wp_advance (hwf : WellFormed bp) (F : Follows host.readFloat bp I R)
    (hQ : ∀ s' w', I ps .idle s' w' → Advanced bp s' → Q s' w') :
    ∀ {advanced : List String} {events : List EventKind} {s : RunState} {w : World ω},
      Forall₂ AdvanceOf advanced events → Advancing bp advanced s →
      I ps .idle s w → Wp (emitAll host bp s events) Q (fun _ => R) w := by
  intro advanced events s w hforall
  induction hforall generalizing s w with
  | nil => exact fun hadva h => hQ s w h hadva.advanced
  | @cons l kind rest events hadv _ ih =>
    intro hadva h
    obtain ⟨hloop, hrunn⟩ := hadva.running l mem_cons_self
    have hleg : Legal bp s .idle kind .idle := by
      rcases hadv with rfl | ⟨iteration, hne, rfl⟩
      · exact .closes hloop hrunn
      · exact .iterates hloop hrunn hne
    rw [emitAll, wp_bind]
    refine F.wp_emit h hleg fun s' w' ts h' happ => ?_
    exact ih (hadva.apply hwf hadv happ) h'

theorem marking_foldl_skipNode_congr : ∀ {nodes : List String} {s t : RunState},
    marking bp s = marking bp t →
    marking bp (nodes.foldl (skipNode bp) s) = marking bp (nodes.foldl (skipNode bp) t) := by
  intro nodes
  induction nodes with
  | nil => exact fun h => h
  | cons v nodes ih =>
    intro s t h
    refine ih ?_
    rw [marking_skipNode, marking_skipNode, h]

theorem wp_skipAll (F : Follows host.readFloat bp I R) :
    ∀ {nodes : List String} {s : RunState} {w : World ω}, nodes.Nodup →
      (∀ n ∈ nodes, s.statusOrPending n = .pending) → I ps .idle s w →
      (∀ s' w', I ps .idle s' w' →
        marking bp s' = marking bp (nodes.foldl (skipNode bp) s) → s'.status = s.status →
        Q s' w') →
      Wp (emitAll host bp s (nodes.map EventKind.nodeSkipped)) Q (fun _ => R) w := by
  intro nodes
  induction nodes with
  | nil => exact fun _ _ h hQ => hQ _ _ h rfl rfl
  | cons v nodes ih =>
    intro s w hndp hpend h hQ
    obtain ⟨hv, hndp⟩ := nodup_cons.1 hndp
    rw [map_cons, emitAll, wp_bind]
    refine F.wp_emit h (.cascades (hpend v mem_cons_self)) fun s₁ w₁ ts h₁ happ => ?_
    have hmrkg : marking bp s₁ = marking bp (skipNode bp s v) := by
      rw [marking_apply happ, marking_skipNode]
      rfl
    refine ih hndp (fun n hn => ?_) h₁ fun s' w' h' hm hs => hQ s' w' h' ?_ ?_
    · have hne : n ≠ v := fun he => hv (he ▸ hn)
      rw [← hpend n (mem_cons_of_mem _ hn), ← status_marking bp, ← status_marking bp,
        hmrkg, marking_skipNode, Marking.status_skip, if_neg hne]
    · rw [hm, foldl_cons]
      exact marking_foldl_skipNode_congr hmrkg
    · exact hs.trans (status_apply happ)

theorem wp_finalizePass (F : Follows host.readFloat bp I R) (hadvd : Advanced bp s)
    (h : I ps .idle s w) {Q : RunState × RunState → World ω → Prop}
    (hQ : ∀ s' w', I (s :: ps) .idle s' w' →
      marking bp s' = marking bp (finalizeIfDone bp s) → Q (finalizeIfDone bp s, s') w') :
    Wp (finalizePass host bp s) Q (fun _ => R) w := by
  have hrunn : s.status = .running := F.sound h
  obtain ⟨hmrkg, hpend⟩ := marking_finalizeIfDone bp hrunn
  have hplnd := F.plans h hadvd
  unfold finalizePass
  rw [wp_bind]
  simp only [observe, wp_modify]
  rw [wp_bind]
  refine wp_skipAll F (nodup_newlySkipped _ _) hpend hplnd fun s' w' h' hm hs => ?_
  rw [wp_bind]
  exact F.wp_writeCheckpoint h' fun w'' h'' => hQ s' w'' h'' (hm.trans hmrkg)

/-! ### Dispatching the runnable nodes -/

/-- A run with nothing under way. -/
def Resting (I : List RunState → Phase → RunState → World ω → Prop) (ps : List RunState)
    (s : RunState) (w : World ω) : Prop :=
  ∃ phase, I ps phase s w ∧ (phase = .idle ∨ (∃ n, phase = .parked n) ∨ phase = .ended)

theorem wp_cancelDispatch (F : Follows host.readFloat bp I R) (h : I ps phase s w)
    (hph : phase = .idle ∨ (∃ n, phase = .parked n) ∨ phase = .ended)
    (hQ : ∀ s' w', Resting I ps s' w' → s'.status ≠ .running → Q s' w') :
    Wp (cancelDispatch host bp s) Q (fun _ => R) w := by
  have hclear : ∀ s₁ w₁ phase₁, I ps phase₁ s₁ w₁ →
      (phase₁ = .idle ∨ (∃ n, phase₁ = .parked n) ∨ phase₁ = .ended) → s₁.status ≠ .running →
      Wp (do clearWhenEnded host s₁; return s₁) Q (fun _ => R) w₁ := by
    intro s₁ w₁ phase₁ h₁ hph₁ hne
    rw [wp_bind]
    refine wp_ite (fun _ => ?_) fun _ => ?_
    · exact F.wp_clear h₁ fun w₂ h₂ => hQ _ _ ⟨phase₁, h₂, hph₁⟩ hne
    · exact hQ _ _ ⟨phase₁, h₁, hph₁⟩ hne
  refine wp_ite (fun hrunn => ?_) fun hne => hclear _ _ _ h hph hne
  have hidle : phase = .idle := by
    have hsnd := F.sound h
    rcases hph with rfl | ⟨n, rfl⟩ | rfl
    · rfl
    · exact absurd (hsnd.1.symm.trans hrunn) (by decide)
    · rcases hsnd with hs | hs <;> exact absurd (hs.symm.trans hrunn) (by decide)
  subst hidle
  rw [wp_bind]
  refine F.wp_emit h (.aborts _) fun s₁ w₁ ts h₁ happ => ?_
  refine hclear _ _ _ h₁ (.inr (.inr rfl)) ?_
  rw [status_apply happ]
  exact fun h => by cases h

/-- Dispatching runnable nodes: the run goes on, or it is not running any more. -/
theorem wp_dispatchAll (F : Follows host.readFloat bp I R) {Q : RunState × Bool → World ω → Prop}
    (hon : ∀ s' w', I ps .idle s' w' → Q (s', true) w')
    (hoff : ∀ s' w', Resting I ps s' w' → s'.status ≠ .running → Q (s', false) w') :
    ∀ {nodes : List String} {s : RunState} {w : World ω}, nodes.Nodup →
      (∀ n ∈ nodes, (∃ nd, bp.findNode n = some nd) ∧ Ready bp s n) → I ps .idle s w →
      Wp (dispatchAll host bp s nodes) Q (fun _ => R) w := by
  intro nodes
  induction nodes with
  | nil => exact fun _ _ h => hon _ _ h
  | cons v nodes ih =>
    intro s w hndp hrdy h
    obtain ⟨hv, hndp⟩ := nodup_cons.1 hndp
    obtain ⟨⟨nd, hnd⟩, hr⟩ := hrdy v mem_cons_self
    have hrest : ∀ s', Aside bp v s s' → ∀ n ∈ nodes,
        (∃ nd, bp.findNode n = some nd) ∧ Ready bp s' n := by
      intro s' haside n hn
      obtain ⟨hfind, hrn⟩ := hrdy n (mem_cons_of_mem _ hn)
      exact ⟨hfind, hrn.of_aside (fun he : n = v => hv (he ▸ hn)) haside⟩
    rw [dispatchAll, wp_bind]
    refine wp_mono (wp_dispatch F hnd hr h) (fun s₁ w₁ hdisp => ?_) fun _ _ h => h
    obtain ⟨phase, ⟨hat, haside⟩, hph⟩ := hdisp
    have hsnd := F.sound hat
    refine wp_ite (fun hwait => ?_) fun hwait => ?_
    · refine hoff _ _ ⟨phase, hat, hph.imp_right (Or.imp_right And.left)⟩ ?_
      rw [hwait]
      decide
    rw [wp_bind]
    refine F.wp_cancellationRequested hat fun cancelled w₂ h₂ => ?_
    refine wp_ite (fun _ => ?_) fun _ => ?_
    · rw [wp_bind]
      refine wp_cancelDispatch F h₂ (hph.imp_right (Or.imp_right And.left)) ?_
      exact fun s₃ w₃ h₃ hne => hoff s₃ w₃ h₃ hne
    · refine wp_ite (fun hfld => ?_) fun hfld => ?_
      · refine hoff _ _ ⟨phase, h₂, hph.imp_right (Or.imp_right And.left)⟩ ?_
        rw [hfld]
        decide
      · have hidle : phase = .idle := by
          rcases hph with rfl | ⟨n, rfl⟩ | ⟨rfl, hf⟩
          · rfl
          · exact absurd hsnd.1 hwait
          · exact absurd hf hfld
        subst hidle
        exact ih hndp (hrest s₁ haside) h₂

/-! ### Driving -/

/-- How a drive ends: with nothing under way, and left running exactly when a pass was stuck. -/
def Driven (bp : Blueprint) (I : List RunState → Phase → RunState → World ω → Prop)
    (s : RunState) (w : World ω) : Prop :=
  ∃ ps, Resting I ps s w ∧
    ((s.status ≠ .running ∧ ∀ p ∈ ps, ¬Stuck bp p) ∨
      (s.status = .running ∧ ∃ p ∈ ps, Stuck bp p))

theorem wp_consumeCancellation (F : Follows host.readFloat bp I R) (hfree : ∀ p ∈ ps, ¬Stuck bp p) (h : I ps .idle s w) :
    Wp (consumeCancellation host bp s) (Driven bp I) (fun _ => R) w := by
  have hrunn : s.status = .running := F.sound h
  simp only [consumeCancellation, hrunn, wp_bind]
  refine F.wp_emit h (.aborts _) fun s₁ w₁ ts h₁ happ => ?_
  refine F.wp_clear h₁ fun w₂ h₂ => ⟨ps, ⟨_, h₂, .inr (.inr rfl)⟩, .inl ⟨?_, hfree⟩⟩
  rw [status_apply happ]
  exact fun h => by cases h

theorem wp_drivePasses (hwf : WellFormed bp) (F : Follows host.readFloat bp I R) :
    ∀ (fuel : Nat) {ps : List RunState} {s : RunState} {w : World ω},
      (∀ p ∈ ps, ¬Stuck bp p) → I ps .idle s w →
      Wp (drivePasses host bp fuel s) (Driven bp I) (fun _ => R) w := by
  intro fuel
  induction fuel with
  | zero => exact fun _ h => F.stops h
  | succ fuel ih =>
    intro ps s w hfree h
    rw [drivePasses, wp_bind]
    refine F.wp_cancellationRequested h fun cancelled w₁ h₁ => ?_
    refine wp_ite (fun _ => wp_consumeCancellation F hfree h₁) fun _ => ?_
    split
    · -- the condition of a loop is invalid
      refine F.wp_emit h₁ (.aborts _) fun s₂ w₂ ts h₂ happ =>
        ⟨ps, ⟨_, h₂, .inr (.inr rfl)⟩, .inl ⟨?_, hfree⟩⟩
      rw [status_apply happ]
      exact fun h => by cases h
    · rename_i events hevs
      obtain ⟨advanced, hforall, hadva⟩ := advanceLoops_ok hwf hevs
      rw [wp_bind]
      refine wp_advance hwf F (fun s₂ w₂ h₂ hadv => ?_) hforall hadva h₁
      rw [wp_bind]
      refine wp_finalizePass F hadv h₂ fun s₃ w₃ h₃ hmrkg => ?_
      obtain ⟨-, -, -, hcs, -⟩ := finalizeIfDone_eq bp (F.sound h₂)
      have hrunn₃ : s₃.status = .running := F.sound h₃
      dsimp only
      refine wp_ite (fun hne => ?_) fun hrunn => ?_
      · -- nothing is left: the run completes
        have hcompd := hcs.resolve_left hne
        have hfree' : ∀ p ∈ s₂ :: ps, ¬Stuck bp p := by
          intro p hp
          rcases mem_cons.1 hp with rfl | hp
          · exact fun hstk => hne hstk.1
          · exact hfree p hp
        rw [if_pos hcompd]
        refine F.wp_emit h₃ .completes fun s₄ w₄ ts h₄ happ =>
          ⟨_, ⟨_, h₄, .inr (.inr rfl)⟩, .inl ⟨?_, hfree'⟩⟩
        rw [status_apply happ]
        exact fun h => by cases h
      · have hrun : (finalizeIfDone bp s₂).status = .running := Decidable.not_not.1 hrunn
        have hstep : step bp s₃ = step bp (finalizeIfDone bp s₂) :=
          step_congr hmrkg (hrunn₃.trans hrun.symm)
        split
        · -- nothing can run, and yet the run is not over
          rename_i hnil
          refine ⟨s₂ :: ps, ⟨_, h₃, .inl rfl⟩, .inr ⟨hrunn₃, s₂, mem_cons_self, hrun, ?_⟩⟩
          rw [← hstep, hnil]
        · rename_i runnable hrunna
          have hfree' : ∀ p ∈ s₂ :: ps, ¬Stuck bp p := by
            intro p hp
            rcases mem_cons.1 hp with rfl | hp
            · exact fun hstk => hrunna (hstep.trans hstk.2)
            · exact hfree p hp
          rw [wp_bind]
          refine wp_dispatchAll F (fun s₄ w₄ h₄ => ?_) (fun s₄ w₄ h₄ hne => ?_)
            (nodup_step hwf) (fun n hn => ready_of_mem_step hwf hn) h₃
          · exact ih hfree' h₄
          · exact ⟨_, h₄, .inl ⟨hne, hfree'⟩⟩

theorem wp_preflightNode {fresh : Bool} {nd : Node} (F : Follows host.readFloat bp I R) (h : I ps .idle s w)
    {Q : RunState × Except StepError Unit → World ω → Prop}
    (hQ : ∀ r s' w', I ps .idle s' w' → Q (s', r) w') :
    Wp (preflightNode host bp s fresh nd) Q (fun _ => R) w := by
  unfold preflightNode
  split
  · exact hQ _ _ _ h
  · rw [wp_bind]
    refine F.wp_callExecutor h fun r w₁ h₁ => ?_
    split
    · exact hQ _ _ _ h₁
    · split
      · exact wp_ite (fun _ => hQ _ _ _ h₁) fun _ => hQ _ _ _ h₁
      · rw [wp_bind]
        exact F.wp_emit h₁ (.prepares _ _ _) fun s₂ w₂ ts h₂ _ => hQ _ _ _ h₂

theorem wp_preflight {fresh : Bool} (F : Follows host.readFloat bp I R) {Q : RunState × Bool → World ω → Prop}
    (hon : ∀ s' w', I ps .idle s' w' → Q (s', true) w')
    (hoff : ∀ s' w', I ps .ended s' w' → s'.status ≠ .running → Q (s', false) w') :
    ∀ {nodes : List Node} {s : RunState} {w : World ω}, I ps .idle s w →
      Wp (preflight host bp fresh s nodes) Q (fun _ => R) w := by
  intro nodes
  induction nodes with
  | nil => exact fun h => hon _ _ h
  | cons nd nodes ih =>
    intro s w h
    rw [preflight]
    refine wp_ite (fun _ => ih h) fun _ => ?_
    rw [wp_bind]
    refine wp_preflightNode F h fun r s₁ w₁ h₁ => ?_
    cases r with
    | ok u => exact ih h₁
    | error e =>
      simp only [wp_bind]
      refine F.wp_emit h₁ (.aborts _) fun s₂ w₂ ts h₂ happ => hoff _ _ h₂ ?_
      rw [status_apply happ]
      exact fun h => by cases h

theorem wp_drive (hwf : WellFormed bp) (F : Follows host.readFloat bp I R) (fuel : Nat) (hfree : ∀ p ∈ ps, ¬Stuck bp p)
    (h : I ps .idle s w) : Wp (drive host bp fuel s) (Driven bp I) (fun _ => R) w := by
  have hrunn : s.status = .running := F.sound h
  unfold drive
  dsimp only
  rw [F.normal h, if_pos hrunn, wp_bind]
  refine wp_preflight F (fun s₁ w₁ h₁ => ?_) (fun s₁ w₁ h₁ hne => ?_) h
  · exact wp_drivePasses hwf F fuel hfree h₁
  · exact ⟨ps, ⟨_, h₁, .inr (.inr rfl)⟩, .inl ⟨hne, hfree⟩⟩

/-- Driving a run from a state, which checks the blueprint first. -/
theorem wp_driveFromState (hval : (validate bp).isValid = true) (F : Follows host.readFloat bp I R)
    (fuel : Nat) (hfree : ∀ p ∈ ps, ¬Stuck bp p) (h : I ps .idle s w) :
    Wp (driveFromState host bp fuel s) (Driven bp I) (fun _ => R) w := by
  unfold driveFromState
  rw [wp_bind]
  refine F.wp_check h fun _ _ => ?_
  rw [wp_bind]
  refine F.wp_check h fun _ _ => ?_
  exact wp_drive (wellFormed_of_isValid hval) F fuel hfree h

end Wardian.Engine
