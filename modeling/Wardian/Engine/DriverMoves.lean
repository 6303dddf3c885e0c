/-
Driving follows the transition system of runs.

Every program of the driver makes moves only: it starts where a run is, and ends where the run is
after some moves.  So what the moves keep, and the host, the marker and the checkpoint keep as well,
is kept by driving a run.

Main results:

* `Engine.wp_emit`, `Follows.wp_emit` — the rules for an event;
* `Engine.wp_dispatch` — dispatching a node.
-/

import Wardian.Engine.Pass

set_option autoImplicit false

namespace Wardian.Engine

open Automation (Blueprint Node IsLoop InBody WellFormed findNodeType)
open Prog (Wp wp_bind wp_ite wp_modify wp_ofExcept_of wp_pure)

variable {ω : Type} {host : Host ω} {bp : Blueprint}

/-! ### Assertions that moves keep -/

/-- The world after an event was appended. -/
def World.logged (w : World ω) (read : ReadFloat) (s : RunState) (ev : Event) (s' : RunState) :
    World ω :=
  { w with
    dir := { w.dir with events := w.dir.events ++ [ev.reread read] }
    trace := .emitted s ev.kind s' :: w.trace }

/-- The world after the checkpoint was written. -/
def World.saved (w : World ω) (s : RunState) : World ω :=
  { w with dir := { w.dir with checkpoint := some s } }

/-- The world after an observation. -/
def World.noted (w : World ω) (o : Observation) : World ω := { w with trace := o :: w.trace }

variable {kind : EventKind} {Q : RunState → World ω → Prop}

/-- Emitting an event: the program stops before the event is appended, or between the event and the
checkpoint, or does both. -/
theorem wp_emit {s : RunState} {w : World ω}
    {R : EngineError → World ω → Prop} (hstop : ∀ e host', R e { w with host := host' })
    (hemit : ∀ s' ts host', apply bp s ⟨s.nextSeq, ts, kind⟩ = .ok s' →
      R .io (World.logged { w with host := host' } host.readFloat s ⟨s.nextSeq, ts, kind⟩ s') ∧
        Q s' ((World.logged { w with host := host' } host.readFloat s
          ⟨s.nextSeq, ts, kind⟩ s').saved (s'.reread host.readFloat))) :
    Wp (emit host bp s kind) Q R w := by
  unfold emit
  rw [wp_bind]
  refine wp_ask fun ts host₁ => ?_
  rw [wp_bind]
  refine wp_ofExcept_of (fun s' happ => ?_) fun e _ => hstop e host₁
  simp only [wp_bind]
  refine wp_persist (fun host₂ => hstop .io host₂) fun host₂ => ?_
  simp only [observe, wp_modify]
  exact wp_persist (fun host₃ => (hemit s' ts host₃ happ).1)
    fun host₃ => (hemit s' ts host₃ happ).2

/-- `I` is kept by the moves of a run, and `R` holds wherever the driver stops with an error.  The
first argument of `I` lists the states that finalization was planned from. -/
structure Follows (read : ReadFloat) (bp : Blueprint) (I : List RunState → Phase → RunState → World ω → Prop)
    (R : World ω → Prop) : Prop where
  sound : ∀ {ps phase s w}, I ps phase s w → PhaseSound bp s w.trace phase
  normal : ∀ {ps phase s w}, I ps phase s w → s.normalizeLegacy = s
  stops : ∀ {ps phase s w}, I ps phase s w → R w
  /-- The host and the marker are no part of the run. -/
  aside : ∀ {ps phase s w w'}, I ps phase s w → w'.trace = w.trace →
    w'.dir.events = w.dir.events → w'.dir.checkpoint = w.dir.checkpoint →
    w'.dir.blueprint = w.dir.blueprint → I ps phase s w'
  saves : ∀ {ps phase s w}, I ps phase s w → I ps phase s (w.saved (s.reread read))
  emits : ∀ {ps phase phase' s s' w kind ts}, I ps phase s w → Legal bp s phase kind phase' →
    apply bp s ⟨s.nextSeq, ts, kind⟩ = .ok s' →
    R (w.logged read s ⟨s.nextSeq, ts, kind⟩ s') ∧
      I ps phase' s' ((w.logged read s ⟨s.nextSeq, ts, kind⟩ s').saved (s'.reread read))
  dispatches : ∀ {ps s w node nd}, I ps .idle s w → bp.findNode node = some nd →
    Ready bp s node → I ps (.opening node) s (w.noted (.dispatched node s))
  plans : ∀ {ps s w}, I ps .idle s w → Advanced bp s → I (s :: ps) .idle s (w.noted (.planned s))
  sends : ∀ {ps s w nd req}, I ps (.working nd.id) s w → nd ∈ bp.nodes →
    nd.type = "message_send" → messageSendRequest nd s = .ok req →
    I ps (.working nd.id) s (w.noted (.sent req))

variable {I : List RunState → Phase → RunState → World ω → Prop} {R : World ω → Prop}
  {ps : List RunState} {phase phase' : Phase} {s s' : RunState} {w : World ω}

namespace Follows

/-! ### Rules for reading and writing -/

theorem wp_check {α : Type} (F : Follows host.readFloat bp I R) (h : I ps phase s w) {r : Except EngineError α}
    {Q : α → World ω → Prop} (hQ : ∀ a, r = .ok a → Q a w) : Wp (Prog.ofExcept r) Q (fun _ => R) w :=
  wp_ofExcept_of hQ fun _ _ => F.stops h

theorem wp_callExecutor {α : Type} (F : Follows host.readFloat bp I R) (h : I ps phase s w)
    {call : Prog ω StepError α} {Q : Except StepError α → World ω → Prop}
    (hQ : ∀ r w', I ps phase s w' → Q r w') : Wp (callExecutor call) Q (fun _ => R) w :=
  Engine.wp_callExecutor fun r _ => hQ r _ (F.aside h rfl rfl rfl rfl)

variable {Q : Unit → World ω → Prop}

theorem wp_clear (F : Follows host.readFloat bp I R) (h : I ps phase s w) (hQ : ∀ w', I ps phase s w' → Q () w') :
    Wp (clearCancellationRequest host) Q (fun _ => R) w :=
  wp_persist (fun _ => F.stops (F.aside h rfl rfl rfl rfl)) fun _ =>
    hQ _ (F.aside h rfl rfl rfl rfl)

theorem wp_cancellationRequested (F : Follows host.readFloat bp I R) (h : I ps phase s w) {Q : Bool → World ω → Prop}
    (hQ : ∀ b w', I ps phase s w' → Q b w') : Wp (cancellationRequested host) Q (fun _ => R) w :=
  Engine.wp_cancellationRequested fun _ marker _ => hQ marker _ (F.aside h rfl rfl rfl rfl)

theorem wp_writeCheckpoint (F : Follows host.readFloat bp I R) (h : I ps phase s w) (hQ : ∀ w', I ps phase s w' → Q () w') :
    Wp (writeCheckpoint host s) Q (fun _ => R) w := by
  refine wp_persist (fun _ => F.stops (F.aside h rfl rfl rfl rfl)) fun host₁ => ?_
  have h₁ : I ps phase s { w with host := host₁ } := F.aside h rfl rfl rfl rfl
  exact hQ _ (F.saves h₁)

theorem wp_emit {kind : EventKind} (F : Follows host.readFloat bp I R) (h : I ps phase s w)
    (hleg : Legal bp s phase kind phase') {Q : RunState → World ω → Prop}
    (hQ : ∀ s' w' ts, I ps phase' s' w' → apply bp s ⟨s.nextSeq, ts, kind⟩ = .ok s' → Q s' w') :
    Wp (emit host bp s kind) Q (fun _ => R) w := by
  have haside : ∀ host', I ps phase s { w with host := host' } :=
    fun _ => F.aside h rfl rfl rfl rfl
  refine Engine.wp_emit (fun _ host' => F.stops (haside host')) fun s' ts host' happ => ?_
  obtain ⟨hstop, hnext⟩ := F.emits (haside host') hleg happ
  exact ⟨hstop, hQ s' _ ts hnext happ⟩

end Follows

/-! ### Dispatching a node -/

/-- What dispatching `node` leaves to the others: pending nodes stay pending, and tokens stay. -/
def Aside (bp : Blueprint) (node : String) (s s' : RunState) : Prop :=
  ∀ n, n ≠ node → (s.statusOrPending n = .pending → s'.statusOrPending n = .pending) ∧
    ∀ i, Enters bp i n → i ∈ s.deliveredTo n → i ∈ s'.deliveredTo n

theorem Aside.refl (node : String) (s : RunState) : Aside bp node s s :=
  fun _ _ => ⟨id, fun _ _ => id⟩

theorem Aside.trans {node : String} {s s₁ s₂ : RunState} (h : Aside bp node s s₁)
    (h' : Aside bp node s₁ s₂) : Aside bp node s s₂ :=
  fun n hn => ⟨fun hp => (h' n hn).1 ((h n hn).1 hp),
    fun i hi hd => (h' n hn).2 i hi ((h n hn).2 i hi hd)⟩

variable {node : String}

/-- An event of a node that clears no body leaves the other nodes alone. -/
theorem aside_apply {ev : Event} (hact : ∀ v, ev.kind.actor = some v → v = node)
    (hrsts : ev.kind.resets = none) (happ : apply bp s ev = .ok s') : Aside bp node s s' := by
  intro n hn
  have hmrkg := marking_apply happ
  constructor
  · intro hp
    have hoth : ev.kind.actor ≠ some n := fun h => hn (hact n h)
    have hkeep : ∀ p, ev.kind.resets = some p → ¬InBody bp n p := by
      intro p h
      rw [hrsts] at h
      cases h
    have hstat := status_effect (m := marking bp s) hoth hkeep
    rw [← hmrkg] at hstat
    rcases hstat with h | ⟨-, h, -⟩
    · exact h.trans hp
    · exact h
  · intro i hi hd
    rw [← mem_delivered_marking hi, hmrkg]
    refine delivered_effect_of_mem ((mem_delivered_marking hi).2 hd) fun p h => ?_
    rw [hrsts] at h
    cases h

theorem Ready.of_aside {n : String} (h : Ready bp s n) (hne : n ≠ node)
    (haside : Aside bp node s s') : Ready bp s' n where
  pending := (haside n hne).1 h.pending
  entry := h.entry
  token := fun hi => by
    obtain ⟨i, hent, hd⟩ := h.token hi
    exact ⟨i, hent, (haside n hne).2 i hent hd⟩

/-- A run in the middle of dispatching `node`, which it began in state `s₀`. -/
structure During (bp : Blueprint) (I : List RunState → Phase → RunState → World ω → Prop)
    (ps : List RunState) (s₀ : RunState) (node : String) (phase : Phase) (s : RunState)
    (w : World ω) : Prop where
  at_ : I ps phase s w
  aside : Aside bp node s₀ s

/-- A run after dispatching `node`: nothing is under way, and if it has ended it has failed. -/
def Dispatched (bp : Blueprint) (I : List RunState → Phase → RunState → World ω → Prop)
    (ps : List RunState) (s₀ : RunState) (node : String) (s : RunState) (w : World ω) : Prop :=
  (∃ phase, During bp I ps s₀ node phase s w ∧
    (phase = .idle ∨ (∃ n, phase = .parked n) ∨ phase = .ended ∧ s.status = .failed))

theorem Legal.actor_own
    (h : Legal bp s phase kind phase') (hph : phase = .opening node ∨ phase = .working node) :
    (∀ v, kind.actor = some v → v = node) ∧ kind.resets = none := by
  rcases hph with rfl | rfl <;> cases h <;>
    refine ⟨fun v hv => ?_, rfl⟩ <;> cases hv <;> rfl

variable {s₀ : RunState}

theorem During.wp_emit (F : Follows host.readFloat bp I R) (h : During bp I ps s₀ node phase s w)
    (hph : phase = .opening node ∨ phase = .working node) (hleg : Legal bp s phase kind phase')
    (hQ : ∀ s' w', During bp I ps s₀ node phase' s' w' → s'.status = runEffect s.status kind → Q s' w') :
    Wp (emit host bp s kind) Q (fun _ => R) w := by
  refine F.wp_emit h.at_ hleg fun s' w' ts hat happ => ?_
  obtain ⟨hact, hrsts⟩ := hleg.actor_own hph
  exact hQ s' w' ⟨hat, h.aside.trans (aside_apply hact hrsts happ)⟩ (status_apply happ)

theorem During.wp_emit_last (F : Follows host.readFloat bp I R) (h : During bp I ps s₀ node phase s w)
    (hph : phase = .opening node ∨ phase = .working node) (hleg : Legal bp s phase kind phase')
    (hrest : phase' = .idle ∨ (∃ n, phase' = .parked n) ∨
      phase' = .ended ∧ ∀ status, runEffect status kind = .failed) :
    Wp (emit host bp s kind) (Dispatched bp I ps s₀ node) (fun _ => R) w := by
  refine h.wp_emit F hph hleg fun s' w' hduring hstat => ⟨phase', hduring, ?_⟩
  rcases hrest with h | h | ⟨h, h'⟩
  · exact .inl h
  · exact .inr (.inl h)
  · exact .inr (.inr ⟨h, hstat.trans (h' _)⟩)

theorem wp_callWith {ρ α : Type} {request : Except StepError ρ} {call : ρ → Prog ω StepError α}
    (F : Follows host.readFloat bp I R) (h : I ps phase s w) {Q : Except StepError α → World ω → Prop}
    (hQ : ∀ r w', I ps phase s w' → Q r w') : Wp (callWith request call) Q (fun _ => R) w := by
  unfold callWith
  split
  · exact hQ _ _ h
  · exact F.wp_callExecutor h hQ

/-- A step chooses a port exactly when the node is a decision. -/
def ChoosesPort (nd : Node) (r : Except StepError ExecutedStep) : Prop :=
  ∀ step, r = .ok step → (step.chosenPort.isSome ↔ nd.type = "decision")

variable {nd : Node}

theorem choosesPort_ofOutput {r : Except StepError Value}
    (hne : nd.type ≠ "decision") : ChoosesPort nd (r.map ExecutedStep.ofOutput) := by
  intro step hstep
  cases r with
  | error e => cases hstep
  | ok output =>
    cases hstep
    simp [ExecutedStep.ofOutput, hne]

theorem choosesPort_decision {r : Except StepError String}
    (htype : nd.type = "decision") : ChoosesPort nd (r.bind (decisionStep nd)) := by
  intro step hstep
  cases r with
  | error e => cases hstep
  | ok port =>
    simp only [Except.bind, decisionStep] at hstep
    split at hstep
    · cases hstep
      simp [htype]
    · cases hstep

theorem choosesPort_error (e : StepError) : ChoosesPort nd (.error e) :=
  fun _ h => by cases h

theorem wp_runSideEffect (F : Follows host.readFloat bp I R) (hnd : bp.findNode nd.id = some nd)
    (h : I ps (.working nd.id) s w) {Q : Except StepError ExecutedStep → World ω → Prop}
    (hQ : ∀ r w', I ps (.working nd.id) s w' → ChoosesPort nd r → Q r w') :
    Wp (runSideEffect host s nd) Q (fun _ => R) w := by
  have hcall : ∀ {ρ : Type} (request : Except StepError ρ) (call : ρ → Prog ω StepError Value),
      nd.type ≠ "decision" →
      Wp (do return (← callWith request call).map ExecutedStep.ofOutput) Q (fun _ => R) w := by
    intro ρ request call hne
    rw [wp_bind]
    exact wp_callWith F h fun r w' h' => hQ _ _ h' (choosesPort_ofOutput hne)
  have hne : ∀ {t : String}, nd.type = t → t ≠ "decision" → nd.type ≠ "decision" :=
    fun ht hn => ht ▸ hn
  unfold runSideEffect
  refine wp_ite (fun ht => hcall _ _ (hne ht (by decide))) fun _ => ?_
  refine wp_ite (fun ht => ?_) fun hdec => ?_
  · rw [wp_bind]
    exact wp_callWith F h fun r w' h' => hQ _ _ h' (choosesPort_decision ht)
  refine wp_ite (fun ht => hcall _ _ hdec) fun _ => ?_
  refine wp_ite (fun ht => hcall _ _ hdec) fun _ => ?_
  refine wp_ite (fun ht => ?_) fun _ => ?_
  · split
    · exact hQ _ _ h (choosesPort_error _)
    · rename_i req hreq
      rw [wp_bind]
      simp only [observe, wp_modify]
      have hsent := F.sends h (Automation.Blueprint.findNode_some hnd).1 ht hreq
      rw [wp_bind]
      exact F.wp_callExecutor hsent fun r w' h' => hQ _ _ h' (choosesPort_ofOutput hdec)
  refine wp_ite (fun ht => ?_) fun _ => ?_
  · split
    · exact hQ _ _ h (choosesPort_error _)
    · rw [wp_bind]
      refine F.wp_callExecutor h fun r w' h' => hQ _ _ h' ?_
      intro step hstep
      cases r with
      | error e => cases hstep
      | ok u =>
        cases hstep
        simp [hdec]
  refine wp_ite (fun ht => hcall _ _ hdec) fun _ => ?_
  exact hQ _ _ h (choosesPort_error _)

/-- The definition of a node says whether it routes through its completion. -/
theorem isDecision_eq (hnd : bp.findNode nd.id = some nd) :
    isDecision bp nd.id = (nd.type == "decision") := by
  rw [isDecision, hnd]

theorem isLoop_iff (hnd : bp.findNode nd.id = some nd) : IsLoop bp nd.id ↔ nd.type = "loop" := by
  constructor
  · rintro ⟨nd', hnd', htype⟩
    rw [hnd] at hnd'
    exact Option.some.inj hnd' ▸ htype
  · exact fun htype => ⟨nd, hnd, htype⟩

theorem wp_recordStep {r : Except StepError ExecutedStep}
    (F : Follows host.readFloat bp I R) (hnd : bp.findNode nd.id = some nd)
    (h : During bp I ps s₀ nd.id (.working nd.id) s w) (hr : ChoosesPort nd r) :
    Wp (recordStep host bp s nd.id r) (Dispatched bp I ps s₀ nd.id) (fun _ => R) w := by
  cases r with
  | error e =>
    simp only [recordStep]
    refine wp_ite (fun _ => ?_) fun _ => ?_
    · exact h.wp_emit_last F (.inr rfl) .skips (.inl rfl)
    · exact h.wp_emit_last F (.inr rfl) (.fails _) (.inr (.inr ⟨rfl, fun _ => rfl⟩))
  | ok step =>
    have hport := hr step rfl
    have hlast : ∀ s w, During bp I ps s₀ nd.id (.working nd.id) s w →
        Wp (recordStep host bp s nd.id (.ok { step with notification := none }))
          (Dispatched bp I ps s₀ nd.id) (fun _ => R) w := by
      intro s w h
      rw [recordStep, wp_bind, wp_pure]
      cases hchosen : step.chosenPort with
      | some port => exact h.wp_emit_last F (.inr rfl) (.decides _ port) (.inl rfl)
      | none =>
        refine h.wp_emit_last F (.inr rfl) (.finishes _ ?_) (.inl rfl)
        rw [isDecision_eq hnd]
        simpa [hchosen] using hport
    cases hntfd : step.notification with
    | none =>
      obtain ⟨output, port, notified⟩ := step
      obtain rfl : notified = none := hntfd
      exact hlast s w h
    | some message =>
      rw [recordStep, hntfd, wp_bind]
      exact h.wp_emit F (.inr rfl) (.notifies message) fun s' w' h' _ => hlast s' w' h'

theorem wp_dispatchState (F : Follows host.readFloat bp I R)
    (hnd : bp.findNode nd.id = some nd) (htype : nd.type = "state") (h : During bp I ps s₀ nd.id (.opening nd.id) s w) :
    Wp (dispatchState host bp s nd) (Dispatched bp I ps s₀ nd.id) (fun _ => R) w := by
  have hloop : ¬IsLoop bp nd.id := by
    rw [isLoop_iff hnd, htype]
    decide
  have hdec : isDecision bp nd.id = false := by
    rw [isDecision_eq hnd, htype]
    decide
  unfold dispatchState
  rw [wp_bind]
  refine h.wp_emit F (.inl rfl) (.starts hloop) fun s₁ w₁ h₁ _ => ?_
  split
  · rename_i output update _
    cases update with
    | none => exact h₁.wp_emit_last F (.inr rfl) (.finishes _ hdec) (.inl rfl)
    | some entry =>
      obtain ⟨op, entries⟩ := entry
      rw [wp_bind]
      refine h₁.wp_emit F (.inr rfl) (.updates op entries) fun s₂ w₂ h₂ _ => ?_
      exact h₂.wp_emit_last F (.inr rfl) (.finishes _ hdec) (.inl rfl)
  · exact h₁.wp_emit_last F (.inr rfl) (.fails _) (.inr (.inr ⟨rfl, fun _ => rfl⟩))

theorem wp_dispatchNode (F : Follows host.readFloat bp I R)
    (hnd : bp.findNode nd.id = some nd) (h : During bp I ps s₀ nd.id (.opening nd.id) s w) :
    Wp (dispatchNode host bp s nd) (Dispatched bp I ps s₀ nd.id) (fun _ => R) w := by
  have hloop : ∀ {t : String}, nd.type = t → t ≠ "loop" → ¬IsLoop bp nd.id := by
    intro t ht hne
    rw [isLoop_iff hnd, ht]
    exact hne
  unfold dispatchNode
  refine wp_ite (fun _ => ?_) fun _ => ?_
  · exact h.wp_emit_last F (.inl rfl) (.refuses _) (.inr (.inr ⟨rfl, fun _ => rfl⟩))
  refine wp_ite (fun htype => ?_) fun _ => ?_
  · have hne : nd.type ≠ "loop" ∧ nd.type ≠ "decision" := by
      rcases htype with htype | htype
      · constructor <;> intro h <;> rw [h] at htype <;> exact absurd htype (by decide)
      · constructor <;> intro h <;> rw [h] at htype <;> exact absurd htype (by decide)
    refine h.wp_emit_last F (.inl rfl) (.passes _ (fun hl => hne.1 ((isLoop_iff hnd).1 hl)) ?_)
      (.inl rfl)
    rw [isDecision_eq hnd]
    simpa using hne.2
  refine wp_ite (fun hgate => ?_) fun _ => ?_
  · exact h.wp_emit_last F (.inl rfl) (.parks hgate) (.inr (.inl ⟨_, rfl⟩))
  refine wp_ite (fun htype => ?_) fun hnl => ?_
  · exact h.wp_emit_last F (.inl rfl) (.enters ((isLoop_iff hnd).2 htype)) (.inl rfl)
  have hnot : ¬IsLoop bp nd.id := fun hl => hnl ((isLoop_iff hnd).1 hl)
  refine wp_ite (fun htype => ?_) fun _ => ?_
  · split
    · exact h.wp_emit_last F (.inl rfl) (.branches _ hnot) (.inl rfl)
    · exact h.wp_emit_last F (.inl rfl) (.refuses _) (.inr (.inr ⟨rfl, fun _ => rfl⟩))
  refine wp_ite (fun htype => ?_) fun _ => ?_
  · exact wp_dispatchState F hnd htype h
  · rw [wp_bind]
    refine h.wp_emit F (.inl rfl) (.starts hnot) fun s₁ w₁ h₁ _ => ?_
    rw [wp_bind]
    refine wp_runSideEffect F hnd h₁.at_ fun r w₂ h₂ hr => ?_
    exact wp_recordStep F hnd ⟨h₂, h₁.aside⟩ hr

theorem wp_dispatch (F : Follows host.readFloat bp I R) (hnd : bp.findNode node = some nd) (hrdy : Ready bp s node)
    (h : I ps .idle s w) : Wp (dispatch host bp s node) (Dispatched bp I ps s node) (fun _ => R) w := by
  obtain ⟨hmem, rfl⟩ := Automation.Blueprint.findNode_some hnd
  unfold dispatch
  rw [wp_bind]
  simp only [observe, wp_modify, hnd]
  exact wp_dispatchNode F hnd ⟨F.dispatches h hnd hrdy, Aside.refl _ _⟩

end Wardian.Engine
