/-
Handlers that leave activations alone.

Most of what the actor handles has nothing to do with the pending activation.  Such a handler calls
the native runtime and the conversation lease at most, and its parts are such handlers, so that it
is enough to look at how it is put together.

Main results:

* `Plain.bind`, `Plain.ite`, `Plain.attempt` — handlers put together of plain ones are plain;
* `Plain.wp` — a plain handler keeps the actor linked to the board.
-/

import Wardian.Terminal.Board

set_option autoImplicit false

namespace Wardian.Terminal

open TerminalSessionActor

/-! ### Handlers that leave activations alone -/

/-- The pending activation, the number of activations, the activation that was completed and the
generation are the same. -/
structure Steady (s s' : TerminalSessionActor) : Prop where
  pending : s'.pendingKey = s.pendingKey
  sequence : s'.activationSequence = s.activationSequence
  completed : s'.completedActivation = s.completedActivation
  generation : s'.runtimeGeneration = s.runtimeGeneration

theorem Steady.refl (s : TerminalSessionActor) : Steady s s := ⟨rfl, rfl, rfl, rfl⟩

theorem Steady.trans {s t u : TerminalSessionActor} (hst : Steady s t) (htu : Steady t u) : Steady s u :=
  ⟨htu.pending.trans hst.pending, htu.sequence.trans hst.sequence,
    htu.completed.trans hst.completed, htu.generation.trans hst.generation⟩

variable {s : TerminalSessionActor} {b : Board}

/-- A steady change keeps the actor linked to the board. -/
theorem Linked.steady {held : Option ActivationKey} {s' : TerminalSessionActor}
    (h : Linked held s b) (hstdy : Steady s s') : Linked held s' b :=
  ⟨h.toLoose.congr hstdy.sequence, fun key hkey => h.link key (hstdy.pending ▸ hkey),
    fun key hkey => hstdy.generation ▸ hstdy.completed ▸ h.pending key (hstdy.pending ▸ hkey)⟩

variable {op : TerminalCall}

/-- A call of the native runtime promises the link only. -/
theorem promise_of_native (hnat : op.isNative = true) (h : Linked b.held s b) : Promise op s b := by
  cases op with
  | startActivation key | releaseActivationAck key => cases hnat
  | _ => exact h

/-- A native answer leaves the board alone. -/
theorem answered_of_native (hnat : op.isNative = true) {reply : op.Reply} {control : ControlPlane}
    (h : ControlPlane.Answers op b.control reply control) : b.answered control op reply = b := by
  cases h with
  | resize => rfl
  | send => rfl
  | receipt => rfl
  | acquireLease => rfl
  | retainLease => rfl
  | releaseLease => rfl
  | _ => cases hnat

/-- The calls of a handler that leaves activations alone. -/
def plainCalls (s : TerminalSessionActor) : Outside terminalInterface TerminalSessionActor Unit :=
  .any fun op s' => TerminalCall.isNative op = true ∧ Steady s s'

/-- The handler calls only the native runtime and the conversation lease, and leaves activations
alone. -/
def Plain {α : Type} (m : Handler α) : Prop :=
  ∀ s, Calling.Wp (plainCalls s) m (fun _ s' _ => Steady s s') (fun _ s' _ => Steady s s') s ()

namespace Plain

variable {α β : Type}

theorem pure (a : α) : Plain (Pure.pure a : Handler α) := fun s => Steady.refl s

theorem fail (e : TerminalBrokerError) : Plain (Calling.fail e : Handler α) := fun s => Steady.refl s

theorem get : Plain (Calling.get : Handler TerminalSessionActor) := fun s => Steady.refl s

variable {f : TerminalSessionActor → TerminalSessionActor}

theorem modify (h : ∀ s, Steady s (f s)) :
    Plain (Calling.modify f : Handler Unit) := fun s => h s

theorem ofExcept (r : Except TerminalBrokerError α) : Plain (Calling.ofExcept r : Handler α) := by
  intro s
  rw [Calling.wp_ofExcept]
  exact ⟨fun _ _ => .refl s, fun _ _ => .refl s⟩

/-- A native call is plain. -/
theorem call (op : TerminalCall) (h : op.isNative = true) :
    Plain (Calling.call (I := terminalInterface) op) := by
  intro s
  refine (Calling.wp_call_any (I := terminalInterface) op _ _ s ()).2 ⟨⟨h, .refl s⟩, fun _ => ?_⟩
  exact .refl s

/-- What a plain handler does from a state reached by a plain handler. -/
theorem later {m : Handler α} (h : Plain m) {s t : TerminalSessionActor} (hst : Steady s t) :
    Calling.Wp (plainCalls s) m (fun _ s' _ => Steady s s') (fun _ s' _ => Steady s s') t () := by
  refine (h t).transfer (J := fun _ => True) (fun _ _ => trivial) ?_ (fun _ _ _ _ _ _ _ _ => trivial)
    ?_ ?_ trivial
  · exact fun op s' _ hcall _ => ⟨hcall.1, hst.trans hcall.2⟩
  · exact fun _ s' _ hstdy _ => hst.trans hstdy
  · exact fun _ s' _ hstdy _ => hst.trans hstdy

variable {m : Handler α}

theorem bind {f : α → Handler β} (hm : Plain m) (hf : ∀ a, Plain (f a)) : Plain (m >>= f) := by
  intro s
  rw [Calling.wp_bind]
  exact Calling.wp_mono (hm s) (fun a s' _ hstdy => (hf a).later hstdy) fun _ _ _ h => h

/-- A steady change comes before the rest. -/
theorem update {g : Unit → Handler β}
    (h : ∀ s, Steady s (f s)) (hg : ∀ u, Plain (g u)) : Plain (Calling.modify f >>= g) :=
  bind (modify h) hg

theorem attempt (h : Plain m) : Plain (Calling.attempt m) := by
  intro s
  rw [Calling.wp_attempt]
  exact h s

theorem ite {p : Prop} [Decidable p] {m n : Handler α} (hm : Plain m) (hn : Plain n) :
    Plain (if p then m else n) := by
  split
  · exact hm
  · exact hn

/-- A plain handler keeps the link, whatever its outcome. -/
theorem wp (h : Plain m) {held : Option ActivationKey} {s : TerminalSessionActor} {b : Board}
    {Q : α → TerminalSessionActor → Board → Prop}
    {R : TerminalBrokerError → TerminalSessionActor → Board → Prop} (hlnk : Linked held s b)
    (hQ : ∀ a s' b', Steady s s' → Linked held s' b' → Q a s' b')
    (hR : ∀ e s' b', Steady s s' → Linked held s' b' → R e s' b') : Calling.Wp deadline m Q R s b := by
  refine (h s).transfer (J := Linked held s) (fun hb hdrf => hb.drift hdrf) ?_ ?_
    (fun a s' b' hstdy hb => hQ a s' b' hstdy (hb.steady hstdy))
    (fun e s' b' hstdy hb => hR e s' b' hstdy (hb.steady hstdy)) hlnk
  · rintro op s' b' ⟨hnat, hstdy⟩ hb
    exact promise_of_native hnat (hb.steady hstdy).own
  · rintro op s' b' reply b'' ⟨hnat, hstdy⟩ hb ⟨hans⟩
    rw [answered_of_native hnat hans]
    exact hb

end Plain

/-! ### The plain handlers -/

section PlainHandlers

/-- Checks only read. -/
theorem plain_ensureSession (sessionId : String) : Plain (ensureSession sessionId) :=
  Plain.get.bind fun _ => (Plain.pure _).ite (Plain.fail _)

theorem plain_ensureGeneration (received : Nat) : Plain (ensureGeneration received) :=
  Plain.get.bind fun _ => (Plain.pure _).ite (Plain.fail _)

theorem plain_recordOf (presentationId : String) : Plain (recordOf presentationId) := by
  refine Plain.get.bind fun s => ?_
  cases s.presentations[presentationId]? with
  | none => exact Plain.fail _
  | some record => exact Plain.pure _

theorem plain_takeSnapshot : Plain takeSnapshot :=
  Plain.get.bind fun _ => Plain.update (fun _ => ⟨rfl, rfl, rfl, rfl⟩) fun _ => Plain.pure _

/-- A size is not part of an activation. -/
theorem plain_commitGeometry (geometry : TerminalGeometry) (geometrySequence : Nat) :
    Plain (commitGeometry geometry geometrySequence) := by
  refine Plain.get.bind fun s => (Plain.pure _).ite ((Plain.fail _).ite ?_)
  refine (Plain.call (.resize geometry) rfl).bind fun reply => ?_
  cases reply with
  | error message => exact Plain.fail _
  | ok _ => exact Plain.modify fun _ => ⟨rfl, rfl, rfl, rfl⟩

theorem plain_commitDesired (desired : Option TerminalGeometry) : Plain (commitDesired desired) := by
  cases desired with
  | none => exact Plain.pure _
  | some geometry => exact plain_commitGeometry geometry 0

/-- An event is not part of one either. -/
theorem steady_emitEvent (s : TerminalSessionActor) (event : TerminalBrokerEventKind) :
    Steady s (s.emitEvent event) := ⟨rfl, rfl, rfl, rfl⟩

theorem steady_foldl_emitEvent (pieces : List (List UInt8)) (s : TerminalSessionActor) :
    Steady s (pieces.foldl (fun t piece => t.emitEvent (.output piece)) s) := by
  induction pieces generalizing s with
  | nil => exact .refl s
  | cons piece pieces ih => exact (steady_emitEvent s _).trans (ih _)

/-- A promotion is no activation. -/
theorem plain_promoteLatestEligible : Plain promoteLatestEligible := by
  refine Plain.get.bind fun s => ?_
  cases s.promotionCandidate with
  | none => exact Plain.modify fun _ => ⟨rfl, rfl, rfl, rfl⟩
  | some candidate =>
    exact (plain_commitDesired _).bind fun _ => Plain.update (fun _ => ⟨rfl, rfl, rfl, rfl⟩) fun _ => Plain.modify fun _ => ⟨rfl, rfl, rfl, rfl⟩

theorem plain_processOutput (runtimeGeneration : Nat) (bytes : List UInt8) :
    Plain (processOutput runtimeGeneration bytes) := by
  refine (plain_ensureGeneration _).bind fun _ => Plain.get.bind fun s =>
    (Plain.fail _).ite ((Plain.pure _).ite ?_)
  refine Plain.update (fun _ => ⟨rfl, rfl, rfl, rfl⟩) fun _ => (Plain.pure _).ite ?_
  refine Plain.update (fun _ => ⟨rfl, rfl, rfl, rfl⟩) fun _ => Plain.modify fun t => ?_
  exact steady_foldl_emitEvent _ t

/-- Registering changes the presentations. -/
theorem plain_register (request : TerminalPresentationRegistration)
    (identity : TerminalClientIdentity) : Plain (register request identity) :=
  (plain_ensureSession _).bind fun _ => (Plain.ofExcept _).bind fun _ =>
    (Plain.ofExcept _).bind fun _ => Plain.get.bind fun _ => (Plain.ofExcept _).bind fun _ =>
      Plain.update (fun _ => ⟨rfl, rfl, rfl, rfl⟩) fun _ => plain_takeSnapshot.bind fun _ =>
        Plain.get.bind fun _ => Plain.pure _

theorem plain_reportViewport (request : TerminalPresentationViewportRequest) :
    Plain (reportViewport request) :=
  (plain_ensureSession _).bind fun _ => (plain_ensureGeneration _).bind fun _ =>
    (plain_recordOf _).bind fun _ => Plain.update (fun _ => ⟨rfl, rfl, rfl, rfl⟩) fun _ => Plain.pure _

theorem plain_beginOwnerResync (request : TerminalOwnerResyncBeginRequest) :
    Plain (beginOwnerResync request) := by
  refine (plain_ensureSession _).bind fun _ => Plain.get.bind fun s =>
    (Plain.pure _).ite ((Plain.pure _).ite ((Plain.pure _).ite ?_))
  cases s.repeatedResync request with
  | some beginResult => exact Plain.pure _
  | none =>
    cases s.ownerResyncRejection request with
    | some reason => exact Plain.pure _
    | none =>
      exact Plain.update (fun _ => ⟨rfl, rfl, rfl, rfl⟩) fun _ => plain_takeSnapshot.bind fun _ =>
        Plain.get.bind fun _ => Plain.update (fun _ => ⟨rfl, rfl, rfl, rfl⟩) fun _ => Plain.pure _

theorem plain_ackOwnerResync (request : TerminalOwnerResyncAckRequest) : Plain (ackOwnerResync request) := by
  refine (plain_ensureSession _).bind fun _ => Plain.get.bind fun s => ?_
  cases s.ownerResyncAckRejection request with
  | some reason => exact Plain.pure _
  | none =>
    exact Plain.update (fun _ => ⟨rfl, rfl, rfl, rfl⟩) fun _ => Plain.get.bind fun _ => Plain.pure _

/-- Input goes to the native runtime. -/
theorem plain_sendUnlessEmpty (bytes : List UInt8) (withLease : Bool) :
    Plain (sendUnlessEmpty bytes withLease) := by
  refine (Plain.pure _).ite (Plain.get.bind fun s => ?_)
  cases s.runtime with
  | none => exact Plain.fail _
  | some runtime =>
    refine (Plain.call (.send bytes) rfl).bind fun reply => ?_
    cases reply with
    | timeout | closed => exact Plain.fail _
    | queued =>
      have hrece : Plain awaitReceipt := by
        refine (Plain.call .receipt rfl).bind fun receipt => ?_
        cases receipt with
        | written => exact Plain.pure _
        | timeout | closed | failed message => exact Plain.fail _
      have hwait : Plain (if runtime.inputTx = .acknowledged then awaitReceipt else pure ()) :=
        hrece.ite (Plain.pure _)
      exact Plain.ite ((Plain.call .retainLease rfl).bind fun _ => hwait) hwait

theorem plain_sendInput (request : TerminalInputRequest) : Plain (sendInput request) := by
  refine (plain_ensureSession _).bind fun _ => Plain.get.bind fun s => ?_
  cases s.validateActiveLease request.lease with
  | some reason => exact Plain.pure _
  | none => exact (Plain.pure _).ite ((plain_sendUnlessEmpty _ _).bind fun _ => Plain.pure _)

theorem plain_sendCompatibilityInput (bytes : List UInt8) : Plain (sendCompatibilityInput bytes) := by
  refine Plain.get.bind fun s => ?_
  cases s.compatibilityRejection with
  | some reason => exact Plain.pure _
  | none => exact (plain_sendUnlessEmpty _ _).bind fun _ => Plain.pure _

theorem plain_sendPrivilegedInput (bytes : List UInt8) : Plain (sendPrivilegedInput bytes) :=
  Plain.get.bind fun _ => (Plain.fail _).ite (plain_sendUnlessEmpty _ _)

theorem plain_validateComposerInput (sessionId : String) (runtimeGeneration : Nat) :
    Plain (validateComposerInput sessionId runtimeGeneration) :=
  (plain_ensureSession _).bind fun _ => (plain_ensureGeneration _).bind fun _ =>
    Plain.get.bind fun _ => (Plain.fail _).ite (Plain.pure _)

theorem plain_sendComposerInput (sessionId : String) (runtimeGeneration : Nat)
    (bytes : List UInt8) : Plain (sendComposerInput sessionId runtimeGeneration bytes) :=
  (plain_validateComposerInput _ _).bind fun _ => plain_sendUnlessEmpty _ _

theorem plain_sendAutomatedInput (sessionId : String) (runtimeGeneration : Nat)
    (bytes : List UInt8) : Plain (sendAutomatedInput sessionId runtimeGeneration bytes) := by
  have hrel : Plain releaseLease := Plain.call .releaseLease rfl
  refine (Plain.call .acquireLease rfl).bind fun acquired =>
    (Plain.ofExcept _).bind fun _ => ?_
  refine (Plain.attempt ((plain_validateComposerInput _ _).bind fun _ =>
    plain_sendUnlessEmpty _ _)).bind fun result => ?_
  cases result with
  | ok _ => exact hrel
  | error e => exact Plain.ite (hrel.bind fun _ => Plain.fail _) (Plain.fail _)

/-- A size goes to the native runtime. -/
theorem plain_resize (request : TerminalGeometryRequest) : Plain (resize request) := by
  refine (plain_ensureSession _).bind fun _ => Plain.get.bind fun s => ?_
  cases s.validateActiveLease request.lease with
  | some reason => exact Plain.pure _
  | none =>
    refine (plain_recordOf _).bind fun record => (Plain.pure _).ite ?_
    refine (plain_commitGeometry _ _).bind fun _ => Plain.update (fun _ => ⟨rfl, rfl, rfl, rfl⟩) fun _ =>
      Plain.get.bind fun _ => (Plain.pure _).ite (plain_takeSnapshot.bind fun _ => Plain.pure _)

theorem plain_resizeCompatibility (geometry : TerminalGeometry) : Plain (resizeCompatibility geometry) := by
  refine Plain.update (fun _ => ⟨rfl, rfl, rfl, rfl⟩) fun _ => Plain.get.bind fun s => ?_
  cases s.compatibilityRejection with
  | some reason => exact Plain.pure _
  | none =>
    exact (plain_commitGeometry _ _).bind fun _ => plain_takeSnapshot.bind fun _ =>
      Plain.get.bind fun _ => Plain.pure _

theorem plain_readCompatibilityOutput (maxBytes : Option Nat) (peek : Bool) :
    Plain (readCompatibilityOutput maxBytes peek) :=
  Plain.update (fun _ => ⟨rfl, rfl, rfl, rfl⟩) fun _ => Plain.get.bind fun _ =>
    Plain.ite (Plain.pure _) (Plain.update (fun _ => ⟨rfl, rfl, rfl, rfl⟩) fun _ => Plain.pure _)

/-- Consumers have their own cursors. -/
theorem plain_subscribe (request : TerminalEventSubscriptionRequest) : Plain (subscribe request) :=
  (plain_ensureSession _).bind fun _ => (plain_ensureGeneration _).bind fun _ =>
    (Plain.ofExcept _).bind fun _ => Plain.get.bind fun _ => (Plain.fail _).ite
      (Plain.update (fun _ => ⟨rfl, rfl, rfl, rfl⟩) fun _ => plain_takeSnapshot.bind fun _ =>
        Plain.get.bind fun _ => Plain.pure _)

theorem steady_afterBatch (s : TerminalSessionActor) (batch : TerminalEventBatch) :
    Steady s (s.afterBatch batch) := by
  unfold afterBatch
  split
  · exact ⟨rfl, rfl, rfl, rfl⟩
  · exact .refl s

theorem plain_readEvents (request : TerminalEventReadRequest) : Plain (readEvents request) :=
  (plain_ensureSession _).bind fun _ => Plain.get.bind fun _ =>
    Plain.ite (Plain.update (fun _ => ⟨rfl, rfl, rfl, rfl⟩) fun _ => Plain.pure _)
      ((Plain.fail _).ite ((Plain.modify fun _ => steady_afterBatch _ _).bind fun _ => Plain.pure _))

theorem plain_ackEvents (request : TerminalEventAckRequest) : Plain (ackEvents request) := by
  refine (plain_ensureSession _).bind fun _ => (plain_ensureGeneration _).bind fun _ =>
    Plain.get.bind fun s => ?_
  cases s.consumers[request.consumerId]? with
  | none => exact Plain.fail _
  | some consumer => exact Plain.update (fun _ => ⟨rfl, rfl, rfl, rfl⟩) fun _ => Plain.pure _

theorem plain_unsubscribe (request : TerminalEventUnsubscribeRequest) : Plain (unsubscribe request) :=
  (plain_ensureSession _).bind fun _ => Plain.get.bind fun _ =>
    (Plain.fail _).ite (Plain.modify fun _ => ⟨rfl, rfl, rfl, rfl⟩)

/-- A pause takes the runtime only. -/
theorem plain_pause (sessionId : String) (runtimeGeneration : Nat) :
    Plain (pause sessionId runtimeGeneration) :=
  (plain_ensureSession _).bind fun _ => (plain_ensureGeneration _).bind fun _ =>
    Plain.get.bind fun _ => Plain.ite
      (Plain.update (fun _ => ⟨rfl, rfl, rfl, rfl⟩) fun _ => Plain.get.bind fun _ => Plain.pure _)
      (Plain.get.bind fun _ => Plain.pure _)

theorem plain_pauseInputSender (sessionId : String) (runtimeGeneration : Nat) :
    Plain (pauseInputSender sessionId runtimeGeneration) :=
  (plain_ensureSession _).bind fun _ => (plain_ensureGeneration _).bind fun _ =>
    Plain.update (fun _ => ⟨rfl, rfl, rfl, rfl⟩) fun _ => Plain.get.bind fun _ => Plain.pure _

end PlainHandlers

end Wardian.Terminal
