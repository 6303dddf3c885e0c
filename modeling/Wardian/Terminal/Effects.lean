/-
What one turn of the terminal actor does.

Every turn is one of a dozen moves of the part of the state that matters to other parties: the
presentations, the lease, the size and the event stream.  The results about the actor are proved by
cases on the moves and never look into a handler.

Main results:

* `does_turn` — every turn has an effect, whatever is answered to its calls.
-/

import Wardian.Terminal.Rules

set_option autoImplicit false

namespace Wardian.Terminal

open Calling (wp_bind wp_fail wp_get wp_ite wp_modify wp_mono wp_pure)

/-- The part of an actor that the results are about. -/
structure Core where
  runtimeGeneration : Nat
  presentations : Table PresentationRecord
  ownerPresentationId : Option String
  pendingActivation : Option PendingActivation
  leaseEpoch : Nat
  activationSequence : Nat
  streamSequence : Nat
  replay : ReplayRing
  cachedSnapshot : Option TerminalSnapshot
  geometry : TerminalGeometry
  emitted : List TerminalBrokerEvent

/-- Whether a presentation is there and interactive. -/
def Interactive (presentations : Table PresentationRecord) (presentationId : String) : Prop :=
  ∃ record, presentations[presentationId]? = some record ∧
    record.state.interactionCapability = .interactive

/-- A registration or an update that makes a presentation interactive. -/
def Turn.Grants : Turn → String → Prop
  | .message (.register request identity), presentationId =>
    request.presentationId = presentationId ∧
      identity.effectiveCapability request.requestedInteraction = .interactive
  | .message (.updatePresentation request identity), presentationId =>
    request.presentationId = presentationId ∧
      identity.effectiveCapability request.requestedInteraction = .interactive
  | _, _ => False

/-- The messages that may be answered with the error of a rollback. -/
def Turn.mayRollBack : Turn → Bool
  | .message (.updatePresentation _ _) => true
  | .message (.ackActivation _ _) => true
  | _ => false

/-- Only presentations that the turn grants it become interactive. -/
def Records (turn : Turn) (before after : Table PresentationRecord) : Prop :=
  ∀ presentationId, Interactive after presentationId →
    Interactive before presentationId ∨ turn.Grants presentationId

theorem Records.refl (turn : Turn) (presentations : Table PresentationRecord) :
    Records turn presentations presentations :=
  fun _ h => .inl h

theorem records_erase (turn : Turn) (presentations : Table PresentationRecord)
    (presentationId : String) : Records turn presentations (presentations.erase presentationId) := by
  rintro id ⟨record, hrec, hcapb⟩
  rw [Table.lookup_erase] at hrec
  split at hrec
  · cases hrec
  · exact .inl ⟨record, hrec, hcapb⟩

theorem records_insert {turn : Turn} {presentations : Table PresentationRecord}
    {presentationId : String} {record : PresentationRecord}
    (h : record.state.interactionCapability = .interactive →
      Interactive presentations presentationId ∨ turn.Grants presentationId) :
    Records turn presentations (presentations.insert presentationId record) := by
  rintro id ⟨found, hfnd, hcapb⟩
  rw [Table.lookup_insert] at hfnd
  split at hfnd
  · rename_i heq
    subst heq
    cases hfnd
    exact h hcapb
  · exact .inl ⟨found, hfnd, hcapb⟩

namespace TerminalSessionActor

def core (s : TerminalSessionActor) : Core where
  runtimeGeneration := s.runtimeGeneration
  presentations := s.presentations
  ownerPresentationId := s.ownerPresentationId
  pendingActivation := s.pendingActivation
  leaseEpoch := s.leaseEpoch
  activationSequence := s.activationSequence
  streamSequence := s.streamSequence
  replay := s.replay
  cachedSnapshot := s.cachedSnapshot
  geometry := s.geometry
  emitted := s.emitted

/-- A change of a record that keeps its capability grants nothing. -/
theorem records_modifyRecord {turn : Turn} {presentations : Table PresentationRecord}
    {presentationId : String} {f : PresentationRecord → PresentationRecord}
    (h : ∀ record, (f record).state.interactionCapability = .interactive →
      record.state.interactionCapability = .interactive ∨ turn.Grants presentationId) :
    Records turn presentations (modifyRecord presentations presentationId f) := by
  unfold modifyRecord
  cases hrec : presentations[presentationId]? with
  | none => exact .refl turn presentations
  | some record =>
    refine records_insert fun hcapb => ?_
    rcases h record hcapb with hbef | hgrants
    · exact .inl ⟨record, hrec, hbef⟩
    · exact .inr hgrants

/-- The states differ outside the core, and at most a snapshot has been handed out. -/
def Snaps (s s' : TerminalSessionActor) : Prop := s'.core = s.core ∨ s'.core = s.withSnapshot.core

/-- How the removal of a presentation ends. -/
inductive Unregistered (s : TerminalSessionActor) (presentationId : String) :
    Except TerminalBrokerError Unit → TerminalSessionActor → Prop where
  | rolledBack {pending : PendingActivation} {r : Except TerminalBrokerError Unit}
      {s' : TerminalSessionActor} (hpend : s.pendingActivation = some pending)
      (hself : pending.state.presentationId = presentationId) (h : RolledBack s pending r s') :
      Unregistered s presentationId r s'
  | kept (hown : s.ownerPresentationId ≠ some presentationId) :
      Unregistered s presentationId (.ok ()) (s.forgetPreviousOwner presentationId)
  | dropped {r : Except TerminalBrokerError Unit} {s' : TerminalSessionActor}
      (hown : s.ownerPresentationId = some presentationId)
      (h : Promoted ({ s.forgetPreviousOwner presentationId with
        ownerPresentationId := none }.advanceLeaseEpoch) r s') :
      Unregistered s presentationId r s'

/-- **What a turn does.** -/
inductive Effect (s : TerminalSessionActor) :
    Turn → Except TerminalBrokerError Answer → TerminalSessionActor → Prop where
  | quiet {turn : Turn} {answer : Except TerminalBrokerError Answer} {s' : TerminalSessionActor}
      (hcore : Snaps s s') : Effect s turn answer s'
  | output {turn : Turn} {answer : Answer} {s' : TerminalSessionActor} {pieces : List (List UInt8)}
      (hfits : ∀ piece ∈ pieces, piece.length ≤ maxBatchBytes)
      (hcore : s'.core = (pieces.foldl (fun (t : TerminalSessionActor) piece => t.emitEvent (.output piece))
        { s with cachedSnapshot := none }).core) : Effect s turn (.ok answer) s'
  | paused {turn : Turn} {answer : Answer} {s' : TerminalSessionActor}
      (hcore : s'.core = (s.emitEvent (.lifecycle .runtimePaused)).core) :
      Effect s turn (.ok answer) s'
  | recorded {turn : Turn} {answer : Answer} {s₁ s' : TerminalSessionActor}
      {presentations : Table PresentationRecord} (hszd : Sized s s₁)
      (hrecs : Records turn s.presentations presentations)
      (hcore : Snaps { s₁ with presentations := presentations } s') : Effect s turn (.ok answer) s'
  | begun {turn : Turn} {answer : Answer} {s' : TerminalSessionActor}
      {request : TerminalActivationBeginRequest}
      (hcore : s'.core =
        ({ s with pendingActivation := none }.openActivation request s.pendingActivation).2.core) :
      Effect s turn (.ok answer) s'
  | acknowledged {turn : Turn} {answer : Answer} {s₁ s' : TerminalSessionActor}
      {request : TerminalActivationAckRequest} {pending : PendingActivation}
      (hpend : s.pendingActivation = some pending)
      (hkey : ActivationKey.fromPending pending.state = .fromAck request) (hszd : Sized s s₁)
      (hcore : s'.core =
        ((s₁.withRenderer request.presentationId).withOwner request).withSnapshot.core) :
      Effect s turn (.ok answer) s'
  | rolledBack {turn : Turn} {answer : Except TerminalBrokerError Answer}
      {s₁ s' : TerminalSessionActor} {presentations : Table PresentationRecord}
      {pending : PendingActivation} {r : Except TerminalBrokerError Unit}
      (hpend : s.pendingActivation = some pending)
      (hrecs : Records turn s.presentations presentations)
      (hack : ∀ request arrival, turn = .message (.ackActivation request arrival) →
        presentations = s.presentations)
      (h : RolledBack { s with presentations := presentations } pending r s₁)
      (hans : ∀ e, answer = .error e → IsNativeError e ∧ turn.mayRollBack = true)
      (hcore : s'.core = s₁.core) : Effect s turn answer s'
  | unregistered {turn : Turn} {answer : Except TerminalBrokerError Answer}
      {s₀ s₁ s' : TerminalSessionActor} {sessionId presentationId : String}
      {runtimeGeneration : Nat} {r : Except TerminalBrokerError Unit}
      (hturn : turn = .message (.unregisterPresentation sessionId presentationId runtimeGeneration))
      (hrem : s₀.core = ({ s with
        presentations := s.presentations.erase presentationId } : TerminalSessionActor).core)
      (h : Unregistered s₀ presentationId r s₁)
      (hans : ∀ e, answer = .error e ↔ r = .error e) (hcore : s'.core = s₁.core) :
      Effect s turn answer s'
  | shutdown {answer : Answer} {s' : TerminalSessionActor}
      (hcore : s'.core = ({ s with pendingActivation := none } : TerminalSessionActor).core) :
      Effect s .shutdown (.ok answer) s'

variable {s t : TerminalSessionActor}

theorem core_emitEvent (h : s.core = t.core)
    (event : TerminalBrokerEventKind) : (s.emitEvent event).core = (t.emitEvent event).core := by
  have hseq : s.streamSequence = t.streamSequence := congrArg Core.streamSequence h
  have hgen : s.runtimeGeneration = t.runtimeGeneration := congrArg Core.runtimeGeneration h
  simp only [core, Core.mk.injEq] at h
  simp [core, emitEvent, h]

theorem core_foldl_emitEvent (pieces : List (List UInt8)) (h : s.core = t.core) :
    (pieces.foldl (fun (t : TerminalSessionActor) piece => t.emitEvent (.output piece)) s).core =
      (pieces.foldl (fun (t : TerminalSessionActor) piece => t.emitEvent (.output piece)) t).core := by
  induction pieces generalizing s t with
  | nil => exact h
  | cons piece pieces ih => exact ih (core_emitEvent h _)

/-! ### Messages that leave the core alone -/

section Quiet

variable {s : TerminalSessionActor} {turn : Turn}

theorem Effect.same {answer : Except TerminalBrokerError Answer} {s' : TerminalSessionActor}
    (h : s'.core = s.core) : Effect s turn answer s' := .quiet (.inl h)

theorem Effect.snapped {answer : Except TerminalBrokerError Answer} {s' : TerminalSessionActor}
    (h : s'.core = s.withSnapshot.core) : Effect s turn answer s' := .quiet (.inr h)

theorem does_sendUnlessEmpty (bytes : List UInt8) (withLease : Bool) (s : TerminalSessionActor) :
    Does (sendUnlessEmpty bytes withLease) s fun _ s' => s' = s := by
  unfold Does
  simp only [sendUnlessEmpty, wp_ite, wp_pure, sendRuntimeInput, wp_bind,
    wp_get]
  refine ⟨fun _ => trivial, fun _ => ?_⟩
  cases s.runtime with
  | none => simp
  | some runtime =>
    simp only [wp_bind, wp_nativeSend]
    intro reply
    cases reply with
    | timeout => simp
    | closed => simp
    | queued =>
      simp only [wp_bind, wp_ite, wp_retainLease, wp_pure, awaitReceipt,
        wp_nativeReceipt]
      refine ⟨fun _ => ⟨fun _ receipt => ?_, fun _ => trivial⟩,
        fun _ => ⟨fun _ receipt => ?_, fun _ => trivial⟩⟩
      · cases receipt <;> simp
      · cases receipt <;> simp

theorem does_sendInput (request : TerminalInputRequest) (s : TerminalSessionActor) :
    Does (sendInput request) s fun _ s' => s' = s := by
  unfold Does
  simp only [sendInput, wp_bind, wp_ensureSession, wp_get]
  refine ⟨fun _ => ?_, fun _ => trivial⟩
  cases s.validateActiveLease request.lease with
  | some reason => exact rfl
  | none =>
    simp only [wp_ite, wp_bind, wp_pure]
    refine ⟨fun _ => trivial, fun _ => ?_⟩
    exact (does_sendUnlessEmpty request.bytes false s).wp (fun _ _ h => h) (fun _ _ h => h)

theorem does_sendCompatibilityInput (bytes : List UInt8) (s : TerminalSessionActor) :
    Does (sendCompatibilityInput bytes) s fun _ s' => s' = s := by
  unfold Does
  simp only [sendCompatibilityInput, wp_bind, wp_get]
  cases s.compatibilityRejection with
  | some reason => exact rfl
  | none =>
    simp only [wp_bind, wp_pure]
    exact (does_sendUnlessEmpty bytes false s).wp (fun _ _ h => h) (fun _ _ h => h)

theorem does_sendPrivilegedInput (bytes : List UInt8) (s : TerminalSessionActor) :
    Does (sendPrivilegedInput bytes) s fun _ s' => s' = s := by
  unfold Does
  simp only [sendPrivilegedInput, wp_bind, wp_get, wp_ite, wp_fail]
  exact ⟨fun _ => trivial, fun _ => does_sendUnlessEmpty bytes false s⟩

theorem does_validateComposerInput (sessionId : String) (runtimeGeneration : Nat) (s : TerminalSessionActor) :
    Does (validateComposerInput sessionId runtimeGeneration) s fun _ s' => s' = s := by
  unfold Does
  simp [validateComposerInput]

theorem does_sendComposerInput (sessionId : String) (runtimeGeneration : Nat) (bytes : List UInt8)
    (s : TerminalSessionActor) :
    Does (sendComposerInput sessionId runtimeGeneration bytes) s fun _ s' => s' = s := by
  unfold Does
  simp only [sendComposerInput, wp_bind]
  refine (does_validateComposerInput sessionId runtimeGeneration s).wp ?_ (fun _ _ h => h)
  rintro _ s' rfl
  exact does_sendUnlessEmpty bytes false s'

theorem does_sendAutomatedInput (sessionId : String) (runtimeGeneration : Nat) (bytes : List UInt8)
    (s : TerminalSessionActor) :
    Does (sendAutomatedInput sessionId runtimeGeneration bytes) s fun _ s' => s' = s := by
  unfold Does
  simp only [sendAutomatedInput, wp_bind, wp_acquireLease, Calling.wp_ofExcept,
    Calling.wp_attempt]
  intro acquired
  refine ⟨fun _ _ => ?_, fun _ _ => trivial⟩
  refine (does_validateComposerInput sessionId runtimeGeneration s).wp ?_ ?_
  · rintro _ s' rfl
    refine (does_sendUnlessEmpty bytes true s').wp ?_ ?_
    · rintro _ _ rfl
      simp
    · rintro e _ rfl
      simp
  · rintro e s' rfl
    simp

theorem does_readCompatibilityOutput (maxBytes : Option Nat) (peek : Bool) (s : TerminalSessionActor) :
    Does (readCompatibilityOutput maxBytes peek) s fun _ s' => s'.core = s.core := by
  unfold Does
  simp only [readCompatibilityOutput, wp_bind, wp_modify, wp_get,
    wp_ite, wp_pure]
  exact ⟨fun _ => rfl, fun _ => rfl⟩

theorem does_subscribe (request : TerminalEventSubscriptionRequest) (s : TerminalSessionActor) :
    Does (subscribe request) s fun _ s' => Snaps s s' := by
  unfold Does
  simp only [subscribe, wp_bind, wp_ensureSession, wp_ensureGeneration,
    Calling.wp_ofExcept, wp_get, wp_ite, wp_fail, wp_modify,
    wp_takeSnapshot, wp_pure]
  exact ⟨fun _ => ⟨fun _ => ⟨fun _ _ => ⟨fun _ => .inl rfl, fun _ => .inr rfl⟩,
    fun _ _ => .inl rfl⟩, fun _ => .inl rfl⟩, fun _ => .inl rfl⟩

theorem does_readEvents (request : TerminalEventReadRequest) (s : TerminalSessionActor) :
    Does (readEvents request) s fun _ s' => Snaps s s' := by
  have haft : ∀ batch, Snaps s (s.afterBatch batch) := by
    intro batch
    unfold afterBatch
    split
    · exact .inr rfl
    · exact .inl rfl
  unfold Does
  simp only [readEvents, wp_bind, wp_ensureSession, wp_get, wp_ite,
    wp_fail, wp_modify, wp_pure]
  exact ⟨fun _ => ⟨fun _ => .inr rfl, fun _ => ⟨fun _ => .inl rfl, fun _ => haft _⟩⟩,
    fun _ => .inl rfl⟩

theorem does_ackEvents (request : TerminalEventAckRequest) (s : TerminalSessionActor) :
    Does (ackEvents request) s fun _ s' => s'.core = s.core := by
  unfold Does
  simp only [ackEvents, wp_bind, wp_ensureSession, wp_ensureGeneration, wp_get]
  refine ⟨fun _ => ⟨fun _ => ?_, fun _ => trivial⟩, fun _ => trivial⟩
  cases s.consumers[request.consumerId]? with
  | none | some consumer => exact rfl

theorem does_unsubscribe (request : TerminalEventUnsubscribeRequest) (s : TerminalSessionActor) :
    Does (unsubscribe request) s fun _ s' => s'.core = s.core := by
  unfold Does
  simp only [unsubscribe, wp_bind, wp_ensureSession, wp_get, wp_ite,
    wp_fail, wp_modify]
  exact ⟨fun _ => ⟨fun _ => trivial, fun _ => rfl⟩, fun _ => trivial⟩

theorem does_pauseInputSender (sessionId : String) (runtimeGeneration : Nat) (s : TerminalSessionActor) :
    Does (pauseInputSender sessionId runtimeGeneration) s fun _ s' => s'.core = s.core := by
  unfold Does
  simp only [pauseInputSender, wp_bind, wp_ensureSession, wp_ensureGeneration,
    wp_modify, wp_get, wp_pure]
  exact ⟨fun _ => ⟨fun _ => rfl, fun _ => trivial⟩, fun _ => trivial⟩

theorem does_beginOwnerResync (request : TerminalOwnerResyncBeginRequest) (s : TerminalSessionActor) :
    Does (beginOwnerResync request) s fun _ s' => Snaps s s' := by
  unfold Does
  simp only [beginOwnerResync, wp_bind, wp_ensureSession, wp_get, wp_ite,
    wp_pure]
  refine ⟨fun _ => ⟨fun _ => .inl rfl, fun _ => ⟨fun _ => .inl rfl, fun _ =>
    ⟨fun _ => .inl rfl, fun _ => ?_⟩⟩⟩, fun _ => .inl rfl⟩
  cases s.repeatedResync request with
  | some beginResult => exact .inl rfl
  | none =>
    cases s.ownerResyncRejection request with
    | some reason => exact .inl rfl
    | none =>
      simp only [startResync, wp_bind, wp_modify, wp_takeSnapshot,
        wp_get, wp_pure]
      exact .inr rfl

end Quiet

/-! ### Output, records and sizes -/

section Records

variable {s : TerminalSessionActor}

variable {turn : Turn}

theorem does_processOutput (runtimeGeneration : Nat) (bytes : List UInt8) (f : Unit → Answer) :
    Does (processOutput runtimeGeneration bytes) s fun r s' => Effect s turn (r.map f) s' := by
  unfold Does
  simp only [processOutput, wp_bind, wp_ensureGeneration, wp_get, wp_ite,
    wp_fail, wp_pure, wp_modify]
  refine ⟨fun _ => ⟨fun _ => .same rfl, fun _ => ⟨fun _ => .same rfl, fun _ =>
    ⟨fun _ => .same rfl, fun _ => ?_⟩⟩⟩, fun _ => .same rfl⟩
  have hfits : ∀ piece ∈ chunks maxBatchBytes (s.outputFilter.filter bytes).1.published,
      piece.length ≤ maxBatchBytes := fun piece hpiece => length_le_of_mem_chunks hpiece
  refine .output hfits ?_
  exact core_foldl_emitEvent _ rfl

theorem does_pause (sessionId : String) (runtimeGeneration : Nat) (f : TerminalBrokerState → Answer) :
    Does (pause sessionId runtimeGeneration) s fun r s' => Effect s turn (r.map f) s' := by
  unfold Does
  simp only [pause, wp_bind, wp_ensureSession, wp_ensureGeneration, wp_get,
    wp_ite, wp_modify, wp_pure]
  exact ⟨fun _ => ⟨fun _ => ⟨fun _ => .paused rfl, fun _ => .same rfl⟩, fun _ => .same rfl⟩,
    fun _ => .same rfl⟩

theorem does_register (request : TerminalPresentationRegistration) (identity : TerminalClientIdentity) :
    Does (register request identity) s fun r s' =>
      Effect s (.message (.register request identity)) (r.map .registered) s' := by
  unfold Does
  simp only [register, wp_bind, wp_ensureSession, Calling.wp_ofExcept, wp_get,
    wp_modify, wp_takeSnapshot, wp_pure]
  refine ⟨fun _ => ⟨fun _ _ => ⟨fun _ _ => ⟨fun _ _ => ?_, fun _ _ => .same rfl⟩,
    fun _ _ => .same rfl⟩, fun _ _ => .same rfl⟩, fun _ => .same rfl⟩
  refine .recorded .same (records_insert fun hcapb => ?_) (.inr rfl)
  exact .inr ⟨rfl, hcapb⟩

theorem does_reportViewport (request : TerminalPresentationViewportRequest)
    (f : TerminalPresentationState → Answer) :
    Does (reportViewport request) s fun r s' => Effect s turn (r.map f) s' := by
  unfold Does
  simp only [reportViewport, wp_bind, wp_ensureSession, wp_ensureGeneration, wp_recordOf,
    wp_modify, wp_pure]
  refine ⟨fun _ => ⟨fun _ => ⟨fun record hrec => ?_, fun _ => .same rfl⟩, fun _ => .same rfl⟩,
    fun _ => .same rfl⟩
  refine .recorded .same ?_ (.inl rfl)
  intro id hinte
  unfold modifyRecord at hinte
  simp only [hrec] at hinte
  refine records_insert (fun hcapb => ?_) id hinte
  exact .inl ⟨record, hrec, hcapb⟩

theorem does_ackOwnerResync (request : TerminalOwnerResyncAckRequest)
    (f : TerminalOwnerResyncAckResult → Answer) :
    Does (ackOwnerResync request) s fun r s' => Effect s turn (r.map f) s' := by
  unfold Does
  simp only [ackOwnerResync, wp_bind, wp_ensureSession, wp_get]
  refine ⟨fun _ => ?_, fun _ => .same rfl⟩
  cases s.ownerResyncAckRejection request with
  | some reason => exact .same rfl
  | none =>
    simp only [wp_bind, wp_modify, wp_get, wp_pure]
    have hrecs : Records turn s.presentations
        (modifyRecord s.presentations request.presentationId fun record =>
          { record with state := { record.state with requiresResync := false } }) :=
      records_modifyRecord fun _ h => .inl h
    exact .recorded .same hrecs (.inl rfl)

theorem does_resize (request : TerminalGeometryRequest) (f : TerminalGeometryCommitResult → Answer) :
    Does (resize request) s fun r s' => Effect s turn (r.map f) s' := by
  unfold Does
  simp only [resize, wp_bind, wp_ensureSession, wp_get]
  refine ⟨fun _ => ?_, fun _ => .same rfl⟩
  cases s.validateActiveLease request.lease with
  | some reason => exact .same rfl
  | none =>
    simp only [wp_bind, wp_recordOf, wp_ite, wp_pure, wp_modify,
      wp_get, wp_takeSnapshot]
    refine ⟨fun record _ => ⟨fun _ => .same rfl, fun _ => ?_⟩, fun _ => .same rfl⟩
    have hrecs : ∀ geometry : TerminalGeometry, Records turn s.presentations
        (modifyRecord s.presentations request.lease.presentationId fun record =>
          { record with
            state := { record.state with desiredGeometry := some geometry }
            lastGeometrySequence := request.geometrySequence }) :=
      fun geometry => records_modifyRecord fun _ h => .inl h
    refine wp_commitGeometry (fun _ => ?_) (fun _ => ?_) fun _ _ => .same rfl
    · exact ⟨fun _ => .recorded .same (hrecs _) (.inl rfl),
        fun _ => .recorded .same (hrecs _) (.inr rfl)⟩
    · exact ⟨fun _ => .recorded (.resized _ _) (hrecs _) (.inl rfl),
        fun _ => .recorded (.resized _ _) (hrecs _) (.inr rfl)⟩

theorem does_resizeCompatibility (geometry : TerminalGeometry) (f : TerminalGeometryCommitResult → Answer) :
    Does (resizeCompatibility geometry) s fun r s' => Effect s turn (r.map f) s' := by
  unfold Does
  simp only [resizeCompatibility, wp_bind, wp_modify, wp_get]
  generalize hnow : ({ s with
    compatibilityGeometrySequence := saturatingSucc s.compatibilityGeometrySequence } :
      TerminalSessionActor) = now
  cases now.compatibilityRejection with
  | some reason => exact .same (by rw [← hnow]; rfl)
  | none =>
    simp only [wp_bind, wp_takeSnapshot, wp_get, wp_pure]
    subst hnow
    refine wp_commitGeometry (fun _ => ?_) (fun _ => ?_) fun _ _ => .same rfl
    · exact .recorded .same (.refl turn _) (.inr rfl)
    · exact .recorded (.resized _ _) (.refl turn _) (.inr rfl)

end Records

/-! ### The lease -/

section Lease

variable {s : TerminalSessionActor}

theorem does_updatePresentation (request : TerminalPresentationUpdateRequest)
    (identity : TerminalClientIdentity) :
    Does (updatePresentation request identity) s fun r s' =>
      Effect s (.message (.updatePresentation request identity)) (r.map .updated) s' := by
  have hrecs : Records (.message (.updatePresentation request identity)) s.presentations
      (modifyRecord s.presentations request.presentationId (updatedRecord request identity)) :=
    records_modifyRecord fun _ h => .inr ⟨rfl, h⟩
  unfold Does
  simp only [updatePresentation, wp_bind, wp_ensureSession, wp_ensureGeneration,
    wp_recordOf, Calling.wp_ofExcept, wp_modify, wp_get, wp_ite,
    wp_pure]
  refine ⟨fun _ => ⟨fun _ => ⟨fun record hrec => ⟨fun _ _ => ⟨fun hinel => ?_,
    fun _ => ?_⟩, fun _ _ => .same rfl⟩, fun _ => .same rfl⟩, fun _ => .same rfl⟩,
    fun _ => .same rfl⟩
  · -- the activation that is pending belongs to the presentation, so there is one to roll back
    cases hpend : s.pendingActivation with
    | none => simp [pendingIsIneligible, updateRecord, hpend] at hinel
    | some pending =>
      refine (does_rollbackTaken (s := s.updateRecord request.presentationId
        (updatedRecord request identity)) hpend).wp (fun _ s' h => ?_) fun e s' h => ?_
      · exact .rolledBack hpend hrecs (fun _ _ h => by cases h) h
          (fun _ h => by cases h) rfl
      · refine .rolledBack hpend hrecs (fun _ _ h => by cases h) h ?_ rfl
        intro e' he'
        cases he'
        cases h with
        | stopped herr => exact ⟨herr, rfl⟩
  · exact .recorded .same hrecs (.inl rfl)

theorem does_unregister (sessionId presentationId : String) (runtimeGeneration : Nat) :
    Does (unregister sessionId presentationId runtimeGeneration) s fun r s' =>
      Effect s (.message (.unregisterPresentation sessionId presentationId runtimeGeneration))
        (r.map .state) s' := by
  unfold Does
  simp only [unregister, wp_bind, wp_ensureSession, wp_ensureGeneration, wp_recordOf,
    wp_modify, wp_get, wp_ite, wp_pure]
  -- the state once the presentation is removed
  have hrem : ({ s with presentations := s.presentations.erase presentationId }.dropOwnerResync
      presentationId).core = ({ s with
        presentations := s.presentations.erase presentationId } : TerminalSessionActor).core := rfl
  have hgone : ({ s with presentations := s.presentations.erase presentationId }.dropOwnerResync
      presentationId).presentationHasActiveRenderer presentationId = false := by
    simp [presentationHasActiveRenderer, dropOwnerResync]
  generalize { s with presentations := s.presentations.erase presentationId }.dropOwnerResync
    presentationId = s₀ at hrem hgone ⊢
  refine ⟨fun _ => ⟨fun _ => ⟨fun record hrec => ⟨fun hpends => ?_, fun hnot => ⟨fun hown => ?_,
    fun hown => ?_⟩⟩, fun _ => .same rfl⟩, fun _ => .same rfl⟩, fun _ => .same rfl⟩
  · cases hpend : s₀.pendingActivation with
    | none => simp [hpend] at hpends
    | some pending =>
      have hself : pending.state.presentationId = presentationId := by
        simpa [hpend] using hpends
      refine (does_rollbackTaken hpend).wp (fun _ s₁ h => ?_) fun e s₁ h => ?_
      · -- the presentation that is gone is not given the lease back
        have hnotOwner : ¬s₁.ownerPresentationId = some presentationId := by
          cases h with
          | settled hszd hown =>
            rcases hown with rfl | ⟨-, previous, rfl, hact⟩
            · simp [emitOwnership, emitEvent]
            · rintro heq
              cases heq
              rw [hgone] at hact
              cases hact
        refine ⟨fun hown => absurd hown hnotOwner, fun _ => ?_⟩
        exact .unregistered rfl hrem (.rolledBack hpend hself h) (by simp [Except.map]) rfl
      · exact .unregistered rfl hrem (.rolledBack hpend hself h) (by simp [Except.map]) rfl
  · refine (does_promoteLatestEligible _).wp (fun _ s₁ h => ?_) fun e s₁ h => ?_
    · exact .unregistered rfl hrem (.dropped hown h) (by simp [Except.map]) rfl
    · exact .unregistered rfl hrem (.dropped hown h) (by simp [Except.map]) rfl
  · exact .unregistered rfl hrem (.kept hown) (by simp [Except.map]) rfl

theorem does_beginActivation (request : TerminalActivationBeginRequest) {turn : Turn}
    (f : TerminalActivationBeginResult → Answer) :
    Does (beginActivation request) s fun r s' => Effect s turn (r.map f) s' := by
  unfold Does
  simp only [beginActivation, wp_bind, wp_ensureSession, wp_get, wp_ite,
    wp_pure]
  refine ⟨fun _ => ⟨fun _ => .same rfl, fun _ => ⟨fun _ => .same rfl, fun _ => ?_⟩⟩,
    fun _ => .same rfl⟩
  cases s.repeatedBegin request with
  | some beginResult => exact .same rfl
  | none =>
    simp only [wp_ite, wp_pure]
    refine ⟨fun _ => .same rfl, fun _ => ⟨fun _ => .same rfl, fun _ =>
      ⟨fun _ => .same rfl, fun _ => ?_⟩⟩⟩
    have hbgn : Effect s turn (.ok (f ({ s with
        pendingActivation := none }.openActivation request s.pendingActivation).1.beginResult))
        ({ s with pendingActivation := none }.openActivation request s.pendingActivation).2 :=
      .begun rfl
    simp only [startActivation, wp_bind, wp_get, wp_modify]
    cases hpend : s.pendingActivation with
    | none =>
      rw [hpend] at hbgn
      simp only [wp_bind, wp_get, wp_modify,
        wp_scheduleActivationTimeout, wp_pure]
      exact hbgn
    | some previous =>
      rw [hpend] at hbgn
      simp only [wp_bind, wp_get, wp_modify,
        wp_cancelActivationTimeout, wp_scheduleActivationTimeout, wp_pure]
      exact hbgn

/-- A timeout rolls the pending activation back if it is the one named, and reports nothing. -/
theorem does_activationTimeout (key : ActivationKey) (s : TerminalSessionActor) :
    Does (activationTimeout key) s fun r s' => r = .ok () ∧ (s' = s ∨
      ∃ pending r', s.pendingActivation = some pending ∧ RolledBack s pending r' s') := by
  unfold Does
  simp only [activationTimeout, wp_bind, wp_get, wp_ite,
    Calling.wp_attempt, wp_pure]
  refine ⟨fun hkey => ?_, fun _ => ⟨trivial, .inl trivial⟩⟩
  cases hpend : s.pendingActivation with
  | none => simp [isPending, hpend] at hkey
  | some pending =>
    exact (does_rollbackTaken hpend).wp (fun _ s' h => ⟨trivial, .inr ⟨pending, _, rfl, h⟩⟩)
      fun _ s' h => ⟨trivial, .inr ⟨pending, _, rfl, h⟩⟩

theorem Effect.ofTimeout {turn : Turn} {answer : Answer} {s' : TerminalSessionActor}
    (h : s' = s ∨ ∃ pending r, s.pendingActivation = some pending ∧ RolledBack s pending r s') :
    Effect s turn (.ok answer) s' := by
  rcases h with rfl | ⟨pending, r, hpend, h⟩
  · exact .same rfl
  · exact .rolledBack hpend (.refl turn _) (fun _ _ _ => rfl) h (fun _ h => by cases h) rfl

theorem does_commitActivation {request : TerminalActivationAckRequest} {arrival : ActivationAckArrival}
    {pending : PendingActivation} (hpend : s.pendingActivation = some pending)
    (hkey : ActivationKey.fromPending pending.state = .fromAck request) :
    Does (commitActivation request) s fun r s' =>
      Effect s (.message (.ackActivation request arrival)) (r.map .acknowledged) s' := by
  unfold Does
  simp only [commitActivation, wp_bind, wp_get, Calling.wp_attempt]
  refine wp_commitDesired (fun s₁ hszd => ?_) fun e he => ?_
  · simp only [wp_modify, wp_cancelActivationTimeout, wp_takeSnapshot, wp_pure]
    exact .acknowledged hpend hkey hszd rfl
  · simp only [wp_fail]
    have hans : ∀ e', (Except.error e : Except TerminalBrokerError Answer) = .error e' →
        IsNativeError e' ∧
          (Turn.message (.ackActivation request arrival)).mayRollBack = true := by
      intro e' he'
      cases he'
      exact ⟨he, rfl⟩
    exact (does_rollbackTaken hpend).wp
      (fun _ s' h => .rolledBack hpend (.refl _ _) (fun _ _ _ => rfl) h hans rfl)
      fun _ s' h => .rolledBack hpend (.refl _ _) (fun _ _ _ => rfl) h hans rfl

theorem does_ackActivation (request : TerminalActivationAckRequest) (arrival : ActivationAckArrival) :
    Does (ackActivation request arrival) s fun r s' =>
      Effect s (.message (.ackActivation request arrival)) (r.map .acknowledged) s' := by
  unfold Does
  simp only [ackActivation, wp_bind, wp_ensureSession, wp_get, wp_ite]
  refine ⟨fun _ => ⟨fun _ => ?_, fun _ => ?_⟩, fun _ => .same rfl⟩
  · -- the acknowledgement is late
    simp only [lateAck, wp_bind, wp_claimTimeout, wp_ite, wp_get,
      wp_pure]
    refine fun claimed => ⟨fun _ => ?_, fun _ => .same rfl⟩
    refine (does_activationTimeout _ s).wp (fun _ s' h => .ofTimeout h.2) fun e s' h => ?_
    cases h.1
  · cases s.completedActivation.filter fun completed => completed.request = request with
    | some completed => exact .same rfl
    | none =>
      simp only [wp_ite, wp_pure, wp_bind, wp_get]
      refine ⟨fun _ => .same rfl, fun _ => ⟨fun _ => .same rfl, fun hkey =>
        ⟨fun _ => .same rfl, fun _ => ?_⟩⟩⟩
      cases hpend : s.pendingActivation with
      | none => simp [isPending, hpend] at hkey
      | some pending =>
        have hsame : ActivationKey.fromPending pending.state = .fromAck request := by
          simpa [isPending, hpend] using hkey
        refine ⟨fun _ => ?_, fun _ => does_commitActivation hpend hsame⟩
        refine (does_rollbackTaken hpend).wp (fun _ s' h => ?_) fun e s' h => ?_
        · exact .rolledBack hpend (.refl _ _) (fun _ _ _ => rfl) h (fun _ h => by cases h) rfl
        · refine .rolledBack hpend (.refl _ _) (fun _ _ _ => rfl) h ?_ rfl
          intro e' he'
          cases he'
          cases h with
          | stopped herr => exact ⟨herr, rfl⟩

theorem does_handleControl : Does handleControl s fun r s' =>
    Effect s .control (r.map fun _ => .done) s' := by
  unfold Does
  simp only [handleControl, wp_bind, wp_takeDue]
  intro due
  cases due with
  | none => exact .same rfl
  | some key =>
    refine (does_activationTimeout key s).wp (fun _ s' h => .ofTimeout h.2) fun e s' h => ?_
    cases h.1

theorem does_shutdown : Does shutdown s fun r s' => Effect s .shutdown (r.map fun _ => .done) s' := by
  unfold Does
  simp only [shutdown, wp_bind, wp_modify, wp_clearControl]
  exact .shutdown rfl

end Lease

/-! ### Every turn -/

theorem Does.answered {α β : Type} {m : Handler α} {f : α → β}
    {E : Except TerminalBrokerError β → TerminalSessionActor → Prop}
    (h : Does m s fun r s' => E (r.map f) s') : Does (do return f (← m)) s E := by
  unfold Does
  rw [wp_bind]
  exact h

theorem Does.mono {α : Type} {m : Handler α}
    {E E' : Except TerminalBrokerError α → TerminalSessionActor → Prop} (h : Does m s E)
    (hE : ∀ r s', E r s' → E' r s') : Does m s E' :=
  wp_mono h (fun _ s' _ => hE _ s') fun _ s' _ => hE _ s'

theorem does_handleMessage (message : Message) (s : TerminalSessionActor) :
    Does (handleMessage message) s (Effect s (.message message)) := by
  cases message with
  | output runtimeGeneration bytes => exact (does_processOutput runtimeGeneration bytes _).answered
  | register request identity => exact (does_register request identity).answered
  | updatePresentation request identity => exact (does_updatePresentation request identity).answered
  | unregisterPresentation sessionId presentationId runtimeGeneration =>
    exact (does_unregister sessionId presentationId runtimeGeneration).answered
  | reportViewport request => exact (does_reportViewport request _).answered
  | beginActivation request => exact (does_beginActivation request _).answered
  | ackActivation request arrival =>
    unfold Does
    simp only [handleMessage, wp_bind, Calling.wp_attempt, wp_dropArrival,
      Calling.wp_ofExcept, wp_pure]
    refine (does_ackActivation request arrival).wp (fun result s' h => ?_) fun e s' h => ?_
    · refine ⟨?_, by simp⟩
      rintro _ ⟨⟩
      exact h
    · refine ⟨by simp, ?_⟩
      rintro _ ⟨⟩
      exact h
  | input request =>
    exact ((does_sendInput request s).mono fun _ _ h => .same (by rw [h])).answered
  | resize request => exact (does_resize request _).answered
  | compatibilityInput bytes =>
    exact ((does_sendCompatibilityInput bytes s).mono fun _ _ h => .same (by rw [h])).answered
  | compatibilityResize geometry => exact (does_resizeCompatibility geometry _).answered
  | privilegedInput bytes =>
    exact ((does_sendPrivilegedInput bytes s).mono fun _ _ h => .same (by rw [h])).answered
  | composerInput sessionId runtimeGeneration bytes =>
    exact ((does_sendComposerInput sessionId runtimeGeneration bytes s).mono
      fun _ _ h => .same (by rw [h])).answered
  | automatedInput sessionId runtimeGeneration bytes =>
    exact ((does_sendAutomatedInput sessionId runtimeGeneration bytes s).mono
      fun _ _ h => .same (by rw [h])).answered
  | readCompatibilityOutput maxBytes peek =>
    exact ((does_readCompatibilityOutput maxBytes peek s).mono fun _ _ h => .same h).answered
  | subscribe request => exact ((does_subscribe request s).mono fun _ _ h => .quiet h).answered
  | readEvents request => exact ((does_readEvents request s).mono fun _ _ h => .quiet h).answered
  | ackEvents request => exact ((does_ackEvents request s).mono fun _ _ h => .same h).answered
  | unsubscribe request => exact ((does_unsubscribe request s).mono fun _ _ h => .same h).answered
  | consumerAcknowledgements | brokerState | nativeWriteReceiptsEnabled => exact .same rfl
  | snapshot =>
    unfold Does
    simp only [handleMessage, wp_bind, wp_takeSnapshot, wp_pure]
    exact .snapped rfl
  | pause sessionId runtimeGeneration => exact (does_pause sessionId runtimeGeneration _).answered
  | pauseInputSender sessionId runtimeGeneration =>
    exact ((does_pauseInputSender sessionId runtimeGeneration s).mono
      fun _ _ h => .same h).answered
  | beginOwnerResync request =>
    exact ((does_beginOwnerResync request s).mono fun _ _ h => .quiet h).answered
  | ackOwnerResync request => exact (does_ackOwnerResync request _).answered

/-- **Every turn has an effect**, whatever is answered to its calls. -/
theorem does_turn (t : Turn) (s : TerminalSessionActor) : Does (turn t) s (Effect s t) := by
  cases t with
  | control => exact does_handleControl.answered
  | message message => exact does_handleMessage message s
  | shutdown => exact does_shutdown.answered

theorem effect_of_ends {t : Turn} {s' : TerminalSessionActor}
    {calls : List (TerminalCall × TerminalSessionActor)} {answer : Except TerminalBrokerError Answer}
    (h : (turn t s).Ends calls answer s') : Effect s t answer s' := by
  have hpost := ((does_turn t s).ends h).1
  cases answer with
  | ok answer | error e => exact hpost

end TerminalSessionActor

/-! ### Runs -/

/-- A turn that the actor has finished: the calls it made with the states they were made in, and
the states around it. -/
structure Handled where
  turn : Turn
  before : TerminalSessionActor
  calls : List (TerminalCall × TerminalSessionActor)
  answer : Except TerminalBrokerError Answer
  after : TerminalSessionActor

/-- What the actor has handled on its way from `start` to a state, the latest last.  The turns and
everything that is answered to its calls are arbitrary. -/
inductive Run (start : TerminalSessionActor) : TerminalSessionActor → List Handled → Prop where
  | start : Run start start []
  | step {s s' : TerminalSessionActor} {past : List Handled} {turn : Turn}
      {calls : List (TerminalCall × TerminalSessionActor)}
      {answer : Except TerminalBrokerError Answer} (h : Run start s past)
      (hends : (TerminalSessionActor.turn turn s).Ends calls answer s') :
      Run start s' (past ++ [⟨turn, s, calls, answer, s'⟩])

variable {s start : TerminalSessionActor} {past : List Handled}

theorem Run.forall_handled (h : Run start s past) {P : Handled → Prop}
    (hP : ∀ turn s calls answer s', (TerminalSessionActor.turn turn s).Ends calls answer s' →
      P ⟨turn, s, calls, answer, s'⟩) : ∀ handled ∈ past, P handled := by
  induction h with
  | start => intro handled hhdld; cases hhdld
  | step h hends ih =>
    intro handled hhdld
    rcases List.mem_append.1 hhdld with hhdld | hhdld
    · exact ih handled hhdld
    · cases List.mem_singleton.1 hhdld
      exact hP _ _ _ _ _ hends

/-- Play turns whose calls are answered from a table. -/
def play (answers : (op : TerminalCall) → op.Reply) :
    List Turn → TerminalSessionActor → List Handled
  | [], _ => []
  | turn :: turns, s =>
    let thread := TerminalSessionActor.turn turn s
    let (answer, s') := thread.run answers
    ⟨turn, s, thread.calls answers, answer, s'⟩ :: play answers turns s'

/-- The state after the turns played. -/
def playState (answers : (op : TerminalCall) → op.Reply) :
    List Turn → TerminalSessionActor → TerminalSessionActor
  | [], s => s
  | turn :: turns, s =>
    playState answers turns ((TerminalSessionActor.turn turn s).run answers).2

theorem run_play_append
    (answers : (op : TerminalCall) → op.Reply) (turns : List Turn) (h : Run start s past) :
    Run start (playState answers turns s) (past ++ play answers turns s) := by
  induction turns generalizing s past with
  | nil =>
    rw [play, List.append_nil]
    exact h
  | cons turn turns ih =>
    have hstep := Run.step h (Thread.ends_run (I := terminalInterface) answers
      (TerminalSessionActor.turn turn s))
    have hrest := ih hstep
    rw [List.append_assoc] at hrest
    exact hrest

theorem run_play (answers : (op : TerminalCall) → op.Reply) (turns : List Turn)
    (s : TerminalSessionActor) : Run s (playState answers turns s) (play answers turns s) :=
  run_play_append answers turns .start

end Wardian.Terminal
