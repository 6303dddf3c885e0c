/-
Rules for the handlers of the terminal actor.

Each check, call and change that the handlers are made of has a rule that says what it does against
any outside, so that a handler is understood without unfolding what it is made of.

Main results:

* `wp_commitGeometry`, `wp_commitDesired` — a size is taken over, or the native runtime refuses it;
* `does_promoteLatestEligible` — the lease goes to the latest presentation, or to nobody.
-/

import Wardian.Terminal.Actor

set_option autoImplicit false

namespace Wardian.Terminal

open Calling (Wp wp_bind wp_fail wp_get wp_ite wp_modify wp_mono wp_pure)

namespace TerminalSessionActor

/-- The outside of which nothing is known. -/
def anything : Outside terminalInterface TerminalSessionActor Unit := .any fun _ _ => True

section Checks

variable {γ : Type} {o : Outside terminalInterface TerminalSessionActor γ}
  {s : TerminalSessionActor} {c : γ} {R : TerminalBrokerError → TerminalSessionActor → γ → Prop}

/-- A request goes on for its own session. -/
@[simp] theorem wp_ensureSession (sessionId : String) (Q : Unit → TerminalSessionActor → γ → Prop) :
    Wp o (ensureSession sessionId) Q R s c ↔
      (sessionId = s.sessionId → Q () s c) ∧ (¬sessionId = s.sessionId → R .sessionNotFound s c) := by
  simp [ensureSession]

/-- A request goes on for the current generation. -/
@[simp] theorem wp_ensureGeneration (received : Nat) (Q : Unit → TerminalSessionActor → γ → Prop) :
    Wp o (ensureGeneration received) Q R s c ↔
      (received = s.runtimeGeneration → Q () s c) ∧
        (¬received = s.runtimeGeneration →
          R (.staleRuntimeGeneration s.runtimeGeneration received) s c) := by
  simp [ensureGeneration]

/-- A presentation is found or reported missing. -/
@[simp] theorem wp_recordOf (presentationId : String)
    (Q : PresentationRecord → TerminalSessionActor → γ → Prop) :
    Wp o (recordOf presentationId) Q R s c ↔
      (∀ record, s.presentations[presentationId]? = some record → Q record s c) ∧
        (s.presentations[presentationId]? = none → R .presentationNotFound s c) := by
  unfold recordOf
  rw [wp_bind, wp_get]
  cases hrec : s.presentations[presentationId]? with
  | none => simp
  | some record => simp

/-- A snapshot is remembered when it is taken. -/
@[simp] theorem wp_takeSnapshot (Q : TerminalSnapshot → TerminalSessionActor → γ → Prop) :
    Wp o takeSnapshot Q R s c ↔ Q s.snapshot s.withSnapshot c := by
  simp [takeSnapshot]

end Checks

/-! ### Calls whose answers are arbitrary -/

section Calls

variable {α : Type} {s : TerminalSessionActor} {c : Unit}
  {R : TerminalBrokerError → TerminalSessionActor → Unit → Prop}

/-- Nothing is known of the answer of a call. -/
theorem wp_anything (op : TerminalCall) (Q : op.Reply → TerminalSessionActor → Unit → Prop) :
    Wp anything (Calling.call (I := terminalInterface) op) Q R s c ↔
      ∀ reply, Q reply s () :=
  (Calling.wp_call_any (I := terminalInterface) op Q R s c).trans (iff_of_eq (true_and _))

@[simp] theorem wp_nativeResize (geometry : TerminalGeometry)
    (Q : Except String Unit → TerminalSessionActor → Unit → Prop) :
    Wp anything (nativeResize geometry) Q R s c ↔ ∀ reply, Q reply s () :=
  wp_anything (.resize geometry) Q

@[simp] theorem wp_nativeSend (bytes : List UInt8) (Q : SendReply → TerminalSessionActor → Unit → Prop) :
    Wp anything (nativeSend bytes) Q R s c ↔ ∀ reply, Q reply s () :=
  wp_anything (.send bytes) Q

@[simp] theorem wp_nativeReceipt (Q : ReceiptReply → TerminalSessionActor → Unit → Prop) :
    Wp anything nativeReceipt Q R s c ↔ ∀ reply, Q reply s () :=
  wp_anything .receipt Q

@[simp] theorem wp_acquireLease (Q : Except TerminalBrokerError Unit → TerminalSessionActor → Unit → Prop) :
    Wp anything acquireLease Q R s c ↔ ∀ reply, Q reply s () :=
  wp_anything .acquireLease Q

@[simp] theorem wp_takeDue (Q : Option ActivationKey → TerminalSessionActor → Unit → Prop) :
    Wp anything takeDue Q R s c ↔ ∀ due, Q due s () :=
  wp_anything .takeDue Q

@[simp] theorem wp_claimTimeout (key : ActivationKey) (Q : Bool → TerminalSessionActor → Unit → Prop) :
    Wp anything (claimTimeout key) Q R s c ↔ ∀ claimed, Q claimed s () :=
  wp_anything (.claimUnreservedActivationTimeout key) Q

@[simp] theorem wp_retainLease (Q : Unit → TerminalSessionActor → Unit → Prop) :
    Wp anything retainLease Q R s c ↔ Q () s () :=
  (wp_anything .retainLease Q).trans ⟨fun h => h (), fun h _ => h⟩

@[simp] theorem wp_releaseLease (Q : Unit → TerminalSessionActor → Unit → Prop) :
    Wp anything releaseLease Q R s c ↔ Q () s () :=
  (wp_anything .releaseLease Q).trans ⟨fun h => h (), fun h _ => h⟩

@[simp] theorem wp_scheduleActivationTimeout (key : ActivationKey) (Q : Unit → TerminalSessionActor → Unit → Prop) :
    Wp anything (scheduleActivationTimeout key) Q R s c ↔ Q () s () :=
  (wp_anything (.startActivation key) Q).trans ⟨fun h => h (), fun h _ => h⟩

@[simp] theorem wp_cancelActivationTimeout (key : ActivationKey) (Q : Unit → TerminalSessionActor → Unit → Prop) :
    Wp anything (cancelActivationTimeout key) Q R s c ↔ Q () s () :=
  (wp_anything (.clearActivation key) Q).trans ⟨fun h => h (), fun h _ => h⟩

@[simp] theorem wp_clearControl (Q : Unit → TerminalSessionActor → Unit → Prop) :
    Wp anything clearControl Q R s c ↔ Q () s () :=
  (wp_anything .clear Q).trans ⟨fun h => h (), fun h _ => h⟩

@[simp] theorem wp_dropArrival (arrival : ActivationAckArrival)
    (Q : Unit → TerminalSessionActor → Unit → Prop) :
    Wp anything (dropArrival arrival) Q R s c ↔ Q () s () := by
  cases arrival with
  | matchingBeforeDeadline key =>
    exact (wp_anything (.releaseActivationAck key) Q).trans ⟨fun h => h (), fun h _ => h⟩
  | matchingAfterDeadline | nonMatching => exact Iff.rfl

end Calls

/-! ### Opening an activation -/

section Opened

variable (s : TerminalSessionActor) (request : TerminalActivationBeginRequest)
  (previous : Option PendingActivation)

theorem openActivation_sessionId : (s.openActivation request previous).2.sessionId = s.sessionId := by
  simp only [openActivation, withSnapshot, emitEvent, updateRecord, advanceLeaseEpoch, takeOwner]

theorem openActivation_runtimeGeneration :
    (s.openActivation request previous).2.runtimeGeneration = s.runtimeGeneration := by
  simp only [openActivation, withSnapshot, emitEvent, updateRecord, advanceLeaseEpoch, takeOwner]

theorem openActivation_runtimeState :
    (s.openActivation request previous).2.runtimeState = s.runtimeState := by
  simp only [openActivation, withSnapshot, emitEvent, updateRecord, advanceLeaseEpoch, takeOwner]

/-- The lease enters its next epoch. -/
theorem openActivation_leaseEpoch :
    (s.openActivation request previous).2.leaseEpoch = saturatingSucc s.leaseEpoch := by
  simp only [openActivation, withSnapshot, emitEvent, updateRecord, advanceLeaseEpoch, takeOwner]

/-- Activations are numbered. -/
theorem openActivation_activationSequence :
    (s.openActivation request previous).2.activationSequence =
      saturatingSucc s.activationSequence := by
  simp only [openActivation, withSnapshot, emitEvent, updateRecord, advanceLeaseEpoch, takeOwner]

theorem openActivation_consumers : (s.openActivation request previous).2.consumers = s.consumers := by
  simp only [openActivation, withSnapshot, emitEvent, updateRecord, advanceLeaseEpoch, takeOwner]

/-- The runtime and its filter are left alone. -/
theorem openActivation_runtime : (s.openActivation request previous).2.runtime = s.runtime ∧
    (s.openActivation request previous).2.outputFilter = s.outputFilter := by
  simp only [openActivation, withSnapshot, emitEvent, updateRecord, advanceLeaseEpoch, takeOwner,
    and_self]

/-- The activation completed before is forgotten. -/
theorem openActivation_completedActivation :
    (s.openActivation request previous).2.completedActivation = none := by
  simp only [openActivation, withSnapshot, emitEvent, updateRecord, advanceLeaseEpoch, takeOwner]

/-- The new activation is pending. -/
theorem openActivation_pendingActivation :
    (s.openActivation request previous).2.pendingActivation =
      some (s.openActivation request previous).1 := rfl

theorem openActivation_presentationId :
    (s.openActivation request previous).1.state.presentationId = request.presentationId := rfl

/-- Its presentation is the one used last. -/
theorem openActivation_presentations :
    (s.openActivation request previous).2.presentations =
      modifyRecord s.presentations request.presentationId fun record =>
        { record with state := { record.state with
          interactionSequence := saturatingSucc s.interactionSequence } } := by
  simp only [openActivation, withSnapshot, emitEvent, updateRecord, advanceLeaseEpoch, takeOwner]

/-- What a snapshot is made of. -/
theorem snapshot_congr {s t : TerminalSessionActor} (hcchd : s.cachedSnapshot = t.cachedSnapshot)
    (hses : s.sessionId = t.sessionId) (hgen : s.runtimeGeneration = t.runtimeGeneration)
    (hseq : s.streamSequence = t.streamSequence) (hgeom : s.geometry = t.geometry)
    (hprsr : s.parser = t.parser) (hnum : s.snapshotSequence = t.snapshotSequence) :
    s.snapshot = t.snapshot := by
  unfold snapshot buildSnapshot
  rw [hcchd, hses, hgen, hseq, hgeom, hprsr, hnum]

/-- The snapshot is taken after the event. -/
theorem openActivation_cachedSnapshot :
    (s.openActivation request previous).2.cachedSnapshot = some (s.emitEvent (.ownership none
      (saturatingSucc s.leaseEpoch)
      (some (s.openActivation request previous).1.state.activationId))).snapshot := by
  simp only [openActivation, withSnapshot, Option.some.injEq]
  apply snapshot_congr
  all_goals simp only [emitEvent, updateRecord, advanceLeaseEpoch, takeOwner]

/-- The stream is told that nobody owns the lease. -/
theorem openActivation_emitted :
    (s.openActivation request previous).2.emitted = (s.emitEvent (.ownership none
      (saturatingSucc s.leaseEpoch)
      (some (s.openActivation request previous).1.state.activationId))).emitted := by
  simp only [openActivation, withSnapshot, emitEvent, updateRecord, advanceLeaseEpoch, takeOwner]

theorem openActivation_replay :
    (s.openActivation request previous).2.replay = (s.emitEvent (.ownership none
      (saturatingSucc s.leaseEpoch)
      (some (s.openActivation request previous).1.state.activationId))).replay := by
  simp only [openActivation, withSnapshot, emitEvent, updateRecord, advanceLeaseEpoch, takeOwner]

theorem openActivation_streamSequence :
    (s.openActivation request previous).2.streamSequence = saturatingSucc s.streamSequence := by
  simp only [openActivation, withSnapshot, emitEvent, updateRecord, advanceLeaseEpoch, takeOwner]

end Opened

/-! ### Sizes, rollback and promotion -/

/-- The native runtime has refused a size or is not there. -/
inductive IsNativeError : TerminalBrokerError → Prop where
  | unavailable : IsNativeError .runtimeUnavailable
  | io (message : String) : IsNativeError (.runtimeIo message)

/-- The session has kept its size or has taken a new one. -/
inductive Sized (s : TerminalSessionActor) : TerminalSessionActor → Prop where
  | same : Sized s s
  | resized (geometry : TerminalGeometry) (geometrySequence : Nat) :
      Sized s (s.resized geometry geometrySequence)

variable {s : TerminalSessionActor} {Q : Unit → TerminalSessionActor → Unit → Prop}
  {R : TerminalBrokerError → TerminalSessionActor → Unit → Prop}

/-- A new size is taken once the native runtime has accepted it. -/
theorem wp_commitGeometry {geometry : TerminalGeometry} {geometrySequence : Nat} {c : Unit}
    (hsame : geometry = s.geometry → Q () s ())
    (hresi : ¬geometry = s.geometry → Q () (s.resized geometry geometrySequence) ())
    (herr : ∀ e, IsNativeError e → R e s ()) :
    Wp anything (commitGeometry geometry geometrySequence) Q R s c := by
  simp only [commitGeometry, wp_bind, wp_get, wp_ite, wp_pure,
    wp_fail, wp_nativeResize]
  refine ⟨hsame, fun hne => ⟨fun _ => herr _ .unavailable, fun _ reply => ?_⟩⟩
  cases reply with
  | error message => exact herr _ (.io message)
  | ok _ => exact hresi hne

theorem wp_commitDesired {desired : Option TerminalGeometry} {c : Unit}
    (hszd : ∀ s', Sized s s' → Q () s' ()) (herr : ∀ e, IsNativeError e → R e s ()) :
    Wp anything (commitDesired desired) Q R s c := by
  cases desired with
  | none => exact hszd s .same
  | some geometry =>
    exact wp_commitGeometry (fun _ => hszd s .same) (fun _ => hszd _ (.resized _ _)) herr

/-- The pending activation is taken, and nobody owns the lease. -/
def released (s : TerminalSessionActor) : TerminalSessionActor :=
  { s with pendingActivation := none, ownerPresentationId := none }

/-- How a rollback ends: the lease is the previous owner's again or nobody's and the stream is told
so, or the previous owner's size is refused. -/
inductive RolledBack (s : TerminalSessionActor) (pending : PendingActivation) :
    Except TerminalBrokerError Unit → TerminalSessionActor → Prop where
  | settled {s' : TerminalSessionActor} {owner : Option String} (hszd : Sized s.released s')
      (hown : owner = none ∨ owner = pending.state.previousOwnerPresentationId ∧
        ∃ previous, owner = some previous ∧ s.presentationHasActiveRenderer previous = true) :
      RolledBack s pending (.ok ()) ({ s' with ownerPresentationId := owner }.emitOwnership none)
  | stopped {e : TerminalBrokerError} (herr : IsNativeError e) :
      RolledBack s pending (.error e) s.released

/-- The postconditions of a program all of whose outcomes are `E`. -/
def Does {α : Type} (m : Handler α) (s : TerminalSessionActor)
    (E : Except TerminalBrokerError α → TerminalSessionActor → Prop) : Prop :=
  Wp anything m (fun a s' _ => E (.ok a) s') (fun e s' _ => E (.error e) s') s ()

/-- A description of the outcomes serves as a rule. -/
theorem Does.wp {α : Type} {m : Handler α} {E : Except TerminalBrokerError α → TerminalSessionActor → Prop}
    {Q : α → TerminalSessionActor → Unit → Prop} (h : Does m s E) (hok : ∀ a s', E (.ok a) s' → Q a s' ())
    (herr : ∀ e s', E (.error e) s' → R e s' ()) : Wp anything m Q R s () :=
  wp_mono h (fun a s' _ => hok a s') (fun e s' _ => herr e s')

/-- A rollback settles the lease, or stops at a refused size. -/
theorem does_rollbackTaken {pending : PendingActivation} (hpend : s.pendingActivation = some pending) :
    Does rollbackTaken s (RolledBack s pending) := by
  have hnobody : RolledBack s pending (.ok ()) (s.released.emitOwnership none) :=
    .settled .same (.inl rfl)
  unfold Does
  simp only [rollbackTaken, wp_bind, wp_get, hpend, wp_modify,
    rollbackPending, wp_cancelActivationTimeout]
  cases hprev : pending.state.previousOwnerPresentationId with
  | none => exact hnobody
  | some previous =>
    simp only [wp_ite, wp_bind, wp_modify]
    refine ⟨fun hact => wp_commitDesired (fun s' hszd => ?_) fun e he => .stopped he,
      fun _ => hnobody⟩
    exact .settled hszd (.inr ⟨hprev.symm, previous, rfl, hact⟩)

/-- How a promotion ends. -/
inductive Promoted (s : TerminalSessionActor) :
    Except TerminalBrokerError Unit → TerminalSessionActor → Prop where
  | settled {s' : TerminalSessionActor} {owner : Option String} (hszd : Sized s s')
      (hown : owner = (s.promotionCandidate.map (·.1)).or s.ownerPresentationId) :
      Promoted s (.ok ()) ({ s' with ownerPresentationId := owner }.emitOwnership none)
  | stopped {e : TerminalBrokerError} (herr : IsNativeError e) : Promoted s (.error e) s

/-- A promotion settles the lease, or changes nothing. -/
theorem does_promoteLatestEligible (s : TerminalSessionActor) :
    Does promoteLatestEligible s (Promoted s) := by
  unfold Does
  simp only [promoteLatestEligible, wp_bind, wp_get]
  cases hcand : s.promotionCandidate with
  | none =>
    simp only [wp_modify]
    exact @Promoted.settled s s s.ownerPresentationId .same (by simp [hcand])
  | some candidate =>
    obtain ⟨presentationId, record⟩ := candidate
    simp only [wp_bind, wp_modify]
    refine wp_commitDesired (fun s' hszd => ?_) fun e he => .stopped he
    exact .settled hszd (by simp [hcand])

end TerminalSessionActor

end Wardian.Terminal
