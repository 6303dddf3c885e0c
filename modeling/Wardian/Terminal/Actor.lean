/-
The actor of a terminal session.

The actor owns everything that a session knows and handles one message at a time.  A handler may
stop with an error and keeps what it had changed; on its way it calls the control plane, the native
runtime and the conversation lease.  The notifications that the actor broadcasts, and the copies of
its counters that callers may read, are not modelled.
-/

import Wardian.Lib.Table
import Wardian.Terminal.Control
import Wardian.Terminal.Replay

set_option autoImplicit false

namespace Wardian.Terminal

/-! ### The state -/

inductive TerminalRuntimeInput where
  | legacy
  | acknowledged
deriving DecidableEq

structure TerminalRuntimeHandles where
  inputTx : TerminalRuntimeInput
  ignoreScrollbackErase : Bool
  resetParserOnScrollbackErase : Bool

structure PresentationRecord where
  state : TerminalPresentationState
  lastGeometrySequence : Nat
  fallbackPromotionEligible : Bool

structure ConsumerRecord where
  clientKind : TerminalClientKind
  acknowledgedSequence : Nat

structure PendingActivation where
  state : TerminalPendingActivationState
  observedLeaseEpoch : Nat
  beginResult : TerminalActivationBeginResult

structure CompletedActivation where
  request : TerminalActivationAckRequest
  result : TerminalActivationAckResult

structure PendingOwnerResync where
  presentationId : String
  runtimeGeneration : Nat
  leaseEpoch : Nat
  resyncId : String
  beginResult : TerminalOwnerResyncBeginResult

structure TerminalSessionActor where
  sessionId : String
  runtimeGeneration : Nat
  runtime : Option TerminalRuntimeHandles
  runtimeState : TerminalRuntimeState
  inputSenderPaused : Bool
  /-- The calls made on the parser, the latest first. -/
  parser : List ParserCall
  outputFilter : TerminalOutputFilter
  replay : ReplayRing
  presentations : Table PresentationRecord
  consumers : Table ConsumerRecord
  ownerPresentationId : Option String
  pendingActivation : Option PendingActivation
  pendingOwnerResync : Option PendingOwnerResync
  completedActivation : Option CompletedActivation
  leaseEpoch : Nat
  streamSequence : Nat
  interactionSequence : Nat
  activationSequence : Nat
  resyncSequence : Nat
  snapshotSequence : Nat
  cachedSnapshot : Option TerminalSnapshot
  geometry : TerminalGeometry
  compatibilityGeometrySequence : Nat
  compatibilityReadSequence : Nat
  /-- Every event emitted, the latest last; the source keeps only the replay ring. -/
  emitted : List TerminalBrokerEvent

/-- What a handler is: a program over the actor that may make calls. -/
abbrev Handler (α : Type) : Type :=
  Calling terminalInterface TerminalSessionActor TerminalBrokerError α

namespace TerminalSessionActor

/-- A new actor; `initialLeaseEpoch` continues the epochs of the actor it replaces. -/
def new (sessionId : String) (runtimeGeneration initialLeaseEpoch : Nat)
    (runtime : Option TerminalRuntimeHandles) (geometry : TerminalGeometry)
    (initialOutput : List UInt8) : TerminalSessionActor where
  sessionId := sessionId
  runtimeGeneration := runtimeGeneration
  runtime := runtime
  runtimeState := if runtime.isSome then .live else .paused
  inputSenderPaused := false
  parser := [.process initialOutput, .reset geometry.rows geometry.cols]
  outputFilter := .new (runtime.any (·.ignoreScrollbackErase))
    (runtime.any (·.resetParserOnScrollbackErase))
  replay := .new
  presentations := ∅
  consumers := ∅
  ownerPresentationId := none
  pendingActivation := none
  pendingOwnerResync := none
  completedActivation := none
  leaseEpoch := initialLeaseEpoch
  streamSequence := 0
  interactionSequence := 0
  activationSequence := 0
  resyncSequence := 0
  snapshotSequence := 0
  cachedSnapshot := none
  geometry := geometry
  compatibilityGeometrySequence := 0
  compatibilityReadSequence := 0
  emitted := []

/-! ### Reading the state -/

def brokerState (s : TerminalSessionActor) : TerminalBrokerState where
  sessionId := s.sessionId
  runtimeGeneration := s.runtimeGeneration
  leaseEpoch := s.leaseEpoch
  streamSequence := s.streamSequence
  interactionSequence := s.interactionSequence
  geometry := s.geometry
  ownerPresentationId := s.ownerPresentationId
  pendingActivation := s.pendingActivation.map (·.state)
  runtimeState := s.runtimeState

def presentationIsEligible (s : TerminalSessionActor) (presentationId : String) : Bool :=
  s.runtimeState == .live && s.presentations[presentationId]?.any fun record =>
    record.state.visibility == .visible && record.state.renderState == .mounted &&
      record.state.interactionCapability == .interactive

def presentationHasActiveRenderer (s : TerminalSessionActor) (presentationId : String) : Bool :=
  s.presentationIsEligible presentationId &&
    s.presentations[presentationId]?.any fun record => !record.state.requiresResync

/-- The reason to turn an input or a resize of a presentation down. -/
def validateActiveLease (s : TerminalSessionActor) (lease : TerminalLeaseIdentity) :
    Option TerminalLeaseRejectionReason :=
  if lease.runtimeGeneration ≠ s.runtimeGeneration then some .generationChanged
  else if s.runtimeState ≠ .live then some .runtimeUnavailable
  else if s.pendingActivation.isSome then some .pendingActivation
  else if lease.leaseEpoch ≠ s.leaseEpoch then some .leaseEpochChanged
  else if s.presentations[lease.presentationId]?.isNone then some .presentationNotFound
  else if s.ownerPresentationId ≠ some lease.presentationId then some .notOwner
  else if !s.presentationHasActiveRenderer lease.presentationId then some .presentationIneligible
  else none

/-- The reason to turn an input or a resize down that names no presentation. -/
def compatibilityRejection (s : TerminalSessionActor) : Option TerminalLeaseRejectionReason :=
  if s.runtimeState ≠ .live then some .runtimeUnavailable
  else if s.inputSenderPaused then some .runtimeUnavailable
  else if s.pendingActivation.isSome then some .pendingActivation
  else if s.ownerPresentationId.isSome then some .notOwner
  else none

def acceptedDecision (s : TerminalSessionActor) : TerminalLeaseDecision :=
  .accepted s.runtimeGeneration s.leaseEpoch s.ownerPresentationId

def rejectedDecision (s : TerminalSessionActor) (reason : TerminalLeaseRejectionReason) :
    TerminalLeaseDecision :=
  .rejected reason s.runtimeGeneration s.leaseEpoch s.ownerPresentationId

def rejectedBegin (s : TerminalSessionActor) (reason : TerminalLeaseRejectionReason) :
    TerminalActivationBeginResult where
  decision := s.rejectedDecision reason
  activationId := none
  snapshot := none
  sequenceBarrier := s.streamSequence

def rejectedAck (s : TerminalSessionActor) (reason : TerminalLeaseRejectionReason) :
    TerminalActivationAckResult where
  decision := s.rejectedDecision reason
  brokerState := s.brokerState
  snapshot := none

def rejectedOwnerResyncBegin (s : TerminalSessionActor) (reason : TerminalLeaseRejectionReason) :
    TerminalOwnerResyncBeginResult where
  decision := s.rejectedDecision reason
  resyncId := none
  snapshot := none
  sequenceBarrier := s.streamSequence

def rejectedOwnerResyncAck (s : TerminalSessionActor) (reason : TerminalLeaseRejectionReason) :
    TerminalOwnerResyncAckResult where
  decision := s.rejectedDecision reason
  brokerState := s.brokerState

def rejectedResize (s : TerminalSessionActor) (reason : TerminalLeaseRejectionReason)
    (geometrySequence : Nat) : TerminalGeometryCommitResult where
  decision := s.rejectedDecision reason
  geometrySequence := geometrySequence
  geometry := s.geometry
  snapshot := none

def availableFromSequence (s : TerminalSessionActor) : Nat :=
  s.replay.availableFromSequence s.streamSequence

/-! ### Changing the state -/

/-- Change the record of a presentation that is there. -/
def modifyRecord (presentations : Table PresentationRecord) (presentationId : String)
    (f : PresentationRecord → PresentationRecord) : Table PresentationRecord :=
  match presentations[presentationId]? with
  | some record => presentations.insert presentationId (f record)
  | none => presentations

def updateRecord (s : TerminalSessionActor) (presentationId : String)
    (f : PresentationRecord → PresentationRecord) : TerminalSessionActor :=
  { s with presentations := modifyRecord s.presentations presentationId f }

def emitEvent (s : TerminalSessionActor) (event : TerminalBrokerEventKind) :
    TerminalSessionActor :=
  let streamSequence := saturatingSucc s.streamSequence
  let event : TerminalBrokerEvent := ⟨streamSequence, s.runtimeGeneration, event⟩
  { s with
    streamSequence := streamSequence
    replay := s.replay.push event
    emitted := s.emitted ++ [event] }

def buildSnapshot (s : TerminalSessionActor) (snapshotNumber : Nat) : TerminalSnapshot where
  snapshotId := s!"terminal-snapshot-{s.runtimeGeneration}-{s.streamSequence}-{snapshotNumber}"
  sessionId := s.sessionId
  runtimeGeneration := s.runtimeGeneration
  sequenceBarrier := s.streamSequence
  geometry := s.geometry
  screen := s.parser

/-- The snapshot that is handed out now. -/
def snapshot (s : TerminalSessionActor) : TerminalSnapshot :=
  s.cachedSnapshot.getD (s.buildSnapshot (saturatingSucc s.snapshotSequence))

/-- Handing out a snapshot remembers it. -/
def withSnapshot (s : TerminalSessionActor) : TerminalSessionActor :=
  { s with
    snapshotSequence :=
      if s.cachedSnapshot.isSome then s.snapshotSequence else saturatingSucc s.snapshotSequence
    cachedSnapshot := some s.snapshot }

def advanceLeaseEpoch (s : TerminalSessionActor) : TerminalSessionActor :=
  { s with
    leaseEpoch := saturatingSucc s.leaseEpoch
    completedActivation := none
    pendingOwnerResync := none }

/-- Forget the resync of a presentation that has changed. -/
def dropOwnerResync (s : TerminalSessionActor) (presentationId : String) : TerminalSessionActor :=
  { s with
    pendingOwnerResync := s.pendingOwnerResync.filter (·.presentationId != presentationId) }

/-- The native runtime has taken a new size. -/
def resized (s : TerminalSessionActor) (geometry : TerminalGeometry) (geometrySequence : Nat) :
    TerminalSessionActor :=
  { s with
    parser := .setSize geometry.rows geometry.cols :: s.parser
    geometry := geometry
    cachedSnapshot := none }.emitEvent (.geometry geometry geometrySequence)

/-- Tell the stream who owns the lease. -/
def emitOwnership (s : TerminalSessionActor) (activationId : Option String) :
    TerminalSessionActor :=
  s.emitEvent (.ownership s.ownerPresentationId s.leaseEpoch activationId)

/-- The latest of the presentations that may be promoted; of equals the last one counts. -/
def promotionCandidate (s : TerminalSessionActor) : Option (String × PresentationRecord) :=
  (s.presentations.toList.filter fun entry =>
    entry.2.fallbackPromotionEligible && s.presentationHasActiveRenderer entry.1).foldl
    (fun best entry =>
      match best with
      | none => some entry
      | some latest =>
        if latest.2.state.interactionSequence ≤ entry.2.state.interactionSequence then some entry
        else some latest) none

/-! ### Checks -/

def ensureSession (sessionId : String) : Handler Unit := do
  let s ← Calling.get
  if sessionId = s.sessionId then pure () else Calling.fail .sessionNotFound

def ensureGeneration (received : Nat) : Handler Unit := do
  let s ← Calling.get
  if received = s.runtimeGeneration then pure ()
  else Calling.fail (.staleRuntimeGeneration s.runtimeGeneration received)

/-- The record of a presentation that has to be there. -/
def recordOf (presentationId : String) : Handler PresentationRecord := do
  let s ← Calling.get
  match s.presentations[presentationId]? with
  | some record => pure record
  | none => Calling.fail .presentationNotFound

/-! ### Calls -/

def nativeResize (geometry : TerminalGeometry) : Handler (Except String Unit) :=
  Calling.call (I := terminalInterface) (.resize geometry)

def nativeSend (bytes : List UInt8) : Handler SendReply :=
  Calling.call (I := terminalInterface) (.send bytes)

def nativeReceipt : Handler ReceiptReply := Calling.call (I := terminalInterface) .receipt

def acquireLease : Handler (Except TerminalBrokerError Unit) :=
  Calling.call (I := terminalInterface) .acquireLease

def retainLease : Handler Unit := Calling.call (I := terminalInterface) .retainLease

def releaseLease : Handler Unit := Calling.call (I := terminalInterface) .releaseLease

def takeDue : Handler (Option ActivationKey) := Calling.call (I := terminalInterface) .takeDue

def claimTimeout (key : ActivationKey) : Handler Bool :=
  Calling.call (I := terminalInterface) (.claimUnreservedActivationTimeout key)

def scheduleActivationTimeout (key : ActivationKey) : Handler Unit :=
  Calling.call (I := terminalInterface) (.startActivation key)

def cancelActivationTimeout (key : ActivationKey) : Handler Unit :=
  Calling.call (I := terminalInterface) (.clearActivation key)

def clearControl : Handler Unit := Calling.call (I := terminalInterface) .clear

/-- Drop the arrival of an acknowledgement that has been answered. -/
def dropArrival : ActivationAckArrival → Handler Unit
  | .matchingBeforeDeadline key =>
    Calling.call (I := terminalInterface) (.releaseActivationAck key)
  | .matchingAfterDeadline => pure ()
  | .nonMatching => pure ()

/-! ### Geometry, rollback and promotion -/

def takeSnapshot : Handler TerminalSnapshot := do
  let s ← Calling.get
  Calling.modify withSnapshot
  pure s.snapshot

def commitGeometry (geometry : TerminalGeometry) (geometrySequence : Nat) : Handler Unit := do
  let s ← Calling.get
  if geometry = s.geometry then pure ()
  else if s.runtime.isNone then Calling.fail .runtimeUnavailable
  else do
    let reply ← nativeResize geometry
    match reply with
    | .error message => Calling.fail (.runtimeIo message)
    | .ok () => Calling.modify fun s => s.resized geometry geometrySequence

/-- Commit the size a presentation asks for, when it asks for one. -/
def commitDesired (desired : Option TerminalGeometry) : Handler Unit :=
  match desired with
  | some geometry => commitGeometry geometry 0
  | none => pure ()

/-- The size that a presentation asks for. -/
def desiredGeometry (s : TerminalSessionActor) (presentationId : String) :
    Option TerminalGeometry :=
  s.presentations[presentationId]?.bind (·.state.desiredGeometry)

/-- Give the lease back to the previous owner, or to nobody. -/
def rollbackPending (pending : PendingActivation) : Handler Unit := do
  cancelActivationTimeout (.fromPending pending.state)
  Calling.modify fun s => { s with ownerPresentationId := none }
  let s ← Calling.get
  match pending.state.previousOwnerPresentationId with
  | some previousOwner =>
    if s.presentationHasActiveRenderer previousOwner then do
      commitDesired (s.desiredGeometry previousOwner)
      Calling.modify fun s => { s with ownerPresentationId := some previousOwner }
    else pure ()
  | none => pure ()
  Calling.modify fun s => s.emitOwnership none

/-- Take the pending activation, if there is one, and roll it back. -/
def rollbackTaken : Handler Unit := do
  let s ← Calling.get
  match s.pendingActivation with
  | some pending => do
      Calling.modify fun s => { s with pendingActivation := none }
      rollbackPending pending
  | none => pure ()

def promoteLatestEligible : Handler Unit := do
  let s ← Calling.get
  match s.promotionCandidate with
  | some (presentationId, record) => do
      commitDesired record.state.desiredGeometry
      Calling.modify fun s => { s with ownerPresentationId := some presentationId }
  | none => pure ()
  Calling.modify fun s => s.emitOwnership none

/-- Whether this is the activation that is pending. -/
def isPending (s : TerminalSessionActor) (key : ActivationKey) : Bool :=
  s.pendingActivation.any fun pending => ActivationKey.fromPending pending.state = key

/-- The deadline of an activation has passed; a failing rollback is not reported. -/
def activationTimeout (key : ActivationKey) : Handler Unit := do
  let s ← Calling.get
  if s.isPending key then do
    let _ ← Calling.attempt rollbackTaken
    pure ()
  else pure ()

/-! ### Output -/

def processOutput (runtimeGeneration : Nat) (bytes : List UInt8) : Handler Unit := do
  ensureGeneration runtimeGeneration
  let s ← Calling.get
  if s.runtimeState ≠ .live ∨ s.runtime.isNone then Calling.fail .runtimeUnavailable
  else if bytes = [] then pure ()
  else do
    let (output, outputFilter) := s.outputFilter.filter bytes
    Calling.modify fun s => { s with outputFilter := outputFilter }
    if output.published = [] ∧ output.parser = [] then pure ()
    else do
      Calling.modify fun s => { s with
        cachedSnapshot := none
        parser := ((chunks maxBatchBytes output.parser).map ParserCall.process).reverse ++
          if output.resetParser then .reset s.geometry.rows s.geometry.cols :: s.parser
          else s.parser }
      Calling.modify fun s => (chunks maxBatchBytes output.published).foldl
        (fun s chunk => s.emitEvent (.output chunk)) s

/-! ### Presentations -/

/-- What a registration makes of a presentation that may be there already. -/
def registeredRecord (request : TerminalPresentationRegistration)
    (identity : TerminalClientIdentity) (existing : Option PresentationRecord)
    (interactionSequence : Nat) : PresentationRecord where
  state :=
    { presentationId := request.presentationId
      clientKind := request.clientKind
      desiredGeometry := request.desiredGeometry.map fun geometry =>
        clampGeometry geometry request.clientKind
      visibility := request.visibility
      renderState := request.renderState
      interactionCapability := identity.effectiveCapability request.requestedInteraction
      interactionSequence := existing.elim interactionSequence (·.state.interactionSequence)
      requiresResync := existing.any (·.state.requiresResync) ||
        request.renderState == .suspended }
  lastGeometrySequence := existing.elim 0 (·.lastGeometrySequence)
  fallbackPromotionEligible := existing.elim identity.initiallyFallbackPromotionEligible
    (·.fallbackPromotionEligible)

/-- The presentations of one kind. -/
def countOfKind (s : TerminalSessionActor) (clientKind : TerminalClientKind) : Nat :=
  s.presentations.toList.countP fun entry => entry.2.state.clientKind == clientKind

/-- Whether a registration is within the limit and does not change the kind. -/
def admitRegistration (s : TerminalSessionActor) (request : TerminalPresentationRegistration) :
    Except TerminalBrokerError Unit :=
  match s.presentations[request.presentationId]? with
  | none =>
    if presentationLimit request.clientKind ≤ s.countOfKind request.clientKind then
      .error (.presentationLimit request.clientKind (presentationLimit request.clientKind))
    else .ok ()
  | some record =>
    if record.state.clientKind ≠ request.clientKind then .error .invalidIdentity else .ok ()

/-- Enter the registration. -/
def withRegistration (s : TerminalSessionActor) (request : TerminalPresentationRegistration)
    (identity : TerminalClientIdentity) : PresentationRecord × TerminalSessionActor :=
  let existing := s.presentations[request.presentationId]?
  let interactionSequence := if existing.isSome then s.interactionSequence
    else saturatingSucc s.interactionSequence
  let record := registeredRecord request identity existing interactionSequence
  (record, { s with
    interactionSequence := interactionSequence
    presentations := s.presentations.insert request.presentationId record })

def register (request : TerminalPresentationRegistration) (identity : TerminalClientIdentity) :
    Handler TerminalPresentationRegistrationResult := do
  ensureSession request.sessionId
  Calling.ofExcept (validateId request.presentationId "presentation_id")
  Calling.ofExcept (identity.validate request.clientKind request.presentationId)
  let s ← Calling.get
  Calling.ofExcept (s.admitRegistration request)
  Calling.modify fun s =>
    (s.withRegistration request identity).2.dropOwnerResync request.presentationId
  let initialSnapshot ← takeSnapshot
  let registered ← Calling.get
  pure ⟨(s.withRegistration request identity).1.state, registered.brokerState, initialSnapshot⟩

/-- What an update makes of a presentation. -/
def updatedRecord (request : TerminalPresentationUpdateRequest)
    (identity : TerminalClientIdentity) (record : PresentationRecord) : PresentationRecord :=
  { record with
    state := { record.state with
      desiredGeometry := request.desiredGeometry.map fun geometry =>
        clampGeometry geometry record.state.clientKind
      visibility := request.visibility
      renderState := request.renderState
      requiresResync := record.state.requiresResync || request.renderState == .suspended
      interactionCapability := identity.effectiveCapability request.requestedInteraction } }

/-- Whether the presentation has a pending activation that it may no longer carry out. -/
def pendingIsIneligible (s : TerminalSessionActor) (presentationId : String) : Bool :=
  s.pendingActivation.any (·.state.presentationId == presentationId) &&
    !s.presentationIsEligible presentationId

def updatePresentation (request : TerminalPresentationUpdateRequest)
    (identity : TerminalClientIdentity) : Handler TerminalPresentationUpdateResult := do
  ensureSession request.sessionId
  ensureGeneration request.runtimeGeneration
  let record ← recordOf request.presentationId
  Calling.ofExcept (identity.validate record.state.clientKind request.presentationId)
  Calling.modify fun s => s.updateRecord request.presentationId (updatedRecord request identity)
  let s ← Calling.get
  if s.pendingIsIneligible request.presentationId then rollbackTaken else pure ()
  Calling.modify fun s => s.dropOwnerResync request.presentationId
  let s ← Calling.get
  pure ⟨(updatedRecord request identity record).state, s.brokerState⟩

/-- A presentation that is gone is not given the lease back. -/
def forgetPreviousOwner (s : TerminalSessionActor) (presentationId : String) :
    TerminalSessionActor :=
  { s with
    pendingActivation := s.pendingActivation.map fun pending =>
      if pending.state.previousOwnerPresentationId = some presentationId then
        { pending with state := { pending.state with previousOwnerPresentationId := none } }
      else pending }

def unregister (sessionId presentationId : String) (runtimeGeneration : Nat) :
    Handler TerminalBrokerState := do
  ensureSession sessionId
  ensureGeneration runtimeGeneration
  let _ ← recordOf presentationId
  Calling.modify fun s => { s with presentations := s.presentations.erase presentationId }
  Calling.modify fun s => s.dropOwnerResync presentationId
  let s ← Calling.get
  if s.pendingActivation.any (·.state.presentationId == presentationId) then rollbackTaken
  else Calling.modify fun s => s.forgetPreviousOwner presentationId
  let s ← Calling.get
  if s.ownerPresentationId = some presentationId then do
    Calling.modify fun s => { s with ownerPresentationId := none }.advanceLeaseEpoch
    promoteLatestEligible
  else pure ()
  let s ← Calling.get
  pure s.brokerState

def reportViewport (request : TerminalPresentationViewportRequest) :
    Handler TerminalPresentationState := do
  ensureSession request.sessionId
  ensureGeneration request.runtimeGeneration
  let record ← recordOf request.presentationId
  let state := { record.state with
    desiredGeometry := some (clampGeometry ⟨request.rows, request.cols⟩ record.state.clientKind) }
  Calling.modify fun s => s.updateRecord request.presentationId fun record =>
    { record with state := state }
  pure state

/-! ### Activation -/

/-- The answer of a pending activation of the same presentation that is begun again. -/
def repeatedBegin (s : TerminalSessionActor) (request : TerminalActivationBeginRequest) :
    Option TerminalActivationBeginResult :=
  (s.pendingActivation.filter fun pending =>
    pending.state.presentationId = request.presentationId ∧
      (request.observedLeaseEpoch = pending.observedLeaseEpoch ∨
        request.observedLeaseEpoch = pending.state.leaseEpoch)).map (·.beginResult)

/-- Whom the lease is taken from: the owner, or the one an earlier pending activation took it
from.  In the second case the owner is left alone. -/
def takeOwner (s : TerminalSessionActor) (previousPending : Option PendingActivation) :
    Option String × TerminalSessionActor :=
  let previousOwner := previousPending.bind (·.state.previousOwnerPresentationId)
  (previousOwner.or s.ownerPresentationId, { s with
    ownerPresentationId := if previousOwner.isSome then s.ownerPresentationId else none })

/-- Open an activation under a new epoch. -/
def openActivation (s : TerminalSessionActor) (request : TerminalActivationBeginRequest)
    (previousPending : Option PendingActivation) : PendingActivation × TerminalSessionActor :=
  let (previousOwner, s) := s.takeOwner previousPending
  let s := s.advanceLeaseEpoch
  let s := { s with
    activationSequence := saturatingSucc s.activationSequence
    interactionSequence := saturatingSucc s.interactionSequence }
  let s := s.updateRecord request.presentationId fun record =>
    { record with state :=
      { record.state with interactionSequence := s.interactionSequence } }
  let activationId :=
    s!"terminal-activation-{s.runtimeGeneration}-{s.leaseEpoch}-{s.activationSequence}"
  let state : TerminalPendingActivationState :=
    { presentationId := request.presentationId
      previousOwnerPresentationId := previousOwner
      runtimeGeneration := s.runtimeGeneration
      leaseEpoch := s.leaseEpoch
      activationId := activationId }
  let s := s.emitEvent (.ownership none s.leaseEpoch (some activationId))
  let beginResult : TerminalActivationBeginResult :=
    { decision := s.withSnapshot.acceptedDecision
      activationId := some activationId
      snapshot := some s.snapshot
      sequenceBarrier := s.snapshot.sequenceBarrier }
  let pending : PendingActivation := ⟨state, request.observedLeaseEpoch, beginResult⟩
  (pending, { s.withSnapshot with pendingActivation := some pending })

/-- Replace the pending activation, if there is one, and start the deadline of the new one. -/
def startActivation (request : TerminalActivationBeginRequest) :
    Handler TerminalActivationBeginResult := do
  let s ← Calling.get
  Calling.modify fun s => { s with pendingActivation := none }
  match s.pendingActivation with
  | some previous => cancelActivationTimeout (.fromPending previous.state)
  | none => pure ()
  let now ← Calling.get
  let opened := now.openActivation request s.pendingActivation
  Calling.modify fun _ => opened.2
  scheduleActivationTimeout (.fromPending opened.1.state)
  pure opened.1.beginResult

def beginActivation (request : TerminalActivationBeginRequest) :
    Handler TerminalActivationBeginResult := do
  ensureSession request.sessionId
  let s ← Calling.get
  if request.runtimeGeneration ≠ s.runtimeGeneration then
    pure (s.rejectedBegin .generationChanged)
  else if s.runtimeState ≠ .live then pure (s.rejectedBegin .runtimeUnavailable)
  else
    match s.repeatedBegin request with
    | some beginResult => pure beginResult
    | none =>
      if s.presentations[request.presentationId]?.isNone then
        pure (s.rejectedBegin .presentationNotFound)
      else if !s.presentationIsEligible request.presentationId then
        pure (s.rejectedBegin .presentationIneligible)
      else if request.observedLeaseEpoch ≠ s.leaseEpoch then
        pure (s.rejectedBegin .leaseEpochChanged)
      else startActivation request

/-- The presentation has acknowledged and its size is committed: it is the owner now. -/
def withOwner (s : TerminalSessionActor) (request : TerminalActivationAckRequest) :
    TerminalSessionActor :=
  { s with
    pendingActivation := none
    ownerPresentationId := some request.presentationId }.emitOwnership (some request.activationId)

/-- The presentation has seen the current screen. -/
def withRenderer (s : TerminalSessionActor) (presentationId : String) : TerminalSessionActor :=
  s.updateRecord presentationId fun record =>
    { record with
      state := { record.state with requiresResync := false }
      fallbackPromotionEligible := true }

/-- The pending activation is acknowledged in time by a presentation that may take it. -/
def commitActivation (request : TerminalActivationAckRequest) :
    Handler TerminalActivationAckResult := do
  let s ← Calling.get
  let committed ← Calling.attempt (commitDesired (s.desiredGeometry request.presentationId))
  match committed with
  | .error error => do
      let _ ← Calling.attempt rollbackTaken
      Calling.fail error
  | .ok () => do
      Calling.modify fun s => s.withRenderer request.presentationId
      cancelActivationTimeout (.fromAck request)
      Calling.modify fun s => s.withOwner request
      let snapshot ← takeSnapshot
      let s ← Calling.get
      let result : TerminalActivationAckResult :=
        { decision := s.acceptedDecision
          brokerState := s.brokerState
          snapshot := some snapshot }
      Calling.modify fun s => { s with completedActivation := some ⟨request, result⟩ }
      pure result

/-- A late acknowledgement: it may have to carry out the rollback that is due. -/
def lateAck (request : TerminalActivationAckRequest) : Handler TerminalActivationAckResult := do
  let claimed ← claimTimeout (.fromAck request)
  if claimed then activationTimeout (.fromAck request) else pure ()
  let s ← Calling.get
  pure (s.rejectedAck .staleActivation)

def ackActivation (request : TerminalActivationAckRequest) (arrival : ActivationAckArrival) :
    Handler TerminalActivationAckResult := do
  ensureSession request.sessionId
  let s ← Calling.get
  if arrival = .matchingAfterDeadline then lateAck request
  else
    match s.completedActivation.filter fun completed => completed.request = request with
    | some completed => pure completed.result
    | none =>
      if request.runtimeGeneration ≠ s.runtimeGeneration then
        pure (s.rejectedAck .generationChanged)
      else if !s.isPending (.fromAck request) then pure (s.rejectedAck .staleActivation)
      else if arrival = .nonMatching then pure (s.rejectedAck .staleActivation)
      else if !s.presentationIsEligible request.presentationId then do
        rollbackTaken
        let s ← Calling.get
        pure (s.rejectedAck .presentationIneligible)
      else commitActivation request

/-! ### Resync of the owner -/

/-- The reason to turn a resync down. -/
def ownerResyncRejection (s : TerminalSessionActor) (request : TerminalOwnerResyncBeginRequest) :
    Option TerminalLeaseRejectionReason :=
  if s.ownerPresentationId ≠ some request.presentationId then some .notOwner
  else if request.leaseEpoch ≠ s.leaseEpoch then some .leaseEpochChanged
  else
    match s.presentations[request.presentationId]? with
    | none => some .presentationNotFound
    | some record =>
      if !record.state.requiresResync then some .resyncNotRequired
      else if !s.presentationIsEligible request.presentationId then some .presentationIneligible
      else none

/-- The answer of a resync that is begun again. -/
def repeatedResync (s : TerminalSessionActor) (request : TerminalOwnerResyncBeginRequest) :
    Option TerminalOwnerResyncBeginResult :=
  (s.pendingOwnerResync.filter fun pending =>
    pending.presentationId = request.presentationId ∧
      pending.runtimeGeneration = request.runtimeGeneration ∧
      pending.leaseEpoch = request.leaseEpoch).map (·.beginResult)

def startResync (request : TerminalOwnerResyncBeginRequest) :
    Handler TerminalOwnerResyncBeginResult := do
  Calling.modify fun s => { s with resyncSequence := saturatingSucc s.resyncSequence }
  let snapshot ← takeSnapshot
  let s ← Calling.get
  let resyncId := s!"terminal-owner-resync-{s.runtimeGeneration}-{s.leaseEpoch}-{s.resyncSequence}"
  let beginResult : TerminalOwnerResyncBeginResult :=
    { decision := s.acceptedDecision
      resyncId := some resyncId
      snapshot := some snapshot
      sequenceBarrier := snapshot.sequenceBarrier }
  Calling.modify fun s => { s with
    pendingOwnerResync := some
      { presentationId := request.presentationId
        runtimeGeneration := s.runtimeGeneration
        leaseEpoch := s.leaseEpoch
        resyncId := resyncId
        beginResult := beginResult } }
  pure beginResult

def beginOwnerResync (request : TerminalOwnerResyncBeginRequest) :
    Handler TerminalOwnerResyncBeginResult := do
  ensureSession request.sessionId
  let s ← Calling.get
  if request.runtimeGeneration ≠ s.runtimeGeneration then
    pure (s.rejectedOwnerResyncBegin .generationChanged)
  else if s.runtimeState ≠ .live then pure (s.rejectedOwnerResyncBegin .runtimeUnavailable)
  else if s.pendingActivation.isSome then pure (s.rejectedOwnerResyncBegin .pendingActivation)
  else
    match s.repeatedResync request with
    | some beginResult => pure beginResult
    | none =>
      match s.ownerResyncRejection request with
      | some reason => pure (s.rejectedOwnerResyncBegin reason)
      | none => startResync request

/-- The reason to turn the acknowledgement of a resync down. -/
def ownerResyncAckRejection (s : TerminalSessionActor) (request : TerminalOwnerResyncAckRequest) :
    Option TerminalLeaseRejectionReason :=
  if !(s.pendingOwnerResync.any fun pending =>
      pending.presentationId == request.presentationId &&
        pending.runtimeGeneration == request.runtimeGeneration &&
        pending.leaseEpoch == request.leaseEpoch && pending.resyncId == request.resyncId) then
    some .staleOwnerResync
  else if request.runtimeGeneration ≠ s.runtimeGeneration then some .generationChanged
  else if request.leaseEpoch ≠ s.leaseEpoch then some .leaseEpochChanged
  else if s.ownerPresentationId ≠ some request.presentationId then some .notOwner
  else if !s.presentationIsEligible request.presentationId then some .presentationIneligible
  else none

def ackOwnerResync (request : TerminalOwnerResyncAckRequest) :
    Handler TerminalOwnerResyncAckResult := do
  ensureSession request.sessionId
  let s ← Calling.get
  match s.ownerResyncAckRejection request with
  | some reason => pure (s.rejectedOwnerResyncAck reason)
  | none => do
      Calling.modify fun s => { s.updateRecord request.presentationId (fun record =>
        { record with state := { record.state with requiresResync := false } }) with
          pendingOwnerResync := none }
      let s ← Calling.get
      pure ⟨s.acceptedDecision, s.brokerState⟩

/-! ### Input -/

/-- Wait for the receipt of the native writer. -/
def awaitReceipt : Handler Unit := do
  let reply ← nativeReceipt
  match reply with
  | .written => pure ()
  | .timeout => Calling.fail (.runtimeIo "input_write_timeout")
  | .closed => Calling.fail (.runtimeIo "input_writer_closed")
  | .failed message => Calling.fail (.runtimeIo message)

/-- Hand bytes to the native runtime.  A conversation lease is kept from the moment the bytes are
queued. -/
def sendRuntimeInput (bytes : List UInt8) (withLease : Bool) : Handler Unit := do
  let s ← Calling.get
  match s.runtime with
  | none => Calling.fail .runtimeUnavailable
  | some runtime => do
      let reply ← nativeSend bytes
      match reply with
      | .timeout => Calling.fail (.runtimeIo "input_timeout")
      | .closed => Calling.fail (.runtimeIo "input_channel_closed")
      | .queued => do
          if withLease then retainLease else pure ()
          if runtime.inputTx = .acknowledged then awaitReceipt else pure ()

/-- Empty input is accepted without being handed on. -/
def sendUnlessEmpty (bytes : List UInt8) (withLease : Bool) : Handler Unit :=
  if bytes = [] then pure () else sendRuntimeInput bytes withLease

def sendInput (request : TerminalInputRequest) : Handler TerminalLeaseDecision := do
  ensureSession request.lease.sessionId
  let s ← Calling.get
  match s.validateActiveLease request.lease with
  | some reason => pure (s.rejectedDecision reason)
  | none =>
    if s.inputSenderPaused then pure (s.rejectedDecision .runtimeUnavailable)
    else do
      sendUnlessEmpty request.bytes false
      pure s.acceptedDecision

def sendCompatibilityInput (bytes : List UInt8) : Handler TerminalLeaseDecision := do
  let s ← Calling.get
  match s.compatibilityRejection with
  | some reason => pure (s.rejectedDecision reason)
  | none => do
      sendUnlessEmpty bytes false
      pure s.acceptedDecision

def sendPrivilegedInput (bytes : List UInt8) : Handler Unit := do
  let s ← Calling.get
  if s.runtimeState ≠ .live then Calling.fail .runtimeUnavailable
  else sendUnlessEmpty bytes false

def validateComposerInput (sessionId : String) (runtimeGeneration : Nat) : Handler Unit := do
  ensureSession sessionId
  ensureGeneration runtimeGeneration
  let s ← Calling.get
  if s.runtimeState ≠ .live ∨ s.runtime.isNone ∨ s.inputSenderPaused then
    Calling.fail .runtimeUnavailable
  else pure ()

def sendComposerInput (sessionId : String) (runtimeGeneration : Nat) (bytes : List UInt8) :
    Handler Unit := do
  validateComposerInput sessionId runtimeGeneration
  sendUnlessEmpty bytes false

/-- Whether an automated input was turned down before anything could be written. -/
def automatedInputRejectedBeforeWrite : TerminalBrokerError → Bool
  | .sessionNotFound | .runtimeUnavailable | .invalidIdentity | .invalidRequest _
  | .staleRuntimeGeneration _ _ => true
  | _ => false

/-- Input under a conversation lease, which is given back when the input was written or when
nothing of it can have been. -/
def sendAutomatedInput (sessionId : String) (runtimeGeneration : Nat) (bytes : List UInt8) :
    Handler Unit := do
  let acquired ← acquireLease
  Calling.ofExcept acquired
  let result ← Calling.attempt (do
    validateComposerInput sessionId runtimeGeneration
    sendUnlessEmpty bytes true)
  match result with
  | .ok () => releaseLease
  | .error error => do
      if automatedInputRejectedBeforeWrite error then releaseLease else pure ()
      Calling.fail error

/-! ### Resizing -/

/-- The presentation has been given the size it asked for. -/
def withGeometry (s : TerminalSessionActor) (presentationId : String)
    (geometry : TerminalGeometry) (geometrySequence : Nat) : TerminalSessionActor :=
  s.updateRecord presentationId fun record =>
    { record with
      state := { record.state with desiredGeometry := some geometry }
      lastGeometrySequence := geometrySequence }

def resize (request : TerminalGeometryRequest) : Handler TerminalGeometryCommitResult := do
  ensureSession request.lease.sessionId
  let s ← Calling.get
  match s.validateActiveLease request.lease with
  | some reason => pure (s.rejectedResize reason request.geometrySequence)
  | none => do
      let record ← recordOf request.lease.presentationId
      if request.geometrySequence ≤ record.lastGeometrySequence then
        pure (s.rejectedResize .staleGeometrySequence request.geometrySequence)
      else do
        let geometry := clampGeometry request.geometry record.state.clientKind
        commitGeometry geometry request.geometrySequence
        Calling.modify fun s =>
          s.withGeometry request.lease.presentationId geometry request.geometrySequence
        let committed ← Calling.get
        if geometry = s.geometry then
          pure ⟨committed.acceptedDecision, request.geometrySequence, committed.geometry, none⟩
        else do
          let snapshot ← takeSnapshot
          pure ⟨committed.acceptedDecision, request.geometrySequence, committed.geometry,
            some snapshot⟩

def resizeCompatibility (geometry : TerminalGeometry) : Handler TerminalGeometryCommitResult := do
  Calling.modify fun s => { s with
    compatibilityGeometrySequence := saturatingSucc s.compatibilityGeometrySequence }
  let s ← Calling.get
  match s.compatibilityRejection with
  | some reason => pure (s.rejectedResize reason s.compatibilityGeometrySequence)
  | none => do
      commitGeometry (clampGeometry geometry .desktop) s.compatibilityGeometrySequence
      let snapshot ← takeSnapshot
      let committed ← Calling.get
      pure ⟨committed.acceptedDecision, s.compatibilityGeometrySequence, committed.geometry,
        some snapshot⟩

/-! ### Reading -/

/-- Drop bytes from the front until the rest is well-formed UTF-8. -/
def dropToUtf8 : List UInt8 → List UInt8
  | [] => []
  | b :: bs => if ByteArray.validateUTF8 ⟨(b :: bs).toArray⟩ then b :: bs else dropToUtf8 bs

/-- Raw output since the last compatibility read, at most the last `maxBytes` of it. -/
def readCompatibilityOutput (maxBytes : Option Nat) (peek : Bool) :
    Handler (Option (List UInt8)) := do
  Calling.modify fun s => { s with
    compatibilityReadSequence :=
      if saturatingSucc s.compatibilityReadSequence < s.availableFromSequence then
        s.availableFromSequence - 1
      else s.compatibilityReadSequence }
  let s ← Calling.get
  let (bytes, nextSequence) := s.replay.rawOutputAfter s.compatibilityReadSequence
  if peek then pure ()
  else Calling.modify fun s => { s with compatibilityReadSequence := nextSequence }
  let bytes := match maxBytes with
    | some limit =>
      if limit < bytes.length then dropToUtf8 (bytes.drop (bytes.length - limit)) else bytes
    | none => bytes
  pure (if bytes = [] then none else some bytes)

def subscribe (request : TerminalEventSubscriptionRequest) :
    Handler TerminalEventSubscriptionResult := do
  ensureSession request.sessionId
  ensureGeneration request.runtimeGeneration
  Calling.ofExcept (validateId request.consumerId "consumer_id")
  let s ← Calling.get
  if request.clientKind = .desktop ∧ s.consumers.toList.any fun entry =>
      entry.1 != request.consumerId && entry.2.clientKind == .desktop then
    Calling.fail .desktopConsumerAlreadyRegistered
  else do
    Calling.modify fun s => { s with
      consumers := s.consumers.insert request.consumerId ⟨request.clientKind, 0⟩ }
    let initialSnapshot ← takeSnapshot
    let s ← Calling.get
    pure ⟨s.brokerState, initialSnapshot⟩

/-- A batch without events that sends the reader to the snapshot handed out now. -/
def recoveryBatch (s : TerminalSessionActor) (status : TerminalEventBatchStatus) :
    TerminalEventBatch where
  status := status
  runtimeGeneration := s.runtimeGeneration
  events := []
  nextSequence := s.snapshot.sequenceBarrier
  availableFromSequence := s.availableFromSequence
  latestSequence := s.streamSequence
  recoverySnapshot := some s.snapshot

/-- Whether events after the cursor are gone from the ring, or are yet to come. -/
def cursorHasGap (s : TerminalSessionActor) (afterSequence : Nat) : Bool :=
  s.streamSequence < afterSequence || afterSequence < s.availableFromSequence - 1

/-- The answer to a read of a consumer that is subscribed. -/
def readBatch (s : TerminalSessionActor) (request : TerminalEventReadRequest) :
    TerminalEventBatch :=
  if s.cursorHasGap request.afterSequence then s.recoveryBatch .gap
  else
    let events := s.replay.readAfter request.afterSequence request.maxEvents request.maxBytes
    if events = [] ∧ request.afterSequence < s.streamSequence then s.recoveryBatch .gap
    else
      { status := .events
        runtimeGeneration := s.runtimeGeneration
        events := events
        nextSequence := events.getLast?.elim request.afterSequence (·.sequence)
        availableFromSequence := s.availableFromSequence
        latestSequence := s.streamSequence
        recoverySnapshot := none }

/-- A batch that hands out a snapshot remembers it. -/
def afterBatch (s : TerminalSessionActor) (batch : TerminalEventBatch) : TerminalSessionActor :=
  if batch.recoverySnapshot.isSome then s.withSnapshot else s

def readEvents (request : TerminalEventReadRequest) : Handler TerminalEventBatch := do
  ensureSession request.sessionId
  let s ← Calling.get
  if request.runtimeGeneration ≠ s.runtimeGeneration then do
    Calling.modify withSnapshot
    pure (s.recoveryBatch .generationChanged)
  else if s.consumers[request.consumerId]?.isNone then Calling.fail .consumerNotFound
  else do
    Calling.modify fun s => s.afterBatch (s.readBatch request)
    pure (s.readBatch request)

def ackEvents (request : TerminalEventAckRequest) : Handler TerminalEventAckResult := do
  ensureSession request.sessionId
  ensureGeneration request.runtimeGeneration
  let s ← Calling.get
  match s.consumers[request.consumerId]? with
  | none => Calling.fail .consumerNotFound
  | some consumer => do
      let acknowledged :=
        max consumer.acknowledgedSequence (min request.appliedSequence s.streamSequence)
      Calling.modify fun s => { s with
        consumers := s.consumers.insert request.consumerId
          { consumer with acknowledgedSequence := acknowledged } }
      pure ⟨acknowledged, s.streamSequence⟩

def unsubscribe (request : TerminalEventUnsubscribeRequest) : Handler Unit := do
  ensureSession request.sessionId
  let s ← Calling.get
  if s.consumers[request.consumerId]?.isNone then Calling.fail .consumerNotFound
  else Calling.modify fun s => { s with consumers := s.consumers.erase request.consumerId }

/-! ### Lifecycle -/

def pause (sessionId : String) (runtimeGeneration : Nat) : Handler TerminalBrokerState := do
  ensureSession sessionId
  ensureGeneration runtimeGeneration
  let s ← Calling.get
  if s.runtimeState = .live then
    Calling.modify fun s =>
      { s with
        runtimeState := .paused
        runtime := none
        pendingOwnerResync := none }.emitEvent (.lifecycle .runtimePaused)
  else pure ()
  let s ← Calling.get
  pure s.brokerState

def pauseInputSender (sessionId : String) (runtimeGeneration : Nat) :
    Handler TerminalBrokerState := do
  ensureSession sessionId
  ensureGeneration runtimeGeneration
  Calling.modify fun s => { s with inputSenderPaused := true }
  let s ← Calling.get
  pure s.brokerState

/-- What the loop does after its last message. -/
def shutdown : Handler Unit := do
  Calling.modify fun s => { s with runtimeState := .terminated }
  clearControl
  Calling.modify fun s => { s with
    pendingActivation := none
    pendingOwnerResync := none
    consumers := ∅ }

end TerminalSessionActor

/-! ### Messages -/

/-- What the actor is sent. -/
inductive Message where
  | output (runtimeGeneration : Nat) (bytes : List UInt8)
  | register (request : TerminalPresentationRegistration) (identity : TerminalClientIdentity)
  | updatePresentation (request : TerminalPresentationUpdateRequest)
      (identity : TerminalClientIdentity)
  | unregisterPresentation (sessionId presentationId : String) (runtimeGeneration : Nat)
  | reportViewport (request : TerminalPresentationViewportRequest)
  | beginActivation (request : TerminalActivationBeginRequest)
  | ackActivation (request : TerminalActivationAckRequest) (arrival : ActivationAckArrival)
  | input (request : TerminalInputRequest)
  | resize (request : TerminalGeometryRequest)
  | compatibilityInput (bytes : List UInt8)
  | compatibilityResize (geometry : TerminalGeometry)
  | privilegedInput (bytes : List UInt8)
  | composerInput (sessionId : String) (runtimeGeneration : Nat) (bytes : List UInt8)
  | automatedInput (sessionId : String) (runtimeGeneration : Nat) (bytes : List UInt8)
  | readCompatibilityOutput (maxBytes : Option Nat) (peek : Bool)
  | subscribe (request : TerminalEventSubscriptionRequest)
  | readEvents (request : TerminalEventReadRequest)
  | ackEvents (request : TerminalEventAckRequest)
  | unsubscribe (request : TerminalEventUnsubscribeRequest)
  | consumerAcknowledgements
  | brokerState
  | nativeWriteReceiptsEnabled
  | snapshot
  | pause (sessionId : String) (runtimeGeneration : Nat)
  | pauseInputSender (sessionId : String) (runtimeGeneration : Nat)
  | beginOwnerResync (request : TerminalOwnerResyncBeginRequest)
  | ackOwnerResync (request : TerminalOwnerResyncAckRequest)

/-- What a message is answered with. -/
inductive Answer where
  | done
  | registered (result : TerminalPresentationRegistrationResult)
  | updated (result : TerminalPresentationUpdateResult)
  | state (state : TerminalBrokerState)
  | presentation (state : TerminalPresentationState)
  | begun (result : TerminalActivationBeginResult)
  | acknowledged (result : TerminalActivationAckResult)
  | decided (decision : TerminalLeaseDecision)
  | resized (result : TerminalGeometryCommitResult)
  | compatibilityOutput (bytes : Option (List UInt8))
  | subscribed (result : TerminalEventSubscriptionResult)
  | batch (batch : TerminalEventBatch)
  | eventsAcknowledged (result : TerminalEventAckResult)
  | consumers (acknowledgements : List (String × Nat))
  | enabled (enabled : Bool)
  | snapshot (snapshot : TerminalSnapshot)
  | resyncBegun (result : TerminalOwnerResyncBeginResult)
  | resyncAcknowledged (result : TerminalOwnerResyncAckResult)

/-- What the loop of the actor does next: look at the control plane, handle a message, or stop. -/
inductive Turn where
  | control
  | message (message : Message)
  | shutdown

namespace TerminalSessionActor

def handleMessage : Message → Handler Answer
  | .output runtimeGeneration bytes => do
      processOutput runtimeGeneration bytes
      pure .done
  | .register request identity => return .registered (← register request identity)
  | .updatePresentation request identity => return .updated (← updatePresentation request identity)
  | .unregisterPresentation sessionId presentationId runtimeGeneration =>
    return .state (← unregister sessionId presentationId runtimeGeneration)
  | .reportViewport request => return .presentation (← reportViewport request)
  | .beginActivation request => return .begun (← beginActivation request)
  | .ackActivation request arrival => do
      let result ← Calling.attempt (ackActivation request arrival)
      dropArrival arrival
      return .acknowledged (← Calling.ofExcept result)
  | .input request => return .decided (← sendInput request)
  | .resize request => return .resized (← resize request)
  | .compatibilityInput bytes => return .decided (← sendCompatibilityInput bytes)
  | .compatibilityResize geometry => return .resized (← resizeCompatibility geometry)
  | .privilegedInput bytes => do
      sendPrivilegedInput bytes
      pure .done
  | .composerInput sessionId runtimeGeneration bytes => do
      sendComposerInput sessionId runtimeGeneration bytes
      pure .done
  | .automatedInput sessionId runtimeGeneration bytes => do
      sendAutomatedInput sessionId runtimeGeneration bytes
      pure .done
  | .readCompatibilityOutput maxBytes peek =>
    return .compatibilityOutput (← readCompatibilityOutput maxBytes peek)
  | .subscribe request => return .subscribed (← subscribe request)
  | .readEvents request => return .batch (← readEvents request)
  | .ackEvents request => return .eventsAcknowledged (← ackEvents request)
  | .unsubscribe request => do
      unsubscribe request
      pure .done
  | .consumerAcknowledgements => do
      let s ← Calling.get
      pure (.consumers (s.consumers.toList.map fun entry => (entry.1, entry.2.acknowledgedSequence)))
  | .brokerState => do
      let s ← Calling.get
      pure (.state s.brokerState)
  | .nativeWriteReceiptsEnabled => do
      let s ← Calling.get
      pure (.enabled (s.runtime.any fun runtime => runtime.inputTx == .acknowledged))
  | .snapshot => return .snapshot (← takeSnapshot)
  | .pause sessionId runtimeGeneration => return .state (← pause sessionId runtimeGeneration)
  | .pauseInputSender sessionId runtimeGeneration =>
    return .state (← pauseInputSender sessionId runtimeGeneration)
  | .beginOwnerResync request => return .resyncBegun (← beginOwnerResync request)
  | .ackOwnerResync request => return .resyncAcknowledged (← ackOwnerResync request)

/-- Carry out the rollback that is due, if one is. -/
def handleControl : Handler Unit := do
  let due ← takeDue
  match due with
  | some key => activationTimeout key
  | none => pure ()

/-- One turn of the loop. -/
def turn : Turn → Handler Answer
  | .control => do
      handleControl
      pure .done
  | .message message => handleMessage message
  | .shutdown => do
      shutdown
      pure .done

end TerminalSessionActor

end Wardian.Terminal
