/-
Terminal sessions: the vocabulary of the broker.

A terminal session has one native runtime and any number of presentations, which are the places
where it is shown.  At most one presentation at a time holds the lease that lets it type and resize.
The types here are the requests, the answers and the events of the broker; counters are unsigned
64-bit numbers that stop at their largest value.
-/

import Wardian.Lib.Counter
import Wardian.Lib.Text

set_option autoImplicit false

namespace Wardian.Terminal

/-! ### Presentations -/

structure TerminalGeometry where
  rows : Nat
  cols : Nat
deriving DecidableEq

inductive TerminalClientKind where
  | desktop
  | remote
deriving DecidableEq

inductive TerminalVisibility where
  | visible
  | hidden
deriving DecidableEq

inductive TerminalRenderState where
  | mounted
  | suspended
deriving DecidableEq

inductive TerminalRequestedInteraction where
  | interactive
  | readOnly
deriving DecidableEq

inductive TerminalInteractionCapability where
  | interactive
  | readOnly
deriving DecidableEq

inductive TerminalRuntimeState where
  | live
  | paused
  | terminated
deriving DecidableEq

structure TerminalPresentationState where
  presentationId : String
  clientKind : TerminalClientKind
  desiredGeometry : Option TerminalGeometry
  visibility : TerminalVisibility
  renderState : TerminalRenderState
  interactionCapability : TerminalInteractionCapability
  interactionSequence : Nat
  /-- Whether what it shows may be behind, so that it has to take a snapshot first. -/
  requiresResync : Bool

structure TerminalPendingActivationState where
  presentationId : String
  previousOwnerPresentationId : Option String
  runtimeGeneration : Nat
  leaseEpoch : Nat
  activationId : String

structure TerminalBrokerState where
  sessionId : String
  runtimeGeneration : Nat
  leaseEpoch : Nat
  streamSequence : Nat
  interactionSequence : Nat
  geometry : TerminalGeometry
  ownerPresentationId : Option String
  pendingActivation : Option TerminalPendingActivationState
  runtimeState : TerminalRuntimeState

/-! ### Requests -/

structure TerminalPresentationRegistration where
  presentationId : String
  sessionId : String
  clientKind : TerminalClientKind
  desiredGeometry : Option TerminalGeometry
  visibility : TerminalVisibility
  renderState : TerminalRenderState
  requestedInteraction : TerminalRequestedInteraction

structure TerminalPresentationUpdateRequest where
  presentationId : String
  sessionId : String
  runtimeGeneration : Nat
  desiredGeometry : Option TerminalGeometry
  visibility : TerminalVisibility
  renderState : TerminalRenderState
  requestedInteraction : TerminalRequestedInteraction

structure TerminalPresentationViewportRequest where
  sessionId : String
  presentationId : String
  runtimeGeneration : Nat
  cols : Nat
  rows : Nat

structure TerminalLeaseIdentity where
  sessionId : String
  presentationId : String
  runtimeGeneration : Nat
  leaseEpoch : Nat

structure TerminalActivationBeginRequest where
  sessionId : String
  presentationId : String
  runtimeGeneration : Nat
  observedLeaseEpoch : Nat

structure TerminalActivationAckRequest where
  sessionId : String
  presentationId : String
  runtimeGeneration : Nat
  leaseEpoch : Nat
  activationId : String
deriving DecidableEq

structure TerminalOwnerResyncBeginRequest where
  sessionId : String
  presentationId : String
  runtimeGeneration : Nat
  leaseEpoch : Nat

structure TerminalOwnerResyncAckRequest where
  sessionId : String
  presentationId : String
  runtimeGeneration : Nat
  leaseEpoch : Nat
  resyncId : String

structure TerminalInputRequest where
  lease : TerminalLeaseIdentity
  bytes : List UInt8

structure TerminalGeometryRequest where
  lease : TerminalLeaseIdentity
  geometrySequence : Nat
  geometry : TerminalGeometry

structure TerminalEventSubscriptionRequest where
  sessionId : String
  consumerId : String
  clientKind : TerminalClientKind
  runtimeGeneration : Nat

structure TerminalEventReadRequest where
  sessionId : String
  consumerId : String
  runtimeGeneration : Nat
  afterSequence : Nat
  maxEvents : Nat
  maxBytes : Nat

structure TerminalEventAckRequest where
  sessionId : String
  consumerId : String
  runtimeGeneration : Nat
  appliedSequence : Nat

structure TerminalEventUnsubscribeRequest where
  sessionId : String
  consumerId : String

/-! ### Events and snapshots -/

inductive TerminalSessionLifecycleEvent where
  | runtimeStarted
  | runtimePaused
  | runtimeResumed
  | runtimeReplaced
  | runtimeTerminated
deriving DecidableEq

inductive TerminalBrokerEventKind where
  | output (bytes : List UInt8)
  | geometry (geometry : TerminalGeometry) (geometrySequence : Nat)
  | ownership (ownerPresentationId : Option String) (leaseEpoch : Nat)
      (activationId : Option String)
  | lifecycle (lifecycle : TerminalSessionLifecycleEvent)
deriving DecidableEq

structure TerminalBrokerEvent where
  sequence : Nat
  runtimeGeneration : Nat
  event : TerminalBrokerEventKind
deriving DecidableEq

/-- A call on the terminal parser. -/
inductive ParserCall where
  | reset (rows cols : Nat)
  | process (bytes : List UInt8)
  | setSize (rows cols : Nat)

structure TerminalSnapshot where
  snapshotId : String
  sessionId : String
  runtimeGeneration : Nat
  sequenceBarrier : Nat
  geometry : TerminalGeometry
  /-- The calls, the latest first, whose screen the grid and the history of the snapshot show. -/
  screen : List ParserCall

/-! ### Answers -/

inductive TerminalLeaseDecisionStatus where
  | accepted
  | rejected

inductive TerminalLeaseRejectionReason where
  | runtimeUnavailable
  | generationChanged
  | leaseEpochChanged
  | presentationNotFound
  | presentationIneligible
  | pendingActivation
  | notOwner
  | staleActivation
  | resyncNotRequired
  | staleOwnerResync
  | staleGeometrySequence

structure TerminalLeaseDecision where
  status : TerminalLeaseDecisionStatus
  reason : Option TerminalLeaseRejectionReason
  runtimeGeneration : Nat
  leaseEpoch : Nat
  ownerPresentationId : Option String

def TerminalLeaseDecision.accepted (runtimeGeneration leaseEpoch : Nat)
    (ownerPresentationId : Option String) : TerminalLeaseDecision where
  status := .accepted
  reason := none
  runtimeGeneration := runtimeGeneration
  leaseEpoch := leaseEpoch
  ownerPresentationId := ownerPresentationId

def TerminalLeaseDecision.rejected (reason : TerminalLeaseRejectionReason)
    (runtimeGeneration leaseEpoch : Nat) (ownerPresentationId : Option String) :
    TerminalLeaseDecision where
  status := .rejected
  reason := some reason
  runtimeGeneration := runtimeGeneration
  leaseEpoch := leaseEpoch
  ownerPresentationId := ownerPresentationId

structure TerminalPresentationRegistrationResult where
  presentation : TerminalPresentationState
  brokerState : TerminalBrokerState
  initialSnapshot : TerminalSnapshot

structure TerminalPresentationUpdateResult where
  presentation : TerminalPresentationState
  brokerState : TerminalBrokerState

structure TerminalActivationBeginResult where
  decision : TerminalLeaseDecision
  activationId : Option String
  snapshot : Option TerminalSnapshot
  sequenceBarrier : Nat

structure TerminalActivationAckResult where
  decision : TerminalLeaseDecision
  brokerState : TerminalBrokerState
  snapshot : Option TerminalSnapshot

structure TerminalOwnerResyncBeginResult where
  decision : TerminalLeaseDecision
  resyncId : Option String
  snapshot : Option TerminalSnapshot
  sequenceBarrier : Nat

structure TerminalOwnerResyncAckResult where
  decision : TerminalLeaseDecision
  brokerState : TerminalBrokerState

structure TerminalGeometryCommitResult where
  decision : TerminalLeaseDecision
  geometrySequence : Nat
  geometry : TerminalGeometry
  snapshot : Option TerminalSnapshot

structure TerminalEventSubscriptionResult where
  brokerState : TerminalBrokerState
  initialSnapshot : TerminalSnapshot

inductive TerminalEventBatchStatus where
  | events
  | gap
  | generationChanged
  | terminated

structure TerminalEventBatch where
  status : TerminalEventBatchStatus
  runtimeGeneration : Nat
  events : List TerminalBrokerEvent
  nextSequence : Nat
  availableFromSequence : Nat
  latestSequence : Nat
  recoverySnapshot : Option TerminalSnapshot

structure TerminalEventAckResult where
  acceptedSequence : Nat
  latestSequence : Nat

inductive TerminalBrokerError where
  | sessionNotFound
  | runtimeUnavailable
  | invalidIdentity
  | conversationLeaseConflict
  | conversationLeaseAdmission (message : String)
  | invalidRequest (field : String)
  | presentationNotFound
  | consumerNotFound
  | desktopConsumerAlreadyRegistered
  | presentationLimit (clientKind : TerminalClientKind) (limit : Nat)
  | staleRuntimeGeneration (expected received : Nat)
  | runtimeIo (message : String)

/-! ### Identities -/

/-- Who a client is, as its connection has established it. -/
structure TerminalClientIdentity where
  clientKind : TerminalClientKind
  subjectId : Option String
  authenticated : Bool
  interactionAllowed : Bool

namespace TerminalClientIdentity

def trustedDesktop : TerminalClientIdentity where
  clientKind := .desktop
  subjectId := none
  authenticated := true
  interactionAllowed := true

def validate (identity : TerminalClientIdentity) (clientKind : TerminalClientKind)
    (presentationId : String) : Except TerminalBrokerError Unit := do
  if !identity.authenticated || identity.clientKind != clientKind then
    throw .invalidIdentity
  if clientKind == .remote && identity.subjectId != some presentationId then
    throw .invalidIdentity

def effectiveCapability (identity : TerminalClientIdentity)
    (requested : TerminalRequestedInteraction) : TerminalInteractionCapability :=
  if identity.interactionAllowed && requested == .interactive then .interactive else .readOnly

def initiallyFallbackPromotionEligible (identity : TerminalClientIdentity) : Bool :=
  identity.clientKind == .desktop

end TerminalClientIdentity

/-! ### Checks -/

def maxDesktopPresentationsPerSession : Nat := 64

def maxRemotePresentationsPerSession : Nat := 3

def maxTerminalIdentifierBytes : Nat := 512

def presentationLimit : TerminalClientKind → Nat
  | .desktop => maxDesktopPresentationsPerSession
  | .remote => maxRemotePresentationsPerSession

def maxGeometry : TerminalClientKind → Nat × Nat
  | .desktop => (500, 200)
  | .remote => (240, 80)

def clampGeometry (geometry : TerminalGeometry) (clientKind : TerminalClientKind) :
    TerminalGeometry where
  cols := max 20 (min geometry.cols (maxGeometry clientKind).1)
  rows := max 8 (min geometry.rows (maxGeometry clientKind).2)

def validateId (value field : String) : Except TerminalBrokerError Unit :=
  if Text.isBlank value || maxTerminalIdentifierBytes < value.utf8ByteSize ||
      value.toList.any Text.isWhitespace then
    .error (.invalidRequest field)
  else .ok ()

end Wardian.Terminal
