/-
The control plane of a terminal session.

Broker callers, the deadline timer and the actor of a session share one small state under a mutex.
It knows the activation that is waiting for its acknowledgement, counts the acknowledgements that
arrived before the deadline and are still on their way, and remembers whether a rollback is due.
Every operation is one critical section.  Waking the actor up is not modelled: the actor may look at
the control plane at any time.
-/

import Wardian.Lib.Calls
import Wardian.Terminal.Session

set_option autoImplicit false

namespace Wardian.Terminal

structure ActivationKey where
  presentationId : String
  runtimeGeneration : Nat
  leaseEpoch : Nat
  activationId : String
deriving DecidableEq

def ActivationKey.fromAck (request : TerminalActivationAckRequest) : ActivationKey where
  presentationId := request.presentationId
  runtimeGeneration := request.runtimeGeneration
  leaseEpoch := request.leaseEpoch
  activationId := request.activationId

def ActivationKey.fromPending (state : TerminalPendingActivationState) : ActivationKey where
  presentationId := state.presentationId
  runtimeGeneration := state.runtimeGeneration
  leaseEpoch := state.leaseEpoch
  activationId := state.activationId

/-- How an acknowledgement arrived; one that arrived in time holds a reservation, which is released
when it is dropped. -/
inductive ActivationAckArrival where
  | matchingBeforeDeadline (reservation : ActivationKey)
  | matchingAfterDeadline
  | nonMatching
deriving DecidableEq

/-- The activation that waits for its acknowledgement. -/
structure ActivationControlState where
  key : ActivationKey
  ackReservations : Nat
  deadlineElapsed : Bool
  timeoutDue : Bool

/-- The state under the mutex. -/
structure ControlPlane where
  activation : Option ActivationControlState

namespace ControlPlane

/-- The activation in progress, when it is the one named. -/
def matching (control : ControlPlane) (key : ActivationKey) : Option ActivationControlState :=
  control.activation.filter fun activation => activation.key = key

def startActivation (_ : ControlPlane) (key : ActivationKey) : ControlPlane :=
  ⟨some ⟨key, 0, false, false⟩⟩

def clearActivation (control : ControlPlane) (key : ActivationKey) : ControlPlane :=
  if (control.matching key).isSome then ⟨none⟩ else control

def classifyActivationAck (control : ControlPlane) (request : TerminalActivationAckRequest) :
    ActivationAckArrival × ControlPlane :=
  match control.matching (.fromAck request) with
  | none => (.nonMatching, control)
  | some activation =>
    if activation.deadlineElapsed then (.matchingAfterDeadline, control)
    else (.matchingBeforeDeadline (.fromAck request),
      ⟨some { activation with ackReservations := activation.ackReservations + 1 }⟩)

/-- Give a reservation back.  `none` is the panic of a count that would go below zero. -/
def releaseActivationAck (control : ControlPlane) (key : ActivationKey) : Option ControlPlane :=
  match control.matching key with
  | none => some control
  | some activation =>
    if activation.ackReservations = 0 then none
    else
      let ackReservations := activation.ackReservations - 1
      some ⟨some { activation with
        ackReservations := ackReservations
        timeoutDue := activation.timeoutDue ||
          (ackReservations == 0 && activation.deadlineElapsed) }⟩

def activationDeadlineElapsed (control : ControlPlane) (key : ActivationKey) : ControlPlane :=
  match control.matching key with
  | none => control
  | some activation =>
    ⟨some { activation with
      deadlineElapsed := true
      timeoutDue := activation.timeoutDue || activation.ackReservations == 0 }⟩

/-- The activation whose rollback is due, which is from now on the actor's to handle. -/
def takeDue (control : ControlPlane) : Option ActivationKey × ControlPlane :=
  match control.activation with
  | none => (none, control)
  | some activation =>
    if activation.timeoutDue then
      (some activation.key, ⟨some { activation with timeoutDue := false }⟩)
    else (none, control)

/-- A late acknowledgement takes over the rollback that is already due. -/
def claimUnreservedActivationTimeout (control : ControlPlane) (key : ActivationKey) :
    Bool × ControlPlane :=
  match control.matching key with
  | none => (false, control)
  | some activation =>
    if !activation.deadlineElapsed || activation.ackReservations != 0 ||
        !activation.timeoutDue then (false, control)
    else (true, ⟨some { activation with timeoutDue := false }⟩)

end ControlPlane

/-! ### The interface of the actor -/

/-- How the native input queue took some bytes. -/
inductive SendReply where
  | queued
  | timeout
  | closed

/-- What the native writer reported about bytes that were queued. -/
inductive ReceiptReply where
  | written
  | timeout
  | closed
  | failed (message : String)

/-- What the actor of a session calls: the control plane, the native runtime, and the conversation
lease of an automated input. -/
inductive TerminalCall where
  | startActivation (key : ActivationKey)
  | clearActivation (key : ActivationKey)
  | releaseActivationAck (key : ActivationKey)
  | takeDue
  | claimUnreservedActivationTimeout (key : ActivationKey)
  | clear
  | resize (geometry : TerminalGeometry)
  | send (bytes : List UInt8)
  | receipt
  | acquireLease
  | retainLease
  | releaseLease
deriving DecidableEq

/-- What each call is answered with. -/
def TerminalCall.Reply : TerminalCall → Type
  | startActivation _ | clearActivation _ | releaseActivationAck _ | clear => Unit
  | takeDue => Option ActivationKey
  | claimUnreservedActivationTimeout _ => Bool
  | resize _ => Except String Unit
  | send _ => SendReply
  | receipt => ReceiptReply
  | acquireLease => Except TerminalBrokerError Unit
  | retainLease | releaseLease => Unit

def terminalInterface : Interface where
  Op := TerminalCall
  Reply := TerminalCall.Reply

/-- How the control plane answers the actor; the native runtime answers as it likes.  A release
that would take the count below zero panics and is never answered. -/
inductive ControlPlane.Answers :
    (op : TerminalCall) → ControlPlane → op.Reply → ControlPlane → Prop where
  | startActivation (control : ControlPlane) (key : ActivationKey) :
      Answers (.startActivation key) control () (control.startActivation key)
  | clearActivation (control : ControlPlane) (key : ActivationKey) :
      Answers (.clearActivation key) control () (control.clearActivation key)
  | releaseActivationAck {control control' : ControlPlane} {key : ActivationKey}
      (h : control.releaseActivationAck key = some control') :
      Answers (.releaseActivationAck key) control () control'
  | takeDue (control : ControlPlane) :
      Answers .takeDue control control.takeDue.1 control.takeDue.2
  | claimUnreservedActivationTimeout (control : ControlPlane) (key : ActivationKey) :
      Answers (.claimUnreservedActivationTimeout key) control
        (control.claimUnreservedActivationTimeout key).1
        (control.claimUnreservedActivationTimeout key).2
  | clear (control : ControlPlane) : Answers .clear control () ⟨none⟩
  | resize (control : ControlPlane) (geometry : TerminalGeometry) (reply : Except String Unit) :
      Answers (.resize geometry) control reply control
  | send (control : ControlPlane) (bytes : List UInt8) (reply : SendReply) :
      Answers (.send bytes) control reply control
  | receipt (control : ControlPlane) (reply : ReceiptReply) :
      Answers .receipt control reply control
  | acquireLease (control : ControlPlane) (reply : Except TerminalBrokerError Unit) :
      Answers .acquireLease control reply control
  | retainLease (control : ControlPlane) : Answers .retainLease control () control
  | releaseLease (control : ControlPlane) : Answers .releaseLease control () control

end Wardian.Terminal
