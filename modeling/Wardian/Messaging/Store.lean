/-
The tables of agent messaging.

An interaction record owns the body of a message, a task or a reply.  A delivery row says who may
deliver it: the receiver, which reads its mailbox in pages, or the scheduler, which claims one
message at a time for a provider.  An availability row gives it a place in the stream of its
recipient; places are given out once and never again.

An operation runs in a transaction: when it fails, the tables stay as they were.

Main results:

* `Messaging.wp_updateDelivery`, `Messaging.wp_insertDelivery`, `Messaging.wp_makeAvailable`,
  `Messaging.wp_load` — what the statements do.
-/

import Wardian.Lib.Prog
import Wardian.Lib.Table
import Wardian.Lib.Text
import Wardian.Lib.JsonText

set_option autoImplicit false

namespace Wardian.Messaging

open Prog (Wp wp_bind wp_get wp_ite)

def maxMessageBytes : Nat := 64 * 1024
def maxReceiveBodyBytes : Nat := 128 * 1024
def maxReceiveSerializedBytes : Nat := 512 * 1024
def maxReceiveItems : Nat := 100

/-- The largest integer of a column. -/
def maxSqlInteger : Nat := 2 ^ 63 - 1

/-! ### Interactions -/

inductive InteractionKind
  | message
  | task
  | reply
  | notification
deriving DecidableEq

inductive InteractionStatus
  | created
  | queued
  | delivering
  | delivered
  | awaitingReply
  | completed
  | failed
  | expired
deriving DecidableEq

inductive InteractionTriggerPolicy
  | notifyOnly
  | startTurn
  | replyRequired
deriving DecidableEq

inductive InteractionBodyRef
  | inline (body : String)
  | file (path : String)
deriving DecidableEq

structure InteractionRecord where
  id : String
  kind : InteractionKind
  senderSessionId : Option String
  targetSessionIds : List String
  status : InteractionStatus
  triggerPolicy : InteractionTriggerPolicy
  bodyRef : InteractionBodyRef
  parentInteractionId : Option String
  createdAt : String
  updatedAt : String
  completedAt : Option String
deriving DecidableEq

inductive ReplyStatus
  | done
  | blocked
  | failed
deriving DecidableEq

structure StructuredReply where
  requestId : String
  status : ReplyStatus
  body : String
  targetSessionId : String
  sourceSessionId : Option String
  repliedAt : String
deriving DecidableEq

/-! ### Deliveries -/

inductive Operation
  | followupTask
  | sendMessage
  | reply
deriving DecidableEq

/-- Who may deliver a message, or how its delivery ended. -/
inductive Owner
  | pending
  | stored
  | receiverAvailable
  | dispatching
  | providerVisible
  | providerAccepted
  | providerCompleted
  | uncertain
  | failedBeforeSubmit
  | blockedLegacyUncertain
  | blockedStaleOrigin
deriving DecidableEq

/-- What became of the continuation of a reply. -/
inductive ContinuationState
  | pending
  | waitingBusy
  | waitingPaused
  | waitingIdentity
  | blockedLegacyUncertain
  | blockedStaleOrigin
  | delivered
  | uncertain
deriving DecidableEq

/-- The provider conversation of a requester or of a recipient. -/
structure Origin where
  provider : String
  conversationId : String
  generation : Nat

structure Delivery where
  interactionId : String
  sender : String
  recipient : String
  operation : Operation
  idempotencyKey : Option String
  fingerprint : String
  owner : Owner
  generation : Nat
  claimToken : Option String
  requester : Option Origin
  continuationState : Option ContinuationState
  wakeOnAdmission : Bool
  recipientOrigin : Option Origin

/-- The row is free: neither the receiver nor the scheduler has it, and nothing blocks it. -/
def Delivery.IsFree (delivery : Delivery) : Prop :=
  delivery.owner = .stored ∨ delivery.owner = .pending

/-! ### The other tables -/

structure Availability where
  sequence : Nat
  recipient : String
  interactionId : String
deriving DecidableEq

structure Cursor where
  token : String
  recipient : String
  sequence : Nat
deriving DecidableEq

structure HostAutomationProvenance where
  runId : String
  node : String
deriving DecidableEq

/-- How far the terminal output of a task turn has come. -/
inductive Settlement
  | bound
  | outcomeRecorded
  | published
  | uncertain
deriving DecidableEq

structure TaskTurnBinding where
  requestId : String
  claimToken : String
  recipient : String
  generation : Nat
  provider : String
  providerSessionId : String
  providerTurnId : String
  admissionMode : String
deriving DecidableEq

/-- A row of the outbox: a bound turn and, once it is known, its outcome. -/
structure TaskTurn where
  binding : TaskTurnBinding
  settlement : Settlement
  terminal : Option (ReplyStatus × String)

/-- The tables.  The availability rows stand in the order of their sequences, and `lastSequence` is
the last one given out. -/
structure Store where
  interactions : Table InteractionRecord
  structuredReplies : Table StructuredReply
  deliveries : Table Delivery
  availability : List Availability
  lastSequence : Nat
  cursors : List Cursor
  hostTasks : Table HostAutomationProvenance
  acks : Table Nat
  taskTurns : Table TaskTurn

def Store.empty : Store := ⟨∅, ∅, ∅, [], 0, [], ∅, ∅, ∅⟩

/-! ### Operations -/

/-- A failure with its machine-readable code. -/
structure Failure where
  code : String
  message : String
deriving DecidableEq

abbrev MessagingM (α : Type) : Type := Prog Store Failure α

def failure {α : Type} (code message : String) : MessagingM α := Prog.fail ⟨code, message⟩

/-- Stop with a failure when the condition holds. -/
def failIf (condition : Bool) (code message : String) : MessagingM Unit :=
  if condition then failure code message else return

/-- A failure undoes what the operation has done. -/
def transaction {α : Type} (m : MessagingM α) : MessagingM α := fun s =>
  match m s with
  | (.ok a, s') => (.ok a, s')
  | (.error e, _) => (.error e, s)

/-- What an operation takes from outside: the identifiers that it draws, in order, and the time. -/
structure Env where
  uuid : Nat → String
  now : String

/-- An identifier with its kind in front. -/
def newId (kind uuid : String) : String := kind ++ "_" ++ uuid

def load (id : String) : MessagingM InteractionRecord := do
  let store ← Prog.get
  match store.interactions[id]? with
  | some record => return record
  | none => failure "not_found" "Interaction does not exist."

def upsertInteractionRecord (record : InteractionRecord) : MessagingM Unit :=
  Prog.modify fun store =>
    { store with interactions := store.interactions.insert record.id record }

def upsertStructuredReply (reply : StructuredReply) : MessagingM Unit :=
  Prog.modify fun store =>
    { store with structuredReplies := store.structuredReplies.insert reply.requestId reply }

/-- Insert a delivery row; its interaction must not have one. -/
def insertDelivery (delivery : Delivery) : MessagingM Unit := do
  let store ← Prog.get
  failIf (maxSqlInteger < delivery.generation) "storage_error" "integer out of range"
  if store.deliveries.contains delivery.interactionId then
    failure "storage_error" "UNIQUE constraint failed: agent_message_delivery.interaction_id"
  else
    Prog.modify fun store =>
      { store with deliveries := store.deliveries.insert delivery.interactionId delivery }

/-- Update the row of an interaction if it is there and the guard holds; the answer is whether it
was. -/
def updateDelivery (id : String) (guard : Delivery → Bool) (f : Delivery → Delivery) :
    MessagingM Bool := do
  let store ← Prog.get
  match store.deliveries[id]? with
  | some delivery =>
    if guard delivery then do
      Prog.modify fun store =>
        { store with deliveries := store.deliveries.insert id (f delivery) }
      return true
    else return false
  | none => return false

/-- Give an interaction the next place in the stream of its recipient. -/
def makeAvailable (recipient id : String) : MessagingM Unit := do
  let store ← Prog.get
  if store.availability.any fun row => row.recipient = recipient ∧ row.interactionId = id then
    failure "storage_error" "UNIQUE constraint failed: agent_message_availability"
  else
    Prog.modify fun store =>
      { store with
        availability := store.availability ++ [⟨store.lastSequence + 1, recipient, id⟩]
        lastSequence := store.lastSequence + 1 }

def hostAutomationProvenance (id : String) : MessagingM (Option HostAutomationProvenance) := do
  let store ← Prog.get
  return store.hostTasks[id]?

/-! ### What the statements do -/

section

variable {α : Type} {store : Store} {Q : α → Store → Prop} {R : Failure → Store → Prop}

theorem wp_transaction {m : MessagingM α}
    (h : Wp m Q (fun e _ => R e store) store) : Wp (transaction m) Q R store := by
  unfold Wp at h ⊢
  unfold transaction
  rcases hm : m store with ⟨e | a, store'⟩ <;> rw [hm] at h <;> exact h

theorem wp_failIf_of {Q : Unit → Store → Prop} {condition : Bool} {code message : String}
    (hfail : condition = true → R ⟨code, message⟩ store) (hgo : condition = false → Q () store) :
    Wp (failIf condition code message) Q R store := by
  unfold failIf
  cases condition with
  | true => exact hfail rfl
  | false => exact hgo rfl

theorem wp_failIf {Q : Unit → Store → Prop} {condition : Bool} {code message : String}
    (hfail : R ⟨code, message⟩ store) (hgo : condition = false → Q () store) :
    Wp (failIf condition code message) Q R store :=
  wp_failIf_of (fun _ => hfail) hgo

variable {id : String}

theorem wp_load {Q : InteractionRecord → Store → Prop}
    (hok : ∀ record, store.interactions[id]? = some record → Q record store)
    (hnone : store.interactions[id]? = none → R ⟨"not_found", "Interaction does not exist."⟩ store) :
    Wp (load id) Q R store := by
  unfold load
  rw [wp_bind, wp_get]
  split
  · exact hok _ ‹_›
  · exact hnone ‹_›

theorem wp_insertDelivery {Q : Unit → Store → Prop} {delivery : Delivery}
    (hok : store.deliveries[delivery.interactionId]? = none →
      Q () { store with
        deliveries := store.deliveries.insert delivery.interactionId delivery })
    (hfail : maxSqlInteger < delivery.generation ∨
      (store.deliveries[delivery.interactionId]?).isSome → ∀ e, R e store) :
    Wp (insertDelivery delivery) Q R store := by
  unfold insertDelivery
  rw [wp_bind, wp_get, wp_bind]
  refine wp_failIf_of (fun hlarge => hfail (.inl (of_decide_eq_true hlarge)) _) fun _ =>
    wp_ite (fun hold => hfail (.inr ?_) _) fun hnew => ?_
  · rw [Std.ExtTreeMap.isSome_getElem?_eq_contains]
    exact hold
  refine hok ?_
  rw [← Std.ExtTreeMap.isSome_getElem?_eq_contains] at hnew
  simpa using hnew

theorem wp_updateDelivery {Q : Bool → Store → Prop} {guard : Delivery → Bool} {f : Delivery → Delivery}
    (hupdate : ∀ delivery, store.deliveries[id]? = some delivery → guard delivery = true →
      Q true { store with deliveries := store.deliveries.insert id (f delivery) })
    (hsame : (∀ delivery, store.deliveries[id]? = some delivery → guard delivery = false) → Q false store) :
    Wp (updateDelivery id guard f) Q R store := by
  unfold updateDelivery
  rw [wp_bind, wp_get]
  split
  · rename_i delivery hdel
    refine wp_ite (fun hgrd => hupdate delivery hdel hgrd) fun hgrd => ?_
    refine hsame fun other hoth => ?_
    rw [hdel] at hoth
    rw [← Option.some.inj hoth]
    simpa using hgrd
  · rename_i hnone
    refine hsame fun other hoth => ?_
    rw [hnone] at hoth
    cases hoth

theorem wp_makeAvailable {Q : Unit → Store → Prop} {recipient : String}
    (hok : Q () { store with
      availability := store.availability ++ [⟨store.lastSequence + 1, recipient, id⟩]
      lastSequence := store.lastSequence + 1 })
    (hfail : (∃ row ∈ store.availability, row.interactionId = id) → ∀ e, R e store) :
    Wp (makeAvailable recipient id) Q R store := by
  unfold makeAvailable
  rw [wp_bind, wp_get]
  refine wp_ite (fun hold => ?_) fun _ => hok
  obtain ⟨row, hrow, hsame⟩ := List.any_eq_true.1 hold
  exact hfail ⟨row, hrow, (of_decide_eq_true hsame).2⟩ _

end

end Wardian.Messaging
