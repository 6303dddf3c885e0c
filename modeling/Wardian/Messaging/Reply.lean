/-
Replying to a task.

A reply completes its task, and it is written once: as a reply interaction, as the structured reply of
the task, and, when the task came from an agent, as a message in the stream of that agent.  Repeating
the identical reply answers with the one that is there.  A startup failure replies in the name of the
recipient, on the strength of the claim that holds the task.

Main results:

* `Messaging.wp_replyInTransaction` — a reply is written for an open task, or the one that is there is
  found.
-/

import Wardian.Messaging.Admission
import Wardian.Messaging.Claims

set_option autoImplicit false

namespace Wardian.Messaging

open Prog (Wp wp_bind wp_get wp_modify wp_pure)

structure Replied where
  task : InteractionRecord
  record : InteractionRecord
  reply : StructuredReply
  duplicate : Bool
deriving DecidableEq

/-- The reply interaction of a task. -/
def Store.replyOf (store : Store) (requestId : String) : Option String :=
  ((store.interactions.toList.map Prod.snd).find? fun record =>
    record.kind = .reply ∧ record.parentInteractionId = some requestId).map InteractionRecord.id

def structuredReply (sender requestId : String) (status : ReplyStatus) (message repliedAt : String) :
    StructuredReply :=
  ⟨requestId, status, message, sender, some sender, repliedAt⟩

/-- The record of a new reply. -/
def replyRecord (env : Env) (sender requestId message : String) (recipient : Option String) :
    InteractionRecord where
  id := newId "int" (env.uuid 0)
  kind := .reply
  senderSessionId := some sender
  targetSessionIds := recipient.toList
  status := .completed
  triggerPolicy := .notifyOnly
  bodyRef := .inline message
  parentInteractionId := some requestId
  createdAt := env.now
  updatedAt := env.now
  completedAt := some env.now

/-- The origin is complete enough for the reply to go on in the requester's conversation. -/
def continuationOfOrigin (origin : Option Origin) : ContinuationState :=
  if origin.any fun origin =>
      !Text.isBlank origin.provider && !Text.isBlank origin.conversationId &&
        (0 < origin.generation : Bool) then .pending
  else .blockedLegacyUncertain

/-- The delivery row of a new reply, with the requester's origin copied from the task's. -/
def replyDelivery (env : Env) (sender recipient : String) (task : Delivery) : Delivery where
  interactionId := newId "int" (env.uuid 0)
  sender := sender
  recipient := recipient
  operation := .reply
  idempotencyKey := none
  fingerprint := ""
  owner := .stored
  generation := 0
  claimToken := none
  requester := task.requester
  continuationState := some (continuationOfOrigin task.requester)
  wakeOnAdmission := false
  recipientOrigin := none

/-- Put a reply into the stream of the requester, if there is one. -/
def deliverReply (env : Env) (sender : String) (task : Delivery) :
    Option String → MessagingM Unit
  | none => return
  | some recipient => do
      insertDelivery (replyDelivery env sender recipient task)
      makeAvailable recipient (newId "int" (env.uuid 0))

/-- Answer with the reply that is there, if it is the same. -/
def replyDuplicate (sender requestId : String) (status : ReplyStatus) (message : String)
    (task : InteractionRecord) (previous : StructuredReply) : MessagingM Replied := do
  failIf (previous.status ≠ status || previous.body ≠ message) "conflicting_reply"
    "Task already has a different terminal reply."
  let store ← Prog.get
  match store.replyOf requestId with
  | none => failure "storage_error" "Query returned no rows"
  | some id => do
      let record ← load id
      return ⟨task, record, structuredReply sender requestId status previous.body previous.repliedAt,
        true⟩

/-- Write the reply of a task. -/
def writeReply (env : Env) (sender requestId : String) (status : ReplyStatus) (message : String)
    (claim : Option TaskClaim) (task : InteractionRecord) (delivery : Delivery) :
    MessagingM Replied := do
  failIf (task.status ≠ .awaitingReply) "conflicting_reply" "Task is already terminal."
  let provenance ← hostAutomationProvenance requestId
  failIf (task.senderSessionId.isNone && provenance.isNone) "invalid_task"
    "Task has no requester or trusted host provenance."
  let completed : InteractionRecord :=
    { task with status := .completed, updatedAt := env.now, completedAt := some env.now }
  let record := replyRecord env sender requestId message task.senderSessionId
  let reply := structuredReply sender requestId status message env.now
  upsertInteractionRecord completed
  upsertInteractionRecord record
  upsertStructuredReply reply
  deliverReply env sender delivery task.senderSessionId
  match claim with
  | none => return ⟨completed, record, reply, false⟩
  | some claim => do
      finishClaim claim .failedBeforeSubmit
      return ⟨completed, record, reply, false⟩

/-- A claim that was given must still hold the task. -/
def requireClaim : Option TaskClaim → MessagingM Unit
  | none => return
  | some claim => do
      let owns ← ownsClaim claim
      failIf (!owns) "stale_claim" "Startup failure no longer owns this task."

def replyInTransaction (env : Env) (sender requestId : String) (status : ReplyStatus)
    (message : String) (claim : Option TaskClaim) : MessagingM Replied := do
  requireClaim claim
  let task ← load requestId
  failIf (task.kind ≠ .task || task.targetSessionIds ≠ [sender]) "unauthorized"
    "Reply caller is not the task recipient."
  let store ← Prog.get
  match store.deliveries[requestId]?.filter fun delivery => delivery.operation = .followupTask with
  | none => failure "not_found" "Task is not a v2 messaging task."
  | some delivery =>
    match store.structuredReplies[requestId]? with
    | some previous => replyDuplicate sender requestId status message task previous
    | none => writeReply env sender requestId status message claim task delivery

def replyWithClaim (env : Env) (sender requestId : String) (status : ReplyStatus)
    (message : String) (claim : Option TaskClaim) : MessagingM Replied := do
  validateMessage message
  transaction (replyInTransaction env sender requestId status message claim)

def reply (env : Env) (sender requestId : String) (status : ReplyStatus) (message : String) :
    MessagingM Replied :=
  replyWithClaim env sender requestId status message none

def startupFailureNotice : String :=
  "Wardian delivery failed before this task reached the provider. No work was submitted. " ++
    "Inspect the recipient's delivery diagnostics before assigning a new task."

def replyStartupFailure (env : Env) (claim : TaskClaim) : MessagingM Replied :=
  match claim.record.targetSessionIds with
  | [] => failure "invalid_task" "Task has no recipient."
  | sender :: _ =>
    replyWithClaim env sender claim.record.id .failed startupFailureNotice (some claim)

/-! ### What a reply does -/

/-- A reply was found: the task is one of the recipient's, and its structured reply is this one. -/
structure RepliedBefore (sender requestId : String) (status : ReplyStatus) (message : String)
    (store : Store) (replied : Replied) : Prop where
  taskRow : store.interactions[requestId]? = some replied.task
  kind : replied.task.kind = .task
  target : replied.task.targetSessionIds = [sender]
  previous : ∃ previous, store.structuredReplies[requestId]? = some previous ∧
    previous.status = status ∧ previous.body = message
  found : ∃ id, store.replyOf requestId = some id ∧ store.interactions[id]? = some replied.record
  duplicate : replied.duplicate = true

/-- The tables once a task has its reply; the claim's row, if there is one, is changed last. -/
structure RepliedNew (env : Env) (sender requestId : String) (status : ReplyStatus)
    (message : String) (store store' : Store) (task : InteractionRecord) (delivery : Delivery) :
    Prop where
  taskRow : store.interactions[requestId]? = some task
  kind : task.kind = .task
  target : task.targetSessionIds = [sender]
  awaiting : task.status = .awaitingReply
  origin : task.senderSessionId = none → (store.hostTasks[requestId]?).isSome
  deliveryRow : store.deliveries[requestId]? = some delivery
  operation : delivery.operation = .followupTask
  unanswered : store.structuredReplies[requestId]? = none
  interactions : store'.interactions =
    (store.interactions.insert task.id
      { task with
        status := .completed, updatedAt := env.now, completedAt := some env.now }).insert
      (newId "int" (env.uuid 0)) (replyRecord env sender requestId message task.senderSessionId)
  structuredReplies : store'.structuredReplies =
    store.structuredReplies.insert requestId
      (structuredReply sender requestId status message env.now)
  deliveries : store'.deliveries = match task.senderSessionId with
    | none => store.deliveries
    | some recipient => store.deliveries.insert (newId "int" (env.uuid 0))
        (replyDelivery env sender recipient delivery)
  fresh : task.senderSessionId.isSome → store.deliveries[newId "int" (env.uuid 0)]? = none
  availability : store'.availability = match task.senderSessionId with
    | none => store.availability
    | some recipient => store.availability ++
        [⟨store.lastSequence + 1, recipient, newId "int" (env.uuid 0)⟩]
  lastSequence : store'.lastSequence = match task.senderSessionId with
    | none => store.lastSequence
    | some _ => store.lastSequence + 1
  hostTasks : store'.hostTasks = store.hostTasks
  cursors : store'.cursors = store.cursors
  acks : store'.acks = store.acks
  taskTurns : store'.taskTurns = store.taskTurns

/-- Nothing stands in the way of a first reply: the task waits for its recipient, somebody has asked for
it, the identifier of the reply is new, and the claim, if there is one, holds its row. -/
structure Repliable (env : Env) (sender requestId : String) (claim : Option TaskClaim)
    (store : Store) : Prop where
  waits : ∃ task, store.interactions[requestId]? = some task ∧ task.kind = .task ∧
    task.targetSessionIds = [sender] ∧ task.status = .awaitingReply ∧
    (task.senderSessionId = none → (store.hostTasks[requestId]?).isSome)
  placed : ∃ delivery, store.deliveries[requestId]? = some delivery ∧
    delivery.operation = .followupTask
  unanswered : store.structuredReplies[requestId]? = none
  unwritten : store.deliveries[newId "int" (env.uuid 0)]? = none
  unplaced : ∀ row ∈ store.availability, row.interactionId ≠ newId "int" (env.uuid 0)
  held : ∀ given ∈ claim, store.Holds given

variable {env : Env} {sender requestId message : String} {status : ReplyStatus}
  {claim : Option TaskClaim} {store : Store} {Q : Replied → Store → Prop}
  {R : Failure → Store → Prop}

theorem wp_requireClaim {Q : Unit → Store → Prop} (hgo : Q () store)
    (hfail : ¬ (∀ given ∈ claim, store.Holds given) → ∀ e, R e store) :
    Wp (requireClaim claim) Q R store := by
  unfold requireClaim
  cases claim with
  | none => exact hgo
  | some claim =>
    have hfail' : ¬ store.Holds claim → ∀ e, R e store := fun hnot => hfail fun h => hnot (h claim rfl)
    rw [wp_bind]
    refine wp_ownsClaim (fun owns howns => wp_failIf_of (fun hbad => hfail' (fun h => ?_) _) fun _ => hgo)
      hfail'
    rw [howns h] at hbad
    cases hbad

/-- A reply leaves every held row held. -/
theorem RepliedNew.holds {store' : Store} {task : InteractionRecord} {delivery : Delivery}
    {given : TaskClaim} (hrepd : RepliedNew env sender requestId status message store store' task delivery)
    (h : Repliable env sender requestId claim store) (hheld : store.Holds given) :
    store'.Holds given := by
  obtain ⟨hgen, held, hrow, hby⟩ := hheld
  refine ⟨hgen, held, ?_, hby⟩
  rw [hrepd.deliveries]
  split
  · exact hrow
  · rw [Table.lookup_insert, if_neg, hrow]
    intro heq
    rw [← heq, h.unwritten] at hrow
    cases hrow

/-- The tables once the claim of a startup failure is finished. -/
def ClaimClosed (claim : Option TaskClaim) (store store' : Store) : Prop :=
  match claim with
  | none => store' = store
  | some claim => ∃ delivery, store.deliveries[claim.record.id]? = some delivery ∧
      delivery.heldBy claim.token claim.generation = true ∧
      store' = store.withDelivery claim.record.id (delivery.finished .failedBeforeSubmit)

variable {task : InteractionRecord}

theorem wp_replyDuplicate {previous : StructuredReply} (htask : store.interactions[requestId]? = some task)
    (hkind : task.kind = .task) (htgt : task.targetSessionIds = [sender])
    (hprev : store.structuredReplies[requestId]? = some previous)
    (hdup : ∀ replied, RepliedBefore sender requestId status message store replied → Q replied store)
    (hfail : ∀ e, R e store) :
    Wp (replyDuplicate sender requestId status message task previous) Q R store := by
  unfold replyDuplicate
  rw [wp_bind]
  refine wp_failIf (hfail _) fun hsame => ?_
  obtain ⟨hstat, hbody⟩ := Bool.or_eq_false_iff.1 hsame
  rw [wp_bind, wp_get]
  split
  · exact hfail _
  · rename_i id hid
    rw [wp_bind]
    refine wp_load (fun record hrec => ?_) fun _ => hfail _
    exact hdup _ ⟨htask, hkind, htgt,
      ⟨previous, hprev, by simpa using hstat, by simpa using hbody⟩, ⟨id, hid, hrec⟩, rfl⟩

theorem wp_writeReply {delivery : Delivery} (htask : store.interactions[requestId]? = some task)
    (hkind : task.kind = .task) (htgt : task.targetSessionIds = [sender])
    (hdel : store.deliveries[requestId]? = some delivery)
    (hop : delivery.operation = .followupTask)
    (hunans : store.structuredReplies[requestId]? = none)
    (hnew : ∀ replied store' store'', RepliedNew env sender requestId status message store store'
        task delivery → ClaimClosed claim store' store'' →
      replied.record = replyRecord env sender requestId message task.senderSessionId →
      replied.duplicate = false → Q replied store'')
    (hfail : ¬ Repliable env sender requestId claim store → ∀ e store', R e store') :
    Wp (writeReply env sender requestId status message claim task delivery) Q R store := by
  have hwaits : Repliable env sender requestId claim store → task.status = .awaitingReply ∧
      (task.senderSessionId = none → (store.hostTasks[requestId]?).isSome) := fun h => by
    obtain ⟨found, hfnd, -, -, hboth⟩ := h.waits
    rw [htask] at hfnd
    exact Option.some.inj hfnd ▸ hboth
  have hclose : ∀ store' replied, RepliedNew env sender requestId status message store store' task
        delivery →
      replied.record = replyRecord env sender requestId message task.senderSessionId →
      replied.duplicate = false →
      Wp (match claim with
        | none => (return replied : MessagingM Replied)
        | some claim => do
            finishClaim claim .failedBeforeSubmit
            return replied) Q R store' := by
    intro store' replied hrepd hrec hdup
    cases claim with
    | none => exact hnew replied store' store' hrepd rfl hrec hdup
    | some claim =>
      rw [wp_bind]
      refine wp_finishClaim (fun delivery hheld hgrd _ => ?_) fun hnot e => hfail (fun h => ?_) e _
      · exact hnew replied store' _ hrepd ⟨delivery, hheld, hgrd, rfl⟩ hrec hdup
      · exact hnot ⟨rfl, hrepd.holds h (h.held claim rfl)⟩
  unfold writeReply hostAutomationProvenance upsertInteractionRecord upsertStructuredReply
  rw [wp_bind]
  refine wp_failIf_of (fun hbad => hfail (fun h => ?_) _ _) fun hwait => ?_
  · simp [(hwaits h).1] at hbad
  have hstat : task.status = .awaitingReply := by simpa using hwait
  rw [wp_bind, wp_bind, wp_get, wp_pure, wp_bind]
  have horig : (task.senderSessionId.isNone && (store.hostTasks[requestId]?).isNone) = false ↔
      (task.senderSessionId = none → (store.hostTasks[requestId]?).isSome) := by
    cases task.senderSessionId <;> cases store.hostTasks[requestId]? <;> simp
  refine wp_failIf_of (fun hbad => hfail (fun h => ?_) _ _) fun hasked => ?_
  · rw [horig.2 (hwaits h).2] at hbad
    cases hbad
  have hhost := horig.1 hasked
  rw [wp_bind, wp_modify, wp_bind, wp_modify, wp_bind, wp_modify,
    wp_bind]
  unfold deliverReply
  cases hsndr : task.senderSessionId with
  | none =>
    refine hclose _ _ ⟨htask, hkind, htgt, hstat, hhost, hdel, hop, hunans,
      ?_, rfl, ?_, ?_, ?_, ?_, rfl, rfl, rfl, rfl⟩ ?_ rfl
    · rw [hsndr]
      rfl
    · rw [hsndr]
    · intro hsome
      rw [hsndr] at hsome
      cases hsome
    · rw [hsndr]
    · rw [hsndr]
    · rw [hsndr]
  | some recipient =>
    dsimp only
    rw [wp_bind]
    refine wp_insertDelivery (fun hfrs => ?_) fun hbad e => hfail (fun h => ?_) e _
    · refine wp_makeAvailable ?_ fun hbad e => hfail (fun h => ?_) e _
      · refine hclose _ _ ⟨htask, hkind, htgt, hstat, hhost, hdel, hop, hunans,
          ?_, rfl, ?_, fun _ => hfrs, ?_, ?_, rfl, rfl, rfl, rfl⟩ ?_ rfl
        · rw [hsndr]
          rfl
        · rw [hsndr]
          rfl
        · rw [hsndr]
        · rw [hsndr]
        · rw [hsndr]
      · obtain ⟨row, hrow, hsame⟩ := hbad
        exact h.unplaced row hrow hsame
    · rcases hbad with hlarge | hold
      · exact absurd hlarge (Nat.not_lt_zero _)
      · rw [show (replyDelivery env sender recipient delivery).interactionId = newId "int" (env.uuid 0)
          from rfl, h.unwritten] at hold
        cases hold

/-- A reply is written for an open task, or the one that is there is found. -/
theorem wp_replyInTransaction
    (hdup : ∀ replied, RepliedBefore sender requestId status message store replied → Q replied store)
    (hnew : ∀ replied store' store'' task delivery,
      RepliedNew env sender requestId status message store store' task delivery →
      ClaimClosed claim store' store'' →
      replied.record = replyRecord env sender requestId message task.senderSessionId →
      replied.duplicate = false → Q replied store'')
    (hfail : ¬ Repliable env sender requestId claim store → ∀ e store', R e store') :
    Wp (replyInTransaction env sender requestId status message claim) Q R store := by
  unfold replyInTransaction
  rw [wp_bind]
  refine wp_requireClaim ?_ fun hnot e => hfail (fun h => hnot h.held) e _
  rw [wp_bind]
  refine wp_load (fun task htask => ?_) fun hnone => hfail (fun h => ?_) _ _
  rotate_left
  · obtain ⟨found, hfnd, -⟩ := h.waits
    rw [hnone] at hfnd
    cases hfnd
  rw [wp_bind]
  refine wp_failIf_of (fun hbad => hfail (fun h => ?_) _ _) fun hauthd => ?_
  · obtain ⟨found, hfnd, hkind, htgt, -⟩ := h.waits
    obtain rfl := Option.some.inj (htask.symm.trans hfnd)
    simp [hkind, htgt] at hbad
  have hboth : task.kind = .task ∧ task.targetSessionIds = [sender] := by
    simpa using hauthd
  obtain ⟨hkind, htgt⟩ := hboth
  rw [wp_bind, wp_get]
  split
  · rename_i hnone
    refine hfail (fun h => ?_) _ _
    obtain ⟨delivery, hrow, hop⟩ := h.placed
    rw [hrow, Option.filter_some_pos (by simpa using hop)] at hnone
    cases hnone
  · rename_i delivery hdel
    obtain ⟨hrow, hop⟩ := Option.filter_eq_some_iff.1 hdel
    split
    · rename_i previous hprev
      refine wp_replyDuplicate htask hkind htgt hprev hdup fun e => hfail (fun h => ?_) e _
      rw [h.unanswered] at hprev
      cases hprev
    · rename_i hunans
      exact wp_writeReply htask hkind htgt hrow (by simpa using hop) hunans
        (fun replied store' store'' hrepd => hnew replied store' store'' task delivery hrepd)
        hfail

/-- Every reply is checked first, and happens whole or not at all. -/
theorem wp_replyWithClaim
    (hdup : ∀ replied, RepliedBefore sender requestId status message store replied → Q replied store)
    (hnew : ∀ replied store' store'' task delivery, ValidMessage message →
      RepliedNew env sender requestId status message store store' task delivery →
      ClaimClosed claim store' store'' →
      replied.record = replyRecord env sender requestId message task.senderSessionId →
      replied.duplicate = false → Q replied store'')
    (hfail : ¬ (ValidMessage message ∧ Repliable env sender requestId claim store) →
      ∀ e, R e store) :
    Wp (replyWithClaim env sender requestId status message claim) Q R store := by
  unfold replyWithClaim
  rw [wp_bind]
  refine wp_validateMessage (fun hval => wp_transaction ?_) fun e hinv =>
    hfail (fun h => hinv h.1) e
  exact wp_replyInTransaction hdup
    (fun replied store' store'' task delivery => hnew replied store' store'' task delivery hval)
    fun hnot e _ => hfail (fun h => hnot h.2) e

end Wardian.Messaging
