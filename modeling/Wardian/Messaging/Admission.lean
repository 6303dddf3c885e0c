/-
Admitting messages and tasks.

An admission writes the interaction, its delivery row and its place in the recipient's stream in one
transaction.  An idempotency key that the sender used before for the same operation returns the
earlier admission, if target and body are the same.

Main results:

* `Messaging.isAdmission_admitWithMetadata` — an admission adds its rows under a new identifier, or
  changes nothing;
* `Messaging.isAdmission_admitRequest`, `Messaging.isAdmission_admitWithWakeOnAdmission`,
  `Messaging.isAdmission_admitWithRequesterOrigin`, `Messaging.isAdmission_admitHostAutomationTask`,
  `Messaging.isAdmission_admitHostAutomationMessage` — and so does every caller.
-/

import Wardian.Messaging.Store

set_option autoImplicit false

namespace Wardian.Messaging

open Prog (Wp wp_bind wp_get wp_ite wp_modify wp_mono wp_pure)

/-- Who delivers at present, as the sender is told. -/
inductive TaskDeliveryOwner
  | unclaimed
  | receiver
  | scheduler
deriving DecidableEq

def deliveryOwner : Owner → TaskDeliveryOwner
  | .pending => .unclaimed
  | .receiverAvailable | .stored => .receiver
  | _ => .scheduler

structure Admission where
  sender : String
  recipient : String
  message : String
  idempotencyKey : Option String
  task : Bool
  generation : Nat

structure Admitted where
  record : InteractionRecord
  owner : TaskDeliveryOwner
  duplicate : Bool
  deliveryState : Owner
deriving DecidableEq

/-! ### Checks -/

def validateMessage (message : String) : MessagingM Unit :=
  failIf (Text.isBlank message || maxMessageBytes < message.utf8ByteSize) "invalid_message"
    "Message must contain text and be at most 64 KiB."

/-- What a message must be to be admitted or to reply with. -/
def ValidMessage (message : String) : Prop :=
  Text.isBlank message = false ∧ message.utf8ByteSize ≤ maxMessageBytes

/-- An origin names a provider and a conversation, with a positive generation that fits a column. -/
def Origin.isInvalid (origin : Origin) : Bool :=
  Text.isBlank origin.provider || Text.isBlank origin.conversationId || origin.generation = 0 ||
    maxSqlInteger < origin.generation

def validateRequesterOrigin (origin : Origin) : MessagingM Unit :=
  failIf origin.isInvalid "invalid_requester_origin"
    "Requester origin requires a provider, durable conversation ID, and positive generation."

def validateRecipientOrigin (origin : Origin) : MessagingM Unit :=
  failIf origin.isInvalid "invalid_recipient_origin"
    "Recipient origin requires a provider, durable conversation ID, and positive generation."

def validateOptional (validate : Origin → MessagingM Unit) : Option Origin → MessagingM Unit
  | none => return
  | some origin => validate origin

def verifyHostProvenance (id : String) (expected : HostAutomationProvenance) :
    MessagingM Unit := do
  let provenance ← hostAutomationProvenance id
  failIf (provenance ≠ some expected) "invalid_host_provenance"
    "Stored admission has different or missing host provenance."

/-- A host's admission is only found by the host that made it. -/
def verifyOptionalHost (id : String) : Option HostAutomationProvenance → MessagingM Unit
  | none => return
  | some provenance => verifyHostProvenance id provenance

/-! ### Admission -/

variable (sha256 : String → String)

/-- The hash of the JSON text of the recipient and the message. -/
def admissionFingerprint (recipient message : String) : String :=
  sha256 ("[" ++ JsonText.quote recipient ++ "," ++ JsonText.quote message ++ "]")

/-- The row that a sender's key was used for. -/
def Store.findKey (store : Store) (sender : String) (operation : Operation) (key : String) :
    Option Delivery :=
  (store.deliveries.toList.map Prod.snd).find? fun delivery =>
    delivery.sender = sender ∧ delivery.operation = operation ∧
      delivery.idempotencyKey = some key

def Admission.operation (request : Admission) : Operation :=
  if request.task then .followupTask else .sendMessage

/-- Answer with the earlier admission under the same key, if it is the same request. -/
def admitDuplicate (request : Admission) (host : Option HostAutomationProvenance)
    (existing : Delivery) : MessagingM Admitted := do
  failIf (existing.fingerprint ≠ admissionFingerprint sha256 request.recipient request.message)
    "idempotency_conflict" "Key already admitted a different target or body."
  verifyOptionalHost existing.interactionId host
  let record ← load existing.interactionId
  return ⟨record, deliveryOwner existing.owner, true, existing.owner⟩

/-- The record of a new admission. -/
def admissionRecord (env : Env) (request : Admission) (host : Option HostAutomationProvenance) :
    InteractionRecord where
  id := newId (if request.task then "ask" else "int") (env.uuid 0)
  kind := if request.task then .task else .message
  senderSessionId := if host.isNone then some request.sender else none
  targetSessionIds := [request.recipient]
  status := if request.task then .awaitingReply else .queued
  triggerPolicy := if request.task then .replyRequired else .notifyOnly
  bodyRef := .inline request.message
  parentInteractionId := none
  createdAt := env.now
  updatedAt := env.now
  completedAt := none

/-- The delivery row of a new admission. -/
def admissionDelivery (env : Env) (request : Admission) (host : Option HostAutomationProvenance)
    (requesterOrigin recipientOrigin : Option Origin) (wakeOnAdmission : Bool) : Delivery where
  interactionId := (admissionRecord env request host).id
  sender := request.sender
  recipient := request.recipient
  operation := request.operation
  idempotencyKey := request.idempotencyKey
  fingerprint := admissionFingerprint sha256 request.recipient request.message
  owner := if request.task then .pending else .stored
  generation := request.generation
  claimToken := none
  requester := requesterOrigin
  continuationState := none
  wakeOnAdmission := wakeOnAdmission
  recipientOrigin := recipientOrigin

def insertHostTask (id : String) : Option HostAutomationProvenance → MessagingM Unit
  | none => return
  | some provenance => do
      let store ← Prog.get
      if store.hostTasks.contains id then
        failure "storage_error" "UNIQUE constraint failed: agent_message_host_tasks.interaction_id"
      else
        Prog.modify fun store => { store with hostTasks := store.hostTasks.insert id provenance }

def admitNew (env : Env) (request : Admission) (host : Option HostAutomationProvenance)
    (requesterOrigin recipientOrigin : Option Origin) (wakeOnAdmission : Bool) :
    MessagingM Admitted := do
  let record := admissionRecord env request host
  let delivery :=
    admissionDelivery sha256 env request host requesterOrigin recipientOrigin wakeOnAdmission
  upsertInteractionRecord record
  insertDelivery delivery
  insertHostTask record.id host
  makeAvailable request.recipient record.id
  return ⟨record, deliveryOwner delivery.owner, false, delivery.owner⟩

def admitWithMetadata (env : Env) (request : Admission) (host : Option HostAutomationProvenance)
    (requesterOrigin recipientOrigin : Option Origin) (wakeOnAdmission : Bool) :
    MessagingM Admitted := do
  validateMessage request.message
  failIf (request.idempotencyKey.any fun key => key = "" ∨ 256 < key.utf8ByteSize)
    "invalid_idempotency_key" "Key must contain 1 to 256 bytes."
  failIf (requesterOrigin.isSome && (!request.task || host.isSome)) "invalid_requester_origin"
    "Only managed followup tasks can carry requester origin."
  validateOptional validateRequesterOrigin requesterOrigin
  validateOptional validateRecipientOrigin recipientOrigin
  failIf (wakeOnAdmission && (request.task || host.isSome)) "invalid_wake_policy"
    "Wake-on-admission is limited to managed informational messages."
  failIf (recipientOrigin.isSome && !wakeOnAdmission) "invalid_recipient_origin"
    "Recipient origin requires wake-on-admission eligibility."
  transaction do
    let store ← Prog.get
    match request.idempotencyKey.bind (store.findKey request.sender request.operation) with
    | some existing => admitDuplicate sha256 request host existing
    | none =>
      admitNew sha256 env request host requesterOrigin recipientOrigin wakeOnAdmission

/-- `admit` of the source. -/
def admitRequest (env : Env) (request : Admission) : MessagingM Admitted :=
  admitWithMetadata sha256 env request none none none false

def admitWithWakeOnAdmission (env : Env) (request : Admission) (recipientOrigin : Option Origin) :
    MessagingM Admitted := do
  failIf request.task "invalid_wake_policy"
    "Only informational messages can carry wake-on-admission eligibility."
  validateOptional validateRecipientOrigin recipientOrigin
  admitWithMetadata sha256 env request none none recipientOrigin true

def admitWithRequesterOrigin (env : Env) (request : Admission) (origin : Option Origin) :
    MessagingM Admitted := do
  failIf (!request.task && origin.isSome) "invalid_requester_origin"
    "Requester origin can only bind a followup task."
  validateOptional validateRequesterOrigin origin
  admitWithMetadata sha256 env request none origin none false

def hostSender (runId : String) : String := "host:automation:" ++ runId

def checkHostProvenance (runId node : String) : MessagingM Unit :=
  failIf (Text.isBlank runId || Text.isBlank node) "invalid_host_provenance"
    "Automation run and node are required."

def admitHostAutomationTask (env : Env) (runId node recipient message : String)
    (generation : Nat) : MessagingM Admitted := do
  checkHostProvenance runId node
  admitWithMetadata sha256 env ⟨hostSender runId, recipient, message, none, true, generation⟩
    (some ⟨runId, node⟩) none none false

def hostAutomationMessageKey (node : String) : String := "message_send:v1:" ++ sha256 node

/-- The evidence that a host message was admitted; it only reads. -/
def reconcileHostAutomationMessage (runId node : String) (expected : Option (String × String)) :
    MessagingM (Option Admitted) := do
  let store ← Prog.get
  match store.findKey (hostSender runId) .sendMessage (hostAutomationMessageKey sha256 node) with
  | none => return none
  | some delivery => do
      verifyHostProvenance delivery.interactionId ⟨runId, node⟩
      failIf (expected.any fun pair =>
          delivery.fingerprint ≠ admissionFingerprint sha256 pair.1 pair.2)
        "idempotency_conflict" "Key already admitted a different target or body."
      let record ← load delivery.interactionId
      return some ⟨record, deliveryOwner delivery.owner, true, delivery.owner⟩

/-- Run `m`, and `recover` on its failure. -/
def orElse {α : Type} (m : MessagingM α) (recover : Failure → MessagingM α) : MessagingM α :=
  fun s =>
    match m s with
    | (.ok a, s') => (.ok a, s')
    | (.error e, s') => recover e s'

def admitHostAutomationMessage (env : Env) (runId node recipient message : String)
    (generation : Nat) : MessagingM Admitted := do
  checkHostProvenance runId node
  orElse
    (admitWithMetadata sha256 env
      ⟨hostSender runId, recipient, message, some (hostAutomationMessageKey sha256 node), false,
        generation⟩
      (some ⟨runId, node⟩) none none false)
    fun error => do
      let reconciled ← reconcileHostAutomationMessage sha256 runId node (some (recipient, message))
      match reconciled with
      | some admitted => return admitted
      | none => Prog.fail error

/-! ### What an admission does -/

/-- A new admission of `request` has happened: its record, its delivery row, its provenance and its
place in the stream were added under an identifier that had no delivery row. -/
structure AdmittedNew (env : Env) (request : Admission) (host : Option HostAutomationProvenance)
    (store store' : Store) : Prop where
  message : ValidMessage request.message
  interactions : store'.interactions =
    store.interactions.insert (admissionRecord env request host).id
      (admissionRecord env request host)
  fresh : store.deliveries[(admissionRecord env request host).id]? = none
  deliveries : ∃ delivery : Delivery, delivery.interactionId = (admissionRecord env request host).id ∧
    delivery.sender = request.sender ∧ delivery.recipient = request.recipient ∧
    delivery.operation = request.operation ∧
    delivery.owner = (if request.task then .pending else .stored) ∧ delivery.claimToken = none ∧
    delivery.continuationState = none ∧
    store'.deliveries = store.deliveries.insert (admissionRecord env request host).id delivery
  availability : store'.availability = store.availability ++
    [⟨store.lastSequence + 1, request.recipient, (admissionRecord env request host).id⟩]
  lastSequence : store'.lastSequence = store.lastSequence + 1
  hostTasks : store'.hostTasks = match host with
    | none => store.hostTasks
    | some provenance => store.hostTasks.insert (admissionRecord env request host).id provenance
  structuredReplies : store'.structuredReplies = store.structuredReplies
  cursors : store'.cursors = store.cursors
  acks : store'.acks = store.acks
  taskTurns : store'.taskTurns = store.taskTurns

/-- The row that the key of an admission was used for. -/
def Store.findAdmission (store : Store) (request : Admission) : Option Delivery :=
  request.idempotencyKey.bind (store.findKey request.sender request.operation)

/-- What an admission must be in itself, whatever its key was used for. -/
structure ValidAdmission (request : Admission) (host : Option HostAutomationProvenance)
    (requesterOrigin recipientOrigin : Option Origin) (wakeOnAdmission : Bool) : Prop where
  message : ValidMessage request.message
  key : ∀ key ∈ request.idempotencyKey, key ≠ "" ∧ key.utf8ByteSize ≤ 256
  requester : requesterOrigin.isSome = true → request.task = true ∧ host = none
  requesterSound : ∀ origin ∈ requesterOrigin, origin.isInvalid = false
  recipientSound : ∀ origin ∈ recipientOrigin, origin.isInvalid = false
  wake : wakeOnAdmission = true → request.task = false ∧ host = none
  recipient : recipientOrigin.isSome = true → wakeOnAdmission = true

/-- The request of a row is asked for again, by the same host if by a host. -/
structure AdmittedBefore (request : Admission) (host : Option HostAutomationProvenance)
    (store : Store) (existing : Delivery) (admitted : Admitted) : Prop where
  fingerprint : existing.fingerprint = admissionFingerprint sha256 request.recipient request.message
  provenance : ∀ provenance ∈ host, store.hostTasks[existing.interactionId]? = some provenance
  record : store.interactions[existing.interactionId]? = some admitted.record
  duplicate : admitted.duplicate = true

/-- Why an admission is refused whose key a row was admitted with. -/
inductive KeyRefused (request : Admission) (host : Option HostAutomationProvenance)
    (store : Store) (existing : Delivery) (e : Failure) : Prop
  | conflict (hcode : e.code = "idempotency_conflict")
      (hoth : existing.fingerprint ≠
        admissionFingerprint sha256 request.recipient request.message)
  | provenance (hcode : e.code = "invalid_host_provenance") {provenance : HostAutomationProvenance}
      (hhost : host = some provenance)
      (hoth : store.hostTasks[existing.interactionId]? ≠ some provenance)
  | missing (hmiss : store.interactions[existing.interactionId]? = none)

/-- What an admission answers and does.  `valid` says that the admission is valid in itself. -/
inductive Admits (env : Env) (request : Admission) (host : Option HostAutomationProvenance)
    (valid : Prop) (store : Store) : Except Failure Admitted → Store → Prop
  | refused {e : Failure} (hrfsd : valid → ∀ existing, store.findAdmission request = some existing →
      KeyRefused sha256 request host store existing e) :
      Admits env request host valid store (.error e) store
  | before {existing : Delivery} {admitted : Admitted}
      (hfnd : store.findAdmission request = some existing)
      (hbef : AdmittedBefore sha256 request host store existing admitted) :
      Admits env request host valid store (.ok admitted) store
  | new {admitted : Admitted} {store' : Store} {requesterOrigin recipientOrigin : Option Origin}
      {wakeOnAdmission : Bool} (hunus : store.findAdmission request = none)
      (hrec : admitted.record = admissionRecord env request host)
      (hdup : admitted.duplicate = false)
      (hadm : AdmittedNew env request host store store')
      (hdels : store'.deliveries = store.deliveries.insert (admissionRecord env request host).id
        (admissionDelivery sha256 env request host requesterOrigin recipientOrigin
          wakeOnAdmission)) :
      Admits env request host valid store (.ok admitted) store'

/-- The program does what an admission does. -/
def IsAdmission (env : Env) (request : Admission) (host : Option HostAutomationProvenance)
    (valid : Prop) (store : Store) (m : MessagingM Admitted) : Prop :=
  Wp m (fun admitted store' => Admits sha256 env request host valid store (.ok admitted) store')
    (fun e store' => Admits sha256 env request host valid store (.error e) store') store

variable {sha256} {env : Env} {request : Admission} {host : Option HostAutomationProvenance}
  {valid : Prop} {store : Store} {Q : Admitted → Store → Prop} {R : Failure → Store → Prop}

/-- An admission that is not valid is refused, with whatever failure. -/
theorem Admits.invalid {e : Failure} (h : ¬ valid) :
    Admits sha256 env request host valid store (.error e) store :=
  .refused fun hval => absurd hval h

theorem IsAdmission.wp {m : MessagingM Admitted} (h : IsAdmission sha256 env request host valid store m)
    (hsame : ∀ admitted, Q admitted store)
    (hnew : ∀ admitted store', admitted.record = admissionRecord env request host →
      AdmittedNew env request host store store' → Q admitted store')
    (hfail : ∀ e, R e store) : Wp m Q R store := by
  refine wp_mono h (fun admitted store' hadms => ?_) fun e store' hadms => ?_
  · cases hadms with
    | before hfnd hbef => exact hsame admitted
    | new hunus hrec hdup hadm hdels =>
      exact hnew admitted store' hrec hadm
  · cases hadms with
    | refused hrfsd => exact hfail e

theorem wp_validateMessage {message : String} {Q : Unit → Store → Prop}
    (hgo : ValidMessage message → Q () store) (hfail : ∀ e, ¬ ValidMessage message → R e store) :
    Wp (validateMessage message) Q R store := by
  unfold validateMessage
  unfold ValidMessage at hgo hfail
  refine wp_failIf_of (fun hinv => hfail _ fun hval => ?_) fun hval => hgo ?_
  · rw [hval.1, Bool.false_or, decide_eq_true_iff] at hinv
    omega
  · obtain ⟨hblk, hlong⟩ := Bool.or_eq_false_iff.1 hval
    exact ⟨hblk, by simpa using hlong⟩

theorem wp_validateOptional {validate : Origin → MessagingM Unit} {origin : Option Origin}
    {Q : Unit → Store → Prop} (hgo : (∀ o ∈ origin, o.isInvalid = false) → Q () store)
    (hfail : ∀ e, ¬ (∀ o ∈ origin, o.isInvalid = false) → R e store)
    (hvali : ∀ o, ∃ code message, validate o = failIf o.isInvalid code message) :
    Wp (validateOptional validate origin) Q R store := by
  unfold validateOptional
  cases origin with
  | none => exact hgo fun o ho => by cases ho
  | some origin =>
    obtain ⟨code, message, hchk⟩ := hvali origin
    dsimp only
    rw [hchk]
    refine wp_failIf_of (fun htrue => hfail _ fun hall => ?_) fun hfls => hgo fun o ho => ?_
    · rw [hall origin rfl] at htrue
      cases htrue
    · obtain rfl := Option.some.inj ho
      exact hfls

theorem wp_verifyHostProvenance {id : String} {expected : HostAutomationProvenance} {Q : Unit → Store → Prop}
    (hgo : store.hostTasks[id]? = some expected → Q () store)
    (hfail : ∀ e, e.code = "invalid_host_provenance" → store.hostTasks[id]? ≠ some expected → R e store) :
    Wp (verifyHostProvenance id expected) Q R store := by
  unfold verifyHostProvenance hostAutomationProvenance
  rw [wp_bind, wp_bind, wp_get]
  refine wp_failIf_of (fun hoth => hfail _ rfl ?_) fun hsame => hgo ?_
  · exact of_decide_eq_true hoth
  · exact Decidable.not_not.1 (of_decide_eq_false hsame)

theorem wp_verifyOptionalHost {id : String} {Q : Unit → Store → Prop}
    (hgo : (∀ provenance ∈ host, store.hostTasks[id]? = some provenance) → Q () store)
    (hfail : ∀ e provenance, e.code = "invalid_host_provenance" → host = some provenance →
      store.hostTasks[id]? ≠ some provenance → R e store) :
    Wp (verifyOptionalHost id host) Q R store := by
  unfold verifyOptionalHost
  cases host with
  | none => exact hgo fun provenance hmem => by cases hmem
  | some provenance =>
    refine wp_verifyHostProvenance (fun hsame => hgo fun other hoth => ?_)
      fun e hcode hoth => hfail e provenance hcode rfl hoth
    obtain rfl := Option.some.inj hoth
    exact hsame

theorem wp_admitDuplicate {existing : Delivery}
    (hsame : ∀ admitted, AdmittedBefore sha256 request host store existing admitted → Q admitted store)
    (hfail : ∀ e, KeyRefused sha256 request host store existing e → R e store) :
    Wp (admitDuplicate sha256 request host existing) Q R store := by
  unfold admitDuplicate
  rw [wp_bind]
  refine wp_failIf_of (fun hoth => ?_) fun hfp => ?_
  · exact hfail _ (.conflict rfl (of_decide_eq_true hoth))
  rw [wp_bind]
  refine wp_verifyOptionalHost (fun hprov => ?_) fun e provenance hcode hhost hoth =>
    hfail e (.provenance hcode hhost hoth)
  rw [wp_bind]
  refine wp_load (fun record hrec => ?_) fun hmiss => hfail _ (.missing hmiss)
  exact hsame _ ⟨Decidable.not_not.1 (of_decide_eq_false hfp), hprov, hrec, rfl⟩

variable {recipientOrigin requesterOrigin : Option Origin}

theorem wp_admitNew {wakeOnAdmission : Bool} (hmsg : ValidMessage request.message)
    (hnew : ∀ admitted store', admitted.record = admissionRecord env request host →
      admitted.duplicate = false → AdmittedNew env request host store store' →
      store'.deliveries = store.deliveries.insert (admissionRecord env request host).id
        (admissionDelivery sha256 env request host requesterOrigin recipientOrigin
          wakeOnAdmission) → Q admitted store') (hfail : ∀ e store', R e store') :
    Wp (admitNew sha256 env request host requesterOrigin recipientOrigin wakeOnAdmission) Q R
      store := by
  unfold admitNew upsertInteractionRecord
  rw [wp_bind, wp_modify, wp_bind]
  refine wp_insertDelivery (fun hfrs => ?_) fun _ e => hfail e _
  rw [wp_bind]
  unfold insertHostTask
  cases host with
  | none =>
    dsimp only
    rw [wp_pure, wp_bind]
    refine wp_makeAvailable ?_ fun _ e => hfail e _
    exact hnew _ _ rfl rfl ⟨hmsg, rfl, hfrs, ⟨_, rfl, rfl, rfl, rfl, rfl, rfl, rfl, rfl⟩,
      rfl, rfl, rfl, rfl, rfl, rfl, rfl⟩ rfl
  | some provenance =>
    dsimp only
    rw [wp_bind, wp_get]
    refine wp_ite (fun _ => hfail _ _) fun _ => ?_
    rw [wp_modify, wp_bind]
    refine wp_makeAvailable ?_ fun _ e => hfail e _
    exact hnew _ _ rfl rfl ⟨hmsg, rfl, hfrs, ⟨_, rfl, rfl, rfl, rfl, rfl, rfl, rfl, rfl⟩,
      rfl, rfl, rfl, rfl, rfl, rfl, rfl⟩ rfl

theorem isAdmission_admitWithMetadata {wakeOnAdmission : Bool} :
    IsAdmission sha256 env request host
      (ValidAdmission request host requesterOrigin recipientOrigin wakeOnAdmission) store
      (admitWithMetadata sha256 env request host requesterOrigin recipientOrigin
        wakeOnAdmission) := by
  unfold IsAdmission admitWithMetadata
  rw [wp_bind]
  refine wp_validateMessage (fun hmsg => ?_) fun e h => .invalid fun hval => h hval.message
  rw [wp_bind]
  refine wp_failIf_of (fun hkey => .invalid fun hval => ?_) fun _ => ?_
  · obtain ⟨key, hsome, hbad⟩ := (Option.any_eq_true _ _).1 hkey
    obtain ⟨hemp, hlong⟩ := hval.key key hsome
    exact (of_decide_eq_true hbad).elim hemp (Nat.not_lt.2 hlong)
  rw [wp_bind]
  refine wp_failIf_of (fun hbad => .invalid fun hval => ?_) fun _ => ?_
  · obtain ⟨hsome, hbad⟩ := Bool.and_eq_true_iff.1 hbad
    obtain ⟨htask, rfl⟩ := hval.requester hsome
    simp [htask] at hbad
  rw [wp_bind]
  refine wp_validateOptional (fun _ => ?_) (fun e h => .invalid fun hval => h hval.requesterSound)
    fun o => ⟨_, _, rfl⟩
  rw [wp_bind]
  refine wp_validateOptional (fun _ => ?_) (fun e h => .invalid fun hval => h hval.recipientSound)
    fun o => ⟨_, _, rfl⟩
  rw [wp_bind]
  refine wp_failIf_of (fun hbad => .invalid fun hval => ?_) fun _ => ?_
  · obtain ⟨hwake, hbad⟩ := Bool.and_eq_true_iff.1 hbad
    obtain ⟨htask, rfl⟩ := hval.wake hwake
    simp [htask] at hbad
  rw [wp_bind]
  refine wp_failIf_of (fun hbad => .invalid fun hval => ?_) fun _ => wp_transaction ?_
  · obtain ⟨hsome, hbad⟩ := Bool.and_eq_true_iff.1 hbad
    rw [hval.recipient hsome] at hbad
    cases hbad
  rw [wp_bind, wp_get]
  split
  · rename_i existing hfnd
    refine wp_admitDuplicate (fun admitted hbef => .before hfnd hbef) fun e hrfsd => ?_
    refine .refused fun _ other hoth => ?_
    obtain rfl := Option.some.inj (hfnd.symm.trans hoth)
    exact hrfsd
  · rename_i hunus
    refine wp_admitNew hmsg (fun admitted store' hrec hdup hadm hdels =>
      .new hunus hrec hdup hadm hdels) fun e _ => ?_
    exact .refused fun _ existing hfnd => by
      rw [show store.findAdmission request = none from hunus] at hfnd
      cases hfnd

theorem wp_orElse {α : Type} {m : MessagingM α} {recover : Failure → MessagingM α} {Q : α → Store → Prop}
    (h : Wp m Q (fun e store' => Wp (recover e) Q R store') store) :
    Wp (orElse m recover) Q R store := by
  unfold Wp at h ⊢
  unfold orElse
  rcases hm : m store with ⟨e | a, store'⟩ <;> rw [hm] at h <;> exact h

/-- The admission of a host's task. -/
def hostTask (runId recipient message : String) (generation : Nat) : Admission :=
  ⟨hostSender runId, recipient, message, none, true, generation⟩

/-- The admission of a host's message; its key is made from the node. -/
def hostMessage (sha256 : String → String) (runId node recipient message : String)
    (generation : Nat) : Admission :=
  ⟨hostSender runId, recipient, message, some (hostAutomationMessageKey sha256 node), false,
    generation⟩

/-- A run and a node that a host can be known by. -/
def ValidHost (runId node : String) : Prop :=
  Text.isBlank runId = false ∧ Text.isBlank node = false

theorem wp_checkHostProvenance {runId node : String} {Q : Unit → Store → Prop} (hgo : Q () store)
    (hfail : ∀ e, ¬ ValidHost runId node → R e store) :
    Wp (checkHostProvenance runId node) Q R store := by
  unfold checkHostProvenance
  refine wp_failIf_of (fun hblk => hfail _ fun hval => ?_) fun _ => hgo
  rw [hval.1, hval.2] at hblk
  cases hblk

section

variable {runId node recipient message : String} {generation : Nat}

theorem wp_reconcileHostAutomationMessage {Q : Option Admitted → Store → Prop}
    (hnone : store.findAdmission (hostMessage sha256 runId node recipient message generation) = none →
      Q none store)
    (hsame : ∀ existing admitted,
      store.findAdmission (hostMessage sha256 runId node recipient message generation) =
        some existing →
      AdmittedBefore sha256 (hostMessage sha256 runId node recipient message generation)
        (some ⟨runId, node⟩) store existing admitted → Q (some admitted) store)
    (hfail : ∀ existing e,
      store.findAdmission (hostMessage sha256 runId node recipient message generation) =
        some existing →
      KeyRefused sha256 (hostMessage sha256 runId node recipient message generation)
        (some ⟨runId, node⟩) store existing e → R e store) :
    Wp (reconcileHostAutomationMessage sha256 runId node (some (recipient, message))) Q R
      store := by
  unfold reconcileHostAutomationMessage
  rw [wp_bind, wp_get]
  split
  · exact hnone ‹_›
  · rename_i existing hfnd
    rw [wp_bind]
    refine wp_verifyHostProvenance (fun hprov => ?_) fun e hcode hoth =>
      hfail existing e hfnd (.provenance hcode rfl hoth)
    rw [wp_bind]
    refine wp_failIf_of (fun hoth => ?_) fun hfp => ?_
    · exact hfail existing _ hfnd (.conflict rfl (of_decide_eq_true hoth))
    rw [wp_bind]
    refine wp_load (fun record hrec => ?_) fun hmiss => hfail existing _ hfnd (.missing hmiss)
    refine hsame existing _ hfnd ⟨Decidable.not_not.1 (of_decide_eq_false hfp),
      fun provenance hmem => ?_, hrec, rfl⟩
    obtain rfl := Option.some.inj hmem
    exact hprov

/-! ### Every admission -/

theorem isAdmission_admitRequest :
    IsAdmission sha256 env request none (ValidAdmission request none none none false) store
      (admitRequest sha256 env request) :=
  isAdmission_admitWithMetadata

variable {origin : Option Origin}

theorem isAdmission_admitWithWakeOnAdmission :
    IsAdmission sha256 env request none (ValidAdmission request none none origin true) store
      (admitWithWakeOnAdmission sha256 env request origin) := by
  unfold IsAdmission admitWithWakeOnAdmission
  rw [wp_bind]
  refine wp_failIf_of (fun htask => .invalid fun hval => ?_) fun _ => ?_
  · rw [(hval.wake rfl).1] at htask
    cases htask
  rw [wp_bind]
  refine wp_validateOptional (fun _ => ?_) (fun e h => .invalid fun hval => h hval.recipientSound)
    fun o => ⟨_, _, rfl⟩
  exact isAdmission_admitWithMetadata

theorem isAdmission_admitWithRequesterOrigin :
    IsAdmission sha256 env request none (ValidAdmission request none origin none false) store
      (admitWithRequesterOrigin sha256 env request origin) := by
  unfold IsAdmission admitWithRequesterOrigin
  rw [wp_bind]
  refine wp_failIf_of (fun hbad => .invalid fun hval => ?_) fun _ => ?_
  · obtain ⟨htask, hsome⟩ := Bool.and_eq_true_iff.1 hbad
    simp [(hval.requester hsome).1] at htask
  rw [wp_bind]
  refine wp_validateOptional (fun _ => ?_) (fun e h => .invalid fun hval => h hval.requesterSound)
    fun o => ⟨_, _, rfl⟩
  exact isAdmission_admitWithMetadata

/-- What the admission of a host's task must be in itself. -/
def ValidHostTask (runId node recipient message : String) (generation : Nat) : Prop :=
  ValidHost runId node ∧ ValidAdmission (hostTask runId recipient message generation)
    (some ⟨runId, node⟩) none none false

/-- What the admission of a host's message must be in itself. -/
def ValidHostMessage (sha256 : String → String) (runId node recipient message : String)
    (generation : Nat) : Prop :=
  ValidHost runId node ∧ ValidAdmission (hostMessage sha256 runId node recipient message generation)
    (some ⟨runId, node⟩) none none false

theorem isAdmission_admitHostAutomationTask :
    IsAdmission sha256 env (hostTask runId recipient message generation) (some ⟨runId, node⟩)
      (ValidHostTask runId node recipient message generation) store
      (admitHostAutomationTask sha256 env runId node recipient message generation) := by
  unfold IsAdmission admitHostAutomationTask
  rw [wp_bind]
  refine wp_checkHostProvenance ?_ fun e h => .invalid fun hval => h hval.1
  refine wp_mono isAdmission_admitWithMetadata (fun admitted store' hadms => ?_)
    fun e store' hadms => ?_
  · cases hadms with
    | before hfnd hbef => exact .before hfnd hbef
    | new hunus hrec hdup hadm hdels =>
      exact .new hunus hrec hdup hadm hdels
  · cases hadms with
    | refused hrfsd => exact .refused fun hval => hrfsd hval.2

theorem isAdmission_admitHostAutomationMessage :
    IsAdmission sha256 env (hostMessage sha256 runId node recipient message generation)
      (some ⟨runId, node⟩) (ValidHostMessage sha256 runId node recipient message generation) store
      (admitHostAutomationMessage sha256 env runId node recipient message generation) := by
  unfold IsAdmission admitHostAutomationMessage
  rw [wp_bind]
  refine wp_checkHostProvenance ?_ fun e h => .invalid fun hval => h hval.1
  refine wp_orElse (wp_mono isAdmission_admitWithMetadata (fun admitted store' hadms => ?_)
    fun e store' hadms => ?_)
  · cases hadms with
    | before hfnd hbef => exact .before hfnd hbef
    | new hunus hrec hdup hadm hdels =>
      exact .new hunus hrec hdup hadm hdels
  · cases hadms with
    | refused hrfsd =>
      rw [wp_bind]
      refine wp_reconcileHostAutomationMessage
        (fun hnone : store.findAdmission
          (hostMessage sha256 runId node recipient message generation) = none => ?_)
        (fun existing admitted hfnd hbef => .before hfnd hbef)
        fun existing e hfnd hkey => ?_
      · exact .refused fun _ existing hfnd => by
          rw [hnone] at hfnd
          cases hfnd
      · refine .refused fun _ other hoth => ?_
        obtain rfl := Option.some.inj (hfnd.symm.trans hoth)
        exact hkey

end

end Wardian.Messaging
