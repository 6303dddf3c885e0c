/-
The transport status of a message.

Every attempt to deliver a message is written to the database, and its outcome becomes the status of the
message, in the database first and then in the copy that is kept in memory.  The outcome of the call alone
decides the status: the status that the message has is only compared with it for equality.

Main results:

* `run_agrees` — memory and database agree after every call;
* `delivered_stays_iff` — a delivered message stays delivered exactly where no late attempt is recorded.
-/

import Wardian.Messaging.Store

set_option autoImplicit false

namespace Wardian.Interactions

open List
open Messaging (InteractionStatus InteractionRecord)

/-! ### Records -/

inductive DeliveryTransportKind
  | liveSurface
  | headlessProcess
  | nativeProvider
  | providerHook
  | providerPlugin
  | localControl

structure DeliveryErrorDetail where
  code : String
  message : String

structure InteractionDeliveryAttemptRecord where
  id : String
  interactionId : String
  targetSessionId : String
  transport : DeliveryTransportKind
  generation : Nat
  runtimeState : String
  deliveryState : String
  deliveryPhase : Option String
  observedState : Option String
  reason : Option String
  error : Option DeliveryErrorDetail
  createdAt : String
  updatedAt : String

/-- Interactions, each of them under its own name. -/
structure RecordTable where
  entries : Table InteractionRecord
  keyed : ∀ (id : String) (record : InteractionRecord), entries[id]? = some record → record.id = id

theorem keyed_empty (id : String) (record : InteractionRecord)
    (h : (∅ : Table InteractionRecord)[id]? = some record) : record.id = id := by
  rw [Table.lookup_empty] at h
  cases h

theorem RecordTable.keyed_insert (table : RecordTable) (written : InteractionRecord) (id : String)
    (record : InteractionRecord) (h : (table.entries.insert written.id written)[id]? = some record) :
    record.id = id := by
  rw [Table.lookup_insert] at h
  split at h
  · rename_i hid
    rw [← Option.some.inj h, hid]
  · exact table.keyed id record h

def RecordTable.empty : RecordTable := ⟨∅, keyed_empty⟩

def RecordTable.get? (table : RecordTable) (id : String) : Option InteractionRecord :=
  table.entries[id]?

def RecordTable.put (table : RecordTable) (record : InteractionRecord) : RecordTable :=
  ⟨table.entries.insert record.id record, table.keyed_insert record⟩

variable {table : RecordTable} {id : String} {record : InteractionRecord}

theorem RecordTable.id_of_get? (h : table.get? id = some record) : record.id = id :=
  table.keyed id record h

/-- A row is written; the time at which it was created stays. -/
def RecordTable.upsert (table : RecordTable) (record : InteractionRecord) : RecordTable :=
  match table.get? record.id with
  | some stored => table.put { record with createdAt := stored.createdAt }
  | none => table.put record

theorem RecordTable.get?_put (table : RecordTable) (record : InteractionRecord) (id : String) :
    (table.put record).get? id = if record.id = id then some record else table.get? id :=
  Table.lookup_insert table.entries record.id id record

/-- A row that changes a stored one, except for its creation, is stored as it is. -/
theorem RecordTable.upsert_eq_put {stored : InteractionRecord} (h : table.get? record.id = some stored)
    (hcrtd : record.createdAt = stored.createdAt) : table.upsert record = table.put record := by
  have hsame : { record with createdAt := stored.createdAt } = record := by rw [← hcrtd]
  rw [upsert, h]
  exact congrArg table.put hsame

/-! ### Recording an attempt -/

structure Ledger where
  records : RecordTable
  deletedSessions : List String
  storedRecords : RecordTable
  storedAttempts : Table InteractionDeliveryAttemptRecord

/-- What is kept after a start: the stored interactions. -/
def Ledger.loaded (storedRecords : RecordTable)
    (storedAttempts : Table InteractionDeliveryAttemptRecord) (deletedSessions : List String) : Ledger where
  records := storedRecords
  deletedSessions := deletedSessions
  storedRecords := storedRecords
  storedAttempts := storedAttempts

def upsertAttempt (table : Table InteractionDeliveryAttemptRecord)
    (attempt : InteractionDeliveryAttemptRecord) : Table InteractionDeliveryAttemptRecord :=
  match table[attempt.id]? with
  | some stored =>
    table.insert attempt.id
      { attempt with
        interactionId := stored.interactionId
        targetSessionId := stored.targetSessionId
        createdAt := stored.createdAt }
  | none => table.insert attempt.id attempt

def messageStatusForDeliveryState (deliveryState : String) : Option InteractionStatus :=
  match deliveryState with
  | "queued" => some .queued
  | "submit_started" | "submit_sent_unconfirmed" => some .delivering
  | "submitted" | "submit_sent_unverified" | "provider_applied" | "provider_accepted"
  | "approval_submitted" => some .delivered
  | "failed" => some .failed
  | _ => none

/-- A call, with the name and the time that the attempt gets, the time of the change of the status, and
what the database answers to the two writes. -/
structure Call where
  interactionId : String
  targetSessionId : String
  transport : DeliveryTransportKind
  generation : Nat
  runtimeState : String
  deliveryState : String
  deliveryPhase : Option String
  observedState : Option String
  reason : Option String
  error : Option DeliveryErrorDetail
  attemptId : String
  attemptAt : String
  statusAt : String
  attemptFailure : Option String
  statusFailure : Option String

def deliveryAttemptRecord (call : Call) : InteractionDeliveryAttemptRecord where
  id := call.attemptId
  interactionId := call.interactionId
  targetSessionId := call.targetSessionId
  transport := call.transport
  generation := call.generation
  runtimeState := call.runtimeState
  deliveryState := call.deliveryState
  deliveryPhase := call.deliveryPhase
  observedState := call.observedState
  reason := call.reason
  error := call.error
  createdAt := call.attemptAt
  updatedAt := call.attemptAt

def withStatus (current : InteractionRecord) (status : InteractionStatus) (now : String) :
    InteractionRecord :=
  { current with
    status := status
    updatedAt := now
    completedAt := if status = .delivered ∨ status = .failed then some now else none }

def updateMessageStatusDurableLocked (ledger : Ledger) (interactionId : String)
    (status : InteractionStatus) (now : String) (failure : Option String) :
    Except String InteractionRecord × Ledger :=
  match ledger.records.get? interactionId with
  | none => (.error s!"message interaction not found: {interactionId}", ledger)
  | some current =>
    if current.kind ≠ .message then
      (.error s!"interaction is not a message: {interactionId}", ledger)
    else if current.status = status then (.ok current, ledger)
    else
      let updated := withStatus current status now
      match failure with
      | some error => (.error s!"failed to persist message status: {error}", ledger)
      | none =>
        (.ok updated,
          { ledger with
            records := ledger.records.put updated
            storedRecords := ledger.storedRecords.upsert updated })

def recordDeliveryAttemptDurable (ledger : Ledger) (call : Call) :
    Except String InteractionDeliveryAttemptRecord × Ledger :=
  let attempt := deliveryAttemptRecord call
  if ledger.deletedSessions.contains call.targetSessionId then
    (.error s!"agent has been deleted: {call.targetSessionId}", ledger)
  else
    match call.attemptFailure with
    | some error => (.error s!"failed to persist delivery attempt: {error}", ledger)
    | none =>
      let recorded := { ledger with storedAttempts := upsertAttempt ledger.storedAttempts attempt }
      match messageStatusForDeliveryState call.deliveryState with
      | none => (.ok attempt, recorded)
      | some status =>
        if (recorded.records.get? call.interactionId).any (·.kind = .message) then
          let (result, updated) := updateMessageStatusDurableLocked recorded call.interactionId status
            call.statusAt call.statusFailure
          (result.map fun _ => attempt, updated)
        else (.ok attempt, recorded)

/-- What is kept after a sequence of calls. -/
def Ledger.run (ledger : Ledger) (calls : List Call) : Ledger :=
  calls.foldl (fun ledger call => (recordDeliveryAttemptDurable ledger call).2) ledger

theorem Ledger.run_append (ledger : Ledger) (early later : List Call) :
    ledger.run (early ++ later) = (ledger.run early).run later :=
  foldl_append

/-! ### What a call changes -/

/-- A call that gives a message another status. -/
structure Moves (ledger : Ledger) (call : Call) (current : InteractionRecord)
    (status : InteractionStatus) : Prop where
  alive : call.targetSessionId ∉ ledger.deletedSessions
  attempt_written : call.attemptFailure = none
  maps : messageStatusForDeliveryState call.deliveryState = some status
  found : ledger.records.get? call.interactionId = some current
  message : current.kind = .message
  differs : current.status ≠ status
  status_written : call.statusFailure = none

theorem withStatus_id (current : InteractionRecord) (status : InteractionStatus) (now : String) :
    (withStatus current status now).id = current.id := rfl

variable {ledger : Ledger} {call : Call}

theorem records_of_moves {current : InteractionRecord}
    {status : InteractionStatus} (h : Moves ledger call current status) :
    (recordDeliveryAttemptDurable ledger call).2.records =
        ledger.records.put (withStatus current status call.statusAt) ∧
      (recordDeliveryAttemptDurable ledger call).2.storedRecords =
        ledger.storedRecords.upsert (withStatus current status call.statusAt) := by
  have halive : ¬ledger.deletedSessions.contains call.targetSessionId = true := by
    simpa using h.alive
  have hmsg : ((some current).any fun record => record.kind = .message) = true := by
    simpa using h.message
  unfold recordDeliveryAttemptDurable updateMessageStatusDurableLocked
  simp only [if_neg halive, h.attempt_written, h.maps, h.found, if_pos hmsg,
    if_neg (not_not.2 h.message), if_neg h.differs, h.status_written]
  exact ⟨trivial, trivial⟩

theorem records_of_not_moves (h : ∀ current status, ¬Moves ledger call current status) :
    (recordDeliveryAttemptDurable ledger call).2.records = ledger.records ∧
      (recordDeliveryAttemptDurable ledger call).2.storedRecords = ledger.storedRecords := by
  unfold recordDeliveryAttemptDurable updateMessageStatusDurableLocked
  dsimp only
  split
  · exact ⟨rfl, rfl⟩
  next halive =>
    split
    · exact ⟨rfl, rfl⟩
    next hwrt =>
      split
      · exact ⟨rfl, rfl⟩
      next status hmaps =>
        split
        next hmsg =>
          split
          · exact ⟨rfl, rfl⟩
          next current hfnd =>
            split
            · exact ⟨rfl, rfl⟩
            next hkind =>
              split
              · exact ⟨rfl, rfl⟩
              next hdiff =>
                split
                · exact ⟨rfl, rfl⟩
                next hstat =>
                  -- every test is passed, so the call would move the message
                  refine absurd ?_ (h current status)
                  exact ⟨by simpa using halive, hwrt, hmaps, hfnd, not_not.1 hkind, hdiff,
                    hstat⟩
        · exact ⟨rfl, rfl⟩

/-! ### Memory and database -/

/-- What is kept in memory is what is stored. -/
def Agrees (ledger : Ledger) : Prop := ledger.records = ledger.storedRecords

theorem agrees_loaded (storedRecords : RecordTable)
    (storedAttempts : Table InteractionDeliveryAttemptRecord) (deletedSessions : List String) :
    Agrees (Ledger.loaded storedRecords storedAttempts deletedSessions) := rfl

theorem agrees_record (h : Agrees ledger) (call : Call) :
    Agrees (recordDeliveryAttemptDurable ledger call).2 := by
  by_cases hmvs : ∃ current status, Moves ledger call current status
  · obtain ⟨current, status, hmove⟩ := hmvs
    obtain ⟨hrecs, hstrd⟩ := records_of_moves hmove
    have hfnd : ledger.storedRecords.get? (withStatus current status call.statusAt).id = some current := by
      rw [← h, withStatus_id, RecordTable.id_of_get? hmove.found]
      exact hmove.found
    rw [Agrees, hrecs, hstrd, RecordTable.upsert_eq_put hfnd rfl, h]
  · simp only [not_exists] at hmvs
    obtain ⟨hrecs, hstrd⟩ := records_of_not_moves hmvs
    rw [Agrees, hrecs, hstrd]
    exact h

theorem run_agrees (h : Agrees ledger) (calls : List Call) : Agrees (ledger.run calls) := by
  induction calls generalizing ledger with
  | nil => exact h
  | cons call calls ih => exact ih (agrees_record h call)

/-! ### The status of a message -/

/-- A message that was delivered at some time. -/
def DeliveredAt (ledger : Ledger) (id : String) (completedAt : Option String) : Prop :=
  ∃ record, ledger.records.get? id = some record ∧ record.kind = .message ∧
    record.status = .delivered ∧ record.completedAt = completedAt

/-- Once a message is delivered, it stays so with the same time. -/
def StaysDelivered (ledger : Ledger) (calls : List Call) (id : String) : Prop :=
  ∀ early later, early ++ later <+: calls → ∀ completedAt,
    DeliveredAt (ledger.run early) id completedAt → DeliveredAt (ledger.run (early ++ later)) id completedAt

/-- An attempt with another outcome is recorded for a message that was delivered. -/
def Late (ledger : Ledger) (call : Call) (id : String) : Prop :=
  call.interactionId = id ∧ (∃ completedAt, DeliveredAt ledger id completedAt) ∧
    call.targetSessionId ∉ ledger.deletedSessions ∧ call.attemptFailure = none ∧
    call.statusFailure = none ∧
    ∃ status, messageStatusForDeliveryState call.deliveryState = some status ∧ status ≠ .delivered

theorem deliveredAt_of_not_late
    {completedAt : Option String} (h : DeliveredAt ledger id completedAt) (hlate : ¬Late ledger call id) :
    DeliveredAt (recordDeliveryAttemptDurable ledger call).2 id completedAt := by
  obtain ⟨record, hrec, hkind, hstat, hcompd⟩ := h
  by_cases hmvs : ∃ current status, Moves ledger call current status
  · obtain ⟨current, status, hmove⟩ := hmvs
    have hid : call.interactionId ≠ id := by
      intro hid
      refine hlate ⟨hid, ⟨completedAt, record, hrec, hkind, hstat, hcompd⟩, hmove.alive,
        hmove.attempt_written, hmove.status_written, status, hmove.maps, ?_⟩
      have hsame : current = record := by
        have hfnd := hmove.found
        rw [hid, hrec] at hfnd
        exact (Option.some.inj hfnd).symm
      rw [← hstat, ← hsame]
      exact hmove.differs.symm
    refine ⟨record, ?_, hkind, hstat, hcompd⟩
    rw [(records_of_moves hmove).1, RecordTable.get?_put, withStatus_id,
      RecordTable.id_of_get? hmove.found, if_neg hid, hrec]
  · simp only [not_exists] at hmvs
    refine ⟨record, ?_, hkind, hstat, hcompd⟩
    rw [(records_of_not_moves hmvs).1, hrec]

theorem not_deliveredAt_of_late (h : Late ledger call id) (completedAt : Option String) :
    ¬DeliveredAt (recordDeliveryAttemptDurable ledger call).2 id completedAt := by
  obtain ⟨rfl, ⟨_, record, hrec, hkind, hstat, -⟩, halive, hatte, hwrt, status, hmaps, hoth⟩ := h
  have hmove : Moves ledger call record status :=
    ⟨halive, hatte, hmaps, hrec, hkind, by rw [hstat]; exact hoth.symm, hwrt⟩
  rintro ⟨found, hfnd, -, hdeld, -⟩
  rw [(records_of_moves hmove).1, RecordTable.get?_put, withStatus_id, RecordTable.id_of_get? hrec,
    if_pos rfl] at hfnd
  rw [← Option.some.inj hfnd] at hdeld
  exact hoth hdeld

theorem run_single (ledger : Ledger) (calls : List Call) (call : Call) :
    ledger.run (calls ++ [call]) = (recordDeliveryAttemptDurable (ledger.run calls) call).2 :=
  ledger.run_append calls [call]

theorem staysDelivered_iff (ledger : Ledger) (calls : List Call) (id : String) :
    StaysDelivered ledger calls id ↔
      ∀ early call, early ++ [call] <+: calls → ¬Late (ledger.run early) call id := by
  constructor
  · intro h early call hpre hlate
    obtain ⟨completedAt, hdeld⟩ := hlate.2.1
    have haft := h early [call] hpre completedAt hdeld
    rw [run_single] at haft
    exact not_deliveredAt_of_late hlate completedAt haft
  · intro h early later hpre completedAt hdeld
    induction later using reverseRecOn with
    | nil => rwa [append_nil]
    | append_singleton later call ih =>
      rw [← append_assoc] at hpre ⊢
      rw [run_single]
      refine deliveredAt_of_not_late (ih ((prefix_append _ _).trans hpre)) ?_
      exact h (early ++ later) call hpre

/-- Memory and database agree after every call, and a delivered message stays delivered, exactly where no
attempt with another outcome is recorded for a delivered message. -/
theorem delivered_stays_iff (storedRecords : RecordTable)
    (storedAttempts : Table InteractionDeliveryAttemptRecord) (deletedSessions : List String)
    (calls : List Call) (id : String) :
    ((∀ early, early <+: calls →
          Agrees ((Ledger.loaded storedRecords storedAttempts deletedSessions).run early)) ∧
        StaysDelivered (Ledger.loaded storedRecords storedAttempts deletedSessions) calls id) ↔
      ∀ early call, early ++ [call] <+: calls →
        ¬Late ((Ledger.loaded storedRecords storedAttempts deletedSessions).run early) call id := by
  rw [← staysDelivered_iff]
  refine and_iff_right ?_
  intro early _
  exact run_agrees (agrees_loaded storedRecords storedAttempts deletedSessions) early

/-! ### A late confirmation -/

def waitingMessage : InteractionRecord :=
  ⟨"message", .message, none, ["agent"], .queued, .startTurn, .inline "hello", none, "1", "1", none⟩

/-- The attempt of a message to its agent with an outcome. -/
def attemptOf (deliveryState attemptId time : String) : Call :=
  ⟨"message", "agent", .liveSurface, 1, "live_pty_available", deliveryState, none, none, none, none,
    attemptId, time, time, none, none⟩

/-- The provider accepts the message before it is recorded that its bytes were sent. -/
theorem accepted_then_sent_not_delivered :
    ¬StaysDelivered (Ledger.loaded (RecordTable.empty.put waitingMessage) ∅ [])
      [attemptOf "provider_accepted" "a" "2", attemptOf "submit_sent_unconfirmed" "b" "3"] "message" := by
  intro h
  have hdeld : DeliveredAt ((Ledger.loaded (RecordTable.empty.put waitingMessage) ∅ []).run
      [attemptOf "provider_accepted" "a" "2"]) "message" (some "2") :=
    ⟨withStatus waitingMessage .delivered "2", by decide, rfl, rfl, rfl⟩
  obtain ⟨record, hrec, -, hstat, -⟩ :=
    h [attemptOf "provider_accepted" "a" "2"] [attemptOf "submit_sent_unconfirmed" "b" "3"]
      (prefix_refl _) (some "2") hdeld
  have hfnd : ((Ledger.loaded (RecordTable.empty.put waitingMessage) ∅ []).run
      [attemptOf "provider_accepted" "a" "2", attemptOf "submit_sent_unconfirmed" "b" "3"]).records.get?
        "message" = some (withStatus (withStatus waitingMessage .delivered "2") .delivering "3") := by decide
  rw [singleton_append, hfnd] at hrec
  rw [← Option.some.inj hrec] at hstat
  exact absurd hstat (by decide)

end Wardian.Interactions
