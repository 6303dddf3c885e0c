/-
One reply for each task.

A reply interaction and the structured reply of its task are written together, for a task that waits,
and they complete it.  The identifiers that calls draw are new, so no later record falls on an old one.

Main results:

* `Messaging.Store.Settled.step`, `Messaging.History.settled` — the tables go on agreeing.
-/

import Wardian.Messaging.Rows

set_option autoImplicit false

namespace Wardian.Messaging

open Table
open List

/-! ### Identifiers -/

/-- The identifier of a record that was made from a drawn identifier. -/
def IsRecordId (id uuid : String) : Prop := id = newId "ask" uuid ∨ id = newId "int" uuid

theorem newId_eq {kind kind' uuid uuid' : String} (hlen : kind.length = kind'.length)
    (h : newId kind uuid = newId kind' uuid') : uuid = uuid' := by
  unfold newId at h
  have hlst := congrArg String.toList h
  simp only [String.toList_append] at hlst
  refine String.toList_inj.1 (append_inj hlst ?_).2
  simp only [length_append, String.length_toList, hlen]

theorem IsRecordId.uuid_eq {id uuid uuid' : String} (h : IsRecordId id uuid)
    (h' : IsRecordId id uuid') : uuid = uuid' := by
  have hlen : ("ask" : String).length = ("int" : String).length := by decide
  rcases h with rfl | rfl <;> rcases h' with h' | h'
  · exact newId_eq rfl h'
  · exact newId_eq hlen h'
  · exact newId_eq hlen.symm h'
  · exact newId_eq rfl h'

theorem isRecordId_admissionRecord (env : Env) (request : Admission)
    (host : Option HostAutomationProvenance) :
    IsRecordId (admissionRecord env request host).id (env.uuid 0) := by
  unfold admissionRecord IsRecordId
  dsimp only
  split
  · exact .inl rfl
  · exact .inr rfl

/-- No record has been made from what the environment draws, and it draws nothing twice. -/
structure Store.Unused (store : Store) (env : Env) : Prop where
  unused : ∀ (i : Nat) (id : String), IsRecordId id (env.uuid i) → store.interactions[id]? = none
  distinct : Function.Injective env.uuid

/-- The events draw different identifiers, and none of them twice. -/
structure Fresh (events : List Event) : Prop where
  distinct : ∀ event ∈ events, Function.Injective event.env.uuid
  apart : events.Pairwise fun event event' => ∀ i j, event.env.uuid i ≠ event'.env.uuid j

section

variable {sha256 : String → String} {env : Env} {store store' store'' : Store} {call : Call}
  {answer : Except Failure Answer} {events : List Event}

/-- Every record is an old one, or stands under an identifier drawn from the environment. -/
def KeysFrom (env : Env) (store store' : Store) : Prop :=
  ∀ id : String, (store'.interactions[id]?).isSome →
    (store.interactions[id]?).isSome ∨ ∃ i, IsRecordId id (env.uuid i)

/-- Every record is an old one, or stands under the first identifier drawn. -/
def KeyFrom (env : Env) (store store' : Store) : Prop :=
  ∀ id : String, (store'.interactions[id]?).isSome →
    (store.interactions[id]?).isSome ∨ IsRecordId id (env.uuid 0)

theorem KeysFrom.of_eq (h : store'.interactions = store.interactions) : KeysFrom env store store' :=
  fun _ hsome => .inl (by rw [← h]; exact hsome)

theorem KeyFrom.keys (h : KeyFrom env store store') : KeysFrom env store store' :=
  fun id hsome => (h id hsome).imp_right fun hid => ⟨0, hid⟩

theorem isSome_of_insert {records : Table InteractionRecord} {record : InteractionRecord} {key id : String}
    (h : ((records.insert key record)[id]?).isSome) : key = id ∨ (records[id]?).isSome := by
  rw [lookup_insert] at h
  split at h
  · exact .inl ‹_›
  · exact .inr h

theorem AdmittedNew.key {request : Admission} {host : Option HostAutomationProvenance}
    (h : AdmittedNew env request host store store') : KeyFrom env store store' := by
  intro id hsome
  rw [h.interactions] at hsome
  rcases isSome_of_insert hsome with rfl | hold
  · exact .inr (isRecordId_admissionRecord env request host)
  · exact .inl hold

variable {status : ReplyStatus} {task : InteractionRecord} {delivery : Delivery}

theorem RepliedNew.task_id {sender requestId message : String} (hkd : Keyed store.interactions)
    (h : RepliedNew env sender requestId status message store store' task delivery) :
    task.id = requestId := hkd requestId task h.taskRow

theorem RepliedNew.key {sender requestId message : String} (hkd : Keyed store.interactions)
    (h : RepliedNew env sender requestId status message store store' task delivery) :
    KeyFrom env store store' := by
  intro id hsome
  rw [h.interactions, h.task_id hkd] at hsome
  rcases isSome_of_insert hsome with rfl | hrest
  · exact .inr (.inr rfl)
  · rcases isSome_of_insert hrest with rfl | hold
    · exact .inl (by rw [h.taskRow]; rfl)
    · exact .inl hold

theorem Publishes.key {binding : TaskTurnBinding} {replied : Option Replied}
    (hkd : Keyed store.interactions) (h : Publishes env binding replied store store') :
    KeyFrom env store store' := by
  cases h with
  | reply _ _ _ _ hrepd => exact fun id hsome => hrepd.key hkd id hsome
  | mark | same => exact fun id hsome => .inl hsome

theorem Recovers.keys {bindings : List TaskTurnBinding} (hsnd : store.Sound)
    (h : Recovers env bindings store store') : KeysFrom env store store' := by
  induction h with
  | stop => exact .of_eq rfl
  | step hpub hrest ih =>
    intro id hsome
    rcases ih (hpub.sound hsnd) id hsome with hmid | ⟨i, hid⟩
    · exact (hpub.key hsnd.keyed).keys id hmid
    · exact .inr ⟨i + 1, hid⟩

theorem Effect.keys (hsnd : store.Sound) (h : Effect sha256 env call answer store store') :
    KeysFrom env store store' := by
  cases h with
  | admitted hcall hrec hadm => exact hadm.key.keys
  | replied hcall hval hrepd hclsd =>
    intro id hsome
    rw [hclsd.frame] at hsome
    exact (hrepd.key hsnd.keyed).keys id hsome
  | received hrcv => exact .of_eq (by rw [hrcv.frame])
  | published hpub => exact (hpub.key hsnd.keyed).keys
  | recovered _ hrcvs => exact hrcvs.keys hsnd
  | _ => exact .of_eq rfl

theorem Store.Unused.step {other : Env} (h : store.Unused other) (hkeys : KeysFrom env store store')
    (hapart : ∀ i j, env.uuid i ≠ other.uuid j) : store'.Unused other := by
  refine ⟨fun i id hid => ?_, h.distinct⟩
  rw [← Option.not_isSome_iff_eq_none]
  intro hsome
  rcases hkeys id hsome with hold | ⟨j, hdrawn⟩
  · rw [h.unused i id hid] at hold
    cases hold
  · exact hapart j i (hdrawn.uuid_eq hid)

/-- Every event of a fresh history draws identifiers that are unused when it is served. -/
theorem History.unused (h : History sha256 store events store') (hsnd : store.Sound)
    (hfrs : Fresh events) (hunus : ∀ event ∈ events, store.Unused event.env) :
    ∀ event ∈ events, event.before.Unused event.env := by
  induction h with
  | nil => exact fun event hevent => by cases hevent
  | @cons event events store' hsrv hrest ih =>
    obtain ⟨hapart, hltr⟩ := pairwise_cons.1 hfrs.apart
    intro other hoth
    rcases mem_cons.1 hoth with rfl | hmem
    · exact hunus other mem_cons_self
    · refine ih (hsnd.step hsrv.effect)
        ⟨fun later hltr => hfrs.distinct later (mem_cons_of_mem _ hltr), hltr⟩ ?_
        other hmem
      intro later hltr
      exact (hunus later (mem_cons_of_mem _ hltr)).step (hsrv.effect.keys hsnd)
        (hapart later hltr)

/-! ### The tables agree -/

/-- The reply of a task that was answered: one record, in the stream of the requester if there is one,
and the task completed. -/
structure Answered (store : Store) (requestId : String) (reply : StructuredReply) : Prop where
  valid : ValidMessage reply.body
  record : ∃ (id : String) (record : InteractionRecord), store.interactions[id]? = some record ∧
    record.kind = .reply ∧ record.parentInteractionId = some requestId ∧
    record.bodyRef = .inline reply.body ∧
    ∃ task, store.interactions[requestId]? = some task ∧ task.kind = .task ∧
      task.status = .completed ∧ ∀ requester, task.senderSessionId = some requester →
        ∃ row ∈ store.availability, row.interactionId = id ∧ row.recipient = requester
  delivery : ∃ delivery, store.deliveries[requestId]? = some delivery ∧
    delivery.operation = .followupTask

/-- The tables agree about what was replied. -/
structure Store.Settled (store : Store) : Prop where
  sound : store.Sound
  answered : ∀ (requestId : String) (reply : StructuredReply),
    store.structuredReplies[requestId]? = some reply → Answered store requestId reply
  reply : ∀ (id : String) (record : InteractionRecord), store.interactions[id]? = some record →
    record.kind = .reply → ∃ requestId, record.parentInteractionId = some requestId ∧
      (store.structuredReplies[requestId]?).isSome
  unique : ∀ (id id' : String) (record record' : InteractionRecord),
    store.interactions[id]? = some record → store.interactions[id']? = some record' →
    record.kind = .reply → record'.kind = .reply →
    record.parentInteractionId = record'.parentInteractionId → id = id'
  task : ∀ (id : String) (task : InteractionRecord), store.interactions[id]? = some task →
    task.kind = .task → task.status = .awaitingReply ∧ store.structuredReplies[id]? = none ∨
      task.status = .completed ∧ (store.structuredReplies[id]?).isSome
  asked : ∀ (id : String) (task : InteractionRecord), store.interactions[id]? = some task →
    task.kind = .task → (∃ delivery, store.deliveries[id]? = some delivery ∧
        delivery.operation = .followupTask ∧ task.targetSessionIds = [delivery.recipient]) ∧
      (task.senderSessionId = none → (store.hostTasks[id]?).isSome)

theorem Store.settled_empty : Store.empty.Settled where
  sound := Store.sound_empty
  answered := fun requestId reply h => by
    rw [show Store.empty.structuredReplies = ∅ from rfl, lookup_empty] at h
    cases h
  reply := fun id record h => by
    rw [show Store.empty.interactions = ∅ from rfl, lookup_empty] at h
    cases h
  unique := fun id id' record record' h => by
    rw [show Store.empty.interactions = ∅ from rfl, lookup_empty] at h
    cases h
  task := fun id task h => by
    rw [show Store.empty.interactions = ∅ from rfl, lookup_empty] at h
    cases h
  asked := fun id task h => by
    rw [show Store.empty.interactions = ∅ from rfl, lookup_empty] at h
    cases h

/-- The operations and the recipients of the rows are as they were. -/
abbrev OperationsKept (store store' : Store) : Prop :=
  RowsStep (fun _ old new => new.operation = old.operation ∧ new.recipient = old.recipient) store store'

theorem RowsKept.operations (h : RowsKept store store') : OperationsKept store store' := by
  intro id delivery hdel
  obtain ⟨_, hdel', rfl⟩ := h id delivery hdel
  exact ⟨_, hdel', rfl, rfl⟩

/-- The row of a task that was asked for is still there. -/
theorem OperationsKept.asked (h : OperationsKept store store') {id : String} {task : InteractionRecord}
    (hasked : ∃ delivery, store.deliveries[id]? = some delivery ∧
      delivery.operation = .followupTask ∧ task.targetSessionIds = [delivery.recipient]) :
    ∃ delivery, store'.deliveries[id]? = some delivery ∧
      delivery.operation = .followupTask ∧ task.targetSessionIds = [delivery.recipient] := by
  obtain ⟨delivery, hdel, hop, htgt⟩ := hasked
  obtain ⟨delivery', hdel', hsame, hrcp⟩ := h id delivery hdel
  exact ⟨delivery', hdel', hsame.trans hop, by rw [hrcp, htgt]⟩

variable {requestId : String}

theorem Answered.grow {reply : StructuredReply} (h : Answered store requestId reply)
    (hrecs : ∀ (id : String) (record : InteractionRecord),
      store.interactions[id]? = some record → record.kind = .reply ∨ id = requestId →
      store'.interactions[id]? = some record) (hrows : OperationsKept store store')
    (havl : ∀ row ∈ store.availability, row ∈ store'.availability) :
    Answered store' requestId reply := by
  obtain ⟨id, record, hrec, hkind, hpar, hbody, task, htask, htaskKind, hstat, hrow⟩ :=
    h.record
  obtain ⟨delivery, hdel, hop⟩ := h.delivery
  obtain ⟨delivery', hdel', hsame, -⟩ := hrows requestId delivery hdel
  refine ⟨h.valid, ⟨id, record, hrecs id record hrec (.inl hkind), hkind, hpar, hbody, task,
    hrecs requestId task htask (.inr rfl), htaskKind, hstat, ?_⟩, delivery', hdel',
    hsame.trans hop⟩
  intro requester hrqr
  obtain ⟨row, hmem, hboth⟩ := hrow requester hrqr
  exact ⟨row, havl row hmem, hboth⟩

theorem Store.Settled.of_rows (h : store.Settled) (hsnd : store'.Sound)
    (hints : store'.interactions = store.interactions)
    (hreps : store'.structuredReplies = store.structuredReplies) (hrows : OperationsKept store store')
    (havl : store'.availability = store.availability)
    (hhosts : store'.hostTasks = store.hostTasks) : store'.Settled := by
  refine ⟨hsnd, fun requestId reply hrep => ?_, ?_, ?_, ?_, fun id task htask hkind => ?_⟩
  · rw [hreps] at hrep
    refine (h.answered requestId reply hrep).grow (fun id record hrec _ => ?_) hrows
      fun row hrow => ?_
    · rw [hints]
      exact hrec
    · rw [havl]
      exact hrow
  · rw [hints, hreps]
    exact h.reply
  · rw [hints]
    exact h.unique
  · rw [hints, hreps]
    exact h.task
  · rw [hints] at htask
    rw [hhosts]
    exact (h.asked id task htask hkind).imp_left hrows.asked

/-- An admission adds a record that is no reply, and a task that waits. -/
theorem Store.Settled.admitted {request : Admission} {host : Option HostAutomationProvenance}
    (h : store.Settled) (hunus : store.Unused env)
    (hadm : AdmittedNew env request host store store') : store'.Settled := by
  have hnew : store.interactions[(admissionRecord env request host).id]? = none :=
    hunus.unused 0 _ (isRecordId_admissionRecord env request host)
  have hkind : (admissionRecord env request host).kind ≠ .reply := by
    unfold admissionRecord
    dsimp only
    split <;> exact fun h => by cases h
  have hlook : ∀ (id : String) (record : InteractionRecord),
      store'.interactions[id]? = some record → record = admissionRecord env request host ∧
        id = (admissionRecord env request host).id ∨ store.interactions[id]? = some record := by
    intro id record hrec
    rw [hadm.interactions, lookup_insert] at hrec
    split at hrec
    · exact .inl ⟨(Option.some.inj hrec).symm, (‹_ = id›).symm⟩
    · exact .inr hrec
  refine ⟨hadm.sound h.sound, fun requestId reply hrep => ?_, fun id record hrec hrep => ?_,
    fun id id' record record' hrec hrec' hrep hrep' hpar => ?_,
    fun id task htask htaskKind => ?_, fun id task htask htaskKind => ?_⟩
  · rw [hadm.structuredReplies] at hrep
    refine (h.answered requestId reply hrep).grow (fun id record hrec _ => ?_)
      hadm.rows.operations fun row hrow => ?_
    · rw [hadm.interactions, lookup_insert, if_neg, hrec]
      rintro rfl
      rw [hnew] at hrec
      cases hrec
    · rw [hadm.availability]
      exact mem_append_left _ hrow
  · rw [hadm.structuredReplies]
    rcases hlook id record hrec with ⟨rfl, -⟩ | hold
    · exact absurd hrep hkind
    · exact h.reply id record hold hrep
  · rcases hlook id record hrec with ⟨rfl, -⟩ | hold
    · exact absurd hrep hkind
    · rcases hlook id' record' hrec' with ⟨rfl, -⟩ | hold'
      · exact absurd hrep' hkind
      · exact h.unique id id' record record' hold hold' hrep hrep' hpar
  · rw [hadm.structuredReplies]
    rcases hlook id task htask with ⟨rfl, rfl⟩ | hold
    · refine .inl ⟨?_, ?_⟩
      · unfold admissionRecord at htaskKind ⊢
        dsimp only at htaskKind ⊢
        split at htaskKind
        · rw [if_pos ‹_›]
        · cases htaskKind
      · rw [← Option.not_isSome_iff_eq_none]
        intro hsome
        obtain ⟨reply, hrep⟩ := Option.isSome_iff_exists.1 hsome
        obtain ⟨_, _, _, _, _, _, task, htaskRow, -⟩ := (h.answered _ reply hrep).record
        rw [hnew] at htaskRow
        cases htaskRow
    · exact h.task id task hold htaskKind
  · rcases hlook id task htask with ⟨rfl, rfl⟩ | hold
    · obtain ⟨delivery, -, -, hrcp, hop, -, -, -, hdels⟩ := hadm.deliveries
      have htaskRequest : request.task = true := by
        unfold admissionRecord at htaskKind
        dsimp only at htaskKind
        split at htaskKind
        · assumption
        · cases htaskKind
      refine ⟨⟨delivery, by rw [hdels, lookup_insert, if_pos rfl], ?_, ?_⟩, fun hnone => ?_⟩
      · rw [hop, Admission.operation, if_pos htaskRequest]
      · rw [hrcp]
        rfl
      · rw [hadm.hostTasks]
        cases host with
        | none => cases hnone
        | some provenance =>
          dsimp only
          rw [lookup_insert, if_pos rfl]
          rfl
    · obtain ⟨hrow, hhost⟩ := h.asked id task hold htaskKind
      refine ⟨hadm.rows.operations.asked hrow, fun hnone => ?_⟩
      rw [hadm.hostTasks]
      cases host with
      | none => exact hhost hnone
      | some provenance =>
        dsimp only
        rw [lookup_insert]
        split
        · rfl
        · exact hhost hnone

/-- The record of a task, once it is answered. -/
def InteractionRecord.completed (task : InteractionRecord) (now : String) : InteractionRecord :=
  { task with status := .completed, updatedAt := now, completedAt := some now }

variable {status : ReplyStatus} {task : InteractionRecord} {delivery : Delivery}

/-- The records after a reply: the reply's own, that of its task, and the old ones. -/
theorem RepliedNew.lookup {sender message : String} (hkd : Keyed store.interactions)
    (hrepd : RepliedNew env sender requestId status message store store' task delivery) (id : String) :
    store'.interactions[id]? =
      if newId "int" (env.uuid 0) = id then
        some (replyRecord env sender requestId message task.senderSessionId)
      else if requestId = id then some (task.completed env.now) else store.interactions[id]? := by
  rw [hrepd.interactions, hrepd.task_id hkd, lookup_insert, lookup_insert]
  rw [← hrepd.task_id hkd]
  rfl

theorem RepliedNew.record_cases {sender message : String} (hkd : Keyed store.interactions)
    (hrepd : RepliedNew env sender requestId status message store store' task delivery) {id : String}
    {record : InteractionRecord} (hrec : store'.interactions[id]? = some record) :
    (id = newId "int" (env.uuid 0) ∧
        record = replyRecord env sender requestId message task.senderSessionId) ∨
      (id = requestId ∧ record = task.completed env.now) ∨
      id ≠ requestId ∧ store.interactions[id]? = some record := by
  rw [hrepd.lookup hkd] at hrec
  split at hrec
  · exact .inl ⟨(‹_ = id›).symm, (Option.some.inj hrec).symm⟩
  · split at hrec
    · exact .inr (.inl ⟨(‹_ = id›).symm, (Option.some.inj hrec).symm⟩)
    · exact .inr (.inr ⟨fun heq => ‹¬ requestId = id› heq.symm, hrec⟩)

/-- A reply adds its record and its structured reply, and completes its task. -/
theorem Store.Settled.replied {sender requestId message : String} {status : ReplyStatus}
    {task : InteractionRecord} {delivery : Delivery} (h : store.Settled)
    (hunus : store.Unused env) (hval : ValidMessage message)
    (hrepd : RepliedNew env sender requestId status message store store' task delivery) :
    store'.Settled := by
  have hkd := h.sound.keyed
  have hnew : store.interactions[newId "int" (env.uuid 0)]? = none :=
    hunus.unused 0 _ (.inr rfl)
  have hne : newId "int" (env.uuid 0) ≠ requestId := by
    intro heq
    have htask := hrepd.taskRow
    rw [← heq, hnew] at htask
    cases htask
  have hold : ∀ (id : String) (record : InteractionRecord),
      store.interactions[id]? = some record → id ≠ requestId →
      store'.interactions[id]? = some record := by
    intro id record hrec hid
    rw [hrepd.lookup hkd, if_neg, if_neg (Ne.symm hid), hrec]
    rintro rfl
    rw [hnew] at hrec
    cases hrec
  have hcompd : store'.interactions[requestId]? = some (task.completed env.now) := by
    rw [hrepd.lookup hkd, if_neg hne, if_pos rfl]
  have hlook : ∀ id : String, store'.structuredReplies[id]? = if requestId = id then
      some (structuredReply sender requestId status message env.now)
      else store.structuredReplies[id]? := by
    intro id
    rw [hrepd.structuredReplies, lookup_insert]
  refine ⟨hrepd.sound h.sound, fun other reply hrep => ?_, fun id record hrec hkind => ?_,
    fun id id' record record' hrec hrec' hkind hkind' hpar => ?_,
    fun id found hfnd hkind => ?_, fun id found hfnd hkind => ?_⟩
  · rw [hlook] at hrep
    split at hrep
    · -- The new answer.
      rename_i heq
      obtain rfl := Option.some.inj hrep
      subst heq
      obtain ⟨delivery', hdel', hsame, -⟩ :=
        hrepd.rows.operations requestId delivery hrepd.deliveryRow
      refine ⟨hval, ⟨newId "int" (env.uuid 0),
        replyRecord env sender requestId message task.senderSessionId, ?_, rfl, rfl, rfl,
        task.completed env.now, hcompd, hrepd.kind, rfl, ?_⟩, delivery', hdel',
        hsame.trans hrepd.operation⟩
      · rw [hrepd.lookup hkd, if_pos rfl]
      · intro requester hrqr
        have havl := hrepd.availability
        rw [show task.senderSessionId = some requester from hrqr] at havl
        rw [havl]
        exact ⟨_, mem_append_right _ (mem_singleton_self _), rfl, rfl⟩
    · -- An old answer is to another task.
      rename_i hoth
      refine (h.answered other reply hrep).grow (fun id record hrec hkept => ?_)
        hrepd.rows.operations fun row hrow => ?_
      · refine hold id record hrec ?_
        rintro rfl
        rcases hkept with hkind | heq
        · rw [hrepd.taskRow] at hrec
          rw [← Option.some.inj hrec, hrepd.kind] at hkind
          cases hkind
        · exact hoth heq
      · obtain ⟨-, rows, havl, -⟩ := hrepd.streams.grow
        rw [havl]
        exact mem_append_left _ hrow
  · rcases hrepd.record_cases hkd hrec with ⟨-, rfl⟩ | ⟨-, rfl⟩ | ⟨-, hrec⟩
    · exact ⟨requestId, rfl, by rw [hlook, if_pos rfl]; rfl⟩
    · rw [InteractionRecord.completed, hrepd.kind] at hkind
      cases hkind
    · obtain ⟨other, hpar, hsome⟩ := h.reply id record hrec hkind
      refine ⟨other, hpar, ?_⟩
      rw [hlook]
      split
      · rfl
      · exact hsome
  · -- Two replies with one parent: an old one has another parent than the new one.
    have hpar_ne : ∀ (id : String) (record : InteractionRecord),
        store.interactions[id]? = some record → record.kind = .reply →
        record.parentInteractionId ≠ some requestId := by
      intro id record hrec hkind heq
      obtain ⟨other, hoth, hsome⟩ := h.reply id record hrec hkind
      rw [heq] at hoth
      rw [← Option.some.inj hoth, hrepd.unanswered] at hsome
      cases hsome
    rcases hrepd.record_cases hkd hrec with ⟨rfl, rfl⟩ | ⟨-, rfl⟩ | ⟨-, hrec⟩
    · rcases hrepd.record_cases hkd hrec' with ⟨rfl, -⟩ | ⟨-, rfl⟩ | ⟨-, hrec'⟩
      · rfl
      · rw [InteractionRecord.completed, hrepd.kind] at hkind'
        cases hkind'
      · exact absurd hpar.symm (hpar_ne id' record' hrec' hkind')
    · rw [InteractionRecord.completed, hrepd.kind] at hkind
      cases hkind
    · rcases hrepd.record_cases hkd hrec' with ⟨-, rfl⟩ | ⟨-, rfl⟩ | ⟨-, hrec'⟩
      · exact absurd hpar (hpar_ne id record hrec hkind)
      · rw [InteractionRecord.completed, hrepd.kind] at hkind'
        cases hkind'
      · exact h.unique id id' record record' hrec hrec' hkind hkind' hpar
  · rcases hrepd.record_cases hkd hfnd with ⟨-, rfl⟩ | ⟨rfl, rfl⟩ | ⟨hid, hfnd⟩
    · cases hkind
    · exact .inr ⟨rfl, by rw [hlook, if_pos rfl]; rfl⟩
    · rw [hlook, if_neg (Ne.symm hid)]
      exact h.task id found hfnd hkind
  · rw [hrepd.hostTasks]
    rcases hrepd.record_cases hkd hfnd with ⟨-, rfl⟩ | ⟨rfl, rfl⟩ | ⟨hid, hfnd⟩
    · cases hkind
    · exact (h.asked id task hrepd.taskRow hrepd.kind).imp_left hrepd.rows.operations.asked
    · exact (h.asked id found hfnd hkind).imp_left hrepd.rows.operations.asked

theorem Publishes.settled {binding : TaskTurnBinding} {replied : Option Replied} (hsetl : store.Settled)
    (hunus : store.Unused env) (h : Publishes env binding replied store store') : store'.Settled := by
  have hsnd := h.sound hsetl.sound
  have hrows := h.rows.operations
  cases h with
  | reply _ _ _ hval hrepd =>
    have hmid := hsetl.replied hunus hval hrepd
    exact hmid.of_rows hsnd rfl rfl (.of_eq (fun _ _ => ⟨rfl, rfl⟩) rfl) rfl rfl
  | mark => exact hsetl.of_rows hsnd rfl rfl hrows rfl rfl
  | same => exact hsetl

theorem Store.Unused.next {binding : TaskTurnBinding} {replied : Option Replied}
    (hunus : store.Unused env) (hkd : Keyed store.interactions)
    (h : Publishes env binding replied store store') : store'.Unused env.next := by
  refine ⟨fun i id hid => ?_, fun i j heq => Nat.succ.inj (hunus.distinct heq)⟩
  rw [← Option.not_isSome_iff_eq_none]
  intro hsome
  rcases h.key hkd id hsome with hold | hfst
  · rw [hunus.unused (i + 1) id hid] at hold
    cases hold
  · exact Nat.succ_ne_zero i (hunus.distinct (hid.uuid_eq hfst))

theorem Recovers.settled {bindings : List TaskTurnBinding} (hsetl : store.Settled)
    (hunus : store.Unused env) (h : Recovers env bindings store store') : store'.Settled := by
  induction h with
  | stop => exact hsetl
  | step hpub hrest ih =>
    exact ih (hpub.settled hsetl hunus) (hunus.next hsetl.sound.keyed hpub)

theorem Store.Settled.step (hsetl : store.Settled) (hunus : store.Unused env)
    (h : Effect sha256 env call answer store store') : store'.Settled := by
  have hsnd := hsetl.sound.step h
  have hrows : OperationsKept store store' := by
    intro id delivery hdel
    obtain ⟨delivery', hdel', hmvs⟩ := h.rows hsetl.sound id delivery hdel
    exact ⟨delivery', hdel', hmvs.operation, hmvs.recipient⟩
  cases h with
  | admitted hcall hrec hadm => exact hsetl.admitted hunus hadm
  | @replied call r replied store store₁ store'' task delivery hcall hval hrepd hclsd =>
    have hmid := hsetl.replied hunus hval hrepd
    have hfrm := hclsd.frame
    refine hmid.of_rows hsnd ?_ ?_
      (hclsd.rowsStep (fun _ _ => ⟨rfl, rfl⟩) fun _ _ => ⟨rfl, rfl⟩) ?_ ?_ <;> rw [hfrm]
  | received hrcv =>
    have hfrm := hrcv.frame
    refine hsetl.of_rows hsnd ?_ ?_ hrows ?_ ?_ <;> rw [hfrm]
  | published hpub => exact hpub.settled hsetl hunus
  | recovered _ hrcvs => exact hrcvs.settled hsetl hunus
  | _ => exact hsetl.of_rows hsnd rfl rfl hrows rfl rfl

/-- The tables of a fresh history agree, before each event and at the end. -/
theorem History.settled (h : History sha256 store events store') (hsetl : store.Settled)
    (hunus : ∀ event ∈ events, event.before.Unused event.env) :
    store'.Settled ∧ ∀ event ∈ events, event.before.Settled ∧ event.Served sha256 := by
  induction h with
  | nil => exact ⟨hsetl, fun event hevent => by cases hevent⟩
  | @cons event events store' hsrv hrest ih =>
    have haft := hsetl.step (hunus event mem_cons_self) hsrv.effect
    obtain ⟨hlast, hevs⟩ :=
      ih haft fun later hltr => hunus later (mem_cons_of_mem _ hltr)
    refine ⟨hlast, fun other hoth => ?_⟩
    rcases mem_cons.1 hoth with rfl | hmem
    · exact ⟨hsetl, hsrv⟩
    · exact hevs other hmem

end

end Wardian.Messaging
