/-
Mail: admissions, replies and pages, without the scheduler.

As long as only mail is served, every row of a stream waits for its receiver, the text of a message
never changes once it is stored, and every message is small enough to stand alone on a page.

Main results:

* `Messaging.encode_le` — the bytes of a message on a page;
* `Messaging.Store.Readable.step`, `Messaging.Store.Receivable.step`, `Messaging.messageOf_kept` —
  what mail keeps;
* `Messaging.Store.Readable.not_stuck` — no page is stuck.
-/

import Wardian.Messaging.Mailbox
import Wardian.Messaging.Replies

set_option autoImplicit false

namespace Wardian.Messaging

open Table
open List

/-! ### Sizes -/

/-- The bytes of a sender or of a host's run or node. -/
def maxNameBytes : Nat := 1024

/-- The bytes of an identifier of a record or of a time. -/
def maxStampBytes : Nat := 36

/-- The text of a record is inline and short, and so is what goes with it. -/
structure InteractionRecord.IsSmall (record : InteractionRecord) : Prop where
  body : ∃ body, record.bodyRef = .inline body ∧ body.utf8ByteSize ≤ maxMessageBytes
  id : record.id.utf8ByteSize ≤ maxStampBytes
  sender : (record.senderSessionId.getD "").utf8ByteSize ≤ maxNameBytes
  parent : ∀ parent, record.parentInteractionId = some parent →
    parent.utf8ByteSize ≤ maxStampBytes
  created : record.createdAt.utf8ByteSize ≤ maxStampBytes

def HostAutomationProvenance.IsSmall (host : HostAutomationProvenance) : Prop :=
  host.runId.utf8ByteSize ≤ maxNameBytes ∧ host.node.utf8ByteSize ≤ maxNameBytes

/-- Every message that is stored can be read, and is small. -/
structure Store.Readable (store : Store) : Prop where
  sound : store.Sound
  small : ∀ (id : String) (record : InteractionRecord),
    store.interactions[id]? = some record → record.IsSmall
  hosts : ∀ (id : String) (host : HostAutomationProvenance),
    store.hostTasks[id]? = some host → host.IsSmall
  replies : ∀ (id : String) (record : InteractionRecord), store.interactions[id]? = some record →
    record.kind = .reply → ∃ parent, record.parentInteractionId = some parent ∧
      (store.structuredReplies[parent]?).isSome

theorem Store.readable_empty : Store.empty.Readable where
  sound := Store.sound_empty
  small := fun id record h => by
    rw [show Store.empty.interactions = ∅ from rfl, lookup_empty] at h
    cases h
  hosts := fun id host h => by
    rw [show Store.empty.hostTasks = ∅ from rfl, lookup_empty] at h
    cases h
  replies := fun id record h => by
    rw [show Store.empty.interactions = ∅ from rfl, lookup_empty] at h
    cases h

variable {n : Nat}

theorem append_le {s t : String} {m : Nat} (hs : s.utf8ByteSize ≤ m) (ht : t.utf8ByteSize ≤ n) :
    (s ++ t).utf8ByteSize ≤ m + n := by
  rw [String.utf8ByteSize_append]
  exact Nat.add_le_add hs ht

theorem quote_le {s : String} (h : s.utf8ByteSize ≤ n) : (JsonText.quote s).utf8ByteSize ≤ 6 * n + 2 :=
  (JsonText.utf8ByteSize_quote_le s).trans (by omega)

theorem encodeOptional_le {s : Option String} (hn : 4 ≤ 6 * n + 2)
    (h : ∀ text, s = some text → text.utf8ByteSize ≤ n) : (encodeOptional s).utf8ByteSize ≤ 6 * n + 2 := by
  cases s with
  | none => exact hn
  | some text => exact quote_le (h text rfl)

theorem encodeHost_le {host : Option HostAutomationProvenance}
    (h : ∀ found, host = some found → found.IsSmall) :
    (encodeHost host).utf8ByteSize ≤ 2 * (6 * maxNameBytes + 2) + 38 := by
  cases host with
  | none => exact Nat.zero_le _
  | some host =>
    obtain ⟨hrun, hnode⟩ := h host rfl
    have hfrt : String.utf8ByteSize "\"host_automation\":\x7b\"run_id\":" ≤ 28 := by
      decide
    have hmid : String.utf8ByteSize ",\"node\":" ≤ 8 := by decide
    have hback : String.utf8ByteSize "\x7d," ≤ 2 := by decide
    exact (append_le (append_le (append_le (append_le hfrt (quote_le hrun)) hmid)
      (quote_le hnode)) hback).trans (by omega)

theorem text_kind_le (kind : InteractionKind) : kind.text.utf8ByteSize ≤ 12 := by
  cases kind <;> decide

theorem text_status_le (status : ReplyStatus) : status.text.utf8ByteSize ≤ 12 := by
  cases status <;> decide

/-- What a message takes on a page, beyond its own bytes. -/
def messageOverhead : Nat :=
  3 * (6 * maxNameBytes + 2) + 3 * (6 * maxStampBytes + 2) + 2 * (6 * 12 + 2) + 200

/-- A message takes at most six bytes for each of its own, and some for what goes with it. -/
theorem encode_le {message : AgentMessage} {n : Nat} (hmsg : message.message.utf8ByteSize ≤ n)
    (hid : message.interactionId.utf8ByteSize ≤ maxStampBytes)
    (hsndr : message.sender.utf8ByteSize ≤ maxNameBytes)
    (hhost : ∀ host, message.hostAutomation = some host → host.IsSmall)
    (hpar : ∀ parent, message.parentInteractionId = some parent → parent.utf8ByteSize ≤ maxStampBytes)
    (hcrtd : message.createdAt.utf8ByteSize ≤ maxStampBytes) :
    message.encode.utf8ByteSize ≤ 6 * n + messageOverhead := by
  have hstat : (encodeOptional (message.replyStatus.map ReplyStatus.text)).utf8ByteSize ≤
      6 * 12 + 2 := by
    refine encodeOptional_le (by decide) fun text htext => ?_
    obtain ⟨status, -, rfl⟩ := Option.map_eq_some_iff.1 htext
    exact text_status_le status
  have hparentText := encodeOptional_le (by decide) hpar
  have h₁ : String.utf8ByteSize "\x7b\"interaction_id\":" ≤ 18 := by decide
  have h₂ : String.utf8ByteSize ",\"kind\":" ≤ 8 := by decide
  have h₃ : String.utf8ByteSize ",\"sender\":" ≤ 10 := by decide
  have h₄ : String.utf8ByteSize "," ≤ 1 := by decide
  have h₅ : String.utf8ByteSize "\"message\":" ≤ 10 := by decide
  have h₆ : String.utf8ByteSize ",\"parent_interaction_id\":" ≤ 25 := by decide
  have h₇ : String.utf8ByteSize ",\"reply_status\":" ≤ 16 := by decide
  have h₈ : String.utf8ByteSize ",\"created_at\":" ≤ 14 := by decide
  have h₉ : String.utf8ByteSize "\x7d" ≤ 1 := by decide
  have hkind := append_le (append_le (append_le h₁ (quote_le hid)) h₂)
    (quote_le (text_kind_le message.kind))
  have hfrom := append_le (append_le (append_le (append_le hkind h₃) (quote_le hsndr)) h₄)
    (encodeHost_le hhost)
  have hbody := append_le (append_le (append_le (append_le hfrom h₅) (quote_le hmsg)) h₆)
    hparentText
  have hall := append_le (append_le (append_le (append_le (append_le hbody h₇) hstat) h₈)
    (quote_le hcrtd)) h₉
  refine hall.trans ?_
  unfold messageOverhead
  omega

theorem page_has_room : 6 * maxMessageBytes + messageOverhead + 1 + pageEnvelopeBytes ≤
    maxReceiveSerializedBytes ∧ maxMessageBytes ≤ maxReceiveBodyBytes := by decide

/-! ### What is stored stays small -/

section

variable {sha256 : String → String} {env : Env} {recipient : String} {store store' : Store}
  {call : Call} {answer : Except Failure Answer}

/-- A record that is stored has a message, which fits an empty page. -/
theorem Store.Readable.message (h : store.Readable) {id : String}
    (hkn : (store.interactions[id]?).isSome) : ∃ message, store.messageOf id = some message ∧
      ∀ scan : PageScan, scan.bodyBytes = 0 → scan.serializedBytes = pageEnvelopeBytes →
        scan.Fits message := by
  obtain ⟨record, hrec⟩ := Option.isSome_iff_exists.1 hkn
  have hsml := h.small id record hrec
  obtain ⟨body, hbody, hlong⟩ := hsml.body
  obtain ⟨status, hstat⟩ : ∃ status, store.statusOf record = some status := by
    unfold Store.statusOf
    split
    · rename_i hrep
      obtain ⟨parent, hpar, hsome⟩ := h.replies id record hrec hrep
      obtain ⟨reply, hreplyRow⟩ := Option.isSome_iff_exists.1 hsome
      rw [hpar, Option.getD_some, hreplyRow]
      exact ⟨_, rfl⟩
    · exact ⟨_, rfl⟩
  refine ⟨_, by
    rw [Store.messageOf, hrec, Option.bind_some, hbody, InteractionBodyRef.text?,
      Option.bind_some, hstat, Option.map_some], fun scan hscan hseri => ?_⟩
  have hid : id.utf8ByteSize ≤ maxStampBytes := by
    rw [← h.sound.keyed id record hrec]
    exact hsml.id
  have henc := @encode_le ⟨id, record.kind, record.senderSessionId.getD "",
    store.hostTasks[id]?, body, record.parentInteractionId, status, record.createdAt⟩ _ hlong hid
    hsml.sender (fun host hhost => h.hosts id host hhost) hsml.parent hsml.created
  obtain ⟨hserial, hbods⟩ := page_has_room
  unfold PageScan.Fits
  rw [hscan, hseri]
  dsimp only
  omega

theorem Store.Readable.not_stuck (h : store.Readable) {after : Nat} {hasMore : Bool} :
    ¬ Stuck store (store.rowsAfter recipient after) ⟨[], after, 0, pageEnvelopeBytes, hasMore⟩ := by
  have hmsg : ∀ row ∈ store.rowsAfter recipient after, ∃ message,
      store.messageOf row.interactionId = some message ∧
        ∀ scan : PageScan, scan.bodyBytes = 0 → scan.serializedBytes = pageEnvelopeBytes →
          scan.Fits message :=
    fun row hrow => h.message (h.sound.known row (mem_rowsAfter.1 hrow).1)
  rintro (⟨row, hrow, hnone⟩ | ⟨-, row, rest, message, heq, hsome, hfull⟩)
  · obtain ⟨message, hsome, -⟩ := hmsg row hrow
    rw [hnone] at hsome
    cases hsome
  · obtain ⟨found, hfnd, hfits⟩ := hmsg row (by rw [heq]; exact mem_cons_self)
    rw [hsome] at hfnd
    obtain rfl := Option.some.inj hfnd
    exact hfull (hfits _ rfl rfl)

/-- The identifier that names a record or a cursor has thirty-two bytes, and the time is as short as
the identifier of a record. -/
structure Env.IsPlain (env : Env) : Prop where
  uuid : (env.uuid 0).utf8ByteSize = 32
  now : env.now.utf8ByteSize ≤ maxStampBytes

/-- An admission, a reply or a page, of a sender or a host with a short name. -/
def Call.IsMail : Call → Prop
  | .admitRequest request => request.sender.utf8ByteSize ≤ maxNameBytes
  | .admitWithWakeOnAdmission request _ => request.sender.utf8ByteSize ≤ maxNameBytes
  | .admitWithRequesterOrigin request _ => request.sender.utf8ByteSize ≤ maxNameBytes
  | .admitHostAutomationTask runId node _ _ _ => HostAutomationProvenance.IsSmall ⟨runId, node⟩
  | .admitHostAutomationMessage runId node _ _ _ => HostAutomationProvenance.IsSmall ⟨runId, node⟩
  | .reply sender _ _ _ => sender.utf8ByteSize ≤ maxNameBytes
  | .receive _ _ _ _ => True
  | _ => False

variable {request : Admission} {host : Option HostAutomationProvenance}

theorem Call.IsMail.admission (h : call.IsMail) (hcall : call.admission sha256 = some (request, host)) :
    (host = none → request.sender.utf8ByteSize ≤ maxNameBytes) ∧
      ∀ found, host = some found → found.IsSmall := by
  cases call with
  | admitRequest request | admitWithWakeOnAdmission request origin
  | admitWithRequesterOrigin request origin =>
    obtain ⟨rfl, rfl⟩ := Prod.mk.inj (Option.some.inj hcall)
    exact ⟨fun _ => h, fun found hfnd => by cases hfnd⟩
  | admitHostAutomationTask | admitHostAutomationMessage =>
    obtain ⟨rfl, rfl⟩ := Prod.mk.inj (Option.some.inj hcall)
    refine ⟨fun hnone => (by cases hnone), fun found hfnd => ?_⟩
    obtain rfl := Option.some.inj hfnd
    exact h
  | _ => cases hcall

theorem Call.IsMail.claiming (h : call.IsMail) : call.claiming = none := by
  cases call <;> first | rfl | cases h

theorem newId_le {kind uuid : String} (hkind : kind.utf8ByteSize = 3)
    (huuid : uuid.utf8ByteSize = 32) : (newId kind uuid).utf8ByteSize ≤ maxStampBytes := by
  have hunder : String.utf8ByteSize "_" = 1 := by decide
  unfold newId
  rw [String.utf8ByteSize_append, String.utf8ByteSize_append, hkind, huuid, hunder]
  decide

theorem admissionRecord_small (hpln : env.IsPlain) (hmsg : ValidMessage request.message)
    (hsndr : host = none → request.sender.utf8ByteSize ≤ maxNameBytes) :
    (admissionRecord env request host).IsSmall := by
  unfold admissionRecord
  refine ⟨⟨_, rfl, hmsg.2⟩, ?_, ?_, fun parent hpar => (by cases hpar), hpln.now⟩
  · dsimp only
    split
    · exact newId_le (by decide) hpln.uuid
    · exact newId_le (by decide) hpln.uuid
  · cases host with
    | none => exact hsndr rfl
    | some host => exact Nat.zero_le _

theorem Store.Readable.admitted {request : Admission} {host : Option HostAutomationProvenance}
    (h : store.Readable) (hpln : env.IsPlain)
    (hnms : (host = none → request.sender.utf8ByteSize ≤ maxNameBytes) ∧
      ∀ found, host = some found → found.IsSmall)
    (hadm : AdmittedNew env request host store store') : store'.Readable := by
  refine ⟨hadm.sound h.sound, fun id record hrec => ?_, fun id found hfnd => ?_,
    fun id record hrec hrep => ?_⟩
  · rw [hadm.interactions, lookup_insert] at hrec
    split at hrec
    · rw [← Option.some.inj hrec]
      exact admissionRecord_small hpln hadm.message hnms.1
    · exact h.small id record hrec
  · rw [hadm.hostTasks] at hfnd
    cases host with
    | none => exact h.hosts id found hfnd
    | some host =>
      dsimp only at hfnd
      rw [lookup_insert] at hfnd
      split at hfnd
      · rw [← Option.some.inj hfnd]
        exact hnms.2 host rfl
      · exact h.hosts id found hfnd
  · rw [hadm.structuredReplies]
    rw [hadm.interactions, lookup_insert] at hrec
    split at hrec
    · rw [← Option.some.inj hrec] at hrep
      unfold admissionRecord at hrep
      dsimp only at hrep
      split at hrep <;> cases hrep
    · exact h.replies id record hrec hrep

theorem Store.Readable.replied {sender requestId message : String} {status : ReplyStatus}
    {task : InteractionRecord} {delivery : Delivery} (h : store.Readable) (hpln : env.IsPlain)
    (hval : ValidMessage message) (hsndr : sender.utf8ByteSize ≤ maxNameBytes)
    (hrepd : RepliedNew env sender requestId status message store store' task delivery) :
    store'.Readable := by
  have hkd := h.sound.keyed
  have htask := h.small requestId task hrepd.taskRow
  refine ⟨hrepd.sound h.sound, fun id record hrec => ?_, fun id found hfnd => ?_,
    fun id record hrec hrep => ?_⟩
  · rcases hrepd.record_cases hkd hrec with ⟨-, rfl⟩ | ⟨-, rfl⟩ | ⟨-, hold⟩
    · refine ⟨⟨message, rfl, hval.2⟩, newId_le (by decide) hpln.uuid, hsndr,
        fun parent hpar => ?_, hpln.now⟩
      obtain rfl : requestId = parent := Option.some.inj hpar
      rw [← hkd requestId task hrepd.taskRow]
      exact htask.id
    · exact ⟨htask.body, htask.id, htask.sender, htask.parent, htask.created⟩
    · exact h.small id record hold
  · rw [hrepd.hostTasks] at hfnd
    exact h.hosts id found hfnd
  · have hgr : ∀ parent : String, parent = requestId ∨
        (store.structuredReplies[parent]?).isSome → (store'.structuredReplies[parent]?).isSome := by
      rintro parent hpar
      rw [hrepd.structuredReplies, lookup_insert]
      split
      · rfl
      · rcases hpar with rfl | hsome
        · exact absurd rfl ‹¬ _›
        · exact hsome
    rcases hrepd.record_cases hkd hrec with ⟨-, rfl⟩ | ⟨-, rfl⟩ | ⟨-, hold⟩
    · exact ⟨requestId, rfl, hgr requestId (.inl rfl)⟩
    · rw [InteractionRecord.completed, hrepd.kind] at hrep
      cases hrep
    · obtain ⟨parent, hpar, hsome⟩ := h.replies id record hold hrep
      exact ⟨parent, hpar, hgr parent (.inr hsome)⟩

theorem Store.Readable.received (h : store.Readable) {cursor ackCursor : Option String} {limit : Nat}
    {page : AgentMessagePage} {ack after : Nat} {read : List Availability} {scan : PageScan}
    (hrcv : Received env recipient cursor ackCursor limit page store store' ack after read scan) :
    store'.Readable := by
  have heff : Effect id env (.receive recipient cursor ackCursor limit) (.ok (.page page)) store
      store' := .received hrcv
  have hsnd := h.sound.step heff
  have hfrm := hrcv.frame
  refine ⟨hsnd, ?_, ?_, ?_⟩ <;> rw [hfrm]
  · exact h.small
  · exact h.hosts
  · exact h.replies

theorem Store.Readable.step (h : store.Readable) (hpln : env.IsPlain) (hmail : call.IsMail)
    (heff : Effect sha256 env call answer store store') : store'.Readable := by
  cases heff with
  | failed | admittedBefore | repliedBefore | unclaimed | unchanged | markedBefore
  | recordedBefore => exact h
  | admitted hcall hrec hadm => exact h.admitted hpln (hmail.admission hcall) hadm
  | @replied call r replied store store₁ store'' task delivery hcall hval hrepd hclsd =>
    cases call with
    | reply sender requestId status message =>
      obtain rfl := Option.some.inj hcall
      obtain rfl : store' = store₁ := hclsd
      exact h.replied hpln hval hmail hrepd
    | replyStartupFailure => cases hmail
    | _ => cases hcall
  | received hrcv => exact h.received hrcv
  | claimed hcall =>
    rw [hmail.claiming] at hcall
    cases hcall
  | _ => cases hmail

/-! ### Nothing of what may be read changes -/

/-- Every row waits for its receiver, or is its own. -/
def Store.Receivable (store : Store) : Prop :=
  ∀ (id : String) (delivery : Delivery), store.deliveries[id]? = some delivery →
    delivery.owner.isReceivable = true

theorem Store.receivable_empty : Store.empty.Receivable := by
  intro id delivery h
  rw [show Store.empty.deliveries = ∅ from rfl, lookup_empty] at h
  cases h

theorem Store.Receivable.of_kept (h : store.Receivable) (hkept : RowsKept store store')
    (hnew : NewRowsFree store store') : store'.Receivable := by
  intro id delivery hdel
  cases hold : store.deliveries[id]? with
  | none => exact isReceivable_iff.2 (.inl (hnew id delivery hold hdel))
  | some old =>
    obtain ⟨_, hsame, rfl⟩ := hkept id old hold
    rw [hdel] at hsame
    rw [Option.some.inj hsame]
    exact h id _ hold

theorem Store.Receivable.received (h : store.Receivable) {cursor ackCursor : Option String} {limit : Nat}
    {page : AgentMessagePage} {ack after : Nat} {read : List Availability} {scan : PageScan}
    (hrcv : Received env recipient cursor ackCursor limit page store store' ack after read scan) :
    store'.Receivable := by
  intro id delivery hdel
  rcases hrcv.reads.row id with hsame | ⟨-, found, token, -, -, hnew⟩
  · exact h id delivery (hsame.symm.trans hdel)
  · rw [show store'.deliveries[id]? = some (found.received token) from hnew] at hdel
    rw [← Option.some.inj hdel]
    rfl

theorem Store.Receivable.step (h : store.Receivable) (hmail : call.IsMail)
    (heff : Effect sha256 env call answer store store') : store'.Receivable := by
  have hnew := heff.new_rows_free
  cases heff with
  | failed | admittedBefore | repliedBefore | unclaimed | unchanged | markedBefore
  | recordedBefore => exact h
  | admitted hcall hrec hadm => exact h.of_kept hadm.rows hnew
  | @replied call r replied store store₁ store'' task delivery hcall hval hrepd hclsd =>
    cases call with
    | reply sender requestId status message =>
      obtain rfl := Option.some.inj hcall
      obtain rfl : store' = store₁ := hclsd
      exact h.of_kept hrepd.rows hnew
    | replyStartupFailure => cases hmail
    | _ => cases hcall
  | received hrcv => exact h.received hrcv
  | claimed hcall =>
    rw [hmail.claiming] at hcall
    cases hcall
  | _ => cases hmail

/-- Where every row may be read, the rows behind a sequence are all of them. -/
theorem rowsAfter_eq (hsnd : store.Sound) (h : store.Receivable) (after : Nat) :
    store.rowsAfter recipient after = store.availability.filter fun row =>
      row.recipient = recipient ∧ after < row.sequence := by
  refine filter_congr fun row hrow => ?_
  have hrdbl : store.isReadable row = true := by
    obtain ⟨delivery, hdel, -⟩ := hsnd.available row hrow
    unfold Store.isReadable
    rw [hdel, Option.all_some, h _ delivery hdel, Bool.and_true,
      ← Std.ExtTreeMap.isSome_getElem?_eq_contains]
    exact hsnd.known row hrow
  simp [hrdbl]

/-- The rows behind a later sequence, among those behind an earlier one. -/
theorem rowsAfter_of_le {after later : Nat} (hle : after ≤ later) :
    store.rowsAfter recipient later =
      (store.rowsAfter recipient after).filter fun row => later < row.sequence := by
  unfold Store.rowsAfter
  rw [filter_filter]
  refine filter_congr fun row _ => ?_
  rw [← Bool.decide_and]
  congr 1
  apply propext
  constructor
  · exact fun h => ⟨h.2.1, h.1, by omega, h.2.2⟩
  · exact fun h => ⟨h.2.1, h.1, h.2.2.2⟩

theorem Received.rowsAfter_sequence {cursor ackCursor : Option String} {limit : Nat}
    {page : AgentMessagePage} {ack after : Nat} {read rest : List Availability} {scan : PageScan}
    (h : Received env recipient cursor ackCursor limit page store store' ack after read scan)
    (hsnd : store.Sound) (heq : store.rowsAfter recipient after = read ++ rest) :
    store.rowsAfter recipient scan.sequence = rest := by
  have hpair : (read ++ rest).Pairwise fun row row' => row.sequence < row'.sequence := by
    rw [← heq]
    exact hsnd.ordered.filter _
  have hbeh : ∀ row ∈ read ++ rest, after < row.sequence := by
    rw [← heq]
    exact fun row hrow => (mem_rowsAfter.1 hrow).2.2.1
  rcases h.sequence_cases with ⟨rfl, hseq⟩ | ⟨init, last, rfl, hseq⟩
  · rw [hseq, heq, nil_append]
  · have hlast := hbeh last (by simp)
    rw [hseq, rowsAfter_of_le hlast.le, heq, filter_append]
    obtain ⟨hread, -, hacross⟩ := pairwise_append.1 hpair
    obtain ⟨-, -, hinit⟩ := pairwise_append.1 hread
    have hnone : (init ++ [last]).filter (fun row => last.sequence < row.sequence) = [] := by
      refine filter_eq_nil_iff.2 fun row hrow hlt => ?_
      have hlt' := of_decide_eq_true hlt
      rcases mem_append.1 hrow with hmem | hmem
      · have := hinit row hmem last (mem_singleton_self _)
        omega
      · rw [mem_singleton.1 hmem] at hlt'
        omega
    have hall : rest.filter (fun row => last.sequence < row.sequence) = rest := by
      refine filter_eq_self.2 fun row hrow => decide_eq_true ?_
      exact hacross last (by simp) row hrow
    rw [hnone, hall, nil_append]

/-- A reply leaves the messages that were there: it only completes the record of its task, which shows
no status. -/
theorem RepliedNew.messageOf_kept {sender requestId message : String} {status : ReplyStatus}
    {task : InteractionRecord} {delivery : Delivery}
    (h : RepliedNew env sender requestId status message store store' task delivery)
    (hrdbl : store.Readable) {id : String} (hid : newId "int" (env.uuid 0) ≠ id)
    (hkn : (store.interactions[id]?).isSome) : store'.messageOf id = store.messageOf id := by
  obtain ⟨record, hrec⟩ := Option.isSome_iff_exists.1 hkn
  have hlook := h.lookup hrdbl.sound.keyed id
  rw [if_neg hid] at hlook
  unfold Store.messageOf
  rw [hlook, hrec, h.hostTasks]
  by_cases hsame : requestId = id
  · subst hsame
    obtain rfl : task = record := Option.some.inj (h.taskRow.symm.trans hrec)
    have hkind : task.kind ≠ .reply := by
      rw [h.kind]
      exact fun heq => by cases heq
    rw [if_pos rfl, Option.bind_some, Option.bind_some]
    unfold Store.statusOf InteractionRecord.completed
    rw [if_neg hkind, if_neg hkind]
  · rw [if_neg hsame, Option.bind_some, Option.bind_some]
    unfold Store.statusOf
    by_cases hkind : record.kind = .reply
    · obtain ⟨parent, hpar, hsome⟩ := hrdbl.replies id record hrec hkind
      have hoth : requestId ≠ parent := by
        rintro rfl
        rw [h.unanswered] at hsome
        cases hsome
      rw [if_pos hkind, if_pos hkind, hpar, Option.getD_some, h.structuredReplies,
        lookup_insert, if_neg hoth]
    · rw [if_neg hkind, if_neg hkind]

theorem messageOf_kept (hrdbl : store.Readable) (hunus : store.Unused env)
    (hmail : call.IsMail) (heff : Effect sha256 env call answer store store') {id : String}
    (hkn : (store.interactions[id]?).isSome) : store'.messageOf id = store.messageOf id := by
  have hnew : ∀ key, IsRecordId key (env.uuid 0) → key ≠ id := by
    rintro key hkey rfl
    rw [hunus.unused 0 _ hkey] at hkn
    cases hkn
  cases heff with
  | failed => rfl
  | admittedBefore => rfl
  | @admitted call request host admitted store store' hcall hrec hadm =>
    have hne := hnew _ (isRecordId_admissionRecord env request host)
    have hints : store'.interactions[id]? = store.interactions[id]? := by
      rw [hadm.interactions, lookup_insert, if_neg hne]
    have hhost : store'.hostTasks[id]? = store.hostTasks[id]? := by
      rw [hadm.hostTasks]
      cases host with
      | none => rfl
      | some host => rw [lookup_insert, if_neg hne]
    unfold Store.messageOf Store.statusOf
    rw [hints, hhost, hadm.structuredReplies]
  | repliedBefore => rfl
  | @replied call r replied store store₁ store'' task delivery hcall hval hrepd hclsd =>
    cases call with
    | reply sender requestId status message =>
      obtain rfl := Option.some.inj hcall
      obtain rfl : store' = store₁ := hclsd
      exact hrepd.messageOf_kept hrdbl (hnew _ (.inr rfl)) hkn
    | replyStartupFailure => cases hmail
    | _ => cases hcall
  | received hrcv =>
    rw [hrcv.frame]
    rfl
  | claimed hcall =>
    rw [hmail.claiming] at hcall
    cases hcall
  | unclaimed => rfl
  | unchanged => rfl
  | markedBefore => rfl
  | recordedBefore => rfl
  | _ => cases hmail

end

end Wardian.Messaging
