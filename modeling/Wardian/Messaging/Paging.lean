/-
Paging through a mailbox.

As long as the scheduler claims nothing, the pages of a recipient cut its stream into pieces, one
behind the other.  A page is cut off by the number of messages asked for, by the bytes of their texts
or by the bytes of the whole page; whichever it is, the cursor stands behind the last message on the
page, and the next page starts there.

Main results:

* `Messaging.Received.parts` — where a page is cut off;
* `Messaging.Received.again` — a page that is asked for again is the same;
* `Messaging.paging` — the pages of every run make progress and partition the stream.
-/

import Wardian.Messaging.Mail
import Wardian.Messaging.Terminal

set_option autoImplicit false

namespace Wardian.Messaging

open List

/-! ### What has been read and what is left -/

/-- The messages of a recipient, in the order of their sequences. -/
def Store.streamOf (store : Store) (recipient : String) : List Availability :=
  store.availability.filter fun row => row.recipient = recipient

/-- The messages of a recipient behind a sequence. -/
def Store.streamAfter (store : Store) (recipient : String) (after : Nat) : List Availability :=
  (store.streamOf recipient).filter fun row => after < row.sequence

/-- The messages of a recipient behind its cursor. -/
def Store.unread (store : Store) (recipient : String) (reader : Reader) : List Availability :=
  store.streamAfter recipient ((store.cursorOf recipient 0 reader.cursor).getD 0)

/-- The pages that a recipient has read and what is unread make up its stream, one behind the other,
and no message was on two pages. -/
structure Paged (recipient : String) (reader : Reader) (store : Store) : Prop where
  ordered : (store.streamOf recipient).Pairwise fun row row' => row.sequence < row'.sequence
  parts : ∃ read, store.streamOf recipient = read ++ store.unread recipient reader ∧
    read.map (fun row => store.messageOf row.interactionId) =
      (reader.pages.flatMap AgentMessagePage.messages).map some
  once : ((reader.pages.flatMap AgentMessagePage.messages).map
    AgentMessage.interactionId).Nodup

/-- The page has the first messages that are unread, at least one if there is one, and says whether it
leaves some. -/
structure ReadsOn (recipient : String) (reader : Reader) (store store' : Store) (limit : Nat)
    (page : AgentMessagePage) : Prop where
  parts : ∃ read, store.unread recipient reader =
      read ++ store'.unread recipient (reader.after (.ok (.page page))) ∧
    read.map (fun row => store.messageOf row.interactionId) = page.messages.map some
  progress : store.unread recipient reader ≠ [] → page.messages ≠ []
  more : page.hasMore = true ↔ store'.unread recipient (reader.after (.ok (.page page))) ≠ []
  items : page.messages.length ≤ limit
  body : (page.messages.map fun message => message.message.utf8ByteSize).sum ≤ maxReceiveBodyBytes
  serialized : page.encode.utf8ByteSize ≤ maxReceiveSerializedBytes

/-- The token that the environment draws for a cursor stands for nothing yet. -/
def Store.Unissued (store : Store) (env : Env) : Prop :=
  ∀ cursor ∈ store.cursors, cursor.token ≠ newId "am1" (env.uuid 0)

/-- A page that nobody acknowledges for the recipient when it starts from what is acknowledged. -/
def Call.IsPageBeside (recipient : String) (cursor : Option String) (call : Call) : Prop :=
  ∃ someone theirs ackCursor limit, call = .receive someone theirs ackCursor limit ∧
    (cursor = none → someone = recipient → ackCursor = none)

/-- The recipient gets the same messages again when it asks for them again, with the same cursor and
limit, however many pages were read in between. -/
def Event.Repeats (sha256 : String → String) (recipient : String) (cursor ackCursor : Option String)
    (limit : Nat) (page : AgentMessagePage) (event : Event) : Prop :=
  ∀ (between : List Event) (again : Event) (ackCursor' : Option String),
    History sha256 event.after between again.before →
    (∀ other ∈ between, other.call.IsPageBeside recipient cursor) → again.Served sha256 →
    again.call = .receive recipient cursor ackCursor' limit →
    (ackCursor' = none ∨ ackCursor' = ackCursor) → again.before.Unissued again.env →
    ∃ page', again.answer = .ok (.page page') ∧ page'.messages = page.messages ∧
      page'.hasMore = page.hasMore

/-! ### Where a page is cut off -/

section

variable {sha256 : String → String} {env : Env} {recipient : String} {store store' : Store}
  {cursor ackCursor : Option String} {limit ack after : Nat} {page : AgentMessagePage}
  {read : List Availability} {scan : PageScan} {reader : Reader} {position : Nat}
  {event : Event} {steps : List Step} {call : Call} {answer : Except Failure Answer}

/-- The page has the first rows, and at least one if there is one; it says whether rows are left. -/
theorem Received.parts
    (h : Received env recipient cursor ackCursor limit page store store' ack after read scan) :
    ∃ rest, store.rowsAfter recipient after = read ++ rest ∧ read.length ≤ limit ∧
      (page.hasMore = true ↔ rest ≠ []) ∧ (store.rowsAfter recipient after ≠ [] → read ≠ []) := by
  have hspl := take_append_drop limit (store.rowsAfter recipient after)
  have hlen := length_take_le limit (store.rowsAfter recipient after)
  have hpos := h.limit_pos
  rw [h.hasMore]
  rcases h.reads.rest with ⟨heq, hmore⟩ | ⟨next, rest, message, heq, -, -, hsome, hmore⟩
  · refine ⟨(store.rowsAfter recipient after).drop limit, by rw [← heq, hspl], ?_, ?_, ?_⟩
    · rw [← heq]
      exact hlen
    · rw [hmore, decide_eq_true_iff, Ne, drop_eq_nil_iff, Nat.not_le]
    · rintro hne rfl
      rw [take_eq_nil_iff] at heq
      rcases heq with hzero | hnil
      · omega
      · exact hne hnil
  · refine ⟨next :: rest ++ (store.rowsAfter recipient after).drop limit, ?_, ?_, ?_, ?_⟩
    · rw [← append_assoc, ← heq, hspl]
    · rw [heq, length_append] at hlen
      omega
    · exact iff_of_true hmore (by simp)
    · rintro - rfl
      obtain ⟨messages, hmsgs, hmap⟩ := h.reads.messages
      have hnil : messages = [] := map_eq_nil_iff.1 hmap.symm
      rw [hmsgs, hnil] at hsome
      exact hsome rfl

theorem encodeMessages_le (messages : List AgentMessage) :
    (encodeMessages messages).utf8ByteSize ≤
      (messages.map fun message => message.encode.utf8ByteSize + 1).sum := by
  have hcomma : String.utf8ByteSize "," = 1 := by decide
  induction messages with
  | nil => exact Nat.zero_le _
  | cons message messages ih =>
    rw [map_cons, sum_cons]
    cases messages with
    | nil => exact (Nat.le_succ _).trans (Nat.le_add_right _ _)
    | cons next messages =>
      rw [encodeMessages, String.utf8ByteSize_append, String.utf8ByteSize_append, hcomma]
      · exact Nat.add_le_add_left ih _
      · exact fun heq => by cases heq

/-- What surrounds the messages of a page has room in what is reserved for it. -/
theorem AgentMessagePage.encode_le (hnext : page.nextCursor.utf8ByteSize ≤ maxStampBytes)
    (hack : page.ackCursor.utf8ByteSize ≤ maxStampBytes) (hwake : page.wakeReason = none) :
    page.encode.utf8ByteSize ≤ pageEnvelopeBytes +
      (page.messages.map fun message => message.encode.utf8ByteSize + 1).sum := by
  have hbool : ∀ b, (encodeBool b).utf8ByteSize ≤ 5 := by
    intro b
    cases b <;> decide
  have h₁ : String.utf8ByteSize "\x7b\"messages\":[" ≤ 13 := by decide
  have h₂ : String.utf8ByteSize "],\"next_cursor\":" ≤ 16 := by decide
  have h₃ : String.utf8ByteSize ",\"ack_cursor\":" ≤ 14 := by decide
  have h₄ : String.utf8ByteSize ",\"has_more\":" ≤ 12 := by decide
  have h₅ : String.utf8ByteSize ",\"timed_out\":" ≤ 13 := by decide
  have h₆ : String.utf8ByteSize "\x7d" ≤ 1 := by decide
  have hreason : (encodeWakeReason page.wakeReason).utf8ByteSize ≤ 0 := by
    rw [hwake]
    decide
  have hmsgs := append_le (append_le (append_le h₁ (encodeMessages_le page.messages)) h₂)
    (quote_le hnext)
  have hcursrs := append_le (append_le (append_le hmsgs h₃) (quote_le hack)) h₄
  have hflags := append_le (append_le (append_le hcursrs (hbool page.hasMore)) h₅)
    (hbool page.timedOut)
  have hall := append_le (append_le hflags hreason) h₆
  have hstamp : maxStampBytes = 36 := rfl
  have henve : pageEnvelopeBytes = 1024 := rfl
  refine hall.trans ?_
  rw [hstamp, henve]
  omega

theorem Received.budget
    (h : Received env recipient cursor ackCursor limit page store store' ack after read scan)
    (hnext : page.nextCursor.utf8ByteSize ≤ maxStampBytes) :
    (page.messages.map fun message => message.message.utf8ByteSize).sum ≤ maxReceiveBodyBytes ∧
      page.encode.utf8ByteSize ≤ maxReceiveSerializedBytes := by
  have hstart : pageEnvelopeBytes ≤ maxReceiveSerializedBytes := by decide
  obtain ⟨hbody, hseri⟩ := h.reads.budget (Nat.zero_le _) hstart
  obtain ⟨hbodySum, hserializedSum⟩ := h.reads.bytes rfl rfl
  rw [h.messages]
  refine ⟨hbodySum ▸ hbody, ?_⟩
  have henc := page.encode_le hnext (h.ackCursor_eq ▸ hnext) h.at_once.2
  rw [h.messages] at henc
  omega

/-! ### Cursors -/

theorem isCursorFormat_newId {uuid : String} (h : uuid.utf8ByteSize = 32) :
    isCursorFormat (newId "am1" uuid) = true := by
  have hkind : String.utf8ByteSize "am1" = 3 := by decide
  have hunder : String.utf8ByteSize "_" = 1 := by decide
  have hfrt : ("am1_" : String) = "am1" ++ "_" := by decide
  have hstart : (newId "am1" uuid).startsWith "am1_" = true := by
    rw [hfrt, String.startsWith_string_iff]
    unfold newId
    rw [String.toList_append (t := uuid)]
    exact prefix_append _ _
  unfold isCursorFormat
  rw [hstart, Bool.true_and, decide_eq_true_iff]
  unfold newId
  rw [String.utf8ByteSize_append, String.utf8ByteSize_append, hkind, hunder, h]

theorem cursorOf_of_mem (htoks : (store.cursors.map Cursor.token).Nodup) {token : String} {sequence : Nat}
    (hmem : ⟨token, recipient, sequence⟩ ∈ store.cursors) (hformat : isCursorFormat token = true)
    (default : Nat) : store.cursorOf recipient default (some token) = some sequence := by
  unfold Store.cursorOf
  dsimp only
  rw [if_pos hformat]
  have hfnd : (store.cursors.find? fun cursor => cursor.token = token).isSome :=
    find?_isSome.2 ⟨_, hmem, decide_eq_true rfl⟩
  obtain ⟨found, hfind⟩ := Option.isSome_iff_exists.1 hfnd
  have htok : found.token = token := by
    have hmatch := find?_some hfind
    exact of_decide_eq_true hmatch
  have heq := cursor_unique htoks (mem_of_find?_eq_some hfind) hmem htok
  rw [hfind, heq, Option.filter_some_pos (by simp)]
  rfl

theorem cursorOf_kept {new : List Cursor} (hcursrs : store'.cursors = store.cursors ++ new) {token : String}
    {default sequence : Nat} (h : store.cursorOf recipient default (some token) = some sequence)
    (default' : Nat) : store'.cursorOf recipient default' (some token) = some sequence := by
  unfold Store.cursorOf at h ⊢
  dsimp only at h ⊢
  split at h
  · rw [if_pos ‹_›, hcursrs, find?_append]
    cases hfind : store.cursors.find? fun cursor => cursor.token = token with
    | none =>
      rw [hfind] at h
      cases h
    | some found =>
      rw [hfind] at h
      exact h
  · cases h

theorem Effect.tokens (h : Effect sha256 env call answer store store') :
    ∃ new, store'.cursors = store.cursors ++ new ∧
      ∀ cursor ∈ new, cursor.token = newId "am1" (env.uuid 0) := by
  have hsame : store'.cursors = store.cursors → ∃ new, store'.cursors = store.cursors ++ new ∧
      ∀ cursor ∈ new, cursor.token = newId "am1" (env.uuid 0) :=
    fun heq => ⟨[], by rw [heq, append_nil], fun cursor hcurs => by cases hcurs⟩
  cases h with
  | admitted hcall hrec hadm => exact hsame hadm.cursors
  | replied hcall hval hrepd hclsd =>
    refine hsame ?_
    rw [hclsd.frame]
    exact hrepd.cursors
  | received hrcv =>
    rcases hrcv.cursors with ⟨heq, -⟩ | ⟨heq, htok, -⟩
    · exact hsame heq
    · refine ⟨_, heq, fun cursor hcurs => ?_⟩
      rw [mem_singleton.1 hcurs]
      exact htok
  | published hpub => exact hsame hpub.cursors.1
  | recovered _ hrcvs => exact hsame hrcvs.cursors.1
  | _ => exact hsame rfl

/-! ### The run -/

/-- How far a recipient has come in a run of mail: what is stored can be read, the cursors have the
tokens that were drawn, and the pages have the messages up to the position. -/
structure Mailed (recipient : String) (steps : List Step) (reader : Reader) (store : Store)
    (position : Nat) : Prop where
  place : Position recipient reader store position
  readable : store.Readable
  receivable : store.Receivable
  tokens : ∀ cursor ∈ store.cursors, ∃ step ∈ steps,
    cursor.token = newId "am1" (step.event.env.uuid 0)
  parts : ∃ read, store.streamOf recipient = read ++ store.streamAfter recipient position ∧
    read.map (fun row => store.messageOf row.interactionId) =
      (reader.pages.flatMap AgentMessagePage.messages).map some

/-- The event is mail, with identifiers of the usual length. -/
def Event.IsMail (event : Event) : Prop := event.call.IsMail ∧ event.env.IsPlain

/-- While every row waits for its receiver, a page reads from the whole stream. -/
theorem rowsAfter_eq_streamAfter (hsnd : store.Sound) (h : store.Receivable) :
    store.rowsAfter recipient after = store.streamAfter recipient after := by
  rw [rowsAfter_eq hsnd h]
  unfold Store.streamAfter Store.streamOf
  rw [filter_filter]
  refine filter_congr fun row _ => ?_
  rw [← Bool.decide_and]
  congr 1
  apply propext
  exact and_comm

theorem mem_streamOf {row : Availability} (h : row ∈ store.streamOf recipient) :
    row ∈ store.availability ∧ row.recipient = recipient := by
  obtain ⟨hrow, hrcp⟩ := mem_filter.1 h
  exact ⟨hrow, of_decide_eq_true hrcp⟩

/-- What is admitted later stands behind everything in the streams. -/
theorem StreamsGrow.stream (h : StreamsGrow store store') (recipient : String)
    (hpos : position ≤ store.lastSequence) :
    ∃ new, store'.streamOf recipient = store.streamOf recipient ++ new ∧
      store'.streamAfter recipient position = store.streamAfter recipient position ++ new := by
  obtain ⟨-, rows, havl, hltr⟩ := h
  refine ⟨rows.filter fun row => row.recipient = recipient, ?_, ?_⟩
  · unfold Store.streamOf
    rw [havl, filter_append]
  · unfold Store.streamAfter Store.streamOf
    rw [havl, filter_append, filter_append]
    congr 1
    refine filter_eq_self.2 fun row hrow => decide_eq_true ?_
    exact Nat.lt_of_le_of_lt hpos (hltr row (mem_filter.1 hrow).1)

theorem Mailed.format (h : Mailed recipient steps reader store position)
    (hmail : ∀ step ∈ steps, step.event.IsMail) {cursor : Cursor} (hcurs : cursor ∈ store.cursors) :
    isCursorFormat cursor.token = true ∧ cursor.token.utf8ByteSize ≤ maxStampBytes := by
  obtain ⟨step, hstep, htok⟩ := h.tokens cursor hcurs
  have hpln := (hmail step hstep).2.uuid
  rw [htok]
  exact ⟨isCursorFormat_newId hpln, newId_le (by decide) hpln⟩

theorem Mailed.cursorOf (h : Mailed recipient steps reader store position)
    (hmail : ∀ step ∈ steps, step.event.IsMail) :
    store.cursorOf recipient ((store.acks[recipient]?).getD 0) reader.cursor = some position ∧
      store.unread recipient reader = store.streamAfter recipient position := by
  have hacked := h.place.acked
  unfold Store.unread
  cases htok : reader.cursor with
  | none =>
    have hzero := h.place.start htok
    refine ⟨?_, ?_⟩
    · refine congrArg some (?_ : (store.acks[recipient]?).getD 0 = position)
      omega
    · rw [hzero]
      rfl
  | some token =>
    have hmem := h.place.current token htok
    have hformat := (h.format hmail hmem).1
    have hseq := cursorOf_of_mem h.place.tokens hmem hformat
    exact ⟨hseq _, by rw [hseq]; rfl⟩

/-- What a call adds to the cursors has the token of its event. -/
theorem tokens_step (step : Step)
    (h : ∀ cursor ∈ step.event.before.cursors, ∃ old ∈ steps,
      cursor.token = newId "am1" (old.event.env.uuid 0)) (hsrv : step.event.Served sha256) :
    ∀ cursor ∈ step.event.after.cursors, ∃ old ∈ steps ++ [step],
      cursor.token = newId "am1" (old.event.env.uuid 0) := by
  obtain ⟨new, hcursrs, hnew⟩ := hsrv.effect.tokens
  intro cursor hcurs
  rw [hcursrs] at hcurs
  rcases mem_append.1 hcurs with hold | hmem
  · obtain ⟨old, hsteps, htok⟩ := h cursor hold
    exact ⟨old, mem_append_left _ hsteps, htok⟩
  · exact ⟨step, mem_append_right _ (mem_singleton_self _), hnew cursor hmem⟩

theorem Call.IsMail.releasesAhead (h : event.call.IsMail) : Step.ReleasesAhead recipient ⟨reader, event⟩ := by
  rintro claim ⟨-, given, hcall, -⟩
  rw [hcall] at h
  cases h

/-- Mail of others leaves a recipient where it is, and only adds to what is ahead of it. -/
theorem Mailed.other (h : Mailed recipient steps reader event.before position) (hsrv : event.Served sha256)
    (hmail : event.IsMail) (hunus : event.before.Unused event.env)
    (hcall : ∀ cursor ackCursor limit, event.call ≠ .receive recipient cursor ackCursor limit) :
    Mailed recipient (steps ++ [⟨reader, event⟩]) reader event.after position := by
  have heff := hsrv.effect
  refine ⟨h.place.other hsrv hcall hmail.1.releasesAhead,
    h.readable.step hmail.2 hmail.1 heff, h.receivable.step hmail.1 heff,
    tokens_step ⟨reader, event⟩ h.tokens hsrv, ?_⟩
  obtain ⟨read, hread, hmsgs⟩ := h.parts
  obtain ⟨new, hstrm, hbeh⟩ := heff.grow.stream recipient h.place.bounded
  refine ⟨read, by rw [hstrm, hbeh, hread, append_assoc], ?_⟩
  rw [← hmsgs]
  refine map_congr_left fun row hrow => ?_
  have hmem : row ∈ event.before.streamOf recipient := by
    rw [hread]
    exact mem_append_left _ hrow
  exact messageOf_kept h.readable hunus hmail.1 heff
    (h.place.sound.known row (mem_streamOf hmem).1)

/-- The page moves the recipient on, and what it has is what lies in between. -/
theorem Mailed.next (h : Mailed recipient steps reader event.before position) (hsrv : event.Served sha256)
    (hcall : event.call = .receive recipient reader.cursor ackCursor limit)
    (hack : ∀ token, ackCursor = some token → ∃ page ∈ reader.pages, token = page.ackCursor)
    (hans : event.answer = .ok (.page page))
    (hrcv : Received event.env recipient reader.cursor ackCursor limit page event.before
      event.after ack after read scan) :
    Mailed recipient (steps ++ [⟨reader, event⟩]) (reader.after event.answer) event.after
      scan.sequence := by
  have heff := hsrv.effect
  rw [hcall, hans] at heff
  have hplc := h.place.read hack heff hrcv
  obtain ⟨-, rfl⟩ := h.place.starts hack hrcv
  have hrece := h.receivable.received hrcv
  have hrdbl := h.readable.received hrcv
  rw [hans]
  refine ⟨hplc, hrdbl, hrece,
    tokens_step ⟨reader, event⟩ h.tokens hsrv, ?_⟩
  obtain ⟨before, hbef, hmsgs⟩ := h.parts
  obtain ⟨messages, hscan, hmap⟩ := hrcv.reads.messages
  obtain ⟨rest, hstem⟩ := hrcv.stem
  have hrest := hrcv.rowsAfter_sequence h.place.sound hstem
  rw [rowsAfter_eq_streamAfter h.place.sound h.receivable] at hstem hrest
  have havl : event.after.availability = event.before.availability := by
    rw [hrcv.frame]
  have hstrm : event.after.streamOf recipient = event.before.streamOf recipient := by
    unfold Store.streamOf
    rw [havl]
  have hmessageOf : event.after.messageOf = event.before.messageOf := by
    rw [hrcv.frame]
    rfl
  refine ⟨before ++ read, ?_, ?_⟩
  · unfold Store.streamAfter at hrest ⊢
    rw [hstrm, hrest, hbef, hstem, append_assoc]
  · rw [hmessageOf, map_append, hmsgs, hmap]
    unfold Reader.after
    dsimp only
    rw [flatMap_append, map_append, flatMap_singleton, hrcv.messages, hscan,
      nil_append]

theorem Mailbox.exists_mailed (h : Mailbox sha256 recipient steps reader store)
    (hmail : ∀ step ∈ steps, step.event.IsMail)
    (hunus : ∀ step ∈ steps, step.event.before.Unused step.event.env) :
    ∃ position, Mailed recipient steps reader store position := by
  induction h with
  | start =>
    obtain ⟨position, hplc⟩ := Mailbox.exists_position
      (.start : Mailbox sha256 recipient [] ⟨none, []⟩ Store.empty) fun step hstep => by cases hstep
    obtain rfl := hplc.start rfl
    exact ⟨0, hplc, Store.readable_empty, Store.receivable_empty,
      fun cursor hcurs => (by cases hcurs), [], rfl, rfl⟩
  | @other steps reader event hbef hsrv hcall ih =>
    have hthis : (⟨reader, event⟩ : Step) ∈ steps ++ [⟨reader, event⟩] := by simp
    obtain ⟨position, hpos⟩ := ih (fun step hstep => hmail step (mem_append_left _ hstep))
      fun step hstep => hunus step (mem_append_left _ hstep)
    exact ⟨position, hpos.other hsrv (hmail _ hthis) (hunus _ hthis) hcall⟩
  | @read steps reader event ackCursor limit hbef hsrv hcall hack ih =>
    obtain ⟨position, hpos⟩ := ih (fun step hstep => hmail step (mem_append_left _ hstep))
      fun step hstep => hunus step (mem_append_left _ hstep)
    have heff := hsrv.effect
    rw [hcall] at heff
    rcases heff.receive_inv with ⟨hsame, hreader⟩ |
      ⟨page, ack, after, read, scan, hans, hrcv⟩
    · rw [hsame, hreader]
      refine ⟨position, hpos.place, hpos.readable, hpos.receivable,
        fun cursor hcurs => ?_, hpos.parts⟩
      obtain ⟨step, hstep, htok⟩ := hpos.tokens cursor hcurs
      exact ⟨step, mem_append_left _ hstep, htok⟩
    · exact ⟨scan.sequence, hpos.next hsrv hcall hack hans hrcv⟩

/-! ### The next page -/

theorem Event.Served.received (hsrv : event.Served sha256)
    (hcall : event.call = .receive recipient cursor ackCursor limit)
    (hcan : ¬ NotReceived event.env recipient cursor ackCursor limit event.before) :
    ∃ page ack after read scan, event.answer = .ok (.page page) ∧
      Received event.env recipient cursor ackCursor limit page event.before event.after ack after
        read scan := by
  have hwp : Prog.Wp (serve sha256 event.env event.call)
      (fun answer store' => ∃ page ack after read scan, answer = .page page ∧
        Received event.env recipient cursor ackCursor limit page event.before store' ack after
          read scan)
      (fun _ _ => False) event.before := by
    rw [hcall]
    refine wp_answering (wp_receive (fun page store' ack after read scan hrcv => ?_)
      fun e hnot => hcan hnot)
    exact ⟨page, ack, after, read, scan, rfl, hrcv⟩
  have hrun : serve sha256 event.env event.call event.before = (event.answer, event.after) :=
    hsrv
  cases hans : event.answer with
  | error e =>
    rw [hans] at hrun
    exact (hwp.of_error hrun).elim
  | ok answer =>
    rw [hans] at hrun
    obtain ⟨page, ack, after, read, scan, rfl, hrcv⟩ := hwp.of_ok hrun
    exact ⟨page, ack, after, read, scan, rfl, hrcv⟩

/-- What stops a page: the limit, a cursor that is none of the recipient's, or a token that is taken. -/
theorem Store.Readable.not_notReceived (h : store.Readable) (hpos : 0 < limit) (hle : limit ≤ maxReceiveItems)
    (hack : store.cursorOf recipient ((store.acks[recipient]?).getD 0) ackCursor ≠ none)
    (hcurs : ∀ default, store.cursorOf recipient default cursor ≠ none) (hunis : store.Unissued env) :
    ¬ NotReceived env recipient cursor ackCursor limit store := by
  rintro (hzero | hmany | hnone | ⟨default, hnone⟩ | ⟨after, hasMore, hstk⟩ |
    ⟨cursor, hmem, htok⟩)
  · omega
  · omega
  · exact hack hnone
  · exact hcurs default hnone
  · exact h.not_stuck hstk
  · exact hunis cursor hmem htok

/-- What pages leave alone. -/
structure OnlyRead (recipient : String) (cursor : Option String) (store store' : Store) : Prop where
  readable : store'.Readable
  receivable : store'.Receivable
  stream : store'.streamOf recipient = store.streamOf recipient
  messageOf : store'.messageOf = store.messageOf
  cursors : ∃ new, store'.cursors = store.cursors ++ new
  acks : cursor = none → store'.acks[recipient]? = store.acks[recipient]?

theorem OnlyRead.step {start : Store} (h : OnlyRead recipient cursor start store)
    (hcall : call.IsPageBeside recipient cursor) (heff : Effect sha256 env call answer store store') :
    OnlyRead recipient cursor start store' := by
  obtain ⟨someone, theirs, ackCursor, limit, rfl, hown⟩ := hcall
  obtain ⟨new, hcursrs⟩ := h.cursors
  obtain ⟨newer, hgr, -⟩ := heff.tokens
  have hoths := (heff.cursors recipient).2
  rcases heff.receive_inv with ⟨hsame, -⟩ | ⟨page, ack, after, read, scan, -, hrcv⟩
  · rw [hsame]
    exact h
  · have hfrm := hrcv.frame
    have hmessageOf : store'.messageOf = store.messageOf := by
      rw [hfrm]
      rfl
    have hstrm : store'.streamOf recipient = store.streamOf recipient := by
      rw [hfrm]
      rfl
    refine ⟨h.readable.received hrcv, h.receivable.received hrcv,
      hstrm.trans h.stream, hmessageOf.trans h.messageOf, ⟨new ++ newer, ?_⟩, fun hnone => ?_⟩
    · rw [hgr, hcursrs, append_assoc]
    · refine Eq.trans ?_ (h.acks hnone)
      by_cases hsome : someone = recipient
      · rw [hrcv.acks, hown hnone hsome]
        rfl
      · refine hoths fun cursor ackCursor limit heq => ?_
        exact hsome (Call.receive.inj heq).1

variable {token : Option String}

section

variable (h : Received env recipient cursor ackCursor limit page store store' ack after read scan)
include h

/-- What a cursor of the first page stands for is what it stands for later. -/
theorem Received.cursorOf_again {later : Store}
    (hread : OnlyRead recipient cursor store' later) (hsome : token ≠ none) {default sequence : Nat}
    (hseq : store.cursorOf recipient default token = some sequence) (default' : Nat) :
    later.cursorOf recipient default' token = some sequence := by
  obtain ⟨first, hfst⟩ : ∃ new, store'.cursors = store.cursors ++ new := by
    rcases h.cursors with ⟨heq, -⟩ | ⟨heq, -⟩
    · exact ⟨[], by rw [heq, append_nil]⟩
    · exact ⟨_, heq⟩
  obtain ⟨new, hnew⟩ := hread.cursors
  have hcursrs : later.cursors = store.cursors ++ (first ++ new) := by
    rw [hnew, hfst, append_assoc]
  cases token with
  | none => exact absurd rfl hsome
  | some token => exact cursorOf_kept hcursrs hseq default'

/-- The acknowledged mark that a page leaves is the one that it has started from. -/
theorem Received.acked :
    (store'.acks[recipient]?).getD 0 = ack := by
  obtain ⟨given, hgvn, hack_eq⟩ := h.ack_eq
  rw [h.acks]
  cases hackCursor : ackCursor with
  | none =>
    rw [hackCursor] at hgvn
    have := Option.some.inj hgvn
    rw [Option.isSome_none, if_neg Bool.false_ne_true]
    omega
  | some token =>
    rw [Option.isSome_some, if_pos rfl, Table.lookup_insert, if_pos rfl, Option.getD_some]
    omega

variable {ackCursor' : Option String}

theorem Received.starts_again {env' : Env}
    {later later' : Store} {page' : AgentMessagePage} {ack' after' : Nat} {read' : List Availability}
    {scan' : PageScan} (hread : OnlyRead recipient cursor store' later)
    (h' : Received env' recipient cursor ackCursor' limit page' later later' ack' after' read' scan')
    (hack : ackCursor' = none ∨ ackCursor' = ackCursor) : after' = after := by
  have haft := h.after_eq
  have haft' := h'.after_eq
  cases hcurs : cursor with
  | some token =>
    have hsome : cursor ≠ none := by
      rw [hcurs]
      exact fun heq => by cases heq
    rw [h.cursorOf_again hread hsome haft] at haft'
    exact (Option.some.inj haft').symm
  | none =>
    -- Without a cursor both start from the acknowledged mark, which the first page has written.
    rw [hcurs] at haft haft'
    obtain rfl := Option.some.inj haft
    obtain rfl := Option.some.inj haft'
    obtain ⟨given, hgvn, hack_eq⟩ := h.ack_eq
    obtain ⟨given', hgvn', hack_eq'⟩ := h'.ack_eq
    have hmark : (later.acks[recipient]?).getD 0 = ack := by
      rw [hread.acks hcurs]
      exact h.acked
    rw [hmark] at hgvn' hack_eq'
    cases hackCursor : ackCursor' with
    | none =>
      rw [hackCursor] at hgvn'
      have := Option.some.inj hgvn'
      omega
    | some token =>
      have hsome : ackCursor' ≠ none := by
        rw [hackCursor]
        exact fun heq => by cases heq
      obtain rfl := hack.resolve_left hsome
      rw [h.cursorOf_again hread hsome hgvn] at hgvn'
      have := Option.some.inj hgvn'
      omega

/-- The page that is read after others is the same as the one that was read before them. -/
theorem Received.again (hrdbl : store.Readable) (hrece : store.Receivable) {again : Event}
    (hread : OnlyRead recipient cursor store' again.before) (hsrv : again.Served sha256)
    (hcall : again.call = .receive recipient cursor ackCursor' limit)
    (hack : ackCursor' = none ∨ ackCursor' = ackCursor) (hunis : again.before.Unissued again.env) :
    ∃ page', again.answer = .ok (.page page') ∧ page'.messages = page.messages ∧
      page'.hasMore = page.hasMore := by
  obtain ⟨given, hgvn, -⟩ := h.ack_eq
  have hcan : ¬ NotReceived again.env recipient cursor ackCursor' limit again.before := by
    refine hread.readable.not_notReceived h.limit_pos h.limit_le (fun hnone => ?_)
      (fun default hnone => ?_) hunis
    · have hsome : ackCursor' ≠ none := by
        rintro rfl
        cases hnone
      obtain rfl := hack.resolve_left hsome
      rw [h.cursorOf_again hread hsome hgvn] at hnone
      cases hnone
    · have hsome : cursor ≠ none := by
        rintro rfl
        cases hnone
      rw [h.cursorOf_again hread hsome h.after_eq] at hnone
      cases hnone
  obtain ⟨page', ack', after', read', scan', hans, h'⟩ := hsrv.received hcall hcan
  refine ⟨page', hans, ?_⟩
  obtain rfl := h.starts_again hread h' hack
  have hrows : again.before.rowsAfter recipient after' = store.rowsAfter recipient after' := by
    have hstrm : store'.streamOf recipient = store.streamOf recipient := by
      rw [h.frame]
      rfl
    rw [rowsAfter_eq_streamAfter hread.readable.sound hread.receivable,
      rowsAfter_eq_streamAfter hrdbl.sound hrece]
    unfold Store.streamAfter
    rw [hread.stream, hstrm]
  have hmessageOf : again.before.messageOf = store.messageOf := by
    rw [hread.messageOf, h.frame]
    rfl
  have hrds := h'.reads
  rw [hrows] at hrds
  obtain ⟨-, hscan⟩ := h.reads.unique hrds hmessageOf
  exact ⟨by rw [h'.messages, h.messages, hscan], by rw [h'.hasMore, h.hasMore, hscan]⟩

end

/-! ### Every run -/

theorem History.snoc {events : List Event} {start : Store} (h : History sha256 start events event.before)
    (hsrv : event.Served sha256) : History sha256 start (events ++ [event]) event.after := by
  generalize hlast : event.before = last at h
  induction h with
  | nil =>
    subst hlast
    exact .cons hsrv (.nil _)
  | cons hfst hrest ih => exact .cons hfst (ih hlast)

theorem Mailbox.history (h : Mailbox sha256 recipient steps reader store) :
    History sha256 Store.empty (steps.map Step.event) store := by
  induction h with
  | start => exact .nil _
  | other hbef hsrv hcall ih | read hbef hsrv hcall hack ih =>
    rw [map_append]
    exact ih.snoc hsrv

/-- The last step, if it is a page of the recipient's: the recipient has followed its cursor, and has
acknowledged pages it has read. -/
theorem Mailbox.own {step : Step} {reader' : Reader}
    (h : Mailbox sha256 recipient (steps ++ [step]) reader' store)
    (hcall : step.event.call = .receive recipient token ackCursor limit) :
    Mailbox sha256 recipient steps step.reader step.event.before ∧ step.event.Served sha256 ∧
      ∀ mark, ackCursor = some mark → ∃ page ∈ step.reader.pages, mark = page.ackCursor := by
  generalize hsteps : steps ++ [step] = all at h
  cases h with
  | start => simp at hsteps
  | other hbef hsrv hoth =>
    obtain ⟨rfl, hstep⟩ := append_inj' hsteps rfl
    obtain rfl := singleton_inj.1 hstep
    exact absurd hcall (hoth _ _ _)
  | read hbef hsrv hread hack =>
    obtain ⟨rfl, hstep⟩ := append_inj' hsteps rfl
    obtain rfl := singleton_inj.1 hstep
    rw [hread] at hcall
    obtain ⟨-, -, rfl, -⟩ := Call.receive.inj hcall
    exact ⟨hbef, hsrv, hack⟩

theorem Mailed.paged (h : Mailed recipient steps reader store position)
    (hmail : ∀ step ∈ steps, step.event.IsMail) : Paged recipient reader store := by
  obtain ⟨read, hread, hmsgs⟩ := h.parts
  refine ⟨h.place.sound.ordered.filter _, ⟨read, ?_, hmsgs⟩, ?_⟩
  · rw [(h.cursorOf hmail).2]
    exact hread
  · have hids : (reader.pages.flatMap AgentMessagePage.messages).map AgentMessage.interactionId =
        read.map Availability.interactionId := by
      refine map_injective_iff.2 (Option.some_injective String) ?_
      calc ((reader.pages.flatMap AgentMessagePage.messages).map
              AgentMessage.interactionId).map some
          = ((reader.pages.flatMap AgentMessagePage.messages).map some).map
              (Option.map AgentMessage.interactionId) := by rw [map_map, map_map]; rfl
        _ = (read.map fun row => store.messageOf row.interactionId).map
              (Option.map AgentMessage.interactionId) := by rw [hmsgs]
        _ = (read.map Availability.interactionId).map some := by
            rw [map_map, map_map]
            refine map_congr_left fun row hrow => ?_
            have hsome : store.messageOf row.interactionId ∈
                (reader.pages.flatMap AgentMessagePage.messages).map some := by
              rw [← hmsgs]
              exact mem_map_of_mem hrow
            obtain ⟨message, -, hmsg⟩ := mem_map.1 hsome
            dsimp only [Function.comp]
            rw [← hmsg, Option.map_some, messageOf_interactionId hmsg.symm]
    rw [hids]
    have hsub : read.Sublist store.availability := by
      refine Sublist.trans ?_ (filter_sublist (p := fun row =>
        row.recipient = recipient))
      rw [show store.availability.filter (fun row => row.recipient = recipient) =
        read ++ store.streamAfter recipient position from hread]
      exact sublist_append_left _ _
    exact (hsub.map _).nodup h.place.sound.distinct

theorem Mailed.reads (h : Mailed recipient steps reader event.before position)
    (hmail : ∀ step ∈ steps ++ [⟨reader, event⟩], step.event.IsMail) (hsrv : event.Served sha256)
    (hcall : event.call = .receive recipient reader.cursor ackCursor limit)
    (hack : ∀ token, ackCursor = some token → ∃ page ∈ reader.pages, token = page.ackCursor)
    (hunis : event.before.Unissued event.env) (hpos : 0 < limit) (hle : limit ≤ maxReceiveItems) :
    ∃ page, event.answer = .ok (.page page) ∧
      ReadsOn recipient reader event.before event.after limit page ∧
      event.Repeats sha256 recipient reader.cursor ackCursor limit page := by
  have hearl : ∀ step ∈ steps, step.event.IsMail :=
    fun step hstep => hmail step (mem_append_left _ hstep)
  obtain ⟨hcurs, hunrd⟩ := h.cursorOf hearl
  have hkn : ∀ token sequence, ⟨token, recipient, sequence⟩ ∈ event.before.cursors →
      ∀ default, event.before.cursorOf recipient default (some token) = some sequence :=
    fun token sequence hmem => cursorOf_of_mem h.place.tokens hmem (h.format hearl hmem).1
  have hcan : ¬ NotReceived event.env recipient reader.cursor ackCursor limit event.before := by
    refine h.readable.not_notReceived hpos hle (fun hnone => ?_) (fun default hnone => ?_) hunis
    · cases hackCursor : ackCursor with
      | none =>
        rw [hackCursor] at hnone
        cases hnone
      | some token =>
        obtain ⟨page, hpage, rfl⟩ := hack token hackCursor
        obtain ⟨sequence, -, hmem⟩ := h.place.pages page hpage
        rw [hackCursor, hkn _ _ hmem] at hnone
        cases hnone
    · cases htok : reader.cursor with
      | none =>
        rw [htok] at hnone
        cases hnone
      | some token =>
        rw [htok, hkn _ _ (h.place.current token htok)] at hnone
        cases hnone
  obtain ⟨page, ack, after, read, scan, hans, hrcv⟩ := hsrv.received hcall hcan
  have hnext := h.next hsrv hcall hack hans hrcv
  have hunrd' := (hnext.cursorOf hmail).2
  rw [hans] at hunrd'
  obtain ⟨-, rfl⟩ := h.place.starts hack hrcv
  obtain ⟨rest, hprs, hitems, hmore, hprog⟩ := hrcv.parts
  have hrest := hrcv.rowsAfter_sequence h.place.sound hprs
  rw [rowsAfter_eq_streamAfter h.place.sound h.receivable] at hprs hrest hprog
  have hleft : event.after.streamAfter recipient scan.sequence = rest := by
    rw [← hrest]
    unfold Store.streamAfter Store.streamOf
    rw [hrcv.frame]
  obtain ⟨messages, hscan, hmap⟩ := hrcv.reads.messages
  rw [nil_append] at hscan
  have hlen : read.length = page.messages.length := by
    have hboth := congrArg List.length hmap
    rw [length_map, length_map] at hboth
    rw [hrcv.messages, hscan, hboth]
  have htok : page.nextCursor.utf8ByteSize ≤ maxStampBytes := by
    have hmem := hnext.place.current page.nextCursor (by rw [hans]; rfl)
    exact (hnext.format hmail hmem).2
  obtain ⟨hbody, hseri⟩ := hrcv.budget htok
  refine ⟨page, hans, ⟨⟨read, ?_, ?_⟩, ?_, ?_, ?_, hbody, hseri⟩, ?_⟩
  · rw [hunrd, hunrd', hleft]
    exact hprs
  · rw [hrcv.messages, hscan]
    exact hmap
  · rw [hunrd]
    intro hne hnil
    refine hprog hne (length_eq_zero_iff.1 ?_)
    rw [hlen, hnil]
    rfl
  · rw [hunrd', hleft]
    exact hmore
  · rw [← hlen]
    exact hitems
  · intro between again ackCursor' hbtw hbeside hagain hagainCall hsame hagainUnissued
    have hstart : OnlyRead recipient reader.cursor event.after event.after :=
      ⟨hnext.readable, hnext.receivable, rfl, rfl, ⟨[], by rw [append_nil]⟩, fun _ => rfl⟩
    have hread := hbtw.inv
      (P := fun later => OnlyRead recipient reader.cursor event.after later)
      (fun other hoth heff hkept => hkept.step (hbeside other hoth) heff) hstart
    exact hrcv.again h.readable h.receivable hread hagain hagainCall hsame hagainUnissued

/-- Along every run of admissions, replies and pages, the pages that a recipient has read and what is
unread make up its stream; and every page that it asks for is answered, goes on from there, keeps to
its limits and is the same when it is asked for again. -/
theorem paging (h : Mailbox sha256 recipient steps reader store)
    (hmail : ∀ step ∈ steps, step.event.IsMail) (hfrs : Fresh (steps.map Step.event)) :
    Paged recipient reader store ∧
      ∀ earlier step later ackCursor limit, steps = earlier ++ step :: later →
        step.event.call = .receive recipient step.reader.cursor ackCursor limit →
        0 < limit → limit ≤ maxReceiveItems →
        ∃ page, step.event.answer = .ok (.page page) ∧
          ReadsOn recipient step.reader step.event.before step.event.after limit page ∧
          step.event.Repeats sha256 recipient step.reader.cursor ackCursor limit page := by
  have hunus : ∀ step ∈ steps, step.event.before.Unused step.event.env := by
    intro step hstep
    exact h.history.unused Store.sound_empty hfrs
      (fun event hevent => ⟨fun i id _ => Table.lookup_empty id, hfrs.distinct event hevent⟩)
      step.event (mem_map_of_mem hstep)
  obtain ⟨position, hmailed⟩ := h.exists_mailed hmail hunus
  refine ⟨hmailed.paged hmail, ?_⟩
  rintro earlier step later ackCursor limit rfl hcall hpos hle
  obtain ⟨-, -, reader', hwith, -⟩ := h.split rfl
  obtain ⟨hbef, hsrv, hack⟩ := hwith.own hcall
  have hsub : ∀ other ∈ earlier ++ [step], other ∈ earlier ++ step :: later := by
    intro other hoth
    rcases mem_append.1 hoth with hmem | hmem
    · exact mem_append_left _ hmem
    · rw [mem_singleton.1 hmem]
      simp
  obtain ⟨place, hat⟩ := hbef.exists_mailed
    (fun other hoth => hmail other (hsub other (mem_append_left _ hoth)))
    fun other hoth => hunus other (hsub other (mem_append_left _ hoth))
  refine hat.reads (fun other hoth => hmail other (hsub other hoth)) hsrv hcall hack ?_ hpos
    hle
  intro cursor hcurs heq
  obtain ⟨old, hold, htok⟩ := hat.tokens cursor hcurs
  have hapart := hfrs.apart
  rw [map_append, map_cons, pairwise_append] at hapart
  have hdiffer := hapart.2.2 old.event (mem_map_of_mem hold) step.event mem_cons_self
  exact hdiffer 0 0 (newId_eq rfl (htok.symm.trans heq))

end

/-! ### A sample -/

variable {sha256 : String → String}

/-- What holds of every turn holds of every event that is played. -/
theorem play_events {recipient : String} {P : Env → Call → Prop} (turns : List (Env × Turn))
    (h : ∀ turn ∈ turns, ∀ reader, P turn.1 (turn.2.call recipient reader)) :
    ∀ step ∈ (play sha256 recipient turns).1, P step.event.env step.event.call := by
  have hfold : ∀ (turns : List (Env × Turn)) (state : List Step × Reader × Store),
      (∀ turn ∈ turns, ∀ reader, P turn.1 (turn.2.call recipient reader)) →
      (∀ step ∈ state.1, P step.event.env step.event.call) →
      ∀ step ∈ (turns.foldl (playTurn sha256 recipient) state).1,
        P step.event.env step.event.call := by
    intro turns
    induction turns with
    | nil => exact fun _ _ hst => hst
    | cons turn turns ih =>
      intro state h hst
      refine ih _ (fun later hltr => h later (mem_cons_of_mem _ hltr)) ?_
      intro step hstep
      rcases mem_append.1 hstep with hold | hnew
      · exact hst step hold
      · rw [mem_singleton.1 hnew]
        exact h turn mem_cons_self _
  exact hfold turns _ h fun step hstep => by cases hstep

/-- The events that are played have the environments of their turns. -/
theorem play_envs {recipient : String} (turns : List (Env × Turn)) :
    (play sha256 recipient turns).1.map (fun step => step.event.env) = turns.map Prod.fst := by
  have hfold : ∀ (turns : List (Env × Turn)) (state : List Step × Reader × Store),
      (turns.foldl (playTurn sha256 recipient) state).1.map (fun step => step.event.env) =
        state.1.map (fun step => step.event.env) ++ turns.map Prod.fst := by
    intro turns
    induction turns with
    | nil => exact fun _ => (append_nil _).symm
    | cons turn turns ih =>
      intro state
      rw [foldl_cons, ih, playTurn, map_append, append_assoc]
      rfl
  exact hfold turns _

/-- Two messages are admitted and read, one page after the other. -/
def twoPages : List (Env × Turn) :=
  [(sampleEnv 0, .other (.admitRequest (sampleMessage "alice" "bob" "first"))),
    (sampleEnv 1, .other (.admitRequest (sampleMessage "alice" "bob" "second"))),
    (sampleEnv 2, .read 1), (sampleEnv 3, .read 1)]

theorem mail_twoPages : ∀ step ∈ (play id "bob" twoPages).1, step.event.IsMail := by
  refine play_events (P := fun env call => call.IsMail ∧ env.IsPlain) twoPages ?_
  have hpln : ∀ n < 4, (sampleEnv n).IsPlain := by
    intro n hn
    have hnow : (sampleEnv 0).now.utf8ByteSize ≤ maxStampBytes := by decide
    refine ⟨?_, hnow⟩
    obtain rfl | rfl | rfl | rfl : n = 0 ∨ n = 1 ∨ n = 2 ∨ n = 3 := by omega
    all_goals decide
  have hname : (sampleMessage "alice" "bob" "first").sender.utf8ByteSize ≤ maxNameBytes := by
    decide
  unfold twoPages
  refine forall_mem_cons.2 ⟨fun _ => ⟨hname, hpln 0 (by decide)⟩, ?_⟩
  refine forall_mem_cons.2 ⟨fun _ => ⟨hname, hpln 1 (by decide)⟩, ?_⟩
  refine forall_mem_cons.2 ⟨fun _ => ⟨trivial, hpln 2 (by decide)⟩, ?_⟩
  exact forall_mem_singleton.2 fun _ => ⟨trivial, hpln 3 (by decide)⟩

theorem fresh_twoPages : Fresh ((play id "bob" twoPages).1.map Step.event) := by
  have henvs : (play id "bob" twoPages).1.map (fun step => step.event.env) =
      twoPages.map Prod.fst := play_envs twoPages
  have hmap : ((play id "bob" twoPages).1.map Step.event).map Event.env =
      (range 4).map sampleEnv := by
    rw [map_map]
    exact henvs
  refine ⟨fun event hevent => ?_, ?_⟩
  · have hmem : event.env ∈ (range 4).map sampleEnv := by
      rw [← hmap]
      exact mem_map_of_mem hevent
    obtain ⟨n, -, henv⟩ := mem_map.1 hmem
    rw [← henv]
    exact sampleEnv_injective n
  · suffices hapart : (((play id "bob" twoPages).1.map Step.event).map Event.env).Pairwise
        fun env env' => ∀ i j, env.uuid i ≠ env'.uuid j from pairwise_map.1 hapart
    rw [hmap, pairwise_map]
    refine List.Pairwise.imp_of_mem ?_ pairwise_lt_range
    intro m n hm hn hlt
    rw [mem_range] at hm hn
    exact sampleEnv_apart (by omega) (by omega) (by omega)

theorem paging_twoPages :
    Paged "bob" (play id "bob" twoPages).2.1 (play id "bob" twoPages).2.2 ∧
      ∀ earlier step later ackCursor limit, (play id "bob" twoPages).1 = earlier ++ step :: later →
        step.event.call = .receive "bob" step.reader.cursor ackCursor limit →
        0 < limit → limit ≤ maxReceiveItems →
        ∃ page, step.event.answer = .ok (.page page) ∧
          ReadsOn "bob" step.reader step.event.before step.event.after limit page ∧
          step.event.Repeats id "bob" step.reader.cursor ackCursor limit page :=
  paging (mailbox_play twoPages (by decide)) mail_twoPages fresh_twoPages

end Wardian.Messaging
