/-
Reading a mailbox to its end.

A recipient reads its mailbox page by page.  It follows the cursor of the last page, and acknowledges
cursors of pages that it has read.  A message that is behind the cursor and that no page had is out of
its sight: no later page will have it.  This happens to a message that the scheduler owned when the
cursor passed it and that comes back later by a release.

Main results:

* `Messaging.Mailbox.exists_position` — how far a recipient has come, in such a run;
* `Messaging.nothing_lost_iff` — nothing is ever lost exactly when every release is of a message
  ahead.
-/

import Wardian.Messaging.Ownership

set_option autoImplicit false

namespace Wardian.Messaging

open List

/-! ### A recipient and its runs -/

/-- A recipient: the cursor that it follows, and the pages that it has read. -/
structure Reader where
  cursor : Option String
  pages : List AgentMessagePage

/-- The recipient after an answer to its own call. -/
def Reader.after (reader : Reader) : Except Failure Answer → Reader
  | .ok (.page page) => ⟨some page.nextCursor, reader.pages ++ [page]⟩
  | _ => reader

/-- The message was on a page. -/
def Reader.HasRead (reader : Reader) (id : String) : Prop :=
  ∃ page ∈ reader.pages, ∃ message ∈ page.messages, message.interactionId = id

/-- An event, and the recipient before it. -/
structure Step where
  reader : Reader
  event : Event

/-- A run from empty tables: the recipient follows its cursor and acknowledges pages it has read, and
the others call anything but its mailbox. -/
inductive Mailbox (sha256 : String → String) (recipient : String) :
    List Step → Reader → Store → Prop
  | start : Mailbox sha256 recipient [] ⟨none, []⟩ Store.empty
  | other {steps : List Step} {reader : Reader} {event : Event}
      (hbef : Mailbox sha256 recipient steps reader event.before)
      (hsrv : event.Served sha256)
      (hcall : ∀ cursor ackCursor limit, event.call ≠ .receive recipient cursor ackCursor limit) :
      Mailbox sha256 recipient (steps ++ [⟨reader, event⟩]) reader event.after
  | read {steps : List Step} {reader : Reader} {event : Event} {ackCursor : Option String}
      {limit : Nat} (hbef : Mailbox sha256 recipient steps reader event.before)
      (hsrv : event.Served sha256)
      (hcall : event.call = .receive recipient reader.cursor ackCursor limit)
      (hack : ∀ token, ackCursor = some token → ∃ page ∈ reader.pages, token = page.ackCursor) :
      Mailbox sha256 recipient (steps ++ [⟨reader, event⟩]) (reader.after event.answer) event.after

/-- The sequence is ahead of what the recipient has acknowledged and of its cursor. -/
def Store.Ahead (store : Store) (recipient : String) (reader : Reader) (sequence : Nat) : Prop :=
  (store.acks[recipient]?).getD 0 < sequence ∧
    ∀ cursor ∈ store.cursors, reader.cursor = some cursor.token → cursor.sequence < sequence

/-- Every message of the recipient that waits for it was on a page or is ahead. -/
def NothingLost (recipient : String) (reader : Reader) (store : Store) : Prop :=
  ∀ row ∈ store.availability, row.recipient = recipient → ∀ delivery,
    store.deliveries[row.interactionId]? = some delivery → delivery.owner.isReceivable = true →
    reader.HasRead row.interactionId ∨ store.Ahead recipient reader row.sequence

/-- A release in this step frees a message that is ahead of its recipient. -/
def Step.ReleasesAhead (recipient : String) (step : Step) : Prop :=
  ∀ claim : TaskClaim, step.event.Releases claim → ∀ row ∈ step.event.before.availability,
    row.interactionId = claim.record.id → row.recipient = recipient →
    step.event.before.Ahead recipient step.reader row.sequence

/-! ### The position of a recipient -/

/-- The recipient has come as far as `position`: its cursor stands for it, what it may acknowledge
and has acknowledged lies before it, and every message that waits before it was on a page. -/
structure Position (recipient : String) (reader : Reader) (store : Store) (position : Nat) :
    Prop where
  sound : store.Sound
  tokens : (store.cursors.map Cursor.token).Nodup
  current : ∀ token, reader.cursor = some token → ⟨token, recipient, position⟩ ∈ store.cursors
  start : reader.cursor = none → position = 0
  acked : (store.acks[recipient]?).getD 0 ≤ position
  pages : ∀ page ∈ reader.pages, ∃ sequence ≤ position,
    ⟨page.ackCursor, recipient, sequence⟩ ∈ store.cursors
  bounded : position ≤ store.lastSequence
  covered : ∀ row ∈ store.availability, row.recipient = recipient → row.sequence ≤ position →
    ∀ delivery, store.deliveries[row.interactionId]? = some delivery →
    delivery.owner.isReceivable = true → reader.HasRead row.interactionId

/-- Cursors are only added, with new tokens. -/
def CursorsGrow (store store' : Store) : Prop :=
  ∃ new, store'.cursors = store.cursors ++ new ∧ (new.map Cursor.token).Nodup ∧
    ∀ cursor ∈ new, ∀ old ∈ store.cursors, old.token ≠ cursor.token

section

variable {sha256 : String → String} {recipient : String} {reader : Reader}
  {store store' : Store} {env : Env} {call : Call} {answer : Except Failure Answer}
  {position : Nat} {event : Event} {steps : List Step}

theorem CursorsGrow.of_eq (h : store'.cursors = store.cursors) : CursorsGrow store store' :=
  ⟨[], by rw [h, append_nil], .nil, fun cursor hcurs => by cases hcurs⟩

theorem Publishes.cursors {binding : TaskTurnBinding} {replied : Option Replied}
    (h : Publishes env binding replied store store') :
    store'.cursors = store.cursors ∧ store'.acks = store.acks := by
  cases h with
  | reply _ _ _ _ hrepd => exact ⟨hrepd.cursors, hrepd.acks⟩
  | mark | same => exact ⟨rfl, rfl⟩

theorem Recovers.cursors {bindings : List TaskTurnBinding} (h : Recovers env bindings store store') :
    store'.cursors = store.cursors ∧ store'.acks = store.acks := by
  induction h with
  | stop => exact ⟨rfl, rfl⟩
  | step hpub hrest ih =>
    exact ⟨ih.1.trans hpub.cursors.1, ih.2.trans hpub.cursors.2⟩

/-- A call that does not read the recipient's mailbox leaves its cursors and its acknowledgement. -/
theorem Effect.cursors (h : Effect sha256 env call answer store store') (recipient : String) :
    CursorsGrow store store' ∧
      ((∀ cursor ackCursor limit, call ≠ .receive recipient cursor ackCursor limit) →
        store'.acks[recipient]? = store.acks[recipient]?) := by
  cases h with
  | admitted hcall hrec hadm =>
    exact ⟨.of_eq hadm.cursors, fun _ => by rw [hadm.acks]⟩
  | replied hcall hval hrepd hclsd =>
    have hfrm := hclsd.frame
    refine ⟨.of_eq ?_, fun _ => ?_⟩
    · rw [hfrm]
      exact hrepd.cursors
    · rw [hfrm]
      exact congrArg (fun acks : Table Nat => acks[recipient]?) hrepd.acks
  | @received other cursor ackCursor limit page store store' ack after read scan hrcv =>
    refine ⟨?_, fun hcall => ?_⟩
    · rcases hrcv.cursors with ⟨heq, -⟩ | ⟨heq, -, hfrs⟩
      · exact .of_eq heq
      · refine ⟨_, heq, nodup_singleton _, fun new hnew old hold => ?_⟩
        rw [mem_singleton.1 hnew]
        exact hfrs old hold
    · rw [hrcv.acks]
      split
      · rw [Table.lookup_insert, if_neg]
        rintro rfl
        exact hcall cursor ackCursor limit rfl
      · rfl
  | published hpub => exact ⟨.of_eq hpub.cursors.1, fun _ => by rw [hpub.cursors.2]⟩
  | recovered _ hrcvs =>
    exact ⟨.of_eq hrcvs.cursors.1, fun _ => by rw [hrcvs.cursors.2]⟩
  | _ => exact ⟨.of_eq rfl, fun _ => rfl⟩

theorem cursor_unique (h : (store.cursors.map Cursor.token).Nodup) {cursor cursor' : Cursor}
    (hcurs : cursor ∈ store.cursors) (hcurs' : cursor' ∈ store.cursors)
    (htok : cursor.token = cursor'.token) : cursor = cursor' :=
  inj_on_of_nodup_map h hcurs hcurs' htok

/-- What a cursor of the recipient's stands for is what the table says. -/
theorem Position.cursorOf (h : Position recipient reader store position) {default sequence : Nat}
    {token : String} (hmem : ⟨token, recipient, sequence⟩ ∈ store.cursors) {found : Nat}
    (hfnd : store.cursorOf recipient default (some token) = some found) : found = sequence := by
  unfold Store.cursorOf at hfnd
  dsimp only at hfnd
  split at hfnd
  · obtain ⟨cursor, hcurs, rfl⟩ := Option.map_eq_some_iff.1 hfnd
    obtain ⟨hfind, -⟩ := Option.filter_eq_some_iff.1 hcurs
    have htok := find?_some hfind
    have heq := cursor_unique h.tokens (mem_of_find?_eq_some hfind) hmem
      (of_decide_eq_true htok)
    rw [heq]
  · cases hfnd

theorem Position.tokens_grow (h : Position recipient reader store position)
    (hgrow : CursorsGrow store store') : (store'.cursors.map Cursor.token).Nodup := by
  obtain ⟨newCursors, hcursrs, hndp, hfrs⟩ := hgrow
  rw [hcursrs, map_append]
  refine Nodup.append h.tokens hndp ?_
  intro token hold hnew
  obtain ⟨old, hmem_old, rfl⟩ := mem_map.1 hold
  obtain ⟨new, hmem_new, heq⟩ := mem_map.1 hnew
  exact hfrs new hmem_new old hmem_old heq.symm

theorem Position.nothing_lost (h : Position recipient reader store position) :
    NothingLost recipient reader store := by
  intro row hrow hrcp delivery hdel hown
  by_cases hle : row.sequence ≤ position
  · exact .inl (h.covered row hrow hrcp hle delivery hdel hown)
  · refine .inr ⟨?_, fun cursor hcurs htok => ?_⟩
    · have := h.acked
      omega
    · have heq := cursor_unique h.tokens hcurs (h.current cursor.token htok) rfl
      rw [heq]
      dsimp only
      omega

/-! ### What a step keeps -/

theorem not_receivable_of_isSchedulerResult {owner : Owner} (h : owner.isSchedulerResult = true) :
    owner.isReceivable = false := by
  cases owner <;> first | rfl | cases h

/-- An old row that waits after an event of others waited before, unless it was released. -/
theorem receivable_before (hsrv : event.Served sha256) (hsnd : event.before.Sound)
    {id : String} {old new : Delivery} (hold : event.before.deliveries[id]? = some old)
    (hnew : event.after.deliveries[id]? = some new) (hown : new.owner.isReceivable = true) :
    old.owner.isReceivable = true ∨
      ∃ claim : TaskClaim, event.Releases claim ∧ claim.record.id = id := by
  obtain ⟨found, hfnd, hmvs⟩ := hsrv.effect.rows hsnd id old hold
  rw [hnew] at hfnd
  obtain rfl := Option.some.inj hfnd
  cases hmvs.moves with
  | stays hsame => exact .inl (by rw [← hsame]; exact hown)
  | received hfree => exact .inl (isReceivable_iff.2 (.inl hfree))
  | claimed _ hdisp =>
    rw [hdisp] at hown
    cases hown
  | @released claim hcall hans hid hheld hfree =>
    exact .inr ⟨claim, ⟨hans, claim, hcall, rfl, rfl, rfl⟩, hid⟩
  | ended _ _ _ hres =>
    rw [not_receivable_of_isSchedulerResult hres] at hown
    cases hown
  | blocked _ hblkd =>
    rcases hblkd with hblkd | hblkd <;> rw [hblkd] at hown <;> cases hown

theorem Position.other (h : Position recipient reader event.before position) (hsrv : event.Served sha256)
    (hcall : ∀ cursor ackCursor limit, event.call ≠ .receive recipient cursor ackCursor limit)
    (hah : Step.ReleasesAhead recipient ⟨reader, event⟩) :
    Position recipient reader event.after position := by
  obtain ⟨⟨newCursors, hcursrs, hndp, hfrs⟩, hacks⟩ :=
    hsrv.effect.cursors recipient
  obtain ⟨hlast, newRows, havl, hnewRows⟩ := hsrv.effect.grow
  have hmem : ∀ cursor ∈ event.before.cursors, cursor ∈ event.after.cursors := by
    intro cursor hcurs
    rw [hcursrs]
    exact mem_append_left _ hcurs
  refine ⟨h.sound.step hsrv.effect, h.tokens_grow ⟨newCursors, hcursrs, hndp, hfrs⟩,
    fun token htok => hmem _ (h.current token htok), h.start, ?_, fun page hpage => ?_,
    h.bounded.trans hlast, ?_⟩
  · rw [hacks hcall]
    exact h.acked
  · obtain ⟨sequence, hle, hcurs⟩ := h.pages page hpage
    exact ⟨sequence, hle, hmem _ hcurs⟩
  · intro row hrow hrcp hle new hnew hown
    rw [havl] at hrow
    rcases mem_append.1 hrow with hold | hltr
    · obtain ⟨old, hdel, -⟩ := h.sound.available row hold
      rcases receivable_before hsrv h.sound hdel hnew hown with hwaits | ⟨claim, hrel, hid⟩
      · exact h.covered row hold hrcp hle old hdel hwaits
      · obtain ⟨-, hcurs⟩ := hah claim hrel row hold hid.symm hrcp
        exfalso
        cases htok : reader.cursor with
        | none =>
          have := h.start htok
          have := h.sound.positive row hold
          omega
        | some token =>
          have := hcurs _ (h.current token htok) htok
          dsimp only at this
          omega
    · have := hnewRows row hltr
      have := h.bounded
      omega

theorem Effect.receive_inv {cursor ackCursor : Option String} {limit : Nat}
    (h : Effect sha256 env (.receive recipient cursor ackCursor limit) answer store store') :
    (store' = store ∧ ∀ reader : Reader, reader.after answer = reader) ∨
      ∃ page ack after read scan, answer = .ok (.page page) ∧
        Received env recipient cursor ackCursor limit page store store' ack after read scan := by
  cases h with
  | received hrcv => exact .inr ⟨_, _, _, _, _, rfl, hrcv⟩
  | admitted hcall | replied hcall | claimed hcall => cases hcall
  | _ => exact .inl ⟨rfl, fun _ => rfl⟩

/-- A page acknowledges no more than the recipient has come to, and starts where it stands. -/
theorem Position.starts (h : Position recipient reader store position) {ackCursor : Option String}
    {limit : Nat} {page : AgentMessagePage} {ack after : Nat} {read : List Availability} {scan : PageScan}
    (hack : ∀ token, ackCursor = some token → ∃ page ∈ reader.pages, token = page.ackCursor)
    (hrcv : Received env recipient reader.cursor ackCursor limit page store store' ack after read scan) :
    ack ≤ position ∧ after = position := by
  have hack_le : ack ≤ position := by
    obtain ⟨given, hgvn, rfl⟩ := hrcv.ack_eq
    refine Nat.max_le.2 ⟨?_, h.acked⟩
    cases htok : ackCursor with
    | none =>
      rw [htok] at hgvn
      rw [← Option.some.inj hgvn]
      exact h.acked
    | some token =>
      obtain ⟨page, hpage, rfl⟩ := hack token htok
      obtain ⟨sequence, hle, hcurs⟩ := h.pages page hpage
      rw [htok] at hgvn
      rw [h.cursorOf hcurs hgvn]
      exact hle
  refine ⟨hack_le, ?_⟩
  have hafter_eq := hrcv.after_eq
  cases htok : reader.cursor with
  | none =>
    rw [htok] at hafter_eq
    have := Option.some.inj hafter_eq
    have := h.start htok
    omega
  | some token =>
    rw [htok] at hafter_eq
    exact h.cursorOf (h.current token htok) hafter_eq

theorem Position.read (h : Position recipient reader store position) {ackCursor : Option String} {limit : Nat}
    {page : AgentMessagePage} {ack after : Nat} {read : List Availability} {scan : PageScan}
    (hack : ∀ token, ackCursor = some token → ∃ page ∈ reader.pages, token = page.ackCursor)
    (heff : Effect sha256 env (.receive recipient reader.cursor ackCursor limit)
      (.ok (.page page)) store store')
    (hrcv : Received env recipient reader.cursor ackCursor limit page store store' ack after read scan) :
    Position recipient (reader.after (.ok (.page page))) store' scan.sequence := by
  obtain ⟨hack_le, haft⟩ := h.starts hack hrcv
  subst haft
  obtain ⟨rest, hstem⟩ := hrcv.stem
  have hread : ∀ row ∈ read, row ∈ store.availability ∧ after < row.sequence := by
    intro row hrow
    have hbeh : row ∈ store.rowsAfter recipient after := by
      rw [hstem]
      exact mem_append_left _ hrow
    exact ⟨(mem_rowsAfter.1 hbeh).1, (mem_rowsAfter.1 hbeh).2.2.1⟩
  have hseq : after ≤ scan.sequence ∧ scan.sequence ≤ store.lastSequence := by
    rcases hrcv.sequence_cases with ⟨-, heq⟩ | ⟨init, last, rfl, heq⟩
    · exact ⟨heq.ge, heq.le.trans h.bounded⟩
    · obtain ⟨hmem, hlt⟩ := hread last (mem_append_right _ (mem_singleton_self _))
      rw [heq]
      exact ⟨hlt.le, h.sound.bounded last hmem⟩
  obtain ⟨⟨newCursors, hcursrs, hndp, hfrs⟩, -⟩ := heff.cursors recipient
  have hmem : ∀ cursor ∈ store.cursors, cursor ∈ store'.cursors := by
    intro cursor hcurs
    rw [hcursrs]
    exact mem_append_left _ hcurs
  have hnext : ⟨page.nextCursor, recipient, scan.sequence⟩ ∈ store'.cursors := by
    rcases hrcv.cursors with ⟨heq, hold⟩ | ⟨heq, -⟩
    · rw [heq]
      exact hold
    · rw [heq]
      exact mem_append_right _ (mem_singleton_self _)
  refine ⟨h.sound.step heff, h.tokens_grow ⟨newCursors, hcursrs, hndp, hfrs⟩, ?_, ?_, ?_, ?_,
    ?_, ?_⟩
  · intro token htok
    rw [← Option.some.inj htok]
    exact hnext
  · intro hnone
    cases hnone
  · rw [hrcv.acks]
    have hacked := h.acked
    split
    · rw [Table.lookup_insert, if_pos rfl, Option.getD_some]
      omega
    · omega
  · intro other hoth
    rcases mem_append.1 hoth with hold | hnew
    · obtain ⟨sequence, hle, hcurs⟩ := h.pages other hold
      exact ⟨sequence, hle.trans hseq.1, hmem _ hcurs⟩
    · rw [mem_singleton.1 hnew, hrcv.ackCursor_eq]
      exact ⟨scan.sequence, le_rfl, hnext⟩
  · rw [hrcv.frame]
    exact hseq.2
  · intro row hrow hrcp hle delivery hdel hown
    have hrow' : row ∈ store.availability := by
      rw [hrcv.frame] at hrow
      exact hrow
    obtain ⟨old, hold, -⟩ := h.sound.available row hrow'
    have hwaits : old.owner.isReceivable = true := by
      rcases hrcv.reads.row row.interactionId with hsame | ⟨-, found, token, hfnd, hfree, -⟩
      · rw [hsame, hold] at hdel
        rw [Option.some.inj hdel]
        exact hown
      · rw [hold] at hfnd
        rw [Option.some.inj hfnd]
        exact isReceivable_iff.2 (.inl hfree)
    by_cases hbeh : row.sequence ≤ after
    · obtain ⟨old_page, hpage, hmsg⟩ :=
        h.covered row hrow' hrcp hbeh old hold hwaits
      exact ⟨old_page, mem_append_left _ hpage, hmsg⟩
    · have hrdbl : store.isReadable row = true := by
        unfold Store.isReadable
        rw [hold, Option.all_some, hwaits, Bool.and_true,
          ← Std.ExtTreeMap.isSome_getElem?_eq_contains]
        exact h.sound.known row hrow'
      have hmem_read : row ∈ read := hrcv.mem_read h.sound.ordered
        (mem_rowsAfter.2 ⟨hrow', hrcp, by omega, hrdbl⟩) hle
      obtain ⟨message, hmsg, hmessageOf⟩ := hrcv.reads.message_of_row hmem_read
      refine ⟨page, mem_append_right _ (mem_singleton_self _), message, ?_,
        messageOf_interactionId hmessageOf⟩
      rw [hrcv.messages]
      exact hmsg

/-- Along a run whose releases are all of messages ahead, the recipient has a position. -/
theorem Mailbox.exists_position (h : Mailbox sha256 recipient steps reader store)
    (hah : ∀ step ∈ steps, step.ReleasesAhead recipient) :
    ∃ position, Position recipient reader store position := by
  induction h with
  | start =>
    refine ⟨0, Store.sound_empty, .nil, ?_, fun _ => rfl, ?_, ?_, le_rfl, ?_⟩
    · intro token htok
      cases htok
    · rw [show Store.empty.acks = ∅ from rfl, Table.lookup_empty]
      exact le_rfl
    · intro page hpage
      cases hpage
    · intro row hrow
      cases hrow
  | @other steps reader event hbef hsrv hcall ih =>
    obtain ⟨position, hpos⟩ :=
      ih fun step hstep => hah step (mem_append_left _ hstep)
    exact ⟨position, hpos.other hsrv hcall
      (hah _ (mem_append_right _ (mem_singleton_self _)))⟩
  | @read steps reader event ackCursor limit hbef hsrv hcall hack ih =>
    obtain ⟨position, hpos⟩ :=
      ih fun step hstep => hah step (mem_append_left _ hstep)
    have heff := hsrv.effect
    rw [hcall] at heff
    rcases heff.receive_inv with ⟨hsame, hreader⟩ |
      ⟨page, ack, after, read, scan, hans, hrcv⟩
    · rw [hsame, hreader]
      exact ⟨position, hpos⟩
    · rw [hans] at heff ⊢
      exact ⟨scan.sequence, hpos.read hack heff hrcv⟩

/-- When every release is of a message ahead of its recipient, nothing is lost to it. -/
theorem Mailbox.nothing_lost (h : Mailbox sha256 recipient steps reader store)
    (hah : ∀ step ∈ steps, step.ReleasesAhead recipient) : NothingLost recipient reader store := by
  obtain ⟨position, hpos⟩ := h.exists_position hah
  exact hpos.nothing_lost

theorem Mailbox.read_owned (h : Mailbox sha256 recipient steps reader store) :
    store.Sound ∧ ∀ id : String, reader.HasRead id → ∃ delivery,
      store.deliveries[id]? = some delivery ∧ delivery.owner = .receiverAvailable := by
  have hkept : ∀ {event : Event}, event.Served sha256 → event.before.Sound → ∀ id : String,
      (∃ delivery, event.before.deliveries[id]? = some delivery ∧
        delivery.owner = .receiverAvailable) →
      ∃ delivery, event.after.deliveries[id]? = some delivery ∧
        delivery.owner = .receiverAvailable := by
    intro event hsrv hsnd id ⟨old, hold, hown⟩
    obtain ⟨new, hnew, hmvs⟩ := hsrv.effect.rows hsnd id old hold
    exact ⟨new, hnew, (hmvs.moves.final (by rw [hown]; rfl)).trans hown⟩
  induction h with
  | start =>
    refine ⟨Store.sound_empty, fun id hread => ?_⟩
    obtain ⟨page, hpage, -⟩ := hread
    cases hpage
  | other hbef hsrv hcall ih =>
    exact ⟨ih.1.step hsrv.effect, fun id hread => hkept hsrv ih.1 id (ih.2 id hread)⟩
  | @read steps reader event ackCursor limit hbef hsrv hcall hack ih =>
    refine ⟨ih.1.step hsrv.effect, fun id hread => ?_⟩
    have heff := hsrv.effect
    rw [hcall] at heff
    rcases heff.receive_inv with ⟨-, hreader⟩ | ⟨page, ack, after, read, scan, hans, -⟩
    · rw [hreader] at hread
      exact hkept hsrv ih.1 id (ih.2 id hread)
    · obtain ⟨found, hfnd, hmsg⟩ := hread
      rw [hans] at hfnd
      rcases mem_append.1 hfnd with hold | hnew
      · exact hkept hsrv ih.1 id (ih.2 id ⟨found, hold, hmsg⟩)
      · rw [mem_singleton.1 hnew] at hmsg
        exact (hsrv.reads ih.1 ⟨page, hans, hmsg⟩).2

/-- A release of a message that is not ahead of its recipient loses it. -/
theorem lost_of_release (h : Mailbox sha256 recipient steps reader event.before)
    (hsrv : event.Served sha256) (hbeh : ¬ Step.ReleasesAhead recipient ⟨reader, event⟩) :
    ¬ NothingLost recipient reader event.after := by
  obtain ⟨hsnd, hread⟩ := h.read_owned
  unfold Step.ReleasesAhead at hbeh
  push Not at hbeh
  obtain ⟨claim, hrels, row, hrow, hid, hrcp, hnot⟩ := hbeh
  obtain ⟨hans, given, hcall, hgvn, htok, hgen⟩ := hrels
  have heff := hsrv.effect
  dsimp only at hrow hnot
  rw [hans, hcall] at heff
  generalize event.before = store at *
  generalize event.after = store' at *
  intro hlost
  cases heff with
  | @released _ delivery store hdel hheld =>
    have hrow_id : row.interactionId = given.record.id := hid.trans hgvn.symm
    have hfree : delivery.released.owner.isReceivable = true := by
      unfold Delivery.released
      dsimp only
      split <;> rfl
    rcases hlost row hrow hrcp delivery.released
      (by rw [Store.withDelivery, Table.lookup_insert, if_pos hrow_id.symm]) hfree with
      hhas | hah
    · obtain ⟨found, hfnd, hown⟩ := hread _ hhas
      rw [hrow_id, hdel] at hfnd
      obtain rfl := Option.some.inj hfnd
      rw [(heldBy_iff.1 hheld).2.2] at hown
      cases hown
    · exact hnot hah

/-- The last element is the one marked, or the mark is before it. -/
theorem append_singleton_cases {α : Type} {xs earlier later : List α} {last mark : α}
    (h : xs ++ [last] = earlier ++ mark :: later) :
    xs = earlier ∧ last = mark ∨ ∃ middle, xs = earlier ++ mark :: middle := by
  rcases eq_nil_or_concat later with rfl | ⟨middle, other, rfl⟩
  · have hboth := append_inj' h rfl
    exact .inl ⟨hboth.1, singleton_inj.1 hboth.2⟩
  · rw [concat_eq_append, ← cons_append, ← append_assoc] at h
    exact .inr ⟨middle, (append_inj' h rfl).1⟩

theorem Mailbox.split (h : Mailbox sha256 recipient steps reader store) {earlier later : List Step}
    {step : Step} (hsteps : steps = earlier ++ step :: later) :
    Mailbox sha256 recipient earlier step.reader step.event.before ∧ step.event.Served sha256 ∧
      ∃ reader', Mailbox sha256 recipient (earlier ++ [step]) reader' step.event.after ∧
        (reader' = step.reader ∨
          ∃ cursor ackCursor limit, step.event.call = .receive recipient cursor ackCursor limit) := by
  induction h generalizing later with
  | start => simp at hsteps
  | other hbef hsrv hcall ih =>
    rcases append_singleton_cases hsteps with ⟨rfl, rfl⟩ | ⟨middle, hmid⟩
    · exact ⟨hbef, hsrv, _, .other hbef hsrv hcall, .inl rfl⟩
    · exact ih hmid
  | read hbef hsrv hcall hack ih =>
    rcases append_singleton_cases hsteps with ⟨rfl, rfl⟩ | ⟨middle, hmid⟩
    · exact ⟨hbef, hsrv, _, .read hbef hsrv hcall hack, .inr ⟨_, _, _, hcall⟩⟩
    · exact ih hmid

/-- In every state of a run nothing is lost to the recipient, exactly when every release of the run is
of a message ahead of it: each message that waits was on a page, or a later page will have it. -/
theorem nothing_lost_iff (h : Mailbox sha256 recipient steps reader store) :
    (∀ earlier later reader' store', steps = earlier ++ later →
        Mailbox sha256 recipient earlier reader' store' →
        NothingLost recipient reader' store') ↔
      ∀ step ∈ steps, step.ReleasesAhead recipient := by
  constructor
  · intro hnoth step hstep
    obtain ⟨earlier, later, rfl⟩ := append_of_mem hstep
    obtain ⟨hbef, hsrv, reader', hwith, hreader⟩ := h.split rfl
    by_contra hbeh
    rcases hreader with rfl | ⟨cursor, ackCursor, limit, hcall⟩
    · refine lost_of_release hbef hsrv hbeh ?_
      exact hnoth (earlier ++ [step]) later _ _ (by simp) hwith
    · refine hbeh fun claim hrels => ?_
      obtain ⟨-, given, hrel, -⟩ := hrels
      rw [hcall] at hrel
      cases hrel
  · rintro hah earlier later reader' store' rfl hearl
    exact hearl.nothing_lost fun step hstep => hah step (mem_append_left _ hstep)

end

/-! ### Samples -/

/-- A turn of a sample: somebody else's call, or the recipient asking for its next page. -/
inductive Turn
  | other (call : Call)
  | read (limit : Nat)

def Turn.call (recipient : String) (reader : Reader) : Turn → Call
  | .other call => call
  | .read limit => .receive recipient reader.cursor none limit

/-- The call is no call of the recipient's for its own mailbox. -/
def Turn.IsProper (recipient : String) : Turn → Bool
  | .other (.receive someone _ _ _) => someone ≠ recipient
  | _ => true

/-- Play a turn. -/
def playTurn (sha256 : String → String) (recipient : String)
    (state : List Step × Reader × Store) (turn : Env × Turn) : List Step × Reader × Store :=
  let call := turn.2.call recipient state.2.1
  let served := serve sha256 turn.1 call state.2.2
  let reader := match turn.2 with
    | .other _ => state.2.1
    | .read _ => state.2.1.after served.1
  (state.1 ++ [⟨state.2.1, ⟨turn.1, call, served.1, state.2.2, served.2⟩⟩], reader, served.2)

def play (sha256 : String → String) (recipient : String) (turns : List (Env × Turn)) :
    List Step × Reader × Store :=
  turns.foldl (playTurn sha256 recipient) ([], ⟨none, []⟩, Store.empty)

theorem mailbox_play {sha256 : String → String} {recipient : String} (turns : List (Env × Turn))
    (hprop : turns.all fun turn => turn.2.IsProper recipient) :
    Mailbox sha256 recipient (play sha256 recipient turns).1 (play sha256 recipient turns).2.1
      (play sha256 recipient turns).2.2 := by
  have hfold : ∀ (turns : List (Env × Turn)) (state : List Step × Reader × Store),
      (turns.all fun turn => turn.2.IsProper recipient) = true →
      Mailbox sha256 recipient state.1 state.2.1 state.2.2 →
      Mailbox sha256 recipient (turns.foldl (playTurn sha256 recipient) state).1
        (turns.foldl (playTurn sha256 recipient) state).2.1
        (turns.foldl (playTurn sha256 recipient) state).2.2 := by
    intro turns
    induction turns with
    | nil => exact fun _ _ h => h
    | cons turn turns ih =>
      intro state hprop h
      obtain ⟨hthis, hrest⟩ := Bool.and_eq_true_iff.1 hprop
      refine ih _ hrest ?_
      obtain ⟨env, turn⟩ := turn
      obtain ⟨steps, reader, store⟩ := state
      cases turn with
      | other call =>
        refine @Mailbox.other _ _ _ _ ⟨env, call, _, store, _⟩ h rfl ?_
        rintro cursor ackCursor limit rfl
        simp [Turn.IsProper] at hthis
      | read limit =>
        exact @Mailbox.read _ _ _ _ ⟨env, _, _, store, _⟩ none limit h rfl rfl (by simp)
  exact hfold turns _ hprop .start

def sampleId (n : Nat) : String := newId "int" ((sampleEnv n).uuid 0)

/-- The claim that the second call of a sample has got on the message of the first. -/
def firstClaim : TaskClaim :=
  sampleClaim (admissionRecord (sampleEnv 0) (sampleMessage "alice" "bob" "first") none)

/-- The first message is claimed, the second one is read, and only then is the first one released. -/
def releasedLate : List (Env × Turn) :=
  [(sampleEnv 0, .other (.admitRequest (sampleMessage "alice" "bob" "first"))),
    (sampleEnv 1, .other (.claimInformation "bob" (sampleId 0) 1)),
    (sampleEnv 2, .other (.admitRequest (sampleMessage "alice" "bob" "second"))),
    (sampleEnv 3, .read 10),
    (sampleEnv 4, .other (.releaseBeforeWrite firstClaim))]

/-- The same, with the release before the page. -/
def releasedInTime : List (Env × Turn) :=
  [(sampleEnv 0, .other (.admitRequest (sampleMessage "alice" "bob" "first"))),
    (sampleEnv 1, .other (.claimInformation "bob" (sampleId 0) 1)),
    (sampleEnv 2, .other (.admitRequest (sampleMessage "alice" "bob" "second"))),
    (sampleEnv 3, .other (.releaseBeforeWrite firstClaim)),
    (sampleEnv 4, .read 10)]

/-- The places in the streams with their owners, the messages that were read, and the cursors. -/
def summary (state : List Step × Reader × Store) :
    List (Nat × String × String × Option Owner) × List String × Option String × List Cursor :=
  (state.2.2.availability.map fun row => (row.sequence, row.recipient, row.interactionId,
      (state.2.2.deliveries[row.interactionId]?).map Delivery.owner),
    (state.2.1.pages.flatMap AgentMessagePage.messages).map AgentMessage.interactionId,
    state.2.1.cursor, state.2.2.cursors)

@[irreducible] def lateState : List Step × Reader × Store := play id "bob" releasedLate

theorem mailbox_lateState : Mailbox id "bob" lateState.1 lateState.2.1 lateState.2.2 := by
  unfold lateState
  exact mailbox_play releasedLate (by decide)

theorem summary_lateState : summary lateState =
    ([(1, "bob", sampleId 0, some .stored), (2, "bob", sampleId 2, some .receiverAvailable)],
      [sampleId 2], some (newId "am1" ((sampleEnv 3).uuid 0)),
      [⟨newId "am1" ((sampleEnv 3).uuid 0), "bob", 2⟩]) := by
  unfold lateState
  decide +kernel

/-- A message that was released behind the recipient's cursor is lost to it. -/
theorem lost_behind_cursor : ∃ steps reader store, Mailbox id "bob" steps reader store ∧
    ¬ NothingLost "bob" reader store := by
  refine ⟨_, _, _, mailbox_lateState, fun hnoth => ?_⟩
  have hsumm := summary_lateState
  unfold summary at hsumm
  simp only [Prod.mk.injEq] at hsumm
  obtain ⟨hrows, hread, hcurs, hcursrs⟩ := hsumm
  obtain ⟨row, rest, havl, hrow, -⟩ := map_eq_cons_iff.1 hrows
  simp only [Prod.mk.injEq] at hrow
  obtain ⟨hseq, hrcp, hid, hown⟩ := hrow
  obtain ⟨delivery, hdel, hstrd⟩ := Option.map_eq_some_iff.1 hown
  rcases hnoth row (by rw [havl]; exact mem_cons_self) hrcp delivery hdel
    (by rw [hstrd]; rfl) with ⟨page, hpage, message, hmsg, hsame⟩ | ⟨-, hah⟩
  · have hmem : message.interactionId ∈
        (lateState.2.1.pages.flatMap AgentMessagePage.messages).map AgentMessage.interactionId :=
      mem_map_of_mem (mem_flatMap.2 ⟨page, hpage, hmsg⟩)
    rw [hread, mem_singleton, hsame, hid] at hmem
    exact absurd hmem (by decide)
  · have hlt := hah ⟨newId "am1" ((sampleEnv 3).uuid 0), "bob", 2⟩
      (by rw [hcursrs]; exact mem_singleton_self _) hcurs
    rw [hseq] at hlt
    exact absurd hlt (by decide)

theorem nothing_lost_iff_releasedInTime :
    (∀ earlier later reader' store', (play id "bob" releasedInTime).1 = earlier ++ later →
        Mailbox id "bob" earlier reader' store' → NothingLost "bob" reader' store') ↔
      ∀ step ∈ (play id "bob" releasedInTime).1, step.ReleasesAhead "bob" :=
  nothing_lost_iff (mailbox_play releasedInTime (by decide))

end Wardian.Messaging
