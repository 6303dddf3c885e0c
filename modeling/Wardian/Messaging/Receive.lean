/-
Reading the mailbox in pages.

A page starts behind a cursor, which stands for a sequence, and takes the messages that the scheduler
does not own, in order, until it has as many as asked for or one of its two byte budgets is used up.
Every message that the page returns belongs to the receiver from then on.  The page names the cursor
of its last message; giving it back as the acknowledgement moves the acknowledged mark, which is where
a call without a cursor starts.

Main results:

* `Messaging.wp_readRows`, `Messaging.wp_receive` — a page is read, unless something stops it;
* `Messaging.Reads.messages`, `Messaging.Reads.rest`, `Messaging.Reads.row` — what the loop has read,
  what it has left, and what it has changed.
-/

import Wardian.Messaging.Claims

set_option autoImplicit false

namespace Wardian.Messaging

open JsonText
open List
open Prog (Wp wp_bind wp_get wp_ite wp_modify)

/-! ### Messages -/

structure AgentMessage where
  interactionId : String
  kind : InteractionKind
  sender : String
  hostAutomation : Option HostAutomationProvenance
  message : String
  parentInteractionId : Option String
  replyStatus : Option ReplyStatus
  createdAt : String
deriving DecidableEq

structure AgentMessagePage where
  messages : List AgentMessage
  nextCursor : String
  ackCursor : String
  hasMore : Bool
  timedOut : Bool
  wakeReason : Option String
deriving DecidableEq

def InteractionKind.text : InteractionKind → String
  | .message => "message"
  | .task => "task"
  | .reply => "reply"
  | .notification => "notification"

def ReplyStatus.text : ReplyStatus → String
  | .done => "done"
  | .blocked => "blocked"
  | .failed => "failed"

def encodeOptional : Option String → String
  | none => "null"
  | some s => quote s

def encodeHost : Option HostAutomationProvenance → String
  | none => ""
  | some host =>
    "\"host_automation\":\x7b\"run_id\":" ++ quote host.runId ++ ",\"node\":" ++
      quote host.node ++ "\x7d,"

/-- The JSON text of a message. -/
def AgentMessage.encode (message : AgentMessage) : String :=
  "\x7b\"interaction_id\":" ++ quote message.interactionId ++
    ",\"kind\":" ++ quote message.kind.text ++
    ",\"sender\":" ++ quote message.sender ++ "," ++ encodeHost message.hostAutomation ++
    "\"message\":" ++ quote message.message ++
    ",\"parent_interaction_id\":" ++ encodeOptional message.parentInteractionId ++
    ",\"reply_status\":" ++ encodeOptional (message.replyStatus.map ReplyStatus.text) ++
    ",\"created_at\":" ++ quote message.createdAt ++ "\x7d"

/-- The JSON texts of messages, with commas between them. -/
def encodeMessages : List AgentMessage → String
  | [] => ""
  | [message] => message.encode
  | message :: messages => message.encode ++ "," ++ encodeMessages messages

def encodeBool : Bool → String
  | true => "true"
  | false => "false"

def encodeWakeReason : Option String → String
  | none => ""
  | some reason => ",\"wake_reason\":" ++ quote reason

/-- The JSON text of a page. -/
def AgentMessagePage.encode (page : AgentMessagePage) : String :=
  "\x7b\"messages\":[" ++ encodeMessages page.messages ++
    "],\"next_cursor\":" ++ quote page.nextCursor ++
    ",\"ack_cursor\":" ++ quote page.ackCursor ++
    ",\"has_more\":" ++ encodeBool page.hasMore ++ ",\"timed_out\":" ++ encodeBool page.timedOut ++
    encodeWakeReason page.wakeReason ++ "\x7d"

/-! ### Cursors -/

def isCursorFormat (token : String) : Bool :=
  token.startsWith "am1_" && token.utf8ByteSize = 36

def cursorSequence (recipient token : String) : MessagingM Nat := do
  failIf (!isCursorFormat token) "invalid_cursor" "Invalid cursor version or format."
  let store ← Prog.get
  match store.cursors.find? fun cursor => cursor.token = token with
  | some cursor =>
    if cursor.recipient = recipient then return cursor.sequence
    else failure "invalid_cursor" "Cursor belongs to another recipient."
  | none => failure "expired_cursor" "Cursor is unknown or no longer available."

def issueCursor (env : Env) (recipient : String) (sequence : Nat) : MessagingM String := do
  let store ← Prog.get
  match store.cursors.find? fun cursor =>
      cursor.recipient = recipient ∧ cursor.sequence = sequence with
  | some cursor => return cursor.token
  | none =>
    let token := newId "am1" (env.uuid 0)
    if store.cursors.any fun cursor => cursor.token = token then
      failure "storage_error" "UNIQUE constraint failed: agent_message_cursors.token"
    else do
      Prog.modify fun store =>
        { store with cursors := store.cursors ++ [⟨token, recipient, sequence⟩] }
      return token

/-! ### A page -/

/-- The receiver may read what is stored, what is pending, and what it was given before. -/
def Owner.isReceivable : Owner → Bool
  | .stored | .pending | .receiverAvailable => true
  | _ => false

/-- The row can be read: its interaction is there, and the scheduler does not own it. -/
def Store.isReadable (store : Store) (row : Availability) : Bool :=
  store.interactions.contains row.interactionId &&
    (store.deliveries[row.interactionId]?.all fun delivery => delivery.owner.isReceivable)

/-- The messages of a recipient behind a sequence that can be read, in order. -/
def Store.rowsAfter (store : Store) (recipient : String) (after : Nat) : List Availability :=
  store.availability.filter fun row =>
    row.recipient = recipient ∧ after < row.sequence ∧ store.isReadable row

/-- The status of a reply, which its task's structured reply has. -/
def replyStatusOf (record : InteractionRecord) : MessagingM (Option ReplyStatus) :=
  if record.kind = .reply then do
    let store ← Prog.get
    match store.structuredReplies[record.parentInteractionId.getD ""]? with
    | some reply => return some reply.status
    | none => failure "storage_error" "Query returned no rows"
  else return none

def readMessage (id : String) : MessagingM AgentMessage := do
  let record ← load id
  match record.bodyRef with
  | .file _ => failure "invalid_message" "V2 body is not inline canonical text."
  | .inline body => do
      let replyStatus ← replyStatusOf record
      let host ← hostAutomationProvenance id
      return ⟨id, record.kind, record.senderSessionId.getD "", host, body,
        record.parentInteractionId, replyStatus, record.createdAt⟩

/-- What the loop over the rows has collected. -/
structure PageScan where
  messages : List AgentMessage
  sequence : Nat
  bodyBytes : Nat
  serializedBytes : Nat
  hasMore : Bool

/-- The row belongs to the receiver from now on. -/
def Delivery.received (delivery : Delivery) (token : String) : Delivery :=
  { delivery with owner := .receiverAvailable, claimToken := some token }

def claimForReceiver (id token : String) : MessagingM Unit := do
  let _ ← updateDelivery id
    (fun delivery => delivery.owner = .stored ∨ delivery.owner = .pending)
    fun delivery => delivery.received token

/-- Read the rows until a budget is used up.  A row that does not fit stays as it is; if it is the
first one, the page fails. -/
def readRows (env : Env) : List Availability → PageScan → MessagingM PageScan
  | [], scan => return scan
  | row :: rows, scan => do
      let message ← readMessage row.interactionId
      let encodedBytes := message.encode.utf8ByteSize + 1
      if maxReceiveBodyBytes < scan.bodyBytes + message.message.utf8ByteSize ∨
          maxReceiveSerializedBytes < scan.serializedBytes + encodedBytes then
        if scan.messages = [] then
          failure "invalid_message" "Stored message exceeds receive serialization budget."
        else return { scan with hasMore := true }
      else do
        claimForReceiver row.interactionId
          (newId "claim" (env.uuid (scan.messages.length + 1)))
        readRows env rows
          { scan with
            messages := scan.messages ++ [message]
            sequence := row.sequence
            bodyBytes := scan.bodyBytes + message.message.utf8ByteSize
            serializedBytes := scan.serializedBytes + encodedBytes }

/-- The bytes reserved for what surrounds the messages of a page. -/
def pageEnvelopeBytes : Nat := 1024

def optionalSequence (recipient : String) (default : Nat) : Option String → MessagingM Nat
  | none => return default
  | some token => cursorSequence recipient token

def writeAck (recipient : String) (ack : Nat) : MessagingM Unit :=
  Prog.modify fun store =>
    { store with
      acks := store.acks.insert recipient (max ((store.acks[recipient]?).getD 0) ack) }

/-- The page behind `after`. -/
def readPage (env : Env) (recipient : String) (after limit : Nat) :
    MessagingM (PageScan × String) := do
  let store ← Prog.get
  let rows := (store.rowsAfter recipient after).take (limit + 1)
  let scan ← readRows env (rows.take limit)
    ⟨[], after, 0, pageEnvelopeBytes, decide (limit < rows.length)⟩
  let token ← issueCursor env recipient scan.sequence
  return (scan, token)

def receive (env : Env) (recipient : String) (cursor ackCursor : Option String) (limit : Nat) :
    MessagingM AgentMessagePage := do
  failIf (limit = 0 || maxReceiveItems < limit) "invalid_limit" "Receive limit must be 1 to 100."
  transaction do
    let store ← Prog.get
    let acknowledged := (store.acks[recipient]?).getD 0
    let given ← optionalSequence recipient acknowledged ackCursor
    let ack := max given acknowledged
    let after ← optionalSequence recipient ack cursor
    let page ← readPage env recipient after limit
    let done : AgentMessagePage := ⟨page.1.messages, page.2, page.2, page.1.hasMore, false, none⟩
    if ackCursor.isSome then do
      writeAck recipient ack
      return done
    else return done

/-! ### What a page does -/

def InteractionBodyRef.text? : InteractionBodyRef → Option String
  | .inline body => some body
  | .file _ => none

/-- The status that a message of the record shows, if it can be read. -/
def Store.statusOf (store : Store) (record : InteractionRecord) : Option (Option ReplyStatus) :=
  if record.kind = .reply then
    (store.structuredReplies[record.parentInteractionId.getD ""]?).map fun reply =>
      some reply.status
  else some none

/-- The message of an interaction, if it can be read. -/
def Store.messageOf (store : Store) (id : String) : Option AgentMessage :=
  (store.interactions[id]?).bind fun record =>
    record.bodyRef.text?.bind fun body =>
      (store.statusOf record).map fun replyStatus =>
        ⟨id, record.kind, record.senderSessionId.getD "", store.hostTasks[id]?, body,
          record.parentInteractionId, replyStatus, record.createdAt⟩

/-- The message fits what is left of both budgets. -/
def PageScan.Fits (scan : PageScan) (message : AgentMessage) : Prop :=
  scan.bodyBytes + message.message.utf8ByteSize ≤ maxReceiveBodyBytes ∧
    scan.serializedBytes + (message.encode.utf8ByteSize + 1) ≤ maxReceiveSerializedBytes

/-- The scan, with one more message. -/
def PageScan.taking (scan : PageScan) (row : Availability) (message : AgentMessage) : PageScan :=
  { scan with
    messages := scan.messages ++ [message]
    sequence := row.sequence
    bodyBytes := scan.bodyBytes + message.message.utf8ByteSize
    serializedBytes := scan.serializedBytes + (message.encode.utf8ByteSize + 1) }

/-- The tables once the receiver has claimed a row, if the row was free. -/
def Store.giving (store : Store) (id token : String) : Store :=
  match store.deliveries[id]? with
  | none => store
  | some delivery =>
    if delivery.owner = .stored ∨ delivery.owner = .pending then
      store.withDelivery id (delivery.received token)
    else store

/-- A run of the loop over the rows, which has read the first of them, `read`. -/
inductive Reads (env : Env) :
    Store → List Availability → PageScan → List Availability → PageScan → Store → Prop
  | done (store : Store) (scan : PageScan) : Reads env store [] scan [] scan store
  | full {store : Store} {scan : PageScan} {row : Availability} {rows : List Availability}
      {message : AgentMessage} (hmsg : store.messageOf row.interactionId = some message)
      (hfull : ¬ scan.Fits message) (hsome : scan.messages ≠ []) :
      Reads env store (row :: rows) scan [] { scan with hasMore := true } store
  | take {store store' : Store} {scan scan' : PageScan} {row : Availability}
      {rows read : List Availability} {message : AgentMessage}
      (hmsg : store.messageOf row.interactionId = some message) (hfits : scan.Fits message)
      (hrest : Reads env
        (store.giving row.interactionId (newId "claim" (env.uuid (scan.messages.length + 1)))) rows
        (scan.taking row message) read scan' store') :
      Reads env store (row :: rows) scan (row :: read) scan' store'

section

variable {env : Env} {store store' : Store} {id token recipient : String}
  {R : Failure → Store → Prop}

theorem wp_replyStatusOf {record : InteractionRecord} {Q : Option ReplyStatus → Store → Prop}
    (hok : ∀ status, store.statusOf record = some status → Q status store)
    (hfail : ∀ e, store.statusOf record = none → R e store) : Wp (replyStatusOf record) Q R store := by
  unfold replyStatusOf
  unfold Store.statusOf at hok hfail
  refine wp_ite (fun hrep => ?_) fun hoth => ?_
  · rw [if_pos hrep] at hok hfail
    rw [wp_bind, wp_get]
    cases hpar : store.structuredReplies[record.parentInteractionId.getD ""]? with
    | none => exact hfail _ (by rw [hpar]; rfl)
    | some reply => exact hok _ (by rw [hpar]; rfl)
  · rw [if_neg hoth] at hok
    exact hok _ rfl

theorem wp_readMessage {Q : AgentMessage → Store → Prop}
    (hok : ∀ message, store.messageOf id = some message → Q message store)
    (hfail : ∀ e, store.messageOf id = none → R e store) : Wp (readMessage id) Q R store := by
  unfold readMessage
  unfold Store.messageOf at hok hfail
  rw [wp_bind]
  refine wp_load (fun record hrec => ?_) fun hnone => hfail _ (by rw [hnone]; rfl)
  rw [hrec, Option.bind_some] at hok hfail
  split
  · rename_i path hbody
    exact hfail _ (by rw [hbody]; rfl)
  · rename_i body hbody
    rw [hbody, InteractionBodyRef.text?, Option.bind_some] at hok hfail
    rw [wp_bind]
    refine wp_replyStatusOf (fun status hstat => ?_) fun e hstat => ?_
    · unfold hostAutomationProvenance
      rw [wp_bind, wp_bind, wp_get]
      exact hok _ (by rw [hstat]; rfl)
    · exact hfail _ (by rw [hstat]; rfl)

theorem wp_claimForReceiver {Q : Unit → Store → Prop} (hok : Q () (store.giving id token)) :
    Wp (claimForReceiver id token) Q R store := by
  unfold claimForReceiver
  unfold Store.giving at hok
  rw [wp_bind]
  refine wp_updateDelivery (fun delivery hdel hgrd => ?_) fun hsame => ?_
  · rw [hdel] at hok
    simp only [if_pos (of_decide_eq_true hgrd)] at hok
    exact hok
  · cases hdel : store.deliveries[id]? with
    | none =>
      rw [hdel] at hok
      exact hok
    | some delivery =>
      rw [hdel] at hok
      simp only [if_neg (of_decide_eq_false (hsame delivery hdel))] at hok
      exact hok

variable {message : AgentMessage}

theorem messageOf_interactionId (h : store.messageOf id = some message) : message.interactionId = id := by
  obtain ⟨record, -, hrec⟩ := Option.bind_eq_some_iff.1 h
  obtain ⟨body, -, hbody⟩ := Option.bind_eq_some_iff.1 hrec
  obtain ⟨status, -, rfl⟩ := Option.map_eq_some_iff.1 hbody
  rfl

@[simp] theorem messageOf_giving : (store.giving id token).messageOf = store.messageOf := by
  unfold Store.giving
  split
  · rfl
  · split <;> rfl

/-- What stops the loop: a row that cannot be read, or a first one that does not fit. -/
def Stuck (store : Store) (rows : List Availability) (scan : PageScan) : Prop :=
  (∃ row ∈ rows, store.messageOf row.interactionId = none) ∨
    scan.messages = [] ∧ ∃ row rest message, rows = row :: rest ∧
      store.messageOf row.interactionId = some message ∧ ¬ scan.Fits message

theorem Stuck.of_take {rows : List Availability} {scan : PageScan} {n : Nat}
    (h : Stuck store (rows.take n) scan) : Stuck store rows scan := by
  rcases h with ⟨row, hmem, hnone⟩ | ⟨hnil, row, rest, message, heq, hmsg, hfull⟩
  · exact .inl ⟨row, mem_of_mem_take hmem, hnone⟩
  · refine .inr ⟨hnil, row, rest ++ rows.drop n, message, ?_, hmsg, hfull⟩
    calc rows = rows.take n ++ rows.drop n := (take_append_drop n rows).symm
      _ = row :: (rest ++ rows.drop n) := by rw [heq]; rfl

theorem wp_readRows {rows : List Availability} {scan : PageScan} {Q : PageScan → Store → Prop}
    (hok : ∀ read scan' store', Reads env store rows scan read scan' store' → Q scan' store')
    (hfail : ∀ e store', Stuck store rows scan → R e store') :
    Wp (readRows env rows scan) Q R store := by
  induction rows generalizing store scan with
  | nil => exact hok [] scan store (.done store scan)
  | cons row rows ih =>
    unfold readRows
    rw [wp_bind]
    refine wp_readMessage (fun message hmsg => ?_) fun e hnone =>
      hfail e _ (.inl ⟨row, mem_cons_self, hnone⟩)
    have hiff : maxReceiveBodyBytes < scan.bodyBytes + message.message.utf8ByteSize ∨
        maxReceiveSerializedBytes <
          scan.serializedBytes + (message.encode.utf8ByteSize + 1) ↔ ¬ scan.Fits message := by
      unfold PageScan.Fits
      omega
    refine wp_ite (fun hfull => ?_) fun hfits => ?_
    · refine wp_ite (fun hnil => ?_) fun hsome => ?_
      · exact hfail _ _ (.inr ⟨hnil, row, rows, message, rfl, hmsg, hiff.1 hfull⟩)
      · exact hok [] _ store (.full hmsg (hiff.1 hfull) hsome)
    · have hthis : scan.Fits message := by
        by_contra hnot
        exact hfits (hiff.2 hnot)
      rw [wp_bind]
      refine wp_claimForReceiver (ih (fun read scan' store' hrds => ?_) fun e store' hstk => ?_)
      · exact hok (row :: read) scan' store' (.take hmsg hthis hrds)
      · refine hfail e store' ?_
        rcases hstk with ⟨stuck, hmem, hnone⟩ | ⟨hnil, -⟩
        · rw [messageOf_giving] at hnone
          exact .inl ⟨stuck, mem_cons_of_mem _ hmem, hnone⟩
        · simp at hnil

variable {rows read : List Availability} {scan scan' : PageScan}

section

variable (h : Reads env store rows scan read scan' store')
include h

theorem Reads.frame :
    store' = { store with deliveries := store'.deliveries } := by
  induction h with
  | done store scan => rfl
  | full => rfl
  | @take store store' scan scan' row rows read message hmsg hfits hrest ih =>
    have hgiving : ∀ id token : String,
        store.giving id token = { store with deliveries := (store.giving id token).deliveries } := by
      intro id token
      unfold Store.giving
      split
      · rfl
      · split <;> rfl
    rw [ih, hgiving]

/-- The page has the messages of the rows it has read, and they come first. -/
theorem Reads.messages :
    ∃ messages, scan'.messages = scan.messages ++ messages ∧
      read.map (fun row => store.messageOf row.interactionId) = messages.map some := by
  induction h with
  | done store scan | full => exact ⟨[], by simp, rfl⟩
  | @take store store' scan scan' row rows read message hmsg hfits hrest ih =>
    obtain ⟨messages, heq, hmap⟩ := ih
    refine ⟨message :: messages, ?_, ?_⟩
    · rw [heq]
      simp [PageScan.taking]
    · rw [messageOf_giving] at hmap
      simp [hmsg, hmap]

theorem Reads.message_of_row {row : Availability}
    (hrow : row ∈ read) : ∃ message ∈ scan'.messages, store.messageOf row.interactionId = some message := by
  obtain ⟨messages, heq, hmap⟩ := h.messages
  have hmem : store.messageOf row.interactionId ∈ messages.map some := by
    rw [← hmap]
    exact mem_map_of_mem hrow
  obtain ⟨message, hmsg, hsome⟩ := mem_map.1 hmem
  exact ⟨message, by rw [heq]; exact mem_append_right _ hmsg, hsome.symm⟩

/-- A message of the page is one it had before, or that of a row that was read. -/
theorem Reads.row_of_message (hmsg : message ∈ scan'.messages) :
    message ∈ scan.messages ∨ ∃ row ∈ read, store.messageOf row.interactionId = some message := by
  obtain ⟨messages, heq, hmap⟩ := h.messages
  rw [heq] at hmsg
  rcases mem_append.1 hmsg with hold | hnew
  · exact .inl hold
  · have hmem : some message ∈ read.map fun row => store.messageOf row.interactionId := by
      rw [hmap]
      exact mem_map_of_mem hnew
    obtain ⟨row, hrow, hsome⟩ := mem_map.1 hmem
    exact .inr ⟨row, hrow, hsome⟩

/-- What is left over is nothing, or it begins with a message that does not fit. -/
theorem Reads.rest :
    rows = read ∧ scan'.hasMore = scan.hasMore ∨
      ∃ row rest message, rows = read ++ row :: rest ∧
        store.messageOf row.interactionId = some message ∧ ¬ scan'.Fits message ∧
        scan'.messages ≠ [] ∧ scan'.hasMore = true := by
  induction h with
  | done store scan => exact .inl ⟨rfl, rfl⟩
  | @full store scan row rows message hmsg hfull hsome =>
    exact .inr ⟨row, rows, message, rfl, hmsg, hfull, hsome, rfl⟩
  | @take store store' scan scan' row rows read message hmsg hfits hrest ih =>
    rcases ih with ⟨rfl, hmore⟩ | ⟨next, rest, other, rfl, hoth, hfull⟩
    · exact .inl ⟨rfl, hmore⟩
    · rw [messageOf_giving] at hoth
      exact .inr ⟨next, rest, other, rfl, hoth, hfull⟩

theorem Reads.sequence :
    scan'.sequence = ((read.getLast?).map Availability.sequence).getD scan.sequence := by
  induction h with
  | done store scan => rfl
  | full => rfl
  | @take store store' scan scan' row rows read message hmsg hfits hrest ih =>
    rw [ih]
    cases read with
    | nil => rfl
    | cons next read => rw [getLast?_cons_cons, getLast?_cons]; rfl

theorem Reads.budget (hbody : scan.bodyBytes ≤ maxReceiveBodyBytes)
    (hseri : scan.serializedBytes ≤ maxReceiveSerializedBytes) :
    scan'.bodyBytes ≤ maxReceiveBodyBytes ∧ scan'.serializedBytes ≤ maxReceiveSerializedBytes := by
  induction h with
  | done store scan | full => exact ⟨hbody, hseri⟩
  | take hmsg hfits hrest ih => exact ih hfits.1 hfits.2

end

variable {delivery : Delivery}

theorem isReceivable_iff :
    delivery.owner.isReceivable = true ↔
      delivery.IsFree ∨ delivery.owner = .receiverAvailable := by
  unfold Delivery.IsFree
  cases delivery.owner <;> simp [Owner.isReceivable]

theorem not_isFree_received (delivery : Delivery) : ¬ (delivery.received token).IsFree := by
  rintro (h | h) <;> cases h

/-- The receiver's claim leaves a row as it is, or takes it while it is free. -/
theorem giving_lookup (store : Store) (id token other : String) :
    ((store.giving id token).deliveries[other]? = store.deliveries[other]? ∧
      (other = id → ∀ delivery, store.deliveries[other]? = some delivery → ¬ delivery.IsFree)) ∨
      other = id ∧ ∃ delivery, store.deliveries[other]? = some delivery ∧ delivery.IsFree ∧
        (store.giving id token).deliveries[other]? = some (delivery.received token) := by
  unfold Store.giving
  split
  · rename_i hnone
    refine .inl ⟨rfl, ?_⟩
    rintro rfl delivery hdel
    rw [hnone] at hdel
    cases hdel
  · rename_i delivery hdel
    split
    · rename_i hfree
      by_cases hid : other = id
      · subst hid
        exact .inr ⟨rfl, delivery, hdel, hfree, by
          simp only [Store.withDelivery, Table.lookup_insert, if_true]⟩
      · refine .inl ⟨?_, fun h => absurd h hid⟩
        simp only [Store.withDelivery, Table.lookup_insert, if_neg (Ne.symm hid)]
    · rename_i hnot
      refine .inl ⟨rfl, ?_⟩
      rintro rfl found hfnd
      rw [hdel] at hfnd
      obtain rfl := Option.some.inj hfnd
      exact hnot

section

variable (h : Reads env store rows scan read scan' store')
include h

theorem Reads.bytes
    (hbody : scan.bodyBytes = (scan.messages.map fun message => message.message.utf8ByteSize).sum)
    (hseri : scan.serializedBytes = pageEnvelopeBytes +
      (scan.messages.map fun message => message.encode.utf8ByteSize + 1).sum) :
    scan'.bodyBytes = (scan'.messages.map fun message => message.message.utf8ByteSize).sum ∧
      scan'.serializedBytes = pageEnvelopeBytes +
        (scan'.messages.map fun message => message.encode.utf8ByteSize + 1).sum := by
  induction h with
  | done store scan | full => exact ⟨hbody, hseri⟩
  | take hmsg hfits hrest ih =>
    refine ih ?_ ?_
    · rw [PageScan.taking, map_append, sum_append, ← hbody]
      simp
    · rw [PageScan.taking, map_append, sum_append]
      simp only [map_cons, map_nil, sum_singleton]
      omega

/-- The loop does the same wherever the same messages stand behind the rows. -/
theorem Reads.unique {env₂ : Env} {store₂ store₂' : Store}
    {read₂ : List Availability} {scan₂' : PageScan} (h₂ : Reads env₂ store₂ rows scan read₂ scan₂' store₂')
    (hmsgs : store₂.messageOf = store.messageOf) : read₂ = read ∧ scan₂' = scan' := by
  induction h generalizing store₂ read₂ with
  | done store scan =>
    cases h₂ with
    | done => exact ⟨rfl, rfl⟩
  | @full store scan row rows message hmsg hfull hsome =>
    cases h₂ with
    | full => exact ⟨rfl, rfl⟩
    | take hmsg₂ hfits₂ =>
      rw [hmsgs, hmsg] at hmsg₂
      obtain rfl := Option.some.inj hmsg₂
      exact absurd hfits₂ hfull
  | @take store store' scan scan' row rows read message hmsg hfits hrest ih =>
    cases h₂ with
    | full hmsg₂ hfull₂ =>
      rw [hmsgs, hmsg] at hmsg₂
      obtain rfl := Option.some.inj hmsg₂
      exact absurd hfits hfull₂
    | @take _ _ _ _ _ _ read₂ message₂ hmsg₂ hfits₂ hrest₂ =>
      rw [hmsgs, hmsg] at hmsg₂
      obtain rfl := Option.some.inj hmsg₂
      obtain ⟨hread, hscan⟩ := ih hrest₂ (by rw [messageOf_giving, messageOf_giving, hmsgs])
      exact ⟨by rw [hread], hscan⟩

/-- A row is as it was, or it was free, is one of those read, and is the receiver's now. -/
theorem Reads.row (id : String) :
    store'.deliveries[id]? = store.deliveries[id]? ∨
      (∃ row ∈ read, row.interactionId = id) ∧ ∃ delivery token,
        store.deliveries[id]? = some delivery ∧ delivery.IsFree ∧
        store'.deliveries[id]? = some (delivery.received token) := by
  induction h with
  | done store scan | full => exact .inl rfl
  | @take store store' scan scan' row rows read message hmsg hfits hrest ih =>
    rcases giving_lookup store row.interactionId
      (newId "claim" (env.uuid (scan.messages.length + 1))) id with
      ⟨hsame, -⟩ | ⟨rfl, delivery, hdel, hfree, hgvn⟩
    · rw [hsame] at ih
      rcases ih with hltr | ⟨⟨next, hnext, hid⟩, hchgd⟩
      · exact .inl hltr
      · exact .inr ⟨⟨next, mem_cons_of_mem _ hnext, hid⟩, hchgd⟩
    · rw [hgvn] at ih
      rcases ih with hltr | ⟨-, found, token, hfnd, hfound_free, -⟩
      · exact .inr ⟨⟨row, mem_cons_self, rfl⟩, delivery, _, hdel, hfree, hltr⟩
      · obtain rfl := Option.some.inj hfnd
        exact absurd hfound_free (not_isFree_received delivery)

theorem Reads.not_free {row : Availability}
    (hrow : row ∈ read)
    (hdel : store'.deliveries[row.interactionId]? = some delivery) : ¬ delivery.IsFree := by
  induction h with
  | done store scan | full => cases hrow
  | @take store store' scan scan' head rows read message hmsg hfits hrest ih =>
    rcases mem_cons.1 hrow with rfl | hmem
    · rcases hrest.row row.interactionId with hsame | ⟨-, found, token, -, -, hnew⟩
      · rw [hsame] at hdel
        rcases giving_lookup store row.interactionId
          (newId "claim" (env.uuid (scan.messages.length + 1))) row.interactionId with
          ⟨heq, hnot⟩ | ⟨-, found, -, -, hgvn⟩
        · rw [heq] at hdel
          exact hnot rfl delivery hdel
        · rw [hgvn] at hdel
          obtain rfl := Option.some.inj hdel
          exact not_isFree_received found
      · rw [hnew] at hdel
        obtain rfl := Option.some.inj hdel
        exact not_isFree_received found
    · exact ih hmem hdel

end

/-- The sequence that a cursor stands for, if it is one of the recipient's. -/
def Store.cursorOf (store : Store) (recipient : String) (default : Nat) :
    Option String → Option Nat
  | none => some default
  | some token =>
    if isCursorFormat token then
      ((store.cursors.find? fun cursor => cursor.token = token).filter fun cursor =>
        cursor.recipient = recipient).map Cursor.sequence
    else none

theorem wp_optionalSequence {default : Nat} {token : Option String} {Q : Nat → Store → Prop}
    (hok : ∀ sequence, store.cursorOf recipient default token = some sequence → Q sequence store)
    (hfail : ∀ e, store.cursorOf recipient default token = none → R e store) :
    Wp (optionalSequence recipient default token) Q R store := by
  unfold optionalSequence cursorSequence
  cases token with
  | none => exact hok default rfl
  | some token =>
    simp only [Store.cursorOf] at hok hfail
    rw [wp_bind]
    refine wp_failIf_of (fun hformat => hfail _ ?_) fun hformat => ?_
    · rw [if_neg (by simpa using hformat)]
    · rw [if_pos (by simpa using hformat)] at hok hfail
      rw [wp_bind, wp_get]
      split
      · rename_i cursor hcurs
        rw [hcurs] at hok hfail
        refine wp_ite (fun hown => ?_) fun hown => ?_
        · exact hok _ (by rw [Option.filter_some_pos (by simpa using hown)]; rfl)
        · exact hfail _ (by rw [Option.filter_some_neg (by simpa using hown)]; rfl)
      · rename_i hnone
        exact hfail _ (by rw [hnone]; rfl)

/-- A page of `recipient` behind `after` has been read; `ack` is the acknowledged mark. -/
structure Received (env : Env) (recipient : String) (cursor ackCursor : Option String) (limit : Nat)
    (page : AgentMessagePage) (store store' : Store) (ack after : Nat) (read : List Availability)
    (scan : PageScan) : Prop where
  limit_pos : 0 < limit
  limit_le : limit ≤ maxReceiveItems
  ack_eq : ∃ given, store.cursorOf recipient ((store.acks[recipient]?).getD 0) ackCursor =
    some given ∧ ack = max given ((store.acks[recipient]?).getD 0)
  after_eq : store.cursorOf recipient ack cursor = some after
  reads : Reads env store ((store.rowsAfter recipient after).take limit)
    ⟨[], after, 0, pageEnvelopeBytes, decide (limit < (store.rowsAfter recipient after).length)⟩
    read scan { store with deliveries := store'.deliveries }
  messages : page.messages = scan.messages
  hasMore : page.hasMore = scan.hasMore
  ackCursor_eq : page.ackCursor = page.nextCursor
  at_once : page.timedOut = false ∧ page.wakeReason = none
  cursors : store'.cursors = store.cursors ∧
      ⟨page.nextCursor, recipient, scan.sequence⟩ ∈ store.cursors ∨
    store'.cursors = store.cursors ++ [⟨page.nextCursor, recipient, scan.sequence⟩] ∧
      page.nextCursor = newId "am1" (env.uuid 0) ∧
      ∀ cursor ∈ store.cursors, cursor.token ≠ page.nextCursor
  acks : store'.acks = if ackCursor.isSome then
      store.acks.insert recipient (max ((store.acks[recipient]?).getD 0) ack) else store.acks
  frame : store' = { store with
    deliveries := store'.deliveries, cursors := store'.cursors, acks := store'.acks }

variable {after : Nat}

/-- The rows behind a sequence are readable rows of the recipient's stream. -/
theorem mem_rowsAfter {row : Availability} :
    row ∈ store.rowsAfter recipient after ↔ row ∈ store.availability ∧
      row.recipient = recipient ∧ after < row.sequence ∧ store.isReadable row = true := by
  unfold Store.rowsAfter
  rw [mem_filter, decide_eq_true_iff]

variable {cursor ackCursor : Option String} {ack limit : Nat} {page : AgentMessagePage}

/-- A message of a page is that of a readable row behind its cursor, which was read. -/
theorem Received.row_of_message
    (h : Received env recipient cursor ackCursor limit page store store' ack after read scan)
    (hmsg : message ∈ page.messages) :
    ∃ row ∈ read, row ∈ store.rowsAfter recipient after ∧
      message.interactionId = row.interactionId := by
  rw [h.messages] at hmsg
  rcases h.reads.row_of_message hmsg with hnil | ⟨row, hrow, hsome⟩
  · cases hnil
  · refine ⟨row, hrow, mem_of_mem_take (i := limit) ?_, messageOf_interactionId hsome⟩
    rcases h.reads.rest with ⟨heq, -⟩ | ⟨next, rest, other, heq, -⟩
    · rw [heq]
      exact hrow
    · rw [heq]
      exact mem_append_left _ hrow

/-- A row that was read was free or the receiver's, and is the receiver's now. -/
theorem Received.owned
    (h : Received env recipient cursor ackCursor limit page store store' ack after read scan)
    {row : Availability} (hrow : row ∈ read) (hrdbl : store.isReadable row = true)
    {old : Delivery} (hold : store.deliveries[row.interactionId]? = some old) :
    (old.IsFree ∨ old.owner = .receiverAvailable) ∧ ∃ new,
      store'.deliveries[row.interactionId]? = some new ∧ new.owner = .receiverAvailable := by
  rcases h.reads.row row.interactionId with hsame | ⟨-, found, token, hfnd, hfree, hnew⟩
  · have hnot : ¬ old.IsFree := h.reads.not_free hrow (hsame.trans hold)
    have hown : old.owner.isReceivable = true := by
      unfold Store.isReadable at hrdbl
      rw [hold] at hrdbl
      exact (Bool.and_eq_true_iff.1 hrdbl).2
    rcases isReceivable_iff.1 hown with hfree | hrcvr
    · exact absurd hfree hnot
    · exact ⟨.inr hrcvr, old, hsame.trans hold, hrcvr⟩
  · rw [hold] at hfnd
    obtain rfl := Option.some.inj hfnd
    exact ⟨.inl hfree, _, hnew, rfl⟩

/-- The rows that were read come first among those behind the cursor. -/
theorem Received.stem
    (h : Received env recipient cursor ackCursor limit page store store' ack after read scan) :
    ∃ rest, store.rowsAfter recipient after = read ++ rest := by
  have hspl := take_append_drop limit (store.rowsAfter recipient after)
  rcases h.reads.rest with ⟨heq, -⟩ | ⟨next, rest, other, heq, -⟩
  · exact ⟨(store.rowsAfter recipient after).drop limit, by rw [← heq, hspl]⟩
  · refine ⟨next :: rest ++ (store.rowsAfter recipient after).drop limit, ?_⟩
    rw [← append_assoc, ← heq, hspl]

/-- The sequence of the page: it is behind the cursor's, and it is that of a row or the cursor's
own. -/
theorem Received.sequence_cases
    (h : Received env recipient cursor ackCursor limit page store store' ack after read scan) :
    read = [] ∧ scan.sequence = after ∨
      ∃ init last, read = init ++ [last] ∧ scan.sequence = last.sequence := by
  have hseq := h.reads.sequence
  rcases eq_nil_or_concat read with rfl | ⟨init, last, rfl⟩
  · exact .inl ⟨rfl, hseq⟩
  · refine .inr ⟨init, last, concat_eq_append, ?_⟩
    rw [hseq]
    simp

/-- A readable row up to the sequence of the page is one that was read. -/
theorem Received.mem_read
    (h : Received env recipient cursor ackCursor limit page store store' ack after read scan)
    (hordd : store.availability.Pairwise fun row row' => row.sequence < row'.sequence) {row : Availability}
    (hrow : row ∈ store.rowsAfter recipient after) (hle : row.sequence ≤ scan.sequence) : row ∈ read := by
  obtain ⟨rest, heq⟩ := h.stem
  have hpair : (read ++ rest).Pairwise fun row row' => row.sequence < row'.sequence := by
    rw [← heq]
    exact hordd.filter _
  rw [heq] at hrow
  rcases mem_append.1 hrow with hmem | hmem
  · exact hmem
  · rcases h.sequence_cases with ⟨rfl, hseq⟩ | ⟨init, last, rfl, hseq⟩
    · have hbeh : after < row.sequence := by
        refine (mem_rowsAfter.1 (?_ : row ∈ store.rowsAfter recipient after)).2.2.1
        rw [heq]
        exact hmem
      omega
    · have hlt := (pairwise_append.1 hpair).2.2 last
        (mem_append_right _ (mem_singleton_self _)) row hmem
      omega

theorem wp_issueCursor {sequence : Nat} {Q : String → Store → Prop}
    (hold : ∀ token, ⟨token, recipient, sequence⟩ ∈ store.cursors → Q token store)
    (hnew : (∀ cursor ∈ store.cursors, cursor.token ≠ newId "am1" (env.uuid 0)) →
      Q (newId "am1" (env.uuid 0)) { store with
        cursors := store.cursors ++ [⟨newId "am1" (env.uuid 0), recipient, sequence⟩] })
    (hfail : ∀ e, (∃ cursor ∈ store.cursors, cursor.token = newId "am1" (env.uuid 0)) → R e store) :
    Wp (issueCursor env recipient sequence) Q R store := by
  unfold issueCursor
  rw [wp_bind, wp_get]
  split
  · rename_i cursor hcurs
    have hmatch := find?_some hcurs
    have hboth := of_decide_eq_true hmatch
    obtain ⟨token, owner, mark⟩ := cursor
    obtain ⟨rfl, rfl⟩ := hboth
    exact hold token (mem_of_find?_eq_some hcurs)
  · dsimp only
    refine wp_ite (fun hused => hfail _ ?_) fun hunus => ?_
    · simpa using hused
    · rw [wp_bind, wp_modify]
      exact hnew (by simpa using hunus)

/-- What stops a page. -/
def NotReceived (env : Env) (recipient : String) (cursor ackCursor : Option String) (limit : Nat)
    (store : Store) : Prop :=
  limit = 0 ∨ maxReceiveItems < limit ∨
    store.cursorOf recipient ((store.acks[recipient]?).getD 0) ackCursor = none ∨
    (∃ default, store.cursorOf recipient default cursor = none) ∨
    (∃ after hasMore, Stuck store (store.rowsAfter recipient after)
      ⟨[], after, 0, pageEnvelopeBytes, hasMore⟩) ∨
    ∃ cursor ∈ store.cursors, cursor.token = newId "am1" (env.uuid 0)

/-- A page is read and its cursor is issued, or nothing happens. -/
theorem wp_receive {Q : AgentMessagePage → Store → Prop}
    (hok : ∀ page store' ack after read scan,
      Received env recipient cursor ackCursor limit page store store' ack after read scan →
      Q page store') (hfail : ∀ e, NotReceived env recipient cursor ackCursor limit store → R e store) :
    Wp (receive env recipient cursor ackCursor limit) Q R store := by
  unfold receive
  rw [wp_bind]
  refine wp_failIf_of (fun hlim => hfail _ ?_) fun hlim => wp_transaction ?_
  · rcases Bool.or_eq_true_iff.1 hlim with hzero | hmany
    · exact .inl (of_decide_eq_true hzero)
    · exact .inr (.inl (of_decide_eq_true hmany))
  obtain ⟨hpos, hle⟩ := Bool.or_eq_false_iff.1 hlim
  rw [wp_bind, wp_get, wp_bind]
  refine wp_optionalSequence (fun given hgvn => ?_) fun e hnone =>
    hfail e (.inr (.inr (.inl hnone)))
  rw [wp_bind]
  refine wp_optionalSequence (fun after haft => ?_) fun e hnone =>
    hfail e (.inr (.inr (.inr (.inl ⟨_, hnone⟩))))
  unfold readPage
  rw [wp_bind, wp_bind, wp_get]
  dsimp only
  have hrows : ((store.rowsAfter recipient after).take (limit + 1)).take limit =
      (store.rowsAfter recipient after).take limit := by
    rw [take_take, Nat.min_eq_left (Nat.le_succ limit)]
  have hmore : decide (limit < ((store.rowsAfter recipient after).take (limit + 1)).length) =
      decide (limit < (store.rowsAfter recipient after).length) := by
    rw [length_take]
    congr 1
    apply propext
    omega
  rw [hrows, hmore, wp_bind]
  refine wp_readRows (fun read scan store₁ hrds => ?_) fun e _ hstk =>
    hfail e (.inr (.inr (.inr (.inr (.inl ⟨after, _, hstk.of_take⟩)))))
  have hfrm := hrds.frame
  have hlims : 0 < limit ∧ limit ≤ maxReceiveItems :=
    ⟨Nat.pos_of_ne_zero (of_decide_eq_false hpos), Nat.le_of_not_lt (of_decide_eq_false hle)⟩
  have hpage : ∀ token (cursors : List Cursor),
      (cursors = store.cursors ∧ ⟨token, recipient, scan.sequence⟩ ∈ store.cursors ∨
        cursors = store.cursors ++ [⟨token, recipient, scan.sequence⟩] ∧
          token = newId "am1" (env.uuid 0) ∧ ∀ cursor ∈ store.cursors, cursor.token ≠ token) →
      Wp (if ackCursor.isSome then do
          writeAck recipient (max given ((store.acks[recipient]?).getD 0))
          return (⟨scan.messages, token, token, scan.hasMore, false, none⟩ : AgentMessagePage)
        else return ⟨scan.messages, token, token, scan.hasMore, false, none⟩)
        Q (fun e _ => R e store) { store₁ with cursors := cursors } := by
    intro token cursors hcursrs
    have hacks : store₁.acks = store.acks := by rw [hfrm]
    refine wp_ite (fun hsome => ?_) fun hnone => ?_
    · unfold writeAck
      rw [wp_bind, wp_modify]
      refine hok _ _ _ after read scan ⟨hlims.1, hlims.2, ⟨given, hgvn, rfl⟩, haft, ?_, rfl,
        rfl, rfl, ⟨rfl, rfl⟩, hcursrs, ?_, ?_⟩
      · dsimp only
        rw [← hfrm]
        exact hrds
      · dsimp only
        rw [if_pos hsome, hacks]
      · rw [hfrm]
    · refine hok _ _ _ after read scan ⟨hlims.1, hlims.2, ⟨given, hgvn, rfl⟩, haft, ?_, rfl,
        rfl, rfl, ⟨rfl, rfl⟩, hcursrs, ?_, ?_⟩
      · dsimp only
        rw [← hfrm]
        exact hrds
      · dsimp only
        rw [if_neg hnone, hacks]
      · rw [hfrm]
  have hsame : store₁.cursors = store.cursors := by rw [hfrm]
  rw [wp_bind]
  refine wp_issueCursor (fun token hmem => ?_) (fun hfrs => ?_) fun e hused => ?_
  · rw [hsame] at hmem
    have := hpage token store.cursors (.inl ⟨rfl, hmem⟩)
    rw [← hsame] at this
    exact this
  · rw [hsame] at hfrs ⊢
    exact hpage _ _ (.inr ⟨rfl, rfl, hfrs⟩)
  · rw [hsame] at hused
    exact hfail e (.inr (.inr (.inr (.inr (.inr hused)))))

end

end Wardian.Messaging
