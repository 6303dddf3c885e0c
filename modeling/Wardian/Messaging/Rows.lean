/-
What a call does to the delivery rows.

A row never goes away, and it stays a row of the same message.  Its owner moves along few lines: a free
row may be read by the receiver or claimed by the scheduler, a claimed row may be released or its
claim may end, and a stored row may be blocked.

Main results:

* `Messaging.Effect.rows` — every effect moves every row like that;
* `Messaging.Store.Sound.step`, `Messaging.History.sound` — the tables stay sound.
-/

import Wardian.Messaging.History

set_option autoImplicit false

namespace Wardian.Messaging

open Table
open List

/-! ### Rows -/

/-- Every row is still there, changed as `P` allows. -/
def RowsStep (P : String → Delivery → Delivery → Prop) (store store' : Store) : Prop :=
  ∀ (id : String) (delivery : Delivery), store.deliveries[id]? = some delivery →
    ∃ delivery', store'.deliveries[id]? = some delivery' ∧ P id delivery delivery'

section

variable {P : String → Delivery → Delivery → Prop} {store store' store'' : Store} {id : String}
  {delivery delivery' : Delivery}

theorem RowsStep.of_eq (hrefl : ∀ id delivery, P id delivery delivery)
    (h : store'.deliveries = store.deliveries) : RowsStep P store store' :=
  fun id delivery hdel => ⟨delivery, by rw [h, hdel], hrefl id delivery⟩

/-- One row changes. -/
theorem RowsStep.of_row (hrefl : ∀ id delivery, P id delivery delivery)
    (hrow : store.deliveries[id]? = some delivery) (hP : P id delivery delivery') :
    RowsStep P store (store.withDelivery id delivery') := by
  intro other found hfnd
  rw [Store.withDelivery, lookup_insert]
  by_cases hid : id = other
  · subst hid
    rw [hrow] at hfnd
    obtain rfl := Option.some.inj hfnd
    exact ⟨delivery', if_pos rfl, hP⟩
  · exact ⟨found, by rw [if_neg hid, hfnd], hrefl other found⟩

/-- One row is added. -/
theorem RowsStep.of_new (hrefl : ∀ id delivery, P id delivery delivery) (hnone : store.deliveries[id]? = none)
    (h : store'.deliveries = store.deliveries.insert id delivery') : RowsStep P store store' := by
  intro other found hfnd
  have hid : id ≠ other := by
    rintro rfl
    rw [hnone] at hfnd
    cases hfnd
  exact ⟨found, by rw [h, lookup_insert, if_neg hid, hfnd], hrefl other found⟩

/-- Steps compose. -/
theorem RowsStep.trans (htrans : ∀ id a b c, P id a b → P id b c → P id a c) (h : RowsStep P store store')
    (h' : RowsStep P store' store'') : RowsStep P store store'' := by
  intro id delivery hdel
  obtain ⟨middle, hmid, hP⟩ := h id delivery hdel
  obtain ⟨last, hlast, hP'⟩ := h' id middle hmid
  exact ⟨last, hlast, htrans id delivery middle last hP hP'⟩

end

/-! ### The moves of an owner -/

/-- The claim that a call ends, if it ends one. -/
def Call.ending : Call → Option TaskClaim
  | .finishClaim claim _ => some claim
  | .replyStartupFailure claim => some claim
  | .bindTaskTurn claim _ _ _ _ => some claim
  | _ => none

/-- How a call may move the owner of a row, and what its answer says about it. -/
inductive Moves (call : Call) (answer : Except Failure Answer) (id : String)
    (old new : Delivery) : Prop
  | stays (hown : new.owner = old.owner) (htok : new.claimToken = old.claimToken)
      (hgen : new.generation = old.generation)
  | received (hfree : old.IsFree) (hnew : new.owner = .receiverAvailable) {page : AgentMessagePage}
      (hans : answer = .ok (.page page))
      (hpage : ∃ message ∈ page.messages, message.interactionId = id)
  | claimed (hfree : old.IsFree) (hnew : new.owner = .dispatching) {claim : TaskClaim}
      (hans : answer = .ok (.claim (some claim))) (hid : claim.record.id = id)
      (hheld : new.heldBy claim.token claim.generation = true)
  | released {claim : TaskClaim} (hcall : call = .releaseBeforeWrite claim)
      (hans : answer = .ok .done) (hid : claim.record.id = id)
      (hheld : old.heldBy claim.token claim.generation = true) (hfree : new.IsFree)
  | ended {claim : TaskClaim} (hcall : call.ending = some claim) (hid : claim.record.id = id)
      (hheld : old.heldBy claim.token claim.generation = true)
      (hnew : new.owner.isSchedulerResult = true)
  | blocked (hstrd : old.owner = .stored)
      (hnew : new.owner = .blockedStaleOrigin ∨ new.owner = .blockedLegacyUncertain)

/-- A row of a call: it moves, and it is still the same message. -/
structure RowMoves (call : Call) (answer : Except Failure Answer) (id : String)
    (old new : Delivery) : Prop where
  recipient : new.recipient = old.recipient
  operation : new.operation = old.operation
  moves : Moves call answer id old new

theorem RowMoves.refl (call : Call) (answer : Except Failure Answer) (id : String)
    (delivery : Delivery) : RowMoves call answer id delivery delivery :=
  ⟨rfl, rfl, .stays rfl rfl rfl⟩

variable {delivery : Delivery}

/-- Who holds a row. -/
theorem heldBy_iff {token : String} {generation : Nat} :
    delivery.heldBy token generation = true ↔ delivery.claimToken = some token ∧
      delivery.generation = generation ∧ delivery.owner = .dispatching := by
  unfold Delivery.heldBy
  exact decide_eq_true_iff

/-! ### Sound tables -/

/-- Every record stands under its own key. -/
def Keyed (records : Table InteractionRecord) : Prop :=
  ∀ (id : String) (record : InteractionRecord), records[id]? = some record → record.id = id

/-- Records stand under their own keys, every message with a delivery row has one place, which is in
the stream of its recipient, and the places are in order. -/
structure Store.Sound (store : Store) : Prop where
  keyed : Keyed store.interactions
  placed : ∀ (id : String) (delivery : Delivery), store.deliveries[id]? = some delivery →
    ∃ row ∈ store.availability, row.interactionId = id ∧ row.recipient = delivery.recipient
  distinct : (store.availability.map Availability.interactionId).Nodup
  available : ∀ row ∈ store.availability, ∃ delivery,
    store.deliveries[row.interactionId]? = some delivery ∧ delivery.recipient = row.recipient
  known : ∀ row ∈ store.availability, (store.interactions[row.interactionId]?).isSome
  ordered : store.availability.Pairwise fun row row' => row.sequence < row'.sequence
  positive : ∀ row ∈ store.availability, 0 < row.sequence
  bounded : ∀ row ∈ store.availability, row.sequence ≤ store.lastSequence

theorem Store.sound_empty : Store.empty.Sound where
  keyed := fun id record h => by
    rw [show Store.empty.interactions = ∅ from rfl, lookup_empty] at h
    cases h
  placed := fun id delivery h => by
    rw [show Store.empty.deliveries = ∅ from rfl, lookup_empty] at h
    cases h
  distinct := .nil
  available := fun row h => by cases h
  known := fun row h => by cases h
  ordered := .nil
  positive := fun row h => by cases h
  bounded := fun row h => by cases h

/-! ### Every effect moves every row -/

section

variable {sha256 : String → String} {env : Env} {store store' store'' : Store} {call : Call}
  {answer : Except Failure Answer}

/-- Every row is still there, as it was. -/
abbrev RowsKept (store store' : Store) : Prop :=
  RowsStep (fun _ delivery delivery' => delivery' = delivery) store store'

/-- Rows that stay are moved by no call. -/
theorem RowsKept.moves (h : RowsKept store store') : RowsStep (RowMoves call answer) store store' := by
  intro id delivery hdel
  obtain ⟨_, hdel', rfl⟩ := h id delivery hdel
  exact ⟨_, hdel', .refl call answer id _⟩

theorem AdmittedNew.rows {request : Admission} {host : Option HostAutomationProvenance}
    (h : AdmittedNew env request host store store') : RowsKept store store' := by
  obtain ⟨delivery, -, -, -, -, -, -, -, hdels⟩ := h.deliveries
  exact .of_new (fun _ _ => rfl) h.fresh hdels

theorem RepliedNew.rows {sender requestId message : String} {status : ReplyStatus} {task : InteractionRecord}
    {delivery : Delivery} (h : RepliedNew env sender requestId status message store store' task delivery) :
    RowsKept store store' := by
  have hdels := h.deliveries
  cases hsndr : task.senderSessionId with
  | none =>
    rw [hsndr] at hdels
    exact .of_eq (fun _ _ => rfl) hdels
  | some recipient =>
    rw [hsndr] at hdels
    exact .of_new (fun _ _ => rfl) (h.fresh (by rw [hsndr]; rfl)) hdels

theorem Publishes.rows {binding : TaskTurnBinding} {replied : Option Replied}
    (h : Publishes env binding replied store store') : RowsKept store store' := by
  cases h with
  | reply _ _ _ _ hrepd => exact hrepd.rows
  | mark hbnd hrecd hansd | same => exact .of_eq (fun _ _ => rfl) rfl

theorem Recovers.rows {bindings : List TaskTurnBinding}
    (h : Recovers env bindings store store') : RowsKept store store' := by
  induction h with
  | stop env bindings store => exact .of_eq (fun _ _ => rfl) rfl
  | step hpub hrest ih =>
    exact RowsStep.trans (fun _ a b c hab hbc => hbc.trans hab) hpub.rows ih

/-- Ending a claim moves the row of the call. -/
theorem ClaimClosed.rows {claim : Option TaskClaim} (hcall : claim = call.ending)
    (h : ClaimClosed claim store store') : RowsStep (RowMoves call answer) store store' := by
  unfold ClaimClosed at h
  cases claim with
  | none =>
    subst h
    exact .of_eq (.refl call answer) rfl
  | some claim =>
    obtain ⟨delivery, hdel, hheld, rfl⟩ := h
    exact .of_row (.refl call answer) hdel ⟨rfl, rfl, .ended hcall.symm rfl hheld rfl⟩

/-- Reading a page gives rows to the receiver, which gets their messages. -/
theorem Received.rows {recipient : String} {cursor ackCursor : Option String} {limit : Nat}
    {page : AgentMessagePage} {ack after : Nat} {read : List Availability} {scan : PageScan}
    (h : Received env recipient cursor ackCursor limit page store store' ack after read scan) :
    RowsStep (RowMoves call (.ok (.page page))) store store' := by
  intro id delivery hdel
  rcases h.reads.row id with hsame | ⟨⟨row, hrow, rfl⟩, found, token, hfnd, hfree, hnew⟩
  · exact ⟨delivery, hsame.trans hdel, .refl _ _ _ _⟩
  · rw [hdel] at hfnd
    obtain rfl := Option.some.inj hfnd
    refine ⟨delivery.received token, hnew, rfl, rfl, .received hfree rfl rfl ?_⟩
    obtain ⟨message, hmem, hmsg⟩ := h.reads.message_of_row hrow
    rw [h.messages]
    exact ⟨message, hmem, messageOf_interactionId hmsg⟩

/-- Every effect moves every row as its call and its answer say. -/
theorem Effect.rows (hsnd : store.Sound) (h : Effect sha256 env call answer store store') :
    RowsStep (RowMoves call answer) store store' := by
  have hsame : ∀ {store₁ : Store}, store₁.deliveries = store.deliveries →
      RowsStep (RowMoves call answer) store store₁ := fun heq => .of_eq (.refl call answer) heq
  cases h with
  | failed e | admittedBefore hcall admitted | repliedBefore hcall hrepd | unclaimed
  | unchanged => exact hsame rfl
  | admitted hcall hrec hadm => exact hadm.rows.moves
  | @replied call r replied store store₁ store'' task delivery hcall hval hrepd hclsd =>
    have hending : r.claim = call.ending := by
      cases call <;> simp only [Call.replying, reduceCtorEq] at hcall
      · obtain rfl := Option.some.inj hcall
        rfl
      · obtain ⟨sender, -, rfl⟩ := Option.map_eq_some_iff.1 hcall
        rfl
    intro id old hold
    obtain ⟨_, hold', rfl⟩ := hrepd.rows id old hold
    exact hclsd.rows hending id _ hold'
  | received hrcv => exact hrcv.rows
  | @claimed call recipient id generation delivery record store hcall hdel hfree _ hrec =>
    refine .of_row (.refl _ _) hdel ⟨rfl, rfl, .claimed hfree rfl rfl ?_ ?_⟩
    · exact hsnd.keyed id record hrec
    · exact heldBy_iff.2 ⟨rfl, rfl, rfl⟩
  | finished hdel hheld hres =>
    exact .of_row (.refl _ _) hdel ⟨rfl, rfl, .ended rfl rfl hheld hres⟩
  | @released claim delivery store hdel hheld =>
    refine .of_row (.refl _ _) hdel ⟨rfl, rfl, .released rfl rfl rfl hheld ?_⟩
    unfold Delivery.IsFree Delivery.released
    dsimp only
    split
    · exact .inr rfl
    · exact .inl rfl
  | staled hdel hstrd =>
    exact .of_row (.refl _ _) hdel ⟨rfl, rfl, .blocked hstrd (.inl rfl)⟩
  | @continued id state owner delivery store hdel hstrd hown =>
    refine .of_row (.refl _ _) hdel ⟨rfl, rfl, ?_⟩
    have hcs : owner = .stored ∨ owner = .blockedStaleOrigin ∨
        owner = .blockedLegacyUncertain := by
      cases state <;> simp_all [ContinuationState.owner]
    rcases hcs with rfl | hblkd
    · exact .stays hstrd.symm rfl rfl
    · exact .blocked hstrd hblkd
  | @bound claim provider session turn mode binding delivery task store htask hreq htok
      hunbd hdel hheld =>
      intro id old hold
      obtain ⟨new, hnew, hmvs⟩ := RowsStep.of_row (RowMoves.refl _ _) hdel
        (⟨rfl, rfl, .ended rfl rfl hheld rfl⟩ : RowMoves
          (.bindTaskTurn claim provider session turn mode) (.ok (.bound binding)) claim.record.id
          delivery (delivery.finished .providerAccepted)) id old hold
      exact ⟨new, hnew, hmvs⟩
  | recorded => exact hsame rfl
  | published hpub => exact hpub.rows.moves
  | marked => exact hsame rfl
  | recordedBefore => exact hsame rfl
  | markedBefore => exact hsame rfl
  | abandoned => exact hsame rfl
  | recovered _ hrcvs => exact hrcvs.rows.moves

/-! ### Sound tables stay sound -/

variable {records : Table InteractionRecord}

theorem Keyed.insert (h : Keyed records)
    (record : InteractionRecord) : Keyed (records.insert record.id record) := by
  intro id found hfnd
  rw [lookup_insert] at hfnd
  split at hfnd
  · rename_i hid
    obtain rfl := Option.some.inj hfnd
    exact hid
  · exact h id found hfnd

theorem isSome_insert {record : InteractionRecord} {key id : String} (h : key = id ∨ (records[id]?).isSome) :
    ((records.insert key record)[id]?).isSome := by
  rw [lookup_insert]
  split
  · rfl
  · rcases h with heq | hsome
    · exact absurd heq ‹_›
    · exact hsome

/-- The recipients of the rows are as they were. -/
abbrev RecipientsKept (store store' : Store) : Prop :=
  RowsStep (fun _ old new => new.recipient = old.recipient) store store'

variable {store : Store}

theorem RowsKept.recipients {store' : Store} (h : RowsKept store store') : RecipientsKept store store' := by
  intro id delivery hdel
  obtain ⟨_, hdel', rfl⟩ := h id delivery hdel
  exact ⟨_, hdel', rfl⟩

/-- No row is new. -/
def NoNewRows (store store' : Store) : Prop :=
  ∀ id : String, store.deliveries[id]? = none → store'.deliveries[id]? = none

theorem NoNewRows.of_eq {store' : Store} (h : store'.deliveries = store.deliveries) :
    NoNewRows store store' := fun _ hnone => by rw [h, hnone]

theorem NoNewRows.of_row {id : String} {delivery' : Delivery} (hrow : store.deliveries[id]? = some delivery) :
    NoNewRows store (store.withDelivery id delivery') := by
  intro other hnone
  have hid : id ≠ other := by
    rintro rfl
    rw [hrow] at hnone
    cases hnone
  rw [Store.withDelivery, lookup_insert, if_neg hid, hnone]

/-- The streams are as they were, or one of them has a new last message, which is free. -/
inductive Streams (store store' : Store) : Prop
  | same (havl : store'.availability = store.availability)
      (hlast : store'.lastSequence = store.lastSequence) (hrows : NoNewRows store store')
  | new {id : String} {delivery : Delivery}
      (havl : store'.availability =
        store.availability ++ [⟨store.lastSequence + 1, delivery.recipient, id⟩])
      (hlast : store'.lastSequence = store.lastSequence + 1)
      (hfrs : store.deliveries[id]? = none)
      (hdels : store'.deliveries = store.deliveries.insert id delivery)
      (hfree : delivery.IsFree) (huncl : delivery.claimToken = none)
      (hkn : (store'.interactions[id]?).isSome)

/-- A message has one place. -/
theorem Store.Sound.filter_eq_singleton (h : store.Sound) {id : String} {row : Availability}
    (hrow : row ∈ store.availability) (hid : row.interactionId = id) :
    store.availability.filter (fun row => row.interactionId = id) = [row] := by
  have hdist := h.distinct
  generalize store.availability = rows at hrow hdist
  induction rows with
  | nil => cases hrow
  | cons head rows ih =>
    rw [map_cons, nodup_cons] at hdist
    have hnone : ∀ later ∈ rows, later.interactionId ≠ head.interactionId := by
      intro later hltr heq
      exact hdist.1 (mem_map.2 ⟨later, hltr, heq⟩)
    rcases mem_cons.1 hrow with rfl | hltr
    · rw [filter_cons_of_pos (by simpa using hid), filter_eq_nil_iff.2]
      intro later hltr hsame
      exact hnone later hltr ((of_decide_eq_true hsame).trans hid.symm)
    · rw [filter_cons_of_neg, ih hltr hdist.2]
      intro hsame
      exact hnone row hltr (hid.trans (of_decide_eq_true hsame).symm)

/-- Sound tables stay sound when places are added at the end. -/
theorem Store.Sound.of_streams (h : store.Sound) (hkd : Keyed store'.interactions)
    (hkn : ∀ id : String, (store.interactions[id]?).isSome → (store'.interactions[id]?).isSome)
    (hrows : RecipientsKept store store') (hstrms : Streams store store') : store'.Sound := by
  have havai : ∀ row ∈ store.availability, ∃ delivery,
      store'.deliveries[row.interactionId]? = some delivery ∧
        delivery.recipient = row.recipient := by
    intro row hrow
    obtain ⟨delivery, hdel, hrcp⟩ := h.available row hrow
    obtain ⟨delivery', hdel', hsame⟩ := hrows _ delivery hdel
    exact ⟨delivery', hdel', hsame.trans hrcp⟩
  have hplcd : ∀ (id : String) (delivery delivery' : Delivery),
      store.deliveries[id]? = some delivery → store'.deliveries[id]? = some delivery' →
      ∃ row ∈ store.availability, row.interactionId = id ∧
        row.recipient = delivery'.recipient := by
    intro id delivery delivery' hdel hdel'
    obtain ⟨found, hfnd, hsame⟩ := hrows id delivery hdel
    rw [hdel'] at hfnd
    obtain rfl := Option.some.inj hfnd
    obtain ⟨row, hrow, hid, hrcp⟩ := h.placed id delivery hdel
    exact ⟨row, hrow, hid, hrcp.trans hsame.symm⟩
  cases hstrms with
  | same havl hlast habsent =>
    refine ⟨hkd, ?_, ?_, ?_, ?_, ?_, ?_, ?_⟩ <;> rw [havl]
    · intro id delivery' hdel'
      cases hold : store.deliveries[id]? with
      | none =>
        rw [habsent id hold] at hdel'
        cases hdel'
      | some delivery => exact hplcd id delivery delivery' hold hdel'
    · exact h.distinct
    · exact havai
    · exact fun row hrow => hkn _ (h.known row hrow)
    · exact h.ordered
    · exact h.positive
    · rw [hlast]
      exact h.bounded
  | @new id delivery havl hlast hfrs hdels hfree huncl hnew =>
    have hlook : store'.deliveries[id]? = some delivery := by
      rw [hdels, lookup_insert, if_pos rfl]
    refine ⟨hkd, ?_, ?_, ?_, ?_, ?_, ?_, ?_⟩ <;> rw [havl]
    · intro other delivery' hdel'
      by_cases hid : id = other
      · subst hid
        rw [hlook] at hdel'
        obtain rfl := Option.some.inj hdel'
        exact ⟨_, mem_append_right _ (mem_singleton_self _), rfl, rfl⟩
      · have hold := hdel'
        rw [hdels, lookup_insert, if_neg hid] at hold
        obtain ⟨row, hrow, hboth⟩ := hplcd other delivery' delivery' hold hdel'
        exact ⟨row, mem_append_left _ hrow, hboth⟩
    · rw [map_append]
      refine Nodup.append h.distinct (nodup_singleton _) ?_
      intro other hold hoth
      obtain ⟨row, hrow, rfl⟩ := mem_map.1 hold
      obtain ⟨found, hfnd, -⟩ := h.available row hrow
      rw [mem_singleton.1 hoth, hfrs] at hfnd
      cases hfnd
    · intro row hrow
      rcases mem_append.1 hrow with hold | hlast
      · exact havai row hold
      · rw [mem_singleton.1 hlast]
        exact ⟨delivery, hlook, rfl⟩
    · intro row hrow
      rcases mem_append.1 hrow with hold | hlast
      · exact hkn _ (h.known row hold)
      · rw [mem_singleton.1 hlast]
        exact hnew
    · refine pairwise_append.2 ⟨h.ordered, pairwise_singleton _ _, ?_⟩
      intro row hrow new hnew
      rw [mem_singleton.1 hnew]
      exact Nat.lt_succ_of_le (h.bounded row hrow)
    · intro row hrow
      rcases mem_append.1 hrow with hold | hlast
      · exact h.positive row hold
      · rw [mem_singleton.1 hlast]
        exact Nat.succ_pos _
    · intro row hrow
      rw [hlast]
      rcases mem_append.1 hrow with hold | hlast
      · exact Nat.le_succ_of_le (h.bounded row hold)
      · rw [mem_singleton.1 hlast]

/-- They stay sound when no row and no place is new. -/
theorem Store.Sound.of_rows (h : store.Sound) (hints : store'.interactions = store.interactions)
    (hrows : RecipientsKept store store') (habsent : NoNewRows store store')
    (havl : store'.availability = store.availability)
    (hlast : store'.lastSequence = store.lastSequence) : store'.Sound :=
  h.of_streams (by rw [hints]; exact h.keyed)
    (fun _ hsome => by rw [hints]; exact hsome) hrows (.same havl hlast habsent)

variable {request : Admission} {host : Option HostAutomationProvenance}

theorem AdmittedNew.streams (h : AdmittedNew env request host store store') : Streams store store' := by
  obtain ⟨delivery, -, -, hrcp, -, hown, huncl, -, hdels⟩ := h.deliveries
  refine .new ?_ h.lastSequence h.fresh hdels ?_ huncl ?_
  · rw [hrcp]
    exact h.availability
  · unfold Delivery.IsFree
    rw [hown]
    split
    · exact .inr rfl
    · exact .inl rfl
  · rw [h.interactions]
    exact isSome_insert (.inl rfl)

variable {status : ReplyStatus} {task : InteractionRecord} {delivery : Delivery}

theorem RepliedNew.streams {sender requestId message : String}
    (h : RepliedNew env sender requestId status message store store' task delivery) :
    Streams store store' := by
  have hdels := h.deliveries
  have havl := h.availability
  have hlast := h.lastSequence
  cases hsndr : task.senderSessionId with
  | none =>
    rw [hsndr] at hdels havl hlast
    exact .same havl hlast (.of_eq hdels)
  | some recipient =>
    rw [hsndr] at hdels havl hlast
    refine .new havl hlast (h.fresh (by rw [hsndr]; rfl)) hdels (.inl rfl) rfl ?_
    rw [h.interactions]
    exact isSome_insert (.inl rfl)

/-- An admission keeps the tables sound. -/
theorem AdmittedNew.sound
    (hsnd : store.Sound) (h : AdmittedNew env request host store store') : store'.Sound := by
  refine hsnd.of_streams ?_ (fun id hsome => ?_) h.rows.recipients h.streams
  · rw [h.interactions]
    exact Keyed.insert hsnd.keyed _
  · rw [h.interactions]
    exact isSome_insert (.inr hsome)

/-- A reply keeps the tables sound. -/
theorem RepliedNew.sound {sender requestId message : String} (hsnd : store.Sound)
    (h : RepliedNew env sender requestId status message store store' task delivery) : store'.Sound := by
  refine hsnd.of_streams ?_ (fun id hsome => ?_) h.rows.recipients h.streams
  · rw [h.interactions]
    have hcompd := Keyed.insert hsnd.keyed { task with
      status := .completed, updatedAt := env.now, completedAt := some env.now }
    exact hcompd.insert (replyRecord env sender requestId message task.senderSessionId)
  · rw [h.interactions]
    exact isSome_insert (.inr (isSome_insert (.inr hsome)))

theorem Publishes.sound {binding : TaskTurnBinding} {replied : Option Replied}
    (hsnd : store.Sound) (h : Publishes env binding replied store store') : store'.Sound := by
  cases h with
  | @reply store store' turn status body replied task delivery hbnd hrecd hterm hval hrepd =>
    exact (hrepd.sound hsnd).of_rows rfl (.of_eq (fun _ _ => rfl) rfl) (.of_eq rfl) rfl rfl
  | mark hbnd hrecd hansd =>
    exact hsnd.of_rows rfl (.of_eq (fun _ _ => rfl) rfl) (.of_eq rfl) rfl rfl
  | same => exact hsnd

theorem Recovers.sound {bindings : List TaskTurnBinding} (hsnd : store.Sound)
    (h : Recovers env bindings store store') : store'.Sound := by
  induction h with
  | stop => exact hsnd
  | step hpub hrest ih => exact ih (hpub.sound hsnd)

variable {claim : Option TaskClaim}

/-- Ending a claim changes delivery rows only. -/
theorem ClaimClosed.frame (h : ClaimClosed claim store store') :
    store' = { store with deliveries := store'.deliveries } := by
  unfold ClaimClosed at h
  cases claim with
  | none => rw [h]
  | some claim =>
    obtain ⟨delivery, -, -, rfl⟩ := h
    rfl

theorem ClaimClosed.rowsStep {P : String → Delivery → Delivery → Prop}
    (h : ClaimClosed claim store store') (hrefl : ∀ id delivery, P id delivery delivery)
    (hfind : ∀ id delivery, P id delivery (delivery.finished .failedBeforeSubmit)) :
    RowsStep P store store' := by
  unfold ClaimClosed at h
  cases claim with
  | none =>
    subst h
    exact .of_eq hrefl rfl
  | some claim =>
    obtain ⟨delivery, hdel, -, rfl⟩ := h
    exact .of_row hrefl hdel (hfind _ _)

theorem ClaimClosed.noNewRows (h : ClaimClosed claim store store') : NoNewRows store store' := by
  unfold ClaimClosed at h
  cases claim with
  | none =>
    subst h
    exact .of_eq rfl
  | some claim =>
    obtain ⟨delivery, hdel, -, rfl⟩ := h
    exact .of_row hdel

theorem Received.noNewRows {recipient : String} {cursor ackCursor : Option String} {limit : Nat}
    {page : AgentMessagePage} {ack after : Nat} {read : List Availability} {scan : PageScan}
    (h : Received env recipient cursor ackCursor limit page store store' ack after read scan) :
    NoNewRows store store' := by
  intro id hnone
  rcases h.reads.row id with hsame | ⟨-, found, token, hfnd, -⟩
  · exact hsame.trans hnone
  · rw [hnone] at hfnd
    cases hfnd

/-- **Every call keeps the tables sound.** -/
theorem Store.Sound.step (hsnd : store.Sound)
    (h : Effect sha256 env call answer store store') : store'.Sound := by
  have hrcps : RecipientsKept store store' := by
    intro id delivery hdel
    obtain ⟨delivery', hdel', hmvs⟩ := h.rows hsnd id delivery hdel
    exact ⟨delivery', hdel', hmvs.recipient⟩
  cases h with
  | failed e | admittedBefore hcall admitted | repliedBefore hcall hrepd => exact hsnd
  | admitted hcall hrec hadm => exact hadm.sound hsnd
  | @replied call r replied store store₁ store'' task delivery hcall hval hrepd hclsd =>
    have hfrm := hclsd.frame
    refine (hrepd.sound hsnd).of_rows ?_
      (hclsd.rowsStep (fun _ _ => rfl) fun _ _ => rfl) hclsd.noNewRows ?_ ?_ <;> rw [hfrm]
  | received hrcv =>
    have hfrm := hrcv.frame
    refine hsnd.of_rows ?_ hrcps hrcv.noNewRows ?_ ?_ <;> rw [hfrm]
  | claimed hcall hdel | finished hdel | released hdel | staled hdel
  | continued hdel => exact hsnd.of_rows rfl hrcps (.of_row hdel) rfl rfl
  | unclaimed => exact hsnd
  | unchanged => exact hsnd
  | bound htask hreq htok hunbd hdel =>
    refine hsnd.of_rows rfl hrcps (fun id hnone => ?_) rfl rfl
    exact NoNewRows.of_row hdel id hnone
  | recorded => exact hsnd.of_rows rfl hrcps (.of_eq rfl) rfl rfl
  | published hpub => exact hpub.sound hsnd
  | marked => exact hsnd.of_rows rfl hrcps (.of_eq rfl) rfl rfl
  | recordedBefore => exact hsnd
  | markedBefore => exact hsnd
  | abandoned => exact hsnd.of_rows rfl hrcps (.of_eq rfl) rfl rfl
  | recovered _ hrcvs => exact hrcvs.sound hsnd

variable {events : List Event}

/-- The tables are sound in every history. -/
theorem History.sound (h : History sha256 store events store') (hsnd : store.Sound) : store'.Sound :=
  h.inv (fun _ _ heff hbef => hbef.step heff) hsnd

/-- Every call of a history begins with sound tables. -/
theorem History.served_of_mem (h : History sha256 store events store') (hsnd : store.Sound) {event : Event}
    (hevent : event ∈ events) : event.Served sha256 ∧ event.before.Sound := by
  induction h with
  | nil => cases hevent
  | cons hsrv hrest ih =>
    rcases mem_cons.1 hevent with rfl | hltr
    · exact ⟨hsrv, hsnd⟩
    · exact ih (hsnd.step hsrv.effect) hltr

/-! ### New rows -/

section

variable {sha256 : String → String} {env : Env} {store store' : Store} {call : Call}
  {answer : Except Failure Answer}

/-- A row that is new is free. -/
def NewRowsFree (store store' : Store) : Prop :=
  ∀ (id : String) (delivery : Delivery), store.deliveries[id]? = none →
    store'.deliveries[id]? = some delivery → delivery.IsFree

theorem NoNewRows.free (h : NoNewRows store store') : NewRowsFree store store' := by
  intro id delivery hnone hdel
  rw [h id hnone] at hdel
  cases hdel

theorem Streams.free (h : Streams store store') : NewRowsFree store store' := by
  cases h with
  | same _ _ hrows => exact hrows.free
  | @new id delivery _ _ _ hdels hfree =>
    intro other found hnone hfnd
    rw [hdels, lookup_insert] at hfnd
    split at hfnd
    · obtain rfl := Option.some.inj hfnd
      exact hfree
    · rw [hnone] at hfnd
      cases hfnd

theorem Publishes.free {binding : TaskTurnBinding} {replied : Option Replied}
    (h : Publishes env binding replied store store') : NewRowsFree store store' := by
  cases h with
  | reply _ _ _ _ hrepd => exact hrepd.streams.free
  | mark | same => exact (NoNewRows.of_eq rfl).free

theorem Recovers.free {bindings : List TaskTurnBinding}
    (h : Recovers env bindings store store') : NewRowsFree store store' := by
  induction h with
  | stop => exact (NoNewRows.of_eq rfl).free
  | @step env binding bindings replied store middle store' hpub hrest ih =>
    intro id delivery hnone hdel
    cases hmid : middle.deliveries[id]? with
    | none => exact ih id delivery hmid hdel
    | some found =>
      obtain ⟨_, hkept, rfl⟩ := hrest.rows id found hmid
      rw [hdel] at hkept
      obtain rfl := Option.some.inj hkept
      exact hpub.free id delivery hnone hmid

/-- Ending a claim leaves a free row alone. -/
theorem ClaimClosed.free_kept {claim : Option TaskClaim} (h : ClaimClosed claim store store')
    {id : String} {delivery delivery' : Delivery} (hdel : store.deliveries[id]? = some delivery)
    (hfree : delivery.IsFree) (hdel' : store'.deliveries[id]? = some delivery') :
    delivery' = delivery := by
  unfold ClaimClosed at h
  cases claim with
  | none =>
    rw [h, hdel] at hdel'
    exact (Option.some.inj hdel').symm
  | some claim =>
    obtain ⟨held, hrow, hheld, rfl⟩ := h
    rw [Store.withDelivery, lookup_insert] at hdel'
    split at hdel'
    · rename_i hid
      rw [hid, hdel] at hrow
      obtain rfl := Option.some.inj hrow
      have hown := (heldBy_iff.1 hheld).2.2
      rcases hfree with hfree | hfree <;> rw [hown] at hfree <;> cases hfree
    · rw [hdel] at hdel'
      exact (Option.some.inj hdel').symm

/-- **A row is free when it is new.** -/
theorem Effect.new_rows_free (h : Effect sha256 env call answer store store') : NewRowsFree store store' := by
  have hsame : NewRowsFree store store := (NoNewRows.of_eq rfl).free
  cases h with
  | failed e | admittedBefore hcall admitted | repliedBefore hcall hrepd => exact hsame
  | admitted hcall hrec hadm => exact hadm.streams.free
  | @replied call r replied store store₁ store'' task delivery hcall hval hrepd hclsd =>
    intro id found hnone hfnd
    cases hmid : store₁.deliveries[id]? with
    | none =>
      rw [hclsd.noNewRows id hmid] at hfnd
      cases hfnd
    | some middle =>
      have hfree := hrepd.streams.free id middle hnone hmid
      rw [hclsd.free_kept hmid hfree hfnd]
      exact hfree
  | received hrcv => exact hrcv.noNewRows.free
  | claimed hcall hdel | finished hdel | released hdel | staled hdel
  | continued hdel => exact (NoNewRows.of_row hdel).free
  | unclaimed => exact hsame
  | unchanged => exact hsame
  | bound htask hreq htok hunbd hdel =>
    exact NoNewRows.free fun id hnone => NoNewRows.of_row hdel id hnone
  | recorded => exact (NoNewRows.of_eq rfl).free
  | published hpub => exact hpub.free
  | marked => exact (NoNewRows.of_eq rfl).free
  | recordedBefore => exact hsame
  | markedBefore => exact hsame
  | abandoned => exact (NoNewRows.of_eq rfl).free
  | recovered _ hrcvs => exact hrcvs.free

end

/-! ### The streams grow -/

/-- The streams have new messages behind the old ones. -/
def StreamsGrow (store store' : Store) : Prop :=
  store.lastSequence ≤ store'.lastSequence ∧ ∃ new, store'.availability = store.availability ++ new ∧
    ∀ row ∈ new, store.lastSequence < row.sequence

theorem StreamsGrow.of_eq (havl : store'.availability = store.availability)
    (hlast : store'.lastSequence = store.lastSequence) : StreamsGrow store store' :=
  ⟨hlast.ge, [], by rw [havl, append_nil], fun row hrow => by cases hrow⟩

theorem Streams.grow (h : Streams store store') : StreamsGrow store store' := by
  cases h with
  | same havl hlast _ => exact .of_eq havl hlast
  | new havl hlast =>
    refine ⟨by omega, _, havl, fun row hrow => ?_⟩
    rw [mem_singleton.1 hrow]
    exact Nat.lt_succ_self _

/-- Growth composes. -/
theorem StreamsGrow.trans (h : StreamsGrow store store') (h' : StreamsGrow store' store'') :
    StreamsGrow store store'' := by
  obtain ⟨hle, new, heq, hnew⟩ := h
  obtain ⟨hle', new', heq', hnew'⟩ := h'
  refine ⟨hle.trans hle', new ++ new', by rw [heq', heq, append_assoc], fun row hrow => ?_⟩
  rcases mem_append.1 hrow with hold | hltr
  · exact hnew row hold
  · exact Nat.lt_of_le_of_lt hle (hnew' row hltr)

theorem Publishes.grow {binding : TaskTurnBinding} {replied : Option Replied}
    (h : Publishes env binding replied store store') : StreamsGrow store store' := by
  cases h with
  | reply _ _ _ _ hrepd => exact hrepd.streams.grow
  | mark | same => exact .of_eq rfl rfl

theorem Recovers.grow {bindings : List TaskTurnBinding}
    (h : Recovers env bindings store store') : StreamsGrow store store' := by
  induction h with
  | stop => exact .of_eq rfl rfl
  | step hpub hrest ih => exact hpub.grow.trans ih

/-- **The streams only grow.** -/
theorem Effect.grow (h : Effect sha256 env call answer store store') : StreamsGrow store store' := by
  cases h with
  | admitted hcall hrec hadm => exact hadm.streams.grow
  | replied hcall hval hrepd hclsd =>
    refine hrepd.streams.grow.trans (.of_eq ?_ ?_) <;> rw [hclsd.frame]
  | received hrcv => exact .of_eq (by rw [hrcv.frame]) (by rw [hrcv.frame])
  | published hpub => exact hpub.grow
  | recovered _ hrcvs => exact hrcvs.grow
  | _ => exact .of_eq rfl rfl

end

end Wardian.Messaging
