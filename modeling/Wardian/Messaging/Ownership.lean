/-
Who owns a message.

A message is free until the receiver reads it or the scheduler claims it.  What the receiver has read
stays its own; what the scheduler has claimed comes back only by a release of that very claim, before
anything was written to the provider.

Main results:

* `Messaging.final_stays`, `Messaging.held_until_released` — a final owner stays, and so does a claim
  that nobody releases;
* `Messaging.exclusive_ownership` — no message is read and also claimed, unless that claim was
  released, and what a claim has ended with is never claimed or released again.
-/

import Wardian.Messaging.Rows

set_option autoImplicit false

namespace Wardian.Messaging

/-! ### What an event says about a message -/

/-- A page was returned that has the message. -/
def Event.Reads (event : Event) (id : String) : Prop :=
  ∃ page, event.answer = .ok (.page page) ∧
    ∃ message ∈ page.messages, message.interactionId = id

/-- The claim was handed out. -/
def Event.Claims (event : Event) (claim : TaskClaim) : Prop :=
  event.answer = .ok (.claim (some claim))

/-- A claim of the same message, token and generation was released. -/
def Event.Releases (event : Event) (claim : TaskClaim) : Prop :=
  event.answer = .ok .done ∧ ∃ given, event.call = .releaseBeforeWrite given ∧
    given.record.id = claim.record.id ∧ given.token = claim.token ∧
    given.generation = claim.generation

/-- The claim of the message has ended with what became of it. -/
def Event.Ends (event : Event) (id : String) : Prop :=
  ∃ old new : Delivery, event.before.deliveries[id]? = some old ∧
    event.after.deliveries[id]? = some new ∧ old.owner = .dispatching ∧
    new.owner.isSchedulerResult = true

/-- An owner that is never left. -/
def Owner.isFinal : Owner → Bool
  | .pending | .stored | .dispatching => false
  | _ => true

theorem isFinal_of_isSchedulerResult {owner : Owner} (h : owner.isSchedulerResult = true) :
    owner.isFinal = true := by
  cases owner <;> first | rfl | cases h

section

variable {sha256 : String → String} {event : Event} {id : String} {claim : TaskClaim}
  {store store' : Store} {events : List Event}

theorem Event.Served.claims (hsrv : event.Served sha256) (hsnd : event.before.Sound)
    (h : event.Claims claim) :
    (∃ old, event.before.deliveries[claim.record.id]? = some old ∧ old.IsFree) ∧
      ∃ new, event.after.deliveries[claim.record.id]? = some new ∧
        new.heldBy claim.token claim.generation = true := by
  have heff := hsrv.effect
  unfold Event.Claims at h
  rw [h] at heff
  generalize event.call = call, event.before = store, event.after = store'
    at heff hsnd ⊢
  cases heff with
  | @claimed call recipient id generation delivery record store hcall hdel hfree hrcp
      hrec =>
      obtain rfl := hsnd.keyed id record hrec
      refine ⟨⟨delivery, hdel, hfree⟩,
        delivery.claimed (newId "claim" (event.env.uuid 0)) generation, ?_,
        heldBy_iff.2 ⟨rfl, rfl, rfl⟩⟩
      rw [Store.withDelivery, Table.lookup_insert, if_pos rfl]
  | recovered hans => simp at hans

/-- A message that is read belongs to the receiver from then on, and nobody had claimed it. -/
theorem Event.Served.reads (hsrv : event.Served sha256) (hsnd : event.before.Sound)
    (h : event.Reads id) :
    (∃ old, event.before.deliveries[id]? = some old ∧
        (old.IsFree ∨ old.owner = .receiverAvailable)) ∧
      ∃ new, event.after.deliveries[id]? = some new ∧ new.owner = .receiverAvailable := by
  obtain ⟨page, hpage, message, hmsg, rfl⟩ := h
  have heff := hsrv.effect
  rw [hpage] at heff
  generalize event.call = call, event.before = store, event.after = store'
    at heff hsnd ⊢
  cases heff with
  | @received recipient cursor ackCursor limit page store store' ack after read scan hrcv =>
    obtain ⟨row, hrow, hbeh, hid⟩ := hrcv.row_of_message hmsg
    obtain ⟨hmem, -, -, hrdbl⟩ := mem_rowsAfter.1 hbeh
    obtain ⟨old, hold, -⟩ := hsnd.available row hmem
    obtain ⟨hown, hnew⟩ := hrcv.owned hrow hrdbl hold
    rw [hid]
    exact ⟨⟨old, hold, hown⟩, hnew⟩
  | recovered hans => simp at hans

theorem Event.Served.releases (hsrv : event.Served sha256) (h : event.Releases claim) :
    (∃ old, event.before.deliveries[claim.record.id]? = some old ∧
        old.heldBy claim.token claim.generation = true) := by
  obtain ⟨hans, given, hcall, hid, htok, hgen⟩ := h
  have heff := hsrv.effect
  rw [hans, hcall] at heff
  generalize event.before = store at heff ⊢
  generalize event.after = store' at heff ⊢
  cases heff with
  | @released _ delivery store hdel hheld =>
    rw [← hid, ← htok, ← hgen]
    exact ⟨delivery, hdel, hheld⟩

/-! ### What stays -/

variable {answer : Except Failure Answer} {new old : Delivery}

theorem Moves.final {call : Call} (h : Moves call answer id old new) (hfin : old.owner.isFinal = true) :
    new.owner = old.owner := by
  have hnot : ∀ owner, old.owner = owner → owner.isFinal = false → new.owner = old.owner := by
    intro owner hown hopen
    rw [hown, hopen] at hfin
    cases hfin
  cases h with
  | stays hown => exact hown
  | received hfree | claimed hfree => exact hfree.elim (hnot _ · rfl) (hnot _ · rfl)
  | released _ _ _ hheld | ended _ _ hheld => exact hnot _ (heldBy_iff.1 hheld).2.2 rfl
  | blocked hstrd => exact hnot _ hstrd rfl

/-- A call leaves a held row to its claim, ends the claim, or releases it. -/
theorem Moves.held {call : Call} (h : Moves call answer claim.record.id old new)
    (hheld : old.heldBy claim.token claim.generation = true) :
    new.heldBy claim.token claim.generation = true ∨ new.owner.isSchedulerResult = true ∨
      answer = .ok .done ∧ ∃ given, call = .releaseBeforeWrite given ∧
        given.record.id = claim.record.id ∧ given.token = claim.token ∧
        given.generation = claim.generation := by
  obtain ⟨htok, hgen, hown⟩ := heldBy_iff.1 hheld
  cases h with
  | stays hsame hsamet hsameg =>
    exact .inl (heldBy_iff.2 ⟨hsamet.trans htok, hsameg.trans hgen,
      hsame.trans hown⟩)
  | received hfree | claimed hfree =>
    rcases hfree with hfree | hfree <;> rw [hown] at hfree <;> cases hfree
  | @released given hcall hans hid hgvn =>
    obtain ⟨hgive, hgiveng, -⟩ := heldBy_iff.1 hgvn
    rw [htok] at hgive
    exact .inr (.inr ⟨hans, given, hcall, hid, (Option.some.inj hgive).symm,
      hgiveng.symm.trans hgen⟩)
  | ended _ _ _ hnew => exact .inr (.inl hnew)
  | blocked hstrd =>
    rw [hown] at hstrd
    cases hstrd

variable {delivery : Delivery}

/-- A final owner stays, and the message is neither claimed nor released any more. -/
theorem final_stays (h : History sha256 store events store') (hsnd : store.Sound)
    (hdel : store.deliveries[id]? = some delivery) (hfin : delivery.owner.isFinal = true) :
    (∃ new, store'.deliveries[id]? = some new ∧ new.owner = delivery.owner) ∧
      ∀ event ∈ events, (∃ old, event.before.deliveries[id]? = some old ∧
        old.owner = delivery.owner) ∧ ∀ claim : TaskClaim, claim.record.id = id →
          ¬ event.Claims claim ∧ ¬ event.Releases claim := by
  induction h generalizing delivery with
  | nil => exact ⟨⟨delivery, hdel, rfl⟩, fun event hevent => by cases hevent⟩
  | @cons event events store' hsrv hrest ih =>
    obtain ⟨new, hnew, hmvs⟩ := hsrv.effect.rows hsnd id delivery hdel
    have hown : new.owner = delivery.owner := hmvs.moves.final hfin
    obtain ⟨hlast, hevs⟩ := ih (hsnd.step hsrv.effect) hnew (by rw [hown]; exact hfin)
    rw [hown] at hlast hevs
    refine ⟨hlast, fun other hoth => ?_⟩
    rcases List.mem_cons.1 hoth with rfl | hltr
    · refine ⟨⟨delivery, hdel, rfl⟩, ?_⟩
      rintro claim rfl
      refine ⟨fun hclms => ?_, fun hrels => ?_⟩
      · obtain ⟨⟨old, hold, hfree⟩, -⟩ := hsrv.claims hsnd hclms
        rw [hdel] at hold
        obtain rfl := Option.some.inj hold
        rcases hfree with hfree | hfree <;> rw [hfree] at hfin <;> cases hfin
      · obtain ⟨old, hold, hheld⟩ := hsrv.releases hrels
        rw [hdel] at hold
        obtain rfl := Option.some.inj hold
        rw [(heldBy_iff.1 hheld).2.2] at hfin
        cases hfin
    · exact hevs other hltr

/-- A claim keeps its message, or ends, until it is released: the message is not read before. -/
theorem held_until_released (h : History sha256 store events store') (hsnd : store.Sound)
    (hdel : store.deliveries[claim.record.id]? = some delivery)
    (hheld : delivery.heldBy claim.token claim.generation = true ∨ delivery.owner.isSchedulerResult = true)
    (hkept : ∀ event ∈ events, ¬ event.Releases claim) :
    ∃ new, store'.deliveries[claim.record.id]? = some new ∧
      (new.heldBy claim.token claim.generation = true ∨ new.owner.isSchedulerResult = true) := by
  induction h generalizing delivery with
  | nil => exact ⟨delivery, hdel, hheld⟩
  | @cons event events store' hsrv hrest ih =>
    obtain ⟨new, hnew, hmvs⟩ := hsrv.effect.rows hsnd _ delivery hdel
    refine ih (hsnd.step hsrv.effect) hnew ?_ fun later hltr =>
      hkept later (List.mem_cons_of_mem _ hltr)
    rcases hheld with hheld | hres
    · rcases hmvs.moves.held hheld with hnewh | hnewr | hrels
      · exact .inl hnewh
      · exact .inr hnewr
      · exact absurd hrels (hkept event List.mem_cons_self)
    · rw [hmvs.moves.final (isFinal_of_isSchedulerResult hres)]
      exact .inr hres

/-! ### Exclusive ownership -/

/-- What one event does to the rows: every row moves along the lines, and a new one is free. -/
structure Event.MovesRows (event : Event) : Prop where
  rows : RowsStep (RowMoves event.call event.answer) event.before event.after
  final : ∀ (id : String) (old new : Delivery), event.before.deliveries[id]? = some old →
    event.after.deliveries[id]? = some new → old.owner.isFinal = true → new.owner = old.owner
  new : ∀ (id : String) (delivery : Delivery), event.before.deliveries[id]? = none →
    event.after.deliveries[id]? = some delivery → delivery.IsFree

/-- Two events of a history, one after the other, do not contradict each other about a message. -/
structure Exclusive (first second : Event) (between : List Event) : Prop where
  read_unclaimed : ∀ claim : TaskClaim, first.Reads claim.record.id → ¬ second.Claims claim
  claimed_unread : ∀ claim : TaskClaim, first.Claims claim → second.Reads claim.record.id →
    ∃ event ∈ between, event.Releases claim
  ended : ∀ claim : TaskClaim, first.Ends claim.record.id →
    ¬ second.Claims claim ∧ ¬ second.Releases claim

theorem Event.Served.movesRows (hsrv : event.Served sha256) (hsnd : event.before.Sound) :
    event.MovesRows where
  rows := hsrv.effect.rows hsnd
  final := fun id old new hold hnew hfin => by
    obtain ⟨found, hfnd, hmvs⟩ := hsrv.effect.rows hsnd id old hold
    rw [hnew] at hfnd
    obtain rfl := Option.some.inj hfnd
    exact hmvs.moves.final hfin
  new := hsrv.effect.new_rows_free

/-- Two events, and what lies between them, in tables that are sound at first. -/
theorem Event.Served.exclusive {first second : Event} {between : List Event} (hfst : first.Served sha256)
    (hsnd : first.before.Sound) (hbtw : History sha256 first.after between second.before)
    (hsec : second.Served sha256) : Exclusive first second between := by
  have haft : first.after.Sound := hsnd.step hfst.effect
  have hbef : second.before.Sound := hbtw.sound haft
  refine ⟨fun claim hrds hclms => ?_, fun claim hclms hrds => ?_, fun claim hends => ?_⟩
  · obtain ⟨-, new, hnew, hown⟩ := hfst.reads hsnd hrds
    obtain ⟨⟨last, hlast, hsame⟩, -⟩ := final_stays hbtw haft hnew (by rw [hown]; rfl)
    obtain ⟨⟨old, hold, hfree⟩, -⟩ := hsec.claims hbef hclms
    rw [hlast] at hold
    obtain rfl := Option.some.inj hold
    rw [Delivery.IsFree, hsame, hown] at hfree
    rcases hfree with hfree | hfree <;> cases hfree
  · obtain ⟨-, new, hnew, hheld⟩ := hfst.claims hsnd hclms
    by_contra hnone
    have hkept : ∀ event ∈ between, ¬ event.Releases claim := fun event hevent hrels =>
      hnone ⟨event, hevent, hrels⟩
    obtain ⟨last, hlast, hstl⟩ := held_until_released hbtw haft hnew (.inl hheld) hkept
    obtain ⟨⟨old, hold, hown⟩, -⟩ := hsec.reads hbef hrds
    rw [hlast] at hold
    obtain rfl := Option.some.inj hold
    rcases hstl with hstl | hres
    · rw [Delivery.IsFree, (heldBy_iff.1 hstl).2.2] at hown
      rcases hown with (h | h) | h <;> cases h
    · rw [Delivery.IsFree] at hown
      rcases hown with (h | h) | h <;> rw [h] at hres <;> cases hres
  · obtain ⟨old, new, -, hnew, -, hres⟩ := hends
    obtain ⟨⟨last, hlast, hown⟩, -⟩ :=
      final_stays hbtw haft hnew (isFinal_of_isSchedulerResult hres)
    refine ⟨fun hclms => ?_, fun hrels => ?_⟩
    · obtain ⟨⟨found, hfnd, hfree⟩, -⟩ := hsec.claims hbef hclms
      rw [hlast] at hfnd
      obtain rfl := Option.some.inj hfnd
      rw [← hown] at hres
      rcases hfree with hfree | hfree <;> rw [hfree] at hres <;> cases hres
    · obtain ⟨found, hfnd, hheld⟩ := hsec.releases hrels
      rw [hlast] at hfnd
      obtain rfl := Option.some.inj hfnd
      rw [← hown, (heldBy_iff.1 hheld).2.2] at hres
      cases hres

/-- Over every history each row moves along the lines, no message is read and also claimed unless
that very claim was released in between, and what a claim has ended with stays. -/
theorem exclusive_ownership (h : History sha256 Store.empty events store) :
    (∀ event ∈ events, event.MovesRows) ∧
      ∀ earlier first between second later,
        events = earlier ++ first :: between ++ second :: later →
        Exclusive first second between := by
  refine ⟨fun event hevent => ?_, ?_⟩
  · obtain ⟨hsrv, hsnd⟩ := h.served_of_mem Store.sound_empty hevent
    exact hsrv.movesRows hsnd
  · rintro earlier first between second later rfl
    rw [List.append_assoc, List.cons_append] at h
    obtain ⟨start, hearl, hrest⟩ := h.append
    have hsnd : start.Sound := hearl.sound Store.sound_empty
    cases hrest with
    | cons hfst hrest =>
      obtain ⟨middle, hbtw, hlast⟩ := hrest.append
      cases hlast with
      | cons hsec hltr => exact hfst.exclusive hsnd hbtw hsec

end

/-! ### A sample -/

/-- The environment of the `n`th call of a sample. -/
def sampleEnv (n : Nat) : Env where
  uuid i := "00000000000000000000000000000" ++ toString n ++ "0" ++ toString i
  now := "2026-01-01T00:00:00.000Z"

/-- The claim on the message that the first call of a sample has admitted, by the second call. -/
def sampleClaim (record : InteractionRecord) : TaskClaim :=
  ⟨record, newId "claim" ((sampleEnv 1).uuid 0), 1⟩

def sampleMessage (sender recipient message : String) : Admission :=
  ⟨sender, recipient, message, none, false, 0⟩

/-- A message is admitted, claimed, released and read. -/
def sampleCalls : List (Env × Call) :=
  [(sampleEnv 0, .admitRequest (sampleMessage "alice" "bob" "hello")),
    (sampleEnv 1, .claimInformation "bob" (newId "int" ((sampleEnv 0).uuid 0)) 1),
    (sampleEnv 2, .releaseBeforeWrite (sampleClaim
      (admissionRecord (sampleEnv 0) (sampleMessage "alice" "bob" "hello") none))),
    (sampleEnv 3, .receive "bob" none none 10)]

theorem exclusive_ownership_sampleCalls :
    (∀ event ∈ (serveAll id sampleCalls Store.empty).1, event.MovesRows) ∧
      ∀ earlier first between second later,
        (serveAll id sampleCalls Store.empty).1 =
          earlier ++ first :: between ++ second :: later →
        Exclusive first second between :=
  exclusive_ownership (history_serveAll sampleCalls Store.empty)

end Wardian.Messaging
