/-
Claims of the scheduler.

A claim hands one message to a provider.  It names the message, a token and the generation of the
runtime that made it, and the delivery row keeps the token and the generation as long as the claim is
open.  A claim ends in one of three ways: it is finished with what the provider did, it is released
because nothing was written to the provider, or the task it was made for is answered by a failure
notice.

Main results:

* `Messaging.wp_claimWhere`, `Messaging.wp_claimNextTask` — a claim takes a row that was free;
* `Messaging.wp_endClaim` — only the claim that holds a row can end.
-/

import Wardian.Messaging.Store

set_option autoImplicit false

namespace Wardian.Messaging

open Prog (Wp wp_bind wp_get wp_ite)

structure TaskClaim where
  record : InteractionRecord
  token : String
  generation : Nat
deriving DecidableEq

/-- The row is held by a claim of this token and generation. -/
def Delivery.heldBy (delivery : Delivery) (token : String) (generation : Nat) : Bool :=
  decide (delivery.claimToken = some token ∧ delivery.generation = generation ∧
    delivery.owner = .dispatching)

def Store.withDelivery (store : Store) (id : String) (delivery : Delivery) : Store :=
  { store with deliveries := store.deliveries.insert id delivery }

/-- A generation that does not fit a column cannot be bound to a statement. -/
def checkGeneration (generation : Nat) : MessagingM Unit :=
  failIf (maxSqlInteger < generation) "storage_error" "integer out of range"

/-! ### Making a claim -/

/-- The row, claimed. -/
def Delivery.claimed (delivery : Delivery) (token : String) (generation : Nat) : Delivery :=
  { delivery with owner := .dispatching, generation, claimToken := some token }

/-- Claim a row if the guard holds for it. -/
def claimWhere (env : Env) (id : String) (generation : Nat) (guard : Delivery → Bool) :
    MessagingM (Option TaskClaim) := do
  let token := newId "claim" (env.uuid 0)
  checkGeneration generation
  let changed ← updateDelivery id guard fun delivery => delivery.claimed token generation
  if changed then do
    let record ← load id
    return some ⟨record, token, generation⟩
  else return none

/-- The first task in the recipient's stream that waits for a provider and for its reply. -/
def Store.nextPendingTaskId (store : Store) (recipient : String) : Option String :=
  (store.availability.find? fun row =>
    (store.deliveries[row.interactionId]?.any fun delivery =>
      delivery.recipient = recipient ∧ delivery.operation = .followupTask ∧
        delivery.owner = .pending) &&
    (store.interactions[row.interactionId]?.any fun record => record.status = .awaitingReply)).map
  Availability.interactionId

def claimNextTask (env : Env) (recipient : String) (generation : Nat) :
    MessagingM (Option TaskClaim) :=
  transaction do
    let store ← Prog.get
    match store.nextPendingTaskId recipient with
    | none => return none
    | some id => claimWhere env id generation fun delivery => delivery.owner = .pending

def claimInformation (env : Env) (recipient id : String) (generation : Nat) :
    MessagingM (Option TaskClaim) :=
  transaction (claimWhere env id generation fun delivery =>
    delivery.recipient = recipient ∧ delivery.owner = .stored ∧
      delivery.operation = .sendMessage)

def claimWakeableInformation (env : Env) (recipient id : String) (generation : Nat) :
    MessagingM (Option TaskClaim) :=
  transaction (claimWhere env id generation fun delivery =>
    delivery.recipient = recipient ∧ delivery.owner = .stored ∧
      delivery.operation = .sendMessage ∧ delivery.wakeOnAdmission = true)

def claimReplyContinuation (env : Env) (recipient id : String) (generation : Nat) :
    MessagingM (Option TaskClaim) :=
  transaction do
    let store ← Prog.get
    claimWhere env id generation fun delivery =>
      (delivery.recipient = recipient ∧ delivery.owner = .stored ∧ delivery.operation = .reply ∧
        delivery.continuationState = some .pending) &&
      store.interactions[id]?.any fun record => record.kind = .reply

/-! ### Ending a claim -/

/-- Change the row that a claim holds, and fail when it holds none. -/
def endClaim (claim : TaskClaim) (message : String) (f : Delivery → Delivery) :
    MessagingM Unit := do
  checkGeneration claim.generation
  let changed ← updateDelivery claim.record.id
    (fun delivery => delivery.heldBy claim.token claim.generation) f
  failIf (!changed) "stale_claim" message

/-- The results that a scheduler may report. -/
def Owner.isSchedulerResult : Owner → Bool
  | .providerVisible | .providerAccepted | .providerCompleted | .uncertain
  | .failedBeforeSubmit => true
  | _ => false

/-- What a result makes of the continuation of a reply, if anything. -/
def Owner.continuation : Owner → Option ContinuationState
  | .providerAccepted | .providerVisible | .providerCompleted => some .delivered
  | .uncertain => some .uncertain
  | _ => none

/-- The row, once its claim is finished. -/
def Delivery.finished (delivery : Delivery) (state : Owner) : Delivery :=
  { delivery with
    owner := state
    continuationState :=
      if delivery.operation = .reply then state.continuation.or delivery.continuationState
      else delivery.continuationState }

def finishClaim (claim : TaskClaim) (state : Owner) : MessagingM Unit := do
  failIf (!state.isSchedulerResult) "invalid_state" "Invalid scheduler result."
  endClaim claim "Scheduler claim no longer owns this task." fun delivery =>
    delivery.finished state

/-- The row, once its claim is released. -/
def Delivery.released (delivery : Delivery) : Delivery :=
  { delivery with
    owner := if delivery.operation = .followupTask then .pending else .stored
    claimToken := none
    continuationState :=
      if delivery.operation = .reply then some .pending else delivery.continuationState }

def releaseBeforeWrite (claim : TaskClaim) : MessagingM Unit :=
  endClaim claim "Delivery claim no longer owns this message." Delivery.released

def ownsClaim (claim : TaskClaim) : MessagingM Bool := do
  checkGeneration claim.generation
  let store ← Prog.get
  return store.deliveries[claim.record.id]?.any fun delivery =>
    delivery.heldBy claim.token claim.generation

/-! ### Blocking a message that nobody has claimed -/

def staleWakeableInformation (id : String) : MessagingM Bool :=
  updateDelivery id
    (fun delivery => delivery.operation = .sendMessage ∧ delivery.wakeOnAdmission = true ∧
      delivery.owner = .stored)
    fun delivery => { delivery with owner := .blockedStaleOrigin }

/-- The owner that goes with a continuation state, if the state can be set. -/
def ContinuationState.owner : ContinuationState → Option Owner
  | .pending | .waitingBusy | .waitingPaused | .waitingIdentity => some .stored
  | .blockedLegacyUncertain => some .blockedLegacyUncertain
  | .blockedStaleOrigin => some .blockedStaleOrigin
  | .delivered | .uncertain => none

def setReplyContinuationState (id : String) (state : ContinuationState) : MessagingM Bool :=
  match state.owner with
  | none => failure "invalid_state" "Invalid reply continuation state."
  | some owner =>
    updateDelivery id
      (fun delivery => delivery.operation = .reply ∧ delivery.owner = .stored)
      fun delivery => { delivery with continuationState := some state, owner }

/-! ### What they do -/

variable {env : Env} {store : Store} {id recipient : String} {generation : Nat}

variable {R : Failure → Store → Prop}

/-- A claim takes a row for which the guard holds, or changes nothing. -/
theorem wp_claimWhere {guard : Delivery → Bool} {Q : Option TaskClaim → Store → Prop}
    (hclm : ∀ delivery record, store.deliveries[id]? = some delivery → guard delivery = true →
      store.interactions[id]? = some record →
      Q (some ⟨record, newId "claim" (env.uuid 0), generation⟩)
        (store.withDelivery id (delivery.claimed (newId "claim" (env.uuid 0)) generation)))
    (hnone : Q none store) (hfail : ∀ e store', R e store') :
    Wp (claimWhere env id generation guard) Q R store := by
  unfold claimWhere checkGeneration
  dsimp only
  rw [wp_bind]
  refine wp_failIf (hfail _ _) fun _ => ?_
  rw [wp_bind]
  refine wp_updateDelivery (fun delivery hdel hgrd => ?_) fun _ => ?_
  · refine wp_ite (fun _ => ?_) fun hfls => absurd rfl hfls
    rw [wp_bind]
    exact wp_load (fun record hrec => hclm delivery record hdel hgrd hrec)
      fun _ => hfail _ _
  · exact wp_ite (fun htrue => absurd htrue (by decide)) fun _ => hnone

/-- The next task is a pending one of the recipient that waits for its reply. -/
theorem nextPendingTaskId_spec (h : store.nextPendingTaskId recipient = some id) :
    (∃ delivery, store.deliveries[id]? = some delivery ∧ delivery.recipient = recipient ∧
      delivery.operation = .followupTask ∧ delivery.owner = .pending) ∧
      ∃ row ∈ store.availability, row.interactionId = id := by
  unfold Store.nextPendingTaskId at h
  obtain ⟨row, hrow, rfl⟩ := Option.map_eq_some_iff.1 h
  have hfnd := List.find?_some hrow
  rw [Bool.and_eq_true] at hfnd
  obtain ⟨delivery, hdel, hgrd⟩ := Option.any_eq_true _ _ |>.1 hfnd.1
  exact ⟨⟨delivery, hdel, of_decide_eq_true hgrd⟩, row, List.mem_of_find?_eq_some hrow, rfl⟩

theorem wp_claimNextTask {Q : Option TaskClaim → Store → Prop}
    (hclm : ∀ id delivery record, store.deliveries[id]? = some delivery →
      delivery.recipient = recipient → delivery.operation = .followupTask →
      delivery.owner = .pending → store.interactions[id]? = some record →
      Q (some ⟨record, newId "claim" (env.uuid 0), generation⟩)
        (store.withDelivery id (delivery.claimed (newId "claim" (env.uuid 0)) generation)))
    (hnone : Q none store) (hfail : ∀ e, R e store) :
    Wp (claimNextTask env recipient generation) Q R store := by
  unfold claimNextTask
  refine wp_transaction ?_
  rw [wp_bind, wp_get]
  split
  · exact hnone
  · rename_i id hid
    obtain ⟨⟨found, hfnd, hrcp, hop, hown⟩, -⟩ := nextPendingTaskId_spec hid
    refine wp_claimWhere (fun delivery record hdel _ hrec => ?_) hnone fun e _ => hfail e
    rw [hfnd] at hdel
    obtain rfl := Option.some.inj hdel
    exact hclm id found record hfnd hrcp hop hown hrec

variable {claim : TaskClaim}

/-- The claim holds its row. -/
def Store.Holds (store : Store) (claim : TaskClaim) : Prop :=
  claim.generation ≤ maxSqlInteger ∧ ∃ delivery, store.deliveries[claim.record.id]? = some delivery ∧
    delivery.heldBy claim.token claim.generation = true

/-- Only the claim that holds a row can end, and it changes that row. -/
theorem wp_endClaim {message : String} {f : Delivery → Delivery} {Q : Unit → Store → Prop}
    (hend : ∀ delivery, store.deliveries[claim.record.id]? = some delivery →
      delivery.heldBy claim.token claim.generation = true →
      Q () (store.withDelivery claim.record.id (f delivery)))
    (hfail : ¬ store.Holds claim → ∀ e, R e store) :
    Wp (endClaim claim message f) Q R store := by
  unfold endClaim checkGeneration
  rw [wp_bind]
  refine wp_failIf_of (fun hlarge => hfail (fun h => ?_) _) fun _ => ?_
  · exact Nat.not_lt.2 h.1 (of_decide_eq_true hlarge)
  rw [wp_bind]
  refine wp_updateDelivery
    (fun delivery hdel hheld => hend delivery hdel hheld) fun hnone => hfail (fun h => ?_) _
  obtain ⟨-, delivery, hdel, hheld⟩ := h
  rw [hnone delivery hdel] at hheld
  cases hheld

theorem wp_finishClaim {state : Owner} {Q : Unit → Store → Prop}
    (hend : ∀ delivery, store.deliveries[claim.record.id]? = some delivery →
      delivery.heldBy claim.token claim.generation = true → state.isSchedulerResult = true →
      Q () (store.withDelivery claim.record.id (delivery.finished state)))
    (hfail : ¬ (state.isSchedulerResult = true ∧ store.Holds claim) → ∀ e, R e store) :
    Wp (finishClaim claim state) Q R store := by
  unfold finishClaim
  rw [wp_bind]
  refine wp_failIf_of (fun hst => hfail (fun h => ?_) _) fun hst => ?_
  · rw [h.1] at hst
    cases hst
  have hres : state.isSchedulerResult = true := by simpa using hst
  exact wp_endClaim (fun delivery hdel hheld => hend delivery hdel hheld hres)
    fun hnot => hfail fun h => hnot h.2

variable {Q : Bool → Store → Prop}

theorem wp_ownsClaim
    (hok : ∀ owns, (store.Holds claim → owns = true) → Q owns store)
    (hfail : ¬ store.Holds claim → ∀ e, R e store) : Wp (ownsClaim claim) Q R store := by
  unfold ownsClaim checkGeneration
  rw [wp_bind]
  refine wp_failIf_of (fun hlarge => hfail (fun h => ?_) _) fun _ => ?_
  · exact Nat.not_lt.2 h.1 (of_decide_eq_true hlarge)
  rw [wp_bind, wp_get]
  exact hok _ fun h => (Option.any_eq_true _ _).2 h.2

theorem wp_setReplyContinuationState {state : ContinuationState}
    (hset : ∀ delivery owner, store.deliveries[id]? = some delivery →
      delivery.operation = .reply → delivery.owner = .stored → state.owner = some owner →
      Q true (store.withDelivery id { delivery with continuationState := some state, owner }))
    (hsame : Q false store) (hfail : ∀ e, R e store) :
    Wp (setReplyContinuationState id state) Q R store := by
  unfold setReplyContinuationState
  split
  · exact hfail _
  · rename_i owner hown
    refine wp_updateDelivery (fun delivery hdel hgrd => ?_) fun _ => hsame
    obtain ⟨hop, hstrd⟩ := of_decide_eq_true hgrd
    exact hset delivery owner hdel hop hstrd hown

theorem wp_staleWakeableInformation
    (hset : ∀ delivery, store.deliveries[id]? = some delivery → delivery.owner = .stored →
      Q true (store.withDelivery id { delivery with owner := .blockedStaleOrigin }))
    (hsame : Q false store) : Wp (staleWakeableInformation id) Q R store := by
  unfold staleWakeableInformation
  refine wp_updateDelivery (fun delivery hdel hgrd => ?_) fun _ => hsame
  exact hset delivery hdel (of_decide_eq_true hgrd).2.2

end Wardian.Messaging
