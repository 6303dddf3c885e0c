/-
Histories of agent messaging.

Clients call the operations in any order, each one atomic.  A call draws its identifiers and reads the
clock; it may carry a claim, a binding or a cursor that was given out long ago.

Main results:

* `Messaging.wp_serve` — every call has one of the effects;
* `Messaging.History.inv` — what every effect keeps, a history keeps.
-/

import Wardian.Messaging.Receive
import Wardian.Messaging.TaskTurns

set_option autoImplicit false

namespace Wardian.Messaging

/-! ### Calls -/

inductive Call
  | admitRequest (request : Admission)
  | admitWithWakeOnAdmission (request : Admission) (recipientOrigin : Option Origin)
  | admitWithRequesterOrigin (request : Admission) (origin : Option Origin)
  | admitHostAutomationTask (runId node recipient message : String) (generation : Nat)
  | admitHostAutomationMessage (runId node recipient message : String) (generation : Nat)
  | reply (sender requestId : String) (status : ReplyStatus) (message : String)
  | replyStartupFailure (claim : TaskClaim)
  | receive (recipient : String) (cursor ackCursor : Option String) (limit : Nat)
  | claimNextTask (recipient : String) (generation : Nat)
  | claimInformation (recipient id : String) (generation : Nat)
  | claimWakeableInformation (recipient id : String) (generation : Nat)
  | claimReplyContinuation (recipient id : String) (generation : Nat)
  | finishClaim (claim : TaskClaim) (state : Owner)
  | releaseBeforeWrite (claim : TaskClaim)
  | staleWakeableInformation (id : String)
  | setReplyContinuationState (id : String) (state : ContinuationState)
  | bindTaskTurn (claim : TaskClaim) (provider session turn mode : String)
  | recordTaskTurnOutcome (binding : TaskTurnBinding) (status : ReplyStatus) (body : String)
  | publishTaskTurnOutcome (binding : TaskTurnBinding)
  | markTaskTurnUncertain (binding : TaskTurnBinding)
  | abandonTaskTurnObservations
  | recoverTaskTurnOutcomes

inductive Answer
  | admitted (admitted : Admitted)
  | replied (replied : Replied)
  | page (page : AgentMessagePage)
  | claim (claim : Option TaskClaim)
  | done
  | changed (changed : Bool)
  | bound (binding : TaskTurnBinding)
  | published (replied : Option Replied)
  | recovered (replies : List Replied)
deriving DecidableEq

/-- The answer of an operation, made from its result. -/
def answering {α : Type} (answer : α → Answer) (m : MessagingM α) : MessagingM Answer := do
  let a ← m
  return answer a

variable (sha256 : String → String)

/-- Serve one call. -/
def serve (env : Env) : Call → MessagingM Answer
  | .admitRequest request => answering .admitted (admitRequest sha256 env request)
  | .admitWithWakeOnAdmission request origin =>
    answering .admitted (admitWithWakeOnAdmission sha256 env request origin)
  | .admitWithRequesterOrigin request origin =>
    answering .admitted (admitWithRequesterOrigin sha256 env request origin)
  | .admitHostAutomationTask runId node recipient message generation =>
    answering .admitted
      (admitHostAutomationTask sha256 env runId node recipient message generation)
  | .admitHostAutomationMessage runId node recipient message generation =>
    answering .admitted
      (admitHostAutomationMessage sha256 env runId node recipient message generation)
  | .reply sender requestId status message =>
    answering .replied (reply env sender requestId status message)
  | .replyStartupFailure claim => answering .replied (replyStartupFailure env claim)
  | .receive recipient cursor ackCursor limit =>
    answering .page (receive env recipient cursor ackCursor limit)
  | .claimNextTask recipient generation =>
    answering .claim (claimNextTask env recipient generation)
  | .claimInformation recipient id generation =>
    answering .claim (claimInformation env recipient id generation)
  | .claimWakeableInformation recipient id generation =>
    answering .claim (claimWakeableInformation env recipient id generation)
  | .claimReplyContinuation recipient id generation =>
    answering .claim (claimReplyContinuation env recipient id generation)
  | .finishClaim claim state => answering (fun _ => .done) (finishClaim claim state)
  | .releaseBeforeWrite claim => answering (fun _ => .done) (releaseBeforeWrite claim)
  | .staleWakeableInformation id => answering .changed (staleWakeableInformation id)
  | .setReplyContinuationState id state =>
    answering .changed (setReplyContinuationState id state)
  | .bindTaskTurn claim provider session turn mode =>
    answering .bound (bindTaskTurn claim provider session turn mode)
  | .recordTaskTurnOutcome binding status body =>
    answering (fun _ => .done) (recordTaskTurnOutcome binding status body)
  | .publishTaskTurnOutcome binding => answering .published (publishTaskTurnOutcome env binding)
  | .markTaskTurnUncertain binding =>
    answering (fun _ => .done) (markTaskTurnUncertain binding)
  | .abandonTaskTurnObservations => answering (fun _ => .done) abandonTaskTurnObservations
  | .recoverTaskTurnOutcomes => answering .recovered (recoverTaskTurnOutcomes env)

/-- The admission that a call asks for, with its host. -/
def Call.admission : Call → Option (Admission × Option HostAutomationProvenance)
  | .admitRequest request => some (request, none)
  | .admitWithWakeOnAdmission request _ => some (request, none)
  | .admitWithRequesterOrigin request _ => some (request, none)
  | .admitHostAutomationTask runId node recipient message generation =>
    some (hostTask runId recipient message generation, some ⟨runId, node⟩)
  | .admitHostAutomationMessage runId node recipient message generation =>
    some (hostMessage sha256 runId node recipient message generation, some ⟨runId, node⟩)
  | _ => none

/-- What a call replies with. -/
structure Reply where
  sender : String
  requestId : String
  status : ReplyStatus
  message : String
  claim : Option TaskClaim

/-- The reply that a call asks for. -/
def Call.replying : Call → Option Reply
  | .reply sender requestId status message => some ⟨sender, requestId, status, message, none⟩
  | .replyStartupFailure claim =>
    claim.record.targetSessionIds.head?.map fun sender =>
      ⟨sender, claim.record.id, .failed, startupFailureNotice, some claim⟩
  | _ => none

/-- The recipient and the generation that a call claims for. -/
def Call.claiming : Call → Option (String × Nat)
  | .claimNextTask recipient generation => some (recipient, generation)
  | .claimInformation recipient _ generation => some (recipient, generation)
  | .claimWakeableInformation recipient _ generation => some (recipient, generation)
  | .claimReplyContinuation recipient _ generation => some (recipient, generation)
  | _ => none

/-! ### Effects -/

/-- What a call can do to the tables, with its answer. -/
inductive Effect (env : Env) : Call → Except Failure Answer → Store → Store → Prop
  | failed {call : Call} (e : Failure) (store : Store) : Effect env call (.error e) store store
  | admittedBefore {call : Call} {request : Admission} {host : Option HostAutomationProvenance}
      (hcall : call.admission sha256 = some (request, host)) (admitted : Admitted)
      (store : Store) : Effect env call (.ok (.admitted admitted)) store store
  | admitted {call : Call} {request : Admission} {host : Option HostAutomationProvenance}
      {admitted : Admitted} {store store' : Store}
      (hcall : call.admission sha256 = some (request, host))
      (hrec : admitted.record = admissionRecord env request host)
      (hadm : AdmittedNew env request host store store') :
      Effect env call (.ok (.admitted admitted)) store store'
  | repliedBefore {call : Call} {r : Reply} {replied : Replied} {store : Store}
      (hcall : call.replying = some r)
      (hrepd : RepliedBefore r.sender r.requestId r.status r.message store replied) :
      Effect env call (.ok (.replied replied)) store store
  | replied {call : Call} {r : Reply} {replied : Replied} {store store' store'' : Store}
      {task : InteractionRecord} {delivery : Delivery} (hcall : call.replying = some r)
      (hval : ValidMessage r.message)
      (hrepd : RepliedNew env r.sender r.requestId r.status r.message store store' task delivery)
      (hclsd : ClaimClosed r.claim store' store'')
      (hrec : replied.record =
        replyRecord env r.sender r.requestId r.message task.senderSessionId)
      (hdup : replied.duplicate = false) :
      Effect env call (.ok (.replied replied)) store store''
  | received {recipient : String} {cursor ackCursor : Option String} {limit : Nat}
      {page : AgentMessagePage} {store store' : Store} {ack after : Nat}
      {read : List Availability} {scan : PageScan}
      (hrcv : Received env recipient cursor ackCursor limit page store store' ack after read
        scan) :
      Effect env (.receive recipient cursor ackCursor limit) (.ok (.page page)) store store'
  | claimed {call : Call} {recipient id : String} {generation : Nat} {delivery : Delivery}
      {record : InteractionRecord} {store : Store}
      (hcall : call.claiming = some (recipient, generation))
      (hdel : store.deliveries[id]? = some delivery) (hfree : delivery.IsFree)
      (hrcp : delivery.recipient = recipient)
      (hrec : store.interactions[id]? = some record) :
      Effect env call (.ok (.claim (some ⟨record, newId "claim" (env.uuid 0), generation⟩))) store
        (store.withDelivery id (delivery.claimed (newId "claim" (env.uuid 0)) generation))
  | unclaimed {call : Call} {recipient : String} {generation : Nat}
      (hcall : call.claiming = some (recipient, generation)) (store : Store) :
      Effect env call (.ok (.claim none)) store store
  | finished {claim : TaskClaim} {state : Owner} {delivery : Delivery} {store : Store}
      (hdel : store.deliveries[claim.record.id]? = some delivery)
      (hheld : delivery.heldBy claim.token claim.generation = true)
      (hres : state.isSchedulerResult = true) :
      Effect env (.finishClaim claim state) (.ok .done) store
        (store.withDelivery claim.record.id (delivery.finished state))
  | released {claim : TaskClaim} {delivery : Delivery} {store : Store}
      (hdel : store.deliveries[claim.record.id]? = some delivery)
      (hheld : delivery.heldBy claim.token claim.generation = true) :
      Effect env (.releaseBeforeWrite claim) (.ok .done) store
        (store.withDelivery claim.record.id delivery.released)
  | staled {id : String} {delivery : Delivery} {store : Store}
      (hdel : store.deliveries[id]? = some delivery) (hstrd : delivery.owner = .stored) :
      Effect env (.staleWakeableInformation id) (.ok (.changed true)) store
        (store.withDelivery id { delivery with owner := .blockedStaleOrigin })
  | continued {id : String} {state : ContinuationState} {owner : Owner} {delivery : Delivery}
      {store : Store} (hdel : store.deliveries[id]? = some delivery)
      (hstrd : delivery.owner = .stored) (hown : state.owner = some owner) :
      Effect env (.setReplyContinuationState id state) (.ok (.changed true)) store
        (store.withDelivery id { delivery with continuationState := some state, owner })
  | unchanged {call : Call} (hcall : (∃ id, call = .staleWakeableInformation id) ∨
        ∃ id state, call = .setReplyContinuationState id state) (store : Store) :
      Effect env call (.ok (.changed false)) store store
  | bound {claim : TaskClaim} {provider session turn mode : String} {binding : TaskTurnBinding}
      {delivery : Delivery} {task : InteractionRecord} {store : Store}
      (htask : store.interactions[claim.record.id]? = some task)
      (hreq : binding.requestId = task.id) (htok : binding.claimToken = claim.token)
      (hunbd : store.taskTurns[binding.requestId]? = none)
      (hdel : store.deliveries[claim.record.id]? = some delivery)
      (hheld : delivery.heldBy claim.token claim.generation = true) :
      Effect env (.bindTaskTurn claim provider session turn mode) (.ok (.bound binding)) store
        ((store.withTaskTurn binding.requestId ⟨binding, .bound, none⟩).withDelivery
          claim.record.id (delivery.finished .providerAccepted))
  | recorded {binding : TaskTurnBinding} {status : ReplyStatus} {body : String} {turn : TaskTurn}
      {store : Store} (hval : ValidMessage body) (hbnd : Bound store binding turn) (hopen : turn.settlement = .bound) :
      Effect env (.recordTaskTurnOutcome binding status body) (.ok .done) store
        (store.withTaskTurn binding.requestId
          { turn with settlement := .outcomeRecorded, terminal := some (status, body) })
  | published {binding : TaskTurnBinding} {replied : Option Replied} {store store' : Store}
      (hpub : Publishes env binding replied store store') :
      Effect env (.publishTaskTurnOutcome binding) (.ok (.published replied)) store store'
  | marked {binding : TaskTurnBinding} {turn : TaskTurn} {store : Store}
      (hbnd : Bound store binding turn) (hopen : turn.settlement = .bound) :
      Effect env (.markTaskTurnUncertain binding) (.ok .done) store
        (store.withTaskTurn binding.requestId { turn with settlement := .uncertain })
  | recordedBefore {binding : TaskTurnBinding} {status : ReplyStatus} {body : String}
      {turn : TaskTurn} {store : Store} (hbnd : Bound store binding turn)
      (hterm : turn.terminal = some (status, body)) :
      Effect env (.recordTaskTurnOutcome binding status body) (.ok .done) store store
  | markedBefore (binding : TaskTurnBinding) (store : Store) :
      Effect env (.markTaskTurnUncertain binding) (.ok .done) store store
  | abandoned (store : Store) :
      Effect env .abandonTaskTurnObservations (.ok .done) store
        { store with taskTurns := store.taskTurns.map fun _ turn => turn.abandoned }
  | recovered {answer : Except Failure Answer} {store store' : Store}
      (hans : (∃ replies, answer = .ok (.recovered replies)) ∨ ∃ e, answer = .error e)
      (hrcvs : Recovers env store.recordedBindings store store') :
      Effect env .recoverTaskTurnOutcomes answer store store'

/-! ### Every call has one of the effects -/

variable {sha256}

variable {store : Store}

/-- The rule of an operation is the rule of the call that it answers. -/
theorem wp_answering {α : Type} {answer : α → Answer} {m : MessagingM α}
    {Q : Answer → Store → Prop} {R : Failure → Store → Prop}
    (h : Prog.Wp m (fun a => Q (answer a)) R store) : Prog.Wp (answering answer m) Q R store := by
  unfold answering
  rw [Prog.wp_bind]
  exact h

/-- Replying has the effect of the call that asks for the reply. -/
theorem wp_reply_effect {env : Env} {call : Call} (r : Reply) (hcall : call.replying = some r) :
    Prog.Wp (replyWithClaim env r.sender r.requestId r.status r.message r.claim)
      (fun replied store' => Effect sha256 env call (.ok (.replied replied)) store store')
      (fun e store' => Effect sha256 env call (.error e) store store') store :=
  wp_replyWithClaim (fun _ hrepd => .repliedBefore hcall hrepd)
    (fun _ _ _ _ _ hval hrepd hclsd hrec hdup =>
      .replied hcall hval hrepd hclsd hrec hdup)
    fun _ e => .failed e store

theorem wp_serve (env : Env) (call : Call) (store : Store) :
    Prog.Wp (serve sha256 env call)
      (fun answer store' => Effect sha256 env call (.ok answer) store store')
      (fun e store' => Effect sha256 env call (.error e) store store') store := by
  cases call with
  | admitRequest request =>
    exact wp_answering (isAdmission_admitRequest.wp
      (fun admitted => .admittedBefore rfl admitted store)
      (fun admitted store' hrec hadm => .admitted rfl hrec hadm)
      fun e => .failed e store)
  | admitWithWakeOnAdmission request origin =>
    exact wp_answering (isAdmission_admitWithWakeOnAdmission.wp
      (fun admitted => .admittedBefore rfl admitted store)
      (fun admitted store' hrec hadm => .admitted rfl hrec hadm)
      fun e => .failed e store)
  | admitWithRequesterOrigin request origin =>
    exact wp_answering (isAdmission_admitWithRequesterOrigin.wp
      (fun admitted => .admittedBefore rfl admitted store)
      (fun admitted store' hrec hadm => .admitted rfl hrec hadm)
      fun e => .failed e store)
  | admitHostAutomationTask runId node recipient message generation =>
    exact wp_answering (isAdmission_admitHostAutomationTask.wp
      (fun admitted => .admittedBefore rfl admitted store)
      (fun admitted store' hrec hadm => .admitted rfl hrec hadm)
      fun e => .failed e store)
  | admitHostAutomationMessage runId node recipient message generation =>
    exact wp_answering (isAdmission_admitHostAutomationMessage.wp
      (fun admitted => .admittedBefore rfl admitted store)
      (fun admitted store' hrec hadm => .admitted rfl hrec hadm)
      fun e => .failed e store)
  | reply sender requestId status message =>
    exact wp_answering (wp_reply_effect ⟨sender, requestId, status, message, none⟩ rfl)
  | replyStartupFailure claim =>
    refine wp_answering ?_
    unfold replyStartupFailure
    split
    · exact .failed _ store
    · rename_i sender rest hsndr
      have hcall : (Call.replyStartupFailure claim).replying =
          some ⟨sender, claim.record.id, .failed, startupFailureNotice, some claim⟩ := by
        simp only [Call.replying, hsndr, List.head?_cons, Option.map_some]
      generalize startupFailureNotice = notice at hcall ⊢
      exact wp_reply_effect ⟨sender, claim.record.id, .failed, notice, some claim⟩ hcall
  | receive recipient cursor ackCursor limit =>
    exact wp_answering (wp_receive (fun page store' ack after read scan => .received)
      fun e _ => .failed e store)
  | claimNextTask recipient generation =>
    refine wp_answering (wp_claimNextTask
      (fun id delivery record hdel hrcp _ hown hrec => ?_)
      (.unclaimed rfl store) fun e => .failed e store)
    exact .claimed rfl hdel (.inr hown) hrcp hrec
  | claimInformation recipient id generation | claimWakeableInformation recipient id generation =>
    refine wp_answering (wp_transaction (wp_claimWhere
      (fun delivery record hdel hgrd hrec => ?_)
      (.unclaimed rfl store) fun e _ => .failed e store))
    obtain ⟨hrcp, hown, -⟩ := of_decide_eq_true hgrd
    exact .claimed rfl hdel (.inl hown) hrcp hrec
  | claimReplyContinuation recipient id generation =>
    refine wp_answering (wp_transaction ?_)
    rw [Prog.wp_bind, Prog.wp_get]
    refine wp_claimWhere (fun delivery record hdel hgrd hrec => ?_)
      (.unclaimed rfl store) fun e _ => .failed e store
    obtain ⟨hrcp, hown, -⟩ := of_decide_eq_true (Bool.and_eq_true_iff.1 hgrd).1
    exact .claimed rfl hdel (.inl hown) hrcp hrec
  | finishClaim claim state =>
    exact wp_answering (wp_finishClaim
      (fun delivery hdel hheld hres => .finished hdel hheld hres)
      fun _ e => .failed e store)
  | releaseBeforeWrite claim =>
    exact wp_answering (wp_endClaim
      (fun delivery hdel hheld => .released hdel hheld) fun _ e => .failed e store)
  | staleWakeableInformation id =>
    exact wp_answering (wp_staleWakeableInformation
      (fun delivery hdel hstrd => .staled hdel hstrd)
      (.unchanged (.inl ⟨id, rfl⟩) store))
  | setReplyContinuationState id state =>
    exact wp_answering (wp_setReplyContinuationState
      (fun delivery owner hdel _ hstrd hown => .continued hdel hstrd hown)
      (.unchanged (.inr ⟨id, state, rfl⟩) store) fun e => .failed e store)
  | bindTaskTurn claim provider session turn mode =>
    exact wp_answering (wp_bindTaskTurn
      (fun binding delivery task htask hreq htok hunbd hdel hheld =>
        .bound htask hreq htok hunbd hdel hheld)
      fun e => .failed e store)
  | recordTaskTurnOutcome binding status body =>
    exact wp_answering (wp_recordTaskTurnOutcome
      (fun turn hval hbnd hopen => .recorded hval hbnd hopen)
      (fun turn hbnd hterm => .recordedBefore hbnd hterm) fun e => .failed e store)
  | publishTaskTurnOutcome binding =>
    exact wp_answering (wp_publish (fun replied store' => .published) fun e => .failed e store)
  | markTaskTurnUncertain binding =>
    exact wp_answering (wp_markTaskTurnUncertain
      (fun turn hbnd hopen => .marked hbnd hopen) (.markedBefore binding store)
      fun e => .failed e store)
  | abandonTaskTurnObservations => exact .abandoned store
  | recoverTaskTurnOutcomes =>
    exact wp_answering (wp_recoverTaskTurnOutcomes
      (fun replies store' => .recovered (.inl ⟨replies, rfl⟩))
      fun e store' => .recovered (.inr ⟨e, rfl⟩))

/-! ### Histories -/

/-- A served call. -/
structure Event where
  env : Env
  call : Call
  answer : Except Failure Answer
  before : Store
  after : Store

/-- The event is the call served in the tables that it found. -/
def Event.Served (sha256 : String → String) (event : Event) : Prop :=
  serve sha256 event.env event.call event.before = (event.answer, event.after)

/-- A sequence of served calls, from one state of the tables to another. -/
inductive History (sha256 : String → String) : Store → List Event → Store → Prop
  | nil (store : Store) : History sha256 store [] store
  | cons {event : Event} {events : List Event} {store : Store} (hsrv : event.Served sha256)
      (hrest : History sha256 event.after events store) :
      History sha256 event.before (event :: events) store

theorem Event.Served.effect {event : Event} (h : event.Served sha256) :
    Effect sha256 event.env event.call event.answer event.before event.after := by
  have hwp := @wp_serve sha256 event.env event.call event.before
  unfold Prog.Wp at hwp
  rw [h] at hwp
  cases hans : event.answer with
  | ok answer | error e => rw [hans] at hwp; exact hwp

variable {store' : Store} {events : List Event}

theorem History.inv {P : Store → Prop} (h : History sha256 store events store')
    (hstep : ∀ event ∈ events, Effect sha256 event.env event.call event.answer event.before
      event.after → P event.before → P event.after) (hstart : P store) : P store' := by
  induction h with
  | nil => exact hstart
  | @cons event events store' hsrv hrest ih =>
    refine ih (fun later hltr => hstep later (List.mem_cons_of_mem _ hltr)) ?_
    exact hstep event List.mem_cons_self hsrv.effect hstart

/-- Serve calls one after the other. -/
def serveAll (sha256 : String → String) : List (Env × Call) → Store → List Event × Store
  | [], store => ([], store)
  | (env, call) :: calls, store =>
    let served := serve sha256 env call store
    let rest := serveAll sha256 calls served.2
    (⟨env, call, served.1, store, served.2⟩ :: rest.1, rest.2)

theorem history_serveAll (calls : List (Env × Call)) (store : Store) :
    History sha256 store (serveAll sha256 calls store).1 (serveAll sha256 calls store).2 := by
  induction calls generalizing store with
  | nil => exact .nil store
  | cons pair calls ih =>
    obtain ⟨env, call⟩ := pair
    exact @History.cons _ ⟨env, call, _, store, _⟩ _ _ rfl (ih _)

theorem History.of_cons {event : Event} (h : History sha256 store (event :: events) store') :
    store = event.before ∧ event.Served sha256 ∧ History sha256 event.after events store' := by
  cases h with
  | cons hsrv hrest => exact ⟨rfl, hsrv, hrest⟩

theorem History.append {earlier later : List Event} (h : History sha256 store (earlier ++ later) store') :
    ∃ middle, History sha256 store earlier middle ∧ History sha256 middle later store' := by
  induction earlier generalizing store with
  | nil => exact ⟨store, .nil store, h⟩
  | cons event earlier ih =>
    cases h with
    | cons hsrv hrest =>
      obtain ⟨middle, hearl, hltr⟩ := ih hrest
      exact ⟨middle, .cons hsrv hearl, hltr⟩

end Wardian.Messaging
