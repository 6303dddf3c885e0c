/-
Task turns and their outbox.

A claimed task that a provider has accepted is bound to the turn in which the provider works on it.
The terminal output of the turn is recorded first and published as the reply of the task afterwards,
so that a restart in between can publish it; an explicit reply that came before is left as it is.  A
turn whose continuity was lost is uncertain, and is neither recorded nor published.

Main results:

* `Messaging.wp_settlementOf` — a turn that is settled anyhow is bound to an accepted claim;
* `Messaging.wp_publishTaskTurnOutcome` and its siblings — one rule for each operation.
-/

import Wardian.Messaging.Reply

set_option autoImplicit false

namespace Wardian.Messaging

open Prog (Wp wp_bind wp_get wp_ite wp_modify wp_pure)

def isAdmissionMode (mode : String) : Bool := mode = "start" || mode = "steer"

/-- The recipient of a task row, if it is one. -/
def taskRecipient (id : String) : MessagingM String := do
  let store ← Prog.get
  match store.deliveries[id]?.filter fun delivery => delivery.operation = .followupTask with
  | some delivery => return delivery.recipient
  | none => failure "invalid_task" "Binding requires a v2 task."

/-- Insert a bound turn; its task must not have one. -/
def insertTaskTurn (binding : TaskTurnBinding) : MessagingM Unit := do
  let store ← Prog.get
  if store.taskTurns.contains binding.requestId then
    failure "storage_error" "UNIQUE constraint failed: agent_message_task_turns.request_id"
  else
    Prog.modify fun store =>
      { store with
        taskTurns := store.taskTurns.insert binding.requestId ⟨binding, .bound, none⟩ }

def bindTaskTurn (claim : TaskClaim) (provider session turn mode : String) :
    MessagingM TaskTurnBinding := do
  failIf (provider ≠ "codex" || Text.isBlank session || Text.isBlank turn ||
      !isAdmissionMode mode) "invalid_binding"
    "Exact Codex session, turn, and admission mode are required."
  transaction do
    let owns ← ownsClaim claim
    failIf (!owns) "stale_claim" "Task is no longer dispatching under this claim."
    let task ← load claim.record.id
    let recipient ← taskRecipient task.id
    let provenance ← hostAutomationProvenance task.id
    failIf (task.kind ≠ .task || claim.record.kind ≠ .task ||
        task.targetSessionIds ≠ [recipient] ||
        claim.record.targetSessionIds ≠ task.targetSessionIds ||
        (task.senderSessionId.isNone && provenance.isNone)) "invalid_task"
      "Claim does not identify the canonical task recipient and provenance."
    let binding : TaskTurnBinding :=
      ⟨task.id, claim.token, recipient, claim.generation, provider, session, turn, mode⟩
    insertTaskTurn binding
    finishClaim claim .providerAccepted
    return binding

/-- The turn of the binding, if the binding is the one on record and its claim was accepted. -/
def Store.boundTurn (store : Store) (binding : TaskTurnBinding) : Option TaskTurn :=
  (store.taskTurns[binding.requestId]?).filter fun turn =>
    turn.binding = binding &&
      store.deliveries[binding.requestId]?.any fun delivery =>
        delivery.claimToken = some binding.claimToken ∧
          delivery.generation = binding.generation ∧ delivery.recipient = binding.recipient ∧
          delivery.operation = .followupTask ∧ delivery.owner = .providerAccepted

/-- The turn of a binding that still matches, and whose task is the recipient's. -/
def settlementOf (binding : TaskTurnBinding) : MessagingM TaskTurn := do
  let store ← Prog.get
  match store.boundTurn binding with
  | none => failure "stale_binding" "Task turn binding or accepted claim no longer matches."
  | some turn => do
      let task ← load binding.requestId
      failIf (task.kind ≠ .task || task.targetSessionIds ≠ [binding.recipient]) "invalid_task"
        "Binding does not identify the canonical task recipient."
      return turn

def updateTaskTurn (requestId : String) (turn : TaskTurn) : MessagingM Unit :=
  Prog.modify fun store => { store with taskTurns := store.taskTurns.insert requestId turn }

def recordTaskTurnOutcome (binding : TaskTurnBinding) (status : ReplyStatus) (body : String) :
    MessagingM Unit := do
  validateMessage body
  transaction do
    let turn ← settlementOf binding
    match turn.settlement with
    | .bound =>
      updateTaskTurn binding.requestId
        { turn with settlement := .outcomeRecorded, terminal := some (status, body) }
    | .outcomeRecorded | .published =>
      failIf (turn.terminal ≠ some (status, body)) "conflicting_outcome"
        "Task turn already has a different terminal outcome."
    | .uncertain =>
      failure "uncertain_binding" "Lost turn continuity cannot authorize an outcome."

/-- Reply with the recorded outcome of a turn, unless its task has a reply. -/
def replyRecorded (env : Env) (binding : TaskTurnBinding) (turn : TaskTurn) :
    MessagingM (Option Replied) := do
  let store ← Prog.get
  if store.structuredReplies.contains binding.requestId then return none
  else
    match turn.terminal with
    | none => failure "storage_error" "Invalid column type Null"
    | some (status, body) => do
        validateMessage body
        let replied ← replyInTransaction env binding.recipient binding.requestId status body none
        return some replied

def publishRecorded (env : Env) (binding : TaskTurnBinding) (turn : TaskTurn) :
    MessagingM (Option Replied) := do
  let replied ← replyRecorded env binding turn
  updateTaskTurn binding.requestId { turn with settlement := .published }
  return replied

def publishTaskTurnOutcome (env : Env) (binding : TaskTurnBinding) :
    MessagingM (Option Replied) :=
  transaction do
    let turn ← settlementOf binding
    if turn.settlement = .outcomeRecorded then publishRecorded env binding turn
    else return none

def markTaskTurnUncertain (binding : TaskTurnBinding) : MessagingM Unit :=
  transaction do
    let turn ← settlementOf binding
    match turn.settlement with
    | .bound => updateTaskTurn binding.requestId { turn with settlement := .uncertain }
    | .uncertain => return
    | .outcomeRecorded | .published =>
      failure "invalid_state" "Known outcomes cannot be discarded as uncertain."

/-- A turn whose observation is given up is uncertain, unless its outcome is known. -/
def TaskTurn.abandoned (turn : TaskTurn) : TaskTurn :=
  if turn.settlement = .bound ∧ turn.terminal = none then { turn with settlement := .uncertain }
  else turn

def abandonTaskTurnObservations : MessagingM Unit :=
  Prog.modify fun store =>
    { store with taskTurns := store.taskTurns.map fun _ turn => turn.abandoned }

/-- The bindings whose outcome is recorded and not published, in the order of their tasks. -/
def Store.recordedBindings (store : Store) : List TaskTurnBinding :=
  ((store.taskTurns.toList.map Prod.snd).filter fun turn =>
    turn.settlement = .outcomeRecorded).map TaskTurn.binding

/-- The environment of the next publication, which draws later identifiers. -/
def Env.next (env : Env) : Env := { env with uuid := fun i => env.uuid (i + 1) }

/-- Publish one binding after the other; each draws the identifiers behind those of the one before.
Only the publication that fails is undone. -/
def recoverBindings (env : Env) : List TaskTurnBinding → MessagingM (List Replied)
  | [] => return []
  | binding :: bindings => do
      let replied ← publishTaskTurnOutcome env binding
      let rest ← recoverBindings env.next bindings
      return replied.toList ++ rest

def recoverTaskTurnOutcomes (env : Env) : MessagingM (List Replied) := do
  let store ← Prog.get
  recoverBindings env store.recordedBindings

/-! ### What they do -/

variable {env : Env} {binding : TaskTurnBinding} {store : Store}

def Store.withTaskTurn (store : Store) (requestId : String) (turn : TaskTurn) : Store :=
  { store with taskTurns := store.taskTurns.insert requestId turn }

/-- A turn that matches its binding is on record, and its claim was accepted. -/
structure Bound (store : Store) (binding : TaskTurnBinding) (turn : TaskTurn) : Prop where
  turnRow : store.taskTurns[binding.requestId]? = some turn
  binding_eq : turn.binding = binding
  accepted : ∃ delivery, store.deliveries[binding.requestId]? = some delivery ∧
    delivery.claimToken = some binding.claimToken ∧ delivery.generation = binding.generation ∧
    delivery.recipient = binding.recipient ∧ delivery.operation = .followupTask ∧
    delivery.owner = .providerAccepted

theorem bound_of_boundTurn {turn : TaskTurn} (h : store.boundTurn binding = some turn) :
    Bound store binding turn := by
  obtain ⟨hturn, hgrd⟩ := Option.filter_eq_some_iff.1 h
  rw [Bool.and_eq_true] at hgrd
  obtain ⟨hbind, hdel⟩ := hgrd
  obtain ⟨delivery, hrow, hmat⟩ := (Option.any_eq_true _ _).1 hdel
  exact ⟨hturn, of_decide_eq_true hbind, delivery, hrow, of_decide_eq_true hmat⟩

theorem Bound.boundTurn {turn : TaskTurn} (h : Bound store binding turn) :
    store.boundTurn binding = some turn := by
  obtain ⟨delivery, hrow, hmat⟩ := h.accepted
  refine Option.filter_eq_some_iff.2 ⟨h.turnRow, ?_⟩
  rw [Bool.and_eq_true]
  exact ⟨decide_eq_true h.binding_eq, (Option.any_eq_true _ _).2 ⟨delivery, hrow, decide_eq_true hmat⟩⟩

/-- Nothing stands in the way of publishing a turn. -/
structure Publishable (env : Env) (binding : TaskTurnBinding) (store : Store) (turn : TaskTurn) :
    Prop where
  bound : Bound store binding turn
  recorded : turn.settlement = .outcomeRecorded
  terminal : ∃ status body, turn.terminal = some (status, body) ∧ ValidMessage body
  repliable : Repliable env binding.recipient binding.requestId none store

variable {R : Failure → Store → Prop}

theorem wp_settlementOf {Q : TaskTurn → Store → Prop} (hok : ∀ turn, Bound store binding turn → Q turn store)
    (hfail : ¬ (∃ turn task, Bound store binding turn ∧
      store.interactions[binding.requestId]? = some task ∧ task.kind = .task ∧
      task.targetSessionIds = [binding.recipient]) → ∀ e, R e store) :
    Wp (settlementOf binding) Q R store := by
  unfold settlementOf
  rw [wp_bind, wp_get]
  split
  · rename_i hnone
    refine hfail (fun ⟨turn, task, hbnd, _⟩ => ?_) _
    rw [hbnd.boundTurn] at hnone
    cases hnone
  · rename_i turn hturn
    have hbnd := bound_of_boundTurn hturn
    rw [wp_bind]
    refine wp_load (fun task htask => ?_) fun hnone => hfail (fun ⟨turn, task, _, htask, _⟩ => ?_) _
    · rw [wp_bind]
      refine wp_failIf_of (fun hbad => hfail (fun ⟨_, found, _, hfnd, hkind, htgt⟩ => ?_) _)
        fun _ => hok turn hbnd
      obtain rfl := Option.some.inj (htask.symm.trans hfnd)
      simp [hkind, htgt] at hbad
    · rw [hnone] at htask
      cases htask

/-- Binding a turn adds its row and finishes the claim that holds the task. -/
theorem wp_bindTaskTurn {claim : TaskClaim} {provider session turn mode : String}
    {Q : TaskTurnBinding → Store → Prop}
    (hbind : ∀ binding delivery task, store.interactions[claim.record.id]? = some task →
      binding.requestId = task.id → binding.claimToken = claim.token →
      store.taskTurns[binding.requestId]? = none →
      store.deliveries[claim.record.id]? = some delivery →
      delivery.heldBy claim.token claim.generation = true →
      Q binding ((store.withTaskTurn binding.requestId ⟨binding, .bound, none⟩).withDelivery
        claim.record.id (delivery.finished .providerAccepted))) (hfail : ∀ e, R e store) :
    Wp (bindTaskTurn claim provider session turn mode) Q R store := by
  unfold bindTaskTurn
  rw [wp_bind]
  refine wp_failIf (hfail _) fun _ => wp_transaction ?_
  rw [wp_bind]
  refine wp_ownsClaim (fun owns _ => ?_) fun _ => hfail
  rw [wp_bind]
  refine wp_failIf (hfail _) fun _ => ?_
  rw [wp_bind]
  refine wp_load (fun task htask => ?_) fun _ => hfail _
  unfold taskRecipient hostAutomationProvenance
  rw [wp_bind, wp_bind, wp_get]
  split
  · rw [wp_pure, wp_bind, wp_bind, wp_get, wp_pure, wp_bind]
    refine wp_failIf (hfail _) fun _ => ?_
    unfold insertTaskTurn
    rw [wp_bind, wp_bind, wp_get]
    refine wp_ite (fun _ => hfail _) fun hnew => ?_
    rw [wp_modify, wp_bind]
    refine wp_finishClaim (fun delivery hdel hheld _ => ?_) fun _ => hfail
    refine hbind _ delivery task htask rfl rfl ?_ hdel hheld
    rw [← Std.ExtTreeMap.isSome_getElem?_eq_contains] at hnew
    simpa using hnew
  · exact hfail _

variable {Q : Unit → Store → Prop}

/-- Recording an outcome writes it for a bound turn; if it is the one on record, nothing changes. -/
theorem wp_recordTaskTurnOutcome {status : ReplyStatus} {body : String}
    (hrec : ∀ turn, ValidMessage body → Bound store binding turn → turn.settlement = .bound →
      Q () (store.withTaskTurn binding.requestId
        { turn with settlement := .outcomeRecorded, terminal := some (status, body) }))
    (hsame : ∀ turn, Bound store binding turn → turn.terminal = some (status, body) → Q () store)
    (hfail : ∀ e, R e store) : Wp (recordTaskTurnOutcome binding status body) Q R store := by
  unfold recordTaskTurnOutcome
  rw [wp_bind]
  refine wp_validateMessage (fun hval => wp_transaction ?_) fun e _ => hfail e
  rw [wp_bind]
  refine wp_settlementOf (fun turn hbnd => ?_) fun _ => hfail
  split
  · rename_i hstlm
    exact hrec turn hval hbnd hstlm
  · exact wp_failIf (hfail _) fun hsetl => hsame turn hbnd (by simpa using hsetl)
  · exact wp_failIf (hfail _) fun hsetl => hsame turn hbnd (by simpa using hsetl)
  · exact hfail _

/-- Publishing a turn writes its recorded outcome as the reply of a task without one, and marks the
turn; otherwise it only marks a recorded turn or changes nothing. -/
theorem wp_publishTaskTurnOutcome {Q : Option Replied → Store → Prop}
    (hpub : ∀ turn status body replied store' task delivery, Bound store binding turn →
      turn.settlement = .outcomeRecorded → turn.terminal = some (status, body) →
      ValidMessage body → RepliedNew env binding.recipient binding.requestId status body store store' task delivery →
      replied.record =
        replyRecord env binding.recipient binding.requestId body task.senderSessionId →
      replied.duplicate = false →
      Q (some replied) (store'.withTaskTurn binding.requestId
        { turn with settlement := .published }))
    (hmark : ∀ turn, Bound store binding turn → turn.settlement = .outcomeRecorded →
      (store.structuredReplies[binding.requestId]?).isSome →
      Q none (store.withTaskTurn binding.requestId { turn with settlement := .published }))
    (hsame : ∀ turn, Bound store binding turn → turn.settlement ≠ .outcomeRecorded → Q none store)
    (hfail : ¬ (∃ turn, Publishable env binding store turn) → ∀ e, R e store) :
    Wp (publishTaskTurnOutcome env binding) Q R store := by
  unfold publishTaskTurnOutcome
  refine wp_transaction ?_
  rw [wp_bind]
  refine wp_settlementOf (fun turn hbnd => ?_) fun hnot => hfail fun ⟨turn, h⟩ => hnot ?_
  rotate_left
  · obtain ⟨task, htask, hkind, htgt, -⟩ := h.repliable.waits
    exact ⟨turn, task, h.bound, htask, hkind, htgt⟩
  have hfnd : ∀ found, Publishable env binding store found → found = turn := fun found h =>
    Option.some.inj (h.bound.turnRow.symm.trans hbnd.turnRow)
  refine wp_ite (fun hrecd => ?_) fun hidle => hsame turn hbnd hidle
  unfold publishRecorded replyRecorded
  rw [wp_bind, wp_bind, wp_get]
  refine wp_ite (fun hrep => ?_) fun hnone => ?_
  · refine hmark turn hbnd hrecd ?_
    rw [Std.ExtTreeMap.isSome_getElem?_eq_contains]
    exact hrep
  · have hunans : store.structuredReplies[binding.requestId]? = none := by
      rw [← Std.ExtTreeMap.isSome_getElem?_eq_contains] at hnone
      simpa using hnone
    split
    · rename_i hnone
      refine hfail (fun ⟨found, h⟩ => ?_) _
      obtain ⟨status, body, hterm, -⟩ := h.terminal
      rw [hfnd found h, hnone] at hterm
      cases hterm
    · rename_i status body hterm
      rw [wp_bind]
      refine wp_validateMessage (fun hval => ?_) fun e hinv => hfail (fun ⟨found, h⟩ => ?_) e
      rotate_left
      · obtain ⟨_, _, hsame, hval⟩ := h.terminal
        rw [hfnd found h, hterm] at hsame
        cases hsame
        exact hinv hval
      rw [wp_bind]
      refine wp_replyInTransaction (fun replied hbef => ?_)
        (fun replied store' store'' task delivery hnew hclsd hrec hdup => ?_)
        fun hnot e _ => hfail (fun ⟨_, h⟩ => hnot h.repliable) e
      · obtain ⟨previous, hprev, -⟩ := hbef.previous
        rw [hunans] at hprev
        cases hprev
      · obtain rfl : store'' = store' := hclsd
        exact hpub turn status body replied store'' task delivery hbnd hrecd hterm
          hval hnew hrec hdup

theorem wp_markTaskTurnUncertain
    (hmark : ∀ turn, Bound store binding turn → turn.settlement = .bound →
      Q () (store.withTaskTurn binding.requestId { turn with settlement := .uncertain })) (hsame : Q () store)
    (hfail : ∀ e, R e store) : Wp (markTaskTurnUncertain binding) Q R store := by
  unfold markTaskTurnUncertain
  refine wp_transaction ?_
  rw [wp_bind]
  refine wp_settlementOf (fun turn hbnd => ?_) fun _ => hfail
  split
  · rename_i hstlm
    exact hmark turn hbnd hstlm
  · exact hsame
  · exact hfail _
  · exact hfail _

/-! ### What a publication does -/

/-- The publication of a binding: it replies with the recorded outcome, it only marks the turn
because its task has a reply, or it does nothing. -/
inductive Publishes (env : Env) (binding : TaskTurnBinding) : Option Replied → Store → Store → Prop
  | reply {store store' : Store} {turn : TaskTurn} {status : ReplyStatus} {body : String}
      {replied : Replied} {task : InteractionRecord} {delivery : Delivery}
      (hbnd : Bound store binding turn) (hrecd : turn.settlement = .outcomeRecorded)
      (hterm : turn.terminal = some (status, body)) (hval : ValidMessage body)
      (hrepd : RepliedNew env binding.recipient binding.requestId status body store store' task
        delivery)
      (hrec : replied.record =
        replyRecord env binding.recipient binding.requestId body task.senderSessionId) :
      Publishes env binding (some replied) store
        (store'.withTaskTurn binding.requestId { turn with settlement := .published })
  | mark {store : Store} {turn : TaskTurn} (hbnd : Bound store binding turn)
      (hrecd : turn.settlement = .outcomeRecorded)
      (hansd : (store.structuredReplies[binding.requestId]?).isSome) :
      Publishes env binding none store
        (store.withTaskTurn binding.requestId { turn with settlement := .published })
  | same {store : Store} {turn : TaskTurn} (hbnd : Bound store binding turn)
      (hidle : turn.settlement ≠ .outcomeRecorded) : Publishes env binding none store store

theorem wp_publish {Q : Option Replied → Store → Prop}
    (h : ∀ replied store', Publishes env binding replied store store' → Q replied store')
    (hfail : ∀ e, R e store) : Wp (publishTaskTurnOutcome env binding) Q R store := by
  refine wp_publishTaskTurnOutcome
    (fun turn status body replied store' task delivery hbnd hrecd hterm hval hrepd
      hrec _ => ?_)
    (fun turn hbnd hrecd hansd => ?_)
    (fun turn hbnd hidle => h _ _ (.same hbnd hidle)) fun _ => hfail
  · exact h _ _ (.reply hbnd hrecd hterm hval hrepd hrec)
  · exact h _ _ (.mark hbnd hrecd hansd)

/-- A recovery: one publication after the other, as far as it gets. -/
inductive Recovers : Env → List TaskTurnBinding → Store → Store → Prop
  | stop (env : Env) (bindings : List TaskTurnBinding) (store : Store) :
      Recovers env bindings store store
  | step {env : Env} {binding : TaskTurnBinding} {bindings : List TaskTurnBinding}
      {replied : Option Replied} {store store' store'' : Store}
      (hpub : Publishes env binding replied store store')
      (hrest : Recovers env.next bindings store' store'') :
      Recovers env (binding :: bindings) store store''

theorem wp_recoverBindings {bindings : List TaskTurnBinding} {Q : List Replied → Store → Prop}
    (hok : ∀ replies store', Recovers env bindings store store' → Q replies store')
    (hfail : ∀ e store', Recovers env bindings store store' → R e store') :
    Wp (recoverBindings env bindings) Q R store := by
  induction bindings generalizing env store Q with
  | nil => exact hok _ _ (.stop env [] store)
  | cons binding bindings ih =>
    unfold recoverBindings
    rw [wp_bind]
    refine wp_publish (fun replied store' hpub => ?_) fun e => hfail e _ (.stop _ _ _)
    rw [wp_bind]
    exact ih (fun replies store'' hrest => hok _ _ (.step hpub hrest))
      fun e store'' hrest => hfail e _ (.step hpub hrest)

theorem wp_recoverTaskTurnOutcomes {Q : List Replied → Store → Prop}
    (hok : ∀ replies store', Recovers env store.recordedBindings store store' → Q replies store')
    (hfail : ∀ e store', Recovers env store.recordedBindings store store' → R e store') :
    Wp (recoverTaskTurnOutcomes env) Q R store := by
  unfold recoverTaskTurnOutcomes
  rw [wp_bind, wp_get]
  exact wp_recoverBindings hok hfail

end Wardian.Messaging
