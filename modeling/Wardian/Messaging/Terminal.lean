/-
The terminal reply of a task.

An explicit reply, the notice of a failed start and the recorded outcome of a bound turn race for one
task.  The first of them to arrive is written, once and for all, and publishing or recovering a recorded
outcome answers its task; what comes later finds the reply.

Main results:

* `Messaging.Effect.turns`, `Messaging.Effect.replies` — what a call does to the turns and the replies;
* `Messaging.wp_reply_again` — repeating a reply finds it;
* `Messaging.Event.Served.keepsReplies` — a first reply to a waiting task is written, and it stays;
* `Messaging.Event.Served.publishesRecorded` — a recorded outcome becomes the reply of its task;
* `Messaging.one_terminal_reply` — one reply for each task, over every history.
-/

import Wardian.Messaging.Replies
import Wardian.Messaging.Ownership

set_option autoImplicit false

namespace Wardian.Messaging

open Table
open List
open Prog (Wp wp_bind wp_get wp_mono wp_pure)

/-! ### What a call does to a turn -/

/-- What a call may do to the turn of a task. -/
inductive TurnMoves (call : Call) (answer : Except Failure Answer) (requestId : String) :
    Option TaskTurn → Option TaskTurn → Prop
  | stays (turn : Option TaskTurn) : TurnMoves call answer requestId turn turn
  | bound (binding : TaskTurnBinding) (hid : binding.requestId = requestId) :
      TurnMoves call answer requestId none (some ⟨binding, .bound, none⟩)
  | recorded {binding : TaskTurnBinding} {status : ReplyStatus} {body : String} {turn : TaskTurn}
      (hcall : call = .recordTaskTurnOutcome binding status body) (hans : answer = .ok .done)
      (hid : binding.requestId = requestId) (hval : ValidMessage body)
      (hopen : turn.settlement = .bound) :
      TurnMoves call answer requestId (some turn)
        (some { turn with settlement := .outcomeRecorded, terminal := some (status, body) })
  | published {turn : TaskTurn} (hrecd : turn.settlement = .outcomeRecorded) :
      TurnMoves call answer requestId (some turn) (some { turn with settlement := .published })
  | uncertain {turn : TaskTurn} (hopen : turn.settlement = .bound) :
      TurnMoves call answer requestId (some turn) (some { turn with settlement := .uncertain })

section

variable {sha256 : String → String} {env : Env} {store store' store'' : Store} {call : Call}
  {answer : Except Failure Answer} {events earlier : List Event} {event : Event}

/-- Every turn moves like that. -/
def TurnsStep (call : Call) (answer : Except Failure Answer) (store store' : Store) : Prop :=
  ∀ requestId : String, TurnMoves call answer requestId store.taskTurns[requestId]?
    store'.taskTurns[requestId]?

theorem TurnsStep.of_eq (h : store'.taskTurns = store.taskTurns) :
    TurnsStep call answer store store' := fun requestId => by
  rw [h]
  exact .stays _

theorem TurnsStep.of_turn {requestId : String} {turn : TaskTurn}
    (hmvs : TurnMoves call answer requestId store.taskTurns[requestId]? (some turn))
    (h : store'.taskTurns = store.taskTurns.insert requestId turn) : TurnsStep call answer store store' := by
  intro other
  rw [h, lookup_insert]
  split
  · rename_i heq
    subst heq
    exact hmvs
  · exact .stays _

/-- Every turn stays, or one that was recorded is published. -/
def TurnsPublished (store store' : Store) : Prop :=
  ∀ requestId : String, store'.taskTurns[requestId]? = store.taskTurns[requestId]? ∨
    ∃ turn : TaskTurn, store.taskTurns[requestId]? = some turn ∧
      turn.settlement = .outcomeRecorded ∧
      store'.taskTurns[requestId]? = some { turn with settlement := .published }

theorem TurnsPublished.of_turn {requestId : String} {turn : TaskTurn}
    (hturn : store.taskTurns[requestId]? = some turn) (hrecd : turn.settlement = .outcomeRecorded)
    (h : store'.taskTurns =
      store.taskTurns.insert requestId { turn with settlement := .published }) :
    TurnsPublished store store' := by
  intro other
  rw [h, lookup_insert]
  split
  · rename_i heq
    subst heq
    exact .inr ⟨turn, hturn, hrecd, rfl⟩
  · exact .inl rfl

theorem TurnsPublished.moves (h : TurnsPublished store store') : TurnsStep call answer store store' := by
  intro requestId
  rcases h requestId with hsame | ⟨turn, hturn, hrecd, hturn'⟩
  · rw [hsame]
    exact .stays _
  · rw [hturn, hturn']
    exact .published hrecd

theorem Publishes.turns {binding : TaskTurnBinding} {replied : Option Replied}
    (h : Publishes env binding replied store store') : TurnsPublished store store' := by
  cases h with
  | reply hbnd hrecd hterm hval hrepd =>
    exact .of_turn hbnd.turnRow hrecd (by rw [Store.withTaskTurn, hrepd.taskTurns])
  | mark hbnd hrecd => exact .of_turn hbnd.turnRow hrecd rfl
  | same => exact fun requestId => .inl rfl

theorem Recovers.turns {bindings : List TaskTurnBinding}
    (h : Recovers env bindings store store') : TurnsPublished store store' := by
  induction h with
  | stop => exact fun requestId => .inl rfl
  | step hpub hrest ih =>
    intro requestId
    rcases hpub.turns requestId with hsame | ⟨turn, hturn, hrecd, hturn'⟩
    · rw [← hsame]
      exact ih requestId
    · rcases ih requestId with hlast | ⟨found, hfnd, hagain, -⟩
      · exact .inr ⟨turn, hturn, hrecd, hlast.trans hturn'⟩
      · -- A turn that is published is not published again.
        rw [hturn'] at hfnd
        rw [← Option.some.inj hfnd] at hagain
        cases hagain

/-- Giving up the observation of turns makes the open ones uncertain. -/
theorem abandoned_turns : TurnsStep call answer store
    { store with taskTurns := store.taskTurns.map fun _ turn => turn.abandoned } := by
  intro requestId
  dsimp only
  rw [Std.ExtTreeMap.getElem?_map]
  cases store.taskTurns[requestId]? with
  | none => exact .stays _
  | some turn =>
    rw [Option.map_some, TaskTurn.abandoned]
    split
    · exact .uncertain (‹_ ∧ _›).1
    · exact .stays _

theorem Effect.turns (h : Effect sha256 env call answer store store') :
    TurnsStep call answer store store' := by
  cases h with
  | admitted hcall hrec hadm => exact .of_eq hadm.taskTurns
  | replied hcall hval hrepd hclsd =>
    refine .of_eq ?_
    rw [hclsd.frame]
    exact hrepd.taskTurns
  | received hrcv => exact .of_eq (by rw [hrcv.frame])
  | @bound claim provider session turn mode binding delivery task store _ _ _ hunbd =>
    refine .of_turn (?_ : TurnMoves _ _ binding.requestId _ _) rfl
    rw [hunbd]
    exact .bound binding rfl
  | recorded hval hbnd hopen =>
    refine .of_turn ?_ rfl
    rw [hbnd.turnRow]
    exact .recorded rfl rfl rfl hval hopen
  | published hpub => exact hpub.turns.moves
  | marked hbnd hopen =>
    refine .of_turn ?_ rfl
    rw [hbnd.turnRow]
    exact .uncertain hopen
  | abandoned => exact abandoned_turns
  | recovered _ hrcvs => exact hrcvs.turns.moves
  | _ => exact .of_eq rfl

/-! ### What a call does to the replies -/

/-- The structured replies stay, and a new one has the recorded outcome of its turn. -/
structure RepliesFromTurns (store store' : Store) : Prop where
  kept : ∀ (requestId : String) (reply : StructuredReply),
    store.structuredReplies[requestId]? = some reply →
    store'.structuredReplies[requestId]? = some reply
  new : ∀ (requestId : String) (reply : StructuredReply),
    store.structuredReplies[requestId]? = none →
    store'.structuredReplies[requestId]? = some reply →
    ∃ turn : TaskTurn, store.taskTurns[requestId]? = some turn ∧
      turn.settlement = .outcomeRecorded ∧ turn.terminal = some (reply.status, reply.body)

theorem RepliesFromTurns.of_eq (h : store'.structuredReplies = store.structuredReplies) :
    RepliesFromTurns store store' where
  kept := fun requestId reply hrep => by rw [h, hrep]
  new := fun requestId reply hnone hrep => by
    rw [h, hnone] at hrep
    cases hrep

/-- A reply is written for a task that had none, and the others stay. -/
theorem RepliedNew.reply_cases {sender requestId message : String} {status : ReplyStatus}
    {task : InteractionRecord} {delivery : Delivery}
    (h : RepliedNew env sender requestId status message store store' task delivery) (other : String) :
    store'.structuredReplies[other]? = store.structuredReplies[other]? ∨
      other = requestId ∧ store.structuredReplies[other]? = none ∧
      store'.structuredReplies[other]? =
        some (structuredReply sender requestId status message env.now) := by
  rw [h.structuredReplies, lookup_insert]
  split
  · rename_i heq
    subst heq
    exact .inr ⟨rfl, h.unanswered, rfl⟩
  · exact .inl rfl

theorem Publishes.replies {binding : TaskTurnBinding} {replied : Option Replied}
    (h : Publishes env binding replied store store') : RepliesFromTurns store store' := by
  cases h with
  | @reply store store' turn status body replied task delivery hbnd hrecd hterm hval
      hrepd =>
      refine ⟨fun requestId reply hrep => ?_, fun requestId reply hnone hrep => ?_⟩
      · rcases hrepd.reply_cases requestId with hsame | ⟨-, hnone, -⟩
        · exact hsame.trans hrep
        · rw [hrep] at hnone
          cases hnone
      · rcases hrepd.reply_cases requestId with hsame | ⟨rfl, -, hnew⟩
        · rw [show (store'.withTaskTurn _ _).structuredReplies = store'.structuredReplies from rfl,
            hsame, hnone] at hrep
          cases hrep
        · rw [show (store'.withTaskTurn _ _).structuredReplies = store'.structuredReplies from rfl,
            hnew] at hrep
          rw [← Option.some.inj hrep]
          exact ⟨turn, hbnd.turnRow, hrecd, hterm⟩
  | mark => exact .of_eq rfl
  | same => exact .of_eq rfl

theorem Recovers.replies {bindings : List TaskTurnBinding}
    (h : Recovers env bindings store store') : RepliesFromTurns store store' := by
  induction h with
  | stop => exact .of_eq rfl
  | @step env binding bindings replied store middle store' hpub hrest ih =>
    refine ⟨fun requestId reply hrep => ih.kept _ _ (hpub.replies.kept _ _ hrep),
      fun requestId reply hnone hrep => ?_⟩
    cases hmid : middle.structuredReplies[requestId]? with
    | some found =>
      rw [ih.kept requestId found hmid] at hrep
      rw [← Option.some.inj hrep]
      exact hpub.replies.new requestId found hnone hmid
    | none =>
      obtain ⟨turn, hturn, hrecd, hterm⟩ := ih.new requestId reply hmid hrep
      rcases hpub.turns requestId with hsame | ⟨old, hold, -, hpubd⟩
      · exact ⟨turn, hsame ▸ hturn, hrecd, hterm⟩
      · rw [hpubd] at hturn
        rw [← Option.some.inj hturn] at hrecd
        cases hrecd

theorem Effect.replies_kept (h : Effect sha256 env call answer store store') {requestId : String}
    {reply : StructuredReply} (hrep : store.structuredReplies[requestId]? = some reply) :
    store'.structuredReplies[requestId]? = some reply := by
  cases h with
  | admitted hcall hrec hadm => rw [hadm.structuredReplies, hrep]
  | replied hcall hval hrepd hclsd =>
    rw [hclsd.frame]
    rcases hrepd.reply_cases requestId with hsame | ⟨-, hnone, -⟩
    · exact hsame.trans hrep
    · rw [hrep] at hnone
      cases hnone
  | received hrcv =>
    rw [hrcv.frame]
    exact hrep
  | published hpub => exact hpub.replies.kept requestId reply hrep
  | recovered _ hrcvs => exact hrcvs.replies.kept requestId reply hrep
  | _ => exact hrep

/-- A call that does not reply itself writes the recorded outcomes of turns only. -/
theorem Effect.replies (h : Effect sha256 env call answer store store')
    (hcall : call.replying = none) : RepliesFromTurns store store' := by
  cases h with
  | admitted _ _ hadm => exact .of_eq hadm.structuredReplies
  | replied hrepl =>
    rw [hcall] at hrepl
    cases hrepl
  | received hrcv => exact .of_eq (by rw [hrcv.frame])
  | published hpub => exact hpub.replies
  | recovered _ hrcvs => exact hrcvs.replies
  | _ => exact .of_eq rfl

/-! ### Replying again -/

theorem Call.only_replies (sha256 : String → String) {r : Reply} (h : call.replying = some r) :
    call.admission sha256 = none ∧ call.claiming = none := by
  cases call <;> first | exact ⟨rfl, rfl⟩ | cases h

/-- A call that replies fails, finds the reply that is there, or writes one. -/
theorem Effect.reply_inv {r : Reply} (h : Effect sha256 env call answer store store')
    (hcall : call.replying = some r) :
    (store' = store ∧ ∃ e, answer = .error e) ∨
      (store' = store ∧ ∃ replied, answer = .ok (.replied replied) ∧
        RepliedBefore r.sender r.requestId r.status r.message store replied) ∨
      store.structuredReplies[r.requestId]? = none := by
  obtain ⟨hadmi, hclai⟩ := Call.only_replies sha256 hcall
  cases h with
  | failed e => exact .inl ⟨rfl, e, rfl⟩
  | admittedBefore hcall' | admitted hcall' =>
    rw [hadmi] at hcall'
    cases hcall'
  | repliedBefore hcall' hrepd =>
    rw [hcall] at hcall'
    obtain rfl := Option.some.inj hcall'
    exact .inr (.inl ⟨rfl, _, rfl, hrepd⟩)
  | replied hcall' hval hrepd =>
    rw [hcall] at hcall'
    obtain rfl := Option.some.inj hcall'
    exact .inr (.inr hrepd.unanswered)
  | claimed hcall' | unclaimed hcall' =>
    rw [hclai] at hcall'
    cases hcall'
  | unchanged hcall' =>
    rcases hcall' with ⟨id, rfl⟩ | ⟨id, state, rfl⟩ <;> cases hcall
  | _ => cases hcall

/-- The reply interaction that is found is the one of the task. -/
theorem replyOf_spec (hkd : Keyed store.interactions) {requestId id : String}
    (h : store.replyOf requestId = some id) : ∃ record, store.interactions[id]? = some record ∧
      record.id = id ∧ record.kind = .reply ∧ record.parentInteractionId = some requestId := by
  unfold Store.replyOf at h
  obtain ⟨record, hfnd, rfl⟩ := Option.map_eq_some_iff.1 h
  have hmatch := find?_some hfnd
  obtain ⟨hkind, hpar⟩ := of_decide_eq_true hmatch
  obtain ⟨⟨key, found⟩, hmem, rfl⟩ := mem_map.1 (mem_of_find?_eq_some hfnd)
  have hlook := mem_toList.1 hmem
  have hkey : found.id = key := hkd key found hlook
  exact ⟨found, by rw [hkey]; exact hlook, rfl, hkind, hpar⟩

/-- A task that was answered has a reply interaction to be found. -/
theorem Store.Settled.replyOf_isSome (h : store.Settled) {requestId : String} {reply : StructuredReply}
    (hrep : store.structuredReplies[requestId]? = some reply) : (store.replyOf requestId).isSome := by
  obtain ⟨id, record, hrec, hkind, hpar, -⟩ := (h.answered requestId reply hrep).record
  unfold Store.replyOf
  rw [Option.isSome_map, find?_isSome]
  exact ⟨record, mem_map.2 ⟨(id, record), mem_toList.2 hrec, rfl⟩,
    decide_eq_true ⟨hkind, hpar⟩⟩

theorem wp_reply_again (h : store.Settled) {sender requestId : String} {previous : StructuredReply}
    {task : InteractionRecord} (hprev : store.structuredReplies[requestId]? = some previous)
    (htask : store.interactions[requestId]? = some task) (htgt : task.targetSessionIds = [sender]) :
    Wp (reply env sender requestId previous.status previous.body)
      (fun replied store' => store' = store ∧ store.replyOf requestId = some replied.record.id)
      (fun _ _ => False) store := by
  have hansd := h.answered requestId previous hprev
  obtain ⟨-, -, -, -, -, -, found, hfnd, hkind, -⟩ := hansd.record
  obtain rfl : task = found := Option.some.inj (htask.symm.trans hfnd)
  obtain ⟨delivery, hdel, hop⟩ := hansd.delivery
  obtain ⟨id, hid⟩ := Option.isSome_iff_exists.1 (h.replyOf_isSome hprev)
  obtain ⟨record, hrec, hrecordId, -⟩ := replyOf_spec h.sound.keyed hid
  unfold reply replyWithClaim
  rw [wp_bind]
  refine wp_validateMessage (fun _ => wp_transaction ?_) fun e hinv => hinv hansd.valid
  unfold replyInTransaction requireClaim
  rw [wp_bind, wp_pure, wp_bind]
  refine wp_load (fun loaded hloaded => ?_) fun hnone => ?_
  · obtain rfl : task = loaded := Option.some.inj (htask.symm.trans hloaded)
    rw [wp_bind]
    refine wp_failIf_of (fun hbad => ?_) fun _ => ?_
    · simp [hkind, htgt] at hbad
    rw [wp_bind, wp_get, hdel, Option.filter_some_pos (by simpa using hop)]
    dsimp only
    rw [hprev]
    dsimp only
    unfold replyDuplicate
    rw [wp_bind]
    refine wp_failIf_of (fun hbad => ?_) fun _ => ?_
    · simp at hbad
    rw [wp_bind, wp_get, hid]
    dsimp only
    rw [wp_bind]
    refine wp_load (fun last hlast => ?_) fun hnone => ?_
    · obtain rfl : record = last := Option.some.inj (hrec.symm.trans hlast)
      refine ⟨rfl, ?_⟩
      dsimp only
      rw [hrecordId]
    · rw [hrec] at hnone
      cases hnone
  · rw [htask] at hnone
    cases hnone

/-! ### Replying at first -/

/-- Nothing stands in the way of a first reply to a task. -/
theorem Store.Settled.repliable (h : store.Settled) (hunus : store.Unused env) {sender requestId : String}
    {claim : Option TaskClaim} {task : InteractionRecord}
    (htask : store.interactions[requestId]? = some task) (hkind : task.kind = .task)
    (hwait : task.status = .awaitingReply) (htgt : task.targetSessionIds = [sender])
    (hheld : ∀ given ∈ claim, store.Holds given) : Repliable env sender requestId claim store := by
  obtain ⟨⟨delivery, hdel, hop, -⟩, hhost⟩ := h.asked requestId task htask hkind
  have hunpl : ∀ row ∈ store.availability, row.interactionId ≠ newId "int" (env.uuid 0) := by
    intro row hrow heq
    have hkn := h.sound.known row hrow
    rw [heq, hunus.unused 0 _ (.inr rfl)] at hkn
    cases hkn
  refine ⟨⟨task, htask, hkind, htgt, hwait, hhost⟩, ⟨delivery, hdel, hop⟩, ?_, ?_,
    hunpl, hheld⟩
  · rcases h.task requestId task htask hkind with ⟨-, hnone⟩ | ⟨hcompd, -⟩
    · exact hnone
    · rw [hwait] at hcompd
      cases hcompd
  · rw [← Option.not_isSome_iff_eq_none]
    intro hsome
    obtain ⟨old, hold⟩ := Option.isSome_iff_exists.1 hsome
    obtain ⟨row, hrow, hid, -⟩ := h.sound.placed _ old hold
    exact hunpl row hrow hid

/-- A call that asks for a reply is served by replying. -/
theorem serve_replying {r : Reply} (hcall : call.replying = some r) : serve sha256 env call =
    answering .replied (replyWithClaim env r.sender r.requestId r.status r.message r.claim) := by
  cases call with
  | reply =>
    obtain rfl := Option.some.inj hcall
    rfl
  | replyStartupFailure claim =>
    obtain ⟨sender, hsndr, rfl⟩ := Option.map_eq_some_iff.1 hcall
    obtain ⟨rest, htgts⟩ := head?_eq_some_iff.1 hsndr
    change answering .replied (replyStartupFailure env claim) = _
    unfold replyStartupFailure
    rw [htgts]
  | _ => cases hcall

theorem Event.Served.of_wp {Q : Answer → Store → Prop} (hsrv : event.Served sha256)
    (hwp : Wp (serve sha256 event.env event.call) Q (fun _ _ => False) event.before) :
    ∃ answer, event.answer = .ok answer ∧ Q answer event.after := by
  have hrun : serve sha256 event.env event.call event.before = (event.answer, event.after) := hsrv
  cases hans : event.answer with
  | error e =>
    rw [hans] at hrun
    exact (hwp.of_error hrun).elim
  | ok answer =>
    rw [hans] at hrun
    exact ⟨answer, rfl, hwp.of_ok hrun⟩

/-! ### Publishing what was recorded -/

/-- Once it is published, a recorded turn has its task answered. -/
theorem Publishes.answered {binding : TaskTurnBinding} {replied : Option Replied} {turn : TaskTurn}
    (h : Publishes env binding replied store store') (hturn : store.taskTurns[binding.requestId]? = some turn)
    (hrecd : turn.settlement = .outcomeRecorded) :
    (store'.structuredReplies[binding.requestId]?).isSome := by
  cases h with
  | @reply store store' _ _ _ _ _ _ _ _ _ _ hrepd =>
    change (store'.structuredReplies[binding.requestId]?).isSome
    rw [hrepd.structuredReplies, lookup_insert, if_pos rfl]
    rfl
  | mark _ _ hansd => exact hansd
  | same hbnd hidle =>
    rw [hbnd.turnRow] at hturn
    exact absurd (Option.some.inj hturn ▸ hrecd) hidle

/-- A recorded turn stays until its task is answered. -/
theorem Publishes.pending {binding : TaskTurnBinding} {replied : Option Replied} {requestId : String}
    {turn : TaskTurn} (h : Publishes env binding replied store store')
    (hturn : store.taskTurns[requestId]? = some turn) (hrecd : turn.settlement = .outcomeRecorded) :
    store'.taskTurns[requestId]? = some turn ∨ (store'.structuredReplies[requestId]?).isSome := by
  by_cases heq : binding.requestId = requestId
  · subst heq
    exact .inr (h.answered hturn hrecd)
  · refine .inl ?_
    cases h with
    | reply _ _ _ _ hrepd =>
      rw [Store.withTaskTurn, lookup_insert, if_neg heq, hrepd.taskTurns, hturn]
    | mark => rw [Store.withTaskTurn, lookup_insert, if_neg heq, hturn]
    | same => exact hturn

/-- A recovery that succeeds has answered the tasks of all the turns that it was to publish. -/
theorem wp_recoverBindings_answered {bindings : List TaskTurnBinding} :
    Wp (recoverBindings env bindings) (fun _ store' => Recovers env bindings store store' ∧
      ∀ binding ∈ bindings, ∀ turn, store.taskTurns[binding.requestId]? = some turn →
        turn.settlement = .outcomeRecorded → (store'.structuredReplies[binding.requestId]?).isSome)
      (fun _ _ => True) store := by
  induction bindings generalizing env store with
  | nil => exact ⟨.stop env [] store, fun binding hbind => by cases hbind⟩
  | cons first bindings ih =>
    unfold recoverBindings
    rw [wp_bind]
    refine wp_publish (fun replied store' hpub => ?_) fun _ => trivial
    rw [wp_bind]
    refine wp_mono ih (fun replies store'' hltr => ⟨.step hpub hltr.1, ?_⟩) fun _ _ _ => trivial
    have hkept : ∀ requestId : String, (store'.structuredReplies[requestId]?).isSome →
        (store''.structuredReplies[requestId]?).isSome := by
      intro requestId hsome
      obtain ⟨reply, hrep⟩ := Option.isSome_iff_exists.1 hsome
      rw [hltr.1.replies.kept requestId reply hrep]
      rfl
    intro binding hbind turn hturn hrecd
    rcases mem_cons.1 hbind with rfl | hrest
    · exact hkept _ (hpub.answered hturn hrecd)
    · rcases hpub.pending hturn hrecd with hsame | hansd
      · exact hltr.2 binding hrest turn hsame hrecd
      · exact hkept _ hansd

/-! ### The recorded outcomes of a history -/

/-- The event has recorded the outcome of the task's turn. -/
def Event.Records (event : Event) (requestId : String) (outcome : ReplyStatus × String) : Prop :=
  event.answer = .ok .done ∧ ∃ binding : TaskTurnBinding,
    event.call = .recordTaskTurnOutcome binding outcome.1 outcome.2 ∧
      binding.requestId = requestId

/-- The turns have the outcomes that the events have recorded, and an open turn has none; each stands
under its task, and a recorded one has an outcome to reply with. -/
structure Ledger (events : List Event) (store : Store) : Prop where
  terminal : ∀ (requestId : String) (turn : TaskTurn), store.taskTurns[requestId]? = some turn →
    ∀ outcome, turn.terminal = some outcome ↔ ∃ event ∈ events, event.Records requestId outcome
  unbound : ∀ requestId : String, store.taskTurns[requestId]? = none →
    ∀ event ∈ events, ∀ outcome, ¬ event.Records requestId outcome
  fresh : ∀ (requestId : String) (turn : TaskTurn), store.taskTurns[requestId]? = some turn →
    turn.settlement = .bound → turn.terminal = none
  valid : ∀ (requestId : String) (turn : TaskTurn), store.taskTurns[requestId]? = some turn →
    turn.binding.requestId = requestId ∧ (turn.settlement = .outcomeRecorded →
      ∃ status body, turn.terminal = some (status, body) ∧ ValidMessage body)

theorem Event.Served.records (hsrv : event.Served sha256) {requestId : String}
    {outcome : ReplyStatus × String} (h : event.Records requestId outcome) :
    ∃ turn : TaskTurn, event.after.taskTurns[requestId]? = some turn ∧
      turn.terminal = some outcome := by
  obtain ⟨hans, binding, hcall, rfl⟩ := h
  have heff := hsrv.effect
  rw [hans, hcall] at heff
  generalize event.before = store, event.after = store' at heff ⊢
  cases heff with
  | recorded hval hbnd hopen =>
    refine ⟨_, by rw [Store.withTaskTurn, lookup_insert, if_pos rfl], rfl⟩
  | recordedBefore hbnd hterm => exact ⟨_, hbnd.turnRow, hterm⟩

theorem Ledger.step (h : Ledger earlier event.before) (hsrv : event.Served sha256) :
    Ledger (earlier ++ [event]) event.after := by
  have hold : ∀ {requestId : String} {outcome : ReplyStatus × String},
      (∃ e ∈ earlier, e.Records requestId outcome) →
      ∃ e ∈ earlier ++ [event], e.Records requestId outcome :=
    fun ⟨e, he, hrecs⟩ => ⟨e, mem_append_left _ he, hrecs⟩
  refine ⟨fun requestId turn hturn outcome => ?_, fun requestId hnone e he outcome hrecs => ?_,
    fun requestId turn hturn hopen => ?_, fun requestId turn hturn => ?_⟩
  · have hmvs := hsrv.effect.turns requestId
    constructor
    · intro hterm
      rw [hturn] at hmvs
      generalize hbef : event.before.taskTurns[requestId]? = before at hmvs
      cases hmvs with
      | stays => exact hold ((h.terminal requestId turn hbef outcome).1 hterm)
      | bound => cases hterm
      | recorded hcall hans hid =>
        obtain rfl := Option.some.inj hterm
        exact ⟨event, mem_append_right _ (mem_singleton_self _), hans, _, hcall, hid⟩
      | @published old | @uncertain old => exact hold ((h.terminal requestId old hbef outcome).1 hterm)
    · rintro ⟨e, he, hrecs⟩
      rcases mem_append.1 he with hearl | hlast
      · rw [hturn] at hmvs
        generalize hbef : event.before.taskTurns[requestId]? = before at hmvs
        cases hmvs with
        | stays => exact (h.terminal requestId turn hbef outcome).2 ⟨e, hearl, hrecs⟩
        | bound => exact absurd hrecs (h.unbound requestId hbef e hearl outcome)
        | @recorded _ _ _ old _ _ _ _ hopen =>
          have hsome := (h.terminal requestId old hbef outcome).2 ⟨e, hearl, hrecs⟩
          rw [h.fresh requestId old hbef hopen] at hsome
          cases hsome
        | @published old | @uncertain old =>
          exact (h.terminal requestId old hbef outcome).2 ⟨e, hearl, hrecs⟩
      · rw [mem_singleton.1 hlast] at hrecs
        obtain ⟨found, hfnd, hterm⟩ := hsrv.records hrecs
        rw [hturn] at hfnd
        rw [Option.some.inj hfnd]
        exact hterm
  · have hmvs := hsrv.effect.turns requestId
    rw [hnone] at hmvs
    generalize hbef : event.before.taskTurns[requestId]? = before at hmvs
    cases hmvs with
    | stays =>
      rcases mem_append.1 he with hearl | hlast
      · exact h.unbound requestId hbef e hearl outcome hrecs
      · rw [mem_singleton.1 hlast] at hrecs
        obtain ⟨found, hfnd, -⟩ := hsrv.records hrecs
        rw [hnone] at hfnd
        cases hfnd
  · have hmvs := hsrv.effect.turns requestId
    rw [hturn] at hmvs
    generalize hbef : event.before.taskTurns[requestId]? = before at hmvs
    cases hmvs with
    | stays => exact h.fresh requestId turn hbef hopen
    | bound => rfl
    | recorded | published | uncertain => cases hopen
  · have hmvs := hsrv.effect.turns requestId
    rw [hturn] at hmvs
    generalize hbef : event.before.taskTurns[requestId]? = before at hmvs
    cases hmvs with
    | stays => exact h.valid requestId turn hbef
    | bound binding hid => exact ⟨hid, fun hrecd => by cases hrecd⟩
    | @recorded _ status body old _ _ _ hval =>
      exact ⟨(h.valid requestId old hbef).1, fun _ => ⟨status, body, rfl, hval⟩⟩
    | @published old | @uncertain old =>
      exact ⟨(h.valid requestId old hbef).1, fun hrecd => by cases hrecd⟩

theorem History.ledger (h : History sha256 store events store') (hldg : Ledger earlier store) :
    Ledger (earlier ++ events) store' := by
  induction h generalizing earlier with
  | nil => rwa [append_nil]
  | @cons event events store' hsrv hrest ih =>
    have := ih (hldg.step hsrv)
    rwa [append_assoc] at this

theorem ledger_empty : Ledger [] Store.empty where
  terminal := fun requestId turn h => by
    rw [show Store.empty.taskTurns = ∅ from rfl, lookup_empty] at h
    cases h
  unbound := fun requestId _ event hevent => by cases hevent
  fresh := fun requestId turn h => by
    rw [show Store.empty.taskTurns = ∅ from rfl, lookup_empty] at h
    cases h
  valid := fun requestId turn h => by
    rw [show Store.empty.taskTurns = ∅ from rfl, lookup_empty] at h
    cases h

/-! ### One reply for each task -/

/-- A task is completed exactly when it has its structured reply, and that has one reply interaction,
which stands once in the stream of the requester, if there is one. -/
structure Store.OneReply (store : Store) : Prop where
  completed : ∀ (id : String) (task : InteractionRecord), store.interactions[id]? = some task →
    task.kind = .task → (task.status = .completed ↔ (store.structuredReplies[id]?).isSome)
  written : ∀ requestId : String, (store.structuredReplies[requestId]?).isSome ↔
    ∃ (id : String) (record : InteractionRecord), store.interactions[id]? = some record ∧
      record.kind = .reply ∧ record.parentInteractionId = some requestId
  single : ∀ (id id' : String) (record record' : InteractionRecord),
    store.interactions[id]? = some record → store.interactions[id']? = some record' →
    record.kind = .reply → record'.kind = .reply →
    record.parentInteractionId = record'.parentInteractionId → id = id'
  placed : ∀ (requestId id requester : String) (task record : InteractionRecord),
    store.interactions[requestId]? = some task → task.kind = .task →
    task.senderSessionId = some requester → store.interactions[id]? = some record →
    record.kind = .reply → record.parentInteractionId = some requestId →
    ∃ row, store.availability.filter (fun row => row.interactionId = id) = [row] ∧
      row.recipient = requester

/-- The first reply to a waiting task is written.  Replies stay; replying again in the same words finds
the reply, and in other words it fails. -/
structure Event.KeepsReplies (event : Event) : Prop where
  first : ∀ (r : Reply) (task : InteractionRecord), event.call.replying = some r →
    event.before.interactions[r.requestId]? = some task → task.kind = .task →
    task.status = .awaitingReply → task.targetSessionIds = [r.sender] → ValidMessage r.message →
    (∀ claim ∈ r.claim, event.before.Holds claim) →
    ∃ replied, event.answer = .ok (.replied replied) ∧ replied.duplicate = false ∧
      event.after.structuredReplies[r.requestId]? =
        some (structuredReply r.sender r.requestId r.status r.message event.env.now)
  kept : ∀ (requestId : String) (reply : StructuredReply),
    event.before.structuredReplies[requestId]? = some reply →
    event.after.structuredReplies[requestId]? = some reply
  again : ∀ (r : Reply) (previous : StructuredReply), event.call.replying = some r →
    event.before.structuredReplies[r.requestId]? = some previous → event.after = event.before
  different : ∀ (r : Reply) (previous : StructuredReply), event.call.replying = some r →
    event.before.structuredReplies[r.requestId]? = some previous →
    previous.status ≠ r.status ∨ previous.body ≠ r.message → ∃ e, event.answer = .error e
  identical : ∀ (sender requestId : String) (previous : StructuredReply) (task : InteractionRecord),
    event.call = .reply sender requestId previous.status previous.body →
    event.before.structuredReplies[requestId]? = some previous →
    event.before.interactions[requestId]? = some task → task.targetSessionIds = [sender] →
    ∃ replied, event.answer = .ok (.replied replied) ∧
      ∀ (id : String) (record : InteractionRecord), event.before.interactions[id]? = some record →
        record.kind = .reply → record.parentInteractionId = some requestId →
        replied.record.id = id

/-- Publishing a recorded turn answers its task.  A reply that nobody asked for has the recorded outcome
of the turn, of which there was only one before; an uncertain turn stays, and no reply comes of it. -/
structure Event.PublishesRecorded (event : Event) (earlier : List Event) : Prop where
  published : ∀ (binding : TaskTurnBinding) (turn : TaskTurn) (task : InteractionRecord),
    event.call = .publishTaskTurnOutcome binding → Bound event.before binding turn →
    turn.settlement = .outcomeRecorded → event.before.interactions[binding.requestId]? = some task →
    task.kind = .task → task.status = .awaitingReply →
    ∃ outcome replied, (∃ e ∈ earlier, e.Records binding.requestId outcome) ∧
      event.answer = .ok (.published (some replied)) ∧
      event.after.structuredReplies[binding.requestId]? =
        some (structuredReply binding.recipient binding.requestId outcome.1 outcome.2 event.env.now)
  recovered : ∀ (replies : List Replied) (requestId : String) (turn : TaskTurn),
    event.call = .recoverTaskTurnOutcomes → event.answer = .ok (.recovered replies) →
    event.before.taskTurns[requestId]? = some turn → turn.settlement = .outcomeRecorded →
    (event.after.structuredReplies[requestId]?).isSome
  recorded : ∀ (requestId : String) (reply : StructuredReply), event.call.replying = none →
    event.before.structuredReplies[requestId]? = none →
    event.after.structuredReplies[requestId]? = some reply →
    (∃ e ∈ earlier, e.Records requestId (reply.status, reply.body)) ∧
      ∀ e ∈ earlier, ∀ outcome, e.Records requestId outcome →
        outcome = (reply.status, reply.body)
  uncertain : ∀ (requestId : String) (turn : TaskTurn),
    event.before.taskTurns[requestId]? = some turn → turn.settlement = .uncertain →
    event.after.taskTurns[requestId]? = some turn ∧ (event.call.replying = none →
      event.after.structuredReplies[requestId]? = event.before.structuredReplies[requestId]?)

theorem Store.Settled.oneReply (h : store.Settled) : store.OneReply where
  completed := fun id task htask hkind => by
    rcases h.task id task htask hkind with ⟨hstat, hnone⟩ | ⟨hstat, hsome⟩
    · rw [hstat, hnone]
      simp
    · exact iff_of_true hstat hsome
  written := fun requestId => by
    constructor
    · intro hsome
      obtain ⟨reply, hrep⟩ := Option.isSome_iff_exists.1 hsome
      obtain ⟨id, record, hrec, hkind, hpar, -⟩ := (h.answered requestId reply hrep).record
      exact ⟨id, record, hrec, hkind, hpar⟩
    · rintro ⟨id, record, hrec, hkind, hpar⟩
      obtain ⟨other, hoth, hsome⟩ := h.reply id record hrec hkind
      rw [hpar] at hoth
      rw [Option.some.inj hoth]
      exact hsome
  single := h.unique
  placed := fun requestId id requester task record htask hkind hrqr hrec hrep hpar => by
    obtain ⟨other, hoth, hsome⟩ := h.reply id record hrec hrep
    rw [hpar] at hoth
    obtain rfl := Option.some.inj hoth
    obtain ⟨reply, hreply_row⟩ := Option.isSome_iff_exists.1 hsome
    obtain ⟨id', record', hrec', hrep', hpar', -, task', htask', -, -, hplcd⟩ :=
      (h.answered requestId reply hreply_row).record
    obtain rfl : id = id' :=
      h.unique id id' record record' hrec hrec' hrep hrep' (hpar.trans hpar'.symm)
    obtain rfl : task = task' := Option.some.inj (htask.symm.trans htask')
    obtain ⟨row, hrow, hid, hrcp⟩ := hplcd requester hrqr
    exact ⟨row, h.sound.filter_eq_singleton hrow hid, hrcp⟩

theorem Event.Served.keepsReplies (hsrv : event.Served sha256) (h : event.before.Settled)
    (hunus : event.before.Unused event.env) : event.KeepsReplies where
  first := fun r task hcall htask hkind hwait htgt hval hheld => by
    have hrepl := h.repliable hunus htask hkind hwait htgt hheld
    have hwp : Wp (serve sha256 event.env event.call)
        (fun answer store' => ∃ replied, answer = .replied replied ∧ replied.duplicate = false ∧
          store'.structuredReplies[r.requestId]? =
            some (structuredReply r.sender r.requestId r.status r.message event.env.now))
        (fun _ _ => False) event.before := by
      rw [serve_replying hcall]
      refine wp_answering (wp_replyWithClaim (fun replied hbef => ?_)
        (fun replied store' store'' found delivery _ hrepd hclsd _ hdup =>
          ⟨replied, rfl, hdup, ?_⟩) fun hnot _ => hnot ⟨hval, hrepl⟩)
      · obtain ⟨previous, hprev, -⟩ := hbef.previous
        rw [hrepl.unanswered] at hprev
        cases hprev
      · rw [hclsd.frame]
        change store'.structuredReplies[r.requestId]? = _
        rw [hrepd.structuredReplies, lookup_insert, if_pos rfl]
    obtain ⟨_, hans, replied, rfl, hboth⟩ := hsrv.of_wp hwp
    exact ⟨replied, hans, hboth⟩
  kept := fun requestId reply => hsrv.effect.replies_kept
  again := fun r previous hcall hprev => by
    rcases hsrv.effect.reply_inv hcall with ⟨hsame, -⟩ | ⟨hsame, -⟩ | hnone
    · exact hsame
    · exact hsame
    · rw [hprev] at hnone
      cases hnone
  different := fun r previous hcall hprev hdiff => by
    rcases hsrv.effect.reply_inv hcall with ⟨-, hfld⟩ | ⟨-, replied, -, hbef⟩ | hnone
    · exact hfld
    · obtain ⟨found, hfnd, hstat, hbody⟩ := hbef.previous
      rw [hprev] at hfnd
      obtain rfl := Option.some.inj hfnd
      rcases hdiff with hne | hne
      · exact absurd hstat hne
      · exact absurd hbody hne
    · rw [hprev] at hnone
      cases hnone
  identical := fun sender requestId previous task hcall hprev htask htgt => by
    have hwp : Wp (serve sha256 event.env event.call)
        (fun answer _ => ∃ replied, answer = .replied replied ∧
          event.before.replyOf requestId = some replied.record.id)
        (fun _ _ => False) event.before := by
      rw [hcall]
      exact wp_answering (wp_mono (wp_reply_again h hprev htask htgt)
        (fun replied _ hfnd => ⟨replied, rfl, hfnd.2⟩) fun _ _ hfls => hfls)
    obtain ⟨_, hans, replied, rfl, hfnd⟩ := hsrv.of_wp hwp
    refine ⟨replied, hans, fun id record hrec hkind hpar => ?_⟩
    obtain ⟨record', hrec', -, hkind', hpar'⟩ := replyOf_spec h.sound.keyed hfnd
    exact h.unique _ _ record' record hrec' hrec hkind' hkind (hpar'.trans hpar.symm)

theorem Event.Served.publishesRecorded (hsrv : event.Served sha256) (h : event.before.Settled)
    (hunus : event.before.Unused event.env) (hldg : Ledger earlier event.before) :
    event.PublishesRecorded earlier where
  published := fun binding turn task hcall hbnd hrecd htask hkind hwait => by
    obtain ⟨status, body, hterm, hval⟩ := (hldg.valid _ turn hbnd.turnRow).2 hrecd
    have htgt : task.targetSessionIds = [binding.recipient] := by
      obtain ⟨⟨delivery, hdel, -, htgt⟩, -⟩ := h.asked _ task htask hkind
      obtain ⟨found, hfnd, -, -, hrcp, -⟩ := hbnd.accepted
      rw [htgt, ← hrcp, Option.some.inj (hdel.symm.trans hfnd)]
    have hrepl : Repliable event.env binding.recipient binding.requestId none event.before :=
      h.repliable hunus htask hkind hwait htgt fun given hgvn => by cases hgvn
    have hwp : Wp (serve sha256 event.env event.call)
        (fun answer store' => ∃ replied, answer = .published (some replied) ∧
          store'.structuredReplies[binding.requestId]? =
            some (structuredReply binding.recipient binding.requestId status body event.env.now))
        (fun _ _ => False) event.before := by
      rw [hcall]
      refine wp_answering (wp_publishTaskTurnOutcome
        (fun found status' body' replied store' task delivery hbnd' _ hterm' _ hrepd _ _ =>
          ⟨replied, rfl, ?_⟩) (fun found hbnd' _ hansd => ?_) (fun found hbnd' hidle => ?_)
        fun hnot _ => hnot ⟨turn, hbnd, hrecd, ⟨status, body, hterm, hval⟩, hrepl⟩)
      · obtain rfl := Option.some.inj (hbnd.turnRow.symm.trans hbnd'.turnRow)
        obtain ⟨rfl, rfl⟩ := Prod.mk.inj (Option.some.inj (hterm.symm.trans hterm'))
        change store'.structuredReplies[binding.requestId]? = _
        rw [hrepd.structuredReplies, lookup_insert, if_pos rfl]
      · rw [hrepl.unanswered] at hansd
        cases hansd
      · obtain rfl := Option.some.inj (hbnd.turnRow.symm.trans hbnd'.turnRow)
        exact absurd hrecd hidle
    obtain ⟨_, hans, replied, rfl, hrep⟩ := hsrv.of_wp hwp
    exact ⟨(status, body), replied, (hldg.terminal _ turn hbnd.turnRow _).1 hterm, hans, hrep⟩
  recovered := fun replies requestId turn hcall hans hturn hrecd => by
    have hwp : Wp (serve sha256 event.env event.call)
        (fun _ store' => (store'.structuredReplies[requestId]?).isSome) (fun _ _ => True)
        event.before := by
      rw [hcall]
      refine wp_answering ?_
      unfold recoverTaskTurnOutcomes
      rw [wp_bind, wp_get]
      refine wp_mono wp_recoverBindings_answered (fun _ store' hall => ?_) fun _ _ h => h
      obtain rfl := (hldg.valid _ turn hturn).1
      refine hall.2 turn.binding (mem_map.2 ⟨turn, mem_filter.2 ⟨?_, ?_⟩, rfl⟩) turn hturn
        hrecd
      · exact mem_map.2 ⟨(turn.binding.requestId, turn), mem_toList.2 hturn, rfl⟩
      · exact decide_eq_true hrecd
    have hrun : serve sha256 event.env event.call event.before = (event.answer, event.after) := hsrv
    rw [hans] at hrun
    exact hwp.of_ok hrun
  recorded := fun requestId reply hcall hnone hrep => by
    obtain ⟨turn, hturn, -, hterm⟩ := (hsrv.effect.replies hcall).new _ _ hnone hrep
    refine ⟨(hldg.terminal requestId turn hturn _).1 hterm, fun e he outcome hrecs => ?_⟩
    have hoth := (hldg.terminal requestId turn hturn outcome).2 ⟨e, he, hrecs⟩
    exact Option.some.inj (hoth.symm.trans hterm)
  uncertain := fun requestId turn hturn hunce => by
    constructor
    · have hmvs := hsrv.effect.turns requestId
      rw [hturn] at hmvs
      generalize haft : event.after.taskTurns[requestId]? = after at hmvs
      cases hmvs with
      | stays => rfl
      | recorded _ _ _ _ hopen | uncertain hopen =>
        rw [hunce] at hopen
        cases hopen
      | published hrecd =>
        rw [hunce] at hrecd
        cases hrecd
    · intro hcall
      have hreps := hsrv.effect.replies hcall
      cases hbef : event.before.structuredReplies[requestId]? with
      | some reply => exact hreps.kept requestId reply hbef
      | none =>
        rw [← Option.not_isSome_iff_eq_none]
        intro hsome
        obtain ⟨reply, hrep⟩ := Option.isSome_iff_exists.1 hsome
        obtain ⟨found, hfnd, hrecd, -⟩ := hreps.new requestId reply hbef hrep
        rw [hturn] at hfnd
        obtain rfl := Option.some.inj hfnd
        rw [hunce] at hrecd
        cases hrecd

/-- Over every history each task has one terminal reply: the tables agree in every state, every event
keeps the replies and answers a repeated one, and what is published was recorded first. -/
theorem one_terminal_reply (h : History sha256 Store.empty events store) (hfrs : Fresh events) :
    store.OneReply ∧ ∀ earlier event later, events = earlier ++ event :: later →
      event.before.OneReply ∧ event.KeepsReplies ∧ event.PublishesRecorded earlier := by
  have hunus := h.unused Store.sound_empty hfrs fun event hevent =>
    ⟨fun i id _ => lookup_empty id, hfrs.distinct event hevent⟩
  obtain ⟨hlast, hevs⟩ := h.settled Store.settled_empty hunus
  refine ⟨hlast.oneReply, ?_⟩
  rintro earlier event later rfl
  obtain ⟨hsetl, hsrv⟩ := hevs event (by simp)
  obtain ⟨middle, hearl, hrest⟩ := h.append
  have hldg := hearl.ledger ledger_empty
  cases hrest with
  | cons _ _ =>
    have hnew := hunus event (by simp)
    exact ⟨hsetl.oneReply, hsrv.keepsReplies hsetl hnew,
      hsrv.publishesRecorded hsetl hnew hldg⟩

end

/-! ### A sample -/

theorem digits_injective {m n : Nat} (h : Nat.toDigits 10 m = Nat.toDigits 10 n) : m = n := by
  rw [← Nat.ofDigitChars_ten_toDigits (n := m), h, Nat.ofDigitChars_ten_toDigits]

theorem sampleUuid_toList (n i : Nat) : ((sampleEnv n).uuid i).toList =
    ("00000000000000000000000000000" : String).toList ++
      (Nat.toDigits 10 n ++ (("0" : String).toList ++ Nat.toDigits 10 i)) := by
  unfold sampleEnv
  simp only [String.toList_append, append_assoc, Nat.toString_eq_repr, Nat.toList_repr]

theorem sampleEnv_injective (n : Nat) : Function.Injective (sampleEnv n).uuid := by
  intro i j h
  have hlst := congrArg String.toList h
  rw [sampleUuid_toList, sampleUuid_toList] at hlst
  have hdigs := append_cancel_left (append_cancel_left hlst)
  exact digits_injective (append_cancel_left hdigs)

theorem sampleEnv_apart {n m : Nat} (hn : n < 10) (hm : m < 10) (hne : n ≠ m) (i j : Nat) :
    (sampleEnv n).uuid i ≠ (sampleEnv m).uuid j := by
  intro h
  have hlst := congrArg String.toList h
  rw [sampleUuid_toList, sampleUuid_toList, Nat.toDigits_of_lt_base hn,
    Nat.toDigits_of_lt_base hm] at hlst
  have hdigs := (append_inj (append_cancel_left hlst) rfl).1
  refine hne (digits_injective ?_)
  rw [Nat.toDigits_of_lt_base hn, Nat.toDigits_of_lt_base hm]
  exact hdigs

/-- Calls with the environments of a sample, one after the other. -/
def sampleCallsFrom (n : Nat) : List Call → List (Env × Call)
  | [] => []
  | call :: calls => (sampleEnv n, call) :: sampleCallsFrom (n + 1) calls

theorem mem_sampleCallsFrom {sha256 : String → String} {n : Nat} {calls : List Call} {store : Store} {event : Event}
    (h : event ∈ (serveAll sha256 (sampleCallsFrom n calls) store).1) :
    ∃ m, n ≤ m ∧ m < n + calls.length ∧ event.env = sampleEnv m := by
  induction calls generalizing n store with
  | nil => cases h
  | cons call calls ih =>
    rcases mem_cons.1 h with rfl | hltr
    · exact ⟨n, le_rfl, by simp, rfl⟩
    · obtain ⟨m, hle, hlt, henv⟩ := ih hltr
      exact ⟨m, by omega, by rw [length_cons]; omega, henv⟩

theorem fresh_sampleCalls {sha256 : String → String} {n : Nat} {calls : List Call} {store : Store}
    (h : n + calls.length ≤ 10) : Fresh (serveAll sha256 (sampleCallsFrom n calls) store).1 := by
  refine ⟨fun event hevent => ?_, ?_⟩
  · obtain ⟨m, -, -, henv⟩ := mem_sampleCallsFrom hevent
    rw [henv]
    exact sampleEnv_injective m
  · induction calls generalizing n store with
    | nil => exact .nil
    | cons call calls ih =>
      rw [length_cons] at h
      refine pairwise_cons.2 ⟨fun later hltr => ?_, ih (by omega)⟩
      obtain ⟨m, hle, hlt, henv⟩ := mem_sampleCallsFrom hltr
      rw [henv]
      exact sampleEnv_apart (by omega) (by omega) (by omega)

def sampleTask : Admission := ⟨"alice", "bob", "work", none, true, 0⟩

/-- The claim on the task that the first call has admitted, by the second call. -/
def taskClaim : TaskClaim := sampleClaim (admissionRecord (sampleEnv 0) sampleTask none)

def taskBinding : TaskTurnBinding where
  requestId := taskClaim.record.id
  claimToken := taskClaim.token
  recipient := "bob"
  generation := 1
  provider := "codex"
  providerSessionId := "session"
  providerTurnId := "turn"
  admissionMode := "start"

/-- The task that the eighth call admits. -/
def otherTask : InteractionRecord := admissionRecord (sampleEnv 7) sampleTask none

/-- A task is claimed and bound, its outcome is recorded and published, and the recipient replies in
other words and in the same.  A second task is replied to before it is claimed. -/
def raceCalls : List Call :=
  [.admitRequest sampleTask, .claimNextTask "bob" 1, .bindTaskTurn taskClaim "codex" "session" "turn" "start",
    .recordTaskTurnOutcome taskBinding .done "result", .publishTaskTurnOutcome taskBinding,
    .reply "bob" taskBinding.requestId .failed "sorry",
    .reply "bob" taskBinding.requestId .done "result", .admitRequest sampleTask,
    .reply "bob" otherTask.id .failed "no time"]

/-- The store after these calls. -/
def raceStore : Store := (serveAll id (sampleCallsFrom 0 raceCalls) Store.empty).2

/-- The published outcome is the reply of the first task, and the explicit reply that of the second. -/
theorem one_terminal_reply_raceCalls :
    (raceStore.OneReply ∧ ∀ earlier event later,
      (serveAll id (sampleCallsFrom 0 raceCalls) Store.empty).1 = earlier ++ event :: later →
      event.before.OneReply ∧ event.KeepsReplies ∧ event.PublishesRecorded earlier) ∧
    raceStore.structuredReplies[taskBinding.requestId]? =
      some (structuredReply "bob" taskBinding.requestId .done "result" (sampleEnv 4).now) ∧
    raceStore.structuredReplies[otherTask.id]? =
      some (structuredReply "bob" otherTask.id .failed "no time" (sampleEnv 8).now) := by
  refine ⟨one_terminal_reply (history_serveAll _ _) (fresh_sampleCalls (by decide)), ?_, ?_⟩
  · decide +kernel
  · decide +kernel

end Wardian.Messaging
