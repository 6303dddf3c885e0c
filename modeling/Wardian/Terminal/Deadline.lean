/-
The deadline of an activation.

An activation that is begun waits for its acknowledgement, and a timer rolls it back when that does
not come in time.  Callers classify acknowledgements before they queue them, so an acknowledgement
that came in time may still be on its way when the deadline passes; its reservation keeps the
rollback back.  The results here are about every interleaving of callers, timers and the actor.
Activations are told apart by a number that stops at its largest value, so they hold as long as
there are numbers left.

Main results:

* `linked_turn` — every turn of the actor keeps it linked to the board;
* `System.Reaches.linearized` — acknowledgements and deadlines are in order in every interleaving;
* `reservations_underflow` — and are not once the numbers have run out.
-/

import Wardian.Terminal.Plain

set_option autoImplicit false

namespace Wardian.Terminal

open List
open TerminalSessionActor
open Calling (Wp wp_bind wp_fail wp_get wp_ite wp_modify wp_mono wp_pure)

/-! ### The numbers of activations -/

variable {n : Nat}

theorem ActivationKey.IsNumber.unique {key : ActivationKey} {m : Nat} (hm : key.IsNumber m)
    (hn : key.IsNumber n) : m = n := by
  unfold IsNumber at hm hn
  have hchars := congrArg String.toList (hm.symm.trans hn)
  simp only [String.toList_append, Nat.toString_eq_repr, Nat.toList_repr] at hchars
  have hdigs := append_cancel_left hchars
  rw [← Nat.ofDigitChars_ten_toDigits (n := m), hdigs, Nat.ofDigitChars_ten_toDigits]

theorem openActivation_isNumber (s : TerminalSessionActor) (request : TerminalActivationBeginRequest)
    (previous : Option PendingActivation) :
    (ActivationKey.fromPending (s.openActivation request previous).1.state).IsNumber
      (saturatingSucc s.activationSequence) := by
  simp only [openActivation, updateRecord, advanceLeaseEpoch, takeOwner, ActivationKey.fromPending,
    ActivationKey.IsNumber]

/-! ### The handlers that change activations -/

/-- Whatever becomes of it, the handler leaves the actor linked. -/
def Links {α : Type} (held : Option ActivationKey) (m : Handler α) (s : TerminalSessionActor)
    (b : Board) : Prop :=
  Wp deadline m (fun _ s' b' => Linked held s' b') (fun _ s' b' => Linked held s' b') s b

variable {s : TerminalSessionActor}

theorem isPending_iff {key : ActivationKey} : s.isPending key = true ↔ s.pendingKey = some key := by
  unfold isPending TerminalSessionActor.pendingKey
  cases s.pendingActivation with
  | none => simp
  | some pending => simp

theorem pendingKey_eq_some {key : ActivationKey}
    (h : s.pendingKey = some key) : ∃ pending, s.pendingActivation = some pending ∧
      ActivationKey.fromPending pending.state = key := by
  unfold TerminalSessionActor.pendingKey at h
  exact Option.map_eq_some_iff.1 h

section Links

variable {held : Option ActivationKey} {s : TerminalSessionActor} {b : Board}

theorem Plain.links {α : Type} {m : Handler α} (h : Plain m) (hlnk : Linked held s b) : Links held m s b :=
  h.wp hlnk (fun _ _ _ _ h => h) fun _ _ _ _ h => h

theorem Links.andThen {α β : Type} {m : Handler α} {f : α → Handler β} (hm : Links held m s b)
    (hf : ∀ a s' b', Linked held s' b' → Links held (f a) s' b') : Links held (m >>= f) s b := by
  unfold Links
  rw [wp_bind]
  exact wp_mono hm (fun a s' b' h => hf a s' b' h) fun _ _ _ h => h

theorem links_rollbackTaken {pending : PendingActivation} (hpend : s.pendingActivation = some pending)
    (h : Loose held s b) : Links held rollbackTaken s b := by
  have htkn : Linked held { s with pendingActivation := none } b :=
    Loose.linked (h.congr rfl) rfl
  unfold Links
  simp only [rollbackTaken, wp_bind, wp_get, hpend, wp_modify]
  unfold rollbackPending
  rw [wp_bind]
  refine wp_clearActivation htkn fun b' hb' => ?_
  refine Plain.links ?_ (hb'.linked rfl)
  have hown : ∀ owner, Plain (Calling.modify fun s => { s with ownerPresentationId := owner }) :=
    fun _ => Plain.modify fun _ => ⟨rfl, rfl, rfl, rfl⟩
  have htold : Plain (Calling.modify fun s => s.emitOwnership none : Handler Unit) :=
    Plain.modify fun _ => ⟨rfl, rfl, rfl, rfl⟩
  refine (hown none).bind fun _ => Plain.get.bind fun t => ?_
  cases pending.state.previousOwnerPresentationId with
  | none => exact htold
  | some previous =>
    refine Plain.ite ?_ htold
    exact (plain_commitDesired _).bind fun _ => (hown (some previous)).bind fun _ => htold

theorem links_activationTimeout {key : ActivationKey} (h : Loose held s b)
    (hpend : s.pendingKey = none ∨ s.pendingKey = some key) : Links held (activationTimeout key) s b := by
  unfold Links
  simp only [activationTimeout, wp_bind, wp_get, wp_ite, Calling.wp_attempt,
    wp_pure]
  refine ⟨fun hkey => ?_, fun hkey => ?_⟩
  · obtain ⟨pending, htkn, -⟩ := pendingKey_eq_some (isPending_iff.1 hkey)
    exact links_rollbackTaken htkn h
  · rcases hpend with hnone | hsome
    · exact h.linked hnone
    · exact absurd (isPending_iff.2 hsome) hkey

theorem links_handleControl (h : Linked held s b) : Links held handleControl s b := by
  unfold Links
  simp only [handleControl, wp_bind]
  refine wp_takeDueSignal h (fun b' hb' => ?_) fun key b' hb' hpend => ?_
  · exact hb'
  · exact links_activationTimeout hb' hpend

theorem links_lateAck (request : TerminalActivationAckRequest) (h : Linked held s b) :
    Links held (lateAck request) s b := by
  unfold Links
  simp only [lateAck, wp_bind]
  refine wp_claimDue h (fun b' hb' => ?_) fun b' hb' hpend => ?_
  · exact hb'
  · simp only [if_true, wp_bind, wp_get, wp_pure]
    exact links_activationTimeout hb' hpend

theorem links_startActivation {request : TerminalActivationBeginRequest} (h : Linked held s b)
    (hnums : s.activationSequence < u64Max) : Links held (startActivation request) s b := by
  have hlse : Loose held { s with pendingActivation := none } b :=
    h.toLoose.congr rfl
  generalize hopnd : ({ s with pendingActivation := none } : TerminalSessionActor).openActivation
    request s.pendingActivation = opened
  have hseq : opened.2.activationSequence = s.activationSequence + 1 := by
    rw [← hopnd, openActivation_activationSequence]
    exact saturatingSucc_of_lt hnums
  have hpend : opened.2.pendingKey = some (.fromPending opened.1.state) := by
    rw [← hopnd]
    exact congrArg (Option.map fun pending => ActivationKey.fromPending pending.state)
      (openActivation_pendingActivation _ _ _)
  have hnum : (ActivationKey.fromPending opened.1.state).IsNumber (s.activationSequence + 1) := by
    rw [← saturatingSucc_of_lt hnums, ← hopnd]
    exact openActivation_isNumber _ _ _
  have hkept : (ActivationKey.fromPending opened.1.state).runtimeGeneration =
      opened.2.runtimeGeneration ∧ opened.2.completedActivation = none := by
    rw [← hopnd]
    refine ⟨?_, openActivation_completedActivation _ _ _⟩
    simp only [openActivation, withSnapshot, emitEvent, updateRecord, advanceLeaseEpoch, takeOwner,
      ActivationKey.fromPending]
  -- the timer is started whatever has been on the board before
  have hstart : ∀ b', Loose held { s with pendingActivation := none } b' →
      Wp deadline (scheduleActivationTimeout (.fromPending opened.1.state))
        (fun _ s' b' => Linked held s' b') (fun _ s' b' => Linked held s' b') opened.2 b' := by
    intro b' hb'
    have hnow : Loose held opened.2 b' := by
      refine ⟨hb'.board, hb'.holds, fun key hkey => ?_⟩
      obtain ⟨n, hn, hkeyNumber⟩ := hb'.numbered key hkey
      have hle : n ≤ s.activationSequence := hn
      exact ⟨n, by omega, hkeyNumber⟩
    refine wp_startActivation hnow (fun hmem => ?_) hpend
      ⟨s.activationSequence + 1, by omega, hnum⟩ hkept fun b'' hb'' => hb''
    obtain ⟨n, hn, hkeyNumber⟩ := hb'.numbered _ hmem
    have hle : n ≤ s.activationSequence := hn
    have hsame := hkeyNumber.unique hnum
    omega
  unfold Links
  simp only [startActivation, wp_bind, wp_get, wp_modify]
  cases hprev : s.pendingActivation with
  | none =>
    simp only [wp_bind, wp_get, wp_modify, wp_pure]
    rw [hprev] at hopnd
    rw [hopnd]
    exact hstart b hlse
  | some previous =>
    simp only [wp_bind]
    refine wp_clearActivation (hlse.linked rfl) fun b' hb' => ?_
    simp only [wp_get, wp_modify, wp_pure]
    rw [hprev] at hopnd
    rw [hopnd]
    exact hstart b' hb'

theorem links_beginActivation (request : TerminalActivationBeginRequest) (h : Linked held s b)
    (hnums : s.activationSequence < u64Max) : Links held (beginActivation request) s b := by
  unfold Links
  simp only [beginActivation, wp_bind, wp_ensureSession, wp_get, wp_ite,
    wp_pure]
  refine ⟨fun _ => ⟨fun _ => h, fun _ => ⟨fun _ => h, fun _ => ?_⟩⟩, fun _ => h⟩
  cases s.repeatedBegin request with
  | some beginResult => exact h
  | none =>
    simp only [wp_ite, wp_pure]
    exact ⟨fun _ => h, fun _ => ⟨fun _ => h, fun _ => ⟨fun _ => h,
      fun _ => links_startActivation h hnums⟩⟩⟩

theorem links_commitActivation {request : TerminalActivationAckRequest} (h : Linked held s b)
    (hpend : s.pendingKey = some (.fromAck request)) : Links held (commitActivation request) s b := by
  unfold Links
  simp only [commitActivation, wp_bind, wp_get, Calling.wp_attempt]
  refine (plain_commitDesired _).wp h (fun _ s₁ b₁ hstdy h₁ => ?_) fun e s₁ b₁ hstdy h₁ => ?_
  · -- the size is committed
    simp only [wp_modify]
    have hrndr : Linked held (s₁.withRenderer request.presentationId) b₁ :=
      h₁.steady ⟨rfl, rfl, rfl, rfl⟩
    refine wp_clearActivation hrndr fun b₂ h₂ => ?_
    have howner : Linked held ((s₁.withRenderer request.presentationId).withOwner request) b₂ :=
      Loose.linked (h₂.congr rfl) rfl
    simp only [wp_takeSnapshot, wp_pure]
    exact Loose.linked (howner.toLoose.congr rfl) rfl
  · -- the size is refused, and the activation is rolled back
    have hkept : s₁.pendingKey = some (.fromAck request) := hstdy.pending.trans hpend
    obtain ⟨pending, htkn, -⟩ := pendingKey_eq_some hkept
    simp only [wp_fail]
    exact links_rollbackTaken htkn h₁.toLoose

theorem links_ackActivation (request : TerminalActivationAckRequest) (arrival : ActivationAckArrival)
    (h : Linked held s b) : Links held (ackActivation request arrival) s b := by
  unfold Links
  simp only [ackActivation, wp_bind, wp_ensureSession, wp_get, wp_ite]
  refine ⟨fun _ => ⟨fun _ => links_lateAck request h, fun _ => ?_⟩, fun _ => h⟩
  cases s.completedActivation.filter fun completed => completed.request = request with
  | some completed => exact h
  | none =>
    simp only [wp_ite, wp_pure, wp_bind, wp_get]
    refine ⟨fun _ => h, fun _ => ⟨fun _ => h, fun hkey => ⟨fun _ => h, fun _ => ?_⟩⟩⟩
    have hpend : s.pendingKey = some (.fromAck request) :=
      isPending_iff.1 (by simpa using hkey)
    refine ⟨fun _ => ?_, fun _ => links_commitActivation h hpend⟩
    obtain ⟨pending, htkn, -⟩ := pendingKey_eq_some hpend
    exact links_rollbackTaken htkn h.toLoose

theorem links_shutdown (h : Linked held s b) : Links held shutdown s b := by
  unfold Links
  simp only [shutdown, wp_bind, wp_modify]
  have hstop : Linked held { s with runtimeState := .terminated } b := h.steady ⟨rfl, rfl, rfl, rfl⟩
  refine wp_clearAll hstop fun b' hb' => ?_
  exact Loose.linked (hb'.congr rfl) rfl

theorem links_updatePresentation (request : TerminalPresentationUpdateRequest)
    (identity : TerminalClientIdentity) (h : Linked held s b) :
    Links held (updatePresentation request identity) s b := by
  unfold Links
  simp only [updatePresentation, wp_bind, wp_ensureSession, wp_ensureGeneration,
    wp_recordOf, Calling.wp_ofExcept, wp_modify, wp_get, wp_ite,
    wp_pure]
  have hupda : Linked held (s.updateRecord request.presentationId
      (updatedRecord request identity)) b := h.steady ⟨rfl, rfl, rfl, rfl⟩
  refine ⟨fun _ => ⟨fun _ => ⟨fun record _ => ⟨fun _ _ => ⟨fun hinel => ?_, fun _ => ?_⟩,
    fun _ _ => h⟩, fun _ => h⟩, fun _ => h⟩, fun _ => h⟩
  · cases hpend : s.pendingActivation with
    | none => simp [pendingIsIneligible, updateRecord, hpend] at hinel
    | some pending =>
      refine wp_mono (links_rollbackTaken (s := s.updateRecord request.presentationId
        (updatedRecord request identity)) hpend hupda.toLoose) (fun _ s' b' hb' => ?_)
        fun _ _ _ hb' => hb'
      exact hb'.steady ⟨rfl, rfl, rfl, rfl⟩
  · exact hupda.steady ⟨rfl, rfl, rfl, rfl⟩

/-- Forgetting whom the lease was taken from keeps the activation. -/
theorem steady_forgetPreviousOwner (s : TerminalSessionActor) (presentationId : String) :
    Steady s (s.forgetPreviousOwner presentationId) := by
  refine ⟨?_, rfl, rfl, rfl⟩
  unfold TerminalSessionActor.pendingKey forgetPreviousOwner
  rw [Option.map_map]
  refine congrArg (fun f => s.pendingActivation.map f) (funext fun pending => ?_)
  simp only [Function.comp_apply]
  split
  · rfl
  · rfl

theorem links_unregister (sessionId presentationId : String) (runtimeGeneration : Nat)
    (h : Linked held s b) : Links held (unregister sessionId presentationId runtimeGeneration) s b := by
  -- what is left to do once no activation of the presentation is pending
  have hrest : ∀ s' b', Linked held s' b' → (s'.ownerPresentationId = some presentationId →
      Links held promoteLatestEligible
        ({ s' with ownerPresentationId := none } : TerminalSessionActor).advanceLeaseEpoch b') := by
    intro s' b' h' _
    exact plain_promoteLatestEligible.links ⟨h'.toLoose.congr rfl, h'.link,
      fun key hkey => ⟨(h'.pending key hkey).1, rfl⟩⟩
  unfold Links
  simp only [unregister, wp_bind, wp_ensureSession, wp_ensureGeneration, wp_recordOf,
    wp_modify, wp_get, wp_ite, wp_pure]
  have hrem : Linked held ({ s with presentations := s.presentations.erase presentationId
      }.dropOwnerResync presentationId) b := h.steady ⟨rfl, rfl, rfl, rfl⟩
  generalize { s with presentations := s.presentations.erase presentationId }.dropOwnerResync
    presentationId = s₀ at hrem ⊢
  have hforg : Linked held (s₀.forgetPreviousOwner presentationId) b :=
    hrem.steady (steady_forgetPreviousOwner _ _)
  refine ⟨fun _ => ⟨fun _ => ⟨fun record _ => ⟨fun hpends => ?_, fun _ =>
    ⟨hrest _ b hforg, fun _ => hforg⟩⟩, fun _ => h⟩, fun _ => h⟩, fun _ => h⟩
  cases hpend : s₀.pendingActivation with
  | none => simp [hpend] at hpends
  | some pending =>
    refine wp_mono (links_rollbackTaken hpend hrem.toLoose) (fun _ s' b' hb' => ?_)
      fun _ _ _ hb' => hb'
    exact ⟨hrest s' b' hb', fun _ => hb'⟩

theorem Links.answered {α : Type} {m : Handler α} {f : α → Answer} (h : Links held m s b) :
    Links held (do return f (← m)) s b :=
  h.andThen fun _ _ _ hb' => hb'

end Links

/-- The reservation that a turn begins with. -/
def Turn.reservation : Turn → Option ActivationKey
  | .message (.ackActivation _ arrival) => arrival.reservation
  | _ => none

variable {b : Board}

/-- An acknowledgement is answered, and then its reservation is given back. -/
theorem linked_ack (request : TerminalActivationAckRequest)
    (arrival : ActivationAckArrival) (h : Linked arrival.reservation s b) :
    Links none (handleMessage (.ackActivation request arrival)) s b := by
  -- the answer does not matter for what comes after it
  have hrest : ∀ (result : Except TerminalBrokerError TerminalActivationAckResult)
      {s' : TerminalSessionActor} {b' : Board}, Linked arrival.reservation s' b' →
      Links none (do
        dropArrival arrival
        return Answer.acknowledged (← Calling.ofExcept result)) s' b' := by
    intro result s' b' h'
    have hans : ∀ b'', Linked none s' b'' →
        Links none (do return Answer.acknowledged (← Calling.ofExcept result)) s' b'' :=
      fun b'' h'' => ((Plain.ofExcept result).links h'').answered
    unfold Links
    rw [wp_bind]
    cases arrival with
    | matchingBeforeDeadline key => exact wp_releaseReservation h' hans
    | matchingAfterDeadline | nonMatching => exact hans b' h'
  unfold Links
  simp only [handleMessage, wp_bind, Calling.wp_attempt]
  refine wp_mono (links_ackActivation request arrival h) (fun result s' b' h' => ?_)
    fun e s' b' h' => ?_
  · have hdone := hrest (.ok result) h'
    unfold Links at hdone
    simpa only [wp_bind] using hdone
  · have hdone := hrest (.error e) h'
    unfold Links at hdone
    simpa only [wp_bind] using hdone

/-- **Every turn of the actor keeps it linked to the board**, as long as there are numbers left for
activations. -/
theorem linked_turn (t : Turn) (h : Linked t.reservation s b) (hnums : s.activationSequence < u64Max) :
    Links none (turn t) s b := by
  cases t with
  | control => exact (links_handleControl h).answered
  | shutdown => exact (links_shutdown h).answered
  | message message =>
    cases message with
    | ackActivation request arrival => exact linked_ack request arrival h
    | beginActivation request => exact (links_beginActivation request h hnums).answered
    | updatePresentation request identity =>
      exact (links_updatePresentation request identity h).answered
    | unregisterPresentation sessionId presentationId runtimeGeneration =>
      exact (links_unregister sessionId presentationId runtimeGeneration h).answered
    | output runtimeGeneration bytes =>
      exact ((plain_processOutput runtimeGeneration bytes).links h).answered
    | register request identity => exact ((plain_register request identity).links h).answered
    | reportViewport request => exact ((plain_reportViewport request).links h).answered
    | input request => exact ((plain_sendInput request).links h).answered
    | resize request => exact ((plain_resize request).links h).answered
    | compatibilityInput bytes => exact ((plain_sendCompatibilityInput bytes).links h).answered
    | compatibilityResize geometry => exact ((plain_resizeCompatibility geometry).links h).answered
    | privilegedInput bytes => exact ((plain_sendPrivilegedInput bytes).links h).answered
    | composerInput sessionId runtimeGeneration bytes =>
      exact ((plain_sendComposerInput sessionId runtimeGeneration bytes).links h).answered
    | automatedInput sessionId runtimeGeneration bytes =>
      exact ((plain_sendAutomatedInput sessionId runtimeGeneration bytes).links h).answered
    | readCompatibilityOutput maxBytes peek =>
      exact ((plain_readCompatibilityOutput maxBytes peek).links h).answered
    | subscribe request => exact ((plain_subscribe request).links h).answered
    | readEvents request => exact ((plain_readEvents request).links h).answered
    | ackEvents request => exact ((plain_ackEvents request).links h).answered
    | unsubscribe request => exact ((plain_unsubscribe request).links h).answered
    | consumerAcknowledgements | brokerState | nativeWriteReceiptsEnabled =>
      exact (Plain.get.bind fun _ => Plain.pure _).links h
    | snapshot => exact (plain_takeSnapshot.links h).answered
    | pause sessionId runtimeGeneration =>
      exact ((plain_pause sessionId runtimeGeneration).links h).answered
    | pauseInputSender sessionId runtimeGeneration =>
      exact ((plain_pauseInputSender sessionId runtimeGeneration).links h).answered
    | beginOwnerResync request => exact ((plain_beginOwnerResync request).links h).answered
    | ackOwnerResync request => exact ((plain_ackOwnerResync request).links h).answered

/-! ### The system -/

/-- The actor, which runs a turn or has ended one, and the board. -/
structure System where
  actor : Thread terminalInterface TerminalSessionActor (Except TerminalBrokerError Answer)
  board : Board

/-- A new actor before its first turn. -/
def System.new (start : TerminalSessionActor) : System where
  actor := .done (.ok .done) start
  board := ⟨⟨none⟩, [], none, [], [], []⟩

/-- The steps of the system.  An actor that has ended a turn takes up the next one, in a state with
`Ready`; its calls are answered one by one, and callers and timers take steps at any time. -/
inductive System.Step (Ready : TerminalSessionActor → Prop) : System → System → Prop where
  | moves {actor : Thread terminalInterface TerminalSessionActor (Except TerminalBrokerError Answer)}
      {b b' : Board} (hmvs : b.Moves b') : Step Ready ⟨actor, b⟩ ⟨actor, b'⟩
  | take {r : Except TerminalBrokerError Answer} {s : TerminalSessionActor} {b : Board} (t : Turn)
      (hack : ∀ request arrival, t ≠ .message (.ackActivation request arrival)) (hrdy : Ready s) :
      Step Ready ⟨.done r s, b⟩ ⟨turn t s, b⟩
  | handle {r : Except TerminalBrokerError Answer} {s : TerminalSessionActor} {b : Board}
      {before after : List ArrivedAck} {ack : ArrivedAck}
      (hack : b.inFlight = before ++ ack :: after) (hrdy : Ready s) :
      Step Ready ⟨.done r s, b⟩ ⟨turn (.message (.ackActivation ack.request ack.arrival)) s,
        { b with inFlight := before ++ after, held := ack.arrival.reservation }⟩
  | answer {op : TerminalCall} {s : TerminalSessionActor}
      {next : op.Reply → Thread terminalInterface TerminalSessionActor
        (Except TerminalBrokerError Answer)} {b b' : Board} {reply : op.Reply}
      (hans : Board.Answers op b reply b') : Step Ready ⟨.call op s next, b⟩ ⟨next reply, b'⟩

/-- What the system may have come to. -/
inductive System.Reaches (Ready : TerminalSessionActor → Prop) (start : System) : System → Prop where
  | start : Reaches Ready start start
  | step {sys sys' : System} (h : Reaches Ready start sys) (hstep : sys.Step Ready sys') :
      Reaches Ready start sys'

/-- From here on the actor keeps its promises to the board. -/
def System.Inv (sys : System) : Prop :=
  sys.actor.Safe deadline (fun _ s b => Linked none s b) sys.board

theorem linked_new (sessionId : String) (runtimeGeneration initialLeaseEpoch : Nat)
    (runtime : Option TerminalRuntimeHandles) (geometry : TerminalGeometry)
    (initialOutput : List UInt8) : Linked none
      (.new sessionId runtimeGeneration initialLeaseEpoch runtime geometry initialOutput)
      ⟨⟨none⟩, [], none, [], [], []⟩ := by
  refine ⟨⟨⟨?_, ?_, ?_, ?_, ?_, ?_, ?_⟩, rfl, ?_⟩, ?_, ?_⟩
  all_goals simp [Board.reserved, TerminalSessionActor.new, TerminalSessionActor.pendingKey]

/-- The actor takes up an acknowledgement, with its reservation. -/
theorem Linked.hold {s : TerminalSessionActor} {b : Board} (h : Linked none s b)
    {before after : List ArrivedAck} {ack : ArrivedAck} (hack : b.inFlight = before ++ ack :: after) :
    Linked ack.arrival.reservation s
      { b with inFlight := before ++ after, held := ack.arrival.reservation } := by
  have hrsvd : ∀ k, (Board.reserved { b with
      inFlight := before ++ after, held := ack.arrival.reservation }).count k =
        b.reserved.count k := by
    intro k
    unfold Board.reserved
    rw [hack, h.holds]
    cases hrese : ack.arrival.reservation with
    | none => simp [hrese]
    | some key =>
      simp only [filterMap_append, filterMap_cons, hrese, count_append,
        Option.toList_some, Option.toList_none, count_cons, count_nil]
      omega
  refine h.touched (.refl _) rfl rfl (fun a ha => ?_) h.board.passed (fun k hk => ?_) h.board.known
    h.board.late
  · rw [hrsvd]
    exact h.board.counted a ha
  · have hpos := count_pos_iff.2 hk
    rw [hrsvd] at hpos
    exact h.board.reserved k (count_pos_iff.1 hpos)

theorem Links.inv {t : Turn} (h : Links none (turn t) s b) : System.Inv ⟨turn t s, b⟩ := by
  refine Thread.Safe.mono ?_ h
  rintro (e | a) s' b' hb'
  · exact hb'
  · exact hb'

theorem System.Inv.step {sys sys' : System} (h : sys.Inv)
    (hstep : sys.Step (fun s => s.activationSequence < u64Max) sys') : sys'.Inv := by
  cases hstep with
  | moves hmvs =>
    refine Thread.Safe.drift (fun hab hbc => Relation.ReflTransGen.trans hab hbc) ?_ h (.single hmvs)
    exact fun r s b b' hb hdrf => hb.drift hdrf
  | take t hack hrdy =>
    have hnone : t.reservation = none := by
      unfold Turn.reservation
      split
      · rename_i request arrival
        exact absurd rfl (hack request arrival)
      · rfl
    refine (linked_turn t ?_ hrdy).inv
    rw [hnone]
    exact h
  | @handle r s b before after ack hack hrdy =>
    have hlnk : Linked none s b := h
    exact (linked_turn (.message (.ackActivation ack.request ack.arrival)) (hlnk.hold hack)
      hrdy).inv
  | answer hans => exact (h _ .refl).2 _ _ hans

variable {sys start : System}

theorem System.Reaches.inv (h : System.Reaches (fun s => s.activationSequence < u64Max) start sys)
    (hstart : start.Inv) : sys.Inv := by
  induction h with
  | start => exact hstart
  | step _ hstep ih => exact ih.step hstep

/-! ### How acknowledgements are answered -/

/-- How an acknowledgement that came in time for the pending activation ends: it commits, or the
presentation may not take the lease, or the native runtime has refused a size. -/
inductive InTime (s : TerminalSessionActor) (request : TerminalActivationAckRequest) :
    Except TerminalBrokerError Answer → TerminalSessionActor → Prop where
  | committed {result : TerminalActivationAckResult} {s' : TerminalSessionActor}
      (haccd : result.decision.status = .accepted)
      (howner : s'.ownerPresentationId = some request.presentationId)
      (hnone : s'.pendingActivation = none)
      (hkept : s'.completedActivation = some ⟨request, result⟩) :
      InTime s request (.ok (.acknowledged result)) s'
  | ineligible {result : TerminalActivationAckResult} {s' : TerminalSessionActor}
      (hreje : result.decision.reason = some .presentationIneligible)
      (hnot : s.presentationIsEligible request.presentationId = false) :
      InTime s request (.ok (.acknowledged result)) s'
  | refused {e : TerminalBrokerError} {s' : TerminalSessionActor} (herr : IsNativeError e) :
      InTime s request (.error e) s'
  | elsewhere {s' : TerminalSessionActor} (hses : request.sessionId ≠ s.sessionId) :
      InTime s request (.error .sessionNotFound) s'

/-- How an acknowledgement that did not come in time ends: nothing is committed, and it is turned
down unless it repeats the one that was committed last. -/
inductive TooLate (s : TerminalSessionActor) (request : TerminalActivationAckRequest) :
    Except TerminalBrokerError Answer → TerminalSessionActor → Prop where
  | rejected {result : TerminalActivationAckResult} {s' : TerminalSessionActor}
      (hreje : result.decision.status = .rejected)
      (hkept : s'.completedActivation = s.completedActivation) :
      TooLate s request (.ok (.acknowledged result)) s'
  | repeated {result : TerminalActivationAckResult}
      (hcomm : s.completedActivation = some ⟨request, result⟩) :
      TooLate s request (.ok (.acknowledged result)) s
  | elsewhere (hses : request.sessionId ≠ s.sessionId) :
      TooLate s request (.error .sessionNotFound) s

variable {s' : TerminalSessionActor}

theorem TerminalSessionActor.RolledBack.completedActivation {pending : PendingActivation}
    {r : Except TerminalBrokerError Unit} (h : RolledBack s pending r s') :
    s'.completedActivation = s.completedActivation := by
  cases h with
  | settled hszd =>
    cases hszd with
    | same => rfl
    | resized geometry geometrySequence => rfl
  | stopped => rfl

variable {request : TerminalActivationAckRequest} {arrival : ActivationAckArrival}

theorem does_ack_inTime {key : ActivationKey} (harri : arrival.reservation = some key)
    (hpend : s.pendingKey = some (.fromAck request))
    (hgen : request.runtimeGeneration = s.runtimeGeneration)
    (hcompd : s.completedActivation = none) :
    Does (ackActivation request arrival) s fun r => InTime s request (r.map .acknowledged) := by
  obtain ⟨pending, htkn, hkey⟩ := pendingKey_eq_some hpend
  have haft : arrival ≠ .matchingAfterDeadline := by
    rintro rfl
    cases harri
  have hmatg : arrival ≠ .nonMatching := by
    rintro rfl
    cases harri
  unfold Does
  simp only [ackActivation, wp_bind, wp_ensureSession, wp_get, wp_ite,
    hcompd, Option.filter_none]
  refine ⟨fun _ => ⟨fun heq => absurd heq haft, fun _ => ⟨fun hne => absurd hgen hne,
    fun _ => ⟨fun hnot => ?_, fun _ => ⟨fun heq => absurd heq hmatg, fun _ =>
      ⟨fun hinel => ?_, fun _ => ?_⟩⟩⟩⟩⟩, fun hses => .elsewhere hses⟩
  · simp [isPending_iff.2 hpend] at hnot
  · -- the presentation may not take the lease
    have hfls : s.presentationIsEligible request.presentationId = false := by
      simpa using hinel
    refine (does_rollbackTaken htkn).wp (fun _ s' _ => .ineligible rfl hfls) fun e s' h => ?_
    cases h with
    | stopped herr => exact .refused herr
  · simp only [commitActivation, wp_bind, wp_get, Calling.wp_attempt]
    refine wp_commitDesired (fun s₁ hszd => ?_) fun e herr => ?_
    · simp only [wp_modify, wp_cancelActivationTimeout, wp_takeSnapshot, wp_pure]
      exact .committed rfl rfl rfl rfl
    · simp only [wp_fail]
      exact (does_rollbackTaken htkn).wp (fun _ _ _ => .refused herr)
        fun _ _ _ => .refused herr

theorem does_ack_tooLate (request : TerminalActivationAckRequest) (harri : arrival.reservation = none) :
    Does (ackActivation request arrival) s fun r => TooLate s request (r.map .acknowledged) := by
  unfold Does
  simp only [ackActivation, wp_bind, wp_ensureSession, wp_get, wp_ite]
  refine ⟨fun _ => ⟨fun _ => ?_, fun hnot => ?_⟩, fun hses => .elsewhere hses⟩
  · simp only [lateAck, wp_bind, wp_claimTimeout, wp_ite, wp_get,
      wp_pure, activationTimeout, Calling.wp_attempt]
    refine fun claimed => ⟨fun _ => ⟨fun hkey => ?_, fun _ => .rejected rfl rfl⟩,
      fun _ => .rejected rfl rfl⟩
    obtain ⟨pending, htkn, -⟩ := pendingKey_eq_some (isPending_iff.1 hkey)
    exact (does_rollbackTaken htkn).wp (fun _ s' h => .rejected rfl h.completedActivation)
      fun e s' h => .rejected rfl h.completedActivation
  · have hnonMatching : arrival = .nonMatching := by
      cases arrival with
      | matchingBeforeDeadline key => cases harri
      | matchingAfterDeadline => exact absurd rfl hnot
      | nonMatching => rfl
    cases hrepe : s.completedActivation.filter fun completed => completed.request = request with
    | some completed =>
      obtain ⟨hsome, hsame⟩ := Option.filter_eq_some_iff.1 hrepe
      refine .repeated ?_
      rw [hsome, ← of_decide_eq_true hsame]
    | none =>
      simp only [wp_ite, wp_pure]
      exact ⟨fun _ => .rejected rfl rfl, fun _ => ⟨fun _ => .rejected rfl rfl, fun _ =>
        ⟨fun _ => .rejected rfl rfl, fun hne => absurd hnonMatching hne⟩⟩⟩

variable {r : Except TerminalBrokerError Answer}

/-- The answer of a turn that handles an acknowledgement is the handler's. -/
theorem ends_ack {calls : List (TerminalCall × TerminalSessionActor)}
    {E : Except TerminalBrokerError Answer → TerminalSessionActor → Prop}
    (h : Does (ackActivation request arrival) s fun r => E (r.map .acknowledged))
    (hends : (turn (.message (.ackActivation request arrival)) s).Ends calls r s') : E r s' := by
  have hturn : Does (turn (.message (.ackActivation request arrival))) s E := by
    unfold Does
    simp only [turn, handleMessage, wp_bind, Calling.wp_attempt, wp_dropArrival,
      Calling.wp_ofExcept, wp_pure]
    refine h.wp (fun result s' h => ?_) fun e s' h => ?_
    · refine ⟨?_, by simp⟩
      rintro _ ⟨⟩
      exact h
    · refine ⟨by simp, ?_⟩
      rintro _ ⟨⟩
      exact h
  have hpost := (Wp.ends hturn hends).1
  cases r with
  | ok answer | error e => exact hpost

/-! ### What holds in every interleaving -/

variable {Ready : TerminalSessionActor → Prop}

theorem System.Reaches.own (h : System.Reaches Ready start sys) (hstart : start.board.inFlight = []) :
    ∀ ack ∈ sys.board.inFlight, ∀ key, ack.arrival.reservation = some key →
      key = .fromAck ack.request := by
  induction h with
  | start =>
    rw [hstart]
    exact fun ack hack => absurd hack not_mem_nil
  | @step sys sys' h hstep ih =>
    cases hstep with
    | moves hmvs =>
      cases hmvs with
      | classify request =>
        intro ack hack key hkey
        rcases mem_append.1 hack with hack | hack
        · exact ih ack hack key hkey
        · rw [mem_singleton.1 hack] at hkey ⊢
          rcases ControlPlane.classify_cases _ request with ⟨hnone, -⟩ | ⟨a, -, hsame, -, hin, -⟩
          · rw [hnone] at hkey
            cases hkey
          · rw [hin] at hkey
            cases hkey
            exact hsame
      | drop hack _ =>
        intro ack hmem
        refine ih ack ?_
        rw [hack]
        exact mem_append.2 ((mem_append.1 hmem).imp_right (mem_cons_of_mem _))
      | elapse _ => exact ih
    | take _ _ _ => exact ih
    | handle hack _ =>
      intro ack hmem
      refine ih ack ?_
      rw [hack]
      exact mem_append.2 ((mem_append.1 hmem).imp_right (mem_cons_of_mem _))
    | answer hans =>
      obtain ⟨hans⟩ := hans
      cases hans with
      | _ => exact ih

/-- Acknowledgements and deadlines are in order. -/
structure System.Linearized (sys : System) : Prop where
  /-- No rollback because of the deadline while an acknowledgement that came in time waits. -/
  kept : ∀ ack ∈ sys.board.inFlight, ∀ key, ack.arrival.reservation = some key →
    key = .fromAck ack.request ∧ key ∉ sys.board.timedOut
  /-- An acknowledgement that came in time for the activation that is still pending. -/
  inTime : ∀ r s, sys.actor = .done r s → ∀ ack ∈ sys.board.inFlight,
    ack.arrival.reservation.isSome → s.pendingKey = some (.fromAck ack.request) →
      ∀ calls answer s', (turn (.message (.ackActivation ack.request ack.arrival)) s).Ends calls
        answer s' → InTime s ack.request answer s'
  /-- After the deadline no acknowledgement is classified as in time. -/
  late : ∀ request, .fromAck request ∈ sys.board.elapsed →
    (sys.board.control.classifyActivationAck request).1.reservation = none
  /-- What is not in time does not commit. -/
  tooLate : ∀ r s, sys.actor = .done r s → ∀ ack ∈ sys.board.inFlight,
    ack.arrival.reservation = none → ∀ calls answer s',
      (turn (.message (.ackActivation ack.request ack.arrival)) s).Ends calls answer s' →
        TooLate s ack.request answer s'
  /-- No count goes below zero when a caller gives up. -/
  droppable : ∀ ack ∈ sys.board.inFlight, (ack.arrival.dropped sys.board.control).isSome
  /-- No count goes below zero when the actor has answered. -/
  releasable : ∀ key s next, sys.actor = .call (.releaseActivationAck key) s next →
    (sys.board.control.releaseActivationAck key).isSome
  /-- An activation whose deadline has passed is not forgotten. -/
  remembered : ∀ key, sys.actor.state.pendingKey = some key → key ∈ sys.board.elapsed →
    key ∉ sys.board.reserved →
      ∃ a, sys.board.control.activation = some a ∧ a.key = key ∧ a.timeoutDue = true

/-- At every point of a turn the board is in order, and it knows the pending activation or is about
to be told of it. -/
theorem System.Inv.linked (h : sys.Inv) : sys.board.Inv ∧
    ((∃ held, Linked held sys.actor.state sys.board) ∨
      ∀ key, sys.actor.state.pendingKey = some key → key ∉ sys.board.started) := by
  obtain ⟨actor, b⟩ := sys
  cases actor with
  | done r s =>
    have hlnk : Linked none s b := h
    exact ⟨hlnk.board, .inl ⟨none, hlnk⟩⟩
  | call op s next =>
    have hprom : Promise op s b := (h b .refl).1
    cases op with
    | startActivation key =>
      obtain ⟨hlse, hfrs, hpend⟩ := hprom
      refine ⟨hlse.board, .inr fun key' hkey' => ?_⟩
      have hsame : some key = some key' := hpend.symm.trans hkey'
      cases hsame
      exact hfrs
    | releaseActivationAck key =>
      have hlnk : Linked (some key) s b := hprom
      exact ⟨hlnk.board, .inl ⟨some key, hlnk⟩⟩
    | _ =>
      have hlnk : Linked b.held s b := hprom
      exact ⟨hlnk.board, .inl ⟨b.held, hlnk⟩⟩

/-- What the invariant says of an activation whose deadline has passed. -/
theorem Linked.timeoutDue {held : Option ActivationKey} (h : Linked held s b) {key : ActivationKey}
    (hpend : s.pendingKey = some key) (helps : key ∈ b.elapsed) (hnone : key ∉ b.reserved) :
    ∃ a, b.control.activation = some a ∧ a.key = key ∧ a.timeoutDue = true := by
  obtain ⟨a, ha, hkey, hprompt⟩ := h.link key hpend
  refine ⟨a, ha, hkey, hprompt ?_ ?_⟩
  · rw [h.board.passed a ha, hkey]
    exact helps
  · rw [h.board.counted a ha, hkey]
    exact count_eq_zero.2 hnone

theorem System.Inv.inOrder (h : sys.Inv)
    (hown : ∀ ack ∈ sys.board.inFlight, ∀ key, ack.arrival.reservation = some key →
      key = .fromAck ack.request) : sys.Linearized := by
  obtain ⟨hboard, hlnk⟩ := h.linked
  have hrsvd : ∀ ack ∈ sys.board.inFlight, ∀ key, ack.arrival.reservation = some key →
      key ∈ sys.board.reserved := fun ack hack key hkey =>
    mem_append.2 (.inr (mem_filterMap.2 ⟨ack, hack, hkey⟩))
  constructor
  case kept =>
    exact fun ack hack key hkey =>
      ⟨hown ack hack key hkey, (hboard.reserved key (hrsvd ack hack key hkey)).2⟩
  case inTime =>
    intro r s hdone ack hack hsome hpend calls answer s' hends
    obtain ⟨key, hkey⟩ := Option.isSome_iff_exists.1 hsome
    have hidle : Linked none s sys.board := by
      unfold System.Inv at h
      rw [hdone] at h
      exact h
    obtain ⟨hgen, hcompd⟩ := hidle.pending _ hpend
    exact ends_ack (does_ack_inTime hkey hpend hgen hcompd) hends
  case late =>
    intro request helps
    rcases sys.board.control.classify_cases request with ⟨hnone, -⟩ | ⟨a, ha, hkey, hearly, -, -⟩
    · exact hnone
    · have hlate := (hboard.passed a ha).2 (hkey ▸ helps)
      rw [hearly] at hlate
      cases hlate
  case tooLate =>
    intro r s _ ack _ hnone calls answer s' hends
    exact ends_ack (does_ack_tooLate _ hnone) hends
  case droppable =>
    intro ack hack
    unfold ActivationAckArrival.dropped
    cases hkey : ack.arrival.reservation with
    | none => rfl
    | some key => exact hboard.release_isSome (hrsvd ack hack key hkey)
  case releasable =>
    intro key s next hcall
    have hprom : Linked (some key) s sys.board := by
      unfold System.Inv at h
      rw [hcall] at h
      exact (h sys.board .refl).1
    refine hboard.release_isSome (mem_append.2 (.inl ?_))
    rw [hprom.holds]
    exact mem_singleton.2 rfl
  case remembered =>
    intro key hpend helps hnone
    rcases hlnk with ⟨held, hlnk⟩ | hfrs
    · exact hlnk.timeoutDue hpend helps hnone
    · exact absurd (hboard.known key helps) (hfrs key hpend)

/-- **Acknowledgements and deadlines are linearized.**  Whatever callers, timers and the actor do in
whichever order, as long as there are numbers left for activations: an acknowledgement that came in
time is not overtaken by the deadline, one that did not come in time does not commit, no count goes
below zero, and no activation whose deadline has passed is forgotten. -/
theorem System.Reaches.linearized {sessionId : String} {runtimeGeneration initialLeaseEpoch : Nat}
    {runtime : Option TerminalRuntimeHandles} {geometry : TerminalGeometry}
    {initialOutput : List UInt8} {sys : System}
    (h : System.Reaches (fun s => s.activationSequence < u64Max) (.new
      (.new sessionId runtimeGeneration initialLeaseEpoch runtime geometry initialOutput)) sys) :
    sys.Linearized :=
  (h.inv (linked_new sessionId runtimeGeneration initialLeaseEpoch runtime geometry
    initialOutput)).inOrder (h.own rfl)

/-! ### When the numbers run out -/

/-- The outside while callers and timers do nothing; it answers every call. -/
def quiet : Outside terminalInterface TerminalSessionActor Board where
  drift := Eq
  answers := fun op => Board.Answers op
  asked := fun op _ b => ∃ reply b', Board.Answers op b reply b'

theorem System.Reaches.finish {Q : Except TerminalBrokerError Answer → TerminalSessionActor → Board → Prop}
    {t : Thread terminalInterface TerminalSessionActor (Except TerminalBrokerError Answer)} :
    ∀ {b : Board}, t.Safe quiet Q b → System.Reaches Ready start ⟨t, b⟩ →
      ∃ r s b', System.Reaches Ready start ⟨.done r s, b'⟩ ∧ Q r s b' := by
  induction t with
  | done r s => exact fun hsafe h => ⟨r, s, _, h, hsafe⟩
  | call op s next ih =>
    intro b hsafe h
    obtain ⟨⟨reply, b', hans⟩, hrest⟩ := hsafe b rfl
    exact ih reply (hrest reply b' hans) (.step h (.answer hans))

variable {R : TerminalBrokerError → TerminalSessionActor → Board → Prop}

theorem wp_quiet (op : TerminalCall) {reply : op.Reply} {b' : Board}
    {Q : op.Reply → TerminalSessionActor → Board → Prop} (hans : Board.Answers op b reply b')
    (honly : ∀ reply' b'', Board.Answers op b reply' b'' → reply' = reply ∧ b'' = b') (hQ : Q reply s b') :
    Wp quiet (Calling.call (I := terminalInterface) op) Q R s b := by
  refine (Calling.wp_call (I := terminalInterface) op Q R s b).2 ?_
  rintro _ rfl
  refine ⟨⟨reply, b', hans⟩, fun reply' b'' hans' => ?_⟩
  obtain ⟨rfl, rfl⟩ := honly reply' b'' hans'
  exact hQ

variable {Q : Unit → TerminalSessionActor → Board → Prop}

theorem wp_quiet_start {key : ActivationKey}
    (hQ : Q () s { b with control := ⟨some ⟨key, 0, false, false⟩⟩, started := key :: b.started }) :
    Wp quiet (scheduleActivationTimeout key) Q R s b := by
  refine wp_quiet (TerminalCall.startActivation key) ⟨.startActivation b.control key⟩ ?_ hQ
  rintro _ _ ⟨⟨⟩⟩
  exact ⟨rfl, rfl⟩

theorem wp_quiet_clear {key : ActivationKey}
    (hQ : Q () s { b with control := b.control.clearActivation key }) :
    Wp quiet (cancelActivationTimeout key) Q R s b := by
  refine wp_quiet (TerminalCall.clearActivation key) ⟨.clearActivation b.control key⟩ ?_ hQ
  rintro _ _ ⟨⟨⟩⟩
  exact ⟨rfl, rfl⟩

/-- The key of the activation that the rival begins. -/
def rivalKey (n : Nat) : ActivationKey :=
  sampleKey (rival n) (min (n + 1) u64Max) (min (n + 1) u64Max)

/-- What the next activation leaves on the board. -/
def Board.afterRival (b : Board) (n : Nat) : Board :=
  { b with control := ⟨some ⟨rivalKey n, 0, false, false⟩⟩, started := rivalKey n :: b.started }

theorem Contested.key (h : Contested n s) :
    ActivationKey.fromPending ({ s with pendingActivation := none }.openActivation (rivalRequest n)
      s.pendingActivation).1.state = rivalKey n := by
  have hepo := h.opened.epoch
  simp only [openActivation, withSnapshot, emitEvent, updateRecord, advanceLeaseEpoch, takeOwner,
    ActivationKey.fromPending, h.generation, h.epoch, h.sequence, saturatingSucc_min]
  rfl

theorem Contested.wp_quiet_begin (h : Contested n s)
    (b : Board) : Wp quiet (turn (.message (.beginActivation (rivalRequest n))))
      (fun _ s' b' => Contested (n + 1) s' ∧ s'.pendingKey = some (rivalKey n) ∧ b' = b.afterRival n)
      (fun _ _ _ => False) s b := by
  have hopnd := h.opened
  have hkey := h.key
  have hpendingKey : ({ s with pendingActivation := none }.openActivation (rivalRequest n)
      s.pendingActivation).2.pendingKey = some (rivalKey n) := by
    unfold TerminalSessionActor.pendingKey
    rw [openActivation_pendingActivation, Option.map_some, hkey]
  refine h.wp_turn ?_
  simp only [startActivation, wp_bind, wp_get, wp_modify]
  cases hpend : s.pendingActivation with
  | none =>
    rw [hpend] at hopnd hkey hpendingKey
    simp only [wp_bind, wp_get, wp_modify, wp_pure, hkey]
    exact wp_quiet_start ⟨hopnd, hpendingKey, rfl⟩
  | some previous =>
    rw [hpend] at hopnd hkey hpendingKey
    simp only [wp_bind]
    refine wp_quiet_clear ?_
    simp only [wp_get, wp_modify, wp_pure, hkey]
    exact wp_quiet_start ⟨hopnd, hpendingKey, rfl⟩

/-- The next rival begins an activation while nobody else does anything. -/
theorem System.Reaches.rival (h : System.Reaches Ready start ⟨.done r s, b⟩) (hcont : Contested n s)
    (hrdy : Ready s) :
    ∃ r' s', System.Reaches Ready start ⟨.done r' s', b.afterRival n⟩ ∧ Contested (n + 1) s' ∧
      s'.pendingKey = some (rivalKey n) := by
  have htkn := System.Reaches.step h (.take (.message (.beginActivation (rivalRequest n)))
    (by simp) hrdy)
  obtain ⟨r', s', b', hrch, hpost⟩ := System.Reaches.finish (hcont.wp_quiet_begin b) htkn
  cases r' with
  | error e => exact hpost.elim
  | ok answer =>
    obtain ⟨hnext, hpend, rfl⟩ := hpost
    exact ⟨_, s', hrch, hnext, hpend⟩

theorem System.Reaches.play {Ready : TerminalSessionActor → Prop} {start : System} {b : Board}
    {turns : List Turn} (hacks : ∀ turn ∈ turns, turn.reservation = none ∧
      ∀ request arrival, turn ≠ .message (.ackActivation request arrival)) :
    ∀ {r : Except TerminalBrokerError Answer} {s : TerminalSessionActor},
      System.Reaches Ready start ⟨.done r s, b⟩ →
      (∀ handled ∈ play acceptAll turns s, handled.calls.isEmpty = true ∧ Ready handled.before) →
      ∃ r', System.Reaches Ready start ⟨.done r' (playState acceptAll turns s), b⟩ := by
  induction turns with
  | nil => exact fun h _ => ⟨_, h⟩
  | cons turn turns ih =>
    intro r s h hplay
    obtain ⟨hcalls, hrdy⟩ := hplay _ (mem_cons_self ..)
    have htkn := System.Reaches.step h
      (.take turn (hacks turn (mem_cons_self ..)).2 hrdy)
    rw [Thread.done_of_no_calls hcalls] at htkn
    exact ih (fun t ht => hacks t (mem_cons_of_mem _ ht)) htkn
      fun handled hmem => hplay handled (mem_cons_of_mem _ hmem)

theorem reaches_contestStart {Ready : TerminalSessionActor → Prop}
    (hrdy : ∀ s, s.activationSequence = 0 → Ready s) : ∃ r,
      System.Reaches Ready (.new (sampleActor 0))
        ⟨.done r contestStart, (System.new (sampleActor 0)).board⟩ := by
  have hqui : ∀ handled ∈ play acceptAll (subscribeTurn :: rivalTurns) (sampleActor 0),
      handled.calls.isEmpty = true ∧ handled.before.activationSequence = 0 := by
    decide
  refine System.Reaches.play ?_ .start fun handled hmem =>
    ⟨(hqui handled hmem).1, hrdy _ (hqui handled hmem).2⟩
  simp [subscribeTurn, rivalTurns, registerTurn, Turn.reservation]

theorem reaches_contested (n : Nat) : ∃ r s b,
    System.Reaches (fun _ => True) (.new (sampleActor 0)) ⟨.done r s, b⟩ ∧ Contested n s := by
  induction n with
  | zero =>
    obtain ⟨r, hrch⟩ := @reaches_contestStart (fun _ => True) fun _ _ => trivial
    exact ⟨r, _, _, hrch, contested_start⟩
  | succ n ih =>
    obtain ⟨r, s, b, hrch, hcont⟩ := ih
    obtain ⟨r', s', hrch', hcont', -⟩ := hrch.rival hcont trivial
    exact ⟨r', s', _, hrch', hcont'⟩

/-- The acknowledgement of the activation of a rival. -/
def rivalAck (n : Nat) : TerminalActivationAckRequest :=
  ⟨"s", rival n, 1, min (n + 1) u64Max, (rivalKey n).activationId⟩

/-- An activation that nobody acknowledges in time: its rollback is due. -/
theorem linearized_rival : ∃ sys, System.Reaches (fun s => s.activationSequence < u64Max)
    (.new (sampleActor 0)) sys ∧ sys.Linearized ∧ sys.actor.state.pendingKey = some (rivalKey 0) ∧
      ∃ a, sys.board.control.activation = some a ∧ a.key = rivalKey 0 ∧ a.timeoutDue = true := by
  have hrdy : ∀ s : TerminalSessionActor, s.activationSequence = 0 →
      s.activationSequence < u64Max := by
    intro s hs
    rw [hs]
    decide
  obtain ⟨r, hstart⟩ := reaches_contestStart hrdy
  obtain ⟨r', s, hbgn, -, hpend⟩ := hstart.rival contested_start
    (hrdy _ contested_start.sequence)
  have helps := System.Reaches.step hbgn (.moves (.elapse (mem_cons_self ..)))
  have hline := System.Reaches.linearized helps
  exact ⟨_, helps, hline, hpend, hline.remembered _ hpend
    (mem_cons_self ..) (by simp [Board.reserved, Board.afterRival, System.new])⟩

/-- **The last number does not tell activations apart.**  A presentation begins an activation under
the last number and its acknowledgement is on its way, another one takes over, and the first begins
again: the acknowledgement cannot be dropped any more. -/
theorem reservations_underflow : ∃ sys, System.Reaches (fun _ => True) (.new (sampleActor 0)) sys ∧
    ∃ ack ∈ sys.board.inFlight, ack.arrival.dropped sys.board.control = none := by
  obtain ⟨r, s, b, hrch, hcont⟩ := reaches_contested u64Max
  obtain ⟨r₁, s₁, hfst, hcont₁, -⟩ := hrch.rival hcont trivial
  have harri : ((b.afterRival u64Max).control.classifyActivationAck (rivalAck u64Max)).1 =
      .matchingBeforeDeadline (rivalKey u64Max) := by
    have hmatg : (b.afterRival u64Max).control.matching (.fromAck (rivalAck u64Max)) =
        some ⟨rivalKey u64Max, 0, false, false⟩ := ControlPlane.matching_eq_some.2 ⟨rfl, rfl⟩
    unfold ControlPlane.classifyActivationAck
    rw [hmatg]
    rfl
  have hclas := System.Reaches.step hfst (.moves (.classify _ (rivalAck u64Max)))
  obtain ⟨r₂, s₂, hsec, hcont₂, -⟩ := hclas.rival hcont₁ trivial
  obtain ⟨r₃, s₃, hthird, -, -⟩ := hsec.rival hcont₂ trivial
  refine ⟨_, hthird, ⟨rivalAck u64Max, .matchingBeforeDeadline (rivalKey u64Max)⟩, ?_, ?_⟩
  · refine mem_append.2 (.inr (mem_singleton.2 ?_))
    rw [harri]
  · -- the key of the third activation is that of the first
    have hsame : rivalKey (u64Max + 1 + 1) = rivalKey u64Max := by
      unfold rivalKey rival
      rw [Nat.add_assoc, Nat.add_mod_right, Nat.min_eq_right (by omega), Nat.min_eq_right (by omega)]
    have hmatg : (ControlPlane.mk (some ⟨rivalKey (u64Max + 1 + 1), 0, false, false⟩)).matching
        (rivalKey u64Max) = some ⟨rivalKey (u64Max + 1 + 1), 0, false, false⟩ :=
      ControlPlane.matching_eq_some.2 ⟨rfl, hsame⟩
    unfold ActivationAckArrival.dropped
    simp only [ActivationAckArrival.reservation, Board.afterRival,
      ControlPlane.releaseActivationAck, hmatg, if_true]

end Wardian.Terminal
