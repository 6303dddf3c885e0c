/-
Who may change the control plane, and what always holds of it.

Beside the actor there are callers that classify acknowledgements and drop them, and timers that say
that a deadline has passed.  The board is the control plane together with what these parties know:
the acknowledgements on their way, the one that the actor holds, the activations whose timer was
started or has fired, and those whose rollback the actor has taken up because of the timer.

Main results:

* `Linked.moves`, `Linked.drift` — the other parties keep the invariant;
* `wp_startActivation`, `wp_clearActivation`, `wp_takeDueSignal`, `wp_claimDue`,
  `wp_releaseReservation` — what the calls of the actor do to the board.
-/

import Wardian.Terminal.Reading

set_option autoImplicit false

namespace Wardian.Terminal

open Option
open List
open TerminalSessionActor
open Calling (Wp)

/-! ### The board -/

/-- The activation that an arrival has a reservation for. -/
def ActivationAckArrival.reservation : ActivationAckArrival → Option ActivationKey
  | .matchingBeforeDeadline key => some key
  | .matchingAfterDeadline => none
  | .nonMatching => none

/-- An acknowledgement and how it arrived. -/
structure ArrivedAck where
  request : TerminalActivationAckRequest
  arrival : ActivationAckArrival

/-- The control plane and what the parties around it know. -/
structure Board where
  control : ControlPlane
  /-- The acknowledgements that were classified and have not been handled or dropped. -/
  inFlight : List ArrivedAck
  /-- The reservation of the acknowledgement that the actor handles. -/
  held : Option ActivationKey
  /-- The activations whose timer was started. -/
  started : List ActivationKey
  /-- The activations whose deadline has passed. -/
  elapsed : List ActivationKey
  /-- The activations whose rollback the actor has taken up because their deadline had passed. -/
  timedOut : List ActivationKey

/-- The reservations that have not been given back. -/
def Board.reserved (b : Board) : List ActivationKey :=
  b.held.toList ++ b.inFlight.filterMap (·.arrival.reservation)

/-- Drop an arrival that is not handled any more. -/
def ActivationAckArrival.dropped (arrival : ActivationAckArrival) (control : ControlPlane) :
    Option ControlPlane :=
  match arrival.reservation with
  | some key => control.releaseActivationAck key
  | none => some control

/-- The steps of callers and timers.  An acknowledgement may be dropped at any time before the actor
takes it up, and a timer may fire late and more than once. -/
inductive Board.Moves : Board → Board → Prop where
  | classify (b : Board) (request : TerminalActivationAckRequest) :
      Moves b { b with
        control := (b.control.classifyActivationAck request).2
        inFlight := b.inFlight ++ [⟨request, (b.control.classifyActivationAck request).1⟩] }
  | drop {b : Board} {before after : List ArrivedAck} {ack : ArrivedAck} {control : ControlPlane}
      (hack : b.inFlight = before ++ ack :: after)
      (hctl : ack.arrival.dropped b.control = some control) :
      Moves b { b with control := control, inFlight := before ++ after }
  | elapse {b : Board} {key : ActivationKey} (hstrd : key ∈ b.started) :
      Moves b { b with
        control := b.control.activationDeadlineElapsed key
        elapsed := key :: b.elapsed }

/-- What an answer to the actor leaves on the board. -/
def Board.answered (b : Board) (control : ControlPlane) : (op : TerminalCall) → op.Reply → Board
  | .startActivation key, _ => { b with control := control, started := key :: b.started }
  | .releaseActivationAck _, _ => { b with control := control, held := none }
  | .takeDue, due => { b with control := control, timedOut := toList due ++ b.timedOut }
  | .claimUnreservedActivationTimeout key, (claimed : Bool) =>
    { b with control := control, timedOut := if claimed then key :: b.timedOut else b.timedOut }
  | .clearActivation _, _ | .clear, _ | .resize _, _ | .send _, _ | .receipt, _ | .acquireLease, _
  | .retainLease, _ | .releaseLease, _ => { b with control := control }

inductive Board.Answers (op : TerminalCall) (b : Board) (reply : op.Reply) : Board → Prop where
  | mk {control : ControlPlane} (h : ControlPlane.Answers op b.control reply control) :
      Answers op b reply (b.answered control op reply)

/-! ### The control plane -/

variable {control : ControlPlane} {a : ActivationControlState}

/-- The activation in progress that is named is the one in progress. -/
theorem ControlPlane.matching_eq_some {key : ActivationKey} :
    control.matching key = some a ↔ control.activation = some a ∧ a.key = key := by
  unfold matching
  rw [filter_eq_some_iff]
  simp

theorem ControlPlane.matching_eq_none {key : ActivationKey} :
    control.matching key = none ↔ ∀ a, control.activation = some a → a.key ≠ key := by
  unfold matching
  rw [filter_eq_none_iff]
  simp

/-- A rollback is due only when the deadline has passed and nothing waits. -/
def ActivationControlState.DueOnly (a : ActivationControlState) : Prop :=
  a.timeoutDue = true → a.deadlineElapsed = true ∧ a.ackReservations = 0

/-- When the deadline has passed and nothing waits, the rollback is due. -/
def ActivationControlState.Prompt (a : ActivationControlState) : Prop :=
  a.deadlineElapsed = true → a.ackReservations = 0 → a.timeoutDue = true

/-- Counts are right, a rollback is due only when nothing waits, and no acknowledgement that came in
time belongs to an activation that has timed out. -/
structure Board.Inv (b : Board) : Prop where
  due : ∀ a, b.control.activation = some a → a.DueOnly
  counted : ∀ a, b.control.activation = some a → a.ackReservations = b.reserved.count a.key
  current : ∀ a, b.control.activation = some a → a.key ∈ b.started
  passed : ∀ a, b.control.activation = some a → (a.deadlineElapsed = true ↔ a.key ∈ b.elapsed)
  reserved : ∀ key ∈ b.reserved, key ∈ b.started ∧ key ∉ b.timedOut
  known : ∀ key ∈ b.elapsed, key ∈ b.started
  late : ∀ key ∈ b.timedOut, key ∈ b.elapsed

/-- The key of the pending activation. -/
def TerminalSessionActor.pendingKey (s : TerminalSessionActor) : Option ActivationKey :=
  s.pendingActivation.map fun pending => .fromPending pending.state

/-- The activation has the number `n`, which its identifier ends with. -/
def ActivationKey.IsNumber (key : ActivationKey) (n : Nat) : Prop :=
  key.activationId = s!"terminal-activation-{key.runtimeGeneration}-{key.leaseEpoch}-{n}"

/-- The board is in order, the actor holds the reservation `held`, and the activations so far have
smaller numbers than those to come. -/
structure Loose (held : Option ActivationKey) (s : TerminalSessionActor) (b : Board) : Prop where
  board : b.Inv
  holds : b.held = held
  numbered : ∀ key ∈ b.started, ∃ n ≤ s.activationSequence, key.IsNumber n

/-- The board knows the activation that the actor has pending, and its rollback is due as soon as it
has to be.  While an activation is pending no acknowledgement is remembered. -/
structure Linked (held : Option ActivationKey) (s : TerminalSessionActor) (b : Board) : Prop
    extends Loose held s b where
  link : ∀ key, s.pendingKey = some key →
    ∃ a, b.control.activation = some a ∧ a.key = key ∧ a.Prompt
  pending : ∀ key, s.pendingKey = some key →
    key.runtimeGeneration = s.runtimeGeneration ∧ s.completedActivation = none

variable {held : Option ActivationKey} {s : TerminalSessionActor} {b : Board}

theorem Loose.linked (h : Loose held s b) (hnone : s.pendingKey = none) : Linked held s b :=
  ⟨h, fun key hkey => (by rw [hnone] at hkey; cases hkey),
    fun key hkey => (by rw [hnone] at hkey; cases hkey)⟩

theorem Linked.own (h : Linked held s b) : Linked b.held s b := by
  rw [h.holds]
  exact h

theorem Loose.congr {held : Option ActivationKey} {s s' : TerminalSessionActor} {b : Board}
    (h : Loose held s b) (hseq : s'.activationSequence = s.activationSequence) : Loose held s' b :=
  ⟨h.board, h.holds, fun key hkey => hseq ▸ h.numbered key hkey⟩

/-! ### The steps of callers and timers -/

/-- What a step of a caller or a timer, or the end of an acknowledgement, does to the activation in
progress. -/
inductive Touched : ActivationControlState → ActivationControlState → Prop where
  | same (a : ActivationControlState) : Touched a a
  | reserved {a : ActivationControlState} (hearly : a.deadlineElapsed = false) :
      Touched a { a with ackReservations := a.ackReservations + 1 }
  | released {a : ActivationControlState} (hsome : a.ackReservations ≠ 0) :
      Touched a { a with
        ackReservations := a.ackReservations - 1
        timeoutDue := a.timeoutDue || (a.ackReservations - 1 == 0 && a.deadlineElapsed) }
  | elapsed (a : ActivationControlState) :
      Touched a { a with
        deadlineElapsed := true
        timeoutDue := a.timeoutDue || a.ackReservations == 0 }

variable {a' : ActivationControlState}

theorem Touched.key (h : Touched a a') : a'.key = a.key := by
  cases h <;> rfl

theorem Touched.dueOnly (h : Touched a a') (ha : a.DueOnly) : a'.DueOnly := by
  cases h with
  | same => exact ha
  | reserved hearly =>
    intro hdue
    have hlate := (ha hdue).1
    rw [hearly] at hlate
    cases hlate
  | released hsome =>
    intro hdue
    simp only [Bool.or_eq_true, Bool.and_eq_true, beq_iff_eq] at hdue
    rcases hdue with hdue | ⟨hnone, hlate⟩
    · exact absurd (ha hdue).2 hsome
    · exact ⟨hlate, hnone⟩
  | elapsed =>
    intro hdue
    simp only [Bool.or_eq_true, beq_iff_eq] at hdue
    rcases hdue with hdue | hnone
    · exact ⟨rfl, (ha hdue).2⟩
    · exact ⟨rfl, hnone⟩

theorem Touched.prompt (h : Touched a a') (ha : a.Prompt) : a'.Prompt := by
  cases h with
  | same => exact ha
  | reserved hearly =>
    intro hlate
    rw [hearly] at hlate
    cases hlate
  | released hsome =>
    intro hlate hnone
    have hlate' : a.deadlineElapsed = true := hlate
    have hnone' : a.ackReservations - 1 = 0 := hnone
    simp [hlate', hnone']
  | elapsed =>
    intro _ hnone
    have hnone' : a.ackReservations = 0 := hnone
    simp [hnone']

/-- Two control planes with the same activation, which a step may have touched. -/
inductive ControlPlane.Touches (control control' : ControlPlane) : Prop where
  | nothing (hbef : control.activation = none) (haft : control'.activation = none)
  | activation {a a' : ActivationControlState} (hbef : control.activation = some a)
      (haft : control'.activation = some a') (htouc : Touched a a')

namespace ControlPlane

theorem Touches.refl (control : ControlPlane) : control.Touches control := by
  cases h : control.activation with
  | none => exact .nothing h h
  | some a => exact .activation h h (.same a)

theorem classify_cases (control : ControlPlane) (request : TerminalActivationAckRequest) :
    ((control.classifyActivationAck request).1.reservation = none ∧
      (control.classifyActivationAck request).2 = control) ∨
    ∃ a, control.activation = some a ∧ a.key = .fromAck request ∧ a.deadlineElapsed = false ∧
      (control.classifyActivationAck request).1 = .matchingBeforeDeadline a.key ∧
      (control.classifyActivationAck request).2 =
        ⟨some { a with ackReservations := a.ackReservations + 1 }⟩ := by
  unfold classifyActivationAck
  cases hmatg : control.matching (.fromAck request) with
  | none => exact .inl ⟨rfl, rfl⟩
  | some a =>
    obtain ⟨hactn, hkey⟩ := matching_eq_some.1 hmatg
    cases hlate : a.deadlineElapsed with
    | true => exact .inl (by simp [hlate, ActivationAckArrival.reservation])
    | false =>
      refine .inr ⟨a, hactn, hkey, hlate, ?_⟩
      simp [hlate, hkey]

theorem release_cases (control : ControlPlane) (key : ActivationKey) :
    ((∀ a, control.activation = some a → a.key ≠ key) ∧
      control.releaseActivationAck key = some control) ∨
    ∃ a, control.activation = some a ∧ a.key = key ∧
      (a.ackReservations = 0 ∧ control.releaseActivationAck key = none ∨
        a.ackReservations ≠ 0 ∧ control.releaseActivationAck key = some ⟨some { a with
          ackReservations := a.ackReservations - 1
          timeoutDue := a.timeoutDue || (a.ackReservations - 1 == 0 && a.deadlineElapsed) }⟩) := by
  unfold releaseActivationAck
  cases hmatg : control.matching key with
  | none => exact .inl ⟨matching_eq_none.1 hmatg, rfl⟩
  | some a =>
    obtain ⟨hactn, hkey⟩ := matching_eq_some.1 hmatg
    refine .inr ⟨a, hactn, hkey, ?_⟩
    by_cases hnone : a.ackReservations = 0
    · exact .inl ⟨hnone, by simp [hnone]⟩
    · exact .inr ⟨hnone, by simp [hnone]⟩

theorem elapse_cases (control : ControlPlane) (key : ActivationKey) :
    ((∀ a, control.activation = some a → a.key ≠ key) ∧
      control.activationDeadlineElapsed key = control) ∨
    ∃ a, control.activation = some a ∧ a.key = key ∧
      control.activationDeadlineElapsed key = ⟨some { a with
        deadlineElapsed := true
        timeoutDue := a.timeoutDue || a.ackReservations == 0 }⟩ := by
  unfold activationDeadlineElapsed
  cases hmatg : control.matching key with
  | none => exact .inl ⟨matching_eq_none.1 hmatg, rfl⟩
  | some a =>
    obtain ⟨hactn, hkey⟩ := matching_eq_some.1 hmatg
    exact .inr ⟨a, hactn, hkey, rfl⟩

end ControlPlane

variable {held' : Option ActivationKey} {b' : Board}

/-- A step that touches the activation in progress leaves the actor linked, once the counts and the
clocks are in order again. -/
theorem Linked.touched (h : Linked held s b) (htouch : b.control.Touches b'.control)
    (hhld : b'.held = held') (hstrd : b'.started = b.started)
    (hcoun : ∀ a, b'.control.activation = some a → a.ackReservations = b'.reserved.count a.key)
    (hpsd : ∀ a, b'.control.activation = some a → (a.deadlineElapsed = true ↔ a.key ∈ b'.elapsed))
    (hrsvd : ∀ key ∈ b'.reserved, key ∈ b'.started ∧ key ∉ b'.timedOut)
    (hkn : ∀ key ∈ b'.elapsed, key ∈ b'.started) (hlate : ∀ key ∈ b'.timedOut, key ∈ b'.elapsed) :
    Linked held' s b' := by
  have hdue : ∀ a, b'.control.activation = some a → a.DueOnly ∧ a.key ∈ b'.started := by
    intro a ha
    cases htouch with
    | nothing hbef haft =>
      rw [haft] at ha
      cases ha
    | activation hbef haft htouc =>
      rw [haft] at ha
      cases ha
      rw [hstrd, htouc.key]
      exact ⟨htouc.dueOnly (h.board.due _ hbef), h.board.current _ hbef⟩
  refine ⟨⟨⟨fun a ha => (hdue a ha).1, hcoun, fun a ha => (hdue a ha).2, hpsd, hrsvd, hkn,
    hlate⟩, hhld, ?_⟩, ?_, h.pending⟩
  · rw [hstrd]
    exact h.numbered
  · intro key hkey
    obtain ⟨a, ha, hakey, hprompt⟩ := h.link key hkey
    cases htouch with
    | nothing hbef haft =>
      rw [hbef] at ha
      cases ha
    | activation hbef haft htouc =>
      rw [hbef] at ha
      cases ha
      exact ⟨_, haft, htouc.key.trans hakey, htouc.prompt hprompt⟩

theorem Linked.classify (h : Linked held s b) (request : TerminalActivationAckRequest) :
    Linked held s { b with
      control := (b.control.classifyActivationAck request).2
      inFlight := b.inFlight ++ [⟨request, (b.control.classifyActivationAck request).1⟩] } := by
  rcases b.control.classify_cases request with ⟨hnone, hsame⟩ | ⟨a, ha, hkey, hearly, harri, haft⟩
  · have hrsvd : Board.reserved { b with
        control := (b.control.classifyActivationAck request).2
        inFlight := b.inFlight ++ [⟨request, (b.control.classifyActivationAck request).1⟩] } =
          b.reserved := by
      simp [Board.reserved, hnone]
    refine h.touched ?_ h.holds rfl ?_ ?_ ?_ h.board.known h.board.late
    · simp only [hsame]
      exact .refl _
    · rw [hrsvd]
      simp only [hsame]
      exact h.board.counted
    · simp only [hsame]
      exact h.board.passed
    · rw [hrsvd]
      exact h.board.reserved
  · -- the acknowledgement is in time for the activation in progress
    have hrsvd : Board.reserved { b with
        control := (b.control.classifyActivationAck request).2
        inFlight := b.inFlight ++ [⟨request, (b.control.classifyActivationAck request).1⟩] } =
          b.reserved ++ [a.key] := by
      simp [Board.reserved, harri, ActivationAckArrival.reservation]
    refine h.touched ?_ h.holds rfl ?_ ?_ ?_ h.board.known h.board.late
    · exact .activation ha (by rw [haft]) (.reserved hearly)
    · rw [hrsvd]
      simp only [haft]
      rintro _ ⟨⟩
      rw [count_append, ← h.board.counted a ha]
      simp
    · simp only [haft]
      rintro _ ⟨⟩
      exact h.board.passed a ha
    · rw [hrsvd]
      intro key hmem
      rcases mem_append.1 hmem with hmem | hmem
      · exact h.board.reserved key hmem
      · rw [mem_singleton.1 hmem]
        refine ⟨h.board.current a ha, fun htimedOut => ?_⟩
        have hlate := (h.board.passed a ha).2 (h.board.late _ htimedOut)
        rw [hearly] at hlate
        cases hlate

/-- **A count never goes below zero**: whoever has a reservation can give it back. -/
theorem Board.Inv.release_isSome (h : b.Inv) {key : ActivationKey}
    (hrsvd : key ∈ b.reserved) : (b.control.releaseActivationAck key).isSome = true := by
  rcases b.control.release_cases key with ⟨-, hsame⟩ | ⟨a, ha, hkey, ⟨hnone, -⟩ | ⟨-, hreld⟩⟩
  · rw [hsame]
    rfl
  · -- the count is the number of reservations, and there is one
    have hcoun := h.counted a ha
    have hpos := count_pos_iff.2 (hkey ▸ hrsvd)
    omega
  · rw [hreld]
    rfl

theorem Linked.release (h : Linked held s b) {key : ActivationKey}
    (hctl : b.control.releaseActivationAck key = some b'.control)
    (hcnt : ∀ k, b.reserved.count k = b'.reserved.count k + if key = k then 1 else 0)
    (hhld : b'.held = held') (hstrd : b'.started = b.started) (helps : b'.elapsed = b.elapsed)
    (htimedOut : b'.timedOut = b.timedOut) : Linked held' s b' := by
  have hrsvd : ∀ k ∈ b'.reserved, k ∈ b'.started ∧ k ∉ b'.timedOut := by
    intro k hk
    have hpos := count_pos_iff.2 hk
    have hbef := hcnt k
    rw [hstrd, htimedOut]
    exact h.board.reserved k (count_pos_iff.1 (by omega))
  have hkn : ∀ k ∈ b'.elapsed, k ∈ b'.started := by
    rw [hstrd, helps]
    exact h.board.known
  have hlate : ∀ k ∈ b'.timedOut, k ∈ b'.elapsed := by
    rw [htimedOut, helps]
    exact h.board.late
  rcases b.control.release_cases key with ⟨hoth, hsame⟩ | ⟨a, ha, hkey, ⟨-, hnone⟩ | ⟨hsome, hreld⟩⟩
  · -- the reservation belongs to an activation that is over
    rw [hsame] at hctl
    have hctl' : b'.control = b.control := (Option.some.inj hctl).symm
    refine h.touched (hctl' ▸ .refl _) hhld hstrd ?_ ?_ hrsvd hkn hlate
    · intro a ha
      rw [hctl'] at ha
      have hbef := hcnt a.key
      rw [if_neg (fun heq => hoth a ha heq.symm)] at hbef
      rw [h.board.counted a ha, hbef, Nat.add_zero]
    · intro a ha
      rw [hctl'] at ha
      rw [helps]
      exact h.board.passed a ha
  · rw [hnone] at hctl
    cases hctl
  · rw [hreld] at hctl
    have hctl' := (Option.some.inj hctl).symm
    have haft : b'.control.activation = some _ := congrArg ControlPlane.activation hctl'
    refine h.touched (.activation ha haft (.released hsome)) hhld hstrd ?_ ?_ hrsvd hkn
      hlate
    · intro a' ha'
      rw [haft] at ha'
      cases ha'
      have hbef := hcnt a.key
      rw [if_pos hkey.symm, ← h.board.counted a ha] at hbef
      change a.ackReservations - 1 = b'.reserved.count a.key
      omega
    · intro a' ha'
      rw [haft] at ha'
      cases ha'
      rw [helps]
      exact h.board.passed a ha

/-- An acknowledgement that nobody waits for any more is dropped. -/
theorem Linked.drop {held : Option ActivationKey} {s : TerminalSessionActor} {b : Board} (h : Linked held s b)
    {before after : List ArrivedAck} {ack : ArrivedAck} {control : ControlPlane}
    (hack : b.inFlight = before ++ ack :: after) (hctl : ack.arrival.dropped b.control = some control) :
    Linked held s { b with control := control, inFlight := before ++ after } := by
  have hrsvd : ∀ k, b.reserved.count k =
      (Board.reserved { b with control := control, inFlight := before ++ after }).count k +
        ack.arrival.reservation.toList.count k := by
    intro k
    unfold Board.reserved
    rw [hack]
    cases hrese : ack.arrival.reservation with
    | none => simp [hrese]
    | some key =>
      simp only [filterMap_append, filterMap_cons, hrese, count_append,
        toList_some, count_cons, count_nil]
      omega
  unfold ActivationAckArrival.dropped at hctl
  cases hrese : ack.arrival.reservation with
  | none =>
    rw [hrese] at hctl hrsvd
    cases hctl
    have hsame : ∀ k, b.reserved.count k =
        (Board.reserved { b with inFlight := before ++ after }).count k := fun k => hrsvd k
    refine h.touched (.refl _) h.holds rfl ?_ h.board.passed ?_ h.board.known h.board.late
    · intro a ha
      exact (h.board.counted a ha).trans (hsame a.key)
    · intro k hk
      have hpos := count_pos_iff.2 hk
      exact h.board.reserved k (count_pos_iff.1 (hsame k ▸ hpos))
  | some key =>
    rw [hrese] at hctl hrsvd
    refine h.release hctl (fun k => ?_) h.holds rfl rfl rfl
    rw [hrsvd k]
    simp [count_cons]

theorem Linked.elapse (h : Linked held s b) {key : ActivationKey} (hstrd : key ∈ b.started) :
    Linked held s { b with
      control := b.control.activationDeadlineElapsed key
      elapsed := key :: b.elapsed } := by
  have hkn : ∀ k ∈ key :: b.elapsed, k ∈ b.started := by
    intro k hk
    rcases mem_cons.1 hk with rfl | hk
    · exact hstrd
    · exact h.board.known k hk
  have hlate : ∀ k ∈ b.timedOut, k ∈ key :: b.elapsed :=
    fun k hk => mem_cons_of_mem _ (h.board.late k hk)
  rcases b.control.elapse_cases key with ⟨hoth, hsame⟩ | ⟨a, ha, hkey, haft⟩
  · refine h.touched ?_ h.holds rfl ?_ ?_ h.board.reserved hkn hlate
    · simp only [hsame]
      exact .refl _
    · simp only [hsame]
      exact h.board.counted
    · simp only [hsame]
      intro a ha
      rw [h.board.passed a ha, mem_cons]
      exact ⟨.inr, fun hmem => hmem.resolve_left (hoth a ha)⟩
  · refine h.touched (.activation ha (by rw [haft]) (.elapsed a)) h.holds rfl ?_ ?_ h.board.reserved
      hkn hlate
    · simp only [haft]
      rintro _ ⟨⟩
      exact h.board.counted a ha
    · simp only [haft]
      rintro _ ⟨⟩
      simp [hkey]

/-- **Callers and timers keep the actor linked to the board.** -/
theorem Linked.moves (h : Linked held s b) (hmvs : b.Moves b') : Linked held s b' := by
  cases hmvs with
  | classify request => exact h.classify request
  | drop hack hctl => exact h.drop hack hctl
  | elapse hstrd => exact h.elapse hstrd

theorem Linked.drift
    (h : Linked held s b) (hdrf : Relation.ReflTransGen Board.Moves b b') : Linked held s b' := by
  induction hdrf with
  | refl => exact h
  | tail _ hmvs ih => exact ih.moves hmvs

/-! ### The outside of the actor -/

/-- The calls that the native runtime and the conversation lease answer. -/
def TerminalCall.isNative : TerminalCall → Bool
  | .resize _ | .send _ | .receipt | .acquireLease | .retainLease | .releaseLease => true
  | .startActivation _ | .clearActivation _ | .releaseActivationAck _ | .takeDue
  | .claimUnreservedActivationTimeout _ | .clear => false

/-- What the board is owed when the actor makes a call: the actor is linked to it, and where it is
not, it is about to start the timer of a new activation. -/
def Promise : TerminalCall → TerminalSessionActor → Board → Prop
  | .startActivation key, s, b => Loose b.held s b ∧ key ∉ b.started ∧ s.pendingKey = some key
  | .releaseActivationAck key, s, b => Linked (some key) s b
  | _, s, b => Linked b.held s b

/-- The outside of the actor: callers and timers take steps while it waits. -/
def deadline : Outside terminalInterface TerminalSessionActor Board where
  drift := Relation.ReflTransGen Board.Moves
  answers := fun op => Board.Answers op
  asked := Promise

theorem Board.Moves.frame (h : b.Moves b') :
    b'.held = b.held ∧ b'.started = b.started ∧ b'.timedOut = b.timedOut := by
  cases h <;> exact ⟨rfl, rfl, rfl⟩

theorem frame_of_drift (h : Relation.ReflTransGen Board.Moves b b') :
    b'.held = b.held ∧ b'.started = b.started ∧ b'.timedOut = b.timedOut := by
  induction h with
  | refl => exact ⟨rfl, rfl, rfl⟩
  | tail _ hmvs ih =>
    obtain ⟨hheld, hstrd, htimedOut⟩ := hmvs.frame
    exact ⟨hheld.trans ih.1, hstrd.trans ih.2.1, htimedOut.trans ih.2.2⟩

/-- Without the pending activation every board in order is linked. -/
theorem Loose.drift
    (h : Loose held s b) (hdrf : Relation.ReflTransGen Board.Moves b b') : Loose held s b' := by
  have hlnk : Linked held { s with pendingActivation := none } b :=
    Loose.linked (h.congr rfl) rfl
  have hltr := (hlnk.drift hdrf).toLoose
  exact hltr.congr rfl

theorem Loose.clear (h : Loose held s b) : Loose held s { b with control := ⟨none⟩ } := by
  refine ⟨⟨?_, ?_, ?_, ?_, h.board.reserved, h.board.known, h.board.late⟩, h.holds, h.numbered⟩
  · rintro a ⟨⟩
  · rintro a ⟨⟩
  · rintro a ⟨⟩
  · rintro a ⟨⟩

theorem Linked.takeUp (h : Linked held s b) (ha : b.control.activation = some a)
    (hdue : a.timeoutDue = true) :
    Loose held s { b with
      control := ⟨some { a with timeoutDue := false }⟩
      timedOut := a.key :: b.timedOut } ∧ (s.pendingKey = none ∨ s.pendingKey = some a.key) := by
  obtain ⟨hlate, hnone⟩ := h.board.due a ha hdue
  have helps := (h.board.passed a ha).1 hlate
  refine ⟨⟨⟨?_, ?_, ?_, ?_, ?_, h.board.known, ?_⟩, h.holds, h.numbered⟩, ?_⟩
  · rintro _ ⟨⟩ hdue'
    cases hdue'
  · rintro _ ⟨⟩
    exact h.board.counted a ha
  · rintro _ ⟨⟩
    exact h.board.current a ha
  · rintro _ ⟨⟩
    exact h.board.passed a ha
  · -- nothing waits for the activation that times out
    intro key hkey
    obtain ⟨hstrd, hnot⟩ := h.board.reserved key hkey
    refine ⟨hstrd, ?_⟩
    rintro hmem
    rcases mem_cons.1 hmem with rfl | hmem
    · have hcnt := h.board.counted a ha
      have hpos := count_pos_iff.2 hkey
      change 0 < b.reserved.count a.key at hpos
      omega
    · exact hnot hmem
  · intro key hkey
    rcases mem_cons.1 hkey with rfl | hkey
    · exact helps
    · exact h.board.late key hkey
  · cases hpend : s.pendingKey with
    | none => exact .inl rfl
    | some key =>
      obtain ⟨a', ha', hkey, -⟩ := h.link key hpend
      rw [ha] at ha'
      cases ha'
      exact .inr (congrArg some hkey.symm)

section Calls

variable {held : Option ActivationKey} {s : TerminalSessionActor} {b : Board}
  {R : TerminalBrokerError → TerminalSessionActor → Board → Prop}

/-- A call, after whatever callers and timers do before it is answered. -/
theorem wp_deadline (op : TerminalCall) {Q : op.Reply → TerminalSessionActor → Board → Prop}
    (h : ∀ b₁, Relation.ReflTransGen Board.Moves b b₁ → Promise op s b₁ ∧
      ∀ reply control, ControlPlane.Answers op b₁.control reply control →
        Q reply s (b₁.answered control op reply)) :
    Wp deadline (Calling.call (I := terminalInterface) op) Q R s b := by
  refine (Calling.wp_call (I := terminalInterface) op Q R s b).2 fun b₁ hdrf => ?_
  obtain ⟨hprom, hanss⟩ := h b₁ hdrf
  refine ⟨hprom, ?_⟩
  rintro reply _ ⟨hans⟩
  exact hanss reply _ hans

variable {Q : Unit → TerminalSessionActor → Board → Prop}

theorem wp_startActivation {key : ActivationKey} (h : Loose held s b) (hfrs : key ∉ b.started)
    (hpend : s.pendingKey = some key) (hnum : ∃ n ≤ s.activationSequence, key.IsNumber n)
    (hkept : key.runtimeGeneration = s.runtimeGeneration ∧ s.completedActivation = none)
    (hQ : ∀ b', Linked held s b' → Q () s b') :
    Wp deadline (scheduleActivationTimeout key) Q R s b := by
  refine wp_deadline (.startActivation key) fun b₁ hdrf => ?_
  have h₁ := h.drift hdrf
  rw [← (frame_of_drift hdrf).2.1] at hfrs
  refine ⟨⟨h₁.holds ▸ h₁, hfrs, hpend⟩, ?_⟩
  rintro reply control ⟨⟩
  refine hQ _ ⟨⟨⟨?_, ?_, ?_, ?_, ?_, ?_, h₁.board.late⟩, h₁.holds, ?_⟩, ?_,
    fun k hk => ?_⟩
  · rintro a ⟨⟩ hdue
    cases hdue
  · rintro a ⟨⟩
    have hnone : key ∉ b₁.reserved := fun hmem => hfrs (h₁.board.reserved key hmem).1
    exact (count_eq_zero.2 hnone).symm
  · rintro a ⟨⟩
    exact mem_cons_self ..
  · rintro a ⟨⟩
    have hnone : key ∉ b₁.elapsed := fun hmem => hfrs (h₁.board.known key hmem)
    exact ⟨fun hlate => (by cases hlate), fun hmem => absurd hmem hnone⟩
  · intro k hk
    obtain ⟨hstrd, hnot⟩ := h₁.board.reserved k hk
    exact ⟨mem_cons_of_mem _ hstrd, hnot⟩
  · exact fun k hk => mem_cons_of_mem _ (h₁.board.known k hk)
  · intro k hk
    rcases mem_cons.1 hk with rfl | hk
    · exact hnum
    · exact h₁.numbered k hk
  · intro k hk
    rw [hpend] at hk
    cases hk
    refine ⟨_, rfl, rfl, fun hlate => ?_⟩
    cases hlate
  · rw [hpend] at hk
    cases hk
    exact hkept

/-- The activation is taken off the board, or another one is in progress. -/
theorem wp_clearActivation {key : ActivationKey} (h : Linked held s b)
    (hQ : ∀ b', Loose held s b' → Q () s b') : Wp deadline (cancelActivationTimeout key) Q R s b := by
  refine wp_deadline (.clearActivation key) fun b₁ hdrf => ?_
  have h₁ := h.drift hdrf
  refine ⟨h₁.own, ?_⟩
  rintro reply control ⟨⟩
  refine hQ _ ?_
  change Loose held s { b₁ with control := b₁.control.clearActivation key }
  unfold ControlPlane.clearActivation
  split
  · exact h₁.toLoose.clear
  · exact h₁.toLoose

theorem wp_clearAll (h : Linked held s b)
    (hQ : ∀ b', Loose held s b' → Q () s b') : Wp deadline clearControl Q R s b := by
  refine wp_deadline .clear fun b₁ hdrf => ?_
  have h₁ := h.drift hdrf
  refine ⟨h₁.own, ?_⟩
  rintro reply control ⟨⟩
  exact hQ _ h₁.toLoose.clear

theorem wp_takeDueSignal {Q : Option ActivationKey → TerminalSessionActor → Board → Prop}
    (h : Linked held s b) (hnone : ∀ b', Linked held s b' → Q none s b')
    (hsome : ∀ key b', Loose held s b' → s.pendingKey = none ∨ s.pendingKey = some key → Q (some key) s b') :
    Wp deadline takeDue Q R s b := by
  refine wp_deadline .takeDue fun b₁ hdrf => ?_
  have h₁ := h.drift hdrf
  refine ⟨h₁.own, ?_⟩
  rintro reply control ⟨⟩
  cases hactn : b₁.control.activation with
  | none =>
    have hdue : b₁.control.takeDue = (none, b₁.control) := by
      simp [ControlPlane.takeDue, hactn]
    rw [hdue]
    exact hnone _ h₁
  | some a =>
    cases hsig : a.timeoutDue with
    | false =>
      have hdue : b₁.control.takeDue = (none, b₁.control) := by
        simp [ControlPlane.takeDue, hactn, hsig]
      rw [hdue]
      exact hnone _ h₁
    | true =>
      have hdue : b₁.control.takeDue =
          (some a.key, ⟨some { a with timeoutDue := false }⟩) := by
        simp [ControlPlane.takeDue, hactn, hsig]
      rw [hdue]
      obtain ⟨hlse, hpend⟩ := h₁.takeUp hactn hsig
      exact hsome a.key _ hlse hpend

/-- A late acknowledgement looks for the rollback of its activation. -/
theorem wp_claimDue {key : ActivationKey} {Q : Bool → TerminalSessionActor → Board → Prop}
    (h : Linked held s b) (hfls : ∀ b', Linked held s b' → Q false s b')
    (htrue : ∀ b', Loose held s b' → s.pendingKey = none ∨ s.pendingKey = some key → Q true s b') :
    Wp deadline (claimTimeout key) Q R s b := by
  refine wp_deadline (.claimUnreservedActivationTimeout key) fun b₁ hdrf => ?_
  have h₁ := h.drift hdrf
  refine ⟨h₁.own, ?_⟩
  rintro reply control ⟨⟩
  cases hmatg : b₁.control.matching key with
  | none =>
    have hclm : b₁.control.claimUnreservedActivationTimeout key = (false, b₁.control) := by
      simp [ControlPlane.claimUnreservedActivationTimeout, hmatg]
    rw [hclm]
    exact hfls _ h₁
  | some a =>
    obtain ⟨hactn, rfl⟩ := ControlPlane.matching_eq_some.1 hmatg
    by_cases hsig : (!a.deadlineElapsed || a.ackReservations != 0 || !a.timeoutDue) = true
    · have hclm : b₁.control.claimUnreservedActivationTimeout a.key = (false, b₁.control) := by
        simp only [ControlPlane.claimUnreservedActivationTimeout, hmatg, if_pos hsig]
      rw [hclm]
      exact hfls _ h₁
    · have hclm : b₁.control.claimUnreservedActivationTimeout a.key =
          (true, ⟨some { a with timeoutDue := false }⟩) := by
        simp only [ControlPlane.claimUnreservedActivationTimeout, hmatg, if_neg hsig]
      rw [hclm]
      have hdue : a.timeoutDue = true := by
        simp only [Bool.or_eq_true, not_or, Bool.not_eq_true', Bool.not_eq_false] at hsig
        exact hsig.2
      obtain ⟨hlse, hpend⟩ := h₁.takeUp hactn hdue
      exact htrue _ hlse hpend

/-- The acknowledgement that the actor has answered gives its reservation back. -/
theorem wp_releaseReservation {key : ActivationKey} (h : Linked (some key) s b)
    (hQ : ∀ b', Linked none s b' → Q () s b') :
    Wp deadline (dropArrival (.matchingBeforeDeadline key)) Q R s b := by
  refine wp_deadline (.releaseActivationAck key) fun b₁ hdrf => ?_
  have h₁ := h.drift hdrf
  refine ⟨h₁, ?_⟩
  intro reply control hans
  cases hans with
  | releaseActivationAck hctl =>
    refine hQ _ (h₁.release hctl (fun k => ?_) rfl rfl rfl rfl)
    simp only [Board.reserved, Board.answered, h₁.holds, toList_some, toList_none,
      nil_append, count_append, count_cons, count_nil]
    rw [Nat.add_comm]
    simp

end Calls

end Wardian.Terminal
