/-
The event stream as a mirror of the terminal broker.

A client that folds the event stream of a session takes the last ownership event for the owner and
the epoch of the lease, and the last geometry event for the size.  The size is always right.  The
ownership is right as long as no removal of an owner is cut short by a size that the native runtime
refuses: such a removal has advanced the epoch when it returns early, and tells nobody.

Main results:

* `Run.mirrored` — the stream mirrors the broker, and what errors leave behind;
* `removal_unannounced` — a run whose stream names an owner that is gone.
-/

import Wardian.Terminal.Lease

set_option autoImplicit false

namespace Wardian.Terminal

open List
open TerminalSessionActor

/-! ### Folding the stream -/

def ownershipOf (event : TerminalBrokerEvent) : Option (Option String × Nat) :=
  match event.event with
  | .ownership owner leaseEpoch _ => some (owner, leaseEpoch)
  | _ => none

def geometryOf (event : TerminalBrokerEvent) : Option TerminalGeometry :=
  match event.event with
  | .geometry geometry _ => some geometry
  | _ => none

/-- The owner and the epoch that the last ownership event carries. -/
def lastOwnership (events : List TerminalBrokerEvent) : Option (Option String × Nat) :=
  (events.filterMap ownershipOf).getLast?

/-- The size that the last geometry event carries. -/
def lastGeometry (events : List TerminalBrokerEvent) : Option TerminalGeometry :=
  (events.filterMap geometryOf).getLast?

theorem lastOwnership_append (events : List TerminalBrokerEvent) (event : TerminalBrokerEvent) :
    lastOwnership (events ++ [event]) = (ownershipOf event).or (lastOwnership events) := by
  unfold lastOwnership
  rw [filterMap_append]
  cases h : ownershipOf event with
  | none | some owned => simp [h]

theorem lastGeometry_append (events : List TerminalBrokerEvent) (event : TerminalBrokerEvent) :
    lastGeometry (events ++ [event]) = (geometryOf event).or (lastGeometry events) := by
  unfold lastGeometry
  rw [filterMap_append]
  cases h : geometryOf event with
  | none | some geometry => simp [h]

/-- What the stream says about the size is so. -/
def GeometryMirrored (s : TerminalSessionActor) : Prop :=
  ∀ geometry, lastGeometry s.emitted = some geometry → geometry = s.geometry

/-- What the stream says about the lease is so. -/
def OwnershipMirrored (s : TerminalSessionActor) : Prop :=
  ∀ owner leaseEpoch, lastOwnership s.emitted = some (owner, leaseEpoch) →
    owner = s.ownerPresentationId ∧ leaseEpoch = s.leaseEpoch

variable {s t : TerminalSessionActor}

theorem GeometryMirrored.of_core (h : GeometryMirrored t) (hcore : s.core = t.core) : GeometryMirrored s := by
  have hemtd : s.emitted = t.emitted := congrArg Core.emitted hcore
  have hgeom : s.geometry = t.geometry := congrArg Core.geometry hcore
  unfold GeometryMirrored
  rw [hemtd, hgeom]
  exact h

theorem OwnershipMirrored.of_core (h : OwnershipMirrored t)
    (hcore : s.core = t.core) : OwnershipMirrored s := by
  have hemtd : s.emitted = t.emitted := congrArg Core.emitted hcore
  have hown : s.ownerPresentationId = t.ownerPresentationId :=
    congrArg Core.ownerPresentationId hcore
  have hepo : s.leaseEpoch = t.leaseEpoch := congrArg Core.leaseEpoch hcore
  unfold OwnershipMirrored
  rw [hemtd, hown, hepo]
  exact h

theorem GeometryMirrored.of_snaps {s t : TerminalSessionActor} (h : GeometryMirrored t)
    (hsnaps : Snaps t s) : GeometryMirrored s := by
  rcases hsnaps with hcore | hcore
  · exact h.of_core hcore
  · exact GeometryMirrored.of_core (t := t.withSnapshot) h hcore

theorem OwnershipMirrored.of_snaps {s t : TerminalSessionActor} (h : OwnershipMirrored t)
    (hsnaps : Snaps t s) : OwnershipMirrored s := by
  rcases hsnaps with hcore | hcore
  · exact h.of_core hcore
  · exact OwnershipMirrored.of_core (t := t.withSnapshot) h hcore

/-- An event that carries no size leaves what is said about the size. -/
theorem GeometryMirrored.emitEvent {s : TerminalSessionActor} (h : GeometryMirrored s)
    {event : TerminalBrokerEventKind} (hevent : ∀ geometry n, event ≠ .geometry geometry n) :
    GeometryMirrored (s.emitEvent event) := by
  intro geometry hlast
  change lastGeometry (s.emitted ++ [_]) = _ at hlast
  rw [lastGeometry_append] at hlast
  cases event with
  | geometry g n => exact absurd rfl (hevent g n)
  | output bytes | ownership owner leaseEpoch activationId | lifecycle lifecycle => exact h geometry hlast

/-- An event that carries no owner leaves what is said about the lease. -/
theorem OwnershipMirrored.emitEvent {s : TerminalSessionActor} (h : OwnershipMirrored s)
    {event : TerminalBrokerEventKind} (hevent : ∀ owner n id, event ≠ .ownership owner n id) :
    OwnershipMirrored (s.emitEvent event) := by
  intro owner leaseEpoch hlast
  change lastOwnership (s.emitted ++ [_]) = _ at hlast
  rw [lastOwnership_append] at hlast
  cases event with
  | ownership o n id => exact absurd rfl (hevent o n id)
  | output bytes | geometry geometry n | lifecycle lifecycle => exact h owner leaseEpoch hlast

/-- After an ownership event the stream knows the lease, whatever it said before. -/
theorem ownershipMirrored_emitOwnership (s : TerminalSessionActor) (activationId : Option String) :
    OwnershipMirrored (s.emitOwnership activationId) := by
  intro owner leaseEpoch hlast
  change lastOwnership (s.emitted ++ [_]) = _ at hlast
  rw [lastOwnership_append] at hlast
  cases Option.some.inj hlast
  exact ⟨rfl, rfl⟩

theorem geometryMirrored_resized (s : TerminalSessionActor) (geometry : TerminalGeometry)
    (geometrySequence : Nat) : GeometryMirrored (s.resized geometry geometrySequence) := by
  intro g hlast
  change lastGeometry (s.emitted ++ [_]) = _ at hlast
  rw [lastGeometry_append] at hlast
  exact (Option.some.inj hlast).symm

namespace TerminalSessionActor

variable {s s' : TerminalSessionActor}

theorem Sized.geometryMirrored (h : Sized s s') (hs : GeometryMirrored s) : GeometryMirrored s' := by
  cases h with
  | same => exact hs
  | resized geometry geometrySequence => exact geometryMirrored_resized s geometry geometrySequence

theorem Sized.ownershipMirrored (h : Sized s s') (hs : OwnershipMirrored s) : OwnershipMirrored s' := by
  cases h with
  | same => exact hs
  | resized geometry geometrySequence =>
    exact @OwnershipMirrored.emitEvent { s with
      parser := .setSize geometry.rows geometry.cols :: s.parser
      geometry := geometry
      cachedSnapshot := none } hs (.geometry geometry geometrySequence) (by simp)

theorem mirrored_foldl_emitEvent (pieces : List (List UInt8)) :
    (GeometryMirrored s → GeometryMirrored (pieces.foldl
      (fun (t : TerminalSessionActor) piece => t.emitEvent (.output piece)) s)) ∧
    (OwnershipMirrored s → OwnershipMirrored (pieces.foldl
      (fun (t : TerminalSessionActor) piece => t.emitEvent (.output piece)) s)) := by
  induction pieces generalizing s with
  | nil => exact ⟨id, id⟩
  | cons piece pieces ih =>
    obtain ⟨hgeom, howne⟩ := @ih (s.emitEvent (.output piece))
    refine ⟨fun h => hgeom (h.emitEvent ?_), fun h => howne (h.emitEvent ?_)⟩
    · simp
    · simp

/-! ### What a turn does to the mirror -/

variable {pending : PendingActivation} {r : Except TerminalBrokerError Unit}

theorem RolledBack.geometryMirrored (h : RolledBack s pending r s') (hs : GeometryMirrored s) :
    GeometryMirrored s' := by
  cases h with
  | @settled t owner hszd hown =>
    have ht : GeometryMirrored t := hszd.geometryMirrored hs
    exact @GeometryMirrored.emitEvent { t with ownerPresentationId := owner } ht _ (by simp)
  | stopped herr => exact hs

/-- A rollback that stops leaves nobody as the owner, which the stream has said already. -/
theorem RolledBack.ownershipMirrored (h : RolledBack s pending r s') (hunow : s.ownerPresentationId = none)
    (hs : OwnershipMirrored s) : OwnershipMirrored s' := by
  cases h with
  | settled hszd hown => exact ownershipMirrored_emitOwnership _ _
  | stopped herr =>
    intro owner leaseEpoch hlast
    obtain ⟨rfl, rfl⟩ := hs owner leaseEpoch hlast
    exact ⟨hunow, rfl⟩

theorem Promoted.geometryMirrored (h : Promoted s r s') (hs : GeometryMirrored s) : GeometryMirrored s' := by
  cases h with
  | @settled t owner hszd hown =>
    have ht : GeometryMirrored t := hszd.geometryMirrored hs
    exact @GeometryMirrored.emitEvent { t with ownerPresentationId := owner } ht _ (by simp)
  | stopped herr => exact hs

theorem Unregistered.geometryMirrored {presentationId : String} (h : Unregistered s presentationId r s')
    (hs : GeometryMirrored s) : GeometryMirrored s' := by
  cases h with
  | rolledBack hpend hself h | dropped hown h => exact h.geometryMirrored hs
  | kept hown => exact hs

/-- Removing a presentation is announced, unless the removal of the owner is cut short. -/
theorem Unregistered.ownershipMirrored {presentationId : String} (h : Unregistered s presentationId r s')
    (hunow : s.pendingActivation.isSome → s.ownerPresentationId = none)
    (hanno : s.ownerPresentationId = some presentationId → ∀ e, r = .error e → ¬IsNativeError e)
    (hs : OwnershipMirrored s) : OwnershipMirrored s' := by
  cases h with
  | rolledBack hpend hself h => exact h.ownershipMirrored (hunow (by simp [hpend])) hs
  | kept hown => exact hs
  | dropped hown h =>
    cases h with
    | settled hszd hown => exact ownershipMirrored_emitOwnership _ _
    | stopped herr => exact absurd herr (hanno hown _ rfl)

theorem Effect.geometryMirrored {turn : Turn} {answer : Except TerminalBrokerError Answer}
    (h : Effect s turn answer s') (hs : GeometryMirrored s) : GeometryMirrored s' := by
  cases h with
  | quiet hcore => exact hs.of_snaps hcore
  | @output _ _ _ pieces hfits hcore =>
    refine GeometryMirrored.of_core ?_ hcore
    exact (mirrored_foldl_emitEvent pieces).1 hs
  | paused hcore => exact (hs.emitEvent (by simp)).of_core hcore
  | @recorded _ _ t _ presentations hszd hrecs hcore =>
    have ht : GeometryMirrored t := hszd.geometryMirrored hs
    exact @GeometryMirrored.of_snaps _ { t with presentations := presentations } ht hcore
  | @begun _ _ _ request hcore =>
    refine GeometryMirrored.of_core ?_ hcore
    refine @GeometryMirrored.emitEvent { s with pendingActivation := none } hs
      (.ownership none _ _) ?_
    simp
  | @acknowledged _ _ t _ request _ hpend hkey hszd hcore =>
    refine GeometryMirrored.of_core ?_ hcore
    have ht : GeometryMirrored t := hszd.geometryMirrored hs
    refine @GeometryMirrored.emitEvent { t with
      ownerPresentationId := some request.presentationId } ht (.ownership _ _ _) ?_
    simp
  | rolledBack hpend hrecs hack h hans hcore =>
    refine GeometryMirrored.of_core ?_ hcore
    exact h.geometryMirrored hs
  | unregistered hturn hrem h hans hcore =>
    refine GeometryMirrored.of_core ?_ hcore
    refine h.geometryMirrored (GeometryMirrored.of_core ?_ hrem)
    exact hs
  | shutdown hcore =>
    refine GeometryMirrored.of_core ?_ hcore
    exact hs

end TerminalSessionActor

/-- The removal of an owner that is answered with the error of a refused size. -/
def Handled.LosesPromotion (handled : Handled) : Prop :=
  ∃ sessionId presentationId runtimeGeneration e,
    handled.turn = .message (.unregisterPresentation sessionId presentationId runtimeGeneration) ∧
      handled.before.ownerPresentationId = some presentationId ∧ handled.answer = .error e ∧
        IsNativeError e

variable {s' : TerminalSessionActor} {turn : Turn} {answer : Except TerminalBrokerError Answer}

/-- **The lease is mirrored**, unless the removal of an owner is cut short. -/
theorem TerminalSessionActor.Effect.ownershipMirrored (h : Effect s turn answer s')
    (hunow : s.pendingActivation.isSome → s.ownerPresentationId = none)
    (hanno : ∀ calls, ¬Handled.LosesPromotion ⟨turn, s, calls, answer, s'⟩) (hs : OwnershipMirrored s) :
    OwnershipMirrored s' := by
  cases h with
  | quiet hcore => exact hs.of_snaps hcore
  | @output _ _ _ pieces hfits hcore =>
    refine OwnershipMirrored.of_core ?_ hcore
    exact (mirrored_foldl_emitEvent pieces).2 hs
  | paused hcore => exact (hs.emitEvent (by simp)).of_core hcore
  | @recorded _ _ t _ presentations hszd hrecs hcore =>
    have ht : OwnershipMirrored t := hszd.ownershipMirrored hs
    exact @OwnershipMirrored.of_snaps _ { t with presentations := presentations } ht hcore
  | @begun _ _ _ request hcore =>
    refine OwnershipMirrored.of_core ?_ hcore
    -- nobody owned the lease if it was taken from an activation that was pending
    have hnobody : (if (s.pendingActivation.bind
        (·.state.previousOwnerPresentationId)).isSome then s.ownerPresentationId else none) =
        none := by
      split
      · rename_i hprev
        refine hunow ?_
        cases hpend : s.pendingActivation with
        | none => simp [hpend] at hprev
        | some pending => rfl
      · rfl
    intro owner leaseEpoch hlast
    change lastOwnership (s.emitted ++ [_]) = _ at hlast
    rw [lastOwnership_append] at hlast
    cases Option.some.inj hlast
    exact ⟨hnobody.symm, rfl⟩
  | acknowledged hpend hkey hszd hcore =>
    refine OwnershipMirrored.of_core ?_ hcore
    exact ownershipMirrored_emitOwnership _ _
  | rolledBack hpend hrecs hack h hans hcore =>
    refine OwnershipMirrored.of_core ?_ hcore
    exact h.ownershipMirrored (hunow (by simp [hpend])) hs
  | @unregistered _ _ s₀ s₁ _ sessionId presentationId runtimeGeneration r hturn hrem h
      hans hcore =>
      refine OwnershipMirrored.of_core ?_ hcore
      have hown : s₀.ownerPresentationId = s.ownerPresentationId :=
        congrArg Core.ownerPresentationId hrem
      have hpend : s₀.pendingActivation = s.pendingActivation :=
        congrArg Core.pendingActivation hrem
      refine h.ownershipMirrored (by rw [hpend, hown]; exact hunow) ?_
        (OwnershipMirrored.of_core ?_ hrem)
      · intro hself e he hnat
        exact hanno [] ⟨sessionId, presentationId, runtimeGeneration, e, hturn,
          hown ▸ hself, (hans e).2 he, hnat⟩
      · exact hs
  | shutdown hcore =>
    refine OwnershipMirrored.of_core ?_ hcore
    exact hs

/-! ### What errors leave behind -/

/-- The message has changed no presentation and nothing of the lease. -/
structure Handled.Undone (handled : Handled) : Prop where
  presentations : handled.after.presentations = handled.before.presentations
  owner : handled.after.ownerPresentationId = handled.before.ownerPresentationId
  pending : handled.after.pendingActivation = handled.before.pendingActivation
  epoch : handled.after.leaseEpoch = handled.before.leaseEpoch

/-- The pending activation is rolled back: nothing is pending, the previous owner or nobody owns the
lease under the same epoch, and the presentations are as they were. -/
structure Handled.RolledBack (handled : Handled) : Prop where
  presentations : handled.after.presentations = handled.before.presentations
  pending : handled.after.pendingActivation = none
  epoch : handled.after.leaseEpoch = handled.before.leaseEpoch
  owner : handled.after.ownerPresentationId = none ∨
    ∃ pending, handled.before.pendingActivation = some pending ∧
      handled.after.ownerPresentationId = pending.state.previousOwnerPresentationId

/-- Updates and removals, which may stop half-way when a size is refused. -/
def Turn.mayStopHalfway : Turn → Bool
  | .message (.updatePresentation _ _) => true
  | .message (.unregisterPresentation _ _ _) => true
  | _ => false

theorem Handled.undone_of_snaps {calls : List (TerminalCall × TerminalSessionActor)} (h : Snaps s s') :
    Handled.Undone ⟨turn, s, calls, answer, s'⟩ := by
  rcases h with hcore | hcore
  · exact ⟨congrArg Core.presentations hcore, congrArg Core.ownerPresentationId hcore,
      congrArg Core.pendingActivation hcore, congrArg Core.leaseEpoch hcore⟩
  · exact ⟨congrArg Core.presentations hcore, congrArg Core.ownerPresentationId hcore,
      congrArg Core.pendingActivation hcore, congrArg Core.leaseEpoch hcore⟩

/-- **What a message that is answered with an error leaves behind**: nothing, unless the native
runtime has refused a size. -/
theorem TerminalSessionActor.Effect.of_error {e : TerminalBrokerError} (h : Effect s turn (.error e) s')
    (calls : List (TerminalCall × TerminalSessionActor)) :
    Handled.Undone ⟨turn, s, calls, .error e, s'⟩ ∨
      IsNativeError e ∧ (turn.mayStopHalfway = true ∨
        (∃ request arrival, turn = .message (.ackActivation request arrival)) ∧
          Handled.RolledBack ⟨turn, s, calls, .error e, s'⟩) := by
  cases h with
  | quiet hcore => exact .inl (Handled.undone_of_snaps hcore)
  | @rolledBack _ _ s₁ _ presentations pending r hpend hrecs hack h hans hcore =>
    obtain ⟨hnat, hturn⟩ := hans e rfl
    refine .inr ⟨hnat, ?_⟩
    cases turn with
    | control | shutdown => cases hturn
    | message message =>
      cases message with
      | updatePresentation request identity => exact .inl rfl
      | ackActivation request arrival =>
        refine .inr ⟨⟨request, arrival, rfl⟩, ?_⟩
        have hsame := hack request arrival rfl
        have hs₁ : s₁.leaseEpoch = s.leaseEpoch ∧ s₁.pendingActivation = none ∧
            (s₁.ownerPresentationId = none ∨
              s₁.ownerPresentationId = pending.state.previousOwnerPresentationId) := by
          cases h with
          | settled hszd hown =>
            obtain ⟨hepo, -, hnone, -⟩ := hszd.frame
            exact ⟨hepo, hnone, hown.imp id fun hown => hown.1⟩
          | stopped herr => exact ⟨rfl, rfl, .inl rfl⟩
        have hown : s'.ownerPresentationId = s₁.ownerPresentationId :=
          congrArg Core.ownerPresentationId hcore
        refine ⟨?_, ?_, ?_, ?_⟩
        · have hpres : s'.presentations = s₁.presentations :=
            congrArg Core.presentations hcore
          exact hpres.trans (h.presentations.trans hsame)
        · exact (congrArg Core.pendingActivation hcore).trans hs₁.2.1
        · exact (congrArg Core.leaseEpoch hcore).trans hs₁.1
        · rcases hs₁.2.2 with hnone | hprev
          · exact .inl (hown.trans hnone)
          · exact .inr ⟨pending, hpend, hown.trans hprev⟩
      | _ => cases hturn
  | unregistered hturn hrem h hans hcore =>
    refine .inr ⟨?_, .inl (by rw [hturn]; rfl)⟩
    have hr := (hans e).1 rfl
    subst hr
    cases h with
    | rolledBack hpend hself h | dropped hown h =>
      cases h with
      | stopped herr => exact herr

/-! ### Every run -/

/-- **The stream mirrors the broker.**  In every run of an actor, whatever it is sent and whatever
the native runtime refuses: after every turn the last geometry event carries the size; while no
removal of an owner is cut short by a refused size, the last ownership event carries the owner and
the epoch; and a message answered with an error leaves presentations, owner, pending activation and
epoch alone, unless a size was refused to an update or a removal, or to an acknowledgement, whose
activation is then rolled back. -/
theorem Run.mirrored {sessionId : String} {runtimeGeneration initialLeaseEpoch : Nat}
    {runtime : Option TerminalRuntimeHandles} {geometry : TerminalGeometry} {initialOutput : List UInt8}
    {s : TerminalSessionActor} {past : List Handled}
    (h : Run (.new sessionId runtimeGeneration initialLeaseEpoch runtime geometry initialOutput) s past) :
    (∀ handled ∈ past, GeometryMirrored handled.after) ∧
    ((∀ handled ∈ past, ¬handled.LosesPromotion) →
      ∀ handled ∈ past, OwnershipMirrored handled.after) ∧
    (∀ handled ∈ past, ∀ e, handled.answer = .error e → handled.Undone ∨
      IsNativeError e ∧ (handled.turn.mayStopHalfway = true ∨
        (∃ request arrival, handled.turn = .message (.ackActivation request arrival)) ∧
          handled.RolledBack)) := by
  refine ⟨?_, ?_, ?_⟩
  · have hall : GeometryMirrored s ∧ ∀ handled ∈ past, GeometryMirrored handled.after := by
      induction h with
      | start => exact ⟨fun _ hlast => (by cases hlast), by simp⟩
      | step h hends ih =>
        have hs' := (effect_of_ends hends).geometryMirrored ih.1
        refine ⟨hs', fun handled hmem => ?_⟩
        rcases mem_append.1 hmem with hmem | hmem
        · exact ih.2 handled hmem
        · rw [mem_singleton.1 hmem]
          exact hs'
    exact hall.2
  · have hall : (∀ handled ∈ past, ¬handled.LosesPromotion) →
        OwnershipMirrored s ∧ ∀ handled ∈ past, OwnershipMirrored handled.after := by
      induction h with
      | start => exact fun _ => ⟨fun _ _ hlast => (by cases hlast), by simp⟩
      | step h hends ih =>
        intro hanno
        obtain ⟨hs, hearl⟩ := ih fun handled hmem =>
          hanno handled (mem_append_left _ hmem)
        have hstep := hanno _ (mem_append_right _ (mem_singleton_self _))
        have hs' := (effect_of_ends hends).ownershipMirrored (h.leaseInv rfl).unowned
          (fun _ => hstep) hs
        refine ⟨hs', fun handled hmem => ?_⟩
        rcases mem_append.1 hmem with hmem | hmem
        · exact hearl handled hmem
        · rw [mem_singleton.1 hmem]
          exact hs'
    exact fun hanno => (hall hanno).2
  · refine h.forall_handled ?_
    rintro turn s calls answer s' hends e rfl
    exact (effect_of_ends hends).of_error calls

/-! ### Refused sizes -/

/-- The native runtime refuses every size. -/
def refuseSizes : (op : TerminalCall) → op.Reply
  | .resize _ => (.error "refused" : Except String Unit)
  | op => acceptAll op

/-- A visible and mounted presentation that wants a size of its own. -/
def registerSizedTurn (presentationId : String) : Turn :=
  .message (.register ⟨presentationId, "s", .desktop, some ⟨40, 100⟩, .visible, .mounted,
    .interactive⟩ .trustedDesktop)

/-- The owner `p` is removed while `q`, which is next, wants a size. -/
def removalTurns : List Turn :=
  [registerTurn "p" .interactive, registerSizedTurn "q", beginTurn "p" 0, ackTurn "p" 1 1,
    .message (.unregisterPresentation "s" "p" 1)]

/-- The presentation `q` acknowledges its activation and wants a size. -/
def refusedAckTurns : List Turn := [registerSizedTurn "q", beginTurn "q" 0, ackTurn "q" 1 1]

/-- What is known of the lease after each turn: the owner and the epoch, what the stream says about
them, whether an activation is pending, and whether the message was answered with an error. -/
def leaseReport (past : List Handled) :
    List ((Option String × Nat) × Option (Option String × Nat) × Bool × Bool) :=
  past.map fun handled =>
    ((handled.after.ownerPresentationId, handled.after.leaseEpoch),
      lastOwnership handled.after.emitted, handled.after.pendingActivation.isSome,
      handled.answer.toOption.isNone)

/-- The handover to `q` when its size is refused: the stream still tells the size and the lease. -/
theorem mirrored_refusedAckTurns :
    leaseReport (play refuseSizes refusedAckTurns (sampleActor 0)) =
        [((none, 0), none, false, false), ((none, 1), some (none, 1), true, false),
          ((none, 1), some (none, 1), false, true)] ∧
      ∀ handled ∈ play refuseSizes refusedAckTurns (sampleActor 0),
        GeometryMirrored handled.after :=
  ⟨by decide, (run_play refuseSizes refusedAckTurns (sampleActor 0)).mirrored.1⟩

/-- **A removal that nobody hears of.**  The owner is removed and the size of the next one is
refused: the lease is nobody's under epoch 2, and the stream still names `p` under epoch 1.  And an
acknowledgement that is answered with an error has taken the pending activation away. -/
theorem removal_unannounced :
    Run (sampleActor 0) (playState refuseSizes removalTurns (sampleActor 0))
        (play refuseSizes removalTurns (sampleActor 0)) ∧
      leaseReport (play refuseSizes removalTurns (sampleActor 0)) =
        [((none, 0), none, false, false), ((none, 0), none, false, false),
          ((none, 1), some (none, 1), true, false),
          ((some "p", 1), some (some "p", 1), false, false),
          ((none, 2), some (some "p", 1), false, true)] ∧
      Run (sampleActor 0) (playState refuseSizes refusedAckTurns (sampleActor 0))
        (play refuseSizes refusedAckTurns (sampleActor 0)) ∧
      leaseReport (play refuseSizes refusedAckTurns (sampleActor 0)) =
        [((none, 0), none, false, false), ((none, 1), some (none, 1), true, false),
          ((none, 1), some (none, 1), false, true)] :=
  ⟨run_play _ _ _, by decide, run_play _ _ _, by decide⟩

end Wardian.Terminal
