/-
One writer per lease epoch.

The lease of a terminal session is handed over in two phases: beginning an activation takes it from
its owner under a new epoch, and the acknowledgement gives it to the presentation that began.  What
happens in between may give it back.  The invariant is that an epoch has seen no owner while its
activation is pending, and that its owner stays once there is one; so an epoch has one owner.

Main results:

* `TerminalSessionActor.guards_sendInput`, `TerminalSessionActor.guards_resize` — the native runtime
  hears only of presentations that may write;
* `Run.one_writer` — exclusivity of the lease over every run;
* `readOnly_then_interactive` — a presentation that is registered read-only may become a writer.
-/

import Wardian.Terminal.Effects

set_option autoImplicit false

namespace Wardian.Terminal

open List
open TerminalSessionActor
open Calling (Wp wp_bind wp_fail wp_get wp_ite wp_modify wp_pure)

/-! ### Steps of the lease -/

/-- What a turn does to the lease. -/
inductive LeaseStep (s s' : TerminalSessionActor) : Prop where
  | kept (hepo : s'.leaseEpoch = s.leaseEpoch)
      (hown : s'.ownerPresentationId = s.ownerPresentationId)
      (hpend : s'.pendingActivation.isSome → s.pendingActivation.isSome)
  | settled (hpend : s.pendingActivation.isSome) (hepo : s'.leaseEpoch = s.leaseEpoch)
      (hnone : s'.pendingActivation = none)
  | advanced (hepo : s'.leaseEpoch = saturatingSucc s.leaseEpoch)
      (hpend : s'.pendingActivation.isSome → s'.ownerPresentationId = none)

/-- Two states with one lease are reached by the same steps of the lease. -/
theorem LeaseStep.congr {s t t' : TerminalSessionActor} (h : LeaseStep s t)
    (hepo : t'.leaseEpoch = t.leaseEpoch) (hown : t'.ownerPresentationId = t.ownerPresentationId)
    (hpend : t'.pendingActivation = t.pendingActivation) : LeaseStep s t' := by
  cases h with
  | kept he ho hp => exact .kept (hepo.trans he) (hown.trans ho) (by rw [hpend]; exact hp)
  | settled hp he hn => exact .settled hp (hepo.trans he) (hpend.trans hn)
  | advanced he hp => exact .advanced (hepo.trans he) (by rw [hpend, hown]; exact hp)

variable {s s' : TerminalSessionActor}

theorem LeaseStep.of_core {t : TerminalSessionActor} (h : LeaseStep s t)
    (hcore : s'.core = t.core) : LeaseStep s s' :=
  h.congr (congrArg Core.leaseEpoch hcore) (congrArg Core.ownerPresentationId hcore)
    (congrArg Core.pendingActivation hcore)

theorem LeaseStep.of_snaps {s t s' : TerminalSessionActor} (h : LeaseStep s t)
    (hsnaps : Snaps t s') : LeaseStep s s' := by
  rcases hsnaps with hcore | hcore
  · exact h.of_core hcore
  · exact (@LeaseStep.congr s t t.withSnapshot h rfl rfl rfl).of_core hcore

theorem LeaseStep.refl (s : TerminalSessionActor) : LeaseStep s s := .kept rfl rfl id

namespace TerminalSessionActor

variable {s s' : TerminalSessionActor}

theorem Sized.frame (h : Sized s s') :
    s'.leaseEpoch = s.leaseEpoch ∧ s'.ownerPresentationId = s.ownerPresentationId ∧
      s'.pendingActivation = s.pendingActivation ∧ s'.presentations = s.presentations := by
  cases h with
  | same | resized geometry geometrySequence => exact ⟨rfl, rfl, rfl, rfl⟩

/-- A removal keeps the lease, settles the pending activation, or advances the epoch. -/
theorem Unregistered.lease {s₀ s₁ : TerminalSessionActor} {presentationId : String}
    {r : Except TerminalBrokerError Unit} (h : Unregistered s₀ presentationId r s₁)
    (hinv : s₀.pendingActivation.isSome → s₀.ownerPresentationId = none) : LeaseStep s₀ s₁ := by
  cases h with
  | rolledBack hpend hself h =>
    cases h with
    | settled hszd hown =>
      obtain ⟨hepo, -, hnone, -⟩ := hszd.frame
      exact .settled (by simp [hpend]) hepo hnone
    | stopped herr => exact .settled (by simp [hpend]) rfl rfl
  | kept hown => exact .kept rfl rfl (by simp [forgetPreviousOwner])
  | dropped hown h =>
    -- there is an owner, so nothing is pending
    have hnone : s₀.pendingActivation = none := by
      cases hpend : s₀.pendingActivation with
      | none => rfl
      | some pending => simp [hinv (by simp [hpend])] at hown
    cases h with
    | settled hszd hown =>
      obtain ⟨hepo, -, hpend, -⟩ := hszd.frame
      refine .advanced hepo fun hsome => ?_
      simp [emitOwnership, emitEvent, hpend, advanceLeaseEpoch, forgetPreviousOwner,
        hnone] at hsome
    | stopped herr => exact .advanced rfl fun _ => rfl

/-- **What a turn does to the lease**, when nobody owns it while an activation is pending. -/
theorem Effect.lease {turn : Turn} {answer : Except TerminalBrokerError Answer} (h : Effect s turn answer s')
    (hinv : s.pendingActivation.isSome → s.ownerPresentationId = none) : LeaseStep s s' := by
  cases h with
  | quiet hcore => exact (LeaseStep.refl s).of_snaps hcore
  | @output _ _ _ pieces hfits hcore =>
    refine LeaseStep.of_core ?_ hcore
    have hfold : ∀ (pieces : List (List UInt8)) (t : TerminalSessionActor), LeaseStep s t →
        LeaseStep s (pieces.foldl (fun (t : TerminalSessionActor) piece =>
          t.emitEvent (.output piece)) t) := by
      intro pieces
      induction pieces with
      | nil => exact fun _ ht => ht
      | cons piece pieces ih =>
        intro t ht
        exact ih _ (ht.congr rfl rfl rfl)
    exact hfold pieces _ (.kept rfl rfl id)
  | paused hcore =>
    refine LeaseStep.of_core ?_ hcore
    exact .kept rfl rfl id
  | recorded hszd hrecs hcore =>
    obtain ⟨hepo, hown, hpend, -⟩ := hszd.frame
    refine LeaseStep.of_snaps ?_ hcore
    exact .kept hepo hown (by simp [hpend])
  | @begun _ _ _ request hcore =>
    refine LeaseStep.of_core (.advanced rfl fun _ => ?_) hcore
    change (if (s.pendingActivation.bind _).isSome then s.ownerPresentationId else none) = none
    split
    · rename_i hprev
      refine hinv ?_
      cases hpend : s.pendingActivation with
      | none => simp [hpend] at hprev
      | some pending => rfl
    · rfl
  | acknowledged hpend hkey hszd hcore =>
    refine LeaseStep.of_core (.settled (by simp [hpend]) ?_ rfl) hcore
    exact hszd.frame.1
  | rolledBack hpend hrecs hack h hans hcore =>
    refine LeaseStep.of_core ?_ hcore
    cases h with
    | settled hszd hown =>
      obtain ⟨hepo, -, hnone, -⟩ := hszd.frame
      exact .settled (by simp [hpend]) hepo hnone
    | stopped herr => exact .settled (by simp [hpend]) rfl rfl
  | @unregistered _ _ s₀ s₁ _ _ presentationId _ r hturn hrem h hans hcore =>
    refine LeaseStep.of_core ?_ hcore
    have hepo : s₀.leaseEpoch = s.leaseEpoch := congrArg Core.leaseEpoch hrem
    have hown : s₀.ownerPresentationId = s.ownerPresentationId :=
      congrArg Core.ownerPresentationId hrem
    have hpend : s₀.pendingActivation = s.pendingActivation :=
      congrArg Core.pendingActivation hrem
    have hstep := h.lease (by rw [hpend, hown]; exact hinv)
    cases hstep with
    | kept he ho hp => exact .kept (he.trans hepo) (ho.trans hown) (by rw [← hpend]; exact hp)
    | settled hp he hn => exact .settled (by rw [← hpend]; exact hp) (he.trans hepo) hn
    | advanced he hp => exact .advanced (by rw [he, hepo]) hp
  | shutdown hcore =>
    refine LeaseStep.of_core ?_ hcore
    exact .kept rfl rfl (by simp)

end TerminalSessionActor

/-! ### The invariant -/

/-- What holds of the lease after everything handled so far. -/
structure LeaseInv (s : TerminalSessionActor) (past : List Handled) : Prop where
  unowned : s.pendingActivation.isSome → s.ownerPresentationId = none
  epochs : ∀ handled ∈ past, handled.after.leaseEpoch ≤ s.leaseEpoch
  /-- An owner of the current epoch is still the owner, and nothing is pending. -/
  owners : ∀ handled ∈ past, handled.after.leaseEpoch = s.leaseEpoch → s.leaseEpoch < u64Max →
    ∀ owner, handled.after.ownerPresentationId = some owner →
      s.pendingActivation = none ∧ s.ownerPresentationId = some owner
  apart : ∀ h₁ ∈ past, ∀ h₂ ∈ past, h₁.after.leaseEpoch = h₂.after.leaseEpoch →
    h₁.after.leaseEpoch < u64Max → ∀ owner₁ owner₂, h₁.after.ownerPresentationId = some owner₁ →
      h₂.after.ownerPresentationId = some owner₂ → owner₁ = owner₂

/-- The part of the invariant about the state alone is kept by a step. -/
theorem LeaseStep.unowned (h : LeaseStep s s')
    (hinv : s.pendingActivation.isSome → s.ownerPresentationId = none) :
    s'.pendingActivation.isSome → s'.ownerPresentationId = none := by
  cases h with
  | kept hepo hown hpend => exact fun hsome => hown.trans (hinv (hpend hsome))
  | settled hpend hepo hnone => simp [hnone]
  | advanced hepo hpend => exact hpend

theorem LeaseStep.epoch_le (h : LeaseStep s s') : s.leaseEpoch ≤ s'.leaseEpoch := by
  cases h with
  | kept hepo _ _ | settled _ hepo _ => exact hepo.ge
  | advanced hepo _ => rw [hepo]; exact le_saturatingSucc _

variable {past : List Handled}

/-- An owner of the epoch that a step leads to is still the owner. -/
theorem LeaseStep.owners (h : LeaseStep s s') (hinv : LeaseInv s past) {handled : Handled}
    (hmem : handled ∈ past) (hepo : handled.after.leaseEpoch = s'.leaseEpoch) (hlt : s'.leaseEpoch < u64Max)
    {owner : String} (hown : handled.after.ownerPresentationId = some owner) :
    s'.pendingActivation = none ∧ s'.ownerPresentationId = some owner := by
  cases h with
  | kept he ho hp =>
    obtain ⟨hnone, hsome⟩ :=
      hinv.owners handled hmem (hepo.trans he) (he ▸ hlt) owner hown
    refine ⟨?_, ho.trans hsome⟩
    cases hpend : s'.pendingActivation with
    | none => rfl
    | some pending => simp [hpend, hnone] at hp
  | settled hp he hn =>
    -- the epoch whose activation was pending has seen no owner
    obtain ⟨hnone, -⟩ := hinv.owners handled hmem (hepo.trans he) (he ▸ hlt) owner hown
    simp [hnone] at hp
  | advanced he hp =>
    -- the epoch is new
    have hle := hinv.epochs handled hmem
    have hnew : s.leaseEpoch < s'.leaseEpoch := by
      unfold saturatingSucc at he
      split at he <;> omega
    omega

theorem LeaseInv.step {s s' : TerminalSessionActor} {past : List Handled} (hinv : LeaseInv s past)
    {handled : Handled} (haft : handled.after = s') (h : LeaseStep s s') :
    LeaseInv s' (past ++ [handled]) where
  unowned := h.unowned hinv.unowned
  epochs := by
    intro earlier hearl
    rcases mem_append.1 hearl with hearl | hearl
    · exact (hinv.epochs earlier hearl).trans h.epoch_le
    · rw [mem_singleton.1 hearl, haft]
  owners := by
    intro earlier hearl hepo hlt owner hown
    rcases mem_append.1 hearl with hearl | hearl
    · exact h.owners hinv hearl hepo hlt hown
    · rw [mem_singleton.1 hearl, haft] at hown
      refine ⟨?_, hown⟩
      cases hpend : s'.pendingActivation with
      | none => rfl
      | some pending => simp [h.unowned hinv.unowned (by simp [hpend])] at hown
  apart := by
    intro h₁ hmem₁ h₂ hmem₂ hepo hlt owner₁ owner₂ hown₁ hown₂
    rcases mem_append.1 hmem₁ with hmem₁ | hmem₁
    · rcases mem_append.1 hmem₂ with hmem₂ | hmem₂
      · exact hinv.apart h₁ hmem₁ h₂ hmem₂ hepo hlt owner₁ owner₂ hown₁ hown₂
      · rw [mem_singleton.1 hmem₂, haft] at hepo hown₂
        have hstl := (h.owners hinv hmem₁ hepo (hepo ▸ hlt) hown₁).2
        rw [hown₂] at hstl
        exact (Option.some.inj hstl).symm
    · rw [mem_singleton.1 hmem₁, haft] at hepo hown₁ hlt
      rcases mem_append.1 hmem₂ with hmem₂ | hmem₂
      · have hstl := (h.owners hinv hmem₂ hepo.symm hlt hown₂).2
        rw [hown₁] at hstl
        exact Option.some.inj hstl
      · rw [mem_singleton.1 hmem₂, haft, hown₁] at hown₂
        exact Option.some.inj hown₂

variable {start : TerminalSessionActor}

theorem Run.leaseInv (h : Run start s past) (hstart : start.pendingActivation = none) : LeaseInv s past := by
  induction h with
  | start =>
    constructor
    · simp [hstart]
    · simp
    · simp
    · simp
  | step h hends ih => exact ih.step rfl ((effect_of_ends hends).lease ih.unowned)

/-! ### Who may write -/

/-- The presentation of a lease owns it now, under the current generation and epoch, nothing is
pending, and it shows the current screen and is interactive. -/
structure MayWrite (s : TerminalSessionActor) (lease : TerminalLeaseIdentity) : Prop where
  generation : lease.runtimeGeneration = s.runtimeGeneration
  epoch : lease.leaseEpoch = s.leaseEpoch
  settled : s.pendingActivation = none
  owner : s.ownerPresentationId = some lease.presentationId
  renderer : ∃ record, s.presentations[lease.presentationId]? = some record ∧
    record.state.visibility = .visible ∧ record.state.renderState = .mounted ∧
      record.state.interactionCapability = .interactive ∧ record.state.requiresResync = false

theorem mayWrite_of_validateActiveLease {lease : TerminalLeaseIdentity}
    (h : s.validateActiveLease lease = none) : MayWrite s lease := by
  unfold validateActiveLease at h
  split at h
  · cases h
  rename_i hgen
  split at h
  · cases h
  split at h
  · cases h
  rename_i hpend
  split at h
  · cases h
  rename_i hepo
  split at h
  · cases h
  split at h
  · cases h
  rename_i hown
  split at h
  · cases h
  rename_i hrndr
  refine ⟨of_not_not hgen, of_not_not hepo, by simpa using hpend,
    of_not_not hown, ?_⟩
  unfold presentationHasActiveRenderer presentationIsEligible at hrndr
  cases hrec : s.presentations[lease.presentationId]? with
  | none => simp [hrec] at hrndr
  | some record =>
    simp only [hrec, Option.any_some] at hrndr
    have hall : s.runtimeState = .live ∧ record.state.visibility = .visible ∧
        record.state.renderState = .mounted ∧
        record.state.interactionCapability = .interactive ∧
        record.state.requiresResync = false := by
      simpa [and_assoc] using hrndr
    exact ⟨record, rfl, hall.2⟩

namespace TerminalSessionActor

/-- Bytes are handed to the native runtime only in a state with `P`. -/
def SendsOnly (P : TerminalSessionActor → Prop) (op : TerminalCall) (s : TerminalSessionActor) :
    Prop :=
  ∀ bytes, op = .send bytes → P s

/-- A size is handed to the native runtime only in a state with `P`. -/
def ResizesOnly (P : TerminalSessionActor → Prop) (op : TerminalCall) (s : TerminalSessionActor) :
    Prop :=
  ∀ geometry, op = .resize geometry → P s

theorem wp_asked {asked : TerminalCall → TerminalSessionActor → Prop} {op : TerminalCall}
    {s : TerminalSessionActor} {c : Unit} {Q : op.Reply → TerminalSessionActor → Unit → Prop}
    {R : TerminalBrokerError → TerminalSessionActor → Unit → Prop} (hasked : asked op s)
    (hrep : ∀ reply, Q reply s ()) :
    Wp (Outside.any asked) (Calling.call (I := terminalInterface) op) Q R s c :=
  (Calling.wp_call_any (I := terminalInterface) op Q R s c).2 ⟨hasked, hrep⟩

/-- **Input reaches the native runtime only from a presentation that may write**, and before it
changes anything. -/
theorem guards_sendInput (request : TerminalInputRequest) (s : TerminalSessionActor) :
    Wp (Outside.any (SendsOnly fun now => now = s ∧ MayWrite now request.lease))
      (sendInput request) (fun _ _ _ => True) (fun _ _ _ => True) s () := by
  simp only [sendInput, wp_bind, wp_ensureSession, wp_get]
  refine ⟨fun _ => ?_, fun _ => trivial⟩
  cases hls : s.validateActiveLease request.lease with
  | some reason => exact trivial
  | none =>
    simp only [sendUnlessEmpty, sendRuntimeInput, wp_ite, wp_bind,
      wp_pure, wp_get]
    refine ⟨fun _ => trivial, fun _ => ⟨fun _ => trivial, fun _ => ?_⟩⟩
    cases s.runtime with
    | none => exact trivial
    | some runtime =>
      rw [wp_bind]
      refine wp_asked (fun _ _ => ⟨rfl, mayWrite_of_validateActiveLease hls⟩) fun reply => ?_
      cases reply with
      | timeout | closed => exact trivial
      | queued =>
        simp only [wp_bind, wp_ite, wp_pure, awaitReceipt]
        refine ⟨fun h => (by cases h), fun _ => ⟨fun _ => ?_, fun _ => trivial⟩⟩
        refine wp_asked (fun _ h => (by cases h)) fun receipt => ?_
        cases receipt <;> exact trivial

/-- **A resize reaches the native runtime only from a presentation that may write.** -/
theorem guards_resize (request : TerminalGeometryRequest) (s : TerminalSessionActor) :
    Wp (Outside.any (ResizesOnly fun s => MayWrite s request.lease)) (resize request)
      (fun _ _ _ => True) (fun _ _ _ => True) s () := by
  simp only [resize, wp_bind, wp_ensureSession, wp_get]
  refine ⟨fun _ => ?_, fun _ => trivial⟩
  cases hls : s.validateActiveLease request.lease with
  | some reason => exact trivial
  | none =>
    simp only [wp_bind, wp_recordOf, wp_ite, wp_pure, wp_modify,
      wp_get, wp_takeSnapshot, commitGeometry, wp_fail]
    refine ⟨fun record _ => ⟨fun _ => trivial, fun _ => ⟨fun _ => ⟨fun _ => trivial,
      fun _ => trivial⟩, fun _ => ⟨fun _ => trivial, fun _ => ?_⟩⟩⟩, fun _ => trivial⟩
    refine wp_asked (fun _ _ => mayWrite_of_validateActiveLease hls) fun reply => ?_
    cases reply with
    | error message => exact trivial
    | ok _ => exact ⟨fun _ => trivial, fun _ => trivial⟩

end TerminalSessionActor

variable {calls : List (TerminalCall × TerminalSessionActor)}
  {answer : Except TerminalBrokerError Answer} {now : TerminalSessionActor}

/-- A finished input has handed its bytes on only while its presentation might write. -/
theorem mayWrite_of_input {request : TerminalInputRequest}
    (h : (turn (.message (.input request)) s).Ends calls answer s') {bytes : List UInt8}
    (hmem : (TerminalCall.send bytes, now) ∈ calls) : now = s ∧ MayWrite now request.lease := by
  have hwp : Wp (Outside.any (SendsOnly fun now => now = s ∧ MayWrite now request.lease))
      (turn (.message (.input request))) (fun _ _ _ => True) (fun _ _ _ => True) s () := by
    simp only [turn, handleMessage, wp_bind, wp_pure]
    exact guards_sendInput request s
  exact (hwp.ends h).2 _ hmem bytes rfl

/-- A finished resize has handed its size on only while its presentation might write. -/
theorem mayWrite_of_resize {request : TerminalGeometryRequest}
    (h : (turn (.message (.resize request)) s).Ends calls answer s') {geometry : TerminalGeometry}
    (hmem : (TerminalCall.resize geometry, now) ∈ calls) : MayWrite now request.lease := by
  have hwp : Wp (Outside.any (ResizesOnly fun s => MayWrite s request.lease))
      (turn (.message (.resize request))) (fun _ _ _ => True) (fun _ _ _ => True) s () := by
    simp only [turn, handleMessage, wp_bind, wp_pure]
    exact guards_resize request s
  exact (hwp.ends h).2 _ hmem geometry rfl

/-! ### Who is interactive -/

namespace TerminalSessionActor

variable {s s' : TerminalSessionActor} {r : Except TerminalBrokerError Unit}

theorem RolledBack.presentations {pending : PendingActivation} (h : RolledBack s pending r s') :
    s'.presentations = s.presentations := by
  cases h with
  | settled hszd hown => exact hszd.frame.2.2.2
  | stopped herr => rfl

theorem Unregistered.presentations {presentationId : String} (h : Unregistered s presentationId r s') :
    s'.presentations = s.presentations := by
  cases h with
  | rolledBack hpend hself h => exact h.presentations
  | kept hown => rfl
  | dropped hown h =>
    cases h with
    | settled hszd hown => exact hszd.frame.2.2.2
    | stopped herr => rfl

theorem presentations_foldl_emitEvent (pieces : List (List UInt8)) (s : TerminalSessionActor) :
    (pieces.foldl (fun (t : TerminalSessionActor) piece =>
      t.emitEvent (.output piece)) s).presentations = s.presentations := by
  induction pieces generalizing s with
  | nil => rfl
  | cons piece pieces ih => exact ih _

/-- A turn makes no presentation interactive that it does not grant it. -/
theorem Effect.records {turn : Turn} {answer : Except TerminalBrokerError Answer}
    (h : Effect s turn answer s') : Records turn s.presentations s'.presentations := by
  -- it is enough to know a state with the same core
  have of_core : ∀ t : TerminalSessionActor, s'.core = t.core →
      Records turn s.presentations t.presentations →
      Records turn s.presentations s'.presentations := by
    intro t hcore ht
    have hsame : s'.presentations = t.presentations := congrArg Core.presentations hcore
    rw [hsame]
    exact ht
  have of_snaps : ∀ t : TerminalSessionActor, Snaps t s' →
      Records turn s.presentations t.presentations →
      Records turn s.presentations s'.presentations := by
    intro t hsnaps ht
    rcases hsnaps with hcore | hcore
    · exact of_core t hcore ht
    · exact of_core t.withSnapshot hcore ht
  cases h with
  | quiet hcore => exact of_snaps s hcore (.refl _ _)
  | @output _ _ _ pieces hfits hcore =>
    refine of_core _ hcore ?_
    rw [presentations_foldl_emitEvent]
    exact .refl _ _
  | paused hcore => exact of_core (s.emitEvent _) hcore (.refl _ _)
  | recorded hszd hrecs hcore => exact of_snaps _ hcore hrecs
  | begun hcore =>
    refine of_core _ hcore ?_
    exact records_modifyRecord fun _ h => .inl h
  | acknowledged hpend hkey hszd hcore =>
    refine of_core _ hcore ?_
    change Records turn s.presentations (modifyRecord _ _ _)
    rw [hszd.frame.2.2.2]
    exact records_modifyRecord fun _ h => .inl h
  | rolledBack hpend hrecs hack h hans hcore =>
    refine of_core _ hcore ?_
    rw [h.presentations]
    exact hrecs
  | @unregistered _ _ s₀ _ _ _ _ _ _ hturn hrem h hans hcore =>
    refine of_core _ hcore ?_
    have hsame : s₀.presentations = _ := congrArg Core.presentations hrem
    rw [h.presentations, hsame]
    exact records_erase _ _ _
  | shutdown hcore =>
    refine of_core _ hcore ?_
    exact .refl _ _

end TerminalSessionActor

/-- In a run of a new actor, a presentation is interactive only if a turn has granted it. -/
theorem Run.interactive_granted (h : Run start s past) (hstart : start.presentations = ∅) :
    (∀ presentationId, Interactive s.presentations presentationId →
      ∃ handled ∈ past, handled.turn.Grants presentationId) ∧
    ∀ handled ∈ past, ∀ presentationId, Interactive handled.before.presentations presentationId →
      ∃ earlier ∈ past, earlier.turn.Grants presentationId := by
  induction h with
  | start =>
    refine ⟨?_, by simp⟩
    rintro presentationId ⟨record, hrec, -⟩
    rw [hstart, Table.lookup_empty] at hrec
    cases hrec
  | @step s s' past turn calls answer h hends ih =>
    obtain ⟨hnow, hearl⟩ := ih
    have hgrow : ∀ presentationId, (∃ handled ∈ past, handled.turn.Grants presentationId) →
        ∃ handled ∈ past ++ [⟨turn, s, calls, answer, s'⟩],
          handled.turn.Grants presentationId := by
      rintro presentationId ⟨handled, hmem, hgrants⟩
      exact ⟨handled, mem_append_left _ hmem, hgrants⟩
    refine ⟨fun presentationId hinte => ?_, fun handled hmem presentationId hbef => ?_⟩
    · rcases (effect_of_ends hends).records presentationId hinte with hbef | hgrants
      · exact hgrow _ (hnow presentationId hbef)
      · exact ⟨_, mem_append_right _ (mem_singleton_self _), hgrants⟩
    · rcases mem_append.1 hmem with hmem | hmem
      · exact hgrow _ (hearl handled hmem presentationId hbef)
      · rw [mem_singleton.1 hmem] at hbef
        exact hgrow _ (hnow presentationId hbef)

/-! ### Exclusivity -/

/-- **One writer per lease epoch.**  In every run of an actor, whatever it is sent and whatever is
answered to its calls: the epoch never decreases; nobody owns the lease while an activation is
pending; an epoch that has not reached the largest number has one owner; input and sizes reach the
native runtime only from a presentation that may write at that moment; and a presentation that no
registration and no update makes interactive gets no input through. -/
theorem Run.one_writer {sessionId : String} {runtimeGeneration initialLeaseEpoch : Nat}
    {runtime : Option TerminalRuntimeHandles} {geometry : TerminalGeometry} {initialOutput : List UInt8}
    {s : TerminalSessionActor} {past : List Handled}
    (h : Run (.new sessionId runtimeGeneration initialLeaseEpoch runtime geometry initialOutput) s past) :
    (∀ handled ∈ past, handled.before.leaseEpoch ≤ handled.after.leaseEpoch) ∧
    (∀ handled ∈ past, handled.after.pendingActivation.isSome →
      handled.after.ownerPresentationId = none) ∧
    (∀ h₁ ∈ past, ∀ h₂ ∈ past, h₁.after.leaseEpoch = h₂.after.leaseEpoch →
      h₁.after.leaseEpoch < u64Max → ∀ owner₁ owner₂,
        h₁.after.ownerPresentationId = some owner₁ → h₂.after.ownerPresentationId = some owner₂ →
          owner₁ = owner₂) ∧
    (∀ handled ∈ past, ∀ request, handled.turn = .message (.input request) →
      ∀ bytes now, (.send bytes, now) ∈ handled.calls → MayWrite now request.lease) ∧
    (∀ handled ∈ past, ∀ request, handled.turn = .message (.resize request) →
      ∀ geometry now, (.resize geometry, now) ∈ handled.calls → MayWrite now request.lease) ∧
    (∀ presentationId, (∀ handled ∈ past, ¬handled.turn.Grants presentationId) →
      ∀ handled ∈ past, ∀ request, handled.turn = .message (.input request) →
        request.lease.presentationId = presentationId →
          ∀ bytes now, (.send bytes, now) ∉ handled.calls) := by
  -- the state before and after every turn satisfies the part of the invariant about states
  have hstates : ∀ {s past}, Run (.new sessionId runtimeGeneration initialLeaseEpoch runtime
      geometry initialOutput) s past → ∀ handled ∈ past, LeaseStep handled.before handled.after ∧
        (handled.after.pendingActivation.isSome → handled.after.ownerPresentationId = none) := by
    intro s past h
    induction h with
    | start => simp
    | step h hends ih =>
      intro handled hmem
      rcases mem_append.1 hmem with hmem | hmem
      · exact ih handled hmem
      · rw [mem_singleton.1 hmem]
        have hstep := (effect_of_ends hends).lease (h.leaseInv rfl).unowned
        exact ⟨hstep, hstep.unowned (h.leaseInv rfl).unowned⟩
  have hinp := h.forall_handled (P := fun handled => ∀ request,
    handled.turn = .message (.input request) → ∀ bytes now,
      (TerminalCall.send bytes, now) ∈ handled.calls →
        now = handled.before ∧ MayWrite now request.lease) (by
      rintro turn s calls answer s' hends request rfl bytes now hmem
      exact mayWrite_of_input hends hmem)
  refine ⟨fun handled hmem => (hstates h handled hmem).1.epoch_le,
    fun handled hmem => (hstates h handled hmem).2, (h.leaseInv rfl).apart,
    fun handled hmem request hturn bytes now hcall =>
      (hinp handled hmem request hturn bytes now hcall).2, ?_, ?_⟩
  · refine h.forall_handled ?_
    rintro turn s calls answer s' hends request rfl geometry now hmem
    exact mayWrite_of_resize hends hmem
  · rintro presentationId hnever handled hmem request hturn rfl bytes now hcall
    obtain ⟨rfl, hwrts⟩ := hinp handled hmem request hturn bytes now hcall
    obtain ⟨record, hrec, -, -, hinte, -⟩ := hwrts.renderer
    obtain ⟨earlier, hearl, hgrants⟩ :=
      (h.interactive_granted rfl).2 handled hmem _ ⟨record, hrec, hinte⟩
    exact hnever earlier hearl hgrants

/-! ### Sample runs -/

/-- Everything that is called answers with success. -/
def acceptAll : (op : TerminalCall) → op.Reply
  | .startActivation _ => ()
  | .clearActivation _ => ()
  | .releaseActivationAck _ => ()
  | .takeDue => (none : Option ActivationKey)
  | .claimUnreservedActivationTimeout _ => false
  | .clear => ()
  | .resize _ => (.ok () : Except String Unit)
  | .send _ => SendReply.queued
  | .receipt => ReceiptReply.written
  | .acquireLease => (.ok () : Except TerminalBrokerError Unit)
  | .retainLease => ()
  | .releaseLease => ()

/-- The actor of the session `s` in its first generation. -/
def sampleActor (initialLeaseEpoch : Nat) : TerminalSessionActor :=
  .new "s" 1 initialLeaseEpoch (some ⟨.legacy, false, false⟩) ⟨24, 80⟩ []

/-- A visible and mounted presentation registers from the desktop. -/
def registerTurn (presentationId : String) (requested : TerminalRequestedInteraction) : Turn :=
  .message (.register ⟨presentationId, "s", .desktop, none, .visible, .mounted, requested⟩
    .trustedDesktop)

def updateTurn (presentationId : String) (requested : TerminalRequestedInteraction) : Turn :=
  .message (.updatePresentation ⟨presentationId, "s", 1, none, .visible, .mounted, requested⟩
    .trustedDesktop)

def beginTurn (presentationId : String) (observedLeaseEpoch : Nat) : Turn :=
  .message (.beginActivation ⟨"s", presentationId, 1, observedLeaseEpoch⟩)

def sampleKey (presentationId : String) (leaseEpoch activationSequence : Nat) : ActivationKey :=
  ⟨presentationId, 1, leaseEpoch, s!"terminal-activation-1-{leaseEpoch}-{activationSequence}"⟩

/-- The acknowledgement of an activation, in time. -/
def ackTurn (presentationId : String) (leaseEpoch activationSequence : Nat) : Turn :=
  let key := sampleKey presentationId leaseEpoch activationSequence
  .message (.ackActivation ⟨"s", presentationId, 1, leaseEpoch, key.activationId⟩
    (.matchingBeforeDeadline key))

def inputTurn (presentationId : String) (leaseEpoch : Nat) : Turn :=
  .message (.input ⟨⟨"s", presentationId, 1, leaseEpoch⟩, [97]⟩)

/-- A presentation registers read-only, is updated, and becomes the owner. -/
def upgradeTurns : List Turn :=
  [registerTurn "p" .readOnly, updateTurn "p" .interactive, beginTurn "p" 0, ackTurn "p" 1 1,
    inputTurn "p" 1]

/-- Two presentations activate one after the other under the largest epoch. -/
def saturatedTurns : List Turn :=
  [registerTurn "p" .interactive, registerTurn "q" .interactive, beginTurn "p" u64Max,
    ackTurn "p" u64Max 1, beginTurn "q" u64Max, ackTurn "q" u64Max 2]

/-- Who owned the lease after each turn, and under which epoch. -/
def ownership (past : List Handled) : List (Option String × Nat) :=
  past.map fun handled => (handled.after.ownerPresentationId, handled.after.leaseEpoch)

/-- The calls made by each turn. -/
def callsMade (past : List Handled) : List (List TerminalCall) :=
  past.map fun handled => handled.calls.map (·.1)

/-- The handover of the lease to a presentation that types. -/
theorem one_writer_upgradeTurns :
    callsMade (play acceptAll upgradeTurns (sampleActor 0)) =
        [[], [], [.startActivation (sampleKey "p" 1 1)],
          [.clearActivation (sampleKey "p" 1 1), .releaseActivationAck (sampleKey "p" 1 1)],
          [.send [97]]] ∧
      ∀ handled ∈ play acceptAll upgradeTurns (sampleActor 0),
        handled.after.pendingActivation.isSome → handled.after.ownerPresentationId = none :=
  ⟨by decide, (run_play acceptAll upgradeTurns (sampleActor 0)).one_writer.2.1⟩

/-- **Read-only registration does not last, and the last epoch does not exclude.**  A presentation
that registers read-only and is updated gets its input through; and under the largest epoch two
presentations own the lease one after the other. -/
theorem readOnly_then_interactive :
    Run (sampleActor 0) (playState acceptAll upgradeTurns (sampleActor 0))
        (play acceptAll upgradeTurns (sampleActor 0)) ∧
      upgradeTurns.head? = some (registerTurn "p" .readOnly) ∧
      upgradeTurns.getLast? = some (inputTurn "p" 1) ∧
      (callsMade (play acceptAll upgradeTurns (sampleActor 0))).getLast? = some [.send [97]] ∧
      Run (sampleActor u64Max) (playState acceptAll saturatedTurns (sampleActor u64Max))
        (play acceptAll saturatedTurns (sampleActor u64Max)) ∧
      ownership (play acceptAll saturatedTurns (sampleActor u64Max)) =
        [(none, u64Max), (none, u64Max), (none, u64Max), (some "p", u64Max), (none, u64Max),
          (some "q", u64Max)] :=
  ⟨run_play _ _ _, rfl, rfl, by decide, run_play _ _ _, by decide⟩

end Wardian.Terminal
