/-
What the recovery store is for.

Seen from outside, the store is a table of notes: for each recovery the two texts, the revision, and
whom it belongs to.  A committed checkpoint replaces one note and raises its revision by one; a discard
removes one; nothing else changes the table.  A call that a crash interrupted has done its change or
has not.

Main results:

* `Recovery.Notes.Runs.kept` — a recovery that was once checkpointed and not discarded is there.
-/

import Wardian.Recovery.Operations

set_option autoImplicit false

namespace Wardian.Recovery

/-- How a call ended for its caller. -/
inductive Outcome
  | answered (answer : Answer)
  | failed (failure : FileResourceErrorV1)
  | crashed (point : CrashPoint)
deriving DecidableEq

/-- One recovery. -/
structure Note where
  resourceKey : String
  webviewScope : String
  revision : Nat
  base : String
  buffer : String
deriving DecidableEq

/-- The recoveries, by identifier. -/
abbrev Notes : Type := String → Option Note

/-- The note that a checkpoint leaves. -/
def CheckpointRequest.note (request : CheckpointRequest) (revision : Nat) : Note :=
  { resourceKey := request.resourceKey
    webviewScope := request.webviewScope
    revision := revision
    base := request.submittedBase
    buffer := request.buffer }

namespace Notes

/-- The checkpoint is committed: as the first of a new recovery, or over the revision that the caller
expects. -/
inductive Commits (request : CheckpointRequest) (id : String) (revision : Nat) :
    Notes → Notes → Prop
  | created {notes : Notes} (hnew : request.recoveryId = none)
      (hexpd : request.expectedRecoveryRevision = none) (hnone : notes id = none)
      (hrev : revision = 1) :
      Commits request id revision notes
        (Function.update notes id (some (request.note revision)))
  | updated {notes : Notes} {note : Note} (hid : request.recoveryId = some id)
      (hnote : notes id = some note) (hkey : note.resourceKey = request.resourceKey)
      (hscp : note.webviewScope = request.webviewScope)
      (hexpd : request.expectedRecoveryRevision = some note.revision)
      (hrev : revision = note.revision + 1) :
      Commits request id revision notes
        (Function.update notes id (some (request.note revision)))

/-- The recovery is discarded, at the revision that the caller expects. -/
def Discards (id : String) (expected : Nat) (resourceKey webviewScope : String)
    (notes notes' : Notes) : Prop :=
  notes' = Function.update notes id none ∧
    ∃ note, notes id = some note ∧ note.resourceKey = resourceKey ∧
      note.webviewScope = webviewScope ∧ note.revision = expected

/-- What one call may do. -/
inductive Step : Call → Outcome → Notes → Notes → Prop
  | checkpointed {request : CheckpointRequest} {checkpoint : FileRecoveryCheckpointV1}
      {notes notes' : Notes}
      (hcoms : Commits request checkpoint.recoveryId checkpoint.recoveryRevision notes notes') :
      Step (.checkpoint request) (.answered (.checkpointed checkpoint)) notes notes'
  | interrupted {request : CheckpointRequest} {id : String} {revision : Nat} {point : CrashPoint}
      {notes notes' : Notes} (hcoms : Commits request id revision notes notes') :
      Step (.checkpoint request) (.crashed point) notes notes'
  | discarded {id : String} {expected : Nat} {resourceKey webviewScope : String}
      {notes notes' : Notes} (hdisc : Discards id expected resourceKey webviewScope notes notes') :
      Step (.discard id expected resourceKey webviewScope) (.answered .discarded) notes notes'
  | cutShort {id : String} {expected : Nat} {resourceKey webviewScope : String} {point : CrashPoint}
      {notes notes' : Notes} (hdisc : Discards id expected resourceKey webviewScope notes notes') :
      Step (.discard id expected resourceKey webviewScope) (.crashed point) notes notes'
  | unchanged {call : Call} {outcome : Outcome} {notes : Notes}
      (hcp : ∀ request, call = .checkpoint request → ∀ answer, outcome ≠ .answered answer)
      (hdisca : ∀ id expected resourceKey webviewScope,
        call = .discard id expected resourceKey webviewScope → ∀ answer, outcome ≠ .answered answer) :
      Step call outcome notes notes

end Notes

/-- One call of a run. -/
structure Round where
  env : Env
  call : Call
  crash : Option Crash
  before : Disk
  outcome : Outcome
  after : Disk

/-- The call is a discard of the recovery, which returned or was interrupted. -/
def Round.Discards (round : Round) (id : String) : Prop :=
  (∃ expected resourceKey webviewScope,
    round.call = .discard id expected resourceKey webviewScope) ∧
    ∀ failure, round.outcome ≠ .failed failure

namespace Notes

/-- The table after the rounds of a run, from an empty one. -/
inductive Runs : List Round → Notes → Prop
  | start : Runs [] fun _ => none
  | round {rounds : List Round} {notes notes' : Notes} (round : Round) (hruns : Runs rounds notes)
      (hstep : Step round.call round.outcome notes notes') : Runs (rounds ++ [round]) notes'

theorem Step.kept {round : Round} {notes notes' : Notes} {id : String}
    (h : Step round.call round.outcome notes notes') (hdisc : ¬round.Discards id)
    (hnote : notes id ≠ none) : notes' id ≠ none := by
  obtain ⟨env, call, crash, before, outcome, after⟩ := round
  have hcom : ∀ {request : CheckpointRequest} {id' : String} {revision : Nat},
      Commits request id' revision notes notes' → notes' id ≠ none := by
    intro request id' revision hcoms
    by_cases hid : id = id'
    · subst hid
      cases hcoms <;> simp
    · cases hcoms <;> rwa [Function.update_of_ne hid]
  have hdisca : ∀ {id' : String} {expected : Nat} {resourceKey webviewScope : String},
      call = .discard id' expected resourceKey webviewScope → (∀ failure, outcome ≠ .failed failure) →
      Discards id' expected resourceKey webviewScope notes notes' → notes' id ≠ none := by
    rintro id' expected resourceKey webviewScope rfl hout ⟨rfl, -⟩
    by_cases hid : id = id'
    · subst hid
      exact absurd ⟨⟨expected, resourceKey, webviewScope, rfl⟩, hout⟩ hdisc
    · rwa [Function.update_of_ne hid]
  cases h with
  | checkpointed hcoms | interrupted hcoms => exact hcom hcoms
  | discarded h | cutShort h => exact hdisca rfl (by simp) h
  | unchanged => exact hnote

/-- **A recovery that was once checkpointed and not discarded since is there.** -/
theorem Runs.kept {rounds : List Round} {notes : Notes} (h : Runs rounds notes) :
    ∀ {before after : List Round} {round : Round} {request : CheckpointRequest}
      {checkpoint : FileRecoveryCheckpointV1}, rounds = before ++ round :: after →
      round.call = .checkpoint request → round.outcome = .answered (.checkpointed checkpoint) →
      (∀ later ∈ after, ¬later.Discards checkpoint.recoveryId) →
      notes checkpoint.recoveryId ≠ none := by
  induction h with
  | start =>
    intro before after round request checkpoint hrounds
    simp at hrounds
  | @round rounds notes notes' last hruns hstep ih =>
    intro before after round request checkpoint hrounds hcall hout haft
    rcases List.eq_nil_or_concat after with rfl | ⟨front, final, rfl⟩
    · obtain ⟨rfl, hlast⟩ := List.append_inj' hrounds rfl
      obtain rfl := List.singleton_inj.1 hlast
      rw [hcall, hout] at hstep
      cases hstep with
      | checkpointed hcoms => cases hcoms <;> simp
      | unchanged hcp _ => exact absurd rfl (hcp request rfl _)
    · have hspl : rounds ++ [last] = (before ++ round :: front) ++ [final] := by
        rw [hrounds]
        simp
      obtain ⟨rfl, hlast⟩ := List.append_inj' hspl rfl
      obtain rfl := List.singleton_inj.1 hlast
      refine hstep.kept (haft last (by simp)) ?_
      exact ih rfl hcall hout fun later hltr => haft later (by simp [hltr])

/-- The call expects the revision of the recovery. -/
inductive Expects (id : String) : Call → Option Nat → Prop
  | checkpoint (request : CheckpointRequest) (hid : request.recoveryId = some id) :
      Expects id (.checkpoint request) request.expectedRecoveryRevision
  | discard (expected : Nat) (resourceKey webviewScope : String) :
      Expects id (.discard id expected resourceKey webviewScope) (some expected)
  | merge (expected : Nat) (resourceKey webviewScope resourceId : String) :
      Expects id (.merge id expected resourceKey webviewScope resourceId) (some expected)

end Notes

end Wardian.Recovery
