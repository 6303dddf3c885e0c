/-
Calls on the editor recovery store, interrupted by crashes.

A run is any sequence of calls and sweeps, each of which a crash may interrupt anywhere.  Unless a
crash leaves a part of a blob in a committed record, or a part of a record that was being discarded,
every call does to the table of notes what it may.

Main results:

* `Recovery.Commit.good` — what a committed checkpoint makes of the store;
* `Recovery.step_checkpoint`, `Recovery.step_discard`, `Recovery.step_of_gentle` — what each call does.
-/

import Wardian.Recovery.Commit

set_option autoImplicit false

namespace Wardian.Recovery

open Results
open Prog (Wp wp_bind wp_ite wp_mono)

variable (backend : Backend)

/-! ### Runs -/

/-- How a call ended: an answer that was ready when the crash came is not given. -/
def outcomeOf : Except Stop Answer × World → Outcome
  | (.ok answer, world) =>
    if world.crash.isSome then .crashed .between else .answered answer
  | (.error (.failed failure), _) => .failed failure
  | (.error (.crashed point), _) => .crashed point

/-- Serve a call; after a crash the store is what the crash left. -/
def roundOf (env : Env) (call : Call) (crash : Option Crash) (disk : Disk) : Round :=
  { env := env
    call := call
    crash := crash
    before := disk
    outcome := outcomeOf (perform backend env call { disk := disk, crash := crash })
    after := (perform backend env call { disk := disk, crash := crash }).2.disk }

/-- The new identifier is written in its canonical form, and no record has it. -/
def Fresh (env : Env) (disk : Disk) : Prop :=
  backend.canonicalUuid env.newRecoveryId = some env.newRecoveryId ∧
    disk[env.newRecoveryId]? = none

inductive Run : List Round → Disk → Prop
  | start : Run [] ∅
  | round {rounds : List Round} {disk : Disk} (env : Env) (call : Call) (crash : Option Crash)
      (hrun : Run rounds disk) (hfrs : Fresh backend env disk) :
      Run (rounds ++ [roundOf backend env call crash disk]) (roundOf backend env call crash disk).after

/-- The text was given to a checkpoint of the run. -/
def Submitted (rounds : List Round) (text : String) : Prop :=
  ∃ round ∈ rounds, ∃ request, round.call = .checkpoint request ∧
    (text = request.submittedBase ∨ text = request.buffer)

/-! ### The promise -/

/-- The checkpoint again, for a recovery at the revision that was recovered. -/
def CheckpointRequest.retry (request : CheckpointRequest) (recoveryId : Option String)
    (revision : Option Nat) : CheckpointRequest :=
  { request with recoveryId := recoveryId, expectedRecoveryRevision := revision }

/-- The checkpoint is committed, or the store is full. -/
def Outcome.Goes (outcome : Outcome) : Prop :=
  (∃ checkpoint, outcome = .answered (.checkpointed checkpoint)) ∨
    ∃ failure, outcome = .failed failure ∧ failure.code = "recovery_capacity_exceeded"

/-- What editor recovery promises after the rounds of a run. -/
structure Survives (rounds : List Round) (disk : Disk) : Prop where
  /-- Every call has done its change or, when it was interrupted or refused, none. -/
  runs : Notes.Runs rounds (noteOf disk)
  /-- A recovery that was checkpointed and not discarded is there. -/
  kept : ∀ before round after request checkpoint, rounds = before ++ round :: after →
    round.call = .checkpoint request → round.outcome = .answered (.checkpointed checkpoint) →
    (∀ later ∈ after, ¬later.Discards checkpoint.recoveryId) →
    noteOf disk checkpoint.recoveryId ≠ none
  /-- It is read back. -/
  readable : ∀ env id note, noteOf disk id = some note → ∃ recovery : FileRecoveryV1,
    (roundOf backend env (.get id note.resourceKey note.webviewScope) none disk).outcome =
        .answered (.recovery recovery) ∧
      recovery.recoveryRevision = note.revision ∧ recovery.base = note.base ∧
      recovery.buffer = note.buffer
  /-- A sweep leaves the blobs that a manifest names. -/
  swept : ∀ env crash id manifest name file, disk.manifestOf id = some manifest →
    manifest.Names name → disk.blobOf id name = some file →
    (roundOf backend env .sweep crash disk).after.blobOf id name = some file
  /-- A call that expects another revision does no more than its sweep. -/
  guarded : ∀ env call crash id expected note, noteOf disk id = some note →
    Notes.Expects id call expected → expected ≠ some note.revision →
    ((roundOf backend env call crash disk).after = disk ∨
      (roundOf backend env call crash disk).after = (roundOf backend env .sweep crash disk).after) ∧
    ∀ answer, (roundOf backend env call crash disk).outcome ≠ .answered answer
  /-- An interrupted checkpoint can be made again: over a recovery of its owner, or as a new one. -/
  retried : ∀ round ∈ rounds, ∀ request point, round.call = .checkpoint request →
    round.outcome = .crashed point →
    (∀ env id note, noteOf disk id = some note → note.resourceKey = request.resourceKey →
      note.webviewScope = request.webviewScope → note.revision < u64Max →
      (roundOf backend env (.checkpoint (request.retry (some id) (some note.revision))) none
        disk).outcome.Goes) ∧
    (∀ env descriptor, Fresh backend env disk → env.live = .ok descriptor →
      request.matchesFile backend descriptor = true →
      (roundOf backend env (.checkpoint (request.retry none none)) none disk).outcome.Goes)

/-! ### The condition -/

/-- The manifest that a checkpoint starts from. -/
def CheckpointRequest.start (env : Env) (request : CheckpointRequest) (disk : Disk) :
    Option FileRecoveryManifestV1 :=
  match request.recoveryId with
  | some id => (disk.manifestOf id).map (updatedManifest env request)
  | none =>
    match env.live with
    | .ok descriptor => some (newManifest env request descriptor)
    | .error _ => none

/-- No crash leaves a part of a blob in a committed record, or a part of a committed record that is
being removed, and the manifest that a checkpoint writes is not longer than one that is read. -/
structure Round.Undisturbed (round : Round) : Prop where
  blob : round.outcome = .crashed .inBlobWrite →
    ∃ request, round.call = .checkpoint request ∧ request.recoveryId = none
  removal : round.outcome ≠ .crashed .inRemoval
  size : ∀ request manifest, round.call = .checkpoint request →
    request.start round.env round.before = some manifest →
    (committedManifest backend manifest request.submittedBase request.buffer round.env.now).size ≤
      maxManifestSize

/-- Every round is undisturbed, and different texts have blobs of different names. -/
structure Undisturbed (rounds : List Round) : Prop where
  each : ∀ round ∈ rounds, round.Undisturbed backend
  distinct : ∀ text text', Submitted rounds text → Submitted rounds text' →
    recoveryBlobName backend text = recoveryBlobName backend text' → text = text'

variable {backend} {texts : String → Prop} {env : Env} {call : Call} {crash : Option Crash}
  {disk disk' : Disk} {request : CheckpointRequest} {manifest : FileRecoveryManifestV1}

/-! ### From programs to rounds -/

theorem round_of_wp {Q : Answer → World → Prop} {R : Stop → World → Prop}
    (h : Wp (perform backend env call) Q R { disk := disk, crash := crash }) :
    (∃ answer world, Q answer world ∧ (roundOf backend env call crash disk).after = world.disk ∧
      ((roundOf backend env call crash disk).outcome = .answered answer ∨
        (roundOf backend env call crash disk).outcome = .crashed .between ∧ world.crash ≠ none)) ∨
    (∃ failure world, R (.failed failure) world ∧
      (roundOf backend env call crash disk).after = world.disk ∧
      (roundOf backend env call crash disk).outcome = .failed failure) ∨
    (∃ point world, R (.crashed point) world ∧
      (roundOf backend env call crash disk).after = world.disk ∧
      (roundOf backend env call crash disk).outcome = .crashed point) := by
  unfold Wp at h
  unfold roundOf
  rcases hrun : perform backend env call { disk := disk, crash := crash } with
    ⟨stop | answer, world⟩
  · rw [hrun] at h
    cases stop with
    | failed failure => exact Or.inr (Or.inl ⟨failure, world, h, rfl, rfl⟩)
    | crashed point => exact Or.inr (Or.inr ⟨point, world, h, rfl, rfl⟩)
  · rw [hrun] at h
    refine Or.inl ⟨answer, world, h, rfl, ?_⟩
    dsimp only [outcomeOf]
    cases hcrs : world.crash with
    | none => exact Or.inl rfl
    | some crash => exact Or.inr ⟨rfl, by simp⟩

/-- A call that changes the store quietly and stops at a crash between two steps or with a failure. -/
def Gentle (backend : Backend) (texts : String → Prop) {α : Type} (prog : RecoveryM α)
    (world : World) : Prop :=
  Wp prog (fun _ world' => Quiet backend texts none world.disk world'.disk)
    (fun stop world' => Quiet backend texts none world.disk world'.disk ∧
      ∀ point, stop = .crashed point → point = .between) world

theorem Gentle.bind {α β : Type} {prog : RecoveryM α} {next : α → RecoveryM β} {world : World}
    (h : Gentle backend texts prog world) (hnext : ∀ a world', Gentle backend texts (next a) world') :
    Gentle backend texts (prog >>= next) world := by
  unfold Gentle
  rw [wp_bind]
  refine wp_mono h ?_ (fun _ _ h => h)
  intro a world' hqui
  refine wp_mono (hnext a world') ?_ ?_
  · exact fun _ _ hqui' => hqui.trans hqui'
  · exact fun _ _ hstop => ⟨hqui.trans hstop.1, hstop.2⟩

theorem Gentle.pure {α : Type} (a : α) (world : World) :
    Gentle backend texts (Pure.pure a : RecoveryM α) world := Quiet.refl world.disk

theorem Gentle.readDisk (world : World) : Gentle backend texts readDisk world :=
  Quiet.refl world.disk

theorem Gentle.check {α : Type} (result : Except FileResourceErrorV1 α) (world : World) :
    Gentle backend texts (check result) world :=
  wp_check (fun _ _ => Quiet.refl _) (fun _ _ => ⟨Quiet.refl _, by simp⟩)

theorem Gentle.fail {α : Type} (failure : FileResourceErrorV1) (world : World) :
    Gentle backend texts (fail failure : RecoveryM α) world :=
  ⟨Quiet.refl _, by simp⟩

theorem Gentle.ite {α : Type} {c : Prop} [Decidable c] {prog prog' : RecoveryM α} {world : World}
    (h : Gentle backend texts prog world) (h' : Gentle backend texts prog' world) :
    Gentle backend texts (if c then prog else prog') world :=
  wp_ite (fun _ => h) (fun _ => h')

theorem Gentle.sweep (texts : String → Prop) (now : Nat) (world : World) :
    Gentle backend texts (sweepRecoveryStore backend now) world := by
  refine wp_mono (sweeps_sweepRecoveryStore texts now world) (fun _ _ h => h.1) ?_
  rintro _ world' ⟨hqui, rfl, -⟩
  refine ⟨hqui, ?_⟩
  rintro point heq
  cases heq
  rfl

theorem gentle_getRecovery (recoveryId resourceKey webviewScope : String) (world : World) :
    Gentle backend texts (getRecovery backend env recoveryId resourceKey webviewScope) world := by
  unfold getRecovery
  refine (Gentle.sweep _ _ _).bind fun _ _ => (Gentle.readDisk _).bind fun _ _ => ?_
  refine (Gentle.check _ _).bind fun _ _ => (Gentle.check _ _).bind fun _ _ => ?_
  exact Gentle.pure _ _

theorem gentle_listRecoveries (resourceKey webviewScope : String) (world : World) :
    Gentle backend texts (listRecoveries backend env resourceKey webviewScope) world := by
  unfold listRecoveries
  refine Gentle.ite (Gentle.fail _ _) ?_
  exact (Gentle.sweep _ _ _).bind fun _ _ => (Gentle.readDisk _).bind fun _ _ => Gentle.pure _ _

theorem gentle_mergeRecovery (recoveryId : String) (expected : Nat)
    (resourceKey webviewScope resourceId : String) (world : World) :
    Gentle backend texts
      (mergeRecovery backend env recoveryId expected resourceKey webviewScope resourceId) world := by
  unfold mergeRecovery
  refine (Gentle.check _ _).bind fun _ _ => Gentle.ite (Gentle.fail _ _) ?_
  refine (Gentle.sweep _ _ _).bind fun _ _ => (Gentle.readDisk _).bind fun _ _ => ?_
  refine (Gentle.check _ _).bind fun _ _ => (Gentle.check _ _).bind fun _ _ => ?_
  refine (Gentle.check _ _).bind fun _ _ => (Gentle.check _ _).bind fun _ _ => ?_
  exact Gentle.pure _ _

/-! ### Checks -/

variable {resourceKey webviewScope : String}

theorem authorizedManifest_eq_ok {recoveryId : String} :
    authorizedManifest backend disk recoveryId resourceKey webviewScope = .ok manifest ↔
      (backend.canonicalUuid recoveryId = some recoveryId ∧
        disk.manifestOf recoveryId = some manifest ∧ manifest.size ≤ maxManifestSize ∧
        manifest.recoveryId = recoveryId ∧ manifest.schema = 1) ∧
      manifest.resourceKey = resourceKey ∧ manifest.webviewScope = webviewScope := by
  have hautho : authorizeRecoveryManifest manifest resourceKey webviewScope = .ok () ↔
      manifest.schema = 1 ∧ manifest.resourceKey = resourceKey ∧
        manifest.webviewScope = webviewScope := by
    unfold authorizeRecoveryManifest
    by_cases h : manifest.schema ≠ 1 ∨ manifest.resourceKey ≠ resourceKey ∨
        manifest.webviewScope ≠ webviewScope
    · rw [if_pos h]
      constructor
      · intro heq
        cases heq
      · rintro ⟨hschm, hkey, hscp⟩
        rcases h with h | h | h
        · exact absurd hschm h
        · exact absurd hkey h
        · exact absurd hscp h
    · rw [if_neg h]
      push Not at h
      exact ⟨fun _ => h, fun _ => rfl⟩
  unfold authorizedManifest
  rw [bind_eq_ok]
  constructor
  · rintro ⟨found, hload, hrest⟩
    obtain ⟨_, hauth, heq⟩ := bind_eq_ok.1 hrest
    obtain rfl := Except.ok.inj heq
    exact ⟨(loadRecoveryManifest_eq_ok backend).1 hload, (hautho.1 hauth).2⟩
  · rintro ⟨hload, hkey, hscp⟩
    exact ⟨manifest, (loadRecoveryManifest_eq_ok backend).2 hload,
      bind_eq_ok.2 ⟨(), hautho.2 ⟨hload.2.2.2.2, hkey, hscp⟩, rfl⟩⟩

theorem currentManifest_eq_ok {recoveryId : String} {expected : Option Nat} :
    currentManifest backend disk recoveryId resourceKey webviewScope expected = .ok manifest ↔
      authorizedManifest backend disk recoveryId resourceKey webviewScope = .ok manifest ∧
      expected = some manifest.recoveryRevision := by
  unfold currentManifest
  rw [bind_eq_ok]
  constructor
  · rintro ⟨found, hfnd, hrest⟩
    by_cases h : expected ≠ some found.recoveryRevision
    · rw [if_pos h] at hrest
      cases hrest
    · rw [if_neg h] at hrest
      obtain rfl := Except.ok.inj hrest
      exact ⟨hfnd, not_not.1 h⟩
  · rintro ⟨hfnd, rfl⟩
    exact ⟨manifest, hfnd, if_neg (by simp)⟩

theorem validate_eq_ok (h : request.validate backend = .ok ()) :
    validateSubmittedText backend.limits request.submittedBase = .ok () ∧
      validateSubmittedText backend.limits request.buffer = .ok () := by
  obtain ⟨_, hbase, h⟩ := bind_eq_ok.1 h
  obtain ⟨_, hbuf, -⟩ := bind_eq_ok.1 h
  exact ⟨hbase, hbuf⟩

/-! ### A discard -/

/-- What a discard of a record leaves. -/
structure Discarded (backend : Backend) (texts : String → Prop) (id : String) (expected : Nat)
    (resourceKey webviewScope : String) (disk disk' : Disk) : Prop where
  current : ∃ manifest, disk.manifestOf id = some manifest ∧
    manifest.resourceKey = resourceKey ∧ manifest.webviewScope = webviewScope ∧
    manifest.recoveryRevision = expected
  removed : ∃ swept, Quiet backend texts none disk swept ∧ disk' = swept.erase id

/-- What a discard that stopped has done: nothing, or it has left a part of the record. -/
def StoppedDiscard (backend : Backend) (texts : String → Prop) (disk : Disk) (stop : Stop)
    (disk' : Disk) : Prop :=
  (Quiet backend texts none disk disk' ∧ ∀ point, stop = .crashed point → point = .between) ∨
  stop = .crashed .inRemoval

variable {id : String}

theorem wp_discardRecovery {expected : Nat} (world : World) :
    Wp (discardRecovery backend env id expected resourceKey webviewScope)
      (fun _ world' =>
        Discarded backend texts id expected resourceKey webviewScope world.disk world'.disk)
      (fun stop world' => StoppedDiscard backend texts world.disk stop world'.disk) world := by
  unfold discardRecovery
  rw [wp_bind]
  refine wp_mono (Gentle.sweep texts env.now world) ?_ (fun _ _ h => Or.inl h)
  intro _ swept hswp
  rw [wp_bind, wp_readDisk, wp_bind]
  refine wp_check ?_ fun _ _ => Or.inl ⟨hswp, by simp⟩
  intro manifest hcur
  obtain ⟨hauthd, hexpd⟩ := currentManifest_eq_ok.1 hcur
  obtain ⟨⟨hid, hman, -, -, -⟩, hkey, hscp⟩ := authorizedManifest_eq_ok.1 hauthd
  unfold removeRecoveryRecord
  rw [wp_bind, wp_readDisk, wp_bind]
  refine wp_check ?_ fun _ _ => Or.inl ⟨hswp, by simp⟩
  intro dir _
  refine wp_fsStep ?_ ?_
  · intro _ _
    exact ⟨⟨manifest, (hswp.manifest id).symm.trans hman, hkey, hscp,
      (Option.some.inj hexpd).symm⟩, swept.disk, hswp, rfl⟩
  · intro crash _
    unfold cutRemoval
    cases crash.kept with
    | none =>
      refine Or.inl ⟨hswp, ?_⟩
      rintro point heq
      cases heq
      rfl
    | some kept =>
      right
      simp [hman]

theorem lookup_eraseRecord (disk : Disk) (id id' : String) :
    (disk.erase id)[id']? = if id = id' then none else disk[id']? := Table.lookup_erase disk id id'

theorem manifestOf_eraseRecord (disk : Disk) (id id' : String) :
    Disk.manifestOf (disk.erase id) id' = if id = id' then none else disk.manifestOf id' := by
  unfold Disk.manifestOf
  rw [lookup_eraseRecord]
  split <;> rfl

theorem blobOf_eraseRecord (disk : Disk) (id id' name : String) :
    Disk.blobOf (disk.erase id) id' name = if id = id' then none else disk.blobOf id' name := by
  unfold Disk.blobOf
  rw [lookup_eraseRecord]
  split <;> rfl

theorem sound_eraseRecord (h : Sound backend disk) :
    Sound backend (disk.erase id) where
  known id' hid := by
    rw [lookup_eraseRecord] at hid
    split at hid
    · cases hid
    · exact h.known id' hid
  readable id' manifest hman := by
    rw [manifestOf_eraseRecord] at hman
    split at hman
    · cases hman
    · rename_i hne
      obtain ⟨base, buffer, hhld⟩ := h.readable id' manifest hman
      have htext : ∀ {name text : String}, HasText backend disk id' name text →
          HasText backend (disk.erase id) id' name text := by
        intro name text htext
        refine ⟨?_, htext.name, htext.valid⟩
        rw [blobOf_eraseRecord, if_neg hne]
        exact htext.file
      exact ⟨base, buffer, by rwa [manifestOf_eraseRecord, if_neg hne], hhld.size,
        hhld.recoveryId, hhld.schema, htext hhld.base, htext hhld.buffer⟩

theorem noteOf_eraseRecord (disk : Disk) (id : String) :
    noteOf (disk.erase id) = Function.update (noteOf disk) id none := by
  funext id'
  by_cases h : id' = id
  · subst h
    rw [Function.update_self]
    exact noteOf_eq_none (by rw [manifestOf_eraseRecord, if_pos rfl])
  · rw [Function.update_of_ne h]
    unfold noteOf textAt
    simp only [manifestOf_eraseRecord, blobOf_eraseRecord, if_neg (Ne.symm h)]

theorem whole_eraseRecord (h : Whole backend texts disk) : Whole backend texts (disk.erase id) := by
  intro id' manifest name file hman hfile
  rw [manifestOf_eraseRecord] at hman
  rw [blobOf_eraseRecord] at hfile
  split at hman
  · cases hman
  · rename_i hne
    rw [if_neg hne] at hfile
    exact h id' manifest name file hman hfile

/-! ### A checkpoint -/

/-- The manifest from which an admitted checkpoint is written. -/
inductive Prepared (backend : Backend) (env : Env) (request : CheckpointRequest) (disk : Disk) :
    FileRecoveryManifestV1 → Prop
  | updated {id : String} {current : FileRecoveryManifestV1} (hid : request.recoveryId = some id)
      (hcur : currentManifest backend disk id request.resourceKey request.webviewScope
        request.expectedRecoveryRevision = .ok current) :
      Prepared backend env request disk (updatedManifest env request current)
  | created {descriptor : FileDescriptor} (hnew : request.recoveryId = none)
      (hexpd : request.expectedRecoveryRevision = none) (hlive : env.live = .ok descriptor) :
      Prepared backend env request disk (newManifest env request descriptor)

theorem prepared_of_ok {descriptor : Option FileDescriptor}
    (hauth : request.authorizeNew backend env = .ok descriptor)
    (h : prepareManifest backend env request descriptor disk = .ok manifest) :
    Prepared backend env request disk manifest := by
  unfold prepareManifest at h
  unfold CheckpointRequest.authorizeNew at hauth
  cases hid : request.recoveryId with
  | some id =>
    rw [hid] at h
    obtain ⟨current, hcur, heq⟩ := bind_eq_ok.1 h
    obtain rfl := Except.ok.inj heq
    exact Prepared.updated hid hcur
  | none =>
    rw [hid] at h hauth
    obtain ⟨live, hlive, hrest⟩ := bind_eq_ok.1 hauth
    dsimp only at h
    split at h
    · cases h
    · rename_i hexpd
      split at hrest
      · cases hrest
      · obtain rfl := Except.ok.inj hrest
        obtain rfl := Except.ok.inj h
        exact Prepared.created hid (by simpa using hexpd) hlive

@[simp] theorem updatedManifest_recoveryId (env : Env) (request : CheckpointRequest)
    (current : FileRecoveryManifestV1) :
    (updatedManifest env request current).recoveryId = current.recoveryId := by
  unfold updatedManifest
  split <;> rfl

@[simp] theorem updatedManifest_recoveryRevision (env : Env) (request : CheckpointRequest)
    (current : FileRecoveryManifestV1) :
    (updatedManifest env request current).recoveryRevision = current.recoveryRevision := by
  unfold updatedManifest
  split <;> rfl

theorem updatedManifest_schema (env : Env) (request : CheckpointRequest) (current : FileRecoveryManifestV1) :
    (updatedManifest env request current).schema = current.schema ∧
      (updatedManifest env request current).resourceKey = current.resourceKey ∧
      (updatedManifest env request current).webviewScope = current.webviewScope := by
  unfold updatedManifest
  split <;> exact ⟨rfl, rfl, rfl⟩

namespace Prepared

/-- The manifest belongs to the caller, and to a record with a canonical name. -/
theorem owned (h : Prepared backend env request disk manifest) (hfrs : Fresh backend env disk') :
    backend.canonicalUuid manifest.recoveryId = some manifest.recoveryId ∧ manifest.schema = 1 ∧
      manifest.resourceKey = request.resourceKey ∧
      manifest.webviewScope = request.webviewScope := by
  cases h with
  | updated hid hcur =>
    rename_i id current
    obtain ⟨hauthd, -⟩ := currentManifest_eq_ok.1 hcur
    obtain ⟨⟨hcan, -, -, rfl, hschm⟩, hkey, hscp⟩ :=
      authorizedManifest_eq_ok.1 hauthd
    obtain ⟨hschm', hkey', hscp'⟩ := updatedManifest_schema env request current
    rw [updatedManifest_recoveryId, hschm', hkey', hscp']
    exact ⟨hcan, hschm, hkey, hscp⟩
  | created _ _ _ => exact ⟨hfrs.1, rfl, rfl, rfl⟩

theorem start_eq (h : Prepared backend env request disk' manifest)
    (hqui : Quiet backend texts none disk disk') : request.start env disk = some manifest := by
  unfold CheckpointRequest.start
  cases h with
  | updated hid hcur =>
    obtain ⟨hauthd, -⟩ := currentManifest_eq_ok.1 hcur
    obtain ⟨⟨-, hman, -, -, -⟩, -, -⟩ := authorizedManifest_eq_ok.1 hauthd
    rw [hid]
    dsimp only
    rw [← hqui.manifest, hman]
    rfl
  | created hnew _ hlive =>
    rw [hnew, hlive]

end Prepared

namespace Committed

variable {base buffer : String} {swept : Disk}

theorem after_quiet (h : Committed backend texts manifest base buffer swept disk')
    (hqui : Quiet backend texts none disk swept) :
    Committed backend texts manifest base buffer disk disk' where
  known id hid := by
    rcases h.known id hid with hid | hid
    · exact hqui.known id hid
    · exact Or.inr hid
  replaced id := by rw [h.replaced, hqui.manifest]
  base := h.base
  buffer := h.buffer
  named id other name file hne hoth hnms hfile :=
    h.named id other name file hne ((hqui.manifest id).trans hoth) hnms
      (hqui.named id other name file hoth hnms hfile)
  grown id name file hfile := by
    rcases h.grown id name file hfile with hfile | hwhl
    · exact hqui.grown id name file (by simp) hfile
    · exact Or.inr hwhl

theorem holds {id : String} {other : FileRecoveryManifestV1} {base' buffer' : String}
    (h : Committed backend texts manifest base buffer disk disk') (hne : id ≠ manifest.recoveryId)
    (hhld : Holds backend disk id other base' buffer') : Holds backend disk' id other base' buffer' := by
  have htext : ∀ {name text : String}, other.Names name → HasText backend disk id name text →
      HasText backend disk' id name text := by
    intro name text hnms htext
    obtain ⟨file, hfile, hbts⟩ := htext.file
    exact ⟨⟨file, h.named id other name file hne hhld.found hnms hfile, hbts⟩, htext.name,
      htext.valid⟩
  exact ⟨by rw [h.replaced, if_neg hne.symm, hhld.found], hhld.size, hhld.recoveryId,
    hhld.schema, htext (Or.inl rfl) hhld.base, htext (Or.inr rfl) hhld.buffer⟩

theorem holds_own (h : Committed backend texts manifest base buffer disk disk')
    (hsize : manifest.size ≤ maxManifestSize) (hschm : manifest.schema = 1)
    (hbaseBlob : manifest.baseBlob = recoveryBlobName backend base)
    (hbufferBlob : manifest.bufferBlob = recoveryBlobName backend buffer)
    (hbase : validateSubmittedText backend.limits base = .ok ())
    (hbuf : validateSubmittedText backend.limits buffer = .ok ()) :
    Holds backend disk' manifest.recoveryId manifest base buffer :=
  ⟨by rw [h.replaced, if_pos rfl], hsize, rfl, hschm, ⟨h.base, hbaseBlob, hbase⟩,
    ⟨h.buffer, hbufferBlob, hbuf⟩⟩

theorem sound (h : Committed backend texts manifest base buffer disk disk') (hsnd : Sound backend disk)
    (hown : Holds backend disk' manifest.recoveryId manifest base buffer) :
    Sound backend disk' where
  known id hid := by
    rcases h.known id hid with hid | hid
    · exact hsnd.known id hid
    · exact hid
  readable id other hoth := by
    by_cases heq : id = manifest.recoveryId
    · subst heq
      rw [h.replaced, if_pos rfl] at hoth
      obtain rfl := Option.some.inj hoth
      exact ⟨base, buffer, hown⟩
    · rw [h.replaced, if_neg (Ne.symm heq)] at hoth
      obtain ⟨base', buffer', hhld⟩ := hsnd.readable id other hoth
      exact ⟨base', buffer', h.holds heq hhld⟩

theorem noteOf (h : Committed backend texts manifest base buffer disk disk') (hsnd : Sound backend disk)
    (hown : Holds backend disk' manifest.recoveryId manifest base buffer) :
    noteOf disk' = Function.update (noteOf disk) manifest.recoveryId
      (some { resourceKey := manifest.resourceKey
              webviewScope := manifest.webviewScope
              revision := manifest.recoveryRevision
              base := base
              buffer := buffer }) := by
  funext id
  by_cases heq : id = manifest.recoveryId
  · subst heq
    rw [Function.update_self, hown.noteOf]
  · rw [Function.update_of_ne heq]
    cases hoth : disk.manifestOf id with
    | none =>
      rw [noteOf_eq_none hoth, noteOf_eq_none]
      rw [h.replaced, if_neg (Ne.symm heq), hoth]
    | some other =>
      obtain ⟨base', buffer', hhld⟩ := hsnd.readable id other hoth
      rw [hhld.noteOf, (h.holds heq hhld).noteOf]

theorem whole (h : Committed backend texts manifest base buffer disk disk')
    (hwhl : Whole backend texts disk)
    (hown : (disk.manifestOf manifest.recoveryId).isSome ∨ disk[manifest.recoveryId]? = none) :
    Whole backend texts disk' := by
  intro id other name file hoth hfile
  rcases h.grown id name file hfile with hfile | hfile
  · rw [h.replaced] at hoth
    split at hoth
    · rename_i heq
      subst heq
      rcases hown with hsome | hnone
      · obtain ⟨current, hcur⟩ := Option.isSome_iff_exists.1 hsome
        exact hwhl _ current name file hcur hfile
      · unfold Disk.blobOf at hfile
        rw [hnone] at hfile
        cases hfile
    · exact hwhl id other name file hoth hfile
  · exact hfile

end Committed

namespace Prepared

variable {swept : Disk}

theorem record (h : Prepared backend env request swept manifest)
    (hqui : Quiet backend texts none disk swept) (hfrs : Fresh backend env disk) :
    (disk.manifestOf manifest.recoveryId).isSome ∨ disk[manifest.recoveryId]? = none := by
  cases h with
  | updated hid hcur =>
    left
    obtain ⟨hauthd, -⟩ := currentManifest_eq_ok.1 hcur
    obtain ⟨⟨-, hman, -, rfl, -⟩, -, -⟩ := authorizedManifest_eq_ok.1 hauthd
    rw [updatedManifest_recoveryId, ← hqui.manifest, hman]
    rfl
  | created _ _ _ => exact Or.inr hfrs.2

theorem commits (h : Prepared backend env request swept manifest)
    (hqui : Quiet backend texts none disk swept) (hsnd : Sound backend disk)
    (hfrs : Fresh backend env disk) :
    Notes.Commits request manifest.recoveryId (manifest.recoveryRevision + 1) (noteOf disk)
      (Function.update (noteOf disk) manifest.recoveryId
        (some (request.note (manifest.recoveryRevision + 1)))) := by
  cases h with
  | updated hid hcur =>
    obtain ⟨hauthd, hexpd⟩ := currentManifest_eq_ok.1 hcur
    obtain ⟨⟨-, hman, -, rfl, -⟩, hkey, hscp⟩ := authorizedManifest_eq_ok.1 hauthd
    rw [hqui.manifest] at hman
    obtain ⟨base, buffer, hhld⟩ := hsnd.readable _ _ hman
    rw [updatedManifest_recoveryId, updatedManifest_recoveryRevision]
    exact Notes.Commits.updated hid hhld.noteOf hkey hscp hexpd rfl
  | created hnew hexpd _ =>
    refine Notes.Commits.created hnew hexpd (noteOf_eq_none ?_) rfl
    unfold Disk.manifestOf
    change (disk[env.newRecoveryId]?).bind _ = none
    rw [hfrs.2]
    rfl

end Prepared

/-- What a checkpoint has done when it was committed. -/
structure Commit (backend : Backend) (texts : String → Prop) (env : Env)
    (request : CheckpointRequest) (manifest : FileRecoveryManifestV1) (disk disk' : Disk) :
    Prop where
  valid : request.validate backend = .ok ()
  prepared : ∃ swept, Quiet backend texts none disk swept ∧
    Prepared backend env request swept manifest
  committed : Committed backend texts
    (committedManifest backend manifest request.submittedBase request.buffer env.now)
    request.submittedBase request.buffer disk disk'

/-- What a checkpoint that stopped has done: nothing, or all of it, or it has left a part of a blob. -/
def StoppedCheckpoint (backend : Backend) (texts : String → Prop) (env : Env)
    (request : CheckpointRequest) (disk : Disk) (stop : Stop) (disk' : Disk) : Prop :=
  (Quiet backend texts none disk disk' ∧ ∀ point, stop = .crashed point → point = .between) ∨
  (stop = .crashed .between ∧ ∃ manifest,
    Commit backend texts env request manifest disk disk') ∨
  (stop = .crashed .inBlobWrite ∧ ∃ manifest swept, Quiet backend texts none disk swept ∧
    Prepared backend env request swept manifest ∧
    Quiet backend texts (some manifest.recoveryId) disk disk')

theorem wp_checkpointRecovery (world : World) (hfrs : Fresh backend env world.disk)
    (hbase : texts request.submittedBase) (hbuf : texts request.buffer) :
    Wp (checkpointRecovery backend env request)
      (fun checkpoint world' => ∃ manifest,
        Commit backend texts env request manifest world.disk world'.disk ∧
        checkpoint.recoveryId = manifest.recoveryId ∧
        checkpoint.recoveryRevision = manifest.recoveryRevision + 1)
      (fun stop world' => StoppedCheckpoint backend texts env request world.disk stop world'.disk)
      world := by
  unfold checkpointRecovery
  rw [wp_bind]
  refine wp_check ?_ fun _ _ => Or.inl ⟨Quiet.refl _, by simp⟩
  intro _ hval
  rw [wp_bind]
  refine wp_check ?_ fun _ _ => Or.inl ⟨Quiet.refl _, by simp⟩
  intro descriptor hauth
  rw [wp_bind]
  refine wp_mono (Gentle.sweep texts env.now world) ?_ fun _ _ h => Or.inl h
  intro _ swept hswp
  rw [wp_bind, wp_readDisk, wp_bind]
  refine wp_check ?_ fun _ _ => Or.inl ⟨hswp, by simp⟩
  intro manifest hman
  have hprep := prepared_of_ok hauth hman
  obtain ⟨hcan, -⟩ := hprep.owned hfrs
  rw [wp_bind]
  refine wp_check ?_ fun _ _ => Or.inl ⟨hswp, by simp⟩
  intro _ _
  rw [wp_bind]
  refine wp_mono (wp_writeRecoveryCheckpoint hcan hbase hbuf) ?_ ?_
  · rintro _ world' ⟨rfl, hcomm, -⟩
    exact ⟨manifest, ⟨hval, ⟨swept.disk, hswp, hprep⟩, hcomm.after_quiet hswp⟩,
      rfl, rfl⟩
  · rintro stop world' ⟨⟨hqui, hstop⟩ | ⟨rfl, hcomm⟩, -⟩
    · cases stop with
      | failed failure => exact Or.inl ⟨hswp.trans hqui, by simp⟩
      | crashed point =>
        cases point with
        | between => exact Or.inl ⟨hswp.trans hqui, by simp⟩
        | inBlobWrite =>
          exact Or.inr (Or.inr ⟨rfl, manifest, swept.disk, hswp, hprep,
            (hswp.weaken _).trans hqui⟩)
        | inRemoval => exact absurd rfl hstop
    · exact Or.inr (Or.inl ⟨rfl, manifest, hval, ⟨swept.disk, hswp, hprep⟩,
        hcomm.after_quiet hswp⟩)

/-! ### What one call does -/

/-- What holds of the store in an undisturbed run. -/
structure Good (backend : Backend) (texts : String → Prop) (disk : Disk) : Prop where
  sound : Sound backend disk
  whole : Whole backend texts disk

theorem Good.quiet (h : Good backend texts disk) (hqui : Quiet backend texts none disk disk') :
    Good backend texts disk' :=
  ⟨hqui.sound h.sound, hqui.whole h.whole (by simp)⟩

theorem Commit.good (h : Commit backend texts env request manifest disk disk')
    (hgood : Good backend texts disk) (hfrs : Fresh backend env disk)
    (hsize : ∀ manifest, request.start env disk = some manifest →
      (committedManifest backend manifest request.submittedBase request.buffer env.now).size ≤
        maxManifestSize) :
    Good backend texts disk' ∧ Notes.Commits request manifest.recoveryId
      (manifest.recoveryRevision + 1) (noteOf disk) (noteOf disk') := by
  obtain ⟨swept, hqui, hprep⟩ := h.prepared
  obtain ⟨-, hschm, hkey, hscp⟩ := hprep.owned hfrs
  obtain ⟨hbase, hbuf⟩ := validate_eq_ok h.valid
  have hown := h.committed.holds_own (hsize manifest (hprep.start_eq hqui)) hschm rfl rfl
    hbase hbuf
  refine ⟨⟨h.committed.sound hgood.sound hown,
    h.committed.whole hgood.whole (hprep.record hqui hfrs)⟩, ?_⟩
  have hcoms := hprep.commits hqui hgood.sound hfrs
  rw [h.committed.noteOf hgood.sound hown]
  change Notes.Commits request manifest.recoveryId _ (noteOf disk)
    (Function.update (noteOf disk) manifest.recoveryId (some
      { resourceKey := manifest.resourceKey
        webviewScope := manifest.webviewScope
        revision := manifest.recoveryRevision + 1
        base := request.submittedBase
        buffer := request.buffer }))
  rw [hkey, hscp]
  exact hcoms

theorem step_of_gentle (h : Gentle backend texts (perform backend env call) { disk := disk, crash := crash })
    (hgood : Good backend texts disk) (hcp : ∀ request, call ≠ .checkpoint request)
    (hdisc : ∀ id expected resourceKey webviewScope, call ≠ .discard id expected resourceKey webviewScope) :
    Good backend texts (roundOf backend env call crash disk).after ∧
      Notes.Step call (roundOf backend env call crash disk).outcome (noteOf disk)
        (noteOf (roundOf backend env call crash disk).after) := by
  have hqui : Quiet backend texts none disk (roundOf backend env call crash disk).after := by
    rcases round_of_wp h with ⟨_, world, hqui, haft, -⟩ | ⟨_, world, hqui, haft, -⟩ |
      ⟨_, world, hqui, haft, -⟩
    · rwa [haft]
    · rw [haft]
      exact hqui.1
    · rw [haft]
      exact hqui.1
  rw [hqui.noteOf hgood.sound]
  exact ⟨hgood.quiet hqui, Notes.Step.unchanged
    (fun request heq => absurd heq (hcp request))
    (fun id expected key scope heq => absurd heq (hdisc id expected key scope))⟩

/-- A round that failed or was cut has changed nothing of the table. -/
theorem step_unanswered (h : Quiet backend texts none disk (roundOf backend env call crash disk).after)
    (hgood : Good backend texts disk)
    (hout : ∀ answer, (roundOf backend env call crash disk).outcome ≠ .answered answer) :
    Good backend texts (roundOf backend env call crash disk).after ∧
      Notes.Step call (roundOf backend env call crash disk).outcome (noteOf disk)
        (noteOf (roundOf backend env call crash disk).after) := by
  rw [h.noteOf hgood.sound]
  exact ⟨hgood.quiet h, Notes.Step.unchanged (fun _ _ => hout) (fun _ _ _ _ _ => hout)⟩

theorem step_checkpoint (hgood : Good backend texts disk) (hfrs : Fresh backend env disk)
    (hbase : texts request.submittedBase) (hbuf : texts request.buffer)
    (hundi : (roundOf backend env (.checkpoint request) crash disk).Undisturbed backend) :
    Good backend texts (roundOf backend env (.checkpoint request) crash disk).after ∧
      Notes.Step (.checkpoint request)
        (roundOf backend env (.checkpoint request) crash disk).outcome (noteOf disk)
        (noteOf (roundOf backend env (.checkpoint request) crash disk).after) := by
  have hsize := fun manifest => hundi.size request manifest rfl
  have hwp := wp_checkpointRecovery { disk := disk, crash := crash } hfrs hbase hbuf
  have hperf : Wp (perform backend env (.checkpoint request))
      (fun answer world' => ∃ checkpoint manifest, answer = .checkpointed checkpoint ∧
        Commit backend texts env request manifest disk world'.disk ∧
        checkpoint.recoveryId = manifest.recoveryId ∧
        checkpoint.recoveryRevision = manifest.recoveryRevision + 1)
      (fun stop world' => StoppedCheckpoint backend texts env request disk stop world'.disk)
      { disk := disk, crash := crash } := by
    unfold perform
    rw [wp_bind]
    refine wp_mono hwp ?_ (fun _ _ h => h)
    rintro checkpoint world' ⟨manifest, hcom, hid, hrev⟩
    exact ⟨checkpoint, manifest, rfl, hcom, hid, hrev⟩
  rcases round_of_wp hperf with
    ⟨_, world, ⟨checkpoint, manifest, rfl, hcom, hid, hrev⟩, haft, hout⟩ |
    ⟨failure, world, hstop, haft, hout⟩ | ⟨point, world, hstop, haft, hout⟩
  · obtain ⟨hgood', hcoms⟩ := hcom.good hgood hfrs hsize
    rw [← haft] at hgood' hcoms
    refine ⟨hgood', ?_⟩
    rcases hout with hout | ⟨hout, -⟩
    · rw [hout]
      exact Notes.Step.checkpointed (by rwa [hid, hrev])
    · rw [hout]
      exact Notes.Step.interrupted hcoms
  · rcases hstop with ⟨hqui, -⟩ | ⟨heq, -⟩ | ⟨heq, -⟩
    · rw [← haft] at hqui
      exact step_unanswered hqui hgood (by rw [hout]; simp)
    · cases heq
    · cases heq
  · rcases hstop with ⟨hqui, -⟩ | ⟨-, manifest, hcom⟩ |
      ⟨heq, manifest, swept, hswp, hprep, hqui⟩
    · rw [← haft] at hqui
      exact step_unanswered hqui hgood (by rw [hout]; simp)
    · obtain ⟨hgood', hcoms⟩ := hcom.good hgood hfrs hsize
      rw [← haft] at hgood' hcoms
      rw [hout]
      exact ⟨hgood', Notes.Step.interrupted hcoms⟩
    · cases heq
      -- The torn blob is in a new record, which has no manifest.
      obtain ⟨request', hcall, hnew⟩ := hundi.blob hout
      obtain rfl := Call.checkpoint.inj hcall
      have hnone : disk.manifestOf manifest.recoveryId = none := by
        cases hprep with
        | updated hid _ =>
          rw [hid] at hnew
          cases hnew
        | created _ _ _ =>
          unfold Disk.manifestOf
          change (disk[env.newRecoveryId]?).bind _ = none
          rw [hfrs.2]
          rfl
      rw [← haft] at hqui
      rw [hqui.noteOf hgood.sound, hout]
      refine ⟨⟨hqui.sound hgood.sound, hqui.whole hgood.whole ?_⟩,
        Notes.Step.unchanged (by simp) (by simp)⟩
      rintro id heq
      obtain rfl := Option.some.inj heq
      exact hnone

theorem step_discard {expected : Nat} (hgood : Good backend texts disk)
    (hundi : (roundOf backend env (.discard id expected resourceKey webviewScope) crash
      disk).Undisturbed backend) :
    Good backend texts
        (roundOf backend env (.discard id expected resourceKey webviewScope) crash disk).after ∧
      Notes.Step (.discard id expected resourceKey webviewScope)
        (roundOf backend env (.discard id expected resourceKey webviewScope) crash disk).outcome
        (noteOf disk) (noteOf (roundOf backend env (.discard id expected resourceKey webviewScope)
          crash disk).after) := by
  have hperf : Wp (perform backend env (.discard id expected resourceKey webviewScope))
      (fun answer world' => answer = .discarded ∧
        Discarded backend texts id expected resourceKey webviewScope disk world'.disk)
      (fun stop world' => StoppedDiscard backend texts disk stop world'.disk)
      { disk := disk, crash := crash } := by
    unfold perform
    rw [wp_bind]
    refine wp_mono (wp_discardRecovery _) ?_ (fun _ _ h => h)
    exact fun _ _ h => ⟨rfl, h⟩
  rcases round_of_wp hperf with
    ⟨_, world, ⟨rfl, hdisc⟩, haft, hout⟩ |
    ⟨failure, world, hstop, haft, hout⟩ | ⟨point, world, hstop, haft, hout⟩
  · rw [← haft] at hdisc
    obtain ⟨manifest, hman, hkey, hscp, hrev⟩ := hdisc.current
    obtain ⟨swept, hqui, hrem⟩ := hdisc.removed
    obtain ⟨base, buffer, hhld⟩ := hgood.sound.readable id manifest hman
    have hdisca : Notes.Discards id expected resourceKey webviewScope (noteOf disk)
        (noteOf (swept.erase id)) := by
      rw [noteOf_eraseRecord, hqui.noteOf hgood.sound]
      exact ⟨rfl, _, hhld.noteOf, hkey, hscp, hrev⟩
    have hgood' := hgood.quiet hqui
    rw [hrem]
    refine ⟨⟨sound_eraseRecord hgood'.sound, whole_eraseRecord hgood'.whole⟩, ?_⟩
    rcases hout with hout | ⟨hout, -⟩
    · rw [hout]
      exact Notes.Step.discarded hdisca
    · rw [hout]
      exact Notes.Step.cutShort hdisca
  · rcases hstop with ⟨hqui, -⟩ | heq
    · rw [← haft] at hqui
      exact step_unanswered hqui hgood (by rw [hout]; simp)
    · cases heq
  · rcases hstop with ⟨hqui, -⟩ | heq
    · rw [← haft] at hqui
      exact step_unanswered hqui hgood (by rw [hout]; simp)
    · cases heq
      exact absurd hout hundi.removal

end Wardian.Recovery
