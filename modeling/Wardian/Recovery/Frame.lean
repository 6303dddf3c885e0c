/-
What the sweep and the steps before a commit leave alone.

A change of the store is quiet when every manifest stays, every blob that a manifest names stays, and
every file that is new under the name of a blob has the whole text of one: but for one record, where a
crash may have left a part.  The sweep is quiet, wherever it stops.

Main results:

* `Recovery.loadRecoveryManifest_eq_ok` — when a manifest is read;
* `Recovery.Quiet.trans`, `Recovery.Quiet.change` — quiet changes compose, and how one is shown;
* `Recovery.sweeps_sweepRecoveryStore` — the sweep is quiet, and stops at a crash only.
-/

import Wardian.Lib.Results
import Wardian.Recovery.Operations

set_option autoImplicit false

namespace Wardian.Recovery

open List
open Prog (Wp wp_bind wp_ite wp_mono)

variable (backend : Backend)

/-! ### Reading a manifest -/

variable {recoveryId : String}

theorem checkRecoveryId_eq_ok :
    checkRecoveryId backend recoveryId = .ok () ↔
      backend.canonicalUuid recoveryId = some recoveryId := by
  unfold checkRecoveryId
  cases hparsed : backend.canonicalUuid recoveryId with
  | none => simp
  | some parsed =>
    by_cases heq : parsed = recoveryId
    · simp [heq]
    · simp [heq]

variable {dir : RecordDir}

theorem validateRecoveryRecordDir_eq_ok {disk : Disk} :
    validateRecoveryRecordDir backend disk recoveryId = .ok dir ↔
      backend.canonicalUuid recoveryId = some recoveryId ∧ disk[recoveryId]? = some dir := by
  unfold validateRecoveryRecordDir
  rw [Results.bind_eq_ok]
  constructor
  · rintro ⟨_, hid, hdir⟩
    refine ⟨(checkRecoveryId_eq_ok backend).1 hid, ?_⟩
    split at hdir
    · cases hdir
    · rename_i dir' hdir'
      rw [hdir', Except.ok.inj hdir]
  · rintro ⟨hid, hdir⟩
    exact ⟨(), (checkRecoveryId_eq_ok backend).2 hid, by rw [hdir]⟩

variable {manifest : FileRecoveryManifestV1}

theorem readManifest_eq_ok :
    readManifest recoveryId dir = .ok manifest ↔ dir.manifest = some manifest ∧
      manifest.size ≤ maxManifestSize ∧ manifest.recoveryId = recoveryId ∧
      manifest.schema = 1 := by
  unfold readManifest
  cases hman : dir.manifest with
  | none => simp
  | some found =>
    by_cases hsize : maxManifestSize < found.size
    · simp only [if_pos hsize, Option.some.injEq]
      constructor
      · intro h
        cases h
      · rintro ⟨rfl, hle, -⟩
        omega
    · by_cases hidn : found.recoveryId ≠ recoveryId ∨ found.schema ≠ 1
      · simp only [if_neg hsize, if_pos hidn, Option.some.injEq]
        constructor
        · intro h
          cases h
        · rintro ⟨rfl, -, hid, hschm⟩
          rcases hidn with hne | hne
          · exact absurd hid hne
          · exact absurd hschm hne
      · simp only [if_neg hsize, if_neg hidn, Option.some.injEq]
        have hboth : found.recoveryId = recoveryId ∧ found.schema = 1 := by
          constructor
          · by_contra hne
            exact hidn (Or.inl hne)
          · by_contra hne
            exact hidn (Or.inr hne)
        constructor
        · intro h
          obtain rfl := Except.ok.inj h
          exact ⟨rfl, by omega, hboth⟩
        · rintro ⟨rfl, -, -⟩
          rfl

theorem loadRecoveryManifest_eq_ok {disk : Disk} :
    loadRecoveryManifest backend disk recoveryId = .ok manifest ↔
      backend.canonicalUuid recoveryId = some recoveryId ∧
      disk.manifestOf recoveryId = some manifest ∧ manifest.size ≤ maxManifestSize ∧
      manifest.recoveryId = recoveryId ∧ manifest.schema = 1 := by
  unfold loadRecoveryManifest Disk.manifestOf
  rw [Results.bind_eq_ok]
  constructor
  · rintro ⟨dir, hdir, hread⟩
    obtain ⟨hid, hdir⟩ := (validateRecoveryRecordDir_eq_ok backend).1 hdir
    obtain ⟨hman, hrest⟩ := readManifest_eq_ok.1 hread
    exact ⟨hid, by rw [hdir]; exact hman, hrest⟩
  · rintro ⟨hid, hman, hrest⟩
    cases hdir : disk[recoveryId]? with
    | none =>
      rw [hdir] at hman
      cases hman
    | some dir =>
      rw [hdir] at hman
      exact ⟨dir, (validateRecoveryRecordDir_eq_ok backend).2 ⟨hid, hdir⟩,
        readManifest_eq_ok.2 ⟨hman, hrest⟩⟩

theorem manifestOf_of_notFound {disk : Disk} {failure : FileResourceErrorV1}
    (h : loadRecoveryManifest backend disk recoveryId = .error failure)
    (hcode : failure.code = "recovery_not_found") : disk.manifestOf recoveryId = none := by
  unfold Disk.manifestOf
  cases hdir : disk[recoveryId]? with
  | none => rfl
  | some dir =>
    cases hman : dir.manifest with
    | none => exact hman
    | some manifest =>
      exfalso
      unfold loadRecoveryManifest at h
      cases hval : validateRecoveryRecordDir backend disk recoveryId with
      | error failure' =>
        rw [hval] at h
        obtain rfl := Except.error.inj h
        unfold validateRecoveryRecordDir at hval
        cases hid : checkRecoveryId backend recoveryId with
        | ok _ =>
          rw [hid, hdir] at hval
          cases hval
        | error failure'' =>
          rw [hid] at hval
          obtain rfl := Except.error.inj hval
          unfold checkRecoveryId at hid
          split at hid
          · obtain rfl := Except.error.inj hid
            exact absurd hcode (by decide)
          · split at hid
            · obtain rfl := Except.error.inj hid
              exact absurd hcode (by decide)
            · cases hid
      | ok dir' =>
        obtain ⟨-, hdir'⟩ := (validateRecoveryRecordDir_eq_ok backend).1 hval
        obtain rfl := Option.some.inj (hdir.symm.trans hdir')
        rw [hval] at h
        change readManifest recoveryId dir = .error failure at h
        unfold readManifest at h
        rw [hman] at h
        dsimp only at h
        split at h
        · obtain rfl := Except.error.inj h
          exact absurd hcode (by decide)
        · split at h
          · obtain rfl := Except.error.inj h
            exact absurd hcode (by decide)
          · cases h

/-! ### Quiet changes -/

/-- The file has the whole of a text, and the name that belongs to it. -/
def WholeBlob (texts : String → Prop) (blobName : String) (file : BlobFile) : Prop :=
  ∃ text, texts text ∧ file.bytes = bytesOf text ∧ blobName = recoveryBlobName backend text

/-- The manifest names the blob. -/
def FileRecoveryManifestV1.Names (manifest : FileRecoveryManifestV1) (blobName : String) : Prop :=
  blobName = manifest.baseBlob ∨ blobName = manifest.bufferBlob

/-- Every manifest and every blob that one names stay, and new files have whole texts, but in the
record `torn`. -/
structure Quiet (texts : String → Prop) (torn : Option String) (disk disk' : Disk) : Prop where
  known : ∀ id, disk'[id]?.isSome → disk[id]?.isSome ∨ backend.canonicalUuid id = some id
  manifest : ∀ id, disk'.manifestOf id = disk.manifestOf id
  named : ∀ id manifest name file, disk.manifestOf id = some manifest → manifest.Names name →
    disk.blobOf id name = some file → disk'.blobOf id name = some file
  grown : ∀ id name file, torn ≠ some id → disk'.blobOf id name = some file →
    disk.blobOf id name = some file ∨ WholeBlob backend texts name file

variable {backend} {texts : String → Prop} {torn : Option String} {disk disk' disk'' : Disk}

namespace Quiet

theorem refl (disk : Disk) : Quiet backend texts torn disk disk where
  known _ h := Or.inl h
  manifest _ := rfl
  named _ _ _ _ _ _ h := h
  grown _ _ _ _ h := Or.inl h

theorem trans (h : Quiet backend texts torn disk disk') (h' : Quiet backend texts torn disk' disk'') :
    Quiet backend texts torn disk disk'' where
  known id hid := by
    rcases h'.known id hid with hid | hid
    · exact h.known id hid
    · exact Or.inr hid
  manifest id := (h'.manifest id).trans (h.manifest id)
  named id manifest name file hman hname hfile :=
    h'.named id manifest name file ((h.manifest id).trans hman) hname
      (h.named id manifest name file hman hname hfile)
  grown id name file hid hfile := by
    rcases h'.grown id name file hid hfile with hfile | hwhl
    · exact h.grown id name file hid hfile
    · exact Or.inr hwhl

theorem weaken (h : Quiet backend texts none disk disk') (torn : Option String) :
    Quiet backend texts torn disk disk' where
  known := h.known
  manifest := h.manifest
  named := h.named
  grown id name file _ := h.grown id name file (Option.some_ne_none id).symm

variable {recoveryId : String}

/-- A change of one directory is quiet when the manifest and the named files stay, and the other files
were there or are whole. -/
theorem change {f : RecordDir → RecordDir}
    (hman : ∀ dir, disk[recoveryId]? = some dir → (f dir).manifest = dir.manifest)
    (hnamed : ∀ dir manifest name file, disk[recoveryId]? = some dir →
      dir.manifest = some manifest → manifest.Names name → dir.files[name]? = some file →
      (f dir).files[name]? = some file)
    (hgr : torn ≠ some recoveryId → ∀ dir name file, disk[recoveryId]? = some dir →
      (f dir).files[name]? = some file →
      dir.files[name]? = some file ∨ WholeBlob backend texts name file) :
    Quiet backend texts torn disk (disk.change recoveryId f) where
  known id hid := by
    left
    rw [Disk.lookup_change] at hid
    split at hid
    · rwa [Option.isSome_map] at hid
    · exact hid
  manifest id := by
    rw [Disk.manifestOf_change]
    split
    · rename_i heq
      subst heq
      unfold Disk.manifestOf
      cases hdir : disk[recoveryId]? with
      | none => rfl
      | some dir => exact hman dir hdir
    · rfl
  named id manifest name file hm hname hfile := by
    rw [Disk.blobOf_change]
    split
    · rename_i heq
      subst heq
      unfold Disk.manifestOf at hm
      unfold Disk.blobOf at hfile
      cases hdir : disk[recoveryId]? with
      | none =>
        rw [hdir] at hm
        cases hm
      | some dir =>
        rw [hdir] at hm hfile
        exact hnamed dir manifest name file hdir hm hname hfile
    · exact hfile
  grown id name file hid hfile := by
    rw [Disk.blobOf_change] at hfile
    split at hfile
    · rename_i heq
      subst heq
      unfold Disk.blobOf
      cases hdir : disk[recoveryId]? with
      | none =>
        rw [hdir] at hfile
        cases hfile
      | some dir =>
        rw [hdir] at hfile
        exact hgr hid dir name file hdir hfile
    · exact Or.inl hfile

theorem removeOrphans {manifest : FileRecoveryManifestV1} (now : Nat) (kept : String → Bool)
    (hman : disk.manifestOf manifest.recoveryId = some manifest) :
    Quiet backend texts torn disk
      (disk.change manifest.recoveryId (removeOrphans backend manifest now kept)) := by
  have hfiles : ∀ (dir : RecordDir) (name : String),
      (Recovery.removeOrphans backend manifest now kept dir).files[name]? =
        dir.files[name]?.filter fun file =>
          !isOrphan backend manifest now name file || kept name := by
    intro dir name
    unfold Recovery.removeOrphans RecordDir.files
    cases dir.blobs with
    | none => simp
    | some blobs =>
      rw [Option.map_some, Option.getD_some, Option.getD_some, Std.ExtTreeMap.getElem?_filter']
  refine change (fun _ _ => rfl) ?_ ?_
  · intro dir manifest' name file hdir hm hname hfile
    unfold Disk.manifestOf at hman
    rw [hdir] at hman
    obtain rfl := Option.some.inj (hm.symm.trans hman)
    have hkeep : isOrphan backend manifest' now name file = false := by
      unfold isOrphan
      rcases hname with rfl | rfl <;> simp
    rw [hfiles, hfile]
    simp [hkeep]
  · intro _ dir name file _ hfile
    rw [hfiles] at hfile
    exact Or.inl (Option.filter_eq_some_iff.1 hfile).1

theorem erase (hman : disk.manifestOf recoveryId = none) :
    Quiet backend texts torn disk (disk.erase recoveryId) := by
  have hlook : ∀ id, (disk.erase recoveryId)[id]? = if recoveryId = id then none else disk[id]? :=
    Table.lookup_erase disk recoveryId
  constructor
  · intro id hid
    rw [hlook] at hid
    split at hid
    · cases hid
    · exact Or.inl hid
  · intro id
    unfold Disk.manifestOf at hman ⊢
    rw [hlook]
    split
    · rename_i heq
      subst heq
      exact hman.symm
    · rfl
  · intro id manifest name file hm _ hfile
    unfold Disk.blobOf
    rw [hlook, if_neg]
    · exact hfile
    · rintro rfl
      rw [hman] at hm
      cases hm
  · intro id name file _ hfile
    unfold Disk.blobOf at hfile
    rw [hlook] at hfile
    split at hfile
    · cases hfile
    · exact Or.inl hfile

theorem remains (now : Nat) (keepManifest : Bool) (names : List String)
    (hman : disk.manifestOf recoveryId = none) :
    Quiet backend texts torn disk
      (disk.change recoveryId (remains now keepManifest names)) := by
  have hnone : ∀ dir, disk[recoveryId]? = some dir → dir.manifest = none := by
    intro dir hdir
    unfold Disk.manifestOf at hman
    rwa [hdir] at hman
  refine change ?_ ?_ ?_
  · intro dir hdir
    unfold Recovery.remains
    cases keepManifest with
    | true => rfl
    | false => exact (hnone dir hdir).symm
  · intro dir manifest name file hdir hm
    rw [hnone dir hdir] at hm
    cases hm
  · intro _ dir name file _ hfile
    left
    unfold Recovery.remains RecordDir.files at hfile
    unfold RecordDir.files
    dsimp only at hfile
    by_cases hnms : names = []
    · rw [if_pos hnms] at hfile
      simp at hfile
    · rw [if_neg hnms] at hfile
      cases hblobs : dir.blobs with
      | none =>
        rw [hblobs] at hfile
        simp at hfile
      | some blobs =>
        rw [hblobs, Option.map_some, Option.getD_some, Std.ExtTreeMap.getElem?_filter'] at hfile
        exact (Option.filter_eq_some_iff.1 hfile).1

end Quiet

/-! ### The sweep -/

/-- A program of the sweep from a world: it ends with a quiet change, and stops at a crash only. -/
def Sweeps (backend : Backend) (texts : String → Prop) (after : World → Prop)
    (prog : RecoveryM Unit) (world : World) : Prop :=
  Wp prog
    (fun _ world' => Quiet backend texts none world.disk world'.disk ∧
      (world.crash = none → world'.crash = none) ∧ after world')
    (fun stop world' => Quiet backend texts none world.disk world'.disk ∧
      stop = .crashed .between ∧ world.crash ≠ none) world

variable {world : World}

theorem sweeps_fsStep {whole : Disk → Disk} {cut : Crash → Disk → CrashPoint × Disk} {after : World → Prop}
    (hwhl : Quiet backend texts none world.disk (whole world.disk))
    (haft : ∀ crash, after { disk := whole world.disk, crash := crash })
    (hcut : ∀ crash, Quiet backend texts none world.disk (cut crash world.disk).2)
    (hpoint : ∀ crash, (cut crash world.disk).1 = .between) :
    Sweeps backend texts after (fsStep whole cut) world := by
  refine wp_fsStep (fun crash hcrs => ⟨hwhl, hcrs, haft crash⟩) ?_
  intro crash hcrs
  exact ⟨hcut crash, by rw [hpoint], by rw [hcrs]; simp⟩

/-- The other directories are as they were. -/
def Others (disk : Disk) (recoveryId : String) (world : World) : Prop :=
  ∀ id, id ≠ recoveryId → world.disk[id]? = disk[id]?

theorem lookup_change_other {id : String} (f : RecordDir → RecordDir)
    (h : id ≠ recoveryId) : (disk.change recoveryId f)[id]? = disk[id]? := by
  rw [Disk.lookup_change, if_neg h.symm]

theorem sweeps_garbageCollect (texts : String → Prop) (now : Nat)
    (hman : world.disk.manifestOf manifest.recoveryId = some manifest) :
    Sweeps backend texts (Others world.disk manifest.recoveryId)
      (garbageCollectRecoveryBlobs backend manifest now) world :=
  sweeps_fsStep (Quiet.removeOrphans now _ hman)
    (fun _ _ hid => lookup_change_other _ hid)
    (fun crash => Quiet.removeOrphans now crash.keeps hman) (fun _ => rfl)

theorem sweeps_removeRecoveryRecord (now : Nat) (hid : backend.canonicalUuid recoveryId = some recoveryId)
    (hdir : world.disk[recoveryId]? = some dir) (hman : world.disk.manifestOf recoveryId = none) :
    Sweeps backend texts (Others world.disk recoveryId)
      (removeRecoveryRecord backend now recoveryId) world := by
  unfold Sweeps removeRecoveryRecord
  rw [wp_bind, wp_readDisk, (validateRecoveryRecordDir_eq_ok backend).2 ⟨hid, hdir⟩,
    wp_bind]
  refine wp_check (fun _ _ => ?_) (fun _ h => by cases h)
  refine sweeps_fsStep (Quiet.erase hman) ?_ ?_ ?_
  · intro _ id hne
    exact (Table.lookup_erase _ _ _).trans (if_neg hne.symm)
  · intro crash
    unfold cutRemoval
    split
    · exact Quiet.refl _
    · exact Quiet.remains now _ _ hman
  · intro crash
    unfold cutRemoval
    split
    · rfl
    · rw [hman]
      rfl

theorem sweeps_sweepRecord (texts : String → Prop) (now : Nat)
    (hid : backend.canonicalUuid recoveryId = some recoveryId) (hdir : world.disk[recoveryId]? = some dir) :
    Sweeps backend texts (Others world.disk recoveryId) (sweepRecord backend now recoveryId)
      world := by
  have hstay : Sweeps backend texts (Others world.disk recoveryId) (return ()) world :=
    ⟨Quiet.refl _, fun h => h, fun _ _ => rfl⟩
  unfold Sweeps sweepRecord
  rw [wp_bind, wp_readDisk]
  cases hload : loadRecoveryManifest backend world.disk recoveryId with
  | ok manifest =>
    obtain ⟨-, hman, -, rfl, -⟩ := (loadRecoveryManifest_eq_ok backend).1 hload
    exact sweeps_garbageCollect texts now hman
  | error failure =>
    refine wp_ite (fun hcode => ?_) (fun _ => hstay)
    have hman := manifestOf_of_notFound backend hload hcode
    unfold removeIncomplete
    rw [wp_bind, wp_readDisk, (validateRecoveryRecordDir_eq_ok backend).2 ⟨hid, hdir⟩,
      wp_bind]
    refine wp_check (fun _ _ => ?_) (fun _ h => by cases h)
    exact wp_ite (fun _ => sweeps_removeRecoveryRecord now hid hdir hman)
      (fun _ => hstay)

/-- The loop of the sweep: the records that are still to come are there, as each round changes its own
only. -/
theorem sweeps_forM (now : Nat) : ∀ (ids : List String) (world : World), ids.Nodup →
    (∀ id ∈ ids, backend.canonicalUuid id = some id ∧ world.disk[id]?.isSome) →
    Sweeps backend texts (fun _ => True) (ids.forM (sweepRecord backend now)) world := by
  intro ids
  induction ids with
  | nil =>
    intro world _ _
    exact ⟨Quiet.refl _, fun h => h, trivial⟩
  | cons id ids ih =>
    intro world hndp hids
    obtain ⟨hnot, hrest⟩ := nodup_cons.1 hndp
    obtain ⟨hid, hsome⟩ := hids id (mem_cons_self ..)
    obtain ⟨dir, hdir⟩ := Option.isSome_iff_exists.1 hsome
    change Wp (sweepRecord backend now id >>= fun _ => ids.forM (sweepRecord backend now))
      _ _ world
    rw [wp_bind]
    refine wp_mono (sweeps_sweepRecord texts now hid hdir) ?_ (fun _ _ h => h)
    rintro _ world' ⟨hqui, hcalm, hoths⟩
    have hloop := ih world' hrest (fun id' hmem => by
      have hne : id' ≠ id := by
        rintro rfl
        exact hnot hmem
      rw [hoths id' hne]
      exact hids id' (mem_cons_of_mem _ hmem))
    refine wp_mono hloop ?_ ?_
    · rintro _ world'' ⟨hqui', hcalm', -⟩
      exact ⟨hqui.trans hqui', fun h => hcalm' (hcalm h), trivial⟩
    · rintro stop world'' ⟨hqui', hstop, hcrs⟩
      exact ⟨hqui.trans hqui', hstop, fun h => hcrs (hcalm h)⟩

theorem mem_recoveryRecordIds :
    recoveryId ∈ recoveryRecordIds backend disk ↔
      backend.canonicalUuid recoveryId = some recoveryId ∧ disk[recoveryId]?.isSome := by
  unfold recoveryRecordIds
  rw [mem_filter, beq_iff_eq, mem_map, and_comm]
  refine and_congr_right fun _ => ?_
  constructor
  · rintro ⟨⟨id, dir⟩, hmem, rfl⟩
    rw [Table.mem_toList.1 hmem]
    rfl
  · intro h
    obtain ⟨dir, hdir⟩ := Option.isSome_iff_exists.1 h
    exact ⟨(recoveryId, dir), Table.mem_toList.2 hdir, rfl⟩

theorem nodup_recoveryRecordIds : (recoveryRecordIds backend disk).Nodup := by
  unfold recoveryRecordIds
  refine Nodup.filter _ ?_
  have hkeys := Std.ExtTreeMap.nodup_keys (t := disk)
  rw [Std.ExtTreeMap.map_fst_toList_eq_keys]
  exact hkeys

/-- **The sweep is quiet wherever it stops, and it stops at a crash only.** -/
theorem sweeps_sweepRecoveryStore (texts : String → Prop) (now : Nat) (world : World) :
    Sweeps backend texts (fun _ => True) (sweepRecoveryStore backend now) world := by
  unfold Sweeps sweepRecoveryStore
  rw [wp_bind, wp_readDisk]
  exact sweeps_forM now _ world nodup_recoveryRecordIds fun _ h => mem_recoveryRecordIds.1 h

end Wardian.Recovery
