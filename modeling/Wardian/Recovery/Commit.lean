/-
What a checkpoint leaves.

The store is sound when every manifest is one that is read and names the blobs of two texts.  Until the
manifest is replaced a checkpoint changes the store quietly; then its own record has the new texts, and
the others are as they were.  A checkpoint that no crash interrupts is refused by a blob only where the
file under its name has other bytes.

Main results:

* `Recovery.Quiet.sound`, `Recovery.Quiet.noteOf` — quiet changes keep the notes;
* `Recovery.wp_writeRecoveryCheckpoint` — what writing a checkpoint leaves, wherever it stops.
-/

import Wardian.Recovery.Frame
import Wardian.Recovery.Notes

set_option autoImplicit false

namespace Wardian.Recovery

open Option
open Prog (Wp wp_bind wp_ite wp_mono)

variable (backend : Backend)

/-! ### Records with their texts -/

/-- The blob has the text. -/
structure HasText (disk : Disk) (id blobName text : String) : Prop where
  file : ∃ file, disk.blobOf id blobName = some file ∧ file.bytes = bytesOf text
  name : blobName = recoveryBlobName backend text
  valid : validateSubmittedText backend.limits text = .ok ()

/-- The record has the manifest and the two texts. -/
structure Holds (disk : Disk) (id : String) (manifest : FileRecoveryManifestV1)
    (base buffer : String) : Prop where
  found : disk.manifestOf id = some manifest
  size : manifest.size ≤ maxManifestSize
  recoveryId : manifest.recoveryId = id
  schema : manifest.schema = 1
  base : HasText backend disk id manifest.baseBlob base
  buffer : HasText backend disk id manifest.bufferBlob buffer

structure Sound (disk : Disk) : Prop where
  known : ∀ id, disk[id]?.isSome → backend.canonicalUuid id = some id
  readable : ∀ id manifest, disk.manifestOf id = some manifest →
    ∃ base buffer, Holds backend disk id manifest base buffer

/-- Every blob of a committed record has the whole of its text. -/
def Whole (texts : String → Prop) (disk : Disk) : Prop :=
  ∀ id manifest name file, disk.manifestOf id = some manifest →
    disk.blobOf id name = some file → WholeBlob backend texts name file

/-- The text in a blob of a record. -/
def textAt (disk : Disk) (id blobName : String) : Option String :=
  (disk.blobOf id blobName).bind fun file => textOf file.bytes

/-- The table of the store. -/
def noteOf (disk : Disk) : Notes := fun id =>
  (disk.manifestOf id).bind fun manifest =>
    (textAt disk id manifest.baseBlob).bind fun base =>
      (textAt disk id manifest.bufferBlob).map fun buffer =>
        { resourceKey := manifest.resourceKey
          webviewScope := manifest.webviewScope
          revision := manifest.recoveryRevision
          base := base
          buffer := buffer }

variable {backend} {texts : String → Prop} {torn : Option String} {disk disk' disk'' : Disk}
  {id : String} {manifest : FileRecoveryManifestV1} {base buffer : String}

variable {text : String}

theorem HasText.textAt {blobName : String} (h : HasText backend disk id blobName text) :
    textAt disk id blobName = some text := by
  obtain ⟨file, hfile, hbts⟩ := h.file
  unfold Recovery.textAt
  rw [hfile, bind_some, hbts, textOf_bytesOf]

theorem Holds.noteOf (h : Holds backend disk id manifest base buffer) :
    noteOf disk id = some { resourceKey := manifest.resourceKey
                            webviewScope := manifest.webviewScope
                            revision := manifest.recoveryRevision
                            base := base
                            buffer := buffer } := by
  unfold Recovery.noteOf
  rw [h.found, bind_some, h.base.textAt, bind_some, h.buffer.textAt]
  rfl

theorem noteOf_eq_none (h : disk.manifestOf id = none) : noteOf disk id = none := by
  unfold noteOf
  rw [h]
  rfl

theorem Sound.holds_of_note (h : Sound backend disk) {note : Note} (hnote : noteOf disk id = some note) :
    ∃ manifest, Holds backend disk id manifest note.base note.buffer ∧
      manifest.resourceKey = note.resourceKey ∧ manifest.webviewScope = note.webviewScope ∧
      manifest.recoveryRevision = note.revision := by
  cases hman : disk.manifestOf id with
  | none =>
    rw [noteOf_eq_none hman] at hnote
    cases hnote
  | some manifest =>
    obtain ⟨base, buffer, hhld⟩ := h.readable id manifest hman
    rw [hhld.noteOf] at hnote
    obtain rfl := Option.some.inj hnote
    exact ⟨manifest, hhld, rfl, rfl, rfl⟩

/-! ### Quiet changes keep the notes -/

theorem HasText.quiet {blobName : String} (h : HasText backend disk id blobName text)
    (hqui : Quiet backend texts torn disk disk') (hman : disk.manifestOf id = some manifest)
    (hnms : manifest.Names blobName) : HasText backend disk' id blobName text where
  file := by
    obtain ⟨file, hfile, hbts⟩ := h.file
    exact ⟨file, hqui.named id manifest blobName file hman hnms hfile, hbts⟩
  name := h.name
  valid := h.valid

theorem Holds.quiet (h : Holds backend disk id manifest base buffer)
    (hqui : Quiet backend texts torn disk disk') :
    Holds backend disk' id manifest base buffer where
  found := (hqui.manifest id).trans h.found
  size := h.size
  recoveryId := h.recoveryId
  schema := h.schema
  base := h.base.quiet hqui h.found (Or.inl rfl)
  buffer := h.buffer.quiet hqui h.found (Or.inr rfl)

theorem Quiet.sound (hqui : Quiet backend texts torn disk disk') (h : Sound backend disk) :
    Sound backend disk' where
  known id hid := by
    rcases hqui.known id hid with hid | hid
    · exact h.known id hid
    · exact hid
  readable id manifest hman := by
    rw [hqui.manifest] at hman
    obtain ⟨base, buffer, hhld⟩ := h.readable id manifest hman
    exact ⟨base, buffer, hhld.quiet hqui⟩

theorem Quiet.noteOf (hqui : Quiet backend texts torn disk disk') (h : Sound backend disk) :
    noteOf disk' = noteOf disk := by
  funext id
  cases hman : disk.manifestOf id with
  | none => rw [noteOf_eq_none hman, noteOf_eq_none ((hqui.manifest id).trans hman)]
  | some manifest =>
    obtain ⟨base, buffer, hhld⟩ := h.readable id manifest hman
    rw [hhld.noteOf, (hhld.quiet hqui).noteOf]

theorem Quiet.whole (hqui : Quiet backend texts torn disk disk') (h : Whole backend texts disk)
    (htorn : ∀ id, torn = some id → disk.manifestOf id = none) : Whole backend texts disk' := by
  intro id manifest name file hman hfile
  rw [hqui.manifest] at hman
  have hne : torn ≠ some id := by
    intro heq
    rw [htorn id heq] at hman
    cases hman
  rcases hqui.grown id name file hne hfile with hfile | hwhl
  · exact h id manifest name file hman hfile
  · exact hwhl

theorem Whole.mono {texts' : String → Prop} (h : Whole backend texts disk)
    (htexts : ∀ text, texts text → texts' text) : Whole backend texts' disk := by
  intro id manifest name file hman hfile
  obtain ⟨text, htext, hrest⟩ := h id manifest name file hman hfile
  exact ⟨text, htexts text htext, hrest⟩

/-! ### Writing a blob -/

/-- The record in which a program that stopped may have left a part of a blob. -/
def tornBy (id : String) : Stop → Option String
  | .crashed .inBlobWrite => some id
  | _ => none

/-- A file is under the name of the text and has other bytes. -/
def Blocked (backend : Backend) (disk : Disk) (id text : String) : Prop :=
  ∃ file, disk.blobOf id (recoveryBlobName backend text) = some file ∧
    file.bytes ≠ bytesOf text

/-- The files of a record stay. -/
def Stays (disk disk' : Disk) (id : String) : Prop :=
  disk'[id]?.isSome ∧ ∀ name file, disk.blobOf id name = some file → disk'.blobOf id name = some file

variable {dir : RecordDir} {now : Nat} {name : String} {bytes : List UInt8}

theorem files_insert {name' : String} :
    (dir.putBlob now name bytes).files[name']? =
      if name = name' then some { bytes := bytes, modified := now } else dir.files[name']? := by
  unfold RecordDir.putBlob RecordDir.files
  rw [getD_some, Table.lookup_insert]

theorem isSome_change {f : RecordDir → RecordDir} (recoveryId : String)
    (h : disk[id]?.isSome) : (disk.change recoveryId f)[id]?.isSome := by
  rw [Disk.lookup_change]
  split
  · rwa [isSome_map]
  · exact h

theorem blobOf_eq (hdir : disk[id]? = some dir) (name : String) : disk.blobOf id name = dir.files[name]? := by
  unfold Disk.blobOf
  rw [hdir, bind_some]

/-- A new blob is a quiet change: a part of one only under the torn name. -/
theorem Quiet.putBlob (hdir : disk[id]? = some dir) (hfree : disk.blobOf id name = none)
    (hwhl : torn ≠ some id → bytes = bytesOf text) (htext : texts text)
    (hname : name = recoveryBlobName backend text) :
    Quiet backend texts torn disk (disk.change id (RecordDir.putBlob now name bytes)) := by
  rw [blobOf_eq hdir] at hfree
  refine Quiet.change (fun _ _ => rfl) ?_ ?_
  · intro dir' manifest name' file hdir' hm hnms hfile
    obtain rfl := Option.some.inj (hdir.symm.trans hdir')
    rw [files_insert, if_neg]
    · exact hfile
    · rintro rfl
      rw [hfree] at hfile
      cases hfile
  · intro htorn dir' name' file hdir' hfile
    rw [files_insert] at hfile
    split at hfile
    · rename_i heq
      right
      obtain rfl := Option.some.inj hfile
      exact ⟨text, htext, hwhl htorn, heq ▸ hname⟩
    · exact Or.inl hfile

theorem Stays.putBlob (now : Nat) (bytes : List UInt8)
    (hdir : disk[id]? = some dir) (hfree : disk.blobOf id name = none) :
    Stays disk (disk.change id (RecordDir.putBlob now name bytes)) id := by
  refine ⟨isSome_change id (by rw [hdir]; rfl), ?_⟩
  intro name' file hfile
  rw [Disk.blobOf_change, if_pos rfl, hdir, bind_some, files_insert, if_neg]
  · rwa [blobOf_eq hdir] at hfile
  · rintro rfl
    rw [hfree] at hfile
    cases hfile

@[simp] theorem files_addBlobs (now : Nat) (dir : RecordDir) : (dir.addBlobs now).files = dir.files := by
  unfold RecordDir.addBlobs RecordDir.files
  cases hblobs : dir.blobs with
  | some blobs => simp [hblobs]
  | none => simp

@[simp] theorem manifest_addBlobs (now : Nat) (dir : RecordDir) :
    (dir.addBlobs now).manifest = dir.manifest := by
  unfold RecordDir.addBlobs
  cases dir.blobs <;> rfl

theorem Quiet.addBlobs (now : Nat) :
    Quiet backend texts torn disk (disk.change id (RecordDir.addBlobs now)) := by
  refine Quiet.change (fun _ _ => manifest_addBlobs now _) ?_ ?_
  · intro dir manifest name file _ _ _ hfile
    rwa [files_addBlobs]
  · intro _ dir name file _ hfile
    rw [files_addBlobs] at hfile
    exact Or.inl hfile

theorem blobOf_addBlobs (now : Nat) (id' name : String) :
    (disk.change id (RecordDir.addBlobs now)).blobOf id' name = disk.blobOf id' name := by
  rw [Disk.blobOf_change]
  split
  · unfold Disk.blobOf
    simp only [files_addBlobs]
  · rfl

variable {file : BlobFile}

theorem bytes_of_validateExisting
    (h : validateExistingRecoveryBlob file text = .ok ()) : file.bytes = bytesOf text := by
  unfold validateExistingRecoveryBlob at h
  split at h
  · cases h
  · split at h
    · cases h
    · rename_i heq
      exact not_not.1 heq

theorem bytes_ne_of_validateExisting {failure : FileResourceErrorV1}
    (h : validateExistingRecoveryBlob file text = .error failure) : file.bytes ≠ bytesOf text := by
  intro heq
  unfold validateExistingRecoveryBlob at h
  rw [if_neg (by rw [heq]; simp), if_neg (by rw [heq]; simp)] at h
  cases h

theorem wp_writeRecoveryBlob {world : World} (hid : world.disk[id]?.isSome) (htext : texts text) :
    Wp (writeRecoveryBlob backend now id text)
      (fun _ world' => Quiet backend texts none world.disk world'.disk ∧
        Stays world.disk world'.disk id ∧
        (∃ file, world'.disk.blobOf id (recoveryBlobName backend text) = some file ∧
          file.bytes = bytesOf text) ∧
        (world.crash = none → world'.crash = none))
      (fun stop world' => Quiet backend texts (tornBy id stop) world.disk world'.disk ∧
        stop ≠ .crashed .inRemoval ∧
        (world.crash = none → Blocked backend world.disk id text))
      world := by
  obtain ⟨dir, hdir⟩ := isSome_iff_exists.1 hid
  unfold writeRecoveryBlob
  rw [wp_bind]
  refine wp_atomicStep ?_ fun hcrs => ⟨Quiet.refl _, by simp, fun h => absurd h hcrs⟩
  intro crash hcrs
  have hqui : ∀ torn, Quiet backend texts torn world.disk
      (world.disk.change id (RecordDir.addBlobs now)) := fun _ => Quiet.addBlobs now
  have hstays : Stays world.disk (world.disk.change id (RecordDir.addBlobs now)) id :=
    ⟨isSome_change id hid, fun name file hfile => by rwa [blobOf_addBlobs]⟩
  obtain ⟨dir', hdir'⟩ := isSome_iff_exists.1 hstays.1
  rw [wp_bind, wp_readDisk]
  dsimp only
  cases hfnd : (world.disk.change id (RecordDir.addBlobs now)).blobOf id
      (recoveryBlobName backend text) with
  | some existing =>
    rw [wp_bind]
    refine wp_check ?_ ?_
    · intro _ hval
      exact ⟨hqui none, hstays, ⟨existing, hfnd, bytes_of_validateExisting hval⟩, hcrs⟩
    · intro failure hinv
      refine ⟨hqui _, by simp, fun _ => ⟨existing, ?_, bytes_ne_of_validateExisting hinv⟩⟩
      rwa [blobOf_addBlobs] at hfnd
  | none =>
    rw [wp_bind]
    refine wp_fsStep ?_ ?_
    · intro crash' hcrs'
      refine ⟨(hqui none).trans
          (Quiet.putBlob hdir' hfnd (fun _ => rfl) htext rfl), ?_, ?_,
        fun h => hcrs' (hcrs h)⟩
      · have hput := Stays.putBlob now (bytesOf text) hdir' hfnd
        exact ⟨hput.1, fun name file hfile => hput.2 name file (hstays.2 name file hfile)⟩
      · refine ⟨{ bytes := bytesOf text, modified := now }, ?_, rfl⟩
        rw [Disk.blobOf_change, if_pos rfl, hdir', bind_some, files_insert, if_pos rfl]
    · intro crash' hcrs'
      unfold cutWrite
      have habsurd : world.crash = none → Blocked backend world.disk id text := by
        intro h
        have hnone := hcrs h
        dsimp only at hcrs'
        rw [hnone] at hcrs'
        cases hcrs'
      cases crash'.written with
      | none => exact ⟨hqui _, by simp, habsurd⟩
      | some written =>
        dsimp only
        split
        · exact ⟨(hqui _).trans (Quiet.putBlob hdir' hfnd (fun h => absurd rfl h) htext rfl),
            by simp, habsurd⟩
        · rename_i hwrt
          refine ⟨(hqui _).trans (Quiet.putBlob hdir' hfnd (fun _ => ?_) htext rfl),
            by simp, habsurd⟩
          exact List.take_of_length_le (by omega)

/-! ### Writing a checkpoint -/

/-- What a committed checkpoint leaves: the record has the manifest and the texts, and the other
records are as they were. -/
structure Committed (backend : Backend) (texts : String → Prop) (manifest : FileRecoveryManifestV1)
    (base buffer : String) (disk disk' : Disk) : Prop where
  known : ∀ id, disk'[id]?.isSome → disk[id]?.isSome ∨ backend.canonicalUuid id = some id
  replaced : ∀ id, disk'.manifestOf id =
    if manifest.recoveryId = id then some manifest else disk.manifestOf id
  base : ∃ file, disk'.blobOf manifest.recoveryId manifest.baseBlob = some file ∧
    file.bytes = bytesOf base
  buffer : ∃ file, disk'.blobOf manifest.recoveryId manifest.bufferBlob = some file ∧
    file.bytes = bytesOf buffer
  named : ∀ id other name file, id ≠ manifest.recoveryId → disk.manifestOf id = some other →
    other.Names name → disk.blobOf id name = some file → disk'.blobOf id name = some file
  grown : ∀ id name file, disk'.blobOf id name = some file →
    disk.blobOf id name = some file ∨ WholeBlob backend texts name file

/-- The file that is, or will be, under the name of a text has other bytes. -/
def Obstructed (backend : Backend) (texts : String → Prop) (disk : Disk) (id : String) : Prop :=
  ∃ text file, texts text ∧ file.bytes ≠ bytesOf text ∧
    (disk.blobOf id (recoveryBlobName backend text) = some file ∨
      WholeBlob backend texts (recoveryBlobName backend text) file)

theorem Committed.intro {disk₁ disk₂ : Disk}
    (hbef : Quiet backend texts none disk disk₁) (hid : disk₁[manifest.recoveryId]?.isSome)
    (hbase : ∃ file, disk₁.blobOf manifest.recoveryId manifest.baseBlob = some file ∧
      file.bytes = bytesOf base)
    (hbuf : ∃ file, disk₁.blobOf manifest.recoveryId manifest.bufferBlob = some file ∧
      file.bytes = bytesOf buffer)
    (haft : Quiet backend texts none
      (disk₁.change manifest.recoveryId (RecordDir.putManifest now manifest)) disk₂) :
    Committed backend texts manifest base buffer disk disk₂ := by
  obtain ⟨dir, hdir⟩ := isSome_iff_exists.1 hid
  have hman : ∀ id, (disk₁.change manifest.recoveryId
      (RecordDir.putManifest now manifest)).manifestOf id =
        if manifest.recoveryId = id then some manifest else disk.manifestOf id := by
    intro id
    rw [Disk.manifestOf_change]
    split
    · rename_i heq
      subst heq
      rw [hdir]
      rfl
    · exact hbef.manifest id
  have hblob : ∀ id name, (disk₁.change manifest.recoveryId
      (RecordDir.putManifest now manifest)).blobOf id name = disk₁.blobOf id name := by
    intro id name
    rw [Disk.blobOf_change]
    split
    · rfl
    · rfl
  have hown := hman manifest.recoveryId
  rw [if_pos rfl] at hown
  constructor
  · intro id h
    rcases haft.known id h with h | h
    · rw [Disk.lookup_change] at h
      refine hbef.known id ?_
      split at h
      · rwa [isSome_map] at h
      · exact h
    · exact Or.inr h
  · intro id
    rw [haft.manifest, hman]
  · obtain ⟨file, hfile, hbts⟩ := hbase
    rw [← hblob] at hfile
    exact ⟨file, haft.named _ _ _ _ hown (Or.inl rfl) hfile, hbts⟩
  · obtain ⟨file, hfile, hbts⟩ := hbuf
    rw [← hblob] at hfile
    exact ⟨file, haft.named _ _ _ _ hown (Or.inr rfl) hfile, hbts⟩
  · intro id other name file hne hoth hnms hfile
    refine haft.named id other name file ?_ hnms ?_
    · rw [hman, if_neg hne.symm, hoth]
    · rw [hblob]
      exact hbef.named id other name file hoth hnms hfile
  · intro id name file hfile
    rcases haft.grown id name file (by simp) hfile with hfile | hwhl
    · rw [hblob] at hfile
      exact hbef.grown id name file (by simp) hfile
    · exact Or.inr hwhl

theorem Quiet.addRecord (now : Nat) (hid : backend.canonicalUuid id = some id) :
    Quiet backend texts torn disk (addRecord now id disk) := by
  unfold Recovery.addRecord
  cases hdir : disk[id]? with
  | some dir => exact Quiet.refl disk
  | none =>
    have hlook := Table.lookup_insert disk id
    constructor
    · intro id' h
      by_cases heq : id = id'
      · subst heq
        exact Or.inr hid
      · rw [hlook, if_neg heq] at h
        exact Or.inl h
    · intro id'
      unfold Disk.manifestOf
      rw [hlook]
      split
      · rename_i heq
        subst heq
        rw [hdir]
        rfl
      · rfl
    · intro id' manifest name file hman _ hfile
      unfold Disk.blobOf
      rw [hlook, if_neg]
      · exact hfile
      · rintro rfl
        unfold Disk.blobOf at hfile
        rw [hdir] at hfile
        cases hfile
    · intro id' name file _ hfile
      left
      unfold Disk.blobOf at hfile ⊢
      rw [hlook] at hfile
      split at hfile
      · unfold RecordDir.files at hfile
        simp at hfile
      · exact hfile

theorem isSome_addRecord (now : Nat) : (addRecord now id disk)[id]?.isSome := by
  unfold addRecord
  cases hdir : disk[id]? with
  | some dir =>
    dsimp only
    rw [hdir]
    rfl
  | none =>
    dsimp only
    rw [Table.lookup_insert, if_pos rfl]
    rfl

/-- What writing a checkpoint leaves, wherever it stops; it is refused where a blob obstructs it, or
where its revision is exhausted. -/
theorem wp_writeRecoveryCheckpoint {world : World}
    (hid : backend.canonicalUuid manifest.recoveryId = some manifest.recoveryId)
    (hbase : texts base) (hbuf : texts buffer) :
    Wp (writeRecoveryCheckpoint backend manifest base buffer now)
      (fun committed world' => committed = committedManifest backend manifest base buffer now ∧
        Committed backend texts committed base buffer world.disk world'.disk ∧
        (world.crash = none → world'.crash = none))
      (fun stop world' =>
        (Quiet backend texts (tornBy manifest.recoveryId stop) world.disk world'.disk ∧
            stop ≠ .crashed .inRemoval ∨
          stop = .crashed .between ∧
            Committed backend texts (committedManifest backend manifest base buffer now) base buffer
              world.disk world'.disk) ∧
        (world.crash = none → Obstructed backend texts world.disk manifest.recoveryId ∨
          u64Max < manifest.recoveryRevision + 1))
      world := by
  unfold writeRecoveryCheckpoint
  rw [wp_bind]
  refine wp_atomicStep ?_ fun hcrs =>
    ⟨Or.inl ⟨Quiet.refl _, by simp⟩, fun h => absurd h hcrs⟩
  intro crash₀ hcrs₀
  have hqui₀ : ∀ torn, Quiet backend texts torn world.disk
      (addRecord now manifest.recoveryId world.disk) := fun _ => Quiet.addRecord now hid
  rw [wp_bind]
  refine wp_mono (wp_writeRecoveryBlob (isSome_addRecord now) hbase) ?_ ?_
  · rintro _ world₁ ⟨hqui₁, hstays₁, ⟨file₁, hfile₁, hbts₁⟩, hcrs₁⟩
    have hto₁ : ∀ torn, Quiet backend texts torn world.disk world₁.disk :=
      fun torn => (hqui₀ torn).trans (hqui₁.weaken torn)
    rw [wp_bind]
    refine wp_mono (wp_writeRecoveryBlob hstays₁.1 hbuf) ?_ ?_
    · rintro _ world₂ ⟨hqui₂, hstays₂, hfile₂, hcrs₂⟩
      have hto₂ : ∀ torn, Quiet backend texts torn world.disk world₂.disk :=
        fun torn => (hto₁ torn).trans (hqui₂.weaken torn)
      refine wp_ite ?_ ?_
      · intro hexha
        exact ⟨Or.inl ⟨hto₂ _, by simp⟩, fun _ => Or.inr hexha⟩
      · intro _
        rw [wp_bind]
        refine wp_atomicStep ?_ fun hcrs =>
          ⟨Or.inl ⟨hto₂ _, by simp⟩, fun h => absurd (hcrs₂ (hcrs₁ (hcrs₀ h))) hcrs⟩
        intro crash₃ hcrs₃
        have hcomm : ∀ disk₄, Quiet backend texts none
            (world₂.disk.change manifest.recoveryId
              (RecordDir.putManifest now (committedManifest backend manifest base buffer now)))
              disk₄ →
            Committed backend texts (committedManifest backend manifest base buffer now) base buffer
              world.disk disk₄ := fun disk₄ haft =>
          Committed.intro (hto₂ none) hstays₂.1
            ⟨file₁, hstays₂.2 _ _ hfile₁, hbts₁⟩ hfile₂ haft
        have hman : (world₂.disk.change manifest.recoveryId (RecordDir.putManifest now
            (committedManifest backend manifest base buffer now))).manifestOf
              manifest.recoveryId =
            some (committedManifest backend manifest base buffer now) := by
          obtain ⟨dir, hdir⟩ := isSome_iff_exists.1 hstays₂.1
          rw [Disk.manifestOf_change, if_pos rfl, hdir]
          rfl
        rw [wp_bind]
        refine wp_mono (sweeps_garbageCollect texts now hman) ?_ ?_
        · rintro _ world₄ ⟨hquiet₄, hcrash₄, -⟩
          exact ⟨rfl, hcomm _ hquiet₄,
            fun h => hcrash₄ (hcrs₃ (hcrs₂ (hcrs₁ (hcrs₀ h))))⟩
        · rintro stop world₄ ⟨hquiet₄, hstop, hcrs⟩
          exact ⟨Or.inr ⟨hstop, hcomm _ hquiet₄⟩,
            fun h => absurd (hcrs₃ (hcrs₂ (hcrs₁ (hcrs₀ h)))) hcrs⟩
    · rintro stop world₂ ⟨hqui₂, hstop, hblkd⟩
      refine ⟨Or.inl ⟨(hto₁ _).trans hqui₂, hstop⟩, fun h => Or.inl ?_⟩
      obtain ⟨file, hfile, hbts⟩ := hblkd (hcrs₁ (hcrs₀ h))
      exact ⟨buffer, file, hbuf, hbts, (hto₁ none).grown _ _ _ (by simp) hfile⟩
  · rintro stop world₁ ⟨hqui₁, hstop, hblkd⟩
    refine ⟨Or.inl ⟨(hqui₀ _).trans hqui₁, hstop⟩, fun h => Or.inl ?_⟩
    obtain ⟨file, hfile, hbts⟩ := hblkd (hcrs₀ h)
    exact ⟨base, file, hbase, hbts, (hqui₀ none).grown _ _ _ (by simp) hfile⟩

end Wardian.Recovery
