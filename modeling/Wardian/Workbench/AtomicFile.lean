/-
Replacing a file so that it has its old bytes or its new ones.

The new bytes go to a temporary file of another name, which is synchronised and then renamed over the
file.  Every operation may fail, and the process may stop between any two of them; what was done before
stays.  A temporary file that is left behind has a name that tells whose it is, and the next load removes
it.

Main results:

* `Workbench.wp_stage`, `Workbench.wp_replaceStaged` — what the two halves do, wherever they stop;
* `Workbench.wp_persistBytesOnDisk` — the two slots after a write that stopped anywhere.
-/

import Wardian.Workbench.Slots

set_option autoImplicit false

namespace Wardian.Workbench

open List
open Prog (Wp wp_bind wp_get wp_modify)

/-! ### The directory -/

/-- The files of a directory by their names. -/
abbrev Directory : Type := String → Option Bytes

def Directory.put (dir : Directory) (name : String) (bytes : Bytes) : Directory := fun other =>
  if other = name then some bytes else dir other

/-- The rename replaces the file of the new name. -/
def Directory.rename (dir : Directory) (old new : String) : Directory := fun other =>
  if other = new then dir old else if other = old then none else dir other

inductive AtomicWriteRole
  | primary
  | backup
  | other
deriving DecidableEq

inductive AtomicFaultPoint
  | beforeTempSync (role : AtomicWriteRole)
  | afterTempSync (role : AtomicWriteRole)
  | beforeReplace (role : AtomicWriteRole)
  | afterReplace (role : AtomicWriteRole)
  | beforeParentSync (role : AtomicWriteRole)
  | afterParentSync (role : AtomicWriteRole)
deriving DecidableEq

/-- The operations of the file system on behalf of a write. -/
inductive FileOperation
  | createDirAll (role : AtomicWriteRole)
  | createNew (role : AtomicWriteRole)
  | writeAll (role : AtomicWriteRole)
  | syncAll (role : AtomicWriteRole)
  | rename (role : AtomicWriteRole)
  | syncParent (role : AtomicWriteRole)

/-- The points and operations at which the write stops, by an error or because the process ends, and how
many bytes a write that fails has put into the file. -/
structure Faults where
  check : AtomicFaultPoint → Option String
  operation : FileOperation → Option String
  written : AtomicWriteRole → Nat

/-- Nothing fails. -/
def Faults.none : Faults :=
  { check := fun _ => Option.none, operation := fun _ => Option.none, written := fun _ => 0 }

/-- A program over a directory. -/
abbrev DirM (α : Type) : Type := Prog Directory WorkbenchIoError α

/-- Stop with the error, if there is one. -/
def stopAt (error : Option String) : DirM Unit :=
  match error with
  | some text => Prog.fail (.persistIo text)
  | none => return

/-! ### The names of temporary files -/

def workbenchName : String := "workbench.json"

def workbenchBackupName : String := "workbench.backup.json"

/-- The temporary file for a target; the identifier is that of the write. -/
def tmpName (fileName identifier : String) : String := "." ++ fileName ++ "." ++ identifier ++ ".tmp"

def isHexDigit (c : Char) : Bool :=
  ('0' ≤ c && c ≤ '9') || ('a' ≤ c && c ≤ 'f') || ('A' ≤ c && c ≤ 'F')

/-- Whether a temporary file is of the target. -/
def isOwnedAtomicTempName (name targetName legacyName : String) : Bool :=
  if name = legacyName then true
  else
    let begins := ("." ++ targetName ++ ".").toList
    let ends := ".tmp".toList
    let rest := name.toList.drop begins.length
    let identifier := rest.take (rest.length - ends.length)
    begins.isPrefixOf name.toList && ends.isSuffixOf rest &&
      (decide (identifier.length = 32) && identifier.all isHexDigit)

def cleanupAtomicTemps (fileName : String) (dir : Directory) : Directory := fun name =>
  if isOwnedAtomicTempName name fileName ("." ++ fileName ++ ".tmp") then none else dir name

/-! ### The two halves of a write -/

section

variable (faults : Faults)

def stageBytesAtomic (fileName : String) (bytes : Bytes) (role : AtomicWriteRole)
    (identifier : String) : DirM String := do
  stopAt (faults.operation (.createDirAll role))
  stopAt (faults.operation (.createNew role))
  let dir ← Prog.get
  stopAt ((dir (tmpName fileName identifier)).map fun _ => "File exists")
  Prog.modify fun dir => dir.put (tmpName fileName identifier) []
  Prog.modify fun dir => dir.put (tmpName fileName identifier)
    (if (faults.operation (.writeAll role)).isSome then bytes.take (faults.written role) else bytes)
  stopAt (faults.operation (.writeAll role))
  stopAt (faults.check (.beforeTempSync role))
  stopAt (faults.operation (.syncAll role))
  stopAt (faults.check (.afterTempSync role))
  return tmpName fileName identifier

def replaceStagedAtomicDurable (staged fileName : String) (role : AtomicWriteRole) : DirM Unit := do
  stopAt (faults.check (.beforeReplace role))
  stopAt (faults.operation (.rename role))
  Prog.modify fun dir => dir.rename staged fileName
  stopAt (faults.check (.afterReplace role))
  stopAt (faults.check (.beforeParentSync role))
  stopAt (faults.operation (.syncParent role))
  stopAt (faults.check (.afterParentSync role))

def writeBytesAtomicDurable (fileName : String) (bytes : Bytes) (role : AtomicWriteRole)
    (identifier : String) : DirM Unit := do
  let staged ← stageBytesAtomic faults fileName bytes role identifier
  replaceStagedAtomicDurable faults staged fileName role

/-- The identifiers of the two temporary files of a write. -/
structure TempIds where
  primary : String
  backup : String

/-- Copy the valid primary, if there is one, to the backup. -/
def copyToBackupOnDisk (ids : TempIds) (currentPrimary : Option Bytes) : DirM Unit :=
  match currentPrimary with
  | some bytes => writeBytesAtomicDurable faults workbenchBackupName bytes .backup ids.backup
  | none => return

def persistBytesOnDisk (ids : TempIds) (resolved : ResolvedState) (incomingBytes : Bytes) :
    DirM Unit := do
  let primaryTemp ← stageBytesAtomic faults workbenchName incomingBytes .primary ids.primary
  copyToBackupOnDisk faults ids resolved.validPrimaryBytes
  replaceStagedAtomicDurable faults primaryTemp workbenchName .primary

end

/-! ### Names that are not confused -/

def slotsOf (dir : Directory) : Slots :=
  { primary := dir workbenchName, backup := dir workbenchBackupName }

variable {fileName identifier : String}

theorem tmpName_ne_of_head {name : String} (h : name.toList.head? ≠ some '.') :
    tmpName fileName identifier ≠ name := by
  rintro rfl
  refine h ?_
  simp only [tmpName, String.toList_append]
  rfl

theorem tmpName_ne_primary (fileName identifier : String) : workbenchName ≠ tmpName fileName identifier :=
  (tmpName_ne_of_head (by decide)).symm

theorem tmpName_ne_backup (fileName identifier : String) :
    workbenchBackupName ≠ tmpName fileName identifier :=
  (tmpName_ne_of_head (by decide)).symm

theorem workbenchName_ne_backup : workbenchName ≠ workbenchBackupName := by decide

/-- The temporary files of the two slots have different names. -/
theorem tmpName_primary_ne_backup (identifier identifier' : String) :
    tmpName workbenchName identifier ≠ tmpName workbenchBackupName identifier' := by
  intro h
  have htwel := congrArg (fun name : String => name.toList[11]?) h
  simp only [tmpName, String.toList_append] at htwel
  have hleft : ((".".toList ++ workbenchName.toList ++ ".".toList ++ identifier.toList ++
      ".tmp".toList)[11]?) = some 'j' := rfl
  have hrt : ((".".toList ++ workbenchBackupName.toList ++ ".".toList ++ identifier'.toList ++
      ".tmp".toList)[11]?) = some 'b' := rfl
  rw [hleft, hrt] at htwel
  cases htwel

/-! ### What the halves do -/

variable {faults : Faults} {dir : Directory}

variable {Q : Unit → Directory → Prop} {R : WorkbenchIoError → Directory → Prop}

theorem wp_stopAt {error : Option String} (hok : Q () dir) (herr : ∀ text, R (.persistIo text) dir) :
    Wp (stopAt error) Q R dir := by
  unfold stopAt
  cases error with
  | none => exact hok
  | some text => exact herr text

/-- Two directories that differ at most in one file. -/
def SameBut (name : String) (dir dir' : Directory) : Prop := ∀ other, other ≠ name → dir' other = dir other

variable {dir' : Directory}

theorem SameBut.put (name : String) (bytes : Bytes) (h : SameBut name dir dir') :
    SameBut name dir (dir'.put name bytes) := by
  intro other hoth
  unfold Directory.put
  rw [if_neg hoth, h other hoth]

variable {bytes : Bytes} {role : AtomicWriteRole}

/-- Staging touches the temporary file alone, and ends with the bytes in it. -/
theorem wp_stage
    {Q : String → Directory → Prop}
    (hok : ∀ dir', dir' (tmpName fileName identifier) = some bytes →
      SameBut (tmpName fileName identifier) dir dir' → Q (tmpName fileName identifier) dir')
    (herr : ∀ text dir', SameBut (tmpName fileName identifier) dir dir' →
      R (.persistIo text) dir') :
    Wp (stageBytesAtomic faults fileName bytes role identifier) Q R dir := by
  have hsame : SameBut (tmpName fileName identifier) dir dir := fun _ _ => rfl
  have hwrt := (hsame.put _ []).put _
    (if (faults.operation (.writeAll role)).isSome then bytes.take (faults.written role) else bytes)
  unfold stageBytesAtomic
  rw [wp_bind]
  refine wp_stopAt ?_ fun text => herr text dir hsame
  rw [wp_bind]
  refine wp_stopAt ?_ fun text => herr text dir hsame
  rw [wp_bind, wp_get, wp_bind]
  refine wp_stopAt ?_ fun text => herr text dir hsame
  rw [wp_bind, wp_modify, wp_bind, wp_modify, wp_bind]
  cases hwrite : faults.operation (.writeAll role) with
  | some text =>
    rw [hwrite] at hwrt
    exact herr text _ hwrt
  | none =>
    rw [hwrite] at hwrt
    refine wp_stopAt ?_ fun text => herr text _ hwrt
    rw [wp_bind]
    refine wp_stopAt ?_ fun text => herr text _ hwrt
    rw [wp_bind]
    refine wp_stopAt ?_ fun text => herr text _ hwrt
    rw [wp_bind]
    refine wp_stopAt ?_ fun text => herr text _ hwrt
    exact hok _ (if_pos rfl) hwrt

theorem wp_replaceStaged {staged : String} (hok : Q () (dir.rename staged fileName))
    (hbef : ∀ text, R (.persistIo text) dir)
    (haft : ∀ text, R (.persistIo text) (dir.rename staged fileName)) :
    Wp (replaceStagedAtomicDurable faults staged fileName role) Q R dir := by
  unfold replaceStagedAtomicDurable
  rw [wp_bind]
  refine wp_stopAt ?_ hbef
  rw [wp_bind]
  refine wp_stopAt ?_ hbef
  rw [wp_bind, wp_modify, wp_bind]
  refine wp_stopAt ?_ haft
  rw [wp_bind]
  refine wp_stopAt ?_ haft
  rw [wp_bind]
  exact wp_stopAt (wp_stopAt hok haft) haft

/-! ### The two slots -/

theorem slotsOf_sameBut
    (h : SameBut (tmpName fileName identifier) dir dir') : slotsOf dir' = slotsOf dir := by
  unfold slotsOf
  rw [h _ (tmpName_ne_primary _ _), h _ (tmpName_ne_backup _ _)]

theorem slotsOf_rename_primary (h : dir (tmpName workbenchName identifier) = some bytes) :
    slotsOf (dir.rename (tmpName workbenchName identifier) workbenchName) =
      { slotsOf dir with primary := some bytes } := by
  unfold slotsOf Directory.rename
  rw [if_pos rfl, if_neg workbenchName_ne_backup.symm, if_neg (tmpName_ne_backup _ _), h]

theorem slotsOf_rename_backup (h : dir (tmpName workbenchBackupName identifier) = some bytes) :
    slotsOf (dir.rename (tmpName workbenchBackupName identifier) workbenchBackupName) =
      { slotsOf dir with backup := some bytes } := by
  unfold slotsOf Directory.rename
  rw [if_neg workbenchName_ne_backup, if_neg (tmpName_ne_primary _ _), if_pos rfl, h]

/-- How far the write has come: nothing is changed, or the valid primary is in the backup, or the new
bytes are in the primary as well. -/
inductive Written (slots : Slots) (currentPrimary : Option Bytes) (incomingBytes : Bytes) : Slots → Prop
  | same : Written slots currentPrimary incomingBytes slots
  | copied : Written slots currentPrimary incomingBytes (slots.copied currentPrimary)
  | both : Written slots currentPrimary incomingBytes
      { slots.copied currentPrimary with primary := some incomingBytes }

/-- Wherever the write stops, the slots are those of one of its stages; when it ends, of the last. -/
theorem wp_persistBytesOnDisk {ids : TempIds} {resolved : ResolvedState} {incomingBytes : Bytes}
    (hok : ∀ dir', slotsOf dir' = { (slotsOf dir).copied resolved.validPrimaryBytes with
      primary := some incomingBytes } → Q () dir')
    (herr : ∀ text dir', Written (slotsOf dir) resolved.validPrimaryBytes incomingBytes (slotsOf dir') →
      R (.persistIo text) dir') : Wp (persistBytesOnDisk faults ids resolved incomingBytes) Q R dir := by
  unfold persistBytesOnDisk
  rw [wp_bind]
  refine wp_stage (fun staged hstaged hsame => ?_) fun text dir' hsame => ?_
  · -- The last half, from any directory with the staged file and the copied backup.
    have hrepc : ∀ copied : Directory,
        copied (tmpName workbenchName ids.primary) = some incomingBytes →
        slotsOf copied = (slotsOf dir).copied resolved.validPrimaryBytes →
        Wp (replaceStagedAtomicDurable faults (tmpName workbenchName ids.primary) workbenchName
          .primary) Q R copied := by
      intro copied hbts hslt
      have hboth := slotsOf_rename_primary hbts
      rw [hslt] at hboth
      refine wp_replaceStaged (hok _ hboth) (fun text => herr text _ ?_) fun text => herr text _ ?_
      · rw [hslt]
        exact .copied
      · rw [hboth]
        exact .both
    have hslt := slotsOf_sameBut hsame
    rw [wp_bind]
    unfold copyToBackupOnDisk
    cases hcur : resolved.validPrimaryBytes with
    | none =>
      rw [hcur] at hrepc
      exact hrepc staged hstaged hslt
    | some currentPrimary =>
      rw [hcur] at hrepc herr
      dsimp only
      unfold writeBytesAtomicDurable
      rw [wp_bind]
      refine wp_stage (fun stagedBackup hbkp hsame' => ?_) fun text dir' hsame' => ?_
      · have hslt' := (slotsOf_sameBut hsame').trans hslt
        have hcpd := slotsOf_rename_backup hbkp
        rw [hslt'] at hcpd
        refine wp_replaceStaged (hrepc _ ?_ hcpd) (fun text => herr text _ ?_) fun text =>
          herr text _ ?_
        · unfold Directory.rename
          rw [if_neg (tmpName_ne_backup _ _).symm, if_neg (tmpName_primary_ne_backup _ _),
            hsame' _ (tmpName_primary_ne_backup _ _), hstaged]
        · rw [hslt']
          exact .same
        · rw [hcpd]
          exact .copied
      · refine herr text dir' ?_
        rw [slotsOf_sameBut hsame', hslt]
        exact .same
  · refine herr text dir' ?_
    rw [slotsOf_sameBut hsame]
    exact .same

/-! ### What is left behind -/

theorem slotsOf_cleanup (dir : Directory) :
    slotsOf (cleanupAtomicTemps workbenchBackupName (cleanupAtomicTemps workbenchName dir)) =
      slotsOf dir := by
  have hnotOwned : ∀ name ∈ [workbenchName, workbenchBackupName],
      ∀ target ∈ [workbenchName, workbenchBackupName],
        isOwnedAtomicTempName name target ("." ++ target ++ ".tmp") = false := by decide
  have hkept : ∀ name ∈ [workbenchName, workbenchBackupName],
      cleanupAtomicTemps workbenchBackupName (cleanupAtomicTemps workbenchName dir) name = dir name := by
    intro name hname
    unfold cleanupAtomicTemps
    rw [hnotOwned name hname _ (mem_cons_of_mem _ mem_cons_self),
      hnotOwned name hname _ mem_cons_self]
    rfl
  unfold slotsOf
  rw [hkept _ mem_cons_self, hkept _ (mem_cons_of_mem _ mem_cons_self)]

end Wardian.Workbench
