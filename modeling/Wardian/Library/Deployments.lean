/-
The deployments of library skills.

A skill is known by its path in the library; where it is deployed there is a directory with the last part of
that path as its name.  A scan finds out to which skill each directory belongs, and the deployments of a
skill are changed by what the scan has found.

Main results:

* `mem_firstOccurrences` — a target counts once;
* `found_scan` — what a scan finds of a skill.
-/

import Wardian.Lib.Groups
import Wardian.Lib.Text
import Mathlib.Data.Finset.Card

set_option autoImplicit false

namespace Wardian.Library

open List

def maxLibraryDeployments : Nat := 2000

def deployedSkillSourceFile : String := ".wardian-skill-source"

/-! ### Names and paths -/

inductive DeployError
  | invalidTargetId (targetId : String)
  | invalidSkillName (skillName : String)
  | unknownTargetType (targetType : String)
  | emptyPath
  | absolutePath (rel : String)
  | reservedName (text : String)
  | invalidPath (rel : String)
  | sourceNotFound (components : List String)

/-- The separators of other systems are read as ours. -/
def normalizeRel (rel : String) : String :=
  String.ofList (rel.toList.map fun c => if c = '\\' then '/' else c)

/-- The parts of a path, of which empty ones and dots do not count. -/
def pathParts (path : String) : List (List Char) :=
  (Text.split '/' path.toList).filter fun part => part ≠ [] ∧ part ≠ ['.']

def skillNameFromRel (rel : String) : String :=
  match (pathParts rel).getLast? with
  | some name => if name = ['.', '.'] then "" else String.ofList name
  | none => ""

def isSingleNormalComponent (name : String) : Bool :=
  !name.toList.contains '/' && !name.toList.contains '\\' && name != "" && name != "." && name != ".."

/-- The parts of the path of an entry of the library. -/
def resolveEntryPath (rel : String) : Except DeployError (List String) :=
  let normalized := normalizeRel rel
  if (Text.trim normalized.toList).isEmpty then .error .emptyPath
  else if normalized.toList.head? = some '/' then .error (.absolutePath rel)
  else if (Text.split '/' normalized.toList).head? = some ['.'] then .error (.invalidPath rel)
  else (pathParts normalized).mapM fun part =>
    if part = ['.', '.'] then .error (.invalidPath rel)
    else if Text.toAsciiLower part = deployedSkillSourceFile.toList then
      .error (.reservedName (String.ofList part))
    else .ok (String.ofList part)

/-! ### Skills and the directories in which they are deployed -/

structure SkillSource where
  relPath : String
  name : String
  canonical : String

structure SkillDeployment where
  targetType : String
  targetId : String
  deriving DecidableEq

/-- The directory in which the skills of a target are deployed. -/
inductive SkillsDir
  | common
  | classes (targetId : String)
  | agents (targetId : String)
  deriving DecidableEq

/-- The target as a scan names it. -/
def SkillsDir.target : SkillsDir → SkillDeployment
  | .common => ⟨"user", "global"⟩
  | .classes targetId => ⟨"class", targetId⟩
  | .agents targetId => ⟨"agent", targetId⟩

def getTargetSkillsDir (target : SkillDeployment) : Except DeployError SkillsDir :=
  match target.targetType with
  | "agent" => .ok (.agents target.targetId)
  | "class" => .ok (.classes target.targetId)
  | "user" => .ok .common
  | targetType => .error (.unknownTargetType targetType)

/-- What stands in a skills directory under a name; a link is read through. -/
structure Placed where
  place : SkillsDir
  name : String
  isDir : Bool
  linked : Bool
  marker : Option String
  canonical : Option String
  deriving DecidableEq

def Placed.key (entry : Placed) : SkillsDir × String := (entry.place, entry.name)

structure Disk where
  entries : List Placed
  nodup : (entries.map Placed.key).Nodup

/-- A directory of the library. -/
structure SkillDir where
  canonical : String
  marker : Option String

/-- What does not change while skills are deployed: the skills, the directories of the library, where links
can be made, and the true path of a directory that is not a link. -/
structure SkillLibrary where
  sources : List SkillSource
  skillDir : List String → Option SkillDir
  linkWorks : SkillsDir → Bool
  ownPath : SkillsDir → String → Option String

/-! ### The scan -/

def readDeployedSkillSourceMarker (entry : Placed) : Option String :=
  (entry.marker.map fun source => normalizeRel (String.ofList (Text.trim source.toList))).filter
    fun source => !source.isEmpty

/-- The skill of the only source with a name. -/
def onlySource : List SkillSource → Option String
  | [source] => some source.relPath
  | _ => none

def resolveSource (sources : List SkillSource) (entry : Placed) : Option String :=
  ((readDeployedSkillSourceMarker entry).filter fun marker => sources.any (·.relPath = marker)) <|>
    ((entry.canonical.bind fun canonical => sources.find? (·.canonical = canonical)).map (·.relPath)) <|>
    onlySource (sources.filter (·.name = entry.name))

structure DeploymentTarget where
  target : SkillDeployment
  linked : Bool

structure OrphanDeployment where
  target : SkillDeployment
  skillName : String

structure DeploymentScan where
  deployments : List (String × List DeploymentTarget)
  orphans : List OrphanDeployment
  truncated : Bool

/-- The order in which the directories are read. -/
structure ReadOrder where
  order : List Placed → List Placed
  perm : ∀ entries, (order entries).Perm entries

def scanEntry (sources : List SkillSource) (scan : DeploymentScan) (entry : Placed) : DeploymentScan :=
  if !entry.isDir then scan
  else
    match resolveSource sources entry with
    | some relPath =>
      { scan with
        deployments := Groups.push relPath ⟨entry.place.target, entry.linked⟩ scan.deployments }
    | none => { scan with orphans := scan.orphans ++ [⟨entry.place.target, entry.name⟩] }

/-- Everything is read up to the limit. -/
def scanDeployments (sources : List SkillSource) (order : ReadOrder) (disk : Disk) : DeploymentScan :=
  ((order.order disk.entries).take maxLibraryDeployments).foldl (scanEntry sources)
    ⟨[], [], maxLibraryDeployments < disk.entries.length⟩

/-- The deployments of a skill. -/
def DeploymentScan.of (scan : DeploymentScan) (relPath : String) : List DeploymentTarget :=
  Groups.found relPath scan.deployments

/-! ### Changing a directory -/

theorem nodup_remove (disk : Disk) (key : SkillsDir × String) :
    ((disk.entries.filter fun entry => entry.key ≠ key).map Placed.key).Nodup :=
  disk.nodup.sublist (filter_sublist.map _)

theorem nodup_put (disk : Disk) (entry : Placed) :
    (((disk.entries.filter fun other => other.key ≠ entry.key) ++ [entry]).map Placed.key).Nodup := by
  rw [map_append, map_singleton]
  refine nodup_append.2 ⟨nodup_remove disk entry.key, nodup_singleton _, ?_⟩
  intro key hkey other hoth
  obtain ⟨found, hfnd, rfl⟩ := mem_map.1 hkey
  rw [mem_singleton.1 hoth]
  exact of_decide_eq_true (mem_filter.1 hfnd).2

/-- What stands there is removed. -/
def Disk.remove (disk : Disk) (key : SkillsDir × String) : Disk :=
  ⟨disk.entries.filter fun entry => entry.key ≠ key, nodup_remove disk key⟩

/-- An entry takes the place of what stands there. -/
def Disk.put (disk : Disk) (entry : Placed) : Disk :=
  ⟨(disk.entries.filter fun other => other.key ≠ entry.key) ++ [entry], nodup_put disk entry⟩

/-- The link to a skill, or its copy with a marker where links cannot be made. -/
def deployed (library : SkillLibrary) (source : SkillDir) (relNorm : String) (place : SkillsDir) : Placed :=
  let name := skillNameFromRel relNorm
  if library.linkWorks place then
    { place := place
      name := name
      isDir := true
      linked := true
      marker := source.marker
      canonical := some source.canonical }
  else
    { place := place
      name := name
      isDir := true
      linked := false
      marker := some relNorm
      canonical := library.ownPath place name }

/-- Whether a copy was made, and the disk. -/
def deploySkill (library : SkillLibrary) (disk : Disk) (sourceRel : String) (target : SkillDeployment) :
    Except DeployError (Bool × Disk) := do
  if !isSingleNormalComponent target.targetId then
    throw (.invalidTargetId target.targetId)
  let components ← resolveEntryPath sourceRel
  match library.skillDir components with
  | none => throw (.sourceNotFound components)
  | some source =>
    let relNorm := normalizeRel sourceRel
    let place ← getTargetSkillsDir target
    return (!library.linkWorks place, disk.put (deployed library source relNorm place))

def removeDeployedSkill (disk : Disk) (target : SkillDeployment) (skillName : String) :
    Except DeployError Disk := do
  if !isSingleNormalComponent target.targetId then
    throw (.invalidTargetId target.targetId)
  if !isSingleNormalComponent skillName then
    throw (.invalidSkillName skillName)
  let place ← getTargetSkillsDir target
  return disk.remove (place, skillName)

/-! ### Changing the deployments of a skill -/

structure SetDeploymentsOutcome where
  added : Nat
  removed : Nat
  copiedFallbacks : Nat

/-- A change that failed. -/
structure TargetError where
  adding : Bool
  target : SkillDeployment
  error : DeployError

/-- Each target where it occurs first. -/
def firstOccurrences (seen : List SkillDeployment) : List SkillDeployment → List SkillDeployment
  | [] => []
  | target :: targets =>
    if target ∈ seen then firstOccurrences seen targets
    else target :: firstOccurrences (target :: seen) targets

structure Progress where
  disk : Disk
  outcome : SetDeploymentsOutcome
  errors : List TargetError

def removeStep (skillName : String) (desired : List SkillDeployment) (p : Progress)
    (target : SkillDeployment) : Progress :=
  if target ∈ desired then p
  else
    match removeDeployedSkill p.disk target skillName with
    | .ok disk => { p with disk := disk, outcome := { p.outcome with removed := p.outcome.removed + 1 } }
    | .error e => { p with errors := p.errors ++ [⟨false, target, e⟩] }

def addStep (library : SkillLibrary) (relNorm : String) (current : List SkillDeployment) (p : Progress)
    (target : SkillDeployment) : Progress :=
  if target ∈ current then p
  else
    match deploySkill library p.disk relNorm target with
    | .ok (copied, disk) =>
      { p with
        disk := disk
        outcome := { p.outcome with
          added := p.outcome.added + 1
          copiedFallbacks := p.outcome.copiedFallbacks + if copied then 1 else 0 } }
    | .error e => { p with errors := p.errors ++ [⟨true, target, e⟩] }

def setSkillDeployments (library : SkillLibrary) (order : ReadOrder) (disk : Disk) (sourceRel : String)
    (desired : List SkillDeployment) : Except (List TargetError) SetDeploymentsOutcome × Disk :=
  let relNorm := normalizeRel sourceRel
  let skillName := skillNameFromRel relNorm
  let desired := firstOccurrences [] desired
  let current := ((scanDeployments library.sources order disk).of relNorm).map (·.target)
  let removed := current.foldl (removeStep skillName desired) ⟨disk, ⟨0, 0, 0⟩, []⟩
  let p := desired.foldl (addStep library relNorm current) removed
  (if p.errors.isEmpty then .ok p.outcome else .error p.errors, p.disk)

/-! ### What a scan finds -/

section Scan

variable (sources : List SkillSource) (order : ReadOrder) (disk : Disk)

/-- A directory that belongs to a skill. -/
def Placed.resolvesTo (entry : Placed) (relPath : String) : Bool :=
  entry.isDir && resolveSource sources entry == some relPath

/-- A directory that belongs to no skill. -/
def Placed.orphaned (entry : Placed) : Bool := entry.isDir && (resolveSource sources entry).isNone

def Placed.deployment (entry : Placed) : DeploymentTarget := ⟨entry.place.target, entry.linked⟩

def Placed.orphan (entry : Placed) : OrphanDeployment := ⟨entry.place.target, entry.name⟩

theorem scanEntry_of (scan : DeploymentScan) (entry : Placed) (relPath : String) :
    (scanEntry sources scan entry).of relPath =
      scan.of relPath ++ if entry.resolvesTo sources relPath then [entry.deployment] else [] := by
  unfold scanEntry Placed.resolvesTo
  cases hdir : entry.isDir with
  | false => exact (append_nil _).symm
  | true =>
    rw [Bool.not_true, if_neg Bool.false_ne_true, Bool.true_and]
    cases hresv : resolveSource sources entry with
    | none => exact (append_nil _).symm
    | some found =>
      have hpush := Groups.found_push found relPath entry.deployment scan.deployments
      refine hpush.trans ?_
      by_cases heq : found = relPath
      · rw [heq, if_pos rfl, if_pos (beq_self_eq_true _)]
        rfl
      · rw [if_neg heq, if_neg, append_nil]
        · rfl
        · rw [beq_iff_eq, Option.some.injEq]
          exact heq

theorem scanEntry_orphans (scan : DeploymentScan) (entry : Placed) :
    (scanEntry sources scan entry).orphans =
      scan.orphans ++ if entry.orphaned sources then [entry.orphan] else [] := by
  unfold scanEntry Placed.orphaned
  cases hdir : entry.isDir with
  | false => exact (append_nil _).symm
  | true =>
    rw [Bool.not_true, if_neg Bool.false_ne_true, Bool.true_and]
    cases hresv : resolveSource sources entry with
    | none => rfl
    | some found => exact (append_nil _).symm

theorem foldl_scan (entries : List Placed) (scan : DeploymentScan) (relPath : String) :
    (entries.foldl (scanEntry sources) scan).of relPath =
        scan.of relPath ++ (entries.filter (·.resolvesTo sources relPath)).map Placed.deployment ∧
      (entries.foldl (scanEntry sources) scan).orphans =
        scan.orphans ++ (entries.filter (·.orphaned sources)).map Placed.orphan := by
  induction entries generalizing scan with
  | nil => exact ⟨(append_nil _).symm, (append_nil _).symm⟩
  | cons entry entries ih =>
    obtain ⟨hof, horph⟩ := ih (scanEntry sources scan entry)
    rw [foldl_cons, hof, horph, scanEntry_of, scanEntry_orphans, append_assoc,
      append_assoc, filter_cons, filter_cons]
    constructor
    · split <;> rfl
    · split <;> rfl

theorem of_scan_take (relPath : String) :
    (scanDeployments sources order disk).of relPath =
      (((order.order disk.entries).take maxLibraryDeployments).filter
        (·.resolvesTo sources relPath)).map Placed.deployment :=
  (foldl_scan sources ((order.order disk.entries).take maxLibraryDeployments)
    ⟨[], [], maxLibraryDeployments < disk.entries.length⟩ relPath).1

theorem of_scan (hroom : disk.entries.length ≤ maxLibraryDeployments) (relPath : String) :
    (scanDeployments sources order disk).of relPath =
      ((order.order disk.entries).filter (·.resolvesTo sources relPath)).map Placed.deployment := by
  have hlen := (order.perm disk.entries).length_eq
  rw [of_scan_take, take_of_length_le (hlen.trans_le hroom)]

theorem found_scan (hroom : disk.entries.length ≤ maxLibraryDeployments) (relPath : String) :
    ((scanDeployments sources order disk).of relPath).Perm
      ((disk.entries.filter (·.resolvesTo sources relPath)).map Placed.deployment) := by
  rw [of_scan sources order disk hroom]
  exact ((order.perm disk.entries).filter _).map _

theorem mem_orphans (hroom : disk.entries.length ≤ maxLibraryDeployments) (o : OrphanDeployment) :
    o ∈ (scanDeployments sources order disk).orphans ↔
      ∃ entry ∈ disk.entries, entry.orphaned sources = true ∧ entry.orphan = o := by
  have hlen := (order.perm disk.entries).length_eq
  have horpha := (foldl_scan sources (order.order disk.entries)
    ⟨[], [], maxLibraryDeployments < disk.entries.length⟩ "").2
  unfold scanDeployments
  rw [take_of_length_le (hlen.trans_le hroom), horpha, nil_append, mem_map]
  constructor
  · rintro ⟨entry, hmem, rfl⟩
    obtain ⟨hent, horph⟩ := mem_filter.1 hmem
    exact ⟨entry, (order.perm _).mem_iff.1 hent, horph, rfl⟩
  · rintro ⟨entry, hent, horph, rfl⟩
    exact ⟨entry, mem_filter.2 ⟨(order.perm _).mem_iff.2 hent, horph⟩, rfl⟩

end Scan

/-! ### Each target once -/

theorem mem_firstOccurrences {seen targets : List SkillDeployment} {target : SkillDeployment} :
    target ∈ firstOccurrences seen targets ↔ target ∈ targets ∧ target ∉ seen := by
  induction targets generalizing seen with
  | nil => exact iff_of_false not_mem_nil fun h => not_mem_nil h.1
  | cons first targets ih =>
    rw [firstOccurrences]
    split
    next hseen =>
      rw [ih, mem_cons]
      refine and_congr_left fun hnot => (or_iff_right ?_).symm
      rintro rfl
      exact hnot hseen
    next hseen =>
      rw [mem_cons, mem_cons, ih, mem_cons, not_or]
      constructor
      · rintro (rfl | ⟨hmem, -, hnot⟩)
        · exact ⟨.inl rfl, hseen⟩
        · exact ⟨.inr hmem, hnot⟩
      · rintro ⟨rfl | hmem, hnot⟩
        · exact .inl rfl
        · by_cases heq : target = first
          · exact .inl heq
          · exact .inr ⟨hmem, heq, hnot⟩

theorem nodup_firstOccurrences (seen targets : List SkillDeployment) :
    (firstOccurrences seen targets).Nodup := by
  induction targets generalizing seen with
  | nil => exact nodup_nil
  | cons first targets ih =>
    rw [firstOccurrences]
    split
    · exact ih seen
    · refine nodup_cons.2 ⟨fun hmem => ?_, ih (first :: seen)⟩
      exact (mem_firstOccurrences.1 hmem).2 (mem_cons_self ..)

end Wardian.Library
