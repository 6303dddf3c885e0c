/-
Bringing the deployments of a skill to what is desired.

The directory of a deployed skill has the last part of its path as its name.  Where the directories that
belong to a skill have that name, and no other directory has it where the skill is to be deployed, exactly
the desired deployments are left and nothing else is touched; in all other states something goes wrong, as
with a copy that is still listed after it was counted as removed.

Main results:

* `set_ok` — the disk after a call that succeeds;
* `fits_of_reconciles`, `reconciles_of_fits` — what the names have to do with it;
* `set_reconciles_iff` — the deployments are right exactly where the names are.
-/

import Wardian.Library.Deployments

set_option autoImplicit false

namespace Wardian.Library

open List

/-! ### One change -/

theorem normalizeRel_idem (rel : String) : normalizeRel (normalizeRel rel) = normalizeRel rel := by
  unfold normalizeRel
  rw [String.toList_ofList, map_map]
  refine congrArg String.ofList (map_congr_left fun c _ => ?_)
  dsimp only [Function.comp_apply]
  by_cases hc : c = '\\'
  · rw [if_pos hc]
    rfl
  · rw [if_neg hc, if_neg hc]

theorem getTargetSkillsDir_target (place : SkillsDir) : getTargetSkillsDir place.target = .ok place := by
  cases place <;> rfl

variable {place : SkillsDir}

theorem target_injective {other : SkillsDir} (h : place.target = other.target) : place = other := by
  have hsame := congrArg getTargetSkillsDir h
  rw [getTargetSkillsDir_target, getTargetSkillsDir_target] at hsame
  exact Except.ok.inj hsame

variable {places : List SkillsDir}

theorem mem_map_target : place.target ∈ places.map SkillsDir.target ↔ place ∈ places := by
  refine ⟨fun h => ?_, fun h => mem_map_of_mem h⟩
  obtain ⟨other, hoth, heq⟩ := mem_map.1 h
  exact target_injective heq ▸ hoth

/-- What a deployment puts into a directory, where the skill can be found. -/
def newEntry (library : SkillLibrary) (relNorm : String) (place : SkillsDir) : Option Placed :=
  ((resolveEntryPath relNorm).toOption.bind library.skillDir).map fun source =>
    deployed library source relNorm place

variable {library : SkillLibrary}

theorem key_newEntry {relNorm : String} {entry : Placed}
    (h : newEntry library relNorm place = some entry) : entry.key = (place, skillNameFromRel relNorm) := by
  obtain ⟨source, -, rfl⟩ := Option.map_eq_some_iff.1 h
  unfold deployed
  dsimp only
  split <;> rfl

theorem removeDeployedSkill_ok {disk disk' : Disk} {skillName : String}
    (h : removeDeployedSkill disk place.target skillName = .ok disk') : disk' = disk.remove (place, skillName) := by
  unfold removeDeployedSkill at h
  rw [getTargetSkillsDir_target] at h
  cases hid : isSingleNormalComponent place.target.targetId with
  | false =>
    rw [hid] at h
    cases h
  | true =>
    cases hname : isSingleNormalComponent skillName with
    | false =>
      rw [hid, hname] at h
      cases h
    | true =>
      rw [hid, hname] at h
      exact (Except.ok.inj h).symm

theorem deploySkill_ok {disk disk' : Disk} {rel : String}
    {copied : Bool} (h : deploySkill library disk (normalizeRel rel) place.target = .ok (copied, disk')) :
    ∃ entry, newEntry library (normalizeRel rel) place = some entry ∧ disk' = disk.put entry := by
  unfold deploySkill at h
  rw [getTargetSkillsDir_target] at h
  cases hid : isSingleNormalComponent place.target.targetId with
  | false =>
    rw [hid] at h
    cases h
  | true =>
    rw [hid] at h
    cases hpath : resolveEntryPath (normalizeRel rel) with
    | error e =>
      rw [hpath] at h
      cases h
    | ok components =>
      rw [hpath] at h
      dsimp only [bind, Except.bind, pure, Except.pure] at h
      cases hsrc : library.skillDir components with
      | none =>
        rw [hsrc] at h
        cases h
      | some source =>
        rw [hsrc, normalizeRel_idem] at h
        refine ⟨deployed library source (normalizeRel rel) place, ?_, ?_⟩
        · unfold newEntry
          rw [hpath]
          exact congrArg (Option.map _) hsrc
        · exact (congrArg Prod.snd (Except.ok.inj h)).symm

/-! ### All changes -/

/-- The directories of one name at some places. -/
def keysAt (places : List SkillsDir) (name : String) : List (SkillsDir × String) :=
  places.map fun place => (place, name)

theorem mem_keysAt {name : String} {key : SkillsDir × String} :
    key ∈ keysAt places name ↔ key.1 ∈ places ∧ key.2 = name := by
  unfold keysAt
  rw [mem_map]
  constructor
  · rintro ⟨place, hplc, rfl⟩
    exact ⟨hplc, rfl⟩
  · rintro ⟨hplc, rfl⟩
    exact ⟨key.1, hplc, rfl⟩

theorem filter_keysAt_cons (entries : List Placed) (place : SkillsDir) (places : List SkillsDir)
    (name : String) : (entries.filter fun entry => entry.key ≠ (place, name)).filter
      (fun entry => entry.key ∉ keysAt places name) =
        entries.filter fun entry => entry.key ∉ keysAt (place :: places) name := by
  rw [filter_filter]
  refine filter_congr fun entry _ => ?_
  have hiff : entry.key ∈ keysAt (place :: places) name ↔
      entry.key = (place, name) ∨ entry.key ∈ keysAt places name := mem_cons
  rw [Bool.eq_iff_iff, Bool.and_eq_true, decide_eq_true_iff, decide_eq_true_iff, decide_eq_true_iff, hiff,
    not_or]
  exact and_comm

theorem removeStep_cases (skillName : String) (desired : List SkillDeployment) (p : Progress)
    (place : SkillsDir) :
    (place.target ∈ desired ∧ removeStep skillName desired p place.target = p) ∨
      (place.target ∉ desired ∧ ((removeStep skillName desired p place.target).errors ≠ [] ∨
        ((removeStep skillName desired p place.target).errors = p.errors ∧
          (removeStep skillName desired p place.target).disk = p.disk.remove (place, skillName) ∧
          (removeStep skillName desired p place.target).outcome.removed = p.outcome.removed + 1 ∧
          (removeStep skillName desired p place.target).outcome.added = p.outcome.added))) := by
  unfold removeStep
  by_cases hin : place.target ∈ desired
  · exact .inl ⟨hin, if_pos hin⟩
  · refine .inr ⟨hin, ?_⟩
    rw [if_neg hin]
    cases hres : removeDeployedSkill p.disk place.target skillName with
    | error e => exact .inl (append_ne_nil_of_right_ne_nil _ (cons_ne_nil _ _))
    | ok disk => exact .inr ⟨rfl, removeDeployedSkill_ok hres, rfl, rfl⟩

theorem foldl_remove {skillName : String} {desired : List SkillDeployment} (places : List SkillsDir)
    (p : Progress) (h : ((places.map SkillsDir.target).foldl (removeStep skillName desired) p).errors = []) :
    p.errors = [] ∧
      ((places.map SkillsDir.target).foldl (removeStep skillName desired) p).disk.entries =
        p.disk.entries.filter (fun entry =>
          entry.key ∉ keysAt (places.filter fun place => place.target ∉ desired) skillName) ∧
      ((places.map SkillsDir.target).foldl (removeStep skillName desired) p).outcome.removed =
        p.outcome.removed + (places.filter fun place => place.target ∉ desired).length ∧
      ((places.map SkillsDir.target).foldl (removeStep skillName desired) p).outcome.added =
        p.outcome.added := by
  induction places generalizing p with
  | nil =>
    refine ⟨h, ?_, rfl, rfl⟩
    exact (filter_eq_self.2 fun entry _ => decide_eq_true not_mem_nil).symm
  | cons place places ih =>
    rw [map_cons, foldl_cons] at h ⊢
    obtain ⟨herrs, hents, hrem, hadded⟩ := ih _ h
    rcases removeStep_cases skillName desired p place with
      ⟨hin, hsame⟩ | ⟨hin, hfld | ⟨hsame, hdisk, hone, hoth⟩⟩
    · rw [hsame] at herrs hents hrem hadded ⊢
      rw [filter_cons_of_neg (by simpa using hin)]
      exact ⟨herrs, hents, hrem, hadded⟩
    · exact absurd herrs hfld
    · rw [hsame] at herrs
      rw [hdisk] at hents
      rw [filter_cons_of_pos (by simpa using hin)]
      refine ⟨herrs, hents.trans (filter_keysAt_cons ..), ?_, hadded.trans hoth⟩
      rw [hrem, hone, length_cons]
      omega

theorem addStep_cases (library : SkillLibrary) (rel : String) (current : List SkillDeployment) (p : Progress)
    (place : SkillsDir) :
    (place.target ∈ current ∧ addStep library (normalizeRel rel) current p place.target = p) ∨
      (place.target ∉ current ∧ ((addStep library (normalizeRel rel) current p place.target).errors ≠ [] ∨
        ((addStep library (normalizeRel rel) current p place.target).errors = p.errors ∧
          (∃ entry, newEntry library (normalizeRel rel) place = some entry ∧
            (addStep library (normalizeRel rel) current p place.target).disk = p.disk.put entry) ∧
          (addStep library (normalizeRel rel) current p place.target).outcome.added = p.outcome.added + 1 ∧
          (addStep library (normalizeRel rel) current p place.target).outcome.removed =
            p.outcome.removed))) := by
  unfold addStep
  by_cases hin : place.target ∈ current
  · exact .inl ⟨hin, if_pos hin⟩
  · refine .inr ⟨hin, ?_⟩
    rw [if_neg hin]
    cases hres : deploySkill library p.disk (normalizeRel rel) place.target with
    | error e => exact .inl (append_ne_nil_of_right_ne_nil _ (cons_ne_nil _ _))
    | ok result => exact .inr ⟨rfl, deploySkill_ok hres, rfl, rfl⟩

/-- What the additions make of the disk when none of them fails. -/
theorem foldl_add {rel : String} {current : List SkillDeployment}
    (places : List SkillsDir) (hndp : places.Nodup) (p : Progress)
    (h : ((places.map SkillsDir.target).foldl (addStep library (normalizeRel rel) current) p).errors = []) :
    p.errors = [] ∧
      ((places.map SkillsDir.target).foldl (addStep library (normalizeRel rel) current) p).disk.entries =
        p.disk.entries.filter (fun entry => entry.key ∉ keysAt
          (places.filter fun place => place.target ∉ current) (skillNameFromRel (normalizeRel rel))) ++
          (places.filter fun place => place.target ∉ current).filterMap
            (newEntry library (normalizeRel rel)) ∧
      ((places.map SkillsDir.target).foldl (addStep library (normalizeRel rel) current) p).outcome.added =
        p.outcome.added + (places.filter fun place => place.target ∉ current).length ∧
      ((places.map SkillsDir.target).foldl (addStep library (normalizeRel rel) current) p).outcome.removed =
        p.outcome.removed ∧
      ∀ place ∈ places, place.target ∉ current →
        ∃ entry, newEntry library (normalizeRel rel) place = some entry := by
  induction places generalizing p with
  | nil =>
    refine ⟨h, ?_, rfl, rfl, fun place hplc => absurd hplc not_mem_nil⟩
    refine ((append_nil _).trans ?_).symm
    exact filter_eq_self.2 fun entry _ => decide_eq_true not_mem_nil
  | cons place places ih =>
    obtain ⟨hnot, hndp⟩ := nodup_cons.1 hndp
    rw [map_cons, foldl_cons] at h ⊢
    obtain ⟨herrs, hents, hadded, hrem, hnew⟩ := ih hndp _ h
    rcases addStep_cases library rel current p place with
      ⟨hin, hsame⟩ | ⟨hin, hfld | ⟨hsame, ⟨entry, hent, hdisk⟩, hone, hoth⟩⟩
    · rw [hsame] at herrs hents hadded hrem ⊢
      rw [filter_cons_of_neg (by simpa using hin)]
      refine ⟨herrs, hents, hadded, hrem, fun other hoth hout => ?_⟩
      rcases mem_cons.1 hoth with rfl | hoth
      · exact absurd hin hout
      · exact hnew other hoth hout
    · exact absurd herrs hfld
    · rw [hsame] at herrs
      have hkey := key_newEntry hent
      -- the new entry stays, since each place comes once
      have hkept : entry.key ∉ keysAt (places.filter fun place => place.target ∉ current)
          (skillNameFromRel (normalizeRel rel)) := by
        rw [mem_keysAt, hkey]
        exact fun hmem => hnot (mem_filter.1 hmem.1).1
      have hput : (p.disk.put entry).entries =
          (p.disk.entries.filter fun other => other.key ≠ entry.key) ++ [entry] := rfl
      rw [hdisk, hput, filter_append, filter_cons_of_pos (by simpa using hkept), filter_nil,
        hkey, filter_keysAt_cons, append_assoc] at hents
      rw [filter_cons_of_pos (by simpa using hin)]
      refine ⟨herrs, ?_, ?_, hrem.trans hoth, fun other hoth hout => ?_⟩
      · rw [filterMap_cons_some hent]
        exact hents
      · rw [hadded, hone, length_cons]
        omega
      · rcases mem_cons.1 hoth with rfl | hoth
        · exact ⟨entry, hent⟩
        · exact hnew other hoth hout

/-! ### The disk after a call -/

section Call

variable {library : SkillLibrary} {order : ReadOrder} {disk disk' : Disk} {rel : String}
  {desired : List SkillDeployment} {outcome : SetDeploymentsOutcome}

/-- Whether a directory of a place belongs to a skill. -/
def DeployedAt (library : SkillLibrary) (disk : Disk) (relNorm : String) (place : SkillsDir) : Prop :=
  ∃ entry ∈ disk.entries, entry.resolvesTo library.sources relNorm = true ∧ entry.place = place

instance (library : SkillLibrary) (disk : Disk) (relNorm : String) (place : SkillsDir) :
    Decidable (DeployedAt library disk relNorm place) :=
  inferInstanceAs (Decidable (∃ entry ∈ disk.entries,
    entry.resolvesTo library.sources relNorm = true ∧ entry.place = place))

/-- The places at which a skill is deployed, as a scan finds them. -/
def foundAt (library : SkillLibrary) (order : ReadOrder) (disk : Disk) (relNorm : String) : List SkillsDir :=
  ((order.order disk.entries).filter (·.resolvesTo library.sources relNorm)).map (·.place)

variable {relNorm : String} {place : SkillsDir}

theorem mem_foundAt : place ∈ foundAt library order disk relNorm ↔ DeployedAt library disk relNorm place := by
  unfold foundAt DeployedAt
  rw [mem_map]
  constructor
  · rintro ⟨entry, hmem, rfl⟩
    obtain ⟨hent, hress⟩ := mem_filter.1 hmem
    exact ⟨entry, (order.perm _).mem_iff.1 hent, hress, rfl⟩
  · rintro ⟨entry, hent, hress, rfl⟩
    exact ⟨entry, mem_filter.2 ⟨(order.perm _).mem_iff.2 hent, hress⟩, rfl⟩

theorem targets_of_scan (hroom : disk.entries.length ≤ maxLibraryDeployments) (relNorm : String) :
    ((scanDeployments library.sources order disk).of relNorm).map (·.target) =
      (foundAt library order disk relNorm).map SkillsDir.target := by
  rw [of_scan _ _ _ hroom, map_map]
  unfold foundAt
  rw [map_map]
  rfl

variable {targets : List SkillDeployment}

theorem exists_places (h : ∀ target ∈ targets, ∃ place : SkillsDir, place.target = target) :
    ∃ places : List SkillsDir, targets = places.map SkillsDir.target := by
  induction targets with
  | nil => exact ⟨[], rfl⟩
  | cons target targets ih =>
    obtain ⟨place, rfl⟩ := h target (mem_cons_self ..)
    obtain ⟨places, rfl⟩ := ih fun other hoth => h other (mem_cons_of_mem _ hoth)
    exact ⟨place :: places, rfl⟩

/-- The disk and the outcome after the deployments at some places were brought to others. -/
structure Applied (library : SkillLibrary) (relNorm : String) (disk disk' : Disk)
    (found wanted : List SkillsDir) (outcome : SetDeploymentsOutcome) : Prop where
  entries : disk'.entries = disk.entries.filter (fun entry => entry.key ∉
      keysAt (found.filter (· ∉ wanted) ++ wanted.filter (· ∉ found)) (skillNameFromRel relNorm)) ++
    (wanted.filter (· ∉ found)).filterMap (newEntry library relNorm)
  removed : outcome.removed = (found.filter (· ∉ wanted)).length
  added : outcome.added = (wanted.filter (· ∉ found)).length
  new : ∀ place ∈ wanted, place ∉ found → ∃ entry, newEntry library relNorm place = some entry

theorem set_ok (hroom : disk.entries.length ≤ maxLibraryDeployments)
    (hok : setSkillDeployments library order disk rel desired = (.ok outcome, disk'))
    {wanted : List SkillsDir} (hwtd : firstOccurrences [] desired = wanted.map SkillsDir.target) :
    Applied library (normalizeRel rel) disk disk' (foundAt library order disk (normalizeRel rel)) wanted
      outcome := by
  have hndp : wanted.Nodup := by
    have hfst := nodup_firstOccurrences [] desired
    rw [hwtd] at hfst
    exact hfst.of_map
  unfold setSkillDeployments at hok
  dsimp only at hok
  rw [targets_of_scan hroom, hwtd] at hok
  obtain ⟨found, hfnd⟩ : ∃ found, found = foundAt library order disk (normalizeRel rel) := ⟨_, rfl⟩
  rw [← hfnd] at hok ⊢
  obtain ⟨removed, hrem⟩ : ∃ removed, removed = (found.map SkillsDir.target).foldl
    (removeStep (skillNameFromRel (normalizeRel rel)) (wanted.map SkillsDir.target))
      ⟨disk, ⟨0, 0, 0⟩, []⟩ := ⟨_, rfl⟩
  obtain ⟨p, hp⟩ : ∃ p, p = (wanted.map SkillsDir.target).foldl
    (addStep library (normalizeRel rel) (found.map SkillsDir.target)) removed := ⟨_, rfl⟩
  rw [← hrem, ← hp] at hok
  obtain ⟨hres, hdisk⟩ := Prod.mk.inj hok
  have herrs : p.errors = [] := by
    by_contra hne
    rw [if_neg fun h => hne (List.isEmpty_iff.1 h)] at hres
    cases hres
  rw [herrs, isEmpty_nil, if_pos rfl] at hres
  obtain rfl := Except.ok.inj hres
  subst hdisk
  have hgone : ∀ place, (place.target ∉ wanted.map SkillsDir.target) = (place ∉ wanted) := fun place =>
    propext (not_congr mem_map_target)
  have hnew : ∀ place, (place.target ∉ found.map SkillsDir.target) = (place ∉ found) := fun place =>
    propext (not_congr mem_map_target)
  rw [hp] at herrs
  obtain ⟨herrs', hents, hadded, hkept, hexists⟩ := foldl_add wanted hndp removed herrs
  rw [hrem] at herrs'
  obtain ⟨-, hents', hrem', hadded'⟩ := foldl_remove found ⟨disk, ⟨0, 0, 0⟩, []⟩ herrs'
  rw [← hrem] at hents' hrem' hadded'
  rw [← hp, hents'] at hents
  rw [← hp] at hadded hkept
  simp only [hgone, hnew] at hents hadded hrem' hexists
  refine ⟨?_, ?_, ?_, hexists⟩
  · rw [hents, filter_filter]
    congr 1
    refine filter_congr fun entry _ => ?_
    rw [Bool.eq_iff_iff, Bool.and_eq_true, decide_eq_true_iff, decide_eq_true_iff, decide_eq_true_iff,
      mem_keysAt, mem_keysAt, mem_keysAt, mem_append]
    tauto
  · rw [hkept, hrem']
    exact Nat.zero_add _
  · rw [hadded, hadded']
    exact Nat.zero_add _

variable {found : List SkillsDir} {entry : Placed}

theorem Applied.mem {wanted : List SkillsDir} (h : Applied library relNorm disk disk' found wanted outcome) :
    entry ∈ disk'.entries ↔
      (entry ∈ disk.entries ∧ ¬(((entry.place ∈ found ∧ entry.place ∉ wanted) ∨
          (entry.place ∈ wanted ∧ entry.place ∉ found)) ∧ entry.name = skillNameFromRel relNorm)) ∨
        ∃ place, place ∈ wanted ∧ place ∉ found ∧ newEntry library relNorm place = some entry := by
  rw [h.entries, mem_append, mem_filter, decide_eq_true_iff, mem_keysAt, mem_append,
    mem_filter, mem_filter, decide_eq_true_iff, decide_eq_true_iff, mem_filterMap]
  refine or_congr Iff.rfl ⟨?_, ?_⟩
  · rintro ⟨place, hplc, hnew⟩
    obtain ⟨hin, hout⟩ := mem_filter.1 hplc
    exact ⟨place, hin, of_decide_eq_true hout, hnew⟩
  · rintro ⟨place, hin, hout, hnew⟩
    exact ⟨place, mem_filter.2 ⟨hin, decide_eq_true hout⟩, hnew⟩

/-- The desired deployments are there, and nothing else has changed. -/
structure Reconciles (library : SkillLibrary) (order : ReadOrder) (disk : Disk) (rel : String)
    (desired : List SkillDeployment) (outcome : SetDeploymentsOutcome) (disk' : Disk) : Prop where
  deployed : ∀ later : ReadOrder,
    (((scanDeployments library.sources later disk').of (normalizeRel rel)).map (·.target)).Perm desired.dedup
  added : outcome.added = (desired.toFinset \
    (((scanDeployments library.sources order disk).of (normalizeRel rel)).map (·.target)).toFinset).card
  removed : outcome.removed = ((((scanDeployments library.sources order disk).of
    (normalizeRel rel)).map (·.target)).toFinset \ desired.toFinset).card
  again : ∀ later : ReadOrder,
    setSkillDeployments library later disk' rel desired = (.ok ⟨0, 0, 0⟩, disk')
  others : ∀ (later : ReadOrder) (relPath : String), relPath ≠ normalizeRel rel →
    ((scanDeployments library.sources later disk').of relPath).Perm
      ((scanDeployments library.sources order disk).of relPath)
  orphans : ∀ later : ReadOrder, ∀ o ∈ (scanDeployments library.sources order disk).orphans,
    o ∈ (scanDeployments library.sources later disk').orphans

/-- What stays where it is when a skill is brought to the desired targets. -/
def staying (library : SkillLibrary) (disk : Disk) (relNorm : String) (desired : List SkillDeployment) :
    List Placed :=
  disk.entries.filter fun entry => entry.name ≠ skillNameFromRel relNorm ∨
    (DeployedAt library disk relNorm entry.place ↔ entry.place.target ∈ desired)

/-- The targets at which a skill is still missing. -/
def missing (library : SkillLibrary) (disk : Disk) (relNorm : String) (desired : List SkillDeployment) :
    List SkillDeployment :=
  desired.dedup.filter fun target => ∀ entry ∈ disk.entries,
    entry.resolvesTo library.sources relNorm = true → entry.place.target ≠ target

/-- The directories of a skill have its name where they are removed, there is one of them where it stays, and
where one is to come no other directory has the name and the new one will be known as the skill's; and a scan
can read all of them. -/
structure Fits (library : SkillLibrary) (disk : Disk) (relNorm : String) (desired : List SkillDeployment) :
    Prop where
  removable : ∀ entry ∈ disk.entries, entry.resolvesTo library.sources relNorm = true →
    entry.place.target ∉ desired → entry.name = skillNameFromRel relNorm
  single : ∀ entry ∈ disk.entries, ∀ other ∈ disk.entries,
    entry.resolvesTo library.sources relNorm = true → other.resolvesTo library.sources relNorm = true →
      entry.place = other.place → entry.place.target ∈ desired → entry = other
  free : ∀ place : SkillsDir, place.target ∈ desired → ¬DeployedAt library disk relNorm place →
    (∀ entry ∈ disk.entries, entry.key = (place, skillNameFromRel relNorm) → entry.isDir = false) ∧
      ∀ entry, newEntry library relNorm place = some entry →
        entry.resolvesTo library.sources relNorm = true
  room : (staying library disk relNorm desired).length + (missing library disk relNorm desired).length ≤
    maxLibraryDeployments

theorem eq_of_key {other : Placed} (hent : entry ∈ disk.entries) (hoth : other ∈ disk.entries)
    (hkey : entry.key = other.key) : entry = other :=
  inj_on_of_nodup_map disk.nodup hent hoth hkey

variable {wanted : List SkillsDir}

theorem mem_wanted (hwtd : firstOccurrences [] desired = wanted.map SkillsDir.target) :
    place ∈ wanted ↔ place.target ∈ desired := by
  rw [← mem_map_target, ← hwtd, mem_firstOccurrences]
  exact and_iff_left not_mem_nil

theorem Applied.length (hwtd : firstOccurrences [] desired = wanted.map SkillsDir.target)
    (h : Applied library relNorm disk disk' (foundAt library order disk relNorm) wanted outcome) :
    disk'.entries.length =
      (staying library disk relNorm desired).length + (missing library disk relNorm desired).length := by
  have hkept : (disk.entries.filter fun entry => entry.key ∉
      keysAt ((foundAt library order disk relNorm).filter (· ∉ wanted) ++
        wanted.filter (· ∉ foundAt library order disk relNorm)) (skillNameFromRel relNorm)) =
          staying library disk relNorm desired := by
    refine filter_congr fun entry _ => ?_
    rw [Bool.eq_iff_iff, decide_eq_true_iff, decide_eq_true_iff, mem_keysAt, mem_append, mem_filter,
      mem_filter, decide_eq_true_iff, decide_eq_true_iff, mem_foundAt, mem_wanted hwtd]
    have hname : entry.key.2 = entry.name := rfl
    have hplc : entry.key.1 = entry.place := rfl
    rw [hname, hplc]
    tauto
  have hnew : ((wanted.filter (· ∉ foundAt library order disk relNorm)).filterMap
      (newEntry library relNorm)).length = (wanted.filter (· ∉ foundAt library order disk relNorm)).length := by
    refine filterMap_length_eq_length.2 fun place hplc => ?_
    obtain ⟨hin, hout⟩ := mem_filter.1 hplc
    obtain ⟨entry, hent⟩ := h.new place hin (of_decide_eq_true hout)
    rw [hent]
    rfl
  have hperm : desired.dedup.Perm (wanted.map SkillsDir.target) := by
    rw [← hwtd]
    refine (perm_ext_iff_of_nodup (nodup_dedup desired) (nodup_firstOccurrences [] desired)).2 ?_
    intro target
    rw [mem_dedup, mem_firstOccurrences]
    exact (and_iff_left not_mem_nil).symm
  have hmiss : (missing library disk relNorm desired).length =
      (wanted.filter (· ∉ foundAt library order disk relNorm)).length := by
    unfold missing
    rw [(hperm.filter _).length_eq, filter_map, length_map]
    refine congrArg List.length (filter_congr fun place _ => ?_)
    rw [Bool.eq_iff_iff, Function.comp_apply, decide_eq_true_iff, decide_eq_true_iff, mem_foundAt]
    unfold DeployedAt
    push Not
    refine forall_congr' fun entry => forall_congr' fun _ => forall_congr' fun _ => not_congr ?_
    exact ⟨target_injective, congrArg SkillsDir.target⟩
  rw [h.entries, length_append, hkept, hnew, hmiss]

/-- A new directory belongs to the skill, if it is found where it is to come. -/
theorem Applied.new_resolves
    (h : Applied library relNorm disk disk' (foundAt library order disk relNorm) wanted outcome)
    {other : Placed} (hout : place ∉ foundAt library order disk relNorm)
    (hent : newEntry library relNorm place = some entry) (hoth : other ∈ disk'.entries)
    (hress : other.resolvesTo library.sources relNorm = true) (hplc : other.place = place) :
    other = entry := by
  rcases h.mem.1 hoth with ⟨hold, -⟩ | ⟨place', -, -, hnew⟩
  · exact absurd (mem_foundAt.2 ⟨other, hold, hress, hplc⟩) hout
  · have hplc' : place' = place := (congrArg Prod.fst (key_newEntry hnew)).symm.trans hplc
    rw [hplc', hent] at hnew
    exact (Option.some.inj hnew).symm

theorem perm_readLast (entry : Placed) (entries : List Placed) :
    (if entry ∈ entries then entries.erase entry ++ [entry] else entries).Perm entries := by
  split
  next hmem => exact (perm_append_singleton _ _).trans (perm_cons_erase hmem).symm
  next => exact Perm.refl _

/-- An order in which a directory is read last. -/
def readLast (entry : Placed) : ReadOrder where
  order entries := if entry ∈ entries then entries.erase entry ++ [entry] else entries
  perm := perm_readLast entry

/-- Where the desired targets are found in whatever order, a scan reads everything. -/
theorem room_of_deployed (hroom : disk.entries.length ≤ maxLibraryDeployments)
    (hwtd : firstOccurrences [] desired = wanted.map SkillsDir.target)
    (happlied : Applied library (normalizeRel rel) disk disk'
      (foundAt library order disk (normalizeRel rel)) wanted outcome)
    (h : ∀ later : ReadOrder, (((scanDeployments library.sources later disk').of
      (normalizeRel rel)).map (·.target)).Perm desired.dedup) :
    disk'.entries.length ≤ maxLibraryDeployments := by
  by_contra hover
  have hmore : (wanted.filter (· ∉ foundAt library order disk (normalizeRel rel))) ≠ [] := by
    intro hnone
    have hkept := length_filter_le (fun entry : Placed => decide (entry.key ∉
      keysAt ((foundAt library order disk (normalizeRel rel)).filter (· ∉ wanted) ++
        wanted.filter (· ∉ foundAt library order disk (normalizeRel rel)))
          (skillNameFromRel (normalizeRel rel)))) disk.entries
    have hlen := congrArg List.length happlied.entries
    rw [length_append] at hlen
    have hnew : ((wanted.filter (· ∉ foundAt library order disk (normalizeRel rel))).filterMap
        (newEntry library (normalizeRel rel))).length = 0 := by
      rw [hnone]
      rfl
    omega
  obtain ⟨place, hplc⟩ := exists_mem_of_ne_nil _ hmore
  obtain ⟨hin, hout⟩ := mem_filter.1 hplc
  have hout := of_decide_eq_true hout
  obtain ⟨entry, hent⟩ := happlied.new place hin hout
  have hmem : entry ∈ disk'.entries := happlied.mem.2 (.inr ⟨place, hin, hout, hent⟩)
  -- a scan that would read the new entry last does not read it
  have hfnd := (h (readLast entry)).mem_iff.2 (mem_dedup.2 ((mem_wanted hwtd).1 hin))
  have hlen := length_erase_of_mem hmem
  have hread : (readLast entry).order disk'.entries = disk'.entries.erase entry ++ [entry] := if_pos hmem
  rw [of_scan_take, hread, take_append_of_le_length (by omega), map_map] at hfnd
  obtain ⟨other, hoth, hsame⟩ := mem_map.1 hfnd
  obtain ⟨htake, hress⟩ := mem_filter.1 hoth
  obtain ⟨hne, hoth⟩ := (disk'.nodup.of_map.mem_erase_iff).1 (mem_of_mem_take htake)
  exact hne (happlied.new_resolves hout hent hoth hress (target_injective hsame))

theorem Applied.filter_other (h : Applied library relNorm disk disk' found wanted outcome) (relPath : String)
    (hnew : ∀ place ∈ wanted, place ∉ found → ∀ entry, newEntry library relNorm place = some entry →
      entry.resolvesTo library.sources relPath = false) :
    disk'.entries.filter (·.resolvesTo library.sources relPath) =
      (disk.entries.filter (·.resolvesTo library.sources relPath)).filter fun entry => entry.key ∉
        keysAt (found.filter (· ∉ wanted) ++ wanted.filter (· ∉ found)) (skillNameFromRel relNorm) := by
  rw [h.entries, filter_append, filter_filter, filter_filter]
  have hnone : ((wanted.filter (· ∉ found)).filterMap (newEntry library relNorm)).filter
      (·.resolvesTo library.sources relPath) = [] := by
    refine filter_eq_nil_iff.2 fun entry hent => ?_
    obtain ⟨place, hplc, hsome⟩ := mem_filterMap.1 hent
    obtain ⟨hin, hout⟩ := mem_filter.1 hplc
    rw [hnew place hin (of_decide_eq_true hout) entry hsome]
    exact Bool.false_ne_true
  rw [hnone, append_nil]
  exact filter_congr fun entry _ => Bool.and_comm _ _

theorem resolvesTo_unique {relPath : String} (h : entry.resolvesTo library.sources relNorm = true)
    (hne : relPath ≠ relNorm) : entry.resolvesTo library.sources relPath = false := by
  unfold Placed.resolvesTo at h ⊢
  rw [Bool.and_eq_true, beq_iff_eq] at h
  rw [h.1, h.2, Bool.true_and, beq_eq_false_iff_ne]
  exact fun heq => hne (Option.some.inj heq).symm

theorem not_orphaned
    (h : entry.resolvesTo library.sources relNorm = true) : entry.orphaned library.sources = false := by
  unfold Placed.resolvesTo at h
  unfold Placed.orphaned
  rw [Bool.and_eq_true, beq_iff_eq] at h
  rw [h.2]
  exact Bool.and_false _

theorem fits_of_reconciles (hroom : disk.entries.length ≤ maxLibraryDeployments)
    (hwtd : firstOccurrences [] desired = wanted.map SkillsDir.target)
    (happlied : Applied library (normalizeRel rel) disk disk'
      (foundAt library order disk (normalizeRel rel)) wanted outcome)
    (h : Reconciles library order disk rel desired outcome disk') :
    Fits library disk (normalizeRel rel) desired := by
  have hroom' := room_of_deployed hroom hwtd happlied h.deployed
  have hscan := ((found_scan library.sources order disk' hroom' (normalizeRel rel)).map (·.target)).symm.trans
    (h.deployed order)
  rw [map_map] at hscan
  have hfnd : ∀ entry ∈ disk'.entries, entry.resolvesTo library.sources (normalizeRel rel) = true →
      entry.place.target ∈ desired := by
    intro entry hent hress
    refine mem_dedup.1 (hscan.mem_iff.1 ?_)
    exact mem_map.2 ⟨entry, mem_filter.2 ⟨hent, hress⟩, rfl⟩
  have honce : ∀ entry ∈ disk'.entries, ∀ other ∈ disk'.entries,
      entry.resolvesTo library.sources (normalizeRel rel) = true →
        other.resolvesTo library.sources (normalizeRel rel) = true → entry.place = other.place →
          entry = other := by
    intro entry hent other hoth hress hress' hplc
    have hndp := hscan.nodup_iff.2 (nodup_dedup desired)
    refine inj_on_of_nodup_map hndp (mem_filter.2 ⟨hent, hress⟩)
      (mem_filter.2 ⟨hoth, hress'⟩) ?_
    exact congrArg SkillsDir.target hplc
  -- what is new belongs to the skill
  have hnew : ∀ (place : SkillsDir) (entry : Placed), place.target ∈ desired →
      place ∉ foundAt library order disk (normalizeRel rel) →
        newEntry library (normalizeRel rel) place = some entry →
          entry.resolvesTo library.sources (normalizeRel rel) = true := by
    intro place entry hplc hout hent
    obtain ⟨other, hmem, heq⟩ := mem_map.1 (hscan.mem_iff.2 (mem_dedup.2 hplc))
    obtain ⟨hoth, hress⟩ := mem_filter.1 hmem
    rwa [happlied.new_resolves hout hent hoth hress (target_injective heq)] at hress
  constructor
  case removable =>
    intro entry hent hress hnot
    by_contra hname
    refine hnot (hfnd entry (happlied.mem.2 (.inl ⟨hent, ?_⟩)) hress)
    exact fun h => hname h.2
  case single =>
    intro entry hent other hoth hress hress' hplc hin
    have hkept : ∀ e ∈ disk.entries, e.resolvesTo library.sources (normalizeRel rel) = true →
        e.place.target ∈ desired → e ∈ disk'.entries := by
      intro e he hres hmem
      refine happlied.mem.2 (.inl ⟨he, ?_⟩)
      rintro ⟨⟨-, hout⟩ | ⟨-, hout⟩, -⟩
      · exact hout ((mem_wanted hwtd).2 hmem)
      · exact hout (mem_foundAt.2 ⟨e, he, hres, rfl⟩)
    exact honce entry (hkept entry hent hress hin) other
      (hkept other hoth hress' (hplc ▸ hin)) hress hress' hplc
  case free =>
    intro place hplc hnot
    have hout : place ∉ foundAt library order disk (normalizeRel rel) := fun h => hnot (mem_foundAt.1 h)
    refine ⟨fun entry hent hkey => ?_, fun entry hent => hnew place entry hplc hout hent⟩
    have hat : entry.place = place := congrArg Prod.fst hkey
    have hres : ¬entry.resolvesTo library.sources (normalizeRel rel) = true :=
      fun hres => hnot ⟨entry, hent, hres, hat⟩
    have hgone : entry.key ∈ keysAt ((foundAt library order disk (normalizeRel rel)).filter (· ∉ wanted) ++
        wanted.filter (· ∉ foundAt library order disk (normalizeRel rel)))
          (skillNameFromRel (normalizeRel rel)) := by
      rw [mem_keysAt, hkey, mem_append]
      refine ⟨.inr (mem_filter.2 ⟨(mem_wanted hwtd).2 hplc, decide_eq_true hout⟩), rfl⟩
    have hmiss : entry ∉ disk'.entries := by
      intro hmem
      rcases happlied.mem.1 hmem with ⟨-, hkept⟩ | ⟨place', hwant, hout', hent'⟩
      · refine hkept ⟨.inr ⟨?_, ?_⟩, congrArg Prod.snd hkey⟩
        · rw [hat]
          exact (mem_wanted hwtd).2 hplc
        · rwa [hat]
      · exact hres (hnew place' entry ((mem_wanted hwtd).1 hwant) hout' hent')
    by_contra hdir
    have hdir' : entry.isDir = true := Bool.eq_true_of_not_eq_false hdir
    cases hresv : resolveSource library.sources entry with
    | none =>
      -- an orphan would be lost
      have horph : entry.orphaned library.sources = true := by
        unfold Placed.orphaned
        rw [hdir', hresv]
        rfl
      have hlstd := h.orphans order _ ((mem_orphans library.sources order disk hroom _).2
        ⟨entry, hent, horph, rfl⟩)
      obtain ⟨other, hoth, horph', hsame⟩ :=
        (mem_orphans library.sources order disk' hroom' _).1 hlstd
      have hkey' : other.key = entry.key := by
        refine Prod.ext (target_injective ?_) ?_
        · exact congrArg OrphanDeployment.target hsame
        · exact congrArg OrphanDeployment.skillName hsame
      rcases happlied.mem.1 hoth with ⟨hold, -⟩ | ⟨place', hwant, hout', hoth'⟩
      · exact hmiss (eq_of_key hold hent hkey' ▸ hoth)
      · rw [not_orphaned (hnew place' other ((mem_wanted hwtd).1 hwant) hout' hoth')] at horph'
        cases horph'
    | some relPath =>
      -- another skill would lose a deployment
      have hrel : entry.resolvesTo library.sources relPath = true := by
        unfold Placed.resolvesTo
        rw [hdir', hresv, Bool.true_and]
        exact beq_self_eq_true _
      have hne : relPath ≠ normalizeRel rel := by
        rintro rfl
        exact hres hrel
      have hfilt := happlied.filter_other relPath fun place' hwant hout' e he =>
        resolvesTo_unique (hnew place' e ((mem_wanted hwtd).1 hwant) hout' he) hne
      have hlen := ((found_scan library.sources order disk' hroom' relPath).symm.trans
        ((h.others order relPath hne).trans (found_scan library.sources order disk hroom relPath))).length_eq
      rw [length_map, length_map, hfilt] at hlen
      have hall := length_filter_eq_length_iff.1 hlen entry (mem_filter.2 ⟨hent, hrel⟩)
      exact of_decide_eq_true hall hgone
  case room =>
    rw [← happlied.length hwtd]
    exact hroom'

theorem card_sdiff {others : List SkillDeployment} {places : List SkillsDir} (hndp : places.Nodup)
    (hmem : ∀ target, target ∈ places.map SkillsDir.target ↔ target ∈ targets ∧ target ∉ others) :
    (targets.toFinset \ others.toFinset).card = places.length := by
  have heq : targets.toFinset \ others.toFinset = (places.map SkillsDir.target).toFinset := by
    ext target
    rw [Finset.mem_sdiff, mem_toFinset, mem_toFinset, mem_toFinset, hmem]
  have hndp' : (places.map SkillsDir.target).Nodup :=
    hndp.map fun place other h => target_injective h
  rw [heq, toFinset_card_of_nodup hndp', length_map]

theorem foldl_removeStep_same {skillName : String} (targets : List SkillDeployment) (p : Progress)
    (h : ∀ target ∈ targets, target ∈ desired) : targets.foldl (removeStep skillName desired) p = p := by
  induction targets with
  | nil => rfl
  | cons target targets ih =>
    have hstep : removeStep skillName desired p target = p := if_pos (h target (mem_cons_self ..))
    rw [foldl_cons, hstep]
    exact ih fun other hoth => h other (mem_cons_of_mem _ hoth)

theorem foldl_addStep_same {current : List SkillDeployment} (targets : List SkillDeployment) (p : Progress)
    (h : ∀ target ∈ targets, target ∈ current) : targets.foldl (addStep library relNorm current) p = p := by
  induction targets with
  | nil => rfl
  | cons target targets ih =>
    have hstep : addStep library relNorm current p target = p := if_pos (h target (mem_cons_self ..))
    rw [foldl_cons, hstep]
    exact ih fun other hoth => h other (mem_cons_of_mem _ hoth)

theorem Fits.kept (hwtd : firstOccurrences [] desired = wanted.map SkillsDir.target)
    (h : Fits library disk (normalizeRel rel) desired) (hent : entry ∈ disk.entries) (hdir : entry.isDir = true)
    (hress : ¬entry.resolvesTo library.sources (normalizeRel rel) = true) :
    entry.key ∉ keysAt ((foundAt library order disk (normalizeRel rel)).filter (· ∉ wanted) ++
      wanted.filter (· ∉ foundAt library order disk (normalizeRel rel)))
        (skillNameFromRel (normalizeRel rel)) := by
  rw [mem_keysAt, mem_append, mem_filter, mem_filter, decide_eq_true_iff, decide_eq_true_iff]
  rintro ⟨⟨hin, hout⟩ | ⟨hin, hout⟩, hname⟩
  · obtain ⟨other, hoth, hress', hplc⟩ := mem_foundAt.1 hin
    have hname' := h.removable other hoth hress' fun hmem =>
      hout ((mem_wanted hwtd).2 (hplc ▸ hmem))
    have hsame : other = entry := eq_of_key hoth hent (Prod.ext hplc (hname'.trans hname.symm))
    exact hress (hsame ▸ hress')
  · have hfile := (h.free entry.place ((mem_wanted hwtd).1 hin) fun hfnd => hout (mem_foundAt.2 hfnd)).1
      entry hent (Prod.ext rfl hname)
    rw [hfile] at hdir
    cases hdir

section Fitting

variable (hwtd : firstOccurrences [] desired = wanted.map SkillsDir.target)
  (happlied : Applied library (normalizeRel rel) disk disk'
    (foundAt library order disk (normalizeRel rel)) wanted outcome)
  (h : Fits library disk (normalizeRel rel) desired)
include hwtd happlied h

theorem Fits.resolves {entry : Placed} (hent : entry ∈ disk'.entries)
    (hress : entry.resolvesTo library.sources (normalizeRel rel) = true) :
    entry.place.target ∈ desired := by
  rcases happlied.mem.1 hent with ⟨hold, hkept⟩ | ⟨place, hin, -, hnew⟩
  · by_contra hnot
    refine hkept ⟨.inl ⟨mem_foundAt.2 ⟨entry, hold, hress, rfl⟩, ?_⟩, h.removable entry hold hress hnot⟩
    exact fun hin => hnot ((mem_wanted hwtd).1 hin)
  · have hplc : entry.place = place := congrArg Prod.fst (key_newEntry hnew)
    rw [hplc]
    exact (mem_wanted hwtd).1 hin

theorem Fits.once {entry other : Placed} (hent : entry ∈ disk'.entries) (hoth : other ∈ disk'.entries)
    (hress : entry.resolvesTo library.sources (normalizeRel rel) = true)
    (hress' : other.resolvesTo library.sources (normalizeRel rel) = true)
    (hplc : entry.place = other.place) : entry = other := by
  have hin := h.resolves hwtd happlied hent hress
  rcases happlied.mem.1 hent with ⟨hold, -⟩ | ⟨place, -, hout, hnew⟩
  · rcases happlied.mem.1 hoth with ⟨hold', -⟩ | ⟨place, -, hout, hnew⟩
    · exact h.single entry hold other hold' hress hress' hplc hin
    · have hat : other.place = place := congrArg Prod.fst (key_newEntry hnew)
      exact happlied.new_resolves hout hnew hent hress (hplc.trans hat)
  · have hat : entry.place = place := congrArg Prod.fst (key_newEntry hnew)
    exact (happlied.new_resolves hout hnew hoth hress' (hplc.symm.trans hat)).symm

theorem Fits.there {place : SkillsDir} (hplc : place.target ∈ desired) :
    DeployedAt library disk' (normalizeRel rel) place := by
  have hin := (mem_wanted hwtd).2 hplc
  by_cases hfnd : DeployedAt library disk (normalizeRel rel) place
  · obtain ⟨entry, hent, hress, hat⟩ := hfnd
    refine ⟨entry, happlied.mem.2 (.inl ⟨hent, ?_⟩), hress, hat⟩
    rw [hat]
    rintro ⟨⟨-, hout⟩ | ⟨-, hout⟩, -⟩
    · exact hout hin
    · exact hout (mem_foundAt.2 ⟨entry, hent, hress, hat⟩)
  · have hout : place ∉ foundAt library order disk (normalizeRel rel) := fun h => hfnd (mem_foundAt.1 h)
    obtain ⟨entry, hnew⟩ := happlied.new place hin hout
    refine ⟨entry, happlied.mem.2 (.inr ⟨place, hin, hout, hnew⟩), ?_, congrArg Prod.fst (key_newEntry hnew)⟩
    exact (h.free place hplc hfnd).2 entry hnew

theorem reconciles_of_fits (hroom : disk.entries.length ≤ maxLibraryDeployments) :
    Reconciles library order disk rel desired outcome disk' := by
  have hroom' : disk'.entries.length ≤ maxLibraryDeployments := by
    rw [happlied.length hwtd]
    exact h.room
  have hnew : ∀ place ∈ wanted, place ∉ foundAt library order disk (normalizeRel rel) →
      ∀ entry, newEntry library (normalizeRel rel) place = some entry →
        entry.resolvesTo library.sources (normalizeRel rel) = true := by
    intro place hin hout entry hent
    exact (h.free place ((mem_wanted hwtd).1 hin) fun hfnd => hout (mem_foundAt.2 hfnd)).2 entry hent
  have hsame : ∀ (later : ReadOrder) (place : SkillsDir),
      place ∈ foundAt library later disk' (normalizeRel rel) ↔ place ∈ wanted := by
    intro later place
    rw [mem_foundAt, mem_wanted hwtd]
    refine ⟨?_, fun hin => h.there hwtd happlied hin⟩
    rintro ⟨entry, hent, hress, rfl⟩
    exact h.resolves hwtd happlied hent hress
  constructor
  case deployed =>
    intro later
    have hscan := (found_scan library.sources later disk' hroom' (normalizeRel rel)).map (·.target)
    rw [map_map] at hscan
    refine hscan.trans ((perm_ext_iff_of_nodup ?_ (nodup_dedup desired)).2 fun target => ?_)
    · refine Nodup.map_on ?_ ((disk'.nodup.of_map).filter _)
      intro entry hent other hoth heq
      obtain ⟨hent, hress⟩ := mem_filter.1 hent
      obtain ⟨hoth, hress'⟩ := mem_filter.1 hoth
      exact h.once hwtd happlied hent hoth hress hress' (target_injective heq)
    · rw [mem_dedup]
      constructor
      · intro hmem
        obtain ⟨entry, hent, rfl⟩ := mem_map.1 hmem
        obtain ⟨hent, hress⟩ := mem_filter.1 hent
        exact h.resolves hwtd happlied hent hress
      · intro hmem
        have hin : target ∈ wanted.map SkillsDir.target := by
          rw [← hwtd, mem_firstOccurrences]
          exact ⟨hmem, not_mem_nil⟩
        obtain ⟨place, -, rfl⟩ := mem_map.1 hin
        obtain ⟨entry, hent, hress, rfl⟩ := h.there hwtd happlied hmem
        exact mem_map.2 ⟨entry, mem_filter.2 ⟨hent, hress⟩, rfl⟩
  case added =>
    have hndp : wanted.Nodup := by
      have hfst := nodup_firstOccurrences [] desired
      rw [hwtd] at hfst
      exact hfst.of_map
    rw [happlied.added, targets_of_scan hroom]
    refine (card_sdiff (hndp.filter _) fun target => ?_).symm
    constructor
    · intro hmem
      obtain ⟨place, hplc, rfl⟩ := mem_map.1 hmem
      obtain ⟨hin, hout⟩ := mem_filter.1 hplc
      exact ⟨(mem_wanted hwtd).1 hin, fun hfnd => of_decide_eq_true hout (mem_map_target.1 hfnd)⟩
    · rintro ⟨hin, hout⟩
      have hmem : target ∈ wanted.map SkillsDir.target := by
        rw [← hwtd, mem_firstOccurrences]
        exact ⟨hin, not_mem_nil⟩
      obtain ⟨place, hplc, rfl⟩ := mem_map.1 hmem
      refine mem_map_of_mem (mem_filter.2 ⟨hplc, decide_eq_true fun hfnd => hout ?_⟩)
      exact mem_map_of_mem hfnd
  case removed =>
    have hndp : ((foundAt library order disk (normalizeRel rel)).filter (· ∉ wanted)).Nodup := by
      unfold foundAt
      rw [filter_map]
      refine Nodup.map_on ?_ ((((order.perm _).nodup_iff.2 disk.nodup.of_map).filter _).filter _)
      have hname : ∀ entry ∈ ((order.order disk.entries).filter
          (·.resolvesTo library.sources (normalizeRel rel))).filter
            ((fun place => decide (place ∉ wanted)) ∘ fun entry => entry.place),
              entry ∈ disk.entries ∧ entry.name = skillNameFromRel (normalizeRel rel) := by
        intro entry hmem
        obtain ⟨hmem, hout⟩ := mem_filter.1 hmem
        obtain ⟨hmem, hress⟩ := mem_filter.1 hmem
        have hent := (order.perm _).mem_iff.1 hmem
        refine ⟨hent, h.removable entry hent hress fun hin => ?_⟩
        exact of_decide_eq_true hout ((mem_wanted hwtd).2 hin)
      intro entry hent other hoth hplc
      obtain ⟨hent, hone⟩ := hname entry hent
      obtain ⟨hoth, htwo⟩ := hname other hoth
      exact eq_of_key hent hoth (Prod.ext hplc (hone.trans htwo.symm))
    rw [happlied.removed, targets_of_scan hroom]
    refine (card_sdiff hndp fun target => ?_).symm
    constructor
    · intro hmem
      obtain ⟨place, hplc, rfl⟩ := mem_map.1 hmem
      obtain ⟨hfnd, hout⟩ := mem_filter.1 hplc
      exact ⟨mem_map_of_mem hfnd, fun hin => of_decide_eq_true hout ((mem_wanted hwtd).2 hin)⟩
    · rintro ⟨hfnd, hnot⟩
      obtain ⟨place, hplc, rfl⟩ := mem_map.1 hfnd
      refine mem_map_of_mem (mem_filter.2 ⟨hplc, decide_eq_true fun hin => hnot ?_⟩)
      exact (mem_wanted hwtd).1 hin
  case again =>
    intro later
    unfold setSkillDeployments
    dsimp only
    rw [targets_of_scan hroom', hwtd, foldl_removeStep_same, foldl_addStep_same]
    · rfl
    · intro target htgt
      obtain ⟨place, hplc, rfl⟩ := mem_map.1 htgt
      exact mem_map_of_mem ((hsame later place).2 hplc)
    · intro target htgt
      obtain ⟨place, hplc, rfl⟩ := mem_map.1 htgt
      exact mem_map_of_mem ((hsame later place).1 hplc)
  case others =>
    intro later relPath hne
    have hfilt := happlied.filter_other relPath fun place hin hout entry hent =>
      resolvesTo_unique (hnew place hin hout entry hent) hne
    refine (found_scan library.sources later disk' hroom' relPath).trans
      (Perm.trans ?_ (found_scan library.sources order disk hroom relPath).symm)
    refine Perm.map _ (Perm.of_eq (hfilt.trans (filter_eq_self.2 fun entry hmem => ?_)))
    obtain ⟨hent, hress⟩ := mem_filter.1 hmem
    have hdir : entry.isDir = true := by
      unfold Placed.resolvesTo at hress
      exact (Bool.and_eq_true_iff.1 hress).1
    refine decide_eq_true (h.kept hwtd hent hdir ?_)
    rw [resolvesTo_unique hress hne.symm]
    exact Bool.false_ne_true
  case orphans =>
    intro later o ho
    obtain ⟨entry, hent, horph, rfl⟩ := (mem_orphans library.sources order disk hroom o).1 ho
    have hdir : entry.isDir = true := by
      unfold Placed.orphaned at horph
      exact (Bool.and_eq_true_iff.1 horph).1
    refine (mem_orphans library.sources later disk' hroom' _).2 ⟨entry, ?_, horph, rfl⟩
    rw [happlied.entries]
    refine mem_append_left _ (mem_filter.2 ⟨hent, decide_eq_true ?_⟩)
    refine h.kept hwtd hent hdir fun hress => ?_
    rw [not_orphaned hress] at horph
    cases horph

end Fitting

/-- The deployments are right exactly where the names are. -/
theorem set_reconciles_iff (hok : setSkillDeployments library order disk rel desired = (.ok outcome, disk'))
    (hnamed : ∀ target ∈ desired, ∃ place : SkillsDir, place.target = target)
    (hroom : disk.entries.length ≤ maxLibraryDeployments) :
    Reconciles library order disk rel desired outcome disk' ↔
      Fits library disk (normalizeRel rel) desired := by
  have hplcs : ∀ target ∈ firstOccurrences [] desired, ∃ place : SkillsDir, place.target = target :=
    fun target htgt => hnamed target (mem_firstOccurrences.1 htgt).1
  obtain ⟨wanted, hwtd⟩ := exists_places hplcs
  have happlied := set_ok hroom hok hwtd
  exact ⟨fits_of_reconciles hroom hwtd happlied,
    fun h => reconciles_of_fits hwtd happlied h hroom⟩

end Call

/-! ### A copy under an old name -/

/-- A library with one skill, of which copies are made. -/
def plannerLibrary : SkillLibrary where
  sources := [⟨"dev/planner", "planner", "/library/dev/planner"⟩]
  skillDir components := if components = ["dev", "planner"] then some ⟨"/library/dev/planner", none⟩ else none
  linkWorks _ := false
  ownPath _ _ := none

def asListed : ReadOrder := ⟨id, fun entries => Perm.refl entries⟩

def plannerCopy (place : SkillsDir) (name : String) : Placed :=
  { place := place
    name := name
    isDir := true
    linked := false
    marker := some "dev/planner"
    canonical := none }

theorem nodup_planner (place : SkillsDir) (name : String) : ([plannerCopy place name].map Placed.key).Nodup :=
  nodup_singleton _

def plannerDisk (place : SkillsDir) (name : String) : Disk := ⟨[plannerCopy place name], nodup_planner place name⟩

theorem fits_planner : Fits plannerLibrary (plannerDisk (.agents "agent-1") "planner")
    (normalizeRel "dev/planner") [⟨"user", "global"⟩, ⟨"user", "global"⟩] := by
  have honly : ∀ entry ∈ (plannerDisk (.agents "agent-1") "planner").entries,
      entry = plannerCopy (.agents "agent-1") "planner" := fun entry hent => mem_singleton.1 hent
  constructor
  case removable =>
    intro entry hent _ _
    rw [honly entry hent]
    rfl
  case single =>
    intro entry hent other hoth _ _ _ _
    rw [honly entry hent, honly other hoth]
  case free =>
    intro place hplc _
    have hcommon : place = .common := by
      have htgt : place.target = SkillsDir.common.target := by
        rcases mem_cons.1 hplc with h | h
        · exact h
        · exact mem_singleton.1 h
      exact target_injective htgt
    subst hcommon
    constructor
    · intro entry hent hkey
      rw [honly entry hent] at hkey
      cases congrArg Prod.fst hkey
    · intro entry hent
      have hnew : newEntry plannerLibrary (normalizeRel "dev/planner") .common =
          some (plannerCopy .common "planner") := by rfl
      rw [hnew] at hent
      rw [← Option.some.inj hent]
      rfl
  case room => decide

theorem set_reconciles_planner : Reconciles plannerLibrary asListed (plannerDisk (.agents "agent-1") "planner")
    "dev/planner" [⟨"user", "global"⟩, ⟨"user", "global"⟩] ⟨1, 1, 1⟩ (plannerDisk .common "planner") := by
  refine (set_reconciles_iff (by rfl) ?_ (by decide)).2 fits_planner
  intro target htgt
  refine ⟨.common, ?_⟩
  rcases mem_cons.1 htgt with h | h
  · exact h.symm
  · exact (mem_singleton.1 h).symm

theorem old_copy_stays :
    setSkillDeployments plannerLibrary asListed (plannerDisk (.agents "agent-1") "old-planner") "dev/planner" [] =
        (.ok ⟨0, 1, 0⟩, plannerDisk (.agents "agent-1") "old-planner") ∧
      ¬Reconciles plannerLibrary asListed (plannerDisk (.agents "agent-1") "old-planner") "dev/planner" [] ⟨0, 1, 0⟩
        (plannerDisk (.agents "agent-1") "old-planner") := by
  refine ⟨by rfl, fun h => ?_⟩
  have hstl : ((scanDeployments plannerLibrary.sources asListed (plannerDisk (.agents "agent-1") "old-planner")).of
      (normalizeRel "dev/planner")).map (·.target) = [⟨"agent", "agent-1"⟩] := by rfl
  have hperm := h.deployed asListed
  rw [hstl] at hperm
  exact absurd hperm.length_eq (by decide)

end Wardian.Library
