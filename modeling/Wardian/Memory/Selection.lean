/-
What a brief leaves out.

Whatever the budget, a brief lists only what it was to tell.  With room for all headings and all
lines it leaves out nothing.

Main results:

* `briefPage_sublist` — nothing else is told;
* `briefPage_all` — a brief that omits nothing tells all;
* `briefPage_omitted_eq_zero` — a large budget omits nothing.
-/

import Wardian.Memory.Brief

set_option autoImplicit false

namespace Wardian.Memory

open List

/-! ### Room -/

section Room

variable {entries : List BriefEntry} {maxChars : Nat} {sel : Selection} {index : Nat}

namespace Selection

/-- What the headings cost that are not there. -/
def headings (sel : Selection) : Nat := sel.headingCost .stable + sel.headingCost .current

/-- There is room for so many bytes and for all headings. -/
def Room (sel : Selection) (maxChars bytes : Nat) : Prop :=
  sel.used + sel.headings + bytes ≤ maxChars

theorem headingCost_le (sel : Selection) (kind : MemoryKind) : sel.headingCost kind ≤ sel.headings := by
  unfold headings
  cases kind <;> omega

theorem headings_cons (sel : Selection) (kind : MemoryKind) (selected : List Nat) (used : Nat) :
    (⟨selected, kind :: sel.sections, used⟩ : Selection).headings + sel.headingCost kind =
      sel.headings := by
  have hoth : ∀ other, other ≠ kind →
      (⟨selected, kind :: sel.sections, used⟩ : Selection).headingCost other =
        sel.headingCost other := by
    intro other hne
    simp [headingCost, hne]
  have hself : (⟨selected, kind :: sel.sections, used⟩ : Selection).headingCost kind = 0 := by
    simp [headingCost]
  unfold headings
  cases kind with
  | stable => rw [hself, hoth .current (by decide)]; omega
  | current => rw [hself, hoth .stable (by decide)]; omega

theorem Room.mono {bytes bytes' : Nat} (h : sel.Room maxChars bytes) (hle : bytes' ≤ bytes) :
    sel.Room maxChars bytes' := by
  unfold Room at *
  omega

end Selection

variable {entry : BriefEntry} {bytes : Nat}

theorem selectBriefRecord_room (hent : entries[index]? = some entry)
    (hroom : sel.Room maxChars (entry.line.utf8ByteSize + bytes)) :
    (selectBriefRecord entries maxChars sel index).Room maxChars bytes ∧
      (selectBriefRecord entries maxChars sel index).selected = index :: sel.selected := by
  have hcost := sel.headingCost_le entry.record.kind
  have hfits : ¬maxChars < sel.used + (sel.headingCost entry.record.kind + entry.line.utf8ByteSize) := by
    unfold Selection.Room at hroom
    omega
  unfold selectBriefRecord
  simp only [hent, if_neg hfits]
  refine ⟨?_, trivial⟩
  have hhead := sel.headings_cons entry.record.kind (index :: sel.selected)
    (sel.used + (sel.headingCost entry.record.kind + entry.line.utf8ByteSize))
  unfold Selection.Room at hroom ⊢
  simp only
  omega

/-- The bytes of some entries. -/
def bytesOf (entries : List BriefEntry) (order : List Nat) : Nat :=
  (order.map (lineLength entries)).sum

theorem bytesOf_cons (order : List Nat) :
    bytesOf entries (index :: order) = lineLength entries index + bytesOf entries order := by
  simp [bytesOf]

variable {order : List Nat}

theorem bytesOf_perm {order' : List Nat} (h : order.Perm order') :
    bytesOf entries order = bytesOf entries order' := (h.map _).sum_nat

theorem lineLength_eq (h : entries[index]? = some entry) :
    lineLength entries index = entry.line.utf8ByteSize := by
  simp [lineLength, h]

theorem bytesOf_range :
    bytesOf entries (range entries.length) = (entries.map (·.line.utf8ByteSize)).sum := by
  unfold bytesOf
  congr 1
  refine ext_getElem (by simp) fun i h h' => ?_
  have hi : i < entries.length := by simpa using h
  simp [lineLength, getElem?_eq_getElem hi]

/-! ### Telling all -/

/-- The places of what has not been told. -/
def Selection.left (sel : Selection) (entries : List BriefEntry) : List Nat :=
  sel.remaining (range entries.length)

variable {i : Nat}

theorem mem_left : i ∈ sel.left entries ↔ i < entries.length ∧ i ∉ sel.selected := by
  simp [Selection.left, Selection.remaining]

theorem nodup_left : (sel.left entries).Nodup := nodup_range.filter _

/-- There is room for all that has not been told, and for some more bytes. -/
def Ready (entries : List BriefEntry) (maxChars bytes : Nat) (sel : Selection) : Prop :=
  sel.Room maxChars (bytesOf entries (sel.left entries) + bytes)

theorem Ready.select (h : Ready entries maxChars bytes sel)
    (hlt : index < entries.length) (hnew : index ∉ sel.selected) :
    Ready entries maxChars bytes (selectBriefRecord entries maxChars sel index) ∧
      (selectBriefRecord entries maxChars sel index).selected = index :: sel.selected := by
  have hent := getElem?_eq_getElem hlt
  obtain ⟨after, haft⟩ : ∃ after, after = selectBriefRecord entries maxChars sel index := ⟨_, rfl⟩
  unfold Ready at h ⊢
  have hperm : after.selected = index :: sel.selected →
      (sel.left entries).Perm (index :: after.left entries) := by
    intro hseld
    refine (perm_ext_iff_of_nodup nodup_left ?_).2 fun i => ?_
    · refine nodup_cons.2 ⟨?_, nodup_left⟩
      rw [mem_left, hseld]
      simp
    · rw [mem_cons, mem_left, mem_left, hseld, mem_cons]
      constructor
      · rintro ⟨hi, hout⟩
        by_cases heq : i = index
        · exact .inl heq
        · exact .inr ⟨hi, by simp [heq, hout]⟩
      · rintro (rfl | ⟨hi, hout⟩)
        · exact ⟨hlt, hnew⟩
        · exact ⟨hi, fun hin => hout (.inr hin)⟩
  -- what is left is the same whatever the room, so the room can be found first
  have hseld : after.selected = index :: sel.selected := by
    have hsome : lineLength entries index ≤ bytesOf entries (sel.left entries) := by
      have hmem : index ∈ sel.left entries := mem_left.2 ⟨hlt, hnew⟩
      rw [bytesOf_perm (perm_cons_erase hmem), bytesOf_cons]
      exact Nat.le_add_right _ _
    rw [lineLength_eq hent] at hsome
    rw [haft]
    have hroom : sel.Room maxChars (entries[index].line.utf8ByteSize + 0) := h.mono (by omega)
    exact (selectBriefRecord_room hent hroom).2
  rw [bytesOf_perm (hperm hseld), bytesOf_cons, lineLength_eq hent, Nat.add_assoc] at h
  rw [haft] at hseld h
  exact ⟨(selectBriefRecord_room hent h).1, hseld⟩

/-- Entries that have not been told are told one after the other. -/
theorem Ready.foldl (h : Ready entries maxChars bytes sel) (hndp : order.Nodup)
    (hlt : ∀ i ∈ order, i < entries.length) (hnew : ∀ i ∈ order, i ∉ sel.selected) :
    Ready entries maxChars bytes (order.foldl (selectBriefRecord entries maxChars) sel) ∧
      ∀ i, i ∈ (order.foldl (selectBriefRecord entries maxChars) sel).selected ↔
        i ∈ order ∨ i ∈ sel.selected := by
  induction order generalizing sel with
  | nil => exact ⟨h, by simp⟩
  | cons index order ih =>
    obtain ⟨hnot, hndp⟩ := nodup_cons.1 hndp
    obtain ⟨hrdy, hseld⟩ := h.select (hlt index mem_cons_self)
      (hnew index mem_cons_self)
    have hnew' : ∀ i ∈ order, i ∉ (selectBriefRecord entries maxChars sel index).selected := by
      intro i hi
      rw [hseld, mem_cons]
      rintro (rfl | hin)
      · exact hnot hi
      · exact hnew i (mem_cons_of_mem _ hi) hin
    obtain ⟨hlast, hmem⟩ := ih hrdy hndp (fun i hi => hlt i (mem_cons_of_mem _ hi)) hnew'
    refine ⟨hlast, fun i => ?_⟩
    rw [foldl_cons, hmem, hseld, mem_cons, mem_cons]
    tauto

/-! ### Places -/

variable {p : BriefEntry → Bool}

theorem mem_indices : i ∈ indices entries p ↔ ∃ entry, entries[i]? = some entry ∧ p entry = true := by
  unfold indices
  simp only [mem_map, mem_filter, mem_zipIdx_iff_getElem?, Prod.exists]
  constructor
  · rintro ⟨entry, j, ⟨hent, hp⟩, rfl⟩
    exact ⟨entry, hent, hp⟩
  · rintro ⟨entry, hent, hp⟩
    exact ⟨entry, i, ⟨hent, hp⟩, rfl⟩

theorem nodup_indices (entries : List BriefEntry) (p : BriefEntry → Bool) : (indices entries p).Nodup := by
  unfold indices
  have hndp : (entries.zipIdx.map (·.2)).Nodup := by
    rw [zipIdx_map_snd]
    exact nodup_range'
  exact hndp.sublist (filter_sublist.map _)

theorem lt_of_mem_indices (h : i ∈ indices entries p) : i < entries.length := by
  obtain ⟨entry, hent, -⟩ := mem_indices.1 h
  exact (List.getElem?_eq_some_iff.1 hent).1

theorem alternate_perm (stables currents : List Nat) :
    (alternate stables currents).Perm (stables ++ currents) := by
  induction stables generalizing currents with
  | nil => simp [alternate]
  | cons stable stables ih =>
    cases currents with
    | nil => simp [alternate]
    | cons current currents =>
      refine Perm.cons stable ?_
      exact ((ih currents).cons current).trans perm_middle.symm

theorem selectAnchors_ready {title : Nat} {stable current : List Nat} (h : Ready entries maxChars bytes sel)
    (hemp : sel.selected = []) (hstbl : ∀ i ∈ stable, i < entries.length)
    (hcur : ∀ i ∈ current, i < entries.length) (hdisj : ∀ i ∈ stable, i ∉ current) :
    Ready entries maxChars bytes (selectAnchors entries maxChars title stable current sel) := by
  have hnone : ∀ i, i ∉ sel.selected := by simp [hemp]
  unfold selectAnchors
  simp only
  split
  · rename_i stableIndex currentIndex hfnd
    unfold findBriefAnchor at hfnd
    simp only [Option.bind_eq_bind, Option.bind_eq_some_iff, Option.pure_def, Option.some.injEq,
      Prod.mk.injEq] at hfnd
    obtain ⟨minimum, -, c, hc, s, hs, rfl, rfl⟩ := hfnd
    have hs := mem_of_find?_eq_some hs
    have hc := mem_of_find?_eq_some hc
    obtain ⟨hrdy, hseld⟩ := h.select (hstbl s hs) (hnone s)
    refine (hrdy.select (hcur c hc) ?_).1
    rw [hseld, hemp, mem_singleton]
    rintro rfl
    exact hdisj c hs hc
  · split
    · rename_i index hidx
      have hlt : index < entries.length := by
        rcases Option.or_eq_some_iff.1 hidx with hfnd | ⟨-, hfnd⟩
        · exact hcur index (mem_of_find?_eq_some hfnd)
        · exact hstbl index (mem_of_find?_eq_some hfnd)
      exact (h.select hlt (hnone index)).1
    · exact h

theorem selectRemoved_all {lines : List String} {used : Nat} {hasSection : Bool}
    (hroom : used + (if hasSection then 0 else removedHeading.utf8ByteSize) +
      (lines.map (·.utf8ByteSize)).sum ≤ maxChars) :
    (selectRemoved maxChars lines used hasSection).1 = lines.map (fun _ => true) ∧
      (selectRemoved maxChars lines used hasSection).2 ≤ used +
        (if hasSection then 0 else removedHeading.utf8ByteSize) + (lines.map (·.utf8ByteSize)).sum := by
  induction lines generalizing used hasSection with
  | nil => exact ⟨rfl, by simp [selectRemoved]⟩
  | cons line lines ih =>
    simp only [map_cons, sum_cons] at hroom
    have hfits : used + ((if hasSection then 0 else removedHeading.utf8ByteSize) +
        line.utf8ByteSize) ≤ maxChars := by omega
    unfold selectRemoved
    simp only [if_pos hfits]
    obtain ⟨cost, hcost⟩ : ∃ cost, cost = (if hasSection then 0 else removedHeading.utf8ByteSize) +
      line.utf8ByteSize := ⟨_, rfl⟩
    rw [← hcost] at hfits ⊢
    have hrest : used + cost + (if true then 0 else removedHeading.utf8ByteSize) +
        (lines.map (·.utf8ByteSize)).sum ≤ maxChars := by
      rw [if_pos rfl]
      omega
    obtain ⟨hall, hle⟩ := ih hrest
    refine ⟨by simp [hall], ?_⟩
    simp only [if_true, map_cons, sum_cons] at hle ⊢
    omega

theorem mem_remaining : i ∈ sel.remaining order ↔ i ∈ order ∧ i ∉ sel.selected := by
  simp [Selection.remaining]

/-- **With room for all headings and all lines everything is told.** -/
theorem selectBrief_all {title : Nat} {removedLines : List String}
    (hroom : title + ((briefSectionHeading .stable).utf8ByteSize +
      (briefSectionHeading .current).utf8ByteSize) + ((entries.map (·.line.utf8ByteSize)).sum +
        (removedHeading.utf8ByteSize + (removedLines.map (·.utf8ByteSize)).sum)) ≤ maxChars) :
    (∀ i < entries.length, i ∈ (selectBrief entries maxChars title removedLines).selected) ∧
      (selectBrief entries maxChars title removedLines).removed = removedLines.map fun _ => true := by
  obtain ⟨stable, hstbl⟩ : ∃ stable, stable = indices entries (·.record.kind = .stable) := ⟨_, rfl⟩
  obtain ⟨freshCurrent, hfrs⟩ : ∃ freshCurrent, freshCurrent = indices entries
    fun entry => entry.record.kind = .current && !entry.stale := ⟨_, rfl⟩
  obtain ⟨staleCurrent, hstale⟩ : ∃ staleCurrent, staleCurrent = indices entries
    fun entry => entry.record.kind = .current && entry.stale := ⟨_, rfl⟩
  have hcover : ∀ i < entries.length, i ∈ stable ∨ i ∈ freshCurrent ∨ i ∈ staleCurrent := by
    intro i hi
    have hent := getElem?_eq_getElem hi
    rw [hstbl, hfrs, hstale, mem_indices, mem_indices, mem_indices]
    cases hkind : entries[i].record.kind with
    | stable => exact .inl ⟨_, hent, by simp [hkind]⟩
    | current =>
      cases hage : entries[i].stale with
      | false => exact .inr (.inl ⟨_, hent, by simp [hkind, hage]⟩)
      | true => exact .inr (.inr ⟨_, hent, by simp [hkind, hage]⟩)
  have hdisj : ∀ i ∈ stable, i ∉ freshCurrent := by
    intro i hi hi'
    rw [hstbl, mem_indices] at hi
    rw [hfrs, mem_indices] at hi'
    obtain ⟨entry, hent, hkind⟩ := hi
    obtain ⟨entry', hent', hkind'⟩ := hi'
    rw [hent] at hent'
    rw [← Option.some.inj hent'] at hkind'
    simp only [decide_eq_true_eq, Bool.and_eq_true] at hkind hkind'
    rw [hkind] at hkind'
    cases hkind'.1
  have hltStable : ∀ i ∈ stable, i < entries.length := fun i hi => lt_of_mem_indices (hstbl ▸ hi)
  have hltFresh : ∀ i ∈ freshCurrent, i < entries.length :=
    fun i hi => lt_of_mem_indices (hfrs ▸ hi)
  have hltStale : ∀ i ∈ staleCurrent, i < entries.length :=
    fun i hi => lt_of_mem_indices (hstale ▸ hi)
  -- before anything is told
  have hstart : Ready entries maxChars (removedHeading.utf8ByteSize +
      (removedLines.map (·.utf8ByteSize)).sum) ⟨[], [], title⟩ := by
    have hleft : (⟨[], [], title⟩ : Selection).left entries = range entries.length := by
      simp [Selection.left, Selection.remaining]
    unfold Ready Selection.Room
    rw [hleft, bytesOf_range]
    simpa [Selection.headings, Selection.headingCost] using hroom
  have hanch : Ready entries maxChars _
      (selectAnchors entries maxChars title stable freshCurrent ⟨[], [], title⟩) :=
    selectAnchors_ready hstart rfl hltStable hltFresh hdisj
  obtain ⟨anchored, hancho⟩ : ∃ anchored, anchored =
    selectAnchors entries maxChars title stable freshCurrent ⟨[], [], title⟩ := ⟨_, rfl⟩
  rw [← hancho] at hanch
  -- the rest of the stable memories and the fresh states
  have hord := alternate_perm (anchored.remaining stable) (anchored.remaining freshCurrent)
  have hmemOrder : ∀ i, i ∈ alternate (anchored.remaining stable) (anchored.remaining freshCurrent) ↔
      (i ∈ stable ∨ i ∈ freshCurrent) ∧ i ∉ anchored.selected := by
    intro i
    rw [hord.mem_iff, mem_append, mem_remaining, mem_remaining]
    tauto
  have hnodupOrder : (alternate (anchored.remaining stable)
      (anchored.remaining freshCurrent)).Nodup := by
    refine hord.nodup_iff.2 (nodup_append.2 ⟨?_, ?_, ?_⟩)
    · exact (hstbl ▸ nodup_indices _ _ : stable.Nodup).filter _
    · exact (hfrs ▸ nodup_indices _ _ : freshCurrent.Nodup).filter _
    · rintro i hi j hj rfl
      exact hdisj i (mem_remaining.1 hi).1 (mem_remaining.1 hj).1
  obtain ⟨hrdy, hmem⟩ := hanch.foldl hnodupOrder
    (fun i hi => ((hmemOrder i).1 hi).1.elim (hltStable i) (hltFresh i))
    (fun i hi => ((hmemOrder i).1 hi).2)
  obtain ⟨told, htold⟩ : ∃ told, told = (alternate (anchored.remaining stable)
    (anchored.remaining freshCurrent)).foldl (selectBriefRecord entries maxChars) anchored := ⟨_, rfl⟩
  rw [← htold] at hrdy hmem
  -- the notices
  have hnoticeRoom : told.used + (if false then 0 else removedHeading.utf8ByteSize) +
      (removedLines.map (·.utf8ByteSize)).sum ≤ maxChars := by
    unfold Ready Selection.Room at hrdy
    simp only [Bool.false_eq_true, if_false]
    omega
  have hnotic := selectRemoved_all hnoticeRoom
  simp only [Bool.false_eq_true, if_false] at hnotic
  -- the stale states
  obtain ⟨noticed, hnoti⟩ : ∃ noticed : Selection, noticed =
    { told with used := (selectRemoved maxChars removedLines told.used false).2 } := ⟨_, rfl⟩
  have hseld : noticed.selected = told.selected := by rw [hnoti]
  have hrdy' : Ready entries maxChars 0 noticed := by
    have hleft : noticed.left entries = told.left entries := by
      rw [Selection.left, Selection.left, Selection.remaining, Selection.remaining, hseld]
    have hhead : noticed.headings = told.headings := by rw [hnoti]; rfl
    have hused : noticed.used = (selectRemoved maxChars removedLines told.used false).2 := by
      rw [hnoti]
    unfold Ready Selection.Room at hrdy ⊢
    rw [hleft, hhead, hused]
    omega
  have hnodupStale : (noticed.remaining staleCurrent).Nodup :=
    (hstale ▸ nodup_indices _ _ : staleCurrent.Nodup).filter _
  obtain ⟨-, hlast⟩ := hrdy'.foldl hnodupStale (fun i hi => hltStale i (mem_remaining.1 hi).1) (fun i hi => (mem_remaining.1 hi).2)
  have hres : selectBrief entries maxChars title removedLines =
      ⟨((noticed.remaining staleCurrent).foldl (selectBriefRecord entries maxChars) noticed).selected,
        ((noticed.remaining staleCurrent).foldl (selectBriefRecord entries maxChars) noticed).sections,
        (selectRemoved maxChars removedLines told.used false).1⟩ := by
    rw [hnoti, htold, hancho, hstbl, hfrs, hstale]
    rfl
  rw [hres]
  refine ⟨fun i hi => (hlast i).2 ?_, hnotic.1⟩
  by_cases hin : i ∈ noticed.selected
  · exact .inr hin
  · refine .inl (mem_remaining.2 ⟨?_, hin⟩)
    have hnot : ¬(i ∈ stable ∨ i ∈ freshCurrent) := by
      intro hkind
      refine hin (hseld ▸ (hmem i).2 ?_)
      by_cases hanc : i ∈ anchored.selected
      · exact .inr hanc
      · exact .inl ((hmemOrder i).2 ⟨hkind, hanc⟩)
    have hcovd := hcover i hi
    tauto

end Room

/-! ### The page -/

section Page

variable (env : BriefEnv) (kind : MemoryBriefKind) (records : List MemoryRecord)
  (removed : List String) (maxChars : Nat) (now : String)

theorem BriefSelection.entries_sublist (b : BriefSelection) (entries : List BriefEntry) :
    (b.entries entries).Sublist entries := by
  have hsub : (b.entries entries).Sublist (entries.zipIdx.map (·.1)) :=
    Sublist.map _ filter_sublist
  rwa [zipIdx_map_fst] at hsub

theorem map_fst_zip_sublist {α β : Type} (xs : List α) (ys : List β) :
    ((xs.zip ys).map (·.1)).Sublist xs := by
  induction xs generalizing ys with
  | nil => simp
  | cons x xs ih =>
    cases ys with
    | nil => simp
    | cons y ys => exact (ih ys).cons_cons x

theorem BriefSelection.notices_sublist (b : BriefSelection) (removed : List String) :
    (b.notices removed).Sublist removed :=
  (Sublist.map _ filter_sublist).trans (map_fst_zip_sublist removed b.removed)

theorem map_record_briefEntry : (records.map (briefEntry env now)).map (·.record) = records := by
  rw [map_map]
  exact map_id _

/-- A brief lists what it was to tell, in the same order, and nothing else. -/
theorem briefPage_sublist :
    (briefPage env kind records removed maxChars now).listed.Sublist records ∧
      (briefPage env kind records removed maxChars now).gone.Sublist removed := by
  unfold briefPage
  split
  · exact ⟨nil_sublist _, nil_sublist _⟩
  · split
    · exact ⟨nil_sublist _, nil_sublist _⟩
    · have hlstd := (BriefSelection.entries_sublist (selectBrief (records.map (briefEntry env now))
        maxChars kind.title.utf8ByteSize (removed.map removedLine))
        (records.map (briefEntry env now))).map (·.record)
      rw [map_record_briefEntry] at hlstd
      exact ⟨hlstd, BriefSelection.notices_sublist _ _⟩

theorem briefPage_omitted : (briefPage env kind records removed maxChars now).omitted =
    (records.length - (briefPage env kind records removed maxChars now).listed.length) +
      (removed.length - (briefPage env kind records removed maxChars now).gone.length) := by
  unfold briefPage
  split
  · rename_i hemp
    simp only [Bool.and_eq_true, List.isEmpty_iff] at hemp
    simp [hemp.1, hemp.2]
  · split
    · simp
    · simp

theorem briefPage_all {env : BriefEnv} {kind : MemoryBriefKind} {records : List MemoryRecord}
    {removed : List String} {maxChars : Nat} {now : String} (h : (briefPage env kind records removed maxChars now).omitted = 0) :
    (briefPage env kind records removed maxChars now).listed = records ∧
      (briefPage env kind records removed maxChars now).gone = removed := by
  obtain ⟨hlstd, hgone⟩ := briefPage_sublist env kind records removed maxChars now
  rw [briefPage_omitted] at h
  exact ⟨hlstd.eq_of_length_le (by omega), hgone.eq_of_length_le (by omega)⟩

/-- The bytes of the title, of all headings and of all lines. -/
def fullLength (env : BriefEnv) (kind : MemoryBriefKind) (records : List MemoryRecord)
    (removed : List String) (now : String) : Nat :=
  kind.title.utf8ByteSize + ((briefSectionHeading .stable).utf8ByteSize +
    (briefSectionHeading .current).utf8ByteSize) +
      (((records.map (briefEntry env now)).map (·.line.utf8ByteSize)).sum +
        (removedHeading.utf8ByteSize + ((removed.map removedLine).map (·.utf8ByteSize)).sum))

theorem briefPage_omitted_eq_zero {env : BriefEnv} {kind : MemoryBriefKind}
    {records : List MemoryRecord} {removed : List String} {maxChars : Nat} {now : String} (h : fullLength env kind records removed now ≤ maxChars) :
    (briefPage env kind records removed maxChars now).omitted = 0 := by
  obtain ⟨hseld, hrem⟩ := selectBrief_all h
  obtain ⟨b, hb⟩ : ∃ b, b = selectBrief (records.map (briefEntry env now)) maxChars
    kind.title.utf8ByteSize (removed.map removedLine) := ⟨_, rfl⟩
  rw [← hb] at hseld hrem
  have hents : b.entries (records.map (briefEntry env now)) = records.map (briefEntry env now) := by
    unfold BriefSelection.entries
    rw [filter_eq_self.2, zipIdx_map_fst]
    intro entry hent
    have hlt := (List.getElem?_eq_some_iff.1 (mem_zipIdx_iff_getElem?.1 hent)).1
    exact decide_eq_true (hseld _ hlt)
  have hnoti : b.notices removed = removed := by
    unfold BriefSelection.notices
    rw [hrem, filter_eq_self.2, map_fst_zip]
    · simp
    · rintro ⟨id, flag⟩ hmem
      have hflag := (of_mem_zip hmem).2
      simp only [map_map, mem_map] at hflag
      obtain ⟨_, -, rfl⟩ := hflag
      rfl
  unfold briefPage
  split
  · rfl
  · split
    · rename_i htitle
      unfold fullLength at h
      omega
    · simp only [← hb, hents, hnoti]
      simp

end Page

end Wardian.Memory
