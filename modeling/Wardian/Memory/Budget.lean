/-
What fits in a brief.

Entries are told one after the other as far as they fit, each with the heading of its kind where that is
not there yet.  The bytes are counted as they will be written, so that the text is never longer than it may
be; a stable memory and a fresh state come first, and both are told where any two of them fit.

Main results:

* `Accounts.select`, `Accounts.foldl` — the bytes are counted right;
* `findBriefAnchor_eq` — the search that goes through each list once finds the first pair;
* `renderBrief_tells` — what a brief tells.
-/

import Wardian.Memory.Selection

set_option autoImplicit false

namespace Wardian.Memory

open Text
open List

/-! ### The bytes of the entries -/

section Bytes

variable {entries : List BriefEntry} {maxChars base index : Nat} {sel : Selection}

/-- What the headings cost that are there. -/
def sectionsCost (sections : List MemoryKind) : Nat :=
  (if .stable ∈ sections then (briefSectionHeading .stable).utf8ByteSize else 0) +
    (if .current ∈ sections then (briefSectionHeading .current).utf8ByteSize else 0)

theorem sectionsCost_cons (sel : Selection) (kind : MemoryKind) :
    sectionsCost (kind :: sel.sections) = sectionsCost sel.sections + sel.headingCost kind := by
  have hpaid : ∀ kind : MemoryKind, (if kind ∈ sel.sections then (briefSectionHeading kind).utf8ByteSize else 0) +
      (if kind ∈ sel.sections then 0 else (briefSectionHeading kind).utf8ByteSize) =
        (briefSectionHeading kind).utf8ByteSize := by
    intro kind
    by_cases hin : kind ∈ sel.sections
    · rw [if_pos hin, if_pos hin, Nat.add_zero]
    · rw [if_neg hin, if_neg hin, Nat.zero_add]
  unfold sectionsCost Selection.headingCost
  cases kind with
  | stable =>
    have hoth : MemoryKind.current ∈ MemoryKind.stable :: sel.sections ↔ .current ∈ sel.sections :=
      mem_cons.trans (or_iff_right (by decide))
    have hself := hpaid .stable
    rw [if_pos (mem_cons_self ..), if_congr hoth rfl rfl]
    omega
  | current =>
    have hoth : MemoryKind.stable ∈ MemoryKind.current :: sel.sections ↔ .stable ∈ sel.sections :=
      mem_cons.trans (or_iff_right (by decide))
    have hself := hpaid .current
    rw [if_pos (mem_cons_self ..), if_congr hoth rfl rfl]
    omega

/-- The bytes used are those of the headings and lines that are told. -/
structure Accounts (entries : List BriefEntry) (maxChars base : Nat) (sel : Selection) : Prop where
  nodup : sel.selected.Nodup
  bound : ∀ i ∈ sel.selected, i < entries.length
  sections : ∀ kind, kind ∈ sel.sections ↔
    ∃ i ∈ sel.selected, ∃ entry, entries[i]? = some entry ∧ entry.record.kind = kind
  used : sel.used = base + sectionsCost sel.sections + bytesOf entries sel.selected
  fits : sel.used ≤ maxChars

theorem selectBriefRecord_cases (entries : List BriefEntry) (maxChars : Nat) (sel : Selection) (index : Nat) :
    selectBriefRecord entries maxChars sel index = sel ∨
      ∃ entry, entries[index]? = some entry ∧
        sel.used + (sel.headingCost entry.record.kind + entry.line.utf8ByteSize) ≤ maxChars ∧
        selectBriefRecord entries maxChars sel index = ⟨index :: sel.selected,
          entry.record.kind :: sel.sections,
          sel.used + (sel.headingCost entry.record.kind + entry.line.utf8ByteSize)⟩ := by
  unfold selectBriefRecord
  cases hent : entries[index]? with
  | none => exact .inl rfl
  | some entry =>
    dsimp only
    split
    next => exact .inl rfl
    next hfits => exact .inr ⟨entry, rfl, Nat.not_lt.1 hfits, rfl⟩

theorem selectBriefRecord_fits {entry : BriefEntry} (hent : entries[index]? = some entry)
    (hfits : sel.used + (sel.headingCost entry.record.kind + entry.line.utf8ByteSize) ≤ maxChars) :
    selectBriefRecord entries maxChars sel index = ⟨index :: sel.selected,
      entry.record.kind :: sel.sections,
      sel.used + (sel.headingCost entry.record.kind + entry.line.utf8ByteSize)⟩ := by
  unfold selectBriefRecord
  rw [hent]
  exact if_neg (Nat.not_lt.2 hfits)

theorem subset_selectBriefRecord {i : Nat} (h : i ∈ sel.selected) :
    i ∈ (selectBriefRecord entries maxChars sel index).selected := by
  rcases selectBriefRecord_cases entries maxChars sel index with heq | ⟨entry, -, -, heq⟩
  · rwa [heq]
  · rw [heq]
    exact mem_cons_of_mem _ h

theorem subset_foldl {order : List Nat} {i : Nat} (h : i ∈ sel.selected) :
    i ∈ (order.foldl (selectBriefRecord entries maxChars) sel).selected := by
  induction order generalizing sel with
  | nil => exact h
  | cons index order ih => exact ih (subset_selectBriefRecord h)

theorem Accounts.select (h : Accounts entries maxChars base sel) (hnew : index ∉ sel.selected) :
    Accounts entries maxChars base (selectBriefRecord entries maxChars sel index) := by
  rcases selectBriefRecord_cases entries maxChars sel index with heq | ⟨entry, hent, hfits, heq⟩
  · rwa [heq]
  · rw [heq]
    refine ⟨nodup_cons.2 ⟨hnew, h.nodup⟩, ?_, fun kind => ?_, ?_, hfits⟩
    · intro i hi
      rcases mem_cons.1 hi with rfl | hi
      · exact (List.getElem?_eq_some_iff.1 hent).1
      · exact h.bound i hi
    · change kind ∈ entry.record.kind :: sel.sections ↔ _
      rw [mem_cons, h.sections kind]
      constructor
      · rintro (rfl | ⟨i, hi, other, hoth, hkind⟩)
        · exact ⟨index, mem_cons_self .., entry, hent, rfl⟩
        · exact ⟨i, mem_cons_of_mem _ hi, other, hoth, hkind⟩
      · rintro ⟨i, hi, other, hoth, rfl⟩
        rcases mem_cons.1 hi with rfl | hi
        · rw [← Option.some.inj (hent.symm.trans hoth)]
          exact .inl rfl
        · exact .inr ⟨i, hi, other, hoth, rfl⟩
    · change sel.used + (sel.headingCost entry.record.kind + entry.line.utf8ByteSize) =
        base + sectionsCost (entry.record.kind :: sel.sections) + bytesOf entries (index :: sel.selected)
      rw [sectionsCost_cons, bytesOf_cons, lineLength_eq hent, h.used]
      omega

theorem Accounts.foldl {order : List Nat} (h : Accounts entries maxChars base sel) (hndp : order.Nodup)
    (hnew : ∀ i ∈ order, i ∉ sel.selected) :
    Accounts entries maxChars base (order.foldl (selectBriefRecord entries maxChars) sel) := by
  induction order generalizing sel with
  | nil => exact h
  | cons index order ih =>
    obtain ⟨hnot, hndp⟩ := nodup_cons.1 hndp
    refine ih (h.select (hnew index (mem_cons_self ..))) hndp fun i hi => ?_
    rcases selectBriefRecord_cases entries maxChars sel index with heq | ⟨entry, -, -, heq⟩
    · rw [heq]
      exact hnew i (mem_cons_of_mem _ hi)
    · rw [heq, mem_cons, not_or]
      refine ⟨?_, hnew i (mem_cons_of_mem _ hi)⟩
      rintro rfl
      exact hnot hi

end Bytes

/-! ### The notices -/

/-- The lines that are kept. -/
def keptLines {α : Type} (lines : List α) (kept : List Bool) : List α :=
  ((lines.zip kept).filter (·.2)).map (·.1)

theorem keptLines_map {α β : Type} (f : α → β) (lines : List α) (kept : List Bool) :
    keptLines (lines.map f) kept = (keptLines lines kept).map f := by
  unfold keptLines
  rw [zip_map_left, filter_map, map_map, map_map]
  rfl

def bytes (lines : List String) : Nat := (lines.map (·.utf8ByteSize)).sum

/-- The notices that are given are counted, with their heading. -/
theorem selectRemoved_used {maxChars : Nat} (lines : List String) (used : Nat) (hasSection : Bool)
    (hused : used ≤ maxChars) :
    (selectRemoved maxChars lines used hasSection).2 = used +
        (if hasSection || (keptLines lines (selectRemoved maxChars lines used hasSection).1).isEmpty then 0
          else removedHeading.utf8ByteSize) +
          bytes (keptLines lines (selectRemoved maxChars lines used hasSection).1) ∧
      (selectRemoved maxChars lines used hasSection).2 ≤ maxChars := by
  induction lines generalizing used hasSection with
  | nil =>
    refine ⟨?_, hused⟩
    change used = used + (if hasSection || true then 0 else _) + 0
    rw [Bool.or_true, if_pos rfl]
    rfl
  | cons line lines ih =>
    obtain ⟨cost, hcost⟩ : ∃ cost, cost = (if hasSection then 0 else removedHeading.utf8ByteSize) +
      line.utf8ByteSize := ⟨_, rfl⟩
    unfold selectRemoved
    dsimp only
    rw [← hcost]
    by_cases hfits : used + cost ≤ maxChars
    · rw [if_pos hfits]
      obtain ⟨heq, hle⟩ := ih (used + cost) true hfits
      refine ⟨?_, hle⟩
      have hkept : ∀ flags, keptLines (line :: lines) (true :: flags) = line :: keptLines lines flags :=
        fun flags => rfl
      have hbts : ∀ rest, bytes (line :: rest) = line.utf8ByteSize + bytes rest := fun rest =>
        sum_cons
      dsimp only
      rw [hkept, heq, hbts, Bool.true_or, if_pos rfl, isEmpty_cons, Bool.or_false, hcost]
      omega
    · rw [if_neg hfits]
      exact ih used hasSection hused

/-! ### The search for a pair -/

section Anchor

variable (entries : List BriefEntry) (stable current : List Nat) (maxChars cost : Nat)

/-- The first state with a stable memory beside which it fits, and the first of these. -/
def exhaustiveAnchor : Option (Nat × Nat) :=
  (current.flatMap fun c => stable.map fun s => (s, c)).find? fun pair =>
    cost + lineLength entries pair.2 + lineLength entries pair.1 ≤ maxChars

theorem findSome?_of_isSome {α β : Type} {p : α → Bool} {f : α → Option β}
    (h : ∀ x, p x = (f x).isSome) (xs : List α) : xs.findSome? f = (xs.find? p).bind f := by
  induction xs with
  | nil => rfl
  | cons x xs ih =>
    rw [findSome?_cons, find?_cons, h x]
    cases hx : f x with
    | none => exact ih
    | some y => exact hx.symm

/-- The search that goes through each list once finds the same pair. -/
theorem findBriefAnchor_eq : findBriefAnchor entries stable current maxChars cost =
    exhaustiveAnchor entries stable current maxChars cost := by
  have hexha : exhaustiveAnchor entries stable current maxChars cost =
      current.findSome? fun c => (stable.find? fun s =>
        decide (cost + lineLength entries c + lineLength entries s ≤ maxChars)).map fun s => (s, c) := by
    unfold exhaustiveAnchor
    rw [find?_flatMap]
    refine congrArg (fun f => current.findSome? f) (funext fun c => ?_)
    rw [find?_map]
    rfl
  rw [hexha]
  unfold findBriefAnchor
  cases hmin : (stable.map (lineLength entries)).min? with
  | none =>
    have hnil : stable = [] := map_eq_nil_iff.1 (min?_eq_none_iff.1 hmin)
    rw [hnil]
    exact (findSome?_eq_none_iff.2 fun c _ => rfl).symm
  | some minimum =>
    obtain ⟨hmem, hleast⟩ := min?_eq_some_iff.1 hmin
    have hfits : ∀ c, decide (cost + lineLength entries c + minimum ≤ maxChars) =
        ((stable.find? fun s =>
          decide (cost + lineLength entries c + lineLength entries s ≤ maxChars)).map fun s =>
            (s, c)).isSome := by
      intro c
      rw [Option.isSome_map, Bool.eq_iff_iff, decide_eq_true_iff, find?_isSome]
      constructor
      · intro hle
        obtain ⟨s, hs, rfl⟩ := mem_map.1 hmem
        exact ⟨s, hs, decide_eq_true hle⟩
      · rintro ⟨s, hs, hle⟩
        have hbnd := hleast _ (mem_map_of_mem hs)
        have hsum := of_decide_eq_true hle
        omega
    rw [findSome?_of_isSome hfits]
    change ((current.find? fun c => decide (cost + lineLength entries c + minimum ≤ maxChars)).bind fun c =>
      (stable.find? fun s => decide (cost + lineLength entries c + lineLength entries s ≤ maxChars)).bind
        fun s => some (s, c)) = _
    refine Option.bind_congr fun c _ => ?_
    cases stable.find? fun s => decide (cost + lineLength entries c + lineLength entries s ≤ maxChars) with
    | none => rfl
    | some s => rfl

end Anchor

/-! ### What is selected -/

section Select

variable {entries : List BriefEntry} {maxChars title : Nat}

/-- A state that was verified lately. -/
def BriefEntry.Fresh (entry : BriefEntry) : Prop := entry.record.kind = .current ∧ entry.stale = false

variable {i : Nat}

theorem mem_stable : i ∈ indices entries (·.record.kind = .stable) ↔
    ∃ entry, entries[i]? = some entry ∧ entry.record.kind = .stable := by
  rw [mem_indices]
  exact exists_congr fun entry => and_congr_right fun _ => decide_eq_true_iff

theorem mem_fresh :
    i ∈ indices entries (fun entry => entry.record.kind = .current && !entry.stale) ↔
      ∃ entry, entries[i]? = some entry ∧ entry.Fresh := by
  rw [mem_indices]
  refine exists_congr fun entry => and_congr_right fun _ => ?_
  rw [Bool.and_eq_true, decide_eq_true_iff, Bool.not_eq_true']
  exact Iff.rfl

theorem not_fresh_of_stable (h : i ∈ indices entries (·.record.kind = .stable)) :
    i ∉ indices entries fun entry => entry.record.kind = .current && !entry.stale := by
  intro hfrs
  obtain ⟨entry, hent, hkind⟩ := mem_stable.1 h
  obtain ⟨other, hoth, hcur, -⟩ := mem_fresh.1 hfrs
  rw [← Option.some.inj (hent.symm.trans hoth), hkind] at hcur
  cases hcur

variable {stable current : List Nat}

theorem mem_of_anchor {cost s c : Nat}
    (h : findBriefAnchor entries stable current maxChars cost = some (s, c)) :
    s ∈ stable ∧ c ∈ current ∧ cost + lineLength entries c + lineLength entries s ≤ maxChars := by
  rw [findBriefAnchor_eq] at h
  have hfits := find?_some h
  obtain ⟨c', hc, hpair⟩ := mem_flatMap.1 (mem_of_find?_eq_some h)
  obtain ⟨s', hs, heq⟩ := mem_map.1 hpair
  obtain ⟨rfl, rfl⟩ := Prod.mk.inj heq
  exact ⟨hs, hc, of_decide_eq_true hfits⟩

theorem anchor_of_pair {cost s c : Nat} (hs : s ∈ stable) (hc : c ∈ current)
    (hfits : cost + lineLength entries c + lineLength entries s ≤ maxChars) :
    findBriefAnchor entries stable current maxChars cost ≠ none := by
  rw [findBriefAnchor_eq]
  intro h
  refine find?_eq_none.1 h (s, c) ?_ (decide_eq_true hfits)
  exact mem_flatMap.2 ⟨c, hc, mem_map_of_mem hs⟩

theorem accounts_empty (htitle : title ≤ maxChars) : Accounts entries maxChars title ⟨[], [], title⟩ := by
  refine ⟨nodup_nil, fun i hi => ?_, fun kind => ?_, rfl, htitle⟩
  · cases hi
  · refine iff_of_false not_mem_nil ?_
    rintro ⟨i, hi, -⟩
    cases hi

theorem selectAnchors_accounts {stable current : List Nat} (htitle : title ≤ maxChars)
    (hdisj : ∀ i ∈ stable, i ∉ current) :
    Accounts entries maxChars title (selectAnchors entries maxChars title stable current ⟨[], [], title⟩) := by
  have hstart : Accounts entries maxChars title ⟨[], [], title⟩ := accounts_empty htitle
  unfold selectAnchors
  dsimp only
  split
  next s c hfnd =>
    obtain ⟨hs, hc, -⟩ := mem_of_anchor hfnd
    refine (hstart.select not_mem_nil).select ?_
    rcases selectBriefRecord_cases entries maxChars ⟨[], [], title⟩ s with heq | ⟨entry, -, -, heq⟩
    · rw [heq]
      exact not_mem_nil
    · rw [heq, mem_singleton]
      rintro rfl
      exact hdisj c hs hc
  next =>
    split
    · exact hstart.select not_mem_nil
    · exact hstart

/-- Where a pair fits a pair is told, and where one entry fits one is. -/
structure Present (entries : List BriefEntry) (maxChars title : Nat) (selected : List Nat) : Prop where
  both : ∀ s ∈ indices entries (·.record.kind = .stable),
    ∀ c ∈ indices entries (fun entry => entry.record.kind = .current && !entry.stale),
      title + (briefSectionHeading .stable).utf8ByteSize + (briefSectionHeading .current).utf8ByteSize +
        lineLength entries c + lineLength entries s ≤ maxChars →
      (∃ i ∈ selected, i ∈ indices entries (·.record.kind = .stable)) ∧
        ∃ i ∈ selected, i ∈ indices entries fun entry => entry.record.kind = .current && !entry.stale
  one : ∀ i entry, entries[i]? = some entry → entry.record.kind = .stable ∨ entry.Fresh →
    title + (briefSectionHeading entry.record.kind).utf8ByteSize + lineLength entries i ≤ maxChars →
      ∃ j ∈ selected, j ∈ indices entries (·.record.kind = .stable) ∨
        j ∈ indices entries fun entry => entry.record.kind = .current && !entry.stale

theorem Present.mono {selected selected' : List Nat} (h : Present entries maxChars title selected)
    (hsub : ∀ i ∈ selected, i ∈ selected') : Present entries maxChars title selected' := by
  refine ⟨fun s hs c hc hfits => ?_, fun i entry hent hkind hfits => ?_⟩
  · obtain ⟨⟨i, hi, hstbl⟩, j, hj, hfrs⟩ := h.both s hs c hc hfits
    exact ⟨⟨i, hsub i hi, hstbl⟩, j, hsub j hj, hfrs⟩
  · obtain ⟨j, hj, hfnd⟩ := h.one i entry hent hkind hfits
    exact ⟨j, hsub j hj, hfnd⟩

/-- An entry that fits beside the title is told when it comes first. -/
theorem selectBriefRecord_first {entry : BriefEntry} (hent : entries[i]? = some entry)
    (hfits : title + (briefSectionHeading entry.record.kind).utf8ByteSize + lineLength entries i ≤ maxChars) :
    selectBriefRecord entries maxChars ⟨[], [], title⟩ i = ⟨[i], [entry.record.kind],
      title + ((briefSectionHeading entry.record.kind).utf8ByteSize + lineLength entries i)⟩ := by
  rw [lineLength_eq hent] at hfits ⊢
  have hcost : (⟨[], [], title⟩ : Selection).headingCost entry.record.kind =
      (briefSectionHeading entry.record.kind).utf8ByteSize := rfl
  rw [selectBriefRecord_fits hent, hcost]
  rw [hcost]
  dsimp only
  omega

theorem selectAnchors_present :
    Present entries maxChars title (selectAnchors entries maxChars title
      (indices entries (·.record.kind = .stable))
      (indices entries fun entry => entry.record.kind = .current && !entry.stale)
      ⟨[], [], title⟩).selected := by
  unfold selectAnchors
  dsimp only
  split
  next s c hfnd =>
    obtain ⟨hs, hc, hfits⟩ := mem_of_anchor hfnd
    obtain ⟨stable, hstbl, hkind⟩ := mem_stable.1 hs
    obtain ⟨current, hcur, hkind', -⟩ := mem_fresh.1 hc
    have hfst : selectBriefRecord entries maxChars ⟨[], [], title⟩ s = ⟨[s], [stable.record.kind],
        title + ((briefSectionHeading stable.record.kind).utf8ByteSize + lineLength entries s)⟩ := by
      refine selectBriefRecord_first hstbl ?_
      rw [hkind]
      omega
    have hcost : (⟨[s], [.stable], title + ((briefSectionHeading .stable).utf8ByteSize +
        lineLength entries s)⟩ : Selection).headingCost .current =
          (briefSectionHeading .current).utf8ByteSize := rfl
    rw [hkind] at hfst
    rw [lineLength_eq hcur] at hfits
    rw [hfst, selectBriefRecord_fits hcur]
    · have hsel : s ∈ [c, s] := mem_cons_of_mem _ (mem_singleton_self s)
      have csel : c ∈ [c, s] := mem_cons_self ..
      exact ⟨fun _ _ _ _ _ => ⟨⟨s, hsel, hs⟩, c, csel, hc⟩, fun _ _ _ _ _ => ⟨s, hsel, .inl hs⟩⟩
    · rw [hkind', hcost]
      dsimp only
      omega
  next hnone =>
    refine ⟨fun s hs c hc hfits => absurd hnone (anchor_of_pair hs hc hfits), ?_⟩
    intro i entry hent hkind hfits
    split
    next j hj =>
      -- the entry that was found fits beside the title
      have hfnd : ∃ other, entries[j]? = some other ∧ (other.record.kind = .stable ∨ other.Fresh) ∧
          title + (briefSectionHeading other.record.kind).utf8ByteSize + lineLength entries j ≤ maxChars := by
        rcases Option.or_eq_some_iff.1 hj with hj | ⟨-, hj⟩
        · obtain ⟨other, hoth, hfrs⟩ := mem_fresh.1 (mem_of_find?_eq_some hj)
          have hle := find?_some hj
          refine ⟨other, hoth, .inr hfrs, ?_⟩
          rw [hfrs.1]
          exact of_decide_eq_true hle
        · obtain ⟨other, hoth, hstbl⟩ := mem_stable.1 (mem_of_find?_eq_some hj)
          have hle := find?_some hj
          refine ⟨other, hoth, .inl hstbl, ?_⟩
          rw [hstbl]
          exact of_decide_eq_true hle
      obtain ⟨other, hoth, hor, hle⟩ := hfnd
      rw [selectBriefRecord_first hoth hle]
      refine ⟨j, mem_singleton_self j, hor.imp (fun h => ?_) fun h => ?_⟩
      · exact mem_stable.2 ⟨other, hoth, h⟩
      · exact mem_fresh.2 ⟨other, hoth, h⟩
    next hj =>
      obtain ⟨hcur, hstbl⟩ := Option.or_eq_none_iff.1 hj
      rcases hkind with hkind | hfrs
      · have hnot := find?_eq_none.1 hstbl i (mem_stable.2 ⟨entry, hent, hkind⟩)
        rw [hkind] at hfits
        exact absurd (decide_eq_true hfits) hnot
      · have hnot := find?_eq_none.1 hcur i (mem_fresh.2 ⟨entry, hent, hfrs⟩)
        rw [hfrs.1] at hfits
        exact absurd (decide_eq_true hfits) hnot

/-- What is selected, and what it costs. -/
structure Selected (entries : List BriefEntry) (maxChars title : Nat) (removedLines : List String)
    (b : BriefSelection) : Prop where
  nodup : b.selected.Nodup
  bound : ∀ i ∈ b.selected, i < entries.length
  sections : ∀ kind, kind ∈ b.sections ↔
    ∃ i ∈ b.selected, ∃ entry, entries[i]? = some entry ∧ entry.record.kind = kind
  fits : title + sectionsCost b.sections + bytesOf entries b.selected +
    (if (keptLines removedLines b.removed).isEmpty then 0 else removedHeading.utf8ByteSize) +
      bytes (keptLines removedLines b.removed) ≤ maxChars
  present : Present entries maxChars title b.selected

theorem selectBrief_selected (htitle : title ≤ maxChars) (removedLines : List String) :
    Selected entries maxChars title removedLines (selectBrief entries maxChars title removedLines) := by
  have hanch := @selectAnchors_accounts entries maxChars title
    (indices entries (·.record.kind = .stable))
    (indices entries fun entry => entry.record.kind = .current && !entry.stale) htitle
    fun i hi => not_fresh_of_stable hi
  have hpres := @selectAnchors_present entries maxChars title
  unfold selectBrief
  dsimp only
  obtain ⟨anchored, hancho⟩ : ∃ anchored, anchored = selectAnchors entries maxChars title
    (indices entries (·.record.kind = .stable))
    (indices entries fun entry => entry.record.kind = .current && !entry.stale) ⟨[], [], title⟩ := ⟨_, rfl⟩
  rw [← hancho] at hanch hpres ⊢
  -- the rest of the stable memories and the fresh states
  obtain ⟨order, hord⟩ : ∃ order, order =
    alternate (anchored.remaining (indices entries (·.record.kind = .stable)))
      (anchored.remaining (indices entries fun entry => entry.record.kind = .current && !entry.stale)) := ⟨_, rfl⟩
  have hperm := alternate_perm (anchored.remaining (indices entries (·.record.kind = .stable)))
    (anchored.remaining (indices entries fun entry => entry.record.kind = .current && !entry.stale))
  rw [← hord] at hperm ⊢
  have hndp : order.Nodup := by
    refine hperm.nodup_iff.2 (nodup_append.2 ⟨?_, ?_, ?_⟩)
    · exact (nodup_indices _ _).filter _
    · exact (nodup_indices _ _).filter _
    · rintro i hi j hj rfl
      exact not_fresh_of_stable (mem_remaining.1 hi).1 (mem_remaining.1 hj).1
  have hnew : ∀ i ∈ order, i ∉ anchored.selected := by
    intro i hi
    rcases mem_append.1 (hperm.mem_iff.1 hi) with h | h
    · exact (mem_remaining.1 h).2
    · exact (mem_remaining.1 h).2
  have htold := hanch.foldl hndp hnew
  have hpres' := hpres.mono fun i hi => @subset_foldl entries maxChars anchored order i hi
  obtain ⟨told, htoldEq⟩ : ∃ told, told = order.foldl (selectBriefRecord entries maxChars) anchored := ⟨_, rfl⟩
  rw [← htoldEq] at htold hpres' ⊢
  -- the notices are paid for before the stale states
  obtain ⟨hrem, hle⟩ := selectRemoved_used removedLines told.used false htold.fits
  obtain ⟨removed, hremovedEq⟩ : ∃ removed, removed = selectRemoved maxChars removedLines told.used false := ⟨_, rfl⟩
  rw [← hremovedEq] at hrem hle ⊢
  rw [Bool.false_or] at hrem
  have hnoti : Accounts entries maxChars (title +
      (if (keptLines removedLines removed.1).isEmpty then 0 else removedHeading.utf8ByteSize) +
        bytes (keptLines removedLines removed.1)) { told with used := removed.2 } := by
    refine ⟨htold.nodup, htold.bound, htold.sections, ?_, hle⟩
    have hused := htold.used
    dsimp only
    omega
  have hstale : (told.remaining
      (indices entries fun entry => entry.record.kind = .current && entry.stale)).Nodup :=
    (nodup_indices _ _).filter _
  have hlast := hnoti.foldl hstale fun i hi => (mem_remaining.1 hi).2
  refine ⟨hlast.nodup, hlast.bound, hlast.sections, ?_, hpres'.mono fun i hi => subset_foldl hi⟩
  have hfits := hlast.fits
  rw [hlast.used] at hfits
  refine Nat.le_trans (Nat.le_of_eq ?_) hfits
  dsimp only
  omega

end Select

/-! ### The entries that are told -/

section Told

variable {entries : List BriefEntry} {b : BriefSelection}

theorem mem_told {e : BriefEntry} : e ∈ b.entries entries ↔ ∃ i ∈ b.selected, entries[i]? = some e := by
  unfold BriefSelection.entries
  rw [mem_map]
  constructor
  · rintro ⟨⟨entry, i⟩, hmem, rfl⟩
    obtain ⟨hzip, hi⟩ := mem_filter.1 hmem
    exact ⟨i, of_decide_eq_true hi, mem_zipIdx_iff_getElem?.1 hzip⟩
  · rintro ⟨i, hi, hent⟩
    exact ⟨(e, i), mem_filter.2 ⟨mem_zipIdx_iff_getElem?.2 hent, decide_eq_true hi⟩, rfl⟩

theorem bytes_told (hndp : b.selected.Nodup) (hbnd : ∀ i ∈ b.selected, i < entries.length) :
    ((b.entries entries).map (·.line.utf8ByteSize)).sum = bytesOf entries b.selected := by
  have hplcs : ((entries.zipIdx.filter fun entry => entry.2 ∈ b.selected).map (·.2)).Perm b.selected := by
    refine (perm_ext_iff_of_nodup ?_ hndp).2 fun i => ?_
    · have hrange : (entries.zipIdx.map (·.2)).Nodup := by
        rw [zipIdx_map_snd]
        exact nodup_range'
      exact hrange.sublist (filter_sublist.map _)
    · rw [mem_map]
      constructor
      · rintro ⟨entry, hmem, rfl⟩
        exact of_decide_eq_true (mem_filter.1 hmem).2
      · intro hi
        have hent := getElem?_eq_getElem (hbnd i hi)
        exact ⟨(_, i), mem_filter.2 ⟨mem_zipIdx_iff_getElem?.2 hent, decide_eq_true hi⟩, rfl⟩
  rw [← bytesOf_perm hplcs]
  unfold bytesOf BriefSelection.entries
  rw [map_map, map_map]
  refine congrArg _ (map_congr_left fun entry hmem => ?_)
  exact (lineLength_eq (mem_zipIdx_iff_getElem?.1 (mem_filter.1 hmem).1)).symm

theorem utf8ByteSize_join (lines : List String) : (String.join lines).utf8ByteSize = bytes lines := by
  have hfold : ∀ text : String, (lines.foldl (· ++ ·) text).utf8ByteSize = text.utf8ByteSize + bytes lines := by
    induction lines with
    | nil => exact fun text => rfl
    | cons line lines ih =>
      intro text
      have hbts : bytes (line :: lines) = line.utf8ByteSize + bytes lines := sum_cons
      rw [foldl_cons, ih, String.utf8ByteSize_append, hbts, Nat.add_assoc]
  exact (hfold "").trans (Nat.zero_add _)

/-- The lines of a kind under its heading, where there are any. -/
def sectionOf (told : List BriefEntry) (kind : MemoryKind) : String :=
  let lines := (told.filter (·.record.kind = kind)).map (·.line)
  if lines.isEmpty then "" else briefSectionHeading kind ++ String.join lines

def removedSection (gone : List String) : String :=
  if gone.isEmpty then "" else removedHeading ++ String.join (gone.map removedLine)

theorem sectionText_eq (hsect : ∀ kind, kind ∈ b.sections ↔
    ∃ i ∈ b.selected, ∃ entry, entries[i]? = some entry ∧ entry.record.kind = kind) (kind : MemoryKind) :
    sectionText (b.entries entries) b.sections kind = sectionOf (b.entries entries) kind := by
  have hiff : kind ∈ b.sections ↔
      ¬(((b.entries entries).filter (·.record.kind = kind)).map (·.line)).isEmpty = true := by
    rw [hsect, isEmpty_map, List.isEmpty_iff]
    constructor
    · rintro ⟨i, hi, entry, hent, hkind⟩
      exact ne_nil_of_mem (mem_filter.2 ⟨mem_told.2 ⟨i, hi, hent⟩, decide_eq_true hkind⟩)
    · intro hne
      obtain ⟨entry, hmem⟩ := exists_mem_of_ne_nil _ hne
      obtain ⟨htold, hkind⟩ := mem_filter.1 hmem
      obtain ⟨i, hi, hent⟩ := mem_told.1 htold
      exact ⟨i, hi, entry, hent, of_decide_eq_true hkind⟩
  unfold sectionText sectionOf
  dsimp only
  by_cases hin : kind ∈ b.sections
  · rw [if_pos hin, if_neg (hiff.1 hin)]
  · rw [if_neg hin, if_pos (not_not.1 fun h => hin (hiff.2 h))]

theorem bytes_kinds (told : List BriefEntry) :
    bytes ((told.filter (·.record.kind = .stable)).map (·.line)) +
      bytes ((told.filter (·.record.kind = .current)).map (·.line)) =
        (told.map (·.line.utf8ByteSize)).sum := by
  induction told with
  | nil => rfl
  | cons entry told ih =>
    have hcons : ∀ (line : String) lines, bytes (line :: lines) = line.utf8ByteSize + bytes lines :=
      fun line lines => sum_cons
    rw [map_cons, sum_cons, filter_cons, filter_cons]
    cases hkind : entry.record.kind with
    | stable =>
      rw [if_pos (decide_eq_true rfl), if_neg (by decide), map_cons, hcons]
      omega
    | current =>
      rw [if_neg (by decide), if_pos (decide_eq_true rfl), map_cons, hcons]
      omega

theorem sectionOf_size (hsect : ∀ kind, kind ∈ b.sections ↔
    ∃ i ∈ b.selected, ∃ entry, entries[i]? = some entry ∧ entry.record.kind = kind) (kind : MemoryKind) :
    (sectionOf (b.entries entries) kind).utf8ByteSize =
      (if kind ∈ b.sections then (briefSectionHeading kind).utf8ByteSize else 0) +
        bytes (((b.entries entries).filter (·.record.kind = kind)).map (·.line)) := by
  rw [← sectionText_eq hsect kind]
  unfold sectionText
  by_cases hin : kind ∈ b.sections
  · rw [if_pos hin, if_pos hin, String.utf8ByteSize_append, utf8ByteSize_join]
  · have hnone : (b.entries entries).filter (·.record.kind = kind) = [] := by
      refine filter_eq_nil_iff.2 fun entry hmem hkind => hin ?_
      obtain ⟨i, hi, hent⟩ := mem_told.1 hmem
      exact (hsect kind).2 ⟨i, hi, entry, hent, of_decide_eq_true hkind⟩
    rw [if_neg hin, if_neg hin, hnone]
    rfl

end Told

/-! ### The end of a line -/

def EndsLine (text : String) : Prop :=
  ∃ front c, text.toList = front ++ [c, '\n'] ∧ isWhitespace c = false

variable {text : String}

theorem EndsLine.append (h : EndsLine text) (front : String) : EndsLine (front ++ text) := by
  obtain ⟨cs, c, hcs, hc⟩ := h
  refine ⟨front.toList ++ cs, c, ?_, hc⟩
  rw [String.toList_append, hcs, append_assoc]

theorem join_concat (lines : List String) (line : String) :
    String.join (lines ++ [line]) = String.join lines ++ line := by
  unfold String.join
  rw [foldl_append]
  rfl

theorem EndsLine.join {lines : List String} (hne : lines ≠ []) (h : ∀ line ∈ lines, EndsLine line) :
    EndsLine (String.join lines) := by
  obtain ⟨front, line, rfl⟩ := (eq_nil_or_concat' lines).resolve_left hne
  rw [join_concat]
  exact (h line (mem_append_right _ (mem_singleton_self line))).append _

theorem briefRecordLine_ends (record : MemoryRow) (stale : Bool) : EndsLine (briefRecordLine record stale) := by
  have hend : EndsLine ")\n" := ⟨[], ')', by decide, by decide⟩
  unfold briefRecordLine
  exact (hend.append _).append _

theorem removedLine_ends (memoryId : String) : EndsLine (removedLine memoryId) := by
  have hend : EndsLine "] no longer applies\n" := ⟨"] no longer applie".toList, 's', by decide, by decide⟩
  unfold removedLine
  exact hend.append _

theorem omittedNotice_ends (omitted : Nat) : EndsLine (omittedNotice omitted) := by
  have hend : EndsLine " additional memories omitted by the startup budget._\n" :=
    ⟨" additional memories omitted by the startup budget.".toList, '_', by decide, by decide⟩
  unfold omittedNotice
  exact hend.append _

/-- A text that begins with the mark of a title and ends with a line. -/
def Headed (text : String) : Prop :=
  ∃ middle c, text.toList = '#' :: (middle ++ [c, '\n']) ∧ isWhitespace c = false

theorem title_headed (kind : MemoryBriefKind) : Headed kind.title := by
  cases kind with
  | fresh => exact ⟨" Wardian memor".toList, 'y', by decide, by decide⟩
  | resumeDelta => exact ⟨" Wardian memory change".toList, 's', by decide, by decide⟩

theorem Headed.append {other : String} (h : Headed text) (hoth : other = "" ∨ EndsLine other) :
    Headed (text ++ other) := by
  rcases hoth with rfl | ⟨front, c, hoth, hc⟩
  · rwa [String.append_empty]
  · obtain ⟨middle, d, htext, -⟩ := h
    refine ⟨middle ++ [d, '\n'] ++ front, c, ?_, hc⟩
    rw [String.toList_append, htext, hoth, cons_append, append_assoc _ front]

theorem trim_line {a c : Char} (cs : List Char) (ha : isWhitespace a = false)
    (hc : isWhitespace c = false) : trim (a :: (cs ++ [c, '\n'])) = a :: (cs ++ [c]) := by
  have hstart : trimStart (a :: (cs ++ [c, '\n'])) = a :: (cs ++ [c, '\n']) :=
    dropWhile_cons_of_neg (by rw [ha]; exact Bool.false_ne_true)
  have hreve : (a :: (cs ++ [c, '\n'])).reverse = '\n' :: c :: (a :: cs).reverse := by simp
  have hend : trimStart ('\n' :: c :: (a :: cs).reverse) = c :: (a :: cs).reverse := by
    unfold trimStart
    rw [dropWhile_cons_of_pos (by decide), dropWhile_cons_of_neg]
    rw [hc]
    exact Bool.false_ne_true
  rw [trim, hstart, hreve, hend]
  simp

theorem Headed.trimmed (h : Headed text) : Memory.trimmed text ++ "\n" = text := by
  obtain ⟨middle, c, htext, hc⟩ := h
  refine String.toList_injective ?_
  have hmark : isWhitespace '#' = false := by decide
  unfold Memory.trimmed
  rw [String.toList_append, String.toList_ofList, htext, trim_line middle hmark hc, cons_append,
    append_assoc]
  rfl

/-! ### What a brief tells -/

/-- What a brief tells, and in which words. -/
structure Tells (env : BriefEnv) (kind : MemoryBriefKind) (records : List MemoryRecord)
    (removed : List String) (maxChars : Nat) (now : String) (told : List BriefEntry) (gone : List String) :
    Prop where
  fits : (renderBrief env kind records removed maxChars now).1.utf8ByteSize ≤ maxChars
  told_order : told.Sublist (records.map (briefEntry env now))
  gone_order : gone.Sublist removed
  omitted : told.length + gone.length + (renderBrief env kind records removed maxChars now).2 =
    records.length + removed.length
  text : (told = [] ∧ gone = [] ∧ (renderBrief env kind records removed maxChars now).1 = "") ∨
    ∃ notice, (notice = "" ∨ notice = omittedNotice (renderBrief env kind records removed maxChars now).2) ∧
      (renderBrief env kind records removed maxChars now).1 ++ "\n" = kind.title ++ sectionOf told .stable ++
        sectionOf told .current ++ removedSection gone ++ notice
  both : ∀ stable ∈ records.map (briefEntry env now), ∀ current ∈ records.map (briefEntry env now),
    stable.record.kind = .stable → current.Fresh →
      kind.title.utf8ByteSize + (briefSectionHeading .stable).utf8ByteSize +
        (briefSectionHeading .current).utf8ByteSize + current.line.utf8ByteSize +
          stable.line.utf8ByteSize ≤ maxChars →
      (∃ entry ∈ told, entry.record.kind = .stable) ∧ ∃ entry ∈ told, entry.Fresh
  one : ∀ entry ∈ records.map (briefEntry env now), entry.record.kind = .stable ∨ entry.Fresh →
    kind.title.utf8ByteSize + (briefSectionHeading entry.record.kind).utf8ByteSize +
      entry.line.utf8ByteSize ≤ maxChars →
      ∃ other ∈ told, other.record.kind = .stable ∨ other.Fresh

section Render

variable {env : BriefEnv} {kind : MemoryBriefKind} {records : List MemoryRecord} {removed : List String}
  {maxChars : Nat} {now : String}

variable {b : BriefSelection}

theorem renderBrief_page (hne : (records.isEmpty && removed.isEmpty) = false)
    (htitle : kind.title.utf8ByteSize ≤ maxChars)
    (hb : b = selectBrief (records.map (briefEntry env now)) maxChars kind.title.utf8ByteSize
      (removed.map removedLine)) {output : String} {omitted : Nat}
    (houtp : output = kind.title ++
      sectionText (b.entries (records.map (briefEntry env now))) b.sections .stable ++
      sectionText (b.entries (records.map (briefEntry env now))) b.sections .current ++
      removedSection (b.notices removed))
    (homtd : omitted = (records.length - (b.entries (records.map (briefEntry env now))).length) +
      (removed.length - (b.notices removed).length)) :
    renderBrief env kind records removed maxChars now =
      (trimmed (if 0 < omitted ∧ output.utf8ByteSize + (omittedNotice omitted).utf8ByteSize ≤ maxChars then
          output ++ omittedNotice omitted
        else output), omitted) := by
  subst houtp homtd hb
  unfold renderBrief briefPage
  rw [hne, if_neg Bool.false_ne_true, if_neg (Nat.not_lt.2 htitle)]
  rfl

variable {entries : List BriefEntry}

theorem told_of_selected {p : BriefEntry → Prop}
    {places : List Nat} (hplcs : ∀ i, i ∈ places ↔ ∃ entry, entries[i]? = some entry ∧ p entry)
    (h : ∃ i ∈ b.selected, i ∈ places) : ∃ entry ∈ b.entries entries, p entry := by
  obtain ⟨i, hi, hplc⟩ := h
  obtain ⟨entry, hent, hp⟩ := (hplcs i).1 hplc
  exact ⟨entry, mem_told.2 ⟨i, hi, hent⟩, hp⟩

theorem sectionOf_ends {told : List BriefEntry} (h : ∀ entry ∈ told, EndsLine entry.line)
    (kind : MemoryKind) : sectionOf told kind = "" ∨ EndsLine (sectionOf told kind) := by
  unfold sectionOf
  dsimp only
  split
  next => exact .inl rfl
  next hne =>
    refine .inr (EndsLine.append (EndsLine.join ?_ fun line hline => ?_) _)
    · exact fun hnil => hne (List.isEmpty_iff.2 hnil)
    · obtain ⟨entry, hent, rfl⟩ := mem_map.1 hline
      exact h entry (mem_filter.1 hent).1

theorem removedSection_ends (gone : List String) : removedSection gone = "" ∨ EndsLine (removedSection gone) := by
  unfold removedSection
  split
  next => exact .inl rfl
  next hne =>
    refine .inr (EndsLine.append (EndsLine.join ?_ fun line hline => ?_) _)
    · exact fun hnil => hne (List.isEmpty_iff.2 (map_eq_nil_iff.1 hnil))
    · obtain ⟨memoryId, -, rfl⟩ := mem_map.1 hline
      exact removedLine_ends memoryId

theorem removedSection_size (gone : List String) : (removedSection gone).utf8ByteSize =
    (if gone.isEmpty then 0 else removedHeading.utf8ByteSize) + bytes (gone.map removedLine) := by
  unfold removedSection
  split
  next h =>
    rw [List.isEmpty_iff.1 h]
    rfl
  next => rw [String.utf8ByteSize_append, utf8ByteSize_join]

theorem output_size {title : String}
    (h : Selected entries maxChars title.utf8ByteSize (removed.map removedLine) b) :
    (title ++ sectionOf (b.entries entries) .stable ++ sectionOf (b.entries entries) .current ++
      removedSection (b.notices removed)).utf8ByteSize ≤ maxChars := by
  have hkept : keptLines (removed.map removedLine) b.removed = (b.notices removed).map removedLine :=
    keptLines_map removedLine removed b.removed
  have hfits := h.fits
  have htold := bytes_told h.nodup h.bound
  have hks := bytes_kinds (b.entries entries)
  rw [hkept, isEmpty_map, ← htold, ← hks] at hfits
  rw [String.utf8ByteSize_append, String.utf8ByteSize_append, String.utf8ByteSize_append,
    sectionOf_size h.sections, sectionOf_size h.sections, removedSection_size]
  unfold sectionsCost at hfits
  omega

theorem renderBrief_told (hne : (records.isEmpty && removed.isEmpty) = false)
    (htitle : kind.title.utf8ByteSize ≤ maxChars) :
    ∃ told gone, Tells env kind records removed maxChars now told gone := by
  obtain ⟨entries, hents⟩ : ∃ entries, entries = records.map (briefEntry env now) := ⟨_, rfl⟩
  obtain ⟨b, hb⟩ : ∃ b, b = selectBrief (records.map (briefEntry env now)) maxChars
    kind.title.utf8ByteSize (removed.map removedLine) := ⟨_, rfl⟩
  have hsel := @selectBrief_selected (records.map (briefEntry env now)) maxChars kind.title.utf8ByteSize
    htitle (removed.map removedLine)
  have hpage := renderBrief_page hne htitle hb rfl rfl
  rw [← hb, ← hents] at hsel
  rw [← hents, sectionText_eq hsel.sections, sectionText_eq hsel.sections] at hpage
  have hsize := output_size hsel
  have hlns : ∀ entry ∈ b.entries entries, EndsLine entry.line := by
    intro entry hent
    have hmem := (BriefSelection.entries_sublist b entries).subset hent
    rw [hents] at hmem
    obtain ⟨record, -, rfl⟩ := mem_map.1 hmem
    exact briefRecordLine_ends ..
  have hheaded := (((title_headed kind).append (sectionOf_ends hlns .stable)).append
    (sectionOf_ends hlns .current)).append (removedSection_ends (b.notices removed))
  obtain ⟨output, houtp⟩ : ∃ output, output = kind.title ++ sectionOf (b.entries entries) .stable ++
    sectionOf (b.entries entries) .current ++ removedSection (b.notices removed) := ⟨_, rfl⟩
  obtain ⟨omitted, homtd⟩ : ∃ omitted, omitted = (records.length - (b.entries entries).length) +
    (removed.length - (b.notices removed).length) := ⟨_, rfl⟩
  rw [← houtp] at hpage hsize hheaded
  rw [← homtd] at hpage
  -- the notice is given where it fits
  have hnotice : ∃ notice, (notice = "" ∨ notice = omittedNotice omitted) ∧
      (if 0 < omitted ∧ output.utf8ByteSize + (omittedNotice omitted).utf8ByteSize ≤ maxChars then
          output ++ omittedNotice omitted
        else output) = output ++ notice ∧ Headed (output ++ notice) ∧
      (output ++ notice).utf8ByteSize ≤ maxChars := by
    by_cases hfits : 0 < omitted ∧ output.utf8ByteSize + (omittedNotice omitted).utf8ByteSize ≤ maxChars
    · refine ⟨omittedNotice omitted, .inr rfl, if_pos hfits, ?_, ?_⟩
      · exact hheaded.append (.inr (omittedNotice_ends omitted))
      · rw [String.utf8ByteSize_append]
        exact hfits.2
    · refine ⟨"", .inl rfl, ?_, ?_, ?_⟩
      · rw [if_neg hfits, String.append_empty]
      · rwa [String.append_empty]
      · rwa [String.append_empty]
  obtain ⟨notice, hwhich, hwrt, hheaded', hsize'⟩ := hnotice
  rw [hwrt] at hpage
  have htext := hheaded'.trimmed
  refine ⟨b.entries entries, b.notices removed, ?_, ?_, BriefSelection.notices_sublist b removed, ?_,
    .inr ⟨notice, ?_, ?_⟩, ?_, ?_⟩
  · rw [← htext, String.utf8ByteSize_append] at hsize'
    rw [hpage]
    exact Nat.le_trans (Nat.le_add_right _ _) hsize'
  · rw [← hents]
    exact BriefSelection.entries_sublist b entries
  · have htold := (BriefSelection.entries_sublist b entries).length_le
    have hgone := (BriefSelection.notices_sublist b removed).length_le
    have hlen : entries.length = records.length := by rw [hents, length_map]
    rw [hpage, homtd]
    dsimp only
    omega
  · rw [hpage]
    exact hwhich
  · rw [hpage, htext, houtp]
  · intro stable hstbl current hcur hkind hfrs hfits
    rw [← hents] at hstbl hcur
    obtain ⟨i, hi⟩ := mem_iff_getElem?.1 hstbl
    obtain ⟨j, hj⟩ := mem_iff_getElem?.1 hcur
    rw [← lineLength_eq hi, ← lineLength_eq hj] at hfits
    obtain ⟨hone, hoth⟩ := hsel.present.both i (mem_stable.2 ⟨stable, hi, hkind⟩) j
      (mem_fresh.2 ⟨current, hj, hfrs⟩) hfits
    exact ⟨told_of_selected (fun _ => mem_stable) hone, told_of_selected (fun _ => mem_fresh) hoth⟩
  · intro entry hent hor hfits
    rw [← hents] at hent
    obtain ⟨i, hi⟩ := mem_iff_getElem?.1 hent
    rw [← lineLength_eq hi] at hfits
    obtain ⟨j, hj, hplc⟩ := hsel.present.one i entry hi hor hfits
    rcases hplc with hplc | hplc
    · obtain ⟨other, hoth, hstbl⟩ := told_of_selected (fun _ => mem_stable) ⟨j, hj, hplc⟩
      exact ⟨other, hoth, .inl hstbl⟩
    · obtain ⟨other, hoth, hfrs⟩ := told_of_selected (fun _ => mem_fresh) ⟨j, hj, hplc⟩
      exact ⟨other, hoth, .inr hfrs⟩

/-- What a brief tells, where equal lines (identifiers that begin with the same eight characters) count each
for itself; and the pair that comes first is the one that an exhaustive search finds. -/
theorem renderBrief_tells (env : BriefEnv) (kind : MemoryBriefKind) (records : List MemoryRecord)
    (removed : List String) (maxChars : Nat) (now : String) :
    (∃ told gone, Tells env kind records removed maxChars now told gone) ∧
      ∀ (entries : List BriefEntry) (stable current : List Nat) (cost : Nat),
        findBriefAnchor entries stable current maxChars cost =
          exhaustiveAnchor entries stable current maxChars cost := by
  refine ⟨?_, fun entries stable current cost => findBriefAnchor_eq entries stable current maxChars cost⟩
  by_cases hne : (records.isEmpty && removed.isEmpty) = true
  · obtain ⟨hrecs, hrem⟩ := Bool.and_eq_true_iff.1 hne
    obtain rfl := List.isEmpty_iff.1 hrecs
    obtain rfl := List.isEmpty_iff.1 hrem
    refine ⟨[], [], Nat.zero_le _, Sublist.refl _, Sublist.refl _, rfl, .inl ⟨rfl, rfl, rfl⟩, ?_, ?_⟩
    · exact fun entry hent => absurd hent not_mem_nil
    · exact fun entry hent => absurd hent not_mem_nil
  · by_cases htitle : kind.title.utf8ByteSize ≤ maxChars
    · exact renderBrief_told (Bool.eq_false_iff.2 hne) htitle
    · have hemp : renderBrief env kind records removed maxChars now =
          ("", records.length + removed.length) := by
        unfold renderBrief briefPage
        rw [if_neg hne, if_pos (Nat.lt_of_not_le htitle)]
      refine ⟨[], [], ?_, nil_sublist _, nil_sublist _, ?_, .inl ⟨rfl, rfl, ?_⟩, ?_, ?_⟩
      · rw [hemp]
        exact Nat.zero_le _
      · rw [hemp]
        exact Nat.zero_add _
      · rw [hemp]
      · intro stable _ current _ _ _ hfits
        omega
      · intro entry _ _ hfits
        omega

end Render

end Wardian.Memory
