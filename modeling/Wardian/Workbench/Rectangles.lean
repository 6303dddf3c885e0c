/-
The rectangles of the groups of a workbench.

The groups of a workbench are the leaves of a tree of splits, each of which divides its place at a
ratio.  Two groups are neighbours when their rectangles, with exact fractions as corners, touch along an
edge.

Main results:

* `WorkbenchModel.collectExactGroupRectangles_eq` — the fractions are the corners of a tree of cuts;
* `WorkbenchModel.exact_tiling` — the tiling, for every tree of splits.
-/

import Wardian.Lib.Table
import Wardian.Workbench.ExactFraction
import Mathlib.Data.List.Pairwise

set_option autoImplicit false

namespace Wardian.WorkbenchModel

open Tiling
open List

structure ExactWorkbenchRectangle where
  left : ExactFraction
  top : ExactFraction
  right : ExactFraction
  bottom : ExactFraction

inductive WorkbenchSplitDirection
  | horizontal
  | vertical

/-- A group, or a split of two nodes. -/
inductive WorkbenchNodeV1
  | group (nodeId groupId : String)
  | split (nodeId : String) (direction : WorkbenchSplitDirection) (ratio : Decimal.Number)
      (first second : WorkbenchNodeV1)

def collectExactGroupRectangles : WorkbenchNodeV1 → ExactWorkbenchRectangle →
    Table ExactWorkbenchRectangle → Option (Table ExactWorkbenchRectangle)
  | .group _ groupId, rectangle, rectangles => some (rectangles.insert groupId rectangle)
  | .split _ .horizontal ratio first second, rectangle, rectangles => do
      let boundary ← exactBoundary rectangle.left rectangle.right ratio
      let rectangles ← collectExactGroupRectangles first { rectangle with right := boundary } rectangles
      collectExactGroupRectangles second { rectangle with left := boundary } rectangles
  | .split _ .vertical ratio first second, rectangle, rectangles => do
      let boundary ← exactBoundary rectangle.top rectangle.bottom ratio
      let rectangles ← collectExactGroupRectangles first { rectangle with bottom := boundary } rectangles
      collectExactGroupRectangles second { rectangle with top := boundary } rectangles

def intervalsOverlapPositively (firstStart firstEnd secondStart secondEnd : ExactFraction) : Bool :=
  let laterStart := if 0 ≤ compareExact firstStart secondStart then firstStart else secondStart
  let earlierEnd := if compareExact firstEnd secondEnd ≤ 0 then firstEnd else secondEnd
  decide (0 < compareExact earlierEnd laterStart)

/-- The rectangle that all groups share. -/
def wholeRectangle : ExactWorkbenchRectangle :=
  { left := exactZero, top := exactZero, right := exactOne, bottom := exactOne }

/-- The test on the rectangles of two groups. -/
def rectanglesTouch (first second : ExactWorkbenchRectangle) : Bool :=
  let touchesVertically := compareExact first.right second.left == 0
    || compareExact second.right first.left == 0
  let touchesHorizontally := compareExact first.bottom second.top == 0
    || compareExact second.bottom first.top == 0
  (touchesVertically && intervalsOverlapPositively first.top first.bottom second.top second.bottom)
    || (touchesHorizontally && intervalsOverlapPositively first.left first.right second.left second.right)

/-- Whether two groups share an edge; a group that is not there has no neighbour. -/
def groupsAreWorkbenchAdjacent (root : WorkbenchNodeV1) (firstId secondId : String) : Option Bool := do
  let rectangles ← collectExactGroupRectangles root wholeRectangle ∅
  match rectangles[firstId]?, rectangles[secondId]? with
  | some first, some second => some (rectanglesTouch first second)
  | _, _ => some false

/-! ### The tree of cuts -/

namespace ExactWorkbenchRectangle

/-- The corners are proper fractions. -/
structure Fine (rectangle : ExactWorkbenchRectangle) : Prop where
  left : rectangle.left.Fine
  top : rectangle.top.Fine
  right : rectangle.right.Fine
  bottom : rectangle.bottom.Fine

/-- The rectangle as numbers. -/
def region (rectangle : ExactWorkbenchRectangle) : Rect Rat :=
  { left := rectangle.left.value, top := rectangle.top.value, right := rectangle.right.value,
    bottom := rectangle.bottom.value }

end ExactWorkbenchRectangle

def WorkbenchSplitDirection.cut : WorkbenchSplitDirection → Direction
  | .horizontal => .horizontal
  | .vertical => .vertical

namespace WorkbenchNodeV1

/-- The names of the groups, from the first to the last. -/
def groupIds : WorkbenchNodeV1 → List String
  | group _ groupId => [groupId]
  | split _ _ _ first second => first.groupIds ++ second.groupIds

/-- Every ratio is between the two. -/
def RatiosWithin (low high : Rat) : WorkbenchNodeV1 → Prop
  | group _ _ => True
  | split _ _ ratio first second =>
    (low ≤ ratio.value ∧ ratio.value ≤ high) ∧ first.RatiosWithin low high ∧ second.RatiosWithin low high

/-- The splits as cuts. -/
def tree : WorkbenchNodeV1 → Tiling.Tree Rat String
  | group _ groupId => .leaf groupId
  | split _ direction ratio first second => .split direction.cut ratio.value first.tree second.tree

end WorkbenchNodeV1

/-- A rectangle with its group, as numbers. -/
def asNumbers (entry : String × ExactWorkbenchRectangle) : String × Rect Rat :=
  (entry.1, entry.2.region)

open ExactWorkbenchRectangle

variable {rectangle : ExactWorkbenchRectangle}

/-- A split collects the groups of its first node in the part before the cut, and then those of its
second node in the part behind it. -/
theorem collectExactGroupRectangles_split (h : rectangle.Fine) (nodeId : String)
    (direction : WorkbenchSplitDirection) (ratio : Decimal.Number) (first second : WorkbenchNodeV1) :
    ∃ before behind : ExactWorkbenchRectangle, before.Fine ∧ behind.Fine ∧
      before.region = rectangle.region.first ratio.value direction.cut ∧
      behind.region = rectangle.region.second ratio.value direction.cut ∧
      ∀ rectangles, collectExactGroupRectangles (.split nodeId direction ratio first second) rectangle
          rectangles =
        (collectExactGroupRectangles first before rectangles).bind
          (collectExactGroupRectangles second behind) := by
  cases direction with
  | horizontal =>
    obtain ⟨boundary, hbdry, hfine, hvl⟩ := exactBoundary_value h.left h.right ratio
    refine ⟨{ rectangle with right := boundary }, { rectangle with left := boundary },
      ⟨h.left, h.top, hfine, h.bottom⟩, ⟨hfine, h.top, h.right, h.bottom⟩, ?_, ?_, ?_⟩
    · simp only [region, hvl]
      rfl
    · simp only [region, hvl]
      rfl
    · intro rectangles
      rw [collectExactGroupRectangles, hbdry]
      rfl
  | vertical =>
    obtain ⟨boundary, hbdry, hfine, hvl⟩ := exactBoundary_value h.top h.bottom ratio
    refine ⟨{ rectangle with bottom := boundary }, { rectangle with top := boundary },
      ⟨h.left, h.top, h.right, hfine⟩, ⟨h.left, hfine, h.right, h.bottom⟩, ?_, ?_, ?_⟩
    · simp only [region, hvl]
      rfl
    · simp only [region, hvl]
      rfl
    · intro rectangles
      rw [collectExactGroupRectangles, hbdry]
      rfl

/-- What is collected: the leaves of the tree of cuts, from the first to the last. -/
theorem collectExactGroupRectangles_eq (node : WorkbenchNodeV1)
    (h : rectangle.Fine) (rectangles : Table ExactWorkbenchRectangle) :
    ∃ entries : List (String × ExactWorkbenchRectangle),
      collectExactGroupRectangles node rectangle rectangles = some (rectangles.addAll entries) ∧
      entries.map asNumbers = node.tree.rects rectangle.region ∧ ∀ entry ∈ entries, entry.2.Fine := by
  induction node generalizing rectangle rectangles with
  | group nodeId groupId =>
    refine ⟨[(groupId, rectangle)], rfl, rfl, ?_⟩
    intro entry hent
    rw [mem_singleton.mp hent]
    exact h
  | split nodeId direction ratio first second ihFirst ihSecond =>
    obtain ⟨before, behind, hbef, hbeh, hrgn, hrgn', hspl⟩ :=
      collectExactGroupRectangles_split h nodeId direction ratio first second
    obtain ⟨entries, hcoll, htree, hall⟩ := ihFirst hbef rectangles
    obtain ⟨entries', hcoll', htree', hall'⟩ := ihSecond hbeh (rectangles.addAll entries)
    refine ⟨entries ++ entries', ?_, ?_, ?_⟩
    · rw [hspl, hcoll, Option.bind_some, hcoll', Table.addAll_append]
    · rw [map_append, htree, htree', hrgn, hrgn']
      rfl
    · intro entry hent
      exact (mem_append.mp hent).elim (hall entry) (hall' entry)

/-! ### Neighbours -/

theorem wholeRectangle_fine : wholeRectangle.Fine := ⟨one_pos, one_pos, one_pos, one_pos⟩

/-- The unit square. -/
def unitSquare : Rect Rat := { left := 0, top := 0, right := 1, bottom := 1 }

theorem wholeRectangle_region : wholeRectangle.region = unitSquare := by
  have hzero : exactZero.value = 0 := by rw [ExactFraction.value, exactZero, Int.cast_zero, zero_div]
  have hone : exactOne.value = 1 := by rw [ExactFraction.value, exactOne, Int.cast_one, div_one]
  unfold wholeRectangle region unitSquare
  rw [hzero, hone]

theorem unitSquare_proper : unitSquare.Proper := ⟨one_pos, one_pos⟩

theorem intervalsOverlapPositively_iff {firstStart firstEnd secondStart secondEnd : ExactFraction}
    (h₁ : firstStart.Fine) (h₂ : firstEnd.Fine) (h₃ : secondStart.Fine) (h₄ : secondEnd.Fine) :
    intervalsOverlapPositively firstStart firstEnd secondStart secondEnd = true ↔
      max firstStart.value secondStart.value < min firstEnd.value secondEnd.value := by
  have hltr : (if 0 ≤ compareExact firstStart secondStart then firstStart else secondStart).Fine := by
    split <;> assumption
  have hearl : (if compareExact firstEnd secondEnd ≤ 0 then firstEnd else secondEnd).Fine := by
    split <;> assumption
  unfold intervalsOverlapPositively
  rw [decide_eq_true_iff, compareExact_pos hearl hltr, later_value h₁ h₃, earlier_value h₂ h₄]

theorem rectanglesTouch_iff {first second : ExactWorkbenchRectangle} (hfst : first.Fine)
    (hsec : second.Fine) : rectanglesTouch first second = true ↔ first.region.Adjacent second.region := by
  unfold rectanglesTouch Rect.Adjacent Rect.Beside
  simp only [Bool.or_eq_true, Bool.and_eq_true, beq_iff_eq,
    compareExact_eq_zero hfst.right hsec.left, compareExact_eq_zero hsec.right hfst.left,
    compareExact_eq_zero hfst.bottom hsec.top, compareExact_eq_zero hsec.bottom hfst.top,
    intervalsOverlapPositively_iff hfst.top hfst.bottom hsec.top hsec.bottom,
    intervalsOverlapPositively_iff hfst.left hfst.right hsec.left hsec.right]
  exact Iff.rfl

/-! ### The rectangles of a tree -/

namespace WorkbenchNodeV1

theorem rects_names (node : WorkbenchNodeV1) (whole : Rect Rat) :
    (node.tree.rects whole).map Prod.fst = node.groupIds := by
  induction node generalizing whole with
  | group nodeId groupId => rfl
  | split nodeId direction ratio first second ihFirst ihSecond =>
    rw [tree, Tiling.Tree.rects, map_append, ihFirst, ihSecond]
    rfl

theorem tree_within {node : WorkbenchNodeV1} {low high : Rat} (hlow : 0 < low) (hhigh : high < 1)
    (h : node.RatiosWithin low high) : node.tree.Within := by
  induction node with
  | group nodeId groupId => exact trivial
  | split nodeId direction ratio first second ihFirst ihSecond =>
    obtain ⟨⟨hge, hle⟩, hfst, hsec⟩ := h
    exact ⟨⟨hlow.trans_le hge, hle.trans_lt hhigh⟩, ihFirst hfst, ihSecond hsec⟩

end WorkbenchNodeV1

/-- The rectangle of a group, once all are collected. -/
def rectangleOf (root : WorkbenchNodeV1) (groupId : String) : Option ExactWorkbenchRectangle :=
  (collectExactGroupRectangles root wholeRectangle ∅).bind fun rectangles => rectangles[groupId]?

theorem groupsAreWorkbenchAdjacent_eq (root : WorkbenchNodeV1) (firstId secondId : String) :
    groupsAreWorkbenchAdjacent root firstId secondId =
      some ((rectangleOf root firstId).elim false fun first =>
        (rectangleOf root secondId).elim false fun second => rectanglesTouch first second) := by
  obtain ⟨entries, hcoll, -, -⟩ := collectExactGroupRectangles_eq root wholeRectangle_fine ∅
  unfold groupsAreWorkbenchAdjacent rectangleOf
  rw [hcoll]
  simp only [Option.bind_eq_bind, Option.bind_some]
  cases (Table.addAll ∅ entries)[firstId]? with
  | none => rfl
  | some first => cases (Table.addAll ∅ entries)[secondId]? <;> rfl

/-- The groups tile the unit square, and neighbours are those that share a segment of their
boundaries. -/
structure ExactTiling (root : WorkbenchNodeV1) : Prop where
  assigned : ∀ groupId, groupId ∈ root.groupIds ↔ ∃ rectangle, rectangleOf root groupId = some rectangle
  positive : ∀ groupId rectangle, rectangleOf root groupId = some rectangle →
    rectangle.region.Proper ∧ 0 < rectangle.region.area
  inside : ∀ groupId rectangle, rectangleOf root groupId = some rectangle →
    rectangle.region.Sub unitSquare
  disjoint : ∀ first second rectangle other, first ≠ second →
    rectangleOf root first = some rectangle → rectangleOf root second = some other →
    rectangle.region.Apart other.region
  total : (root.groupIds.map fun groupId =>
    (rectangleOf root groupId).elim 0 fun rectangle => rectangle.region.area).sum = 1
  covered : ∀ x y, unitSquare.Contains x y → ∃ groupId rectangle,
    rectangleOf root groupId = some rectangle ∧ rectangle.region.Contains x y
  answered : ∀ first second, ∃ answer, groupsAreWorkbenchAdjacent root first second = some answer
  symmetric : ∀ first second,
    groupsAreWorkbenchAdjacent root first second = groupsAreWorkbenchAdjacent root second first
  irreflexive : ∀ groupId, groupsAreWorkbenchAdjacent root groupId groupId = some false
  touching : ∀ first second rectangle other, first ≠ second →
    rectangleOf root first = some rectangle → rectangleOf root second = some other →
    (groupsAreWorkbenchAdjacent root first second = some true ↔ rectangle.region.Shares other.region)
  neighbour : 2 ≤ root.groupIds.length → ∀ groupId ∈ root.groupIds, ∃ other ∈ root.groupIds,
    other ≠ groupId ∧ groupsAreWorkbenchAdjacent root groupId other = some true

/-- The groups of a tree with their rectangles. -/
structure Leaves (root : WorkbenchNodeV1) (entries : List (String × ExactWorkbenchRectangle)) : Prop where
  lookup : ∀ groupId rectangle,
    rectangleOf root groupId = some rectangle ↔ (groupId, rectangle) ∈ entries
  numbers : entries.map asNumbers = root.tree.rects unitSquare
  names : entries.map Prod.fst = root.groupIds
  fine : ∀ entry ∈ entries, entry.2.Fine

/-- Groups with names of their own keep the rectangles they are given. -/
theorem exists_leaves {root : WorkbenchNodeV1} (hids : root.groupIds.Nodup) :
    ∃ entries, Leaves root entries := by
  obtain ⟨entries, hcoll, htree, hfine⟩ := collectExactGroupRectangles_eq root wholeRectangle_fine ∅
  rw [wholeRectangle_region] at htree
  have hnms : entries.map Prod.fst = root.groupIds := by
    rw [← root.rects_names unitSquare, ← htree, map_map]
    rfl
  refine ⟨entries, ?_, htree, hnms, hfine⟩
  intro groupId rectangle
  unfold rectangleOf
  rw [hcoll, Option.bind_some, Table.lookup_addAll (hnms ▸ hids), Table.lookup_empty]
  refine ⟨fun h => h.resolve_right ?_, .inl⟩
  rintro ⟨-, hnone⟩
  exact absurd hnone (Option.some_ne_none _).symm

namespace Leaves

variable {root : WorkbenchNodeV1} {entries : List (String × ExactWorkbenchRectangle)}
  {first second : String} {rectangle other : ExactWorkbenchRectangle}

theorem mem_rects (h : Leaves root entries) (hfst : rectangleOf root first = some rectangle) :
    asNumbers (first, rectangle) ∈ root.tree.rects unitSquare := by
  rw [← h.numbers]
  exact mem_map_of_mem ((h.lookup _ _).mp hfst)

/-- Every leaf of the tree of cuts is the rectangle of a group. -/
theorem of_mem_rects (h : Leaves root entries) {named : String × Rect Rat}
    (hnamed : named ∈ root.tree.rects unitSquare) :
    ∃ rectangle, rectangleOf root named.1 = some rectangle ∧ named.2 = rectangle.region := by
  rw [← h.numbers, mem_map] at hnamed
  obtain ⟨entry, hent, rfl⟩ := hnamed
  exact ⟨entry.2, (h.lookup _ _).mpr hent, rfl⟩

theorem assigned (h : Leaves root entries) :
    first ∈ root.groupIds ↔ ∃ rectangle, rectangleOf root first = some rectangle := by
  rw [← h.names, mem_map]
  constructor
  · rintro ⟨entry, hent, rfl⟩
    exact ⟨entry.2, (h.lookup _ _).mpr hent⟩
  · rintro ⟨rectangle, hfnd⟩
    exact ⟨(first, rectangle), (h.lookup _ _).mp hfnd, rfl⟩

theorem proper (h : Leaves root entries) (hwthn : root.tree.Within)
    (hfst : rectangleOf root first = some rectangle) :
    rectangle.region.Proper ∧ rectangle.region.Sub unitSquare :=
  Tiling.Tree.rects_proper hwthn unitSquare_proper (h.mem_rects hfst)

theorem disjoint (h : Leaves root entries) (hwthn : root.tree.Within) (hne : first ≠ second)
    (hfst : rectangleOf root first = some rectangle) (hsec : rectangleOf root second = some other) :
    rectangle.region.Apart other.region := by
  have hsymm : Std.Symm fun entry other : String × Rect Rat => entry.2.Apart other.2 :=
    ⟨fun _ _ => Rect.Apart.symm⟩
  refine (Tiling.Tree.apart hwthn unitSquare_proper).forall (h.mem_rects hfst) (h.mem_rects hsec) ?_
  intro heq
  exact hne (congrArg Prod.fst heq)

theorem total (h : Leaves root entries) :
    (root.groupIds.map fun groupId =>
      (rectangleOf root groupId).elim 0 fun rectangle => rectangle.region.area).sum = 1 := by
  have hareas : root.groupIds.map (fun groupId =>
      (rectangleOf root groupId).elim 0 fun rectangle => rectangle.region.area) =
        (root.tree.rects unitSquare).map fun named => named.2.area := by
    rw [← h.names, ← h.numbers, map_map, map_map]
    refine map_congr_left ?_
    intro entry hent
    rw [Function.comp_apply, (h.lookup entry.1 entry.2).mpr hent]
    rfl
  rw [hareas, Tiling.Tree.sum_area, Rect.area, unitSquare]
  norm_num

theorem adjacent_iff (h : Leaves root entries) (hfst : rectangleOf root first = some rectangle)
    (hsec : rectangleOf root second = some other) :
    groupsAreWorkbenchAdjacent root first second = some true ↔ rectangle.region.Adjacent other.region := by
  rw [groupsAreWorkbenchAdjacent_eq, hfst, hsec, Option.some_inj]
  exact rectanglesTouch_iff (h.fine _ ((h.lookup _ _).mp hfst)) (h.fine _ ((h.lookup _ _).mp hsec))

theorem symmetric (h : Leaves root entries) (first second : String) :
    groupsAreWorkbenchAdjacent root first second = groupsAreWorkbenchAdjacent root second first := by
  rw [groupsAreWorkbenchAdjacent_eq, groupsAreWorkbenchAdjacent_eq]
  cases hfst : rectangleOf root first with
  | none => cases rectangleOf root second <;> rfl
  | some rectangle =>
    cases hsec : rectangleOf root second with
    | none => rfl
    | some other =>
      have hrect := h.fine _ ((h.lookup _ _).mp hfst)
      have hoth := h.fine _ ((h.lookup _ _).mp hsec)
      refine congrArg some (Bool.eq_iff_iff.mpr ?_)
      exact (rectanglesTouch_iff hrect hoth).trans
        (Rect.adjacent_comm.trans (rectanglesTouch_iff hoth hrect).symm)

theorem irreflexive (h : Leaves root entries) (hwthn : root.tree.Within) (groupId : String) :
    groupsAreWorkbenchAdjacent root groupId groupId = some false := by
  rw [groupsAreWorkbenchAdjacent_eq]
  cases hfnd : rectangleOf root groupId with
  | none => rfl
  | some rectangle =>
    have hself := h.fine _ ((h.lookup _ _).mp hfnd)
    refine congrArg some (Bool.eq_false_iff.mpr fun htouc => ?_)
    exact Rect.not_adjacent_self (h.proper hwthn hfnd).1
      ((rectanglesTouch_iff hself hself).mp htouc)

theorem neighbour (h : Leaves root entries) (hwthn : root.tree.Within)
    (hmore : 2 ≤ root.groupIds.length) (hgrp : first ∈ root.groupIds) :
    ∃ other ∈ root.groupIds, other ≠ first ∧ groupsAreWorkbenchAdjacent root first other = some true := by
  obtain ⟨rectangle, hfnd⟩ := h.assigned.mp hgrp
  have hlen : 1 < (root.tree.rects unitSquare).length := by
    rw [← root.rects_names unitSquare, length_map] at hmore
    exact hmore
  obtain ⟨named, hnamed, hnext⟩ :=
    Tiling.Tree.exists_adjacent hwthn unitSquare_proper (h.mem_rects hfnd) hlen
  obtain ⟨other, hoth, hrgn⟩ := h.of_mem_rects hnamed
  rw [hrgn] at hnext
  refine ⟨named.1, h.assigned.mpr ⟨_, hoth⟩, ?_, (h.adjacent_iff hfnd hoth).mpr hnext⟩
  intro heq
  rw [heq, hfnd, Option.some_inj] at hoth
  exact Rect.not_adjacent_self (h.proper hwthn hfnd).1 (hoth ▸ hnext)

end Leaves

/-- The groups of a tree of splits with ratios between one and nine tenths tile the unit square. -/
theorem exact_tiling {root : WorkbenchNodeV1} (hids : root.groupIds.Nodup)
    (hratios : root.RatiosWithin (1 / 10) (9 / 10)) : ExactTiling root := by
  obtain ⟨entries, h⟩ := exists_leaves hids
  have hwthn : root.tree.Within := WorkbenchNodeV1.tree_within (by norm_num) (by norm_num) hratios
  refine { assigned := fun _ => h.assigned, positive := ?_,
           inside := fun _ _ hfnd => (h.proper hwthn hfnd).2,
           disjoint := fun _ _ _ _ => h.disjoint hwthn, total := h.total, covered := ?_,
           answered := fun first second => ⟨_, groupsAreWorkbenchAdjacent_eq root first second⟩,
           symmetric := h.symmetric, irreflexive := h.irreflexive hwthn, touching := ?_,
           neighbour := fun hmore _ => h.neighbour hwthn hmore }
  · intro groupId rectangle hfnd
    have hprop := (h.proper hwthn hfnd).1
    exact ⟨hprop, Rect.area_pos hprop⟩
  · intro x y hxy
    obtain ⟨named, hnamed, hcts⟩ := root.tree.cover hxy
    obtain ⟨rectangle, hfnd, hrgn⟩ := h.of_mem_rects hnamed
    exact ⟨named.1, rectangle, hfnd, hrgn ▸ hcts⟩
  · intro first second rectangle other hne hfst hsec
    rw [h.adjacent_iff hfst hsec]
    exact Rect.adjacent_iff_shares (h.proper hwthn hfst).1 (h.proper hwthn hsec).1
      (h.disjoint hwthn hne hfst hsec)

/-- One group above two others that stand side by side. -/
def sampleRoot : WorkbenchNodeV1 :=
  .split "split-1" .vertical { negative := false, lead := 1, rest := [], point := 0 } (.group "node-1" "top")
    (.split "split-2" .horizontal { negative := false, lead := 3, rest := [7, 5], point := 0 }
      (.group "node-2" "left") (.group "node-3" "right"))

theorem sampleRoot_ratios : sampleRoot.RatiosWithin (1 / 10) (9 / 10) := by
  have hvl : ∀ lead rest n, Decimal.ofDigits (List.map (fun d => Nat.digitChar d.val) (lead :: rest)) = n →
      Decimal.Number.value { negative := false, lead, rest, point := 0 } =
        n * (10 : Rat) ^ (0 - (rest.length + 1 : Int)) := by
    rintro lead rest n rfl
    rw [Decimal.Number.value, Decimal.signed, if_neg Bool.false_ne_true, Decimal.Number.digits,
      length_map, length_cons, Nat.cast_add, Nat.cast_one]
  unfold sampleRoot
  simp only [WorkbenchNodeV1.RatiosWithin, hvl 1 [] 1 (by decide), hvl 3 [7, 5] 375 (by decide)]
  norm_num

theorem sampleRoot_tiling : ExactTiling sampleRoot := exact_tiling (by decide) sampleRoot_ratios

end Wardian.WorkbenchModel
