/-
Rectangles that are cut into smaller ones.

A tree of cuts divides a rectangle: every inner node cuts its rectangle in two, at a ratio between zero
and one, and every leaf has what is left for it.  The rectangles of the leaves tile the whole, and each
one that is not alone has a neighbour along an edge.

Main results:

* `Tiling.Rect.adjacent_iff_shares` — rectangles that do not overlap are adjacent exactly when they share
  a segment;
* `Tiling.Tree.apart`, `Tiling.Tree.sum_area`, `Tiling.Tree.cover` — the leaves tile the rectangle;
* `Tiling.Tree.exists_adjacent` — a leaf that is not alone has a neighbour.
-/

import Mathlib.Algebra.Order.Field.Basic
import Mathlib.Tactic.Linarith
import Mathlib.Tactic.Ring

set_option autoImplicit false

namespace Tiling

open List

/-- A rectangle, whose vertical axis points down. -/
structure Rect (K : Type) where
  left : K
  top : K
  right : K
  bottom : K

namespace Rect

section

variable {K : Type} [LinearOrder K] (r s t : Rect K)

/-- The rectangle has a positive area. -/
def Proper : Prop := r.left < r.right ∧ r.top < r.bottom

def Contains (x y : K) : Prop := (r.left ≤ x ∧ x ≤ r.right) ∧ r.top ≤ y ∧ y ≤ r.bottom

def Interior (x y : K) : Prop := (r.left < x ∧ x < r.right) ∧ r.top < y ∧ y < r.bottom

def Boundary (x y : K) : Prop := r.Contains x y ∧ ¬ r.Interior x y

/-- The interiors of the two have no point in common. -/
def Apart : Prop := ∀ x y, ¬ (r.Interior x y ∧ s.Interior x y)

def Sub : Prop := s.left ≤ r.left ∧ s.top ≤ r.top ∧ r.right ≤ s.right ∧ r.bottom ≤ s.bottom

/-- The axes exchanged. -/
def flip : Rect K := { left := r.top, top := r.left, right := r.bottom, bottom := r.right }

/-- The two boundaries have a vertical segment of positive length in common. -/
def SharesVertical : Prop :=
  ∃ x y₁ y₂, y₁ < y₂ ∧ ∀ y, y₁ ≤ y → y ≤ y₂ → r.Boundary x y ∧ s.Boundary x y

/-- The two boundaries have a horizontal segment of positive length in common. -/
def SharesHorizontal : Prop :=
  ∃ y x₁ x₂, x₁ < x₂ ∧ ∀ x, x₁ ≤ x → x ≤ x₂ → r.Boundary x y ∧ s.Boundary x y

def Shares : Prop := r.SharesVertical s ∨ r.SharesHorizontal s

/-- One begins where the other ends, from left to right, and they overlap from top to bottom. -/
def Beside : Prop :=
  (r.right = s.left ∨ s.right = r.left) ∧ max r.top s.top < min r.bottom s.bottom

def Adjacent : Prop := r.Beside s ∨ r.flip.Beside s.flip

variable {r s t}

theorem Sub.refl : r.Sub r := ⟨le_refl _, le_refl _, le_refl _, le_refl _⟩

theorem Sub.trans (h : r.Sub s) (h' : s.Sub t) : r.Sub t :=
  ⟨h'.1.trans h.1, h'.2.1.trans h.2.1, h.2.2.1.trans h'.2.2.1, h.2.2.2.trans h'.2.2.2⟩

variable {x y : K}

theorem Sub.interior (h : r.Sub s) (hxy : r.Interior x y) : s.Interior x y :=
  ⟨⟨h.1.trans_lt hxy.1.1, hxy.1.2.trans_le h.2.2.1⟩, h.2.1.trans_lt hxy.2.1,
    hxy.2.2.trans_le h.2.2.2⟩

theorem Apart.symm (h : r.Apart s) : s.Apart r := by
  rintro x y ⟨hs, hr⟩
  exact h x y ⟨hr, hs⟩

theorem Apart.mono {r' s' : Rect K} (h : r.Apart s) (hr : r'.Sub r) (hs : s'.Sub s) : r'.Apart s' := by
  rintro x y ⟨hx, hy⟩
  exact h x y ⟨hr.interior hx, hs.interior hy⟩

theorem flip_proper (h : r.Proper) : r.flip.Proper := ⟨h.2, h.1⟩

theorem flip_interior : r.flip.Interior x y ↔ r.Interior y x := and_comm

theorem flip_boundary : r.flip.Boundary x y ↔ r.Boundary y x :=
  and_congr and_comm (not_congr flip_interior)

theorem flip_apart (h : r.Apart s) : r.flip.Apart s.flip := by
  rintro x y ⟨hr, hs⟩
  exact h y x ⟨flip_interior.mp hr, flip_interior.mp hs⟩

theorem flip_sharesVertical : r.flip.SharesVertical s.flip ↔ r.SharesHorizontal s := by
  unfold SharesVertical SharesHorizontal
  simp only [flip_boundary]

theorem Beside.symm (h : r.Beside s) : s.Beside r := by
  refine ⟨h.1.symm, ?_⟩
  rw [max_comm, min_comm]
  exact h.2

theorem adjacent_comm : r.Adjacent s ↔ s.Adjacent r :=
  ⟨Or.imp Beside.symm Beside.symm, Or.imp Beside.symm Beside.symm⟩

theorem not_beside_self (h : r.Proper) : ¬ r.Beside r := by
  rintro ⟨heq | heq, -⟩ <;> exact absurd heq h.1.ne'

theorem not_adjacent_self (h : r.Proper) : ¬ r.Adjacent r := by
  rintro (hbeside | hbeside)
  · exact not_beside_self h hbeside
  · exact not_beside_self (flip_proper h) hbeside

theorem beside_of_edge (hs : s.Proper) (hedge : r.right = s.left ∨ s.right = r.left)
    (htop : r.top ≤ s.top) (hbottom : s.bottom ≤ r.bottom) : r.Beside s := by
  refine ⟨hedge, ?_⟩
  rw [max_eq_right htop, min_eq_right hbottom]
  exact hs.2

/-! ### Adjacent rectangles share a segment -/

theorem sharesVertical_of_beside_aux (hr : r.Proper) (hs : s.Proper) (hedge : r.right = s.left)
    (hovl : max r.top s.top < min r.bottom s.bottom) : r.SharesVertical s := by
  refine ⟨r.right, max r.top s.top, min r.bottom s.bottom, hovl, ?_⟩
  intro y hlow hhigh
  have hlow' := max_le_iff.mp hlow
  have hhigh' := le_min_iff.mp hhigh
  refine ⟨⟨⟨⟨hr.1.le, le_refl _⟩, hlow'.1, hhigh'.1⟩, ?_⟩,
    ⟨⟨hedge.symm.le, ?_⟩, hlow'.2, hhigh'.2⟩, ?_⟩
  · intro hinte
    exact lt_irrefl _ hinte.1.2
  · rw [hedge]
    exact hs.1.le
  · intro hinte
    rw [hedge] at hinte
    exact lt_irrefl _ hinte.1.1

theorem SharesVertical.symm (h : r.SharesVertical s) : s.SharesVertical r := by
  obtain ⟨x, y₁, y₂, hlt, hboth⟩ := h
  exact ⟨x, y₁, y₂, hlt, fun y hlow hhigh => (hboth y hlow hhigh).symm⟩

theorem sharesVertical_of_beside (hr : r.Proper) (hs : s.Proper) (h : r.Beside s) : r.SharesVertical s := by
  obtain ⟨hedge | hedge, hovl⟩ := h
  · exact sharesVertical_of_beside_aux hr hs hedge hovl
  · rw [max_comm, min_comm] at hovl
    exact (sharesVertical_of_beside_aux hs hr hedge hovl).symm

variable [DenselyOrdered K]

/-- A vertical segment of the boundary is in one of the two vertical edges. -/
theorem edge_of_segment {y₁ y₂ : K} (hlt : y₁ < y₂) (h : ∀ y, y₁ ≤ y → y ≤ y₂ → r.Boundary x y) :
    (x = r.left ∨ x = r.right) ∧ r.top ≤ y₁ ∧ y₂ ≤ r.bottom := by
  have hlow := (h y₁ (le_refl _) hlt.le).1
  have hhigh := (h y₂ hlt.le (le_refl _)).1
  refine ⟨?_, hlow.2.1, hhigh.2.2⟩
  obtain ⟨y, hy₁, hy₂⟩ := exists_between hlt
  by_contra hneit
  rw [not_or] at hneit
  refine (h y hy₁.le hy₂.le).2 ⟨⟨?_, ?_⟩, ?_, ?_⟩
  · exact lt_of_le_of_ne hlow.1.1 (Ne.symm hneit.1)
  · exact lt_of_le_of_ne hlow.1.2 hneit.2
  · exact hlow.2.1.trans_lt hy₁
  · exact hy₂.trans_le hhigh.2.2

/-- Rectangles that do not overlap do not lie on the same side of a segment. -/
theorem not_same_left (hr : r.Proper) (hs : s.Proper) (hapart : r.Apart s) (hleft : r.left = s.left)
    (hovl : max r.top s.top < min r.bottom s.bottom) : False := by
  have hwidth : r.left < min r.right s.right := lt_min hr.1 (hleft ▸ hs.1)
  obtain ⟨x, hx₁, hx₂⟩ := exists_between hwidth
  obtain ⟨y, hy₁, hy₂⟩ := exists_between hovl
  have hx := lt_min_iff.mp hx₂
  have htop := max_lt_iff.mp hy₁
  have hbottom := lt_min_iff.mp hy₂
  exact hapart x y ⟨⟨⟨hx₁, hx.1⟩, htop.1, hbottom.1⟩, ⟨hleft ▸ hx₁, hx.2⟩, htop.2, hbottom.2⟩

theorem not_same_right (hr : r.Proper) (hs : s.Proper) (hapart : r.Apart s)
    (hrt : r.right = s.right) (hovl : max r.top s.top < min r.bottom s.bottom) : False := by
  have hwidth : max r.left s.left < r.right := max_lt hr.1 (hrt ▸ hs.1)
  obtain ⟨x, hx₁, hx₂⟩ := exists_between hwidth
  obtain ⟨y, hy₁, hy₂⟩ := exists_between hovl
  have hx := max_lt_iff.mp hx₁
  have htop := max_lt_iff.mp hy₁
  have hbottom := lt_min_iff.mp hy₂
  exact hapart x y ⟨⟨⟨hx.1, hx₂⟩, htop.1, hbottom.1⟩, ⟨hx.2, hrt ▸ hx₂⟩, htop.2, hbottom.2⟩

theorem beside_of_sharesVertical (hr : r.Proper) (hs : s.Proper) (hapart : r.Apart s)
    (h : r.SharesVertical s) : r.Beside s := by
  obtain ⟨x, y₁, y₂, hlt, hboth⟩ := h
  obtain ⟨hr', htopr, hbott⟩ := edge_of_segment hlt fun y hlow hhigh => (hboth y hlow hhigh).1
  obtain ⟨hs', htops, hbotto⟩ := edge_of_segment hlt fun y hlow hhigh => (hboth y hlow hhigh).2
  have hovl : max r.top s.top < min r.bottom s.bottom :=
    (max_le htopr htops).trans_lt (hlt.trans_le (le_min hbott hbotto))
  refine ⟨?_, hovl⟩
  rcases hr' with rfl | rfl <;> rcases hs' with hsame | hsame
  · exact (not_same_left hr hs hapart hsame hovl).elim
  · exact .inr hsame.symm
  · exact .inl hsame
  · exact (not_same_right hr hs hapart hsame hovl).elim

theorem adjacent_iff_shares (hr : r.Proper) (hs : s.Proper) (hapart : r.Apart s) :
    r.Adjacent s ↔ r.Shares s := by
  unfold Adjacent Shares
  rw [← flip_sharesVertical]
  constructor
  · exact Or.imp (sharesVertical_of_beside hr hs)
      (sharesVertical_of_beside (flip_proper hr) (flip_proper hs))
  · exact Or.imp (beside_of_sharesVertical hr hs hapart)
      (beside_of_sharesVertical (flip_proper hr) (flip_proper hs) (flip_apart hapart))

end

end Rect

/-! ### Cuts -/

/-- A cut side by side, or one above the other. -/
inductive Direction
  | horizontal
  | vertical

section

variable {K : Type} [Field K]

/-- The place of a cut between two ends. -/
def boundary (start stop ratio : K) : K := start + (stop - start) * ratio

namespace Rect

def area (r : Rect K) : K := (r.right - r.left) * (r.bottom - r.top)

/-- Where the rectangle begins along a direction. -/
def start (r : Rect K) : Direction → K
  | .horizontal => r.left
  | .vertical => r.top

def stop (r : Rect K) : Direction → K
  | .horizontal => r.right
  | .vertical => r.bottom

/-- The part before the cut. -/
def first (r : Rect K) (ratio : K) : Direction → Rect K
  | .horizontal => { r with right := boundary r.left r.right ratio }
  | .vertical => { r with bottom := boundary r.top r.bottom ratio }

/-- The part after the cut. -/
def second (r : Rect K) (ratio : K) : Direction → Rect K
  | .horizontal => { r with left := boundary r.left r.right ratio }
  | .vertical => { r with top := boundary r.top r.bottom ratio }

theorem first_start (r : Rect K) (ratio : K) (direction side : Direction) :
    (r.first ratio direction).start side = r.start side := by
  cases direction <;> cases side <;> rfl

theorem second_stop (r : Rect K) (ratio : K) (direction side : Direction) :
    (r.second ratio direction).stop side = r.stop side := by
  cases direction <;> cases side <;> rfl

theorem first_stop_eq_second_start (r : Rect K) (ratio : K) (direction : Direction) :
    (r.first ratio direction).stop direction = (r.second ratio direction).start direction := by
  cases direction <;> rfl

theorem area_first_add_second (r : Rect K) (ratio : K) (direction : Direction) :
    (r.first ratio direction).area + (r.second ratio direction).area = r.area := by
  cases direction <;> simp only [area, first, second] <;> ring

end Rect

variable [LinearOrder K]

namespace Rect

variable {r s : Rect K} {ratio : K}

theorem first_apart_second (r : Rect K) (ratio : K) (direction : Direction) :
    (r.first ratio direction).Apart (r.second ratio direction) := by
  rintro x y ⟨hfst, hsec⟩
  cases direction with
  | horizontal => exact lt_asymm hfst.1.2 hsec.1.1
  | vertical => exact lt_asymm hfst.2.2 hsec.2.1

theorem contains_first_or_second {x y : K} (hxy : r.Contains x y) (ratio : K) (direction : Direction) :
    (r.first ratio direction).Contains x y ∨ (r.second ratio direction).Contains x y := by
  obtain ⟨hx, hy⟩ := hxy
  cases direction with
  | horizontal =>
    rcases le_total x (boundary r.left r.right ratio) with hle | hle
    · exact .inl ⟨⟨hx.1, hle⟩, hy⟩
    · exact .inr ⟨⟨hle, hx.2⟩, hy⟩
  | vertical =>
    rcases le_total y (boundary r.top r.bottom ratio) with hle | hle
    · exact .inl ⟨hx, hy.1, hle⟩
    · exact .inr ⟨hx, hle, hy.2⟩

variable {direction : Direction}

/-- The part before a cut is next to all that touches the cut from behind. -/
theorem first_adjacent (hs : s.Proper) (hsub : s.Sub (r.second ratio direction))
    (hstart : s.start direction = (r.second ratio direction).start direction) :
    (r.first ratio direction).Adjacent s := by
  have hedge := (first_stop_eq_second_start r ratio direction).trans hstart.symm
  cases direction with
  | horizontal => exact .inl (beside_of_edge hs (.inl hedge) hsub.2.1 hsub.2.2.2)
  | vertical => exact .inr (beside_of_edge (flip_proper hs) (.inl hedge) hsub.1 hsub.2.2.1)

theorem second_adjacent (hs : s.Proper) (hsub : s.Sub (r.first ratio direction))
    (hstop : s.stop direction = (r.first ratio direction).stop direction) :
    (r.second ratio direction).Adjacent s := by
  have hedge := hstop.trans (first_stop_eq_second_start r ratio direction)
  cases direction with
  | horizontal => exact .inl (beside_of_edge hs (.inr hedge) hsub.2.1 hsub.2.2.2)
  | vertical => exact .inr (beside_of_edge (flip_proper hs) (.inr hedge) hsub.1 hsub.2.2.1)

end Rect

variable [IsStrictOrderedRing K]

theorem lt_boundary {start stop ratio : K} (hlt : start < stop) (hratio : 0 < ratio) :
    start < boundary start stop ratio := by
  have hpos := mul_pos (sub_pos.mpr hlt) hratio
  unfold boundary
  linarith

theorem boundary_lt {start stop ratio : K} (hlt : start < stop) (hratio : ratio < 1) :
    boundary start stop ratio < stop := by
  have hpos := mul_pos (sub_pos.mpr hlt) (sub_pos.mpr hratio)
  have hexpand : (stop - start) * (1 - ratio) = stop - boundary start stop ratio := by
    unfold boundary
    ring
  rw [hexpand] at hpos
  exact sub_pos.mp hpos

namespace Rect

variable {r s : Rect K} {ratio : K}

theorem area_pos (h : r.Proper) : 0 < r.area := mul_pos (sub_pos.mpr h.1) (sub_pos.mpr h.2)

theorem first_proper (h : r.Proper) (hpos : 0 < ratio) (direction : Direction) :
    (r.first ratio direction).Proper := by
  cases direction with
  | horizontal => exact ⟨lt_boundary h.1 hpos, h.2⟩
  | vertical => exact ⟨h.1, lt_boundary h.2 hpos⟩

theorem second_proper (h : r.Proper) (hone : ratio < 1) (direction : Direction) :
    (r.second ratio direction).Proper := by
  cases direction with
  | horizontal => exact ⟨boundary_lt h.1 hone, h.2⟩
  | vertical => exact ⟨h.1, boundary_lt h.2 hone⟩

theorem first_sub (h : r.Proper) (hone : ratio < 1) (direction : Direction) :
    (r.first ratio direction).Sub r := by
  cases direction with
  | horizontal => exact ⟨le_refl _, le_refl _, (boundary_lt h.1 hone).le, le_refl _⟩
  | vertical => exact ⟨le_refl _, le_refl _, le_refl _, (boundary_lt h.2 hone).le⟩

theorem second_sub (h : r.Proper) (hpos : 0 < ratio) (direction : Direction) :
    (r.second ratio direction).Sub r := by
  cases direction with
  | horizontal => exact ⟨(lt_boundary h.1 hpos).le, le_refl _, le_refl _, le_refl _⟩
  | vertical => exact ⟨le_refl _, (lt_boundary h.2 hpos).le, le_refl _, le_refl _⟩

end Rect

end

/-! ### Trees of cuts -/

/-- A rectangle that is cut in two again and again; the leaves have names. -/
inductive Tree (K α : Type)
  | leaf (name : α)
  | split (direction : Direction) (ratio : K) (first second : Tree K α)

namespace Tree

variable {K α : Type} [Field K]

/-- The leaves with their rectangles, from the first to the last. -/
def rects : Tree K α → Rect K → List (α × Rect K)
  | leaf name, whole => [(name, whole)]
  | split direction ratio first second, whole =>
    first.rects (whole.first ratio direction) ++ second.rects (whole.second ratio direction)

theorem sum_area (tree : Tree K α) (whole : Rect K) :
    ((tree.rects whole).map fun entry => entry.2.area).sum = whole.area := by
  induction tree generalizing whole with
  | leaf name => exact add_zero _
  | split direction ratio first second ihFirst ihSecond =>
    rw [rects, map_append, sum_append, ihFirst, ihSecond]
    exact Rect.area_first_add_second whole ratio direction

theorem exists_start (tree : Tree K α) (whole : Rect K) (side : Direction) :
    ∃ entry ∈ tree.rects whole, entry.2.start side = whole.start side := by
  induction tree generalizing whole with
  | leaf name => exact ⟨(name, whole), mem_singleton_self _, rfl⟩
  | split direction ratio first second ihFirst ihSecond =>
    obtain ⟨entry, hmem, hent⟩ := ihFirst (whole.first ratio direction)
    exact ⟨entry, mem_append_left _ hmem, hent.trans (Rect.first_start whole ratio direction side)⟩

theorem exists_stop (tree : Tree K α) (whole : Rect K) (side : Direction) :
    ∃ entry ∈ tree.rects whole, entry.2.stop side = whole.stop side := by
  induction tree generalizing whole with
  | leaf name => exact ⟨(name, whole), mem_singleton_self _, rfl⟩
  | split direction ratio first second ihFirst ihSecond =>
    obtain ⟨entry, hmem, hent⟩ := ihSecond (whole.second ratio direction)
    exact ⟨entry, mem_append_right _ hmem, hent.trans (Rect.second_stop whole ratio direction side)⟩

theorem length_pos (tree : Tree K α) (whole : Rect K) : 0 < (tree.rects whole).length := by
  induction tree generalizing whole with
  | leaf name => exact Nat.one_pos
  | split direction ratio first second ihFirst ihSecond =>
    rw [rects, length_append]
    exact Nat.add_pos_left (ihFirst _) _

variable {tree : Tree K α} {whole : Rect K} {entry : α × Rect K}

theorem alone (hmem : entry ∈ tree.rects whole) (hlen : (tree.rects whole).length ≤ 1) : entry.2 = whole := by
  cases tree with
  | leaf name =>
    rw [rects, mem_singleton] at hmem
    rw [hmem]
  | split direction ratio first second =>
    have hfst := length_pos first (whole.first ratio direction)
    have hsec := length_pos second (whole.second ratio direction)
    rw [rects, length_append] at hlen
    omega

variable [LinearOrder K]

theorem cover (tree : Tree K α) {x y : K} (hxy : whole.Contains x y) :
    ∃ entry ∈ tree.rects whole, entry.2.Contains x y := by
  induction tree generalizing whole with
  | leaf name => exact ⟨(name, whole), mem_singleton_self _, hxy⟩
  | split direction ratio first second ihFirst ihSecond =>
    rcases Rect.contains_first_or_second hxy ratio direction with hin | hin
    · obtain ⟨entry, hmem, hent⟩ := ihFirst hin
      exact ⟨entry, mem_append_left _ hmem, hent⟩
    · obtain ⟨entry, hmem, hent⟩ := ihSecond hin
      exact ⟨entry, mem_append_right _ hmem, hent⟩

/-- Every cut is strictly inside of its rectangle. -/
def Within : Tree K α → Prop
  | leaf _ => True
  | split _ ratio first second => (0 < ratio ∧ ratio < 1) ∧ first.Within ∧ second.Within

variable [IsStrictOrderedRing K]

theorem rects_proper (h : tree.Within) (hwhl : whole.Proper) (hmem : entry ∈ tree.rects whole) :
    entry.2.Proper ∧ entry.2.Sub whole := by
  induction tree generalizing whole with
  | leaf name =>
    rw [rects, mem_singleton] at hmem
    rw [hmem]
    exact ⟨hwhl, Rect.Sub.refl⟩
  | split direction ratio first second ihFirst ihSecond =>
    obtain ⟨⟨hpos, hone⟩, hfst, hsec⟩ := h
    rw [rects, mem_append] at hmem
    rcases hmem with hmem | hmem
    · obtain ⟨hprop, hsub⟩ := ihFirst hfst (Rect.first_proper hwhl hpos direction) hmem
      exact ⟨hprop, hsub.trans (Rect.first_sub hwhl hone direction)⟩
    · obtain ⟨hprop, hsub⟩ := ihSecond hsec (Rect.second_proper hwhl hone direction) hmem
      exact ⟨hprop, hsub.trans (Rect.second_sub hwhl hpos direction)⟩

theorem apart (h : tree.Within) (hwhl : whole.Proper) :
    (tree.rects whole).Pairwise fun entry other => entry.2.Apart other.2 := by
  induction tree generalizing whole with
  | leaf name => exact pairwise_singleton _ _
  | split direction ratio first second ihFirst ihSecond =>
    obtain ⟨⟨hpos, hone⟩, hfst, hsec⟩ := h
    have hwholeFirst := Rect.first_proper hwhl hpos direction
    have hwholeSecond := Rect.second_proper hwhl hone direction
    rw [rects, pairwise_append]
    refine ⟨ihFirst hfst hwholeFirst, ihSecond hsec hwholeSecond, ?_⟩
    intro entry hent other hoth
    exact (Rect.first_apart_second whole ratio direction).mono
      (rects_proper hfst hwholeFirst hent).2 (rects_proper hsec hwholeSecond hoth).2

theorem exists_adjacent (h : tree.Within) (hwhl : whole.Proper) (hmem : entry ∈ tree.rects whole)
    (hmore : 1 < (tree.rects whole).length) : ∃ other ∈ tree.rects whole, entry.2.Adjacent other.2 := by
  induction tree generalizing whole with
  | leaf name => exact absurd hmore (lt_irrefl _)
  | split direction ratio first second ihFirst ihSecond =>
    obtain ⟨⟨hpos, hone⟩, hfst, hsec⟩ := h
    have hwholeFirst := Rect.first_proper hwhl hpos direction
    have hwholeSecond := Rect.second_proper hwhl hone direction
    rw [rects, mem_append] at hmem
    rcases hmem with hmem | hmem
    · -- alone before the cut, it is next to what touches the cut from behind
      rcases Nat.lt_or_ge 1 (first.rects (whole.first ratio direction)).length with hlen | hlen
      · obtain ⟨other, hoth, hadja⟩ := ihFirst hfst hwholeFirst hmem hlen
        exact ⟨other, mem_append_left _ hoth, hadja⟩
      · obtain ⟨other, hoth, hstart⟩ := exists_start second (whole.second ratio direction) direction
        have hprop := rects_proper hsec hwholeSecond hoth
        have halone : entry.2 = whole.first ratio direction := alone hmem hlen
        refine ⟨other, mem_append_right _ hoth, ?_⟩
        rw [halone]
        exact Rect.first_adjacent hprop.1 hprop.2 hstart
    · rcases Nat.lt_or_ge 1 (second.rects (whole.second ratio direction)).length with hlen | hlen
      · obtain ⟨other, hoth, hadja⟩ := ihSecond hsec hwholeSecond hmem hlen
        exact ⟨other, mem_append_right _ hoth, hadja⟩
      · obtain ⟨other, hoth, hstop⟩ := exists_stop first (whole.first ratio direction) direction
        have hprop := rects_proper hfst hwholeFirst hoth
        have halone : entry.2 = whole.second ratio direction := alone hmem hlen
        refine ⟨other, mem_append_left _ hoth, ?_⟩
        rw [halone]
        exact Rect.second_adjacent hprop.1 hprop.2 hstop

end Tree

end Tiling
