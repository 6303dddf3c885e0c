/-
Versions of one thing, each replaced by the next.

A lineage is numbered from one, every version but the last is linked to the one that replaced it,
and only the last one can be open.  Replacing the open version and closing it are the only ways to
go on.

Main results:

* `Lineage.first`, `Lineage.replace`, `Lineage.close` — how a lineage comes about;
* `Lineage.eq_concat` — an open version is the last one.
-/

import Wardian.Lib.Numbered
import Mathlib.Data.List.Chain

set_option autoImplicit false

/-- The versions are numbered from one, each is linked to the next, and the last one may be last. -/
structure Lineage {α : Type} (number : α → Nat) (Link : α → α → Prop) (Last : α → Prop)
    (versions : List α) : Prop where
  numbered : Numbered number 1 versions
  linked : versions.IsChain Link
  last : ∀ version ∈ versions.getLast?, Last version

namespace Lineage

open List

variable {α : Type} {number : α → Nat} {Link : α → α → Prop} {Last : α → Prop}
  {earlier versions : List α} {version version' next : α}

theorem nil : Lineage number Link Last [] := ⟨.nil _ _, .nil, by simp⟩

theorem first (hnum : number version = 1) (hlast : Last version) : Lineage number Link Last [version] :=
  ⟨by simp [Numbered, hnum], isChain_singleton _, by simpa using hlast⟩

theorem eq_concat (h : Lineage number Link Last versions) (hmem : version ∈ versions)
    (hopen : ∀ other, ¬Link version other) : ∃ earlier, versions = earlier ++ [version] := by
  obtain ⟨earlier, later, rfl⟩ := append_of_mem hmem
  cases later with
  | nil => exact ⟨earlier, rfl⟩
  | cons other later =>
    have hlink := (isChain_append.1 h.linked).2.1
    exact absurd (isChain_cons_cons.1 hlink).1 (hopen other)

theorem number_last (h : Lineage number Link Last (earlier ++ [version])) :
    number version = earlier.length + 1 := by
  have hnum := (Numbered.cons_iff.1 (Numbered.append_iff.1 h.numbered).2).1
  omega

/-- What may stand before the last version does not depend on what happens to it. -/
theorem linked_concat (h : Lineage number Link Last (earlier ++ [version]))
    (hlink : ∀ other, Link other version → Link other version') : (earlier ++ [version']).IsChain Link := by
  obtain ⟨hearl, -, hjoin⟩ := isChain_append.1 h.linked
  refine isChain_append.2 ⟨hearl, isChain_singleton _, ?_⟩
  intro other hoth next hnext
  have hsame : next = version' := by simpa using hnext.symm
  rw [hsame]
  exact hlink other (hjoin other hoth version (by simp))

/-- The last version is closed, or changed in another way that keeps its number. -/
theorem close (h : Lineage number Link Last (earlier ++ [version]))
    (hnum : number version' = number version) (hlink : ∀ other, Link other version → Link other version')
    (hlast : Last version') : Lineage number Link Last (earlier ++ [version']) := by
  refine ⟨?_, h.linked_concat hlink, by simpa using hlast⟩
  obtain ⟨hearl, -⟩ := Numbered.append_iff.1 h.numbered
  refine hearl.concat ?_
  rw [hnum, h.number_last, Nat.add_comm]

theorem replace (h : Lineage number Link Last (earlier ++ [version]))
    (hnum : number version' = number version) (hlink : ∀ other, Link other version → Link other version')
    (hrepl : Link version' next) (hnext : number next = number version + 1) (hlast : Last next) :
    Lineage number Link Last (earlier ++ [version', next]) := by
  obtain ⟨hearl, -⟩ := Numbered.append_iff.1 h.numbered
  have hnumd : Numbered number 1 (earlier ++ [version']) := by
    refine hearl.concat ?_
    rw [hnum, h.number_last, Nat.add_comm]
  have hspl : earlier ++ [version', next] = (earlier ++ [version']) ++ [next] := by simp
  rw [hspl]
  refine ⟨hnumd.concat ?_, ?_, by simpa using hlast⟩
  · rw [hnext, h.number_last, length_append, length_singleton]
    omega
  · refine isChain_append.2 ⟨h.linked_concat hlink, isChain_singleton _, ?_⟩
    intro other hoth after haft
    have hoth' : other = version' := by simpa using hoth.symm
    have haft' : after = next := by simpa using haft.symm
    rw [hoth', haft']
    exact hrepl

end Lineage
