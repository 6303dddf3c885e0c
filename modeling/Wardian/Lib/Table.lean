/-
Finite tables with string keys.

A table is an extensional search tree: two tables with the same entries are equal, its entries come
in the order of the keys, and every operation computes.  The lemmas state the lookups with a plain
equation between keys.

Main results:

* `Table.lookup_insert`, `Table.lookup_erase` — what a lookup finds after a change;
* `Table.mem_toList` — the entries of a table;
* `Table.lookup_addAll` — the entries of a table that is filled one by one.
-/

import Mathlib.Algebra.Order.Ring.Int
import Mathlib.Data.Finset.Basic

set_option autoImplicit false

/-- A finite table with string keys. -/
abbrev Table (β : Type) : Type := Std.ExtTreeMap String β compare

namespace Table

open List

variable {β : Type}

theorem lookup_empty (a : String) : (∅ : Table β)[a]? = none := by simp

theorem lookup_insert (m : Table β) (k a : String) (v : β) :
    (m.insert k v)[a]? = if k = a then some v else m[a]? := by
  rw [Std.ExtTreeMap.getElem?_insert]
  simp only [Std.LawfulEqCmp.compare_eq_iff_eq]

theorem lookup_erase (m : Table β) (k a : String) : (m.erase k)[a]? = if k = a then none else m[a]? := by
  rw [Std.ExtTreeMap.getElem?_erase]
  simp only [Std.LawfulEqCmp.compare_eq_iff_eq]

theorem mem_toList {m : Table β} {k : String} {v : β} : (k, v) ∈ m.toList ↔ m[k]? = some v :=
  Std.ExtTreeMap.mem_toList_iff_getElem?_eq_some

/-- Entries added one after the other. -/
def addAll (m : Table β) (entries : List (String × β)) : Table β :=
  entries.foldl (fun found entry => found.insert entry.1 entry.2) m

theorem addAll_append (m : Table β) (entries others : List (String × β)) :
    m.addAll (entries ++ others) = (m.addAll entries).addAll others :=
  foldl_append

theorem lookup_addAll {entries : List (String × β)} (hndp : (entries.map Prod.fst).Nodup)
    (m : Table β) (a : String) (v : β) :
    (m.addAll entries)[a]? = some v ↔
      (a, v) ∈ entries ∨ a ∉ entries.map Prod.fst ∧ m[a]? = some v := by
  induction entries generalizing m with
  | nil =>
    rw [addAll, foldl_nil]
    refine ⟨fun h => .inr ⟨not_mem_nil, h⟩, ?_⟩
    rintro (h | h)
    · exact absurd h not_mem_nil
    · exact h.2
  | cons entry entries ih =>
    obtain ⟨k, w⟩ := entry
    rw [map_cons, nodup_cons] at hndp
    have hstep : m.addAll ((k, w) :: entries) = addAll (m.insert k w) entries := rfl
    rw [hstep, ih hndp.2, lookup_insert, map_cons, mem_cons, mem_cons, not_or]
    by_cases hk : k = a
    · subst hk
      rw [if_pos rfl, Option.some.injEq]
      constructor
      · rintro (h | ⟨-, rfl⟩)
        · exact absurd (mem_map_of_mem h) hndp.1
        · exact .inl (.inl rfl)
      · rintro ((h | h) | h)
        · exact .inr ⟨hndp.1, (Prod.mk.inj h).2.symm⟩
        · exact .inl h
        · exact absurd rfl h.1.1
    · rw [if_neg hk]
      constructor
      · rintro (h | h)
        · exact .inl (.inr h)
        · exact .inr ⟨⟨Ne.symm hk, h.1⟩, h.2⟩
      · rintro ((h | h) | h)
        · exact absurd (Prod.mk.inj h).1.symm hk
        · exact .inl h
        · exact .inr ⟨h.1.2, h.2⟩

end Table
