/-
The newest of what has been seen.

A register takes a value when it has none, or when the value is newer than the one it has.  After any
number of values, in any order and with any repetitions, it has a newest one.

Main results:

* `Newest.run_mem`, `Newest.le_run` — what the register has in the end is one of the values, and no
  value is newer;
* `Newest.run_eq` — where one value is newer than all others, the register has that one.
-/

import Mathlib.Order.Lattice
import Mathlib.Tactic.Common

set_option autoImplicit false

namespace Newest

variable {α K : Type} [LinearOrder K] (key : α → K)

def take : Option α → α → Option α
  | none, a => some a
  | some b, a => if key b < key a then some a else some b

def run (start : Option α) (values : List α) : Option α := values.foldl (take key) start

@[simp] theorem run_cons (start : Option α) (a : α) (values : List α) :
    run key start (a :: values) = run key (take key start a) values := rfl

/-- A value is taken because it is newer, or the register keeps one that is as new. -/
theorem take_cases (start : Option α) (a : α) :
    (take key start a = some a ∧ ∀ b, start = some b → key b < key a) ∨
      ∃ b, start = some b ∧ key a ≤ key b ∧ take key start a = some b := by
  cases start with
  | none => exact .inl ⟨rfl, fun _ h => nomatch h⟩
  | some b =>
    by_cases h : key b < key a
    · refine .inl ⟨if_pos h, ?_⟩
      intro c hc
      obtain rfl := Option.some.inj hc
      exact h
    · exact .inr ⟨b, rfl, not_lt.mp h, if_neg h⟩

variable {start : Option α} {c : α}

theorem le_take {a b : α} (h : take key start a = some c) (hb : start = some b ∨ b = a) : key b ≤ key c := by
  rcases take_cases key start a with ⟨htake, hless⟩ | ⟨d, rfl, hle, htake⟩
  · obtain rfl := Option.some.inj (htake.symm.trans h)
    rcases hb with hstart | rfl
    · exact le_of_lt (hless b hstart)
    · exact le_refl _
  · obtain rfl := Option.some.inj (htake.symm.trans h)
    rcases hb with hstart | rfl
    · exact le_of_eq (congrArg key (Option.some.inj hstart).symm)
    · exact hle

theorem take_isSome (start : Option α) (a : α) : ∃ c, take key start a = some c := by
  rcases take_cases key start a with ⟨htake, -⟩ | ⟨b, -, -, htake⟩
  · exact ⟨a, htake⟩
  · exact ⟨b, htake⟩

variable {values : List α}

theorem run_mem (h : run key start values = some c) : start = some c ∨ c ∈ values := by
  induction values generalizing start with
  | nil => exact .inl h
  | cons a values ih =>
    rcases ih h with hstart | hmem
    · rcases take_cases key start a with ⟨htake, -⟩ | ⟨b, rfl, -, htake⟩
      · obtain rfl := Option.some.inj (htake.symm.trans hstart)
        exact .inr List.mem_cons_self
      · exact .inl (htake.symm.trans hstart)
    · exact .inr (List.mem_cons_of_mem _ hmem)

/-- Nothing that the register has seen is newer than what it has in the end. -/
theorem le_run {b : α} (h : run key start values = some c)
    (hb : start = some b ∨ b ∈ values) : key b ≤ key c := by
  induction values generalizing start b with
  | nil =>
    obtain hstart := hb.resolve_right List.not_mem_nil
    obtain rfl := Option.some.inj (hstart.symm.trans h)
    exact le_refl _
  | cons a values ih =>
    rw [run_cons] at h
    have htkn : start = some b ∨ b = a → key b ≤ key c := by
      intro hfst
      obtain ⟨d, hd⟩ := take_isSome key start a
      exact le_trans (le_take key hd hfst) (ih h (.inl hd))
    rcases hb with hstart | hmem
    · exact htkn (.inl hstart)
    · rcases List.mem_cons.mp hmem with rfl | hmem
      · exact htkn (.inr rfl)
      · exact ih h (.inr hmem)

theorem run_isSome (start : Option α) (h : start.isSome ∨ values ≠ []) : (run key start values).isSome := by
  induction values generalizing start with
  | nil => exact h.resolve_right (fun hne => hne rfl)
  | cons a values ih =>
    obtain ⟨d, hd⟩ := take_isSome key start a
    exact ih _ (.inl (Option.isSome_iff_exists.mpr ⟨d, hd⟩))

/-- The register has the value that no other one is as new as. -/
theorem run_eq {last : α} (hmem : last ∈ values) (hlast : ∀ a ∈ values, key a ≤ key last)
    (hone : ∀ a ∈ values, key a = key last → a = last) : run key none values = some last := by
  obtain ⟨c, hc⟩ := Option.isSome_iff_exists.mp
    (run_isSome key none (.inr (List.ne_nil_of_mem hmem)))
  have hseen : c ∈ values := (run_mem key hc).resolve_left (fun h => nomatch h)
  have hle : key last ≤ key c := le_run key hc (.inr hmem)
  rw [hc, hone c hseen (le_antisymm (hlast c hseen) hle)]

end Newest
