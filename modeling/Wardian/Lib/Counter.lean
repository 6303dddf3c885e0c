/-
Counters of 64 bits.

A counter that is raised beyond its largest value stays there, or the call that raises it fails.

Main results:

* `saturatingSucc_of_lt`, `le_saturatingSucc` — a counter grows by one below its largest value.
-/

import Mathlib.Algebra.Order.Ring.Int

set_option autoImplicit false

/-- The largest unsigned 64-bit number. -/
def u64Max : Nat := 2 ^ 64 - 1

/-- The largest length. -/
def usizeMax : Nat := 2 ^ 64 - 1

/-- `saturating_add(1)`. -/
def saturatingSucc (n : Nat) : Nat := if n < u64Max then n + 1 else n

theorem saturatingSucc_of_lt {n : Nat} (h : n < u64Max) : saturatingSucc n = n + 1 := if_pos h

theorem le_saturatingSucc (n : Nat) : n ≤ saturatingSucc n := by
  unfold saturatingSucc
  split <;> omega

theorem saturatingSucc_le (n : Nat) : saturatingSucc n ≤ n + 1 := by
  unfold saturatingSucc
  split <;> omega

/-- `checked_add(1)`. -/
def checkedSucc (n : Nat) : Option Nat := if n < u64Max then some (n + 1) else none

theorem checkedSucc_eq_some {n m : Nat} : checkedSucc n = some m ↔ n < u64Max ∧ m = n + 1 := by
  unfold checkedSucc
  split
  next h =>
    rw [Option.some.injEq, and_iff_right h]
    exact eq_comm
  next h => exact iff_of_false (fun hnone => by cases hnone) fun hand => h hand.1

theorem checkedSucc_eq_none {n : Nat} : checkedSucc n = none ↔ u64Max ≤ n := by
  unfold checkedSucc
  split
  next h => exact iff_of_false (fun hsome => by cases hsome) (Nat.not_le.2 h)
  next h => exact iff_of_true rfl (Nat.not_lt.1 h)
