/-
Amortised bounds over the nodes of a graph.

A system that moves along the edges of an acyclic graph ends because work at one node makes work at
nodes of higher rank only.  Give a node of rank `r` the weight `base ^ (height + 1 - r)`: as long as
the base is large enough, one unit at a node pays for a bounded number of units at every node above
it.  The sum of the shares of the nodes is then a potential that bounds how often the system moves.

Main results:

* `Amortized.weight_le_change`, `Amortized.mul_change_lt_weight` — a unit pays for those above it;
* `Amortized.sum_le_of_pays` — one node that pays for the others keeps the sum.
-/

import Mathlib.Algebra.Group.Action.Defs
import Mathlib.Algebra.Order.BigOperators.Group.Finset

set_option autoImplicit false

namespace Amortized

/-! ### Weights -/

variable {base height r r' c : Nat}

/-- What a unit at a node of rank `r` is worth. -/
def weight (base height r : Nat) : Nat := base ^ (height + 1 - r)

/-- What a unit at a node of rank above `r` is worth, at most. -/
def change (base height r : Nat) : Nat := base ^ (height - r)

theorem change_pos (hbase : 0 < base) : 0 < change base height r := Nat.pow_pos hbase

theorem weight_pos (hbase : 0 < base) : 0 < weight base height r := Nat.pow_pos hbase

theorem weight_le (hbase : 0 < base) : weight base height r ≤ base ^ (height + 1) :=
  Nat.pow_le_pow_right hbase (Nat.sub_le _ _)

theorem weight_le_change (hbase : 0 < base) (h : r < r') : weight base height r' ≤ change base height r := by
  refine Nat.pow_le_pow_right hbase ?_
  omega

theorem weight_eq (h : r ≤ height) : weight base height r = base * change base height r := by
  have hexp : height + 1 - r = height - r + 1 := by omega
  rw [weight, hexp, Nat.pow_succ, Nat.mul_comm]
  rfl

/-- A unit pays for fewer units than the base at nodes above it, and for one more. -/
theorem mul_change_lt_weight (h : r ≤ height) (hc : c < base) :
    c * change base height r < weight base height r := by
  rw [weight_eq h]
  exact Nat.mul_lt_mul_of_pos_right hc (change_pos (Nat.zero_lt_of_lt hc))

/-! ### Shares -/

variable {ι : Type} {nodes : Finset ι} {share share' : ι → Nat}

/-- When one node gives up what the others may gain, the sum of the shares does not grow. -/
theorem sum_le_of_pays {v : ι} {gain : Nat} (hv : v ∈ nodes)
    (hoths : ∀ n ∈ nodes, n ≠ v → share' n ≤ share n + gain)
    (hpays : share' v + nodes.card * gain ≤ share v) : ∑ n ∈ nodes, share' n ≤ ∑ n ∈ nodes, share n := by
  classical
  have hcard : (nodes.erase v).card * gain ≤ nodes.card * gain :=
    Nat.mul_le_mul_right _ (Finset.card_le_card (Finset.erase_subset v nodes))
  have hrest : ∑ n ∈ nodes.erase v, share' n ≤
      ∑ n ∈ nodes.erase v, share n + (nodes.erase v).card * gain := by
    rw [← smul_eq_mul, ← Finset.sum_const, ← Finset.sum_add_distrib]
    refine Finset.sum_le_sum fun n hn => ?_
    exact hoths n (Finset.mem_of_mem_erase hn) (Finset.ne_of_mem_erase hn)
  rw [← Finset.add_sum_erase nodes share' hv, ← Finset.add_sum_erase nodes share hv]
  omega

theorem sum_succ_le {v : ι} (hv : v ∈ nodes) (hoths : ∀ n ∈ nodes, n ≠ v → share' n ≤ share n)
    (hpays : share' v + 1 ≤ share v) : ∑ n ∈ nodes, share' n + 1 ≤ ∑ n ∈ nodes, share n := by
  classical
  have hrest : ∑ n ∈ nodes.erase v, share' n ≤ ∑ n ∈ nodes.erase v, share n :=
    Finset.sum_le_sum fun n hn =>
      hoths n (Finset.mem_of_mem_erase hn) (Finset.ne_of_mem_erase hn)
  rw [← Finset.add_sum_erase nodes share' hv, ← Finset.add_sum_erase nodes share hv]
  omega

end Amortized
