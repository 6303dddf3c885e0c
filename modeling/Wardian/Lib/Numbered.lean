/-
Logs whose entries carry consecutive numbers.

An entry knows its own number, and the numbers of a log run without a hole.  Then the entries after
a number, or between two numbers, are a piece of the log, and nothing has to be said about single
entries any more.

Main results:

* `Numbered.concat`, `Numbered.of_suffix` — the next entry, and an end of a log;
* `Numbered.filter_after`, `Numbered.filter_window` — the entries after a number, and between two.
-/

import Mathlib.Data.List.Basic

set_option autoImplicit false

/-- The numbers of the entries are `first`, `first + 1` and so on. -/
def Numbered {α : Type} (number : α → Nat) (first : Nat) (log : List α) : Prop :=
  log.map number = List.range' first log.length

namespace Numbered

open List

variable {α : Type} {number : α → Nat} {first : Nat} {log : List α}

theorem nil (number : α → Nat) (first : Nat) : Numbered number first [] := rfl

variable {entry : α}

theorem cons_iff :
    Numbered number first (entry :: log) ↔ number entry = first ∧ Numbered number (first + 1) log := by
  unfold Numbered
  rw [length_cons, range'_succ, map_cons, List.cons.injEq]

theorem concat (h : Numbered number first log)
    (hent : number entry = first + log.length) : Numbered number first (log ++ [entry]) := by
  unfold Numbered at h ⊢
  rw [map_append, h, length_append, length_singleton, range'_concat]
  simp [hent]

theorem append_iff {later : List α} :
    Numbered number first (log ++ later) ↔
      Numbered number first log ∧ Numbered number (first + log.length) later := by
  induction log generalizing first with
  | nil => simp [nil]
  | cons entry log ih =>
    rw [cons_append, cons_iff, cons_iff, ih, length_cons, and_assoc]
    have hshift : first + 1 + log.length = first + (log.length + 1) := by omega
    rw [hshift]

theorem of_suffix (h : Numbered number first log) {later : List α} (hsuf : later <:+ log) :
    Numbered number (first + (log.length - later.length)) later := by
  obtain ⟨earlier, rfl⟩ := hsuf
  have hltr := (append_iff.1 h).2
  have hlen : (earlier ++ later).length - later.length = earlier.length := by simp
  rw [hlen]
  exact hltr

theorem mem_bounds (h : Numbered number first log) (hmem : entry ∈ log) :
    first ≤ number entry ∧ number entry < first + log.length := by
  have hnum : number entry ∈ range' first log.length :=
    h ▸ mem_map_of_mem hmem
  simpa [mem_range'_1] using hnum

theorem getLast (h : Numbered number first log) (hne : log ≠ []) :
    log.getLast?.map number = some (first + log.length - 1) := by
  obtain ⟨earlier, entry, rfl⟩ := eq_nil_or_concat' log |>.resolve_left hne
  have hent := (cons_iff.1 (append_iff.1 h).2).1
  rw [getLast?_concat, Option.map_some, hent, length_append, length_singleton]
  congr 1

/-- The entries after a number are what is left when the others are dropped. -/
theorem filter_after (h : Numbered number first log) {n : Nat} (hn : first ≤ n + 1) :
    log.filter (fun entry => n < number entry) = log.drop (n + 1 - first) := by
  induction log generalizing first with
  | nil => simp
  | cons entry log ih =>
    obtain ⟨hent, hlog⟩ := cons_iff.1 h
    rcases Nat.lt_or_ge n first with hlt | hge
    · -- every entry comes after `n`
      have hzero : n + 1 - first = 0 := by omega
      rw [hzero, drop_zero, filter_eq_self]
      intro e he
      have hbnd := (h.mem_bounds he).1
      exact decide_eq_true (by omega)
    · have hsucc : n + 1 - first = n + 1 - (first + 1) + 1 := by omega
      rw [hsucc, drop_succ_cons, ← ih hlog (by omega),
        filter_cons_of_neg (by simp [hent]; omega)]

theorem filter_window (h : Numbered number first log) {n m : Nat} (hn : first ≤ n + 1) :
    log.filter (fun entry => n < number entry ∧ number entry ≤ n + m) =
      (log.drop (n + 1 - first)).take m := by
  have hspl : log.filter (fun entry => n < number entry ∧ number entry ≤ n + m) =
      (log.filter fun entry => n < number entry).filter fun entry => number entry ≤ n + m := by
    rw [filter_filter]
    refine filter_congr fun entry _ => ?_
    simp [and_comm]
  rw [hspl, h.filter_after hn]
  -- of a log that is numbered from `n + 1`, the first `m` entries are those up to `n + m`
  have htake : ∀ (later : List α) (k : Nat), Numbered number (k + 1) later → ∀ m,
      later.filter (fun entry => number entry ≤ k + m) = later.take m := by
    intro later
    induction later with
    | nil => simp
    | cons entry later ih =>
      intro k hltr m
      obtain ⟨hent, hrest⟩ := cons_iff.1 hltr
      cases m with
      | zero =>
        rw [take_zero, filter_eq_nil_iff]
        intro e he
        have hbnd := (hltr.mem_bounds he).1
        simp only [decide_eq_true_eq, Nat.not_le]
        omega
      | succ m =>
        rw [take_succ_cons, ← ih (k + 1) hrest m,
          filter_cons_of_pos (by simp [hent])]
        congr 1
        refine filter_congr fun e _ => ?_
        have hshift : k + 1 + m = k + (m + 1) := by omega
        rw [hshift]
  rcases Nat.lt_or_ge log.length (n + 1 - first) with hshort | hlong
  · simp [drop_eq_nil_of_le (Nat.le_of_lt hshort)]
  · refine htake _ n ?_ m
    have hdrop := (append_iff.1 ((take_append_drop (n + 1 - first) log).symm ▸ h)).2
    rw [length_take, Nat.min_eq_left hlong] at hdrop
    have hfst : first + (n + 1 - first) = n + 1 := by omega
    rw [hfst] at hdrop
    exact hdrop

end Numbered
