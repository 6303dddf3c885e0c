/-
Elements in groups.

Elements that arrive one after the other are put into groups: into groups under keys, which are taken out
again as a whole, or into groups that are numbered in the order in which they are opened.  Nothing is lost
on the way, and every element is in the group into which it was put.

Main results:

* `Groups.values_push`, `Groups.values_found` — the elements of all groups under keys;
* `Groups.flatten_modify` — the elements of all numbered groups;
* `Groups.inGroup_push`, `Groups.inGroup_without`, `Groups.at_modify` — the elements of one group.
-/

import Mathlib.Data.List.Nodup

set_option autoImplicit false

namespace Groups

open List

variable {κ α : Type}

/-! ### Numbered groups -/

/-- The element of a numbered group. -/
def At (groups : List (List α)) (i : Nat) (x : α) : Prop := ∃ xs, groups[i]? = some xs ∧ x ∈ xs

variable {i : Nat} {x : α}

theorem At.lt {groups : List (List α)} (h : At groups i x) : i < groups.length := by
  obtain ⟨xs, hxs, -⟩ := h
  exact (List.getElem?_eq_some_iff.1 hxs).1

theorem map_modify {β γ : Type} {f : β → γ} {g : β → β} {h : γ → γ} (hcomm : ∀ b, f (g b) = h (f b))
    (bs : List β) (i : Nat) : (bs.modify i g).map f = (bs.map f).modify i h := by
  induction bs generalizing i with
  | nil => simp
  | cons b bs ih =>
    cases i with
    | zero => simp [hcomm]
    | succ i => simp [ih]

theorem modify_last {β : Type} (bs : List β) (b : β) (f : β → β) :
    (bs ++ [b]).modify bs.length f = bs ++ [f b] := by
  induction bs with
  | nil => rfl
  | cons first bs ih =>
    rw [cons_append, length_cons, modify_succ_cons, ih]
    rfl

theorem getElem?_concat_iff {β : Type} {bs : List β} {b x : β} :
    (bs ++ [b])[i]? = some x ↔ bs[i]? = some x ∨ (i = bs.length ∧ x = b) := by
  rcases Nat.lt_trichotomy i bs.length with hlt | rfl | hlt
  · rw [getElem?_append_left hlt]
    exact (or_iff_left fun hi => Nat.ne_of_lt hlt hi.1).symm
  · rw [getElem?_append_right (Nat.le_refl _), Nat.sub_self,
      getElem?_eq_none (Nat.le_refl _)]
    constructor
    · intro h
      exact .inr ⟨rfl, (Option.some.inj h).symm⟩
    · rintro (h | ⟨-, rfl⟩)
      · cases h
      · rfl
  · have hlen : (bs ++ [b]).length ≤ i := by
      rw [length_append, length_singleton]
      exact hlt
    rw [getElem?_eq_none (Nat.le_of_lt hlt), getElem?_eq_none hlen]
    refine iff_of_false (fun h => by cases h) ?_
    rintro (h | ⟨rfl, -⟩)
    · cases h
    · exact Nat.lt_irrefl _ hlt

theorem flatten_modify {groups : List (List α)} (hi : i < groups.length) (xs : List α) :
    ((groups.modify i (· ++ xs)).flatten).Perm (groups.flatten ++ xs) := by
  induction groups generalizing i with
  | nil => cases hi
  | cons group groups ih =>
    cases i with
    | zero =>
      have hmodify : (group :: groups).modify 0 (· ++ xs) = (group ++ xs) :: groups := rfl
      rw [hmodify, flatten_cons, flatten_cons, append_assoc, append_assoc]
      exact perm_append_comm.append_left group
    | succ i =>
      have hmodify : (group :: groups).modify (i + 1) (· ++ xs) = group :: groups.modify i (· ++ xs) := rfl
      rw [hmodify, flatten_cons, flatten_cons, append_assoc]
      exact (ih (Nat.lt_of_succ_lt_succ hi)).append_left group

theorem at_modify {groups : List (List α)} {j : Nat} (hi : i < groups.length) {xs : List α} :
    At (groups.modify i (· ++ xs)) j x ↔ At groups j x ∨ (j = i ∧ x ∈ xs) := by
  unfold At
  by_cases hj : i = j
  · subst hj
    rw [getElem?_modify_eq, getElem?_eq_getElem hi]
    constructor
    · rintro ⟨ys, hys, hx⟩
      rw [← Option.some.inj hys] at hx
      rcases mem_append.1 hx with hx | hx
      · exact .inl ⟨_, rfl, hx⟩
      · exact .inr ⟨rfl, hx⟩
    · rintro (⟨ys, hys, hx⟩ | ⟨-, hx⟩)
      · obtain rfl := Option.some.inj hys
        exact ⟨_, rfl, mem_append_left _ hx⟩
      · exact ⟨_, rfl, mem_append_right _ hx⟩
  · rw [getElem?_modify_ne _ _ hj]
    refine (or_iff_left ?_).symm
    rintro ⟨h, -⟩
    exact hj h.symm

theorem at_concat {groups : List (List α)} {j : Nat} {xs : List α} :
    At (groups ++ [xs]) j x ↔ At groups j x ∨ (j = groups.length ∧ x ∈ xs) := by
  unfold At
  rcases Nat.lt_trichotomy j groups.length with hlt | rfl | hlt
  · rw [getElem?_append_left hlt]
    refine (or_iff_left ?_).symm
    rintro ⟨rfl, -⟩
    exact absurd hlt (Nat.lt_irrefl _)
  · rw [getElem?_append_right (Nat.le_refl _), Nat.sub_self,
      getElem?_eq_none (Nat.le_refl _)]
    constructor
    · rintro ⟨ys, hys, hx⟩
      rw [← Option.some.inj hys] at hx
      exact .inr ⟨rfl, hx⟩
    · rintro (⟨ys, hys, -⟩ | ⟨-, hx⟩)
      · cases hys
      · exact ⟨xs, rfl, hx⟩
  · have hlen : (groups ++ [xs]).length ≤ j := by
      rw [length_append, length_singleton]
      exact hlt
    rw [getElem?_eq_none hlen, getElem?_eq_none (Nat.le_of_lt hlt)]
    refine iff_of_false ?_ ?_
    · rintro ⟨ys, hys, -⟩
      cases hys
    · rintro (⟨ys, hys, -⟩ | ⟨rfl, -⟩)
      · cases hys
      · exact absurd hlt (Nat.lt_irrefl _)

theorem mem_flatten_iff_at {groups : List (List α)} : x ∈ groups.flatten ↔ ∃ i, At groups i x := by
  rw [mem_flatten]
  constructor
  · rintro ⟨xs, hxs, hx⟩
    obtain ⟨i, hi⟩ := mem_iff_getElem?.1 hxs
    exact ⟨i, xs, hi, hx⟩
  · rintro ⟨i, xs, hxs, hx⟩
    exact ⟨xs, mem_of_getElem? hxs, hx⟩

/-! ### Groups under keys -/

def keys (groups : List (κ × List α)) : List κ := groups.map Prod.fst

/-- The elements of all groups. -/
def values (groups : List (κ × List α)) : List α := (groups.map Prod.snd).flatten

def InGroup (groups : List (κ × List α)) (k : κ) (x : α) : Prop := ∃ xs, (k, xs) ∈ groups ∧ x ∈ xs

variable {groups : List (κ × List α)}

theorem mem_values : x ∈ values groups ↔ ∃ k, InGroup groups k x := by
  unfold values
  rw [mem_flatten]
  constructor
  · rintro ⟨xs, hxs, hx⟩
    obtain ⟨group, hgrp, rfl⟩ := mem_map.1 hxs
    exact ⟨group.1, group.2, hgrp, hx⟩
  · rintro ⟨k, xs, hxs, hx⟩
    exact ⟨xs, mem_map_of_mem hxs, hx⟩

variable {k : κ}

theorem inGroup_cons {group : κ × List α} :
    InGroup (group :: groups) k x ↔ (group.1 = k ∧ x ∈ group.2) ∨ InGroup groups k x := by
  constructor
  · rintro ⟨xs, hxs, hx⟩
    rcases mem_cons.1 hxs with rfl | hxs
    · exact .inl ⟨rfl, hx⟩
    · exact .inr ⟨xs, hxs, hx⟩
  · rintro (⟨rfl, hx⟩ | ⟨xs, hxs, hx⟩)
    · exact ⟨group.2, mem_cons_self .., hx⟩
    · exact ⟨xs, mem_cons_of_mem _ hxs, hx⟩

theorem key_of_inGroup (h : InGroup groups k x) : k ∈ keys groups := by
  obtain ⟨xs, hxs, -⟩ := h
  exact mem_map_of_mem hxs

variable [DecidableEq κ]

/-- Put an element behind the others of its group. -/
def push (k : κ) (x : α) : List (κ × List α) → List (κ × List α)
  | [] => [(k, [x])]
  | group :: groups =>
    if group.1 = k then (group.1, group.2 ++ [x]) :: groups else group :: push k x groups

/-- The group under a key. -/
def found (k : κ) (groups : List (κ × List α)) : List α :=
  ((groups.find? (·.1 = k)).map Prod.snd).getD []

/-- The other groups. -/
def without (k : κ) (groups : List (κ × List α)) : List (κ × List α) := groups.eraseP (·.1 = k)

theorem keys_push (k : κ) (x : α) (groups : List (κ × List α)) :
    keys (push k x groups) = if k ∈ keys groups then keys groups else keys groups ++ [k] := by
  induction groups with
  | nil => rfl
  | cons group groups ih =>
    rw [push]
    split
    next hk =>
      have hmem : k ∈ keys (group :: groups) := mem_cons.2 (.inl hk.symm)
      rw [if_pos hmem]
      rfl
    next hk =>
      have hcons : keys (group :: push k x groups) = group.1 :: keys (push k x groups) := rfl
      have hmem : k ∈ keys (group :: groups) ↔ k ∈ keys groups := by
        refine mem_cons.trans (or_iff_right ?_)
        exact fun h => hk h.symm
      rw [hcons, ih, if_congr hmem rfl rfl]
      split <;> rfl

theorem nodup_push (x : α) (h : (keys groups).Nodup) : (keys (push k x groups)).Nodup := by
  rw [keys_push]
  split
  · exact h
  next hk =>
    refine nodup_append.2 ⟨h, nodup_singleton k, ?_⟩
    intro a ha b hb
    rw [mem_singleton.1 hb]
    rintro rfl
    exact hk ha

theorem nodup_without (k : κ) (h : (keys groups).Nodup) : (keys (without k groups)).Nodup :=
  h.sublist (eraseP_sublist.map Prod.fst)

theorem values_push (k : κ) (x : α) (groups : List (κ × List α)) :
    (values (push k x groups)).Perm (values groups ++ [x]) := by
  induction groups with
  | nil => exact .refl _
  | cons group groups ih =>
    have hvalues : values (group :: groups) = group.2 ++ values groups := rfl
    rw [push]
    split
    · have hpush : values ((group.1, group.2 ++ [x]) :: groups) = group.2 ++ [x] ++ values groups := rfl
      rw [hpush, hvalues, append_assoc, append_assoc]
      exact perm_append_comm.append_left group.2
    · have hpush : values (group :: push k x groups) = group.2 ++ values (push k x groups) := rfl
      rw [hpush, hvalues, append_assoc]
      exact ih.append_left group.2

theorem values_found (k : κ) (groups : List (κ × List α)) :
    (values groups).Perm (found k groups ++ values (without k groups)) := by
  induction groups with
  | nil => exact .refl _
  | cons group groups ih =>
    have hvalues : values (group :: groups) = group.2 ++ values groups := rfl
    unfold found without at ih ⊢
    by_cases hk : group.1 = k
    · rw [find?_cons_of_pos (by simpa using hk), eraseP_cons_of_pos (by simpa using hk)]
      exact .refl _
    · rw [find?_cons_of_neg (by simpa using hk), eraseP_cons_of_neg (by simpa using hk),
        hvalues]
      refine (ih.append_left group.2).trans ?_
      rw [← append_assoc]
      refine (perm_append_comm.append_right _).trans ?_
      rw [append_assoc]
      rfl

theorem found_push (k k' : κ) (x : α) (groups : List (κ × List α)) :
    found k' (push k x groups) = if k = k' then found k' groups ++ [x] else found k' groups := by
  have hcons : ∀ (group : κ × List α) (rest : List (κ × List α)),
      found k' (group :: rest) = if group.1 = k' then group.2 else found k' rest := by
    intro group rest
    unfold found
    rw [find?_cons]
    by_cases hk : group.1 = k'
    · rw [if_pos hk, decide_eq_true hk]
      rfl
    · rw [if_neg hk, decide_eq_false hk]
  induction groups with
  | nil =>
    rw [push, hcons]
    split <;> rfl
  | cons group groups ih =>
    rw [push]
    split
    next hk =>
      rw [hcons, hcons, hk]
      split <;> rfl
    next hk =>
      rw [hcons, hcons, ih]
      by_cases hgrp : group.1 = k'
      · rw [if_pos hgrp, if_pos hgrp, if_neg]
        rintro rfl
        exact hk hgrp
      · rw [if_neg hgrp, if_neg hgrp]

theorem inGroup_push {k' : κ} {y : α} :
    InGroup (push k x groups) k' y ↔ InGroup groups k' y ∨ (k' = k ∧ y = x) := by
  induction groups with
  | nil =>
    have hnil : ¬InGroup ([] : List (κ × List α)) k' y := by
      rintro ⟨xs, hxs, -⟩
      cases hxs
    rw [push, inGroup_cons, or_iff_left hnil, or_iff_right hnil, mem_singleton]
    exact and_congr_left fun _ => eq_comm
  | cons group groups ih =>
    rw [push]
    split
    next hk =>
      rw [inGroup_cons, inGroup_cons, mem_append, mem_singleton, hk]
      constructor
      · rintro (⟨rfl, hy | hy⟩ | hy)
        · exact .inl (.inl ⟨rfl, hy⟩)
        · exact .inr ⟨rfl, hy⟩
        · exact .inl (.inr hy)
      · rintro ((⟨rfl, hy⟩ | hy) | ⟨rfl, hy⟩)
        · exact .inl ⟨rfl, .inl hy⟩
        · exact .inr hy
        · exact .inl ⟨rfl, .inr hy⟩
    next => rw [inGroup_cons, inGroup_cons, ih, or_assoc]

theorem mem_found (hndp : (keys groups).Nodup) : x ∈ found k groups ↔ InGroup groups k x := by
  induction groups with
  | nil =>
    refine iff_of_false not_mem_nil ?_
    rintro ⟨xs, hxs, -⟩
    cases hxs
  | cons group groups ih =>
    have hkeys := nodup_cons.1 hndp
    rw [inGroup_cons, ← ih hkeys.2]
    unfold found
    by_cases hk : group.1 = k
    · have hrest : x ∉ found k groups := by
        rw [ih hkeys.2]
        intro h
        exact hkeys.1 (hk ▸ key_of_inGroup h)
      rw [find?_cons_of_pos (by simpa using hk)]
      exact ⟨fun h => .inl ⟨hk, h⟩, fun h => (h.resolve_right hrest).2⟩
    · rw [find?_cons_of_neg (by simpa using hk)]
      exact (or_iff_right fun h => hk h.1).symm

theorem inGroup_without {k' : κ} (hndp : (keys groups).Nodup) :
    InGroup (without k groups) k' x ↔ InGroup groups k' x ∧ k' ≠ k := by
  induction groups with
  | nil =>
    have hnil : ¬InGroup ([] : List (κ × List α)) k' x := by
      rintro ⟨xs, hxs, -⟩
      cases hxs
    exact iff_of_false hnil fun h => hnil h.1
  | cons group groups ih =>
    have hkeys := nodup_cons.1 hndp
    unfold without at ih ⊢
    by_cases hk : group.1 = k
    · rw [eraseP_cons_of_pos (by simpa using hk), inGroup_cons]
      constructor
      · intro h
        refine ⟨.inr h, ?_⟩
        rintro rfl
        exact hkeys.1 (hk ▸ key_of_inGroup h)
      · rintro ⟨⟨hgrp, -⟩ | h, hne⟩
        · exact absurd (hgrp.symm.trans hk) hne
        · exact h
    · rw [eraseP_cons_of_neg (by simpa using hk), inGroup_cons, inGroup_cons, ih hkeys.2,
        or_and_right]
      refine or_congr_left ?_
      constructor
      · intro h
        refine ⟨h, ?_⟩
        rintro rfl
        exact hk h.1
      · exact fun h => h.1

theorem nonempty_push (h : ∀ group ∈ groups, group.2 ≠ []) : ∀ group ∈ push k x groups, group.2 ≠ [] := by
  induction groups with
  | nil =>
    intro group hgrp
    rw [mem_singleton.1 hgrp]
    exact cons_ne_nil _ _
  | cons first groups ih =>
    intro group hgrp
    rw [push] at hgrp
    split at hgrp
    · rcases mem_cons.1 hgrp with rfl | hgrp
      · simp
      · exact h group (mem_cons_of_mem _ hgrp)
    · rcases mem_cons.1 hgrp with rfl | hgrp
      · exact h group (mem_cons_self ..)
      · exact ih (fun other hoth => h other (mem_cons_of_mem _ hoth)) group hgrp

end Groups
