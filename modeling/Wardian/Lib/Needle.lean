/-
Finding a sequence in a stream that arrives in pieces.

The sequence begins with a mark that it has nowhere else, so two occurrences of it never overlap, and of
the beginning of an occurrence at the end of a stream there is only one: what follows the last mark.

Main results:

* `Needle.remainder_append`, `Needle.without_append`, `Needle.afterLast_append` — a stream that goes on,
  from its remainder;
* `Needle.completes_iff` — when a piece completes an occurrence.
-/

import Mathlib.Data.List.Infix

set_option autoImplicit false

structure Needle (α : Type) where
  mark : α
  body : List α
  unmarked : mark ∉ body

namespace Needle

open Option
open List

variable {α : Type} {needle : Needle α}

def text (needle : Needle α) : List α := needle.mark :: needle.body

/-- A proper beginning of the needle. -/
def IsPart (needle : Needle α) (part : List α) : Prop :=
  part <+: needle.text ∧ part.length < needle.text.length

theorem isPart_nil : needle.IsPart [] := ⟨ nil_prefix, Nat.zero_lt_succ _⟩

variable {part : List α}

theorem IsPart.of_prefix {start : List α} (h : needle.IsPart part) (hstart : start <+: part) :
    needle.IsPart start :=
  ⟨hstart.trans h.1, Nat.lt_of_le_of_lt hstart.length_le h.2⟩

theorem IsPart.unmarked {a : α} (h : needle.IsPart (a :: part)) : a = needle.mark ∧ needle.mark ∉ part := by
  obtain ⟨rest, hrest⟩ := h.1
  obtain ⟨hmark, hbody⟩ := List.cons.inj hrest
  refine ⟨hmark, ?_⟩
  intro hmem
  refine needle.unmarked ?_
  rw [← hbody]
  exact mem_append_left _ hmem

variable {s : List α}

/-- The needle begins a stream, or the stream is a part of it, or neither goes on as the other. -/
theorem prefix_or_part {later : List α} (h : needle.text <+: s ++ later) :
    needle.text <+: s ∨ needle.IsPart s := by
  rcases Nat.lt_or_ge s.length needle.text.length with hlt | hle
  · exact .inr ⟨prefix_of_prefix_length_le (prefix_append s later) h hlt.le, hlt⟩
  · exact .inl (prefix_of_prefix_length_le h (prefix_append s later) hle)

variable [DecidableEq α]

instance (part : List α) : Decidable (needle.IsPart part) :=
  inferInstanceAs (Decidable (_ ∧ _))

/-! ### The remainder -/

/-- The longest proper beginning of the needle with which the stream ends. -/
def remainder (needle : Needle α) : List α → List α
  | [] => []
  | a :: s => if needle.IsPart (a :: s) then a :: s else remainder needle s

theorem isPart_remainder (s : List α) : needle.IsPart (needle.remainder s) := by
  induction s with
  | nil => exact isPart_nil
  | cons a s ih =>
    unfold remainder
    split
    · assumption
    · exact ih

theorem remainder_suffix (s : List α) : needle.remainder s <:+ s := by
  induction s with
  | nil => exact suffix_refl _
  | cons a s ih =>
    unfold remainder
    split
    · exact suffix_refl _
    · exact ih.trans (suffix_cons a s)

theorem remainder_of_part (h : needle.IsPart s) : needle.remainder s = s := by
  cases s with
  | nil => rfl
  | cons a s => exact if_pos h

theorem length_le_remainder (hpart : needle.IsPart part) (hsuf : part <:+ s) :
    part.length ≤ (needle.remainder s).length := by
  induction s with
  | nil =>
    rw [suffix_nil.1 hsuf]
    exact Nat.zero_le _
  | cons a s ih =>
    unfold remainder
    split
    · exact hsuf.length_le
    · rename_i hnot
      rcases suffix_cons_iff.1 hsuf with rfl | hsuf
      · exact absurd hpart hnot
      · exact ih hsuf

theorem remainder_of_unmarked (h : needle.mark ∉ s) : needle.remainder s = [] := by
  induction s with
  | nil => rfl
  | cons a s ih =>
    unfold remainder
    rw [if_neg]
    · exact ih fun hmem => h (mem_cons_of_mem _ hmem)
    · intro hpart
      refine h ?_
      rw [hpart.unmarked.1]
      exact mem_cons_self

theorem remainder_append (s later : List α) :
    needle.remainder (s ++ later) =
      if needle.IsPart (needle.remainder s ++ later) then needle.remainder s ++ later
      else needle.remainder later := by
  induction s with
  | nil =>
    change needle.remainder later = if needle.IsPart later then later else _
    split
    · rename_i hpart
      exact remainder_of_part hpart
    · rfl
  | cons a s ih =>
    rw [cons_append]
    by_cases hpart : needle.IsPart (a :: s)
    · rw [remainder_of_part hpart]
      by_cases hlong : needle.IsPart (a :: s ++ later)
      · rw [if_pos hlong]
        exact remainder_of_part hlong
      · rw [if_neg hlong]
        have hcons : needle.remainder (a :: (s ++ later)) = needle.remainder (s ++ later) :=
          if_neg hlong
        rw [hcons, ih, remainder_of_unmarked hpart.unmarked.2, nil_append]
        split
        · rename_i hltr
          exact (remainder_of_part hltr).symm
        · rfl
    · have hlong : ¬needle.IsPart (a :: (s ++ later)) :=
        fun h => hpart (h.of_prefix (prefix_append (a :: s) later))
      conv_lhs => unfold remainder
      rw [if_neg hlong, ih]
      have htail : needle.remainder (a :: s) = needle.remainder s := if_neg hpart
      rw [htail]

/-- The remainder of a stream that goes on depends on its remainder only. -/
theorem remainder_remainder_append (s later : List α) :
    needle.remainder (needle.remainder s ++ later) = needle.remainder (s ++ later) := by
  rw [remainder_append, remainder_append, remainder_of_part (isPart_remainder s)]

theorem remainder_text_append (later : List α) :
    needle.remainder (needle.text ++ later) = needle.remainder later := by
  have hnot : ¬needle.IsPart needle.text := fun h => Nat.lt_irrefl _ h.2
  have hnone : needle.remainder needle.text = [] := by
    have hcons : needle.remainder needle.text = needle.remainder needle.body := if_neg hnot
    rw [hcons, remainder_of_unmarked needle.unmarked]
  rw [remainder_append, hnone, nil_append]
  split
  · rename_i hpart
    exact (remainder_of_part hpart).symm
  · rfl

/-! ### The stream without the occurrences -/

/-- The stream without the occurrences of the needle. -/
def without (needle : Needle α) (s : List α) : List α :=
  match s with
  | [] => []
  | a :: s =>
    if needle.text <+: a :: s then without needle ((a :: s).drop needle.text.length)
    else a :: without needle s
termination_by s.length
decreasing_by
  · simp only [length_drop, length_cons, text]
    omega
  · simp

theorem without_text_append (later : List α) :
    needle.without (needle.text ++ later) = needle.without later := by
  have hcons : needle.text ++ later = needle.mark :: (needle.body ++ later) := rfl
  rw [hcons, without, if_pos, ← hcons, drop_left]
  rw [← hcons]
  exact prefix_append _ _

theorem without_cons {a : α} (h : ¬needle.text <+: a :: s) :
    needle.without (a :: s) = a :: needle.without s := by
  rw [without, if_neg h]

theorem without_of_part (h : needle.IsPart s) : needle.without s = s := by
  have hshort : s.length < needle.text.length := h.2
  clear h
  induction s with
  | nil => rw [without]
  | cons a s ih =>
    rw [without_cons fun hbegs => by have := hbegs.length_le; omega,
      ih (by rw [length_cons] at hshort; omega)]

/-- **A stream that goes on is searched from its remainder.** -/
theorem without_append (size : Nat) : ∀ {s : List α}, s.length ≤ size →
    ∃ done, needle.without s = done ++ needle.remainder s ∧
      ∀ later, needle.without (s ++ later) = done ++ needle.without (needle.remainder s ++ later) := by
  induction size with
  | zero =>
    intro s hsize
    rw [length_eq_zero_iff.1 (Nat.le_zero.1 hsize)]
    exact ⟨[], by rw [without]; rfl, fun later => rfl⟩
  | succ size ih =>
    intro s hsize
    by_cases hfnd : needle.text <+: s
    · obtain ⟨rest, rfl⟩ := hfnd
      obtain ⟨done, hdone, hltr⟩ := ih (s := rest) (by
        rw [length_append] at hsize
        unfold text at hsize
        rw [length_cons] at hsize
        omega)
      refine ⟨done, ?_, ?_⟩
      · rw [without_text_append, remainder_text_append, hdone]
      · intro later
        rw [append_assoc, without_text_append, hltr, remainder_text_append]
    · by_cases hpart : needle.IsPart s
      · rw [remainder_of_part hpart]
        exact ⟨[], without_of_part hpart, fun later => rfl⟩
      · cases s with
        | nil => exact absurd isPart_nil hpart
        | cons a s =>
          obtain ⟨done, hdone, hltr⟩ := ih (s := s) (by
            rw [length_cons] at hsize
            omega)
          have hrema : needle.remainder (a :: s) = needle.remainder s := if_neg hpart
          refine ⟨a :: done, ?_, ?_⟩
          · rw [without_cons hfnd, hrema, hdone]
            rfl
          · intro later
            have hnot : ¬needle.text <+: a :: (s ++ later) := fun h =>
              (prefix_or_part (s := a :: s) h).elim hfnd hpart
            rw [cons_append, without_cons hnot, hltr, hrema]
            rfl

/-! ### After the last occurrence -/

/-- What follows the last occurrence of the needle. -/
def afterLast (needle : Needle α) : List α → Option (List α)
  | [] => none
  | a :: s =>
    match afterLast needle s with
    | some rest => some rest
    | none =>
      if needle.text <+: a :: s then some ((a :: s).drop needle.text.length) else none

theorem afterLast_eq_none_iff : needle.afterLast s = none ↔ ¬needle.text <:+: s := by
  induction s with
  | nil =>
    refine ⟨fun _ h => ?_, fun _ => rfl⟩
    have := h.length_le
    simp [text] at this
  | cons a s ih =>
    unfold afterLast
    rw [infix_cons_iff, not_or]
    cases haft : needle.afterLast s with
    | some rest =>
      rw [haft] at ih
      simp only [reduceCtorEq, false_iff, not_not] at ih
      simp [ih]
    | none =>
      rw [haft] at ih
      dsimp only
      split
      · rename_i hbegs
        simp [hbegs]
      · rename_i hnot
        exact ⟨fun _ => ⟨hnot, ih.1 rfl⟩, fun _ => rfl⟩

theorem afterLast_of_part (h : needle.IsPart s) : needle.afterLast s = none := by
  rw [afterLast_eq_none_iff]
  intro hoccurs
  have := hoccurs.length_le
  have := h.2
  omega

theorem afterLast_spec {rest : List α} (h : needle.afterLast s = some rest) :
    (∃ before, s = before ++ needle.text ++ rest) ∧ ¬needle.text <:+: rest := by
  induction s with
  | nil => cases h
  | cons a s ih =>
    unfold afterLast at h
    cases haft : needle.afterLast s with
    | some rest' =>
      rw [haft] at h
      obtain rfl := Option.some.inj h
      obtain ⟨⟨before, hbef⟩, hnot⟩ := ih haft
      exact ⟨⟨a :: before, by rw [hbef]; rfl⟩, hnot⟩
    | none =>
      rw [haft] at h
      dsimp only at h
      split at h
      · rename_i hbegs
        obtain rfl := Option.some.inj h
        obtain ⟨rest, hrest⟩ := hbegs
        rw [← hrest, drop_left]
        refine ⟨⟨[], rfl⟩, ?_⟩
        intro hoccurs
        refine afterLast_eq_none_iff.1 haft ?_
        have hs : s = needle.body ++ rest := (List.cons.inj hrest).2.symm
        rw [hs]
        exact hoccurs.trans (suffix_append _ _).isInfix
      · cases h

/-- **The last occurrence in a stream that goes on.** -/
theorem afterLast_append (s later : List α) :
    needle.afterLast (s ++ later) = (needle.afterLast later).or
      (if needle.text <+: needle.remainder s ++ later then
        some ((needle.remainder s ++ later).drop needle.text.length)
      else (needle.afterLast s).map (· ++ later)) := by
  cases hltr : needle.afterLast later with
  | some rest =>
    rw [some_or]
    induction s with
    | nil => exact hltr
    | cons a s ih =>
      rw [cons_append]
      unfold afterLast
      rw [ih]
  | none =>
    rw [none_or]
    have hnot : ¬needle.text <+: later := fun h => afterLast_eq_none_iff.1 hltr h.isInfix
    induction s with
    | nil =>
      change needle.afterLast later = if needle.text <+: later then _ else none
      rw [if_neg hnot, hltr]
    | cons a s ih =>
      rw [cons_append]
      conv_lhs => unfold afterLast
      by_cases hpart : needle.IsPart (a :: s)
      · have hmarks := hpart.unmarked.2
        have hs : needle.IsPart s → s = [] := by
          intro hs
          cases s with
          | nil => rfl
          | cons b s => exact absurd (hs.unmarked.1 ▸ mem_cons_self) hmarks
        rw [remainder_of_unmarked hmarks, nil_append, if_neg hnot] at ih
        have hshort : needle.afterLast s = none := by
          rw [afterLast_eq_none_iff]
          intro hoccurs
          have := hoccurs.length_le
          have := hpart.2
          rw [length_cons] at this
          omega
        rw [hshort, map_none] at ih
        rw [ih, remainder_of_part hpart, afterLast_of_part hpart, map_none]
        rfl
      · have hrema : needle.remainder (a :: s) = needle.remainder s := if_neg hpart
        rw [ih, hrema]
        by_cases hfnd : needle.text <+: needle.remainder s ++ later
        · rw [if_pos hfnd, if_pos hfnd]
        · rw [if_neg hfnd, if_neg hfnd]
          conv_rhs => unfold afterLast
          cases haft : needle.afterLast s with
          | some rest => rfl
          | none =>
            rw [map_none]
            dsimp only
            by_cases hbegs : needle.text <+: a :: s
            · have hlong : needle.text <+: a :: (s ++ later) :=
                hbegs.trans (prefix_append (a :: s) later)
              rw [if_pos hbegs, if_pos hlong, map_some, ← cons_append,
                drop_append_of_le_length hbegs.length_le]
            · have hlong : ¬needle.text <+: a :: (s ++ later) := fun h =>
                (prefix_or_part (s := a :: s) h).elim hbegs hpart
              rw [if_neg hbegs, if_neg hlong, map_none]

/-! ### Pieces -/

/-- An occurrence in the stream ends in its last piece. -/
def Completes (needle : Needle α) (s piece : List α) : Prop :=
  ∃ before rest, s ++ piece = before ++ needle.text ++ rest ∧ rest.length < piece.length

/-- An occurrence ends in a piece if it is all in there, or begins with the remainder. -/
theorem completes_iff {piece : List α} :
    needle.Completes s piece ↔
      needle.text <:+: piece ∨ needle.text <+: needle.remainder s ++ piece := by
  constructor
  · rintro ⟨before, rest, heq, hrest⟩
    rw [append_assoc] at heq
    rcases append_eq_append_iff.1 heq with ⟨gap, -, hpiece⟩ | ⟨start, hs, hpiece⟩
    · exact .inl ⟨gap, rest, by rw [hpiece, append_assoc]⟩
    · cases start with
      | nil => exact .inl (IsPrefix.isInfix ⟨rest, hpiece⟩)
      | cons a start =>
        right
        have hstart : needle.IsPart (a :: start) := by
          have hbegs : a :: start <+: needle.text ++ rest := ⟨piece, hpiece.symm⟩
          have hlen := congrArg List.length hpiece
          rw [length_append, length_append] at hlen
          have hshort : (a :: start).length < needle.text.length := by omega
          exact ⟨prefix_of_prefix_length_le hbegs (prefix_append _ _) hshort.le, hshort⟩
        have hrema : needle.remainder s = a :: start := by
          rw [hs, remainder_append, remainder_of_part hstart]
          split
          · rename_i hpart
            cases hbef : needle.remainder before with
            | nil => rfl
            | cons b part =>
              rw [hbef] at hpart
              refine absurd ?_ hpart.unmarked.2
              rw [hstart.unmarked.1]
              simp
          · rfl
        rw [hrema, ← hpiece]
        exact prefix_append _ _
  · rintro (⟨before, rest, heq⟩ | ⟨rest, heq⟩)
    · refine ⟨s ++ before, rest, ?_, ?_⟩
      · rw [← heq]
        simp
      · rw [← heq]
        simp [text]
        omega
    · obtain ⟨before, hbef⟩ := needle.remainder_suffix s
      refine ⟨before, rest, ?_, ?_⟩
      · rw [append_assoc, heq, ← append_assoc, hbef]
      · have hlen := congrArg List.length heq
        have hpart := (needle.isPart_remainder s).2
        rw [length_append, length_append] at hlen
        omega

end Needle
