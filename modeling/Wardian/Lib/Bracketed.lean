/-
Reading a stream of typed and pasted input.

A terminal that supports bracketed paste reads a stream from the front.  What stands between the mark
that opens a paste and the first mark behind it that closes one is a paste, whatever it contains;
outside a paste the submit key submits, and everything else is typed.

Main results:

* `Terminal.readsAs_pasted_iff` — a bracketed text is read so unless it contains the closing mark;
* `Terminal.readsAs_typed_iff` — a plain text unless it contains the opening mark or the submit key.
-/

import Wardian.Lib.Needle

set_option autoImplicit false

namespace Needle

open List

variable {α : Type} {needle : Needle α}

variable {s : List α}

/-- An element that the needle has only at its front, if at all, cannot be inside of it. -/
theorem prefix_of_prefix_append {a m : α} {later : List α} (hm : m ∉ needle.body)
    (h : needle.text <+: a :: (s ++ m :: later)) : needle.text <+: a :: s := by
  rcases Nat.lt_or_ge (a :: s).length needle.text.length with hlt | hle
  · exfalso
    obtain ⟨rest, hrest⟩ := h
    have hbody : needle.body ++ rest = s ++ m :: later := (List.cons.inj hrest).2
    have hget : needle.body[s.length]? = some m := by
      have hlen : s.length < needle.body.length := Nat.lt_of_succ_lt_succ hlt
      have hleft : (needle.body ++ rest)[s.length]? = needle.body[s.length]? :=
        getElem?_append_left hlen
      rw [← hleft, hbody, getElem?_append_right le_rfl]
      simp
    exact hm (mem_of_getElem? hget)
  · exact prefix_of_prefix_length_le h (prefix_append (a :: s) (m :: later)) hle

variable [DecidableEq α]

/-- What stands before the first occurrence of the needle. -/
def before (needle : Needle α) : List α → Option (List α)
  | [] => none
  | a :: s => if needle.text <+: a :: s then some [] else (before needle s).map (a :: ·)

theorem before_length {found : List α} (h : needle.before s = some found) :
    found.length + needle.text.length ≤ s.length := by
  induction s generalizing found with
  | nil => cases h
  | cons a s ih =>
    rw [before] at h
    split at h
    next hpre =>
      obtain rfl := Option.some.inj h
      simpa using hpre.length_le
    next =>
      obtain ⟨rest, hrest, rfl⟩ := Option.map_eq_some_iff.1 h
      have := ih hrest
      simp only [length_cons]
      omega

/-- The needle behind a text is the first one unless the text contains one. -/
theorem before_append_text {later : List α} :
    needle.before (s ++ (needle.text ++ later)) = some s ↔ ¬needle.text <:+: s := by
  induction s with
  | nil =>
    have hhead : needle.text ++ later = needle.mark :: (needle.body ++ later) := rfl
    have hpre : needle.text <+: needle.mark :: (needle.body ++ later) :=
      prefix_append needle.text later
    rw [nil_append, hhead, before, if_pos hpre]
    refine iff_of_true rfl ?_
    rw [infix_nil]
    exact cons_ne_nil _ _
  | cons a s ih =>
    rw [cons_append, before]
    split
    next hpre =>
      refine iff_of_false (by simp) ?_
      rw [not_not]
      exact (prefix_of_prefix_append needle.unmarked hpre).isInfix
    next hpre =>
      have hnot : ¬needle.text <+: a :: s := by
        intro h
        exact hpre (h.trans (prefix_append (a :: s) (needle.text ++ later)))
      rw [infix_cons_iff, not_or, and_iff_right hnot, ← ih, Option.map_eq_some_iff]
      constructor
      · rintro ⟨found, hfnd, heq⟩
        rw [hfnd, (List.cons.inj heq).2]
      · intro h
        exact ⟨s, h, rfl⟩

end Needle

namespace Bracketed

/-- One thing that a terminal reads. -/
inductive Input (α : Type)
  | typed (a : α)
  | pasted (text : List α)
  /-- A paste that is not closed. -/
  | pasting (text : List α)
  | submit
  deriving DecidableEq

structure Terminal (α : Type) where
  pasteStart : Needle α
  pasteEnd : Needle α
  submitKey : Needle α

namespace Terminal

variable {α : Type} [DecidableEq α] {t : Terminal α}

/-- What a terminal reads behind the first `skip` elements of a stream. -/
def readFrom (t : Terminal α) : Nat → List α → List (Input α)
  | _, [] => []
  | skip + 1, _ :: s => readFrom t skip s
  | 0, a :: s =>
    if t.pasteStart.text <+: a :: s then
      match t.pasteEnd.before (s.drop t.pasteStart.body.length) with
      | some text =>
        .pasted text ::
          readFrom t (t.pasteStart.body.length + text.length + t.pasteEnd.text.length) s
      | none => [.pasting (s.drop t.pasteStart.body.length)]
    else if t.submitKey.text <+: a :: s then .submit :: readFrom t t.submitKey.body.length s
    else .typed a :: readFrom t 0 s

/-- What a terminal reads in a stream. -/
def read (t : Terminal α) (s : List α) : List (Input α) := t.readFrom 0 s

/-- One text, as a paste or typed, and then one submit. -/
def ReadsAs (t : Terminal α) (s text : List α) : Prop :=
  t.read s = [.pasted text, .submit] ∨ t.read s = text.map .typed ++ [.submit]

instance (s text : List α) : Decidable (t.ReadsAs s text) := inferInstanceAs (Decidable (_ ∨ _))

theorem readFrom_drop (skip : Nat) (s : List α) : t.readFrom skip s = t.read (s.drop skip) := by
  induction s generalizing skip with
  | nil => cases skip <;> rfl
  | cons a s ih =>
    cases skip with
    | zero => rfl
    | succ skip => exact ih skip

variable {s : List α}

theorem read_paste {text : List α} (h : t.pasteEnd.before s = some text) :
    t.read (t.pasteStart.text ++ s) =
      .pasted text :: t.read (s.drop (text.length + t.pasteEnd.text.length)) := by
  have hpre : t.pasteStart.text <+: t.pasteStart.mark :: (t.pasteStart.body ++ s) :=
    List.prefix_append t.pasteStart.text s
  have hhead : t.pasteStart.text ++ s = t.pasteStart.mark :: (t.pasteStart.body ++ s) := rfl
  rw [read, hhead, readFrom, if_pos hpre, List.drop_left, h]
  refine congrArg (Input.pasted text :: ·) ?_
  rw [readFrom_drop, Nat.add_assoc, ← List.drop_drop, List.drop_left]

theorem read_pasting (h : t.pasteEnd.before s = none) : t.read (t.pasteStart.text ++ s) = [.pasting s] := by
  have hpre : t.pasteStart.text <+: t.pasteStart.mark :: (t.pasteStart.body ++ s) :=
    List.prefix_append t.pasteStart.text s
  have hhead : t.pasteStart.text ++ s = t.pasteStart.mark :: (t.pasteStart.body ++ s) := rfl
  rw [read, hhead, readFrom, if_pos hpre, List.drop_left, h]

theorem read_submit (h : ¬t.pasteStart.text <+: t.submitKey.text ++ s) :
    t.read (t.submitKey.text ++ s) = .submit :: t.read s := by
  have hhead : t.submitKey.text ++ s = t.submitKey.mark :: (t.submitKey.body ++ s) := rfl
  have hpre : t.submitKey.text <+: t.submitKey.mark :: (t.submitKey.body ++ s) :=
    List.prefix_append t.submitKey.text s
  rw [hhead] at h
  rw [read, hhead, readFrom, if_neg h, if_pos hpre, readFrom_drop, List.drop_left]

theorem read_typed {a : α} (hstart : ¬t.pasteStart.text <+: a :: s)
    (hsubmit : ¬t.submitKey.text <+: a :: s) : t.read (a :: s) = .typed a :: t.read s := by
  rw [read, readFrom, if_neg hstart, if_neg hsubmit]
  rfl

/-- A paste is read first only where the opening mark stands and a closing one behind it. -/
theorem paste_of_read {text : List α} {inputs : List (Input α)} (h : t.read s = .pasted text :: inputs) :
    ∃ later, s = t.pasteStart.text ++ later ∧ t.pasteEnd.before later = some text := by
  cases s with
  | nil => cases h
  | cons a s =>
    by_cases hstart : t.pasteStart.text <+: a :: s
    · obtain ⟨later, hltr⟩ := hstart
      refine ⟨later, hltr.symm, ?_⟩
      rw [← hltr] at h
      cases hbef : t.pasteEnd.before later with
      | none =>
        rw [read_pasting hbef] at h
        cases h
      | some found =>
        rw [read_paste hbef] at h
        rw [Input.pasted.inj (List.cons.inj h).1]
    · by_cases hsubmit : t.submitKey.text <+: a :: s
      · obtain ⟨later, hltr⟩ := hsubmit
        rw [← hltr] at h hstart
        rw [read_submit hstart] at h
        cases h
      · rw [read_typed hstart hsubmit] at h
        cases h

/-! ### One text and one submit -/

/-- The submit key begins like neither mark, and neither mark contains its first element behind its
front. -/
structure Distinct (t : Terminal α) : Prop where
  start_not_submit : ¬t.pasteStart.text <+: t.submitKey.text
  submit_short : t.submitKey.text.length < t.pasteStart.text.length + t.pasteEnd.text.length
  submit_mark : t.submitKey.mark ∉ t.pasteStart.body

theorem read_submitKey (h : t.Distinct) : t.read t.submitKey.text = [.submit] := by
  have hread : t.read (t.submitKey.text ++ []) = .submit :: t.read [] :=
    read_submit (by rw [List.append_nil]; exact h.start_not_submit)
  rw [List.append_nil] at hread
  rw [hread]
  rfl

/-- A bracketed text is read as one paste unless it contains the closing mark. -/
theorem readsAs_pasted_iff (h : t.Distinct) (text : List α) :
    t.ReadsAs (t.pasteStart.text ++ text ++ t.pasteEnd.text ++ t.submitKey.text) text ↔
      ¬t.pasteEnd.text <:+: text := by
  have hbef := @Needle.before_append_text α t.pasteEnd text _ t.submitKey.text
  rw [← hbef, List.append_assoc, List.append_assoc]
  constructor
  · intro hrds
    cases hbef : t.pasteEnd.before (text ++ (t.pasteEnd.text ++ t.submitKey.text)) with
    | none =>
      rw [ReadsAs, read_pasting hbef] at hrds
      rcases hrds with hread | hread
      · cases hread
      · cases text with
        | nil | cons a text => cases hread
    | some found =>
      rw [ReadsAs, read_paste hbef] at hrds
      rcases hrds with hread | hread
      · exact congrArg some (Input.pasted.inj (List.cons.inj hread).1)
      · cases text with
        | nil | cons a text => cases hread
  · intro hbef
    refine .inl ?_
    rw [read_paste hbef, ← List.length_append, ← List.append_assoc, List.drop_left,
      read_submitKey h]

theorem read_typed_text_iff (h : t.Distinct) (text : List α) :
    t.read (text ++ t.submitKey.text) = text.map .typed ++ [.submit] ↔
      ¬t.pasteStart.text <:+: text ∧ ¬t.submitKey.text <:+: text := by
  induction text with
  | nil =>
    refine iff_of_true (read_submitKey h) ?_
    rw [List.infix_nil, List.infix_nil]
    exact ⟨List.cons_ne_nil _ _, List.cons_ne_nil _ _⟩
  | cons a text ih =>
    have hkey : a :: text ++ t.submitKey.text =
        a :: (text ++ t.submitKey.mark :: t.submitKey.body) := rfl
    rw [List.infix_cons_iff, List.infix_cons_iff, hkey]
    by_cases hstart : t.pasteStart.text <+: a :: (text ++ t.submitKey.mark :: t.submitKey.body)
    · refine iff_of_false ?_ ?_
      · obtain ⟨later, hltr⟩ := hstart
        rw [← hltr]
        intro hread
        cases hbef : t.pasteEnd.before later with
        | none =>
          rw [read_pasting hbef] at hread
          cases hread
        | some found =>
          rw [read_paste hbef] at hread
          cases hread
      · rintro ⟨hnot, -⟩
        exact hnot (.inl (Needle.prefix_of_prefix_append h.submit_mark hstart))
    · have hstart' : ¬t.pasteStart.text <+: a :: text := by
        intro hpre
        exact hstart (hpre.trans (List.prefix_append (a :: text) _))
      by_cases hsubmit : t.submitKey.text <+: a :: (text ++ t.submitKey.mark :: t.submitKey.body)
      · refine iff_of_false ?_ ?_
        · obtain ⟨later, hltr⟩ := hsubmit
          rw [← hltr] at hstart
          rw [← hltr, read_submit hstart]
          intro hread
          cases hread
        · rintro ⟨-, hnot⟩
          exact hnot (.inl (Needle.prefix_of_prefix_append t.submitKey.unmarked hsubmit))
      · have hsubmit' : ¬t.submitKey.text <+: a :: text := by
          intro hpre
          exact hsubmit (hpre.trans (List.prefix_append (a :: text) _))
        have hrest : text ++ t.submitKey.mark :: t.submitKey.body = text ++ t.submitKey.text := rfl
        rw [read_typed hstart hsubmit, hrest, List.map_cons, List.cons_append, List.cons.injEq,
          and_iff_right rfl, ih, not_or, not_or, and_iff_right hstart', and_iff_right hsubmit']

/-- A plain text is read as typed unless it contains the opening mark or the submit key. -/
theorem readsAs_typed_iff (h : t.Distinct) (text : List α) :
    t.ReadsAs (text ++ t.submitKey.text) text ↔
      ¬t.pasteStart.text <:+: text ∧ ¬t.submitKey.text <:+: text := by
  rw [← read_typed_text_iff h]
  refine ⟨?_, .inr⟩
  rintro (hread | hread)
  · obtain ⟨later, hltr, hbef⟩ := paste_of_read hread
    have hfnd := Needle.before_length hbef
    have hlen := congrArg List.length hltr
    have hshort := h.submit_short
    simp only [List.length_append] at hlen
    omega
  · exact hread

end Terminal

end Bracketed
