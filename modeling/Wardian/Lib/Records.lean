/-
Records that are written one after the other.

A record is a key, a mark and a body.  The bodies say where they end and have no marks in them; the keys
are written as they are.  So the text of some records does not say what they are: a key may have other
records at its beginning.  That is the only way in which two lists of records have one text.

Main results:

* `Records.textOf_eq_iff` — the lists with one text are those that are equal or recut;
* `Records.Recut.marked` — there is none of that where no key has a mark in it.
-/

import Mathlib.Data.List.Basic

set_option autoImplicit false

namespace Records

open List

variable {α : Type}

structure Record (α : Type) where
  key : List α
  mark : α
  body : List α

def Record.text (record : Record α) : List α := record.key ++ record.mark :: record.body

/-- The record with another key. -/
def Record.rekey (record : Record α) (key : List α) : Record α := { record with key := key }

def textOf (records : List (Record α)) : List α := records.flatMap Record.text

theorem textOf_cons (record : Record α) (records : List (Record α)) :
    textOf (record :: records) = record.key ++ record.mark :: (record.body ++ textOf records) := by
  unfold textOf Record.text
  rw [flatMap_cons, append_assoc, cons_append]

variable {first record : Record α}

theorem textOf_rekey {key : List α} (h : record.key = first.text ++ key) (records : List (Record α)) :
    textOf (record :: records) = first.text ++ textOf (record.rekey key :: records) := by
  rw [textOf_cons, textOf_cons, h, append_assoc]
  rfl

/-- The same text, cut in different places: at least one key has a record of the other list at its
beginning, and goes on with what follows there. -/
inductive Recut : List (Record α) → List (Record α) → Prop
  | keep {left right : List (Record α)} (record : Record α) (h : Recut left right) :
      Recut (record :: left) (record :: right)
  | inRight {left right : List (Record α)} {first long : Record α} {key : List α}
      (hkey : long.key = first.text ++ key) (h : Recut left (long.rekey key :: right)) :
      Recut (first :: left) (long :: right)
  | inRightLast {right : List (Record α)} {first long : Record α} {key : List α}
      (hkey : long.key = first.text ++ key) :
      Recut (first :: long.rekey key :: right) (long :: right)
  | inLeft {left right : List (Record α)} {first long : Record α} {key : List α}
      (hkey : long.key = first.text ++ key) (h : Recut (long.rekey key :: left) right) :
      Recut (long :: left) (first :: right)
  | inLeftLast {left : List (Record α)} {first long : Record α} {key : List α}
      (hkey : long.key = first.text ++ key) :
      Recut (long :: left) (first :: long.rekey key :: left)

variable {left right : List (Record α)}

theorem Recut.textOf_eq (h : Recut left right) : textOf left = textOf right := by
  induction h with
  | keep record _ ih =>
    rw [textOf_cons, textOf_cons, ih]
  | inRight hkey _ ih =>
    rw [textOf_rekey hkey, ← ih]
    rfl
  | inRightLast hkey | inLeftLast hkey =>
    rw [textOf_rekey hkey]
    rfl
  | inLeft hkey _ ih =>
    rw [textOf_rekey hkey, ih]
    rfl

variable {long : Record α}

theorem ne_of_key {key : List α} (h : long.key = first.text ++ key) : first ≠ long := by
  rintro rfl
  have hlen := congrArg List.length h
  unfold Record.text at hlen
  rw [length_append, length_append, length_cons] at hlen
  omega

theorem Recut.ne (h : Recut left right) : left ≠ right := by
  induction h with
  | keep record _ ih =>
    intro heq
    exact ih (List.cons.inj heq).2
  | inRight hkey _ _ | inRightLast hkey =>
    intro heq
    exact ne_of_key hkey (List.cons.inj heq).1
  | inLeft hkey _ _ | inLeftLast hkey =>
    intro heq
    exact ne_of_key hkey (List.cons.inj heq).1.symm

/-- Bodies that have no marks in them and say where they end. -/
structure Bodies (IsMark : α → Prop) (IsBody : List α → Prop) : Prop where
  unmarked : ∀ body, IsBody body → ∀ a ∈ body, ¬IsMark a
  free : ∀ body body' rest rest', IsBody body → IsBody body' → body ++ rest = body' ++ rest' →
    body = body'

/-- Records with marks and bodies of these kinds. -/
def Framed (IsMark : α → Prop) (IsBody : List α → Prop) (records : List (Record α)) : Prop :=
  ∀ record ∈ records, IsMark record.mark ∧ IsBody record.body

variable {IsMark : α → Prop} {IsBody : List α → Prop}

theorem Framed.rekey {records : List (Record α)}
    (h : Framed IsMark IsBody (record :: records)) (key : List α) :
    Framed IsMark IsBody (record.rekey key :: records) := by
  intro other hmem
  rcases mem_cons.1 hmem with rfl | hmem
  · exact h record mem_cons_self
  · exact h other (mem_cons_of_mem _ hmem)

theorem Framed.tail {record : Record α} {records : List (Record α)}
    (h : Framed IsMark IsBody (record :: records)) : Framed IsMark IsBody records :=
  fun other hmem => h other (mem_cons_of_mem _ hmem)

/-- Where two lists are cut in different places, a key has a mark in it. -/
theorem Recut.marked (h : Recut left right) (hleft : Framed IsMark IsBody left)
    (hrt : Framed IsMark IsBody right) :
    ∃ record ∈ left ++ right, ∃ a ∈ record.key, IsMark a := by
  have hmark {first long : Record α} {key : List α} (hkey : long.key = first.text ++ key) :
      first.mark ∈ long.key := by simp [hkey, Record.text]
  induction h with
  | keep record _ ih =>
    obtain ⟨other, hmem, hmrkd⟩ := ih hleft.tail hrt.tail
    refine ⟨other, ?_, hmrkd⟩
    rcases mem_append.1 hmem with hmem | hmem <;> simp [hmem]
  | @inRight _ _ first long _ hkey | @inRightLast _ first long _ hkey =>
    exact ⟨long, by simp, first.mark, hmark hkey, (hleft first (by simp)).1⟩
  | @inLeft _ _ first long _ hkey | @inLeftLast _ first long _ hkey =>
    exact ⟨long, by simp, first.mark, hmark hkey, (hrt first (by simp)).1⟩

/-- A key that goes on where another has ended goes on with the whole of that record. -/
theorem exists_key_of_longer (hbods : Bodies IsMark IsBody) {rest rest' more : List α}
    (hbody : IsBody first.body) (hmark : IsMark long.mark) (hkey : long.key = first.key ++ more)
    (hne : more ≠ []) (htext : first.mark :: (first.body ++ rest) = more ++ long.mark :: rest') :
    ∃ key, long.key = first.text ++ key := by
  obtain ⟨mark, more, rfl⟩ := exists_cons_of_ne_nil hne
  rw [cons_append] at htext
  obtain ⟨rfl, hrest⟩ := List.cons.inj htext
  rcases append_eq_append_iff.1 hrest with ⟨key, rfl, _⟩ | ⟨key, hbodyeq, hmrkd⟩
  · exact ⟨key, by rw [hkey]; simp [Record.text]⟩
  · cases key with
    | nil =>
      rw [append_nil] at hbodyeq
      refine ⟨[], ?_⟩
      rw [hkey, append_nil, ← hbodyeq]
      rfl
    | cons a key =>
      obtain ⟨rfl, -⟩ := List.cons.inj hmrkd
      refine absurd hmark (hbods.unmarked _ hbody long.mark ?_)
      rw [hbodyeq]
      simp

/-- Two lists with one text begin with one record, or with one that begins the key of the other. -/
theorem first_cases (hbods : Bodies IsMark IsBody) {first' : Record α}
    (hleft : IsMark first.mark ∧ IsBody first.body) (hrt : IsMark first'.mark ∧ IsBody first'.body)
    (htext : textOf (first :: left) = textOf (first' :: right)) :
    first = first' ∨ (∃ key, first'.key = first.text ++ key) ∨
      ∃ key, first.key = first'.text ++ key := by
  rw [textOf_cons, textOf_cons] at htext
  rcases append_eq_append_iff.1 htext with ⟨more, hkey, hrest⟩ | ⟨more, hkey, hrest⟩
  · by_cases hne : more = []
    · left
      rw [hne, append_nil] at hkey
      rw [hne, nil_append] at hrest
      obtain ⟨hmark, hrest⟩ := List.cons.inj hrest
      have hbody := hbods.free _ _ _ _ hleft.2 hrt.2 hrest
      obtain ⟨key, mark, body⟩ := first
      obtain ⟨key', mark', body'⟩ := first'
      dsimp only at hkey hmark hbody
      rw [hkey, hmark, hbody]
    · exact .inr (.inl (exists_key_of_longer hbods hleft.2 hrt.1 hkey hne hrest))
  · by_cases hne : more = []
    · left
      rw [hne, append_nil] at hkey
      rw [hne, nil_append] at hrest
      obtain ⟨hmark, hrest⟩ := List.cons.inj hrest
      have hbody := hbods.free _ _ _ _ hrt.2 hleft.2 hrest
      obtain ⟨key, mark, body⟩ := first
      obtain ⟨key', mark', body'⟩ := first'
      dsimp only at hkey hmark hbody
      rw [hkey, hmark, hbody]
    · exact .inr (.inr (exists_key_of_longer hbods hrt.2 hleft.1 hkey hne hrest))

theorem eq_or_recut_of_textOf (hbods : Bodies IsMark IsBody) (size : Nat) :
    ∀ {left right : List (Record α)}, (textOf left).length ≤ size → Framed IsMark IsBody left →
      Framed IsMark IsBody right → textOf left = textOf right → left = right ∨ Recut left right := by
  induction size with
  | zero =>
    intro left right hsize hleft hrt htext
    rw [Nat.le_zero, length_eq_zero_iff] at hsize
    cases left with
    | cons first left =>
      rw [textOf_cons] at hsize
      simp at hsize
    | nil =>
      cases right with
      | nil => exact .inl rfl
      | cons first right =>
        rw [textOf_cons] at htext
        simp [textOf] at htext
  | succ size ih =>
    intro left right hsize hleft hrt htext
    cases left with
    | nil =>
      cases right with
      | nil => exact .inl rfl
      | cons first right =>
        rw [textOf_cons] at htext
        simp [textOf] at htext
    | cons first left =>
      cases right with
      | nil =>
        rw [textOf_cons] at htext
        simp [textOf] at htext
      | cons first' right =>
        have hshort : ∀ {rest}, textOf (first :: left) = first.text ++ rest →
            rest.length ≤ size := by
          intro rest heq
          rw [heq] at hsize
          unfold Record.text at hsize
          rw [length_append, length_append, length_cons] at hsize
          omega
        rcases first_cases hbods (hleft first mem_cons_self)
          (hrt first' mem_cons_self) htext with rfl | ⟨key, hkey⟩ | ⟨key, hkey⟩
        · have hrest : textOf left = textOf right := append_cancel_left htext
          rcases ih (hshort rfl) hleft.tail hrt.tail hrest with rfl | hrecut
          · exact .inl rfl
          · exact .inr (.keep first hrecut)
        · rw [textOf_rekey hkey] at htext
          have hrest : textOf left = textOf (first'.rekey key :: right) :=
            append_cancel_left htext
          rcases ih (hshort rfl) hleft.tail (hrt.rekey key) hrest with rfl | hrecut
          · exact .inr (.inRightLast hkey)
          · exact .inr (.inRight hkey hrecut)
        · have hsame := htext
          rw [textOf_rekey hkey] at hsame
          have hrest : textOf (first.rekey key :: left) = textOf right :=
            append_cancel_left hsame
          have hsize' : (textOf (first.rekey key :: left)).length ≤ size := by
            have hle := hsize
            rw [textOf_rekey hkey] at hle
            unfold Record.text at hle
            rw [length_append, length_append, length_cons] at hle
            omega
          rcases ih hsize' (hleft.rekey key) hrt.tail hrest with rfl | hrecut
          · exact .inr (.inLeftLast hkey)
          · exact .inr (.inLeft hkey hrecut)

/-- **Two lists have one text if and only if they are equal or recut.** -/
theorem textOf_eq_iff (hbods : Bodies IsMark IsBody) (hleft : Framed IsMark IsBody left)
    (hrt : Framed IsMark IsBody right) : textOf left = textOf right ↔ left = right ∨ Recut left right := by
  constructor
  · exact eq_or_recut_of_textOf hbods _ (Nat.le_refl _) hleft hrt
  · rintro (rfl | hrecut)
    · rfl
    · exact hrecut.textOf_eq

end Records
