/-
Text as lists of characters: searching, splitting, trimming and reading a number.

The functions follow the string methods of the Rust standard library under the same names; they
work on lists of characters so that they are structurally recursive and every case of a scan is a
case of a list.

Main results:

* `Text.split_append_cons` — the first piece of a text ends at the first separator.
-/

import Mathlib.Algebra.Order.Ring.Int
import Mathlib.Data.List.DropRight

set_option autoImplicit false

namespace Text

open List

/-- The characters with the Unicode property `White_Space`. -/
def isWhitespace (c : Char) : Bool :=
  (9 ≤ c.val && c.val ≤ 13) || c.val == 0x20 || c.val == 0x85 || c.val == 0xA0 ||
    c.val == 0x1680 || (0x2000 ≤ c.val && c.val ≤ 0x200A) || c.val == 0x2028 ||
    c.val == 0x2029 || c.val == 0x202F || c.val == 0x205F || c.val == 0x3000

def isAsciiDigit (c : Char) : Bool := '0' ≤ c && c ≤ '9'

def isAsciiAlphabetic (c : Char) : Bool := ('a' ≤ c && c ≤ 'z') || ('A' ≤ c && c ≤ 'Z')

def isAsciiAlphanumeric (c : Char) : Bool := isAsciiAlphabetic c || isAsciiDigit c

/-- Drop the white space at the front. -/
def trimStart (cs : List Char) : List Char := cs.dropWhile isWhitespace

/-- Drop the white space at both ends. -/
def trim (cs : List Char) : List Char := (trimStart (trimStart cs).reverse).reverse

variable {cs : List Char}

theorem mem_of_mem_trim {c : Char} (h : c ∈ trim cs) : c ∈ cs := by
  have hstart : c ∈ trimStart (trimStart cs).reverse := mem_reverse.1 h
  have hend : c ∈ (trimStart cs).reverse := (dropWhile_suffix _).subset hstart
  exact (dropWhile_suffix _).subset (mem_reverse.1 hend)

theorem trim_trim (cs : List Char) : trim (trim cs) = trim cs := by
  have htrim : ∀ xs, trim xs = (xs.dropWhile isWhitespace).rdropWhile isWhitespace := fun _ => rfl
  rw [htrim, htrim]
  have hstart : ((cs.dropWhile isWhitespace).rdropWhile isWhitespace).dropWhile isWhitespace =
      (cs.dropWhile isWhitespace).rdropWhile isWhitespace := by
    rw [dropWhile_eq_self_iff]
    intro hpos
    have hstem := rdropWhile_prefix isWhitespace (cs.dropWhile isWhitespace)
    have hlen := hstem.length_le
    rw [hstem.getElem hpos]
    have hidem := dropWhile_idempotent isWhitespace cs
    exact dropWhile_eq_self_iff.1 hidem (by omega)
  rw [hstart, rdropWhile_idempotent]

theorem trim_sublist (cs : List Char) : (trim cs).Sublist cs := by
  have hstart : (trimStart cs).Sublist cs := dropWhile_sublist _
  have hend : (trimStart (trimStart cs).reverse).Sublist (trimStart cs).reverse :=
    dropWhile_sublist _
  have hback := hend.reverse
  rw [reverse_reverse] at hback
  exact hback.trans hstart

/-- A text that begins and ends with something visible is trimmed. -/
theorem trim_of_ends {a b : Char} (cs : List Char) (ha : isWhitespace a = false)
    (hb : isWhitespace b = false) : trim (a :: (cs ++ [b])) = a :: (cs ++ [b]) := by
  have hstart : trimStart (a :: (cs ++ [b])) = a :: (cs ++ [b]) :=
    dropWhile_cons_of_neg (by rw [ha]; exact Bool.false_ne_true)
  have hreve : (a :: (cs ++ [b])).reverse = b :: (a :: cs).reverse := by simp
  have hend : trimStart (b :: (a :: cs).reverse) = b :: (a :: cs).reverse :=
    dropWhile_cons_of_neg (by rw [hb]; exact Bool.false_ne_true)
  rw [trim, hstart, hreve, hend, ← hreve, reverse_reverse]

theorem trim_eq_of_length (h : cs.length ≤ (trim cs).length) : trim cs = cs :=
  (trim_sublist cs).eq_of_length_le h

theorem isWhitespace_of_graphic {c : Char} (hlow : '!' ≤ c) (hhigh : c ≤ '~') : isWhitespace c = false := by
  have hlow' : 33 ≤ c.val.toNat := hlow
  have hhigh' : c.val.toNat ≤ 126 := hhigh
  have hne : ∀ n : UInt32, 126 < n.toNat ∨ n.toNat < 33 → (c.val == n) = false := by
    intro n hn
    rw [beq_eq_false_iff_ne]
    rintro rfl
    omega
  have hrange : ∀ n m : UInt32, 126 < n.toNat ∨ m.toNat < 33 →
      (decide (n ≤ c.val) && decide (c.val ≤ m)) = false := by
    intro n m hn
    rw [Bool.and_eq_false_iff, decide_eq_false_iff_not, decide_eq_false_iff_not,
      UInt32.le_iff_toNat_le, UInt32.le_iff_toNat_le]
    omega
  unfold isWhitespace
  rw [hrange _ _ (by decide), hne _ (by decide), hne _ (by decide), hne _ (by decide), hne _ (by decide),
    hrange _ _ (by decide), hne _ (by decide), hne _ (by decide), hne _ (by decide),
    hne _ (by decide), hne _ (by decide)]
  rfl

theorem trim_of_forall (h : ∀ c ∈ cs, isWhitespace c = false) : trim cs = cs := by
  have hstart : trimStart cs = cs := by
    cases cs with
    | nil => rfl
    | cons c cs => simp [trimStart, h c (mem_cons_self ..)]
  have hend : trimStart cs.reverse = cs.reverse := by
    rcases hreve : cs.reverse with _ | ⟨c, rest⟩
    · rfl
    · have hc : c ∈ cs := mem_reverse.1 (hreve ▸ mem_cons_self ..)
      simp [trimStart, h c hc]
  rw [trim, hstart, hend, reverse_reverse]

/-- Whether nothing but white space is there. -/
def isBlank (s : String) : Bool := (trim s.toList).isEmpty

/-- The text before and after the first occurrence of `pat`. -/
def splitOnce (pat : List Char) : List Char → Option (List Char × List Char)
  | [] => if pat.isEmpty then some ([], []) else none
  | c :: cs =>
    if pat.isPrefixOf (c :: cs) then some ([], (c :: cs).drop pat.length)
    else (splitOnce pat cs).map fun p => (c :: p.1, p.2)

/-- The value of a digit. -/
def digitValue (c : Char) : Nat := c.toNat - '0'.toNat

/-- An unsigned decimal number below `2 ^ 64`, with an optional plus sign. -/
def parseU64 (cs : List Char) : Option Nat :=
  let digits := match cs with
    | '+' :: rest => rest
    | other => other
  if digits.isEmpty || !digits.all isAsciiDigit then none
  else
    let n := digits.foldl (fun acc c => acc * 10 + digitValue c) 0
    if n < 2 ^ 64 then some n else none

/-- The pieces of a text between the occurrences of a separating character. -/
def split (sep : Char) : List Char → List (List Char)
  | [] => [[]]
  | c :: cs =>
    if c = sep then [] :: split sep cs
    else
      match split sep cs with
      | [] => [[c]]
      | piece :: pieces => (c :: piece) :: pieces

variable {sep : Char}

theorem split_of_notMem (h : sep ∉ cs) : split sep cs = [cs] := by
  induction cs with
  | nil => rfl
  | cons c cs ih =>
    rw [mem_cons, not_or] at h
    rw [split, if_neg (Ne.symm h.1), ih h.2]

theorem split_append_cons {piece : List Char} (h : sep ∉ piece) (cs : List Char) :
    split sep (piece ++ sep :: cs) = piece :: split sep cs := by
  induction piece with
  | nil => rw [nil_append, split, if_pos rfl]
  | cons c piece ih =>
    rw [mem_cons, not_or] at h
    rw [cons_append, split, if_neg (Ne.symm h.1), ih h.2]

/-- The words of a text, between which there is nothing but white space. -/
def words : List Char → List (List Char)
  | [] => []
  | [c] => if isWhitespace c then [] else [[c]]
  | c :: d :: cs =>
    if isWhitespace c then words (d :: cs)
    else if isWhitespace d then [c] :: words cs
    else
      match words (d :: cs) with
      | [] => [[c]]
      | word :: rest => (c :: word) :: rest

/-- Drop a character at the end as often as it stands there. -/
def trimEndOf (sep : Char) (cs : List Char) : List Char :=
  (cs.reverse.dropWhile (· = sep)).reverse

theorem trimEndOf_isPrefix (sep : Char) (cs : List Char) : trimEndOf sep cs <+: cs :=
  rdropWhile_prefix _ cs

theorem trimEndOf_idem (sep : Char) (cs : List Char) : trimEndOf sep (trimEndOf sep cs) = trimEndOf sep cs :=
  rdropWhile_idempotent _ cs

theorem trimEndOf_concat (sep : Char) (cs : List Char) : trimEndOf sep (cs ++ [sep]) = trimEndOf sep cs :=
  rdropWhile_concat_pos _ _ _ (decide_eq_true rfl)

/-- A text without a character at its end does not end with it. -/
theorem not_ends_of_trimEndOf (front : List Char) (h : trimEndOf sep cs = cs) : cs ≠ front ++ [sep] := by
  rintro rfl
  rw [trimEndOf_concat] at h
  have hlen := (trimEndOf_isPrefix sep front).length_le
  rw [h, length_append, length_singleton] at hlen
  omega

/-- Write ASCII letters small. -/
def toAsciiLower (cs : List Char) : List Char :=
  cs.map fun c => if 'A' ≤ c && c ≤ 'Z' then Char.ofNat (c.toNat + 32) else c

theorem toAsciiLower_eq_self (h : ∀ c ∈ cs, ('A' ≤ c && c ≤ 'Z') = false) : toAsciiLower cs = cs := by
  unfold toAsciiLower
  calc cs.map _ = cs.map id := map_congr_left fun c hc => by rw [h c hc]; rfl
    _ = cs := map_id cs

/-- The text after a beginning that it has. -/
def stripPrefix (pat cs : List Char) : Option (List Char) :=
  if pat.isPrefixOf cs then some (cs.drop pat.length) else none

end Text
