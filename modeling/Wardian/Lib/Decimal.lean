/-
Numbers as ECMAScript writes them in decimal.

A finite number is written by its shortest digits and the place of the decimal point among them.  The
text has a whole part, a fraction and an exponent, and which of them are there depends on the place of
the point only; read back piece by piece it is the number.

Main results:

* `Decimal.Number.numeral_value` — the parts of a number's text have its value;
* `Decimal.Numeral.split_text`, `Decimal.Numeral.split_coefficient` — a text is taken apart into its
  parts.
-/

import Wardian.Lib.Text
import Mathlib.Algebra.Order.Ring.Rat
import Mathlib.Tactic.FieldSimp
import Mathlib.Tactic.Ring

set_option autoImplicit false

namespace Decimal

open Text
open List

/-- A finite number: `0.d₁d₂…` times ten to the power of `point`; there is always a digit. -/
structure Number where
  negative : Bool
  lead : Fin 10
  rest : List (Fin 10)
  point : Int

/-- The number that a text of digits stands for. -/
def ofDigits (cs : List Char) : Nat := Nat.ofDigitChars 10 cs 0

def Number.digits (x : Number) : List Char := (x.lead :: x.rest).map fun d => Nat.digitChar d.val

def signed (negative : Bool) (q : Rat) : Rat := if negative then -q else q

def Number.value (x : Number) : Rat :=
  signed x.negative (ofDigits x.digits * (10 : Rat) ^ (x.point - x.digits.length))

/-- The parts of the text of a number. -/
structure Numeral where
  negative : Bool
  whole : List Char
  fraction : List Char
  exponent : Option Int

namespace Numeral

/-- The exponent is written with its sign. -/
def exponentText (e : Int) : List Char := (if e < 0 then '-' else '+') :: Nat.toDigits 10 e.natAbs

def signText (num : Numeral) : List Char := if num.negative then ['-'] else []

def coefficient (num : Numeral) : List Char :=
  num.signText ++ num.whole ++ (if num.fraction.isEmpty then [] else '.' :: num.fraction)

def text (num : Numeral) : List Char :=
  num.coefficient ++ (match num.exponent with
    | none => []
    | some e => 'e' :: exponentText e)

def value (num : Numeral) : Rat :=
  signed num.negative (ofDigits (num.whole ++ num.fraction) *
    (10 : Rat) ^ (num.exponent.getD 0 - num.fraction.length))

/-- The digits of a numeral are digits. -/
structure Fine (num : Numeral) : Prop where
  nonempty : num.whole ≠ []
  whole : ∀ c ∈ num.whole, c.isDigit = true
  fraction : ∀ c ∈ num.fraction, c.isDigit = true

end Numeral

namespace Number

/-- How a number is written: with zeros behind the digits or before them, with the point among them, or
with an exponent. -/
def numeral (x : Number) : Numeral :=
  let k : Int := x.digits.length
  if k ≤ x.point ∧ x.point ≤ 21 then
    { negative := x.negative, whole := x.digits ++ replicate (x.point - k).toNat '0',
      fraction := [], exponent := none }
  else if 0 < x.point ∧ x.point ≤ 21 then
    { negative := x.negative, whole := x.digits.take x.point.toNat,
      fraction := x.digits.drop x.point.toNat, exponent := none }
  else if -6 < x.point ∧ x.point ≤ 0 then
    { negative := x.negative, whole := ['0'],
      fraction := replicate (-x.point).toNat '0' ++ x.digits, exponent := none }
  else
    { negative := x.negative, whole := x.digits.take 1, fraction := x.digits.drop 1,
      exponent := some (x.point - 1) }

/-- The text of a number. -/
def toText (x : Number) : List Char := x.numeral.text

example : String.ofList (toText { negative := false, lead := 1, rest := [2, 5], point := 0 }) = "0.125" := by
  decide +kernel

end Number

/-- An integer from its digits, with an optional sign. -/
def parseInt : List Char → Option Int
  | '-' :: cs => (parseNat cs).map fun n => -(n : Int)
  | '+' :: cs => (parseNat cs).map fun n => (n : Int)
  | cs => (parseNat cs).map fun n => (n : Int)
where
  parseNat (cs : List Char) : Option Nat :=
    if cs.isEmpty || !cs.all Char.isDigit then none else some (ofDigits cs)

/-! ### Digits -/

theorem ofDigits_append (cs ds : List Char) :
    ofDigits (cs ++ ds) = 10 ^ ds.length * ofDigits cs + ofDigits ds := by
  unfold ofDigits
  rw [Nat.ofDigitChars_append, Nat.ofDigitChars_eq_ofDigitChars_zero]

theorem ofDigits_zeros (n : Nat) : ofDigits (replicate n '0') = 0 := by
  unfold ofDigits
  rw [Nat.ofDigitChars_replicate_zero, Nat.mul_zero]

theorem isDigit_replicate {n : Nat} {c : Char} (hc : c ∈ replicate n '0') : c.isDigit = true := by
  rw [eq_of_mem_replicate hc]
  rfl

theorem isDigit_digitChar (d : Fin 10) : (Nat.digitChar d.val).isDigit = true := by
  revert d
  decide

namespace Number

variable (x : Number)

theorem isDigit_digits {c : Char} (hc : c ∈ x.digits) : c.isDigit = true := by
  obtain ⟨d, -, rfl⟩ := mem_map.mp hc
  exact isDigit_digitChar d

theorem digits_ne_nil : x.digits ≠ [] := cons_ne_nil _ _

theorem numeral_fine : x.numeral.Fine := by
  have hdigs : ∀ c ∈ x.digits, c.isDigit = true := fun c hc => x.isDigit_digits hc
  unfold numeral
  simp only
  split
  · refine ⟨?_, ?_, ?_⟩
    · exact append_ne_nil_of_left_ne_nil x.digits_ne_nil _
    · intro c hc
      exact (mem_append.mp hc).elim (hdigs c) isDigit_replicate
    · intro c hc
      exact absurd hc not_mem_nil
  · split
    · rename_i hpoint
      refine ⟨?_, fun c hc => hdigs c (mem_of_mem_take hc),
        fun c hc => hdigs c (mem_of_mem_drop hc)⟩
      rw [ne_eq, take_eq_nil_iff, not_or]
      exact ⟨by omega, x.digits_ne_nil⟩
    · split
      · refine ⟨cons_ne_nil _ _, ?_, ?_⟩
        · intro c hc
          rw [mem_singleton.mp hc]
          rfl
        · intro c hc
          exact (mem_append.mp hc).elim isDigit_replicate (hdigs c)
      · refine ⟨?_, fun c hc => hdigs c (mem_of_mem_take hc),
          fun c hc => hdigs c (mem_of_mem_drop hc)⟩
        rw [ne_eq, take_eq_nil_iff, not_or]
        exact ⟨Nat.one_ne_zero, x.digits_ne_nil⟩

theorem numeral_value : x.numeral.value = x.value := by
  have hlen := length_pos_iff.mpr x.digits_ne_nil
  unfold numeral
  simp only
  split
  · rename_i hpoint
    have hpow : x.point - x.digits.length = ((x.point - x.digits.length).toNat : Int) := by omega
    unfold Numeral.value value
    rw [append_nil, ofDigits_append, ofDigits_zeros, hpow, zpow_natCast, length_replicate]
    simp only [Option.getD_none, length_nil, Nat.cast_zero, sub_zero, zpow_zero, mul_one, add_zero,
      Nat.cast_mul, Nat.cast_pow, Nat.cast_ofNat]
    rw [Int.toNat_natCast, mul_comm]
  · split
    · have hpow : (0 : Int) - (x.digits.drop x.point.toNat).length = x.point - x.digits.length := by
        rw [length_drop]
        omega
      unfold Numeral.value value
      rw [take_append_drop, Option.getD_none, hpow]
    · split
      · have hpow : (0 : Int) - (replicate (-x.point).toNat '0' ++ x.digits).length =
            x.point - x.digits.length := by
          rw [length_append, length_replicate]
          omega
        have hzero : ofDigits ['0'] = 0 := rfl
        unfold Numeral.value value
        rw [ofDigits_append, ofDigits_append, hzero, ofDigits_zeros, Option.getD_none, hpow,
          Nat.mul_zero, Nat.mul_zero, Nat.zero_add, Nat.zero_add]
      · have hpow : x.point - 1 - (x.digits.drop 1).length = x.point - x.digits.length := by
          rw [length_drop]
          omega
        unfold Numeral.value value
        rw [take_append_drop, Option.getD_some, hpow]

end Number

/-! ### Reading a numeral -/

variable {cs : List Char}

theorem parseNat_eq (hnil : cs ≠ []) (hall : ∀ c ∈ cs, c.isDigit = true) :
    parseInt.parseNat cs = some (ofDigits cs) := by
  unfold parseInt.parseNat
  rw [if_neg]
  rw [all_eq_true.mpr hall, isEmpty_eq_false_iff.mpr hnil]
  exact Bool.false_ne_true

theorem parseInt_negative (hnil : cs ≠ []) (hall : ∀ c ∈ cs, c.isDigit = true) :
    parseInt ('-' :: cs) = some (-(ofDigits cs : Int)) := by
  rw [parseInt, parseNat_eq hnil hall]
  rfl

theorem parseInt_positive (hnil : cs ≠ []) (hall : ∀ c ∈ cs, c.isDigit = true) :
    parseInt ('+' :: cs) = some (ofDigits cs : Int) := by
  rw [parseInt, parseNat_eq hnil hall]
  rfl

theorem parseInt_digits (hnil : cs ≠ []) (hall : ∀ c ∈ cs, c.isDigit = true) :
    parseInt cs = some (ofDigits cs : Int) := by
  unfold parseInt
  split
  · exact absurd (hall '-' mem_cons_self) (by decide)
  · exact absurd (hall '+' mem_cons_self) (by decide)
  · rw [parseNat_eq hnil hall]
    rfl

theorem parseInt_exponentText (e : Int) : parseInt (Numeral.exponentText e) = some e := by
  have hnil : Nat.toDigits 10 e.natAbs ≠ [] := ne_nil_of_length_pos Nat.length_toDigits_pos
  have hall : ∀ c ∈ Nat.toDigits 10 e.natAbs, c.isDigit = true := fun c hc =>
    Nat.isDigit_of_mem_toDigits (by decide) (by decide) hc
  have hvl : ofDigits (Nat.toDigits 10 e.natAbs) = e.natAbs := Nat.ofDigitChars_ten_toDigits
  unfold Numeral.exponentText
  split
  · rw [parseInt_negative hnil hall, hvl]
    exact congrArg some (by omega)
  · rw [parseInt_positive hnil hall, hvl]
    exact congrArg some (by omega)

namespace Numeral

variable {num : Numeral}

theorem parseInt_signText {cs : List Char} (hnil : cs ≠ []) (hall : ∀ c ∈ cs, c.isDigit = true) :
    parseInt (num.signText ++ cs) = some (if num.negative then -(ofDigits cs : Int) else ofDigits cs) := by
  unfold signText
  cases num.negative with
  | true => exact parseInt_negative hnil hall
  | false => exact parseInt_digits hnil hall

variable {c : Char}

theorem not_capital_of_isDigit (h : c.isDigit = true) : ('A' ≤ c && c ≤ 'Z') = false := by
  have hle : c.val ≤ 57 := of_decide_eq_true (Bool.and_eq_true_iff.mp h).2
  have hlt : ¬ 'A' ≤ c := fun hge => absurd (UInt32.le_trans hge hle) (by decide)
  rw [decide_eq_false hlt]
  rfl

theorem mem_coefficient (h : num.Fine) (hc : c ∈ num.coefficient) : c.isDigit = true ∨ c = '-' ∨ c = '.' := by
  unfold coefficient signText at hc
  rw [mem_append, mem_append] at hc
  rcases hc with (hc | hc) | hc
  · split at hc
    · exact .inr (.inl (mem_singleton.mp hc))
    · exact absurd hc not_mem_nil
  · exact .inl (h.whole c hc)
  · split at hc
    · exact absurd hc not_mem_nil
    · rcases mem_cons.mp hc with hc | hc
      · exact .inr (.inr hc)
      · exact .inl (h.fraction c hc)

theorem mem_exponentText {e : Int} (hc : c ∈ exponentText e) : c.isDigit = true ∨ c = '-' ∨ c = '+' := by
  rcases mem_cons.mp hc with hc | hc
  · split at hc
    · exact .inr (.inl hc)
    · exact .inr (.inr hc)
  · exact .inl (Nat.isDigit_of_mem_toDigits (by decide) (by decide) hc)

theorem toAsciiLower_text (h : num.Fine) : toAsciiLower num.text = num.text := by
  refine toAsciiLower_eq_self ?_
  intro c hc
  rcases mem_append.mp hc with hc | hc
  · rcases mem_coefficient h hc with hdig | rfl | rfl
    · exact not_capital_of_isDigit hdig
    · rfl
    · rfl
  · cases hexpo : num.exponent with
    | none =>
      rw [hexpo] at hc
      exact absurd hc not_mem_nil
    | some e =>
      rw [hexpo] at hc
      rcases mem_cons.mp hc with rfl | hc
      · rfl
      · rcases mem_exponentText hc with hdig | rfl | rfl
        · exact not_capital_of_isDigit hdig
        · rfl
        · rfl

theorem split_text (h : num.Fine) :
    Text.split 'e' num.text = num.coefficient :: (num.exponent.map exponentText).toList := by
  have hcoef : 'e' ∉ num.coefficient := by
    intro hmem
    rcases mem_coefficient h hmem with hc | hc | hc <;> exact absurd hc (by decide)
  unfold text
  cases num.exponent with
  | none =>
    rw [append_nil]
    exact split_of_notMem hcoef
  | some e =>
    have hexpo : 'e' ∉ exponentText e := by
      intro hmem
      rcases mem_exponentText hmem with hc | hc | hc <;> exact absurd hc (by decide)
    rw [split_append_cons hcoef, split_of_notMem hexpo]
    rfl

theorem split_coefficient (h : num.Fine) :
    Text.split '.' num.coefficient =
      (num.signText ++ num.whole) :: (if num.fraction.isEmpty then [] else [num.fraction]) := by
  have hwhl : '.' ∉ num.signText ++ num.whole := by
    intro hmem
    rcases mem_append.mp hmem with hc | hc
    · unfold signText at hc
      split at hc
      · exact absurd (mem_singleton.mp hc) (by decide)
      · exact absurd hc not_mem_nil
    · exact absurd (h.whole '.' hc) (by decide)
  have hfrac : '.' ∉ num.fraction := fun hmem => absurd (h.fraction '.' hmem) (by decide)
  unfold coefficient
  split
  · rw [append_nil]
    exact split_of_notMem hwhl
  · rw [split_append_cons hwhl, split_of_notMem hfrac]

end Numeral

end Decimal
