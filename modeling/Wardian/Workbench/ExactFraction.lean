/-
Exact fractions of the workbench model.

The window divides its surface with fractions of unbounded integers, kept in lowest terms, and takes the
ratio of a split from the decimal digits the number is written with; no place is ever rounded.

Main results:

* `WorkbenchModel.greatestCommonDivisor_eq` — the loop finds the greatest common divisor;
* `WorkbenchModel.decimalNumberAsExactFraction_value` — the fraction of a number is its decimal value;
* `WorkbenchModel.exactBoundary_value` — a cut is where its ratio says, exactly.
-/

import Wardian.Lib.Decimal
import Wardian.Lib.Tiling

set_option autoImplicit false

namespace Wardian.WorkbenchModel

open Decimal

structure ExactFraction where
  numerator : Int
  denominator : Int

def exactZero : ExactFraction := { numerator := 0, denominator := 1 }
def exactOne : ExactFraction := { numerator := 1, denominator := 1 }

/-- The loop of `greatestCommonDivisor`. -/
def remainders (left right : Int) : Int :=
  if right = 0 then left else remainders right (left.tmod right)
termination_by right.natAbs
decreasing_by
  rw [Int.natAbs_tmod]
  exact Nat.mod_lt _ (Int.natAbs_pos.mpr ‹_›)

def greatestCommonDivisor (first second : Int) : Int :=
  let left := if first < 0 then -first else first
  let right := if second < 0 then -second else second
  let divisor := remainders left right
  if divisor = 0 then 1 else divisor

def exactFraction (numerator denominator : Int) : ExactFraction :=
  let sign : Int := if denominator < 0 then -1 else 1
  let divisor := greatestCommonDivisor numerator denominator
  { numerator := numerator.tdiv divisor * sign, denominator := denominator.tdiv divisor * sign }

/-- The text of a number is read in pieces: `BigInt` of the digits, and `Number` of the exponent. -/
def decimalNumberAsExactFraction (value : Decimal.Number) : Option ExactFraction := do
  let parts := Text.split 'e' (Text.toAsciiLower value.toText)
  let pieces := Text.split '.' (parts.headD [])
  let whole := pieces.headD []
  let fraction := pieces.tail.headD []
  let exponent ← parts.tail.head?.elim (some 0) parseInt
  let digits ← parseInt (whole ++ fraction)
  let scale : Int := fraction.length - exponent
  if 0 ≤ scale then some (exactFraction digits (10 ^ scale.toNat))
  else some (exactFraction (digits * 10 ^ (-scale).toNat) 1)

def addExact (first second : ExactFraction) : ExactFraction :=
  exactFraction (first.numerator * second.denominator + second.numerator * first.denominator)
    (first.denominator * second.denominator)

def subtractExact (first second : ExactFraction) : ExactFraction :=
  exactFraction (first.numerator * second.denominator - second.numerator * first.denominator)
    (first.denominator * second.denominator)

def multiplyExact (first second : ExactFraction) : ExactFraction :=
  exactFraction (first.numerator * second.numerator) (first.denominator * second.denominator)

def compareExact (first second : ExactFraction) : Int :=
  let difference := first.numerator * second.denominator - second.numerator * first.denominator
  if difference < 0 then -1 else if 0 < difference then 1 else 0

def exactBoundary (start stop : ExactFraction) (ratio : Decimal.Number) : Option ExactFraction := do
  let ratio ← decimalNumberAsExactFraction ratio
  some (addExact start (multiplyExact (subtractExact stop start) ratio))

/-! ### Lowest terms -/

theorem gcd_tmod (left right : Int) : Int.gcd right (left.tmod right) = Int.gcd left right := by
  unfold Int.gcd
  rw [Int.natAbs_tmod, Nat.gcd_comm left.natAbs, Nat.gcd_rec right.natAbs left.natAbs, Nat.gcd_comm]

theorem remainders_eq {left right : Int} (hleft : 0 ≤ left) (hrt : 0 ≤ right) :
    remainders left right = Int.gcd left right := by
  induction left, right using remainders.induct with
  | case1 left =>
    rw [remainders, if_pos rfl, Int.gcd_zero_right]
    omega
  | case2 left right hne ih =>
    rw [remainders, if_neg hne, ih hrt (Int.tmod_nonneg right hleft), gcd_tmod]

theorem greatestCommonDivisor_eq (first second : Int) :
    greatestCommonDivisor first second =
      if Int.gcd first second = 0 then 1 else (Int.gcd first second : Int) := by
  have habs : ∀ n : Int, (if n < 0 then -n else n) = n.natAbs := by
    intro n
    split <;> omega
  unfold greatestCommonDivisor
  simp only [habs]
  have hgcd : Int.gcd first.natAbs second.natAbs = Int.gcd first second := rfl
  rw [remainders_eq (Int.natCast_nonneg _) (Int.natCast_nonneg _), hgcd]
  simp only [Int.natCast_eq_zero]

namespace ExactFraction

/-- The number of a fraction. -/
def value (fraction : ExactFraction) : Rat := fraction.numerator / fraction.denominator

/-- The denominator is positive. -/
def Fine (fraction : ExactFraction) : Prop := 0 < fraction.denominator

theorem Fine.cast_pos {fraction : ExactFraction} (h : fraction.Fine) : (0 : Rat) < fraction.denominator :=
  Int.cast_pos.mpr h

end ExactFraction

open ExactFraction

variable {numerator denominator : Int}

/-- Both parts of a fraction are divided by the same number, which makes the denominator positive. -/
theorem exactFraction_eq (hne : denominator ≠ 0) :
    ∃ divisor : Int, divisor ≠ 0 ∧ numerator = (exactFraction numerator denominator).numerator * divisor ∧
      denominator = (exactFraction numerator denominator).denominator * divisor ∧
      (exactFraction numerator denominator).Fine := by
  have hgcd : Int.gcd numerator denominator ≠ 0 := fun hzero => hne (Int.gcd_eq_zero_iff.mp hzero).2
  have hpos : (0 : Int) < Int.gcd numerator denominator := by omega
  obtain ⟨p, hp⟩ := Int.gcd_dvd_left numerator denominator
  obtain ⟨q, hq⟩ := Int.gcd_dvd_right numerator denominator
  have hnum : numerator.tdiv (Int.gcd numerator denominator) = p :=
    Int.tdiv_eq_of_eq_mul_right hpos.ne' hp
  have hden : denominator.tdiv (Int.gcd numerator denominator) = q :=
    Int.tdiv_eq_of_eq_mul_right hpos.ne' hq
  unfold exactFraction
  simp only [greatestCommonDivisor_eq, if_neg hgcd, hnum, hden, Fine]
  generalize (Int.gcd numerator denominator : Int) = divisor at hp hq hpos
  split
  · rename_i hneg
    refine ⟨-divisor, neg_ne_zero.mpr hpos.ne', ?_, ?_, ?_⟩
    · rw [hp]
      ring
    · rw [hq]
      ring
    · rw [hq] at hneg
      have := neg_of_mul_neg_right hneg hpos.le
      omega
  · rename_i hnonneg
    have hden_pos : 0 < divisor * q := hq ▸ lt_of_le_of_ne (not_lt.mp hnonneg) (Ne.symm hne)
    refine ⟨divisor, hpos.ne', ?_, ?_, ?_⟩
    · rw [hp]
      ring
    · rw [hq]
      ring
    · rw [mul_one]
      exact pos_of_mul_pos_right hden_pos hpos.le

theorem exactFraction_fine (hne : denominator ≠ 0) : (exactFraction numerator denominator).Fine := by
  obtain ⟨divisor, -, -, -, hfine⟩ := @exactFraction_eq numerator denominator hne
  exact hfine

theorem exactFraction_value (hne : denominator ≠ 0) :
    (exactFraction numerator denominator).value = numerator / denominator := by
  obtain ⟨divisor, hdivi, hnum, hden, -⟩ := @exactFraction_eq numerator denominator hne
  have hcast : (divisor : Rat) ≠ 0 := Int.cast_ne_zero.mpr hdivi
  have hnum' : (numerator : Rat) = (exactFraction numerator denominator).numerator * divisor := by
    exact_mod_cast hnum
  have hden' : (denominator : Rat) = (exactFraction numerator denominator).denominator * divisor := by
    exact_mod_cast hden
  unfold value
  rw [hnum', hden', mul_div_mul_right _ _ hcast]

/-! ### Arithmetic -/

variable {first second : ExactFraction}

theorem addExact_fine (hfst : first.Fine) (hsec : second.Fine) : (addExact first second).Fine :=
  exactFraction_fine (mul_pos hfst hsec).ne'

theorem subtractExact_fine (hfst : first.Fine) (hsec : second.Fine) :
    (subtractExact first second).Fine :=
  exactFraction_fine (mul_pos hfst hsec).ne'

theorem multiplyExact_fine (hfst : first.Fine) (hsec : second.Fine) :
    (multiplyExact first second).Fine :=
  exactFraction_fine (mul_pos hfst hsec).ne'

theorem addExact_value (hfst : first.Fine) (hsec : second.Fine) :
    (addExact first second).value = first.value + second.value := by
  unfold addExact
  rw [exactFraction_value (mul_pos hfst hsec).ne']
  unfold value
  rw [div_add_div _ _ hfst.cast_pos.ne' hsec.cast_pos.ne']
  push_cast
  ring

theorem subtractExact_value (hfst : first.Fine) (hsec : second.Fine) :
    (subtractExact first second).value = first.value - second.value := by
  unfold subtractExact
  rw [exactFraction_value (mul_pos hfst hsec).ne']
  unfold value
  rw [div_sub_div _ _ hfst.cast_pos.ne' hsec.cast_pos.ne']
  push_cast
  ring

theorem multiplyExact_value (hfst : first.Fine) (hsec : second.Fine) :
    (multiplyExact first second).value = first.value * second.value := by
  unfold multiplyExact
  rw [exactFraction_value (mul_pos hfst hsec).ne']
  unfold value
  rw [div_mul_div_comm]
  push_cast
  rfl

/-- The difference that is compared has the sign of the difference of the numbers. -/
theorem compareExact_eq (hfst : first.Fine) (hsec : second.Fine) :
    compareExact first second =
      if first.value < second.value then -1 else if second.value < first.value then 1 else 0 := by
  have hlt : ∀ {f g : ExactFraction}, f.Fine → g.Fine →
      (f.value < g.value ↔ f.numerator * g.denominator < g.numerator * f.denominator) := by
    intro f g hf hg
    unfold value
    rw [div_lt_div_iff₀ hf.cast_pos hg.cast_pos]
    exact_mod_cast Iff.rfl
  unfold compareExact
  simp only [hlt hfst hsec, hlt hsec hfst, sub_neg, sub_pos]

theorem compareExact_eq_zero (hfst : first.Fine) (hsec : second.Fine) :
    compareExact first second = 0 ↔ first.value = second.value := by
  rw [compareExact_eq hfst hsec]
  rcases lt_trichotomy first.value second.value with h | h | h
  · rw [if_pos h]
    exact ⟨fun heq => absurd heq (by decide), fun heq => absurd heq h.ne⟩
  · rw [if_neg h.not_lt, if_neg h.not_gt]
    exact ⟨fun _ => h, fun _ => rfl⟩
  · rw [if_neg h.le.not_gt, if_pos h]
    exact ⟨fun heq => absurd heq (by decide), fun heq => absurd heq h.ne'⟩

theorem compareExact_pos (hfst : first.Fine) (hsec : second.Fine) :
    0 < compareExact first second ↔ second.value < first.value := by
  rw [compareExact_eq hfst hsec]
  rcases lt_trichotomy first.value second.value with h | h | h
  · rw [if_pos h]
    exact ⟨fun hpos => absurd hpos (by decide), fun hgt => absurd hgt h.not_gt⟩
  · rw [if_neg h.not_lt, if_neg h.not_gt]
    exact ⟨fun hpos => absurd hpos (by decide), fun hgt => absurd hgt h.not_gt⟩
  · rw [if_neg h.le.not_gt, if_pos h]
    exact ⟨fun _ => h, fun _ => by decide⟩

theorem later_value (hfst : first.Fine) (hsec : second.Fine) :
    (if 0 ≤ compareExact first second then first else second).value = max first.value second.value := by
  rw [compareExact_eq hfst hsec]
  rcases lt_trichotomy first.value second.value with h | h | h
  · rw [if_pos h, if_neg (by decide), max_eq_right h.le]
  · rw [if_neg h.not_lt, if_neg h.not_gt, if_pos (by decide), max_eq_left h.ge]
  · rw [if_neg h.le.not_gt, if_pos h, if_pos (by decide), max_eq_left h.le]

theorem earlier_value (hfst : first.Fine) (hsec : second.Fine) :
    (if compareExact first second ≤ 0 then first else second).value = min first.value second.value := by
  rw [compareExact_eq hfst hsec]
  rcases lt_trichotomy first.value second.value with h | h | h
  · rw [if_pos h, if_pos (by decide), min_eq_left h.le]
  · rw [if_neg h.not_lt, if_neg h.not_gt, if_pos (by decide), min_eq_left h.le]
  · rw [if_neg h.le.not_gt, if_pos h, if_neg (by decide), min_eq_right h.le]

/-! ### The ratio of a split -/

theorem signed_mul (negative : Bool) (n : Nat) (q : Rat) :
    (((if negative then -(n : Int) else n : Int) : Int) : Rat) * q = signed negative (n * q) := by
  unfold signed
  cases negative with
  | true =>
    rw [if_pos rfl, if_pos rfl]
    push_cast
    ring
  | false =>
    rw [if_neg Bool.false_ne_true, if_neg Bool.false_ne_true]
    push_cast
    rfl

/-- The digits are divided by a power of ten, or multiplied by one. -/
theorem scaled_value (digits scale : Int) :
    ∃ fraction, (if 0 ≤ scale then some (exactFraction digits (10 ^ scale.toNat))
        else some (exactFraction (digits * 10 ^ (-scale).toNat) 1)) = some fraction ∧ fraction.Fine ∧
      fraction.value = digits * (10 : Rat) ^ (-scale) := by
  split
  · rename_i hscale
    have hne : (10 : Int) ^ scale.toNat ≠ 0 := pow_ne_zero _ (by decide)
    have hpow : scale = (scale.toNat : Int) := by omega
    refine ⟨_, rfl, exactFraction_fine hne, ?_⟩
    rw [exactFraction_value hne, div_eq_mul_inv]
    congr 1
    conv_rhs => rw [hpow, zpow_neg, zpow_natCast]
    push_cast
    rfl
  · have hpow : -scale = ((-scale).toNat : Int) := by omega
    refine ⟨_, rfl, exactFraction_fine one_ne_zero, ?_⟩
    rw [exactFraction_value one_ne_zero]
    conv_rhs => rw [hpow, zpow_natCast]
    push_cast
    exact div_one _

theorem decimalNumberAsExactFraction_value (x : Decimal.Number) :
    ∃ fraction, decimalNumberAsExactFraction x = some fraction ∧ fraction.Fine ∧
      fraction.value = x.value := by
  have hfine := x.numeral_fine
  rw [← x.numeral_value]
  unfold decimalNumberAsExactFraction Decimal.Number.toText
  generalize x.numeral = num at hfine
  have hfrac : (if num.fraction.isEmpty then [] else [num.fraction]).headD [] = num.fraction := by
    cases num.fraction <;> rfl
  have hexpo : (num.exponent.map Numeral.exponentText).toList.head?.elim (some 0)
      parseInt = some (num.exponent.getD 0) := by
    cases num.exponent with
    | none => rfl
    | some e => exact parseInt_exponentText e
  have hdigs : parseInt (num.signText ++ num.whole ++ num.fraction) =
      some (if num.negative then -(ofDigits (num.whole ++ num.fraction) : Int)
        else ofDigits (num.whole ++ num.fraction)) := by
    rw [List.append_assoc]
    refine Numeral.parseInt_signText (List.append_ne_nil_of_left_ne_nil hfine.nonempty _) ?_
    intro c hc
    exact (List.mem_append.mp hc).elim (hfine.whole c) (hfine.fraction c)
  rw [Numeral.toAsciiLower_text hfine, Numeral.split_text hfine]
  simp only [List.headD_cons, List.tail_cons, Numeral.split_coefficient hfine, hfrac,
    hexpo, hdigs, Option.bind_eq_bind, Option.bind_some]
  obtain ⟨fraction, heq, hpos, hvl⟩ := scaled_value
    (if num.negative then -(ofDigits (num.whole ++ num.fraction) : Int)
      else ofDigits (num.whole ++ num.fraction)) (num.fraction.length - num.exponent.getD 0)
  refine ⟨fraction, heq, hpos, ?_⟩
  rw [hvl, signed_mul, neg_sub]
  rfl

theorem exactBoundary_value (hfst : first.Fine) (hsec : second.Fine) (ratio : Decimal.Number) :
    ∃ fraction, exactBoundary first second ratio = some fraction ∧ fraction.Fine ∧
      fraction.value = Tiling.boundary first.value second.value ratio.value := by
  obtain ⟨exact, heq, hexact, hvl⟩ := decimalNumberAsExactFraction_value ratio
  have hlen := subtractExact_fine hsec hfst
  have hpart := multiplyExact_fine hlen hexact
  refine ⟨addExact first (multiplyExact (subtractExact second first) exact), ?_, addExact_fine hfst hpart, ?_⟩
  · rw [exactBoundary, heq]
    rfl
  · rw [addExact_value hfst hpart, multiplyExact_value hlen hexact,
      subtractExact_value hsec hfst, hvl]
    rfl

end Wardian.WorkbenchModel
