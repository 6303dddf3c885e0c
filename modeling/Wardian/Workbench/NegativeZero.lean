/-
The scan for negative zeros is exact on JSON texts.

The scanner knows nothing of the grammar: it skips a string from its first quote, reads what looks like a number
token, and steps over every other byte.  On a well-formed text it sees each number token from its first byte to
its last, and no byte of a string or of an exponent as the beginning of one.

Main results:

* `Workbench.containsNegativeZeroLexeme_append` — the scan of what a symbol derives, and of what follows it;
* `Workbench.containsNegativeZeroLexeme_iff` — on a JSON text the scan finds exactly the negative zeros.
-/

import Wardian.Lib.JsonGrammar
import Wardian.Workbench.Slots

set_option autoImplicit false

namespace Wardian.Workbench

open List
open JsonGrammar

/-- A number token with a minus sign and no digit but zeros before its exponent. -/
def IsNegativeZeroToken (n : NumberToken) : Prop := n.negative = true ∧ ∀ d ∈ n.significand, d = 48

/-- What follows cannot be read as more of a number. -/
def Stops (rest : Bytes) : Prop := ∀ b ∈ rest.head?, ¬IsDigit b ∧ b ∉ [46, 69, 101]

variable {b : UInt8}

theorem isAsciiDigit_iff : isAsciiDigit b = true ↔ IsDigit b := decide_eq_true_iff

variable {byte : UInt8} {rest : Bytes}

theorem skipDigits_cons (h : IsDigit byte) :
    skipDigits (byte :: rest) = (byte != 48 || (skipDigits rest).1, (skipDigits rest).2) := by
  rw [skipDigits, if_pos (isAsciiDigit_iff.2 h)]

theorem skipDigits_of_head (h : ∀ b ∈ rest.head?, ¬IsDigit b) : skipDigits rest = (false, rest) := by
  cases rest with
  | nil => rfl
  | cons byte rest =>
    have hdig : isAsciiDigit byte ≠ true := fun hbyte => h byte rfl (isAsciiDigit_iff.1 hbyte)
    rw [skipDigits, if_neg hdig]

/-- Digits are skipped, and any but zero is noticed. -/
theorem skipDigits_append {ds : Bytes} (hds : Digits ds) (hrest : ∀ b ∈ rest.head?, ¬IsDigit b) :
    skipDigits (ds ++ rest) = (ds.any (· != 48), rest) := by
  induction ds with
  | nil => exact skipDigits_of_head hrest
  | cons d ds ih =>
    obtain ⟨hd, hds⟩ := forall_mem_cons.1 hds
    rw [cons_append, skipDigits_cons hd, ih hds]
    rfl

/-! ### Every round moves forward -/

theorem length_skipString_le (bytes : Bytes) : (skipString bytes).length ≤ bytes.length := by
  fun_induction skipString bytes <;> simp only [length_cons, length_nil] at * <;> omega

theorem length_skipDigits_le (bytes : Bytes) : (skipDigits bytes).2.length ≤ bytes.length := by
  induction bytes with
  | nil => exact le_refl _
  | cons byte rest ih =>
    by_cases hbyte : IsDigit byte
    · rw [skipDigits_cons hbyte]
      exact ih.trans (Nat.le_succ _)
    · rw [skipDigits_of_head (by rintro b ⟨rfl⟩; exact hbyte)]

variable {bytes : Bytes}

theorem skipSignificand_point {nonzero : Bool} (h : skipDigits bytes = (nonzero, 46 :: rest)) :
    skipSignificand bytes = (nonzero || (skipDigits rest).1, (skipDigits rest).2) := by
  simp only [skipSignificand, h]

theorem skipSignificand_digits {nonzero : Bool} (h : skipDigits bytes = (nonzero, rest))
    (hrest : 46 ∉ rest.head?) : skipSignificand bytes = (nonzero, rest) := by
  rw [skipSignificand, h]
  split
  · rename_i heq
    cases heq
    exact absurd rfl hrest
  · rename_i heq
    exact heq.symm

theorem length_skipSignificand_le (bytes : Bytes) :
    (skipSignificand bytes).2.length ≤ (skipDigits bytes).2.length := by
  obtain ⟨nonzero, after, h⟩ : ∃ nonzero after, skipDigits bytes = (nonzero, after) := ⟨_, _, rfl⟩
  rw [h]
  by_cases hpoint : 46 ∈ after.head?
  · obtain ⟨rest, rfl⟩ : ∃ rest, after = 46 :: rest := ⟨after.tail, (cons_head?_tail hpoint).symm⟩
    rw [skipSignificand_point h]
    exact (length_skipDigits_le rest).trans (Nat.le_succ _)
  · rw [skipSignificand_digits h hpoint]

theorem skipExponent_letter {letter : UInt8} (hltr : letter ∈ [69, 101]) (rest : Bytes) :
    skipExponent (letter :: rest) = skipExponent (101 :: rest) := by
  rcases mem_pair.1 hltr with rfl | rfl <;> rfl

theorem skipExponent_signed {sign : UInt8} (hsign : sign ∈ [43, 45]) (rest : Bytes) :
    skipExponent (101 :: sign :: rest) = (skipDigits rest).2 := by
  rcases mem_pair.1 hsign with rfl | rfl <;> rfl

theorem skipExponent_unsigned (hrest : ∀ b ∈ rest.head?, b ∉ [43, 45]) :
    skipExponent (101 :: rest) = (skipDigits rest).2 := by
  cases rest with
  | nil => rfl
  | cons byte rest =>
    have hbyte := hrest byte rfl
    simp only [mem_cons, not_mem_nil, or_false, not_or] at hbyte
    simp only [skipExponent]
    split
    · exact absurd (List.cons.inj ‹_›).1 hbyte.1
    · exact absurd (List.cons.inj ‹_›).1 hbyte.2
    · rfl

theorem skipExponent_absent (hrest : ∀ b ∈ rest.head?, b ∉ [69, 101]) : skipExponent rest = rest := by
  unfold skipExponent
  split
  · exact absurd (by decide) (hrest 101 rfl)
  · exact absurd (by decide) (hrest 69 rfl)
  · rfl

theorem length_skipExponent_le (bytes : Bytes) : (skipExponent bytes).length ≤ bytes.length := by
  cases bytes with
  | nil => exact le_refl _
  | cons letter rest =>
    by_cases hltr : letter ∈ [69, 101]
    · rw [skipExponent_letter hltr]
      by_cases hsign : ∀ b ∈ rest.head?, b ∉ [43, 45]
      · rw [skipExponent_unsigned hsign]
        exact (length_skipDigits_le rest).trans (Nat.le_succ _)
      · push Not at hsign
        obtain ⟨sign, hhead, hsign⟩ := hsign
        obtain ⟨digits, rfl⟩ : ∃ digits, rest = sign :: digits := ⟨rest.tail, (cons_head?_tail hhead).symm⟩
        rw [skipExponent_signed hsign]
        exact (length_skipDigits_le digits).trans ((Nat.le_succ _).trans (Nat.le_succ _))
    · rw [skipExponent_absent (by rintro b ⟨rfl⟩; exact hltr)]

/-- A number takes at least one byte. -/
theorem length_number_le (hbyte : IsDigit byte) (rest : Bytes) :
    (skipExponent (skipSignificand (byte :: rest)).2).length ≤ rest.length := by
  have hsign := length_skipSignificand_le (byte :: rest)
  rw [skipDigits_cons hbyte] at hsign
  exact (length_skipExponent_le _).trans (hsign.trans (length_skipDigits_le rest))

/-! ### The rounds of the scan -/

theorem ne_of_isDigit (h : IsDigit b) : b ≠ 34 ∧ b ≠ 45 := by
  constructor
  · rintro rfl
    exact absurd h (by unfold IsDigit; decide)
  · rintro rfl
    exact absurd h (by unfold IsDigit; decide)

theorem not_sign_of_isDigit (h : IsDigit b) : b ∉ [43, 45] := by
  intro hsign
  have hsigns : ∀ b ∈ [(43 : UInt8), 45], ¬IsDigit b := by
    simp [IsDigit]
  exact hsigns b hsign h

theorem containsNegativeZeroLexemeFrom_quote (fuel : Nat) (rest : Bytes) :
    containsNegativeZeroLexemeFrom (fuel + 1) (34 :: rest) =
      containsNegativeZeroLexemeFrom fuel (skipString rest) := by
  rw [containsNegativeZeroLexemeFrom, if_pos rfl]

theorem containsNegativeZeroLexemeFrom_digit (fuel : Nat) (hbyte : IsDigit byte) (rest : Bytes) :
    containsNegativeZeroLexemeFrom (fuel + 1) (byte :: rest) =
      containsNegativeZeroLexemeFrom fuel (skipExponent (skipSignificand (byte :: rest)).2) := by
  obtain ⟨hquo, hminus⟩ := ne_of_isDigit hbyte
  have hminus : (byte == 45) = false := beq_false_of_ne hminus
  rw [containsNegativeZeroLexemeFrom, if_neg hquo]
  simp only [isAsciiDigit_iff.2 hbyte, hminus, Bool.true_or, Bool.false_and, if_true, if_false, Bool.false_eq_true]

/-- After a minus it matters whether the significand is zero. -/
theorem containsNegativeZeroLexemeFrom_minus (fuel : Nat) (hbyte : IsDigit byte) (rest : Bytes) :
    containsNegativeZeroLexemeFrom (fuel + 1) (45 :: byte :: rest) =
      (!(skipSignificand (byte :: rest)).1 ||
        containsNegativeZeroLexemeFrom fuel (skipExponent (skipSignificand (byte :: rest)).2)) := by
  rw [containsNegativeZeroLexemeFrom, if_neg (by decide)]
  simp only [head?_cons, Option.any_some, isAsciiDigit_iff.2 hbyte, beq_self_eq_true, Bool.true_and, Bool.or_true,
    if_true]
  cases (skipSignificand (byte :: rest)).1 <;> rfl

theorem containsNegativeZeroLexemeFrom_other (fuel : Nat) (hquo : byte ≠ 34)
    (hdig : ¬IsDigit byte) (hminus : byte = 45 → ∀ b ∈ rest.head?, ¬IsDigit b) :
    containsNegativeZeroLexemeFrom (fuel + 1) (byte :: rest) = containsNegativeZeroLexemeFrom fuel rest := by
  have hstrs : ¬(isAsciiDigit byte || (byte == 45 && rest.head?.any isAsciiDigit)) = true := by
    intro hstrs
    rcases Bool.or_eq_true_iff.1 hstrs with h | h
    · exact hdig (isAsciiDigit_iff.1 h)
    · obtain ⟨h, hany⟩ := Bool.and_eq_true_iff.1 h
      obtain ⟨b, hb, hb'⟩ := (Option.any_eq_true _ _).1 hany
      exact hminus (beq_iff_eq.1 h) b hb (isAsciiDigit_iff.1 hb')
  rw [containsNegativeZeroLexemeFrom, if_neg hquo]
  exact if_neg hstrs

/-- All fuel that is enough gives the same answer. -/
theorem containsNegativeZeroLexemeFrom_fuel : ∀ {fuel fuel' : Nat} {bytes : Bytes}, bytes.length ≤ fuel →
    bytes.length ≤ fuel' →
    containsNegativeZeroLexemeFrom fuel bytes = containsNegativeZeroLexemeFrom fuel' bytes := by
  intro fuel
  induction fuel with
  | zero =>
    intro fuel' bytes h _
    rw [eq_nil_of_length_eq_zero (Nat.le_zero.1 h)]
    cases fuel' <;> rfl
  | succ fuel ih =>
    intro fuel' bytes h h'
    cases bytes with
    | nil => cases fuel' <;> rfl
    | cons byte rest =>
      obtain ⟨fuel', rfl⟩ : ∃ k, fuel' = k + 1 := ⟨fuel' - 1, by rw [length_cons] at h'; omega⟩
      have hle : rest.length ≤ fuel := Nat.le_of_succ_le_succ h
      have hle' : rest.length ≤ fuel' := Nat.le_of_succ_le_succ h'
      have hshor : ∀ {after : Bytes}, after.length ≤ rest.length →
          containsNegativeZeroLexemeFrom fuel after = containsNegativeZeroLexemeFrom fuel' after :=
        fun haft => ih (haft.trans hle) (haft.trans hle')
      by_cases hquo : byte = 34
      · subst hquo
        rw [containsNegativeZeroLexemeFrom_quote, containsNegativeZeroLexemeFrom_quote,
          hshor (length_skipString_le rest)]
      by_cases hdig : IsDigit byte
      · rw [containsNegativeZeroLexemeFrom_digit fuel hdig, containsNegativeZeroLexemeFrom_digit fuel' hdig,
          hshor (length_number_le hdig rest)]
      by_cases hminus : byte = 45 → ∀ b ∈ rest.head?, ¬IsDigit b
      · rw [containsNegativeZeroLexemeFrom_other fuel hquo hdig hminus,
          containsNegativeZeroLexemeFrom_other fuel' hquo hdig hminus, hshor (le_refl _)]
      push Not at hminus
      obtain ⟨rfl, b, hb, hbdigit⟩ := hminus
      obtain ⟨digits, rfl⟩ : ∃ digits, rest = b :: digits := ⟨rest.tail, (cons_head?_tail hb).symm⟩
      rw [containsNegativeZeroLexemeFrom_minus fuel hbdigit, containsNegativeZeroLexemeFrom_minus fuel' hbdigit,
        hshor ((length_number_le hbdigit digits).trans (Nat.le_succ _))]

/-! ### The scan of a text -/

theorem containsNegativeZeroLexeme_quote (rest : Bytes) :
    containsNegativeZeroLexeme (34 :: rest) = containsNegativeZeroLexeme (skipString rest) := by
  rw [containsNegativeZeroLexeme, length_cons, containsNegativeZeroLexemeFrom_quote,
    containsNegativeZeroLexemeFrom_fuel (length_skipString_le rest) (le_refl _)]
  rfl

/-- A byte that is neither a quote nor a digit nor a minus sign is stepped over. -/
theorem containsNegativeZeroLexeme_other (rest : Bytes) (hquo : byte ≠ 34) (hdig : ¬IsDigit byte)
    (hminus : byte ≠ 45) : containsNegativeZeroLexeme (byte :: rest) = containsNegativeZeroLexeme rest := by
  rw [containsNegativeZeroLexeme, length_cons,
    containsNegativeZeroLexemeFrom_other rest.length hquo hdig (fun h => absurd h hminus)]
  rfl

/-- Other bytes are passed over. -/
theorem containsNegativeZeroLexeme_others (rest : Bytes) (h : ∀ b ∈ bytes, b ≠ 34 ∧ ¬IsDigit b ∧ b ≠ 45) :
    containsNegativeZeroLexeme (bytes ++ rest) = containsNegativeZeroLexeme rest := by
  induction bytes with
  | nil => rfl
  | cons byte bytes ih =>
    obtain ⟨⟨hquo, hdig, hminus⟩, h⟩ := forall_mem_cons.1 h
    rw [cons_append, containsNegativeZeroLexeme_other _ hquo hdig hminus, ih h]

theorem containsNegativeZeroLexeme_blank {ws : Bytes} (h : Blank ws) (rest : Bytes) :
    containsNegativeZeroLexeme (ws ++ rest) = containsNegativeZeroLexeme rest := by
  have hbts : ∀ b ∈ [0x20, 0x09, 0x0A, 0x0D], b ≠ 34 ∧ ¬IsDigit b ∧ b ≠ 45 := by
    simp [IsDigit]
  exact containsNegativeZeroLexeme_others rest fun b hb => hbts b (h b hb)

theorem containsNegativeZeroLexeme_literal {word : Bytes} (h : word ∈ literals) (rest : Bytes) :
    containsNegativeZeroLexeme (word ++ rest) = containsNegativeZeroLexeme rest := by
  have hbts : ∀ word ∈ literals, ∀ b ∈ word, b ≠ 34 ∧ ¬IsDigit b ∧ b ≠ 45 := by
    simp [literals, IsDigit]
  exact containsNegativeZeroLexeme_others rest (hbts word h)

theorem skipString_quote (rest : Bytes) : skipString (34 :: rest) = rest := by
  cases rest with
  | nil => rfl
  | cons next rest => rw [skipString, if_neg (by decide), if_pos rfl]

theorem skipString_plain (hquo : byte ≠ 34) (hesc : byte ≠ 92) (rest : Bytes) :
    skipString (byte :: rest) = skipString rest := by
  cases rest with
  | nil => rfl
  | cons next rest => rw [skipString, if_neg hesc, if_neg hquo]

theorem skipString_escaped (byte : UInt8) (rest : Bytes) : skipString (92 :: byte :: rest) = skipString rest := by
  rw [skipString, if_pos rfl]

/-- A string is skipped with its escapes. -/
theorem skipString_body {body : Bytes} (h : StringBody body) (rest : Bytes) :
    skipString (body ++ 34 :: rest) = rest := by
  refine StringBody.induct_plain (P := fun body => skipString (body ++ 34 :: rest) = rest) ?_ ?_ ?_ h
  · exact skipString_quote rest
  · intro byte body hquo hesc ih
    rw [cons_append, skipString_plain hquo hesc, ih]
  · intro byte body ih
    rw [cons_append, cons_append, skipString_escaped, ih]

/-- Nothing within a string counts. -/
theorem containsNegativeZeroLexeme_string {body : Bytes} (h : StringBody body) (rest : Bytes) :
    containsNegativeZeroLexeme (34 :: (body ++ 34 :: rest)) = containsNegativeZeroLexeme rest := by
  rw [containsNegativeZeroLexeme_quote, skipString_body h]

/-- A significand is skipped, and it is known whether it is zero. -/
theorem skipSignificand_text (n : NumberToken) (hrest : ∀ b ∈ rest.head?, ¬IsDigit b ∧ b ≠ 46) :
    skipSignificand (n.int ++ (n.fracText ++ rest)) = (n.significand.any (· != 48), rest) := by
  have hint := n.int_spec.digits
  have hdigs : ∀ b ∈ rest.head?, ¬IsDigit b := fun b hb => (hrest b hb).1
  cases hfrac : n.frac with
  | none =>
    have hpoint : 46 ∉ rest.head? := fun h => (hrest 46 h).2 rfl
    simp only [NumberToken.fracText, NumberToken.significand, hfrac, Option.elim_none, Option.getD_none,
      nil_append, append_nil]
    exact skipSignificand_digits (skipDigits_append hint hdigs) hpoint
  | some ds =>
    have hpoint : ∀ b ∈ (46 :: (ds ++ rest)).head?, ¬IsDigit b := by
      rintro b ⟨rfl⟩
      simp [IsDigit]
    simp only [NumberToken.fracText, NumberToken.significand, hfrac, Option.elim_some, Option.getD_some,
      cons_append]
    rw [skipSignificand_point (skipDigits_append hint hpoint),
      skipDigits_append (n.frac_spec ds hfrac).2 hdigs, any_append]

/-- An exponent is skipped. -/
theorem skipExponent_text {exp : Bytes} (h : ExpPart exp) (hrest : Stops rest) :
    skipExponent (exp ++ rest) = rest := by
  have hdigs : ∀ b ∈ rest.head?, ¬IsDigit b := fun b hb => (hrest b hb).1
  cases h with
  | absent =>
    refine skipExponent_absent fun b hb hltr => (hrest b hb).2 ?_
    exact mem_cons_of_mem 46 hltr
  | @present letter sign ds hltr hsign hne hds =>
    rw [cons_append, skipExponent_letter hltr, append_assoc]
    have haft : (skipDigits (ds ++ rest)).2 = rest := by rw [skipDigits_append hds hdigs]
    rcases mem_cons.1 hsign with rfl | hsign
    · refine (skipExponent_unsigned fun b hb => ?_).trans haft
      obtain ⟨d, ds, rfl⟩ := exists_cons_of_ne_nil hne
      rw [nil_append, cons_append, head?_cons, Option.mem_some_iff] at hb
      subst hb
      exact not_sign_of_isDigit (hds d (mem_cons_self ..))
    · obtain ⟨byte, hbyte, rfl⟩ : ∃ byte ∈ [43, 45], sign = [byte] := by
        rcases mem_pair.1 hsign with rfl | rfl
        · exact ⟨43, by decide, rfl⟩
        · exact ⟨45, by decide, rfl⟩
      exact (skipExponent_signed hbyte _).trans haft

/-- Behind the digits of a number stands an exponent or what follows the number. -/
theorem head?_exp {exp : Bytes} (h : ExpPart exp) (hrest : Stops rest) :
    ∀ b ∈ (exp ++ rest).head?, ¬IsDigit b ∧ b ≠ 46 := by
  cases h with
  | absent =>
    intro b hb
    obtain ⟨hdig, hltr⟩ := hrest b hb
    exact ⟨hdig, fun h => hltr (h ▸ mem_cons_self ..)⟩
  | @present letter sign ds hltr _ _ _ =>
    rintro b ⟨rfl⟩
    have hlett : ∀ b ∈ [(69 : UInt8), 101], ¬IsDigit b ∧ b ≠ 46 := by
      simp [IsDigit]
    exact hlett letter hltr

/-- A negative zero has a minus and a significand of zeros. -/
theorem isNegativeZeroToken_iff {n : NumberToken} :
    IsNegativeZeroToken n ↔ n.negative = true ∧ n.significand.any (· != 48) = false := by
  unfold IsNegativeZeroToken
  simp only [any_eq_false, bne_iff_ne, ne_eq, not_not]

/-- **A number counts when it is a negative zero.** -/
theorem containsNegativeZeroLexeme_number (n : NumberToken) (hrest : Stops rest) :
    containsNegativeZeroLexeme (n.text ++ rest) = true ↔
      IsNegativeZeroToken n ∨ containsNegativeZeroLexeme rest = true := by
  have hscan := skipSignificand_text n (head?_exp n.exp_spec hrest)
  have hbeh := skipExponent_text n.exp_spec hrest
  obtain ⟨d, ds, hint⟩ := exists_cons_of_ne_nil n.int_spec.ne_nil
  have hd : IsDigit d := n.int_spec.digits d (hint ▸ mem_cons_self ..)
  rw [hint, cons_append] at hscan
  have hlen := length_number_le hd (ds ++ (n.fracText ++ (n.exp ++ rest)))
  rw [hscan, hbeh] at hlen
  rw [isNegativeZeroToken_iff, NumberToken.text, hint]
  cases hnega : n.negative with
  | false =>
    simp only [Bool.false_eq_true, if_false, nil_append, cons_append, append_assoc, false_and, false_or]
    rw [containsNegativeZeroLexeme, length_cons, containsNegativeZeroLexemeFrom_digit _ hd, hscan, hbeh,
      containsNegativeZeroLexemeFrom_fuel hlen (le_refl _)]
    rfl
  | true =>
    simp only [if_true, cons_append, nil_append, append_assoc, true_and]
    have hfuel : containsNegativeZeroLexemeFrom (d :: (ds ++ (n.fracText ++ (n.exp ++ rest)))).length rest =
        containsNegativeZeroLexeme rest :=
      containsNegativeZeroLexemeFrom_fuel (hlen.trans (Nat.le_succ _)) (le_refl _)
    rw [containsNegativeZeroLexeme, length_cons, containsNegativeZeroLexemeFrom_minus _ hd, hscan, hbeh,
      hfuel, Bool.or_eq_true_iff, Bool.not_eq_true']

/-! ### What may follow a value -/

theorem stops_nil : Stops [] := by
  intro b hb
  cases hb

theorem stops_cons (h : byte ∈ [44, 93, 125]) (rest : Bytes) : Stops (byte :: rest) := by
  have hbts : ∀ b ∈ [(44 : UInt8), 93, 125], ¬IsDigit b ∧ b ∉ [46, 69, 101] := by
    simp [IsDigit]
  rintro b ⟨rfl⟩
  exact hbts byte h

/-- Blanks end a number. -/
theorem Stops.blank {ws : Bytes} (hws : Blank ws) (h : Stops rest) : Stops (ws ++ rest) := by
  cases ws with
  | nil => exact h
  | cons byte ws =>
    have hbts : ∀ b ∈ [(0x20 : UInt8), 0x09, 0x0A, 0x0D], ¬IsDigit b ∧ b ∉ [46, 69, 101] := by
      simp [IsDigit]
    rintro b ⟨rfl⟩
    exact hbts byte (hws byte (mem_cons_self ..))

theorem containsNegativeZeroLexeme_punctuation (h : byte ∈ [44, 58, 91, 93, 123, 125]) (rest : Bytes) :
    containsNegativeZeroLexeme (byte :: rest) = containsNegativeZeroLexeme rest := by
  have hbts : ∀ b ∈ [(44 : UInt8), 58, 91, 93, 123, 125], b ≠ 34 ∧ ¬IsDigit b ∧ b ≠ 45 := by
    simp [IsDigit]
  obtain ⟨hquo, hdig, hminus⟩ := hbts byte h
  exact containsNegativeZeroLexeme_other rest hquo hdig hminus

/-- **The scan of what a symbol derives**, and of what follows it. -/
theorem containsNegativeZeroLexeme_append {symbol : Symbol} {numbers : List NumberToken}
    (h : Derives symbol bytes numbers) (hrest : Stops rest) :
    containsNegativeZeroLexeme (bytes ++ rest) = true ↔
      (∃ n ∈ numbers, IsNegativeZeroToken n) ∨ containsNegativeZeroLexeme rest = true := by
  induction h generalizing rest with
  | literal hword =>
    rw [containsNegativeZeroLexeme_literal hword]
    simp only [not_mem_nil, false_and, exists_false, false_or]
  | number n =>
    rw [containsNegativeZeroLexeme_number n hrest]
    simp only [mem_singleton, exists_eq_left]
  | string hbody =>
    rw [cons_append, append_assoc, singleton_append, containsNegativeZeroLexeme_string hbody]
    simp only [not_mem_nil, false_and, exists_false, false_or]
  | emptyArray hws | emptyObject hws =>
    rw [cons_append, append_assoc, singleton_append,
      containsNegativeZeroLexeme_punctuation (by decide), containsNegativeZeroLexeme_blank hws,
      containsNegativeZeroLexeme_punctuation (by decide)]
    simp only [not_mem_nil, false_and, exists_false, false_or]
  | array _ ih | object _ ih =>
    rw [cons_append, append_assoc, singleton_append,
      containsNegativeZeroLexeme_punctuation (by decide), ih (stops_cons (by decide) rest),
      containsNegativeZeroLexeme_punctuation (by decide)]
  | padded hbef _ haft ih =>
    rw [append_assoc, append_assoc, containsNegativeZeroLexeme_blank hbef, ih (hrest.blank haft),
      containsNegativeZeroLexeme_blank haft]
  | member hbef hbody haft _ ih =>
    rw [append_assoc, cons_append, append_assoc, cons_append, append_assoc,
      cons_append, containsNegativeZeroLexeme_blank hbef, containsNegativeZeroLexeme_string hbody,
      containsNegativeZeroLexeme_blank haft, containsNegativeZeroLexeme_punctuation (by decide), ih hrest]
  | one _ ih => exact ih hrest
  | more _ _ ih ih' =>
    rw [append_assoc, cons_append, ih (stops_cons (by decide) _),
      containsNegativeZeroLexeme_punctuation (by decide), ih' hrest]
    simp only [mem_append, or_and_right, exists_or, or_assoc]

/-- **On a JSON text the scan finds exactly the negative zeros.** -/
theorem containsNegativeZeroLexeme_iff (bytes : Bytes) (numbers : List NumberToken) (h : JsonGrammar.Text bytes numbers) :
    containsNegativeZeroLexeme bytes = true ↔ ∃ n ∈ numbers, IsNegativeZeroToken n := by
  have hscan := containsNegativeZeroLexeme_append h stops_nil
  rw [append_nil] at hscan
  exact hscan.trans (or_iff_left Bool.false_ne_true)

theorem zeroToken_frac : ∀ ds ∈ some [48, 48], ds ≠ [] ∧ Digits ds := by
  rintro ds ⟨rfl⟩
  simp [Digits, IsDigit]

theorem zeroToken_exp : ExpPart [101, 43, 55] := by
  have hdigs : Digits [55] := by
    simp [Digits, IsDigit]
  have hltr : (101 : UInt8) ∈ [69, 101] := by decide
  have hsign : ([43] : List UInt8) ∈ [[], [43], [45]] := by decide
  exact .present hltr hsign (cons_ne_nil _ _) hdigs

def zeroToken : NumberToken where
  negative := true
  int := [48]
  frac := some [48, 48]
  exp := [101, 43, 55]
  int_spec := .zero
  frac_spec := zeroToken_frac
  exp_spec := zeroToken_exp

/-- The token is `-0.00e+7`, in an array behind the key `-0` and before a string with a quote in it. -/
def zeroText : Bytes :=
  123 :: 34 :: 45 :: 48 :: 34 :: 58 :: 91 :: 32 :: (zeroToken.text ++ [44, 34, 92, 34, 45, 48, 34, 93, 125])

theorem zeroText_text : JsonGrammar.Text zeroText [zeroToken] := by
  have hblk : Blank [] := by
    simp [Blank]
  have hspace : Blank [32] := by
    simp [Blank]
  have hkey : StringBody [45, 48] :=
    .plain (by decide) (by decide) (by decide) (.plain (by decide) (by decide) (by decide) .nil)
  have hstring : StringBody [92, 34, 45, 48] := .escape (by decide) hkey
  have hlist : Derives (.list .padded) (32 :: (zeroToken.text ++ [44, 34, 92, 34, 45, 48, 34])) [zeroToken] :=
    .more (.padded hspace (.number zeroToken) hblk) (.one (.padded hblk (.string hstring) hblk))
  have hmbr : Derives .member (34 :: 45 :: 48 :: 34 :: 58 :: 91 :: 32 ::
      (zeroToken.text ++ [44, 34, 92, 34, 45, 48, 34, 93])) [zeroToken] :=
    .member hblk hkey hblk (.padded hblk (.array hlist) hblk)
  exact .padded hblk (.object (.one hmbr)) hblk

theorem containsNegativeZeroLexeme_zeroText : containsNegativeZeroLexeme zeroText = true :=
  (containsNegativeZeroLexeme_iff zeroText [zeroToken] zeroText_text).2
    ⟨zeroToken, mem_singleton_self _, rfl, by simp [zeroToken, NumberToken.significand]⟩

end Wardian.Workbench
