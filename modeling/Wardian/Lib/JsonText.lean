/-
The JSON text of a string.

A string is written between quotes; a quote, a backslash and the control characters are escaped, the
common control characters with a letter and the others with four hexadecimal digits, and every other
character stands for itself.

Main results:

* `JsonText.utf8ByteSize_quote_le` — the text of a string has at most six bytes for each of its bytes,
  and the two quotes;
* `JsonText.quote_append_inj` — the text of a string shows where it ends.
-/

import Mathlib.Algebra.Order.Ring.Int
import Mathlib.Data.List.Basic

set_option autoImplicit false

namespace JsonText

open List

def backslash : Char := Char.ofNat 92

/-- A hexadecimal digit, in lower case. -/
def hexDigit (n : Nat) : Char := if n < 10 then Char.ofNat (48 + n) else Char.ofNat (87 + n)

/-- The text of a character inside a string. -/
def escapeChar (c : Char) : List Char :=
  match c.toNat with
  | 34 => [backslash, c]
  | 92 => [backslash, c]
  | 8 => [backslash, 'b']
  | 9 => [backslash, 't']
  | 10 => [backslash, 'n']
  | 12 => [backslash, 'f']
  | 13 => [backslash, 'r']
  | n =>
    if n < 32 then [backslash, 'u', '0', '0', hexDigit (n / 16), hexDigit (n % 16)]
    else [c]

/-- The text of a string. -/
def quote (s : String) : String :=
  "\"" ++ String.ofList (s.toList.flatMap escapeChar) ++ "\""

/-- The number of bytes of a list of characters. -/
def byteSize (cs : List Char) : Nat := (cs.map Char.utf8Size).sum

@[simp] theorem byteSize_nil : byteSize [] = 0 := rfl

@[simp] theorem byteSize_cons (c : Char) (cs : List Char) :
    byteSize (c :: cs) = c.utf8Size + byteSize cs := by
  simp [byteSize]

@[simp] theorem byteSize_append (cs ds : List Char) : byteSize (cs ++ ds) = byteSize cs + byteSize ds := by
  simp [byteSize]

theorem utf8ByteSize_ofList (cs : List Char) : (String.ofList cs).utf8ByteSize = byteSize cs := by
  induction cs with
  | nil => rfl
  | cons c cs ih =>
    rw [String.ofList_cons, String.utf8ByteSize_append, ih]
    simp

theorem utf8ByteSize_eq (s : String) : s.utf8ByteSize = byteSize s.toList := by
  conv_lhs => rw [← String.ofList_toList (s := s)]
  exact utf8ByteSize_ofList _

theorem utf8Size_hexDigit {n : Nat} (h : n < 16) : (hexDigit n).utf8Size = 1 := by
  have hall : ∀ n < 16, (hexDigit n).utf8Size = 1 := by decide
  exact hall n h

/-- The text of a character has at most six bytes for each of its bytes. -/
theorem byteSize_escapeChar_le (c : Char) : byteSize (escapeChar c) ≤ 6 * c.utf8Size := by
  have hpos : 1 ≤ c.utf8Size := Char.utf8Size_pos c
  have hback : backslash.utf8Size = 1 := by decide
  unfold escapeChar
  split
  case h_8 =>
    split
    · rename_i hsml
      have hhigh : (hexDigit (c.toNat / 16)).utf8Size = 1 := utf8Size_hexDigit (by omega)
      have hlow : (hexDigit (c.toNat % 16)).utf8Size = 1 :=
        utf8Size_hexDigit (Nat.mod_lt _ (by decide))
      have hu : Char.utf8Size 'u' = 1 := by decide
      have hzero : Char.utf8Size '0' = 1 := by decide
      simp only [byteSize_cons, byteSize_nil, hback, hu, hzero, hhigh, hlow]
      omega
    · simp only [byteSize_cons, byteSize_nil]
      omega
  all_goals
    simp only [byteSize_cons, byteSize_nil, hback]
    try
      have hlett : Char.utf8Size 'b' = 1 ∧ Char.utf8Size 't' = 1 ∧ Char.utf8Size 'n' = 1 ∧
          Char.utf8Size 'f' = 1 ∧ Char.utf8Size 'r' = 1 := by decide
      obtain ⟨hb, ht, hn, hf, hr⟩ := hlett
      simp only [hb, ht, hn, hf, hr]
    omega

theorem byteSize_flatMap_escapeChar_le (cs : List Char) :
    byteSize (cs.flatMap escapeChar) ≤ 6 * byteSize cs := by
  induction cs with
  | nil => simp
  | cons c cs ih =>
    have := byteSize_escapeChar_le c
    simp only [flatMap_cons, byteSize_append, byteSize_cons]
    omega

theorem utf8ByteSize_quote_le (s : String) : (quote s).utf8ByteSize ≤ 6 * s.utf8ByteSize + 2 := by
  have hquotes : String.utf8ByteSize "\"" = 1 := by decide
  have hbnd := byteSize_flatMap_escapeChar_le s.toList
  rw [← utf8ByteSize_eq] at hbnd
  unfold quote
  rw [String.utf8ByteSize_append, String.utf8ByteSize_append, hquotes,
    utf8ByteSize_ofList (s.toList.flatMap escapeChar)]
  omega

/-! ### The text of a string shows where it ends -/

/-- The characters that do not stand for themselves. -/
def specials : List Char := (34 :: 92 :: range 32).map Char.ofNat

variable {c : Char}

theorem mem_specials : c ∈ specials ↔ c.toNat = 34 ∨ c.toNat = 92 ∨ c.toNat < 32 := by
  unfold specials
  rw [mem_map]
  constructor
  · rintro ⟨n, hn, rfl⟩
    have hall : ∀ n ∈ 34 :: 92 :: range 32,
        (Char.ofNat n).toNat = 34 ∨ (Char.ofNat n).toNat = 92 ∨ (Char.ofNat n).toNat < 32 := by
      decide
    exact hall n hn
  · intro hspec
    refine ⟨c.toNat, ?_, Char.ofNat_toNat c⟩
    simpa only [mem_cons, mem_range] using hspec

theorem escapeChar_of_not_mem (h : c ∉ specials) : escapeChar c = [c] := by
  rw [mem_specials] at h
  unfold escapeChar
  split <;> simp_all

/-- The text of a special character starts with a backslash and goes on. -/
theorem escapeChar_of_mem (h : c ∈ specials) : ∃ d ds, escapeChar c = backslash :: d :: ds := by
  have hall : (specials.all fun c =>
      (escapeChar c).head? = some backslash ∧ 2 ≤ (escapeChar c).length) = true := by
    decide +kernel
  obtain ⟨hhead, hlen⟩ := of_decide_eq_true (all_eq_true.1 hall c h)
  match hc : escapeChar c with
  | [] => simp [hc] at hlen
  | [d] => simp [hc] at hlen
  | b :: d :: ds =>
    rw [hc] at hhead
    obtain rfl := Option.some.inj hhead
    exact ⟨d, ds, rfl⟩

/-- No text of a character starts with the text of another one. -/
theorem escapeChar_prefix_inj {d : Char} (h : escapeChar c <+: escapeChar d) : c = d := by
  have hbs : backslash ∈ specials := by decide
  by_cases hc : c ∈ specials
  · by_cases hd : d ∈ specials
    · have hall : (specials.all fun c => specials.all fun d =>
          !(escapeChar c).isPrefixOf (escapeChar d) || c = d) = true := by
        decide +kernel
      have hpair := all_eq_true.1 (all_eq_true.1 hall c hc) d hd
      rw [ isPrefixOf_iff_prefix.2 h, Bool.not_true, Bool.false_or] at hpair
      exact of_decide_eq_true hpair
    · obtain ⟨e, es, hesc⟩ := escapeChar_of_mem hc
      rw [hesc, escapeChar_of_not_mem hd] at h
      have hlen := h.length_le
      simp at hlen
  · rw [escapeChar_of_not_mem hc] at h
    by_cases hd : d ∈ specials
    · obtain ⟨e, es, hesc⟩ := escapeChar_of_mem hd
      rw [hesc, cons_prefix_cons] at h
      exact absurd (h.1 ▸ hbs) hc
    · rw [escapeChar_of_not_mem hd, cons_prefix_cons] at h
      exact h.1

theorem head?_escapeChar_ne (c : Char) : (escapeChar c).head? ≠ some '"' := by
  by_cases hc : c ∈ specials
  · obtain ⟨d, ds, hesc⟩ := escapeChar_of_mem hc
    rw [hesc]
    intro h
    exact absurd (Option.some.inj h) (by decide)
  · rw [escapeChar_of_not_mem hc]
    intro h
    obtain rfl := Option.some.inj h
    exact hc (by decide)

theorem escapeChar_ne_nil (c : Char) : escapeChar c ≠ [] := by
  by_cases hc : c ∈ specials
  · obtain ⟨d, ds, hesc⟩ := escapeChar_of_mem hc
    simp [hesc]
  · simp [escapeChar_of_not_mem hc]

theorem flatMap_escapeChar_inj {cs ds xs ys : List Char}
    (h : cs.flatMap escapeChar ++ '"' :: xs = ds.flatMap escapeChar ++ '"' :: ys) : cs = ds ∧ xs = ys := by
  have hquo : ∀ (c : Char) (cs xs ys : List Char),
      '"' :: ys ≠ (c :: cs).flatMap escapeChar ++ '"' :: xs := by
    intro c cs xs ys heq
    have hhead := congrArg head? heq
    rw [flatMap_cons, append_assoc, head?_append_of_ne_nil _ (escapeChar_ne_nil c)]
      at hhead
    exact head?_escapeChar_ne c hhead.symm
  induction cs generalizing ds with
  | nil =>
    cases ds with
    | nil => exact ⟨rfl, (List.cons.inj h).2⟩
    | cons d ds => exact absurd h (hquo d ds ys xs)
  | cons c cs ih =>
    cases ds with
    | nil => exact absurd h.symm (hquo c cs xs ys)
    | cons d ds =>
      rw [flatMap_cons, flatMap_cons, append_assoc, append_assoc] at h
      have hcd : c = d := by
        rcases prefix_or_prefix_of_prefix (prefix_append (escapeChar c) _)
          (h ▸ prefix_append (escapeChar d) _) with hpre | hpre
        · exact escapeChar_prefix_inj hpre
        · exact (escapeChar_prefix_inj hpre).symm
      subst hcd
      obtain ⟨rfl, rfl⟩ := ih (append_cancel_left h)
      exact ⟨rfl, rfl⟩

/-- **The text of a string shows where it ends.** -/
theorem quote_append_inj {s t x y : String} (h : quote s ++ x = quote t ++ y) : s = t ∧ x = y := by
  have hlist := congrArg String.toList h
  unfold quote at hlist
  simp only [String.toList_append, String.toList_ofList, append_assoc] at hlist
  obtain ⟨hs, hx⟩ := flatMap_escapeChar_inj (append_cancel_left hlist)
  exact ⟨String.toList_inj.1 hs, String.toList_inj.1 hx⟩

end JsonText
