/-
The text of a pseudo terminal, whatever the pieces in which its bytes are read.

A decoder keeps the bytes that may be the beginning of a character and takes them up with the next piece.
It validates what it has, takes the valid characters off, replaces what can be no character, and stops
where the bytes end within one.

Main results:

* `PtyDecode.sequence_verdict` — what the validation says of the bytes it stands at;
* `PtyDecode.decodeLoop_reads` — the loop ends, and reads what is pending;
* `PtyDecode.decodeChunks_lossy` — the pieces give the lossy decoding of the stream.
-/

import Wardian.Lib.Lossy

set_option autoImplicit false

namespace Wardian.PtyDecode

open Bool
open List
open Utf8

/-! ### The validation of the standard library -/

/-- The bytes of the character that a first byte announces, and zero for a byte that announces none. -/
def utf8CharWidth (first : UInt8) : Nat :=
  if first.toNat < 0x80 then 1
  else if 0xC2 ≤ first.toNat ∧ first.toNat ≤ 0xDF then 2
  else if 0xE0 ≤ first.toNat ∧ first.toNat ≤ 0xEF then 3
  else if 0xF0 ≤ first.toNat ∧ first.toNat ≤ 0xF4 then 4
  else 0

def isContinuation (b : UInt8) : Bool := 0x80 ≤ b.toNat && b.toNat ≤ 0xBF

def secondOfThree (first second : UInt8) : Bool :=
  first.toNat == 0xE0 && (0xA0 ≤ second.toNat && second.toNat ≤ 0xBF) ||
  (0xE1 ≤ first.toNat && first.toNat ≤ 0xEC) && (0x80 ≤ second.toNat && second.toNat ≤ 0xBF) ||
  first.toNat == 0xED && (0x80 ≤ second.toNat && second.toNat ≤ 0x9F) ||
  (0xEE ≤ first.toNat && first.toNat ≤ 0xEF) && (0x80 ≤ second.toNat && second.toNat ≤ 0xBF)

def secondOfFour (first second : UInt8) : Bool :=
  first.toNat == 0xF0 && (0x90 ≤ second.toNat && second.toNat ≤ 0xBF) ||
  (0xF1 ≤ first.toNat && first.toNat ≤ 0xF3) && (0x80 ≤ second.toNat && second.toNat ≤ 0xBF) ||
  first.toNat == 0xF4 && (0x80 ≤ second.toNat && second.toNat ≤ 0x8F)

/-- The next byte; without one the input ends too early. -/
def next (bytes : List UInt8) (k : UInt8 → List UInt8 → Except (Option Nat) Nat) :
    Except (Option Nat) Nat :=
  match bytes with
  | [] => .error none
  | b :: rest => k b rest

@[simp] theorem next_cons (b : UInt8) (rest : List UInt8)
    (k : UInt8 → List UInt8 → Except (Option Nat) Nat) : next (b :: rest) k = k b rest := rfl

/-- The character at the beginning: how many bytes it has, or how many are invalid. -/
def sequence : List UInt8 → Except (Option Nat) Nat
  | [] => .ok 0
  | first :: rest =>
    match utf8CharWidth first with
    | 1 => .ok 1
    | 2 =>
      next rest fun second _ =>
        if isContinuation second then .ok 2 else .error (some 1)
    | 3 =>
      next rest fun second rest =>
        if secondOfThree first second then
          next rest fun third _ =>
            if isContinuation third then .ok 3 else .error (some 2)
        else .error (some 1)
    | 4 =>
      next rest fun second rest =>
        if secondOfFour first second then
          next rest fun third rest =>
            if isContinuation third then
              next rest fun fourth _ =>
                if isContinuation fourth then .ok 4 else .error (some 3)
            else .error (some 2)
        else .error (some 1)
    | _ => .error (some 1)

/-- What the validation says: a character, a maximal subpart, or the beginning of a character that the
input ends in. -/
inductive Verdict : List UInt8 → Except (Option Nat) Nat → Prop
  | char (c : Char) (rest : List UInt8) :
      Verdict (String.utf8EncodeChar c ++ rest) (.ok (String.utf8EncodeChar c).length)
  | invalid {part rest : List UInt8} : Subpart part rest → (Incomplete part → rest ≠ []) →
      Verdict (part ++ rest) (.error (some part.length))
  | incomplete {bytes : List UInt8} : Incomplete bytes → Verdict bytes (.error none)

variable {rest : List UInt8}

theorem verdict_ok (bytes : List UInt8) (h : WellFormed bytes) :
    Verdict (bytes ++ rest) (.ok bytes.length) := by
  obtain ⟨c, rfl⟩ := wellFormed_iff.mp h
  exact .char c rest

variable {b : UInt8}

/-- A byte that does not go on as a character ends a maximal subpart. -/
theorem verdict_part {part : List UInt8} (hpart : Incomplete part) (hb : ¬ Begun (part ++ [b])) :
    Verdict (part ++ b :: rest) (.error (some part.length)) := by
  refine .invalid (.inl ⟨hpart, ?_⟩) fun _ => cons_ne_nil _ _
  intro b' hb'
  obtain rfl := Option.some.inj hb'
  exact hb

theorem isContinuation_iff : isContinuation b = true ↔ Continues b := by
  simp [isContinuation, Continues, Within]

variable {first : UInt8}

theorem secondOfThree_iff {second : UInt8} (h : Within 0xE0 0xEF first) :
    secondOfThree first second = true ↔ OpensThree first second := by
  unfold Within at h
  simp only [secondOfThree, OpensThree, Continues, Within, or_eq_true, and_eq_true,
    beq_iff_eq, decide_eq_true_eq]
  omega

theorem secondOfFour_iff {second : UInt8} (h : Within 0xF0 0xF4 first) :
    secondOfFour first second = true ↔ OpensFour first second := by
  unfold Within at h
  simp only [secondOfFour, OpensFour, Continues, Within, or_eq_true, and_eq_true,
    beq_iff_eq, decide_eq_true_eq]
  omega

theorem incomplete_lead (h : Within 0xC2 0xF4 first) : Incomplete [first] := by
  refine ⟨cons_ne_nil _ _, .inr h, ?_⟩
  unfold Within at h
  simp only [WellFormed]
  omega

theorem incomplete_two {a : UInt8} (h : OpensThree a b ∨ OpensFour a b) : Incomplete [a, b] := by
  refine ⟨cons_ne_nil _ _, .inr h, ?_⟩
  simp only [OpensThree, OpensFour, Within] at h
  simp only [WellFormed, Within]
  omega

theorem incomplete_three {a c : UInt8} (h : OpensFour a b) (hc : Continues c) : Incomplete [a, b, c] := by
  refine ⟨cons_ne_nil _ _, ⟨.inr h, hc⟩, ?_⟩
  simp only [OpensFour, Within] at h
  simp only [WellFormed, OpensThree, Within]
  omega

theorem three_verdict (h : Within 0xE0 0xEF first) (rest : List UInt8) :
    Verdict (first :: rest) (next rest fun second rest =>
      if secondOfThree first second then
        next rest fun third _ =>
          if isContinuation third then .ok 3 else .error (some 2)
      else .error (some 1)) := by
  have hlead : Within 0xC2 0xF4 first := by
    unfold Within at h ⊢
    omega
  match rest with
  | [] => exact .incomplete (incomplete_lead hlead)
  | second :: rest =>
    rw [next_cons]
    by_cases hsec : secondOfThree first second = true
    · simp only [hsec, if_true]
      have hops := (secondOfThree_iff h).mp hsec
      match rest with
      | [] => exact .incomplete (incomplete_two (.inl hops))
      | third :: rest =>
        by_cases hthird : isContinuation third = true
        · simp only [next_cons, hthird, if_true]
          exact verdict_ok [first, second, third] ⟨hops, isContinuation_iff.mp hthird⟩
        · simp only [next_cons, hthird, false_eq_true, if_false]
          refine verdict_part (incomplete_two (.inl hops)) ?_
          rintro ⟨-, hconts⟩
          exact hthird (isContinuation_iff.mpr hconts)
    · simp only [hsec, false_eq_true, if_false]
      refine verdict_part (incomplete_lead hlead) ?_
      intro hbgn
      refine hsec ((secondOfThree_iff h).mpr ?_)
      simp only [cons_append, nil_append, Begun, OpensThree, OpensFour, Continues, Within]
        at h hbgn ⊢
      omega

theorem four_verdict (h : Within 0xF0 0xF4 first) (rest : List UInt8) :
    Verdict (first :: rest) (next rest fun second rest =>
      if secondOfFour first second then
        next rest fun third rest =>
          if isContinuation third then
            next rest fun fourth _ =>
              if isContinuation fourth then .ok 4 else .error (some 3)
          else .error (some 2)
      else .error (some 1)) := by
  have hlead : Within 0xC2 0xF4 first := by
    unfold Within at h ⊢
    omega
  match rest with
  | [] => exact .incomplete (incomplete_lead hlead)
  | second :: rest =>
    rw [next_cons]
    by_cases hsec : secondOfFour first second = true
    · simp only [hsec, if_true]
      have hops := (secondOfFour_iff h).mp hsec
      match rest with
      | [] => exact .incomplete (incomplete_two (.inr hops))
      | third :: rest =>
        by_cases hthird : isContinuation third = true
        · have hthird' := isContinuation_iff.mp hthird
          simp only [next_cons, hthird, if_true]
          match rest with
          | [] => exact .incomplete (incomplete_three hops hthird')
          | fourth :: rest =>
            by_cases hfourth : isContinuation fourth = true
            · simp only [next_cons, hfourth, if_true]
              exact verdict_ok [first, second, third, fourth]
                ⟨hops, hthird', isContinuation_iff.mp hfourth⟩
            · simp only [next_cons, hfourth, false_eq_true, if_false]
              refine verdict_part (incomplete_three hops hthird') ?_
              rintro ⟨-, -, hconts⟩
              exact hfourth (isContinuation_iff.mpr hconts)
        · simp only [next_cons, hthird, false_eq_true, if_false]
          refine verdict_part (incomplete_two (.inr hops)) ?_
          rintro ⟨-, hconts⟩
          exact hthird (isContinuation_iff.mpr hconts)
    · simp only [hsec, false_eq_true, if_false]
      refine verdict_part (incomplete_lead hlead) ?_
      intro hbgn
      refine hsec ((secondOfFour_iff h).mpr ?_)
      simp only [cons_append, nil_append, Begun, OpensThree, OpensFour, Continues, Within]
        at h hbgn ⊢
      omega

variable {bytes : List UInt8}

theorem sequence_verdict (h : bytes ≠ []) : Verdict bytes (sequence bytes) := by
  match bytes, h with
  | first :: rest, _ =>
    by_cases hone : first.toNat < 0x80
    · have hwidth : utf8CharWidth first = 1 := if_pos hone
      simp only [sequence, hwidth]
      exact verdict_ok [first] hone
    by_cases htwo : 0xC2 ≤ first.toNat ∧ first.toNat ≤ 0xDF
    · have hwidth : utf8CharWidth first = 2 := by
        unfold utf8CharWidth
        rw [if_neg hone, if_pos htwo]
      simp only [sequence, hwidth]
      have hlead : Incomplete [first] := incomplete_lead ⟨htwo.1, by omega⟩
      match rest with
      | [] => exact .incomplete hlead
      | second :: rest =>
        by_cases hsec : isContinuation second = true
        · simp only [next_cons, hsec, if_true]
          exact verdict_ok [first, second] ⟨htwo, isContinuation_iff.mp hsec⟩
        · simp only [next_cons, hsec, false_eq_true, if_false]
          refine verdict_part hlead ?_
          intro hbgn
          refine hsec (isContinuation_iff.mpr ?_)
          simp only [cons_append, nil_append, Begun, OpensThree, OpensFour] at hbgn
          rcases hbgn with hbgn | hbgn | hbgn
          · exact hbgn.2
          · exact hbgn.2.1
          · exact hbgn.2.1
    by_cases hthree : 0xE0 ≤ first.toNat ∧ first.toNat ≤ 0xEF
    · have hwidth : utf8CharWidth first = 3 := by
        unfold utf8CharWidth
        rw [if_neg hone, if_neg htwo, if_pos hthree]
      simp only [sequence, hwidth]
      exact three_verdict hthree rest
    by_cases hfour : 0xF0 ≤ first.toNat ∧ first.toNat ≤ 0xF4
    · have hwidth : utf8CharWidth first = 4 := by
        unfold utf8CharWidth
        rw [if_neg hone, if_neg htwo, if_neg hthree, if_pos hfour]
      simp only [sequence, hwidth]
      exact four_verdict hfour rest
    have hwidth : utf8CharWidth first = 0 := by
      unfold utf8CharWidth
      rw [if_neg hone, if_neg htwo, if_neg hthree, if_neg hfour]
    simp only [sequence, hwidth]
    have hlead : ¬ Begun [first] := by
      simp only [Begun, Within]
      omega
    have hpart : Subpart [first] rest := .inr ⟨first, rfl, hlead⟩
    have hverd := Verdict.invalid hpart fun hinc => absurd hinc.2.1 hlead
    exact hverd

theorem pos_of_sequence {n : Nat} (hbts : bytes ≠ []) (h : sequence bytes = .ok n) : 0 < n := by
  have hverd := sequence_verdict hbts
  rw [h] at hverd
  cases hverd with
  | char c => exact length_pos_of_ne_nil (encodeChar_ne_nil c)

theorem Verdict.of_char {c : Char} {verdict : Except (Option Nat) Nat}
    (h : Verdict (String.utf8EncodeChar c ++ rest) verdict) :
    verdict = .ok (String.utf8EncodeChar c).length := by
  generalize hall : String.utf8EncodeChar c ++ rest = bytes at h
  cases h with
  | char d after =>
    obtain ⟨rfl, -⟩ := encodeChar_append_inj hall
    rfl
  | invalid hpart => exact (hpart.not_char hall).elim
  | incomplete hinc =>
    subst hall
    have hnone := (wellFormed_encodeChar c).eq_nil_of_append _ hinc.2.1
    rw [hnone, append_nil] at hinc
    exact absurd (wellFormed_encodeChar c) hinc.2.2

theorem sequence_encodeChar (c : Char) (rest : List UInt8) :
    sequence (String.utf8EncodeChar c ++ rest) = .ok (String.utf8EncodeChar c).length := by
  refine (sequence_verdict ?_).of_char
  intro hnil
  exact encodeChar_ne_nil c (append_eq_nil_iff.mp hnil).1

/-- How far the bytes are valid, and how many there are invalid; none where the input ends too early. -/
structure Utf8Error where
  validUpTo : Nat
  errorLen : Option Nat

/-- The validation of the bytes from an index on. -/
def runUtf8Validation (index : Nat) : List UInt8 → Except Utf8Error Unit
  | [] => .ok ()
  | first :: rest =>
    match _h : sequence (first :: rest) with
    | .ok n => runUtf8Validation (index + n) ((first :: rest).drop n)
    | .error errorLen => .error ⟨index, errorLen⟩
termination_by bytes => bytes.length
decreasing_by
  have hpos := pos_of_sequence (cons_ne_nil _ _) _h
  simp only [length_drop, length_cons]
  omega

def fromUtf8 (bytes : List UInt8) : Except Utf8Error (List Char) :=
  match runUtf8Validation 0 bytes with
  | .ok () => .ok ((decode? bytes).getD [])
  | .error error => .error error

@[simp] theorem runUtf8Validation_nil (index : Nat) : runUtf8Validation index [] = .ok () := by
  rw [runUtf8Validation]

theorem runUtf8Validation_of_ok {n : Nat} (hbts : bytes ≠ []) (h : sequence bytes = .ok n) (index : Nat) :
    runUtf8Validation index bytes = runUtf8Validation (index + n) (bytes.drop n) := by
  match bytes, hbts with
  | first :: rest, _ =>
    rw [runUtf8Validation]
    split
    · rename_i m hm
      obtain rfl := Except.ok.inj (hm.symm.trans h)
      rfl
    · rename_i hm
      exact nomatch hm.symm.trans h

variable {errorLen : Option Nat}

theorem runUtf8Validation_of_error (hbts : bytes ≠ [])
    (h : sequence bytes = .error errorLen) (index : Nat) :
    runUtf8Validation index bytes = .error ⟨index, errorLen⟩ := by
  match bytes, hbts with
  | first :: rest, _ =>
    rw [runUtf8Validation]
    split
    · rename_i m hm
      exact nomatch hm.symm.trans h
    · rename_i hm
      obtain rfl := Except.error.inj (hm.symm.trans h)
      rfl

theorem runUtf8Validation_char (c : Char) (rest : List UInt8) (index : Nat) :
    runUtf8Validation index (String.utf8EncodeChar c ++ rest) =
      runUtf8Validation (index + (String.utf8EncodeChar c).length) rest := by
  have hbts : String.utf8EncodeChar c ++ rest ≠ [] := by
    intro hnil
    exact encodeChar_ne_nil c (append_eq_nil_iff.mp hnil).1
  rw [runUtf8Validation_of_ok hbts (sequence_encodeChar c rest), drop_left]

theorem runUtf8Validation_chars (cs : List Char) (rest : List UInt8) (index : Nat) :
    runUtf8Validation index (encode cs ++ rest) =
      runUtf8Validation (index + (encode cs).length) rest := by
  induction cs generalizing index with
  | nil => rfl
  | cons c cs ih =>
    rw [encode_cons, append_assoc, runUtf8Validation_char, ih, length_append, Nat.add_assoc]

/-- Bytes are characters, and then the end or something that is none. -/
theorem exists_chars (bytes : List UInt8) :
    ∃ cs rest, bytes = encode cs ++ rest ∧
      (rest = [] ∨ rest ≠ [] ∧ ∃ errorLen, sequence rest = .error errorLen) := by
  induction hlen : bytes.length using Nat.strongRecOn generalizing bytes with
  | _ length ih =>
    by_cases hbts : bytes = []
    · exact ⟨[], bytes, rfl, .inl hbts⟩
    · cases hseq : sequence bytes with
      | error errorLen => exact ⟨[], bytes, rfl, .inr ⟨hbts, errorLen, hseq⟩⟩
      | ok n =>
        have hverd := sequence_verdict hbts
        rw [hseq] at hverd
        cases hverd with
        | char c rest =>
          have hless : rest.length < length := by
            have hpos := length_pos_of_ne_nil (encodeChar_ne_nil c)
            rw [length_append] at hlen
            omega
          obtain ⟨cs, rest, rfl, hrest⟩ := ih rest.length hless rest rfl
          exact ⟨c :: cs, rest, (append_assoc _ _ _).symm, hrest⟩

theorem fromUtf8_encode (cs : List Char) : fromUtf8 (encode cs) = .ok cs := by
  unfold fromUtf8
  rw [← append_nil (encode cs), runUtf8Validation_chars, runUtf8Validation_nil, append_nil,
    decode?_encode]
  rfl

/-- Bytes are valid and a text, or they are valid up to the first place where no character stands. -/
theorem fromUtf8_spec (bytes : List UInt8) :
    (∃ cs, bytes = encode cs ∧ fromUtf8 bytes = .ok cs) ∨
      ∃ cs rest errorLen, bytes = encode cs ++ rest ∧ rest ≠ [] ∧ sequence rest = .error errorLen ∧
        fromUtf8 bytes = .error ⟨(encode cs).length, errorLen⟩ := by
  obtain ⟨cs, rest, rfl, rfl | ⟨hrest, errorLen, hseq⟩⟩ := exists_chars bytes
  · rw [append_nil]
    exact .inl ⟨cs, rfl, fromUtf8_encode cs⟩
  · refine .inr ⟨cs, rest, errorLen, rfl, hrest, hseq, ?_⟩
    unfold fromUtf8
    rw [runUtf8Validation_chars, runUtf8Validation_of_error hrest hseq, Nat.zero_add]

/-! ### The decoder -/

/-- The bytes that are kept for the next piece. -/
structure PtyUtf8Decoder where
  pending : List UInt8

def PtyUtf8Decoder.new : PtyUtf8Decoder := { pending := [] }

variable {error : Utf8Error}

theorem progress_of_error (h : fromUtf8 bytes = .error error) :
    0 < bytes.length ∧ ∀ invalidLen, error.errorLen = some invalidLen → 0 < invalidLen := by
  rcases fromUtf8_spec bytes with ⟨cs, -, hok⟩ | ⟨cs, rest, errorLen, rfl, hrest, hseq, herr⟩
  · rw [hok] at h
    cases h
  · rw [herr] at h
    obtain rfl := Except.error.inj h
    have hpos := length_pos_of_ne_nil hrest
    refine ⟨?_, ?_⟩
    · rw [length_append]
      omega
    · rintro invalidLen rfl
      have hverd := sequence_verdict hrest
      rw [hseq] at hverd
      cases hverd with
      | invalid hpart => exact length_pos_of_ne_nil hpart.ne_nil

/-- The loop over what is pending; none where the valid beginning of it is not. -/
def decodeLoop (pending : List UInt8) (output : List Char) : Option (List UInt8 × List Char) :=
  match _h : fromUtf8 pending with
  | .ok valid => some ([], output ++ valid)
  | .error error =>
    if error.validUpTo > 0 then
      match fromUtf8 (pending.take error.validUpTo) with
      | .ok valid => decodeLoop (pending.drop error.validUpTo) (output ++ valid)
      | .error _ => none
    else
      match _hlen : error.errorLen with
      | some invalidLen => decodeLoop (pending.drop invalidLen) (output ++ ['\uFFFD'])
      | none => some (pending, output)
termination_by pending.length
decreasing_by
  all_goals
    obtain ⟨hlen, hinv⟩ := progress_of_error _h
    rw [length_drop]
  · omega
  · have hpos := hinv invalidLen _hlen
    omega

def decodeChunk (self : PtyUtf8Decoder) (bytes : List UInt8) : Option (List Char × PtyUtf8Decoder) :=
  (decodeLoop (self.pending ++ bytes) []).map fun ended => (ended.2, { pending := ended.1 })

/-- The pieces of a stream, with the text of all of them. -/
def decodeChunks (self : PtyUtf8Decoder) : List (List UInt8) → Option (List Char × PtyUtf8Decoder)
  | [] => some ([], self)
  | bytes :: chunks =>
    (decodeChunk self bytes).bind fun decoded =>
      (decodeChunks decoded.2 chunks).map fun rest => (decoded.1 ++ rest.1, rest.2)

/-! ### What the loop does -/

variable {pending : List UInt8}

theorem decodeLoop_of_ok {valid : List Char} (h : fromUtf8 pending = .ok valid)
    (output : List Char) : decodeLoop pending output = some ([], output ++ valid) := by
  rw [decodeLoop]
  split
  · rename_i text htext
    obtain rfl := Except.ok.inj (htext.symm.trans h)
    rfl
  · rename_i error herr
    exact nomatch herr.symm.trans h

theorem decodeLoop_of_error (h : fromUtf8 pending = .error error) (output : List Char) :
    decodeLoop pending output =
      if error.validUpTo > 0 then
        (fromUtf8 (pending.take error.validUpTo)).toOption.bind fun valid =>
          decodeLoop (pending.drop error.validUpTo) (output ++ valid)
      else
        error.errorLen.elim (some (pending, output)) fun invalidLen =>
          decodeLoop (pending.drop invalidLen) (output ++ ['\uFFFD']) := by
  conv_lhs => rw [decodeLoop]
  split
  · rename_i text htext
    exact nomatch htext.symm.trans h
  · rename_i error' herr
    obtain rfl := Except.error.inj (herr.symm.trans h)
    split
    · cases fromUtf8 (pending.take error'.validUpTo) with
      | ok valid => rfl
      | error _ => rfl
    · split
      · rename_i hlen
        rw [hlen]
        rfl
      · rename_i hlen
        rw [hlen]
        rfl

/-- Characters are taken off, and the loop stands at what is none. -/
theorem decodeLoop_chars {cs : List Char} (hcs : cs ≠ [])
    (h : fromUtf8 (encode cs ++ rest) = .error ⟨(encode cs).length, errorLen⟩) (output : List Char) :
    decodeLoop (encode cs ++ rest) output = decodeLoop rest (output ++ cs) := by
  have hpos : (encode cs).length > 0 := by
    match cs, hcs with
    | c :: cs, _ =>
      rw [encode_cons, length_append]
      have := length_pos_of_ne_nil (encodeChar_ne_nil c)
      omega
  rw [decodeLoop_of_error h, if_pos hpos]
  simp only [take_left, drop_left, fromUtf8_encode, Except.toOption, Option.bind_some]

/-- At what is no character the loop replaces it, or keeps it and ends. -/
theorem decodeLoop_at (h : fromUtf8 rest = .error ⟨0, errorLen⟩) (output : List Char) :
    decodeLoop rest output =
      errorLen.elim (some (rest, output)) fun invalidLen =>
        decodeLoop (rest.drop invalidLen) (output ++ ['\uFFFD']) := by
  rw [decodeLoop_of_error h, if_neg (Nat.lt_irrefl 0)]

theorem fromUtf8_of_error (hbts : bytes ≠ [])
    (h : sequence bytes = .error errorLen) : fromUtf8 bytes = .error ⟨0, errorLen⟩ := by
  unfold fromUtf8
  rw [runUtf8Validation_of_error hbts h]

theorem decodeLoop_reads (pending : List UInt8) (output : List Char) :
    ∃ text kept, decodeLoop pending output = some (kept, output ++ text) ∧ Reads pending text kept := by
  induction hlen : pending.length using Nat.strongRecOn generalizing pending output with
  | _ length ih =>
    rcases fromUtf8_spec pending with ⟨cs, rfl, hok⟩ | ⟨cs, rest, errorLen, rfl, hrest, hseq, herr⟩
    · refine ⟨cs, [], decodeLoop_of_ok hok output, ?_⟩
      have hrds := Reads.done.chars cs
      rwa [append_nil, append_nil] at hrds
    · -- What stands behind the characters is shorter where there are any, and else one step is made.
      have hat : ∀ output, ∃ text kept,
          decodeLoop rest output = some (kept, output ++ text) ∧ Reads rest text kept := by
        intro output
        rw [decodeLoop_at (fromUtf8_of_error hrest hseq)]
        have hverd := sequence_verdict hrest
        rw [hseq] at hverd
        cases hverd with
        | incomplete hinc =>
          refine ⟨[], rest, ?_, .pending hinc⟩
          rw [append_nil]
          rfl
        | @invalid part after hpart haft =>
          have hless : after.length < length := by
            have hpos := length_pos_of_ne_nil hpart.ne_nil
            simp only [length_append] at hlen
            omega
          obtain ⟨text, kept, hloop, hrds⟩ := ih after.length hless after (output ++ ['\uFFFD']) rfl
          refine ⟨'\uFFFD' :: text, kept, ?_, .invalid hpart haft hrds⟩
          rw [Option.elim_some, drop_left, hloop, append_assoc]
          rfl
      by_cases hcs : cs = []
      · subst hcs
        exact hat output
      · obtain ⟨text, kept, hloop, hrds⟩ := hat (output ++ cs)
        refine ⟨cs ++ text, kept, ?_, hrds.chars cs⟩
        rw [decodeLoop_chars hcs herr, hloop, append_assoc]

/-! ### A stream in pieces -/

theorem decodeChunk_reads (self : PtyUtf8Decoder) (bytes : List UInt8) :
    ∃ text next, decodeChunk self bytes = some (text, next) ∧
      Reads (self.pending ++ bytes) text next.pending := by
  obtain ⟨text, kept, hloop, hrds⟩ := decodeLoop_reads (self.pending ++ bytes) []
  refine ⟨text, { pending := kept }, ?_, hrds⟩
  unfold decodeChunk
  rw [hloop]
  rfl

theorem decodeChunks_reads (self : PtyUtf8Decoder) (chunks : List (List UInt8)) {before : List UInt8}
    {shown : List Char} (hself : Reads before shown self.pending) :
    ∃ text last, decodeChunks self chunks = some (text, last) ∧
      Reads (before ++ chunks.flatten) (shown ++ text) last.pending := by
  induction chunks generalizing self before shown with
  | nil =>
    refine ⟨[], self, rfl, ?_⟩
    rwa [flatten_nil, append_nil, append_nil]
  | cons bytes chunks ih =>
    obtain ⟨text, next, hchunk, hrds⟩ := decodeChunk_reads self bytes
    obtain ⟨more, last, hchks, hall⟩ := ih next (hself.append hrds)
    refine ⟨text ++ more, last, ?_, ?_⟩
    · unfold decodeChunks
      rw [hchunk, Option.bind_some, hchks]
      rfl
    · rwa [flatten_cons, ← append_assoc, ← append_assoc]

/-- Whatever the pieces, their texts are the lossy decoding of the stream without what is pending, and
what is pending is what stands at its end as the beginning of a character. -/
theorem decodeChunks_lossy (chunks : List (List UInt8)) :
    ∃ text last body, decodeChunks .new chunks = some (text, last) ∧
      chunks.flatten = body ++ last.pending ∧ Lossy body text ∧
      (last.pending = [] ∨ Incomplete last.pending) ∧
      (∀ tail, tail <:+ chunks.flatten → Incomplete tail → tail = last.pending) ∧
      last.pending.length ≤ 3 := by
  obtain ⟨text, last, hchks, hrds⟩ := decodeChunks_reads .new chunks .done
  rw [nil_append, nil_append] at hrds
  obtain ⟨body, hbody, hlossy⟩ := hrds.lossy
  refine ⟨text, last, body, hchks, hbody, hlossy, hrds.pending_eq, ?_, hrds.length_pending⟩
  intro tail htail hinc
  exact hrds.only_pending hinc htail

end Wardian.PtyDecode
