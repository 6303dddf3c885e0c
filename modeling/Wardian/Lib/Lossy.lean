/-
Decoding bytes that need not be a text.

The encodings of the characters are told by their first two bytes.  Bytes that begin none of them are
ill-formed, and of an ill-formed run the lossy decoding replaces each maximal subpart by one
replacement character.  A stream that stops within an encoding has its last bytes still pending.

Main results:

* `Utf8.wellFormed_iff` — the bytes are those of a character;
* `Utf8.Reads.append` — a stream that goes on, from what is pending;
* `Utf8.Reads.lossy`, `Utf8.Reads.only_pending` — the text is the lossy decoding of the rest, and nothing
  else at the end of the stream is the beginning of an encoding.
-/

import Wardian.Lib.Utf8

set_option autoImplicit false

namespace Utf8

open List

/-! ### The encodings by their bytes -/

def Within (low high : Nat) (b : UInt8) : Prop := low ≤ b.toNat ∧ b.toNat ≤ high

def Continues (b : UInt8) : Prop := Within 0x80 0xBF b

/-- The first two bytes of a character of three bytes: it is not overlong and no surrogate. -/
def OpensThree (a b : UInt8) : Prop :=
  Within 0xE0 0xEF a ∧ Continues b ∧ (a.toNat = 0xE0 → 0xA0 ≤ b.toNat) ∧
    (a.toNat = 0xED → b.toNat ≤ 0x9F)

/-- The first two bytes of a character of four bytes: it is not overlong and within the last plane. -/
def OpensFour (a b : UInt8) : Prop :=
  Within 0xF0 0xF4 a ∧ Continues b ∧ (a.toNat = 0xF0 → 0x90 ≤ b.toNat) ∧
    (a.toNat = 0xF4 → b.toNat ≤ 0x8F)

def WellFormed : List UInt8 → Prop
  | [a] => a.toNat < 0x80
  | [a, b] => Within 0xC2 0xDF a ∧ Continues b
  | [a, b, c] => OpensThree a b ∧ Continues c
  | [a, b, c, d] => OpensFour a b ∧ Continues c ∧ Continues d
  | _ => False

/-- The bytes go on as an encoding, or are one. -/
def Begun : List UInt8 → Prop
  | [] => True
  | [a] => a.toNat < 0x80 ∨ Within 0xC2 0xF4 a
  | [a, b] => Within 0xC2 0xDF a ∧ Continues b ∨ OpensThree a b ∨ OpensFour a b
  | [a, b, c] => (OpensThree a b ∨ OpensFour a b) ∧ Continues c
  | [a, b, c, d] => OpensFour a b ∧ Continues c ∧ Continues d
  | _ => False

theorem WellFormed.begun {bytes : List UInt8} (h : WellFormed bytes) : Begun bytes := by
  match bytes with
  | [a] => exact .inl h
  | [a, b] => exact .inl h
  | [a, b, c] => exact ⟨.inl h.1, h.2⟩
  | [a, b, c, d] => exact h

theorem WellFormed.ne_nil {bytes : List UInt8} (h : WellFormed bytes) : bytes ≠ [] := by
  rintro rfl
  exact h

theorem Begun.length_le {bytes : List UInt8} (h : Begun bytes) : bytes.length ≤ 4 := by
  match bytes with
  | [] | [_] | [_, _] | [_, _, _] | [_, _, _, _] => simp

theorem Begun.of_append (bytes more : List UInt8) (h : Begun (bytes ++ more)) : Begun bytes := by
  match bytes, more with
  | [], _ => trivial
  | [a], [] => exact h
  | [a], [b] =>
    have hpair : Begun [a, b] := h
    simp only [Begun, OpensThree, OpensFour, Within] at hpair ⊢
    omega
  | [a], [b, c] =>
    have htriple : Begun [a, b, c] := h
    simp only [Begun, OpensThree, OpensFour, Within] at htriple ⊢
    omega
  | [a], [b, c, d] =>
    have hfour : Begun [a, b, c, d] := h
    simp only [Begun, OpensFour, Within] at hfour ⊢
    omega
  | [a, b], [] => exact h
  | [a, b], [c] => exact .inr h.1
  | [a, b], [c, d] => exact .inr (.inr h.1)
  | [a, b, c], [] => exact h
  | [a, b, c], [d] => exact ⟨.inr h.1, h.2.1⟩
  | [a, b, c, d], [] => exact h

variable {bytes : List UInt8}

theorem WellFormed.eq_nil_of_append (h : WellFormed bytes) (more : List UInt8)
    (hmore : Begun (bytes ++ more)) : more = [] := by
  match bytes, more with
  | _, [] => rfl
  | [a], b :: rest =>
    have hpair : Begun [a, b] := Begun.of_append [a, b] rest hmore
    simp only [WellFormed, Begun, OpensThree, OpensFour, Within] at h hpair
    omega
  | [a, b], c :: rest =>
    have htriple : Begun [a, b, c] := Begun.of_append [a, b, c] rest hmore
    simp only [WellFormed, Begun, OpensThree, OpensFour, Within] at h htriple
    omega
  | [a, b, c], d :: rest =>
    have hfour : Begun [a, b, c, d] := Begun.of_append [a, b, c, d] rest hmore
    simp only [WellFormed, Begun, OpensThree, OpensFour, Within] at h hfour
    omega
  | [a, b, c, d], e :: rest => exact hmore.elim

theorem Begun.not_continues {more : List UInt8} {b : UInt8} (h : Begun (bytes ++ b :: more))
    (hbts : bytes ≠ []) : ¬ Begun [b] := by
  have hconts : Continues b := by
    have hupto : Begun (bytes ++ [b]) := by
      refine Begun.of_append _ more ?_
      rwa [append_assoc]
    match bytes with
    | [] => exact absurd rfl hbts
    | [a] =>
      rcases hupto with htwo | hthree | hfour
      · exact htwo.2
      · exact hthree.2.1
      · exact hfour.2.1
    | [a, a'] => exact hupto.2
    | [a, a', a''] => exact hupto.2.2
    | _ :: _ :: _ :: _ :: rest =>
      have hlen := hupto.length_le
      simp only [length_append, length_cons, length_nil] at hlen
      omega
  intro hlead
  simp only [Begun, Continues, Within] at hlead hconts
  omega

/-! ### The characters of the encodings -/

theorem wellFormed_encodeChar (c : Char) : WellFormed (String.utf8EncodeChar c) := by
  have hval : c.val.toNat < 0xD800 ∨ 0xDFFF < c.val.toNat ∧ c.val.toNat < 0x110000 := c.valid
  unfold String.utf8EncodeChar
  simp only
  split
  · simp only [WellFormed, UInt8.toNat_ofNat']
    omega
  · split
    · simp only [WellFormed, Continues, Within, UInt8.toNat_ofNat']
      omega
    · split
      · simp only [WellFormed, OpensThree, Continues, Within, UInt8.toNat_ofNat']
        omega
      · simp only [WellFormed, OpensFour, Continues, Within, UInt8.toNat_ofNat']
        omega

theorem exists_char {n : Nat} (h : n < 0xD800 ∨ 0xDFFF < n ∧ n < 0x110000) : ∃ c : Char, c.val.toNat = n := by
  refine ⟨Char.ofNat n, ?_⟩
  have hval : n.isValidChar := h
  unfold Char.ofNat
  rw [dif_pos hval]
  rfl

theorem exists_char_of_wellFormed (h : WellFormed bytes) : ∃ c, String.utf8EncodeChar c = bytes := by
  match bytes with
  | [a] =>
    simp only [WellFormed] at h
    obtain ⟨c, hc⟩ := exists_char (n := a.toNat) (by omega)
    refine ⟨c, ?_⟩
    unfold String.utf8EncodeChar
    simp only [hc]
    rw [if_pos (by omega)]
    simp
  | [a, b] =>
    simp only [WellFormed, Continues, Within] at h
    obtain ⟨c, hc⟩ := exists_char (n := a.toNat % 32 * 64 + b.toNat % 64) (by omega)
    refine ⟨c, ?_⟩
    unfold String.utf8EncodeChar
    simp only [hc]
    rw [if_neg (by omega), if_pos (by omega)]
    simp only [List.cons.injEq, and_true, ← UInt8.toNat_inj, UInt8.toNat_ofNat']
    omega
  | [a, b, d] =>
    simp only [WellFormed, OpensThree, Continues, Within] at h
    obtain ⟨c, hc⟩ := exists_char (n := a.toNat % 16 * 4096 + b.toNat % 64 * 64 + d.toNat % 64)
      (by omega)
    refine ⟨c, ?_⟩
    unfold String.utf8EncodeChar
    simp only [hc]
    rw [if_neg (by omega), if_neg (by omega), if_pos (by omega)]
    simp only [List.cons.injEq, and_true, ← UInt8.toNat_inj, UInt8.toNat_ofNat']
    omega
  | [a, b, d, e] =>
    simp only [WellFormed, OpensFour, Continues, Within] at h
    obtain ⟨c, hc⟩ := exists_char
      (n := a.toNat % 8 * 262144 + b.toNat % 64 * 4096 + d.toNat % 64 * 64 + e.toNat % 64) (by omega)
    refine ⟨c, ?_⟩
    unfold String.utf8EncodeChar
    simp only [hc]
    rw [if_neg (by omega), if_neg (by omega), if_neg (by omega)]
    simp only [List.cons.injEq, and_true, ← UInt8.toNat_inj, UInt8.toNat_ofNat']
    omega

theorem wellFormed_iff : WellFormed bytes ↔ ∃ c, String.utf8EncodeChar c = bytes := by
  constructor
  · exact exists_char_of_wellFormed
  · rintro ⟨c, rfl⟩
    exact wellFormed_encodeChar c

/-! ### Ill-formed bytes -/

/-- A proper beginning of an encoding, and not the empty one. -/
def Incomplete (bytes : List UInt8) : Prop := bytes ≠ [] ∧ Begun bytes ∧ ¬ WellFormed bytes

theorem Incomplete.length_le {bytes : List UInt8} (h : Incomplete bytes) : bytes.length ≤ 3 := by
  have hlen := h.2.1.length_le
  match bytes with
  | [] | [_] | [_, _] | [_, _, _] => simp
  | [a, b, c, d] => exact absurd h.2.1 h.2.2
  | _ :: _ :: _ :: _ :: _ :: rest =>
    simp only [length_cons] at hlen
    omega

variable {rest : List UInt8}

/-- The beginning of an encoding does not start within another. -/
theorem Incomplete.suffix_cases {first last : List UInt8} (hlast : Incomplete last)
    (hfst : Begun first) (hend : last <:+ first ++ rest) : last <:+ rest ∨ last = first ++ rest := by
  obtain ⟨before, hbef⟩ := hend
  rcases append_eq_append_iff.mp hbef with ⟨more, rfl, rfl⟩ | ⟨more, rfl, rfl⟩
  · match before, more with
    | [], _ => exact .inr rfl
    | _, [] => exact .inl (suffix_refl _)
    | x :: before, b :: more =>
      exact absurd (Begun.of_append [b] (more ++ rest) hlast.2.1)
        (hfst.not_continues (cons_ne_nil _ _))
  · exact .inl (suffix_append _ _)

/-- The maximal subpart of an ill-formed run: the beginning of an encoding that does not go on as one,
or one byte that begins none. -/
def Subpart (part rest : List UInt8) : Prop :=
  Incomplete part ∧ (∀ b, rest.head? = some b → ¬ Begun (part ++ [b])) ∨
    ∃ b, part = [b] ∧ ¬ Begun [b]

theorem Subpart.ne_nil {part rest : List UInt8} (h : Subpart part rest) : part ≠ [] := by
  rcases h with ⟨hpart, -⟩ | ⟨b, rfl, -⟩
  · exact hpart.1
  · exact cons_ne_nil _ _

variable {part after : List UInt8}

/-- The beginning of an encoding where a maximal subpart stands is within it. -/
theorem Subpart.maximal (h : Subpart part rest) (hbgn : Begun bytes) (hbts : bytes ≠ [])
    (heq : bytes ++ after = part ++ rest) : bytes <+: part ∧ Incomplete part := by
  rcases append_eq_append_iff.mp heq with ⟨more, rfl, -⟩ | ⟨more, rfl, rfl⟩
  · rcases h with ⟨hpart, -⟩ | ⟨b, hb, hlead⟩
    · exact ⟨prefix_append _ _, hpart⟩
    · match bytes, hbts with
      | x :: xs, _ =>
        obtain ⟨rfl, htail⟩ := List.cons.inj hb
        obtain ⟨rfl, -⟩ := append_eq_nil_iff.mp htail
        exact absurd hbgn hlead
  · rcases h with ⟨hpart, hnext⟩ | ⟨b, rfl, hlead⟩
    · match more with
      | [] =>
        rw [append_nil]
        exact ⟨prefix_rfl, hpart⟩
      | b :: more =>
        refine absurd ?_ (hnext b rfl)
        refine Begun.of_append _ more ?_
        rwa [append_assoc]
    · exact absurd (Begun.of_append _ _ hbgn) hlead

/-- The bytes of the text: the characters as they are, and a replacement for each maximal subpart. -/
inductive Lossy : List UInt8 → List Char → Prop
  | nil : Lossy [] []
  | char (c : Char) {rest : List UInt8} {text : List Char} :
      Lossy rest text → Lossy (String.utf8EncodeChar c ++ rest) (c :: text)
  | invalid {part rest : List UInt8} {text : List Char} :
      Subpart part rest → Lossy rest text → Lossy (part ++ rest) ('\uFFFD' :: text)

theorem encodeChar_ne_nil (c : Char) : String.utf8EncodeChar c ≠ [] :=
  (wellFormed_encodeChar c).ne_nil

theorem encodeChar_append_inj {c d : Char}
    (h : String.utf8EncodeChar c ++ rest = String.utf8EncodeChar d ++ after) : c = d ∧ rest = after := by
  have hbts : String.utf8EncodeChar c = String.utf8EncodeChar d := by
    rcases append_eq_append_iff.mp h with ⟨more, hmore, -⟩ | ⟨more, hmore, -⟩
    · have hnone := (wellFormed_encodeChar c).eq_nil_of_append more
        (hmore ▸ (wellFormed_encodeChar d).begun)
      rw [hmore, hnone, append_nil]
    · have hnone := (wellFormed_encodeChar d).eq_nil_of_append more
        (hmore ▸ (wellFormed_encodeChar c).begun)
      rw [hmore, hnone, append_nil]
  refine ⟨?_, ?_⟩
  · have hc := decode?_encode [c]
    rw [encode_cons, hbts, ← encode_cons, decode?_encode] at hc
    exact (List.cons.inj (Option.some.inj hc)).1.symm
  · rw [hbts] at h
    exact append_cancel_left h

theorem Subpart.not_char {c : Char} (h : Subpart part rest)
    (heq : String.utf8EncodeChar c ++ after = part ++ rest) : False := by
  obtain ⟨⟨more, hmore⟩, hpart⟩ :=
    h.maximal (wellFormed_encodeChar c).begun (encodeChar_ne_nil c) heq
  have hnone := (wellFormed_encodeChar c).eq_nil_of_append more (hmore ▸ hpart.2.1)
  rw [hnone, append_nil] at hmore
  exact hpart.2.2 (hmore ▸ wellFormed_encodeChar c)

/-! ### A stream that stops anywhere -/

/-- The text of a stream and what is pending at its end. -/
inductive Reads : List UInt8 → List Char → List UInt8 → Prop
  | done : Reads [] [] []
  | pending {bytes : List UInt8} : Incomplete bytes → Reads bytes [] bytes
  | char (c : Char) {rest pending : List UInt8} {text : List Char} :
      Reads rest text pending → Reads (String.utf8EncodeChar c ++ rest) (c :: text) pending
  | invalid {part rest pending : List UInt8} {text : List Char} :
      Subpart part rest → (Incomplete part → rest ≠ []) → Reads rest text pending →
        Reads (part ++ rest) ('\uFFFD' :: text) pending

namespace Reads

variable {bytes pending : List UInt8} {text : List Char}

theorem chars (cs : List Char) (h : Reads bytes text pending) :
    Reads (encode cs ++ bytes) (cs ++ text) pending := by
  induction cs with
  | nil => exact h
  | cons c cs ih =>
    rw [encode_cons, append_assoc]
    exact .char c ih

theorem pending_eq (h : Reads bytes text pending) : pending = [] ∨ Incomplete pending := by
  induction h with
  | done => exact .inl rfl
  | pending hbts => exact .inr hbts
  | char _ _ ih | invalid _ _ _ ih => exact ih

theorem length_pending (h : Reads bytes text pending) : pending.length ≤ 3 := by
  rcases h.pending_eq with rfl | hpend
  · exact Nat.zero_le 3
  · exact hpend.length_le

theorem append {more pending' : List UInt8} {text' : List Char} (h : Reads bytes text pending)
    (hmore : Reads (pending ++ more) text' pending') : Reads (bytes ++ more) (text ++ text') pending' := by
  induction h with
  | done | pending _ => exact hmore
  | char c _ ih =>
    rw [append_assoc]
    exact .char c (ih hmore)
  | @invalid part rest _ _ hpart hrest _ ih =>
    rw [append_assoc]
    match rest with
    | b :: rest => exact .invalid hpart (fun _ => cons_ne_nil _ _) (ih hmore)
    | [] =>
      obtain ⟨b, rfl, hlead⟩ := hpart.resolve_left fun hleft => hrest hleft.1 rfl
      refine .invalid (.inr ⟨b, rfl, hlead⟩) ?_ (ih hmore)
      intro hinc
      exact absurd hinc.2.1 hlead

/-- The text is the lossy decoding of the stream without what is pending. -/
theorem lossy (h : Reads bytes text pending) : ∃ body, bytes = body ++ pending ∧ Lossy body text := by
  induction h with
  | done | pending _ => exact ⟨[], rfl, .nil⟩
  | char c _ ih =>
    obtain ⟨body, rfl, hbody⟩ := ih
    exact ⟨String.utf8EncodeChar c ++ body, (append_assoc _ _ _).symm, .char c hbody⟩
  | @invalid part _ _ _ hpart _ _ ih =>
    obtain ⟨body, rfl, hbody⟩ := ih
    refine ⟨part ++ body, (append_assoc _ _ _).symm, .invalid ?_ hbody⟩
    rcases hpart with ⟨hinc, hnext⟩ | hlead
    · refine .inl ⟨hinc, ?_⟩
      intro b hb
      refine hnext b ?_
      rw [head?_append, hb]
      rfl
    · exact .inr hlead

/-- A beginning of an encoding at the end of the stream does not start within one, so it is what is
pending. -/
theorem only_pending {last : List UInt8} (h : Reads bytes text pending) (hlast : Incomplete last)
    (hend : last <:+ bytes) : last = pending := by
  induction h with
  | done => exact absurd (suffix_nil.mp hend) hlast.1
  | @pending bytes hbts =>
    rw [← append_nil bytes] at hend
    rcases hlast.suffix_cases hbts.2.1 hend with hnil | hall
    · exact absurd (suffix_nil.mp hnil) hlast.1
    · rw [hall, append_nil]
  | char c _ ih =>
    rcases hlast.suffix_cases (wellFormed_encodeChar c).begun hend with hrest | rfl
    · exact ih hrest
    · have hnone := (wellFormed_encodeChar c).eq_nil_of_append _ hlast.2.1
      rw [hnone, append_nil] at hlast
      exact absurd (wellFormed_encodeChar c) hlast.2.2
  | @invalid part rest _ _ hpart hrest _ ih =>
    rcases hpart with ⟨hinc, hnext⟩ | ⟨b, rfl, hlead⟩
    · rcases hlast.suffix_cases hinc.2.1 hend with hrest' | rfl
      · exact ih hrest'
      · match rest with
        | [] => exact absurd rfl (hrest hinc)
        | b :: rest =>
          refine absurd ?_ (hnext b rfl)
          refine Begun.of_append _ rest ?_
          rw [append_assoc]
          exact hlast.2.1
    · rcases suffix_cons_iff.mp hend with rfl | hrest'
      · exact absurd (Begun.of_append [b] rest hlast.2.1) hlead
      · exact ih hrest'

end Reads

end Utf8
