/-
The shape of JSON texts.

Whoever reads a JSON text from the left knows at every byte how deep in brackets it is and whether it
is inside a string.  A text is complete when the bracket with which it begins has been closed and
nothing but blanks follows.  What has been written of a text when the writing breaks off is not
complete, and it does not become so when another text is written after it.

Main results:

* `JsonShape.scan_objectBytes` — the text of an object is complete;
* `JsonShape.unfinished_of_start` — what has been written of it before is not;
* `JsonShape.unfinished_of_start_append` — nor is that together with the text of another object.
-/

import Wardian.Lib.JsonText
import Wardian.Lib.Utf8

set_option autoImplicit false

namespace JsonShape

open Utf8 JsonText
open List

/-! ### Texts -/

/-- The characters of numbers and of the words `true`, `false` and `null`. -/
def isPlain (c : Char) : Bool :=
  ('0' ≤ c && c ≤ '9') || ('a' ≤ c && c ≤ 'z') || c == 'E' || c == '+' || c == '-' || c == '.'

/-- A number or a word. -/
structure Plain where
  text : List Char
  plain : ∀ c ∈ text, isPlain c = true

/-- A JSON value. -/
inductive Tree where
  | plain (word : Plain)
  | string (s : List Char)
  | array (values : List Tree)
  | object (members : List (List Char × Tree))

/-- The text of a string. -/
def quoted (s : List Char) : List Char := '"' :: (s.flatMap escapeChar ++ ['"'])

mutual

/-- The text of a value, without blanks. -/
def Tree.text : Tree → List Char
  | .plain word => word.text
  | .string s => quoted s
  | .array values => '[' :: (elementTexts values ++ [']'])
  | .object members => '{' :: (memberTexts members ++ ['}'])

/-- The texts of values, separated by commas. -/
def elementTexts : List Tree → List Char
  | [] => []
  | [value] => value.text
  | value :: values => value.text ++ ',' :: elementTexts values

/-- The texts of members, separated by commas. -/
def memberTexts : List (List Char × Tree) → List Char
  | [] => []
  | [(name, value)] => quoted name ++ ':' :: value.text
  | (name, value) :: members => quoted name ++ ':' :: (value.text ++ ',' :: memberTexts members)

end

/-! ### Scanning -/

/-- What is known after some bytes: nothing has begun, it is so deep in brackets, inside a string
there or after a backslash in the string, the brackets have been closed, the text is not one in
brackets, or it cannot be continued to a JSON text. -/
inductive Scan where
  | start
  | inside (depth : Nat)
  | inString (depth : Nat)
  | escaped (depth : Nat)
  | done
  | other
  | bad
deriving DecidableEq

def isBlank (b : UInt8) : Bool := b == 32 || b == 9 || b == 10 || b == 13

/-- The bytes of the two opening brackets. -/
def isOpening (b : UInt8) : Bool := b == 0x7B || b == 0x5B

def isClosing (b : UInt8) : Bool := b == 0x7D || b == 0x5D

def isQuote (b : UInt8) : Bool := b == 0x22

def isBackslash (b : UInt8) : Bool := b == 0x5C

/-- The bytes that may follow a backslash: the quote, the backslash, the slash and the letters
`b`, `f`, `n`, `r`, `t` and `u`. -/
def isEscape (b : UInt8) : Bool :=
  [0x22, 0x5C, 0x2F, 0x62, 0x66, 0x6E, 0x72, 0x74, 0x75].contains b

def Scan.step : Scan → UInt8 → Scan
  | .start, b => if isBlank b then .start else if isOpening b then .inside 0 else .other
  | .inside depth, b =>
    if isQuote b then .inString depth
    else if isOpening b then .inside (depth + 1)
    else if isClosing b then (match depth with | 0 => .done | depth + 1 => .inside depth)
    else if isBackslash b then .bad
    else .inside depth
  | .inString depth, b =>
    if isQuote b then .inside depth
    else if isBackslash b then .escaped depth
    else .inString depth
  | .escaped depth, b => if isEscape b then .inString depth else .bad
  | .done, b => if isBlank b then .done else .bad
  | .other, _ => .other
  | .bad, _ => .bad

def Scan.run (state : Scan) (bytes : List UInt8) : Scan := bytes.foldl Scan.step state

/-- What is known of a text. -/
def scan (bytes : List UInt8) : Scan := Scan.run .start bytes

/-- A bracket has not been closed, or cannot be closed any more. -/
def Scan.Unfinished : Scan → Prop
  | .inside _ | .inString _ | .escaped _ | .bad => True
  | _ => False

namespace Scan

@[simp] theorem run_nil (state : Scan) : run state [] = state := rfl

@[simp] theorem run_cons (state : Scan) (b : UInt8) (bytes : List UInt8) :
    run state (b :: bytes) = run (state.step b) bytes := rfl

theorem run_append (state : Scan) (bytes later : List UInt8) :
    run state (bytes ++ later) = run (run state bytes) later := foldl_append

@[simp] theorem run_bad (bytes : List UInt8) : run .bad bytes = .bad := by
  induction bytes with
  | nil => rfl
  | cons b bytes ih => exact ih

/-- At least so deep. -/
def Deep (depth : Nat) : Scan → Prop
  | .inside depth' | .inString depth' | .escaped depth' => depth ≤ depth'
  | _ => False

theorem Deep.le {depth depth' : Nat} {state : Scan} (h : Deep depth state) (hle : depth' ≤ depth) :
    Deep depth' state := by
  cases state with
  | inside _ | inString _ | escaped _ => exact Nat.le_trans hle h
  | _ => exact h

/-- Outside a string, as somebody sees it who is wrong about that. -/
def Outside : Scan → Prop
  | .inside _ | .done | .bad => True
  | _ => False

/-- Inside a string, as somebody sees it who is wrong about that. -/
def Within : Scan → Prop
  | .inString _ | .bad => True
  | _ => False

end Scan

open Scan

/-! ### Pieces of texts -/

/-- What is written between brackets: whoever reads it comes out where he came in and was never
higher, and whoever takes it for a part of a string does so at its end too. -/
structure Piece (bytes : List UInt8) : Prop where
  level : ∀ depth, run (.inside depth) bytes = .inside depth
  deep : ∀ depth start, start <+: bytes → Deep depth (run (.inside depth) start)
  within : ∀ state, Within state → Within (run state bytes)
  printable : ∀ b ∈ bytes, 32 ≤ b.toNat

/-- What is written between quotes. -/
structure Content (bytes : List UInt8) : Prop where
  level : ∀ depth, run (.inString depth) bytes = .inString depth
  deep : ∀ depth start, start <+: bytes → Deep depth (run (.inString depth) start)
  outside : ∀ state, Outside state → Outside (run state bytes)
  printable : ∀ b ∈ bytes, 32 ≤ b.toNat

/-- A beginning of two pieces is one of the first, or the first and a beginning of the second. -/
theorem prefix_append_cases {α : Type} {start left right : List α} (h : start <+: left ++ right) :
    start <+: left ∨ ∃ rest, start = left ++ rest ∧ rest <+: right := by
  rcases Nat.le_total start.length left.length with hle | hle
  · exact .inl (prefix_of_prefix_length_le h (prefix_append _ _) hle)
  · obtain ⟨rest, rfl⟩ := prefix_of_prefix_length_le (prefix_append left right) h hle
    exact .inr ⟨rest, rfl, (prefix_append_right_inj left).1 h⟩

theorem Piece.nil : Piece [] := by
  refine ⟨fun _ => rfl, ?_, fun _ h => h, by simp⟩
  intro depth start hstart
  rw [prefix_nil.1 hstart]
  exact Nat.le_refl depth

variable {left right : List UInt8}

theorem Piece.append (hleft : Piece left) (hrt : Piece right) : Piece (left ++ right) := by
  refine ⟨?_, ?_, ?_, ?_⟩
  · intro depth
    rw [run_append, hleft.level, hrt.level]
  · intro depth start hstart
    rcases prefix_append_cases hstart with hstart | ⟨rest, rfl, hrest⟩
    · exact hleft.deep depth start hstart
    · rw [run_append, hleft.level]
      exact hrt.deep depth rest hrest
  · intro state hst
    rw [run_append]
    exact hrt.within _ (hleft.within _ hst)
  · intro b hb
    rcases mem_append.1 hb with hb | hb
    · exact hleft.printable b hb
    · exact hrt.printable b hb

theorem Content.nil : Content [] := by
  refine ⟨fun _ => rfl, ?_, fun _ h => h, by simp⟩
  intro depth start hstart
  rw [prefix_nil.1 hstart]
  exact Nat.le_refl depth

theorem Content.append (hleft : Content left) (hrt : Content right) : Content (left ++ right) := by
  refine ⟨?_, ?_, ?_, ?_⟩
  · intro depth
    rw [run_append, hleft.level, hrt.level]
  · intro depth start hstart
    rcases prefix_append_cases hstart with hstart | ⟨rest, rfl, hrest⟩
    · exact hleft.deep depth start hstart
    · rw [run_append, hleft.level]
      exact hrt.deep depth rest hrest
  · intro state hst
    rw [run_append]
    exact hrt.outside _ (hleft.outside _ hst)
  · intro b hb
    rcases mem_append.1 hb with hb | hb
    · exact hleft.printable b hb
    · exact hrt.printable b hb

/-- Bytes that mean nothing: neither quotes nor backslashes nor brackets. -/
def isNeutral (b : UInt8) : Bool :=
  !isQuote b && !isBackslash b && !isOpening b && !isClosing b

variable {b : UInt8}

theorem Piece.neutral (hneut : isNeutral b = true) (hprin : 32 ≤ b.toNat) : Piece [b] := by
  unfold isNeutral at hneut
  simp only [Bool.and_eq_true, Bool.not_eq_true'] at hneut
  obtain ⟨⟨⟨hquo, hbs⟩, hopng⟩, hclsg⟩ := hneut
  have hlevel : ∀ depth, run (.inside depth) [b] = .inside depth := by
    intro depth
    simp [step, hquo, hbs, hopng, hclsg]
  refine ⟨hlevel, ?_, ?_, by simpa using hprin⟩
  · intro depth start hstart
    rcases prefix_cons_iff.1 hstart with rfl | ⟨rest, rfl, hrest⟩
    · exact Nat.le_refl depth
    · rw [prefix_nil.1 hrest, hlevel]
      exact Nat.le_refl depth
  · intro state hst
    cases state with
    | inString depth => simp [step, hquo, hbs, Within]
    | bad => exact hst
    | _ => exact hst.elim

theorem Piece.bracketed {bytes : List UInt8} {opening closing : UInt8} (h : Piece bytes)
    (hopng : isOpening opening = true) (hclsg : isClosing closing = true) :
    Piece (opening :: (bytes ++ [closing])) := by
  have hopen : ∀ b : UInt8, isOpening b = true → isQuote b = false ∧ isBackslash b = false ∧
      isBlank b = false ∧ 32 ≤ b.toNat := by
    intro b hb
    unfold isOpening at hb
    rw [Bool.or_eq_true, beq_iff_eq, beq_iff_eq] at hb
    rcases hb with rfl | rfl <;> decide
  have hclos : ∀ b : UInt8, isClosing b = true → isQuote b = false ∧ isBackslash b = false ∧
      isOpening b = false ∧ 32 ≤ b.toNat := by
    intro b hb
    unfold isClosing at hb
    rw [Bool.or_eq_true, beq_iff_eq, beq_iff_eq] at hb
    rcases hb with rfl | rfl <;> decide
  obtain ⟨hquo, hbs, -, hprin⟩ := hopen opening hopng
  obtain ⟨hquo', hbs', hopng', hprin'⟩ := hclos closing hclsg
  have hlevel : ∀ depth, run (.inside depth) (opening :: (bytes ++ [closing])) = .inside depth := by
    intro depth
    rw [run_cons, run_append]
    simp [step, hquo, hopng, h.level, hquo', hopng', hclsg]
  refine ⟨hlevel, ?_, ?_, ?_⟩
  · intro depth start hstart
    rcases prefix_cons_iff.1 hstart with rfl | ⟨rest, rfl, hrest⟩
    · exact Nat.le_refl depth
    · have hstep : step (.inside depth) opening = .inside (depth + 1) := by
        simp [step, hquo, hopng]
      rcases prefix_concat_iff.1 hrest with rfl | hrest
      · rw [hlevel]
        exact Nat.le_refl depth
      · rw [run_cons, hstep]
        exact (h.deep (depth + 1) rest hrest).le (Nat.le_succ depth)
  · -- brackets in a string are like any other byte
    have hstep : ∀ b : UInt8, isQuote b = false → isBackslash b = false → ∀ state, Within state →
        Within (state.step b) := by
      intro b hb hb' state hst
      cases state with
      | inString depth => simp [step, hb, hb', Within]
      | bad => exact hst
      | _ => exact hst.elim
    intro state hst
    rw [run_cons, run_append]
    exact hstep closing hquo' hbs' _
      (h.within _ (hstep opening hquo hbs state hst))
  · intro b hb
    rcases mem_cons.1 hb with rfl | hb
    · exact hprin
    · rcases mem_append.1 hb with hb | hb
      · exact h.printable b hb
      · rw [mem_singleton.1 hb]
        exact hprin'

theorem Content.quoted {bytes : List UInt8} (h : Content bytes) : Piece (0x22 :: (bytes ++ [0x22])) := by
  have hlevel : ∀ depth, run (.inside depth) (0x22 :: (bytes ++ [0x22])) = .inside depth := by
    intro depth
    rw [run_cons, run_append]
    simp [step, isQuote, h.level]
  refine ⟨hlevel, ?_, ?_, ?_⟩
  · intro depth start hstart
    rcases prefix_cons_iff.1 hstart with rfl | ⟨rest, rfl, hrest⟩
    · exact Nat.le_refl depth
    · rcases prefix_concat_iff.1 hrest with rfl | hrest
      · rw [hlevel]
        exact Nat.le_refl depth
      · rw [run_cons]
        exact h.deep depth rest hrest
  · -- the first quote leads out of the string, and the last one into it again
    intro state hst
    rw [run_cons, run_append]
    have hfst : Outside (state.step 0x22) := by
      cases state with
      | inString depth | bad => trivial
      | _ => exact hst.elim
    have hlast : ∀ state, Outside state → Within (state.step 0x22) := by
      intro state hst
      cases state with
      | inside depth | done | bad => trivial
      | _ => exact hst.elim
    exact hlast _ (h.outside _ hfst)
  · intro b hb
    rcases mem_cons.1 hb with rfl | hb
    · decide
    · rcases mem_append.1 hb with hb | hb
      · exact h.printable b hb
      · rw [mem_singleton.1 hb]
        decide

/-- A byte in a string that is neither a quote nor a backslash. -/
theorem Content.byte (hquo : isQuote b = false) (hbs : isBackslash b = false)
    (hprin : 32 ≤ b.toNat) : Content [b] := by
  have hlevel : ∀ depth, run (.inString depth) [b] = .inString depth := by
    intro depth
    simp [step, hquo, hbs]
  refine ⟨hlevel, ?_, ?_, by simpa using hprin⟩
  · intro depth start hstart
    rcases prefix_cons_iff.1 hstart with rfl | ⟨rest, rfl, hrest⟩
    · exact Nat.le_refl depth
    · rw [prefix_nil.1 hrest, hlevel]
      exact Nat.le_refl depth
  · intro state hst
    rw [run_cons, run_nil]
    cases state with
    | inside depth =>
      simp only [step, hquo, hbs]
      by_cases hopng : isOpening b = true
      · simp [hopng, Scan.Outside]
      · by_cases hclsg : isClosing b = true
        · cases depth <;> simp [hopng, hclsg, Scan.Outside]
        · simp [hopng, hclsg, Scan.Outside]
    | done =>
      change Outside (if isBlank b = true then done else bad)
      split <;> trivial
    | bad => trivial
    | _ => exact hst.elim

theorem Content.bytes {bytes : List UInt8} (h : ∀ b ∈ bytes, isQuote b = false ∧
    isBackslash b = false ∧ 32 ≤ b.toNat) : Content bytes := by
  induction bytes with
  | nil => exact .nil
  | cons b bytes ih =>
    obtain ⟨hquo, hbs, hprin⟩ := h b (mem_cons_self ..)
    have hrest := ih fun b' hb' => h b' (mem_cons_of_mem _ hb')
    exact (Content.byte hquo hbs hprin).append hrest

theorem Content.escape (hesc : isEscape b = true) (hprin : 32 ≤ b.toNat) : Content [0x5C, b] := by
  have hlevel : ∀ depth, run (.inString depth) [0x5C, b] = .inString depth := by
    intro depth
    simp [step, isQuote, isBackslash, hesc]
  refine ⟨hlevel, ?_, ?_, ?_⟩
  · intro depth start hstart
    rcases prefix_cons_iff.1 hstart with rfl | ⟨rest, rfl, hrest⟩
    · exact Nat.le_refl depth
    · rcases prefix_cons_iff.1 hrest with rfl | ⟨rest', rfl, hrest'⟩
      · exact Nat.le_refl depth
      · rw [prefix_nil.1 hrest', hlevel]
        exact Nat.le_refl depth
  · -- outside a string there are no backslashes
    intro state hst
    have hbad : state.step 0x5C = .bad := by
      cases state with
      | inside depth => rfl
      | done => rfl
      | bad => rfl
      | _ => exact hst.elim
    rw [run_cons, hbad, run_bad]
    trivial
  · intro b' hb'
    simp only [mem_cons, not_mem_nil, or_false] at hb'
    rcases hb' with rfl | rfl
    · decide
    · exact hprin

/-! ### Texts of values -/

theorem content_char {c : Char} (hquo : c ≠ '"') (hbs : c ≠ backslash)
    (hprin : 32 ≤ c.toNat) : Content (String.utf8EncodeChar c) := by
  refine .bytes fun b hb => ?_
  by_cases hascii : c.toNat < 128
  · rw [encodeChar_ascii hascii, mem_singleton] at hb
    have hvl : b.toNat = c.toNat := by
      rw [hb, UInt8.toNat_ofNat']
      omega
    have hne : ∀ n, n ≠ c.toNat → (b == UInt8.ofNat n) = false ∨ 256 ≤ n := by
      intro n hn
      by_cases hlarge : 256 ≤ n
      · exact .inr hlarge
      · refine .inl ?_
        rw [beq_eq_false_iff_ne]
        rintro rfl
        rw [UInt8.toNat_ofNat'] at hvl
        omega
    have hq : 34 ≠ c.toNat := fun h => hquo (Char.toNat_inj.1 h.symm)
    have hb' : 92 ≠ c.toNat := fun h => hbs (Char.toNat_inj.1 h.symm)
    refine ⟨?_, ?_, by omega⟩
    · exact (hne 34 hq).resolve_right (by decide)
    · exact (hne 92 hb').resolve_right (by decide)
  · have hhigh := le_of_mem_encodeChar (Nat.not_lt.1 hascii) hb
    refine ⟨?_, ?_, by omega⟩
    · unfold isQuote
      rw [beq_eq_false_iff_ne]
      rintro rfl
      revert hhigh
      decide
    · unfold isBackslash
      rw [beq_eq_false_iff_ne]
      rintro rfl
      revert hhigh
      decide

theorem content_hexDigit {n : Nat} (h : n < 16) : Content (String.utf8EncodeChar (hexDigit n)) := by
  have hall : ∀ n < 16, hexDigit n ≠ '"' ∧ hexDigit n ≠ backslash ∧
      32 ≤ (hexDigit n).toNat := by decide
  obtain ⟨hquo, hbs, hprin⟩ := hall n h
  exact content_char hquo hbs hprin

theorem content_escapeChar (c : Char) : Content (Utf8.encode (escapeChar c)) := by
  have hesc : ∀ d : Char, d.toNat < 128 → isEscape (UInt8.ofNat d.toNat) = true →
      Content (Utf8.encode [backslash, d]) := by
    intro d hascii hd
    have hbts : Utf8.encode [backslash, d] = [0x5C, UInt8.ofNat d.toNat] := by
      rw [encode_cons, encode_cons, encodeChar_ascii (by decide),
        encodeChar_ascii hascii]
      rfl
    rw [hbts]
    refine .escape hd ?_
    unfold isEscape at hd
    simp only [contains_eq_mem, mem_cons, not_mem_nil, or_false,
      decide_eq_true_eq] at hd
    rcases hd with h | h | h | h | h | h | h | h | h <;> rw [h] <;> decide
  unfold escapeChar
  split
  case h_8 hquo hbs _ _ _ _ _ =>
    split
    · rename_i hsml
      have hspl : [backslash, 'u', '0', '0', hexDigit (c.toNat / 16),
          hexDigit (c.toNat % 16)] = [backslash, 'u'] ++ (['0', '0'] ++
            ([hexDigit (c.toNat / 16)] ++ [hexDigit (c.toNat % 16)])) := rfl
      rw [hspl, encode_append, encode_append, encode_append]
      refine (hesc 'u' (by decide) (by decide)).append (.append (.bytes ?_) (.append ?_ ?_))
      · decide +kernel
      · simpa using content_hexDigit (n := c.toNat / 16) (by omega)
      · simpa using content_hexDigit (n := c.toNat % 16) (by omega)
    · rename_i hlarge
      rw [encode_cons, encode_nil, append_nil]
      refine content_char ?_ ?_ (Nat.not_lt.1 hlarge)
      · rintro rfl
        exact hquo rfl
      · rintro rfl
        exact hbs rfl
  case h_1 hc => exact hesc c (by rw [hc]; decide) (by rw [hc]; decide)
  case h_2 hc => exact hesc c (by rw [hc]; decide) (by rw [hc]; decide)
  all_goals exact hesc _ (by decide) (by decide)

theorem piece_quoted (s : List Char) : Piece (Utf8.encode (quoted s)) := by
  have hcnt : Content (Utf8.encode (s.flatMap escapeChar)) := by
    induction s with
    | nil => exact .nil
    | cons c s ih =>
      rw [flatMap_cons, encode_append]
      exact (content_escapeChar c).append ih
  have hquo : String.utf8EncodeChar '"' = [0x22] := by decide
  unfold quoted
  rw [encode_cons, encode_append, encode_cons, encode_nil, append_nil,
    hquo]
  exact hcnt.quoted

theorem piece_neutral {c : Char} (hascii : c.toNat < 128) (hneut : isNeutral (UInt8.ofNat c.toNat) = true)
    (hprin : 32 ≤ c.toNat) : Piece (String.utf8EncodeChar c) := by
  rw [encodeChar_ascii hascii]
  refine .neutral hneut ?_
  rw [UInt8.toNat_ofNat']
  omega

/-- The characters of numbers and words mean nothing by themselves. -/
theorem piece_plain (word : Plain) : Piece (Utf8.encode word.text) := by
  have hchar : ∀ c, isPlain c = true → Piece (String.utf8EncodeChar c) := by
    intro c hc
    have hcode : 48 ≤ c.toNat ∧ c.toNat ≤ 57 ∨ 97 ≤ c.toNat ∧ c.toNat ≤ 122 ∨ c.toNat = 69 ∨
        c.toNat = 43 ∨ c.toNat = 45 ∨ c.toNat = 46 := by
      unfold isPlain at hc
      simp only [Bool.or_eq_true, Bool.and_eq_true, decide_eq_true_eq, beq_iff_eq] at hc
      rcases hc with ((((h | h) | h) | h) | h) | h
      · exact .inl h
      · exact .inr (.inl h)
      · exact .inr (.inr (.inl (h ▸ rfl)))
      · exact .inr (.inr (.inr (.inl (h ▸ rfl))))
      · exact .inr (.inr (.inr (.inr (.inl (h ▸ rfl)))))
      · exact .inr (.inr (.inr (.inr (.inr (h ▸ rfl)))))
    have hall : ∀ n < 123, (48 ≤ n ∧ n ≤ 57 ∨ 97 ≤ n ∧ n ≤ 122 ∨ n = 69 ∨ n = 43 ∨ n = 45 ∨
        n = 46) → isNeutral (UInt8.ofNat n) = true := by decide
    exact piece_neutral (by omega) (hall c.toNat (by omega) hcode) (by omega)
  obtain ⟨text, hpln⟩ := word
  induction text with
  | nil => exact .nil
  | cons c text ih =>
    exact (hchar c (hpln c (mem_cons_self ..))).append
      (ih fun d hd => hpln d (mem_cons_of_mem _ hd))

theorem piece_comma : Piece (String.utf8EncodeChar ',') :=
  piece_neutral (by decide) (by decide) (by decide)

theorem piece_colon : Piece (String.utf8EncodeChar ':') :=
  piece_neutral (by decide) (by decide) (by decide)

mutual

/-- **The text of a value is a piece**, by the structure of the value. -/
theorem Tree.piece : ∀ value : Tree, Piece (Utf8.encode value.text)
  | .plain word => piece_plain word
  | .string s => piece_quoted s
  | .array values => by
    have hopng : String.utf8EncodeChar '[' = [0x5B] := by decide
    have hclsg : String.utf8EncodeChar ']' = [0x5D] := by decide
    rw [Tree.text, encode_cons, encode_append, encode_cons, encode_nil,
      append_nil, hopng, hclsg]
    exact (piece_elements values).bracketed (by decide) (by decide)
  | .object members => by
    have hopng : String.utf8EncodeChar '{' = [0x7B] := by decide
    have hclsg : String.utf8EncodeChar '}' = [0x7D] := by decide
    rw [Tree.text, encode_cons, encode_append, encode_cons, encode_nil,
      append_nil, hopng, hclsg]
    exact (piece_members members).bracketed (by decide) (by decide)

theorem piece_elements : ∀ values : List Tree, Piece (Utf8.encode (elementTexts values))
  | [] => .nil
  | [value] => value.piece
  | value :: value' :: values => by
    rw [elementTexts, encode_append, encode_cons]
    · exact value.piece.append (piece_comma.append (piece_elements (value' :: values)))
    · simp

theorem piece_members : ∀ members : List (List Char × Tree),
    Piece (Utf8.encode (memberTexts members))
  | [] => .nil
  | [(name, value)] => by
    rw [memberTexts, encode_append, encode_cons]
    exact (piece_quoted name).append (piece_colon.append value.piece)
  | (name, value) :: member :: members => by
    rw [memberTexts, encode_append, encode_cons, encode_append, encode_cons]
    · exact (piece_quoted name).append (piece_colon.append (value.piece.append
        (piece_comma.append (piece_members (member :: members)))))
    · simp

end

/-! ### Complete and unfinished texts -/

/-- The bytes of an object. -/
def objectBytes (members : List (List Char × Tree)) : List UInt8 :=
  Utf8.encode (Tree.object members).text

theorem objectBytes_eq (members : List (List Char × Tree)) :
    objectBytes members = 0x7B :: (Utf8.encode (memberTexts members) ++ [0x7D]) := by
  have hopng : String.utf8EncodeChar '{' = [0x7B] := by decide
  have hclsg : String.utf8EncodeChar '}' = [0x7D] := by decide
  unfold objectBytes
  rw [Tree.text, encode_cons, encode_append, encode_cons, encode_nil,
    append_nil, hopng, hclsg]
  rfl

theorem objectBytes_ne_nil (members : List (List Char × Tree)) : objectBytes members ≠ [] := by
  rw [objectBytes_eq]
  exact cons_ne_nil _ _

variable {members : List (List Char × Tree)}

theorem printable_objectBytes (hb : b ∈ objectBytes members) : 32 ≤ b.toNat :=
  (Tree.piece (.object members)).printable b hb

theorem scan_objectBytes (members : List (List Char × Tree)) : scan (objectBytes members) = .done := by
  rw [objectBytes_eq]
  unfold scan
  rw [run_cons, run_append]
  have hstep : step .start 0x7B = .inside 0 := by decide
  rw [hstep, (piece_members members).level]
  rfl

variable {start : List UInt8}

theorem deep_of_prefix (hstart : start <+: objectBytes members) (hne : start ≠ [])
    (hcut : start ≠ objectBytes members) : Deep 0 (scan start) := by
  rw [objectBytes_eq] at hstart hcut
  rcases prefix_cons_iff.1 hstart with rfl | ⟨rest, rfl, hrest⟩
  · exact absurd rfl hne
  · rcases prefix_concat_iff.1 hrest with rfl | hrest
    · exact absurd rfl hcut
    · exact (piece_members members).deep 0 rest hrest

/-- **What has been written of an object is unfinished.** -/
theorem unfinished_of_start (hstart : start <+: objectBytes members) (hne : start ≠ [])
    (hcut : start ≠ objectBytes members) : (scan start).Unfinished := by
  have hdeep := deep_of_prefix hstart hne hcut
  cases hst : scan start with
  | inside _ | inString _ | escaped _ => trivial
  | _ => rw [hst] at hdeep; exact hdeep.elim

/-- **It stays unfinished** when another object is written after it: the brackets of that one are
closed inside it, and when the writing broke off inside a string, the quotes of the other are taken
the wrong way round. -/
theorem unfinished_of_start_append {members' : List (List Char × Tree)}
    (hstart : start <+: objectBytes members) (hne : start ≠ []) (hcut : start ≠ objectBytes members) :
    (scan (start ++ objectBytes members')).Unfinished := by
  have hdeep := deep_of_prefix hstart hne hcut
  have hpiece : Piece (objectBytes members') := Tree.piece (.object members')
  unfold scan at hdeep ⊢
  rw [run_append]
  cases hst : run .start start with
  | inside depth =>
    rw [hpiece.level]
    trivial
  | inString depth =>
    have hwthn := hpiece.within (.inString depth) trivial
    cases hlast : run (.inString depth) (objectBytes members') with
    | inString _ | bad => trivial
    | _ => rw [hlast] at hwthn; exact hwthn.elim
  | escaped depth =>
    have hstep : step (.escaped depth) 0x7B = .bad := by
      unfold step
      rfl
    rw [objectBytes_eq, run_cons, hstep, run_bad]
    trivial
  | _ => rw [hst] at hdeep; exact hdeep.elim

theorem unfinished_of_object_append (members members' : List (List Char × Tree)) :
    (scan (objectBytes members ++ objectBytes members')).Unfinished := by
  have hdone := scan_objectBytes members
  unfold scan at hdone ⊢
  have hstep : step .done 0x7B = .bad := by decide
  rw [run_append, hdone, objectBytes_eq members', run_cons, hstep, run_bad]
  trivial

end JsonShape
