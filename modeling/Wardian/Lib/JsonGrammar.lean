/-
The grammar of JSON texts, over bytes.

A derivation lists the number tokens of its text in their order; what stands inside a string is not a token.
Bytes of `0x80` and more stand for themselves in a string, whether or not they encode a character.

Main results:

* `JsonGrammar.StringBody.induct_plain` — the body of a string is made of plain bytes and of escaped ones.
-/

import Mathlib.Data.List.Basic

set_option autoImplicit false

namespace JsonGrammar

def IsDigit (b : UInt8) : Prop := 48 ≤ b ∧ b ≤ 57

def IsHexDigit (b : UInt8) : Prop := IsDigit b ∨ (65 ≤ b ∧ b ≤ 70) ∨ (97 ≤ b ∧ b ≤ 102)

def Digits (bytes : List UInt8) : Prop := ∀ d ∈ bytes, IsDigit d

/-- Spaces, tabs, line feeds and carriage returns. -/
def Blank (bytes : List UInt8) : Prop := ∀ b ∈ bytes, b ∈ [0x20, 0x09, 0x0A, 0x0D]

/-! ### Numbers -/

/-- The digits before the point: no zero stands in front of another digit. -/
inductive IntPart : List UInt8 → Prop
  | zero : IntPart [48]
  | positive {d : UInt8} {ds : List UInt8} : IsDigit d → d ≠ 48 → Digits ds → IntPart (d :: ds)

inductive ExpPart : List UInt8 → Prop
  | absent : ExpPart []
  | present {letter : UInt8} {sign ds : List UInt8} : letter ∈ [69, 101] → sign ∈ [[], [43], [45]] →
      ds ≠ [] → Digits ds → ExpPart (letter :: (sign ++ ds))

theorem IntPart.digits {ds : List UInt8} (h : IntPart ds) : Digits ds := by
  cases h with
  | zero =>
    intro d hd
    rw [List.mem_singleton.1 hd]
    exact ⟨by decide, by decide⟩
  | positive hd _ hds => exact List.forall_mem_cons.2 ⟨hd, hds⟩

theorem IntPart.ne_nil {ds : List UInt8} (h : IntPart ds) : ds ≠ [] := by
  cases h <;> exact List.cons_ne_nil _ _

/-- A number token: `frac` are the digits after the point, where there is one. -/
structure NumberToken where
  negative : Bool
  int : List UInt8
  frac : Option (List UInt8)
  exp : List UInt8
  int_spec : IntPart int
  frac_spec : ∀ ds ∈ frac, ds ≠ [] ∧ Digits ds
  exp_spec : ExpPart exp

namespace NumberToken

def fracText (n : NumberToken) : List UInt8 := n.frac.elim [] (46 :: ·)

def text (n : NumberToken) : List UInt8 :=
  (if n.negative then [45] else []) ++ (n.int ++ (n.fracText ++ n.exp))

/-- The digits before the exponent. -/
def significand (n : NumberToken) : List UInt8 := n.int ++ n.frac.getD []

end NumberToken

/-! ### Strings -/

/-- What may follow a backslash, apart from a `u` with its four hexadecimal digits. -/
def escapes : List UInt8 := [34, 92, 47, 98, 102, 110, 114, 116]

/-- What stands between the quotes of a string. -/
inductive StringBody : List UInt8 → Prop
  | nil : StringBody []
  | plain {b : UInt8} {bytes : List UInt8} : 0x20 ≤ b → b ≠ 34 → b ≠ 92 → StringBody bytes →
      StringBody (b :: bytes)
  | escape {b : UInt8} {bytes : List UInt8} : b ∈ escapes → StringBody bytes →
      StringBody (92 :: b :: bytes)
  | unicode {a b c d : UInt8} {bytes : List UInt8} : IsHexDigit a → IsHexDigit b → IsHexDigit c →
      IsHexDigit d → StringBody bytes → StringBody (92 :: 117 :: a :: b :: c :: d :: bytes)

theorem IsHexDigit.ne {b : UInt8} (h : IsHexDigit b) : b ≠ 34 ∧ b ≠ 92 := by
  constructor
  · rintro rfl
    exact absurd h (by unfold IsHexDigit IsDigit; decide)
  · rintro rfl
    exact absurd h (by unfold IsHexDigit IsDigit; decide)

/-- **The body of a string, read from the left**: bytes that are neither a quote nor a backslash, and
backslashes with the byte behind them. -/
theorem StringBody.induct_plain {P : List UInt8 → Prop} (nil : P [])
    (plain : ∀ {b bytes}, b ≠ 34 → b ≠ 92 → P bytes → P (b :: bytes))
    (escaped : ∀ {b bytes}, P bytes → P (92 :: b :: bytes)) {bytes : List UInt8} (h : StringBody bytes) :
    P bytes := by
  induction h with
  | nil => exact nil
  | plain _ hquo hesc _ ih => exact plain hquo hesc ih
  | escape _ _ ih => exact escaped ih
  | unicode ha hb hc hd _ ih =>
    exact escaped (plain ha.ne.1 ha.ne.2 (plain hb.ne.1 hb.ne.2 (plain hc.ne.1 hc.ne.2
      (plain hd.ne.1 hd.ne.2 ih))))

/-! ### Values -/

inductive Symbol
  | value
  /-- A value between blanks. -/
  | padded
  /-- A key, a colon and a value, each between blanks. -/
  | member
  /-- One item or more, with commas between them. -/
  | list (item : Symbol)

/-- `true`, `false` and `null`. -/
def literals : List (List UInt8) := [[116, 114, 117, 101], [102, 97, 108, 115, 101], [110, 117, 108, 108]]

/-- The bytes that a symbol derives, with the number tokens among them. -/
inductive Derives : Symbol → List UInt8 → List NumberToken → Prop
  | literal {word : List UInt8} : word ∈ literals → Derives .value word []
  | number (n : NumberToken) : Derives .value n.text [n]
  | string {body : List UInt8} : StringBody body → Derives .value (34 :: (body ++ [34])) []
  | emptyArray {ws : List UInt8} : Blank ws → Derives .value (91 :: (ws ++ [93])) []
  | array {bytes : List UInt8} {ns : List NumberToken} : Derives (.list .padded) bytes ns →
      Derives .value (91 :: (bytes ++ [93])) ns
  | emptyObject {ws : List UInt8} : Blank ws → Derives .value (123 :: (ws ++ [125])) []
  | object {bytes : List UInt8} {ns : List NumberToken} : Derives (.list .member) bytes ns →
      Derives .value (123 :: (bytes ++ [125])) ns
  | padded {before bytes after : List UInt8} {ns : List NumberToken} : Blank before → Derives .value bytes ns →
      Blank after → Derives .padded (before ++ (bytes ++ after)) ns
  | member {before body after bytes : List UInt8} {ns : List NumberToken} : Blank before → StringBody body →
      Blank after → Derives .padded bytes ns →
      Derives .member (before ++ 34 :: (body ++ 34 :: (after ++ 58 :: bytes))) ns
  | one {item : Symbol} {bytes : List UInt8} {ns : List NumberToken} : Derives item bytes ns →
      Derives (.list item) bytes ns
  | more {item : Symbol} {bytes rest : List UInt8} {ns ms : List NumberToken} : Derives item bytes ns →
      Derives (.list item) rest ms → Derives (.list item) (bytes ++ 44 :: rest) (ns ++ ms)

/-- A JSON text: one value, between blanks. -/
def Text : List UInt8 → List NumberToken → Prop := Derives .padded

end JsonGrammar
