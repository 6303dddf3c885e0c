/-
Texts as bytes.

A text is encoded character by character; a character of ASCII is one byte, and every byte of another
character is above them.

Main results:

* `Utf8.decode?_encode`, `Utf8.encode_of_decode?` — the one is the inverse of the other;
* `Utf8.encodeChar_ascii`, `Utf8.le_of_mem_encodeChar` — the bytes of a character.
-/

import Mathlib.Data.List.Basic

set_option autoImplicit false

namespace Utf8

open List

/-- The bytes of a text. -/
def encode (cs : List Char) : List UInt8 := cs.flatMap String.utf8EncodeChar

/-- The text that has the bytes. -/
def decode? (bytes : List UInt8) : Option (List Char) :=
  (String.fromUTF8? bytes.toByteArray).map String.toList

@[simp] theorem encode_nil : encode [] = [] := rfl

@[simp] theorem encode_cons (c : Char) (cs : List Char) :
    encode (c :: cs) = String.utf8EncodeChar c ++ encode cs := rfl

@[simp] theorem encode_append (cs ds : List Char) : encode (cs ++ ds) = encode cs ++ encode ds :=
  flatMap_append

theorem toByteArray_encode (cs : List Char) : (encode cs).toByteArray = cs.utf8Encode := rfl

theorem decode?_encode (cs : List Char) : decode? (encode cs) = some cs := by
  unfold decode? String.fromUTF8?
  rw [toByteArray_encode]
  split
  · rename_i hvalid
    have hsame : String.fromUTF8 cs.utf8Encode hvalid = String.ofList cs := by
      rw [← String.toByteArray_inj, String.toByteArray_ofList]
      rfl
    rw [hsame, Option.map_some, String.toList_ofList]
  · rename_i hinv
    exact absurd ByteArray.isValidUTF8_utf8Encode (by simpa using hinv)

theorem encode_of_decode? {bytes : List UInt8} {cs : List Char} (h : decode? bytes = some cs) :
    encode cs = bytes := by
  unfold decode? String.fromUTF8? at h
  split at h
  · rename_i hvalid
    obtain rfl := Option.some.inj h
    have hbts : (encode (String.fromUTF8 bytes.toByteArray hvalid).toList).toByteArray =
        bytes.toByteArray := by
      rw [toByteArray_encode, String.utf8Encode_toList]
      rfl
    simpa using congrArg (fun b : ByteArray => b.data.toList) hbts
  · cases h

theorem encodeChar_ascii {c : Char} (h : c.toNat < 128) :
    String.utf8EncodeChar c = [UInt8.ofNat c.toNat] := by
  have hsize : c.utf8Size = 1 := by
    rw [Char.utf8Size_eq_one_iff, UInt32.le_iff_toNat_le]
    have : c.val.toNat = c.toNat := rfl
    simp
    omega
  rw [String.utf8EncodeChar_eq_singleton hsize]
  rfl

theorem le_of_mem_encodeChar {c : Char} (h : 128 ≤ c.toNat) {b : UInt8}
    (hb : b ∈ String.utf8EncodeChar c) : 128 ≤ b.toNat := by
  have hval : c.val.toNat = c.toNat := rfl
  unfold String.utf8EncodeChar at hb
  simp only [hval] at hb
  split at hb
  · omega
  · split at hb
    · simp only [mem_cons, not_mem_nil, or_false] at hb
      rcases hb with rfl | rfl <;> rw [UInt8.toNat_ofNat'] <;> omega
    · split at hb
      · simp only [mem_cons, not_mem_nil, or_false] at hb
        rcases hb with rfl | rfl | rfl <;> rw [UInt8.toNat_ofNat'] <;> omega
      · simp only [mem_cons, not_mem_nil, or_false] at hb
        rcases hb with rfl | rfl | rfl | rfl <;> rw [UInt8.toNat_ofNat'] <;> omega

/-- What stands in front of an ASCII character is a text of its own. -/
theorem exists_encode_of_append {b : UInt8} (hb : b.toNat < 128) {cs : List Char}
    {bytes rest : List UInt8} (h : encode cs = bytes ++ b :: rest) : ∃ ds, encode ds = bytes := by
  induction cs generalizing bytes with
  | nil => simp at h
  | cons c cs ih =>
    rw [encode_cons] at h
    obtain ⟨more, rfl, hmore⟩ | ⟨beyond, hbeyond, hrest⟩ := append_eq_append_iff.1 h
    · obtain ⟨ds, rfl⟩ := ih hmore
      exact ⟨c :: ds, encode_cons c ds⟩
    · cases beyond with
      | nil => exact ⟨[c], by rw [encode_cons, encode_nil, hbeyond, append_nil, append_nil]⟩
      | cons b' beyond =>
        obtain ⟨rfl, -⟩ := List.cons.inj hrest
        -- a character with a byte of ASCII has no other byte
        by_cases hascii : c.toNat < 128
        · rw [encodeChar_ascii hascii] at hbeyond
          cases bytes with
          | nil => exact ⟨[], rfl⟩
          | cons b' bytes => simp at hbeyond
        · have hhigh := le_of_mem_encodeChar (Nat.not_lt.1 hascii) (b := b) (by rw [hbeyond]; simp)
          omega

end Utf8
