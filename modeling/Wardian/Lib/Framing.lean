/-
Byte strings framed by their lengths.

A piece is written after its length in eight bytes.
-/

import Mathlib.Algebra.Order.Ring.Int
import Mathlib.Data.List.Basic

set_option autoImplicit false

namespace Framing

/-- The last `k` bytes of a number, the highest first. -/
def beBytesOf : Nat → Nat → List UInt8
  | 0, _ => []
  | k + 1, n => beBytesOf k (n / 256) ++ [UInt8.ofNat n]

/-- A number in eight bytes, the highest first. -/
def beBytes (n : Nat) : List UInt8 := beBytesOf 8 n

/-- A piece after its length. -/
def frame (bytes : List UInt8) : List UInt8 := beBytes bytes.length ++ bytes

end Framing
