import Mathlib.Data.Int.Basic
import Mathlib.Tactic.Common

/-!
# The 32-bit operators of JavaScript

The operators take numbers to 32 bits (`toInt32`) and return signed numbers; only `>>>` returns an
unsigned one. A result is known by its bits: `toInt32_shiftLeft` and the lemmas beside it, and
`unsignedShiftRight_zero` for `value >>> 0`.
-/

namespace ApiWhatsApp.Library

/-- The bits of an integer, modulo `2 ^ 32`. -/
def toInt32 (n : ℤ) : BitVec 32 := BitVec.ofInt 32 n

/-- `value << count`. -/
def shiftLeft (value : ℤ) (count : ℕ) : ℤ := (toInt32 value <<< (count % 32)).toInt

/-- `value >>> count`. -/
def unsignedShiftRight (value : ℤ) (count : ℕ) : ℤ := (toInt32 value >>> (count % 32)).toNat

/-- `a & b`. -/
def bitwiseAnd (a b : ℤ) : ℤ := (toInt32 a &&& toInt32 b).toInt

/-- `a ^ b`. -/
def bitwiseXor (a b : ℤ) : ℤ := (toInt32 a ^^^ toInt32 b).toInt

/-- A natural number, in 32 bits. -/
@[simp] theorem toInt32_natCast (n : ℕ) : toInt32 n = BitVec.ofNat 32 n := BitVec.ofInt_natCast 32 n

/-- Numbers of 32 bits stay what they are. -/
@[simp] theorem toInt32_toNat (x : BitVec 32) : toInt32 (x.toNat : ℤ) = x := by
  rw [toInt32_natCast, BitVec.ofNat_toNat, BitVec.setWidth_eq]

/-- A shift to the left, in 32 bits. -/
@[simp] theorem toInt32_shiftLeft (value : ℤ) (count : ℕ) :
    toInt32 (shiftLeft value count) = toInt32 value <<< (count % 32) := BitVec.ofInt_toInt

/-- A shift to the right, in 32 bits. -/
@[simp] theorem toInt32_unsignedShiftRight (value : ℤ) (count : ℕ) :
    toInt32 (unsignedShiftRight value count) = toInt32 value >>> (count % 32) := toInt32_toNat _

/-- A conjunction, in 32 bits. -/
@[simp] theorem toInt32_bitwiseAnd (a b : ℤ) :
    toInt32 (bitwiseAnd a b) = toInt32 a &&& toInt32 b := BitVec.ofInt_toInt

/-- An exclusive disjunction, in 32 bits. -/
@[simp] theorem toInt32_bitwiseXor (a b : ℤ) :
    toInt32 (bitwiseXor a b) = toInt32 a ^^^ toInt32 b := BitVec.ofInt_toInt

/-- `value >>> 0` is the unsigned number of the bits. -/
theorem unsignedShiftRight_zero (value : ℤ) :
    unsignedShiftRight value 0 = (toInt32 value).toNat := by
  rw [unsignedShiftRight, Nat.zero_mod, BitVec.ushiftRight_zero]

/-- Bits are common just when there are some in 32 bits. -/
theorem bitwiseAnd_ne_zero {a b : ℤ} : bitwiseAnd a b ≠ 0 ↔ toInt32 a &&& toInt32 b ≠ 0 := by
  rw [bitwiseAnd, not_iff_not, ← BitVec.toInt_inj]
  exact Iff.rfl

/-- `value & 0xff` is the number of the eight lower bits. -/
theorem toNat_bitwiseAnd_byte (value : ℤ) :
    (bitwiseAnd value 0xff).toNat = (toInt32 value).toNat % 256 := by
  have hand : (toInt32 value &&& toInt32 0xff).toNat = (toInt32 value).toNat % 256 := by
    rw [BitVec.toNat_and]
    exact Nat.and_two_pow_sub_one_eq_mod _ 8
  rw [bitwiseAnd, BitVec.toInt_eq_toNat_of_lt (by omega), hand, Int.toNat_natCast]

end ApiWhatsApp.Library
