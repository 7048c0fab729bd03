import ApiWhatsApp.Library.Bytes
import Mathlib.Algebra.CharP.Two
import Mathlib.Algebra.Field.ZMod
import Mathlib.Algebra.Polynomial.Div
import Mathlib.Tactic.LinearCombination

/-!
# Cyclic redundancy checks

Division of polynomials over the field of two elements, in a register of `w` bits.

* `divideBit g` takes one bit of the message, the most significant first: where it differs from the
  bit that leaves the register, the generator is subtracted. `divide g` takes a whole message.
* `toPolynomial` is the polynomial of a register, `generator g` the divisor.
  **`toPolynomial_divide`**: `divide` is the remainder of the message, shifted by the width of the
  register, with the initial register added at its head.
* `advance g n` is `n` bits of zeros, and additive. **`divide_eq_advance`**: any `n` bits are taken at
  once.
* **`divide_msbBits`** and **`reverse_divide_lsbBits`** — a byte takes one look into a table of
  `advance g 8`, in either order of its bits.
-/

namespace ApiWhatsApp.Library

open Polynomial

variable {w : ℕ} {g r : BitVec w}

/-! ## Division -/

/-- One step of the division. -/
def divideBit (g r : BitVec w) (bit : Bool) : BitVec w :=
  r <<< 1 ^^^ if r.msb ^^ bit then g else 0

/-- Division, bit by bit. -/
def divide (g r : BitVec w) (bits : List Bool) : BitVec w := bits.foldl (divideBit g) r

/-- Bits one after another. -/
theorem divide_append (bits bits' : List Bool) :
    divide g r (bits ++ bits') = divide g (divide g r bits) bits' := List.foldl_append

/-! ## The remainder of a polynomial -/

section

/-- A bit as an element of the field. -/
def bitValue (bit : Bool) : ZMod 2 := if bit then 1 else 0

/-- A bit that is not set counts nothing. -/
@[simp] theorem bitValue_false : bitValue false = 0 := rfl

/-- Bits are added. -/
theorem bitValue_xor (a b : Bool) : bitValue (a ^^ b) = bitValue a + bitValue b := by
  cases a <;> cases b <;> decide

/-- The polynomial of a register. -/
noncomputable def toPolynomial (r : BitVec w) : (ZMod 2)[X] :=
  ∑ i ∈ Finset.range w, monomial i (bitValue (r.getLsbD i))

/-- The coefficients are the bits. -/
@[simp] theorem coeff_toPolynomial (r : BitVec w) (i : ℕ) :
    (toPolynomial r).coeff i = bitValue (r.getLsbD i) := by
  rw [toPolynomial, finsetSum_coeff]
  simp only [coeff_monomial]
  rw [Finset.sum_ite_eq' (Finset.range w) i fun j => bitValue (r.getLsbD j)]
  split_ifs with hi
  · rfl
  · rw [BitVec.getLsbD_of_ge r i (by simpa using hi), bitValue_false]

/-- The register without bits is zero. -/
@[simp] theorem toPolynomial_zero : toPolynomial (0 : BitVec w) = 0 := by
  ext i
  have hbit : (0 : BitVec w).getLsbD i = false := BitVec.getLsbD_zero
  rw [coeff_toPolynomial, hbit, bitValue_false, coeff_zero]

/-- The degree is below the width. -/
theorem degree_toPolynomial_lt (r : BitVec w) : (toPolynomial r).degree < w := by
  rw [degree_lt_iff_coeff_zero]
  intro i hi
  rw [coeff_toPolynomial, BitVec.getLsbD_of_ge r i hi, bitValue_false]

/-- The divisor: the generator with its leading term, which no register holds. -/
noncomputable def generator (g : BitVec w) : (ZMod 2)[X] := X ^ w + toPolynomial g

/-- The generator is monic. -/
theorem monic_generator (g : BitVec w) : (generator g).Monic :=
  monic_X_pow_add (degree_toPolynomial_lt g)

/-- The degree of the generator is the width. -/
theorem degree_generator (g : BitVec w) : (generator g).degree = w := by
  have hlt : (toPolynomial g).degree < (X ^ w : (ZMod 2)[X]).degree := by
    rw [degree_X_pow]
    exact degree_toPolynomial_lt g
  rw [generator, degree_add_eq_left_of_degree_lt hlt, degree_X_pow]

/-- A step of the division, on the polynomials. -/
theorem toPolynomial_divideBit (bit : Bool) :
    toPolynomial (divideBit g r bit) =
      X * toPolynomial r + C (bitValue bit) * X ^ w +
        C (bitValue (r.msb ^^ bit)) * generator g := by
  ext i
  have hstep : bitValue ((divideBit g r bit).getLsbD i) =
      bitValue ((r <<< 1).getLsbD i) + bitValue (r.msb ^^ bit) * bitValue (g.getLsbD i) := by
    rw [divideBit, BitVec.getLsbD_xor, bitValue_xor]
    cases r.msb ^^ bit <;> simp [bitValue]
  have hmsb := BitVec.msb_eq_getLsbD_last r
  rw [coeff_toPolynomial, hstep, generator, mul_add]
  simp only [coeff_add, coeff_C_mul, coeff_X_pow, coeff_toPolynomial, bitValue_xor,
    BitVec.getLsbD_shiftLeft]
  cases i with
  | zero =>
      simp only [mul_coeff_zero, coeff_X_zero, zero_mul, Nat.zero_lt_one]
      by_cases hw : 0 = w
      · subst hw
        rw [hmsb]
        cases bit <;> simp [bitValue, CharTwo.add_self_eq_zero]
      · simp [hw]
  | succ i =>
      rw [coeff_X_mul, coeff_toPolynomial]
      by_cases hw : i + 1 = w
      · -- The bit that leaves the register meets the leading term of the generator.
        have hlast : r.getLsbD i = r.msb := by rw [hmsb, show w - 1 = i by omega]
        have hout : g.getLsbD (i + 1) = false := BitVec.getLsbD_of_ge g _ hw.ge
        rw [hlast, hout, if_pos hw]
        cases r.msb <;> cases bit <;> simp [bitValue, hw, CharTwo.add_self_eq_zero]
      · by_cases hlt : i + 1 < w
        · simp [hw, hlt]
        · rw [BitVec.getLsbD_of_ge r i (by omega)]
          simp [hw, hlt]

/-- The polynomial of a message, its first bit leading. -/
noncomputable def messagePolynomial (bits : List Bool) : (ZMod 2)[X] :=
  bits.foldl (fun p bit => X * p + C (bitValue bit)) 0

/-- One more bit of the message. -/
theorem messagePolynomial_concat (bits : List Bool) (bit : Bool) :
    messagePolynomial (bits ++ [bit]) = X * messagePolynomial bits + C (bitValue bit) := by
  rw [messagePolynomial, List.foldl_append]
  rfl

/-- **The register is the remainder.** -/
theorem toPolynomial_divide (bits : List Bool) :
    toPolynomial (divide g r bits) =
      (X ^ bits.length * toPolynomial r + X ^ w * messagePolynomial bits) %ₘ generator g := by
  have hmod : ∃ q, X ^ bits.length * toPolynomial r + X ^ w * messagePolynomial bits =
      toPolynomial (divide g r bits) + generator g * q := by
    induction bits using List.reverseRecOn with
    | nil => exact ⟨0, by simp [divide, messagePolynomial]⟩
    | append_singleton bits bit ih =>
        obtain ⟨q, hq⟩ := ih
        refine ⟨X * q - C (bitValue ((divide g r bits).msb ^^ bit)), ?_⟩
        rw [divide_append, divide, List.foldl_cons, List.foldl_nil, toPolynomial_divideBit,
          messagePolynomial_concat, List.length_append, List.length_singleton, pow_succ]
        linear_combination X * hq
  obtain ⟨q, hq⟩ := hmod
  refine ((div_modByMonic_unique q _ (monic_generator g) ⟨hq.symm, ?_⟩).2).symm
  rw [degree_generator]
  exact degree_toPolynomial_lt _

end

/-! ## Many bits at once -/

/-- `n` bits of zeros. -/
def advance (g : BitVec w) (n : ℕ) (r : BitVec w) : BitVec w := (divideBit g · false)^[n] r

/-- One more zero bit. -/
theorem advance_succ (n : ℕ) : advance g (n + 1) r = divideBit g (advance g n r) false :=
  Function.iterate_succ_apply' _ n r

/-- Registers are divided bit by bit. -/
theorem divideBit_xor (r r' : BitVec w) (bit : Bool) :
    divideBit g (r ^^^ r') bit = divideBit g r bit ^^^ divideBit g r' false := by
  refine BitVec.eq_of_getLsbD_eq fun i _ => ?_
  simp only [divideBit, BitVec.shiftLeft_xor_distrib, BitVec.msb_xor, BitVec.getLsbD_xor]
  cases r.msb <;> cases r'.msb <;> cases bit <;> cases (r <<< 1).getLsbD i <;>
    cases (r' <<< 1).getLsbD i <;> cases g.getLsbD i <;> simp_all

/-- Registers are advanced bit by bit. -/
theorem advance_xor (n : ℕ) (r r' : BitVec w) :
    advance g n (r ^^^ r') = advance g n r ^^^ advance g n r' := by
  induction n with
  | zero => rfl
  | succ n ih => rw [advance_succ, ih, divideBit_xor, ← advance_succ, ← advance_succ]

/-- A register whose upper bits are zero is only shifted. -/
theorem advance_of_high {n : ℕ} (h : ∀ i, w - n ≤ i → r.getLsbD i = false) :
    advance g n r = r <<< n := by
  induction n with
  | zero => exact (BitVec.shiftLeft_zero r).symm
  | succ n ih =>
      have hmsb : (r <<< n).msb = false := by
        rw [BitVec.msb_eq_getLsbD_last, BitVec.getLsbD_shiftLeft]
        rw [h (w - 1 - n) (by omega), Bool.and_false]
      rw [advance_succ, ih fun i hi => h i (by omega), divideBit, hmsb, BitVec.shiftLeft_add]
      simp

/-- Bits at the head of a register. -/
def headBits (w : ℕ) (bits : List Bool) : BitVec w :=
  bits.zipIdx.foldl (fun r entry => r ^^^ if entry.1 then BitVec.twoPow w (w - 1 - entry.2) else 0) 0

/-- One more bit at the head. -/
theorem headBits_concat (bits : List Bool) (bit : Bool) :
    headBits w (bits ++ [bit]) =
      headBits w bits ^^^ if bit then BitVec.twoPow w (w - 1 - bits.length) else 0 := by
  simp [headBits, List.zipIdx_append]

/-- One bit, taken into the head of the register. -/
theorem divideBit_eq {bit : Bool} (hw : 0 < w) :
    divideBit g r bit = divideBit g (r ^^^ if bit then BitVec.twoPow w (w - 1) else 0) false := by
  cases bit with
  | false => simp
  | true =>
      have hmsb : (BitVec.twoPow w (w - 1)).msb = true := by
        rw [BitVec.msb_eq_getLsbD_last, BitVec.getLsbD_twoPow]
        simp [show w - 1 < w by omega]
      have hshift : BitVec.twoPow w (w - 1) <<< 1 = 0#w := by
        refine BitVec.eq_of_getLsbD_eq fun i hi => ?_
        rw [BitVec.getLsbD_shiftLeft, BitVec.getLsbD_twoPow]
        simp
        omega
      simp [divideBit, BitVec.shiftLeft_xor_distrib, hmsb, hshift]

/-- **Any bits are taken at once** into the head of the register. -/
theorem divide_eq_advance {bits : List Bool} (hlength : bits.length ≤ w) :
    divide g r bits = advance g bits.length (r ^^^ headBits w bits) := by
  induction bits using List.reverseRecOn with
  | nil => simp [divide, advance, headBits]
  | append_singleton bits bit ih =>
      rw [List.length_append, List.length_singleton] at hlength
      have hbit : advance g bits.length
          (if bit then BitVec.twoPow w (w - 1 - bits.length) else 0) =
          if bit then BitVec.twoPow w (w - 1) else 0 := by
        rw [advance_of_high]
        · refine BitVec.eq_of_getLsbD_eq fun i hi => ?_
          cases bit
          · simp
          · rw [if_pos rfl, if_pos rfl, BitVec.getLsbD_shiftLeft, BitVec.getLsbD_twoPow,
              BitVec.getLsbD_twoPow, Bool.eq_iff_iff]
            simp only [Bool.and_eq_true, Bool.not_eq_true', decide_eq_true_eq,
              decide_eq_false_iff_not]
            omega
        · intro i hi
          cases bit
          · simp
          · simp [BitVec.getLsbD_twoPow]
            omega
      rw [divide_append, divide, List.foldl_cons, List.foldl_nil, ih (by omega),
        divideBit_eq (by omega), ← hbit, ← advance_xor, headBits_concat, BitVec.xor_assoc,
        List.length_append, List.length_singleton, advance_succ]

/-! ## Bytes in a register of 32 bits -/

section

variable {g r : BitVec 32}

/-- The bits of a byte, the most significant first. -/
def msbBits (b : UInt8) : List Bool := (List.range 8).map b.toBitVec.getMsbD

/-- The bits of a byte, the least significant first. -/
def lsbBits (b : UInt8) : List Bool := (List.range 8).map b.toBitVec.getLsbD

/-- A byte at the lower end of a register. -/
def byteWord (b : UInt8) : BitVec 32 := BitVec.ofNat 32 b.toNat

/-- The bits of a byte, in both orders. -/
theorem headBits_byte : ∀ n < 256,
    headBits 32 (msbBits (UInt8.ofNat n)) = byteWord (UInt8.ofNat n) <<< 24 ∧
      (headBits 32 (lsbBits (UInt8.ofNat n))).reverse = byteWord (UInt8.ofNat n) := by
  decide +kernel

/-- A byte at the head of the register. -/
theorem headBits_msbBits (b : UInt8) : headBits 32 (msbBits b) = byteWord b <<< 24 := by
  have h := (headBits_byte b.toNat b.toNat_lt).1
  rwa [UInt8.ofNat_toNat] at h

/-- A reflected byte at the foot of the register. -/
theorem reverse_headBits_lsbBits (b : UInt8) : (headBits 32 (lsbBits b)).reverse = byteWord b := by
  have h := (headBits_byte b.toNat b.toNat_lt).2
  rwa [UInt8.ofNat_toNat] at h

/-- **A byte**, the most significant bit first: what leaves the register is looked up, the rest is
shifted. -/
theorem divide_msbBits (b : UInt8) :
    divide g r (msbBits b) = r <<< 8 ^^^ advance g 8 ((r >>> 24 ^^^ byteWord b) <<< 24) := by
  -- The eight upper bits of the register, and the others.
  have hsplit : r = r <<< 8 >>> 8 ^^^ r >>> 24 <<< 24 := by
    refine BitVec.eq_of_getLsbD_eq fun i hi => ?_
    simp only [BitVec.getLsbD_xor, BitVec.getLsbD_ushiftRight, BitVec.getLsbD_shiftLeft]
    by_cases hlow : i < 24
    · simp [hlow, show 8 + i < 32 by omega]
    · simp [hlow, hi, show ¬ 8 + i < 32 by omega, show 24 + (i - 24) = i by omega]
  have hlow : advance g 8 (r <<< 8 >>> 8) = r <<< 8 := by
    rw [advance_of_high]
    · refine BitVec.eq_of_getLsbD_eq fun i hi => ?_
      simp only [BitVec.getLsbD_ushiftRight, BitVec.getLsbD_shiftLeft]
      by_cases h8 : i < 8
      · simp [h8]
      · simp [h8, hi, show 8 + (i - 8) = i by omega]
    · intro i hi
      simp [show ¬ 8 + i < 32 by omega]
  have hlength : (msbBits b).length = 8 := rfl
  rw [divide_eq_advance (by omega), hlength, headBits_msbBits, ← hlow, ← advance_xor,
    BitVec.shiftLeft_xor_distrib, ← BitVec.xor_assoc, ← hsplit]

/-- `n` bits of zeros in a register whose lowest bit leads. -/
def reflectedAdvance (g : BitVec 32) (n : ℕ) (r : BitVec 32) : BitVec 32 :=
  (advance g n r.reverse).reverse

/-- Reflection is bit by bit. -/
theorem reverse_xor (a b : BitVec 32) : (a ^^^ b).reverse = a.reverse ^^^ b.reverse := by
  refine BitVec.eq_of_getLsbD_eq fun i hi => ?_
  simp [BitVec.getLsbD_reverse, BitVec.getMsbD_xor]

/-- A reflected shift goes the other way. -/
theorem reverse_shiftLeft (a : BitVec 32) (n : ℕ) : (a <<< n).reverse = a.reverse >>> n := by
  refine BitVec.eq_of_getLsbD_eq fun i hi => ?_
  rw [BitVec.getLsbD_reverse, BitVec.getLsbD_ushiftRight, BitVec.getLsbD_reverse,
    BitVec.getMsbD_shiftLeft, Nat.add_comm]

/-- One more step of the reflected register. -/
theorem reflectedAdvance_succ (n : ℕ) :
    reflectedAdvance g (n + 1) r = reflectedAdvance g n r >>> 1 ^^^
      if (reflectedAdvance g n r).getLsbD 0 then g.reverse else 0 := by
  rw [reflectedAdvance, advance_succ, divideBit, reverse_xor, reverse_shiftLeft, reflectedAdvance,
    ← BitVec.msb_reverse, BitVec.reverse_reverse_eq, Bool.xor_false]
  cases (advance g n r.reverse).msb
  · have hzero : (0 : BitVec 32).reverse = 0 := BitVec.reverse_eq_zero_iff.mpr rfl
    rw [if_neg Bool.false_ne_true, if_neg Bool.false_ne_true, hzero]
  · rw [if_pos rfl, if_pos rfl]

/-- Reflected registers are advanced bit by bit. -/
theorem reflectedAdvance_xor (n : ℕ) (r r' : BitVec 32) :
    reflectedAdvance g n (r ^^^ r') = reflectedAdvance g n r ^^^ reflectedAdvance g n r' := by
  rw [reflectedAdvance, reverse_xor, advance_xor, reverse_xor]
  rfl

/-- The eight lower bits of a register. -/
def lowByte (r : BitVec 32) : BitVec 32 := (r.setWidth 8).setWidth 32

/-- A byte changes the lowest byte only. -/
theorem lowByte_xor_byteWord (b : UInt8) :
    r ^^^ byteWord b = r >>> 8 <<< 8 ^^^ lowByte (r ^^^ byteWord b) := by
  refine BitVec.eq_of_getLsbD_eq fun i hi => ?_
  simp only [lowByte, byteWord, BitVec.getLsbD_xor, BitVec.getLsbD_shiftLeft,
    BitVec.getLsbD_ushiftRight, BitVec.getLsbD_setWidth, BitVec.getLsbD_ofNat, hi, decide_true,
    Bool.true_and]
  by_cases h8 : i < 8
  · simp [h8]
  · have hbyte : b.toNat.testBit i = false :=
      Nat.testBit_lt_two_pow (b.toNat_lt.trans_le (Nat.pow_le_pow_right (by omega) (Nat.not_lt.mp h8)))
    simp [h8, hbyte, show 8 + (i - 8) = i by omega]

/-- **A byte**, the least significant bit first, in a reversed register. -/
theorem reverse_divide_lsbBits (b : UInt8) :
    (divide g r (lsbBits b)).reverse =
      r.reverse >>> 8 ^^^ reflectedAdvance g 8 (lowByte (r.reverse ^^^ byteWord b)) := by
  have hlength : (lsbBits b).length = 8 := rfl
  have hhigh : reflectedAdvance g 8 (r.reverse >>> 8 <<< 8) = r.reverse >>> 8 := by
    have hzeros : ∀ i, 32 - 8 ≤ i → (r.reverse >>> 8 <<< 8).reverse.getLsbD i = false := by
      intro i hi
      rw [reverse_shiftLeft, BitVec.getLsbD_ushiftRight]
      exact BitVec.getLsbD_of_ge _ _ (by omega)
    rw [reflectedAdvance, advance_of_high hzeros, reverse_shiftLeft, BitVec.reverse_reverse_eq]
    refine BitVec.eq_of_getLsbD_eq fun i hi => ?_
    simp only [BitVec.getLsbD_ushiftRight, BitVec.getLsbD_shiftLeft]
    by_cases h24 : 8 + i < 32
    · simp [h24]
    · simp [h24, BitVec.getLsbD_of_ge r.reverse (8 + i) (by omega)]
  rw [divide_eq_advance (by omega), hlength, ← hhigh, ← reflectedAdvance_xor,
    ← lowByte_xor_byteWord, ← reverse_headBits_lsbBits, ← reverse_xor, reflectedAdvance, BitVec.reverse_reverse_eq]

end

end ApiWhatsApp.Library
