import ApiWhatsApp.Library.Bytes
import ApiWhatsApp.Library.Readers
import Mathlib.Tactic.Ring

/-!
# Bits

The bits of some bytes, those of the first byte first and of each byte the highest first.

* `bitsOf` writes a number of a given width and `bitsValue` reads it: **`bitsValue_bitsOf`**,
  **`bitsOf_bitsValue`**.
* `bits` are the bits of bytes; **`bits_slice`** reads a slice of them one by one.
-/

namespace ApiWhatsApp.Library

/-! ## Numbers -/

/-- The lowest bits of a number, the highest of them first. -/
def bitsOf : ℕ → ℕ → List Bool
  | 0, _ => []
  | width + 1, n => n.testBit width :: bitsOf width n

/-- The number that bits write. -/
def bitsValue : List Bool → ℕ := List.foldl (fun value bit => value * 2 + bit.toNat) 0

/-- The width is the number of bits. -/
@[simp] theorem length_bitsOf (width n : ℕ) : (bitsOf width n).length = width := by
  induction width with
  | zero => rfl
  | succ width ih => rw [bitsOf, List.length_cons, ih]

/-- The value so far is shifted by the bits that follow. -/
theorem bitsValue_foldl (value : ℕ) (l : List Bool) :
    l.foldl (fun value bit => value * 2 + bit.toNat) value = value * 2 ^ l.length + bitsValue l := by
  induction l generalizing value with
  | nil => simp [bitsValue]
  | cons bit l ih =>
      rw [bitsValue, List.foldl_cons, List.foldl_cons, ih, ih, List.length_cons, Nat.pow_succ]
      ring

/-- The first bit counts most. -/
theorem bitsValue_cons (bit : Bool) (l : List Bool) :
    bitsValue (bit :: l) = 2 ^ l.length * bit.toNat + bitsValue l := by
  rw [bitsValue, List.foldl_cons, bitsValue_foldl, Nat.zero_mul, Nat.zero_add, Nat.mul_comm]
  rfl

/-- The value is bounded by the number of bits. -/
theorem bitsValue_lt (l : List Bool) : bitsValue l < 2 ^ l.length := by
  induction l with
  | nil => exact Nat.one_pos
  | cons bit l ih =>
      have hmul := Nat.mul_le_mul_left (2 ^ l.length) bit.toNat_le
      rw [bitsValue_cons, List.length_cons, Nat.pow_succ]
      omega

/-- What fits is read back. -/
theorem bitsValue_bitsOf {width n : ℕ} (h : n < 2 ^ width) : bitsValue (bitsOf width n) = n := by
  have hmod : bitsValue (bitsOf width n) = n % 2 ^ width := by
    clear h
    induction width with
    | zero => rw [Nat.pow_zero, Nat.mod_one]; rfl
    | succ width ih =>
        rw [bitsOf, bitsValue_cons, length_bitsOf, ih, Nat.toNat_testBit, Nat.mod_pow_succ,
          Nat.add_comm]
  rw [hmod, Nat.mod_eq_of_lt h]

/-- Higher bits are not written. -/
theorem bitsOf_mod {width width' : ℕ} (h : width ≤ width') (n : ℕ) :
    bitsOf width (n % 2 ^ width') = bitsOf width n := by
  induction width with
  | zero => rfl
  | succ width ih =>
      rw [bitsOf, bitsOf, ih (by omega), Nat.testBit_mod_two_pow, decide_eq_true (by omega),
        Bool.true_and]

/-- What is read is written back. -/
theorem bitsOf_bitsValue (l : List Bool) : bitsOf l.length (bitsValue l) = l := by
  induction l with
  | nil => rfl
  | cons bit l ih =>
      have hmod : (2 ^ l.length * bit.toNat + bitsValue l) % 2 ^ l.length = bitsValue l := by
        rw [Nat.mul_add_mod, Nat.mod_eq_of_lt (bitsValue_lt l)]
      have hbit : (2 ^ l.length * bit.toNat + bitsValue l).testBit l.length = bit := by
        rw [Nat.testBit_two_pow_mul_add _ (bitsValue_lt l), if_neg (Nat.lt_irrefl _), Nat.sub_self]
        cases bit <;> rfl
      rw [List.length_cons, bitsOf, bitsValue_cons, hbit, ← bitsOf_mod (Nat.le_refl _), hmod, ih]

/-! ## The bits of bytes -/

/-- The bits of some bytes. -/
def bits (bytes : Bytes) : List Bool := bytes.flatMap fun b => bitsOf 8 b.toNat

/-- The bits of bytes put together. -/
@[simp] theorem bits_append (bytes bytes' : Bytes) : bits (bytes ++ bytes') = bits bytes ++ bits bytes' :=
  List.flatMap_append

/-- Eight bits to a byte. -/
@[simp] theorem length_bits (bytes : Bytes) : (bits bytes).length = bytes.length * 8 := by
  induction bytes with
  | nil => rfl
  | cons b bytes ih =>
      rw [bits, List.flatMap_cons, List.length_append, length_bitsOf, List.length_cons]
      rw [bits] at ih
      omega

/-- A bit of the bytes, as it is taken from its byte. -/
theorem getElem?_bits {bytes : Bytes} {k : ℕ} (h : k < bytes.length * 8) :
    (bits bytes)[k]? = some ((bytes.getD (k / 8) 0).toNat.testBit (7 - k % 8)) := by
  have hbyte : ∀ width n j, j < width → (bitsOf width n)[j]? = some (n.testBit (width - 1 - j)) := by
    intro width n j hj
    induction width generalizing j with
    | zero => exact absurd hj (Nat.not_lt_zero _)
    | succ width ih =>
        cases j with
        | zero => rfl
        | succ j =>
            rw [bitsOf, List.getElem?_cons_succ, ih j (by omega)]
            congr 2
            omega
  induction bytes generalizing k with
  | nil => exact absurd h (by simp)
  | cons b bytes ih =>
      rw [bits, List.flatMap_cons]
      rw [List.length_cons] at h
      by_cases hk : k < 8
      · rw [List.getElem?_append_left (by rwa [length_bitsOf]), hbyte 8 _ k hk,
          Nat.div_eq_of_lt hk, Nat.mod_eq_of_lt hk]
        rfl
      · have hrest := @ih (k - 8) (by omega)
        have hdiv : k / 8 = (k - 8) / 8 + 1 := by omega
        have hmod : (k - 8) % 8 = k % 8 := by omega
        rw [List.getElem?_append_right (by rw [length_bitsOf]; omega), length_bitsOf, ← bits, hrest,
          hdiv, List.getD_cons_succ, hmod]

/-- A slice of the bits, bit by bit. -/
theorem bits_slice {bytes : Bytes} {offset length : ℕ} (h : offset + length ≤ bytes.length * 8) :
    ((bits bytes).drop offset).take length = (List.range length).map fun index =>
      (bytes.getD ((offset + index) / 8) 0).toNat.testBit (7 - (offset + index) % 8) := by
  refine List.ext_getElem? fun index => ?_
  by_cases hindex : index < length
  · rw [List.getElem?_take_of_lt hindex, List.getElem?_drop, getElem?_bits (by omega),
      List.getElem?_map, List.getElem?_range hindex]
    rfl
  · rw [List.getElem?_eq_none (by rw [List.length_take]; omega),
      List.getElem?_eq_none (by rw [List.length_map, List.length_range]; omega)]

/-- Different bytes have different bits. -/
theorem bits_injective : Function.Injective bits := by
  intro bytes bytes' h
  have hlength := congrArg List.length h
  rw [length_bits, length_bits] at hlength
  induction bytes generalizing bytes' with
  | nil => exact (List.eq_nil_of_length_eq_zero (by rw [List.length_nil] at hlength; omega)).symm
  | cons b bytes ih =>
      cases bytes' with
      | nil =>
          rw [List.length_cons, List.length_nil] at hlength
          omega
      | cons b' bytes' =>
          have happend : bitsOf 8 b.toNat ++ bits bytes = bitsOf 8 b'.toNat ++ bits bytes' := h
          obtain ⟨hbyte, hrest⟩ := List.append_inj happend (by rw [length_bitsOf, length_bitsOf])
          have hvalue := congrArg bitsValue hbyte
          rw [bitsValue_bitsOf b.toNat_lt, bitsValue_bitsOf b'.toNat_lt] at hvalue
          rw [List.length_cons, List.length_cons] at hlength
          rw [UInt8.toNat_inj.mp hvalue, ih hrest (by omega)]

/-- Bits that fill some bytes are theirs. -/
theorem exists_bits_eq {n : ℕ} {l : List Bool} (h : l.length = n * 8) :
    ∃ bytes : Bytes, bytes.length = n ∧ bits bytes = l := by
  induction n generalizing l with
  | zero => exact ⟨[], rfl, (List.eq_nil_of_length_eq_zero (by omega)).symm⟩
  | succ n ih =>
      obtain ⟨bytes, hlength, hbits⟩ := ih (l := l.drop 8) (by rw [List.length_drop]; omega)
      have hfirst : (l.take 8).length = 8 := List.length_take_of_le (by omega)
      have hlt := bitsValue_lt (l.take 8)
      have hvalue := bitsOf_bitsValue (l.take 8)
      rw [hfirst] at hlt hvalue
      refine ⟨UInt8.ofNat (bitsValue (l.take 8)) :: bytes, by rw [List.length_cons, hlength], ?_⟩
      rw [bits, List.flatMap_cons, ← bits, hbits, UInt8.toNat_ofNat', Nat.mod_eq_of_lt hlt, hvalue,
        List.take_append_drop]

/-- The bits of the first bytes. -/
theorem bits_take (bytes : Bytes) (n : ℕ) : bits (bytes.take n) = (bits bytes).take (n * 8) := by
  rcases Nat.le_total n bytes.length with hle | hge
  · conv_rhs => rw [← List.take_append_drop n bytes, bits_append]
    rw [List.take_left' (by rw [length_bits, List.length_take_of_le hle])]
  · rw [List.take_of_length_le hge, List.take_of_length_le (by rw [length_bits]; omega)]

end ApiWhatsApp.Library
