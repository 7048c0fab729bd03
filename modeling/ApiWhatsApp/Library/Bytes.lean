import ApiWhatsApp.Library.Scan
import Mathlib.Algebra.Group.Nat.Even
import Mathlib.Data.List.GetD

/-!
# Bytes

The contents of a file, and the numbers that are read from them.

* `bigEndian` and `littleEndian` are the values of some bytes; `bigEndianBytes` and `littleEndianBytes`
  write a number of a given width. **`bigEndian_bigEndianBytes`**, **`bigEndianBytes_bigEndian`** and
  their counterparts: each undoes the other.
* `fieldBytes` are the fields of a record one after another: **`drop_eq_fieldBytes`** cuts bytes into
  them, and **`fieldsAt_of_drop`** reads them back.
-/

namespace ApiWhatsApp.Library

/-- The contents of a file, or a part of them. -/
abbrev Bytes := List UInt8

/-- The bytes of an ASCII text. -/
def asciiBytes (text : String) : Bytes := text.toList.map fun c => UInt8.ofNat c.toNat

/-- One byte is read where there is one. -/
theorem readExactly_byte {file : Bytes} {offset : ℕ} {b : UInt8} :
    readExactly file 1 offset = some [b] ↔ ∃ after, file.drop offset = b :: after := by
  rw [readExactly_eq_some]
  simp

/-- The byte at which the rest begins. -/
theorem getD_of_drop {bytes after : Bytes} {offset : ℕ} {b : UInt8}
    (h : bytes.drop offset = b :: after) : bytes.getD offset 0 = b := by
  rw [← List.take_append_drop offset bytes, h]
  have hlength := congrArg List.length h
  rw [List.length_drop, List.length_cons] at hlength
  rw [List.getD_append_right _ _ _ _ (by rw [List.length_take]; omega),
    List.length_take_of_le (by omega), Nat.sub_self, List.getD_cons_zero]

/-- The rest begins with the byte at the offset. -/
theorem drop_eq_getD_cons {bytes : Bytes} {offset : ℕ} (h : offset < bytes.length) :
    bytes.drop offset = bytes.getD offset 0 :: bytes.drop (offset + 1) := by
  rw [List.getD_eq_getElem _ _ h]
  exact List.drop_eq_getElem_cons h

/-- There is a rest where there is a byte. -/
theorem exists_drop_of_lt {bytes : Bytes} {offset : ℕ} (h : offset < bytes.length) :
    ∃ after, bytes.drop offset = bytes.getD offset 0 :: after :=
  ⟨_, drop_eq_getD_cons h⟩

/-- A mask of low bits is a remainder. -/
theorem and_two_pow_sub_one (n k : ℕ) : n &&& (2 ^ k - 1) = n % 2 ^ k :=
  Nat.and_two_pow_sub_one_eq_mod n k

/-! ## Numbers -/

/-- The number that bytes write, the lowest of them first. -/
def littleEndian : Bytes → ℕ
  | [] => 0
  | b :: bytes => b.toNat + 256 * littleEndian bytes

/-- The number that bytes write, the highest of them first. -/
def bigEndian (bytes : Bytes) : ℕ := littleEndian bytes.reverse

/-- The bytes of a number in a width, the lowest first. -/
def littleEndianBytes : ℕ → ℕ → Bytes
  | 0, _ => []
  | width + 1, n => UInt8.ofNat n :: littleEndianBytes width (n / 256)

/-- The bytes of a number in a width, the highest first. -/
def bigEndianBytes (width n : ℕ) : Bytes := (littleEndianBytes width n).reverse

/-- The width is the number of bytes. -/
@[simp] theorem length_littleEndianBytes (width n : ℕ) :
    (littleEndianBytes width n).length = width := by
  induction width generalizing n with
  | zero => rfl
  | succ width ih => rw [littleEndianBytes, List.length_cons, ih]

/-- The width is the number of bytes, in either order. -/
@[simp] theorem length_bigEndianBytes (width n : ℕ) : (bigEndianBytes width n).length = width := by
  rw [bigEndianBytes, List.length_reverse, length_littleEndianBytes]

/-- A number is bounded by its width. -/
theorem littleEndian_lt (bytes : Bytes) : littleEndian bytes < 256 ^ bytes.length := by
  induction bytes with
  | nil => exact Nat.one_pos
  | cons b bytes ih =>
      have hb := b.toNat_lt
      rw [littleEndian, List.length_cons, Nat.pow_succ]
      omega

/-- A number is bounded by its width, in either order. -/
theorem bigEndian_lt (bytes : Bytes) : bigEndian bytes < 256 ^ bytes.length := by
  rw [← List.length_reverse]
  exact littleEndian_lt bytes.reverse

/-- What fits is read back. -/
theorem littleEndian_littleEndianBytes {width n : ℕ} (h : n < 256 ^ width) :
    littleEndian (littleEndianBytes width n) = n := by
  induction width generalizing n with
  | zero =>
      rw [Nat.pow_zero] at h
      exact (Nat.lt_one_iff.mp h).symm
  | succ width ih =>
      rw [Nat.pow_succ] at h
      rw [littleEndianBytes, littleEndian, ih (by omega), UInt8.toNat_ofNat']
      omega

/-- What is read is written back. -/
theorem littleEndianBytes_littleEndian (bytes : Bytes) :
    littleEndianBytes bytes.length (littleEndian bytes) = bytes := by
  induction bytes with
  | nil => rfl
  | cons b bytes ih =>
      have hb := b.toNat_lt
      have hdiv : (b.toNat + 256 * littleEndian bytes) / 256 = littleEndian bytes := by omega
      have hlow : UInt8.ofNat (b.toNat + 256 * littleEndian bytes) = b := by
        refine UInt8.toNat_inj.mp ?_
        rw [UInt8.toNat_ofNat']
        omega
      rw [List.length_cons, littleEndian, littleEndianBytes, hdiv, ih, hlow]

/-- What fits is read back, highest byte first. -/
theorem bigEndian_bigEndianBytes {width n : ℕ} (h : n < 256 ^ width) :
    bigEndian (bigEndianBytes width n) = n := by
  rw [bigEndian, bigEndianBytes, List.reverse_reverse, littleEndian_littleEndianBytes h]

/-- What is read is written back, highest byte first. -/
theorem bigEndianBytes_bigEndian (bytes : Bytes) :
    bigEndianBytes bytes.length (bigEndian bytes) = bytes := by
  rw [bigEndianBytes, bigEndian, ← List.length_reverse, littleEndianBytes_littleEndian,
    List.reverse_reverse]

/-- `bytes.readUIntLE(offset, width)`. -/
def readLE (bytes : Bytes) (width offset : ℕ) : ℕ := littleEndian ((bytes.drop offset).take width)

/-- `bytes.readUIntBE(offset, width)`. -/
def readBE (bytes : Bytes) (width offset : ℕ) : ℕ := bigEndian ((bytes.drop offset).take width)

/-- What is read fits the width. -/
theorem readLE_lt (bytes : Bytes) (width offset : ℕ) : readLE bytes width offset < 256 ^ width :=
  (littleEndian_lt _).trans_le (Nat.pow_le_pow_right (by decide) (List.length_take_le ..))

/-- A field at the offset is read. -/
theorem readLE_of_drop {bytes field after : Bytes} {offset : ℕ}
    (h : bytes.drop offset = field ++ after) :
    readLE bytes field.length offset = littleEndian field := by
  rw [readLE, h, List.take_left]

/-- A number written at the offset is read. -/
theorem readLE_littleEndianBytes {bytes after : Bytes} {offset width n : ℕ} (hn : n < 256 ^ width)
    (h : bytes.drop offset = littleEndianBytes width n ++ after) : readLE bytes width offset = n := by
  have hread := readLE_of_drop h
  rwa [length_littleEndianBytes, littleEndian_littleEndianBytes hn] at hread

/-- What is read fits the width, highest byte first. -/
theorem readBE_lt (bytes : Bytes) (width offset : ℕ) : readBE bytes width offset < 256 ^ width :=
  (bigEndian_lt _).trans_le (Nat.pow_le_pow_right (by decide) (List.length_take_le ..))

/-- A field at the offset is read, highest byte first. -/
theorem readBE_of_drop {bytes field after : Bytes} {offset : ℕ}
    (h : bytes.drop offset = field ++ after) :
    readBE bytes field.length offset = bigEndian field := by
  rw [readBE, h, List.take_left]

/-- A number written at the offset is read, highest byte first. -/
theorem readBE_bigEndianBytes {bytes after : Bytes} {offset width n : ℕ} (hn : n < 256 ^ width)
    (h : bytes.drop offset = bigEndianBytes width n ++ after) : readBE bytes width offset = n := by
  have hread := readBE_of_drop h
  rwa [length_bigEndianBytes, bigEndian_bigEndianBytes hn] at hread

/-- What is read there is what stands there. -/
theorem bigEndianBytes_readBE {bytes : Bytes} {offset width : ℕ} (h : offset + width ≤ bytes.length) :
    bigEndianBytes width (readBE bytes width offset) = (bytes.drop offset).take width := by
  have hwidth : ((bytes.drop offset).take width).length = width := by
    rw [List.length_take_of_le]
    rw [List.length_drop]
    omega
  have hfield := bigEndianBytes_bigEndian ((bytes.drop offset).take width)
  rwa [hwidth] at hfield

/-- What is read is what is written there. -/
theorem drop_eq_readLE {bytes : Bytes} {offset width : ℕ} (h : offset + width ≤ bytes.length) :
    bytes.drop offset =
      littleEndianBytes width (readLE bytes width offset) ++ bytes.drop (offset + width) := by
  have hwidth : ((bytes.drop offset).take width).length = width := by
    rw [List.length_take_of_le]
    rw [List.length_drop]
    omega
  have hfield := littleEndianBytes_littleEndian ((bytes.drop offset).take width)
  rw [hwidth] at hfield
  rw [readLE, hfield, ← List.drop_drop, List.take_append_drop]

/-! ## Records -/

/-- The fields of a record, each with its width. -/
def fieldBytes (fields : List (ℕ × ℕ)) : Bytes :=
  fields.flatMap fun field => littleEndianBytes field.1 field.2

/-- The fields of some widths that stand at an offset. -/
def fieldsAt (bytes : Bytes) : ℕ → List ℕ → List (ℕ × ℕ)
  | _, [] => []
  | offset, width :: widths =>
      (width, readLE bytes width offset) :: fieldsAt bytes (offset + width) widths

/-- A record begins with its first field. -/
theorem fieldBytes_cons (field : ℕ × ℕ) (fields : List (ℕ × ℕ)) :
    fieldBytes (field :: fields) = littleEndianBytes field.1 field.2 ++ fieldBytes fields := rfl

/-- A record is as long as its fields together. -/
theorem length_fieldBytes (fields : List (ℕ × ℕ)) :
    (fieldBytes fields).length = (fields.map Prod.fst).foldr (· + ·) 0 := by
  induction fields with
  | nil => rfl
  | cons field fields ih =>
      rw [fieldBytes_cons, List.length_append, length_littleEndianBytes, ih, List.map_cons,
        List.foldr_cons]

/-- **A record is its fields**, where the bytes are there. -/
theorem drop_eq_fieldBytes {bytes : Bytes} {offset : ℕ} (widths : List ℕ)
    (h : offset + widths.foldr (· + ·) 0 ≤ bytes.length) :
    bytes.drop offset = fieldBytes (fieldsAt bytes offset widths) ++
      bytes.drop (offset + widths.foldr (· + ·) 0) := by
  induction widths generalizing offset with
  | nil => rfl
  | cons width widths ih =>
      rw [List.foldr_cons] at h ⊢
      rw [fieldsAt, fieldBytes_cons, List.append_assoc, ← Nat.add_assoc, ← ih (by omega)]
      exact drop_eq_readLE (by omega)

/-- **The fields of a record are read back.** -/
theorem fieldsAt_of_drop {bytes after : Bytes} {offset : ℕ} {fields : List (ℕ × ℕ)}
    (hlt : ∀ field ∈ fields, field.2 < 256 ^ field.1)
    (h : bytes.drop offset = fieldBytes fields ++ after) :
    fieldsAt bytes offset (fields.map Prod.fst) = fields := by
  induction fields generalizing offset with
  | nil => rfl
  | cons field fields ih =>
      obtain ⟨hfield, hrest⟩ := List.forall_mem_cons.mp hlt
      rw [fieldBytes_cons, List.append_assoc] at h
      rw [List.map_cons, fieldsAt, readLE_littleEndianBytes hfield h]
      refine congrArg _ (ih hrest ?_)
      rw [← List.drop_drop, h, List.drop_left' (length_littleEndianBytes ..)]

end ApiWhatsApp.Library
