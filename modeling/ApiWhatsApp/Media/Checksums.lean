import ApiWhatsApp.Library.Crc
import ApiWhatsApp.Library.Int32
import Mathlib.Tactic.IntervalCases

/-!
# The checksums of pages and chunks

`hasValidOggCrc` of `media/media-audio-structure.ts` and `validatePngChunkCrc` of
`media/media-image-structure.ts`: two loops over bytes, each with a table of its own.

* `oggReference` and `pngReference` divide bit by bit, without a table: one takes the bits of a byte
  from the most significant, the other from the least significant, into the same register.
* **`crc_computations`** — the loops compute these, in any number of reads; and a page that carries
  what was computed is valid.
-/

namespace ApiWhatsApp

open Library

/-! ## Ogg pages -/

/-- Source: `OGG_FIXED_HEADER_BYTES`. -/
def oggFixedHeaderBytes : ℕ := 27

/-- The body of the inner loop of `buildOggCrcTable`. -/
def oggCrcTableBit (value : ℤ) : ℤ :=
  if bitwiseAnd value 0x80000000 ≠ 0 then
    unsignedShiftRight (bitwiseXor (unsignedShiftRight (shiftLeft value 1) 0) 0x04c11db7) 0
  else unsignedShiftRight (shiftLeft value 1) 0

/-- Source: `buildOggCrcTable`. -/
def buildOggCrcTable : List ℤ :=
  (List.range 256).map fun index : ℕ => oggCrcTableBit^[8] (unsignedShiftRight (shiftLeft index 24) 0)

/-- The body of the loop in `hasValidOggCrc`. -/
def oggCrcByte (crc : ℤ) (byte : UInt8) : ℤ :=
  let tableIndex := bitwiseAnd (bitwiseXor (unsignedShiftRight crc 24) byte.toNat) 0xff
  unsignedShiftRight (bitwiseXor (unsignedShiftRight (shiftLeft crc 8) 0)
    (buildOggCrcTable.getD tableIndex.toNat 0)) 0

/-- The loop in `hasValidOggCrc`: the bytes of the field itself count as zeros. -/
def oggCrc (page : Bytes) : ℤ :=
  page.zipIdx.foldl (fun crc entry =>
    oggCrcByte crc (if entry.2 ≥ 22 ∧ entry.2 ≤ 25 then 0 else entry.1)) 0

/-- Source: `hasValidOggCrc`. -/
def hasValidOggCrc (page : Bytes) : Bool :=
  if page.length < oggFixedHeaderBytes then false
  else
    let expected := readLE page 4 22
    oggCrc page = expected

/-! ## PNG chunks -/

/-- Source: `PNG_CRC_READ_BYTES`. -/
def pngCrcReadBytes : ℕ := 64 * 1024

/-- The body of the inner loop of `buildCrc32Table`. -/
def crc32TableBit (value : ℤ) : ℤ :=
  if bitwiseAnd value 1 ≠ 0 then bitwiseXor 0xedb88320 (unsignedShiftRight value 1)
  else unsignedShiftRight value 1

/-- Source: `buildCrc32Table`. -/
def buildCrc32Table : List ℤ :=
  (List.range 256).map fun index : ℕ => unsignedShiftRight (crc32TableBit^[8] index) 0

/-- Source: `updateCrc32`. -/
def updateCrc32 (initial : ℤ) (bytes : Bytes) : ℤ :=
  bytes.foldl (fun crc value =>
    unsignedShiftRight (bitwiseXor
      (buildCrc32Table.getD (bitwiseAnd (bitwiseXor crc value.toNat) 0xff).toNat 0)
      (unsignedShiftRight crc 8)) 0) (unsignedShiftRight initial 0)

/-- The loop in `validatePngChunkCrc`. -/
def pngChunkCrc (file : Bytes) (dataOffset dataLength readOffset : ℕ) (crc : ℤ) : Option ℤ :=
  if readOffset < dataLength then
    let length := min pngCrcReadBytes (dataLength - readOffset)
    match readExactly file length (dataOffset + readOffset) with
    | none => none
    | some chunk =>
        pngChunkCrc file dataOffset dataLength (readOffset + length) (updateCrc32 crc chunk)
  else some crc
  termination_by dataLength - readOffset
  decreasing_by
    have hpos : 0 < pngCrcReadBytes := by decide
    omega

/-- Source: `validatePngChunkCrc`. -/
def validatePngChunkCrc (file typeBytes : Bytes) (dataOffset dataLength crcOffset : ℕ) : Bool :=
  match pngChunkCrc file dataOffset dataLength 0 (updateCrc32 0xffffffff typeBytes) with
  | none => false
  | some crc =>
      match readExactly file 4 crcOffset with
      | none => false
      | some expectedBytes =>
          let expected := readBE expectedBytes 4 0
          let actual := unsignedShiftRight (bitwiseXor crc 0xffffffff) 0
          actual = expected

/-! ## The references -/

/-- The generator, from `x ^ 31` down; `x ^ 32` is implied. -/
def crcGenerator : BitVec 32 := 0x04c11db7

/-- The bytes of a page, with zeros in the place of the checksum. -/
def withoutChecksum (page : Bytes) : Bytes :=
  page.mapIdx fun index byte => if index ≥ 22 ∧ index ≤ 25 then 0 else byte

/-- The checksum of a page, bit by bit. -/
def oggReference (page : Bytes) : BitVec 32 :=
  divide crcGenerator 0 ((withoutChecksum page).flatMap msbBits)

/-- The checksum of some bytes, bit by bit: the register is preset, and read reversed and inverted. -/
def pngReference (bytes : Bytes) : BitVec 32 :=
  ~~~ (divide crcGenerator (BitVec.allOnes 32) (bytes.flatMap lsbBits)).reverse

section

open Polynomial

/-- The checksum of a page is the remainder of its polynomial. -/
theorem toPolynomial_oggReference (page : Bytes) :
    toPolynomial (oggReference page) =
      (X ^ 32 * messagePolynomial ((withoutChecksum page).flatMap msbBits)) %ₘ
        generator crcGenerator := by
  rw [oggReference, toPolynomial_divide, toPolynomial_zero, mul_zero, zero_add]

/-- The checksum of some bytes is a remainder too: the preset register is added to the head of the
message. -/
theorem toPolynomial_pngReference (bytes : Bytes) :
    toPolynomial (~~~ pngReference bytes).reverse =
      (X ^ (bytes.flatMap lsbBits).length * toPolynomial (BitVec.allOnes 32) +
        X ^ 32 * messagePolynomial (bytes.flatMap lsbBits)) %ₘ generator crcGenerator := by
  rw [pngReference, BitVec.not_not, BitVec.reverse_reverse_eq, toPolynomial_divide]

end

/-! ## The table of Ogg -/

/-- A bit of the table is a step of the division. -/
theorem toInt32_oggCrcTableBit (value : ℤ) :
    toInt32 (oggCrcTableBit value) = divideBit crcGenerator (toInt32 value) false := by
  have hmsb : bitwiseAnd value 0x80000000 ≠ 0 ↔ (toInt32 value).msb = true := by
    rw [bitwiseAnd_ne_zero, show toInt32 0x80000000 = BitVec.twoPow 32 31 by rfl, BitVec.and_twoPow,
      BitVec.msb_eq_getLsbD_last]
    cases (toInt32 value).getLsbD (32 - 1) <;> simp
  unfold oggCrcTableBit divideBit
  rw [Bool.xor_false]
  split_ifs with hbit hmsb' hmsb'
  · simp
    rfl
  · exact absurd (hmsb.mp hbit) hmsb'
  · exact absurd (hmsb.mpr hmsb') hbit
  · simp

/-- An entry of the table. -/
theorem buildOggCrcTable_getD {index : ℕ} (h : index < 256) :
    toInt32 (buildOggCrcTable.getD index 0) = advance crcGenerator 8 (BitVec.ofNat 32 index <<< 24) := by
  have hiterate : ∀ (n : ℕ) (value : ℤ),
      toInt32 (oggCrcTableBit^[n] value) = advance crcGenerator n (toInt32 value) := by
    intro n value
    induction n with
    | zero => rfl
    | succ n ih =>
        rw [Function.iterate_succ_apply', toInt32_oggCrcTableBit, ih, advance_succ]
  rw [buildOggCrcTable, List.getD_eq_getElem _ _ (by simpa using h), List.getElem_map,
    List.getElem_range, hiterate]
  simp

/-- A byte as a word. -/
theorem byteWord_toNat (byte : UInt8) : (byteWord byte).toNat = byte.toNat := by
  have hbyte := byte.toNat_lt
  rw [byteWord, BitVec.toNat_ofNat, Nat.mod_eq_of_lt (by omega)]

/-- One byte of a page. -/
theorem oggCrcByte_toNat (r : BitVec 32) (byte : UInt8) :
    oggCrcByte r.toNat byte = (divide crcGenerator r (msbBits byte)).toNat := by
  have hhigh : (r >>> 24).toNat < 2 ^ 8 := by
    rw [BitVec.toNat_ushiftRight, Nat.shiftRight_eq_div_pow]
    omega
  have hlt : (r >>> 24 ^^^ byteWord byte).toNat < 256 := by
    rw [BitVec.toNat_xor, byteWord_toNat]
    exact Nat.xor_lt_two_pow hhigh byte.toNat_lt
  have hindex : (bitwiseAnd (bitwiseXor (unsignedShiftRight r.toNat 24) byte.toNat) 0xff).toNat =
      (r >>> 24 ^^^ byteWord byte).toNat := by
    rw [toNat_bitwiseAnd_byte, toInt32_bitwiseXor, toInt32_unsignedShiftRight, toInt32_toNat,
      toInt32_natCast]
    exact Nat.mod_eq_of_lt hlt
  have hentry := buildOggCrcTable_getD hlt
  rw [BitVec.ofNat_toNat, BitVec.setWidth_eq] at hentry
  unfold oggCrcByte
  dsimp only
  rw [hindex, unsignedShiftRight_zero, toInt32_bitwiseXor, hentry, divide_msbBits,
    toInt32_unsignedShiftRight, toInt32_shiftLeft, toInt32_toNat, Nat.zero_mod,
    BitVec.ushiftRight_zero]

/-- The loop over a page is the bit-by-bit division of it. -/
theorem oggCrc_eq (page : Bytes) : oggCrc page = (oggReference page).toNat := by
  have hfold : ∀ (bytes : Bytes) (r : BitVec 32),
      bytes.foldl oggCrcByte r.toNat = (divide crcGenerator r (bytes.flatMap msbBits)).toNat := by
    intro bytes
    induction bytes with
    | nil => exact fun r => rfl
    | cons byte bytes ih =>
        intro r
        rw [List.foldl_cons, oggCrcByte_toNat, ih, List.flatMap_cons, divide_append]
  have hzeros : withoutChecksum page =
      page.zipIdx.map fun entry => if entry.2 ≥ 22 ∧ entry.2 ≤ 25 then 0 else entry.1 := by
    rw [withoutChecksum, List.mapIdx_eq_zipIdx_map]
  have hpage := hfold (withoutChecksum page) 0
  rw [hzeros, List.foldl_map, ← hzeros] at hpage
  exact hpage

/-! ## The table of PNG -/

/-- A bit of the table is a step of the reflected division. -/
theorem toInt32_crc32TableBit (value : ℤ) :
    toInt32 (crc32TableBit value) = reflectedAdvance crcGenerator 1 (toInt32 value) := by
  have hlow : bitwiseAnd value 1 ≠ 0 ↔ (toInt32 value).getLsbD 0 = true := by
    have hone : BitVec.twoPow 32 0 ≠ 0 := by decide
    rw [bitwiseAnd_ne_zero, show toInt32 1 = BitVec.twoPow 32 0 by rfl, BitVec.and_twoPow]
    cases (toInt32 value).getLsbD 0
    · simp
    · exact iff_of_true hone rfl
  have hstart : reflectedAdvance crcGenerator 0 (toInt32 value) = toInt32 value :=
    BitVec.reverse_reverse_eq
  rw [reflectedAdvance_succ, hstart]
  unfold crc32TableBit
  split_ifs with hbit hlow' hlow'
  · have hreversed : toInt32 0xedb88320 = crcGenerator.reverse := by decide +kernel
    rw [toInt32_bitwiseXor, toInt32_unsignedShiftRight, BitVec.xor_comm, hreversed]
  · exact absurd (hlow.mp hbit) hlow'
  · exact absurd (hlow.mpr hlow') hbit
  · rw [toInt32_unsignedShiftRight]
    simp

/-- An entry of the table. -/
theorem buildCrc32Table_getD {index : ℕ} (h : index < 256) :
    toInt32 (buildCrc32Table.getD index 0) =
      reflectedAdvance crcGenerator 8 (BitVec.ofNat 32 index) := by
  have hiterate : ∀ (n : ℕ) (value : ℤ),
      toInt32 (crc32TableBit^[n] value) = reflectedAdvance crcGenerator n (toInt32 value) := by
    intro n value
    induction n with
    | zero => exact BitVec.reverse_reverse_eq.symm
    | succ n ih =>
        rw [Function.iterate_succ_apply', toInt32_crc32TableBit, ih, reflectedAdvance,
          reflectedAdvance, reflectedAdvance, BitVec.reverse_reverse_eq, advance_succ, advance_succ]
        rfl
  rw [buildCrc32Table, List.getD_eq_getElem _ _ (by simpa using h), List.getElem_map,
    List.getElem_range, toInt32_unsignedShiftRight, hiterate]
  simp

/-- One byte of a chunk, in a register that is read reversed. -/
theorem crc32Byte_toNat (r : BitVec 32) (value : UInt8) :
    unsignedShiftRight (bitwiseXor
      (buildCrc32Table.getD (bitwiseAnd (bitwiseXor r.reverse.toNat value.toNat) 0xff).toNat 0)
      (unsignedShiftRight r.reverse.toNat 8)) 0 =
    (divide crcGenerator r (lsbBits value)).reverse.toNat := by
  have hlow : (lowByte (r.reverse ^^^ byteWord value)).toNat =
      (r.reverse ^^^ byteWord value).toNat % 256 := by
    rw [lowByte, BitVec.toNat_setWidth, BitVec.toNat_setWidth]
    omega
  have hindex : (bitwiseAnd (bitwiseXor r.reverse.toNat value.toNat) 0xff).toNat =
      (lowByte (r.reverse ^^^ byteWord value)).toNat := by
    rw [toNat_bitwiseAnd_byte, toInt32_bitwiseXor, toInt32_toNat, toInt32_natCast, hlow]
    rfl
  have hlt : (lowByte (r.reverse ^^^ byteWord value)).toNat < 256 := by omega
  have hentry := buildCrc32Table_getD hlt
  rw [BitVec.ofNat_toNat, BitVec.setWidth_eq] at hentry
  rw [hindex, unsignedShiftRight_zero, toInt32_bitwiseXor, hentry, reverse_divide_lsbBits,
    toInt32_unsignedShiftRight, toInt32_toNat, BitVec.xor_comm]

/-- **The loop over a chunk** is the bit-by-bit division of it. -/
theorem updateCrc32_toNat (r : BitVec 32) (bytes : Bytes) :
    updateCrc32 r.reverse.toNat bytes =
      (divide crcGenerator r (bytes.flatMap lsbBits)).reverse.toNat := by
  unfold updateCrc32
  rw [unsignedShiftRight_zero, toInt32_toNat]
  induction bytes generalizing r with
  | nil => rfl
  | cons value bytes ih =>
      rw [List.foldl_cons, crc32Byte_toNat, ih, List.flatMap_cons, divide_append]

/-- The checksum goes on over more bytes. -/
theorem updateCrc32_append (r : BitVec 32) (bytes bytes' : Bytes) :
    updateCrc32 (updateCrc32 r.toNat bytes) bytes' = updateCrc32 r.toNat (bytes ++ bytes') := by
  have hr : r = r.reverse.reverse := BitVec.reverse_reverse_eq.symm
  rw [hr, updateCrc32_toNat, updateCrc32_toNat, updateCrc32_toNat, List.flatMap_append,
    divide_append]

/-- The checksum of some bytes, as the validator compares it. -/
theorem updateCrc32_eq_pngReference (bytes : Bytes) :
    unsignedShiftRight (bitwiseXor (updateCrc32 0xffffffff bytes) 0xffffffff) 0 =
      (pngReference bytes).toNat := by
  have hpreset : (BitVec.allOnes 32).reverse = BitVec.allOnes 32 := by decide +kernel
  have hcrc := updateCrc32_toNat (BitVec.allOnes 32) bytes
  rw [hpreset] at hcrc
  have hones : toInt32 0xffffffff = BitVec.allOnes 32 := rfl
  rw [show (0xffffffff : ℤ) = ((BitVec.allOnes 32).toNat : ℤ) by rfl, hcrc, unsignedShiftRight_zero,
    toInt32_bitwiseXor, toInt32_toNat, toInt32_toNat, BitVec.xor_allOnes]
  rfl

/-! ## Many reads -/

/-- The register after some bytes. -/
theorem exists_updateCrc32 (r : BitVec 32) (bytes : Bytes) :
    ∃ r' : BitVec 32, updateCrc32 r.toNat bytes = r'.toNat := by
  have hr : r = r.reverse.reverse := BitVec.reverse_reverse_eq.symm
  rw [hr, updateCrc32_toNat]
  exact ⟨_, rfl⟩

/-- The loop takes the data as if it were read at once. -/
theorem pngChunkCrc_eq (file : Bytes) (dataOffset dataLength readOffset : ℕ) (r : BitVec 32) :
    pngChunkCrc file dataOffset dataLength readOffset r.toNat =
      (readExactly file (dataLength - readOffset) (dataOffset + readOffset)).map fun data =>
        updateCrc32 r.toNat data := by
  induction hrest : dataLength - readOffset using Nat.strong_induction_on
    generalizing readOffset r with
  | _ rest ih =>
      rw [pngChunkCrc]
      split_ifs with hmore
      · have hpos : 0 < pngCrcReadBytes := by decide
        have hsplit : rest = min pngCrcReadBytes (dataLength - readOffset) +
            (dataLength - (readOffset + min pngCrcReadBytes (dataLength - readOffset))) := by
          omega
        rw [hsplit, readExactly_add]
        dsimp only
        cases hread : readExactly file (min pngCrcReadBytes (dataLength - readOffset))
            (dataOffset + readOffset) with
        | none => rfl
        | some chunk =>
            obtain ⟨r', hr'⟩ := exists_updateCrc32 r chunk
            dsimp only
            rw [hr', ih _ (by omega) _ r' rfl, Option.bind_some, Option.map_map, ← Nat.add_assoc]
            congr 1
            funext data
            rw [Function.comp_apply, ← updateCrc32_append, hr']
      · rw [← hrest, Nat.sub_eq_zero_of_le (Nat.not_lt.mp hmore)]
        have hstart : updateCrc32 r.toNat [] = r.toNat := by
          rw [updateCrc32, unsignedShiftRight_zero, toInt32_toNat]
          rfl
        rw [readExactly, takeExactly_of_le (Nat.zero_le _), Option.map_some, List.take_zero, hstart]

/-- The loop over the data goes on from the type. -/
theorem pngChunkCrc_typeBytes (file typeBytes : Bytes) (dataOffset dataLength : ℕ) :
    pngChunkCrc file dataOffset dataLength 0 (updateCrc32 0xffffffff typeBytes) =
      (readExactly file dataLength dataOffset).map fun data =>
        updateCrc32 0xffffffff (typeBytes ++ data) := by
  have hones : (0xffffffff : ℤ) = ((BitVec.allOnes 32).toNat : ℤ) := rfl
  obtain ⟨r, hr⟩ := exists_updateCrc32 (BitVec.allOnes 32) typeBytes
  rw [hones, hr, pngChunkCrc_eq, Nat.sub_zero, Nat.add_zero]
  congr 1
  funext data
  rw [← hr, updateCrc32_append]

/-- **What the validator asks of a chunk**: its data, and behind it the checksum of type and data. -/
theorem validatePngChunkCrc_iff {file typeBytes : Bytes} {dataOffset dataLength crcOffset : ℕ} :
    validatePngChunkCrc file typeBytes dataOffset dataLength crcOffset = true ↔
      ∃ data crc, readExactly file dataLength dataOffset = some data ∧
        readExactly file 4 crcOffset = some crc ∧
        bigEndian crc = (pngReference (typeBytes ++ data)).toNat := by
  unfold validatePngChunkCrc
  rw [pngChunkCrc_typeBytes]
  cases readExactly file dataLength dataOffset with
  | none => simp
  | some data =>
      cases hcrc : readExactly file 4 crcOffset with
      | none => simp
      | some crc =>
          have hlength : crc.length = 4 := (readExactly_eq_some.mp hcrc).1
          have hread : readBE crc 4 0 = bigEndian crc := by
            rw [readBE, List.drop_zero, ← hlength, List.take_length]
          simp only [Option.map_some, updateCrc32_eq_pngReference, hread, decide_eq_true_eq,
            Option.some.injEq, Nat.cast_inj]
          constructor
          · exact fun h => ⟨data, crc, rfl, rfl, h.symm⟩
          · rintro ⟨_, _, rfl, rfl, h⟩
            exact h.symm

/-! ## Writing a checksum -/

/-- A page with the computed checksum in its place. -/
def withOggCrc (page : Bytes) : Bytes :=
  page.take 22 ++ littleEndianBytes 4 (oggCrc page).toNat ++ page.drop 26

/-- Only the four bytes of the field count as zeros. -/
theorem withoutChecksum_append {before field after : Bytes} (hbefore : before.length = 22)
    (hfield : field.length = 4) :
    withoutChecksum (before ++ field ++ after) = before ++ [0, 0, 0, 0] ++ after := by
  have hlength : (before ++ field ++ after).length = (before ++ [0, 0, 0, 0] ++ after).length := by
    simp only [List.length_append, hfield]
    rfl
  unfold withoutChecksum
  refine List.ext_getElem (List.length_mapIdx.trans hlength) fun i hi hi' => ?_
  rw [List.getElem_mapIdx]
  simp only [List.length_append, hbefore, List.length_cons, List.length_nil] at hi'
  rcases Nat.lt_or_ge i 22 with hlow | hlow
  · rw [if_neg (by omega), List.getElem_append_left (by simp; omega),
      List.getElem_append_left (by omega), List.getElem_append_left (by simp; omega),
      List.getElem_append_left (by omega)]
  · rcases Nat.lt_or_ge i 26 with hmid | hhigh
    · rw [if_pos (by omega), List.getElem_append_left (by simp; omega),
        List.getElem_append_right (by omega)]
      obtain ⟨k, rfl⟩ := Nat.exists_eq_add_of_le hlow
      have hk : k < 4 := by omega
      simp only [hbefore, Nat.add_sub_cancel_left]
      interval_cases k <;> rfl
    · rw [if_neg (by omega), List.getElem_append_right (by simp; omega),
        List.getElem_append_right (by simp; omega)]
      simp only [List.length_append, hbefore, hfield, List.length_cons, List.length_nil]

/-- Without the checksum it does not matter which one was written. -/
theorem withoutChecksum_withOggCrc {page : Bytes} (h : oggFixedHeaderBytes ≤ page.length) :
    withoutChecksum (withOggCrc page) = withoutChecksum page := by
  unfold oggFixedHeaderBytes at h
  have hbefore : (page.take 22).length = 22 := List.length_take_of_le (by omega)
  have hpage : page = page.take 22 ++ (page.drop 22).take 4 ++ page.drop 26 := by
    rw [List.append_assoc, show 26 = 22 + 4 by rfl, ← List.drop_drop, List.take_append_drop,
      List.take_append_drop]
  have hfield : ((page.drop 22).take 4).length = 4 := by
    rw [List.length_take_of_le]
    rw [List.length_drop]
    omega
  rw [withOggCrc, withoutChecksum_append hbefore (length_littleEndianBytes 4 _)]
  conv_rhs => rw [hpage]
  rw [withoutChecksum_append hbefore hfield]

/-- **A page with its computed checksum is valid.** -/
theorem hasValidOggCrc_withOggCrc {page : Bytes} (h : oggFixedHeaderBytes ≤ page.length) :
    hasValidOggCrc (withOggCrc page) = true := by
  have hbefore : (page.take 22).length = 22 := by
    unfold oggFixedHeaderBytes at h
    exact List.length_take_of_le (by omega)
  have hlength : (withOggCrc page).length = page.length := by
    unfold oggFixedHeaderBytes at h
    rw [withOggCrc, List.length_append, List.length_append, hbefore, length_littleEndianBytes,
      List.length_drop]
    omega
  have hsame : oggCrc (withOggCrc page) = oggCrc page := by
    rw [oggCrc_eq, oggCrc_eq, oggReference, withoutChecksum_withOggCrc h]
    rfl
  have hfield : ((withOggCrc page).drop 22).take 4 = littleEndianBytes 4 (oggCrc page).toNat := by
    have hwidth := length_littleEndianBytes 4 (oggCrc page).toNat
    rw [withOggCrc, List.append_assoc, List.drop_left' hbefore, List.take_left' hwidth]
  have hlt : (oggCrc page).toNat < 256 ^ 4 := by
    rw [oggCrc_eq, Int.toNat_natCast]
    exact (oggReference page).isLt
  unfold hasValidOggCrc
  rw [if_neg (by omega), hsame, readLE, hfield, littleEndian_littleEndianBytes hlt]
  dsimp only
  rw [oggCrc_eq, Int.toNat_natCast]
  exact decide_eq_true rfl

/-- **The loops compute what bit-by-bit division gives**: over a page, over any bytes, and over a type
and data that are read in parts; and writing what was computed makes a page valid. -/
theorem crc_computations :
    (∀ page, oggCrc page = (oggReference page).toNat) ∧
    (∀ bytes, unsignedShiftRight (bitwiseXor (updateCrc32 0xffffffff bytes) 0xffffffff) 0 =
      (pngReference bytes).toNat) ∧
    (∀ file typeBytes dataOffset dataLength,
      pngChunkCrc file dataOffset dataLength 0 (updateCrc32 0xffffffff typeBytes) =
        (readExactly file dataLength dataOffset).map fun data =>
          updateCrc32 0xffffffff (typeBytes ++ data)) ∧
    (∀ page, oggFixedHeaderBytes ≤ page.length → hasValidOggCrc (withOggCrc page) = true) :=
  ⟨oggCrc_eq, updateCrc32_eq_pngReference, pngChunkCrc_typeBytes,
    fun _ h => hasValidOggCrc_withOggCrc h⟩

/-- A first page with a body of four bytes, before its checksum is written. -/
def sampleOggPage : Bytes :=
  asciiBytes "OggS" ++ [0, 2] ++ List.replicate 8 0 ++ [1, 0, 0, 0] ++ [0, 0, 0, 0] ++
    List.replicate 4 0 ++ [1, 4] ++ asciiBytes "body"

set_option maxRecDepth 8000 in
/-- The checksum makes the page valid, which it was not before. -/
theorem crc_computations_page :
    oggFixedHeaderBytes ≤ sampleOggPage.length ∧ hasValidOggCrc sampleOggPage = false ∧
      hasValidOggCrc (withOggCrc sampleOggPage) = true :=
  ⟨by decide, by decide, crc_computations.2.2.2 sampleOggPage (by decide)⟩

end ApiWhatsApp
