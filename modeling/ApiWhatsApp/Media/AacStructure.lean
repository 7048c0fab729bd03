import ApiWhatsApp.Library.Bits

/-!
# AAC files

`matchesAacStructure` of `media/media-audio-structure.ts`: ADTS frames up to the end of the file, or an
ADIF header with something behind it.

* `AdtsFrame` is a frame: its header field by field, and what follows. `AdtsAudio` is a list of them.
* `AdifHeader` is a header bit by bit: its program configuration elements list their channels, and are
  padded to the next byte of the file.
* **`aac_structure`** — the files that are accepted are the encodings of ADTS frames, and those that
  begin with an ADIF header and go on behind it.
* **`aac_files`** — and the verdict on a file with the magic hangs on the bytes of its header and on whether
  something follows them; the part of the file that is inspected always holds the header, and the bit
  reader does not read beyond it.
-/

namespace ApiWhatsApp

open Library

/-! ## The bit reader -/

namespace BitReader

/-- Source: `BitReader.skip`. -/
def skip (bytes : Bytes) (length : ℕ) : Reader Unit := fun bitOffset =>
  if bitOffset + length > bytes.length * 8 then none else some ((), bitOffset + length)

/-- Source: `BitReader.read`. -/
def read (bytes : Bytes) (length : ℕ) : Reader ℕ := fun bitOffset =>
  if length > 32 ∨ bitOffset + length > bytes.length * 8 then
    if length > 32 then (skip bytes length bitOffset).map fun skipped => (0, skipped.2) else none
  else
    let value := (List.range length).foldl (fun value index =>
      let absolute := bitOffset + index
      let byte := bytes.getD (absolute / 8) 0
      let bit := (byte.toNat >>> (7 - absolute % 8)) &&& 1
      value * 2 + bit) 0
    some (value, bitOffset + length)

/-- Source: `BitReader.alignToByte`. -/
def alignToByte : Reader Unit := fun bitOffset =>
  let remainder := bitOffset % 8
  some ((), if remainder ≠ 0 then bitOffset + (8 - remainder) else bitOffset)

/-- Source: `BitReader.byteOffset`. -/
def byteOffset (bitOffset : ℕ) : ℕ := (bitOffset + 7) / 8

/-- Read bits that nothing depends on. -/
def ignore (bytes : Bytes) (length : ℕ) : Reader Unit := do
  let _ ← read bytes length
  return ()

end BitReader

/-! ## The validator -/

/-- Source: `AAC_ADIF`. -/
def aacAdif : Bytes := asciiBytes "ADIF"

/-- Source: `AAC_MAX_FRAMES`. -/
def aacMaxFrames : ℕ := 100000

/-- Source: `AAC_ADIF_INSPECTION_BYTES`. -/
def aacAdifInspectionBytes : ℕ := 64 * 1024

/-- The counts of a program configuration element. -/
structure ChannelCounts where
  front : ℕ
  side : ℕ
  back : ℕ
  lfe : ℕ
  assoc : ℕ
  validCc : ℕ

/-- The fields that `parseProgramConfigElement` begins with. A read that fails ends the function with
`false`, here and below, whatever is read after it. -/
def readCounts (bytes : Bytes) : Reader ChannelCounts := do
  BitReader.ignore bytes 4
  BitReader.ignore bytes 2
  let samplingFrequencyIndex ← BitReader.read bytes 4
  let front ← BitReader.read bytes 4
  let side ← BitReader.read bytes 4
  let back ← BitReader.read bytes 4
  let lfe ← BitReader.read bytes 2
  let assoc ← BitReader.read bytes 3
  let validCc ← BitReader.read bytes 4
  Reader.require (samplingFrequencyIndex < 13 ∧ front + side + back + lfe ≠ 0)
  return ⟨front, side, back, lfe, assoc, validCc⟩

/-- A flag, and the field that is there if it is set. -/
def readFlagged (bytes : Bytes) (width : ℕ) : Reader Unit := do
  let flag ← BitReader.read bytes 1
  Reader.when_ (flag = 1) (BitReader.ignore bytes width)

/-- A bit and the tag of an element. -/
def readTagged (bytes : Bytes) : Reader Unit := do
  BitReader.ignore bytes 1
  BitReader.ignore bytes 4

/-- The three mixdowns. -/
def readMixdowns (bytes : Bytes) : Reader Unit := do
  readFlagged bytes 4
  readFlagged bytes 4
  readFlagged bytes 3

/-- The loops over the counts. -/
def readChannels (bytes : Bytes) (counts : ChannelCounts) : Reader Unit := do
  Reader.times counts.front (readTagged bytes)
  Reader.times counts.side (readTagged bytes)
  Reader.times counts.back (readTagged bytes)
  Reader.times counts.lfe (BitReader.ignore bytes 4)
  Reader.times counts.assoc (BitReader.ignore bytes 4)
  Reader.times counts.validCc (readTagged bytes)

/-- The comment, behind its length. -/
def readComment (bytes : Bytes) : Reader Unit := do
  let commentBytes ← BitReader.read bytes 8
  BitReader.skip bytes (commentBytes * 8)

/-- Source: `parseProgramConfigElement`. -/
def parseProgramConfigElement (bytes : Bytes) : Reader Unit := do
  let counts ← readCounts bytes
  readMixdowns bytes
  readChannels bytes counts
  BitReader.alignToByte
  readComment bytes

/-- What `matchesAdifStructure` reads behind the magic. -/
def readAdifHeader (bytes : Bytes) : Reader Unit := do
  readFlagged bytes 72
  BitReader.ignore bytes 1
  BitReader.ignore bytes 1
  let bitstreamType ← BitReader.read bytes 1
  BitReader.ignore bytes 23
  let numProgramConfigElements ← BitReader.read bytes 4
  Reader.times (numProgramConfigElements + 1) do
    Reader.when_ (bitstreamType = 0) (BitReader.ignore bytes 20)
    parseProgramConfigElement bytes

/-- Source: `matchesAdifStructure`. -/
def matchesAdifStructure (file : Bytes) : Bool :=
  match readExactly file (min file.length aacAdifInspectionBytes) 0 with
  | none => false
  | some start =>
      if start.take 4 ≠ aacAdif then false
      else
        match readAdifHeader start 32 with
        | none => false
        | some ((), bitOffset) => BitReader.byteOffset bitOffset < file.length

/-- One round of the loop in `matchesAacStructure`: the bytes of the frame. -/
def adtsFrame (file : Bytes) (_ : Unit) (offset : ℕ) : Except Bool (ℕ × Unit) :=
  match readExactly file 7 offset with
  | some [header0, header1, header2, header3, header4, header5, _] =>
      if header0 ≠ 0xff ∨ header1.toNat &&& 0xf0 ≠ 0xf0 ∨ header1.toNat &&& 0x06 ≠ 0 then .error false
      else
        let protectionAbsent : Bool := header1.toNat &&& 0x01 ≠ 0
        let samplingFrequencyIndex := (header2.toNat >>> 2) &&& 0x0f
        if samplingFrequencyIndex ≥ 13 then .error false
        else
          let headerBytes := if protectionAbsent then 7 else 9
          let frameBytes :=
            ((header3.toNat &&& 0x03) <<< 11) ||| (header4.toNat <<< 3) ||| (header5.toNat >>> 5)
          if frameBytes ≤ headerBytes ∨ offset + frameBytes > file.length then .error false
          else if ¬ protectionAbsent ∧ readExactly file 2 (offset + 7) = none then .error false
          else .ok (frameBytes, ())
  | _ => .error false

/-- Source: `matchesAacStructure`. -/
def matchesAacStructure (file : Bytes) : Bool :=
  if file.length < 5 then false
  else
    match readExactly file (min 4 file.length) 0 with
    | none => false
    | some start =>
        if start = aacAdif then matchesAdifStructure file
        else scanAll (adtsFrame file) file.length aacMaxFrames () 0

/-! ## What the bit reader reads -/

section

variable {bytes : Bytes}

/-- A read puts the bits together, the first of them highest. -/
theorem read_value {bitOffset length : ℕ} (h : bitOffset + length ≤ bytes.length * 8) :
    (List.range length).foldl (fun value index => value * 2 +
      (((bytes.getD ((bitOffset + index) / 8) 0).toNat >>> (7 - (bitOffset + index) % 8)) &&& 1)) 0 =
      bitsValue (((bits bytes).drop bitOffset).take length) := by
  rw [bits_slice h, bitsValue, List.foldl_map]
  congr 1
  funext value index
  rw [Nat.toNat_testBit, Nat.and_one_is_mod, Nat.shiftRight_eq_div_pow]

/-- A number of up to 32 bits. -/
theorem reads_read {width : ℕ} (hwidth : width ≤ 32) :
    Reads (bits bytes) (BitReader.read bytes width) fun _ items n =>
      items = bitsOf width n ∧ n < 2 ^ width := by
  intro offset hle n offset'
  unfold BitReader.read
  rw [if_neg (Nat.not_lt.mpr hwidth)]
  split_ifs with hend
  · refine iff_of_false (by rintro ⟨⟩) ?_
    rintro ⟨items, after, hdrop, -, rfl, -⟩
    have hsum := length_le_of_drop hle hdrop
    rw [length_bitsOf, length_bits] at hsum
    omega
  · dsimp only
    have hin : offset + width ≤ bytes.length * 8 := by omega
    have hlength : (((bits bytes).drop offset).take width).length = width := by
      rw [List.length_take, List.length_drop, length_bits]
      omega
    rw [read_value hin]
    constructor
    · intro h
      cases h
      have hlt := bitsValue_lt (((bits bytes).drop offset).take width)
      have hvalue := bitsOf_bitsValue (((bits bytes).drop offset).take width)
      rw [hlength] at hlt hvalue
      exact ⟨_, _, (List.take_append_drop width _).symm, by rw [hlength], hvalue.symm, hlt⟩
    · rintro ⟨items, after, hdrop, rfl, rfl, hlt⟩
      rw [hdrop, List.take_left' (length_bitsOf ..), bitsValue_bitsOf hlt, length_bitsOf]

/-- Bits that are skipped. -/
theorem reads_skip (length : ℕ) :
    Reads (bits bytes) (BitReader.skip bytes length) fun _ items _ => items.length = length := by
  intro offset hle u offset'
  unfold BitReader.skip
  split_ifs with hend
  · refine iff_of_false (by rintro ⟨⟩) ?_
    rintro ⟨items, after, hdrop, -, rfl⟩
    have hsum := length_le_of_drop hle hdrop
    rw [length_bits] at hsum
    omega
  · constructor
    · intro h
      cases h
      have hlength : (((bits bytes).drop offset).take length).length = length := by
        rw [List.length_take, List.length_drop, length_bits]
        omega
      exact ⟨_, _, (List.take_append_drop length _).symm, by rw [hlength], hlength⟩
    · rintro ⟨items, after, hdrop, rfl, rfl⟩
      rfl

/-- A longer number is skipped. -/
theorem reads_read_long {width : ℕ} (hwidth : 32 < width) :
    Reads (bits bytes) (BitReader.read bytes width) fun _ items n => items.length = width ∧ n = 0 := by
  have hread : BitReader.read bytes width = do BitReader.skip bytes width; return 0 := by
    funext offset
    have hrun : (do BitReader.skip bytes width; return 0 : Reader ℕ) offset =
        (BitReader.skip bytes width offset).bind fun skipped => some (0, skipped.2) := rfl
    rw [hrun, BitReader.read, if_pos (.inl hwidth), if_pos hwidth]
    cases BitReader.skip bytes width offset <;> rfl
  rw [hread]
  refine ((reads_skip width).bind fun _ => Reads.pure 0).congr fun offset items n => ?_
  constructor
  · rintro ⟨-, items₁, items₂, rfl, hlength, rfl, rfl⟩
    exact ⟨by rw [List.append_nil, hlength], rfl⟩
  · rintro ⟨hlength, rfl⟩
    exact ⟨(), items, [], (List.append_nil _).symm, hlength, rfl, rfl⟩

/-- A read fails just when its bits are not all there. -/
theorem read_eq_none {length offset : ℕ} :
    BitReader.read bytes length offset = none ↔ bytes.length * 8 < offset + length := by
  unfold BitReader.read
  dsimp only
  by_cases hlong : length > 32
  · rw [if_pos (.inl hlong), if_pos hlong, Option.map_eq_none_iff, BitReader.skip]
    split_ifs with hend
    · exact iff_of_true rfl hend
    · exact iff_of_false (by rintro ⟨⟩) hend
  · by_cases hend : offset + length > bytes.length * 8
    · rw [if_pos (.inr hend), if_neg hlong]
      exact iff_of_true rfl hend
    · rw [if_neg (not_or.mpr ⟨hlong, hend⟩)]
      exact iff_of_false (by rintro ⟨⟩) hend

/-- A field of any width. -/
theorem reads_ignore (width : ℕ) :
    Reads (bits bytes) (BitReader.ignore bytes width) fun _ items _ =>
      ∃ field : BitVec width, items = bitsOf width field.toNat := by
  have hfield : ∀ items : List Bool, items.length = width ↔
      ∃ field : BitVec width, items = bitsOf width field.toNat := by
    intro items
    constructor
    · rintro rfl
      refine ⟨BitVec.ofNat _ (bitsValue items), ?_⟩
      rw [BitVec.toNat_ofNat, Nat.mod_eq_of_lt (bitsValue_lt items), bitsOf_bitsValue]
    · rintro ⟨field, rfl⟩
      exact length_bitsOf ..
  rcases Nat.lt_or_ge 32 width with hlong | hshort
  · refine ((reads_read_long hlong).bind fun n => Reads.pure ()).congr fun offset items u => ?_
    rw [← hfield]
    constructor
    · rintro ⟨n, items₁, items₂, rfl, ⟨hlength, -⟩, rfl, -⟩
      rw [List.append_nil, hlength]
    · intro hlength
      exact ⟨0, items, [], (List.append_nil _).symm, ⟨hlength, rfl⟩, rfl, rfl⟩
  · refine ((reads_read hshort).bind fun n => Reads.pure ()).congr fun offset items u => ?_
    rw [← hfield]
    constructor
    · rintro ⟨n, items₁, items₂, rfl, ⟨rfl, -⟩, rfl, -⟩
      rw [List.append_nil, length_bitsOf]
    · rintro rfl
      exact ⟨_, items, [], (List.append_nil _).symm, ⟨(bitsOf_bitsValue items).symm, bitsValue_lt items⟩,
        rfl, rfl⟩

/-- Bits up to the next byte. -/
theorem reads_alignToByte :
    Reads (bits bytes) BitReader.alignToByte fun offset items _ =>
      items.length < 8 ∧ (offset + items.length) % 8 = 0 := by
  intro offset hle u offset'
  rw [length_bits] at hle
  have hstop : ∀ n, n < 8 → (offset + n) % 8 = 0 →
      (if offset % 8 ≠ 0 then offset + (8 - offset % 8) else offset) = offset + n := by
    intro n hn hmod
    split_ifs <;> omega
  unfold BitReader.alignToByte
  dsimp only
  constructor
  · intro h
    obtain ⟨n, hn, hmod, hsum⟩ : ∃ n < 8, (offset + n) % 8 = 0 ∧ offset + n ≤ bytes.length * 8 :=
      ⟨(8 - offset % 8) % 8, by omega, by omega, by omega⟩
    rw [hstop n hn hmod] at h
    cases h
    have hlength : (((bits bytes).drop offset).take n).length = n := by
      rw [List.length_take, List.length_drop, length_bits]
      omega
    exact ⟨_, _, (List.take_append_drop n _).symm, by rw [hlength], by rwa [hlength], by rwa [hlength]⟩
  · rintro ⟨items, after, hdrop, rfl, hlt, hmod⟩
    rw [hstop _ hlt hmod]

end

/-- A parser of the bits of some bytes reads nothing behind them: it stops within them, and what follows
them does not change what it reads. -/
def StaysInside {α : Type} (parser : Bytes → Reader α) : Prop :=
  ∀ (bytes : Bytes) (offset : ℕ) (a : α) (stop : ℕ), offset ≤ bytes.length * 8 →
    parser bytes offset = some (a, stop) →
      stop ≤ bytes.length * 8 ∧ ∀ more, parser (bytes ++ more) offset = some (a, stop)

/-- What reads a form of the bits stays inside. -/
theorem StaysInside.of_reads {α : Type} {parser : Bytes → Reader α} {Form : ℕ → List Bool → α → Prop}
    (h : ∀ bytes, Reads (bits bytes) (parser bytes) Form) : StaysInside parser := by
  intro bytes offset a stop hoffset hread
  rw [← length_bits] at hoffset ⊢
  refine ⟨(h bytes).stop_le hoffset hread, fun more => ?_⟩
  have hmore := h (bytes ++ more)
  rw [bits_append] at hmore
  exact (h bytes).append hmore hoffset hread

/-- The bit reader reads nothing behind its bytes. -/
theorem staysInside_read (length : ℕ) : StaysInside fun bytes => BitReader.read bytes length := by
  rcases Nat.lt_or_ge 32 length with hlong | hshort
  · exact .of_reads fun bytes => reads_read_long hlong
  · exact .of_reads fun bytes => reads_read hshort

/-! ## ADIF headers -/

/-- A field that may be there, behind its flag. -/
def flaggedBits {width : ℕ} : Option (BitVec width) → List Bool
  | none => [false]
  | some field => true :: bitsOf width field.toNat

/-- A bit and the tag of an element. -/
def taggedBits (element : Bool × BitVec 4) : List Bool := element.1 :: bitsOf 4 element.2.toNat

/-- A program configuration element; the padding ends at a byte of the file. -/
structure ProgramConfigElement where
  tag : BitVec 4
  objectType : BitVec 2
  samplingFrequencyIndex : Fin 13
  front : List (Bool × BitVec 4)
  side : List (Bool × BitVec 4)
  back : List (Bool × BitVec 4)
  lfe : List (BitVec 4)
  assoc : List (BitVec 4)
  validCc : List (Bool × BitVec 4)
  monoMixdown : Option (BitVec 4)
  stereoMixdown : Option (BitVec 4)
  matrixMixdown : Option (BitVec 3)
  padding : List Bool
  comment : Bytes
  front_lt : front.length < 16
  side_lt : side.length < 16
  back_lt : back.length < 16
  lfe_lt : lfe.length < 4
  assoc_lt : assoc.length < 8
  validCc_lt : validCc.length < 16
  comment_lt : comment.length < 256
  channels : front.length + side.length + back.length + lfe.length ≠ 0

namespace ProgramConfigElement

/-- The counts. -/
def head (pce : ProgramConfigElement) : List Bool :=
  bitsOf 4 pce.tag.toNat ++ (bitsOf 2 pce.objectType.toNat ++
    (bitsOf 4 pce.samplingFrequencyIndex ++ (bitsOf 4 pce.front.length ++ (bitsOf 4 pce.side.length ++
      (bitsOf 4 pce.back.length ++ (bitsOf 2 pce.lfe.length ++ (bitsOf 3 pce.assoc.length ++
        bitsOf 4 pce.validCc.length)))))))

/-- The mixdowns, each behind its flag. -/
def mixdowns (pce : ProgramConfigElement) : List Bool :=
  flaggedBits pce.monoMixdown ++ (flaggedBits pce.stereoMixdown ++ flaggedBits pce.matrixMixdown)

/-- The elements, kind by kind. -/
def elements (pce : ProgramConfigElement) : List Bool :=
  (pce.front.map taggedBits).flatten ++ ((pce.side.map taggedBits).flatten ++
    ((pce.back.map taggedBits).flatten ++ ((pce.lfe.map fun tag => bitsOf 4 tag.toNat).flatten ++
      ((pce.assoc.map fun tag => bitsOf 4 tag.toNat).flatten ++
        (pce.validCc.map taggedBits).flatten))))

/-- What stands before the padding. -/
def body (pce : ProgramConfigElement) : List Bool := pce.head ++ (pce.mixdowns ++ pce.elements)

/-- The bits of the program configuration element. -/
def encode (pce : ProgramConfigElement) : List Bool :=
  pce.body ++ (pce.padding ++ (bitsOf 8 pce.comment.length ++ bits pce.comment))

/-- The element may begin at a bit: the padding leads to the next byte. -/
def Fits (pce : ProgramConfigElement) (start : ℕ) : Prop :=
  pce.padding.length < 8 ∧ (start + pce.body.length + pce.padding.length) % 8 = 0

end ProgramConfigElement

/-- The encoding of an optional field that no flag stands before. -/
def optionalBits {width : ℕ} (field : Option (BitVec width)) : List Bool :=
  (field.map fun field => bitsOf width field.toNat).getD []

/-- A program configuration element in a header: in streams of constant rate, the fullness of the buffer
stands before it. -/
structure AdifElement where
  fullness : Option (BitVec 20)
  pce : ProgramConfigElement

namespace AdifElement

/-- The bits of the element. -/
def encode (element : AdifElement) : List Bool := optionalBits element.fullness ++ element.pce.encode

/-- The element may begin at a bit. -/
def Fits (element : AdifElement) (start : ℕ) : Prop :=
  element.pce.Fits (start + (optionalBits element.fullness).length)

end AdifElement

/-- An ADIF header. -/
structure AdifHeader where
  copyright : Option (BitVec 72)
  originalCopy : BitVec 1
  home : BitVec 1
  variableRate : Bool
  bitrate : BitVec 23
  elements : List AdifElement
  fullness : ∀ element ∈ elements, element.fullness.isNone = variableRate
  pos : 1 ≤ elements.length
  le : elements.length ≤ 16

namespace AdifHeader

/-- What stands before the elements. -/
def head (header : AdifHeader) : List Bool :=
  flaggedBits header.copyright ++ (bitsOf 1 header.originalCopy.toNat ++ (bitsOf 1 header.home.toNat ++
    (header.variableRate :: (bitsOf 23 header.bitrate.toNat ++
      bitsOf 4 (header.elements.length - 1)))))

/-- The bits of the header, the magic first. -/
def encode (header : AdifHeader) : List Bool :=
  bits aacAdif ++ (header.head ++ (header.elements.map AdifElement.encode).flatten)

/-- The elements are padded to the bytes of the file, one after another. -/
def Fits (header : AdifHeader) : Prop :=
  Chain (fun start (element : AdifElement) stop => element.Fits start ∧
    stop = start + element.encode.length) (32 + header.head.length) header.elements
      header.encode.length

end AdifHeader

/-! ### What the parser reads -/

section

variable {bytes : Bytes}

/-- A flag and its field are read. -/
theorem reads_readFlagged (width : ℕ) :
    Reads (bits bytes) (readFlagged bytes width) fun _ items _ =>
      ∃ field : Option (BitVec width), items = flaggedBits field := by
  refine ((reads_read (by decide)).bind fun flag => (reads_ignore width).when_ (flag = 1)).congr
    fun offset items u => ?_
  constructor
  · rintro ⟨flag, items₁, items₂, rfl, ⟨rfl, hlt⟩, hrest⟩
    split_ifs at hrest with hflag
    · obtain ⟨field, rfl⟩ := hrest
      exact ⟨some field, by rw [hflag]; rfl⟩
    · obtain rfl : flag = 0 := by omega
      exact ⟨none, by rw [hrest]; rfl⟩
  · rintro ⟨_ | field, rfl⟩
    · exact ⟨0, [false], [], rfl, ⟨rfl, by decide⟩, by rw [if_neg (by decide)]⟩
    · exact ⟨1, [true], _, rfl, ⟨rfl, by decide⟩, by rw [if_pos rfl]; exact ⟨field, rfl⟩⟩

/-- A tag is read. -/
theorem reads_readTagged :
    Reads (bits bytes) (readTagged bytes) fun _ items _ => ∃ element, items = taggedBits element := by
  refine ((reads_ignore 1).bind fun _ => reads_ignore 4).congr fun offset items u => ?_
  constructor
  · rintro ⟨-, items₁, items₂, rfl, ⟨flag, rfl⟩, tag, rfl⟩
    exact ⟨(flag.toNat.testBit 0, tag), rfl⟩
  · rintro ⟨⟨flag, tag⟩, rfl⟩
    exact ⟨(), [flag], bitsOf 4 tag.toNat, rfl, ⟨BitVec.ofBool flag, by cases flag <;> rfl⟩, tag, rfl⟩

/-- The fields of the head, and the counts among them. -/
theorem reads_readCounts :
    Reads (bits bytes) (readCounts bytes) fun _ items counts =>
      ∃ (tag : BitVec 4) (objectType : BitVec 2) (samplingFrequencyIndex : ℕ),
        samplingFrequencyIndex < 13 ∧ counts.front < 2 ^ 4 ∧ counts.side < 2 ^ 4 ∧
        counts.back < 2 ^ 4 ∧ counts.lfe < 2 ^ 2 ∧ counts.assoc < 2 ^ 3 ∧ counts.validCc < 2 ^ 4 ∧
        counts.front + counts.side + counts.back + counts.lfe ≠ 0 ∧
        items = bitsOf 4 tag.toNat ++ (bitsOf 2 objectType.toNat ++ (bitsOf 4 samplingFrequencyIndex ++
          (bitsOf 4 counts.front ++ (bitsOf 4 counts.side ++ (bitsOf 4 counts.back ++
            (bitsOf 2 counts.lfe ++ (bitsOf 3 counts.assoc ++ bitsOf 4 counts.validCc))))))) := by
  refine ((reads_ignore 4).bind fun _ => (reads_ignore 2).bind fun _ =>
    (reads_read (by decide)).bind fun sampling => (reads_read (by decide)).bind fun front =>
    (reads_read (by decide)).bind fun side => (reads_read (by decide)).bind fun back =>
    (reads_read (by decide)).bind fun lfe => (reads_read (by decide)).bind fun assoc =>
    (reads_read (by decide)).bind fun validCc =>
    (Reads.require (sampling < 13 ∧ front + side + back + lfe ≠ 0)).bind fun _ =>
    Reads.pure (⟨front, side, back, lfe, assoc, validCc⟩ : ChannelCounts)).congr
    fun offset items counts => ?_
  constructor
  · rintro ⟨-, _, _, rfl, ⟨tag, rfl⟩, -, _, _, rfl, ⟨objectType, rfl⟩, sampling, _, _, rfl, ⟨rfl, -⟩,
      front, _, _, rfl, ⟨rfl, hfront⟩, side, _, _, rfl, ⟨rfl, hside⟩, back, _, _, rfl, ⟨rfl, hback⟩,
      lfe, _, _, rfl, ⟨rfl, hlfe⟩, assoc, _, _, rfl, ⟨rfl, hassoc⟩, validCc, _, _, rfl, ⟨rfl, hcc⟩,
      -, _, _, rfl, ⟨rfl, hsampling, hchannels⟩, rfl, rfl⟩
    refine ⟨tag, objectType, sampling, hsampling, hfront, hside, hback, hlfe, hassoc, hcc, hchannels, ?_⟩
    rw [List.nil_append, List.append_nil]
  · rintro ⟨tag, objectType, sampling, hsampling, hfront, hside, hback, hlfe, hassoc, hcc, hchannels,
      rfl⟩
    refine ⟨(), _, _, rfl, ⟨tag, rfl⟩, (), _, _, rfl, ⟨objectType, rfl⟩, sampling, _, _, rfl,
      ⟨rfl, by omega⟩, _, _, _, rfl, ⟨rfl, hfront⟩, _, _, _, rfl, ⟨rfl, hside⟩, _, _, _, rfl,
      ⟨rfl, hback⟩, _, _, _, rfl, ⟨rfl, hlfe⟩, _, _, _, rfl, ⟨rfl, hassoc⟩, _, _, [],
      (List.append_nil _).symm, ⟨rfl, hcc⟩, (), [], [], rfl, ⟨rfl, hsampling, hchannels⟩, rfl, rfl⟩

/-- The mixdowns are read. -/
theorem reads_readMixdowns :
    Reads (bits bytes) (readMixdowns bytes) fun _ items _ =>
      ∃ (mono stereo : Option (BitVec 4)) (matrix : Option (BitVec 3)),
        items = flaggedBits mono ++ (flaggedBits stereo ++ flaggedBits matrix) := by
  refine ((reads_readFlagged 4).bind fun _ => (reads_readFlagged 4).bind fun _ =>
    reads_readFlagged 3).congr fun offset items u => ?_
  constructor
  · rintro ⟨-, _, _, rfl, ⟨mono, rfl⟩, -, _, _, rfl, ⟨stereo, rfl⟩, matrix, rfl⟩
    exact ⟨mono, stereo, matrix, rfl⟩
  · rintro ⟨mono, stereo, matrix, rfl⟩
    exact ⟨(), _, _, rfl, ⟨mono, rfl⟩, (), _, _, rfl, ⟨stereo, rfl⟩, matrix, rfl⟩

/-- As many elements of each kind as the counts say. -/
theorem reads_readChannels (counts : ChannelCounts) :
    Reads (bits bytes) (readChannels bytes counts) fun _ items _ =>
      ∃ (front side back validCc : List (Bool × BitVec 4)) (lfe assoc : List (BitVec 4)),
        (⟨front.length, side.length, back.length, lfe.length, assoc.length, validCc.length⟩ :
          ChannelCounts) = counts ∧
        items = (front.map taggedBits).flatten ++ ((side.map taggedBits).flatten ++
          ((back.map taggedBits).flatten ++ ((lfe.map fun tag => bitsOf 4 tag.toNat).flatten ++
            ((assoc.map fun tag => bitsOf 4 tag.toNat).flatten ++
              (validCc.map taggedBits).flatten)))) := by
  refine ((reads_readTagged.times_encode counts.front).bind fun _ =>
    (reads_readTagged.times_encode counts.side).bind fun _ =>
    (reads_readTagged.times_encode counts.back).bind fun _ =>
    ((reads_ignore 4).times_encode counts.lfe).bind fun _ =>
    ((reads_ignore 4).times_encode counts.assoc).bind fun _ =>
    reads_readTagged.times_encode counts.validCc).congr fun offset items u => ?_
  constructor
  · rintro ⟨-, _, _, rfl, ⟨front, hfront, rfl⟩, -, _, _, rfl, ⟨side, hside, rfl⟩, -, _, _, rfl,
      ⟨back, hback, rfl⟩, -, _, _, rfl, ⟨lfe, hlfe, rfl⟩, -, _, _, rfl, ⟨assoc, hassoc, rfl⟩,
      validCc, hcc, rfl⟩
    exact ⟨front, side, back, validCc, lfe, assoc, by rw [hfront, hside, hback, hlfe, hassoc, hcc], rfl⟩
  · rintro ⟨front, side, back, validCc, lfe, assoc, rfl, rfl⟩
    exact ⟨(), _, _, rfl, ⟨front, rfl, rfl⟩, (), _, _, rfl, ⟨side, rfl, rfl⟩, (), _, _, rfl,
      ⟨back, rfl, rfl⟩, (), _, _, rfl, ⟨lfe, rfl, rfl⟩, (), _, _, rfl, ⟨assoc, rfl, rfl⟩, validCc, rfl, rfl⟩

/-- The comment is read. -/
theorem reads_readComment :
    Reads (bits bytes) (readComment bytes) fun _ items _ => ∃ comment : Bytes,
      comment.length < 2 ^ 8 ∧ items = bitsOf 8 comment.length ++ bits comment := by
  refine ((reads_read (by decide)).bind fun commentBytes => reads_skip (commentBytes * 8)).congr
    fun offset items u => ?_
  constructor
  · rintro ⟨n, items₁, items₂, rfl, ⟨rfl, hlt⟩, hlength⟩
    obtain ⟨comment, rfl, rfl⟩ := exists_bits_eq hlength
    exact ⟨comment, hlt, rfl⟩
  · rintro ⟨comment, hlt, rfl⟩
    exact ⟨comment.length, _, _, rfl, ⟨rfl, hlt⟩, length_bits comment⟩

/-- The parser reads the program configuration elements. -/
theorem reads_parseProgramConfigElement :
    Reads (bits bytes) (parseProgramConfigElement bytes) fun offset items _ =>
      ∃ pce : ProgramConfigElement, items = pce.encode ∧ pce.Fits offset := by
  refine (reads_readCounts.bind fun counts => reads_readMixdowns.bind fun _ =>
    (reads_readChannels counts).bind fun _ => reads_alignToByte.bind fun _ => reads_readComment).congr
    fun offset items u => ?_
  constructor
  · rintro ⟨counts, head, _, rfl, hhead, -, mixdowns, _, rfl, ⟨mono, stereo, matrix, hmixdowns⟩,
      -, elements, _, rfl, ⟨front, side, back, validCc, lfe, assoc, rfl, helements⟩, -, padding, _, rfl,
      ⟨hshort, haligned⟩, comment, hcomment, rfl⟩
    obtain ⟨tag, objectType, sampling, hsampling, hfront, hside, hback, hlfe, hassoc, hcc, hchannels,
      hhead⟩ := hhead
    let pce : ProgramConfigElement := {
      tag := tag, objectType := objectType, samplingFrequencyIndex := ⟨sampling, hsampling⟩
      front := front, side := side, back := back, lfe := lfe, assoc := assoc, validCc := validCc
      monoMixdown := mono, stereoMixdown := stereo, matrixMixdown := matrix
      padding := padding, comment := comment
      front_lt := hfront, side_lt := hside, back_lt := hback, lfe_lt := hlfe, assoc_lt := hassoc
      validCc_lt := hcc, comment_lt := hcomment, channels := hchannels }
    have hbody : pce.body = head ++ (mixdowns ++ elements) := by
      rw [hhead, hmixdowns, helements]
      rfl
    refine ⟨pce, ?_, hshort, ?_⟩
    · rw [ProgramConfigElement.encode, hbody, List.append_assoc, List.append_assoc]
    · rw [hbody, List.length_append, List.length_append, ← Nat.add_assoc, ← Nat.add_assoc]
      exact haligned
  · rintro ⟨pce, rfl, hshort, haligned⟩
    refine ⟨⟨_, _, _, _, _, _⟩, pce.head, _, ?_,
      ⟨pce.tag, pce.objectType, pce.samplingFrequencyIndex, pce.samplingFrequencyIndex.2, pce.front_lt,
        pce.side_lt, pce.back_lt, pce.lfe_lt, pce.assoc_lt, pce.validCc_lt, pce.channels, rfl⟩,
      (), pce.mixdowns, _, rfl, ⟨pce.monoMixdown, pce.stereoMixdown, pce.matrixMixdown, rfl⟩,
      (), pce.elements, _, rfl,
      ⟨pce.front, pce.side, pce.back, pce.validCc, pce.lfe, pce.assoc, rfl, rfl⟩,
      (), pce.padding, _, rfl, ⟨hshort, ?_⟩, pce.comment, pce.comment_lt, rfl⟩
    · rw [ProgramConfigElement.encode, ProgramConfigElement.body, List.append_assoc, List.append_assoc]
    · rw [ProgramConfigElement.body, List.length_append, List.length_append, ← Nat.add_assoc,
        ← Nat.add_assoc] at haligned
      exact haligned

/-- The fullness of the buffer is read in streams of constant rate. -/
theorem reads_adifElement (bitstreamType : ℕ) :
    Reads (bits bytes) (do
        Reader.when_ (bitstreamType = 0) (BitReader.ignore bytes 20)
        parseProgramConfigElement bytes)
      fun offset items _ => ∃ element : AdifElement,
        items = element.encode ∧ element.Fits offset ∧
          element.fullness.isNone = decide (bitstreamType ≠ 0) := by
  refine (((reads_ignore 20).when_ (bitstreamType = 0)).bind fun _ =>
    reads_parseProgramConfigElement).congr fun offset items u => ?_
  constructor
  · rintro ⟨-, items₁, _, rfl, hfullness, pce, rfl, hfits⟩
    split_ifs at hfullness with hzero
    · obtain ⟨fullness, rfl⟩ := hfullness
      exact ⟨⟨some fullness, pce⟩, rfl, hfits, by simp [hzero]⟩
    · exact ⟨⟨none, pce⟩, by rw [hfullness]; rfl, by rw [hfullness] at hfits; exact hfits, by simp [hzero]⟩
  · rintro ⟨⟨fullness, pce⟩, rfl, hfits, hnone⟩
    refine ⟨(), optionalBits fullness, _, rfl, ?_, pce, rfl, hfits⟩
    cases fullness with
    | none =>
        rw [if_neg (of_decide_eq_true hnone.symm)]
        rfl
    | some fullness =>
        rw [if_pos (not_not.mp (of_decide_eq_false hnone.symm))]
        exact ⟨fullness, rfl⟩

/-- The elements of a header, one behind the other. -/
theorem reads_adifElements (bitstreamType n : ℕ) :
    Reads (bits bytes) (Reader.times n do
        Reader.when_ (bitstreamType = 0) (BitReader.ignore bytes 20)
        parseProgramConfigElement bytes)
      fun offset items _ => ∃ elements : List AdifElement, elements.length = n ∧
        items = (elements.map AdifElement.encode).flatten ∧
        (∀ element ∈ elements, element.fullness.isNone = decide (bitstreamType ≠ 0)) ∧
        Chain (fun start (element : AdifElement) stop => element.Fits start ∧
          stop = start + element.encode.length) offset elements (offset + items.length) := by
  refine ((reads_adifElement bitstreamType).times n).congr fun offset items u => ?_
  have hchain : ∀ pieces stop, Chain (fun start piece stop => (∃ element : AdifElement,
        piece = element.encode ∧ element.Fits start ∧
          element.fullness.isNone = decide (bitstreamType ≠ 0)) ∧ stop = start + piece.length)
        offset pieces stop ↔
      ∃ elements, pieces = elements.map AdifElement.encode ∧
        (∀ element ∈ elements, element.fullness.isNone = decide (bitstreamType ≠ 0)) ∧
        Chain (fun start (element : AdifElement) stop => element.Fits start ∧
          stop = start + element.encode.length) offset elements stop := by
    intro pieces stop
    simp only [← chain_and, ← chain_map]
    refine chain_congr fun start piece stop => ?_
    constructor
    · rintro ⟨⟨element, rfl, hfits, hnone⟩, rfl⟩
      exact ⟨element, rfl, hnone, hfits, rfl⟩
    · rintro ⟨element, rfl, hnone, hfits, rfl⟩
      exact ⟨⟨element, rfl, hfits, hnone⟩, rfl⟩
  constructor
  · rintro ⟨pieces, rfl, rfl, h⟩
    obtain ⟨elements, rfl, hnone, helements⟩ := (hchain _ _).mp h
    exact ⟨elements, List.length_map .. |>.symm, rfl, hnone, helements⟩
  · rintro ⟨elements, rfl, rfl, hnone, helements⟩
    exact ⟨_, List.length_map .., rfl, (hchain _ _).mpr ⟨elements, rfl, hnone, helements⟩⟩

/-- Behind the magic, the validator reads a header. -/
theorem reads_readAdifHeader :
    Reads (bits bytes) (readAdifHeader bytes) fun offset items _ =>
      ∃ header : AdifHeader, items = header.head ++ (header.elements.map AdifElement.encode).flatten ∧
        Chain (fun start (element : AdifElement) stop => element.Fits start ∧
          stop = start + element.encode.length) (offset + header.head.length) header.elements
          (offset + items.length) := by
  refine ((reads_readFlagged 72).bind fun _ => (reads_ignore 1).bind fun _ =>
    (reads_ignore 1).bind fun _ => (reads_read (by decide)).bind fun bitstreamType =>
    (reads_ignore 23).bind fun _ => (reads_read (by decide)).bind fun count =>
    reads_adifElements bitstreamType (count + 1)).congr fun offset items u => ?_
  constructor
  · rintro ⟨-, items₁, _, rfl, ⟨copyright, hcopyright⟩, -, items₂, _, rfl, ⟨originalCopy, horiginal⟩,
      -, items₃, _, rfl, ⟨home, hhome⟩, bitstreamType, items₄, _, rfl, ⟨htype, hbit⟩, -, items₅, _, rfl,
      ⟨bitrate, hbitrate⟩, count, items₆, _, rfl, ⟨hcount, hlt⟩, elements, hlength, rfl, hnone, hchain⟩
    let header : AdifHeader := {
      copyright := copyright, originalCopy := originalCopy, home := home
      variableRate := decide (bitstreamType ≠ 0), bitrate := bitrate, elements := elements
      fullness := hnone, pos := by omega, le := by omega }
    have hrate : items₄ = [header.variableRate] := by
      rw [htype]
      obtain rfl | rfl : bitstreamType = 0 ∨ bitstreamType = 1 := by omega
      · rfl
      · rfl
    have hlast : elements.length - 1 = count := by omega
    have hhead : header.head = items₁ ++ (items₂ ++ (items₃ ++ (items₄ ++ (items₅ ++ items₆)))) := by
      rw [hcopyright, horiginal, hhome, hrate, hbitrate, hcount, ← hlast]
      rfl
    refine ⟨header, ?_, ?_⟩
    · rw [hhead]
      simp only [List.append_assoc, header]
    · rw [hhead]
      simp only [List.length_append, Nat.add_assoc, header] at hchain ⊢
      exact hchain
  · rintro ⟨header, rfl, hchain⟩
    have hrate : [header.variableRate] = bitsOf 1 header.variableRate.toNat := by
      cases header.variableRate <;> rfl
    have hpos := header.pos
    have hle := header.le
    refine ⟨(), flaggedBits header.copyright, _, ?_, ⟨header.copyright, rfl⟩, (),
      bitsOf 1 header.originalCopy.toNat, _, rfl, ⟨header.originalCopy, rfl⟩, (),
      bitsOf 1 header.home.toNat, _, rfl, ⟨header.home, rfl⟩, header.variableRate.toNat,
      [header.variableRate], _, rfl, ⟨hrate, header.variableRate.toNat_lt⟩, (),
      bitsOf 23 header.bitrate.toNat, _, rfl, ⟨header.bitrate, rfl⟩, header.elements.length - 1,
      bitsOf 4 (header.elements.length - 1), (header.elements.map AdifElement.encode).flatten, rfl,
      ⟨rfl, by omega⟩, header.elements, by omega, rfl, ?_, ?_⟩
    · simp only [AdifHeader.head, List.append_assoc, List.cons_append, List.nil_append]
    · intro element hmem
      rw [header.fullness element hmem]
      cases header.variableRate <;> rfl
    · simp only [AdifHeader.head, List.length_append, List.length_cons, List.length_nil, Nat.zero_add,
        Nat.add_assoc, Nat.add_comm, Nat.add_left_comm] at hchain ⊢
      exact hchain

end

/-! ### Sizes -/

/-- Codes of one width. -/
theorem length_flatten_map {γ : Type} {encode : γ → List Bool} {width : ℕ}
    (h : ∀ c, (encode c).length = width) (l : List γ) :
    (l.map encode).flatten.length = l.length * width := by
  induction l with
  | nil => simp
  | cons c l ih =>
      rw [List.map_cons, List.flatten_cons, List.length_append, h, ih, List.length_cons, Nat.succ_mul,
        Nat.add_comm]

/-- A flag and its field are short. -/
theorem length_flaggedBits_le {width : ℕ} (field : Option (BitVec width)) :
    (flaggedBits field).length ≤ width + 1 := by
  cases field with
  | none => exact Nat.le_add_left 1 width
  | some field => rw [flaggedBits, List.length_cons, length_bitsOf]

/-- A program configuration element is short. -/
theorem ProgramConfigElement.length_encode_le {pce : ProgramConfigElement} (h : pce.padding.length < 8) :
    pce.encode.length ≤ 2500 := by
  have htag : ∀ element : Bool × BitVec 4, (taggedBits element).length = 5 := fun element => by
    rw [taggedBits, List.length_cons, length_bitsOf]
  have hfield : ∀ tag : BitVec 4, (bitsOf 4 tag.toNat).length = 4 := fun tag => length_bitsOf ..
  have hmono := length_flaggedBits_le pce.monoMixdown
  have hstereo := length_flaggedBits_le pce.stereoMixdown
  have hmatrix := length_flaggedBits_le pce.matrixMixdown
  have hfront := pce.front_lt
  have hside := pce.side_lt
  have hback := pce.back_lt
  have hlfe := pce.lfe_lt
  have hassoc := pce.assoc_lt
  have hcc := pce.validCc_lt
  have hcomment := pce.comment_lt
  simp only [encode, body, head, mixdowns, elements, List.length_append, length_bitsOf, length_bits,
    length_flatten_map htag, length_flatten_map hfield]
  omega

namespace AdifHeader

variable {header : AdifHeader}

/-- Every element has its padding. -/
theorem fits_of_mem (h : header.Fits) {element : AdifElement} (hmem : element ∈ header.elements) :
    element.pce.padding.length < 8 := by
  have hand : ∀ start (element : AdifElement) stop,
      element.Fits start ∧ stop = start + element.encode.length ↔
        element.pce.padding.length < 8 ∧ element.Fits start ∧ stop = start + element.encode.length :=
    fun start element stop => ⟨fun h => ⟨h.1.1, h⟩, And.right⟩
  exact (chain_and.mp ((chain_congr hand).mp h)).1 element hmem

/-- No header comes near the bytes that are inspected. -/
theorem length_encode_le (h : header.Fits) : header.encode.length ≤ aacAdifInspectionBytes * 8 := by
  have helement : ∀ element ∈ header.elements, element.encode.length ≤ 2520 := by
    intro element hmem
    have hpce := ProgramConfigElement.length_encode_le (fits_of_mem h hmem)
    have hfullness : (optionalBits element.fullness).length ≤ 20 := by
      cases element.fullness with
      | none => exact Nat.zero_le _
      | some fullness => exact Nat.le_of_eq (length_bitsOf ..)
    rw [AdifElement.encode, List.length_append]
    omega
  have hflatten : ∀ l : List AdifElement, (∀ element ∈ l, element.encode.length ≤ 2520) →
      (l.map AdifElement.encode).flatten.length ≤ l.length * 2520 := by
    intro l hl
    induction l with
    | nil => exact Nat.zero_le _
    | cons element l ih =>
        rw [List.forall_mem_cons] at hl
        have hrest := ih hl.2
        rw [List.map_cons, List.flatten_cons, List.length_append, List.length_cons]
        omega
  have hall := hflatten header.elements helement
  have hle := header.le
  have hcopyright := length_flaggedBits_le header.copyright
  have hmagic : (bits aacAdif).length = 32 := by rw [length_bits]; rfl
  simp only [encode, head, List.length_append, List.length_cons, length_bitsOf, hmagic,
    aacAdifInspectionBytes]
  omega

/-- A header ends with a byte. -/
theorem length_encode_mod (h : header.Fits) : header.encode.length % 8 = 0 := by
  have hstep : ∀ start (element : AdifElement), element.Fits start →
      (start + element.encode.length) % 8 = 0 := by
    rintro start element ⟨-, hmod⟩
    rw [AdifElement.encode, ProgramConfigElement.encode]
    simp only [List.length_append, length_bitsOf, length_bits]
    omega
  have hpos := header.pos
  unfold Fits at h
  cases helements : header.elements with
  | nil => rw [helements] at hpos; cases hpos
  | cons element rest =>
      rw [helements] at h
      obtain ⟨t, ⟨hfits, rfl⟩, hrest⟩ := h
      refine hrest.invariant (P := fun stop => stop % 8 = 0) (hstep _ _ hfits) ?_
      rintro start element' stop - ⟨hfits', rfl⟩
      exact hstep _ _ hfits'

end AdifHeader

/-! ### Files with a header -/

/-- The magic has 32 bits. -/
theorem length_bits_aacAdif : (bits aacAdif).length = 32 := by
  rw [length_bits]
  rfl

/-- Behind the magic, the validator goes over a header. -/
theorem readAdifHeader_iff {start : Bytes} (hmagic : start.take 4 = aacAdif) {offset : ℕ} :
    readAdifHeader start 32 = some ((), offset) ↔ ∃ (header : AdifHeader) (after : List Bool),
      header.Fits ∧ bits start = header.encode ++ after ∧ offset = header.encode.length := by
  have hstart : bits start = bits aacAdif ++ (bits start).drop 32 := by
    rw [← hmagic, bits_take, List.take_append_drop]
  have hlength : 32 ≤ (bits start).length := by
    rw [hstart, List.length_append, length_bits_aacAdif]
    exact Nat.le_add_right ..
  have hencode : ∀ header : AdifHeader, header.encode.length = 32 +
      (header.head ++ (header.elements.map AdifElement.encode).flatten).length := fun header => by
    rw [AdifHeader.encode, List.length_append, length_bits_aacAdif]
  rw [reads_readAdifHeader 32 hlength () offset]
  constructor
  · rintro ⟨items, after, hdrop, rfl, header, rfl, hchain⟩
    rw [← hencode] at hchain
    refine ⟨header, after, hchain, ?_, (hencode header).symm⟩
    rw [hstart, hdrop, AdifHeader.encode]
    simp only [List.append_assoc]
  · rintro ⟨header, after, hfits, hbits, rfl⟩
    refine ⟨_, after, ?_, hencode header, header, rfl, ?_⟩
    · rw [hbits, AdifHeader.encode, List.append_assoc, List.drop_left' length_bits_aacAdif]
    · rw [← hencode]
      exact hfits

/-- A header begins with the magic. -/
theorem take_four_of_bits {file : Bytes} {header : AdifHeader} {after : List Bool}
    (h : bits file = header.encode ++ after) : file.take 4 = aacAdif := by
  refine bits_injective ?_
  rw [bits_take, h, AdifHeader.encode, List.append_assoc]
  exact List.take_left' length_bits_aacAdif

/-- The inspected part of a file begins as the file does. -/
theorem take_four_inspected (file : Bytes) : (file.take aacAdifInspectionBytes).take 4 = file.take 4 :=
  List.take_take

/-- The bytes that the header of a file takes, where the inspected part of the file holds a header. -/
def adifHeaderBytes (file : Bytes) : Option ℕ :=
  if file.take 4 = aacAdif then
    (readAdifHeader (file.take aacAdifInspectionBytes) 32).map fun read => BitReader.byteOffset read.2
  else none

/-- The header takes `n` bytes just when the first `n` bytes of the file are one: it is enough to inspect
the part that is inspected. -/
theorem adifHeaderBytes_eq_some {file : Bytes} {n : ℕ} : adifHeaderBytes file = some n ↔
    n ≤ file.length ∧ ∃ header : AdifHeader, header.Fits ∧ bits (file.take n) = header.encode := by
  unfold adifHeaderBytes
  constructor
  · intro h
    split_ifs at h with hmagic
    obtain ⟨⟨⟨⟩, offset⟩, hread, rfl⟩ := Option.map_eq_some_iff.mp h
    rw [← take_four_inspected] at hmagic
    obtain ⟨header, after, hfits, hbits, rfl⟩ := (readAdifHeader_iff hmagic).mp hread
    obtain ⟨k, hk⟩ := Nat.dvd_of_mod_eq_zero (AdifHeader.length_encode_mod hfits)
    have hbytes : BitReader.byteOffset header.encode.length = k := by
      rw [BitReader.byteOffset, hk]
      omega
    have hsum := congrArg List.length hbits
    rw [length_bits, List.length_append, List.length_take] at hsum
    have htake : file.take k = (file.take aacAdifInspectionBytes).take k := by
      rw [List.take_take, Nat.min_eq_left (by omega)]
    rw [hbytes]
    refine ⟨by omega, header, hfits, ?_⟩
    rw [htake, bits_take, hbits, List.take_left' (by omega)]
  · rintro ⟨hn, header, hfits, hbits⟩
    have hlength := congrArg List.length hbits
    rw [length_bits, List.length_take_of_le hn] at hlength
    have hle := AdifHeader.length_encode_le hfits
    have hstart : bits (file.take aacAdifInspectionBytes) =
        header.encode ++ bits ((file.take aacAdifInspectionBytes).drop n) := by
      conv_lhs => rw [← List.take_append_drop n (file.take aacAdifInspectionBytes)]
      rw [bits_append, List.take_take, Nat.min_eq_left (by omega), hbits]
    have hmagic := take_four_of_bits hstart
    rw [← take_four_inspected, if_pos hmagic,
      (readAdifHeader_iff hmagic).mpr ⟨header, _, hfits, hstart, rfl⟩, Option.map_some,
      BitReader.byteOffset, ← hlength]
    refine congrArg some ?_
    dsimp only
    omega

/-- A header is longer than the magic. -/
theorem four_le_adifHeaderBytes {file : Bytes} {n : ℕ} (h : adifHeaderBytes file = some n) : 4 ≤ n := by
  obtain ⟨hn, header, -, hbits⟩ := adifHeaderBytes_eq_some.mp h
  have hlength := congrArg List.length hbits
  rw [length_bits, List.length_take_of_le hn, AdifHeader.encode, List.length_append,
    length_bits_aacAdif] at hlength
  omega

/-- The verdict: there is a header, and something behind it. -/
theorem matchesAdifStructure_eq (file : Bytes) :
    matchesAdifStructure file = true ↔ ∃ n, adifHeaderBytes file = some n ∧ n < file.length := by
  unfold matchesAdifStructure adifHeaderBytes
  rw [readExactly_start]
  dsimp only
  rw [take_four_inspected]
  by_cases hmagic : file.take 4 = aacAdif
  · rw [if_neg (not_not.mpr hmagic), if_pos hmagic]
    cases readAdifHeader (file.take aacAdifInspectionBytes) 32 with
    | none => exact iff_of_false (by rintro ⟨⟩) (by rintro ⟨n, ⟨⟩, -⟩)
    | some read => simp
  · rw [if_pos hmagic, if_neg hmagic]
    exact iff_of_false (by rintro ⟨⟩) (by rintro ⟨n, ⟨⟩, -⟩)

/-- An ADIF file is accepted just when it begins with a header and goes on behind it. -/
theorem matchesAdifStructure_iff (file : Bytes) :
    matchesAdifStructure file = true ↔ ∃ (header : AdifHeader) (data : Bytes), header.Fits ∧
      data ≠ [] ∧ bits file = header.encode ++ bits data := by
  rw [matchesAdifStructure_eq]
  constructor
  · rintro ⟨n, hheader, hlt⟩
    obtain ⟨-, header, hfits, hbits⟩ := adifHeaderBytes_eq_some.mp hheader
    refine ⟨header, file.drop n, hfits, List.ne_nil_of_length_pos ?_, ?_⟩
    · rw [List.length_drop]
      omega
    · rw [← hbits, ← bits_append, List.take_append_drop]
  · rintro ⟨header, data, hfits, hdata, hbits⟩
    have hsum := congrArg List.length hbits
    have hmod := AdifHeader.length_encode_mod hfits
    have hpos := List.length_pos_iff.mpr hdata
    rw [List.length_append, length_bits, length_bits] at hsum
    refine ⟨header.encode.length / 8, adifHeaderBytes_eq_some.mpr ⟨by omega, header, hfits, ?_⟩, by omega⟩
    rw [bits_take, hbits, List.take_left' (by omega)]

/-- The part that is inspected is enough: a header that is in the file is read from it. -/
theorem readAdifHeader_inspected {file : Bytes} (hmagic : file.take 4 = aacAdif) :
    readAdifHeader (file.take aacAdifInspectionBytes) 32 = readAdifHeader file 32 := by
  have hmagic' := (take_four_inspected file).trans hmagic
  have hstays : StaysInside readAdifHeader := .of_reads fun bytes => reads_readAdifHeader
  cases hfile : readAdifHeader file 32 with
  | some read =>
      obtain ⟨⟨⟩, offset⟩ := read
      obtain ⟨header, after, hfits, hbits, rfl⟩ := (readAdifHeader_iff hmagic).mp hfile
      refine (readAdifHeader_iff hmagic').mpr
        ⟨header, after.take (aacAdifInspectionBytes * 8 - header.encode.length), hfits, ?_, rfl⟩
      rw [bits_take, hbits, List.take_append,
        List.take_of_length_le (AdifHeader.length_encode_le hfits)]
  | none =>
      cases hinspected : readAdifHeader (file.take aacAdifInspectionBytes) 32 with
      | none => rfl
      | some read =>
          have hmagicLength := congrArg List.length hmagic'
          have hfour : aacAdif.length = 4 := rfl
          rw [hfour, List.length_take] at hmagicLength
          have hread := (hstays _ 32 _ _ (by omega) hinspected).2 (file.drop aacAdifInspectionBytes)
          rw [List.take_append_drop, hfile] at hread
          cases hread

/-! ## ADTS frames -/

/-- An ADTS frame. The configuration is the private bit, the channel configuration and the flags up to
the length; `fullness` is what follows the length in the header. Without protection the payload is what
follows the header, else it begins with two bytes of a checksum. -/
structure AdtsFrame where
  mpeg2 : Bool
  protectionAbsent : Bool
  profile : Fin 4
  samplingFrequencyIndex : Fin 13
  configuration : BitVec 8
  fullness : BitVec 13
  payload : Bytes
  length_lt : 7 + payload.length < 2 ^ 13
  payload_lt : (if protectionAbsent then 0 else 2) < payload.length

namespace AdtsFrame

/-- The length that the header says. -/
def length (frame : AdtsFrame) : ℕ := 7 + frame.payload.length

/-- `1111 1111 | 1111 v 00 p | pp ssss cc | cccc cc ll | llll llll | lll fffff | ffff ffff`. -/
def header (frame : AdtsFrame) : Bytes :=
  [0xff, UInt8.ofNat (0xf0 + frame.mpeg2.toNat * 8 + frame.protectionAbsent.toNat),
    UInt8.ofNat (frame.profile * 64 + frame.samplingFrequencyIndex * 4 + frame.configuration.toNat / 64),
    UInt8.ofNat (frame.configuration.toNat % 64 * 4 + frame.length / 2048),
    UInt8.ofNat (frame.length / 8),
    UInt8.ofNat (frame.length % 8 * 32 + frame.fullness.toNat / 256),
    UInt8.ofNat frame.fullness.toNat]

/-- The bytes of a frame. -/
def encode (frame : AdtsFrame) : Bytes := frame.header ++ frame.payload

/-- A frame is as long as it says. -/
theorem length_encode (frame : AdtsFrame) : frame.encode.length = frame.length := by
  rw [encode, List.length_append]
  rfl

/-- A frame has bytes. -/
theorem encode_ne_nil (frame : AdtsFrame) : frame.encode ≠ [] := List.cons_ne_nil _ _

end AdtsFrame

/-- The length, as it is put together from three bytes. -/
theorem frameBytes_eq (header3 header4 header5 : UInt8) :
    ((header3.toNat &&& 0x03) <<< 11) ||| (header4.toNat <<< 3) ||| (header5.toNat >>> 5) =
      header3.toNat % 4 * 2048 + header4.toNat * 8 + header5.toNat / 32 := by
  have h4 := header4.toNat_lt
  have h5 := header5.toNat_lt
  have hlow : header5.toNat >>> 5 = header5.toNat / 32 := Nat.shiftRight_eq_div_pow ..
  have hmid : header4.toNat <<< 3 = header4.toNat * 8 := Nat.shiftLeft_eq ..
  have hhigh : (header3.toNat &&& 0x03) <<< 11 = header3.toNat % 4 * 2048 := by
    rw [Nat.shiftLeft_eq]
    exact congrArg (· * 2048) (and_two_pow_sub_one _ 2)
  have hright : header4.toNat <<< 3 ||| header5.toNat >>> 5 = header4.toNat * 8 + header5.toNat / 32 := by
    rw [← Nat.shiftLeft_add_eq_or_of_lt (by rw [hlow]; omega), hmid, hlow]
  rw [Nat.or_assoc, hright, ← Nat.shiftLeft_add_eq_or_of_lt (by omega), hhigh, Nat.add_assoc]

/-- The second byte, by its fields. -/
theorem header1_spec : ∀ mpeg2 protectionAbsent : Bool,
    (UInt8.ofNat (0xf0 + mpeg2.toNat * 8 + protectionAbsent.toNat)).toNat &&& 0xf0 = 0xf0 ∧
    (UInt8.ofNat (0xf0 + mpeg2.toNat * 8 + protectionAbsent.toNat)).toNat &&& 0x06 = 0 ∧
    ((UInt8.ofNat (0xf0 + mpeg2.toNat * 8 + protectionAbsent.toNat)).toNat &&& 0x01 ≠ 0 ↔
      protectionAbsent = true) := by
  decide

/-- A second byte is made of its fields. -/
theorem exists_header1 : ∀ n < 256, n &&& 0xf0 = 0xf0 → n &&& 0x06 = 0 →
    n = 0xf0 + (n.testBit 3).toNat * 8 + (decide (n &&& 0x01 ≠ 0)).toNat := by
  decide +kernel

/-- The index, without shifts. -/
theorem samplingFrequencyIndex_eq (n : ℕ) : (n >>> 2) &&& 0x0f = n / 4 % 16 := by
  rw [Nat.shiftRight_eq_div_pow]
  exact and_two_pow_sub_one _ 4

/-- A round of the walk goes over a frame. -/
theorem scans_adtsFrame (file : Bytes) :
    Scans (adtsFrame file) file fun _ item _ => ∃ frame : AdtsFrame, item = frame.encode where
  sound {s offset length s'} h := by
    unfold adtsFrame at h
    split at h
    swap
    · cases h
    rename_i header0 header1 header2 header3 header4 header5 header6 hheader
    obtain ⟨-, after, hdrop⟩ := readExactly_eq_some.mp hheader
    dsimp only at h
    rw [frameBytes_eq, samplingFrequencyIndex_eq] at h
    generalize hpa : decide (header1.toNat &&& 0x01 ≠ 0) = protectionAbsent at h
    generalize htotal : header3.toNat % 4 * 2048 + header4.toNat * 8 + header5.toNat / 32 = total at h
    generalize hbytes : (if protectionAbsent = true then 7 else 9) = headerBytes at h
    split_ifs at h with hsync hsampling hlength hchecksum
    cases h
    obtain ⟨rfl, hones, hlayer⟩ : header0 = 0xff ∧ header1.toNat &&& 0xf0 = 0xf0 ∧
        header1.toNat &&& 0x06 = 0 := by
      simpa only [not_or, not_not] using hsync
    obtain ⟨hlong, hend⟩ := not_or.mp hlength
    have hseven : 7 ≤ headerBytes := by
      rw [← hbytes]
      split_ifs <;> omega
    have hpayload : (after.take (length - 7)).length = length - 7 := by
      have hsum := congrArg List.length hdrop
      simp only [List.length_drop, List.length_append, List.length_cons, List.length_nil] at hsum
      rw [List.length_take]
      omega
    have hlt := header1.toNat_lt
    have hheader2 := header2.toNat_lt
    have hheader3 := header3.toNat_lt
    have hheader4 := header4.toNat_lt
    have hheader5 := header5.toNat_lt
    have hheader6 := header6.toNat_lt
    let frame : AdtsFrame := {
      mpeg2 := header1.toNat.testBit 3, protectionAbsent := protectionAbsent
      profile := ⟨header2.toNat / 64, by omega⟩
      samplingFrequencyIndex := ⟨header2.toNat / 4 % 16, Nat.lt_of_not_le hsampling⟩
      configuration := BitVec.ofNat 8 (header2.toNat % 4 * 64 + header3.toNat / 4)
      fullness := BitVec.ofNat 13 (header5.toNat % 32 * 256 + header6.toNat)
      payload := after.take (length - 7)
      length_lt := by omega
      payload_lt := by
        rw [hpayload]
        split_ifs at hbytes ⊢ <;> omega }
    have hframe : frame.length = length := by
      rw [AdtsFrame.length, hpayload]
      omega
    have hheader1 := exists_header1 header1.toNat header1.toNat_lt hones hlayer
    rw [hpa] at hheader1
    have hheaderEq : frame.header = [0xff, header1, header2, header3, header4, header5, header6] := by
      simp only [AdtsFrame.header, hframe, frame, List.cons.injEq, and_true, ← UInt8.toNat_inj,
        UInt8.toNat_ofNat', BitVec.toNat_ofNat]
      refine ⟨trivial, ?_, ?_, ?_, ?_, ?_, ?_⟩
      all_goals omega
    refine ⟨frame.encode, after.drop (length - 7), ?_, by rw [frame.length_encode, hframe], frame, rfl⟩
    rw [AdtsFrame.encode, hheaderEq, List.append_assoc, List.take_append_drop]
    exact hdrop
  complete {s offset item after s'} hdrop hitem := by
    obtain ⟨frame, rfl⟩ := hitem
    have hheader : readExactly file 7 offset = some frame.header := by
      rw [AdtsFrame.encode, List.append_assoc] at hdrop
      exact readExactly_of_drop hdrop
    obtain ⟨hones, hlayer, hspec⟩ := header1_spec frame.mpeg2 frame.protectionAbsent
    have hpa : decide ((UInt8.ofNat (0xf0 + frame.mpeg2.toNat * 8 +
        frame.protectionAbsent.toNat)).toNat &&& 0x01 ≠ 0) = frame.protectionAbsent :=
      Bool.eq_iff_iff.mpr (decide_eq_true_iff.trans hspec)
    have hprofile := frame.profile.isLt
    have hindex := frame.samplingFrequencyIndex.isLt
    have hconfiguration := frame.configuration.isLt
    have hfullness := frame.fullness.isLt
    have hpayload := frame.payload_lt
    have hlength : frame.length < 2 ^ 13 := frame.length_lt
    have hseven : frame.length = 7 + frame.payload.length := rfl
    have hend : offset + frame.length ≤ file.length := by
      have hsum := congrArg List.length hdrop
      rw [List.length_drop, List.length_append, frame.length_encode] at hsum
      omega
    have hsampling : (UInt8.ofNat (frame.profile * 64 + frame.samplingFrequencyIndex * 4 +
        frame.configuration.toNat / 64)).toNat / 4 % 16 = frame.samplingFrequencyIndex := by
      rw [UInt8.toNat_ofNat']
      omega
    have htotal : (UInt8.ofNat (frame.configuration.toNat % 64 * 4 + frame.length / 2048)).toNat % 4 * 2048 +
        (UInt8.ofNat (frame.length / 8)).toNat * 8 +
        (UInt8.ofNat (frame.length % 8 * 32 + frame.fullness.toNat / 256)).toNat / 32 = frame.length := by
      rw [UInt8.toNat_ofNat', UInt8.toNat_ofNat', UInt8.toNat_ofNat']
      omega
    unfold adtsFrame
    rw [hheader]
    dsimp only [AdtsFrame.header]
    rw [frameBytes_eq, samplingFrequencyIndex_eq, hsampling, htotal, hpa, hones, hlayer, if_neg, if_neg,
      if_neg, if_neg, frame.length_encode]
    · rintro ⟨hprotected, hnone⟩
      rw [if_neg hprotected] at hpayload
      have hshort := takeExactly_eq_none.mp hnone
      rw [List.length_drop] at hshort
      omega
    · rintro (hle | hover)
      · split_ifs at hle hpayload <;> omega
      · omega
    · exact Nat.not_le.mpr hindex
    · rintro (h | h | h) <;> exact h rfl
  ne_nil {s item s'} hitem := by
    obtain ⟨frame, rfl⟩ := hitem
    exact frame.encode_ne_nil

/-- No round ends the walk with a success. -/
theorem adtsFrame_ne_error_true (file : Bytes) (s : Unit) (offset : ℕ) :
    adtsFrame file s offset ≠ .error true := by
  unfold adtsFrame
  dsimp only
  repeat' split
  all_goals rintro ⟨⟩

/-- ADTS frames, up to the end of the file. -/
structure AdtsAudio where
  frames : List AdtsFrame
  pos : 1 ≤ frames.length
  lt : frames.length < aacMaxFrames

/-- The bytes of the file. -/
def AdtsAudio.encode (audio : AdtsAudio) : Bytes := (audio.frames.map AdtsFrame.encode).flatten

/-! ## Files -/

/-- What follows the magic follows from the first four bytes. -/
theorem matchesAacStructure_eq (file : Bytes) : matchesAacStructure file = true ↔ 5 ≤ file.length ∧
    (if file.take 4 = aacAdif then matchesAdifStructure file
      else scanAll (adtsFrame file) file.length aacMaxFrames () 0) = true := by
  unfold matchesAacStructure
  rw [Nat.min_comm, readExactly_start]
  dsimp only
  rcases Nat.lt_or_ge file.length 5 with hshort | hlong
  · rw [if_pos hshort]
    exact iff_of_false (by rintro ⟨⟩) fun h => absurd h.1 (Nat.not_le.mpr hshort)
  · rw [if_neg (Nat.not_lt.mpr hlong), and_iff_right hlong]

/-- The walk over the frames goes through what frames encode to. -/
theorem adts_iff {file : Bytes} : scanAll (adtsFrame file) file.length aacMaxFrames () 0 = true ↔
    ∃ audio : AdtsAudio, audio.encode = file := by
  rw [scanAll_encode_iff (scans_adtsFrame file) (adtsFrame_ne_error_true file) (Nat.zero_le _)]
  constructor
  · rintro ⟨frames, hframes, hpos, hlt⟩
    exact ⟨⟨frames, hpos, hlt⟩, hframes.symm⟩
  · rintro ⟨⟨frames, hpos, hlt⟩, hframes⟩
    exact ⟨frames, hframes.symm, hpos, hlt⟩

/-- The encodings of ADTS frames, and the files that begin with an ADIF header and go on behind it. -/
theorem matchesAacStructure_iff (file : Bytes) :
    matchesAacStructure file = true ↔
      (∃ audio : AdtsAudio, audio.encode = file) ∨
      ∃ (header : AdifHeader) (data : Bytes), header.Fits ∧ data ≠ [] ∧
        bits file = header.encode ++ bits data := by
  -- The first byte tells the two apart.
  have hframe : ∀ audio : AdtsAudio, audio.encode.take 4 ≠ aacAdif ∧ 5 ≤ audio.encode.length := by
    rintro ⟨_ | ⟨frame, frames⟩, hpos, hlt⟩
    · cases hpos
    · have hlength := frame.length_encode
      have hseven : frame.length = 7 + frame.payload.length := rfl
      have hencode : AdtsAudio.encode ⟨frame :: frames, hpos, hlt⟩ =
          frame.encode ++ (frames.map AdtsFrame.encode).flatten := rfl
      refine ⟨fun h => ?_, ?_⟩
      · rw [hencode, AdtsFrame.encode, AdtsFrame.header, List.cons_append, List.cons_append,
          List.take_succ_cons] at h
        exact absurd (List.cons.inj h).1 (by decide)
      · rw [hencode, List.length_append]
        omega
  have hheader : ∀ (header : AdifHeader) (data : Bytes), data ≠ [] →
      bits file = header.encode ++ bits data → file.take 4 = aacAdif ∧ 5 ≤ file.length := by
    intro header data hdata hbits
    have hpos := List.length_pos_iff.mpr hdata
    refine ⟨take_four_of_bits hbits, ?_⟩
    have hsum := congrArg List.length hbits
    rw [AdifHeader.encode, List.length_append, List.length_append, length_bits_aacAdif, length_bits,
      length_bits] at hsum
    omega
  rw [matchesAacStructure_eq]
  split_ifs with hmagic
  · rw [matchesAdifStructure_iff]
    constructor
    · exact fun h => .inr h.2
    · rintro (⟨audio, rfl⟩ | ⟨header, data, hfits, hdata, hbits⟩)
      · exact absurd hmagic (hframe audio).1
      · exact ⟨(hheader header data hdata hbits).2, header, data, hfits, hdata, hbits⟩
  · rw [adts_iff]
    constructor
    · exact fun h => .inl h.2
    · rintro (⟨audio, rfl⟩ | ⟨header, data, hfits, hdata, hbits⟩)
      · exact ⟨(hframe audio).2, audio, rfl⟩
      · exact absurd (hheader header data hdata hbits).1 hmagic

/-- **The files that are accepted** are the encodings of ADTS frames, and those that begin with an ADIF
header, padded as they stand, and go on behind it. -/
theorem aac_structure (file : Bytes) :
    matchesAacStructure file = true ↔
      (∃ audio : AdtsAudio, audio.encode = file) ∨
      ∃ (header : AdifHeader) (data : Bytes), header.Fits ∧ data ≠ [] ∧
        bits file = header.encode ++ bits data :=
  matchesAacStructure_iff file

/-- **AAC files.** Those that are accepted are the encodings of ADTS frames, and those with an ADIF header
and something behind it. Behind the magic, the verdict is whether there is a header and the file goes on
behind it; a header is one by its own bytes, and it is read as if the whole file were inspected. The bit
reader fails just where bits are missing, and reads nothing behind its bytes. -/
theorem aac_files :
    (∀ file : Bytes, matchesAacStructure file = true ↔
      (∃ audio : AdtsAudio, audio.encode = file) ∨
      ∃ (header : AdifHeader) (data : Bytes), header.Fits ∧ data ≠ [] ∧
        bits file = header.encode ++ bits data) ∧
    (∀ file : Bytes, file.take 4 = aacAdif →
      (matchesAacStructure file = true ↔ ∃ n, adifHeaderBytes file = some n ∧ n < file.length)) ∧
    (∀ (file file' : Bytes) (n : ℕ), adifHeaderBytes file = some n → file'.take n = file.take n →
      adifHeaderBytes file' = some n) ∧
    (∀ file : Bytes, file.take 4 = aacAdif →
      readAdifHeader (file.take aacAdifInspectionBytes) 32 = readAdifHeader file 32) ∧
    (∀ (bytes : Bytes) (length offset : ℕ),
      BitReader.read bytes length offset = none ↔ bytes.length * 8 < offset + length) ∧
    (∀ length, StaysInside fun bytes => BitReader.read bytes length) ∧
    (∀ length, StaysInside fun bytes => BitReader.skip bytes length) ∧
    (StaysInside fun _ => BitReader.alignToByte) ∧
    StaysInside readAdifHeader := by
  refine ⟨matchesAacStructure_iff, fun file hmagic => ?_, fun file file' n hheader htake => ?_,
    fun file hmagic => readAdifHeader_inspected hmagic, fun bytes length offset => read_eq_none,
    staysInside_read, fun length => .of_reads fun bytes => reads_skip length,
    .of_reads fun bytes => reads_alignToByte, .of_reads fun bytes => reads_readAdifHeader⟩
  · rw [matchesAacStructure_eq, if_pos hmagic, matchesAdifStructure_eq]
    refine and_iff_right_of_imp ?_
    rintro ⟨n, hheader, hlt⟩
    have hfour := four_le_adifHeaderBytes hheader
    omega
  · obtain ⟨hn, header, hfits, hbits⟩ := adifHeaderBytes_eq_some.mp hheader
    have hlength := congrArg List.length htake
    rw [List.length_take_of_le hn, List.length_take] at hlength
    refine adifHeaderBytes_eq_some.mpr ⟨by omega, header, hfits, ?_⟩
    rw [htake, hbits]

end ApiWhatsApp
