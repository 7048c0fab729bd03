import ApiWhatsApp.Media.Checksums

/-!
# PNG files

`matchesPngStructure` of `media/media-image-structure.ts`: the signature, and chunks up to one `IEND`
that ends the file.

* The loop keeps what it has seen of the chunks in a `PngState`; `PngState.admits` is what it asks of
  the next chunk, `PngState.update` what it notes of it.
* `PngImage` is an image: a header, the chunks in the middle with the rules on palette and data, and
  the end.
* **`png_structure`** — the files that are accepted are the encodings of a `PngImage`.
-/

namespace ApiWhatsApp

open Library

/-! ## The validator -/

/-- Source: `PNG_SIGNATURE`. -/
def pngSignature : Bytes := [0x89, 0x50, 0x4e, 0x47, 0x0d, 0x0a, 0x1a, 0x0a]

/-- Source: `PNG_MAX_CHUNKS`. -/
def pngMaxChunks : ℕ := 10000

/-- The type of the header. -/
def ihdrType : Bytes := asciiBytes "IHDR"

/-- The type of the palette. -/
def plteType : Bytes := asciiBytes "PLTE"

/-- The type of image data. -/
def idatType : Bytes := asciiBytes "IDAT"

/-- The type of the end. -/
def iendType : Bytes := asciiBytes "IEND"

/-- Source: `PNG_CRITICAL_CHUNKS`. -/
def pngCriticalChunks : List Bytes := [ihdrType, plteType, idatType, iendType]

/-- Source: `PNG_COLOR_GRAYSCALE`. -/
def pngColorGrayscale : UInt8 := 0

/-- Source: `PNG_COLOR_TRUECOLOR`. -/
def pngColorTruecolor : UInt8 := 2

/-- Source: `PNG_COLOR_INDEXED`. -/
def pngColorIndexed : UInt8 := 3

/-- Source: `PNG_COLOR_GRAYSCALE_ALPHA`. -/
def pngColorGrayscaleAlpha : UInt8 := 4

/-- Source: `PNG_COLOR_TRUECOLOR_ALPHA`. -/
def pngColorTruecolorAlpha : UInt8 := 6

/-- Source: `validatePngIhdr`. -/
def validatePngIhdr (ihdr : Bytes) : Bool :=
  let width := readBE ihdr 4 0
  let height := readBE ihdr 4 4
  let bitDepth := ihdr.getD 8 0
  let colorType := ihdr.getD 9 255
  let compressionMethod := ihdr.getD 10 255
  let filterMethod := ihdr.getD 11 255
  let interlaceMethod := ihdr.getD 12 255
  if width = 0 ∨ height = 0 ∨ compressionMethod ≠ 0 ∨ filterMethod ≠ 0 ∨
      interlaceMethod ≠ 0 ∧ interlaceMethod ≠ 1 then false
  else if colorType = pngColorGrayscale then [1, 2, 4, 8, 16].contains bitDepth
  else if colorType = pngColorTruecolor ∨ colorType = pngColorGrayscaleAlpha ∨
      colorType = pngColorTruecolorAlpha then bitDepth = 8 || bitDepth = 16
  else if colorType = pngColorIndexed then [1, 2, 4, 8].contains bitDepth
  else false

/-- Upper-case letters. -/
def isUpperCase (value : UInt8) : Bool := value ≥ 0x41 && value ≤ 0x5a

/-- Lower-case letters. -/
def isLowerCase (value : UInt8) : Bool := value ≥ 0x61 && value ≤ 0x7a

/-- Source: `isPngChunkType`. -/
def isPngChunkType (type : Bytes) : Bool :=
  if type.length ≠ 4 then false
  else if type.any fun value => !(isUpperCase value || isLowerCase value) then false
  else isUpperCase (type.getD 2 0)

/-- Source: `isUnknownCriticalPngChunk`. -/
def isUnknownCriticalPngChunk (type : Bytes) : Bool :=
  isUpperCase (type.getD 0 0) && !pngCriticalChunks.contains type

/-- What the loop in `matchesPngStructure` keeps. -/
structure PngState where
  chunkCount : ℕ
  seenIhdr : Bool
  seenPlte : Bool
  seenIdat : Bool
  idatClosed : Bool
  colorType : Option UInt8
  bitDepth : Option UInt8

namespace PngState

/-- Before the first chunk. -/
def initial : PngState := ⟨0, false, false, false, false, none, none⟩

/-- What the loop makes of a chunk's place and type when it is, or is not, the header. -/
def header (s : PngState) (type : Bytes) (dataLength : ℕ) (ihdr : Option Bytes) : Option PngState :=
  if type = ihdrType then
    if s.seenIhdr ∨ dataLength ≠ 13 then none
    else
      match ihdr with
      | none => none
      | some ihdr =>
          if !validatePngIhdr ihdr then none
          else some { s with bitDepth := ihdr[8]?, colorType := ihdr[9]?, seenIhdr := true }
  else if !s.seenIhdr then none
  else some s

/-- What it makes of a palette. -/
def palette (s : PngState) (type : Bytes) (dataLength : ℕ) : Option PngState :=
  if type = plteType then
    if s.seenPlte ∨ s.seenIdat ∨ dataLength = 0 ∨ dataLength > 768 ∨ dataLength % 3 ≠ 0 ∨
        s.colorType = some pngColorGrayscale ∨ s.colorType = some pngColorGrayscaleAlpha ∨
        s.colorType = some pngColorIndexed ∧
          s.bitDepth.elim true (fun bitDepth => dataLength / 3 > 2 ^ bitDepth.toNat) then none
    else some { s with seenPlte := true }
  else some s

/-- What it makes of data. -/
def data (s : PngState) (type : Bytes) : Option PngState :=
  if type = idatType then
    if s.idatClosed ∨ s.colorType = some pngColorIndexed ∧ !s.seenPlte then none
    else some { s with seenIdat := true }
  else if s.seenIdat ∧ type ≠ iendType then some { s with idatClosed := true }
  else some s

end PngState

/-- One round of the loop in `matchesPngStructure`; the file is accepted, or not, at `IEND`. -/
def pngChunk (file : Bytes) (s : PngState) (offset : ℕ) : Except Bool (ℕ × PngState) :=
  match readExactly file 8 offset with
  | none => .error false
  | some header =>
      let dataLength := readBE header 4 0
      let type := (header.drop 4).take 4
      let dataOffset := offset + 8
      let crcOffset := dataOffset + dataLength
      let nextOffset := crcOffset + 4
      if !isPngChunkType type then .error false
      else if nextOffset > file.length then .error false
      else if s.chunkCount = 0 ∧ type ≠ ihdrType then .error false
      else if isUnknownCriticalPngChunk type then .error false
      else
        match ((s.header type dataLength (readExactly file dataLength dataOffset)).bind fun s =>
            s.palette type dataLength).bind fun s => s.data type with
        | none => .error false
        | some s =>
            if !validatePngChunkCrc file type dataOffset dataLength crcOffset then .error false
            else if type = iendType then
              .error (dataLength = 0 && s.seenIdat && nextOffset = file.length)
            else .ok (12 + dataLength, { s with chunkCount := s.chunkCount + 1 })

/-- Source: `matchesPngStructure`. -/
def matchesPngStructure (file : Bytes) : Bool :=
  if file.length < pngSignature.length + 12 then false
  else if readExactly file pngSignature.length 0 ≠ some pngSignature then false
  else
    match scan (pngChunk file) file.length pngMaxChunks .initial pngSignature.length with
    | .error result => result
    | .ok _ => false

/-! ## Chunks -/

/-- A chunk: its type and data; length and checksum follow from them. -/
structure PngChunk where
  type : Bytes
  data : Bytes
  type_length : type.length = 4
  data_lt : data.length < 2 ^ 32

namespace PngChunk

/-- The checksum of a chunk. -/
def crc (chunk : PngChunk) : ℕ := (pngReference (chunk.type ++ chunk.data)).toNat

/-- The bytes of a chunk. -/
def encode (chunk : PngChunk) : Bytes :=
  bigEndianBytes 4 chunk.data.length ++ chunk.type ++ chunk.data ++ bigEndianBytes 4 chunk.crc

/-- The length of a chunk. -/
theorem length_encode (chunk : PngChunk) : chunk.encode.length = 12 + chunk.data.length := by
  simp only [encode, List.length_append, length_bigEndianBytes, chunk.type_length]
  omega

end PngChunk

/-! ## One chunk -/

namespace PngState

/-- What the loop asks of the next chunk, its form apart. -/
structure Admits (s : PngState) (chunk : PngChunk) : Prop where
  type : isPngChunkType chunk.type = true
  known : isUnknownCriticalPngChunk chunk.type = false
  first : s.chunkCount = 0 → chunk.type = ihdrType
  header : chunk.type = ihdrType →
    s.seenIhdr = false ∧ chunk.data.length = 13 ∧ validatePngIhdr chunk.data = true
  behind : chunk.type ≠ ihdrType → s.seenIhdr = true
  palette : chunk.type = plteType → s.seenPlte = false ∧ s.seenIdat = false ∧
    chunk.data.length ≠ 0 ∧ chunk.data.length ≤ 768 ∧ chunk.data.length % 3 = 0 ∧
    s.colorType ≠ some pngColorGrayscale ∧ s.colorType ≠ some pngColorGrayscaleAlpha ∧
    (s.colorType = some pngColorIndexed →
      ∃ bitDepth ∈ s.bitDepth, chunk.data.length / 3 ≤ 2 ^ bitDepth.toNat)
  data : chunk.type = idatType →
    s.idatClosed = false ∧ (s.colorType = some pngColorIndexed → s.seenPlte = true)

/-- What the loop notes of a chunk. -/
def update (s : PngState) (chunk : PngChunk) : PngState where
  chunkCount := s.chunkCount + 1
  seenIhdr := s.seenIhdr || chunk.type = ihdrType
  seenPlte := s.seenPlte || chunk.type = plteType
  seenIdat := s.seenIdat || chunk.type = idatType
  idatClosed := s.idatClosed ||
    s.seenIdat && chunk.type ≠ idatType && chunk.type ≠ iendType
  colorType := if chunk.type = ihdrType then chunk.data[9]? else s.colorType
  bitDepth := if chunk.type = ihdrType then chunk.data[8]? else s.bitDepth

/-- The flags after a chunk. -/
def afterFlags (s : PngState) (chunk : PngChunk) : Option PngState :=
  ((s.header chunk.type chunk.data.length (some chunk.data)).bind fun s =>
    s.palette chunk.type chunk.data.length).bind fun s => s.data chunk.type

/-- The four types differ. -/
theorem ihdr_ne : ihdrType ≠ plteType ∧ ihdrType ≠ idatType ∧ ihdrType ≠ iendType ∧
    plteType ≠ idatType ∧ plteType ≠ iendType ∧ idatType ≠ iendType := by decide

/-- A header comes first, and once. -/
theorem header_eq_some {s s' : PngState} {type data : Bytes} {dataLength : ℕ} :
    s.header type dataLength (some data) = some s' ↔
      (type = ihdrType → s.seenIhdr = false ∧ dataLength = 13 ∧ validatePngIhdr data = true) ∧
      (type ≠ ihdrType → s.seenIhdr = true) ∧
      s' = { s with
        seenIhdr := s.seenIhdr || type = ihdrType
        colorType := if type = ihdrType then data[9]? else s.colorType
        bitDepth := if type = ihdrType then data[8]? else s.bitDepth } := by
  unfold header
  by_cases htype : type = ihdrType
  · simp only [htype, if_true, decide_true, Bool.or_true, forall_const, ne_eq, not_true_eq_false,
      false_imp_iff, true_and]
    by_cases hguard : s.seenIhdr = true ∨ dataLength ≠ 13
    · rw [if_pos hguard]
      refine iff_of_false (fun h => nomatch h) ?_
      rintro ⟨⟨hseen, hlength, -⟩, -⟩
      exact hguard.elim (fun h => nomatch h.symm.trans hseen) fun h => h hlength
    · obtain ⟨hseen, hlength⟩ := not_or.mp hguard
      rw [if_neg hguard]
      cases validatePngIhdr data with
      | false => simp
      | true => simpa [Bool.not_eq_true _ ▸ hseen, not_not.mp hlength] using eq_comm
  · simp only [htype, if_false, decide_false, Bool.or_false, false_imp_iff, ne_eq, not_false_eq_true,
      forall_const, true_and]
    cases hseen : s.seenIhdr with
    | false => simp
    | true =>
        simp only [Bool.not_true, Bool.false_eq_true, if_false, Option.some.injEq, true_and]
        rw [eq_comm, ← hseen]

/-- A palette comes once, before the data and in its size. -/
theorem palette_eq_some {s s' : PngState} {type : Bytes} {dataLength : ℕ} :
    s.palette type dataLength = some s' ↔
      (type = plteType → s.seenPlte = false ∧ s.seenIdat = false ∧
        dataLength ≠ 0 ∧ dataLength ≤ 768 ∧ dataLength % 3 = 0 ∧
        s.colorType ≠ some pngColorGrayscale ∧ s.colorType ≠ some pngColorGrayscaleAlpha ∧
        (s.colorType = some pngColorIndexed →
          ∃ bitDepth ∈ s.bitDepth, dataLength / 3 ≤ 2 ^ bitDepth.toNat)) ∧
      s' = { s with seenPlte := s.seenPlte || type = plteType } := by
  have hdepth : s.bitDepth.elim true (fun bitDepth => decide (dataLength / 3 > 2 ^ bitDepth.toNat)) =
      true ↔ ¬ ∃ bitDepth ∈ s.bitDepth, dataLength / 3 ≤ 2 ^ bitDepth.toNat := by
    cases s.bitDepth <;> simp
  unfold palette
  split_ifs with htype hguard
  · refine iff_of_false (fun h => nomatch h) ?_
    rintro ⟨h, -⟩
    obtain ⟨h1, h2, h3, h4, h5, h6, h7, h8⟩ := h htype
    rw [hdepth] at hguard
    simp only [h1, h2, Bool.false_eq_true, false_or] at hguard
    rcases hguard with hguard | hguard | hguard | hguard | hguard | ⟨hindexed, hguard⟩
    · exact h3 hguard
    · omega
    · exact hguard h5
    · exact h6 hguard
    · exact h7 hguard
    · exact hguard (h8 hindexed)
  · rw [hdepth] at hguard
    simp only [not_or, Bool.not_eq_true, not_and, not_not] at hguard
    obtain ⟨h1, h2, h3, h4, h5, h6, h7, h8⟩ := hguard
    simp only [htype, decide_true, Bool.or_true, forall_const, Option.some.injEq]
    rw [eq_comm, and_iff_right ⟨h1, h2, h3, by omega, by omega, h6, h7, h8⟩]
  · simp only [htype, decide_false, Bool.or_false, false_imp_iff, true_and, Option.some.injEq]
    exact eq_comm

/-- Data comes in one piece, behind the palette of an indexed image. -/
theorem data_eq_some {s s' : PngState} {type : Bytes} :
    s.data type = some s' ↔
      (type = idatType →
        s.idatClosed = false ∧ (s.colorType = some pngColorIndexed → s.seenPlte = true)) ∧
      s' = { s with
        seenIdat := s.seenIdat || type = idatType
        idatClosed := s.idatClosed || s.seenIdat && type ≠ idatType && type ≠ iendType } := by
  unfold data
  split_ifs with htype hguard hclosed
  · refine iff_of_false (fun h => nomatch h) ?_
    rintro ⟨h, -⟩
    obtain ⟨hopen, hindexed⟩ := h htype
    rcases hguard with hguard | ⟨hcolor, hguard⟩
    · rw [hopen] at hguard
      cases hguard
    · rw [hindexed hcolor] at hguard
      cases hguard
  · obtain ⟨hopen, hindexed⟩ := not_or.mp hguard
    have hplte : s.colorType = some pngColorIndexed → s.seenPlte = true := by
      intro hcolor
      cases hseen : s.seenPlte with
      | true => rfl
      | false => exact absurd ⟨hcolor, by rw [hseen]; rfl⟩ hindexed
    simp only [htype, decide_true, Bool.or_true, forall_const, Option.some.injEq, ne_eq,
      not_true_eq_false, decide_false, Bool.and_false, Bool.false_and, Bool.or_false]
    rw [eq_comm, and_iff_right ⟨Bool.not_eq_true _ ▸ hopen, hplte⟩]
  · simp only [htype, hclosed.1, hclosed.2, false_imp_iff, true_and, Option.some.injEq, ne_eq,
      not_false_eq_true, decide_true, Bool.and_true, Bool.or_true, Bool.true_or]
    rw [eq_comm, ← hclosed.1]
  · have hsame : (s.seenIdat && decide (type ≠ idatType) && decide (type ≠ iendType)) = false := by
      cases hseen : s.seenIdat with
      | false => rfl
      | true =>
          have hiend : type = iendType := not_not.mp fun hne => hclosed ⟨hseen, hne⟩
          simp [hiend]
    rw [hsame]
    simp only [htype, false_imp_iff, true_and, Option.some.injEq, decide_false, Bool.or_false]
    exact eq_comm

/-- The flags go on exactly for a chunk that is admitted. -/
theorem afterFlags_eq_some {s s' : PngState} {chunk : PngChunk}
    (htype : isPngChunkType chunk.type = true)
    (hknown : isUnknownCriticalPngChunk chunk.type = false)
    (hfirst : s.chunkCount = 0 → chunk.type = ihdrType) :
    s.afterFlags chunk = some s' ↔
      s.Admits chunk ∧ s' = { s.update chunk with chunkCount := s.chunkCount } := by
  obtain ⟨h1, h2, -, h4, -, -⟩ := ihdr_ne
  unfold afterFlags
  simp only [Option.bind_eq_some_iff, header_eq_some, palette_eq_some, data_eq_some]
  constructor
  · rintro ⟨_, ⟨_, ⟨hheader, hbehind, rfl⟩, hpalette, rfl⟩, hdata, rfl⟩
    refine ⟨⟨htype, hknown, hfirst, hheader, hbehind, fun hplte => ?_, fun hidat => ?_⟩, rfl⟩
    · have hne : chunk.type ≠ ihdrType := fun h => h1 (h.symm.trans hplte)
      simpa only [if_neg hne] using hpalette hplte
    · have hne : chunk.type ≠ ihdrType := fun h => h2 (h.symm.trans hidat)
      have hne' : chunk.type ≠ plteType := fun h => h4 (h.symm.trans hidat)
      simpa only [if_neg hne, decide_eq_false hne', Bool.or_false] using hdata hidat
  · rintro ⟨hadmits, rfl⟩
    refine ⟨_, ⟨_, ⟨hadmits.header, hadmits.behind, rfl⟩, fun hplte => ?_, rfl⟩, fun hidat => ?_,
      rfl⟩
    · have hne : chunk.type ≠ ihdrType := fun h => h1 (h.symm.trans hplte)
      simpa only [if_neg hne] using hadmits.palette hplte
    · have hne : chunk.type ≠ ihdrType := fun h => h2 (h.symm.trans hidat)
      have hne' : chunk.type ≠ plteType := fun h => h4 (h.symm.trans hidat)
      simpa only [if_neg hne, decide_eq_false hne', Bool.or_false] using hadmits.data hidat

end PngState

/-! ## Reading chunks -/

/-- A type has four bytes. -/
theorem isPngChunkType_length {type : Bytes} (h : isPngChunkType type = true) : type.length = 4 := by
  unfold isPngChunkType at h
  split_ifs at h with hlength
  exact not_not.mp hlength

/-- What the loop does where a chunk stands. -/
theorem pngChunk_of_drop {file after : Bytes} {s : PngState} {offset : ℕ} {chunk : PngChunk}
    (hdrop : file.drop offset = chunk.encode ++ after) :
    pngChunk file s offset =
      if !isPngChunkType chunk.type then .error false
      else if s.chunkCount = 0 ∧ chunk.type ≠ ihdrType then .error false
      else if isUnknownCriticalPngChunk chunk.type then .error false
      else
        match s.afterFlags chunk with
        | none => .error false
        | some s =>
            if chunk.type = iendType then
              .error (chunk.data.length = 0 && s.seenIdat && after = [])
            else .ok (chunk.encode.length, { s with chunkCount := s.chunkCount + 1 }) := by
  have hwidth := length_bigEndianBytes 4 chunk.data.length
  have hheader : readExactly file 8 offset =
      some (bigEndianBytes 4 chunk.data.length ++ chunk.type) := by
    refine readExactly_eq_some.mpr ⟨by rw [List.length_append, hwidth, chunk.type_length],
      chunk.data ++ bigEndianBytes 4 chunk.crc ++ after, ?_⟩
    rw [hdrop, PngChunk.encode]
    simp only [List.append_assoc]
  have hlength : readBE (bigEndianBytes 4 chunk.data.length ++ chunk.type) 4 0 =
      chunk.data.length := by
    rw [readBE, List.drop_zero, List.take_left' hwidth, bigEndian_bigEndianBytes chunk.data_lt]
  have htype : ((bigEndianBytes 4 chunk.data.length ++ chunk.type).drop 4).take 4 = chunk.type := by
    rw [List.drop_left' hwidth, ← chunk.type_length, List.take_length]
  have hdata : file.drop (offset + 8) = chunk.data ++ (bigEndianBytes 4 chunk.crc ++ after) := by
    rw [← List.drop_drop, hdrop, PngChunk.encode, List.append_assoc, List.append_assoc,
      List.drop_left']
    rw [List.length_append, hwidth, chunk.type_length]
  have hcrc : file.drop (offset + 8 + chunk.data.length) = bigEndianBytes 4 chunk.crc ++ after := by
    rw [← List.drop_drop, hdata, List.drop_left]
  have hread := readExactly_of_drop hdata
  have hvalid : validatePngChunkCrc file chunk.type (offset + 8) chunk.data.length
      (offset + 8 + chunk.data.length) = true := by
    refine validatePngChunkCrc_iff.mpr ⟨chunk.data, bigEndianBytes 4 chunk.crc, hread,
      readExactly_eq_some.mpr ⟨length_bigEndianBytes .., after, hcrc⟩, ?_⟩
    exact bigEndian_bigEndianBytes (pngReference (chunk.type ++ chunk.data)).isLt
  have hend : offset + 8 + chunk.data.length + 4 + after.length = file.length := by
    have hsum := congrArg List.length hcrc
    rw [List.length_drop, List.length_append, length_bigEndianBytes] at hsum
    omega
  have hlast : (offset + 8 + chunk.data.length + 4 = file.length) ↔ after = [] := by
    rw [← List.length_eq_zero_iff]
    omega
  unfold pngChunk
  rw [hheader]
  dsimp only
  rw [hlength, htype, hread, hvalid, if_neg (show ¬ offset + 8 + chunk.data.length + 4 > file.length by
    omega), decide_eq_decide.mpr hlast, PngChunk.length_encode]
  rfl

/-- Where the loop does not refuse, a chunk stands. -/
theorem exists_chunk {file : Bytes} {s : PngState} {offset : ℕ}
    (h : pngChunk file s offset ≠ .error false) :
    ∃ chunk after, file.drop offset = PngChunk.encode chunk ++ after := by
  unfold pngChunk at h
  split at h
  · exact absurd rfl h
  rename_i header hheader
  dsimp only at h
  obtain ⟨htype, h⟩ := ite_ne_left_iff.mp h
  obtain ⟨hend, h⟩ := ite_ne_left_iff.mp h.symm
  obtain ⟨-, h⟩ := ite_ne_left_iff.mp h.symm
  obtain ⟨-, h⟩ := ite_ne_left_iff.mp h.symm
  replace h := h.symm
  split at h
  · exact absurd rfl h
  obtain ⟨hvalid, -⟩ := ite_ne_left_iff.mp h
  simp only [Bool.not_eq_true', Bool.not_eq_false] at hvalid htype
  obtain ⟨data, crc, hdata, hcrc, hvalue⟩ := validatePngChunkCrc_iff.mp hvalid
  obtain ⟨hheaderLength, rest, hdrop⟩ := readExactly_eq_some.mp hheader
  obtain ⟨hdataLength, rest', hdrop'⟩ := readExactly_eq_some.mp hdata
  obtain ⟨hcrcLength, after, hafter⟩ := readExactly_eq_some.mp hcrc
  -- The file goes on with the data, and then with the checksum.
  have hrest : rest = data ++ (crc ++ after) := by
    have hbehind : file.drop (offset + 8) = rest := by
      rw [← List.drop_drop, hdrop, ← hheaderLength, List.drop_left]
    rw [← List.drop_drop, hdrop', ← hdataLength, List.drop_left] at hafter
    rw [← hbehind, hdrop', hafter]
  have hfield : (header.take 4).length = 4 := by
    rw [List.length_take_of_le]
    omega
  have hwidth : bigEndianBytes 4 (readBE header 4 0) = header.take 4 := by
    rw [readBE, List.drop_zero]
    conv_lhs => arg 1; rw [← hfield]
    exact bigEndianBytes_bigEndian _
  have hlt : data.length < 2 ^ 32 := by
    have hbound := bigEndian_lt (header.take 4)
    rw [hfield] at hbound
    rw [hdataLength, readBE, List.drop_zero]
    exact hbound
  refine ⟨⟨(header.drop 4).take 4, data, isPngChunkType_length htype, hlt⟩, after, ?_⟩
  have hsum : bigEndianBytes 4 (pngReference ((header.drop 4).take 4 ++ data)).toNat = crc := by
    rw [← hvalue, ← hcrcLength]
    exact bigEndianBytes_bigEndian crc
  have hsplit : header = header.take 4 ++ (header.drop 4).take 4 := by
    have htail : (header.drop 4).length ≤ 4 := by
      rw [List.length_drop]
      omega
    rw [List.take_of_length_le htail, List.take_append_drop]
  rw [PngChunk.encode, PngChunk.crc]
  dsimp only
  rw [hsum, hdataLength, hwidth, ← hsplit, hdrop, hrest]
  simp only [List.append_assoc]

/-- What the loop does with a chunk that it admits, and that it refuses the others. -/
theorem pngChunk_of_admits {file after : Bytes} {s : PngState} {offset : ℕ} {chunk : PngChunk}
    (hdrop : file.drop offset = chunk.encode ++ after) (hadmits : s.Admits chunk) :
    pngChunk file s offset =
      if chunk.type = iendType then
        .error (chunk.data.length = 0 && (s.update chunk).seenIdat && after = [])
      else .ok (chunk.encode.length, s.update chunk) := by
  have hflags := (PngState.afterFlags_eq_some hadmits.type hadmits.known hadmits.first).mpr
    ⟨hadmits, rfl⟩
  have hfirst : ¬ (s.chunkCount = 0 ∧ chunk.type ≠ ihdrType) := fun h => h.2 (hadmits.first h.1)
  rw [pngChunk_of_drop hdrop, hadmits.type, hadmits.known, hflags, if_neg hfirst]
  rfl

/-- A chunk that is not refused is admitted. -/
theorem admits_of_pngChunk {file after : Bytes} {s : PngState} {offset : ℕ} {chunk : PngChunk}
    (hdrop : file.drop offset = chunk.encode ++ after) (h : pngChunk file s offset ≠ .error false) :
    s.Admits chunk := by
  rw [pngChunk_of_drop hdrop] at h
  obtain ⟨htype, h⟩ := ite_ne_left_iff.mp h
  obtain ⟨hfirst, h⟩ := ite_ne_left_iff.mp h.symm
  obtain ⟨hknown, h⟩ := ite_ne_left_iff.mp h.symm
  simp only [Bool.not_eq_true', Bool.not_eq_false, Bool.not_eq_true] at htype hknown
  replace h := h.symm
  split at h
  · exact absurd rfl h
  rename_i hflags
  have hcount : s.chunkCount = 0 → chunk.type = ihdrType :=
    fun hzero => not_not.mp fun hne => hfirst ⟨hzero, hne⟩
  exact ((PngState.afterFlags_eq_some htype hknown hcount).mp hflags).1

/-- A round of the walk goes over a chunk that is admitted. -/
theorem pngChunk_eq_ok {file : Bytes} {s s' : PngState} {offset length : ℕ} :
    pngChunk file s offset = .ok (length, s') ↔ ∃ chunk after,
      file.drop offset = PngChunk.encode chunk ++ after ∧ chunk.encode.length = length ∧
        chunk.type ≠ iendType ∧ s.Admits chunk ∧ s' = s.update chunk := by
  constructor
  · intro h
    have hne : pngChunk file s offset ≠ .error false := fun hfalse => nomatch h.symm.trans hfalse
    obtain ⟨chunk, after, hdrop⟩ := exists_chunk hne
    have hadmits := admits_of_pngChunk hdrop hne
    rw [pngChunk_of_admits hdrop hadmits] at h
    split_ifs at h with hiend
    cases h
    exact ⟨chunk, after, hdrop, rfl, hiend, hadmits, rfl⟩
  · rintro ⟨chunk, after, hdrop, rfl, hiend, hadmits, rfl⟩
    rw [pngChunk_of_admits hdrop hadmits, if_neg hiend]

/-- The walk ends with the end chunk, at the end of the file. -/
theorem pngChunk_eq_true {file : Bytes} {s : PngState} {offset : ℕ} :
    pngChunk file s offset = .error true ↔ ∃ chunk,
      file.drop offset = PngChunk.encode chunk ∧ chunk.type = iendType ∧ chunk.data = [] ∧
        s.Admits chunk ∧ (s.update chunk).seenIdat = true := by
  constructor
  · intro h
    have hne : pngChunk file s offset ≠ .error false := fun hfalse => nomatch h.symm.trans hfalse
    obtain ⟨chunk, after, hdrop⟩ := exists_chunk hne
    have hadmits := admits_of_pngChunk hdrop hne
    rw [pngChunk_of_admits hdrop hadmits] at h
    split_ifs at h with hiend
    have hverdict := Except.error.inj h
    simp only [Bool.and_eq_true, decide_eq_true_eq, List.length_eq_zero_iff] at hverdict
    obtain ⟨⟨hdata, hidat⟩, rfl⟩ := hverdict
    exact ⟨chunk, by rw [hdrop, List.append_nil], hiend, hdata, hadmits, hidat⟩
  · rintro ⟨chunk, hdrop, hiend, hdata, hadmits, hidat⟩
    have hdrop' : file.drop offset = chunk.encode ++ [] := by rw [hdrop, List.append_nil]
    rw [pngChunk_of_admits hdrop' hadmits, if_pos hiend, hdata, hidat]
    rfl

/-- A chunk has bytes. -/
theorem PngChunk.encode_ne_nil (chunk : PngChunk) : chunk.encode ≠ [] := by
  refine List.ne_nil_of_length_pos ?_
  rw [chunk.length_encode]
  omega

/-- A round of the walk goes over a chunk. -/
theorem scans_pngChunk (file : Bytes) :
    Scans (pngChunk file) file fun s item s' => ∃ chunk, item = PngChunk.encode chunk ∧
      (chunk.type ≠ iendType ∧ s.Admits chunk) ∧ s' = s.update chunk where
  sound {s offset length s'} h := by
    obtain ⟨chunk, after, hdrop, hlength, hiend, hadmits, rfl⟩ := pngChunk_eq_ok.mp h
    exact ⟨_, after, hdrop, hlength, chunk, rfl, ⟨hiend, hadmits⟩, rfl⟩
  complete {s offset item after s'} hdrop hitem := by
    obtain ⟨chunk, rfl, ⟨hiend, hadmits⟩, rfl⟩ := hitem
    exact pngChunk_eq_ok.mpr ⟨chunk, after, hdrop, rfl, hiend, hadmits, rfl⟩
  ne_nil {s item s'} hitem := by
    obtain ⟨chunk, rfl, -⟩ := hitem
    exact chunk.encode_ne_nil

/-! ## Images -/

/-- The pairs of colour type and bit depth. -/
def pngDepths : List (UInt8 × UInt8) :=
  [(0, 1), (0, 2), (0, 4), (0, 8), (0, 16), (2, 8), (2, 16), (3, 1), (3, 2), (3, 4), (3, 8), (4, 8),
    (4, 16), (6, 8), (6, 16)]

/-- The data of a header. -/
structure ValidIhdr (data : Bytes) : Prop where
  length : data.length = 13
  width : 0 < bigEndian (data.take 4)
  height : 0 < bigEndian ((data.drop 4).take 4)
  depth : (data.getD 9 255, data.getD 8 0) ∈ pngDepths
  compression : data.getD 10 255 = 0
  filter : data.getD 11 255 = 0
  interlace : data.getD 12 255 = 0 ∨ data.getD 12 255 = 1

/-- Four letters, the third of them in upper case; a first letter in upper case is critical. -/
structure LegalType (type : Bytes) : Prop where
  length : type.length = 4
  letters : ∀ value ∈ type, isUpperCase value = true ∨ isLowerCase value = true
  reserved : ∀ value ∈ type[2]?, isUpperCase value = true
  critical : ∀ value ∈ type[0]?, isUpperCase value = true → type ∈ pngCriticalChunks

/-- A palette that a colour type allows: not with a greyscale one, and not more than an index tells
apart. -/
structure PaletteAllowed (colorType bitDepth : UInt8) (dataLength : ℕ) : Prop where
  entries : 3 ∣ dataLength
  pos : 0 < dataLength / 3
  le : dataLength / 3 ≤ 256
  grayscale : colorType ≠ pngColorGrayscale ∧ colorType ≠ pngColorGrayscaleAlpha
  indexed : colorType = pngColorIndexed → dataLength / 3 ≤ 2 ^ bitDepth.toNat

/-- The rules for the chunks between header and end. -/
structure PngRules (colorType bitDepth : UInt8) (middle : List PngChunk) : Prop where
  legal : ∀ chunk ∈ middle, LegalType chunk.type
  ne_ihdr : ∀ chunk ∈ middle, chunk.type ≠ ihdrType
  ne_iend : ∀ chunk ∈ middle, chunk.type ≠ iendType
  /-- One palette at most, before any data. -/
  palette : ∀ before plte after, middle = before ++ plte :: after → plte.type = plteType →
    (∀ chunk ∈ before, chunk.type ≠ plteType ∧ chunk.type ≠ idatType) ∧
      PaletteAllowed colorType bitDepth plte.data.length
  indexed : colorType = pngColorIndexed → ∀ before idat after, middle = before ++ idat :: after →
    idat.type = idatType → ∃ chunk ∈ before, chunk.type = plteType
  data : ∃ chunk ∈ middle, chunk.type = idatType
  /-- Between data there is only data. -/
  contiguous : ∀ before idat between idat' after,
    middle = before ++ idat :: (between ++ idat' :: after) → idat.type = idatType →
    idat'.type = idatType → ∀ chunk ∈ between, chunk.type = idatType

/-- A PNG image. -/
structure PngImage where
  ihdr : PngChunk
  middle : List PngChunk
  iend : PngChunk
  ihdr_type : ihdr.type = ihdrType
  ihdr_valid : ValidIhdr ihdr.data
  rules : PngRules (ihdr.data.getD 9 255) (ihdr.data.getD 8 0) middle
  iend_type : iend.type = iendType
  iend_data : iend.data = []
  count : middle.length + 2 ≤ pngMaxChunks

/-- The bytes of the image. -/
def PngImage.encode (image : PngImage) : Bytes :=
  pngSignature ++ image.ihdr.encode ++ (image.middle.map PngChunk.encode).flatten ++
    image.iend.encode

/-! ## What the tests of one chunk mean -/

/-- The types that are legal. -/
theorem isPngChunkType_iff {type : Bytes} :
    isPngChunkType type = true ∧ isUnknownCriticalPngChunk type = false ↔ LegalType type := by
  have hletters : (type.any fun value => !(isUpperCase value || isLowerCase value)) = true ↔
      ¬ ∀ value ∈ type, isUpperCase value = true ∨ isLowerCase value = true := by
    simp
  constructor
  · rintro ⟨htype, hknown⟩
    unfold isPngChunkType at htype
    split_ifs at htype with hlength hany
    have hfour := not_not.mp hlength
    refine ⟨hfour, not_not.mp fun hnot => hany (hletters.mpr hnot), ?_, ?_⟩
    · rintro value hvalue
      rwa [List.getD_eq_getElem?_getD, hvalue, Option.getD_some] at htype
    · rintro value hvalue hupper
      unfold isUnknownCriticalPngChunk at hknown
      rw [List.getD_eq_getElem?_getD, hvalue, Option.getD_some, hupper, Bool.true_and,
        Bool.not_eq_false'] at hknown
      exact List.contains_iff_mem.mp hknown
  · rintro ⟨hlength, hall, hreserved, hcritical⟩
    match type, hlength with
    | [t0, t1, t2, t3], _ =>
      refine ⟨?_, ?_⟩
      · unfold isPngChunkType
        rw [if_neg (show ¬ [t0, t1, t2, t3].length ≠ 4 from not_not.mpr rfl),
          if_neg fun hany => hletters.mp hany hall]
        exact hreserved t2 rfl
      · unfold isUnknownCriticalPngChunk
        cases hupper : isUpperCase t0 with
        | false =>
            change (isUpperCase t0 && _) = false
            rw [hupper, Bool.false_and]
        | true =>
            rw [List.contains_iff_mem.mpr (hcritical t0 rfl hupper), Bool.not_true, Bool.and_false]

/-- The headers that are valid. -/
theorem validatePngIhdr_iff {data : Bytes} :
    data.length = 13 ∧ validatePngIhdr data = true ↔ ValidIhdr data := by
  have hdepth : ∀ colorType bitDepth : UInt8, (colorType, bitDepth) ∈ pngDepths ↔
      (if colorType = pngColorGrayscale then [1, 2, 4, 8, 16].contains bitDepth
      else if colorType = pngColorTruecolor ∨ colorType = pngColorGrayscaleAlpha ∨
          colorType = pngColorTruecolorAlpha then bitDepth = 8 || bitDepth = 16
      else if colorType = pngColorIndexed then [1, 2, 4, 8].contains bitDepth
      else false) = true := by
    intro colorType bitDepth
    simp only [pngDepths, List.mem_cons, Prod.mk.injEq, List.not_mem_nil, or_false]
    unfold pngColorGrayscale pngColorTruecolor pngColorGrayscaleAlpha pngColorTruecolorAlpha
      pngColorIndexed
    split_ifs with h0 h2 h3
    · subst h0
      simp
    · rcases h2 with rfl | rfl | rfl <;> simp
    · subst h3
      simp
    · simp only [not_or] at h2
      simp [h0, h2, h3]
  constructor
  · rintro ⟨hlength, hvalid⟩
    unfold validatePngIhdr at hvalid
    dsimp only at hvalid
    split at hvalid
    · cases hvalid
    rename_i hguard
    simp only [not_or, not_and_or, not_not] at hguard
    obtain ⟨hwidth, hheight, hcompression, hfilter, hinterlace⟩ := hguard
    exact ⟨hlength, Nat.pos_of_ne_zero hwidth, Nat.pos_of_ne_zero hheight, (hdepth _ _).mpr hvalid,
      hcompression, hfilter, hinterlace⟩
  · rintro ⟨hlength, hwidth, hheight, hpair, hcompression, hfilter, hinterlace⟩
    refine ⟨hlength, ?_⟩
    unfold validatePngIhdr
    dsimp only
    rw [if_neg]
    · exact (hdepth _ _).mp hpair
    · rintro (h | h | h | h | h)
      · exact absurd h (Nat.pos_iff_ne_zero.mp hwidth)
      · exact absurd h (Nat.pos_iff_ne_zero.mp hheight)
      · exact h hcompression
      · exact h hfilter
      · exact hinterlace.elim h.1 h.2

/-! ## What the loop has noted -/

/-- The state after some chunks. -/
def pngStateAfter (chunks : List PngChunk) : PngState := chunks.foldl PngState.update .initial

/-- The state after one more chunk. -/
theorem pngStateAfter_concat (chunks : List PngChunk) (chunk : PngChunk) :
    pngStateAfter (chunks ++ [chunk]) = (pngStateAfter chunks).update chunk := by
  rw [pngStateAfter, List.foldl_append]
  rfl

section

variable (chunks : List PngChunk)

/-- The chunks are counted. -/
theorem chunkCount_pngStateAfter : (pngStateAfter chunks).chunkCount = chunks.length := by
  induction chunks using List.reverseRecOn with
  | nil => rfl
  | append_singleton chunks chunk ih =>
      rw [pngStateAfter_concat, PngState.update, ih, List.length_append]
      rfl

/-- A header was seen just when there was one. -/
theorem seenIhdr_pngStateAfter :
    (pngStateAfter chunks).seenIhdr = true ↔ ∃ chunk ∈ chunks, chunk.type = ihdrType := by
  induction chunks using List.reverseRecOn with
  | nil => exact iff_of_false Bool.false_ne_true (by simp)
  | append_singleton chunks chunk ih =>
      simp [pngStateAfter_concat, PngState.update, ih, or_and_right, exists_or]

/-- A palette was seen just when there was one. -/
theorem seenPlte_pngStateAfter :
    (pngStateAfter chunks).seenPlte = true ↔ ∃ chunk ∈ chunks, chunk.type = plteType := by
  induction chunks using List.reverseRecOn with
  | nil => exact iff_of_false Bool.false_ne_true (by simp)
  | append_singleton chunks chunk ih =>
      simp [pngStateAfter_concat, PngState.update, ih, or_and_right, exists_or]

/-- Data was seen just when there was some. -/
theorem seenIdat_pngStateAfter :
    (pngStateAfter chunks).seenIdat = true ↔ ∃ chunk ∈ chunks, chunk.type = idatType := by
  induction chunks using List.reverseRecOn with
  | nil => exact iff_of_false Bool.false_ne_true (by simp)
  | append_singleton chunks chunk ih =>
      simp [pngStateAfter_concat, PngState.update, ih, or_and_right, exists_or]

/-- Data is over when something else has followed it. -/
theorem idatClosed_pngStateAfter :
    (pngStateAfter chunks).idatClosed = true ↔ ∃ before idat after, chunks = before ++ idat :: after ∧
      idat.type = idatType ∧ ∃ chunk ∈ after, chunk.type ≠ idatType ∧ chunk.type ≠ iendType := by
  induction chunks using List.reverseRecOn with
  | nil =>
      refine iff_of_false Bool.false_ne_true ?_
      rintro ⟨before, idat, after, heq, -⟩
      exact absurd heq.symm (by simp)
  | append_singleton chunks chunk ih =>
      have hstep : (pngStateAfter (chunks ++ [chunk])).idatClosed = true ↔
          (pngStateAfter chunks).idatClosed = true ∨ (pngStateAfter chunks).seenIdat = true ∧
            chunk.type ≠ idatType ∧ chunk.type ≠ iendType := by
        simp [pngStateAfter_concat, PngState.update, and_assoc]
      rw [hstep, ih, seenIdat_pngStateAfter]
      constructor
      · rintro (⟨before, idat, after, rfl, hidat, other, hother, hne⟩ | ⟨⟨idat, hmem, hidat⟩, hne⟩)
        · exact ⟨before, idat, after ++ [chunk], by simp, hidat, other,
            List.mem_append_left _ hother, hne⟩
        · obtain ⟨before, after, rfl⟩ := List.append_of_mem hmem
          exact ⟨before, idat, after ++ [chunk], by simp, hidat, chunk, by simp, hne⟩
      · rintro ⟨before, idat, after, heq, hidat, other, hother, hne⟩
        rcases List.eq_nil_or_concat' after with rfl | ⟨after, last, rfl⟩
        · cases hother
        rw [← List.cons_append, ← List.append_assoc] at heq
        obtain ⟨rfl, hlast⟩ := List.append_inj' heq rfl
        obtain rfl := List.singleton_inj.mp hlast
        rcases List.mem_append.mp hother with hother | hother
        · exact .inl ⟨before, idat, after, rfl, hidat, other, hother, hne⟩
        · obtain rfl := List.mem_singleton.mp hother
          exact .inr ⟨⟨idat, by simp, hidat⟩, hne⟩

end

/-- The header gives the colours. -/
theorem header_pngStateAfter {ihdr : PngChunk} {middle : List PngChunk} (hihdr : ihdr.type = ihdrType)
    (hmiddle : ∀ chunk ∈ middle, chunk.type ≠ ihdrType) :
    (pngStateAfter (ihdr :: middle)).colorType = ihdr.data[9]? ∧
      (pngStateAfter (ihdr :: middle)).bitDepth = ihdr.data[8]? := by
  induction middle using List.reverseRecOn with
  | nil => exact ⟨if_pos hihdr, if_pos hihdr⟩
  | append_singleton middle chunk ih =>
      have hne := hmiddle chunk (by simp)
      obtain ⟨hcolor, hdepth⟩ := ih fun other hother => hmiddle other (List.mem_append_left _ hother)
      rw [← List.cons_append, pngStateAfter_concat, PngState.update]
      exact ⟨(if_neg hne).trans hcolor, (if_neg hne).trans hdepth⟩

/-! ## The rules -/

section

variable {ihdr iend : PngChunk} {middle : List PngChunk}

/-- What is asked of the header. -/
theorem admits_ihdr_iff : (ihdr.type ≠ iendType ∧ PngState.initial.Admits ihdr) ↔
    ihdr.type = ihdrType ∧ ValidIhdr ihdr.data := by
  obtain ⟨h1, h2, h3, -⟩ := PngState.ihdr_ne
  constructor
  · rintro ⟨-, hadmits⟩
    have htype := hadmits.first rfl
    exact ⟨htype, validatePngIhdr_iff.mp (hadmits.header htype).2⟩
  · rintro ⟨htype, hvalid⟩
    obtain ⟨hlength, hvalidate⟩ := validatePngIhdr_iff.mpr hvalid
    exact ⟨htype ▸ h3, {
      type := by rw [htype]; decide
      known := by rw [htype]; decide
      first := fun _ => htype
      header := fun _ => ⟨rfl, hlength, hvalidate⟩
      behind := fun hne => absurd htype hne
      palette := fun hplte => absurd (htype.symm.trans hplte) h1
      data := fun hidat => absurd (htype.symm.trans hidat) h2 }⟩

/-- What is asked of a chunk behind the header. -/
theorem admits_middle_iff {before : List PngChunk} {chunk : PngChunk} (hihdr : ihdr.type = ihdrType)
    (hvalid : ValidIhdr ihdr.data) (hbefore : ∀ other ∈ before, other.type ≠ ihdrType) :
    (pngStateAfter (ihdr :: before)).Admits chunk ↔
      LegalType chunk.type ∧ chunk.type ≠ ihdrType ∧
      (chunk.type = plteType →
        (∀ other ∈ before, other.type ≠ plteType ∧ other.type ≠ idatType) ∧
          PaletteAllowed (ihdr.data.getD 9 255) (ihdr.data.getD 8 0) chunk.data.length) ∧
      (chunk.type = idatType →
        (pngStateAfter (ihdr :: before)).idatClosed = false ∧
          (ihdr.data.getD 9 255 = pngColorIndexed → ∃ other ∈ before, other.type = plteType)) := by
  obtain ⟨h1, h2, -⟩ := PngState.ihdr_ne
  have hseen : (pngStateAfter (ihdr :: before)).seenIhdr = true :=
    (seenIhdr_pngStateAfter _).mpr ⟨ihdr, List.mem_cons_self, hihdr⟩
  have hcount : (pngStateAfter (ihdr :: before)).chunkCount ≠ 0 := by
    rw [chunkCount_pngStateAfter]
    exact Nat.succ_ne_zero _
  have hplte : (pngStateAfter (ihdr :: before)).seenPlte = true ↔
      ∃ other ∈ before, other.type = plteType := by
    rw [seenPlte_pngStateAfter, List.exists_mem_cons_iff, or_iff_right fun h => h1 (hihdr.symm.trans h)]
  have hidat : (pngStateAfter (ihdr :: before)).seenIdat = true ↔
      ∃ other ∈ before, other.type = idatType := by
    rw [seenIdat_pngStateAfter, List.exists_mem_cons_iff, or_iff_right fun h => h2 (hihdr.symm.trans h)]
  obtain ⟨hcolor, hdepth⟩ := header_pngStateAfter hihdr hbefore
  have hlength := hvalid.length
  rw [List.getElem?_eq_getElem (by omega)] at hcolor hdepth
  have hcolor' : ihdr.data.getD 9 255 = ihdr.data[9] := List.getD_eq_getElem _ _ _
  have hdepth' : ihdr.data.getD 8 0 = ihdr.data[8] := List.getD_eq_getElem _ _ _
  rw [hcolor', hdepth']
  constructor
  · intro hadmits
    have hne : chunk.type ≠ ihdrType := by
      intro htype
      exact absurd hseen (Bool.eq_false_iff.mp (hadmits.header htype).1)
    refine ⟨isPngChunkType_iff.mp ⟨hadmits.type, hadmits.known⟩, hne, fun htype => ?_, fun htype => ?_⟩
    · obtain ⟨hnone, hnodata, hpos, hle, hthree, hgray, halpha, hindexed⟩ := hadmits.palette htype
      rw [hcolor] at hgray halpha hindexed
      rw [hdepth] at hindexed
      refine ⟨fun other hother => ⟨fun heq => ?_, fun heq => ?_⟩, Nat.dvd_of_mod_eq_zero hthree,
        by omega, by omega, ⟨fun heq => hgray (congrArg some heq), fun heq => halpha (congrArg some heq)⟩,
        fun heq => ?_⟩
      · exact absurd (hplte.mpr ⟨other, hother, heq⟩) (Bool.eq_false_iff.mp hnone)
      · exact absurd (hidat.mpr ⟨other, hother, heq⟩) (Bool.eq_false_iff.mp hnodata)
      · obtain ⟨bitDepth, hbitDepth, hle'⟩ := hindexed (congrArg some heq)
        cases hbitDepth
        exact hle'
    · obtain ⟨hopen, hindexed⟩ := hadmits.data htype
      rw [hcolor] at hindexed
      exact ⟨hopen, fun heq => hplte.mp (hindexed (congrArg some heq))⟩
  · rintro ⟨hlegal, hne, hpalette, hdata⟩
    obtain ⟨htype, hknown⟩ := isPngChunkType_iff.mpr hlegal
    exact {
      type := htype
      known := hknown
      first := fun hzero => absurd hzero hcount
      header := fun heq => absurd heq hne
      behind := fun _ => hseen
      palette := fun heq => by
        obtain ⟨hfirst, hentries, hpos, hle, ⟨hgray, halpha⟩, hindexed⟩ := hpalette heq
        have hthree := Nat.mod_eq_zero_of_dvd hentries
        rw [hcolor, hdepth]
        refine ⟨Bool.eq_false_iff.mpr fun hseen => ?_, Bool.eq_false_iff.mpr fun hseen => ?_, by omega,
          by omega, hthree, fun hsome => hgray (Option.some.inj hsome),
          fun hsome => halpha (Option.some.inj hsome), fun hsome => ?_⟩
        · obtain ⟨other, hother, htype⟩ := hplte.mp hseen
          exact (hfirst other hother).1 htype
        · obtain ⟨other, hother, htype⟩ := hidat.mp hseen
          exact (hfirst other hother).2 htype
        · exact ⟨_, rfl, hindexed (Option.some.inj hsome)⟩
      data := fun heq => by
        obtain ⟨hopen, hindexed⟩ := hdata heq
        rw [hcolor]
        exact ⟨hopen, fun hsome => hplte.mpr (hindexed (Option.some.inj hsome))⟩ }

/-- The last chunk is admitted behind any others. -/
theorem admits_iend (hihdr : ihdr.type = ihdrType) (hvalid : ValidIhdr ihdr.data)
    (hmiddle : ∀ chunk ∈ middle, chunk.type ≠ ihdrType) (hiend : iend.type = iendType) :
    (pngStateAfter (ihdr :: middle)).Admits iend := by
  obtain ⟨-, -, h3, -, h5, h6⟩ := PngState.ihdr_ne
  refine (admits_middle_iff hihdr hvalid hmiddle).mpr ⟨?_, fun h => h3 (h.symm.trans hiend),
    fun h => absurd (h.symm.trans hiend) h5, fun h => absurd (h.symm.trans hiend) h6⟩
  rw [hiend]
  exact isPngChunkType_iff.mp ⟨by decide, by decide⟩

/-- **The chunks behind the header are admitted one after the other**, and there is data among them,
exactly when they keep the rules. -/
theorem pngRules_iff (hihdr : ihdr.type = ihdrType) (hvalid : ValidIhdr ihdr.data) :
    (∀ before chunk after, middle = before ++ chunk :: after →
        chunk.type ≠ iendType ∧ (pngStateAfter (ihdr :: before)).Admits chunk) ∧
      (∃ chunk ∈ middle, chunk.type = idatType) ↔
    PngRules (ihdr.data.getD 9 255) (ihdr.data.getD 8 0) middle := by
  constructor
  · rintro ⟨hall, hdata⟩
    have hne : ∀ chunk ∈ middle, chunk.type ≠ ihdrType := by
      intro chunk hmem htype
      obtain ⟨before, after, heq⟩ := List.append_of_mem hmem
      have hseen : (pngStateAfter (ihdr :: before)).seenIhdr = true :=
        (seenIhdr_pngStateAfter _).mpr ⟨ihdr, List.mem_cons_self, hihdr⟩
      have hnot := ((hall before chunk after heq).2.header htype).1
      exact absurd hseen (Bool.eq_false_iff.mp hnot)
    have hadmits : ∀ before chunk after, middle = before ++ chunk :: after → _ :=
      fun before chunk after heq => (admits_middle_iff hihdr hvalid fun other hother =>
        hne other (by rw [heq]; exact List.mem_append_left _ hother)).mp (hall before chunk after heq).2
    refine ⟨fun chunk hmem => ?_, hne, fun chunk hmem => ?_, fun before plte after heq =>
      (hadmits before plte after heq).2.2.1, fun hindexed before idat after heq htype =>
      ((hadmits before idat after heq).2.2.2 htype).2 hindexed, hdata, ?_⟩
    · obtain ⟨before, after, heq⟩ := List.append_of_mem hmem
      exact (hadmits before chunk after heq).1
    · obtain ⟨before, after, heq⟩ := List.append_of_mem hmem
      exact (hall before chunk after heq).1
    · intro before idat between idat' after heq hidat hidat' chunk hchunk
      by_contra hother
      have hsplit : middle = before ++ idat :: between ++ idat' :: after := by
        rw [heq]
        simp
      have hopen := ((hadmits _ idat' after hsplit).2.2.2 hidat').1
      refine absurd ((idatClosed_pngStateAfter _).mpr ?_) (Bool.eq_false_iff.mp hopen)
      obtain ⟨_, _, hbetween⟩ := List.append_of_mem hchunk
      have hiend : chunk.type ≠ iendType := by
        have hmem : chunk ∈ middle := by
          rw [heq, hbetween]
          simp
        obtain ⟨before', after', heq'⟩ := List.append_of_mem hmem
        exact (hall before' chunk after' heq').1
      exact ⟨ihdr :: before, idat, between, rfl, hidat, chunk, hchunk, hother, hiend⟩
  · intro hrules
    refine ⟨fun before chunk after heq => ?_, hrules.data⟩
    have hmem : chunk ∈ middle := by
      rw [heq]
      simp
    have hbefore : ∀ other ∈ before, other.type ≠ ihdrType := by
      intro other hother
      refine hrules.ne_ihdr other ?_
      rw [heq]
      exact List.mem_append_left _ hother
    refine ⟨hrules.ne_iend chunk hmem, (admits_middle_iff hihdr hvalid hbefore).mpr
      ⟨hrules.legal chunk hmem, hrules.ne_ihdr chunk hmem, hrules.palette before chunk after heq,
        fun htype => ⟨?_, fun hindexed => hrules.indexed hindexed before chunk after heq htype⟩⟩⟩
    refine Bool.eq_false_iff.mpr fun hclosed => ?_
    obtain ⟨earlier, idat, later, hsplit, hidat, other, hother, hne, -⟩ :=
      (idatClosed_pngStateAfter _).mp hclosed
    cases earlier with
    | nil =>
        obtain ⟨rfl, -⟩ := List.cons.inj hsplit
        exact PngState.ihdr_ne.2.1 (hihdr.symm.trans hidat)
    | cons first earlier =>
        obtain ⟨-, rfl⟩ := List.cons.inj hsplit
        refine hne (hrules.contiguous earlier idat later chunk after ?_ hidat htype other hother)
        rw [heq]
        simp

end

/-- What the loop accepts: chunks that it admits, and one that ends the file. -/
theorem scan_pngChunk_iff {file : Bytes} (hoffset : pngSignature.length ≤ file.length) :
    scan (pngChunk file) file.length pngMaxChunks .initial pngSignature.length = .error true ↔
      ∃ chunks iend, file.drop pngSignature.length =
          (chunks.map PngChunk.encode).flatten ++ PngChunk.encode iend ∧
        (∀ before chunk after, chunks = before ++ chunk :: after →
          chunk.type ≠ iendType ∧ (pngStateAfter before).Admits chunk) ∧
        chunks.length < pngMaxChunks ∧ iend.type = iendType ∧ iend.data = [] ∧
        (pngStateAfter chunks).Admits iend ∧
        ((pngStateAfter chunks).update iend).seenIdat = true := by
  rw [scan_eq_error_true_iff (scans_pngChunk file) hoffset]
  constructor
  · rintro ⟨items, t, rest, hflatten, -, hchain, hcount, htrue⟩
    obtain ⟨chunks, rfl, hcodes⟩ := chain_map.mp hchain
    obtain ⟨rfl, hall⟩ := chain_admits_iff.mp hcodes
    obtain ⟨iend, hdrop, htype, hdata, hadmits, hidat⟩ := pngChunk_eq_true.mp htrue
    rw [← List.drop_drop, hflatten, List.drop_left] at hdrop
    rw [List.length_map] at hcount
    exact ⟨chunks, iend, hflatten.trans (by rw [hdrop]), hall, hcount, htype, hdata, hadmits, hidat⟩
  · rintro ⟨chunks, iend, hflatten, hall, hcount, htype, hdata, hadmits, hidat⟩
    refine ⟨chunks.map PngChunk.encode, pngStateAfter chunks, iend.encode, hflatten,
      iend.encode_ne_nil, chain_map.mpr ⟨chunks, rfl, chain_admits_iff.mpr ⟨rfl, hall⟩⟩, ?_, ?_⟩
    · rwa [List.length_map]
    · refine pngChunk_eq_true.mpr ⟨iend, ?_, htype, hdata, hadmits, hidat⟩
      rw [← List.drop_drop, hflatten, List.drop_left]

/-- Data is what the loop has noted, not the end. -/
theorem seenIdat_update_iend {chunks : List PngChunk} {iend : PngChunk} (h : iend.type = iendType) :
    ((pngStateAfter chunks).update iend).seenIdat = true ↔
      ∃ chunk ∈ chunks, chunk.type = idatType := by
  have hne : iend.type ≠ idatType := fun hidat =>
    PngState.ihdr_ne.2.2.2.2.2 (hidat.symm.trans h)
  rw [← seenIdat_pngStateAfter, PngState.update]
  dsimp only
  rw [decide_eq_false hne, Bool.or_false]

/-- **The files that are accepted** are the encodings of images. -/
theorem png_structure (file : Bytes) :
    matchesPngStructure file = true ↔ ∃ image : PngImage, image.encode = file := by
  constructor
  · intro h
    unfold matchesPngStructure at h
    split_ifs at h with hshort hsignature
    have hoffset : pngSignature.length ≤ file.length := by omega
    obtain ⟨-, rest, hfile⟩ := readExactly_eq_some.mp (not_not.mp hsignature)
    cases hscan : scan (pngChunk file) file.length pngMaxChunks .initial pngSignature.length with
    | ok final => rw [hscan] at h; cases h
    | error result =>
        rw [hscan] at h
        cases h
        obtain ⟨chunks, iend, hflatten, hall, hcount, htype, hdata, hadmits, hidat⟩ :=
          (scan_pngChunk_iff hoffset).mp hscan
        cases chunks with
        | nil => exact absurd ((hadmits.first rfl).symm.trans htype) PngState.ihdr_ne.2.2.1
        | cons ihdr middle =>
            obtain ⟨hihdr, hvalid⟩ := admits_ihdr_iff.mp (hall [] ihdr middle rfl)
            obtain ⟨idat, hmem, hidatType⟩ := (seenIdat_update_iend htype).mp hidat
            have hmiddle : idat ∈ middle := by
              refine (List.mem_cons.mp hmem).resolve_left fun heq => ?_
              rw [heq, hihdr] at hidatType
              exact PngState.ihdr_ne.2.1 hidatType
            have hrules := (pngRules_iff hihdr hvalid).mp
              ⟨fun before chunk after heq => hall (ihdr :: before) chunk after (by rw [heq]; rfl),
                idat, hmiddle, hidatType⟩
            refine ⟨⟨ihdr, middle, iend, hihdr, hvalid, hrules, htype, hdata, hcount⟩, ?_⟩
            rw [List.drop_zero] at hfile
            rw [hfile, List.drop_left] at hflatten
            rw [PngImage.encode, hfile, hflatten, List.map_cons, List.flatten_cons]
            simp only [List.append_assoc]
  · rintro ⟨image, rfl⟩
    have hsplit : image.encode = pngSignature ++
        (((image.ihdr :: image.middle).map PngChunk.encode).flatten ++ image.iend.encode) := by
      rw [PngImage.encode, List.map_cons, List.flatten_cons]
      simp only [List.append_assoc]
    have hread : readExactly image.encode pngSignature.length 0 = some pngSignature :=
      readExactly_of_drop (by rw [List.drop_zero, hsplit])
    have hlong : pngSignature.length + 12 ≤ image.encode.length := by
      rw [hsplit, List.length_append, List.length_append, image.iend.length_encode]
      omega
    have hrules := (pngRules_iff image.ihdr_type image.ihdr_valid).mpr image.rules
    have hoffset : pngSignature.length ≤ image.encode.length := by omega
    have hscan := (scan_pngChunk_iff hoffset).mpr
      ⟨image.ihdr :: image.middle, image.iend, by rw [hsplit, List.drop_left], ?_, image.count,
        image.iend_type, image.iend_data,
        admits_iend image.ihdr_type image.ihdr_valid image.rules.ne_ihdr image.iend_type, ?_⟩
    · unfold matchesPngStructure
      rw [if_neg (by omega), hread, if_neg (not_not.mpr rfl), hscan]
    · intro before chunk after heq
      cases before with
      | nil =>
          obtain ⟨rfl, -⟩ := List.cons.inj heq
          exact admits_ihdr_iff.mpr ⟨image.ihdr_type, image.ihdr_valid⟩
      | cons first before =>
          obtain ⟨rfl, htail⟩ := List.cons.inj heq
          exact hrules.1 before chunk after htail
    · obtain ⟨idat, hmem, htype⟩ := image.rules.data
      exact (seenIdat_update_iend image.iend_type).mpr ⟨idat, List.mem_cons_of_mem _ hmem, htype⟩

end ApiWhatsApp
