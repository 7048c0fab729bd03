import ApiWhatsApp.Library.Bytes

/-!
# ISO base media files

`media/media-isobmff-structure.ts`: the file-type box at the head of a sample, and the walk over the
top-level boxes of a file.

* `IsoBox` is a box with one of the three ways to say its size. `IsoBmffFile mimeType` is a file of
  boxes, with a file-type box of the family behind padding only, a movie and media data.
* **`iso_bmff_structure`** — the files that the walk accepts are those whose boxes are all readable:
  their types are printable, and their 64-bit sizes are exact numbers. A file whose file-type box ends
  in the sample, behind at most eight others, passes the check of the sample.
* **`iso_bmff_walks_agree`** — the two walks side by side; `unprintable_box_refused`: the layout alone does
  not make a file accepted.
-/

namespace ApiWhatsApp

open Library

/-! ## The validators -/

/-- Source: `FILE_TYPE_BOX`. -/
def fileTypeBox : Bytes := asciiBytes "ftyp"

/-- Source: `MOVIE_BOX`. -/
def movieBox : Bytes := asciiBytes "moov"

/-- Source: `MEDIA_DATA_BOX`. -/
def mediaDataBox : Bytes := asciiBytes "mdat"

/-- Source: `MAX_FILE_TYPE_BOX_BYTES`. -/
def maxFileTypeBoxBytes : ℕ := 4096

/-- Source: `MAX_TOP_LEVEL_BOXES`. -/
def maxTopLevelBoxes : ℕ := 4096

/-- Source: `BASIC_BOX_HEADER_BYTES`. -/
def basicBoxHeaderBytes : ℕ := 8

/-- Source: `EXTENDED_BOX_HEADER_BYTES`. -/
def extendedBoxHeaderBytes : ℕ := 16

/-- Source: `FILE_TYPE_FIXED_PAYLOAD_BYTES`. -/
def fileTypeFixedPayloadBytes : ℕ := 8

/-- Source: `LEADING_BOX_TYPES`. -/
def leadingBoxTypes : List Bytes := ["free", "skip", "wide"].map asciiBytes

/-- Source: `MP4_BRANDS`. -/
def mp4Brands : List Bytes :=
  ["isom", "mp41", "mp42", "avc1", "M4A ", "M4B ", "M4V ", "dash", "piff", "dby1", "MSNV",
    "XAVC"].map asciiBytes

/-- `Number.MAX_SAFE_INTEGER`. -/
def maxSafeInteger : ℕ := 2 ^ 53 - 1

/-- Source: `INSPECTION_BYTES` of `media-content-signature.ts`. -/
def inspectionBytes : ℕ := 8192

/-- Source: `IsoBmffMediaMimeType`. -/
inductive IsoBmffMediaMimeType where
  | audioMp4
  | videoMp4
  | video3gpp
  deriving DecidableEq

/-- Source: `BoxHeader`. In Latin-1, a type is its bytes. -/
structure BoxHeader where
  type : Bytes
  size : ℕ
  headerBytes : ℕ

/-- Source: `FileTypeIdentity`. -/
structure FileTypeIdentity where
  majorBrand : Bytes
  compatibleBrands : List Bytes

/-- Source: `isPrintableFourCc`. -/
def isPrintableFourCc (value : Bytes) : Bool :=
  value.length = 4 && value.all fun code => 0x20 ≤ code && code ≤ 0x7e

/-- `/^first[last]$/`. -/
def matchesBrandPattern (first last : String) (brand : Bytes) : Bool :=
  (asciiBytes last).any fun code => brand = asciiBytes first ++ [code]

/-- Source: `isMp4Brand`. -/
def isMp4Brand (brand : Bytes) : Bool :=
  mp4Brands.contains brand || matchesBrandPattern "iso" "23456789abcd" brand ||
    matchesBrandPattern "cmf" "2cfls" brand

/-- Source: `is3gppBrand`. -/
def is3gppBrand (brand : Bytes) : Bool :=
  ["3gp", "3gr", "3ge", "3gg", "3gh", "3gm", "3gs", "3gt", "3gv"].any fun first =>
    matchesBrandPattern first "0123456789ABCDEFGHIJKLMNOPQRSTUVWXYZabcdefghijklmnopqrstuvwxyz" brand

/-- The major brand and the compatible ones. -/
def FileTypeIdentity.brands (identity : FileTypeIdentity) : List Bytes :=
  identity.majorBrand :: identity.compatibleBrands

/-- Source: `matchesMimeFamily`. -/
def matchesMimeFamily (identity : FileTypeIdentity) : IsoBmffMediaMimeType → Bool
  | .video3gpp => identity.brands.any is3gppBrand
  | _ => identity.brands.any isMp4Brand

/-- Source: `parseBoxHeader`. -/
def parseBoxHeader (bytes : Bytes) (offset availableFileBytes : ℕ) (allowZeroToEnd : Bool) :
    Option BoxHeader :=
  if offset + basicBoxHeaderBytes > bytes.length then none
  else
    let size32 := readBE bytes 4 offset
    let type := (bytes.drop (offset + 4)).take 4
    if !isPrintableFourCc type then none
    else if size32 = 0 then
      if !allowZeroToEnd ∨ availableFileBytes < basicBoxHeaderBytes then none
      else some ⟨type, availableFileBytes, basicBoxHeaderBytes⟩
    else if size32 = 1 then
      if offset + extendedBoxHeaderBytes > bytes.length then none
      else
        let size64 := readBE bytes 8 (offset + 8)
        if size64 > maxSafeInteger then none
        else if size64 < extendedBoxHeaderBytes ∨ size64 > availableFileBytes then none
        else some ⟨type, size64, extendedBoxHeaderBytes⟩
    else if size32 < basicBoxHeaderBytes ∨ size32 > availableFileBytes then none
    else some ⟨type, size32, basicBoxHeaderBytes⟩

/-- The loop in `parseFileTypeBox`, over what is left of the box. -/
def parseCompatibleBrands : Bytes → Option (List Bytes)
  | [] => some []
  | b0 :: b1 :: b2 :: b3 :: rest =>
      if !isPrintableFourCc [b0, b1, b2, b3] then none
      else
        (parseCompatibleBrands rest).map fun compatibleBrands => [b0, b1, b2, b3] :: compatibleBrands
  | _ => none

/-- Source: `parseFileTypeBox`. -/
def parseFileTypeBox (box : Bytes) (headerBytes : ℕ) : Option FileTypeIdentity :=
  let payloadBytes := box.length - headerBytes
  if payloadBytes < fileTypeFixedPayloadBytes ∨
      (payloadBytes - fileTypeFixedPayloadBytes) % 4 ≠ 0 then none
  else
    let majorBrand := (box.drop headerBytes).take 4
    if !isPrintableFourCc majorBrand then none
    else
      (parseCompatibleBrands (box.drop (headerBytes + fileTypeFixedPayloadBytes))).map
        fun compatibleBrands => ⟨majorBrand, compatibleBrands⟩

/-- The loop in `matchesIsoBmffFileTypeSignature`, with the boxes that it may still look at. -/
def fileTypeSignature (sample : Bytes) (mimeType : IsoBmffMediaMimeType) : ℕ → ℕ → Bool
  | 0, _ => false
  | remaining + 1, offset =>
      if offset + basicBoxHeaderBytes ≤ sample.length then
        match parseBoxHeader sample offset (sample.length - offset) false with
        | none => false
        | some header =>
            if offset + header.size > sample.length then false
            else if header.type = fileTypeBox then
              if header.size > maxFileTypeBoxBytes then false
              else
                match parseFileTypeBox ((sample.drop offset).take header.size) header.headerBytes with
                | none => false
                | some identity => matchesMimeFamily identity mimeType
            else if !leadingBoxTypes.contains header.type then false
            else fileTypeSignature sample mimeType remaining (offset + header.size)
      else false

/-- Source: `matchesIsoBmffFileTypeSignature`, which goes on while `leadingBoxes <= 8`. -/
def matchesIsoBmffFileTypeSignature (sample : Bytes) (mimeType : IsoBmffMediaMimeType) : Bool :=
  fileTypeSignature sample mimeType (8 + 1) 0

/-- What `matchesIsoBmffStructure` has found. -/
structure FoundBoxes where
  fileType : Bool
  movie : Bool
  mediaData : Bool
  deriving DecidableEq

/-- The updates at the end of a round. -/
def FoundBoxes.see (found : FoundBoxes) (type : Bytes) : FoundBoxes where
  fileType := found.fileType || type = fileTypeBox
  movie := found.movie || type = movieBox
  mediaData := found.mediaData || type = mediaDataBox

/-- What `matchesIsoBmffStructure` asks of the file-type box. -/
def acceptsFileTypeBox (file : Bytes) (mimeType : IsoBmffMediaMimeType) (header : BoxHeader)
    (offset : ℕ) : Bool :=
  if header.size > maxFileTypeBoxBytes then false
  else
    match readExactly file header.size offset with
    | none => false
    | some box =>
        match parseFileTypeBox box header.headerBytes with
        | none => false
        | some identity => matchesMimeFamily identity mimeType

/-- The conditions of `matchesIsoBmffStructure` on a box, in their order. -/
def admitsBox (file : Bytes) (mimeType : IsoBmffMediaMimeType) (found : FoundBoxes)
    (header : BoxHeader) (offset : ℕ) : Bool :=
  if !found.fileType then
    if header.type ≠ fileTypeBox ∧ !leadingBoxTypes.contains header.type then false
    else if header.type = fileTypeBox ∧ !acceptsFileTypeBox file mimeType header offset then false
    else true
  else if header.type = fileTypeBox then false
  else true

/-- One round of the loop in `matchesIsoBmffStructure`. -/
def isoBmffBox (file : Bytes) (mimeType : IsoBmffMediaMimeType) (found : FoundBoxes) (offset : ℕ) :
    Except Bool (ℕ × FoundBoxes) :=
  match readExactly file (min extendedBoxHeaderBytes (file.length - offset)) offset with
  | none => .error false
  | some fixedHeader =>
      if fixedHeader.length < basicBoxHeaderBytes then .error false
      else
        match parseBoxHeader fixedHeader 0 (file.length - offset) true with
        | none => .error false
        | some header =>
            if !admitsBox file mimeType found header offset then .error false
            else .ok (header.size, found.see header.type)

/-- Source: `matchesIsoBmffStructure`. -/
def matchesIsoBmffStructure (file : Bytes) (mimeType : IsoBmffMediaMimeType) : Bool :=
  if file.length < 24 then false
  else
    match scan (isoBmffBox file mimeType) file.length maxTopLevelBoxes ⟨false, false, false⟩ 0 with
    | .error result => result
    | .ok (remaining, found, offset) =>
        offset = file.length && remaining < maxTopLevelBoxes && found.fileType && found.movie &&
          found.mediaData

/-! ## Boxes -/

/-- How a box says its size: in 32 bits, in 64 bits, or by running to the end of the file. -/
inductive BoxForm where
  | compact
  | extended
  | toEnd
  deriving DecidableEq

namespace BoxForm

/-- The first four bytes. -/
def size32 : BoxForm → ℕ → ℕ
  | compact, size => size
  | extended, _ => 1
  | toEnd, _ => 0

/-- What stands between the type and the payload. -/
def size64 : BoxForm → ℕ → Bytes
  | extended, size => bigEndianBytes 8 size
  | _, _ => []

/-- The bytes up to the payload. -/
def headerBytes : BoxForm → ℕ
  | extended => extendedBoxHeaderBytes
  | _ => basicBoxHeaderBytes

/-- No header is shorter than the basic one. -/
theorem basic_le_headerBytes (form : BoxForm) : basicBoxHeaderBytes ≤ form.headerBytes := by
  cases form <;> decide

/-- The sizes that can be said. -/
def Fits : BoxForm → ℕ → Prop
  | compact, size => size < 256 ^ 4
  | extended, size => size < 256 ^ 8
  | toEnd, _ => True

end BoxForm

/-- A top-level box. -/
structure IsoBox where
  form : BoxForm
  type : Bytes
  payload : Bytes
  type_length : type.length = 4
  fits : form.Fits (form.headerBytes + payload.length)

namespace IsoBox

variable (box : IsoBox)

/-- The bytes of the box. -/
def size : ℕ := box.form.headerBytes + box.payload.length

/-- The size, the type and the further size. -/
def header : Bytes :=
  bigEndianBytes 4 (box.form.size32 box.size) ++ box.type ++ box.form.size64 box.size

/-- The bytes of a box. -/
def encode : Bytes := box.header ++ box.payload

/-- What the validators ask of any box. -/
structure Readable : Prop where
  printable : isPrintableFourCc box.type = true
  exact : box.form = .extended → box.size ≤ maxSafeInteger

/-- The header has the length that its form says. -/
theorem length_header : box.header.length = box.form.headerBytes := by
  rw [header, List.length_append, List.length_append, length_bigEndianBytes, box.type_length]
  cases box.form with
  | compact => rfl
  | extended => exact congrArg (4 + 4 + ·) (length_bigEndianBytes 8 box.size)
  | toEnd => rfl

/-- A box is as long as its size. -/
theorem length_encode : box.encode.length = box.size := by
  rw [encode, List.length_append, length_header, size]

/-- No box is shorter than its header. -/
theorem basic_le_size : basicBoxHeaderBytes ≤ box.size :=
  Nat.le_trans box.form.basic_le_headerBytes (Nat.le_add_right _ _)

/-- A box has bytes. -/
theorem encode_ne_nil : box.encode ≠ [] := by
  rw [← List.length_pos_iff, length_encode]
  exact Nat.lt_of_lt_of_le (by decide) box.basic_le_size

end IsoBox

/-- The payload of a file-type box, of the family. -/
structure IsFileType (mimeType : IsoBmffMediaMimeType) (identity : FileTypeIdentity)
    (payload : Bytes) : Prop where
  payload_eq : ∃ minorVersion : Bytes, minorVersion.length = 4 ∧
    payload = identity.majorBrand ++ minorVersion ++ identity.compatibleBrands.flatten
  printable : ∀ brand ∈ identity.brands, isPrintableFourCc brand = true
  family : matchesMimeFamily identity mimeType = true

/-- A file: the boxes up to the file-type box, and those behind it. -/
structure IsoBmffFile (mimeType : IsoBmffMediaMimeType) where
  leading : List IsoBox
  fileType : IsoBox
  rest : List IsoBox
  leading_types : ∀ box ∈ leading, box.type ∈ leadingBoxTypes
  fileType_type : fileType.type = fileTypeBox
  fileType_size : fileType.size ≤ maxFileTypeBoxBytes
  fileType_payload : ∃ identity, IsFileType mimeType identity fileType.payload
  rest_types : ∀ box ∈ rest, box.type ≠ fileTypeBox
  movie : ∃ box ∈ leading ++ fileType :: rest, box.type = movieBox
  mediaData : ∃ box ∈ leading ++ fileType :: rest, box.type = mediaDataBox
  toEnd_last : ∀ before box after, leading ++ fileType :: rest = before ++ box :: after →
    box.form = .toEnd → after = []
  count : (leading ++ fileType :: rest).length ≤ maxTopLevelBoxes

namespace IsoBmffFile

variable {mimeType : IsoBmffMediaMimeType} (isoFile : IsoBmffFile mimeType)

/-- All the boxes, in order. -/
def boxes : List IsoBox := isoFile.leading ++ isoFile.fileType :: isoFile.rest

/-- The bytes of the file. -/
def encode : Bytes := (isoFile.boxes.map IsoBox.encode).flatten

/-- What the file has up to the end of the file-type box. -/
def head : Bytes := (isoFile.leading.map IsoBox.encode).flatten ++ isoFile.fileType.encode

end IsoBmffFile

/-! ## Box headers -/

/-- The header is read from what starts at the offset, -/
theorem parseBoxHeader_drop {bytes : Bytes} {offset : ℕ} (h : offset ≤ bytes.length)
    (availableFileBytes : ℕ) (allowZeroToEnd : Bool) :
    parseBoxHeader bytes offset availableFileBytes allowZeroToEnd =
      parseBoxHeader (bytes.drop offset) 0 availableFileBytes allowZeroToEnd := by
  have hbehind : ∀ n, offset + n > bytes.length ↔ 0 + n > (bytes.drop offset).length := by
    intro n
    rw [List.length_drop]
    omega
  unfold parseBoxHeader readBE
  simp only [hbehind, List.drop_drop, Nat.zero_add, Nat.add_zero]

/-- and from its first bytes. -/
theorem parseBoxHeader_take (bytes : Bytes) (availableFileBytes : ℕ) (allowZeroToEnd : Bool) :
    parseBoxHeader (bytes.take extendedBoxHeaderBytes) 0 availableFileBytes allowZeroToEnd =
      parseBoxHeader bytes 0 availableFileBytes allowZeroToEnd := by
  have hbehind : ∀ n ≤ 16, 0 + n > (bytes.take extendedBoxHeaderBytes).length ↔
      0 + n > bytes.length := by
    intro n hn
    rw [List.length_take, extendedBoxHeaderBytes]
    omega
  have hpart : ∀ i n, i + n ≤ 16 →
      ((bytes.take extendedBoxHeaderBytes).drop i).take n = (bytes.drop i).take n := by
    intro i n hn
    rw [List.drop_take, List.take_take, Nat.min_eq_left (by rw [extendedBoxHeaderBytes]; omega)]
  unfold parseBoxHeader readBE
  rw [hpart 0 4 (by decide), hpart (0 + 4) 4 (by decide), hpart (0 + 8) 8 (by decide)]
  simp only [hbehind basicBoxHeaderBytes (by decide), hbehind extendedBoxHeaderBytes (by decide)]

namespace IsoBox

/-- The size field fits four bytes. -/
theorem size32_lt (box : IsoBox) : box.form.size32 box.size < 256 ^ 4 := by
  have hfits := box.fits
  rw [← size] at hfits
  cases hform : box.form with
  | compact =>
      rw [hform] at hfits
      exact hfits
  | extended => exact (by decide : 1 < 256 ^ 4)
  | toEnd => exact (by decide : 0 < 256 ^ 4)

/-- The header of a readable box is read, if one that runs to the end may. -/
theorem parseBoxHeader_encode {box : IsoBox} (hreadable : box.Readable) {after : Bytes}
    {allowZeroToEnd : Bool} (hend : box.form = .toEnd → allowZeroToEnd = true ∧ after = []) :
    parseBoxHeader (box.encode ++ after) 0 (box.encode ++ after).length allowZeroToEnd =
      some ⟨box.type, box.size, box.form.headerBytes⟩ := by
  have hsplit : box.encode ++ after = bigEndianBytes 4 (box.form.size32 box.size) ++
      (box.type ++ (box.form.size64 box.size ++ (box.payload ++ after))) := by
    simp only [encode, header, List.append_assoc]
  have hsize32 : readBE (box.encode ++ after) 4 0 = box.form.size32 box.size :=
    readBE_bigEndianBytes box.size32_lt hsplit
  have hdrop4 : (box.encode ++ after).drop (0 + 4) =
      box.type ++ (box.form.size64 box.size ++ (box.payload ++ after)) := by
    rw [hsplit, List.drop_left' (by rw [length_bigEndianBytes])]
  have htype : ((box.encode ++ after).drop (0 + 4)).take 4 = box.type := by
    rw [hdrop4, List.take_left' box.type_length]
  have hlength : (box.encode ++ after).length = box.size + after.length := by
    rw [List.length_append, length_encode]
  have hbasic := box.basic_le_size
  have hfits := box.fits
  have hexact := hreadable.exact
  rw [← size] at hfits
  unfold parseBoxHeader
  rw [hsize32, htype, if_neg (by rw [hlength]; omega)]
  dsimp only
  rw [hreadable.printable, Bool.not_true, if_neg Bool.false_ne_true]
  cases hform : box.form with
  | compact =>
      have hfield : BoxForm.compact.size32 box.size = box.size := rfl
      have hne : box.size ≠ 0 ∧ box.size ≠ 1 := by
        rw [basicBoxHeaderBytes] at hbasic
        omega
      rw [hfield, if_neg hne.1, if_neg hne.2, if_neg (by rw [hlength]; omega)]
      rfl
  | extended =>
      have hfield : BoxForm.extended.size32 box.size = 1 := rfl
      have hextended : extendedBoxHeaderBytes ≤ box.size := by
        rw [size, hform]
        exact Nat.le_add_right _ _
      rw [hform] at hfits hdrop4
      have hdrop8 : (box.encode ++ after).drop (0 + 8) =
          bigEndianBytes 8 box.size ++ (box.payload ++ after) := by
        rw [show 0 + 8 = 0 + 4 + 4 by rfl, ← List.drop_drop, hdrop4, List.drop_left' box.type_length]
        rfl
      have hsize64 : readBE (box.encode ++ after) 8 (0 + 8) = box.size :=
        readBE_bigEndianBytes hfits hdrop8
      rw [hfield, hsize64, if_neg Nat.one_ne_zero, if_pos rfl, if_neg (by rw [hlength]; omega),
        if_neg (Nat.not_lt.mpr (hexact hform)), if_neg (by rw [hlength]; omega)]
      rfl
  | toEnd =>
      have hfield : BoxForm.toEnd.size32 box.size = 0 := rfl
      obtain ⟨rfl, rfl⟩ := hend hform
      rw [List.length_nil, Nat.add_zero] at hlength
      rw [hfield, if_pos rfl, hlength, if_neg]
      · rfl
      · rintro (h | h)
        · cases h
        · exact Nat.not_lt.mpr hbasic h

/-- Some bytes whose head is that of a box are a box and what follows it. -/
theorem exists_encode (form : BoxForm) {rest type : Bytes} {size : ℕ} (htype : type.length = 4)
    (hfits : form.Fits size) (hheader : form.headerBytes ≤ size) (hsize : size ≤ rest.length)
    (hhead : rest.take form.headerBytes =
      bigEndianBytes 4 (form.size32 size) ++ type ++ form.size64 size) :
    ∃ box : IsoBox, rest = box.encode ++ rest.drop size ∧ box.form = form ∧ box.type = type ∧
      box.size = size := by
  have hpayload : form.headerBytes + ((rest.take size).drop form.headerBytes).length = size := by
    rw [List.length_drop, List.length_take_of_le hsize]
    omega
  obtain ⟨box, hform, htype', hpayload'⟩ : ∃ box : IsoBox, box.form = form ∧ box.type = type ∧
      box.payload = (rest.take size).drop form.headerBytes :=
    ⟨⟨form, type, _, htype, hpayload.symm ▸ hfits⟩, rfl, rfl, rfl⟩
  have hboxSize : box.size = size := by
    rw [IsoBox.size, hform, hpayload', hpayload]
  refine ⟨box, ?_, hform, htype', hboxSize⟩
  have hbox : box.encode = rest.take size := by
    rw [encode, header, hboxSize, hform, htype', hpayload', ← hhead]
    conv_rhs => rw [← List.take_append_drop form.headerBytes (rest.take size), List.take_take,
      Nat.min_eq_left hheader]
  rw [hbox, List.take_append_drop]

/-- Where a header is read there is a readable box. -/
theorem exists_of_parseBoxHeader {rest : Bytes} {allowZeroToEnd : Bool} {header : BoxHeader}
    (h : parseBoxHeader rest 0 rest.length allowZeroToEnd = some header) :
    ∃ (box : IsoBox) (after : Bytes), rest = box.encode ++ after ∧ box.Readable ∧
      header = ⟨box.type, box.size, box.form.headerBytes⟩ ∧
      (box.form = .toEnd → allowZeroToEnd = true ∧ after = []) := by
  unfold parseBoxHeader at h
  rw [ite_eq_iff] at h
  obtain ⟨-, h⟩ | ⟨hbasic, h⟩ := h
  · cases h
  rw [Nat.zero_add, gt_iff_lt, Nat.not_lt] at hbasic
  have htype : ((rest.drop 4).take 4).length = 4 := by
    rw [List.length_take_of_le]
    rw [List.length_drop]
    exact Nat.le_sub_of_add_le hbasic
  have hfield : bigEndianBytes 4 (readBE rest 4 0) = rest.take 4 :=
    bigEndianBytes_readBE (Nat.le_trans (by decide) hbasic)
  have hhead : rest.take (4 + 4) =
      bigEndianBytes 4 (readBE rest 4 0) ++ (rest.drop 4).take 4 := by
    rw [hfield, List.take_add]
  dsimp only at h
  rw [Nat.zero_add, Nat.zero_add] at h
  split_ifs at h with hprintable hzero hallow hone hshort hlarge hsize hsmall
  · obtain ⟨hallowed, -⟩ := not_or.mp hallow
    rw [hzero] at hhead
    obtain ⟨box, hrest, hform, htype', hsize'⟩ := exists_encode .toEnd htype trivial hbasic
      (Nat.le_refl rest.length) (hhead.trans (List.append_nil _).symm)
    cases h
    refine ⟨box, _, hrest, ⟨?_, ?_⟩, ?_, fun _ => ⟨by simpa using hallowed, List.drop_length⟩⟩
    · rw [htype']
      simpa using hprintable
    · exact fun hextended => absurd (hform.symm.trans hextended) (by rintro ⟨⟩)
    · rw [hform, htype', hsize']
      rfl
  · obtain ⟨hle, hge⟩ := not_or.mp hsize
    rw [hone] at hhead
    have hhead' : rest.take (4 + 4 + 8) = bigEndianBytes 4 1 ++ (rest.drop 4).take 4 ++
        bigEndianBytes 8 (readBE rest 8 8) := by
      rw [bigEndianBytes_readBE (Nat.not_lt.mp hshort), List.take_add, hhead]
    obtain ⟨box, hrest, hform, htype', hsize'⟩ := exists_encode .extended htype
      (readBE_lt rest 8 8) (Nat.not_lt.mp hle) (Nat.not_lt.mp hge) hhead'
    cases h
    refine ⟨box, _, hrest, ⟨?_, ?_⟩, ?_,
      fun htoEnd => absurd (hform.symm.trans htoEnd) (by rintro ⟨⟩)⟩
    · rw [htype']
      simpa using hprintable
    · rw [hsize']
      exact fun _ => Nat.not_lt.mp hlarge
    · rw [hform, htype', hsize']
      rfl
  · obtain ⟨hle, hge⟩ := not_or.mp hsmall
    obtain ⟨box, hrest, hform, htype', hsize'⟩ := exists_encode .compact htype
      (readBE_lt rest 4 0) (Nat.not_lt.mp hle) (Nat.not_lt.mp hge)
      (hhead.trans (List.append_nil _).symm)
    cases h
    refine ⟨box, _, hrest, ⟨?_, ?_⟩, ?_,
      fun htoEnd => absurd (hform.symm.trans htoEnd) (by rintro ⟨⟩)⟩
    · rw [htype']
      simpa using hprintable
    · exact fun hextended => absurd (hform.symm.trans hextended) (by rintro ⟨⟩)
    · rw [hform, htype', hsize']
      rfl

end IsoBox

/-! ## The file-type box -/

/-- A printable code has four bytes. -/
theorem length_of_printable {value : Bytes} (h : isPrintableFourCc value = true) :
    value.length = 4 := by
  unfold isPrintableFourCc at h
  rw [Bool.and_eq_true, decide_eq_true_eq] at h
  exact h.1

/-- The brands are four bytes each. -/
theorem parseCompatibleBrands_eq_some {rest : Bytes} {compatibleBrands : List Bytes} :
    parseCompatibleBrands rest = some compatibleBrands ↔ compatibleBrands.flatten = rest ∧
      ∀ brand ∈ compatibleBrands, isPrintableFourCc brand = true := by
  constructor
  · intro h
    induction rest using parseCompatibleBrands.induct generalizing compatibleBrands with
    | case1 =>
        cases h
        exact ⟨rfl, by simp⟩
    | case2 b0 b1 b2 b3 rest hprintable =>
        rw [parseCompatibleBrands, if_pos hprintable] at h
        cases h
    | case3 b0 b1 b2 b3 rest hprintable ih =>
        rw [parseCompatibleBrands, if_neg hprintable] at h
        obtain ⟨brands, hbrands, rfl⟩ := Option.map_eq_some_iff.mp h
        obtain ⟨rfl, hall⟩ := ih hbrands
        exact ⟨rfl, List.forall_mem_cons.mpr ⟨by simpa using hprintable, hall⟩⟩
    | case4 rest hnil hfour =>
        rw [parseCompatibleBrands] at h
        · cases h
        · exact hnil
        · exact hfour
  · rintro ⟨rfl, hall⟩
    induction compatibleBrands with
    | nil => rfl
    | cons brand compatibleBrands ih =>
        obtain ⟨hprintable, hrest⟩ := List.forall_mem_cons.mp hall
        obtain ⟨b0, b1, b2, b3, rfl⟩ := List.length_eq_four.mp (length_of_printable hprintable)
        rw [List.flatten_cons]
        show parseCompatibleBrands (b0 :: b1 :: b2 :: b3 :: compatibleBrands.flatten) = _
        rw [parseCompatibleBrands, ih hrest, hprintable]
        rfl

/-- What is parsed of a box is what its payload says. -/
theorem parseFileTypeBox_eq_some {box : Bytes} {headerBytes : ℕ} {identity : FileTypeIdentity} :
    parseFileTypeBox box headerBytes = some identity ↔
      (∃ minorVersion : Bytes, minorVersion.length = 4 ∧ box.drop headerBytes =
        identity.majorBrand ++ minorVersion ++ identity.compatibleBrands.flatten) ∧
      ∀ brand ∈ identity.brands, isPrintableFourCc brand = true := by
  have hlength : (box.drop headerBytes).length = box.length - headerBytes := List.length_drop
  unfold parseFileTypeBox
  rw [← List.drop_drop, ← hlength, FileTypeIdentity.brands, List.forall_mem_cons]
  generalize box.drop headerBytes = payload
  constructor
  · intro h
    dsimp only at h
    split_ifs at h with hsize hprintable
    obtain ⟨hlong, -⟩ := not_or.mp hsize
    rw [fileTypeFixedPayloadBytes] at hlong
    obtain ⟨brands, hbrands, rfl⟩ := Option.map_eq_some_iff.mp h
    obtain ⟨hflatten, hall⟩ := parseCompatibleBrands_eq_some.mp hbrands
    refine ⟨⟨(payload.drop 4).take 4, ?_, ?_⟩, by simpa using hprintable, hall⟩
    · rw [List.length_take_of_le]
      rw [List.length_drop]
      omega
    · dsimp only
      rw [hflatten, List.append_assoc, fileTypeFixedPayloadBytes, show 8 = 4 + 4 by rfl,
        ← List.drop_drop, List.take_append_drop, List.take_append_drop]
  · rintro ⟨⟨minorVersion, hminor, rfl⟩, hprintable, hall⟩
    have hmajor := length_of_printable hprintable
    have hflatten : 4 ∣ identity.compatibleBrands.flatten.length := by
      rw [List.length_flatten, List.map_congr_left fun brand hbrand =>
        length_of_printable (hall brand hbrand), List.map_const', List.sum_replicate_nat]
      exact Nat.dvd_mul_left ..
    have hbehind : (identity.majorBrand ++ minorVersion ++
        identity.compatibleBrands.flatten).drop fileTypeFixedPayloadBytes =
          identity.compatibleBrands.flatten :=
      List.drop_left' (by rw [List.length_append, hmajor, hminor]; rfl)
    have hbrands := parseCompatibleBrands_eq_some.mpr ⟨rfl, hall⟩
    dsimp only
    rw [hbehind, hbrands, List.append_assoc, List.take_left' hmajor, hprintable, List.length_append,
      List.length_append, hmajor, hminor, if_neg]
    · rfl
    · rw [fileTypeFixedPayloadBytes]
      omega

/-- A file-type box that is accepted is small and of the family. -/
theorem matchesFileType_iff {mimeType : IsoBmffMediaMimeType} {box : IsoBox} :
    (match parseFileTypeBox box.encode box.form.headerBytes with
      | none => false
      | some identity => matchesMimeFamily identity mimeType) = true ↔
      ∃ identity, IsFileType mimeType identity box.payload := by
  have hpayload : box.encode.drop box.form.headerBytes = box.payload :=
    List.drop_left' box.length_header
  have hparse : ∀ identity, parseFileTypeBox box.encode box.form.headerBytes = some identity ↔ _ :=
    fun identity => parseFileTypeBox_eq_some
  rw [hpayload] at hparse
  constructor
  · intro h
    cases hidentity : parseFileTypeBox box.encode box.form.headerBytes with
    | none =>
        rw [hidentity] at h
        cases h
    | some identity =>
        rw [hidentity] at h
        obtain ⟨heq, hprintable⟩ := (hparse identity).mp hidentity
        exact ⟨identity, heq, hprintable, h⟩
  · rintro ⟨identity, hidentity⟩
    rw [(hparse identity).mpr ⟨hidentity.payload_eq, hidentity.printable⟩]
    exact hidentity.family

/-! ## The walk -/

/-- What the walk asks of a box, after those it has seen. -/
def BoxAdmitted (mimeType : IsoBmffMediaMimeType) (found : FoundBoxes) (box : IsoBox) : Prop :=
  if found.fileType then box.type ≠ fileTypeBox
  else if box.type = fileTypeBox then
    box.size ≤ maxFileTypeBoxBytes ∧ ∃ identity, IsFileType mimeType identity box.payload
  else box.type ∈ leadingBoxTypes

section

variable {file : Bytes} {mimeType : IsoBmffMediaMimeType} {found found' : FoundBoxes} {offset : ℕ}

/-- The walk asks of the file-type box what the format does. -/
theorem acceptsFileTypeBox_iff {box : IsoBox} {after : Bytes}
    (hdrop : file.drop offset = box.encode ++ after) :
    acceptsFileTypeBox file mimeType ⟨box.type, box.size, box.form.headerBytes⟩ offset = true ↔
      box.size ≤ maxFileTypeBoxBytes ∧ ∃ identity, IsFileType mimeType identity box.payload := by
  have hread := readExactly_of_drop hdrop
  rw [box.length_encode] at hread
  unfold acceptsFileTypeBox
  dsimp only
  rw [hread]
  split_ifs with hlarge
  · exact iff_of_false (by rintro ⟨⟩) fun h => Nat.not_le.mpr hlarge h.1
  · rw [and_iff_right (Nat.not_lt.mp hlarge)]
    exact matchesFileType_iff

/-- The walk asks of a box what the format does. -/
theorem admitsBox_iff {box : IsoBox} {after : Bytes}
    (hdrop : file.drop offset = box.encode ++ after) :
    admitsBox file mimeType found ⟨box.type, box.size, box.form.headerBytes⟩ offset = true ↔
      BoxAdmitted mimeType found box := by
  unfold admitsBox BoxAdmitted
  rw [← acceptsFileTypeBox_iff hdrop]
  cases found.fileType with
  | true => by_cases htype : box.type = fileTypeBox <;> simp [htype]
  | false =>
      by_cases htype : box.type = fileTypeBox
      · simp [htype]
      · simp [htype]

/-- A round reads the header from what is left of the file. -/
theorem isoBmffBox_eq (file : Bytes) (mimeType : IsoBmffMediaMimeType) (found : FoundBoxes)
    (offset : ℕ) :
    isoBmffBox file mimeType found offset =
      match parseBoxHeader (file.drop offset) 0 (file.drop offset).length true with
      | none => .error false
      | some header =>
          if !admitsBox file mimeType found header offset then .error false
          else .ok (header.size, found.see header.type) := by
  have hread : readExactly file (min extendedBoxHeaderBytes (file.length - offset)) offset =
      some ((file.drop offset).take extendedBoxHeaderBytes) := by
    rw [← List.length_drop, readExactly, takeExactly_of_le (Nat.min_le_right ..),
      ← List.take_eq_take_min]
  unfold isoBmffBox
  rw [hread, ← List.length_drop]
  dsimp only
  rw [parseBoxHeader_take]
  by_cases hshort : (file.drop offset).length < basicBoxHeaderBytes
  · have hnone : parseBoxHeader (file.drop offset) 0 (file.drop offset).length true = none :=
      if_pos (by omega)
    rw [hnone, if_pos ((List.length_take_le' ..).trans_lt hshort)]
  · rw [if_neg]
    rw [List.length_take, extendedBoxHeaderBytes]
    rw [basicBoxHeaderBytes] at hshort ⊢
    omega

/-- A round of the walk goes over a box that is readable and admitted. -/
theorem isoBmffBox_eq_ok {length : ℕ} :
    isoBmffBox file mimeType found offset = .ok (length, found') ↔
      ∃ (box : IsoBox) (after : Bytes), file.drop offset = box.encode ++ after ∧
        box.encode.length = length ∧ (box.Readable ∧ (box.form = .toEnd → after = []) ∧
          BoxAdmitted mimeType found box) ∧ found' = found.see box.type := by
  rw [isoBmffBox_eq]
  constructor
  · intro h
    cases hheader : parseBoxHeader (file.drop offset) 0 (file.drop offset).length true with
    | none =>
        rw [hheader] at h
        cases h
    | some header =>
        obtain ⟨box, after, hdrop, hreadable, rfl, hend⟩ := IsoBox.exists_of_parseBoxHeader hheader
        rw [hheader] at h
        dsimp only at h
        split_ifs at h with hnot
        cases h
        rw [Bool.not_eq_true, Bool.not_eq_false', admitsBox_iff hdrop] at hnot
        exact ⟨box, after, hdrop, box.length_encode, ⟨hreadable, fun hform => (hend hform).2, hnot⟩, rfl⟩
  · rintro ⟨box, after, hdrop, rfl, ⟨hreadable, hend, hadmitted⟩, rfl⟩
    have hheader := IsoBox.parseBoxHeader_encode hreadable fun hform => ⟨rfl, hend hform⟩
    rw [← hdrop] at hheader
    rw [hheader]
    dsimp only
    rw [(admitsBox_iff hdrop).mpr hadmitted, box.length_encode]
    rfl

/-- The walk goes over the boxes, each admitted where it stands. -/
theorem scans_isoBmffBox (file : Bytes) (mimeType : IsoBmffMediaMimeType) :
    ScansBefore (isoBmffBox file mimeType) file fun found item after found' =>
      ∃ box : IsoBox, item = box.encode ∧ (box.Readable ∧ (box.form = .toEnd → after = []) ∧
        BoxAdmitted mimeType found box) ∧ found' = found.see box.type where
  sound {s offset length s'} h := by
    obtain ⟨box, after, hdrop, hlength, hlegal, hfound⟩ := isoBmffBox_eq_ok.mp h
    exact ⟨_, after, hdrop, hlength, box, rfl, hlegal, hfound⟩
  complete {s offset item after s'} hdrop hitem := by
    obtain ⟨box, rfl, hlegal, hfound⟩ := hitem
    exact isoBmffBox_eq_ok.mpr ⟨box, after, hdrop, rfl, hlegal, hfound⟩
  ne_nil {s item after s'} hitem := by
    obtain ⟨box, rfl, -⟩ := hitem
    exact box.encode_ne_nil

/-- No round ends the walk with a success. -/
theorem isoBmffBox_ne_error_true (found : FoundBoxes) (offset : ℕ) :
    isoBmffBox file mimeType found offset ≠ .error true := by
  rw [isoBmffBox_eq]
  split
  · rintro ⟨⟩
  · split_ifs <;> rintro ⟨⟩

/-- What has been found is what was found before and what the boxes are. -/
theorem foldl_see (boxes : List IsoBox) (found : FoundBoxes) :
    boxes.foldl (fun found box => found.see box.type) found =
      ⟨found.fileType || boxes.any fun box => box.type = fileTypeBox,
        found.movie || boxes.any fun box => box.type = movieBox,
        found.mediaData || boxes.any fun box => box.type = mediaDataBox⟩ := by
  induction boxes generalizing found with
  | nil => simp
  | cons box boxes ih =>
      rw [List.foldl_cons, ih]
      simp only [FoundBoxes.see, List.any_cons, Bool.or_assoc]

/-- Everything is found once there is a box of each of the three types. -/
theorem all_found_iff {boxes : List IsoBox} :
    (⟨true, true, true⟩ : FoundBoxes) =
        boxes.foldl (fun found box => found.see box.type) ⟨false, false, false⟩ ↔
      (∃ box ∈ boxes, box.type = fileTypeBox) ∧ (∃ box ∈ boxes, box.type = movieBox) ∧
        ∃ box ∈ boxes, box.type = mediaDataBox := by
  rw [foldl_see, FoundBoxes.mk.injEq, Bool.false_or, Bool.false_or, Bool.false_or]
  simp only [@eq_comm _ true, List.any_eq_true, decide_eq_true_eq]

end

/-! ## Files -/

section

variable {file : Bytes} {mimeType : IsoBmffMediaMimeType}

/-- Boxes have bytes. -/
theorem flatten_encode_eq_nil {boxes : List IsoBox} :
    (boxes.map IsoBox.encode).flatten = [] ↔ boxes = [] := by
  constructor
  · intro h
    cases boxes with
    | nil => rfl
    | cons box boxes => exact absurd (List.append_eq_nil_iff.mp h).1 box.encode_ne_nil
  · rintro rfl
    rfl

/-- The walk goes through the files of boxes that it admits one by one. -/
theorem scan_isoBmffBox_iff {remaining : ℕ} {found : FoundBoxes} :
    scan (isoBmffBox file mimeType) file.length maxTopLevelBoxes ⟨false, false, false⟩ 0 =
        .ok (remaining, found, file.length) ↔
      ∃ boxes : List IsoBox, file = (boxes.map IsoBox.encode).flatten ∧
        found = boxes.foldl (fun found box => found.see box.type) ⟨false, false, false⟩ ∧
        (∀ before box after, boxes = before ++ box :: after → box.Readable ∧
          (box.form = .toEnd → after = []) ∧ BoxAdmitted mimeType
            (before.foldl (fun found box => found.see box.type) ⟨false, false, false⟩) box) ∧
        boxes.length + remaining = maxTopLevelBoxes := by
  rw [scan_eq_ok_iff_before (scans_isoBmffBox file mimeType) (Nat.zero_le _), List.drop_zero]
  constructor
  · rintro ⟨items, hfile, hchain, hcount⟩
    obtain ⟨boxes, rfl, hboxes⟩ := chainBefore_map.mp hchain
    obtain ⟨hfound, hall⟩ := chainBefore_admits_iff.mp hboxes
    rw [List.length_map] at hcount
    refine ⟨boxes, hfile, hfound, fun before box after heq => ?_, hcount⟩
    obtain ⟨hreadable, hend, hadmitted⟩ := hall before box after heq
    exact ⟨hreadable, fun hform => flatten_encode_eq_nil.mp (hend hform), hadmitted⟩
  · rintro ⟨boxes, hfile, hfound, hall, hcount⟩
    refine ⟨boxes.map IsoBox.encode, hfile, chainBefore_map.mpr ⟨boxes, rfl,
      chainBefore_admits_iff.mpr ⟨hfound, fun before box after heq => ?_⟩⟩, ?_⟩
    · obtain ⟨hreadable, hend, hadmitted⟩ := hall before box after heq
      exact ⟨hreadable, fun hform => flatten_encode_eq_nil.mpr (hend hform), hadmitted⟩
    · rwa [List.length_map]

/-- Behind boxes of other types, a box is padding or the file-type box; behind that, neither. -/
theorem boxAdmitted_foldl {before : List IsoBox} {box : IsoBox} :
    BoxAdmitted mimeType (before.foldl (fun found box => found.see box.type) ⟨false, false, false⟩)
        box ↔
      if ∃ earlier ∈ before, earlier.type = fileTypeBox then box.type ≠ fileTypeBox
      else if box.type = fileTypeBox then
        box.size ≤ maxFileTypeBoxBytes ∧ ∃ identity, IsFileType mimeType identity box.payload
      else box.type ∈ leadingBoxTypes := by
  have hany : (before.any fun box => box.type = fileTypeBox) = true ↔
      ∃ earlier ∈ before, earlier.type = fileTypeBox := by
    simp only [List.any_eq_true, decide_eq_true_eq]
  rw [foldl_see, BoxAdmitted, Bool.false_or]
  simp only [hany]

/-- The boxes around the first file-type box are admitted one by one as they are in a file. -/
theorem forall_admitted_iff {leading rest : List IsoBox} {fileType : IsoBox}
    (htype : fileType.type = fileTypeBox) (hleading : ∀ box ∈ leading, box.type ≠ fileTypeBox) :
    (∀ before box after, leading ++ fileType :: rest = before ++ box :: after → BoxAdmitted mimeType
        (before.foldl (fun found box => found.see box.type) ⟨false, false, false⟩) box) ↔
      (∀ box ∈ leading, box.type ∈ leadingBoxTypes) ∧ (fileType.size ≤ maxFileTypeBoxBytes ∧
        ∃ identity, IsFileType mimeType identity fileType.payload) ∧
        ∀ box ∈ rest, box.type ≠ fileTypeBox := by
  simp only [boxAdmitted_foldl]
  rw [forall_split_append, forall_split_cons]
  refine and_congr ?_ (and_congr ?_ ?_)
  · rw [← forall_split_iff_forall_mem]
    refine forall₃_congr fun before box after => forall_congr' fun heq => ?_
    subst heq
    rw [if_neg, if_neg (hleading box (by simp))]
    rintro ⟨earlier, hmem, hearlier⟩
    exact hleading earlier (List.mem_append_left _ hmem) hearlier
  · rw [List.append_nil, if_neg, if_pos htype]
    rintro ⟨earlier, hmem, hearlier⟩
    exact hleading earlier hmem hearlier
  · rw [← forall_split_iff_forall_mem]
    refine forall₃_congr fun before box after => forall_congr' fun _ => ?_
    rw [if_pos ⟨fileType, by simp, htype⟩]

/-- What is accepted is walked to its end, and everything is found. -/
theorem matchesIsoBmffStructure_eq_true : matchesIsoBmffStructure file mimeType = true ↔
    24 ≤ file.length ∧ ∃ remaining, scan (isoBmffBox file mimeType) file.length maxTopLevelBoxes
      ⟨false, false, false⟩ 0 = .ok (remaining, ⟨true, true, true⟩, file.length) ∧
      remaining < maxTopLevelBoxes := by
  unfold matchesIsoBmffStructure
  split_ifs with hshort
  · exact iff_of_false (by rintro ⟨⟩) fun h => Nat.not_le.mpr hshort h.1
  rw [and_iff_right (Nat.not_lt.mp hshort)]
  cases hscan : scan (isoBmffBox file mimeType) file.length maxTopLevelBoxes
      ⟨false, false, false⟩ 0 with
  | error result =>
      cases result with
      | true => exact absurd hscan (scan_ne_error_true isoBmffBox_ne_error_true)
      | false => exact iff_of_false (by rintro ⟨⟩) (by rintro ⟨_, ⟨⟩, _⟩)
  | ok final =>
      obtain ⟨remaining, ⟨fileType, movie, mediaData⟩, offset⟩ := final
      simp only [Bool.and_eq_true, decide_eq_true_eq]
      constructor
      · rintro ⟨⟨⟨⟨rfl, hfew⟩, rfl⟩, rfl⟩, rfl⟩
        exact ⟨remaining, rfl, hfew⟩
      · rintro ⟨remaining', heq, hfew⟩
        cases heq
        exact ⟨⟨⟨⟨rfl, hfew⟩, rfl⟩, rfl⟩, rfl⟩

end

namespace IsoBmffFile

variable {mimeType : IsoBmffMediaMimeType} (isoFile : IsoBmffFile mimeType)

/-- Padding is no file-type box. -/
theorem leading_ne (box : IsoBox) (h : box ∈ isoFile.leading) : box.type ≠ fileTypeBox := by
  have hleading := isoFile.leading_types box h
  intro htype
  rw [htype] at hleading
  exact absurd hleading (by decide)

/-- Media data is behind the file-type box. -/
theorem exists_mediaData : ∃ box ∈ isoFile.rest, box.type = mediaDataBox := by
  obtain ⟨box, hmem, htype⟩ := isoFile.mediaData
  rcases List.mem_append.mp hmem with hleading | hmem
  · have hpadding := isoFile.leading_types box hleading
    rw [htype] at hpadding
    exact absurd hpadding (by decide)
  · rcases List.mem_cons.mp hmem with rfl | hrest
    · exact absurd (htype.symm.trans isoFile.fileType_type) (by decide)
    · exact ⟨box, hrest, htype⟩

/-- The file-type box says its own size, and those before it. -/
theorem ne_toEnd (box : IsoBox) (h : box ∈ isoFile.leading ∨ box = isoFile.fileType) :
    box.form ≠ .toEnd := by
  obtain ⟨mediaData, hmediaData, -⟩ := isoFile.exists_mediaData
  intro hform
  rcases h with hleading | rfl
  · obtain ⟨before, after, heq⟩ := List.append_of_mem hleading
    have hnil := isoFile.toEnd_last before box (after ++ isoFile.fileType :: isoFile.rest)
      (by rw [heq, List.append_assoc, List.cons_append]) hform
    exact List.cons_ne_nil _ _ (List.append_eq_nil_iff.mp hnil).2
  · have hnil := isoFile.toEnd_last isoFile.leading isoFile.fileType isoFile.rest rfl hform
    rw [hnil] at hmediaData
    exact List.not_mem_nil hmediaData

/-- No file is shorter than the least size. -/
theorem length_le_encode : 24 ≤ isoFile.encode.length := by
  obtain ⟨mediaData, hmediaData, -⟩ := isoFile.exists_mediaData
  obtain ⟨before, after, heq⟩ := List.append_of_mem hmediaData
  obtain ⟨identity, ⟨minorVersion, hminor, hpayload⟩, hprintable, -⟩ := isoFile.fileType_payload
  have hmajor := length_of_printable (hprintable identity.majorBrand List.mem_cons_self)
  have hfileType : 16 ≤ isoFile.fileType.encode.length := by
    have hlength := congrArg List.length hpayload
    have hheader := isoFile.fileType.form.basic_le_headerBytes
    rw [List.length_append, List.length_append, hmajor, hminor] at hlength
    rw [basicBoxHeaderBytes] at hheader
    rw [isoFile.fileType.length_encode, IsoBox.size]
    omega
  have hbasic := mediaData.basic_le_size
  rw [basicBoxHeaderBytes, ← mediaData.length_encode] at hbasic
  rw [encode, boxes, heq]
  simp only [List.map_append, List.map_cons, List.flatten_append, List.flatten_cons,
    List.length_append]
  omega

end IsoBmffFile

/-- The boxes up to the first file-type box. -/
theorem exists_first_fileType {boxes : List IsoBox} (h : ∃ box ∈ boxes, box.type = fileTypeBox) :
    ∃ leading fileType rest, boxes = leading ++ fileType :: rest ∧ fileType.type = fileTypeBox ∧
      ∀ box ∈ leading, box.type ≠ fileTypeBox := by
  induction boxes with
  | nil => simp at h
  | cons box boxes ih =>
      by_cases htype : box.type = fileTypeBox
      · exact ⟨[], box, boxes, rfl, htype, by simp⟩
      · rw [List.exists_mem_cons_iff, or_iff_right htype] at h
        obtain ⟨leading, fileType, rest, rfl, hfileType, hleading⟩ := ih h
        exact ⟨box :: leading, fileType, rest, rfl, hfileType,
          List.forall_mem_cons.mpr ⟨htype, hleading⟩⟩

/-- The walk accepts the files whose boxes are all readable. -/
theorem matchesIsoBmffStructure_iff {file : Bytes} {mimeType : IsoBmffMediaMimeType} :
    matchesIsoBmffStructure file mimeType = true ↔
      ∃ isoFile : IsoBmffFile mimeType, isoFile.encode = file ∧
        ∀ box ∈ isoFile.boxes, box.Readable := by
  rw [matchesIsoBmffStructure_eq_true]
  simp only [scan_isoBmffBox_iff, all_found_iff]
  constructor
  · rintro ⟨-, remaining, ⟨boxes, rfl, ⟨hfileType, hmovie, hmediaData⟩, hall, hcount⟩, -⟩
    obtain ⟨leading, fileType, rest, rfl, htype, hleading⟩ := exists_first_fileType hfileType
    obtain ⟨hpadding, ⟨hsize, hpayload⟩, hrest⟩ := (forall_admitted_iff htype hleading).mp
      fun before box after heq => (hall before box after heq).2.2
    refine ⟨⟨leading, fileType, rest, hpadding, htype, hsize, hpayload, hrest, hmovie, hmediaData,
      fun before box after heq => (hall before box after heq).2.1, ?_⟩, rfl, ?_⟩
    · rw [← hcount]
      exact Nat.le_add_right _ _
    · exact forall_split_iff_forall_mem.mp fun before box after heq => (hall before box after heq).1
  · rintro ⟨isoFile, rfl, hreadable⟩
    have hcount : isoFile.boxes.length ≤ maxTopLevelBoxes := isoFile.count
    have hmem : isoFile.fileType ∈ isoFile.boxes := by simp [IsoBmffFile.boxes]
    have hpos := List.length_pos_of_mem hmem
    refine ⟨isoFile.length_le_encode, maxTopLevelBoxes - isoFile.boxes.length,
      ⟨isoFile.boxes, rfl, ⟨⟨_, hmem, isoFile.fileType_type⟩, isoFile.movie, isoFile.mediaData⟩,
        fun before box after heq => ?_, Nat.add_sub_of_le hcount⟩, by omega⟩
    refine ⟨hreadable box ?_, isoFile.toEnd_last before box after heq, ?_⟩
    · rw [heq]
      exact List.mem_append_right _ List.mem_cons_self
    · exact (forall_admitted_iff isoFile.fileType_type isoFile.leading_ne).mpr
        ⟨isoFile.leading_types, ⟨isoFile.fileType_size, isoFile.fileType_payload⟩,
          isoFile.rest_types⟩ before box after heq

/-! ## The sample -/

section

variable {sample : Bytes} {mimeType : IsoBmffMediaMimeType} {offset : ℕ}

/-- In a sample, a box of a known type that says its size is read. -/
theorem parseBoxHeader_of_sample {box : IsoBox} {after : Bytes}
    (hdrop : sample.drop offset = box.encode ++ after) (hlength : sample.length ≤ inspectionBytes)
    (htype : isPrintableFourCc box.type = true) (hform : box.form ≠ .toEnd) :
    offset + box.size ≤ sample.length ∧
      parseBoxHeader sample offset (sample.length - offset) false =
        some ⟨box.type, box.size, box.form.headerBytes⟩ := by
  have hpos := List.length_pos_iff.mpr box.encode_ne_nil
  have hsum := congrArg List.length hdrop
  rw [List.length_drop, List.length_append, box.length_encode] at hsum
  rw [box.length_encode] at hpos
  have hreadable : box.Readable := by
    refine ⟨htype, fun _ => Nat.le_trans ?_ (by decide : inspectionBytes ≤ maxSafeInteger)⟩
    omega
  refine ⟨by omega, ?_⟩
  rw [parseBoxHeader_drop (by omega), ← List.length_drop, hdrop]
  exact IsoBox.parseBoxHeader_encode hreadable fun h => absurd h hform

/-- The sample passes with a file-type box of the family behind few boxes of padding. -/
theorem fileTypeSignature_of_drop {leading : List IsoBox} {fileType : IsoBox} {tail : Bytes}
    {remaining : ℕ} (hdrop : sample.drop offset =
      (leading.map IsoBox.encode).flatten ++ (fileType.encode ++ tail))
    (hlength : sample.length ≤ inspectionBytes)
    (hleading : ∀ box ∈ leading, box.type ∈ leadingBoxTypes ∧ box.form ≠ .toEnd)
    (htype : fileType.type = fileTypeBox) (hform : fileType.form ≠ .toEnd)
    (hsize : fileType.size ≤ maxFileTypeBoxBytes)
    (hpayload : ∃ identity, IsFileType mimeType identity fileType.payload)
    (hfew : leading.length < remaining) :
    fileTypeSignature sample mimeType remaining offset = true := by
  have hpadding : ∀ type ∈ leadingBoxTypes, isPrintableFourCc type = true ∧ type ≠ fileTypeBox := by
    decide
  induction leading generalizing offset remaining with
  | nil =>
      obtain ⟨remaining, rfl⟩ := Nat.exists_eq_succ_of_ne_zero (Nat.ne_of_gt hfew)
      rw [List.map_nil, List.flatten_nil, List.nil_append] at hdrop
      obtain ⟨hle, hparse⟩ := parseBoxHeader_of_sample hdrop hlength (htype ▸ by decide) hform
      have hbasic := fileType.basic_le_size
      have hbox : (sample.drop offset).take fileType.size = fileType.encode := by
        rw [hdrop, List.take_left' fileType.length_encode]
      rw [fileTypeSignature, if_pos (by omega), hparse]
      dsimp only
      rw [if_neg (Nat.not_lt.mpr hle), if_pos htype, if_neg (Nat.not_lt.mpr hsize), hbox]
      exact matchesFileType_iff.mpr hpayload
  | cons box leading ih =>
      obtain ⟨remaining, rfl⟩ := Nat.exists_eq_succ_of_ne_zero (Nat.ne_zero_of_lt hfew)
      obtain ⟨⟨hmem, hforms⟩, hrest⟩ := List.forall_mem_cons.mp hleading
      obtain ⟨hprintable, hne⟩ := hpadding box.type hmem
      rw [List.map_cons, List.flatten_cons, List.append_assoc] at hdrop
      obtain ⟨hle, hparse⟩ := parseBoxHeader_of_sample hdrop hlength hprintable hforms
      have hbasic := box.basic_le_size
      have hbehind : sample.drop (offset + box.size) =
          (leading.map IsoBox.encode).flatten ++ (fileType.encode ++ tail) := by
        rw [← List.drop_drop, hdrop, List.drop_left' box.length_encode]
      rw [fileTypeSignature, if_pos (by omega), hparse]
      dsimp only
      rw [if_neg (Nat.not_lt.mpr hle), if_neg hne, List.contains_iff_mem.mpr hmem, if_neg (by decide)]
      exact ih hbehind hrest (Nat.lt_of_succ_lt_succ hfew)

end

/-- A file whose file-type box ends in the sample, behind at most eight others, passes there. -/
theorem IsoBmffFile.matchesFileTypeSignature {mimeType : IsoBmffMediaMimeType}
    (isoFile : IsoBmffFile mimeType) (hfew : isoFile.leading.length ≤ 8)
    (hhead : isoFile.head.length ≤ inspectionBytes) :
    matchesIsoBmffFileTypeSignature (isoFile.encode.take inspectionBytes) mimeType = true := by
  have hsplit : isoFile.encode =
      isoFile.head ++ (isoFile.rest.map IsoBox.encode).flatten := by
    simp only [encode, boxes, head, List.map_append, List.map_cons, List.flatten_append,
      List.flatten_cons, List.append_assoc]
  have hsample : (isoFile.encode.take inspectionBytes).drop 0 =
      (isoFile.leading.map IsoBox.encode).flatten ++ (isoFile.fileType.encode ++
        ((isoFile.rest.map IsoBox.encode).flatten).take (inspectionBytes - isoFile.head.length)) := by
    rw [List.drop_zero, hsplit, List.take_append, List.take_of_length_le hhead, head,
      List.append_assoc]
  exact fileTypeSignature_of_drop hsample (List.length_take_le ..)
    (fun box hmem => ⟨isoFile.leading_types box hmem, isoFile.ne_toEnd box (.inl hmem)⟩)
    isoFile.fileType_type (isoFile.ne_toEnd _ (.inr rfl)) isoFile.fileType_size
    isoFile.fileType_payload (Nat.lt_succ_of_le hfew)

/-- **An ISO base media file** is accepted iff it is a file of readable boxes. The walk goes eight bytes
further with every box, and it accepts nothing that the check of the sample would have refused, if the
file-type box ends there behind at most eight others. -/
theorem iso_bmff_structure (file : Bytes) (mimeType : IsoBmffMediaMimeType) :
    (matchesIsoBmffStructure file mimeType = true ↔
      ∃ isoFile : IsoBmffFile mimeType, isoFile.encode = file ∧
        ∀ box ∈ isoFile.boxes, box.Readable) ∧
    (visited (isoBmffBox file mimeType) file.length maxTopLevelBoxes ⟨false, false, false⟩ 0).Pairwise
      (fun earlier later => earlier + basicBoxHeaderBytes ≤ later) ∧
    ∀ isoFile : IsoBmffFile mimeType, isoFile.encode = file → isoFile.leading.length ≤ 8 →
      isoFile.head.length ≤ inspectionBytes →
        matchesIsoBmffFileTypeSignature (file.take inspectionBytes) mimeType = true := by
  refine ⟨matchesIsoBmffStructure_iff, (pairwise_visited fun h => ?_).1, ?_⟩
  · obtain ⟨box, after, -, rfl, -⟩ := isoBmffBox_eq_ok.mp h
    rw [box.length_encode]
    exact box.basic_le_size
  · rintro isoFile rfl hfew hhead
    exact isoFile.matchesFileTypeSignature hfew hhead

/-- **The two walks agree.** A file is accepted iff boxes of the family's layout tile it and each of them
is readable: its type is printable, and a 64-bit size is an exact number. Where the first file-type box
ends in the sample behind at most eight others, the check of the sample accepts the file too. -/
theorem iso_bmff_walks_agree (file : Bytes) (mimeType : IsoBmffMediaMimeType) :
    (matchesIsoBmffStructure file mimeType = true ↔
      ∃ isoFile : IsoBmffFile mimeType, isoFile.encode = file ∧
        ∀ box ∈ isoFile.boxes, isPrintableFourCc box.type = true ∧
          (box.form = .extended → box.size ≤ maxSafeInteger)) ∧
    (matchesIsoBmffStructure file mimeType = true →
      ∀ isoFile : IsoBmffFile mimeType, isoFile.encode = file → isoFile.leading.length ≤ 8 →
        isoFile.head.length ≤ inspectionBytes →
          matchesIsoBmffFileTypeSignature (file.take inspectionBytes) mimeType = true) := by
  constructor
  · rw [matchesIsoBmffStructure_iff]
    refine exists_congr fun isoFile => and_congr_right fun _ => forall₂_congr fun box _ => ?_
    exact ⟨fun h => ⟨h.printable, h.exact⟩, fun h => ⟨h.1, h.2⟩⟩
  · rintro - isoFile rfl hfew hhead
    exact isoFile.matchesFileTypeSignature hfew hhead

/-- A box that says its size in 32 bits. -/
def compactBox (type payload : Bytes) (htype : type.length = 4)
    (hfits : basicBoxHeaderBytes + payload.length < 256 ^ 4) : IsoBox :=
  ⟨.compact, type, payload, htype, hfits⟩

/-- A video with a last box whose type is not printable. -/
def unprintableBoxVideo : IsoBmffFile .videoMp4 where
  leading := []
  fileType := compactBox fileTypeBox (asciiBytes "isom" ++ [0, 0, 0, 0]) rfl (by decide)
  rest := [compactBox movieBox [] rfl (by decide), compactBox mediaDataBox [] rfl (by decide),
    compactBox [0, 0, 0, 0] [] rfl (by decide)]
  leading_types := by decide
  fileType_type := rfl
  fileType_size := by decide
  fileType_payload := ⟨⟨asciiBytes "isom", []⟩, ⟨[0, 0, 0, 0], rfl, rfl⟩, by decide, by decide⟩
  rest_types := by decide
  movie := ⟨_, List.mem_cons_of_mem _ List.mem_cons_self, rfl⟩
  mediaData := ⟨_, List.mem_cons_of_mem _ (List.mem_cons_of_mem _ List.mem_cons_self), rfl⟩
  toEnd_last := by
    intro before box after heq hform
    have hmem : box ∈ before ++ box :: after := List.mem_append_right _ List.mem_cons_self
    rw [← heq] at hmem
    simp only [List.nil_append, List.mem_cons, List.not_mem_nil, or_false] at hmem
    rcases hmem with rfl | rfl | rfl | rfl <;> cases hform
  count := by decide

/-- Boxes of the layout are not enough: a box whose type is not printable is refused. -/
theorem unprintable_box_refused : ¬ ∀ (file : Bytes) (mimeType : IsoBmffMediaMimeType),
    matchesIsoBmffStructure file mimeType = true ↔
      ∃ isoFile : IsoBmffFile mimeType, isoFile.encode = file := by
  intro h
  have haccepted := (h unprintableBoxVideo.encode .videoMp4).mpr ⟨unprintableBoxVideo, rfl⟩
  exact absurd haccepted (by decide)

end ApiWhatsApp
