import ApiWhatsApp.Library.JavaScript
import ApiWhatsApp.Media.AacStructure
import ApiWhatsApp.Media.AmrStructure
import ApiWhatsApp.Media.IsoBmffStructure
import ApiWhatsApp.Media.JpegStructure
import ApiWhatsApp.Media.MpegStructure
import ApiWhatsApp.Media.OggStructure
import ApiWhatsApp.Media.OoxmlPackage
import ApiWhatsApp.Media.PdfStructure
import ApiWhatsApp.Media.PngStructure

/-!
# Content and MIME type

`assertMediaContentSignature` of `media/media-content-signature.ts`: the check of the first bytes of an
upload, and the validator of its type behind it.

* `HasContent` says what a file of each MIME type is. **`content_signature`** — these are the uploads
  that pass; for the types whose validator reads the first bytes too, the check of them refuses nothing
  more.
* `leadingFamily` is what the first two bytes say. **`content_signature_exclusive`** — an upload that
  passes as two types is of one family, unless one of the types is a text or a PDF.
-/

namespace ApiWhatsApp

open Library

/-! ## The check of the first bytes -/

/-- Source: `OLE_SIGNATURE`. -/
def oleSignature : Bytes := [0xd0, 0xcf, 0x11, 0xe0, 0xa1, 0xb1, 0x1a, 0xe1]

/-- Source: `ZIP_LOCAL_HEADER`. -/
def zipLocalHeader : Bytes := [0x50, 0x4b, 0x03, 0x04]

/-- Source: `PDF_HEADER`. -/
def pdfHeader : Bytes := asciiBytes "%PDF-"

/-- Source: `LEGACY_OFFICE_MIME_TYPES`. -/
def legacyOfficeMimeTypes : List String :=
  ["application/msword", "application/vnd.ms-excel", "application/vnd.ms-powerpoint"]

/-- Source: `OOXML_MIME_TYPES`. -/
def ooxmlMimeTypes : List String := ooxmlRequiredEntryByMime.map Prod.fst

/-- Source: `MediaContentSignatureError`. -/
structure MediaContentSignatureError where
  mimeType : String
  deriving DecidableEq

/-- The text of the error. -/
def MediaContentSignatureError.message (error : MediaContentSignatureError) : String :=
  s!"Media file content does not match declared MIME type: {error.mimeType}"

/-- `bytes.toString("ascii")`, which drops the high bit of every byte. -/
def asciiText (bytes : Bytes) : Bytes := bytes.map fun b => b &&& 0x7f

/-- Source: `isAdtsAac`. -/
def isAdtsAac (sample : Bytes) : Bool :=
  if sample.length < 2 then false
  else sample.getD 0 0 = 0xff && sample.getD 1 0 &&& 0xf6 = 0xf0

/-- Source: `isMp3`. -/
def isMp3 (sample : Bytes) : Bool :=
  if sample.length ≥ 3 && asciiText (sample.take 3) = asciiBytes "ID3" then true
  else if sample.length < 2 ∨ sample.getD 0 0 ≠ 0xff ∨ sample.getD 1 0 &&& 0xe0 ≠ 0xe0 then false
  else sample.getD 1 0 &&& 0x06 ≠ 0

/-- The MIME types of `isIsoBmffMediaMimeType`. -/
def IsoBmffMediaMimeType.text : IsoBmffMediaMimeType → String
  | .audioMp4 => "audio/mp4"
  | .videoMp4 => "video/mp4"
  | .video3gpp => "video/3gpp"

/-- Source: `isIsoBmffMediaMimeType`. -/
def isoBmffMediaMimeType? (mimeType : String) : Option IsoBmffMediaMimeType :=
  [.audioMp4, .videoMp4, .video3gpp].find? fun iso => iso.text = mimeType

/-- Source: `matchesMimeSignature`. -/
def matchesMimeSignature (sample : Bytes) (mimeType : String) : Bool :=
  if sample.length = 0 then false
  else if mimeType = "image/jpeg" then ([0xff, 0xd8, 0xff] : Bytes).isPrefixOf sample
  else if mimeType = "image/png" then pngSignature.isPrefixOf sample
  else if mimeType = "application/pdf" then
    (firstWith pdfHeader (sample.take (min sample.length 1024))).isSome
  else if mimeType = "audio/ogg" then asciiText (sample.take 4) = asciiBytes "OggS"
  else if mimeType = "audio/aac" then
    isAdtsAac sample || asciiText (sample.take 4) = asciiBytes "ADIF"
  else if mimeType = "audio/mpeg" then isMp3 sample
  else if mimeType = "audio/amr" then
    asciiText (sample.take 6) = asciiBytes "#!AMR\n" ||
      asciiText (sample.take 9) = asciiBytes "#!AMR-WB\n"
  else
    match isoBmffMediaMimeType? mimeType with
    | some iso => matchesIsoBmffFileTypeSignature sample iso
    | none =>
        if mimeType = "text/plain" then !sample.contains 0x00
        else if legacyOfficeMimeTypes.contains mimeType then oleSignature.isPrefixOf sample
        else if ooxmlMimeTypes.contains mimeType then zipLocalHeader.isPrefixOf sample
        else false

/-- Source: `isStructuredAudioMimeType`. -/
def isStructuredAudioMimeType (mimeType : String) : Bool :=
  ["audio/ogg", "audio/aac", "audio/mpeg", "audio/amr"].contains mimeType

/-- Source: `matchesAudioStructure`, for the types of `isStructuredAudioMimeType`. -/
def matchesAudioStructure (file : Bytes) (mimeType : String) : Bool :=
  if mimeType = "audio/ogg" then matchesOggStructure file true
  else if mimeType = "audio/aac" then matchesAacStructure file
  else if mimeType = "audio/mpeg" then matchesMpegAudioStructure file
  else matchesAmrStructure file

/-- `if (!valid) { throw new MediaContentSignatureError(mimeType); }`, for the types that it `applies` to. -/
def refuseUnless (mimeType : String) (applies valid : Bool) : Except MediaContentSignatureError Unit :=
  if applies && !valid then .error ⟨mimeType⟩ else .ok ()

/-- Source: `assertMediaContentSignature`. `readPrefix` gives the first bytes of the file. -/
def assertMediaContentSignature (file : Bytes) (mimeType : String) :
    Except MediaContentSignatureError Unit := do
  let normalizedMimeType := toLowerCase (trim mimeType)
  let sample := file.take inspectionBytes
  refuseUnless normalizedMimeType true (matchesMimeSignature sample normalizedMimeType)
  refuseUnless normalizedMimeType (normalizedMimeType = "image/jpeg") (matchesJpegStructure file)
  refuseUnless normalizedMimeType (normalizedMimeType = "image/png") (matchesPngStructure file)
  refuseUnless normalizedMimeType (isStructuredAudioMimeType normalizedMimeType)
    (matchesAudioStructure file normalizedMimeType)
  refuseUnless normalizedMimeType (normalizedMimeType = "application/pdf") (matchesPdfStructure file)
  refuseUnless normalizedMimeType (isoBmffMediaMimeType? normalizedMimeType).isSome
    ((isoBmffMediaMimeType? normalizedMimeType).any (matchesIsoBmffStructure file))
  refuseUnless normalizedMimeType (ooxmlMimeTypes.contains normalizedMimeType)
    (matchesOoxmlPackageIdentity file normalizedMimeType)

/-! ## What the types ask for -/

/-- What a file is checked for. -/
inductive MediaKind where
  | jpeg
  | png
  | pdf
  | ogg
  | aac
  | mpeg
  | amr
  | isoBmff (iso : IsoBmffMediaMimeType)
  | text
  | legacyOffice
  | ooxml
  deriving DecidableEq

/-- The MIME types of each kind. -/
def mediaKinds : List (String × MediaKind) :=
  [("image/jpeg", .jpeg), ("image/png", .png), ("application/pdf", .pdf), ("audio/ogg", .ogg),
    ("audio/aac", .aac), ("audio/mpeg", .mpeg), ("audio/amr", .amr),
    ("audio/mp4", .isoBmff .audioMp4), ("video/mp4", .isoBmff .videoMp4),
    ("video/3gpp", .isoBmff .video3gpp), ("text/plain", .text)] ++
    (legacyOfficeMimeTypes.map fun mimeType => (mimeType, .legacyOffice)) ++
    ooxmlMimeTypes.map fun mimeType => (mimeType, .ooxml)

/-- The files of a kind. -/
def MediaKind.Content (file : Bytes) (mimeType : String) : MediaKind → Prop
  | .jpeg => matchesJpegStructure file = true
  | .png => matchesPngStructure file = true
  | .pdf => matchesPdfStructure file = true
  | .ogg => matchesOggStructure file true = true
  | .aac => matchesAacStructure file = true
  | .mpeg => matchesMpegAudioStructure file = true
  | .amr => matchesAmrStructure file = true
  | .isoBmff iso => matchesIsoBmffFileTypeSignature (file.take inspectionBytes) iso = true ∧
      matchesIsoBmffStructure file iso = true
  | .text => file ≠ [] ∧ 0x00 ∉ file.take inspectionBytes
  | .legacyOffice => oleSignature <+: file
  | .ooxml => zipLocalHeader <+: file ∧ matchesOoxmlPackageIdentity file mimeType = true

/-- A file of a MIME type. -/
def HasContent (file : Bytes) (mimeType : String) : Prop :=
  ∃ kind, mediaKinds.lookup mimeType = some kind ∧ kind.Content file mimeType

/-- A file with the contents of its type has those of the kind. -/
theorem HasContent.content {file : Bytes} {mimeType : String} (h : HasContent file mimeType)
    {kind : MediaKind} (hkind : mediaKinds.lookup mimeType = some kind) : kind.Content file mimeType := by
  obtain ⟨kind', hkind', hcontent⟩ := h
  rw [hkind] at hkind'
  cases hkind'
  exact hcontent

/-- The old office formats are one kind. -/
theorem lookup_legacyOffice {mimeType : String} (h : mimeType ∈ legacyOfficeMimeTypes) :
    mediaKinds.lookup mimeType = some .legacyOffice := by
  simp only [legacyOfficeMimeTypes, List.mem_cons, List.not_mem_nil, or_false] at h
  rcases h with rfl | rfl | rfl <;> decide

/-- The package formats are one kind. -/
theorem lookup_ooxmlKind {mimeType : String} (h : mimeType ∈ ooxmlMimeTypes) :
    mediaKinds.lookup mimeType = some .ooxml := by
  simp only [ooxmlMimeTypes, ooxmlRequiredEntryByMime, List.map_cons, List.map_nil, List.mem_cons,
    List.not_mem_nil, or_false] at h
  rcases h with rfl | rfl | rfl <;> decide

/-! ## The first bytes of a file -/

/-- How a JPEG file begins. -/
theorem jpeg_leading {file : Bytes} (h : matchesJpegStructure file = true) :
    [0xff, 0xd8, 0xff] <+: file := by
  obtain ⟨content, rfl⟩ := exists_between h
  obtain ⟨hlength, hscan⟩ := matchesJpegStructure_iff.mp h
  cases content with
  | nil => exact absurd hlength (by decide)
  | cons b content =>
      have hbyte : readExactly (jpegSoi ++ b :: content ++ jpegEoi) 1 jpegSoi.length = some [b] := by
        refine readExactly_byte.mpr ⟨content ++ jpegEoi, ?_⟩
        rw [List.append_assoc, List.drop_left, List.cons_append]
      by_cases hb : b = 0xff
      · rw [hb]
        exact ⟨content ++ jpegEoi, by simp [jpegSoi]⟩
      · have hlt : jpegSoi.length < (jpegSoi ++ b :: content).length := by
          rw [List.length_append, List.length_cons]
          omega
        have hbudget : jpegMaxHeaderMarkers = 1023 + 1 := rfl
        rw [hbudget, scan, if_pos hlt, jpegMarker, readJpegMarker, hbyte] at hscan
        dsimp only at hscan
        rw [if_pos hb] at hscan
        cases hscan

/-- How a PNG file begins. -/
theorem png_leading {file : Bytes} (h : matchesPngStructure file = true) : pngSignature <+: file := by
  unfold matchesPngStructure at h
  split_ifs at h with hshort hread
  obtain ⟨-, after, hdrop⟩ := readExactly_eq_some.mp (not_not.mp hread)
  exact ⟨after, hdrop.symm⟩

/-- How an Ogg file begins. -/
theorem ogg_leading {file : Bytes} {requireOpusProfile : Bool}
    (h : matchesOggStructure file requireOpusProfile = true) : oggCapture <+: file := by
  obtain ⟨_ | ⟨page, pages⟩, rfl, -, hcontainer, -⟩ := (matchesOggStructure_iff file _).mp h
  · exact absurd hcontainer.pages_pos (by decide)
  · rw [encodePages, List.map_cons, List.flatten_cons, page.encode_eq, OggPage.fixed, OggPage.head]
    simp only [List.append_assoc]
    exact List.prefix_append _ _

/-- How an AAC file begins. -/
theorem aac_leading {file : Bytes} (h : matchesAacStructure file = true) :
    aacAdif <+: file ∨ ∃ b after, b &&& 0xf6 = 0xf0 ∧ file = 0xff :: b :: after := by
  obtain ⟨-, h⟩ := (matchesAacStructure_eq file).mp h
  split_ifs at h with hmagic
  · exact .inl (hmagic ▸ List.take_prefix 4 file)
  · obtain ⟨⟨_ | ⟨frame, frames⟩, hpos, hlt⟩, rfl⟩ := adts_iff.mp h
    · cases hpos
    · have hbits : ∀ mpeg2 protectionAbsent : Bool,
          UInt8.ofNat (0xf0 + mpeg2.toNat * 8 + protectionAbsent.toNat) &&& 0xf6 = 0xf0 := by
        decide
      exact .inr ⟨_, _, hbits frame.mpeg2 frame.protectionAbsent, rfl⟩

/-- How an MPEG audio file begins. -/
theorem mpeg_leading {file : Bytes} (h : matchesMpegAudioStructure file = true) :
    asciiBytes "ID3" <+: file ∨
      ∃ b after, b &&& 0xe0 = 0xe0 ∧ b &&& 0x06 ≠ 0 ∧ file = 0xff :: b :: after := by
  obtain ⟨⟨tag, frames, block, hpos, hlt⟩, rfl, -⟩ := matchesMpegAudioStructure_iff.mp h
  cases tag with
  | some tag =>
      refine .inl ?_
      rw [MpegAudio.encode, MpegAudio.tagBytes, Option.elim_some, Id3v2Tag.encode]
      simp only [List.append_assoc]
      exact List.prefix_append _ _
  | none =>
      cases frames with
      | nil => exact absurd hpos (by decide)
      | cons frame frames =>
          have hbits : ∀ (version : MpegVersion) (layer : MpegLayer) (unprotected : Bool),
              let b := UInt8.ofNat (0xe0 + version.bits * 8 + layer.bits * 2 + unprotected.toNat)
              b &&& 0xe0 = 0xe0 ∧ b &&& 0x06 ≠ 0 := by
            rintro (_ | _ | _) (_ | _ | _) (_ | _) <;> decide
          obtain ⟨hsync, hlayer⟩ := hbits frame.header.version frame.header.layer frame.header.unprotected
          exact .inr ⟨_, _, hsync, hlayer, rfl⟩

/-- How an AMR file begins. -/
theorem amr_leading {file : Bytes} (h : matchesAmrStructure file = true) :
    ∃ wideband, amrMagic wideband <+: file := by
  obtain ⟨wideband, hmagic, -⟩ := (matchesAmrStructure_eq file).mp h
  exact ⟨wideband, hmagic⟩

/-- Where a PDF file has its header. -/
theorem pdf_leading {file : Bytes} (h : matchesPdfStructure file = true) :
    (firstWith pdfHeader (file.take pdfHeaderSearchBytes)).isSome = true := by
  unfold matchesPdfStructure at h
  rw [readExactly_start] at h
  dsimp only at h
  split_ifs at h with hshort hheader
  unfold hasVersionedHeader at hheader
  rw [pdfHeader]
  cases hfirst : firstWith (asciiBytes "%PDF-") (file.take pdfHeaderSearchBytes) with
  | none =>
      rw [hfirst] at hheader
      exact absurd rfl hheader
  | some text => rfl

/-- A sample of boxes begins with the size of one that ends in it. -/
theorem isoBmff_leading {sample : Bytes} {iso : IsoBmffMediaMimeType}
    (hlength : sample.length ≤ inspectionBytes)
    (h : matchesIsoBmffFileTypeSignature sample iso = true) : ∃ b after, sample = 0x00 :: b :: after := by
  unfold matchesIsoBmffFileTypeSignature fileTypeSignature at h
  split_ifs at h with hlong
  cases hheader : parseBoxHeader sample 0 (sample.length - 0) false with
  | none =>
      rw [hheader] at h
      cases h
  | some header =>
      have hsize : readBE sample 4 0 ≤ inspectionBytes := by
        unfold parseBoxHeader at hheader
        rw [inspectionBytes] at hlength ⊢
        dsimp only at hheader
        split_ifs at hheader <;> omega
      rw [basicBoxHeaderBytes] at hlong
      obtain ⟨b0, b1, b2, b3, after, rfl⟩ : ∃ b0 b1 b2 b3 after, sample = b0 :: b1 :: b2 :: b3 :: after := by
        rcases sample with _ | ⟨b0, _ | ⟨b1, _ | ⟨b2, _ | ⟨b3, after⟩⟩⟩⟩
        · exact absurd hlong (by decide)
        · exact absurd hlong (by simp)
        · exact absurd hlong (by simp)
        · exact absurd hlong (by simp)
        · exact ⟨b0, b1, b2, b3, after, rfl⟩
      have hvalue : readBE (b0 :: b1 :: b2 :: b3 :: after) 4 0 =
          b3.toNat + 256 * (b2.toNat + 256 * (b1.toNat + 256 * (b0.toNat + 256 * 0))) := rfl
      rw [hvalue, inspectionBytes] at hsize
      have hzero : b0.toNat = 0 := by omega
      obtain rfl : b0 = 0x00 := UInt8.toNat_inj.mp hzero
      exact ⟨b1, b2 :: b3 :: after, rfl⟩

/-! ## The check of the sample -/

/-- A short beginning is in the sample. -/
theorem startsWith_sample {text file : Bytes} (hlength : text.length ≤ inspectionBytes) :
    text.isPrefixOf (file.take inspectionBytes) = true ↔ text <+: file := by
  rw [List.isPrefixOf_iff_prefix, List.prefix_take_iff, and_iff_left hlength]

/-- A short ASCII beginning is read from the sample as it is. -/
theorem asciiText_sample {text file : Bytes} (hlength : text.length ≤ inspectionBytes)
    (hascii : asciiText text = text) (h : text <+: file) :
    asciiText ((file.take inspectionBytes).take text.length) = text := by
  rw [List.take_take, Nat.min_eq_left hlength, ← List.prefix_iff_eq_take.mp h, hascii]

/-- The first two bytes are in the sample. -/
theorem exists_sample_cons {b c : UInt8} {after : Bytes} :
    ∃ rest, (b :: c :: after).take inspectionBytes = b :: c :: rest := ⟨after.take 8190, rfl⟩

/-- The sample of a file with an ADTS header passes. -/
theorem isAdtsAac_sample {b : UInt8} {after : Bytes} (h : b &&& 0xf6 = 0xf0) :
    isAdtsAac ((0xff :: b :: after).take inspectionBytes) = true := by
  obtain ⟨rest, hrest⟩ := @exists_sample_cons 0xff b after
  rw [hrest, isAdtsAac, if_neg (by simp)]
  simp [h]

/-- The sample of a file with an MPEG frame passes. -/
theorem isMp3_sample {b : UInt8} {after : Bytes} (hsync : b &&& 0xe0 = 0xe0) (hlayer : b &&& 0x06 ≠ 0) :
    isMp3 ((0xff :: b :: after).take inspectionBytes) = true := by
  obtain ⟨rest, hrest⟩ := @exists_sample_cons 0xff b after
  rw [hrest, isMp3]
  split_ifs with hid3 hlong
  · rfl
  · simp [hsync] at hlong
  · simp [hlayer]

/-- The sample of a file with an ID3v2 tag passes. -/
theorem isMp3_of_tag {file : Bytes} (h : asciiBytes "ID3" <+: file) :
    isMp3 (file.take inspectionBytes) = true := by
  have hascii : asciiText ((file.take inspectionBytes).take 3) = asciiBytes "ID3" :=
    asciiText_sample (by decide) (by decide) h
  have hlong : (file.take inspectionBytes).length ≥ 3 := by
    have hle : 3 ≤ file.length := h.length_le
    rw [List.length_take, inspectionBytes]
    omega
  rw [isMp3, if_pos]
  rw [hascii, decide_eq_true hlong]
  rfl

/-- Only for the package formats is a package accepted. -/
theorem mem_ooxmlMimeTypes {file : Bytes} {mimeType : String}
    (h : matchesOoxmlPackageIdentity file mimeType = true) : mimeType ∈ ooxmlMimeTypes := by
  obtain ⟨family, archive, hmem, -⟩ := matchesOoxmlPackageIdentity_iff_package.mp h
  exact List.mem_map_of_mem hmem

/-- A kind that is found is in the table. -/
theorem mem_of_lookup {mimeType : String} {kind : MediaKind}
    (h : mediaKinds.lookup mimeType = some kind) : (mimeType, kind) ∈ mediaKinds := by
  obtain ⟨before, after, heq, -⟩ := List.lookup_eq_some_iff.mp h
  rw [heq]
  exact List.mem_append_right _ List.mem_cons_self

/-- Each ISO media kind stands in the table under its own type. -/
theorem eq_text_of_mem {mimeType : String} {iso : IsoBmffMediaMimeType}
    (h : (mimeType, .isoBmff iso) ∈ mediaKinds) : mimeType = iso.text := by
  cases iso <;> simpa [mediaKinds, IsoBmffMediaMimeType.text] using h

/-- The ISO media types are read from their texts. -/
theorem isoBmffMediaMimeType?_eq_some {mimeType : String} {iso : IsoBmffMediaMimeType} :
    isoBmffMediaMimeType? mimeType = some iso ↔ mimeType = iso.text := by
  constructor
  · intro h
    have hiso := List.find?_some (p := fun iso : IsoBmffMediaMimeType => decide (iso.text = mimeType)) h
    exact (of_decide_eq_true hiso).symm
  · rintro rfl
    cases iso <;> decide

/-- A file is not empty if something stands at its start. -/
theorem sample_ne_zero {text file : Bytes} (hne : text ≠ []) (h : text <+: file) :
    (file.take inspectionBytes).length ≠ 0 := by
  obtain ⟨after, rfl⟩ := h
  have hpos := List.length_pos_iff.mpr hne
  rw [List.length_take, List.length_append, inspectionBytes]
  omega

/-- What is a file of its type passes the check of its first bytes. -/
theorem HasContent.signature {file : Bytes} {mimeType : String} (h : HasContent file mimeType) :
    matchesMimeSignature (file.take inspectionBytes) mimeType = true := by
  obtain ⟨kind, hkind, h⟩ := h
  have hmem := mem_of_lookup hkind
  unfold matchesMimeSignature
  cases kind with
  | jpeg =>
      obtain rfl : mimeType = "image/jpeg" := by simpa [mediaKinds] using hmem
      have hstart := jpeg_leading h
      rw [if_neg (sample_ne_zero (by decide) hstart)]
      exact (startsWith_sample (by decide)).mpr hstart
  | png =>
      obtain rfl : mimeType = "image/png" := by simpa [mediaKinds] using hmem
      have hstart := png_leading h
      rw [if_neg (sample_ne_zero (by decide) hstart)]
      exact (startsWith_sample (by decide)).mpr hstart
  | ogg =>
      obtain rfl : mimeType = "audio/ogg" := by simpa [mediaKinds] using hmem
      have hstart := ogg_leading h
      rw [if_neg (sample_ne_zero (by decide) hstart)]
      exact decide_eq_true (asciiText_sample (by decide) (by decide) hstart)
  | aac =>
      obtain rfl : mimeType = "audio/aac" := by simpa [mediaKinds] using hmem
      rcases aac_leading h with hstart | ⟨b, after, hb, rfl⟩
      · rw [if_neg (sample_ne_zero (by decide) hstart)]
        exact Bool.or_eq_true_iff.mpr
          (.inr (decide_eq_true (asciiText_sample (by decide) (by decide) hstart)))
      · have hstart : [0xff, b] <+: 0xff :: b :: after := ⟨after, rfl⟩
        rw [if_neg (sample_ne_zero (List.cons_ne_nil _ _) hstart)]
        exact Bool.or_eq_true_iff.mpr (.inl (isAdtsAac_sample hb))
  | mpeg =>
      obtain rfl : mimeType = "audio/mpeg" := by simpa [mediaKinds] using hmem
      rcases mpeg_leading h with hstart | ⟨b, after, hsync, hlayer, rfl⟩
      · rw [if_neg (sample_ne_zero (by decide) hstart)]
        exact isMp3_of_tag hstart
      · have hstart : [0xff, b] <+: 0xff :: b :: after := ⟨after, rfl⟩
        rw [if_neg (sample_ne_zero (List.cons_ne_nil _ _) hstart)]
        exact isMp3_sample hsync hlayer
  | amr =>
      obtain rfl : mimeType = "audio/amr" := by simpa [mediaKinds] using hmem
      obtain ⟨wideband, hstart⟩ := amr_leading h
      rw [if_neg (sample_ne_zero (by cases wideband <;> decide) hstart)]
      have hascii : asciiText ((file.take inspectionBytes).take (amrMagic wideband).length) =
          amrMagic wideband :=
        asciiText_sample (by cases wideband <;> decide) (by cases wideband <;> decide) hstart
      cases wideband with
      | true => exact Bool.or_eq_true_iff.mpr (.inr (decide_eq_true hascii))
      | false => exact Bool.or_eq_true_iff.mpr (.inl (decide_eq_true hascii))
  | pdf =>
      obtain rfl : mimeType = "application/pdf" := by simpa [mediaKinds] using hmem
      have hfirst := pdf_leading h
      have hne : (file.take inspectionBytes).length ≠ 0 := by
        intro hzero
        rw [List.length_take, inspectionBytes] at hzero
        obtain rfl := List.eq_nil_of_length_eq_zero (show file.length = 0 by omega)
        exact absurd hfirst (by decide)
      have hsample : (file.take inspectionBytes).take (min (file.take inspectionBytes).length 1024) =
          file.take pdfHeaderSearchBytes := by
        rw [Nat.min_comm, ← List.take_eq_take_min, List.take_take]
        rfl
      rw [if_neg hne, hsample]
      exact hfirst
  | isoBmff iso =>
      obtain ⟨hsignature, -⟩ := h
      obtain rfl := eq_text_of_mem hmem
      obtain ⟨b, after, hsample⟩ := isoBmff_leading (List.length_take_le ..) hsignature
      have hne : (file.take inspectionBytes).length ≠ 0 := by
        rw [hsample]
        exact Nat.succ_ne_zero _
      rw [if_neg hne]
      cases iso <;> exact hsignature
  | text =>
      obtain ⟨hne, hzero⟩ := h
      obtain rfl : mimeType = "text/plain" := by simpa [mediaKinds] using hmem
      have hlength : (file.take inspectionBytes).length ≠ 0 := by
        rw [List.length_take, inspectionBytes]
        have hpos := List.length_pos_iff.mpr hne
        omega
      rw [if_neg hlength]
      have hcontains : (!(file.take inspectionBytes).contains 0x00) = true := by simpa using hzero
      exact hcontains
  | legacyOffice =>
      have hmem : mimeType ∈ legacyOfficeMimeTypes := by simpa [mediaKinds] using hmem
      rw [if_neg (sample_ne_zero (by decide) h)]
      have hstart := (startsWith_sample (by decide)).mpr h
      simp only [legacyOfficeMimeTypes, List.mem_cons, List.not_mem_nil, or_false] at hmem
      rcases hmem with rfl | rfl | rfl <;> exact hstart
  | ooxml =>
      obtain ⟨hstart, h⟩ := h
      rw [if_neg (sample_ne_zero (by decide) hstart)]
      have hstart := (startsWith_sample (by decide)).mpr hstart
      have hmem := mem_ooxmlMimeTypes h
      simp only [ooxmlMimeTypes, ooxmlRequiredEntryByMime, List.map_cons, List.map_nil, List.mem_cons,
        List.not_mem_nil, or_false] at hmem
      rcases hmem with rfl | rfl | rfl <;> exact hstart

/-! ## Uploads -/

/-- What `assertMediaContentSignature` asks of a file. -/
structure Passes (file : Bytes) (mimeType : String) : Prop where
  signature : matchesMimeSignature (file.take inspectionBytes) mimeType = true
  jpeg : mimeType = "image/jpeg" → matchesJpegStructure file = true
  png : mimeType = "image/png" → matchesPngStructure file = true
  audio : isStructuredAudioMimeType mimeType = true → matchesAudioStructure file mimeType = true
  pdf : mimeType = "application/pdf" → matchesPdfStructure file = true
  isoBmff : ∀ iso, isoBmffMediaMimeType? mimeType = some iso → matchesIsoBmffStructure file iso = true
  ooxml : mimeType ∈ ooxmlMimeTypes → matchesOoxmlPackageIdentity file mimeType = true

section

variable {mimeType : String} {applies valid : Bool}

/-- A check that applies has to be passed. -/
theorem refuseUnless_eq_ok : refuseUnless mimeType applies valid = .ok () ↔ (applies = true → valid = true) := by
  cases applies <;> cases valid <;> simp [refuseUnless]

/-- Checks are made one after another. -/
theorem refuseUnless_bind_eq_ok {next : Except MediaContentSignatureError Unit} :
    (refuseUnless mimeType applies valid >>= fun _ => next) = .ok () ↔
      (applies = true → valid = true) ∧ next = .ok () := by
  cases applies with
  | false => exact (and_iff_right (by simp)).symm
  | true =>
      cases valid with
      | false => exact iff_of_false (by rintro ⟨⟩) fun h => Bool.false_ne_true (h.1 rfl)
      | true => exact (and_iff_right (by simp)).symm

/-- A refusal names the type. -/
theorem eq_of_refuseUnless {error : MediaContentSignatureError}
    (h : refuseUnless mimeType applies valid = .error error) : error.mimeType = mimeType := by
  unfold refuseUnless at h
  split_ifs at h
  cases h
  rfl

/-- So does a refusal by a check further on. -/
theorem eq_of_refuseUnless_bind {next : Except MediaContentSignatureError Unit}
    {error : MediaContentSignatureError}
    (h : (refuseUnless mimeType applies valid >>= fun _ => next) = .error error)
    (hnext : next = .error error → error.mimeType = mimeType) : error.mimeType = mimeType := by
  cases hfirst : refuseUnless mimeType applies valid with
  | ok u =>
      rw [hfirst] at h
      exact hnext h
  | error first =>
      rw [hfirst] at h
      cases h
      exact eq_of_refuseUnless hfirst

end

/-- A file passes just when every check of its type does. -/
theorem assertMediaContentSignature_eq_ok {file : Bytes} {mimeType : String} :
    assertMediaContentSignature file mimeType = .ok () ↔ Passes file (toLowerCase (trim mimeType)) := by
  unfold assertMediaContentSignature
  dsimp only
  simp only [refuseUnless_bind_eq_ok, refuseUnless_eq_ok, decide_eq_true_eq, List.contains_iff_mem]
  constructor
  · rintro ⟨hsignature, hjpeg, hpng, haudio, hpdf, hiso, hooxml⟩
    refine ⟨hsignature trivial, hjpeg, hpng, haudio, hpdf, fun iso hsome => ?_, hooxml⟩
    rw [hsome] at hiso
    exact hiso rfl
  · rintro ⟨hsignature, hjpeg, hpng, haudio, hpdf, hiso, hooxml⟩
    refine ⟨fun _ => hsignature, hjpeg, hpng, haudio, hpdf, fun hsome => ?_, hooxml⟩
    obtain ⟨iso, heq⟩ := Option.isSome_iff_exists.mp hsome
    rw [heq]
    exact hiso iso heq

/-- The error names the type as it was normalised. -/
theorem mimeType_of_error {file : Bytes} {mimeType : String} {error : MediaContentSignatureError}
    (h : assertMediaContentSignature file mimeType = .error error) :
    error.mimeType = toLowerCase (trim mimeType) := by
  unfold assertMediaContentSignature at h
  refine eq_of_refuseUnless_bind h fun h => ?_
  refine eq_of_refuseUnless_bind h fun h => ?_
  refine eq_of_refuseUnless_bind h fun h => ?_
  refine eq_of_refuseUnless_bind h fun h => ?_
  refine eq_of_refuseUnless_bind h fun h => ?_
  exact eq_of_refuseUnless_bind h eq_of_refuseUnless

/-- What is checked of a file is that it is one of its type. -/
theorem passes_iff {file : Bytes} {mimeType : String} : Passes file mimeType ↔ HasContent file mimeType := by
  constructor
  · rintro ⟨hsignature, hjpeg, hpng, haudio, hpdf, hiso, hooxml⟩
    unfold matchesMimeSignature at hsignature
    by_cases hempty : (file.take inspectionBytes).length = 0
    · rw [if_pos hempty] at hsignature
      cases hsignature
    rw [if_neg hempty] at hsignature
    by_cases h : mimeType = "image/jpeg"
    · exact ⟨.jpeg, by rw [h]; decide, hjpeg h⟩
    rw [if_neg h] at hsignature
    by_cases h : mimeType = "image/png"
    · exact ⟨.png, by rw [h]; decide, hpng h⟩
    rw [if_neg h] at hsignature
    by_cases h : mimeType = "application/pdf"
    · exact ⟨.pdf, by rw [h]; decide, hpdf h⟩
    rw [if_neg h] at hsignature
    by_cases h : mimeType = "audio/ogg"
    · subst h
      exact ⟨.ogg, by decide, haudio (by decide)⟩
    rw [if_neg h] at hsignature
    by_cases h : mimeType = "audio/aac"
    · subst h
      exact ⟨.aac, by decide, haudio (by decide)⟩
    rw [if_neg h] at hsignature
    by_cases h : mimeType = "audio/mpeg"
    · subst h
      exact ⟨.mpeg, by decide, haudio (by decide)⟩
    rw [if_neg h] at hsignature
    by_cases h : mimeType = "audio/amr"
    · subst h
      exact ⟨.amr, by decide, haudio (by decide)⟩
    rw [if_neg h] at hsignature
    cases hsome : isoBmffMediaMimeType? mimeType with
    | some iso =>
        rw [hsome] at hsignature
        obtain rfl := isoBmffMediaMimeType?_eq_some.mp hsome
        exact ⟨.isoBmff iso, by cases iso <;> decide, hsignature, hiso iso hsome⟩
    | none =>
        rw [hsome] at hsignature
        dsimp only at hsignature
        split_ifs at hsignature with htext hlegacy hpackage
        · subst htext
          refine ⟨.text, by decide, ?_, by simpa using hsignature⟩
          rintro rfl
          exact hempty rfl
        · exact ⟨.legacyOffice, lookup_legacyOffice (List.contains_iff_mem.mp hlegacy),
            (startsWith_sample (by decide)).mp hsignature⟩
        · have hmem := List.contains_iff_mem.mp hpackage
          exact ⟨.ooxml, lookup_ooxmlKind hmem, (startsWith_sample (by decide)).mp hsignature, hooxml hmem⟩
  · intro h
    refine ⟨h.signature, ?_, ?_, fun htype => ?_, ?_, fun iso hsome => ?_, fun hmem => ?_⟩
    · rintro rfl
      exact @HasContent.content _ _ h .jpeg (by decide)
    · rintro rfl
      exact @HasContent.content _ _ h .png (by decide)
    · simp only [isStructuredAudioMimeType, List.contains_iff_mem, List.mem_cons, List.not_mem_nil,
        or_false] at htype
      rcases htype with rfl | rfl | rfl | rfl
      · exact @HasContent.content _ _ h .ogg (by decide)
      · exact @HasContent.content _ _ h .aac (by decide)
      · exact @HasContent.content _ _ h .mpeg (by decide)
      · exact @HasContent.content _ _ h .amr (by decide)
    · rintro rfl
      exact @HasContent.content _ _ h .pdf (by decide)
    · obtain rfl := isoBmffMediaMimeType?_eq_some.mp hsome
      exact (@HasContent.content _ _ h (.isoBmff iso) (by cases iso <;> decide)).2
    · exact (h.content (lookup_ooxmlKind hmem)).2

/-- **The uploads that pass** are the files of their types, and a refusal names the type. -/
theorem content_signature (file : Bytes) (mimeType : String) :
    (assertMediaContentSignature file mimeType = .ok () ↔ HasContent file (toLowerCase (trim mimeType))) ∧
    ∀ error, assertMediaContentSignature file mimeType = .error error →
      error.mimeType = toLowerCase (trim mimeType) :=
  ⟨assertMediaContentSignature_eq_ok.trans passes_iff, fun _ => mimeType_of_error⟩

/-! ## One family only -/

/-- The family of a kind, by one of its members. -/
def MediaKind.family : MediaKind → MediaKind
  | .isoBmff _ => .isoBmff .audioMp4
  | kind => kind

/-- The family that the first two bytes belong to. -/
def leadingFamily : Bytes → Option MediaKind
  | b :: c :: _ =>
      if b = 0x00 then some (.isoBmff .audioMp4)
      else if b = 0x89 then some .png
      else if b = 0x4f then some .ogg
      else if b = 0x41 then some .aac
      else if b = 0x49 then some .mpeg
      else if b = 0x23 then some .amr
      else if b = 0xd0 then some .legacyOffice
      else if b = 0x50 then some .ooxml
      else if c = 0xd8 then some .jpeg
      else if c &&& 0xf6 = 0xf0 then some .aac
      else some .mpeg
  | _ => none

/-- An MPEG frame is neither a JPEG file nor an ADTS frame. -/
theorem mpeg_sync : ∀ c : UInt8, c &&& 0xe0 = 0xe0 → c &&& 0x06 ≠ 0 → c ≠ 0xd8 ∧ c &&& 0xf6 ≠ 0xf0 := by
  have hall : ∀ n < 256, UInt8.ofNat n &&& 0xe0 = 0xe0 → UInt8.ofNat n &&& 0x06 ≠ 0 →
      UInt8.ofNat n ≠ 0xd8 ∧ UInt8.ofNat n &&& 0xf6 ≠ 0xf0 := by
    decide +kernel
  intro c
  have h := hall c.toNat c.toNat_lt
  rwa [UInt8.ofNat_toNat] at h

/-- The first two bytes of a file say its family, unless it is a text or a PDF. -/
theorem MediaKind.Content.leadingFamily {file : Bytes} {mimeType : String} {kind : MediaKind}
    (h : kind.Content file mimeType) (htext : kind ≠ .text) (hpdf : kind ≠ .pdf) :
    leadingFamily file = some kind.family := by
  cases kind with
  | jpeg =>
      obtain ⟨after, rfl⟩ := jpeg_leading h
      rfl
  | png =>
      obtain ⟨after, rfl⟩ := png_leading h
      rfl
  | pdf => exact absurd rfl hpdf
  | ogg =>
      obtain ⟨after, rfl⟩ := ogg_leading h
      rfl
  | aac =>
      rcases aac_leading h with ⟨after, rfl⟩ | ⟨c, after, hc, rfl⟩
      · rfl
      · have hne : c ≠ 0xd8 := by
          rintro rfl
          exact absurd hc (by decide)
        simp [ApiWhatsApp.leadingFamily, hc, hne, MediaKind.family]
  | mpeg =>
      rcases mpeg_leading h with ⟨after, rfl⟩ | ⟨c, after, hsync, hlayer, rfl⟩
      · rfl
      · obtain ⟨hjpeg, haac⟩ := mpeg_sync c hsync hlayer
        simp [ApiWhatsApp.leadingFamily, hjpeg, haac, MediaKind.family]
  | amr =>
      obtain ⟨wideband, after, rfl⟩ := amr_leading h
      cases wideband <;> rfl
  | isoBmff iso =>
      obtain ⟨b, after, hsample⟩ := isoBmff_leading (List.length_take_le ..) h.1
      obtain ⟨rest, rfl⟩ : ∃ rest, file = 0x00 :: b :: rest := by
        rw [← List.take_append_drop inspectionBytes file, hsample]
        exact ⟨_, rfl⟩
      rfl
  | text => exact absurd rfl htext
  | legacyOffice =>
      obtain ⟨after, rfl⟩ := h
      rfl
  | ooxml =>
      obtain ⟨⟨after, rfl⟩, -⟩ := h
      rfl

/-- Kinds of one family are one kind, or both are ISO media. -/
theorem MediaKind.eq_of_family {kind kind' : MediaKind} (h : kind.family = kind'.family) :
    kind = kind' ∨ ∃ iso iso', kind = .isoBmff iso ∧ kind' = .isoBmff iso' := by
  cases kind <;> cases kind' <;> simp_all [MediaKind.family]

/-- **No upload passes as two things**: if it passes as two MIME types, neither of them a text or a PDF,
the types are the same, or both of ISO base media files, or both of legacy office files. -/
theorem content_signature_exclusive {file : Bytes} {mimeType mimeType' : String}
    (h : assertMediaContentSignature file mimeType = .ok ())
    (h' : assertMediaContentSignature file mimeType' = .ok ())
    (hopen : toLowerCase (trim mimeType) ∉ ["text/plain", "application/pdf"])
    (hopen' : toLowerCase (trim mimeType') ∉ ["text/plain", "application/pdf"]) :
    toLowerCase (trim mimeType) = toLowerCase (trim mimeType') ∨
      (∃ iso iso' : IsoBmffMediaMimeType, toLowerCase (trim mimeType) = iso.text ∧
        toLowerCase (trim mimeType') = iso'.text) ∨
      (toLowerCase (trim mimeType) ∈ legacyOfficeMimeTypes ∧
        toLowerCase (trim mimeType') ∈ legacyOfficeMimeTypes) := by
  obtain ⟨kind, hkind, hcontent⟩ := passes_iff.mp (assertMediaContentSignature_eq_ok.mp h)
  obtain ⟨kind', hkind', hcontent'⟩ := passes_iff.mp (assertMediaContentSignature_eq_ok.mp h')
  generalize toLowerCase (trim mimeType) = normalized at *
  generalize toLowerCase (trim mimeType') = normalized' at *
  have hmem := mem_of_lookup hkind
  have hmem' := mem_of_lookup hkind'
  have hclosed : ∀ {normalized : String} {kind : MediaKind}, (normalized, kind) ∈ mediaKinds →
      normalized ∉ ["text/plain", "application/pdf"] → kind ≠ .text ∧ kind ≠ .pdf := by
    intro normalized kind hmem hopen
    constructor
    · rintro rfl
      exact hopen (by simp_all [mediaKinds])
    · rintro rfl
      exact hopen (by simp_all [mediaKinds])
  obtain ⟨htext, hpdf⟩ := hclosed hmem hopen
  obtain ⟨htext', hpdf'⟩ := hclosed hmem' hopen'
  have hfamily := (hcontent.leadingFamily htext hpdf).symm.trans (hcontent'.leadingFamily htext' hpdf')
  rcases MediaKind.eq_of_family (Option.some.inj hfamily) with rfl | ⟨iso, iso', rfl, rfl⟩
  · cases kind with
    | isoBmff iso => exact .inl ((eq_text_of_mem hmem).trans (eq_text_of_mem hmem').symm)
    | legacyOffice =>
        refine .inr (.inr ⟨?_, ?_⟩)
        · simpa [mediaKinds] using hmem
        · simpa [mediaKinds] using hmem'
    | ooxml => exact .inl (ooxmlMimeType_unique hcontent.2 hcontent'.2)
    | text => exact absurd rfl htext
    | pdf => exact absurd rfl hpdf
    | _ =>
        simp only [mediaKinds] at hmem hmem'
        simp_all
  · exact .inr (.inl ⟨iso, iso', eq_text_of_mem hmem, eq_text_of_mem hmem'⟩)

/-- Two spellings of two old office types, which may share a file. -/
theorem content_signature_exclusive_office :
    toLowerCase (trim " Application/MSWord") = toLowerCase (trim "application/vnd.ms-excel") ∨
      (∃ iso iso' : IsoBmffMediaMimeType, toLowerCase (trim " Application/MSWord") = iso.text ∧
        toLowerCase (trim "application/vnd.ms-excel") = iso'.text) ∨
      (toLowerCase (trim " Application/MSWord") ∈ legacyOfficeMimeTypes ∧
        toLowerCase (trim "application/vnd.ms-excel") ∈ legacyOfficeMimeTypes) :=
  @content_signature_exclusive oleSignature _ _ (by decide) (by decide)
    (by decide) (by decide)

end ApiWhatsApp
