import ApiWhatsApp.Library.Bytes
import ApiWhatsApp.Library.Utf8
import Mathlib.Data.List.Nodup

/-!
# OOXML packages

`matchesOoxmlPackageIdentity` of `media/media-content-signature.ts`: the end record of an archive is
searched from the end of the file, the central directory in front of it is read entry by entry, and the
names in it say which kind of document the package is.

* `CentralEntry`, `EndRecord` and `LocalHeader` are the records. `ZipArchive` puts them together, and
  `ZipArchive.IsPackage` says what makes it a package of a family.
* **`ooxml_package`** — the files that are accepted for a MIME type are the packages of its family whose
  end record holds no second one, and no file is accepted for two of the types.
* `ArchiveListing` is what is written as an archive. **`ooxml_identity`** — the end record, the names and
  the offsets that were written are read back, and what is accepted was laid out in this way.
-/

namespace ApiWhatsApp

open Library Library.JsString

/-! ## The validator -/

/-- Source: `ZIP_LOCAL_HEADER_SIGNATURE`. -/
def zipLocalHeaderSignature : ℕ := 0x04034b50

/-- Source: `ZIP_CENTRAL_HEADER_SIGNATURE`. -/
def zipCentralHeaderSignature : ℕ := 0x02014b50

/-- Source: `ZIP_END_OF_CENTRAL_DIRECTORY_SIGNATURE`. -/
def zipEndOfCentralDirectorySignature : ℕ := 0x06054b50

/-- Source: `ZIP_END_OF_CENTRAL_DIRECTORY_BYTES`. -/
def zipEndOfCentralDirectoryBytes : ℕ := 22

/-- Source: `ZIP_MAX_EOCD_SEARCH_BYTES`. -/
def zipMaxEocdSearchBytes : ℕ := zipEndOfCentralDirectoryBytes + 65535

/-- Source: `OOXML_MAX_CENTRAL_DIRECTORY_BYTES`. -/
def ooxmlMaxCentralDirectoryBytes : ℕ := 4 * 1024 * 1024

/-- Source: `OOXML_MAX_ENTRIES`. -/
def ooxmlMaxEntries : ℕ := 10000

/-- Source: `ZIP16_MAX`. -/
def zip16Max : ℕ := 0xffff

/-- Source: `ZIP32_MAX`. -/
def zip32Max : ℕ := 0xffffffff

/-- Source: `OOXML_REQUIRED_ENTRY_BY_MIME`. -/
def ooxmlRequiredEntryByMime : List (String × JsString) :=
  [("application/vnd.openxmlformats-officedocument.wordprocessingml.document", ofText "word/document.xml"),
    ("application/vnd.openxmlformats-officedocument.spreadsheetml.sheet", ofText "xl/workbook.xml"),
    ("application/vnd.openxmlformats-officedocument.presentationml.presentation",
      ofText "ppt/presentation.xml")]

/-- Source: `OOXML_FAMILY_ENTRIES`. -/
def ooxmlFamilyEntries : List JsString := ooxmlRequiredEntryByMime.map Prod.snd

/-- Source: `OOXML_CONTENT_TYPES_ENTRY`. -/
def ooxmlContentTypesEntry : JsString := ofText "[Content_Types].xml"

/-- Source: `ZipCentralEntry`. -/
structure ZipCentralEntry where
  name : JsString
  localHeaderOffset : ℕ
  deriving DecidableEq

/-- Source: `ZipEndOfCentralDirectory`. -/
structure ZipEndOfCentralDirectory where
  absoluteOffset : ℕ
  centralDirectoryOffset : ℕ
  centralDirectorySize : ℕ
  totalEntries : ℕ

/-- One round of the loop in `parseEndOfCentralDirectory`: nothing to go on, or what it returns. -/
def endOfCentralDirectoryAt (tail : Bytes) (tailAbsoluteOffset offset : ℕ) :
    Option (Option ZipEndOfCentralDirectory) :=
  if readLE tail 4 offset ≠ zipEndOfCentralDirectorySignature then none
  else if offset + zipEndOfCentralDirectoryBytes + readLE tail 2 (offset + 20) ≠ tail.length then none
  else
    let diskNumber := readLE tail 2 (offset + 4)
    let centralDirectoryDisk := readLE tail 2 (offset + 6)
    let entriesOnDisk := readLE tail 2 (offset + 8)
    let totalEntries := readLE tail 2 (offset + 10)
    let centralDirectorySize := readLE tail 4 (offset + 12)
    let centralDirectoryOffset := readLE tail 4 (offset + 16)
    if diskNumber ≠ 0 ∨ centralDirectoryDisk ≠ 0 ∨ entriesOnDisk ≠ totalEntries ∨
        entriesOnDisk = zip16Max ∨ totalEntries = zip16Max ∨ centralDirectorySize = zip32Max ∨
        centralDirectoryOffset = zip32Max then
      some none
    else
      some (some ⟨tailAbsoluteOffset + offset, centralDirectoryOffset, centralDirectorySize,
        totalEntries⟩)

/-- Source: `parseEndOfCentralDirectory`. -/
def parseEndOfCentralDirectory (tail : Bytes) (tailAbsoluteOffset : ℕ) :
    Option ZipEndOfCentralDirectory :=
  (searchBack (endOfCentralDirectoryAt tail tailAbsoluteOffset)
    (tail.length + 1 - zipEndOfCentralDirectoryBytes)).join

/-- One round of the loop in `parseCentralDirectory`, up to the names before: the entry, and the length
of its record. -/
def centralEntryAt (directory : Bytes) (offset : ℕ) : Option (ZipCentralEntry × ℕ) :=
  if offset + 46 > directory.length then none
  else if readLE directory 4 offset ≠ zipCentralHeaderSignature then none
  else
    let flags := readLE directory 2 (offset + 8)
    let compressedSize := readLE directory 4 (offset + 20)
    let uncompressedSize := readLE directory 4 (offset + 24)
    let fileNameLength := readLE directory 2 (offset + 28)
    let extraLength := readLE directory 2 (offset + 30)
    let commentLength := readLE directory 2 (offset + 32)
    let diskNumberStart := readLE directory 2 (offset + 34)
    let localHeaderOffset := readLE directory 4 (offset + 42)
    let recordLength := 46 + fileNameLength + extraLength + commentLength
    if flags &&& 0x0001 ≠ 0 ∨ compressedSize = zip32Max ∨ uncompressedSize = zip32Max ∨
        localHeaderOffset = zip32Max ∨ diskNumberStart ≠ 0 ∨ fileNameLength = 0 ∨
        offset + recordLength > directory.length then
      none
    else
      let fileNameBytes := (directory.drop (offset + 46)).take fileNameLength
      if fileNameBytes.contains 0x00 then none
      else some (⟨decodeUtf8 fileNameBytes, localHeaderOffset⟩, recordLength)

/-- The loop in `parseCentralDirectory`. -/
def parseEntries (directory : Bytes) : ℕ → ℕ → List ZipCentralEntry → Option (List ZipCentralEntry)
  | 0, offset, entries => if offset = directory.length then some entries else none
  | count + 1, offset, entries =>
      match centralEntryAt directory offset with
      | none => none
      | some (entry, recordLength) =>
          if entries.any (fun other => other.name = entry.name) then none
          else parseEntries directory count (offset + recordLength) (entries ++ [entry])

/-- Source: `parseCentralDirectory`. -/
def parseCentralDirectory (directory : Bytes) (expectedEntries : ℕ) : Option (List ZipCentralEntry) :=
  parseEntries directory expectedEntries 0 []

/-- `entries.get(name)`. -/
def entryNamed (entries : List ZipCentralEntry) (name : JsString) : Option ZipCentralEntry :=
  entries.find? fun entry => entry.name = name

/-- Source: `matchesLocalHeader`. -/
def matchesLocalHeader (file : Bytes) (entry : ZipCentralEntry) (centralDirectoryOffset : ℕ) : Bool :=
  if entry.localHeaderOffset + 30 > centralDirectoryOffset then false
  else
    match readExactly file 30 entry.localHeaderOffset with
    | none => false
    | some fixedHeader =>
        if readLE fixedHeader 4 0 ≠ zipLocalHeaderSignature then false
        else
          let flags := readLE fixedHeader 2 6
          let fileNameLength := readLE fixedHeader 2 26
          let extraLength := readLE fixedHeader 2 28
          let headerEnd := entry.localHeaderOffset + 30 + fileNameLength + extraLength
          if flags &&& 0x0001 ≠ 0 ∨ fileNameLength = 0 ∨ headerEnd > centralDirectoryOffset then false
          else
            match readExactly file fileNameLength (entry.localHeaderOffset + 30) with
            | none => false
            | some fileNameBytes =>
                if fileNameBytes.contains 0x00 then false
                else decodeUtf8 fileNameBytes = entry.name

/-- Source: `matchesOoxmlPackageIdentity`. -/
def matchesOoxmlPackageIdentity (file : Bytes) (mimeType : String) : Bool :=
  match ooxmlRequiredEntryByMime.lookup mimeType with
  | none => false
  | some expectedFamilyEntry =>
      if file.length < zipEndOfCentralDirectoryBytes then false
      else
        let tailLength := min file.length zipMaxEocdSearchBytes
        let tailOffset := file.length - tailLength
        match readExactly file tailLength tailOffset with
        | none => false
        | some tail =>
            match parseEndOfCentralDirectory tail tailOffset with
            | none => false
            | some eocd =>
                if eocd.totalEntries < 1 ∨ eocd.totalEntries > ooxmlMaxEntries ∨
                    eocd.centralDirectorySize < 1 ∨
                    eocd.centralDirectorySize > ooxmlMaxCentralDirectoryBytes ∨
                    eocd.centralDirectoryOffset + eocd.centralDirectorySize ≠ eocd.absoluteOffset then
                  false
                else
                  match readExactly file eocd.centralDirectorySize eocd.centralDirectoryOffset with
                  | none => false
                  | some centralDirectory =>
                      match parseCentralDirectory centralDirectory eocd.totalEntries with
                      | none => false
                      | some entries =>
                          match entryNamed entries ooxmlContentTypesEntry,
                              entryNamed entries expectedFamilyEntry with
                          | some contentTypes, some expectedFamily =>
                              if ooxmlFamilyEntries.any fun familyEntry =>
                                  familyEntry ≠ expectedFamilyEntry ∧
                                    (entryNamed entries familyEntry).isSome then
                                false
                              else
                                matchesLocalHeader file contentTypes eocd.centralDirectoryOffset &&
                                  matchesLocalHeader file expectedFamily eocd.centralDirectoryOffset
                          | _, _ => false

/-! ## Records -/

/-- An entry of the central directory. `metadata` is what stands between the flags and the sizes. -/
structure CentralEntry where
  versions : ℕ
  flags : ℕ
  metadata : ℕ
  compressedSize : ℕ
  uncompressedSize : ℕ
  attributes : ℕ
  localHeaderOffset : ℕ
  name : Bytes
  extra : Bytes
  comment : Bytes
  versions_lt : versions < 256 ^ 4
  flags_lt : flags < 256 ^ 2
  metadata_lt : metadata < 256 ^ 10
  attributes_lt : attributes < 256 ^ 6
  /-- The entry is not encrypted. -/
  plain : flags % 2 = 0
  compressedSize_lt : compressedSize < zip32Max
  uncompressedSize_lt : uncompressedSize < zip32Max
  localHeaderOffset_lt : localHeaderOffset < zip32Max
  name_ne_nil : name ≠ []
  zero_not_mem_name : 0x00 ∉ name
  name_lt : name.length < 256 ^ 2
  extra_lt : extra.length < 256 ^ 2
  comment_lt : comment.length < 256 ^ 2

namespace CentralEntry

/-- The fields in front of the name. -/
def fields (entry : CentralEntry) : List (ℕ × ℕ) :=
  [(4, zipCentralHeaderSignature), (4, entry.versions), (2, entry.flags), (10, entry.metadata),
    (4, entry.compressedSize), (4, entry.uncompressedSize), (2, entry.name.length),
    (2, entry.extra.length), (2, entry.comment.length), (2, 0), (6, entry.attributes),
    (4, entry.localHeaderOffset)]

/-- The bytes of the entry. -/
def encode (entry : CentralEntry) : Bytes :=
  fieldBytes entry.fields ++ (entry.name ++ (entry.extra ++ entry.comment))

/-- What the validator keeps of it. -/
def kept (entry : CentralEntry) : ZipCentralEntry := ⟨decodeUtf8 entry.name, entry.localHeaderOffset⟩

end CentralEntry

/-- A header in front of the contents of an entry. `metadata` is what stands between the flags and the
length of the name. -/
structure LocalHeader where
  version : ℕ
  flags : ℕ
  metadata : ℕ
  name : Bytes
  extra : Bytes
  version_lt : version < 256 ^ 2
  flags_lt : flags < 256 ^ 2
  metadata_lt : metadata < 256 ^ 18
  plain : flags % 2 = 0
  name_ne_nil : name ≠ []
  zero_not_mem_name : 0x00 ∉ name
  name_lt : name.length < 256 ^ 2
  extra_lt : extra.length < 256 ^ 2

namespace LocalHeader

/-- The fields in front of the name. -/
def fields (header : LocalHeader) : List (ℕ × ℕ) :=
  [(4, zipLocalHeaderSignature), (2, header.version), (2, header.flags), (18, header.metadata),
    (2, header.name.length), (2, header.extra.length)]

/-- The bytes of the header. -/
def encode (header : LocalHeader) : Bytes := fieldBytes header.fields ++ (header.name ++ header.extra)

end LocalHeader

/-- What the search takes for an end record: its signature, and the length of what follows. -/
@[ext]
structure EndRecord where
  diskNumber : ℕ
  centralDirectoryDisk : ℕ
  entriesOnDisk : ℕ
  totalEntries : ℕ
  centralDirectorySize : ℕ
  centralDirectoryOffset : ℕ
  comment : Bytes
  diskNumber_lt : diskNumber < 256 ^ 2
  centralDirectoryDisk_lt : centralDirectoryDisk < 256 ^ 2
  entriesOnDisk_lt : entriesOnDisk < 256 ^ 2
  totalEntries_lt : totalEntries < 256 ^ 2
  centralDirectorySize_lt : centralDirectorySize < 256 ^ 4
  centralDirectoryOffset_lt : centralDirectoryOffset < 256 ^ 4
  comment_lt : comment.length < 256 ^ 2

namespace EndRecord

/-- The fields in front of the comment. -/
def fields (record : EndRecord) : List (ℕ × ℕ) :=
  [(4, zipEndOfCentralDirectorySignature), (2, record.diskNumber),
    (2, record.centralDirectoryDisk), (2, record.entriesOnDisk), (2, record.totalEntries),
    (4, record.centralDirectorySize), (4, record.centralDirectoryOffset), (2, record.comment.length)]

/-- The bytes of the record. -/
def encode (record : EndRecord) : Bytes := fieldBytes record.fields ++ record.comment

end EndRecord

/-! ## Reading records -/

/-- There is no NUL. -/
theorem contains_zero_eq_false {bytes : Bytes} : bytes.contains 0x00 = false ↔ 0x00 ∉ bytes := by
  simp

/-- The lowest bit is a remainder. -/
theorem and_one_eq_zero {n : ℕ} : n &&& 0x0001 = 0 ↔ n % 2 = 0 := by
  rw [Nat.and_one_is_mod]

namespace CentralEntry

/-- The fields have a fixed length. -/
theorem length_fields (entry : CentralEntry) : (fieldBytes entry.fields).length = 46 :=
  length_fieldBytes _

/-- The length of the entry. -/
theorem length_encode (entry : CentralEntry) : entry.encode.length =
    46 + entry.name.length + entry.extra.length + entry.comment.length := by
  rw [encode, List.length_append, length_fields, List.length_append, List.length_append]
  omega

/-- The fields fit their widths. -/
theorem fields_lt (entry : CentralEntry) : ∀ field ∈ entry.fields, field.2 < 256 ^ field.1 := by
  have hcompressed := entry.compressedSize_lt
  have huncompressed := entry.uncompressedSize_lt
  have hlocal := entry.localHeaderOffset_lt
  simp only [fields, List.forall_mem_cons, zip32Max, zipCentralHeaderSignature] at hcompressed huncompressed hlocal ⊢
  exact ⟨by decide, entry.versions_lt, entry.flags_lt, entry.metadata_lt, by omega, by omega,
    entry.name_lt, entry.extra_lt, entry.comment_lt, by decide, entry.attributes_lt, by omega, nofun⟩

end CentralEntry

/-- A round of the loop reads an entry. -/
theorem centralEntryAt_eq_some {directory : Bytes} {offset length : ℕ} {kept : ZipCentralEntry} :
    centralEntryAt directory offset = some (kept, length) ↔
      ∃ (entry : CentralEntry) (after : Bytes), directory.drop offset = entry.encode ++ after ∧
        kept = entry.kept ∧ length = entry.encode.length := by
  constructor
  · intro h
    unfold centralEntryAt at h
    dsimp only at h
    generalize hn : readLE directory 2 (offset + 28) = nameLength at h
    generalize he : readLE directory 2 (offset + 30) = extraLength at h
    generalize hc : readLE directory 2 (offset + 32) = commentLength at h
    split_ifs at h with hshort hsignature hrefused hzero
    cases h
    simp only [not_or, not_not] at hsignature hrefused
    obtain ⟨hplain, hcompressed, huncompressed, hlocal, hdisk, hname, hend⟩ := hrefused
    have hrest : ((directory.drop (offset + 46)).length) = directory.length - (offset + 46) :=
      List.length_drop
    have hnameLength : ((directory.drop (offset + 46)).take nameLength).length = nameLength :=
      List.length_take_of_le (by omega)
    have hextraLength : (((directory.drop (offset + 46)).drop nameLength).take extraLength).length =
        extraLength := List.length_take_of_le (by rw [List.length_drop]; omega)
    have hcommentLength : ((((directory.drop (offset + 46)).drop nameLength).drop extraLength).take
        commentLength).length = commentLength :=
      List.length_take_of_le (by rw [List.length_drop, List.length_drop]; omega)
    have hsize : ∀ {n}, n < 256 ^ 4 → n ≠ zip32Max → n < zip32Max := by
      intro n hlt hne
      rw [zip32Max] at hne ⊢
      omega
    let entry : CentralEntry := {
      versions := readLE directory 4 (offset + 4), flags := readLE directory 2 (offset + 8)
      metadata := readLE directory 10 (offset + 10), compressedSize := readLE directory 4 (offset + 20)
      uncompressedSize := readLE directory 4 (offset + 24), attributes := readLE directory 6 (offset + 36)
      localHeaderOffset := readLE directory 4 (offset + 42)
      name := (directory.drop (offset + 46)).take nameLength
      extra := ((directory.drop (offset + 46)).drop nameLength).take extraLength
      comment := (((directory.drop (offset + 46)).drop nameLength).drop extraLength).take commentLength
      versions_lt := readLE_lt .., flags_lt := readLE_lt .., metadata_lt := readLE_lt ..
      attributes_lt := readLE_lt .., plain := and_one_eq_zero.mp hplain
      compressedSize_lt := hsize (readLE_lt ..) hcompressed
      uncompressedSize_lt := hsize (readLE_lt ..) huncompressed
      localHeaderOffset_lt := hsize (readLE_lt ..) hlocal
      name_ne_nil := List.ne_nil_of_length_pos (by omega)
      zero_not_mem_name := contains_zero_eq_false.mp (Bool.not_eq_true _ ▸ hzero)
      name_lt := by rw [hnameLength, ← hn]; exact readLE_lt ..
      extra_lt := by rw [hextraLength, ← he]; exact readLE_lt ..
      comment_lt := by rw [hcommentLength, ← hc]; exact readLE_lt .. }
    have hfields : fieldsAt directory offset [4, 4, 2, 10, 4, 4, 2, 2, 2, 2, 6, 4] = entry.fields := by
      simp only [fieldsAt, CentralEntry.fields, entry, hnameLength, hextraLength, hcommentLength,
        Nat.add_assoc, Nat.reduceAdd, hsignature, hn, he, hc, hdisk]
    refine ⟨entry, (((directory.drop (offset + 46)).drop nameLength).drop extraLength).drop commentLength,
      ?_, rfl, ?_⟩
    · rw [drop_eq_fieldBytes [4, 4, 2, 10, 4, 4, 2, 2, 2, 2, 6, 4] (by simp only [List.foldr]; omega),
        hfields, CentralEntry.encode, List.append_assoc, List.append_assoc, List.append_assoc,
        List.take_append_drop, List.take_append_drop, List.take_append_drop]
      rfl
    · rw [entry.length_encode, hnameLength, hextraLength, hcommentLength]
  · rintro ⟨entry, after, hdrop, rfl, rfl⟩
    have hsum := congrArg List.length hdrop
    rw [List.length_drop, List.length_append, entry.length_encode] at hsum
    rw [CentralEntry.encode, List.append_assoc] at hdrop
    have hfields := fieldsAt_of_drop entry.fields_lt hdrop
    simp only [CentralEntry.fields, List.map_cons, List.map_nil, fieldsAt, List.cons.injEq,
      Prod.mk.injEq, true_and, and_true, Nat.add_assoc, Nat.reduceAdd] at hfields
    obtain ⟨hsignature, -, hflags, -, hcompressed, huncompressed, hname, hextra, hcomment, hdisk, -,
      hlocal⟩ := hfields
    have hbytes : (directory.drop (offset + 46)).take entry.name.length = entry.name := by
      rw [← List.drop_drop, hdrop, List.drop_left' entry.length_fields, List.append_assoc, List.take_left]
    have hpos := List.length_pos_iff.mpr entry.name_ne_nil
    unfold centralEntryAt
    rw [hsignature, hflags, hcompressed, huncompressed, hname, hextra, hcomment, hdisk, hlocal]
    dsimp only
    rw [if_neg (by omega), if_neg (not_not.mpr rfl), if_neg, hbytes, if_neg, ← entry.length_encode]
    · rfl
    · rw [Bool.not_eq_true, contains_zero_eq_false]
      exact entry.zero_not_mem_name
    · have hplain := and_one_eq_zero.mpr entry.plain
      have h1 := entry.compressedSize_lt
      have h2 := entry.uncompressedSize_lt
      have h3 := entry.localHeaderOffset_lt
      omega

/-- The entries are read one after another, and their names differ. -/
theorem parseEntries_eq_some {directory : Bytes} {count offset : ℕ}
    {entries entries' : List ZipCentralEntry} (hoffset : offset ≤ directory.length)
    (hnames : (entries.map ZipCentralEntry.name).Nodup) :
    parseEntries directory count offset entries = some entries' ↔
      ∃ records : List CentralEntry, records.length = count ∧
        directory.drop offset = (records.map CentralEntry.encode).flatten ∧
        entries' = entries ++ records.map CentralEntry.kept ∧
        (entries'.map ZipCentralEntry.name).Nodup := by
  induction count generalizing offset entries with
  | zero =>
      rw [parseEntries]
      constructor
      · intro h
        split_ifs at h with hend
        cases h
        exact ⟨[], rfl, by rw [hend, List.drop_length]; rfl, (List.append_nil _).symm, hnames⟩
      · rintro ⟨records, hlength, hdrop, rfl, -⟩
        obtain rfl := List.eq_nil_of_length_eq_zero hlength
        rw [if_pos (Nat.le_antisymm hoffset (List.drop_eq_nil_iff.mp hdrop)), List.map_nil,
          List.append_nil]
  | succ count ih =>
      have hnodup : ∀ entry : ZipCentralEntry,
          ((entries ++ [entry]).map ZipCentralEntry.name).Nodup ↔
            ¬ entries.any (fun other => other.name = entry.name) = true := by
        intro entry
        simp [List.nodup_append, hnames]
      rw [parseEntries]
      constructor
      · intro h
        split at h
        · cases h
        · rename_i entry recordLength hentry
          split_ifs at h with hknown
          obtain ⟨record, after, hdrop, rfl, rfl⟩ := centralEntryAt_eq_some.mp hentry
          have hsum := congrArg List.length hdrop
          rw [List.length_drop, List.length_append, record.length_encode] at hsum
          obtain ⟨records, rfl, hrest, rfl, hall⟩ :=
            (ih (by rw [record.length_encode]; omega) ((hnodup _).mpr hknown)).mp h
          refine ⟨record :: records, rfl, ?_, ?_, hall⟩
          · rw [hdrop, List.map_cons, List.flatten_cons, ← hrest, ← List.drop_drop, hdrop, List.drop_left]
          · rw [List.append_assoc]
            rfl
      · rintro ⟨records, hlength, hdrop, rfl, hall⟩
        cases records with
        | nil => cases hlength
        | cons record records =>
            rw [List.map_cons, List.flatten_cons] at hdrop
            have hentry := centralEntryAt_eq_some.mpr ⟨record, _, hdrop, rfl, rfl⟩
            have hsum := congrArg List.length hdrop
            rw [List.length_drop, List.length_append, record.length_encode] at hsum
            have happend : entries ++ (record :: records).map CentralEntry.kept =
                entries ++ [record.kept] ++ records.map CentralEntry.kept := by
              rw [List.append_assoc]
              rfl
            have hfirst : ((entries ++ [record.kept]).map ZipCentralEntry.name).Nodup := by
              rw [happend, List.map_append] at hall
              exact (List.nodup_append.mp hall).1
            rw [hentry]
            dsimp only
            rw [if_neg ((hnodup _).mp hfirst)]
            have hle : offset + record.encode.length ≤ directory.length := by
              rw [record.length_encode]
              omega
            refine (ih hle hfirst).mpr ⟨records, Nat.succ.inj hlength, ?_, happend, hall⟩
            rw [← List.drop_drop, hdrop, List.drop_left]

/-- A directory is read just when it is made up of entries with different names. -/
theorem parseCentralDirectory_eq_some {directory : Bytes} {count : ℕ} {entries : List ZipCentralEntry} :
    parseCentralDirectory directory count = some entries ↔
      ∃ records : List CentralEntry, records.length = count ∧
        directory = (records.map CentralEntry.encode).flatten ∧
        entries = records.map CentralEntry.kept ∧
        (records.map fun entry => decodeUtf8 entry.name).Nodup := by
  have hnone : (([] : List ZipCentralEntry).map ZipCentralEntry.name).Nodup := List.nodup_nil
  rw [parseCentralDirectory, parseEntries_eq_some (Nat.zero_le _) hnone, List.drop_zero]
  refine exists_congr fun records => and_congr_right fun _ => and_congr_right fun _ => ?_
  rw [List.nil_append]
  refine and_congr_right ?_
  rintro rfl
  rw [List.map_map]
  rfl

/-! ## The end record -/

namespace EndRecord

/-- The fields have a fixed length. -/
theorem length_fields (record : EndRecord) : (fieldBytes record.fields).length = 22 :=
  length_fieldBytes _

/-- The length of the record. -/
theorem length_encode (record : EndRecord) : record.encode.length = 22 + record.comment.length := by
  rw [encode, List.length_append, record.length_fields]

/-- The fields fit their widths. -/
theorem fields_lt (record : EndRecord) : ∀ field ∈ record.fields, field.2 < 256 ^ field.1 := by
  simp only [fields, List.forall_mem_cons, zipEndOfCentralDirectorySignature]
  exact ⟨by decide, record.diskNumber_lt, record.centralDirectoryDisk_lt, record.entriesOnDisk_lt,
    record.totalEntries_lt, record.centralDirectorySize_lt, record.centralDirectoryOffset_lt,
    record.comment_lt, nofun⟩

/-- The record does not leave what it describes to other disks or to the 64-bit format. -/
def IsPlain (record : EndRecord) : Prop :=
  record.diskNumber = 0 ∧ record.centralDirectoryDisk = 0 ∧ record.entriesOnDisk = record.totalEntries ∧
    record.totalEntries ≠ zip16Max ∧ record.centralDirectorySize ≠ zip32Max ∧
    record.centralDirectoryOffset ≠ zip32Max

/-- No end record stands within the comment. -/
def IsLast (record : EndRecord) : Prop :=
  ∀ (front : Bytes) (other : EndRecord), record.encode = front ++ other.encode → front = []

/-- What the validator keeps of it. -/
def kept (record : EndRecord) (absoluteOffset : ℕ) : ZipEndOfCentralDirectory :=
  ⟨absoluteOffset, record.centralDirectoryOffset, record.centralDirectorySize, record.totalEntries⟩

/-- Within the limits of the validator, nothing is left to the 64-bit format. -/
theorem isPlain_of_le {record : EndRecord} (hdisk : record.diskNumber = 0)
    (hdirectoryDisk : record.centralDirectoryDisk = 0) (hon : record.entriesOnDisk = record.totalEntries)
    (hentries : record.totalEntries ≤ ooxmlMaxEntries)
    (hsize : record.centralDirectorySize ≤ ooxmlMaxCentralDirectoryBytes)
    (hoffset : record.centralDirectoryOffset < zip32Max) : record.IsPlain := by
  simp only [ooxmlMaxEntries, ooxmlMaxCentralDirectoryBytes] at hentries hsize
  refine ⟨hdisk, hdirectoryDisk, hon, ?_, ?_, Nat.ne_of_lt hoffset⟩
  · exact Nat.ne_of_lt (Nat.lt_of_le_of_lt hentries (by decide))
  · exact Nat.ne_of_lt (Nat.lt_of_le_of_lt hsize (by decide))

/-- There is no room for another record where there is no comment. -/
theorem isLast_of_comment_nil {record : EndRecord} (h : record.comment = []) : record.IsLast := by
  intro front other heq
  have hsum := congrArg List.length heq
  rw [List.length_append, record.length_encode, other.length_encode, h, List.length_nil] at hsum
  exact List.eq_nil_of_length_eq_zero (by omega)

end EndRecord

/-- The search stops at an end record. -/
theorem endAt_of_drop {tail : Bytes} {record : EndRecord} {absolute offset : ℕ}
    (hdrop : tail.drop offset = record.encode) {found : Option ZipEndOfCentralDirectory} :
    endOfCentralDirectoryAt tail absolute offset = some found ↔
      (record.IsPlain ∧ found = some (record.kept (absolute + offset))) ∨
        (¬ record.IsPlain ∧ found = none) := by
  have hsum := congrArg List.length hdrop
  rw [List.length_drop, record.length_encode] at hsum
  rw [EndRecord.encode] at hdrop
  have hfields := fieldsAt_of_drop record.fields_lt hdrop
  simp only [EndRecord.fields, List.map_cons, List.map_nil, fieldsAt, List.cons.injEq,
    Prod.mk.injEq, true_and, and_true, Nat.add_assoc, Nat.reduceAdd] at hfields
  obtain ⟨hsignature, hdisk, hdirectory, hon, htotal, hsize, hoffset, hcomment⟩ := hfields
  unfold endOfCentralDirectoryAt
  rw [hsignature, hdisk, hdirectory, hon, htotal, hsize, hoffset, hcomment]
  dsimp only
  rw [if_neg (not_not.mpr rfl), if_neg (by rw [zipEndOfCentralDirectoryBytes]; omega)]
  have hplain : (record.diskNumber ≠ 0 ∨ record.centralDirectoryDisk ≠ 0 ∨
      record.entriesOnDisk ≠ record.totalEntries ∨ record.entriesOnDisk = zip16Max ∨
      record.totalEntries = zip16Max ∨ record.centralDirectorySize = zip32Max ∨
      record.centralDirectoryOffset = zip32Max) ↔ ¬ record.IsPlain := by
    unfold EndRecord.IsPlain
    constructor
    · rintro h ⟨h1, h2, h3, h4, h5, h6⟩
      rw [h3] at h
      simp [h1, h2, h4, h5, h6] at h
    · intro h
      by_contra hnot
      simp only [not_or, not_not] at hnot
      exact h ⟨hnot.1, hnot.2.1, hnot.2.2.1, hnot.2.2.2.2⟩
  by_cases h : record.IsPlain
  · rw [if_neg (fun h' => hplain.mp h' h)]
    simp [h, EndRecord.kept, eq_comm]
  · rw [if_pos (hplain.mpr h)]
    simp [h, eq_comm]

/-- Where there is no end record, the search goes on. -/
theorem endAt_ne_none {tail : Bytes} {absolute offset : ℕ} (hoffset : offset + 22 ≤ tail.length) :
    endOfCentralDirectoryAt tail absolute offset ≠ none ↔
      ∃ record : EndRecord, tail.drop offset = record.encode := by
  constructor
  · intro h
    unfold endOfCentralDirectoryAt at h
    by_cases hsignature : readLE tail 4 offset = zipEndOfCentralDirectorySignature
    swap
    · rw [if_pos hsignature] at h
      exact absurd rfl h
    by_cases hend : offset + zipEndOfCentralDirectoryBytes + readLE tail 2 (offset + 20) = tail.length
    swap
    · rw [if_neg (not_not.mpr hsignature), if_pos hend] at h
      exact absurd rfl h
    rw [zipEndOfCentralDirectoryBytes] at hend
    have hcomment : (tail.drop (offset + 22)).length = readLE tail 2 (offset + 20) := by
      rw [List.length_drop]
      omega
    let record : EndRecord := {
      diskNumber := readLE tail 2 (offset + 4), centralDirectoryDisk := readLE tail 2 (offset + 6)
      entriesOnDisk := readLE tail 2 (offset + 8), totalEntries := readLE tail 2 (offset + 10)
      centralDirectorySize := readLE tail 4 (offset + 12)
      centralDirectoryOffset := readLE tail 4 (offset + 16), comment := tail.drop (offset + 22)
      diskNumber_lt := readLE_lt .., centralDirectoryDisk_lt := readLE_lt ..
      entriesOnDisk_lt := readLE_lt .., totalEntries_lt := readLE_lt ..
      centralDirectorySize_lt := readLE_lt .., centralDirectoryOffset_lt := readLE_lt ..
      comment_lt := by rw [hcomment]; exact readLE_lt .. }
    have hfields : fieldsAt tail offset [4, 2, 2, 2, 2, 4, 4, 2] = record.fields := by
      simp only [fieldsAt, EndRecord.fields, record, hcomment, hsignature, Nat.add_assoc, Nat.reduceAdd]
    refine ⟨record, ?_⟩
    rw [drop_eq_fieldBytes [4, 2, 2, 2, 2, 4, 4, 2] (by simp only [List.foldr]; omega), hfields]
    rfl
  · rintro ⟨record, hdrop⟩ hnone
    by_cases h : record.IsPlain
    · rw [(endAt_of_drop hdrop).mpr (.inl ⟨h, rfl⟩)] at hnone
      cases hnone
    · rw [(endAt_of_drop hdrop).mpr (.inr ⟨h, rfl⟩)] at hnone
      cases hnone

/-- **The search** finds the last end record of the tail, if it is one that can be used. -/
theorem parseEndOfCentralDirectory_eq_some {tail : Bytes} {absolute : ℕ}
    {eocd : ZipEndOfCentralDirectory} :
    parseEndOfCentralDirectory tail absolute = some eocd ↔
      ∃ (front : Bytes) (record : EndRecord), tail = front ++ record.encode ∧ record.IsPlain ∧
        record.IsLast ∧ eocd = record.kept (absolute + front.length) := by
  unfold parseEndOfCentralDirectory
  rw [Option.join_eq_some_iff, searchBack_eq_some, zipEndOfCentralDirectoryBytes]
  constructor
  · rintro ⟨offset, hlt, hfound, hlater⟩
    have hfits : offset + 22 ≤ tail.length := by omega
    obtain ⟨record, hdrop⟩ := (endAt_ne_none hfits).mp (hfound ▸ Option.some_ne_none _)
    have htail : tail = tail.take offset ++ record.encode := by
      rw [← hdrop, List.take_append_drop]
    have hlength : (tail.take offset).length = offset := List.length_take_of_le (by omega)
    obtain ⟨hplain, heocd⟩ | ⟨-, hnone⟩ := (endAt_of_drop hdrop).mp hfound
    · cases heocd
      refine ⟨tail.take offset, record, htail, hplain, fun front other heq => ?_, by rw [hlength]⟩
      by_contra hne
      have hpos := List.length_pos_iff.mpr hne
      have hother : tail.drop (offset + front.length) = other.encode := by
        rw [← List.drop_drop, hdrop, heq, List.drop_left]
      have hsum := congrArg List.length hother
      rw [List.length_drop, other.length_encode] at hsum
      exact (endAt_ne_none (by omega)).mpr ⟨other, hother⟩ (hlater _ (by omega) (by omega))
    · cases hnone
  · rintro ⟨front, record, rfl, hplain, hlast, rfl⟩
    have hlength := record.length_encode
    have hdrop : (front ++ record.encode).drop front.length = record.encode := List.drop_left
    refine ⟨front.length, by rw [List.length_append]; omega,
      (endAt_of_drop hdrop).mpr (.inl ⟨hplain, rfl⟩), fun later hlt hend => ?_⟩
    by_contra hfound
    rw [List.length_append] at hend
    obtain ⟨other, hother⟩ := (endAt_ne_none (by rw [List.length_append]; omega)).mp hfound
    have hsplit : record.encode = record.encode.take (later - front.length) ++ other.encode := by
      rw [← hother, List.drop_append, List.drop_eq_nil_of_le (Nat.le_of_lt hlt), List.nil_append,
        List.take_append_drop]
    have hnil := congrArg List.length (hlast _ _ hsplit)
    rw [List.length_take, List.length_nil] at hnil
    omega

/-! ## Local headers -/

namespace LocalHeader

/-- The fields have a fixed length. -/
theorem length_fields (header : LocalHeader) : (fieldBytes header.fields).length = 30 :=
  length_fieldBytes _

/-- The length of the header. -/
theorem length_encode (header : LocalHeader) :
    header.encode.length = 30 + header.name.length + header.extra.length := by
  rw [encode, List.length_append, header.length_fields, List.length_append, Nat.add_assoc]

/-- The fields fit their widths. -/
theorem fields_lt (header : LocalHeader) : ∀ field ∈ header.fields, field.2 < 256 ^ field.1 := by
  simp only [fields, List.forall_mem_cons, zipLocalHeaderSignature]
  exact ⟨by decide, header.version_lt, header.flags_lt, header.metadata_lt, header.name_lt,
    header.extra_lt, nofun⟩

end LocalHeader

/-- A local header with the name of the entry stands where the entry says, in front of the directory. -/
theorem matchesLocalHeader_iff {file : Bytes} {entry : ZipCentralEntry} {centralDirectoryOffset : ℕ}
    (hoffset : centralDirectoryOffset ≤ file.length) :
    matchesLocalHeader file entry centralDirectoryOffset = true ↔
      ∃ (header : LocalHeader) (after : Bytes),
        (file.take centralDirectoryOffset).drop entry.localHeaderOffset = header.encode ++ after ∧
          decodeUtf8 header.name = entry.name := by
  constructor
  · intro h
    unfold matchesLocalHeader at h
    split_ifs at h with hfar
    split at h
    · cases h
    rename_i fixed hfixed
    obtain ⟨hfixedLength, afterFixed, hdrop⟩ := readExactly_eq_some.mp hfixed
    dsimp only at h
    generalize hn : readLE fixed 2 26 = nameLength at h
    generalize he : readLE fixed 2 28 = extraLength at h
    split_ifs at h with hsignature hrefused
    simp only [not_or, not_not] at hsignature hrefused
    obtain ⟨hplain, hpos, hend⟩ := hrefused
    split at h
    · cases h
    rename_i name hname
    obtain ⟨hnameLength, afterName, hdropName⟩ := readExactly_eq_some.mp hname
    split_ifs at h with hzero
    have hnext : file.drop (entry.localHeaderOffset + 30) = afterFixed := by
      rw [← List.drop_drop, hdrop, List.drop_left' hfixedLength]
    have hsum := congrArg List.length hdropName
    rw [List.length_drop, List.length_append, hnameLength] at hsum
    have hextraLength : (afterName.take extraLength).length = extraLength :=
      List.length_take_of_le (by omega)
    let header : LocalHeader := {
      version := readLE fixed 2 4, flags := readLE fixed 2 6, metadata := readLE fixed 18 8
      name := name, extra := afterName.take extraLength
      version_lt := readLE_lt .., flags_lt := readLE_lt .., metadata_lt := readLE_lt ..
      plain := and_one_eq_zero.mp hplain
      name_ne_nil := List.ne_nil_of_length_pos (by omega)
      zero_not_mem_name := contains_zero_eq_false.mp (Bool.not_eq_true _ ▸ hzero)
      name_lt := by rw [hnameLength, ← hn]; exact readLE_lt ..
      extra_lt := by rw [hextraLength, ← he]; exact readLE_lt .. }
    have hfields : fieldsAt fixed 0 [4, 2, 2, 18, 2, 2] = header.fields := by
      simp only [fieldsAt, LocalHeader.fields, header, hnameLength, hextraLength, Nat.zero_add,
        Nat.reduceAdd, hsignature, hn, he]
    have hfixedFields : fixed = fieldBytes header.fields := by
      have hcut := @drop_eq_fieldBytes fixed 0 [4, 2, 2, 18, 2, 2] (by rw [hfixedLength]; decide)
      have hrest : fixed.drop (0 + [4, 2, 2, 18, 2, 2].foldr (· + ·) 0) = [] :=
        List.drop_eq_nil_of_le (by rw [hfixedLength]; decide)
      rwa [hfields, hrest, List.append_nil, List.drop_zero] at hcut
    have hheader : file.drop entry.localHeaderOffset =
        header.encode ++ afterName.drop extraLength := by
      rw [hdrop, ← hnext, hdropName, hfixedFields, LocalHeader.encode, List.append_assoc,
        List.append_assoc, List.take_append_drop]
    refine ⟨header, _, drop_take_of_drop hheader ?_, of_decide_eq_true h⟩
    rw [header.length_encode, hnameLength, hextraLength]
    omega
  · rintro ⟨header, after, hdrop, hname⟩
    have hpos := List.length_pos_iff.mpr header.name_ne_nil
    have hlength := header.length_encode
    obtain ⟨hfile, hend⟩ := drop_of_drop_take hdrop (List.ne_nil_of_length_pos (by omega))
    have hnameRead : readExactly file header.name.length (entry.localHeaderOffset + 30) =
        some header.name := by
      rw [LocalHeader.encode, List.append_assoc, List.append_assoc] at hfile
      have hnext : file.drop (entry.localHeaderOffset + 30) =
          header.name ++ (header.extra ++ (after ++ file.drop centralDirectoryOffset)) := by
        rw [← List.drop_drop, hfile, List.drop_left' header.length_fields]
      exact readExactly_of_drop hnext
    rw [LocalHeader.encode, List.append_assoc] at hfile
    have hfixed := readExactly_of_drop hfile
    rw [header.length_fields] at hfixed
    generalize hfixedEq : fieldBytes header.fields = fixed at hfixed
    have hfields := @fieldsAt_of_drop fixed [] 0 header.fields header.fields_lt
      (by rw [hfixedEq, List.append_nil, List.drop_zero])
    simp only [LocalHeader.fields, List.map_cons, List.map_nil, fieldsAt, List.cons.injEq,
      Prod.mk.injEq, true_and, and_true, Nat.zero_add, Nat.reduceAdd] at hfields
    obtain ⟨hsignature, -, hflags, -, hnameLength, hextraLength⟩ := hfields
    unfold matchesLocalHeader
    rw [if_neg (by omega), hfixed]
    dsimp only
    rw [hsignature, hflags, hnameLength, hextraLength, if_neg (not_not.mpr rfl), if_neg, hnameRead]
    · dsimp only
      rw [if_neg]
      · exact decide_eq_true hname
      · rw [Bool.not_eq_true, contains_zero_eq_false]
        exact header.zero_not_mem_name
    · have hplain := and_one_eq_zero.mpr header.plain
      omega

/-! ## Archives -/

/-- An archive: what stands in front of the directory, the directory, and the comment at the end. -/
structure ZipArchive where
  body : Bytes
  entries : List CentralEntry
  comment : Bytes
  body_lt : body.length < zip32Max
  pos : 1 ≤ entries.length
  le : entries.length ≤ ooxmlMaxEntries
  directory_le : (entries.map CentralEntry.encode).flatten.length ≤ ooxmlMaxCentralDirectoryBytes
  comment_lt : comment.length < 256 ^ 2
  /-- No two entries have one name. -/
  names : (entries.map fun entry => decodeUtf8 entry.name).Nodup

namespace ZipArchive

/-- The records of the entries. -/
def directory (archive : ZipArchive) : Bytes := (archive.entries.map CentralEntry.encode).flatten

/-- The end record says where the directory is. -/
def ending (archive : ZipArchive) : EndRecord where
  diskNumber := 0
  centralDirectoryDisk := 0
  entriesOnDisk := archive.entries.length
  totalEntries := archive.entries.length
  centralDirectorySize := archive.directory.length
  centralDirectoryOffset := archive.body.length
  comment := archive.comment
  diskNumber_lt := by decide
  centralDirectoryDisk_lt := by decide
  entriesOnDisk_lt := Nat.lt_of_le_of_lt archive.le (by decide)
  totalEntries_lt := Nat.lt_of_le_of_lt archive.le (by decide)
  centralDirectorySize_lt := Nat.lt_of_le_of_lt archive.directory_le (by decide)
  centralDirectoryOffset_lt := Nat.lt_trans archive.body_lt (by decide)
  comment_lt := archive.comment_lt

/-- The bytes of the archive. -/
def encode (archive : ZipArchive) : Bytes :=
  archive.body ++ (archive.directory ++ archive.ending.encode)

/-- The archive has an entry of a name, and a local header of that name where the entry says. -/
def Contains (archive : ZipArchive) (name : JsString) : Prop :=
  ∃ entry ∈ archive.entries, decodeUtf8 entry.name = name ∧
    ∃ (header : LocalHeader) (after : Bytes),
      archive.body.drop entry.localHeaderOffset = header.encode ++ after ∧
        decodeUtf8 header.name = name

/-- A package of a family: it has the content types, the main part of the family and that of no other
family. -/
structure IsPackage (archive : ZipArchive) (family : JsString) : Prop where
  contentTypes : archive.Contains ooxmlContentTypesEntry
  main : archive.Contains family
  only : ∀ entry ∈ archive.entries, decodeUtf8 entry.name ∈ ooxmlFamilyEntries →
    decodeUtf8 entry.name = family

end ZipArchive

/-! ## Packages -/

/-- A family is found just when it is in the table. -/
theorem lookup_ooxml {mimeType : String} {family : JsString} :
    ooxmlRequiredEntryByMime.lookup mimeType = some family ↔
      (mimeType, family) ∈ ooxmlRequiredEntryByMime := by
  have hkeys : (ooxmlRequiredEntryByMime.map Prod.fst).Nodup := by decide +kernel
  generalize ooxmlRequiredEntryByMime = table at hkeys ⊢
  induction table with
  | nil => simp
  | cons row table ih =>
      obtain ⟨hnew, hrest⟩ := List.nodup_cons.mp hkeys
      rw [List.lookup_cons, List.mem_cons]
      by_cases heq : mimeType = row.1
      · have hnot : (mimeType, family) ∉ table := fun hmem =>
          hnew (heq ▸ List.mem_map_of_mem hmem)
        have hbeq : (mimeType == row.1) = true := beq_iff_eq.mpr heq
        rw [hbeq, or_iff_left hnot, Prod.ext_iff, and_iff_right heq]
        exact ⟨fun h => (Option.some.inj h).symm, fun h => congrArg some h.symm⟩
      · have hne : (mimeType, family) ≠ row := fun h => heq (congrArg Prod.fst h)
        have hbeq : (mimeType == row.1) = false := beq_eq_false_iff_ne.mpr heq
        rw [hbeq, or_iff_right hne]
        exact ih hrest

/-- No two families have one main part. -/
theorem ooxmlFamilyEntries_nodup : ooxmlFamilyEntries.Nodup := by decide +kernel

/-- The name of an entry finds it. -/
theorem entryNamed_map {entries : List CentralEntry} {name : JsString}
    (hnames : (entries.map fun entry => decodeUtf8 entry.name).Nodup) {kept : ZipCentralEntry} :
    entryNamed (entries.map CentralEntry.kept) name = some kept ↔
      ∃ entry ∈ entries, decodeUtf8 entry.name = name ∧ kept = entry.kept := by
  have hfound : ∀ kept', entryNamed (entries.map CentralEntry.kept) name = some kept' →
      ∃ entry ∈ entries, decodeUtf8 entry.name = name ∧ kept' = entry.kept := by
    intro kept' h
    obtain ⟨entry, hmem, rfl⟩ := List.mem_map.mp (List.mem_of_find?_eq_some h)
    have hfind : (entries.map CentralEntry.kept).find? (fun entry => entry.name = name) =
        some entry.kept := h
    have hname := List.find?_some hfind
    exact ⟨entry, hmem, of_decide_eq_true hname, rfl⟩
  refine ⟨hfound kept, ?_⟩
  rintro ⟨entry, hmem, hname, rfl⟩
  have hsome : (entryNamed (entries.map CentralEntry.kept) name).isSome := by
    rw [entryNamed, List.find?_isSome]
    exact ⟨entry.kept, List.mem_map_of_mem hmem, decide_eq_true hname⟩
  obtain ⟨kept', hkept⟩ := Option.isSome_iff_exists.mp hsome
  obtain ⟨entry', hmem', hname', rfl⟩ := hfound kept' hkept
  rw [hkept, List.inj_on_of_nodup_map hnames hmem' hmem (hname'.trans hname.symm)]

namespace ZipArchive

variable {archive : ZipArchive}

/-- The end record of an archive can be used. -/
theorem isPlain_ending (archive : ZipArchive) : archive.ending.IsPlain :=
  EndRecord.isPlain_of_le rfl rfl rfl archive.le archive.directory_le archive.body_lt

/-- An archive has a directory. -/
theorem directory_pos (archive : ZipArchive) : 1 ≤ archive.directory.length := by
  obtain ⟨entry, hmem⟩ := List.exists_mem_of_length_pos archive.pos
  have hlength := entry.length_encode
  have hne : archive.directory ≠ [] := fun hnil =>
    absurd (congrArg List.length (List.flatten_eq_nil_iff.mp hnil _ (List.mem_map_of_mem hmem)))
      (by rw [List.length_nil]; omega)
  exact List.length_pos_iff.mpr hne

/-- The directory of an archive is read. -/
theorem parseCentralDirectory_directory (archive : ZipArchive) :
    parseCentralDirectory archive.directory archive.entries.length =
      some (archive.entries.map CentralEntry.kept) :=
  parseCentralDirectory_eq_some.mpr ⟨archive.entries, rfl, rfl, rfl, archive.names⟩

/-- The end record stands behind the directory. -/
theorem encode_eq (archive : ZipArchive) :
    archive.encode = (archive.body ++ archive.directory) ++ archive.ending.encode :=
  (List.append_assoc ..).symm

end ZipArchive

/-- The tail of a file holds its end record. -/
theorem parseEndOfCentralDirectory_tail {file : Bytes} {tailOffset : ℕ}
    (htail : tailOffset = file.length - min file.length zipMaxEocdSearchBytes)
    {eocd : ZipEndOfCentralDirectory} :
    parseEndOfCentralDirectory (file.drop tailOffset) tailOffset = some eocd ↔
      ∃ (front : Bytes) (record : EndRecord), file = front ++ record.encode ∧ record.IsPlain ∧
        record.IsLast ∧ eocd = record.kept front.length := by
  rw [parseEndOfCentralDirectory_eq_some]
  constructor
  · rintro ⟨front, record, hdrop, hplain, hlast, rfl⟩
    have hlength : (file.take tailOffset).length = tailOffset := List.length_take_of_le (by omega)
    refine ⟨file.take tailOffset ++ front, record, ?_, hplain, hlast, ?_⟩
    · rw [List.append_assoc, ← hdrop, List.take_append_drop]
    · rw [List.length_append, hlength]
  · rintro ⟨front, record, rfl, hplain, hlast, rfl⟩
    have hlength : record.encode.length ≤ zipMaxEocdSearchBytes := by
      rw [record.length_encode]
      exact Nat.add_le_add_left (Nat.le_of_lt_succ record.comment_lt) 22
    have hle : tailOffset ≤ front.length := by
      rw [List.length_append] at htail
      omega
    refine ⟨front.drop tailOffset, record, List.drop_append_of_le_length hle, hplain, hlast, ?_⟩
    rw [List.length_drop, Nat.add_sub_cancel' hle]

/-- The end record of a file, as the validator looks for it in the tail. -/
def endOfCentralDirectory (file : Bytes) : Option ZipEndOfCentralDirectory :=
  let tailOffset := file.length - min file.length zipMaxEocdSearchBytes
  parseEndOfCentralDirectory (file.drop tailOffset) tailOffset

/-- The entries of a file, as the validator reads them from where the end record says. -/
def entriesOf (file : Bytes) : Option (List ZipCentralEntry) := do
  let eocd ← endOfCentralDirectory file
  let centralDirectory ← readExactly file eocd.centralDirectorySize eocd.centralDirectoryOffset
  parseCentralDirectory centralDirectory eocd.totalEntries

/-- A directory in front of its end record is found. -/
theorem endOfCentralDirectory_encode {front : Bytes} {record : EndRecord} (hplain : record.IsPlain)
    (hlast : record.IsLast) :
    endOfCentralDirectory (front ++ record.encode) = some (record.kept front.length) :=
  (parseEndOfCentralDirectory_tail rfl).mpr ⟨front, record, rfl, hplain, hlast, rfl⟩

/-- A directory that its end record describes is read. -/
theorem entriesOf_encode {body directory : Bytes} {record : EndRecord} (hplain : record.IsPlain)
    (hlast : record.IsLast) (hoffset : record.centralDirectoryOffset = body.length)
    (hsize : record.centralDirectorySize = directory.length) :
    entriesOf (body ++ (directory ++ record.encode)) =
      parseCentralDirectory directory record.totalEntries := by
  have hend := @endOfCentralDirectory_encode (body ++ directory) record hplain hlast
  have hread : readExactly (body ++ (directory ++ record.encode)) directory.length body.length =
      some directory := by
    have hdrop : (body ++ (directory ++ record.encode)).drop body.length = directory ++ record.encode :=
      List.drop_left
    exact readExactly_of_drop hdrop
  rw [List.append_assoc] at hend
  rw [entriesOf, hend, Option.bind_eq_bind, Option.bind_some, EndRecord.kept, hsize, hoffset, hread]
  rfl

/-- The entries of an archive are read from its bytes. -/
theorem ZipArchive.entriesOf_encode {archive : ZipArchive} (hlast : archive.ending.IsLast) :
    entriesOf archive.encode = some (archive.entries.map CentralEntry.kept) :=
  (ApiWhatsApp.entriesOf_encode archive.isPlain_ending hlast rfl rfl).trans
    archive.parseCentralDirectory_directory

/-- What the directory says of an entry is so. -/
theorem contains_iff {archive : ZipArchive} {file : Bytes} {name : JsString}
    (hbody : file.take archive.body.length = archive.body) :
    archive.Contains name ↔
      ∃ kept, entryNamed (archive.entries.map CentralEntry.kept) name = some kept ∧
        matchesLocalHeader file kept archive.body.length = true := by
  have hle : archive.body.length ≤ file.length := by
    rw [← hbody]
    exact List.length_take_le' ..
  constructor
  · rintro ⟨entry, hmem, hname, header, after, hdrop, hheader⟩
    refine ⟨entry.kept, (entryNamed_map archive.names).mpr ⟨entry, hmem, hname, rfl⟩, ?_⟩
    refine (matchesLocalHeader_iff hle).mpr ⟨header, after, ?_, hheader.trans hname.symm⟩
    rw [hbody]
    exact hdrop
  · rintro ⟨kept, hkept, hlocal⟩
    obtain ⟨entry, hmem, hname, rfl⟩ := (entryNamed_map archive.names).mp hkept
    obtain ⟨header, after, hdrop, hheader⟩ := (matchesLocalHeader_iff hle).mp hlocal
    rw [hbody] at hdrop
    exact ⟨entry, hmem, hname, header, after, hdrop, hheader.trans hname⟩

/-- The other families are looked for. -/
theorem only_iff {archive : ZipArchive} {family : JsString} :
    ¬ (ooxmlFamilyEntries.any fun familyEntry => familyEntry ≠ family ∧
        (entryNamed (archive.entries.map CentralEntry.kept) familyEntry).isSome) = true ↔
      ∀ entry ∈ archive.entries, decodeUtf8 entry.name ∈ ooxmlFamilyEntries →
        decodeUtf8 entry.name = family := by
  rw [List.any_eq_true, not_exists]
  simp only [not_and, decide_eq_true_eq]
  constructor
  · intro h entry hmem hfamily
    by_contra hne
    refine h _ hfamily hne ?_
    rw [(entryNamed_map archive.names).mpr ⟨entry, hmem, rfl, rfl⟩]
    rfl
  · intro h familyEntry hfamily hne hsome
    obtain ⟨kept, hkept⟩ := Option.isSome_iff_exists.mp hsome
    obtain ⟨entry, hmem, rfl, -⟩ := (entryNamed_map archive.names).mp hkept
    exact hne (h entry hmem hfamily)

/-- **A file is accepted** for a family just when it is a package of it. -/
theorem matchesOoxmlPackageIdentity_iff {file : Bytes} {mimeType : String} {family : JsString}
    (hlookup : ooxmlRequiredEntryByMime.lookup mimeType = some family) :
    matchesOoxmlPackageIdentity file mimeType = true ↔
      ∃ archive : ZipArchive, archive.encode = file ∧ archive.ending.IsLast ∧
        archive.IsPackage family := by
  have htail : readExactly file (min file.length zipMaxEocdSearchBytes)
      (file.length - min file.length zipMaxEocdSearchBytes) =
      some (file.drop (file.length - min file.length zipMaxEocdSearchBytes)) := by
    rw [readExactly, takeExactly_of_le, List.take_of_length_le]
    all_goals
      rw [List.length_drop]
      omega
  unfold matchesOoxmlPackageIdentity
  rw [hlookup]
  dsimp only
  rw [htail]
  dsimp only
  constructor
  · intro h
    split_ifs at h with hshort
    split at h
    · cases h
    rename_i eocd heocd
    obtain ⟨front, record, rfl, hplain, hlast, rfl⟩ := (parseEndOfCentralDirectory_tail rfl).mp heocd
    split_ifs at h with hrefused
    dsimp only [EndRecord.kept] at h hrefused
    simp only [not_or, Nat.not_lt, not_not] at hrefused
    obtain ⟨hpos, hle, hsizePos, hsizeLe, hplace⟩ := hrefused
    split at h
    · cases h
    rename_i directory hdirectory
    obtain ⟨hdirectoryLength, after, hdrop⟩ := readExactly_eq_some.mp hdirectory
    split at h
    · cases h
    rename_i kept hkept
    obtain ⟨entries, hentries, hflatten, rfl, hnames⟩ := parseCentralDirectory_eq_some.mp hkept
    obtain ⟨hdisk, hdirectoryDisk, hon, htotal, hsize, hoffset⟩ := hplain
    -- What stands in front of the record is the body and the directory.
    have hbodyLength : (front.take record.centralDirectoryOffset).length = record.centralDirectoryOffset :=
      List.length_take_of_le (by omega)
    have hfront : front = front.take record.centralDirectoryOffset ++ directory := by
      rw [List.drop_append_of_le_length (by omega)] at hdrop
      have hsplit := List.append_inj hdrop (by rw [List.length_drop]; omega)
      rw [← hsplit.1, List.take_append_drop]
    have hlt : record.centralDirectoryOffset < zip32Max := by
      have hfour := record.centralDirectoryOffset_lt
      rw [zip32Max] at hoffset ⊢
      omega
    let archive : ZipArchive := {
      body := front.take record.centralDirectoryOffset, entries := entries, comment := record.comment
      body_lt := by rw [hbodyLength]; exact hlt
      pos := by omega, le := by omega
      directory_le := by rw [← hflatten, hdirectoryLength]; exact hsizeLe
      comment_lt := record.comment_lt, names := hnames }
    have hdirectoryEq : archive.directory = directory := hflatten.symm
    have hending : archive.ending = record := by
      refine EndRecord.ext hdisk.symm hdirectoryDisk.symm (hentries.trans hon.symm) hentries ?_ hbodyLength rfl
      rw [← hdirectoryLength, ← hdirectoryEq]
      rfl
    have hbody : (front ++ record.encode).take archive.body.length = archive.body := by
      rw [hbodyLength, List.take_append_of_le_length (by omega)]
    split at h
    swap
    · cases h
    rename_i contentTypes expectedFamily hcontentTypes hfamily
    split_ifs at h with hothers
    obtain ⟨hlocal, hlocalFamily⟩ := Bool.and_eq_true_iff.mp h
    refine ⟨archive, ?_, hending ▸ hlast, ?_, ?_, ?_⟩
    · rw [ZipArchive.encode, hending, hdirectoryEq, ← List.append_assoc, ← hfront]
    · exact (contains_iff hbody).mpr ⟨contentTypes, hcontentTypes, by rwa [hbodyLength]⟩
    · exact (contains_iff hbody).mpr ⟨expectedFamily, hfamily, by rwa [hbodyLength]⟩
    · exact only_iff.mp hothers
  · rintro ⟨archive, rfl, hlast, hpackage⟩
    have hpos := archive.pos
    have hle := archive.le
    have hdirectoryPos := archive.directory_pos
    have hdirectoryLe : archive.directory.length ≤ ooxmlMaxCentralDirectoryBytes := archive.directory_le
    have hlength := archive.ending.length_encode
    have hencode := archive.encode_eq
    have hshort : ¬ archive.encode.length < zipEndOfCentralDirectoryBytes := by
      rw [hencode, List.length_append, zipEndOfCentralDirectoryBytes]
      omega
    have hread : readExactly archive.encode archive.directory.length archive.body.length =
        some archive.directory := by
      have hdrop : archive.encode.drop archive.body.length =
          archive.directory ++ archive.ending.encode := List.drop_left
      exact readExactly_of_drop hdrop
    have hbody : archive.encode.take archive.body.length = archive.body := List.take_left
    obtain ⟨contentTypes, hcontentTypes, hlocal⟩ := (contains_iff hbody).mp hpackage.contentTypes
    obtain ⟨expectedFamily, hfamily, hlocalFamily⟩ := (contains_iff hbody).mp hpackage.main
    have hkept := archive.parseCentralDirectory_directory
    rw [if_neg hshort, (parseEndOfCentralDirectory_tail rfl).mpr
      ⟨_, _, hencode, archive.isPlain_ending, hlast, rfl⟩]
    dsimp only
    rw [if_neg]
    · dsimp only [EndRecord.kept, ZipArchive.ending]
      rw [hread]
      dsimp only
      rw [hkept]
      dsimp only
      rw [hcontentTypes, hfamily]
      dsimp only
      rw [if_neg (only_iff.mpr hpackage.only), hlocal, hlocalFamily]
      rfl
    · rintro (hlt | hgt | hlt | hgt | hne)
      · exact absurd hpos (Nat.not_le.mpr hlt)
      · exact absurd hle (Nat.not_le.mpr hgt)
      · exact absurd hdirectoryPos (Nat.not_le.mpr hlt)
      · exact absurd hdirectoryLe (Nat.not_le.mpr hgt)
      · exact hne (List.length_append ..).symm

/-- The files that are accepted are the packages of the family in whose end record no other one stands. -/
theorem matchesOoxmlPackageIdentity_iff_package {file : Bytes} {mimeType : String} :
    matchesOoxmlPackageIdentity file mimeType = true ↔
      ∃ (family : JsString) (archive : ZipArchive), (mimeType, family) ∈ ooxmlRequiredEntryByMime ∧
        archive.encode = file ∧ archive.ending.IsLast ∧ archive.IsPackage family := by
  cases hlookup : ooxmlRequiredEntryByMime.lookup mimeType with
  | none =>
      refine iff_of_false (fun h => ?_) ?_
      · rw [matchesOoxmlPackageIdentity, hlookup] at h
        cases h
      · rintro ⟨family, archive, hmem, -⟩
        rw [lookup_ooxml.mpr hmem] at hlookup
        cases hlookup
  | some family =>
      rw [matchesOoxmlPackageIdentity_iff hlookup]
      constructor
      · rintro ⟨archive, h⟩
        exact ⟨family, archive, lookup_ooxml.mp hlookup, h⟩
      · rintro ⟨family', archive, hmem, h⟩
        obtain rfl : family' = family :=
          Option.some.inj ((lookup_ooxml.mpr hmem).symm.trans hlookup)
        exact ⟨archive, h⟩

/-- No file is a package of two families. -/
theorem ooxmlMimeType_unique {file : Bytes} {mimeType mimeType' : String}
    (h : matchesOoxmlPackageIdentity file mimeType = true)
    (h' : matchesOoxmlPackageIdentity file mimeType' = true) : mimeType = mimeType' := by
  obtain ⟨family, archive, hmem, rfl, hlast, hpackage⟩ := matchesOoxmlPackageIdentity_iff_package.mp h
  obtain ⟨family', archive', hmem', hencode, hlast', hpackage'⟩ :=
    matchesOoxmlPackageIdentity_iff_package.mp h'
  have hkept : archive.entries.map CentralEntry.kept = archive'.entries.map CentralEntry.kept := by
    refine Option.some.inj ?_
    rw [← ZipArchive.entriesOf_encode hlast, ← ZipArchive.entriesOf_encode hlast', hencode]
  -- The main part of one package stands in the other too.
  obtain ⟨entry, hentry, hname, -⟩ := hpackage.main
  obtain ⟨entry', hentry', hsame⟩ := List.mem_map.mp (hkept ▸ List.mem_map_of_mem hentry)
  have hname' : decodeUtf8 entry'.name = family := (congrArg ZipCentralEntry.name hsame).trans hname
  have hfamily : family = family' :=
    hname'.symm.trans (hpackage'.only entry' hentry' (hname' ▸ List.mem_map_of_mem hmem))
  exact congrArg Prod.fst (List.inj_on_of_nodup_map ooxmlFamilyEntries_nodup hmem hmem' hfamily)

/-- **The files that are accepted** for a MIME type are the packages of its family in whose end record no
other one stands, and no file is accepted for two types. -/
theorem ooxml_package (file : Bytes) :
    (∀ mimeType, matchesOoxmlPackageIdentity file mimeType = true ↔
      ∃ (family : JsString) (archive : ZipArchive), (mimeType, family) ∈ ooxmlRequiredEntryByMime ∧
        archive.encode = file ∧ archive.ending.IsLast ∧ archive.IsPackage family) ∧
    ∀ mimeType mimeType', matchesOoxmlPackageIdentity file mimeType = true →
      matchesOoxmlPackageIdentity file mimeType' = true → mimeType = mimeType' :=
  ⟨fun _ => matchesOoxmlPackageIdentity_iff_package, fun _ _ => ooxmlMimeType_unique⟩

/-! ## What is written is read -/

/-- An entry whose name is the encoding of a text. -/
structure NamedEntry extends CentralEntry where
  text : String
  name_eq : name = utf8Bytes text

/-- What is written as an archive without a comment: entries with different names behind a body, within
the limits of the validator. -/
structure ArchiveListing where
  body : Bytes
  entries : List NamedEntry
  body_lt : body.length < zip32Max
  le : entries.length ≤ ooxmlMaxEntries
  directory_le :
    (entries.map fun entry => entry.encode).flatten.length ≤ ooxmlMaxCentralDirectoryBytes
  names : (entries.map NamedEntry.text).Nodup

namespace ArchiveListing

/-- The records of the entries. -/
def directory (listing : ArchiveListing) : Bytes := (listing.entries.map fun entry => entry.encode).flatten

/-- The end record says where the directory is. -/
def ending (listing : ArchiveListing) : EndRecord where
  diskNumber := 0
  centralDirectoryDisk := 0
  entriesOnDisk := listing.entries.length
  totalEntries := listing.entries.length
  centralDirectorySize := listing.directory.length
  centralDirectoryOffset := listing.body.length
  comment := []
  diskNumber_lt := by decide
  centralDirectoryDisk_lt := by decide
  entriesOnDisk_lt := Nat.lt_of_le_of_lt listing.le (by decide)
  totalEntries_lt := Nat.lt_of_le_of_lt listing.le (by decide)
  centralDirectorySize_lt := Nat.lt_of_le_of_lt listing.directory_le (by decide)
  centralDirectoryOffset_lt := Nat.lt_trans listing.body_lt (by decide)
  comment_lt := by decide

/-- The bytes of the archive. -/
def encode (listing : ArchiveListing) : Bytes :=
  listing.body ++ (listing.directory ++ listing.ending.encode)

/-- The names and offsets that were written. -/
def kept (listing : ArchiveListing) : List ZipCentralEntry :=
  listing.entries.map fun entry => ⟨ofText entry.text, entry.localHeaderOffset⟩

/-- The directory is read back, name by name. -/
theorem parseCentralDirectory_directory (listing : ArchiveListing) :
    parseCentralDirectory listing.directory listing.entries.length = some listing.kept := by
  have hname : ∀ entry : NamedEntry, decodeUtf8 entry.name = ofText entry.text := fun entry => by
    rw [entry.name_eq, decodeUtf8_utf8Bytes]
  refine parseCentralDirectory_eq_some.mpr
    ⟨listing.entries.map NamedEntry.toCentralEntry, List.length_map .., ?_, ?_, ?_⟩
  · rw [List.map_map]
    rfl
  · rw [List.map_map]
    refine List.map_congr_left fun entry _ => ?_
    rw [Function.comp_apply, CentralEntry.kept, hname]
  · have hnames := listing.names.map ofText_injective
    have hmap : listing.entries.map ((fun entry => decodeUtf8 entry.name) ∘ NamedEntry.toCentralEntry) =
        listing.entries.map (ofText ∘ NamedEntry.text) :=
      List.map_congr_left fun entry _ => hname entry
    rw [List.map_map] at hnames ⊢
    rwa [hmap]

end ArchiveListing

/-- **Package identity.** What is written as an archive is read back: its end record is found, and the
directory gives the names and the offsets of the entries. Every file that is accepted is an archive, its
directory made up of records up to the end record, with the content types and the main part of the family
where local headers of those names stand in front of the directory; and no file is accepted for two of
the types. -/
theorem ooxml_identity :
    (∀ listing : ArchiveListing,
      endOfCentralDirectory listing.encode =
        some ⟨listing.body.length + listing.directory.length, listing.body.length,
          listing.directory.length, listing.entries.length⟩ ∧
      entriesOf listing.encode = some listing.kept) ∧
    (∀ file mimeType, matchesOoxmlPackageIdentity file mimeType = true →
      ∃ (family : JsString) (archive : ZipArchive), (mimeType, family) ∈ ooxmlRequiredEntryByMime ∧
        archive.encode = file ∧ entriesOf file = some (archive.entries.map CentralEntry.kept) ∧
        archive.Contains ooxmlContentTypesEntry ∧ archive.Contains family) ∧
    ∀ file mimeType mimeType', matchesOoxmlPackageIdentity file mimeType = true →
      matchesOoxmlPackageIdentity file mimeType' = true → mimeType = mimeType' := by
  refine ⟨fun listing => ?_, fun file mimeType h => ?_, fun file mimeType mimeType' => ooxmlMimeType_unique⟩
  · have hplain : listing.ending.IsPlain :=
      EndRecord.isPlain_of_le rfl rfl rfl listing.le listing.directory_le listing.body_lt
    have hlast : listing.ending.IsLast := EndRecord.isLast_of_comment_nil rfl
    constructor
    · rw [ArchiveListing.encode, ← List.append_assoc, endOfCentralDirectory_encode hplain hlast,
        List.length_append]
      rfl
    · exact (entriesOf_encode hplain hlast rfl rfl).trans listing.parseCentralDirectory_directory
  · obtain ⟨family, archive, hmem, rfl, hlast, hpackage⟩ := matchesOoxmlPackageIdentity_iff_package.mp h
    exact ⟨family, archive, hmem, rfl, ZipArchive.entriesOf_encode hlast, hpackage.contentTypes,
      hpackage.main⟩

end ApiWhatsApp
