import ApiWhatsApp.Library.Bytes

/-!
# JPEG files

`matchesJpegStructure` of `media/media-image-structure.ts`: a walk over the markers of the header, up
to the first scan, between the markers that open and close an image.

* `JpegMarker` is a marker with its fill bytes and its segment. `JpegImage least` is an image whose
  frames and scan have `least` components or more.
* **`jpeg_structure`** — the files that are accepted are the encodings of a `JpegImage 1`, and no
  step of the walk reaches the last two bytes. **`jpeg_structure_components`**: an image without
  components is refused.
-/

namespace ApiWhatsApp

open Library

/-! ## The validator -/

/-- Source: `JPEG_SOI`. -/
def jpegSoi : Bytes := [0xff, 0xd8]

/-- Source: `JPEG_EOI`. -/
def jpegEoi : Bytes := [0xff, 0xd9]

/-- Source: `JPEG_MAX_HEADER_MARKERS`. -/
def jpegMaxHeaderMarkers : ℕ := 1024

/-- Source: `JPEG_SOS`. -/
def jpegSos : UInt8 := 0xda

/-- Source: `JPEG_EOI_MARKER`. -/
def jpegEoiMarker : UInt8 := 0xd9

/-- Source: `JPEG_TEM`. -/
def jpegTem : UInt8 := 0x01

/-- Source: `JPEG_RST_MIN`. -/
def jpegRstMin : UInt8 := 0xd0

/-- Source: `JPEG_RST_MAX`. -/
def jpegRstMax : UInt8 := 0xd7

/-- The loop in `readJpegMarker`, with the bytes that are left of the file. -/
def skipFillBytes (file : Bytes) : ℕ → ℕ → Option (UInt8 × ℕ)
  | 0, _ => none
  | remaining + 1, offset =>
      match readExactly file 1 offset with
      | some [byte] =>
          if byte = 0xff then skipFillBytes file remaining (offset + 1)
          else if byte = 0x00 then none
          else some (byte, offset + 1)
      | _ => none

/-- Source: `readJpegMarker`. -/
def readJpegMarker (file : Bytes) (startOffset : ℕ) : Option (UInt8 × ℕ) :=
  match readExactly file 1 startOffset with
  | some [first] =>
      if first ≠ 0xff then none else skipFillBytes file (file.length - startOffset) startOffset
  | _ => none

/-- Source: `isStandaloneJpegMarker`. -/
def isStandaloneJpegMarker (code : UInt8) : Bool :=
  code = jpegTem || code ≥ jpegRstMin && code ≤ jpegRstMax

/-- Source: `isStartOfFrameMarker`. -/
def isStartOfFrameMarker (code : UInt8) : Bool :=
  code ≥ 0xc0 && code ≤ 0xc3 || code ≥ 0xc5 && code ≤ 0xc7 || code ≥ 0xc9 && code ≤ 0xcb ||
    code ≥ 0xcd && code ≤ 0xcf

/-- Source: `validateJpegStartOfFrame`. -/
def validateJpegStartOfFrame (file : Bytes) (lengthOffset segmentLength : ℕ) : Bool :=
  if segmentLength < 8 then false
  else
    match readExactly file 8 lengthOffset with
    | none => false
    | some fixed =>
        let height := readBE fixed 2 3
        let width := readBE fixed 2 5
        let components := (fixed.getD 7 0).toNat
        width > 0 && height > 0 && components > 0 && segmentLength = 8 + components * 3

/-- Source: `validateJpegStartOfScan`. -/
def validateJpegStartOfScan (file : Bytes) (lengthOffset segmentLength : ℕ) : Bool :=
  if segmentLength < 8 then false
  else
    match readExactly file 3 lengthOffset with
    | none => false
    | some start =>
        let components := (start.getD 2 0).toNat
        components > 0 && segmentLength = 6 + components * 2

/-- One round of the loop in `matchesJpegStructure`: it keeps whether there was a frame, and the file
is accepted, or not, at the scan. -/
def jpegMarker (file : Bytes) (foundStartOfFrame : Bool) (offset : ℕ) : Except Bool (ℕ × Bool) :=
  match readJpegMarker file offset with
  | none => .error false
  | some (code, nextOffset) =>
      if code = jpegEoiMarker then .error false
      else if isStandaloneJpegMarker code then .ok (nextOffset - offset, foundStartOfFrame)
      else
        match readExactly file 2 nextOffset with
        | none => .error false
        | some lengthBytes =>
            let segmentLength := readBE lengthBytes 2 0
            if segmentLength < 2 ∨ nextOffset + segmentLength > file.length - jpegEoi.length then
              .error false
            else if isStartOfFrameMarker code ∧
                !validateJpegStartOfFrame file nextOffset segmentLength then .error false
            else
              let foundStartOfFrame := foundStartOfFrame || isStartOfFrameMarker code
              if code = jpegSos then
                .error (foundStartOfFrame && validateJpegStartOfScan file nextOffset segmentLength &&
                  nextOffset + segmentLength < file.length - jpegEoi.length)
              else .ok (nextOffset + segmentLength - offset, foundStartOfFrame)

/-- Source: `matchesJpegStructure`. -/
def matchesJpegStructure (file : Bytes) : Bool :=
  if file.length < 12 then false
  else if readExactly file jpegSoi.length 0 ≠ some jpegSoi ∨
      readExactly file jpegEoi.length (file.length - jpegEoi.length) ≠ some jpegEoi then false
  else
    match scan (jpegMarker file) (file.length - jpegEoi.length) jpegMaxHeaderMarkers false
        jpegSoi.length with
    | .error result => result
    | .ok _ => false

/-! ## Images -/

/-- A marker of the header: fill bytes, a code, and a segment unless it stands alone. -/
structure JpegMarker where
  fill : ℕ
  code : UInt8
  payload : Bytes
  fill_pos : 1 ≤ fill
  ne_zero : code ≠ 0x00
  ne_fill : code ≠ 0xff
  ne_eoi : code ≠ jpegEoiMarker
  payload_lt : payload.length + 2 < 2 ^ 16
  standalone : isStandaloneJpegMarker code = true → payload = []

namespace JpegMarker

/-- What follows the code. -/
def segment (marker : JpegMarker) : Bytes :=
  if isStandaloneJpegMarker marker.code then []
  else bigEndianBytes 2 (marker.payload.length + 2) ++ marker.payload

/-- The bytes of a marker segment. -/
def encode (marker : JpegMarker) : Bytes :=
  List.replicate marker.fill 0xff ++ marker.code :: marker.segment

/-- A marker segment has bytes. -/
theorem encode_ne_nil (marker : JpegMarker) : marker.encode ≠ [] := by
  simp [encode]

end JpegMarker

/-- The segment of a frame. -/
structure ValidFrame (least : ℕ) (payload : Bytes) : Prop where
  height : 0 < bigEndian ((payload.drop 1).take 2)
  width : 0 < bigEndian ((payload.drop 3).take 2)
  components : least ≤ (payload.getD 5 0).toNat
  length : payload.length + 2 = 8 + 3 * (payload.getD 5 0).toNat

/-- The segment of a scan. -/
structure ValidScan (least : ℕ) (payload : Bytes) : Prop where
  components : least ≤ (payload.getD 0 0).toNat
  length : payload.length + 2 = 6 + 2 * (payload.getD 0 0).toNat

/-- An image up to its first scan, and the bytes from there on. -/
structure JpegImage (least : ℕ) where
  markers : List JpegMarker
  sos : JpegMarker
  scanData : Bytes
  ne_sos : ∀ marker ∈ markers, marker.code ≠ jpegSos
  sos_code : sos.code = jpegSos
  frames : ∀ marker ∈ markers, isStartOfFrameMarker marker.code = true →
    ValidFrame least marker.payload
  frame : ∃ marker ∈ markers, isStartOfFrameMarker marker.code = true
  scan : ValidScan least sos.payload
  scanData_ne : scanData ≠ []
  count : markers.length + 1 ≤ jpegMaxHeaderMarkers

/-- The bytes of the image. -/
def JpegImage.encode {least : ℕ} (image : JpegImage least) : Bytes :=
  jpegSoi ++ (image.markers.map JpegMarker.encode).flatten ++ image.sos.encode ++ image.scanData ++
    jpegEoi

/-! ## Reading a marker -/

/-- Fill bytes are skipped up to a code. -/
theorem skipFillBytes_replicate {file after : Bytes} {offset fill remaining : ℕ} {code : UInt8}
    (hdrop : file.drop offset = List.replicate fill 0xff ++ code :: after) (hzero : code ≠ 0x00)
    (hfill : code ≠ 0xff) (hremaining : fill < remaining) :
    skipFillBytes file remaining offset = some (code, offset + fill + 1) := by
  induction fill generalizing offset remaining with
  | zero =>
      obtain ⟨remaining, rfl⟩ := Nat.exists_eq_succ_of_ne_zero (Nat.ne_of_gt hremaining)
      rw [skipFillBytes, readExactly_byte.mpr ⟨after, hdrop⟩]
      dsimp only
      rw [if_neg hfill, if_neg hzero]
  | succ fill ih =>
      obtain ⟨remaining, rfl⟩ := Nat.exists_eq_succ_of_ne_zero (Nat.ne_zero_of_lt hremaining)
      rw [List.replicate_succ, List.cons_append] at hdrop
      have htail : file.drop (offset + 1) = List.replicate fill 0xff ++ code :: after := by
        rw [← List.drop_drop, hdrop]
        rfl
      rw [skipFillBytes, readExactly_byte.mpr ⟨_, hdrop⟩]
      dsimp only
      rw [if_pos rfl, ih htail (Nat.lt_of_succ_lt_succ hremaining), Nat.add_assoc offset,
        Nat.add_comm 1 fill]

/-- A code that is found stands behind fill bytes. -/
theorem exists_fill {file : Bytes} {offset remaining nextOffset : ℕ} {code : UInt8}
    (h : skipFillBytes file remaining offset = some (code, nextOffset)) :
    ∃ fill after, file.drop offset = List.replicate fill 0xff ++ code :: after ∧ code ≠ 0x00 ∧
      code ≠ 0xff ∧ nextOffset = offset + fill + 1 := by
  induction remaining generalizing offset with
  | zero => cases h
  | succ remaining ih =>
      rw [skipFillBytes] at h
      split at h
      · rename_i byte hread
        obtain ⟨after, hdrop⟩ := readExactly_byte.mp hread
        split_ifs at h with hfill hzero
        · obtain ⟨fill, after', hdrop', hcode⟩ := ih h
          rw [← List.drop_drop, hdrop, List.drop_one, List.tail_cons] at hdrop'
          subst hfill
          refine ⟨fill + 1, after', ?_, hcode.1, hcode.2.1, by omega⟩
          rw [hdrop, hdrop', List.replicate_succ, List.cons_append]
        · cases h
          exact ⟨0, after, hdrop, hzero, hfill, rfl⟩
      · cases h

section

variable {content after : Bytes} {offset : ℕ}

/-- A code behind fill bytes stands before the last two bytes, which are no such code. -/
theorem exists_fill_content {code : UInt8} {fill : ℕ} (hpos : 1 ≤ fill) (hfill : code ≠ 0xff)
    (heoi : code ≠ jpegEoiMarker)
    (hdrop : (content ++ jpegEoi).drop offset = List.replicate fill 0xff ++ code :: after) :
    ∃ after', content.drop offset = List.replicate fill 0xff ++ code :: after' := by
  obtain ⟨fill, rfl⟩ := Nat.exists_eq_add_of_le' hpos
  rcases Nat.lt_or_ge content.length offset with hlt | hle
  · -- The rest of the file does not start with a fill byte.
    exfalso
    have hrest : (content ++ jpegEoi).drop offset = jpegEoi.drop (offset - content.length) := by
      rw [List.drop_append, List.drop_eq_nil_of_le hlt.le, List.nil_append]
    obtain ⟨k, hk⟩ := Nat.exists_eq_add_of_lt hlt
    rw [hrest, show offset - content.length = k + 1 by omega, List.replicate_succ] at hdrop
    have hhead : (0xd9 : UInt8) = 0xff := by
      cases k with
      | zero => exact (List.cons.inj hdrop).1
      | succ k => simp [jpegEoi] at hdrop
    exact absurd hhead (by decide)
  · rw [List.drop_append_of_le_length hle] at hdrop
    have hcode : content.drop offset ++ jpegEoi =
        (List.replicate (fill + 1) 0xff ++ [code]) ++ after := by
      rw [hdrop]
      simp
    rcases List.append_eq_append_iff.mp hcode with ⟨middle, hleft, hright⟩ | ⟨middle, hleft, hright⟩
    · -- What the two bytes share with the marker ends with its code.
      rcases List.eq_nil_or_concat' middle with rfl | ⟨middle, last, rfl⟩
      · exact ⟨[], by rw [List.append_nil] at hleft; exact hleft.symm⟩
      · exfalso
        rw [← List.append_assoc] at hleft
        obtain rfl := List.singleton_inj.mp (List.append_inj' hleft rfl).2
        match middle, hright with
        | [], hright => exact hfill (List.cons.inj hright).1.symm
        | [_], hright => exact heoi (List.cons.inj (List.cons.inj hright).2).1.symm
        | _ :: _ :: _, hright => exact absurd hright (by simp [jpegEoi])
    · exact ⟨middle, by rw [hleft]; simp⟩

/-- What is read where a marker stands. -/
theorem readJpegMarker_of_drop {code : UInt8} {fill : ℕ} (hpos : 1 ≤ fill) (hzero : code ≠ 0x00)
    (hfill : code ≠ 0xff) (hdrop : content.drop offset = List.replicate fill 0xff ++ code :: after) :
    readJpegMarker (content ++ jpegEoi) offset = some (code, offset + fill + 1) := by
  have hsum := congrArg List.length hdrop
  rw [List.length_drop, List.length_append, List.length_cons, List.length_replicate] at hsum
  have hfile : (content ++ jpegEoi).drop offset =
      List.replicate fill 0xff ++ code :: (after ++ jpegEoi) := by
    rw [List.drop_append_of_le_length (by omega), hdrop]
    simp
  have hfirst : readExactly (content ++ jpegEoi) 1 offset = some [0xff] := by
    obtain ⟨fill, rfl⟩ := Nat.exists_eq_add_of_le' hpos
    exact readExactly_byte.mpr ⟨_, hfile⟩
  unfold readJpegMarker
  rw [hfirst]
  dsimp only
  rw [if_neg (not_not.mpr rfl)]
  refine skipFillBytes_replicate hfile hzero hfill ?_
  rw [List.length_append]
  omega

/-- A marker that is read stands there, behind its fill bytes. -/
theorem exists_of_readJpegMarker {code : UInt8} {nextOffset : ℕ}
    (h : readJpegMarker (content ++ jpegEoi) offset = some (code, nextOffset))
    (heoi : code ≠ jpegEoiMarker) :
    ∃ fill after, 1 ≤ fill ∧ content.drop offset = List.replicate fill 0xff ++ code :: after ∧
      code ≠ 0x00 ∧ code ≠ 0xff ∧ nextOffset = offset + fill + 1 := by
  unfold readJpegMarker at h
  split at h
  · rename_i first hfirst
    split_ifs at h with hfill
    obtain ⟨rest, hrest⟩ := readExactly_byte.mp hfirst
    obtain ⟨fill, after, hdrop, hzero, hcode, hnext⟩ := exists_fill h
    have hpos : 1 ≤ fill := by
      refine Nat.one_le_iff_ne_zero.mpr fun hnone => ?_
      subst hnone
      rw [hrest] at hdrop
      exact hcode ((List.cons.inj hdrop).1.symm.trans (not_not.mp hfill))
    obtain ⟨after', hcontent⟩ := exists_fill_content hpos hcode heoi hdrop
    exact ⟨fill, after', hpos, hcontent, hzero, hcode, hnext⟩
  · cases h

/-! ## One marker -/

/-- A length and a payload, as the validators of segments find them. -/
theorem readExactly_segment {payload : Bytes} {lengthOffset : ℕ} {file : Bytes}
    (hdrop : file.drop lengthOffset =
      bigEndianBytes 2 (payload.length + 2) ++ payload ++ after) (count : ℕ)
    (hcount : count ≤ payload.length) :
    readExactly file (count + 2) lengthOffset =
      some (bigEndianBytes 2 (payload.length + 2) ++ payload.take count) := by
  refine readExactly_eq_some.mpr ⟨?_, payload.drop count ++ after, ?_⟩
  · rw [List.length_append, length_bigEndianBytes, List.length_take_of_le hcount, Nat.add_comm]
  · rw [hdrop, List.append_assoc, List.append_assoc, ← List.append_assoc (payload.take count),
      List.take_append_drop]

/-- The start of a frame is checked as the format says. -/
theorem validateJpegStartOfFrame_iff {payload : Bytes} {lengthOffset : ℕ} {file : Bytes}
    (hdrop : file.drop lengthOffset =
      bigEndianBytes 2 (payload.length + 2) ++ payload ++ after) :
    validateJpegStartOfFrame file lengthOffset (payload.length + 2) = true ↔
      ValidFrame 1 payload := by
  unfold validateJpegStartOfFrame
  split_ifs with hshort
  · refine iff_of_false (fun h => nomatch h) fun hvalid => ?_
    have hlength := hvalid.length
    omega
  · have hread := readExactly_segment hdrop 6 (by omega)
    rw [hread]
    have hwidth := length_bigEndianBytes 2 (payload.length + 2)
    have hheight : readBE (bigEndianBytes 2 (payload.length + 2) ++ payload.take 6) 2 3 =
        bigEndian ((payload.drop 1).take 2) := by
      rw [readBE, show 3 = 2 + 1 by rfl, ← List.drop_drop, List.drop_left' hwidth, List.drop_take,
        List.take_take]
      rfl
    have hwidth' : readBE (bigEndianBytes 2 (payload.length + 2) ++ payload.take 6) 2 5 =
        bigEndian ((payload.drop 3).take 2) := by
      rw [readBE, show 5 = 2 + 3 by rfl, ← List.drop_drop, List.drop_left' hwidth, List.drop_take,
        List.take_take]
      rfl
    have hcomponents : (bigEndianBytes 2 (payload.length + 2) ++ payload.take 6).getD 7 0 =
        payload.getD 5 0 := by
      rw [List.getD_append_right _ _ _ _ (by omega), hwidth]
      simp
    dsimp only
    rw [hheight, hwidth', hcomponents]
    simp only [Bool.and_eq_true, decide_eq_true_eq]
    constructor
    · rintro ⟨⟨⟨hw, hh⟩, hc⟩, hl⟩
      exact ⟨hh, hw, hc, by omega⟩
    · rintro ⟨hh, hw, hc, hl⟩
      exact ⟨⟨⟨hw, hh⟩, hc⟩, by omega⟩

/-- The start of a scan is checked as the format says. -/
theorem validateJpegStartOfScan_iff {payload : Bytes} {lengthOffset : ℕ} {file : Bytes}
    (hdrop : file.drop lengthOffset =
      bigEndianBytes 2 (payload.length + 2) ++ payload ++ after) :
    validateJpegStartOfScan file lengthOffset (payload.length + 2) = true ↔
      ValidScan 1 payload := by
  unfold validateJpegStartOfScan
  split_ifs with hshort
  · refine iff_of_false (fun h => nomatch h) fun hvalid => ?_
    have hlength := hvalid.length
    have hcomponents := hvalid.components
    omega
  · have hread := readExactly_segment hdrop 1 (by omega)
    rw [hread]
    have hwidth := length_bigEndianBytes 2 (payload.length + 2)
    have hcomponents : (bigEndianBytes 2 (payload.length + 2) ++ payload.take 1).getD 2 0 =
        payload.getD 0 0 := by
      rw [List.getD_append_right _ _ _ _ (by omega), hwidth]
      simp
    dsimp only
    rw [hcomponents]
    simp only [Bool.and_eq_true, decide_eq_true_eq]
    constructor
    · rintro ⟨hc, hl⟩
      exact ⟨hc, by omega⟩
    · rintro ⟨hc, hl⟩
      exact ⟨hc, by omega⟩

/-- A marker that stands there is read. -/
theorem readJpegMarker_marker {marker : JpegMarker}
    (hdrop : content.drop offset = marker.encode ++ after) :
    readJpegMarker (content ++ jpegEoi) offset = some (marker.code, offset + marker.fill + 1) := by
  rw [JpegMarker.encode, List.append_assoc, List.cons_append] at hdrop
  exact readJpegMarker_of_drop marker.fill_pos marker.ne_zero marker.ne_fill hdrop

/-- What the loop does where a marker stands: alone, -/
theorem jpegMarker_standalone {marker : JpegMarker} (found : Bool)
    (hdrop : content.drop offset = marker.encode ++ after)
    (halone : isStandaloneJpegMarker marker.code = true) :
    jpegMarker (content ++ jpegEoi) found offset = .ok (marker.encode.length, found) := by
  have hlength : marker.encode.length = marker.fill + 1 := by
    rw [JpegMarker.encode, JpegMarker.segment, if_pos halone, List.length_append,
      List.length_replicate, List.length_singleton]
  unfold jpegMarker
  rw [readJpegMarker_marker hdrop]
  dsimp only
  rw [if_neg marker.ne_eoi, if_pos halone, hlength, show offset + marker.fill + 1 - offset =
    marker.fill + 1 by omega]

/-- or with a segment. -/
theorem jpegMarker_segment {marker : JpegMarker} (found : Bool)
    (hdrop : content.drop offset = marker.encode ++ after)
    (halone : isStandaloneJpegMarker marker.code = false) :
    (content ++ jpegEoi).drop (offset + marker.fill + 1) =
        bigEndianBytes 2 (marker.payload.length + 2) ++ marker.payload ++ (after ++ jpegEoi) ∧
    jpegMarker (content ++ jpegEoi) found offset =
      if isStartOfFrameMarker marker.code ∧ !validateJpegStartOfFrame (content ++ jpegEoi)
          (offset + marker.fill + 1) (marker.payload.length + 2) then .error false
      else if marker.code = jpegSos then
        .error ((found || isStartOfFrameMarker marker.code) &&
          validateJpegStartOfScan (content ++ jpegEoi) (offset + marker.fill + 1)
            (marker.payload.length + 2) && after ≠ [])
      else .ok (marker.encode.length, found || isStartOfFrameMarker marker.code) := by
  have hwidth := length_bigEndianBytes 2 (marker.payload.length + 2)
  have hencode : marker.encode = List.replicate marker.fill 0xff ++ [marker.code] ++
      (bigEndianBytes 2 (marker.payload.length + 2) ++ marker.payload) := by
    rw [JpegMarker.encode, JpegMarker.segment, if_neg (Bool.eq_false_iff.mp halone)]
    simp
  have hlength : marker.encode.length = marker.fill + 1 + (2 + marker.payload.length) := by
    rw [hencode]
    simp only [List.length_append, List.length_replicate, List.length_singleton, hwidth]
  have hsum := congrArg List.length hdrop
  rw [List.length_drop, List.length_append, hlength] at hsum
  have hsegment : (content ++ jpegEoi).drop (offset + marker.fill + 1) =
      bigEndianBytes 2 (marker.payload.length + 2) ++ marker.payload ++ (after ++ jpegEoi) := by
    have hhead : (List.replicate marker.fill (0xff : UInt8) ++ [marker.code]).length =
        marker.fill + 1 := by simp
    rw [List.drop_append_of_le_length (by omega), Nat.add_assoc, ← List.drop_drop, hdrop, hencode,
      List.append_assoc, List.drop_left' hhead]
    simp only [List.append_assoc]
  refine ⟨hsegment, ?_⟩
  have hread : readExactly (content ++ jpegEoi) 2 (offset + marker.fill + 1) =
      some (bigEndianBytes 2 (marker.payload.length + 2)) := by
    have hread := readExactly_segment hsegment 0 (Nat.zero_le _)
    rwa [List.take_zero, List.append_nil] at hread
  have hvalue : readBE (bigEndianBytes 2 (marker.payload.length + 2)) 2 0 =
      marker.payload.length + 2 := by
    rw [readBE, List.drop_zero, List.take_of_length_le hwidth.le,
      bigEndian_bigEndianBytes marker.payload_lt]
  have hend : (content ++ jpegEoi).length - jpegEoi.length = content.length := by
    rw [List.length_append, Nat.add_sub_cancel]
  have hdata : (offset + marker.fill + 1 + (marker.payload.length + 2) < content.length) ↔
      after ≠ [] := by
    rw [← List.length_pos_iff]
    omega
  unfold jpegMarker
  rw [readJpegMarker_marker hdrop]
  dsimp only
  rw [if_neg marker.ne_eoi, halone, if_neg Bool.false_ne_true, hread]
  dsimp only
  rw [hvalue, hend, if_neg (by omega), decide_eq_decide.mpr hdata, hlength,
    show offset + marker.fill + 1 + (marker.payload.length + 2) - offset =
      marker.fill + 1 + (2 + marker.payload.length) by omega]

/-- Where the loop does not refuse, a marker stands. -/
theorem exists_marker {found : Bool}
    (h : jpegMarker (content ++ jpegEoi) found offset ≠ .error false) :
    ∃ (marker : JpegMarker) (after : Bytes), content.drop offset = marker.encode ++ after := by
  unfold jpegMarker at h
  split at h
  · exact absurd rfl h
  rename_i code nextOffset hmarker
  obtain ⟨heoi, h⟩ := ite_ne_left_iff.mp h
  obtain ⟨fill, after, hpos, hdrop, hzero, hfill, rfl⟩ := exists_of_readJpegMarker hmarker heoi
  replace h := h.symm
  by_cases halone : isStandaloneJpegMarker code = true
  · refine ⟨⟨fill, code, [], hpos, hzero, hfill, heoi, by decide, fun _ => rfl⟩, after, ?_⟩
    rw [hdrop, JpegMarker.encode, JpegMarker.segment, if_pos halone]
    simp
  · rw [if_neg halone] at h
    split at h
    · exact absurd rfl h
    rename_i lengthBytes hlengthBytes
    obtain ⟨hbounds, -⟩ := ite_ne_left_iff.mp h
    rw [List.length_append, Nat.add_sub_cancel] at hbounds
    obtain ⟨hwidth, rest, hrest⟩ := readExactly_eq_some.mp hlengthBytes
    have hvalue : readBE lengthBytes 2 0 = bigEndian lengthBytes := by
      rw [readBE, List.drop_zero, List.take_of_length_le hwidth.le]
    have hlt := bigEndian_lt lengthBytes
    rw [hvalue] at hbounds
    rw [hwidth] at hlt
    have hsum := congrArg List.length hdrop
    rw [List.length_drop, List.length_append, List.length_cons, List.length_replicate] at hsum
    -- The segment lies in what follows the code.
    have hafter : after = lengthBytes ++ after.drop 2 := by
      have hhead : (List.replicate fill (0xff : UInt8) ++ [code]).length = fill + 1 := by simp
      have hcode : content.drop offset = List.replicate fill 0xff ++ [code] ++ after := by
        rw [hdrop]
        simp
      rw [List.drop_append_of_le_length (by omega), Nat.add_assoc, ← List.drop_drop, hcode,
        List.drop_left' hhead] at hrest
      have htake := congrArg (List.take 2) hrest
      rw [List.take_append_of_le_length (by omega), List.take_left' hwidth] at htake
      rw [← htake, List.take_append_drop]
    have hpayload : ((after.drop 2).take (bigEndian lengthBytes - 2)).length + 2 =
        bigEndian lengthBytes := by
      rw [List.length_take_of_le]
      · omega
      · rw [List.length_drop]
        omega
    refine ⟨⟨fill, code, (after.drop 2).take (bigEndian lengthBytes - 2), hpos, hzero, hfill, heoi,
      by omega, fun h => absurd h halone⟩, (after.drop 2).drop (bigEndian lengthBytes - 2), ?_⟩
    have hbytes : bigEndianBytes 2 (bigEndian lengthBytes) = lengthBytes := by
      rw [← hwidth]
      exact bigEndianBytes_bigEndian lengthBytes
    rw [JpegMarker.encode, JpegMarker.segment, if_neg halone]
    dsimp only
    rw [hpayload, hbytes, hdrop, List.append_assoc, List.cons_append, List.append_assoc,
      List.take_append_drop, ← hafter]

/-- Codes that stand alone open neither a frame nor a scan. -/
theorem standalone_codes {code : UInt8} (h : isStandaloneJpegMarker code = true) :
    isStartOfFrameMarker code = false ∧ code ≠ jpegSos := by
  have hall : ∀ n < 256, isStandaloneJpegMarker (UInt8.ofNat n) = true →
      isStartOfFrameMarker (UInt8.ofNat n) = false ∧ UInt8.ofNat n ≠ jpegSos := by
    decide +kernel
  have hcode := hall code.toNat code.toNat_lt
  rw [UInt8.ofNat_toNat] at hcode
  exact hcode h

/-- The start of a scan is no start of a frame. -/
theorem isStartOfFrameMarker_sos : isStartOfFrameMarker jpegSos = false := by decide

/-- The start of a scan has a length. -/
theorem isStandaloneJpegMarker_sos : isStandaloneJpegMarker jpegSos = false := by decide

/-- The loop goes on behind a marker of the header whose frame, if it opens one, is valid. -/
theorem jpegMarker_eq_ok {found found' : Bool} {length : ℕ} :
    jpegMarker (content ++ jpegEoi) found offset = .ok (length, found') ↔
      ∃ (marker : JpegMarker) (after : Bytes), content.drop offset = marker.encode ++ after ∧
        marker.encode.length = length ∧ (marker.code ≠ jpegSos ∧
          (isStartOfFrameMarker marker.code = true → ValidFrame 1 marker.payload)) ∧
        found' = (found || isStartOfFrameMarker marker.code) := by
  constructor
  · intro h
    obtain ⟨marker, after, hdrop⟩ :=
      exists_marker (fun hfalse => nomatch h.symm.trans hfalse : jpegMarker _ _ _ ≠ .error false)
    refine ⟨marker, after, hdrop, ?_⟩
    cases halone : isStandaloneJpegMarker marker.code with
    | true =>
        rw [jpegMarker_standalone found hdrop halone] at h
        cases h
        obtain ⟨hframe, hsos⟩ := standalone_codes halone
        rw [hframe]
        exact ⟨rfl, ⟨hsos, fun h => nomatch h⟩, (Bool.or_false _).symm⟩
    | false =>
        obtain ⟨hsegment, heq⟩ := jpegMarker_segment found hdrop halone
        rw [heq] at h
        split_ifs at h with hframe hsos
        cases h
        refine ⟨rfl, ⟨hsos, fun hsof => (validateJpegStartOfFrame_iff hsegment).mp ?_⟩, rfl⟩
        by_contra hnot
        exact hframe ⟨hsof, by simpa using hnot⟩
  · rintro ⟨marker, after, hdrop, rfl, ⟨hsos, hframe⟩, rfl⟩
    cases halone : isStandaloneJpegMarker marker.code with
    | true =>
        rw [jpegMarker_standalone found hdrop halone, (standalone_codes halone).1, Bool.or_false]
    | false =>
        obtain ⟨hsegment, heq⟩ := jpegMarker_segment found hdrop halone
        rw [heq, if_neg, if_neg hsos]
        rintro ⟨hsof, hnot⟩
        rw [(validateJpegStartOfFrame_iff hsegment).mpr (hframe hsof)] at hnot
        cases hnot

/-- The loop accepts at a scan that is valid, behind a frame and before some data. -/
theorem jpegMarker_eq_true {found : Bool} :
    jpegMarker (content ++ jpegEoi) found offset = .error true ↔
      ∃ (marker : JpegMarker) (after : Bytes), content.drop offset = marker.encode ++ after ∧
        marker.code = jpegSos ∧ found = true ∧ ValidScan 1 marker.payload ∧ after ≠ [] := by
  constructor
  · intro h
    obtain ⟨marker, after, hdrop⟩ :=
      exists_marker (fun hfalse => nomatch h.symm.trans hfalse : jpegMarker _ _ _ ≠ .error false)
    refine ⟨marker, after, hdrop, ?_⟩
    cases halone : isStandaloneJpegMarker marker.code with
    | true =>
        rw [jpegMarker_standalone found hdrop halone] at h
        cases h
    | false =>
        obtain ⟨hsegment, heq⟩ := jpegMarker_segment found hdrop halone
        rw [heq] at h
        split_ifs at h with hframe hsos
        · cases h
        · have hverdict := Except.error.inj h
          rw [hsos, isStartOfFrameMarker_sos] at hverdict
          simp only [Bool.or_false, Bool.and_eq_true, decide_eq_true_eq] at hverdict
          obtain ⟨⟨hfound, hscan⟩, hdata⟩ := hverdict
          exact ⟨hsos, hfound, (validateJpegStartOfScan_iff hsegment).mp hscan, hdata⟩
  · rintro ⟨marker, after, hdrop, hsos, rfl, hscan, hdata⟩
    have halone : isStandaloneJpegMarker marker.code = false := by
      rw [hsos]
      exact isStandaloneJpegMarker_sos
    obtain ⟨hsegment, heq⟩ := jpegMarker_segment true hdrop halone
    rw [heq, hsos, isStartOfFrameMarker_sos, if_neg (fun h => nomatch h.1), if_pos rfl,
      (validateJpegStartOfScan_iff hsegment).mpr hscan, decide_eq_true hdata]
    rfl

/-- A round of the walk goes over a marker segment. -/
theorem scans_jpegMarker (content : Bytes) :
    Scans (jpegMarker (content ++ jpegEoi)) content fun found item found' =>
      ∃ marker : JpegMarker, item = marker.encode ∧ (marker.code ≠ jpegSos ∧
        (isStartOfFrameMarker marker.code = true → ValidFrame 1 marker.payload)) ∧
        found' = (found || isStartOfFrameMarker marker.code) where
  sound {s offset length s'} h := by
    obtain ⟨marker, after, hdrop, hlength, hlegal, hfound⟩ := jpegMarker_eq_ok.mp h
    exact ⟨_, after, hdrop, hlength, marker, rfl, hlegal, hfound⟩
  complete {s offset item after s'} hdrop hitem := by
    obtain ⟨marker, rfl, hlegal, hfound⟩ := hitem
    exact jpegMarker_eq_ok.mpr ⟨marker, after, hdrop, rfl, hlegal, hfound⟩
  ne_nil {s item s'} hitem := by
    obtain ⟨marker, rfl, -⟩ := hitem
    exact marker.encode_ne_nil

/-- There was a frame if a marker opened one. -/
theorem foldl_found_iff {markers : List JpegMarker} {found : Bool} :
    markers.foldl (fun found marker => found || isStartOfFrameMarker marker.code) found = true ↔
      found = true ∨ ∃ marker ∈ markers, isStartOfFrameMarker marker.code = true := by
  induction markers generalizing found with
  | nil => simp
  | cons marker markers ih =>
      rw [List.foldl_cons, ih, Bool.or_eq_true, List.exists_mem_cons_iff, or_assoc]

/-- The loop accepts a header with a frame, and a scan with some data. -/
theorem scan_jpegMarker_iff {budget : ℕ} (hoffset : offset ≤ content.length) :
    scan (jpegMarker (content ++ jpegEoi)) content.length budget false offset = .error true ↔
      ∃ (markers : List JpegMarker) (sos : JpegMarker) (scanData : Bytes),
        content.drop offset = (markers.map JpegMarker.encode).flatten ++ sos.encode ++ scanData ∧
        (∀ marker ∈ markers, marker.code ≠ jpegSos ∧
          (isStartOfFrameMarker marker.code = true → ValidFrame 1 marker.payload)) ∧
        (∃ marker ∈ markers, isStartOfFrameMarker marker.code = true) ∧ sos.code = jpegSos ∧
        ValidScan 1 sos.payload ∧ scanData ≠ [] ∧ markers.length < budget := by
  have hbehind : ∀ items : List Bytes, ∀ rest : Bytes, content.drop offset = items.flatten ++ rest →
      content.drop (offset + items.flatten.length) = rest := by
    intro items rest hflatten
    rw [← List.drop_drop, hflatten, List.drop_left]
  rw [scan_eq_error_true_iff (scans_jpegMarker content) hoffset]
  constructor
  · rintro ⟨items, found, rest, hflatten, -, hchain, hcount, htrue⟩
    obtain ⟨markers, rfl, hmarkers⟩ := chain_map.mp hchain
    obtain ⟨rfl, hall⟩ := chain_admits_iff.mp hmarkers
    obtain ⟨sos, scanData, hdrop, hsos, hfound, hscan, hdata⟩ := jpegMarker_eq_true.mp htrue
    rw [hbehind _ _ hflatten] at hdrop
    rw [List.length_map] at hcount
    refine ⟨markers, sos, scanData, ?_, fun marker hmem => ?_, ?_, hsos, hscan, hdata, hcount⟩
    · rw [hflatten, hdrop, List.append_assoc]
    · obtain ⟨before, after, heq⟩ := List.append_of_mem hmem
      exact hall before marker after heq
    · exact (foldl_found_iff.mp hfound).resolve_left Bool.false_ne_true
  · rintro ⟨markers, sos, scanData, hsplit, hall, hframe, hsos, hscan, hdata, hcount⟩
    rw [List.append_assoc] at hsplit
    refine ⟨markers.map JpegMarker.encode, _, _, hsplit, ?_, chain_map.mpr ⟨markers, rfl,
      chain_admits_iff.mpr ⟨rfl, fun before marker after heq => ?_⟩⟩, ?_, ?_⟩
    · exact fun hnil => sos.encode_ne_nil (List.append_eq_nil_iff.mp hnil).1
    · exact hall marker (heq ▸ List.mem_append_right _ List.mem_cons_self)
    · rwa [List.length_map]
    · exact jpegMarker_eq_true.mpr ⟨sos, scanData, hbehind _ _ hsplit, hsos,
        foldl_found_iff.mpr (.inr hframe), hscan, hdata⟩

end

/-- A file that ends as an image does is what stands before its last two bytes. -/
theorem exists_content {file : Bytes}
    (h : readExactly file jpegEoi.length (file.length - jpegEoi.length) = some jpegEoi) :
    ∃ content, file = content ++ jpegEoi := by
  obtain ⟨-, rest, hdrop⟩ := readExactly_eq_some.mp h
  have hsum := congrArg List.length hdrop
  rw [List.length_drop, List.length_append, show jpegEoi.length = 2 by rfl] at hsum
  obtain rfl := List.eq_nil_of_length_eq_zero (show rest.length = 0 by omega)
  refine ⟨file.take (file.length - jpegEoi.length), ?_⟩
  conv_lhs => rw [← List.take_append_drop (file.length - jpegEoi.length) file, hdrop,
    List.append_nil]

/-- What the function decides, between the two markers at the ends. -/
theorem matchesJpegStructure_iff {content : Bytes} :
    matchesJpegStructure (jpegSoi ++ content ++ jpegEoi) = true ↔
      12 ≤ (jpegSoi ++ content ++ jpegEoi).length ∧
      scan (jpegMarker (jpegSoi ++ content ++ jpegEoi)) (jpegSoi ++ content).length
        jpegMaxHeaderMarkers false jpegSoi.length = .error true := by
  have hend : (jpegSoi ++ content ++ jpegEoi).length - jpegEoi.length =
      (jpegSoi ++ content).length := by
    rw [List.length_append, Nat.add_sub_cancel]
  have hfirst : readExactly (jpegSoi ++ content ++ jpegEoi) jpegSoi.length 0 = some jpegSoi :=
    readExactly_of_drop (by rw [List.drop_zero, List.append_assoc])
  have hlast : readExactly (jpegSoi ++ content ++ jpegEoi) jpegEoi.length
      (jpegSoi ++ content).length = some jpegEoi :=
    readExactly_of_drop (by rw [List.drop_left, List.append_nil])
  unfold matchesJpegStructure
  rw [hend]
  split_ifs with hshort hends
  · exact iff_of_false (fun h => nomatch h) fun h => by omega
  · rcases hends with hne | hne
    · exact absurd hfirst hne
    · exact absurd hlast hne
  · rw [and_iff_right (Nat.le_of_not_lt hshort)]
    cases hscan : scan (jpegMarker (jpegSoi ++ content ++ jpegEoi)) (jpegSoi ++ content).length
        jpegMaxHeaderMarkers false jpegSoi.length with
    | ok final => exact iff_of_false (fun h => nomatch h) (fun h => nomatch h)
    | error result => cases result <;> simp

/-- What is accepted stands between the two markers at the ends. -/
theorem exists_between {file : Bytes} (h : matchesJpegStructure file = true) :
    ∃ content, file = jpegSoi ++ content ++ jpegEoi := by
  unfold matchesJpegStructure at h
  split_ifs at h with hshort hends
  obtain ⟨hfirst, hlast⟩ := not_or.mp hends
  obtain ⟨content, rfl⟩ := exists_content (not_not.mp hlast)
  obtain ⟨-, rest, hdrop⟩ := readExactly_eq_some.mp (not_not.mp hfirst)
  rw [List.length_append] at hshort
  have hsoi : content.take jpegSoi.length = jpegSoi := by
    have htake := congrArg (List.take jpegSoi.length) hdrop
    have hlong : jpegSoi.length ≤ content.length := by
      rw [show jpegEoi.length = 2 by rfl] at hshort
      rw [show jpegSoi.length = 2 by rfl]
      omega
    rwa [List.drop_zero, List.take_left, List.take_append_of_le_length hlong] at htake
  refine ⟨content.drop jpegSoi.length, ?_⟩
  conv_lhs => rw [← List.take_append_drop jpegSoi.length content, hsoi]

/-- A marker has at least one byte. -/
theorem lt_of_readJpegMarker {file : Bytes} {offset nextOffset : ℕ} {code : UInt8}
    (h : readJpegMarker file offset = some (code, nextOffset)) : offset < nextOffset := by
  unfold readJpegMarker at h
  split at h
  · split_ifs at h
    obtain ⟨fill, -, -, -, -, rfl⟩ := exists_fill h
    omega
  · cases h

/-- The loop makes progress. -/
theorem jpegMarker_advances {file : Bytes} {found found' : Bool} {offset length : ℕ}
    (h : jpegMarker file found offset = .ok (length, found')) : 1 ≤ length := by
  unfold jpegMarker at h
  split at h
  · cases h
  rename_i code nextOffset hmarker
  have hlt := lt_of_readJpegMarker hmarker
  split at h
  · cases h
  · split at h
    · cases h
      omega
    · split at h
      · cases h
      · dsimp only at h
        split_ifs at h
        cases h
        omega

/-- **A JPEG file** is accepted iff it is the encoding of an image with components in its frames and
its scan. What the walk goes behind, or accepts at, is a marker before the last two bytes, and it
never looks at one offset twice. -/
theorem jpeg_structure (file : Bytes) :
    (matchesJpegStructure file = true ↔
      12 ≤ file.length ∧ ∃ image : JpegImage 1, image.encode = file) ∧
    (∀ found offset, readExactly file 2 (file.length - 2) = some jpegEoi →
      jpegMarker file found offset ≠ .error false →
        ∃ marker : JpegMarker, readExactly file marker.encode.length offset = some marker.encode ∧
          offset + marker.encode.length ≤ file.length - 2 ∧
          ∀ length found', jpegMarker file found offset = .ok (length, found') →
            length = marker.encode.length) ∧
    (visited (jpegMarker file) (file.length - 2) jpegMaxHeaderMarkers false 2).Pairwise (· < ·) := by
  refine ⟨⟨fun h => ?_, ?_⟩, fun found offset hend hnot => ?_,
    (pairwise_visited jpegMarker_advances).1⟩
  · obtain ⟨content, rfl⟩ := exists_between h
    obtain ⟨hlong, hscan⟩ := matchesJpegStructure_iff.mp h
    obtain ⟨markers, sos, scanData, hsplit, hall, hframe, hsos, hvalid, hdata, hcount⟩ :=
      (scan_jpegMarker_iff (by simp)).mp hscan
    refine ⟨hlong, ⟨markers, sos, scanData, fun marker hmem => (hall marker hmem).1, hsos,
      fun marker hmem => (hall marker hmem).2, hframe, hvalid, hdata, hcount⟩, ?_⟩
    rw [List.drop_left] at hsplit
    rw [JpegImage.encode, hsplit]
    simp only [List.append_assoc]
  · rintro ⟨hlong, image, rfl⟩
    have hencode : image.encode = jpegSoi ++ ((image.markers.map JpegMarker.encode).flatten ++
        image.sos.encode ++ image.scanData) ++ jpegEoi := by
      rw [JpegImage.encode]
      simp only [List.append_assoc]
    rw [hencode] at hlong ⊢
    refine matchesJpegStructure_iff.mpr ⟨hlong, (scan_jpegMarker_iff (by simp)).mpr
      ⟨image.markers, image.sos, image.scanData, List.drop_left .., fun marker hmem => ?_,
        image.frame, image.sos_code, image.scan, image.scanData_ne, image.count⟩⟩
    exact ⟨image.ne_sos marker hmem, image.frames marker hmem⟩
  · obtain ⟨content, rfl⟩ := exists_content hend
    have hmarker : ∃ (marker : JpegMarker) (after : Bytes), content.drop offset =
        marker.encode ++ after ∧ ∀ length found',
        jpegMarker (content ++ jpegEoi) found offset = .ok (length, found') →
          length = marker.encode.length := by
      cases hstep : jpegMarker (content ++ jpegEoi) found offset with
      | ok next =>
          obtain ⟨marker, after, hdrop, hlength, -⟩ := jpegMarker_eq_ok.mp hstep
          refine ⟨marker, after, hdrop, fun length found' h => ?_⟩
          rw [hlength, ← (Prod.mk.inj (Except.ok.inj h)).1]
      | error result =>
          obtain ⟨marker, after, hdrop⟩ := exists_marker hnot
          exact ⟨marker, after, hdrop, fun length found' h => nomatch h⟩
    obtain ⟨marker, after, hdrop, hlength⟩ := hmarker
    have hsum := congrArg List.length hdrop
    have hpos := List.length_pos_iff.mpr marker.encode_ne_nil
    rw [List.length_drop, List.length_append] at hsum
    have hwhole : (content ++ jpegEoi).drop offset = marker.encode ++ (after ++ jpegEoi) := by
      rw [List.drop_append_of_le_length (by omega), hdrop, List.append_assoc]
    refine ⟨marker, readExactly_of_drop hwhole, ?_, hlength⟩
    rw [List.length_append, show jpegEoi.length = 2 by rfl]
    omega

/-- A frame of no components, -/
def frameWithoutComponents : JpegMarker where
  fill := 1
  code := 0xc0
  payload := [8, 0, 1, 0, 1, 0]
  fill_pos := Nat.le_refl 1
  ne_zero := by decide
  ne_fill := by decide
  ne_eoi := by decide
  payload_lt := by decide
  standalone := by decide

/-- and a scan of none. -/
def scanWithoutComponents : JpegMarker where
  fill := 1
  code := jpegSos
  payload := [0, 0, 63, 0]
  fill_pos := Nat.le_refl 1
  ne_zero := by decide
  ne_fill := by decide
  ne_eoi := by decide
  payload_lt := by decide
  standalone := by decide

/-- An image whose frame has no components. -/
def imageWithoutComponents : JpegImage 0 where
  markers := [frameWithoutComponents]
  sos := scanWithoutComponents
  scanData := [0]
  ne_sos := by
    intro marker hmem
    rw [List.mem_singleton.mp hmem]
    decide
  sos_code := rfl
  frames := by
    intro marker hmem _
    rw [List.mem_singleton.mp hmem]
    exact ⟨by decide, by decide, Nat.zero_le _, rfl⟩
  frame := ⟨_, List.mem_singleton_self _, by decide⟩
  scan := ⟨Nat.zero_le _, rfl⟩
  scanData_ne := List.cons_ne_nil _ _
  count := by decide

/-- **Components are needed**: an image without them is refused. -/
theorem jpeg_structure_components :
    ¬ ∀ file, matchesJpegStructure file = true ↔
      12 ≤ file.length ∧ ∃ image : JpegImage 0, image.encode = file := by
  intro h
  have haccepted := (h imageWithoutComponents.encode).mpr ⟨by decide, imageWithoutComponents, rfl⟩
  exact absurd haccepted (by decide)

end ApiWhatsApp
