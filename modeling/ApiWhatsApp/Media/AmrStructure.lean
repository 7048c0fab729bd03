import ApiWhatsApp.Library.Bytes

/-!
# AMR storage files

`matchesAmrStructure` of `media/media-audio-structure.ts`: the magic of one of two bands, and then
storage frames up to the end of the file.

* `AmrFrame` is a frame of a band: its type, its quality bit and a payload whose unused bits are zero.
  `AmrAudio` is a list of frames of one band.
* **`amr_structure`** — the files that are accepted are those that some `AmrAudio` is encoded to, and
  no two of them are encoded alike.
-/

namespace ApiWhatsApp

open Library

/-! ## The validator -/

/-- Source: `AMR_NB_FRAME_BITS`. -/
def amrNbFrameBits : List ℕ := [95, 103, 118, 134, 148, 159, 204, 244, 39]

/-- Source: `AMR_WB_FRAME_BITS`. -/
def amrWbFrameBits : List ℕ := [132, 177, 253, 285, 317, 365, 397, 461, 477, 40]

/-- Source: `AMR_MAX_FRAMES`. -/
def amrMaxFrames : ℕ := 100000

/-- Source: `amrFrameBits`. -/
def amrFrameBits (wideband : Bool) (frameType : ℕ) : Option ℕ :=
  if wideband then
    if frameType ≤ 9 then amrWbFrameBits[frameType]?
    else if frameType = 14 ∨ frameType = 15 then some 0 else none
  else if frameType ≤ 8 then amrNbFrameBits[frameType]?
  else if frameType = 15 then some 0 else none

/-- The mark of the file. -/
def amrMagic (wideband : Bool) : Bytes := asciiBytes (if wideband then "#!AMR-WB\n" else "#!AMR\n")

/-- One round of the loop in `matchesAmrStructure`: the bytes of the frame. -/
def amrFrame (wideband : Bool) (file : Bytes) (_ : Unit) (offset : ℕ) : Except Bool (ℕ × Unit) :=
  match readExactly file 1 offset with
  | some [header] =>
      if header.toNat &&& 0x83 ≠ 0 then .error false
      else
        match amrFrameBits wideband ((header.toNat >>> 3) &&& 0x0f) with
        | none => .error false
        | some speechBits =>
            let payloadBytes := (speechBits + 7) / 8
            if offset + 1 + payloadBytes > file.length then .error false
            else if payloadBytes > 0 then
              match readExactly file 1 (offset + payloadBytes) with
              | some [lastPayloadByte] =>
                  let paddingBits := payloadBytes * 8 - speechBits
                  if paddingBits > 0 ∧ lastPayloadByte.toNat &&& (2 ^ paddingBits - 1) ≠ 0 then
                    .error false
                  else .ok (1 + payloadBytes, ())
              | _ => .error false
            else .ok (1 + payloadBytes, ())
  | _ => .error false

/-- Source: `matchesAmrStructure`. -/
def matchesAmrStructure (file : Bytes) : Bool :=
  if file.length ≤ (amrMagic false).length then false
  else
    match readExactly file (min (amrMagic true).length file.length) 0 with
    | none => false
    | some start =>
        let wideband := start.length ≥ (amrMagic true).length &&
          start.take (amrMagic true).length = amrMagic true
        let narrowband := start.take (amrMagic false).length = amrMagic false
        if !wideband && !narrowband then false
        else scanAll (amrFrame wideband file) file.length amrMaxFrames () (amrMagic wideband).length

/-! ## Frames -/

/-- The octets that hold some bits. -/
def octets (bits : ℕ) : ℕ := (bits + 7) / 8

/-- A storage frame of a band. -/
@[ext]
structure AmrFrame (wideband : Bool) where
  frameType : ℕ
  quality : Bool
  speechBits : ℕ
  payload : Bytes
  defined : amrFrameBits wideband frameType = some speechBits
  length : payload.length = octets speechBits
  /-- The bits behind the speech bits are zero. -/
  unused : ∀ last ∈ payload.getLast?, last.toNat % 2 ^ (octets speechBits * 8 - speechBits) = 0

namespace AmrFrame

variable {wideband : Bool}

/-- `0 | type | quality | 0 0`. -/
def header (frame : AmrFrame wideband) : UInt8 :=
  UInt8.ofNat (frame.frameType * 8 + if frame.quality then 4 else 0)

/-- The bytes of a frame. -/
def encode (frame : AmrFrame wideband) : Bytes := frame.header :: frame.payload

/-- A frame type fits its field. -/
theorem frameType_lt (frame : AmrFrame wideband) : frame.frameType < 16 := by
  have hdefined := frame.defined
  unfold amrFrameBits at hdefined
  split_ifs at hdefined <;> omega

/-- The fields of the header are read back. -/
theorem header_spec : ∀ frameType < 16, ∀ quality : Bool,
    (UInt8.ofNat (frameType * 8 + if quality then 4 else 0)).toNat &&& 0x83 = 0 ∧
    ((UInt8.ofNat (frameType * 8 + if quality then 4 else 0)).toNat >>> 3) &&& 0x0f = frameType ∧
    decide ((UInt8.ofNat (frameType * 8 + if quality then 4 else 0)).toNat &&& 4 = 4) = quality := by
  decide

/-- The fields of a header. -/
theorem header_bits (frame : AmrFrame wideband) :
    frame.header.toNat &&& 0x83 = 0 ∧ (frame.header.toNat >>> 3) &&& 0x0f = frame.frameType ∧
      decide (frame.header.toNat &&& 4 = 4) = frame.quality :=
  header_spec _ frame.frameType_lt frame.quality

/-- A header is made of its fields. -/
theorem exists_header : ∀ n < 256, n &&& 0x83 = 0 →
    n = ((n >>> 3) &&& 0x0f) * 8 + if decide (n &&& 4 = 4) then 4 else 0 := by
  decide +kernel

/-- A frame has bytes. -/
theorem encode_ne_nil (frame : AmrFrame wideband) : frame.encode ≠ [] := List.cons_ne_nil _ _

/-- Different frames have different bytes. -/
theorem encode_injective : Function.Injective (encode : AmrFrame wideband → Bytes) := by
  intro frame frame' h
  obtain ⟨hheader, hpayload⟩ := List.cons.inj h
  obtain ⟨-, htype, hquality⟩ := frame.header_bits
  obtain ⟨-, htype', hquality'⟩ := frame'.header_bits
  rw [hheader] at htype hquality
  have hsame : frame.frameType = frame'.frameType := htype.symm.trans htype'
  have hdefined := frame.defined
  rw [hsame, frame'.defined] at hdefined
  exact AmrFrame.ext hsame (hquality.symm.trans hquality') (Option.some.inj hdefined).symm hpayload

end AmrFrame

/-- Frames of one band. -/
structure AmrAudio where
  wideband : Bool
  frames : List (AmrFrame wideband)
  pos : 1 ≤ frames.length
  lt : frames.length < amrMaxFrames

/-- The bytes of the file. -/
def AmrAudio.encode (audio : AmrAudio) : Bytes :=
  amrMagic audio.wideband ++ (audio.frames.map AmrFrame.encode).flatten

/-! ## Reading frames -/

/-- The last byte of a payload is where the validator looks for it. -/
theorem readExactly_getLast {file payload after : Bytes} {header last : UInt8} {offset : ℕ}
    (hdrop : file.drop offset = header :: payload ++ after) (hlast : payload.getLast? = some last) :
    readExactly file 1 (offset + payload.length) = some [last] := by
  obtain ⟨init, rfl⟩ : ∃ init, payload = init ++ [last] :=
    ⟨payload.dropLast, (List.dropLast_append_getLast? last hlast).symm⟩
  refine readExactly_byte.mpr ⟨after, ?_⟩
  rw [← List.drop_drop, hdrop, List.length_append, List.length_singleton]
  simp

/-- A header byte and a payload as the validator asks for them are those of a frame. -/
theorem exists_amrFrame {wideband : Bool} {header : UInt8} {speechBits : ℕ} {payload : Bytes}
    (hpadding : header.toNat &&& 0x83 = 0)
    (hbits : amrFrameBits wideband ((header.toNat >>> 3) &&& 0x0f) = some speechBits)
    (hlength : payload.length = octets speechBits)
    (hunused : ∀ last ∈ payload.getLast?,
      last.toNat % 2 ^ (octets speechBits * 8 - speechBits) = 0) :
    ∃ frame : AmrFrame wideband, header :: payload = frame.encode := by
  refine ⟨⟨_, decide (header.toNat &&& 4 = 4), speechBits, payload, hbits, hlength, hunused⟩, ?_⟩
  rw [AmrFrame.encode, AmrFrame.header,
    ← AmrFrame.exists_header header.toNat header.toNat_lt hpadding, UInt8.ofNat_toNat]

/-- A round of the walk goes over a frame. -/
theorem scans_amrFrame (wideband : Bool) (file : Bytes) :
    Scans (amrFrame wideband file) file
      fun _ item _ => ∃ frame : AmrFrame wideband, item = frame.encode where
  sound {s offset length s'} h := by
    unfold amrFrame at h
    split at h
    swap
    · cases h
    rename_i header hheader
    obtain ⟨after, hdrop⟩ := readExactly_byte.mp hheader
    split_ifs at h with hpadding
    split at h
    · cases h
    rename_i speechBits hbits
    dsimp only at h
    split_ifs at h with hend hpayload
    · split at h
      swap
      · cases h
      rename_i last hlast
      split_ifs at h with hunused
      cases h
      -- The payload is what follows the header, and ends with the byte that was read.
      have hlength : (after.take (octets speechBits)).length = octets speechBits := by
        have hsum := congrArg List.length hdrop
        rw [List.length_drop, List.length_cons] at hsum
        rw [List.length_take_of_le]
        unfold octets
        omega
      have hsplit : file.drop offset =
          header :: after.take (octets speechBits) ++ after.drop (octets speechBits) := by
        rw [hdrop, List.cons_append, List.take_append_drop]
      obtain ⟨frame, hframe⟩ := exists_amrFrame (not_not.mp hpadding) hbits hlength (by
        intro last' hlast'
        have hread := readExactly_getLast hsplit hlast'
        rw [hlength, octets, hlast] at hread
        cases hread
        rw [octets]
        by_cases hpos : (speechBits + 7) / 8 * 8 - speechBits > 0
        · rw [← and_two_pow_sub_one]
          exact not_not.mp fun hne => hunused ⟨hpos, hne⟩
        · rw [Nat.le_zero.mp (Nat.not_lt.mp hpos), Nat.pow_zero, Nat.mod_one])
      refine ⟨_, _, hsplit, ?_, frame, hframe⟩
      rw [List.length_cons, hlength, octets, Nat.add_comm]
    · cases h
      have hzero : (speechBits + 7) / 8 = 0 := Nat.le_zero.mp (Nat.not_lt.mp hpayload)
      obtain ⟨frame, hframe⟩ : ∃ frame : AmrFrame wideband, [header] = frame.encode :=
        exists_amrFrame (not_not.mp hpadding) hbits hzero.symm (by rintro last ⟨⟩)
      exact ⟨[header], after, hdrop, by rw [hzero]; rfl, frame, hframe⟩
  complete {s offset item after s'} hdrop hitem := by
    obtain ⟨frame, rfl⟩ := hitem
    obtain ⟨hpadding, htype, -⟩ := frame.header_bits
    have hheader : readExactly file 1 offset = some [frame.header] :=
      readExactly_byte.mpr ⟨frame.payload ++ after, hdrop⟩
    have hlength := frame.length
    rw [octets] at hlength
    have hend : ¬ offset + 1 + (frame.speechBits + 7) / 8 > file.length := by
      have hsum := congrArg List.length hdrop
      rw [AmrFrame.encode, List.length_drop, List.length_append, List.length_cons] at hsum
      omega
    unfold amrFrame
    rw [hheader]
    dsimp only
    rw [if_neg (not_not.mpr hpadding), htype, frame.defined]
    dsimp only
    rw [if_neg hend, AmrFrame.encode, List.length_cons, hlength, Nat.add_comm 1]
    split_ifs with hpayload
    · obtain ⟨last, hlast⟩ : ∃ last, frame.payload.getLast? = some last := by
        rw [← hlength] at hpayload
        exact ⟨_, List.getLast?_eq_some_getLast (List.ne_nil_of_length_pos hpayload)⟩
      have hread := readExactly_getLast hdrop hlast
      rw [hlength] at hread
      have hunused := frame.unused last hlast
      rw [octets] at hunused
      rw [hread]
      dsimp only
      rw [if_neg]
      rintro ⟨-, hne⟩
      rw [and_two_pow_sub_one] at hne
      exact hne hunused
    · rfl
  ne_nil {s item s'} hitem := by
    obtain ⟨frame, rfl⟩ := hitem
    exact frame.encode_ne_nil

/-! ## Whole files -/

/-- No round ends the walk with a success. -/
theorem amrFrame_ne_error_true (wideband : Bool) (file : Bytes) (s : Unit) (offset : ℕ) :
    amrFrame wideband file s offset ≠ .error true := by
  unfold amrFrame
  dsimp only
  repeat' split
  all_goals rintro ⟨⟩

/-- The loop accepts a list of frames. -/
theorem scanAll_amrFrame_iff {wideband : Bool} {file : Bytes} {offset : ℕ}
    (hoffset : offset ≤ file.length) :
    scanAll (amrFrame wideband file) file.length amrMaxFrames () offset = true ↔
      ∃ frames : List (AmrFrame wideband),
        file.drop offset = (frames.map AmrFrame.encode).flatten ∧
        1 ≤ frames.length ∧ frames.length < amrMaxFrames :=
  scanAll_encode_iff (scans_amrFrame wideband file) (amrFrame_ne_error_true wideband file) hoffset

/-- A file has the magic of one band. -/
theorem amrMagic_unique {wideband wideband' : Bool} {file : Bytes}
    (h : amrMagic wideband <+: file) (h' : amrMagic wideband' <+: file) : wideband = wideband' := by
  have hboth : ∀ {file : Bytes}, amrMagic true <+: file → ¬ amrMagic false <+: file := by
    intro file htrue hfalse
    have hprefix := List.prefix_of_prefix_length_le hfalse htrue (by decide)
    exact absurd hprefix (by decide)
  cases wideband <;> cases wideband'
  · rfl
  · exact absurd h (hboth h')
  · exact absurd h' (hboth h)
  · rfl

/-- What the validator makes of the magic. -/
theorem matchesAmrStructure_eq (file : Bytes) :
    matchesAmrStructure file = true ↔ ∃ wideband, amrMagic wideband <+: file ∧
      (amrMagic false).length < file.length ∧
      scanAll (amrFrame wideband file) file.length amrMaxFrames ()
        (amrMagic wideband).length = true := by
  unfold matchesAmrStructure
  split_ifs with hshort
  · refine iff_of_false (fun h => nomatch h) ?_
    rintro ⟨wideband, -, hlength, -⟩
    exact absurd hlength (Nat.not_lt.mpr hshort)
  · have hread : readExactly file (min (amrMagic true).length file.length) 0 =
        some (file.take (amrMagic true).length) := by
      rw [readExactly, List.drop_zero, takeExactly_of_le (Nat.min_le_right _ _),
        ← List.take_eq_take_min]
    have hwide : (file.take (amrMagic true).length).length ≥ (amrMagic true).length ∧
        (file.take (amrMagic true).length).take (amrMagic true).length = amrMagic true ↔
        amrMagic true <+: file := by
      rw [List.take_take, Nat.min_self, List.prefix_iff_eq_take, eq_comm]
      exact ⟨And.right, fun h => ⟨Nat.le_of_eq (congrArg List.length h), h⟩⟩
    have hnarrow : (file.take (amrMagic true).length).take (amrMagic false).length =
        amrMagic false ↔ amrMagic false <+: file := by
      rw [List.take_take, List.prefix_iff_eq_take, eq_comm]
      rfl
    have hboth : amrMagic true <+: file → ¬ amrMagic false <+: file :=
      fun htrue hfalse => nomatch amrMagic_unique htrue hfalse
    rw [hread]
    dsimp only
    rw [← Bool.decide_and, decide_eq_decide.mpr hwide, decide_eq_decide.mpr hnarrow]
    by_cases htrue : amrMagic true <+: file
    · rw [decide_eq_true htrue]
      constructor
      · exact fun h => ⟨true, htrue, Nat.lt_of_not_le hshort, h⟩
      · rintro ⟨wideband, hmagic, -, h⟩
        cases wideband with
        | true => exact h
        | false => exact absurd hmagic (hboth htrue)
    · rw [decide_eq_false htrue]
      by_cases hfalse : amrMagic false <+: file
      · rw [decide_eq_true hfalse]
        constructor
        · exact fun h => ⟨false, hfalse, Nat.lt_of_not_le hshort, h⟩
        · rintro ⟨wideband, hmagic, -, h⟩
          cases wideband with
          | true => exact absurd hmagic htrue
          | false => exact h
      · rw [decide_eq_false hfalse]
        refine iff_of_false (fun h => nomatch h) ?_
        rintro ⟨wideband, hmagic, -⟩
        cases wideband with
        | true => exact htrue hmagic
        | false => exact hfalse hmagic

/-- **The files that are accepted are the encodings of frame lists**, and each of them is the encoding
of one band and one list only. -/
theorem amr_structure :
    (∀ file, matchesAmrStructure file = true ↔ ∃ audio : AmrAudio, audio.encode = file) ∧
    Function.Injective AmrAudio.encode := by
  constructor
  · intro file
    rw [matchesAmrStructure_eq]
    constructor
    · rintro ⟨wideband, ⟨body, rfl⟩, -, hscan⟩
      obtain ⟨frames, hframes, hpos, hlt⟩ := (scanAll_amrFrame_iff (by simp)).mp hscan
      rw [List.drop_left] at hframes
      exact ⟨⟨wideband, frames, hpos, hlt⟩, congrArg _ hframes.symm⟩
    · rintro ⟨audio, rfl⟩
      refine ⟨audio.wideband, List.prefix_append _ _, ?_, ?_⟩
      · have hmagic : (amrMagic false).length ≤ (amrMagic audio.wideband).length := by
          cases audio.wideband <;> decide
        have hframes : (audio.frames.map AmrFrame.encode).flatten ≠ [] := by
          obtain ⟨frame, hframe⟩ := List.exists_mem_of_length_pos audio.pos
          intro hnil
          exact frame.encode_ne_nil
            (List.flatten_eq_nil_iff.mp hnil _ (List.mem_map_of_mem hframe))
        have hpos := List.length_pos_iff.mpr hframes
        rw [AmrAudio.encode, List.length_append]
        omega
      · refine (scanAll_amrFrame_iff (by simp [AmrAudio.encode])).mpr
          ⟨audio.frames, ?_, audio.pos, audio.lt⟩
        rw [AmrAudio.encode, List.drop_left]
  · rintro ⟨wideband, frames, hpos, hlt⟩ ⟨wideband', frames', hpos', hlt'⟩ h
    have hfile : amrMagic wideband ++ (frames.map AmrFrame.encode).flatten =
        amrMagic wideband' ++ (frames'.map AmrFrame.encode).flatten := h
    obtain rfl := amrMagic_unique (List.prefix_append _ _) ⟨_, hfile.symm⟩
    have hflatten := List.append_cancel_left hfile
    have hscans := scans_amrFrame wideband (frames.map AmrFrame.encode).flatten
    have hitems : frames.map AmrFrame.encode = frames'.map AmrFrame.encode :=
      hscans.items_unique (List.drop_zero ..)
        (chain_unit (u := ()) (v := ()) |>.mpr (forall_mem_exists_iff.mpr ⟨frames, rfl⟩))
        ((List.drop_zero ..).trans hflatten)
        (chain_unit (u := ()) (v := ()) |>.mpr (forall_mem_exists_iff.mpr ⟨frames', rfl⟩))
    obtain rfl := List.map_injective_iff.mpr AmrFrame.encode_injective hitems
    rfl

end ApiWhatsApp
