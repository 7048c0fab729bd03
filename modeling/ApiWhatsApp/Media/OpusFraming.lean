import ApiWhatsApp.Library.Bytes
import ApiWhatsApp.Library.Codes

/-!
# Opus packets

`matchesOpusPacketFraming` of `media/media-ogg-opus-profile.ts`: how a packet is divided into frames.

* `OpusPacket` is a packet by its parts: the configuration of its frames, the frames in one of four
  layouts, and padding behind them. `OpusPacket.encode` writes it.
* **`opus_packet_framing`** — the packets that are accepted are the encodings of up to 61440 bytes, and
  nothing is encoded in two ways.
-/

namespace ApiWhatsApp

open Library

/-! ## The validator -/

/-- Source: `MAX_AUDIO_PACKET_BYTES`. -/
def maxAudioPacketBytes : ℕ := 61440

/-- Source: `MAX_FRAME_BYTES`. -/
def maxFrameBytes : ℕ := 1275

/-- Source: `samplesPerFrame`. -/
def samplesPerFrame (config : ℕ) : ℕ :=
  if config ≥ 16 then 120 * 2 ^ (config &&& 3)
  else if config ≥ 12 then 480 * 2 ^ (config &&& 1)
  else if config &&& 3 = 3 then 2880
  else 480 * 2 ^ (config &&& 3)

/-- The loop over the bytes that say how much padding there is. It takes the padding off the end of
the packet; a byte at the limit says that another one follows. -/
def skipPadding (packet : Bytes) : ℕ → ℕ → ℕ → Option (ℕ × ℕ)
  | 0, _, _ => none
  | remaining + 1, offset, stop =>
      if offset ≥ stop then none
      else
        let paddingByte := packet.getD offset 0
        let padding := if paddingByte = 255 then 254 else paddingByte.toNat
        if offset + 1 + padding > stop then none
        else if paddingByte = 255 then skipPadding packet remaining (offset + 1) (stop - padding)
        else some (offset + 1, stop - padding)

/-- The length of a frame, in one byte or two. -/
def readFrameLength (packet : Bytes) (stop offset : ℕ) : Option (ℕ × ℕ) :=
  if offset ≥ stop then none
  else
    let length := (packet.getD offset 0).toNat
    if length < 252 then some (length, offset + 1)
    else if offset + 1 ≥ stop then none
    else some (length + 4 * (packet.getD (offset + 1) 0).toNat, offset + 2)

/-- The loop over the lengths of all frames but the last; it leaves the offset and their sum. -/
def readFrameLengths (packet : Bytes) (stop : ℕ) : ℕ → ℕ → ℕ → Option (ℕ × ℕ)
  | 0, offset, declaredBytes => some (offset, declaredBytes)
  | frames + 1, offset, declaredBytes =>
      match readFrameLength packet stop offset with
      | none => none
      | some (length, offset) =>
          if offset + (declaredBytes + length) > stop then none
          else readFrameLengths packet stop frames offset (declaredBytes + length)

/-- The end of the function, behind what comes before the lengths. -/
def matchesFrameLengths (packet : Bytes) (offset stop frames : ℕ) : Bool :=
  match readFrameLengths packet stop (frames - 1) offset 0 with
  | none => false
  | some (offset, declaredBytes) =>
      offset + declaredBytes ≤ stop && stop - offset - declaredBytes ≤ maxFrameBytes

/-- The third layout, behind the first byte. -/
def matchesFrameCount (packet : Bytes) (config : ℕ) : Bool :=
  if 1 ≥ packet.length then false
  else
    let control := (packet.getD 1 0).toNat
    let frames := control &&& 0x3f
    if frames = 0 ∨ samplesPerFrame config * frames > 5760 then false
    else
      match
        if control &&& 0x40 ≠ 0 then skipPadding packet packet.length 2 packet.length
        else some (2, packet.length) with
      | none => false
      | some (offset, stop) =>
          if control &&& 0x80 = 0 then
            (stop - offset) % frames = 0 && (stop - offset) / frames ≤ maxFrameBytes
          else matchesFrameLengths packet offset stop frames

/-- Source: `matchesOpusPacketFraming`. -/
def matchesOpusPacketFraming (packet : Bytes) : Bool :=
  if packet.length = 0 ∨ packet.length > maxAudioPacketBytes then false
  else
    let toc := (packet.getD 0 0).toNat
    let code := toc &&& 3
    let config := toc >>> 3
    if code = 0 then packet.length - 1 ≤ maxFrameBytes
    else if code = 1 then
      (packet.length - 1) % 2 = 0 && (packet.length - 1) / 2 ≤ maxFrameBytes
    else if code = 3 then matchesFrameCount packet config
    else matchesFrameLengths packet 1 packet.length 2

/-! ## Packets -/

/-- The duration of a frame in tenths of a millisecond, by its configuration: four modes of the
speech codec at 10 to 60 ms, two hybrid ones at 10 and 20 ms, and four of the music codec at 2.5 to
20 ms. -/
def frameDuration (config : ℕ) : ℕ :=
  [100, 200, 400, 600, 100, 200, 400, 600, 100, 200, 400, 600, 100, 200, 100, 200,
    25, 50, 100, 200, 25, 50, 100, 200, 25, 50, 100, 200, 25, 50, 100, 200].getD config 0

/-- Padding: bytes at the limit, a last one, and as many bytes at the end of the packet as they say. -/
@[ext] structure OpusPadding where
  full : ℕ
  last : UInt8
  bytes : Bytes
  last_ne : last ≠ 255
  length_bytes : bytes.length = 254 * full + last.toNat

/-- The bytes that say how long the padding is. -/
def OpusPadding.lengthBytes (padding : OpusPadding) : Bytes :=
  List.replicate padding.full 255 ++ [padding.last]

/-- The length of a frame, in one byte or two. -/
def frameLengthBytes (length : ℕ) : Bytes :=
  if length < 252 then [UInt8.ofNat length]
  else [UInt8.ofNat (252 + length % 4), UInt8.ofNat ((length - 252) / 4)]

/-- The lengths of all frames but the last. -/
def frameLengthsBytes (frames : List Bytes) : Bytes :=
  (frames.dropLast.map fun frame => frameLengthBytes frame.length).flatten

/-- The four layouts: one frame, two of the same length, two, and any number of them. -/
inductive OpusLayout
  | single (frame : Bytes)
  | equal (first second : Bytes)
  | pair (first second : Bytes)
  | many (frames : List Bytes) (variableLength : Bool) (padding : Option OpusPadding)

namespace OpusLayout

/-- The code of the layout. -/
def code : OpusLayout → ℕ
  | single _ => 0
  | equal _ _ => 1
  | pair _ _ => 2
  | many _ _ _ => 3

/-- The frames, in order. -/
def frames : OpusLayout → List Bytes
  | single frame => [frame]
  | equal first second => [first, second]
  | pair first second => [first, second]
  | many frames _ _ => frames

/-- What the frames of a layout have to be, for frames of some duration. -/
def Legal (duration : ℕ) : OpusLayout → Prop
  | single _ => True
  | equal first second => first.length = second.length
  | pair _ _ => True
  | many frames variableLength _ => 1 ≤ frames.length ∧ duration * frames.length ≤ 1200 ∧
      (variableLength = false → ∃ length, ∀ frame ∈ frames, frame.length = length)

/-- The byte that counts the frames. -/
def controlByte (frames : List Bytes) (variableLength : Bool) (padding : Option OpusPadding) : UInt8 :=
  UInt8.ofNat (128 * variableLength.toNat + 64 * padding.isSome.toNat + frames.length)

/-- The bytes of the layout. -/
def encode : OpusLayout → Bytes
  | single frame => frame
  | equal first second => first ++ second
  | pair first second => frameLengthBytes first.length ++ (first ++ second)
  | many frames variableLength padding => controlByte frames variableLength padding ::
      (padding.elim [] OpusPadding.lengthBytes ++
        ((if variableLength then frameLengthsBytes frames else []) ++ frames.flatten) ++
        padding.elim [] OpusPadding.bytes)

end OpusLayout

/-- A packet by its parts. -/
structure OpusPacket where
  config : ℕ
  stereo : Bool
  layout : OpusLayout
  config_lt : config < 32
  legal : layout.Legal (frameDuration config)
  frame_le : ∀ frame ∈ layout.frames, frame.length ≤ maxFrameBytes

/-- The bytes of the packet. -/
def OpusPacket.encode (packet : OpusPacket) : Bytes :=
  UInt8.ofNat (8 * packet.config + 4 * packet.stereo.toNat + packet.layout.code) ::
    packet.layout.encode

/-! ## Lengths of frames -/

/-- What a first byte of 252 or more stands for. -/
theorem toNat_lengthBytes {length : ℕ} (hle : length ≤ maxFrameBytes) (hlong : 252 ≤ length) :
    (UInt8.ofNat (252 + length % 4)).toNat = 252 + length % 4 ∧
      (UInt8.ofNat ((length - 252) / 4)).toNat = (length - 252) / 4 := by
  unfold maxFrameBytes at hle
  rw [UInt8.toNat_ofNat', UInt8.toNat_ofNat']
  omega

/-- The lengths can be read one after another. -/
theorem prefixFree_frameLengthBytes :
    PrefixFree (fun length => length ≤ maxFrameBytes) frameLengthBytes := by
  intro length length' u v hle hle' heq
  unfold frameLengthBytes at heq
  split_ifs at heq with hshort hshort' hshort'
  · obtain ⟨hhead, huv⟩ := List.cons.inj heq
    have hnat := congrArg UInt8.toNat hhead
    rw [UInt8.toNat_ofNat', UInt8.toNat_ofNat'] at hnat
    exact ⟨by omega, huv⟩
  · have hnat := congrArg UInt8.toNat (List.cons.inj heq).1
    rw [(toNat_lengthBytes hle' (Nat.le_of_not_lt hshort')).1, UInt8.toNat_ofNat'] at hnat
    omega
  · have hnat := congrArg UInt8.toNat (List.cons.inj heq).1
    rw [(toNat_lengthBytes hle (Nat.le_of_not_lt hshort)).1, UInt8.toNat_ofNat'] at hnat
    omega
  · obtain ⟨hfirst, hrest⟩ := List.cons.inj heq
    obtain ⟨hsecond, huv⟩ := List.cons.inj hrest
    obtain ⟨hlow, hhigh⟩ := toNat_lengthBytes hle (Nat.le_of_not_lt hshort)
    obtain ⟨hlow', hhigh'⟩ := toNat_lengthBytes hle' (Nat.le_of_not_lt hshort')
    have hnat := congrArg UInt8.toNat hfirst
    have hnat' := congrArg UInt8.toNat hsecond
    rw [hlow, hlow'] at hnat
    rw [hhigh, hhigh'] at hnat'
    exact ⟨by omega, huv⟩

section

variable {packet after : Bytes} {offset offset' stop stop' : ℕ}

/-- A length is read where it is written. -/
theorem readFrameLength_of_drop {length : ℕ} (hle : length ≤ maxFrameBytes)
    (hdrop : packet.drop offset = frameLengthBytes length ++ after)
    (hstop : offset + (frameLengthBytes length).length ≤ stop) :
    readFrameLength packet stop offset =
      some (length, offset + (frameLengthBytes length).length) := by
  have hpos : ¬ offset ≥ stop := by
    unfold frameLengthBytes at hstop
    split_ifs at hstop <;> rw [List.length_cons] at hstop <;> omega
  unfold readFrameLength
  rw [if_neg hpos]
  by_cases hshort : length < 252
  · rw [frameLengthBytes, if_pos hshort] at hdrop hstop ⊢
    rw [getD_of_drop hdrop, UInt8.toNat_ofNat', Nat.mod_eq_of_lt (by omega)]
    exact if_pos hshort
  · obtain ⟨hlow, hhigh⟩ := toNat_lengthBytes hle (Nat.le_of_not_lt hshort)
    rw [frameLengthBytes, if_neg hshort] at hdrop hstop ⊢
    have hsecond : packet.drop (offset + 1) = UInt8.ofNat ((length - 252) / 4) :: after := by
      rw [← List.drop_drop, hdrop]
      rfl
    simp only [List.length_cons, List.length_nil] at hstop
    rw [getD_of_drop hdrop, getD_of_drop hsecond, hlow, hhigh]
    dsimp only
    rw [if_neg (by omega), if_neg (by omega)]
    refine congrArg some (Prod.ext ?_ rfl)
    dsimp only
    omega

/-- What is read as a length is one. -/
theorem exists_of_readFrameLength {length : ℕ} (hpacket : stop ≤ packet.length)
    (h : readFrameLength packet stop offset = some (length, offset')) :
    length ≤ maxFrameBytes ∧ offset' ≤ stop ∧
      offset' = offset + (frameLengthBytes length).length ∧
      ∃ after, packet.drop offset = frameLengthBytes length ++ after := by
  unfold readFrameLength at h
  rw [ite_eq_iff] at h
  obtain ⟨-, hnone⟩ | ⟨hend, h⟩ := h
  · cases hnone
  obtain ⟨after, hdrop⟩ := exists_drop_of_lt (show offset < packet.length by omega)
  have hfirst := (packet.getD offset 0).toNat_lt
  dsimp only at h
  by_cases hshort : (packet.getD offset 0).toNat < 252
  · rw [if_pos hshort] at h
    cases h
    rw [frameLengthBytes, if_pos hshort, UInt8.ofNat_toNat, maxFrameBytes]
    exact ⟨by omega, by omega, rfl, after, hdrop⟩
  · rw [if_neg hshort] at h
    split_ifs at h with hend'
    cases h
    obtain ⟨after', hdrop'⟩ := exists_drop_of_lt (show offset + 1 < packet.length by omega)
    have hsecond := (packet.getD (offset + 1) 0).toNat_lt
    rw [frameLengthBytes, if_neg (by omega), maxFrameBytes]
    refine ⟨by omega, by omega, rfl, after', ?_⟩
    rw [← List.drop_drop, hdrop, List.drop_one, List.tail_cons] at hdrop'
    have hlow : 252 + ((packet.getD offset 0).toNat + 4 * (packet.getD (offset + 1) 0).toNat) % 4 =
        (packet.getD offset 0).toNat := by omega
    have hhigh : ((packet.getD offset 0).toNat + 4 * (packet.getD (offset + 1) 0).toNat - 252) / 4 =
        (packet.getD (offset + 1) 0).toNat := by omega
    rw [hlow, hhigh, UInt8.ofNat_toNat, UInt8.ofNat_toNat, hdrop, hdrop']
    rfl

/-- The lengths that are read, when they and their sum fit. -/
theorem readFrameLengths_eq_some {frames declared declared' : ℕ} (hpacket : stop ≤ packet.length)
    (hfits : offset' + declared' ≤ stop) :
    readFrameLengths packet stop frames offset declared = some (offset', declared') ↔
      ∃ (lengths : List ℕ) (after : Bytes), lengths.length = frames ∧
        (∀ length ∈ lengths, length ≤ maxFrameBytes) ∧
        packet.drop offset = (lengths.map frameLengthBytes).flatten ++ after ∧
        offset' = offset + (lengths.map frameLengthBytes).flatten.length ∧
        declared' = declared + lengths.sum := by
  induction frames generalizing offset declared with
  | zero =>
      rw [readFrameLengths]
      constructor
      · intro h
        cases h
        exact ⟨[], _, rfl, by simp, rfl, rfl, rfl⟩
      · rintro ⟨lengths, after, hcount, -, -, rfl, rfl⟩
        obtain rfl := List.eq_nil_of_length_eq_zero hcount
        rfl
  | succ frames ih =>
      rw [readFrameLengths]
      constructor
      · intro h
        split at h
        · cases h
        rename_i length next hread
        obtain ⟨hle, hnext, rfl, after, hdrop⟩ := exists_of_readFrameLength hpacket hread
        split_ifs at h with hsum
        obtain ⟨lengths, after', rfl, hall, hdrop', hoffset, hdeclared⟩ := ih.mp h
        rw [← List.drop_drop, hdrop, List.drop_left] at hdrop'
        refine ⟨length :: lengths, after', rfl, List.forall_mem_cons.mpr ⟨hle, hall⟩, ?_, ?_, ?_⟩
        · rw [hdrop, hdrop', List.map_cons, List.flatten_cons, List.append_assoc]
        · rw [hoffset, List.map_cons, List.flatten_cons, List.length_append, Nat.add_assoc]
        · rw [hdeclared, List.sum_cons, Nat.add_assoc]
      · rintro ⟨lengths, after, hcount, hall, hdrop, hoffset, hdeclared⟩
        cases lengths with
        | nil => cases hcount
        | cons length lengths =>
            obtain ⟨hle, hrest⟩ := List.forall_mem_cons.mp hall
            rw [List.map_cons, List.flatten_cons, List.append_assoc] at hdrop
            rw [List.map_cons, List.flatten_cons, List.length_append] at hoffset
            rw [List.sum_cons] at hdeclared
            rw [readFrameLength_of_drop hle hdrop (by omega)]
            dsimp only
            rw [if_neg (by omega)]
            refine ih.mpr ⟨lengths, after, Nat.succ.inj hcount, hrest, ?_, by omega, by omega⟩
            rw [← List.drop_drop, hdrop, List.drop_left]

/-! ## Frames -/

/-- The part of a packet behind an offset is what comes before a later one, and what comes after. -/
theorem drop_split (hoffset : offset ≤ stop) (hpacket : stop ≤ packet.length) :
    packet.drop offset = (packet.take stop).drop offset ++ packet.drop stop := by
  conv_lhs => rw [← List.take_append_drop stop packet]
  rw [List.drop_append_of_le_length (by rw [List.length_take]; omega)]

/-- The lengths of all frames but the last. -/
theorem frameLengthsBytes_concat (frames : List Bytes) (last : Bytes) :
    frameLengthsBytes (frames ++ [last]) =
      ((frames.map List.length).map frameLengthBytes).flatten := by
  rw [frameLengthsBytes, List.dropLast_concat, List.map_map]
  rfl

/-- The frames are short just when their lengths are. -/
theorem length_frame_le {frames : List Bytes} :
    (∀ length ∈ frames.map List.length, length ≤ maxFrameBytes) ↔
      ∀ frame ∈ frames, frame.length ≤ maxFrameBytes :=
  List.forall_mem_map

/-- Frames of one length fill a part of a packet if their number divides it. -/
theorem exists_equal_frames {body : Bytes} {count : ℕ} (hcount : 1 ≤ count) :
    body.length % count = 0 ∧ body.length / count ≤ maxFrameBytes ↔
      ∃ frames : List Bytes, frames.length = count ∧
        (∀ frame ∈ frames, frame.length ≤ maxFrameBytes) ∧
        (∃ length, ∀ frame ∈ frames, frame.length = length) ∧ body = frames.flatten := by
  constructor
  · rintro ⟨hmod, hle⟩
    have hsum : (List.replicate count (body.length / count)).sum = body.length := by
      rw [List.sum_replicate_nat, Nat.mul_div_cancel' (Nat.dvd_of_mod_eq_zero hmod)]
    obtain ⟨frames, hflatten, hlengths⟩ := exists_pieces hsum
    have hlength : ∀ frame ∈ frames, frame.length = body.length / count := by
      intro frame hmem
      have hmap := List.mem_map_of_mem (f := List.length) hmem
      rw [hlengths] at hmap
      exact List.eq_of_mem_replicate hmap
    refine ⟨frames, ?_, fun frame hmem => ?_, ⟨_, hlength⟩, hflatten.symm⟩
    · have hcounts := congrArg List.length hlengths
      rwa [List.length_map, List.length_replicate] at hcounts
    · rw [hlength frame hmem]
      exact hle
  · rintro ⟨frames, rfl, hall, ⟨length, hlength⟩, rfl⟩
    have hlengths : frames.map List.length = List.replicate frames.length length :=
      List.eq_replicate_iff.mpr ⟨List.length_map .., fun l hl => by
        obtain ⟨frame, hmem, rfl⟩ := List.mem_map.mp hl
        exact hlength frame hmem⟩
    have hsum : frames.flatten.length = frames.length * length := by
      rw [List.length_flatten, hlengths, List.sum_replicate_nat]
    obtain ⟨frame, hmem⟩ := List.exists_mem_of_length_pos hcount
    rw [hsum, Nat.mul_mod_right, Nat.mul_div_cancel_left _ hcount, ← hlength frame hmem]
    exact ⟨rfl, hall frame hmem⟩

/-- Frames of any length fill it if all lengths but the last stand before them. -/
theorem matchesFrameLengths_iff {count : ℕ} (hpacket : stop ≤ packet.length)
    (hoffset : offset ≤ stop) (hcount : 1 ≤ count) :
    matchesFrameLengths packet offset stop count = true ↔
      ∃ frames : List Bytes, frames.length = count ∧
        (∀ frame ∈ frames, frame.length ≤ maxFrameBytes) ∧
        (packet.take stop).drop offset = frameLengthsBytes frames ++ frames.flatten := by
  have hbody : ((packet.take stop).drop offset).length = stop - offset := by
    rw [List.length_drop, List.length_take_of_le hpacket]
  unfold matchesFrameLengths
  constructor
  · intro h
    cases hread : readFrameLengths packet stop (count - 1) offset 0 with
    | none => rw [hread] at h; cases h
    | some next =>
        obtain ⟨offset', declared⟩ := next
        rw [hread] at h
        simp only [Bool.and_eq_true, decide_eq_true_eq] at h
        obtain ⟨lengths, after, hlength, hall, hdrop, rfl, rfl⟩ :=
          (readFrameLengths_eq_some hpacket h.1).mp hread
        rw [Nat.zero_add] at h
        generalize hwritten : (lengths.map frameLengthBytes).flatten = written at hdrop h
        have hsplit : (packet.take stop).drop offset =
            written ++ (packet.take stop).drop (offset + written.length) := by
          rw [drop_take_of_drop hdrop (by omega), ← List.drop_drop,
            drop_take_of_drop hdrop (by omega), List.drop_left]
        have hsum : (lengths ++ [stop - (offset + written.length) - lengths.sum]).sum =
            ((packet.take stop).drop (offset + written.length)).length := by
          rw [List.sum_append, List.sum_singleton, List.length_drop,
            List.length_take_of_le hpacket]
          omega
        obtain ⟨frames, hflatten, hlengths⟩ := exists_pieces hsum
        obtain ⟨init, tail, rfl, hinit, htail⟩ := List.map_eq_append_iff.mp hlengths
        obtain ⟨last, rfl, hlast⟩ := List.map_eq_singleton_iff.mp htail
        refine ⟨init ++ [last], ?_, length_frame_le.mp ?_, ?_⟩
        · rw [List.length_append, ← List.length_map (f := List.length), hinit, hlength,
            List.length_singleton]
          omega
        · rw [hlengths]
          intro length hmem
          rcases List.mem_append.mp hmem with hmem | hmem
          · exact hall length hmem
          · rw [List.mem_singleton.mp hmem]
            exact h.2
        · rw [frameLengthsBytes_concat, hinit, hwritten, hflatten]
          exact hsplit
  · rintro ⟨frames, rfl, hall, hsplit⟩
    rcases List.eq_nil_or_concat' frames with rfl | ⟨init, last, rfl⟩
    · cases hcount
    · rw [frameLengthsBytes_concat] at hsplit
      have hsum := congrArg List.length hsplit
      rw [hbody, List.length_append, List.length_flatten (L := init ++ [last]), List.map_append,
        List.sum_append, List.map_singleton, List.sum_singleton] at hsum
      have hdrop := drop_split hoffset hpacket
      rw [hsplit, List.append_assoc] at hdrop
      have hlengths := length_frame_le.mpr hall
      rw [List.map_append] at hlengths
      have hread : readFrameLengths packet stop ((init ++ [last]).length - 1) offset 0 = some (_, _) :=
        (readFrameLengths_eq_some hpacket (by omega)).mpr ⟨init.map List.length, _, by simp,
          fun length hmem => hlengths length (List.mem_append_left _ hmem), hdrop, rfl, rfl⟩
      rw [hread]
      have hlast := hall last (List.mem_append_right _ (List.mem_singleton_self last))
      simp only [Bool.and_eq_true, decide_eq_true_eq]
      omega

/-! ## Padding -/

/-- Padding is taken off where its bytes say how much there is. -/
theorem skipPadding_of_drop {remaining full : ℕ} {last : UInt8} (hlast : last ≠ 255)
    (hdrop : packet.drop offset = List.replicate full 255 ++ last :: after)
    (hremaining : full < remaining)
    (hfits : offset + full + 1 + (254 * full + last.toNat) ≤ stop) :
    skipPadding packet remaining offset stop =
      some (offset + full + 1, stop - (254 * full + last.toNat)) := by
  induction full generalizing offset stop remaining with
  | zero =>
      obtain ⟨remaining, rfl⟩ := Nat.exists_eq_succ_of_ne_zero (Nat.ne_zero_of_lt hremaining)
      rw [skipPadding, if_neg (by omega), getD_of_drop hdrop]
      dsimp only
      rw [if_neg hlast, if_neg (by omega), if_neg hlast]
      simp
  | succ full ih =>
      obtain ⟨remaining, rfl⟩ := Nat.exists_eq_succ_of_ne_zero (Nat.ne_zero_of_lt hremaining)
      rw [List.replicate_succ, List.cons_append] at hdrop
      have htail : packet.drop (offset + 1) = List.replicate full 255 ++ last :: after := by
        rw [← List.drop_drop, hdrop]
        rfl
      rw [skipPadding, if_neg (by omega), getD_of_drop hdrop]
      dsimp only
      rw [if_pos rfl, if_neg (by omega), if_pos rfl,
        ih htail (Nat.lt_of_succ_lt_succ hremaining) (by omega)]
      refine congrArg some (Prod.ext ?_ ?_)
      · dsimp only
        omega
      · dsimp only
        omega

/-- What is taken off is what its bytes say. -/
theorem exists_of_skipPadding {remaining : ℕ} (hpacket : stop ≤ packet.length)
    (h : skipPadding packet remaining offset stop = some (offset', stop')) :
    ∃ (full : ℕ) (last : UInt8) (after : Bytes), last ≠ 255 ∧
      packet.drop offset = List.replicate full 255 ++ last :: after ∧ offset' = offset + full + 1 ∧
      stop' + (254 * full + last.toNat) = stop ∧ offset' ≤ stop' := by
  induction remaining generalizing offset stop with
  | zero => cases h
  | succ remaining ih =>
      rw [skipPadding, ite_eq_iff] at h
      obtain ⟨-, hnone⟩ | ⟨hend, hnext⟩ := h
      · cases hnone
      obtain ⟨after, hdrop⟩ := exists_drop_of_lt (show offset < packet.length by omega)
      dsimp only at hnext
      by_cases hfull : packet.getD offset 0 = 255
      · rw [if_pos hfull, if_pos hfull] at hnext
        split_ifs at hnext with hfits
        obtain ⟨full, last, after', hlast, hdrop', hoffset, hstop, hle⟩ := ih (by omega) hnext
        rw [← List.drop_drop, hdrop, List.drop_one, List.tail_cons] at hdrop'
        rw [hfull, hdrop'] at hdrop
        exact ⟨full + 1, last, after', hlast, hdrop, by omega, by omega, hle⟩
      · rw [if_neg hfull, if_neg hfull] at hnext
        split_ifs at hnext with hfits
        cases hnext
        exact ⟨0, _, after, hfull, hdrop, rfl, by omega, by omega⟩

/-- With or without padding, what is left are the frames and their lengths. -/
theorem padding_iff {P : Prop} [Decidable P] (hpacket : 2 ≤ packet.length) :
    (if P then skipPadding packet packet.length 2 packet.length else some (2, packet.length)) =
        some (offset, stop) ↔
      ∃ (padding : Option OpusPadding) (body : Bytes), (padding.isSome = true ↔ P) ∧
        packet.drop 2 = padding.elim [] OpusPadding.lengthBytes ++ body ++
          padding.elim [] OpusPadding.bytes ∧
        offset = 2 + (padding.elim [] OpusPadding.lengthBytes).length ∧
        stop = offset + body.length := by
  by_cases hP : P
  · rw [if_pos hP]
    constructor
    · intro h
      obtain ⟨full, last, after, hlast, hdrop, rfl, hstop, hle⟩ :=
        exists_of_skipPadding (Nat.le_refl _) h
      have hsum := congrArg List.length hdrop
      rw [List.length_drop, List.length_append, List.length_cons, List.length_replicate] at hsum
      refine ⟨some ⟨full, last, after.drop (stop - (2 + full + 1)), hlast, ?_⟩,
        after.take (stop - (2 + full + 1)), iff_of_true rfl hP, ?_, ?_, ?_⟩
      · rw [List.length_drop]
        omega
      · simp only [Option.elim_some, OpusPadding.lengthBytes]
        rw [List.append_assoc, List.take_append_drop, hdrop, List.append_assoc]
        rfl
      · simp only [Option.elim_some, OpusPadding.lengthBytes, List.length_append,
          List.length_replicate, List.length_singleton]
        omega
      · rw [List.length_take]
        omega
    · rintro ⟨padding, body, hsome, hdrop, rfl, rfl⟩
      obtain ⟨padding, rfl⟩ := Option.isSome_iff_exists.mp (hsome.mpr hP)
      simp only [Option.elim_some] at hdrop ⊢
      have hlength : padding.lengthBytes.length = padding.full + 1 := by
        rw [OpusPadding.lengthBytes, List.length_append, List.length_replicate,
          List.length_singleton]
      have hsum := congrArg List.length hdrop
      rw [List.length_drop, List.length_append, List.length_append, hlength,
        padding.length_bytes] at hsum
      rw [OpusPadding.lengthBytes, List.append_assoc, List.append_assoc,
        List.singleton_append] at hdrop
      rw [skipPadding_of_drop padding.last_ne hdrop (by omega) (by omega), hlength]
      refine congrArg some (Prod.ext (by dsimp only; omega) ?_)
      dsimp only
      omega
  · rw [if_neg hP]
    constructor
    · intro h
      cases h
      refine ⟨none, packet.drop 2, iff_of_false Bool.false_ne_true hP, by simp, rfl, ?_⟩
      rw [List.length_drop]
      omega
    · rintro ⟨padding, body, hnone, hdrop, rfl, rfl⟩
      cases padding with
      | some padding => exact absurd (hnone.mp rfl) hP
      | none =>
          simp only [Option.elim_none, List.nil_append, List.append_nil] at hdrop
          have hsum := congrArg List.length hdrop
          rw [List.length_drop] at hsum
          refine congrArg some (Prod.ext rfl ?_)
          simp only [Option.elim_none, List.length_nil]
          omega

end

/-- What a layout is behind the count of its frames and its padding. -/
theorem layoutFrames_iff {P : Prop} [Decidable P] {packet : Bytes} {offset stop count : ℕ}
    (hpacket : stop ≤ packet.length) (hoffset : offset ≤ stop) (hcount : 1 ≤ count) :
    (if P then (stop - offset) % count = 0 && (stop - offset) / count ≤ maxFrameBytes
      else matchesFrameLengths packet offset stop count) = true ↔
      ∃ frames : List Bytes, frames.length = count ∧
        (∀ frame ∈ frames, frame.length ≤ maxFrameBytes) ∧
        (P → ∃ length, ∀ frame ∈ frames, frame.length = length) ∧
        (packet.take stop).drop offset =
          (if P then [] else frameLengthsBytes frames) ++ frames.flatten := by
  by_cases hP : P
  · have hbody : ((packet.take stop).drop offset).length = stop - offset := by
      rw [List.length_drop, List.length_take_of_le hpacket]
    rw [if_pos hP, Bool.and_eq_true, decide_eq_true_eq, decide_eq_true_eq, ← hbody,
      exists_equal_frames hcount]
    simp [hP]
  · rw [if_neg hP, matchesFrameLengths_iff hpacket hoffset hcount]
    simp [hP]

/-! ## The first two bytes -/

/-- Durations are counted in samples at 48 kHz. -/
theorem samplesPerFrame_eq {config : ℕ} (h : config < 32) :
    5 * samplesPerFrame config = 24 * frameDuration config := by
  have hall : ∀ config < 32, 5 * samplesPerFrame config = 24 * frameDuration config := by decide
  exact hall config h

/-- Every frame lasts for some time. -/
theorem frameDuration_pos {config : ℕ} (h : config < 32) : 25 ≤ frameDuration config := by
  have hall : ∀ config < 32, 25 ≤ frameDuration config := by decide
  exact hall config h

/-- The fields of the control byte. -/
theorem control_bits {control : ℕ} (h : control < 256) :
    control &&& 0x3f = control % 64 ∧ (control &&& 0x40 ≠ 0 ↔ control / 64 % 2 = 1) ∧
      (control &&& 0x80 = 0 ↔ control / 128 = 0) := by
  have hall : ∀ control < 256, control &&& 0x3f = control % 64 ∧
      (control &&& 0x40 ≠ 0 ↔ control / 64 % 2 = 1) ∧
      (control &&& 0x80 = 0 ↔ control / 128 = 0) := by decide +kernel
  exact hall control h

/-- A byte counts some frames, and says how they are laid out. -/
theorem controlByte_eq_iff {frames : List Bytes} {variableLength : Bool}
    {padding : Option OpusPadding} {control : UInt8} (hframes : frames.length < 64) :
    OpusLayout.controlByte frames variableLength padding = control ↔
      frames.length = control.toNat % 64 ∧
      (padding.isSome = true ↔ control.toNat / 64 % 2 = 1) ∧
      (variableLength = false ↔ control.toNat / 128 = 0) := by
  have hlt := control.toNat_lt
  have hvariable := variableLength.toNat_le
  have hsome := padding.isSome.toNat_le
  rw [OpusLayout.controlByte, ← UInt8.toNat_inj, UInt8.toNat_ofNat']
  cases variableLength <;> cases padding.isSome <;>
    simp only [Bool.toNat_true, Bool.toNat_false, Bool.false_eq_true, Bool.true_eq_false, true_iff,
      false_iff] <;> omega

/-- Packets with a first byte are layouts with its code. -/
theorem exists_packet_iff {toc : UInt8} {rest : Bytes} :
    (∃ packet : OpusPacket, packet.encode = toc :: rest) ↔
      ∃ layout : OpusLayout, layout.code = toc.toNat % 4 ∧
        layout.Legal (frameDuration (toc.toNat / 8)) ∧
        (∀ frame ∈ layout.frames, frame.length ≤ maxFrameBytes) ∧ layout.encode = rest := by
  have hlt := toc.toNat_lt
  constructor
  · rintro ⟨⟨config, stereo, layout, hconfig, hlegal, hframes⟩, heq⟩
    obtain ⟨htoc, hrest⟩ := List.cons.inj heq
    have hcode : layout.code ≤ 3 := by cases layout <;> simp [OpusLayout.code]
    have hstereo := stereo.toNat_le
    have hnat := congrArg UInt8.toNat htoc
    rw [UInt8.toNat_ofNat'] at hnat
    have hconfig' : toc.toNat / 8 = config := by
      dsimp only at hnat
      omega
    refine ⟨layout, ?_, ?_, hframes, hrest⟩
    · dsimp only at hnat
      omega
    · rw [hconfig']
      exact hlegal
  · rintro ⟨layout, hcode, hlegal, hframes, hrest⟩
    refine ⟨⟨toc.toNat / 8, decide (toc.toNat / 4 % 2 = 1), layout, by omega, hlegal, hframes⟩, ?_⟩
    have htoc : UInt8.ofNat (8 * (toc.toNat / 8) + 4 * (decide (toc.toNat / 4 % 2 = 1)).toNat +
        layout.code) = toc := by
      rw [← UInt8.toNat_inj, UInt8.toNat_ofNat', hcode]
      by_cases hstereo : toc.toNat / 4 % 2 = 1
      · rw [decide_eq_true hstereo, Bool.toNat_true]
        omega
      · rw [decide_eq_false hstereo, Bool.toNat_false]
        omega
    rw [OpusPacket.encode, htoc, hrest]

/-- A byte that counts frames is read as it is written. -/
theorem matchesFrameCount_iff {toc : UInt8} {rest : Bytes} {config : ℕ} (hconfig : config < 32) :
    matchesFrameCount (toc :: rest) config = true ↔
      ∃ frames variableLength padding,
        (OpusLayout.many frames variableLength padding).Legal (frameDuration config) ∧
        (∀ frame ∈ frames, frame.length ≤ maxFrameBytes) ∧
        (OpusLayout.many frames variableLength padding).encode = rest := by
  have hshort : ∀ frames : List Bytes, frameDuration config * frames.length ≤ 1200 →
      frames.length < 64 := by
    intro frames hle
    have hmul := Nat.mul_le_mul_right frames.length (frameDuration_pos hconfig)
    omega
  cases rest with
  | nil =>
      refine iff_of_false (fun h => nomatch h) ?_
      rintro ⟨frames, variableLength, padding, -, -, hencode⟩
      cases hencode
  | cons control rest =>
      obtain ⟨hcount, hpadding, hvariable⟩ := control_bits control.toNat_lt
      have hsamples : 5 * (samplesPerFrame config * (control.toNat % 64)) =
          24 * (frameDuration config * (control.toNat % 64)) := by
        rw [← Nat.mul_assoc, samplesPerFrame_eq hconfig, Nat.mul_assoc]
      have hlong : ¬ 1 ≥ (toc :: control :: rest).length := by
        rw [List.length_cons, List.length_cons]
        omega
      have hpacket : 2 ≤ (toc :: control :: rest).length := Nat.lt_of_not_le hlong
      unfold matchesFrameCount
      rw [if_neg hlong]
      simp only [List.getD_cons_succ, List.getD_cons_zero]
      rw [hcount]
      by_cases hbad : control.toNat % 64 = 0 ∨ samplesPerFrame config * (control.toNat % 64) > 5760
      · rw [if_pos hbad]
        refine iff_of_false Bool.false_ne_true ?_
        rintro ⟨frames, variableLength, padding, ⟨hpos, hle, -⟩, -, hencode⟩
        obtain ⟨hframes, -⟩ := (controlByte_eq_iff (hshort frames hle)).mp (List.cons.inj hencode).1
        rw [hframes] at hle hpos
        omega
      · rw [if_neg hbad]
        obtain ⟨hpos, hduration⟩ := not_or.mp hbad
        -- What stands between an offset and a limit is what stands between the padding.
        have hbody : ∀ {head body tail : Bytes}, rest = head ++ body ++ tail →
            ((toc :: control :: rest).take (2 + head.length + body.length)).drop
              (2 + head.length) = body := by
          intro head body tail heq
          rw [heq, Nat.add_comm 2, ← Nat.add_right_comm _ body.length, List.take_succ_cons,
            List.take_succ_cons, List.drop_succ_cons, List.drop_succ_cons, List.append_assoc,
            List.take_append, List.take_of_length_le (by omega), List.drop_left,
            Nat.add_sub_cancel_left, List.take_left]
        constructor
        · intro h
          split at h
          · cases h
          rename_i offset stop hnext
          obtain ⟨padding, body, hsome, hrest, hoffset, hstop⟩ := (padding_iff hpacket).mp hnext
          rw [List.drop_succ_cons, List.drop_succ_cons, List.drop_zero] at hrest
          subst hoffset hstop
          have hsum := congrArg List.length hrest
          rw [List.length_append, List.length_append] at hsum
          obtain ⟨frames, hframes, hall, hequal, hsplit⟩ := (layoutFrames_iff
            (by simp only [List.length_cons]; omega) (Nat.le_add_right _ _)
            (Nat.one_le_iff_ne_zero.mpr hpos)).mp h
          rw [hbody hrest] at hsplit
          refine ⟨frames, decide (control.toNat / 128 ≠ 0), padding, ⟨by omega, ?_, fun hfalse => ?_⟩,
            hall, ?_⟩
          · rw [hframes]
            omega
          · exact hequal (hvariable.mpr (not_not.mp (of_decide_eq_false hfalse)))
          · rw [OpusLayout.encode, (controlByte_eq_iff (by omega)).mpr ⟨hframes,
              hsome.trans hpadding, by simp⟩, hrest, hsplit]
            by_cases hzero : control.toNat / 128 = 0
            · rw [if_pos (hvariable.mpr hzero), if_neg (by simp [hzero])]
            · rw [if_neg (fun h => hzero (hvariable.mp h)), if_pos (by simp [hzero])]
        · rintro ⟨frames, variableLength, padding, ⟨hone, hle, hequal⟩, hall, hencode⟩
          obtain ⟨hcontrol, hrest⟩ := List.cons.inj hencode
          obtain ⟨hframes, hsome, hfalse⟩ := (controlByte_eq_iff (hshort frames hle)).mp hcontrol
          have hsum := congrArg List.length hrest
          rw [List.length_append, List.length_append] at hsum
          have hnext := (padding_iff hpacket).mpr ⟨padding, _, hsome.trans hpadding.symm, hrest.symm,
            rfl, rfl⟩
          rw [hnext]
          refine (layoutFrames_iff (by simp only [List.length_cons]; omega) (Nat.le_add_right _ _)
            (Nat.one_le_iff_ne_zero.mpr hpos)).mpr ⟨frames, hframes, hall, fun h => ?_, ?_⟩
          · exact hequal (hfalse.mpr (hvariable.mp h))
          · rw [hbody hrest.symm]
            cases variableLength with
            | false => rw [if_pos (hvariable.mpr (hfalse.mp rfl)), if_neg Bool.false_ne_true]
            | true =>
                rw [if_neg (fun h => Bool.noConfusion (hfalse.mpr (hvariable.mp h))), if_pos rfl]

/-! ## The verdict -/

/-- The packets that are accepted. -/
theorem matchesOpusPacketFraming_iff (packet : Bytes) :
    matchesOpusPacketFraming packet = true ↔
      packet.length ≤ maxAudioPacketBytes ∧ ∃ parts : OpusPacket, parts.encode = packet := by
  cases packet with
  | nil =>
      refine iff_of_false (fun h => nomatch h) ?_
      rintro ⟨-, parts, hencode⟩
      cases hencode
  | cons toc rest =>
      have hlt := toc.toNat_lt
      have hcode : toc.toNat &&& 3 = toc.toNat % 4 := and_two_pow_sub_one _ 2
      have hconfig : toc.toNat >>> 3 = toc.toNat / 8 := Nat.shiftRight_eq_div_pow _ 3
      have hrest : (toc :: rest).length - 1 = rest.length := rfl
      rw [exists_packet_iff]
      unfold matchesOpusPacketFraming
      by_cases hlong : (toc :: rest).length > maxAudioPacketBytes
      · rw [if_pos (.inr hlong)]
        exact iff_of_false Bool.false_ne_true fun h => Nat.not_le_of_lt hlong h.1
      have hbounds : ¬ ((toc :: rest).length = 0 ∨ (toc :: rest).length > maxAudioPacketBytes) :=
        not_or.mpr ⟨Nat.succ_ne_zero _, hlong⟩
      rw [if_neg hbounds, and_iff_right (Nat.le_of_not_lt hlong)]
      dsimp only
      rw [List.getD_cons_zero, hcode, hconfig, hrest]
      split_ifs with hzero hone hthree
      · rw [decide_eq_true_eq]
        constructor
        · intro hle
          exact ⟨.single rest, hzero.symm, trivial, by simpa [OpusLayout.frames] using hle, rfl⟩
        · rintro ⟨layout, hlayout, -, hall, rfl⟩
          rw [hzero] at hlayout
          cases layout with
          | single frame => exact hall frame (List.mem_singleton_self _)
          | equal _ _ => cases hlayout
          | pair _ _ => cases hlayout
          | many _ _ _ => cases hlayout
      · rw [Bool.and_eq_true, decide_eq_true_eq, decide_eq_true_eq,
          exists_equal_frames (Nat.le_succ 1)]
        constructor
        · rintro ⟨frames, hcount, hall, ⟨length, hlength⟩, rfl⟩
          obtain ⟨first, second, rfl⟩ := List.length_eq_two.mp hcount
          obtain ⟨hfirst, hsecond⟩ := List.forall_mem_cons.mp hlength
          have hequal : first.length = second.length :=
            hfirst.trans (hsecond second (List.mem_singleton_self _)).symm
          exact ⟨.equal first second, hone.symm, hequal, hall, by simp [OpusLayout.encode]⟩
        · rintro ⟨layout, hlayout, hlegal, hall, rfl⟩
          rw [hone] at hlayout
          cases layout with
          | single _ => cases hlayout
          | equal first second =>
              refine ⟨[first, second], rfl, hall, ⟨second.length, ?_⟩, by simp [OpusLayout.encode]⟩
              exact List.forall_mem_cons.mpr ⟨hlegal, by simp⟩
          | pair _ _ => cases hlayout
          | many _ _ _ => cases hlayout
      · rw [matchesFrameCount_iff (by omega)]
        constructor
        · rintro ⟨frames, variableLength, padding, hlegal, hall, hencode⟩
          exact ⟨.many frames variableLength padding, hthree.symm, hlegal, hall, hencode⟩
        · rintro ⟨layout, hlayout, hlegal, hall, hencode⟩
          rw [hthree] at hlayout
          cases layout with
          | single _ => cases hlayout
          | equal _ _ => cases hlayout
          | pair _ _ => cases hlayout
          | many frames variableLength padding =>
              exact ⟨frames, variableLength, padding, hlegal, hall, hencode⟩
      · rw [matchesFrameLengths_iff (Nat.le_refl _) (by rw [List.length_cons]; omega)
          (Nat.le_succ 1), List.take_length, List.drop_one, List.tail_cons]
        constructor
        · rintro ⟨frames, hcount, hall, rfl⟩
          obtain ⟨first, second, rfl⟩ := List.length_eq_two.mp hcount
          refine ⟨.pair first second, ?_, trivial, hall,
            by simp [OpusLayout.encode, frameLengthsBytes]⟩
          rw [OpusLayout.code]
          omega
        · rintro ⟨layout, hlayout, -, hall, rfl⟩
          cases layout with
          | single _ => exact absurd hlayout.symm hzero
          | equal _ _ => exact absurd hlayout.symm hone
          | pair first second =>
              exact ⟨[first, second], rfl, hall, by simp [OpusLayout.encode, frameLengthsBytes]⟩
          | many _ _ _ => exact absurd hlayout.symm hthree

/-! ## One way to encode -/

/-- Padding is told apart, and from what stands before its bytes. -/
theorem OpusPadding.eq_of_encode {padding padding' : OpusPadding} {body body' : Bytes}
    (h : padding.lengthBytes ++ body ++ padding.bytes =
      padding'.lengthBytes ++ body' ++ padding'.bytes) :
    padding = padding' ∧ body = body' := by
  have hcount : ∀ {full full' : ℕ} {last last' : UInt8} {u v : Bytes}, last ≠ 255 → last' ≠ 255 →
      List.replicate full 255 ++ last :: u = List.replicate full' 255 ++ last' :: v →
      full = full' ∧ last = last' ∧ u = v := by
    intro full full' last last' u v hlast hlast' heq
    induction full generalizing full' with
    | zero =>
        cases full' with
        | zero => exact ⟨rfl, List.cons.inj heq⟩
        | succ full' => exact absurd (List.cons.inj heq).1 hlast
    | succ full ih =>
        cases full' with
        | zero => exact absurd (List.cons.inj heq).1.symm hlast'
        | succ full' =>
            obtain ⟨hfull, hrest⟩ := ih (List.cons.inj heq).2
            exact ⟨congrArg Nat.succ hfull, hrest⟩
  rw [lengthBytes, lengthBytes, List.append_assoc, List.append_assoc, List.append_assoc,
    List.append_assoc, List.singleton_append, List.singleton_append] at h
  obtain ⟨hfull, hlast, hrest⟩ := hcount padding.last_ne padding'.last_ne h
  have hlength : padding.bytes.length = padding'.bytes.length := by
    rw [padding.length_bytes, padding'.length_bytes, hfull, hlast]
  obtain ⟨hbody, hbytes⟩ := List.append_inj' hrest hlength
  exact ⟨OpusPadding.ext hfull hlast hbytes, hbody⟩

/-- Frames of any length are told apart by the lengths before them. -/
theorem frames_eq_of_lengths {frames frames' : List Bytes} (hcount : frames.length = frames'.length)
    (hall : ∀ frame ∈ frames, frame.length ≤ maxFrameBytes)
    (hall' : ∀ frame ∈ frames', frame.length ≤ maxFrameBytes)
    (h : frameLengthsBytes frames ++ frames.flatten = frameLengthsBytes frames' ++ frames'.flatten) :
    frames = frames' := by
  rcases List.eq_nil_or_concat' frames with rfl | ⟨init, last, rfl⟩
  · exact (List.eq_nil_of_length_eq_zero hcount.symm).symm
  rcases List.eq_nil_or_concat' frames' with rfl | ⟨init', last', rfl⟩
  · exact List.eq_nil_of_length_eq_zero hcount
  · have hinit := length_frame_le.mpr fun frame hmem => hall frame (List.mem_append_left _ hmem)
    have hinit' := length_frame_le.mpr fun frame hmem => hall' frame (List.mem_append_left _ hmem)
    rw [List.length_append, List.length_append] at hcount
    rw [frameLengthsBytes_concat, frameLengthsBytes_concat] at h
    obtain ⟨hlengths, hflatten⟩ := prefixFree_frameLengthBytes.flatten hinit hinit'
      (by rw [List.length_map, List.length_map]; exact Nat.add_right_cancel hcount) h
    refine flatten_inj_of_length hflatten ?_
    have hsum := congrArg List.length hflatten
    rw [List.length_flatten, List.length_flatten, List.map_append, List.map_append, hlengths,
      List.sum_append, List.sum_append, List.map_singleton, List.map_singleton, List.sum_singleton,
      List.sum_singleton] at hsum
    rw [List.map_append, List.map_append, hlengths, List.map_singleton, List.map_singleton,
      Nat.add_left_cancel hsum]

/-- Frames of one length are told apart by their number. -/
theorem frames_eq_of_equal {frames frames' : List Bytes} (hcount : frames.length = frames'.length)
    (hequal : ∃ length, ∀ frame ∈ frames, frame.length = length)
    (hequal' : ∃ length, ∀ frame ∈ frames', frame.length = length)
    (h : frames.flatten = frames'.flatten) : frames = frames' := by
  obtain ⟨length, hlength⟩ := hequal
  obtain ⟨length', hlength'⟩ := hequal'
  have hmap : frames.map List.length = List.replicate frames.length length :=
    List.eq_replicate_iff.mpr ⟨List.length_map .., List.forall_mem_map.mpr hlength⟩
  have hmap' : frames'.map List.length = List.replicate frames'.length length' :=
    List.eq_replicate_iff.mpr ⟨List.length_map .., List.forall_mem_map.mpr hlength'⟩
  refine flatten_inj_of_length h ?_
  rw [hmap, hmap', ← hcount]
  rcases Nat.eq_zero_or_pos frames.length with hzero | hpos
  · rw [hzero]
    rfl
  · have hsum := congrArg List.length h
    rw [List.length_flatten, List.length_flatten, hmap, hmap', List.sum_replicate_nat,
      List.sum_replicate_nat, ← hcount] at hsum
    rw [Nat.eq_of_mul_eq_mul_left hpos hsum]

/-- Two layouts of one code are told apart. -/
theorem OpusLayout.eq_of_encode {layout layout' : OpusLayout} {duration : ℕ}
    (hduration : 25 ≤ duration) (hcode : layout.code = layout'.code) (hlegal : layout.Legal duration)
    (hlegal' : layout'.Legal duration)
    (hall : ∀ frame ∈ layout.frames, frame.length ≤ maxFrameBytes)
    (hall' : ∀ frame ∈ layout'.frames, frame.length ≤ maxFrameBytes)
    (h : layout.encode = layout'.encode) : layout = layout' := by
  have hshort : ∀ frames : List Bytes, duration * frames.length ≤ 1200 → frames.length < 64 := by
    intro frames hle
    have hmul := Nat.mul_le_mul_right frames.length hduration
    omega
  cases layout with
  | single frame =>
      cases layout' with
      | single frame' => exact congrArg single h
      | equal _ _ | pair _ _ | many _ _ _ => cases hcode
  | equal first second =>
      cases layout' with
      | equal first' second' =>
          have hsum := congrArg List.length h
          simp only [encode, List.length_append] at hsum
          simp only [Legal] at hlegal hlegal'
          obtain ⟨rfl, rfl⟩ := List.append_inj h (by omega)
          rfl
      | single _ | pair _ _ | many _ _ _ => cases hcode
  | pair first second =>
      cases layout' with
      | pair first' second' =>
          obtain ⟨hlength, hrest⟩ := prefixFree_frameLengthBytes _ _ _ _
            (hall first List.mem_cons_self) (hall' first' List.mem_cons_self) h
          obtain ⟨rfl, rfl⟩ := List.append_inj hrest hlength
          rfl
      | single _ | equal _ _ | many _ _ _ => cases hcode
  | many frames variableLength padding =>
      cases layout' with
      | many frames' variableLength' padding' =>
          obtain ⟨-, hle, hequal⟩ := hlegal
          obtain ⟨-, hle', hequal'⟩ := hlegal'
          obtain ⟨hcontrol, hrest⟩ := List.cons.inj h
          have hcounts := (controlByte_eq_iff (hshort frames hle)).mp
            (rfl : controlByte frames variableLength padding = _)
          have hcounts' := (controlByte_eq_iff (hshort frames' hle')).mp hcontrol.symm
          have hcount : frames.length = frames'.length := hcounts.1.trans hcounts'.1.symm
          have hsome : padding.isSome = true ↔ padding'.isSome = true :=
            hcounts.2.1.trans hcounts'.2.1.symm
          obtain rfl : variableLength = variableLength' := by
            have hfalse := hcounts.2.2.trans hcounts'.2.2.symm
            cases variableLength with
            | false => exact (hfalse.mp rfl).symm
            | true => exact (Bool.eq_true_of_not_eq_false fun h => nomatch hfalse.mpr h).symm
          have hbodies : padding = padding' ∧
              (if variableLength then frameLengthsBytes frames else []) ++ frames.flatten =
                (if variableLength then frameLengthsBytes frames' else []) ++ frames'.flatten := by
            cases padding with
            | none =>
                cases padding' with
                | none =>
                    simp only [Option.elim_none, List.nil_append, List.append_nil] at hrest
                    exact ⟨rfl, hrest⟩
                | some _ => exact absurd (hsome.mpr rfl) Bool.false_ne_true
            | some padding =>
                cases padding' with
                | none => exact absurd (hsome.mp rfl) Bool.false_ne_true
                | some padding' =>
                    obtain ⟨rfl, hbody⟩ := OpusPadding.eq_of_encode hrest
                    exact ⟨rfl, hbody⟩
          obtain ⟨hpadding, hbody⟩ := hbodies
          have hframes : frames = frames' := by
            cases variableLength with
            | true => exact frames_eq_of_lengths hcount hall hall' hbody
            | false => exact frames_eq_of_equal hcount (hequal rfl) (hequal' rfl) hbody
          rw [hframes, hpadding]
      | single _ | equal _ _ | pair _ _ => cases hcode

/-- Different packets have different bytes. -/
theorem OpusPacket.encode_injective : Function.Injective OpusPacket.encode := by
  rintro ⟨config, stereo, layout, hconfig, hlegal, hall⟩
    ⟨config', stereo', layout', hconfig', hlegal', hall'⟩ heq
  obtain ⟨htoc, hrest⟩ := List.cons.inj heq
  have hcode : layout.code ≤ 3 := by cases layout <;> simp [OpusLayout.code]
  have hcode' : layout'.code ≤ 3 := by cases layout' <;> simp [OpusLayout.code]
  have hstereo := stereo.toNat_le
  have hstereo' := stereo'.toNat_le
  have hnat := congrArg UInt8.toNat htoc
  rw [UInt8.toNat_ofNat', UInt8.toNat_ofNat'] at hnat
  dsimp only at hnat
  obtain rfl : config = config' := by omega
  obtain rfl : stereo = stereo' := by
    rw [Bool.eq_iff_iff, ← Bool.toNat_eq_one, ← Bool.toNat_eq_one]
    omega
  obtain rfl := OpusLayout.eq_of_encode (frameDuration_pos hconfig) (by omega) hlegal hlegal' hall
    hall' hrest
  rfl

/-- **Opus packets** that are accepted are the encodings of their parts within the limit, and no packet
is encoded in two ways. -/
theorem opus_packet_framing :
    (∀ packet, matchesOpusPacketFraming packet = true ↔
      packet.length ≤ maxAudioPacketBytes ∧ ∃! parts : OpusPacket, parts.encode = packet) ∧
    ∀ parts : OpusPacket, parts.encode.length ≤ maxAudioPacketBytes →
      matchesOpusPacketFraming parts.encode = true := by
  refine ⟨fun packet => ?_, fun parts hle =>
    (matchesOpusPacketFraming_iff _).mpr ⟨hle, parts, rfl⟩⟩
  rw [matchesOpusPacketFraming_iff]
  refine and_congr_right fun _ => ⟨?_, ExistsUnique.exists⟩
  rintro ⟨parts, rfl⟩
  exact ⟨parts, rfl, fun parts' heq => OpusPacket.encode_injective heq⟩

end ApiWhatsApp
