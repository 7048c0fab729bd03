import ApiWhatsApp.Library.Bytes

/-!
# MPEG audio files

`matchesMpegAudioStructure` of `media/media-audio-structure.ts`: an optional tag, frames whose lengths
follow from their headers, and an optional block of 128 bytes at the end.

* `MpegHeader` has the fields of a header; `MpegHeader.frameBytes` is the length of the frame as it
  follows from them. `Id3v2Tag` is the tag, `MpegAudio` the whole of a file.
* **`mpeg_audio_structure`** — the files that are accepted are the encodings of an `MpegAudio` that
  has the block exactly where the file says `TAG`; every frame is four bytes or longer, so the loop
  moves on, and never reads a header from the block.
-/

namespace ApiWhatsApp

open Library

/-! ## The validator -/

/-- Source: `MPEG1_LAYER1_BITRATES`. -/
def mpeg1Layer1Bitrates : List ℕ :=
  [0, 32, 64, 96, 128, 160, 192, 224, 256, 288, 320, 352, 384, 416, 448, 0]

/-- Source: `MPEG1_LAYER2_BITRATES`. -/
def mpeg1Layer2Bitrates : List ℕ :=
  [0, 32, 48, 56, 64, 80, 96, 112, 128, 160, 192, 224, 256, 320, 384, 0]

/-- Source: `MPEG1_LAYER3_BITRATES`. -/
def mpeg1Layer3Bitrates : List ℕ :=
  [0, 32, 40, 48, 56, 64, 80, 96, 112, 128, 160, 192, 224, 256, 320, 0]

/-- Source: `MPEG2_LAYER1_BITRATES`. -/
def mpeg2Layer1Bitrates : List ℕ :=
  [0, 32, 48, 56, 64, 80, 96, 112, 128, 144, 160, 176, 192, 224, 256, 0]

/-- Source: `MPEG2_LAYER23_BITRATES`. -/
def mpeg2Layer23Bitrates : List ℕ :=
  [0, 8, 16, 24, 32, 40, 48, 56, 64, 80, 96, 112, 128, 144, 160, 0]

/-- Source: `MPEG1_SAMPLE_RATES`. -/
def mpeg1SampleRates : List ℕ := [44100, 48000, 32000]

/-- Source: `MP3_ID3V1_BYTES`. -/
def mp3Id3v1Bytes : ℕ := 128

/-- Source: `MP3_MAX_FRAMES`. -/
def mp3MaxFrames : ℕ := 100000

/-- Source: `mpegBitrateKbps`. -/
def mpegBitrateKbps (mpeg1 : Bool) (layer index : ℕ) : ℕ :=
  if mpeg1 then
    if layer = 1 then mpeg1Layer1Bitrates.getD index 0
    else if layer = 2 then mpeg1Layer2Bitrates.getD index 0
    else mpeg1Layer3Bitrates.getD index 0
  else if layer = 1 then mpeg2Layer1Bitrates.getD index 0
  else mpeg2Layer23Bitrates.getD index 0

/-- Source: `mpegAudioFrameLength`. -/
def mpegAudioFrameLength : Bytes → Option ℕ
  | b0 :: b1 :: b2 :: b3 :: _ =>
      if b0 ≠ 0xff ∨ b1.toNat &&& 0xe0 ≠ 0xe0 then none
      else
        let versionBits := (b1.toNat >>> 3) &&& 0x03
        let layerBits := (b1.toNat >>> 1) &&& 0x03
        let bitrateIndex := (b2.toNat >>> 4) &&& 0x0f
        let sampleRateIndex := (b2.toNat >>> 2) &&& 0x03
        let padding := (b2.toNat >>> 1) &&& 0x01
        let emphasis := b3.toNat &&& 0x03
        if versionBits = 1 ∨ layerBits = 0 ∨ bitrateIndex = 0 ∨ bitrateIndex = 0x0f ∨
            sampleRateIndex = 0x03 ∨ emphasis = 0x02 then none
        else
          let mpeg1 : Bool := versionBits = 3
          let layer := 4 - layerBits
          let bitrateKbps := mpegBitrateKbps mpeg1 layer bitrateIndex
          let sampleRateBase := mpeg1SampleRates.getD sampleRateIndex 0
          if bitrateKbps = 0 ∨ sampleRateBase = 0 then none
          else
            let sampleRate :=
              if versionBits = 3 then sampleRateBase
              else if versionBits = 2 then sampleRateBase / 2
              else sampleRateBase / 4
            let bitrate := bitrateKbps * 1000
            if layer = 1 then some ((12 * bitrate / sampleRate + padding) * 4)
            else if layer = 3 ∧ !mpeg1 then some (72 * bitrate / sampleRate + padding)
            else some (144 * bitrate / sampleRate + padding)
  | _ => none

/-- The tag at the start of the file: where it ends, `none` for a tag that is refused. -/
def mpegTagEnd (file : Bytes) : Option ℕ :=
  if readExactly file (min 3 file.length) 0 = some (asciiBytes "ID3") then
    match readExactly file 10 0 with
    | none => none
    | some id3Header =>
        let majorVersion := (id3Header.getD 3 0).toNat
        let revision := id3Header.getD 4 0xff
        if majorVersion < 2 ∨ majorVersion > 4 ∨ revision = 0xff then none
        else
          let sizeBytes := (id3Header.drop 6).take 4
          if sizeBytes.any fun value => value.toNat &&& 0x80 ≠ 0 then none
          else
            let tagPayloadBytes :=
              (sizeBytes.getD 0 0).toNat <<< 21 ||| (sizeBytes.getD 1 0).toNat <<< 14 |||
                (sizeBytes.getD 2 0).toNat <<< 7 ||| (sizeBytes.getD 3 0).toNat
            let footerBytes :=
              if majorVersion = 4 ∧ (id3Header.getD 5 0).toNat &&& 0x10 ≠ 0 then 10 else 0
            let offset := 10 + tagPayloadBytes + footerBytes
            if offset > file.length - 4 then none else some offset
  else some 0

/-- Where the frames end. -/
def mpegAudioEnd (file : Bytes) (offset : ℕ) : ℕ :=
  if file.length - offset ≥ mp3Id3v1Bytes ∧
      readExactly file 3 (file.length - mp3Id3v1Bytes) = some (asciiBytes "TAG") then
    file.length - mp3Id3v1Bytes
  else file.length

/-- One round of the loop in `matchesMpegAudioStructure`: the bytes of the frame. -/
def mpegFrame (file : Bytes) (audioEnd : ℕ) (_ : Unit) (offset : ℕ) : Except Bool (ℕ × Unit) :=
  match readExactly file 4 offset with
  | none => .error false
  | some header =>
      match mpegAudioFrameLength header with
      | none => .error false
      | some frameBytes =>
          if offset + frameBytes > audioEnd then .error false else .ok (frameBytes, ())

/-- Source: `matchesMpegAudioStructure`. -/
def matchesMpegAudioStructure (file : Bytes) : Bool :=
  if file.length < 4 then false
  else
    match mpegTagEnd file with
    | none => false
    | some offset =>
        let audioEnd := mpegAudioEnd file offset
        scanAll (mpegFrame file audioEnd) audioEnd mp3MaxFrames () offset

/-! ## Headers -/

/-- The versions that have a code. -/
inductive MpegVersion where
  | mpeg1
  | mpeg2
  | mpeg25

/-- The layers that have a code. -/
inductive MpegLayer where
  | layer1
  | layer2
  | layer3

/-- The two bits of a version. -/
def MpegVersion.bits : MpegVersion → ℕ
  | mpeg1 => 3
  | mpeg2 => 2
  | mpeg25 => 0

/-- Sample rates are those of MPEG 1, divided. -/
def MpegVersion.divisor : MpegVersion → ℕ
  | mpeg1 => 1
  | mpeg2 => 2
  | mpeg25 => 4

/-- The two bits of a layer. -/
def MpegLayer.bits : MpegLayer → ℕ
  | layer1 => 3
  | layer2 => 2
  | layer3 => 1

/-- The header of a frame. -/
structure MpegHeader where
  version : MpegVersion
  layer : MpegLayer
  unprotected : Bool
  bitrateIndex : ℕ
  sampleRateIndex : ℕ
  padding : Bool
  privateBit : Bool
  /-- Channels, copyright and original. -/
  modes : ℕ
  emphasis : ℕ
  bitrate_pos : 1 ≤ bitrateIndex
  bitrate_le : bitrateIndex ≤ 14
  sampleRate_lt : sampleRateIndex < 3
  modes_lt : modes < 64
  emphasis_lt : emphasis < 4
  emphasis_ne : emphasis ≠ 2

namespace MpegHeader

variable (header : MpegHeader)

/-- `1111 1111 | 111 version layer unprotected | bitrate rate padding private | modes emphasis`. -/
def encode : Bytes :=
  [0xff, UInt8.ofNat (0xe0 + header.version.bits * 8 + header.layer.bits * 2 +
      header.unprotected.toNat),
    UInt8.ofNat (header.bitrateIndex * 16 + header.sampleRateIndex * 4 + header.padding.toNat * 2 +
      header.privateBit.toNat),
    UInt8.ofNat (header.modes * 4 + header.emphasis)]

/-- The bitrates that the index chooses from. -/
def bitrates : List ℕ :=
  match header.version, header.layer with
  | .mpeg1, .layer1 => mpeg1Layer1Bitrates
  | .mpeg1, .layer2 => mpeg1Layer2Bitrates
  | .mpeg1, .layer3 => mpeg1Layer3Bitrates
  | _, .layer1 => mpeg2Layer1Bitrates
  | _, _ => mpeg2Layer23Bitrates

/-- Bits in a second. -/
def bitrate : ℕ := header.bitrates.getD header.bitrateIndex 0 * 1000

/-- Samples in a second. -/
def sampleRate : ℕ := mpeg1SampleRates.getD header.sampleRateIndex 0 / header.version.divisor

/-- Samples in a frame. -/
def samples : ℕ :=
  match header.version, header.layer with
  | _, .layer1 => 384
  | .mpeg1, .layer3 => 1152
  | _, .layer3 => 576
  | _, .layer2 => 1152

/-- The unit of a length, which is also the length of padding. -/
def slotBytes : ℕ :=
  match header.layer with
  | .layer1 => 4
  | _ => 1

/-- The length of the frame, its header included. -/
def frameBytes : ℕ :=
  (header.samples / 8 / header.slotBytes * header.bitrate / header.sampleRate +
    header.padding.toNat) * header.slotBytes

/-- A header is four bytes. -/
@[simp] theorem length_encode : header.encode.length = 4 := rfl

/-- The second byte, by its fields. -/
theorem byte1_spec : ∀ n < 256, n &&& 0xe0 = 0xe0 →
    n = 0xe0 + ((n >>> 3) &&& 0x03) * 8 + ((n >>> 1) &&& 0x03) * 2 + n % 2 := by
  decide +kernel

/-- The third byte, by its fields. -/
theorem byte2_spec : ∀ n < 256,
    n = ((n >>> 4) &&& 0x0f) * 16 + ((n >>> 2) &&& 0x03) * 4 + ((n >>> 1) &&& 0x01) * 2 + n % 2 := by
  decide +kernel

/-- The last byte, by its emphasis. -/
theorem byte3_spec : ∀ n < 256, n = n / 4 * 4 + (n &&& 0x03) := by
  decide +kernel

/-- The fields of the second byte are read back. -/
theorem fields_byte1 : ∀ version < 4, ∀ layer < 4, ∀ unprotected : Bool,
    let n := (UInt8.ofNat (0xe0 + version * 8 + layer * 2 + unprotected.toNat)).toNat
    n &&& 0xe0 = 0xe0 ∧ (n >>> 3) &&& 0x03 = version ∧ (n >>> 1) &&& 0x03 = layer := by
  decide

/-- The fields of the third byte are read back. -/
theorem fields_byte2 : ∀ bitrate < 16, ∀ sampleRate < 4, ∀ padding privateBit : Bool,
    let n := (UInt8.ofNat (bitrate * 16 + sampleRate * 4 + padding.toNat * 2 +
      privateBit.toNat)).toNat
    (n >>> 4) &&& 0x0f = bitrate ∧ (n >>> 2) &&& 0x03 = sampleRate ∧
      (n >>> 1) &&& 0x01 = padding.toNat := by
  decide

/-- The emphasis is read back. -/
theorem fields_byte3 : ∀ modes < 64, ∀ emphasis < 4,
    (UInt8.ofNat (modes * 4 + emphasis)).toNat &&& 0x03 = emphasis := by
  decide

/-- Every index that is allowed has a bit rate. -/
theorem bitrates_pos : ∀ i < 15, 1 ≤ i → header.bitrates.getD i 0 ≠ 0 := by
  unfold bitrates
  cases header.version <;> cases header.layer <;> decide

/-- Every index that is allowed has a sampling rate. -/
theorem mpeg1SampleRates_pos : ∀ i < 3, mpeg1SampleRates.getD i 0 ≠ 0 := by decide

/-- The bit rate of a header is the one of the table. -/
theorem mpegBitrateKbps_eq (index : ℕ) :
    mpegBitrateKbps (decide (header.version.bits = 3)) (4 - header.layer.bits) index =
      header.bitrates.getD index 0 := by
  unfold bitrates
  cases header.version <;> cases header.layer <;> rfl

/-- The sampling rate is halved from version to version. -/
theorem sampleRate_eq :
    header.sampleRate =
      if header.version.bits = 3 then mpeg1SampleRates.getD header.sampleRateIndex 0
      else if header.version.bits = 2 then mpeg1SampleRates.getD header.sampleRateIndex 0 / 2
      else mpeg1SampleRates.getD header.sampleRateIndex 0 / 4 := by
  unfold sampleRate
  cases header.version
  · exact Nat.div_one _
  · rfl
  · rfl

/-- The length of a frame, by its layer and version. -/
theorem frameBytes_eq :
    header.frameBytes =
      if 4 - header.layer.bits = 1 then
        (12 * header.bitrate / header.sampleRate + header.padding.toNat) * 4
      else if 4 - header.layer.bits = 3 ∧ !decide (header.version.bits = 3) then
        72 * header.bitrate / header.sampleRate + header.padding.toNat
      else 144 * header.bitrate / header.sampleRate + header.padding.toNat := by
  unfold frameBytes samples slotBytes
  cases header.version <;> cases header.layer <;> simp [MpegVersion.bits, MpegLayer.bits]

/-- The length that is computed from the bytes of a header is that of its fields. -/
theorem mpegAudioFrameLength_encode :
    mpegAudioFrameLength header.encode = some header.frameBytes := by
  have hbitrate := header.bitrates_pos header.bitrateIndex
    (Nat.lt_succ_of_le header.bitrate_le) header.bitrate_pos
  have hrate := mpeg1SampleRates_pos header.sampleRateIndex header.sampleRate_lt
  have hversion : header.version.bits < 4 ∧ header.version.bits ≠ 1 := by
    cases header.version <;> decide
  have hlayer : header.layer.bits < 4 ∧ header.layer.bits ≠ 0 := by
    cases header.layer <;> decide
  obtain ⟨hsync, hversionBits, hlayerBits⟩ :=
    fields_byte1 header.version.bits hversion.1 header.layer.bits hlayer.1 header.unprotected
  obtain ⟨hindex, hrates, hpadding⟩ := fields_byte2 header.bitrateIndex
    (Nat.lt_of_le_of_lt header.bitrate_le (by decide)) header.sampleRateIndex
    (Nat.lt_trans header.sampleRate_lt (by decide)) header.padding header.privateBit
  have hlast := fields_byte3 header.modes header.modes_lt header.emphasis header.emphasis_lt
  have hguard : ¬ (header.version.bits = 1 ∨ header.layer.bits = 0 ∨ header.bitrateIndex = 0 ∨
      header.bitrateIndex = 0x0f ∨ header.sampleRateIndex = 0x03 ∨ header.emphasis = 0x02) := by
    have hpos := header.bitrate_pos
    have hle := header.bitrate_le
    have hlt := header.sampleRate_lt
    have hne := header.emphasis_ne
    omega
  unfold mpegAudioFrameLength encode
  dsimp only
  rw [hsync, hversionBits, hlayerBits, hindex, hrates, hpadding, hlast, if_neg (by simp),
    if_neg hguard, mpegBitrateKbps_eq, if_neg (not_or.mpr ⟨hbitrate, hrate⟩), ← sampleRate_eq,
    frameBytes_eq, bitrate]
  split_ifs <;> rfl

/-- A bit is the remainder that it decides. -/
theorem toNat_decide_mod_two (n : ℕ) : (decide (n % 2 = 1)).toNat = n % 2 := by
  rcases Nat.mod_two_eq_zero_or_one n with h | h <;> rw [h] <;> rfl

/-- Every code but the reserved one is a version. -/
theorem exists_version {n : ℕ} (hlt : n < 4) (hne : n ≠ 1) : ∃ version : MpegVersion, version.bits = n := by
  obtain rfl | rfl | rfl : n = 3 ∨ n = 2 ∨ n = 0 := by omega
  · exact ⟨.mpeg1, rfl⟩
  · exact ⟨.mpeg2, rfl⟩
  · exact ⟨.mpeg25, rfl⟩

/-- Every code but the reserved one is a layer. -/
theorem exists_layer {n : ℕ} (hlt : n < 4) (hne : n ≠ 0) : ∃ layer : MpegLayer, layer.bits = n := by
  obtain rfl | rfl | rfl : n = 3 ∨ n = 2 ∨ n = 1 := by omega
  · exact ⟨.layer1, rfl⟩
  · exact ⟨.layer2, rfl⟩
  · exact ⟨.layer3, rfl⟩

/-- What has a length is a header. -/
theorem exists_header {bytes : Bytes} {frameBytes : ℕ} (hlength : bytes.length = 4)
    (h : mpegAudioFrameLength bytes = some frameBytes) :
    ∃ header : MpegHeader, bytes = header.encode ∧ frameBytes = header.frameBytes := by
  obtain ⟨b0, b1, b2, b3, rfl⟩ : ∃ b0 b1 b2 b3, bytes = [b0, b1, b2, b3] := by
    match bytes, hlength with
    | [b0, b1, b2, b3], _ => exact ⟨b0, b1, b2, b3, rfl⟩
  have hlength := h
  unfold mpegAudioFrameLength at hlength
  dsimp only at hlength
  have hsync : ¬ (b0 ≠ 0xff ∨ b1.toNat &&& 0xe0 ≠ 0xe0) := by
    intro hbad
    rw [if_pos hbad] at hlength
    cases hlength
  rw [if_neg hsync] at hlength
  have hguard : ¬ ((b1.toNat >>> 3) &&& 0x03 = 1 ∨ (b1.toNat >>> 1) &&& 0x03 = 0 ∨
      (b2.toNat >>> 4) &&& 0x0f = 0 ∨ (b2.toNat >>> 4) &&& 0x0f = 0x0f ∨
      (b2.toNat >>> 2) &&& 0x03 = 0x03 ∨ b3.toNat &&& 0x03 = 0x02) := by
    intro hbad
    rw [if_pos hbad] at hlength
    cases hlength
  clear hlength
  have hand : ∀ n, n &&& 0x03 < 4 := fun n => Nat.and_lt_two_pow n (by decide : 3 < 2 ^ 2)
  have hbitrate : b2.toNat >>> 4 &&& 0x0f < 16 := Nat.and_lt_two_pow _ (by decide : 15 < 2 ^ 4)
  have hrate := hand (b2.toNat >>> 2)
  have hmodes : b3.toNat / 4 < 64 := by
    have hb3 := b3.toNat_lt
    omega
  obtain ⟨version, hversion⟩ := exists_version (hand (b1.toNat >>> 3)) (by omega)
  obtain ⟨layer, hlayer⟩ := exists_layer (hand (b1.toNat >>> 1)) (by omega)
  obtain ⟨header, hheader⟩ : ∃ header : MpegHeader, [b0, b1, b2, b3] = header.encode := by
    refine ⟨⟨version, layer, decide (b1.toNat % 2 = 1), (b2.toNat >>> 4) &&& 0x0f,
      (b2.toNat >>> 2) &&& 0x03, decide ((b2.toNat >>> 1) % 2 = 1), decide (b2.toNat % 2 = 1),
      b3.toNat / 4, b3.toNat &&& 0x03, by omega, by omega, by omega, hmodes, hand _, by omega⟩, ?_⟩
    have hpadding : b2.toNat >>> 1 &&& 0x01 = b2.toNat >>> 1 % 2 := and_two_pow_sub_one _ 1
    have h1 := byte1_spec b1.toNat b1.toNat_lt (by omega)
    have h2 := byte2_spec b2.toNat b2.toNat_lt
    have h3 := byte3_spec b3.toNat b3.toNat_lt
    rw [hpadding] at h2
    unfold encode
    dsimp only
    rw [toNat_decide_mod_two, toNat_decide_mod_two, toNat_decide_mod_two, hversion, hlayer, ← h1,
      ← h2, ← h3, UInt8.ofNat_toNat, UInt8.ofNat_toNat, UInt8.ofNat_toNat,
      not_not.mp fun hne => hsync (.inl hne)]
  rw [hheader, mpegAudioFrameLength_encode] at h
  exact ⟨header, hheader, (Option.some.inj h).symm⟩

/-- **A frame is no shorter than its header.** -/
theorem four_le_frameBytes : 4 ≤ header.frameBytes := by
  have hall : ∀ i < 15, 1 ≤ i → ∀ j < 3, 4 ≤ (header.samples / 8 / header.slotBytes *
      (header.bitrates.getD i 0 * 1000) /
      (mpeg1SampleRates.getD j 0 / header.version.divisor)) * header.slotBytes := by
    unfold samples slotBytes bitrates
    cases header.version <;> cases header.layer <;> decide
  have hleast := hall header.bitrateIndex (Nat.lt_succ_of_le header.bitrate_le) header.bitrate_pos
    header.sampleRateIndex header.sampleRate_lt
  exact Nat.le_trans hleast (Nat.mul_le_mul_right _ (Nat.le_add_right _ _))

end MpegHeader

/-! ## Tags -/

/-- Seven bits in a byte. -/
def synchsafe (n : ℕ) : Bytes :=
  [UInt8.ofNat (n / 2 ^ 21 % 128), UInt8.ofNat (n / 2 ^ 14 % 128), UInt8.ofNat (n / 2 ^ 7 % 128),
    UInt8.ofNat (n % 128)]

/-- A tag at the start of a file, version 2.2 to 2.4. -/
structure Id3v2Tag where
  version : UInt8
  revision : UInt8
  flags : UInt8
  payload : Bytes
  /-- Only version 2.4 has one, if its flag is set. -/
  footer : Bytes
  two_le : 2 ≤ version.toNat
  le_four : version.toNat ≤ 4
  revision_ne : revision ≠ 0xff
  payload_lt : payload.length < 2 ^ 28
  footer_length : footer.length =
    if version.toNat = 4 ∧ flags.toNat &&& 0x10 ≠ 0 then 10 else 0

/-- The bytes of a tag. -/
def Id3v2Tag.encode (tag : Id3v2Tag) : Bytes :=
  asciiBytes "ID3" ++ [tag.version, tag.revision, tag.flags] ++ synchsafe tag.payload.length ++
    tag.payload ++ tag.footer

/-- The number that four bytes of seven bits hold. -/
theorem or_shiftLeft_eq {a b c d : ℕ} (hb : b < 128) (hc : c < 128) (hd : d < 128) :
    a <<< 21 ||| b <<< 14 ||| c <<< 7 ||| d = a * 2 ^ 21 + b * 2 ^ 14 + c * 2 ^ 7 + d := by
  have h1 : a <<< 21 ||| b <<< 14 = (a * 2 ^ 7 + b) <<< 14 := by
    rw [← Nat.shiftLeft_add_eq_or_of_lt (by rw [Nat.shiftLeft_eq]; omega)]
    simp only [Nat.shiftLeft_eq]
    omega
  have h2 : (a * 2 ^ 7 + b) <<< 14 ||| c <<< 7 = (a * 2 ^ 14 + b * 2 ^ 7 + c) <<< 7 := by
    rw [← Nat.shiftLeft_add_eq_or_of_lt (by rw [Nat.shiftLeft_eq]; omega)]
    simp only [Nat.shiftLeft_eq]
    omega
  rw [h1, h2, ← Nat.shiftLeft_add_eq_or_of_lt (by omega), Nat.shiftLeft_eq]
  omega

/-- A byte without its highest bit is below 128. -/
theorem and_high_bit : ∀ n < 256, n &&& 0x80 = 0 ↔ n < 128 := by decide +kernel

/-- What the validator makes of ten bytes that start with `ID3`. -/
theorem mpegTagEnd_append (v r f s0 s1 s2 s3 : UInt8) (after : Bytes) :
    mpegTagEnd (asciiBytes "ID3" ++ [v, r, f, s0, s1, s2, s3] ++ after) =
      if v.toNat < 2 ∨ v.toNat > 4 ∨ r = 0xff then none
      else if [s0, s1, s2, s3].any fun value => value.toNat &&& 0x80 ≠ 0 then none
      else
        let offset := 10 + (s0.toNat <<< 21 ||| s1.toNat <<< 14 ||| s2.toNat <<< 7 ||| s3.toNat) +
          if v.toNat = 4 ∧ f.toNat &&& 0x10 ≠ 0 then 10 else 0
        if offset > 10 + after.length - 4 then none else some offset := by
  have hlength : (asciiBytes "ID3" ++ [v, r, f, s0, s1, s2, s3] ++ after).length =
      10 + after.length := by
    rw [List.length_append]
    rfl
  have hthree : readExactly (asciiBytes "ID3" ++ [v, r, f, s0, s1, s2, s3] ++ after)
      (min 3 (10 + after.length)) 0 = some (asciiBytes "ID3") := by
    rw [Nat.min_eq_left (by omega)]
    exact readExactly_eq_some.mpr ⟨rfl, [v, r, f, s0, s1, s2, s3] ++ after, rfl⟩
  have hten : readExactly (asciiBytes "ID3" ++ [v, r, f, s0, s1, s2, s3] ++ after) 10 0 =
      some [0x49, 0x44, 0x33, v, r, f, s0, s1, s2, s3] :=
    readExactly_eq_some.mpr ⟨rfl, after, rfl⟩
  unfold mpegTagEnd
  rw [hlength, if_pos hthree, hten]
  rfl

/-- Without the mark there is no tag. -/
theorem mpegTagEnd_of_missing {file : Bytes} (h : ¬ asciiBytes "ID3" <+: file) :
    mpegTagEnd file = some 0 := by
  unfold mpegTagEnd
  rw [if_neg]
  intro hread
  obtain ⟨-, after, hfile⟩ := readExactly_eq_some.mp hread
  exact h ⟨after, hfile.symm⟩

/-- A tag that is encoded ends where its encoding does. -/
theorem mpegTagEnd_encode (tag : Id3v2Tag) {rest : Bytes} (hrest : 4 ≤ rest.length) :
    mpegTagEnd (tag.encode ++ rest) = some tag.encode.length := by
  have hbyte : ∀ n, (UInt8.ofNat (n % 128)).toNat = n % 128 := by
    intro n
    rw [UInt8.toNat_ofNat']
    omega
  have hpayload := tag.payload_lt
  have hsize : (tag.payload.length / 2 ^ 21 % 128) <<< 21 |||
      (tag.payload.length / 2 ^ 14 % 128) <<< 14 ||| (tag.payload.length / 2 ^ 7 % 128) <<< 7 |||
      tag.payload.length % 128 = tag.payload.length := by
    rw [or_shiftLeft_eq (Nat.mod_lt _ (by decide)) (Nat.mod_lt _ (by decide))
      (Nat.mod_lt _ (by decide))]
    omega
  have hlow : ((synchsafe tag.payload.length).any fun value => value.toNat &&& 0x80 ≠ 0) = false := by
    have hzero : ∀ n, n % 128 &&& 0x80 = 0 := fun n =>
      (and_high_bit (n % 128) (by omega)).mpr (Nat.mod_lt n (by decide))
    simp only [synchsafe, List.any_cons, List.any_nil, hbyte, hzero]
    rfl
  have hversion : ¬ (tag.version.toNat < 2 ∨ tag.version.toNat > 4 ∨ tag.revision = 0xff) := by
    rintro (hlt | hgt | hrevision)
    · exact Nat.not_lt.mpr tag.two_le hlt
    · exact Nat.not_lt.mpr tag.le_four hgt
    · exact tag.revision_ne hrevision
  have hencode : tag.encode ++ rest = asciiBytes "ID3" ++
      ([tag.version, tag.revision, tag.flags] ++ synchsafe tag.payload.length) ++
      (tag.payload ++ tag.footer ++ rest) := by
    simp only [Id3v2Tag.encode, List.append_assoc]
  have hlength : tag.encode.length = 10 + tag.payload.length + tag.footer.length := by
    simp only [Id3v2Tag.encode, List.length_append]
    rfl
  have hend := mpegTagEnd_append tag.version tag.revision tag.flags
    (UInt8.ofNat (tag.payload.length / 2 ^ 21 % 128)) (UInt8.ofNat (tag.payload.length / 2 ^ 14 % 128))
    (UInt8.ofNat (tag.payload.length / 2 ^ 7 % 128)) (UInt8.ofNat (tag.payload.length % 128))
    (tag.payload ++ tag.footer ++ rest)
  rw [hencode]
  refine hend.trans ?_
  rw [if_neg hversion, if_neg (by rw [← synchsafe, hlow]; exact Bool.false_ne_true)]
  dsimp only
  rw [hbyte, hbyte, hbyte, hbyte, hsize, ← tag.footer_length, ← hlength, List.length_append,
    List.length_append, if_neg (by omega)]

/-- **A tag that is accepted** is one of `Id3v2Tag`, with four bytes behind it. -/
theorem exists_id3v2Tag {file : Bytes} {offset : ℕ} (hfour : 4 ≤ file.length)
    (h : mpegTagEnd file = some offset) (hid3 : asciiBytes "ID3" <+: file) :
    ∃ (tag : Id3v2Tag) (rest : Bytes), file = tag.encode ++ rest ∧ offset = tag.encode.length := by
  obtain ⟨seven, after, hseven, rfl⟩ : ∃ seven after : Bytes, seven.length = 7 ∧
      file = asciiBytes "ID3" ++ seven ++ after := by
    obtain ⟨rest, rfl⟩ := hid3
    rcases Nat.lt_or_ge rest.length 7 with hshort | hlong
    · exfalso
      have hten : readExactly (asciiBytes "ID3" ++ rest) 10 0 = none := by
        rw [readExactly, List.drop_zero, takeExactly_eq_none, List.length_append]
        exact Nat.add_lt_add_left hshort 3
      unfold mpegTagEnd at h
      rw [hten] at h
      split_ifs at h with hread
      refine hread (readExactly_eq_some.mpr ⟨?_, rest, List.drop_zero ..⟩)
      rw [Nat.min_eq_left (by omega)]
      rfl
    · exact ⟨rest.take 7, rest.drop 7, List.length_take_of_le hlong, by
        rw [List.append_assoc, List.take_append_drop]⟩
  match seven, hseven with
  | [v, r, f, s0, s1, s2, s3], _ =>
    rw [mpegTagEnd_append] at h
    generalize hfooter : (if v.toNat = 4 ∧ f.toNat &&& 0x10 ≠ 0 then 10 else 0) = footerBytes at h
    dsimp only at h
    split_ifs at h with hversion hbits hend
    have hlow : ∀ value ∈ [s0, s1, s2, s3], value.toNat < 128 := by
      intro value hmem
      refine (and_high_bit value.toNat value.toNat_lt).mp (not_not.mp fun hne => hbits ?_)
      exact List.any_eq_true.mpr ⟨value, hmem, decide_eq_true hne⟩
    simp only [List.forall_mem_cons] at hlow
    obtain ⟨h0, h1, h2, h3, -⟩ := hlow
    rw [or_shiftLeft_eq h1 h2 h3] at h hend
    generalize hsize : s0.toNat * 2 ^ 21 + s1.toNat * 2 ^ 14 + s2.toNat * 2 ^ 7 + s3.toNat = size
      at h hend
    have hsynchsafe : synchsafe size = [s0, s1, s2, s3] := by
      have h0' : size / 2 ^ 21 % 128 = s0.toNat := by omega
      have h1' : size / 2 ^ 14 % 128 = s1.toNat := by omega
      have h2' : size / 2 ^ 7 % 128 = s2.toNat := by omega
      have h3' : size % 128 = s3.toNat := by omega
      rw [synchsafe, h0', h1', h2', h3', UInt8.ofNat_toNat, UInt8.ofNat_toNat, UInt8.ofNat_toNat,
        UInt8.ofNat_toNat]
    have hpayload : (after.take size).length = size := List.length_take_of_le (by omega)
    have hlength : ((after.drop size).take footerBytes).length = footerBytes := by
      rw [List.length_take_of_le]
      rw [List.length_drop]
      omega
    let tag : Id3v2Tag := ⟨v, r, f, after.take size, (after.drop size).take footerBytes, by omega,
      by omega, fun hrevision => hversion (.inr (.inr hrevision)), by omega, by omega⟩
    have hencode : tag.encode = asciiBytes "ID3" ++ [v, r, f, s0, s1, s2, s3] ++
        after.take (size + footerBytes) := by
      unfold Id3v2Tag.encode
      dsimp only [tag]
      rw [hpayload, hsynchsafe, List.take_add, List.append_assoc, List.append_assoc,
        List.append_assoc, List.append_assoc]
      simp only [List.cons_append, List.nil_append]
    refine ⟨tag, after.drop (size + footerBytes), ?_, ?_⟩
    · rw [hencode, List.append_assoc _ _ (after.drop _), List.take_append_drop]
    · cases h
      rw [hencode, List.length_append, List.length_take_of_le (by omega), ← Nat.add_assoc]
      rfl

/-! ## Files -/

/-- A frame. -/
structure MpegFrame where
  header : MpegHeader
  body : Bytes
  length : header.encode.length + body.length = header.frameBytes

/-- The bytes of a frame. -/
def MpegFrame.encode (frame : MpegFrame) : Bytes := frame.header.encode ++ frame.body

/-- The block at the end of a file. -/
structure Id3v1Block where
  content : Bytes
  length : (asciiBytes "TAG").length + content.length = mp3Id3v1Bytes

/-- The bytes of a block. -/
def Id3v1Block.encode (block : Id3v1Block) : Bytes := asciiBytes "TAG" ++ block.content

/-- A file of MPEG audio. -/
structure MpegAudio where
  tag : Option Id3v2Tag
  frames : List MpegFrame
  block : Option Id3v1Block
  pos : 1 ≤ frames.length
  lt : frames.length < mp3MaxFrames

namespace MpegAudio

/-- The bytes of the tag, if there is one. -/
def tagBytes (audio : MpegAudio) : Bytes := audio.tag.elim [] Id3v2Tag.encode

/-- The bytes of the frames. -/
def frameBytes (audio : MpegAudio) : Bytes := (audio.frames.map MpegFrame.encode).flatten

/-- The bytes of the block, if there is one. -/
def blockBytes (audio : MpegAudio) : Bytes := audio.block.elim [] Id3v1Block.encode

/-- The bytes of the file. -/
def encode (audio : MpegAudio) : Bytes := audio.tagBytes ++ audio.frameBytes ++ audio.blockBytes

end MpegAudio

/-- What follows the tag says `TAG` where the block would start. -/
def saysTag (rest : Bytes) : Prop :=
  mp3Id3v1Bytes ≤ rest.length ∧ asciiBytes "TAG" <+: rest.drop (rest.length - mp3Id3v1Bytes)

/-- The audio ends before the block, if there is one. -/
theorem mpegAudioEnd_eq (file : Bytes) (offset : ℕ) :
    (saysTag (file.drop offset) ∧ mpegAudioEnd file offset = file.length - mp3Id3v1Bytes) ∨
      (¬ saysTag (file.drop offset) ∧ mpegAudioEnd file offset = file.length) := by
  have htag : saysTag (file.drop offset) ↔ file.length - offset ≥ mp3Id3v1Bytes ∧
      readExactly file 3 (file.length - mp3Id3v1Bytes) = some (asciiBytes "TAG") := by
    have hpos : 0 < mp3Id3v1Bytes := by decide
    unfold saysTag
    rw [List.length_drop]
    refine and_congr_right fun hle => ?_
    rw [List.drop_drop, readExactly_eq_some, show offset + (file.length - offset - mp3Id3v1Bytes) =
      file.length - mp3Id3v1Bytes by omega]
    exact ⟨fun ⟨after, h⟩ => ⟨rfl, after, h.symm⟩, fun ⟨_, after, h⟩ => ⟨after, h.symm⟩⟩
  unfold mpegAudioEnd
  split_ifs with h
  · exact .inl ⟨htag.mpr h, rfl⟩
  · exact .inr ⟨fun hs => h (htag.mp hs), rfl⟩

/-- What the loop does with a frame. -/
theorem mpegFrame_eq_ok {file : Bytes} {audioEnd offset length : ℕ} {s s' : Unit} :
    mpegFrame file audioEnd s offset = .ok (length, s') ↔
      ∃ header : MpegHeader, readExactly file 4 offset = some header.encode ∧
        length = header.frameBytes ∧ offset + length ≤ audioEnd := by
  unfold mpegFrame
  constructor
  · intro h
    split at h
    · cases h
    rename_i header hread
    split at h
    · cases h
    rename_i frameBytes hframe
    split_ifs at h with hend
    cases h
    obtain ⟨header, rfl, rfl⟩ :=
      MpegHeader.exists_header (readExactly_eq_some.mp hread).1 hframe
    exact ⟨header, hread, rfl, Nat.not_lt.mp hend⟩
  · rintro ⟨header, hread, rfl, hend⟩
    rw [hread]
    dsimp only
    rw [header.mpegAudioFrameLength_encode]
    exact if_neg (Nat.not_lt.mpr hend)

/-- A round of the walk goes over a frame. -/
theorem scans_mpegFrame {file : Bytes} {audioEnd : ℕ} (hend : audioEnd ≤ file.length) :
    Scans (mpegFrame file audioEnd) (file.take audioEnd)
      fun _ item _ => ∃ frame : MpegFrame, item = frame.encode where
  sound {s offset length s'} h := by
    obtain ⟨header, hread, rfl, hle⟩ := mpegFrame_eq_ok.mp h
    obtain ⟨-, after, hdrop⟩ := readExactly_eq_some.mp hread
    have hbody : (after.take (header.frameBytes - 4)).length = header.frameBytes - 4 := by
      have hsum := congrArg List.length hdrop
      rw [List.length_drop, List.length_append, header.length_encode] at hsum
      rw [List.length_take_of_le]
      omega
    have hfour := header.four_le_frameBytes
    let frame : MpegFrame := ⟨header, after.take (header.frameBytes - 4), by
      rw [hbody, header.length_encode]
      omega⟩
    have hlength : frame.encode.length = header.frameBytes := by
      rw [MpegFrame.encode, List.length_append]
      exact frame.length
    have hframe : file.drop offset = frame.encode ++ after.drop (header.frameBytes - 4) := by
      rw [hdrop, MpegFrame.encode, List.append_assoc, List.take_append_drop]
    exact ⟨_, _, drop_take_of_drop hframe (by omega), hlength, frame, rfl⟩
  complete {s offset item after s'} hdrop hitem := by
    obtain ⟨frame, rfl⟩ := hitem
    obtain ⟨hfile, hle⟩ := drop_of_drop_take hdrop (List.cons_ne_nil _ _)
    have hlength : frame.encode.length = frame.header.frameBytes := by
      rw [MpegFrame.encode, List.length_append]
      exact frame.length
    refine mpegFrame_eq_ok.mpr ⟨frame.header, ?_, hlength, hle⟩
    rw [MpegFrame.encode, List.append_assoc] at hfile
    exact readExactly_of_drop hfile
  ne_nil {s item s'} hitem := by
    obtain ⟨frame, rfl⟩ := hitem
    exact List.cons_ne_nil _ _

/-- No round ends the walk with a success. -/
theorem mpegFrame_ne_error_true (file : Bytes) (audioEnd : ℕ) (s : Unit) (offset : ℕ) :
    mpegFrame file audioEnd s offset ≠ .error true := by
  unfold mpegFrame
  repeat' split
  all_goals rintro ⟨⟩

/-- The loop accepts a list of frames. -/
theorem scanAll_mpegFrame_iff {file : Bytes} {audioEnd offset : ℕ} (hend : audioEnd ≤ file.length)
    (hoffset : offset ≤ audioEnd) :
    scanAll (mpegFrame file audioEnd) audioEnd mp3MaxFrames () offset = true ↔
      ∃ frames : List MpegFrame,
        (file.take audioEnd).drop offset = (frames.map MpegFrame.encode).flatten ∧
        1 ≤ frames.length ∧ frames.length < mp3MaxFrames := by
  have hlength := List.length_take_of_le hend
  have hscan : scanAll (mpegFrame file audioEnd) (file.take audioEnd).length mp3MaxFrames () offset =
      true ↔ _ :=
    scanAll_encode_iff (scans_mpegFrame hend) (mpegFrame_ne_error_true file audioEnd)
      (hoffset.trans hlength.ge)
  rwa [hlength] at hscan

/-- The first frame starts with a byte that no tag starts with. -/
theorem not_id3_of_frames {frames : List MpegFrame} {after : Bytes} (hpos : 1 ≤ frames.length) :
    ¬ asciiBytes "ID3" <+: (frames.map MpegFrame.encode).flatten ++ after := by
  cases frames with
  | nil => exact absurd hpos (by decide)
  | cons frame frames =>
      rintro ⟨rest, hrest⟩
      have hfirst : (0x49 : UInt8) = 0xff := (List.cons.inj hrest).1
      exact absurd hfirst (by decide)

/-- A list of frames is no shorter than a header. -/
theorem four_le_frames {frames : List MpegFrame} (hpos : 1 ≤ frames.length) :
    4 ≤ (frames.map MpegFrame.encode).flatten.length := by
  cases frames with
  | nil => exact absurd hpos (by decide)
  | cons frame frames =>
      rw [List.map_cons, List.flatten_cons, List.length_append, MpegFrame.encode,
        List.length_append, frame.header.length_encode]
      omega

/-- What the validator makes of the start of a file. -/
theorem mpegTagEnd_iff {file : Bytes} {offset : ℕ} (hfour : 4 ≤ file.length) :
    mpegTagEnd file = some offset → ∃ (tag : Option Id3v2Tag) (rest : Bytes),
      file = tag.elim [] Id3v2Tag.encode ++ rest ∧ offset = (tag.elim [] Id3v2Tag.encode).length := by
  intro h
  by_cases hid3 : asciiBytes "ID3" <+: file
  · obtain ⟨tag, rest, hfile, hoffset⟩ := exists_id3v2Tag hfour h hid3
    exact ⟨some tag, rest, hfile, hoffset⟩
  · rw [mpegTagEnd_of_missing hid3] at h
    exact ⟨none, file, rfl, (Option.some.inj h).symm⟩

/-- **What is accepted**: a tag or none, frames, and the block where the file says so. -/
theorem matchesMpegAudioStructure_iff {file : Bytes} :
    matchesMpegAudioStructure file = true ↔ ∃ audio : MpegAudio, audio.encode = file ∧
      (audio.block.isSome ↔ saysTag (file.drop audio.tagBytes.length)) := by
  unfold matchesMpegAudioStructure
  constructor
  · intro h
    split_ifs at h with hfour
    split at h
    · cases h
    rename_i offset htag
    obtain ⟨tag, rest, hfile, rfl⟩ := mpegTagEnd_iff (Nat.not_lt.mp hfour) htag
    have hle : (tag.elim [] Id3v2Tag.encode).length ≤ file.length := by
      rw [hfile, List.length_append]
      omega
    have hrest : file.drop (tag.elim [] Id3v2Tag.encode).length = rest := by
      rw [hfile, List.drop_left]
    generalize hoffset : (tag.elim [] Id3v2Tag.encode).length = offset at *
    have hhead : file.take offset = tag.elim [] Id3v2Tag.encode := by
      rw [hfile, ← hoffset, List.take_left]
    rcases mpegAudioEnd_eq file offset with ⟨htag, hend⟩ | ⟨htag, hend⟩
    · rw [hend] at h
      have hlong : mp3Id3v1Bytes ≤ file.length - offset := by
        rw [← List.length_drop]
        exact htag.1
      obtain ⟨frames, hframes, hpos, hlt⟩ := (scanAll_mpegFrame_iff (by omega) (by omega)).mp h
      obtain ⟨content, hcontent⟩ := htag.2
      rw [List.drop_drop, List.length_drop, show offset + (file.length - offset - mp3Id3v1Bytes) =
        file.length - mp3Id3v1Bytes by omega] at hcontent
      have hblock := congrArg List.length hcontent
      rw [List.length_append, List.length_drop] at hblock
      refine ⟨⟨tag, frames, some ⟨content, by omega⟩, hpos, hlt⟩, ?_, ?_⟩
      · have hsplit : file.take offset ++ (file.take (file.length - mp3Id3v1Bytes)).drop offset =
            file.take (file.length - mp3Id3v1Bytes) := by
          have htake : file.take offset = (file.take (file.length - mp3Id3v1Bytes)).take offset := by
            rw [List.take_take, Nat.min_eq_left (by omega)]
          rw [htake, List.take_append_drop]
        change tag.elim [] Id3v2Tag.encode ++ (frames.map MpegFrame.encode).flatten ++
          (asciiBytes "TAG" ++ content) = file
        rw [hcontent, ← hframes, ← hhead, hsplit, List.take_append_drop]
      · change true = true ↔ saysTag (file.drop (tag.elim [] Id3v2Tag.encode).length)
        rw [hoffset]
        exact iff_of_true rfl htag
    · rw [hend] at h
      obtain ⟨frames, hframes, hpos, hlt⟩ := (scanAll_mpegFrame_iff le_rfl hle).mp h
      rw [List.take_length, hrest] at hframes
      refine ⟨⟨tag, frames, none, hpos, hlt⟩, ?_, ?_⟩
      · rw [hfile, hframes]
        exact List.append_nil _
      · change false = true ↔ saysTag (file.drop (tag.elim [] Id3v2Tag.encode).length)
        rw [hoffset]
        exact iff_of_false Bool.false_ne_true htag
  · rintro ⟨audio, rfl, hblock⟩
    have hfour := four_le_frames audio.pos
    have hlength : audio.encode.length =
        audio.tagBytes.length + audio.frameBytes.length + audio.blockBytes.length := by
      rw [MpegAudio.encode, List.length_append, List.length_append]
    have htag : mpegTagEnd audio.encode = some audio.tagBytes.length := by
      have hencode : audio.encode = audio.tagBytes ++ (audio.frameBytes ++ audio.blockBytes) :=
        List.append_assoc ..
      rw [hencode, MpegAudio.tagBytes]
      cases audio.tag with
      | none => exact mpegTagEnd_of_missing (not_id3_of_frames audio.pos)
      | some tag =>
          refine mpegTagEnd_encode tag ?_
          rw [List.length_append]
          exact hfour.trans (Nat.le_add_right _ _)
    have hdrop : audio.encode.drop audio.tagBytes.length = audio.frameBytes ++ audio.blockBytes := by
      rw [MpegAudio.encode, List.append_assoc, List.drop_left]
    have hend : mpegAudioEnd audio.encode audio.tagBytes.length =
        audio.tagBytes.length + audio.frameBytes.length := by
      rcases mpegAudioEnd_eq audio.encode audio.tagBytes.length with
        ⟨htag, hend⟩ | ⟨htag, hend⟩
      · obtain ⟨block, hsome⟩ := Option.isSome_iff_exists.mp (hblock.mpr htag)
        have hbytes : audio.blockBytes.length = mp3Id3v1Bytes := by
          rw [MpegAudio.blockBytes, hsome]
          exact (List.length_append ..).trans block.length
        omega
      · have hnone : audio.block = none :=
          Option.not_isSome_iff_eq_none.mp fun hsome => htag (hblock.mp hsome)
        have hbytes : audio.blockBytes.length = 0 := by
          rw [MpegAudio.blockBytes, hnone]
          rfl
        omega
    have htake : audio.encode.take (audio.tagBytes.length + audio.frameBytes.length) =
        audio.tagBytes ++ audio.frameBytes := by
      rw [MpegAudio.encode, ← List.length_append, List.take_left]
    have hframes : 4 ≤ audio.frameBytes.length := hfour
    rw [if_neg (by omega), htag]
    dsimp only
    rw [hend]
    refine (scanAll_mpegFrame_iff (by omega) (Nat.le_add_right _ _)).mpr
      ⟨audio.frames, ?_, audio.pos, audio.lt⟩
    rw [htake, List.drop_left]
    rfl

/-! ## The walk -/

/-- The offsets at which the loop reads a header. -/
def mpegHeaderOffsets (file : Bytes) : List ℕ :=
  match mpegTagEnd file with
  | none => []
  | some offset =>
      visited (mpegFrame file (mpegAudioEnd file offset)) (mpegAudioEnd file offset) mp3MaxFrames ()
        offset

/-- Every round moves on by a header at least. -/
theorem pairwise_mpegHeaderOffsets (file : Bytes) :
    (mpegHeaderOffsets file).Pairwise fun earlier later => earlier + 4 ≤ later := by
  unfold mpegHeaderOffsets
  split
  · exact .nil
  · refine (pairwise_visited fun {s offset length s'} h => ?_).1
    obtain ⟨header, -, rfl, -⟩ := mpegFrame_eq_ok.mp h
    exact header.four_le_frameBytes

/-- In a file that is accepted, headers are read from the frames only. -/
theorem add_four_le_mpegAudioEnd {file : Bytes} {tagEnd offset : ℕ}
    (h : matchesMpegAudioStructure file = true) (htag : mpegTagEnd file = some tagEnd)
    (hmem : offset ∈ mpegHeaderOffsets file) : offset + 4 ≤ mpegAudioEnd file tagEnd := by
  unfold matchesMpegAudioStructure at h
  split_ifs at h
  rw [htag] at h
  unfold mpegHeaderOffsets at hmem
  rw [htag] at hmem
  have hle : mpegAudioEnd file tagEnd ≤ file.length := by
    rcases mpegAudioEnd_eq file tagEnd with ⟨-, hend⟩ | ⟨-, hend⟩ <;> omega
  obtain ⟨-, item, -, after, hdrop, frame, rfl⟩ :=
    exists_item_of_mem_visited (scans_mpegFrame hle) (exists_final_of_scanAll
      (scan_ne_error_true (mpegFrame_ne_error_true file _)) h) hmem
  have hend := (drop_of_drop_take hdrop (List.cons_ne_nil _ _)).2
  rw [MpegFrame.encode, List.length_append, frame.header.length_encode] at hend
  omega

/-- **The files that are accepted** are those of an `MpegAudio` whose block is there exactly where the
file says so; every frame is as long as its header or longer, so the walk moves on with every
round, and never reads a header from the block. -/
theorem mpeg_audio_structure :
    (∀ file, matchesMpegAudioStructure file = true ↔ ∃ audio : MpegAudio, audio.encode = file ∧
      (audio.block.isSome ↔ saysTag (file.drop audio.tagBytes.length))) ∧
    (∀ header : MpegHeader, 4 ≤ header.frameBytes) ∧
    (∀ file, (mpegHeaderOffsets file).Pairwise fun earlier later => earlier + 4 ≤ later) ∧
    (∀ file tagEnd offset, matchesMpegAudioStructure file = true → mpegTagEnd file = some tagEnd →
      offset ∈ mpegHeaderOffsets file → offset + 4 ≤ mpegAudioEnd file tagEnd) :=
  ⟨fun _ => matchesMpegAudioStructure_iff, MpegHeader.four_le_frameBytes,
    pairwise_mpegHeaderOffsets, fun _ _ _ h htag hmem => add_four_le_mpegAudioEnd h htag hmem⟩

/-- One frame of MPEG 2, layer 3: 8 kbit in a second, 24000 samples. -/
def oneFrame : Bytes := [0xff, 0xf3, 0x14, 0x00] ++ List.replicate 20 0

/-- A tag with two bytes, two frames and a block at the end. -/
def taggedFrames : Bytes :=
  (asciiBytes "ID3" ++ [4, 0, 0, 0, 0, 0, 2, 0, 0]) ++ (oneFrame ++ oneFrame) ++
    (asciiBytes "TAG" ++ List.replicate 125 0)

set_option maxRecDepth 8000 in
/-- Its headers are read from the two frames, which end where the block begins. -/
theorem mpeg_audio_structure_tagged :
    matchesMpegAudioStructure taggedFrames = true ∧ mpegHeaderOffsets taggedFrames = [12, 36] ∧
      mpegAudioEnd taggedFrames 12 = 60 ∧ ∀ offset ∈ [12, 36], offset + 4 ≤ 60 := by
  have haccepted : matchesMpegAudioStructure taggedFrames = true := by decide
  have htag : mpegTagEnd taggedFrames = some 12 := by decide
  have hoffsets : mpegHeaderOffsets taggedFrames = [12, 36] := by decide
  have hend : mpegAudioEnd taggedFrames 12 = 60 := by decide
  refine ⟨haccepted, hoffsets, hend, fun offset hmem => ?_⟩
  rw [← hend]
  exact mpeg_audio_structure.2.2.2 taggedFrames 12 offset haccepted htag (by rwa [hoffsets])

end ApiWhatsApp
