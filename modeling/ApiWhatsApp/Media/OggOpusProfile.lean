import ApiWhatsApp.Media.OpusFraming
import Mathlib.Algebra.Ring.Int.Defs

/-!
# The Opus profile of an Ogg stream

`OggOpusProfile` and `matchesOpusTags` of `media/media-ogg-opus-profile.ts`: what is kept from page to
page, and what one page does to it.

* `OggOpusProfile` has the buffer in which packets are put together, which is used again for each of
  them. `acceptPage` is `none` where the source returns `false`; the state is not used after that.
* **`matchesOpusTags_iff`** — the comment packets that are accepted are encodings of `OpusTags`, with any
  bytes behind them.
-/

namespace ApiWhatsApp

open Library

/-! ## Comments -/

/-- Source: `OPUS_HEAD`. -/
def opusHead : Bytes := asciiBytes "OpusHead"

/-- Source: `OPUS_TAGS`. -/
def opusTags : Bytes := asciiBytes "OpusTags"

/-- Source: `MAX_TAG_BYTES`. -/
def maxTagBytes : ℕ := 64 * 1024

/-- Source: `MAX_AUDIO_PACKETS`. -/
def maxAudioPackets : ℕ := 100000

/-- The loop in `matchesOpusTags`. -/
def opusComments (packet : Bytes) : ℕ → ℕ → Bool
  | 0, _ => true
  | count + 1, offset =>
      if offset > packet.length - 4 then false
      else
        let length := readLE packet 4 offset
        if length > packet.length - (offset + 4) then false
        else opusComments packet count (offset + 4 + length)

/-- Source: `matchesOpusTags`. -/
def matchesOpusTags (packet : Bytes) : Bool :=
  if packet.length < 16 ∨ packet.take 8 ≠ opusTags then false
  else
    let vendorLength := readLE packet 4 8
    if vendorLength > packet.length - 16 then false
    else
      let offset := 12 + vendorLength
      let count := readLE packet 4 offset
      let offset := offset + 4
      if count > (packet.length - offset) / 4 then false
      else opusComments packet count offset

/-- What a comment packet says. -/
structure OpusTags where
  vendor : Bytes
  comments : List Bytes
  vendor_lt : vendor.length < 2 ^ 32
  comments_lt : comments.length < 2 ^ 32
  comment_lt : ∀ comment ∈ comments, comment.length < 2 ^ 32

/-- Bytes with their number before them. -/
def lengthPrefixed (bytes : Bytes) : Bytes := littleEndianBytes 4 bytes.length ++ bytes

/-- The bytes of the tags. -/
def OpusTags.encode (tags : OpusTags) : Bytes :=
  opusTags ++ lengthPrefixed tags.vendor ++ littleEndianBytes 4 tags.comments.length ++
    (tags.comments.map lengthPrefixed).flatten

/-! ## The profile -/

/-- Source: the type of `phase`. -/
inductive OpusPhase
  | head
  | tags
  | audio
  deriving DecidableEq

/-- Source: the fields of `OggOpusProfile`. -/
structure OggOpusProfile where
  serial : Option ℕ
  phase : OpusPhase
  packet : Bytes
  packetBytes : ℕ
  audioPackets : ℕ
  ended : Bool

/-- `source.copy(target, start)`: what does not fit is dropped. -/
def bufferCopy (target : Bytes) (start : ℕ) (source : Bytes) : Bytes :=
  target.take start ++ source.take (target.length - start) ++ target.drop (start + source.length)

/-- `page.readBigInt64LE(offset)`. -/
def readInt64LE (page : Bytes) (offset : ℕ) : ℤ :=
  if readLE page 8 offset < 2 ^ 63 then readLE page 8 offset else readLE page 8 offset - 2 ^ 64

namespace OggOpusProfile

/-- Source: the initial values of the fields. -/
def initial : OggOpusProfile where
  serial := none
  phase := .head
  packet := List.replicate maxTagBytes 0
  packetBytes := 0
  audioPackets := 0
  ended := false

/-- Source: `isComplete`. -/
def isComplete (profile : OggOpusProfile) : Bool :=
  profile.ended && profile.phase = .audio && profile.audioPackets > 0 && profile.packetBytes = 0

/-- What becomes of a packet that is complete, on a page with some granule position; `last` says
whether it ends the page. -/
def acceptPacket (profile : OggOpusProfile) (granule : ℤ) (last : Bool) : Option OggOpusProfile :=
  let packet := profile.packet.take profile.packetBytes
  if profile.phase = .tags then
    if !last || granule ≠ 0 || !matchesOpusTags packet then none
    else some { profile with phase := .audio, packetBytes := 0 }
  else if profile.audioPackets ≥ maxAudioPackets || !matchesOpusPacketFraming packet then none
  else some { profile with audioPackets := profile.audioPackets + 1, packetBytes := 0 }

/-- The loop over the lacing values; it also keeps whether a packet was completed. -/
def acceptSegments (granule : ℤ) (body : Bytes) :
    Bytes → ℕ → OggOpusProfile → Bool → Option (OggOpusProfile × Bool)
  | [], _, profile, completedOnPage => some (profile, completedOnPage)
  | length :: lacing, bodyOffset, profile, completedOnPage =>
      let limit := if profile.phase = .tags then maxTagBytes else maxAudioPacketBytes
      if profile.packetBytes + length.toNat > limit then none
      else
        let segment := (body.drop bodyOffset).take length.toNat
        let profile := { profile with
          packet := bufferCopy profile.packet profile.packetBytes segment
          packetBytes := profile.packetBytes + length.toNat }
        if length = 255 then
          acceptSegments granule body lacing (bodyOffset + length.toNat) profile completedOnPage
        else
          match profile.acceptPacket granule lacing.isEmpty with
          | none => none
          | some profile =>
              acceptSegments granule body lacing (bodyOffset + length.toNat) profile true

/-- Source: `acceptPage`. -/
def acceptPage (profile : OggOpusProfile) (page : Bytes) : Option OggOpusProfile :=
  if profile.ended || page.length < 27 then none
  else
    let segmentCount := (page.getD 26 0).toNat
    if page.length < 27 + segmentCount then none
    else
      let serial := readLE page 4 14
      if profile.serial.any fun prior => serial ≠ prior then none
      else
        let profile := { profile with serial := some serial }
        let flags := page.getD 5 0
        let granule := readInt64LE page 6
        let lacing := (page.drop 27).take segmentCount
        let body := page.drop (27 + segmentCount)
        if (lacing.map UInt8.toNat).sum ≠ body.length then none
        else if profile.phase = .head then
          if flags ≠ 0x02 || granule ≠ 0 || segmentCount ≠ 1 || lacing.getD 0 0 ≠ 19 ||
              body.take 8 ≠ opusHead || body.getD 8 0 ≠ 1 || body.getD 9 0 ≠ 1 ||
              body.getD 18 0 ≠ 0 then none
          else some { profile with phase := .tags }
        else if segmentCount = 0 then none
        else
          match acceptSegments granule body lacing 0 profile false with
          | none => none
          | some (profile, completedOnPage) =>
              if !completedOnPage && granule ≠ -1 || completedOnPage && granule < 0 then none
              else
                let profile := { profile with ended := decide (flags &&& 0x04 ≠ 0) }
                if !profile.ended || profile.isComplete then some profile else none

end OggOpusProfile

/-! ## The comments that are accepted -/

/-- The length comes in four bytes. -/
theorem length_lengthPrefixed (bytes : Bytes) : (lengthPrefixed bytes).length = 4 + bytes.length := by
  rw [lengthPrefixed, List.length_append, length_littleEndianBytes]

/-- Every comment takes four bytes at least. -/
theorem four_mul_length_le (comments : List Bytes) :
    4 * comments.length ≤ (comments.map lengthPrefixed).flatten.length := by
  induction comments with
  | nil => exact Nat.le_refl _
  | cons comment comments ih =>
      rw [List.map_cons, List.flatten_cons, List.length_append, length_lengthPrefixed,
        List.length_cons]
      omega

/-- Bytes that stand in a file with their number before them. -/
theorem exists_lengthPrefixed {bytes : Bytes} {offset : ℕ} (hwidth : offset + 4 ≤ bytes.length)
    (hlength : readLE bytes 4 offset ≤ bytes.length - (offset + 4)) :
    ∃ piece after, piece.length = readLE bytes 4 offset ∧ piece.length < 2 ^ 32 ∧
      bytes.drop offset = lengthPrefixed piece ++ after := by
  have hpiece : ((bytes.drop (offset + 4)).take (readLE bytes 4 offset)).length =
      readLE bytes 4 offset := by
    rw [List.length_take_of_le]
    rw [List.length_drop]
    exact hlength
  refine ⟨_, (bytes.drop (offset + 4)).drop (readLE bytes 4 offset), hpiece, ?_, ?_⟩
  · rw [hpiece]
    exact readLE_lt bytes 4 offset
  · rw [lengthPrefixed, hpiece, List.append_assoc, List.take_append_drop]
    exact drop_eq_readLE hwidth

/-- The comments are read one after another. -/
theorem opusComments_iff {packet : Bytes} {count offset : ℕ} (hpacket : 4 ≤ packet.length) :
    opusComments packet count offset = true ↔
      ∃ (comments : List Bytes) (after : Bytes), comments.length = count ∧
        (∀ comment ∈ comments, comment.length < 2 ^ 32) ∧
        packet.drop offset = (comments.map lengthPrefixed).flatten ++ after := by
  induction count generalizing offset with
  | zero =>
      rw [opusComments]
      exact iff_of_true rfl ⟨[], packet.drop offset, rfl, by simp, rfl⟩
  | succ count ih =>
      rw [opusComments]
      constructor
      · intro h
        split_ifs at h with hend
        dsimp only at h
        split_ifs at h with hlong
        obtain ⟨comment, after, hcomment, hlt, hdrop⟩ :=
          exists_lengthPrefixed (by omega) (Nat.le_of_not_lt hlong)
        obtain ⟨comments, after', hcount, hall, hdrop'⟩ := ih.mp h
        rw [Nat.add_assoc, ← hcomment, ← length_lengthPrefixed, ← List.drop_drop, hdrop,
          List.drop_left] at hdrop'
        refine ⟨comment :: comments, after', congrArg Nat.succ hcount,
          List.forall_mem_cons.mpr ⟨hlt, hall⟩, ?_⟩
        rw [hdrop, hdrop', List.map_cons, List.flatten_cons, List.append_assoc]
      · rintro ⟨comments, after, hcount, hall, hdrop⟩
        cases comments with
        | nil => cases hcount
        | cons comment comments =>
            obtain ⟨hlt, hrest⟩ := List.forall_mem_cons.mp hall
            rw [List.map_cons, List.flatten_cons, List.append_assoc] at hdrop
            have hsum := congrArg List.length hdrop
            rw [List.length_drop, List.length_append, length_lengthPrefixed] at hsum
            have hread : readLE packet 4 offset = comment.length := by
              rw [lengthPrefixed, List.append_assoc] at hdrop
              exact readLE_littleEndianBytes hlt hdrop
            have hnext : packet.drop (offset + 4 + comment.length) =
                (comments.map lengthPrefixed).flatten ++ after := by
              rw [Nat.add_assoc, ← length_lengthPrefixed, ← List.drop_drop, hdrop, List.drop_left]
            rw [hread, if_neg (by omega), if_neg (by omega)]
            exact ih.mpr ⟨comments, after, Nat.succ.inj hcount, hrest, hnext⟩

/-- **Comment packets** are accepted iff they start with comments. -/
theorem matchesOpusTags_iff (packet : Bytes) :
    matchesOpusTags packet = true ↔
      ∃ (tags : OpusTags) (after : Bytes), packet = tags.encode ++ after := by
  have hhead : opusTags.length = 8 := by decide
  unfold matchesOpusTags
  constructor
  · intro h
    split_ifs at h with hstart
    obtain ⟨hlong, hmagic⟩ := not_or.mp hstart
    dsimp only at h
    split_ifs at h with hvendor hcount
    obtain ⟨vendor, after, hlength, hlt, hdrop⟩ :=
      exists_lengthPrefixed (show 8 + 4 ≤ packet.length by omega) (by omega)
    rw [← hlength] at hvendor hcount h
    obtain ⟨comments, after', hcomments, hall, hdrop'⟩ := (opusComments_iff (by omega)).mp h
    have hnumber := drop_eq_readLE (show 12 + vendor.length + 4 ≤ packet.length by omega)
    have hbehind : packet.drop (12 + vendor.length) = after := by
      rw [show 12 + vendor.length = 8 + (4 + vendor.length) by omega, ← length_lengthPrefixed,
        ← List.drop_drop, hdrop, List.drop_left]
    refine ⟨⟨vendor, comments, hlt, hcomments ▸ readLE_lt packet 4 _, hall⟩, after', ?_⟩
    rw [OpusTags.encode]
    dsimp only
    rw [hcomments]
    conv_lhs => rw [← List.take_append_drop 8 packet, not_not.mp hmagic, hdrop, ← hbehind, hnumber,
      hdrop']
    simp only [List.append_assoc]
  · rintro ⟨tags, after, rfl⟩
    generalize hpacket : tags.encode ++ after = packet
    have hsplit : packet = opusTags ++ (lengthPrefixed tags.vendor ++
        (littleEndianBytes 4 tags.comments.length ++
          ((tags.comments.map lengthPrefixed).flatten ++ after))) := by
      rw [← hpacket, OpusTags.encode]
      simp only [List.append_assoc]
    have hsum := congrArg List.length hsplit
    rw [List.length_append, List.length_append, List.length_append, length_lengthPrefixed,
      length_littleEndianBytes, hhead] at hsum
    have hvendor : packet.drop 8 = lengthPrefixed tags.vendor ++
        (littleEndianBytes 4 tags.comments.length ++
          ((tags.comments.map lengthPrefixed).flatten ++ after)) := by
      rw [hsplit, List.drop_left' hhead]
    have hcount : packet.drop (12 + tags.vendor.length) = littleEndianBytes 4 tags.comments.length ++
        ((tags.comments.map lengthPrefixed).flatten ++ after) := by
      rw [show 12 + tags.vendor.length = 8 + (4 + tags.vendor.length) by omega,
        ← length_lengthPrefixed, ← List.drop_drop, hvendor, List.drop_left]
    have hcomments : packet.drop (12 + tags.vendor.length + 4) =
        (tags.comments.map lengthPrefixed).flatten ++ after := by
      rw [← List.drop_drop, hcount, List.drop_left' (length_littleEndianBytes 4 _)]
    have hreadVendor : readLE packet 4 8 = tags.vendor.length := by
      rw [lengthPrefixed, List.append_assoc] at hvendor
      exact readLE_littleEndianBytes tags.vendor_lt hvendor
    have hreadCount := readLE_littleEndianBytes tags.comments_lt hcount
    have hfits := four_mul_length_le tags.comments
    rw [List.length_append] at hsum
    rw [if_neg (not_or.mpr ⟨by omega, fun hne => hne (by rw [hsplit, List.take_left' hhead])⟩),
      hreadVendor]
    dsimp only
    rw [hreadCount, if_neg (by omega), if_neg (by omega)]
    exact (opusComments_iff (by omega)).mpr ⟨tags.comments, after, rfl, tags.comment_lt, hcomments⟩

end ApiWhatsApp
