import ApiWhatsApp.Media.OggStructure

/-!
# Opus streams

What `matchesOggStructure` of `media/media-audio-structure.ts` accepts with the Opus profile.

* `assemble` puts the packets of a whole stream together, without pages. `OpusPagination` says how they
  may be divided into pages, `OpusPackets` what they have to be.
* `OpusAssembly` is the profile with a list of bytes in the place of the buffer; **`view_acceptPage`**:
  nothing else of the buffer has an effect.
* **`opus_profile`** — the verdict is that of the generic checks, the pagination and the packets.
-/

namespace ApiWhatsApp

open Library

/-! ## Packets of a stream -/

/-- The packets that some segments complete behind what is carried over, and what they leave over. A
segment of 255 bytes goes on in the next one. -/
def assemble : Bytes → List Bytes → List Bytes × Bytes
  | carried, [] => ([], carried)
  | carried, segment :: segments =>
      if segment.length = 255 then assemble (carried ++ segment) segments
      else ((carried ++ segment) :: (assemble [] segments).1, (assemble [] segments).2)

namespace OggPage

/-- The parts of the body. -/
def segments (page : OggPage) : List Bytes := (page.lacing.map UInt8.toNat).splitLengths page.body

/-- The granule position, as a signed number. -/
def position (page : OggPage) : ℤ := readInt64LE page.granule 0

/-- Whether a packet is complete on the page. -/
def completes (page : OggPage) : Bool := page.lacing.any fun length => length ≠ 255

end OggPage

/-- What the pages of a stream hold. -/
def streamSegments (pages : List OggPage) : List Bytes := pages.flatMap OggPage.segments

/-- The packets of a stream. -/
def packetsOf (pages : List OggPage) : List Bytes := (assemble [] (streamSegments pages)).1

/-- An identification packet: version 1, one channel, mapping family 0. -/
structure ValidOpusHead (packet : Bytes) : Prop where
  length : packet.length = 19
  magic : packet.take 8 = opusHead
  version : packet.getD 8 0 = 1
  channels : packet.getD 9 0 = 1
  family : packet.getD 18 0 = 0

/-- The packets of an upload: the two headers, and between 1 and 100000 packets of audio. -/
def OpusPackets (packets : List Bytes) : Prop :=
  ∃ head tags audio, packets = head :: tags :: audio ∧ ValidOpusHead head ∧
    tags.length ≤ maxTagBytes ∧ matchesOpusTags tags = true ∧ 1 ≤ audio.length ∧
    audio.length ≤ maxAudioPackets ∧ ∀ packet ∈ audio, matchesOpusPacketFraming packet = true

/-- How the packets of an upload are divided into pages: the first packet is alone on the first page,
the second one ends a page, and no page is empty. A page on which no packet is complete has the
granule position -1; the pages of the headers have the position 0, and the others are not negative. -/
structure OpusPagination (pages : List OggPage) : Prop where
  serial : ∀ page ∈ pages, ∀ page' ∈ pages, page.serial = page'.serial
  split : ∃ first tagPages audioPages, pages = first :: (tagPages ++ audioPages) ∧
    first.flags = 0x02 ∧ first.position = 0 ∧ (∃ length, first.lacing = [length] ∧ length ≠ 255) ∧
    (∃ tags, assemble [] (streamSegments tagPages) = ([tags], [])) ∧
    (assemble [] (streamSegments audioPages)).2 = [] ∧
    (∀ page ∈ tagPages ++ audioPages, page.lacing ≠ []) ∧
    (∀ page ∈ tagPages ++ audioPages, page.completes = false → page.position = -1) ∧
    (∀ page ∈ tagPages, page.completes = true → page.position = 0) ∧
    ∀ page ∈ audioPages, page.completes = true → 0 ≤ page.position

/-! ## The profile without a buffer -/

/-- The profile, with the bytes of the packet that is put together. -/
structure OpusAssembly where
  serial : Option ℕ
  phase : OpusPhase
  carried : Bytes
  audioPackets : ℕ
  ended : Bool

/-- How long a packet may get. -/
def OpusPhase.limit (phase : OpusPhase) : ℕ :=
  if phase = .tags then maxTagBytes else maxAudioPacketBytes

/-- No phase allows more than the tags may take. -/
theorem OpusPhase.limit_le (phase : OpusPhase) : phase.limit ≤ maxTagBytes := by
  cases phase <;> decide

namespace OpusAssembly

/-- The stream may end here. -/
def isComplete (state : OpusAssembly) : Bool :=
  state.ended && state.phase = .audio && state.audioPackets > 0 && state.carried = []

/-- What becomes of a packet that is complete. -/
def acceptPacket (state : OpusAssembly) (granule : ℤ) (last : Bool) : Option OpusAssembly :=
  if state.phase = .tags then
    if !last || granule ≠ 0 || !matchesOpusTags state.carried then none
    else some { state with phase := .audio, carried := [] }
  else if state.audioPackets ≥ maxAudioPackets || !matchesOpusPacketFraming state.carried then none
  else some { state with audioPackets := state.audioPackets + 1, carried := [] }

/-- The loop over the segments of a page. -/
def acceptSegments (granule : ℤ) : List Bytes → OpusAssembly → Bool → Option (OpusAssembly × Bool)
  | [], state, completedOnPage => some (state, completedOnPage)
  | segment :: segments, state, completedOnPage =>
      if state.carried.length + segment.length > state.phase.limit then none
      else
        let state := { state with carried := state.carried ++ segment }
        if segment.length = 255 then acceptSegments granule segments state completedOnPage
        else
          match state.acceptPacket granule segments.isEmpty with
          | none => none
          | some state => acceptSegments granule segments state true

/-- Whether a page can be the first one. -/
def acceptHead (page : OggPage) : Bool :=
  page.flags = 0x02 && page.position = 0 && page.lacing.length = 1 && page.lacing.getD 0 0 = 19 &&
    page.body.take 8 = opusHead && page.body.getD 8 0 = 1 && page.body.getD 9 0 = 1 &&
    page.body.getD 18 0 = 0

/-- A page for the assembly. -/
def acceptPage (state : OpusAssembly) (page : OggPage) : Option OpusAssembly :=
  if state.ended || state.serial.any (fun prior => page.serial ≠ prior) then none
  else if state.phase = .head then
    if acceptHead page then some { state with serial := some page.serial, phase := .tags } else none
  else if page.lacing = [] then none
  else
    match acceptSegments page.position page.segments { state with serial := some page.serial } false with
    | none => none
    | some (state, completedOnPage) =>
        if !completedOnPage && page.position ≠ -1 || completedOnPage && page.position < 0 then none
        else
          let state := { state with ended := page.eos }
          if !state.ended || state.isComplete then some state else none

end OpusAssembly

/-! ## The buffer -/

namespace OggOpusProfile

/-- What counts of the buffer are its first bytes. -/
def view (profile : OggOpusProfile) : OpusAssembly where
  serial := profile.serial
  phase := profile.phase
  carried := profile.packet.take profile.packetBytes
  audioPackets := profile.audioPackets
  ended := profile.ended

/-- The buffer has its length, and they lie in it. -/
structure Fits (profile : OggOpusProfile) : Prop where
  length : profile.packet.length = maxTagBytes
  le : profile.packetBytes ≤ maxTagBytes

/-- The results of a step and of its counterpart without a buffer. -/
def Agrees (concrete : Option (OggOpusProfile × Bool)) (abstract : Option (OpusAssembly × Bool)) :
    Prop :=
  concrete.map (fun result => (result.1.view, result.2)) = abstract ∧
    ∀ result ∈ concrete, result.1.Fits

variable {profile : OggOpusProfile}

/-- What is carried has the length that the profile counts. -/
theorem Fits.length_carried (h : profile.Fits) :
    profile.view.carried.length = profile.packetBytes :=
  List.length_take_of_le (h.length.symm ▸ h.le)

/-- Both agree on whether the stream may end. -/
theorem Fits.isComplete_view (h : profile.Fits) : profile.view.isComplete = profile.isComplete := by
  have hcarried : decide (profile.view.carried = []) = decide (profile.packetBytes = 0) := by
    rw [decide_eq_decide, ← h.length_carried, List.length_eq_zero_iff]
  rw [OpusAssembly.isComplete, hcarried]
  rfl

/-- The two begin alike. -/
theorem Fits.initial : OggOpusProfile.initial.Fits :=
  ⟨List.length_replicate, Nat.zero_le _⟩

/-- A copy behind the first bytes. -/
theorem bufferCopy_take {target source : Bytes} {start : ℕ}
    (h : start + source.length ≤ target.length) :
    (bufferCopy target start source).take (start + source.length) = target.take start ++ source ∧
      (bufferCopy target start source).length = target.length := by
  have hstart : (target.take start).length = start := List.length_take_of_le (by omega)
  have hfits : source.take (target.length - start) = source := List.take_of_length_le (by omega)
  have hboth : (target.take start ++ source).length = start + source.length := by
    rw [List.length_append, hstart]
  rw [bufferCopy, hfits, List.take_left' hboth]
  refine ⟨rfl, ?_⟩
  rw [List.length_append, hboth, List.length_drop]
  omega

/-- Both take a packet alike. -/
theorem Fits.acceptPacket (h : profile.Fits) (granule : ℤ) (last : Bool) :
    (profile.acceptPacket granule last).map view = profile.view.acceptPacket granule last ∧
      ∀ profile' ∈ profile.acceptPacket granule last, profile'.Fits := by
  unfold OggOpusProfile.acceptPacket OpusAssembly.acceptPacket
  dsimp only
  rw [show profile.view.phase = profile.phase by rfl,
    show profile.view.carried = profile.packet.take profile.packetBytes by rfl,
    show profile.view.audioPackets = profile.audioPackets by rfl]
  split_ifs
  · exact ⟨rfl, fun _ hmem => nomatch hmem⟩
  · refine ⟨rfl, fun profile' hmem => ?_⟩
    cases hmem
    exact ⟨h.length, Nat.zero_le _⟩
  · exact ⟨rfl, fun _ hmem => nomatch hmem⟩
  · refine ⟨rfl, fun profile' hmem => ?_⟩
    cases hmem
    exact ⟨h.length, Nat.zero_le _⟩

/-- The loop over the lacing values is the one over the segments. -/
theorem Fits.acceptSegments (h : profile.Fits) {granule : ℤ} {body lacing : Bytes} {bodyOffset : ℕ}
    {completedOnPage : Bool}
    (hbody : (lacing.map UInt8.toNat).sum ≤ (body.drop bodyOffset).length) :
    Agrees (OggOpusProfile.acceptSegments granule body lacing bodyOffset profile completedOnPage)
      (OpusAssembly.acceptSegments granule
        ((lacing.map UInt8.toNat).splitLengths (body.drop bodyOffset)) profile.view
        completedOnPage) := by
  induction lacing generalizing bodyOffset profile completedOnPage with
  | nil =>
      refine ⟨rfl, fun result hmem => ?_⟩
      cases hmem
      exact h
  | cons length lacing ih =>
      rw [List.map_cons, List.sum_cons] at hbody
      have hsegment : ((body.drop bodyOffset).take length.toNat).length = length.toNat :=
        List.length_take_of_le (by omega)
      have hrest : (lacing.map UInt8.toNat).sum ≤ (body.drop (bodyOffset + length.toNat)).length := by
        rw [← List.drop_drop, List.length_drop]
        omega
      have hfull : length = 255 ↔ length.toNat = 255 := by
        rw [← UInt8.toNat_inj]
        rfl
      have hisEmpty : ((lacing.map UInt8.toNat).splitLengths
          (body.drop (bodyOffset + length.toNat))).isEmpty = lacing.isEmpty := by
        cases lacing <;> rfl
      have hlimit := profile.phase.limit_le
      rw [List.map_cons, List.splitLengths, List.splitAt_eq, List.drop_drop]
      dsimp only
      rw [OggOpusProfile.acceptSegments, OpusAssembly.acceptSegments, h.length_carried, hsegment,
        show profile.view.phase = profile.phase by rfl, OpusPhase.limit]
      rw [OpusPhase.limit] at hlimit
      dsimp only
      by_cases hlong : profile.packetBytes + length.toNat >
          if profile.phase = .tags then maxTagBytes else maxAudioPacketBytes
      · rw [if_pos hlong, if_pos hlong]
        exact ⟨rfl, fun _ hmem => nomatch hmem⟩
      · rw [if_neg hlong, if_neg hlong]
        obtain ⟨htake, hlength⟩ := bufferCopy_take
          (show profile.packetBytes + ((body.drop bodyOffset).take length.toNat).length ≤
            profile.packet.length by rw [h.length, hsegment]; omega)
        rw [hsegment] at htake
        -- The profile behind the copy, and its counterpart.
        generalize hprofile : ({ profile with
          packet := bufferCopy profile.packet profile.packetBytes
            ((body.drop bodyOffset).take length.toNat)
          packetBytes := profile.packetBytes + length.toNat } : OggOpusProfile) = profile'
        have hfits : profile'.Fits := by
          rw [← hprofile]
          exact ⟨hlength.trans h.length, by dsimp only; omega⟩
        have hview : OpusAssembly.mk profile.view.serial profile.phase
            (profile.view.carried ++ (body.drop bodyOffset).take length.toNat)
            profile.view.audioPackets profile.view.ended = profile'.view := by
          rw [← hprofile, view, view, htake]
        rw [hview]
        by_cases h255 : length = 255
        · rw [if_pos h255, if_pos (hfull.mp h255)]
          exact ih hfits hrest
        · rw [if_neg h255, if_neg (fun h => h255 (hfull.mpr h)), hisEmpty]
          obtain ⟨hmap, hall⟩ := hfits.acceptPacket granule lacing.isEmpty
          rw [← hmap]
          cases hpacket : profile'.acceptPacket granule lacing.isEmpty with
          | none => exact ⟨rfl, fun _ hmem => nomatch hmem⟩
          | some next => exact ih (hall next hpacket) hrest

/-! ## One page -/

variable {page : OggPage}

/-- A number is read from the part that holds it. -/
theorem readLE_append {bytes after : Bytes} {width offset : ℕ} (h : offset + width ≤ bytes.length) :
    readLE (bytes ++ after) width offset = readLE bytes width offset := by
  rw [readLE, readLE, List.drop_append_of_le_length (by omega),
    List.take_append_of_le_length (by rw [List.length_drop]; omega)]

/-- What the profile reads of a page. -/
theorem page_fields (page : OggPage) : page.encode.getD 26 0 = UInt8.ofNat page.lacing.length ∧
    page.encode.getD 5 0 = page.flags ∧ readLE page.encode 4 14 = page.serial ∧
    readInt64LE page.encode 6 = page.position ∧
    (page.encode.drop 27).take page.lacing.length = page.lacing ∧
    page.encode.drop (27 + page.lacing.length) = page.body := by
  obtain ⟨-, -, hflags, hgranule, hserial, -, hcount⟩ := page.fixed_fields
  have hlength : page.fixed.length = 27 := page.length_fixed
  have hposition : readLE (page.fixed ++ (page.lacing ++ page.body)) 8 6 =
      readLE page.granule 8 0 := by
    rw [readLE_append (by omega), readLE, hgranule, readLE, List.drop_zero,
      List.take_of_length_le page.length_granule.le]
  rw [page.encode_eq]
  refine ⟨?_, ?_, ?_, ?_, ?_, ?_⟩
  · rw [List.getD_append _ _ _ _ (by omega), hcount]
  · rw [List.getD_append _ _ _ _ (by omega), hflags]
  · rw [readLE_append (by omega), hserial]
  · rw [readInt64LE, hposition]
    rfl
  · rw [List.drop_left' hlength, List.take_left]
  · rw [← List.drop_drop, List.drop_left' hlength, List.drop_left]

/-- A refused page is refused at both levels. -/
theorem view_none : (none : Option OggOpusProfile).map view = none ∧
    ∀ profile' ∈ (none : Option OggOpusProfile), profile'.Fits :=
  ⟨rfl, by simp⟩

/-- **Nothing else of the buffer has an effect**: a page does to a profile what it does to the bytes
that are put together. -/
theorem view_acceptPage (h : profile.Fits) :
    (profile.acceptPage page.encode).map view = profile.view.acceptPage page ∧
      ∀ profile' ∈ profile.acceptPage page.encode, profile'.Fits := by
  obtain ⟨hcount, hflags, hserial, hposition, hlacing, hbody⟩ := page_fields page
  have hlength : ¬ (page.encode.length < 27 + page.lacing.length) := by
    rw [page.length_encode, oggFixedHeaderBytes]
    omega
  have hbytes : decide (page.encode.length < 27) = false := decide_eq_false (by omega)
  unfold OggOpusProfile.acceptPage OpusAssembly.acceptPage
  dsimp only
  rw [hcount, page.toNat_lacing, hflags, hserial, hposition, hlacing, hbody, hbytes, Bool.or_false,
    show profile.view.ended = profile.ended by rfl, show profile.view.serial = profile.serial by rfl,
    show profile.view.phase = profile.phase by rfl, if_neg hlength, page.length_body]
  cases hended : profile.ended with
  | true => exact view_none
  | false =>
      rw [Bool.false_or, if_neg Bool.false_ne_true, if_neg (not_not.mpr rfl)]
      by_cases hother : (profile.serial.any fun prior => decide (page.serial ≠ prior)) = true
      · rw [if_pos hother, if_pos hother]
        exact view_none
      · rw [if_neg hother, if_neg hother]
        by_cases hhead : profile.phase = .head
        · have hrefused : (page.flags ≠ 0x02 || page.position ≠ 0 || page.lacing.length ≠ 1 ||
              page.lacing.getD 0 0 ≠ 19 || page.body.take 8 ≠ opusHead || page.body.getD 8 0 ≠ 1 ||
              page.body.getD 9 0 ≠ 1 || page.body.getD 18 0 ≠ 0) = !OpusAssembly.acceptHead page := by
            simp only [OpusAssembly.acceptHead, Bool.not_and, ne_eq, decide_not]
          rw [if_pos hhead, if_pos hhead, hrefused]
          cases OpusAssembly.acceptHead page with
          | false => exact view_none
          | true =>
              refine ⟨rfl, fun profile' hmem => ?_⟩
              cases hmem
              exact ⟨h.length, h.le⟩
        · rw [if_neg hhead, if_neg hhead]
          simp only [List.length_eq_zero_iff]
          by_cases hempty : page.lacing = []
          · rw [if_pos hempty, if_pos hempty]
            exact view_none
          · rw [if_neg hempty, if_neg hempty]
            have hstart : (OggOpusProfile.mk (some page.serial) profile.phase profile.packet
                profile.packetBytes profile.audioPackets false).Fits := ⟨h.length, h.le⟩
            have hagrees : Agrees (OggOpusProfile.acceptSegments page.position page.body page.lacing 0
                (.mk (some page.serial) profile.phase profile.packet profile.packetBytes
                  profile.audioPackets false) false)
                (OpusAssembly.acceptSegments page.position page.segments (.mk (some page.serial)
                  profile.phase profile.view.carried profile.view.audioPackets false) false) :=
              hstart.acceptSegments page.length_body.ge
            obtain ⟨hmap, hall⟩ := hagrees
            rw [← hmap]
            cases hsegments : OggOpusProfile.acceptSegments page.position page.body page.lacing 0
                (.mk (some page.serial) profile.phase profile.packet profile.packetBytes
                  profile.audioPackets false) false with
            | none => exact view_none
            | some result =>
                obtain ⟨profile', completedOnPage⟩ := result
                have hfits : profile'.Fits := hall _ hsegments
                have hended' : (OggOpusProfile.mk profile'.serial profile'.phase profile'.packet
                    profile'.packetBytes profile'.audioPackets
                    (decide (page.flags &&& 0x04 ≠ 0))).Fits := ⟨hfits.length, hfits.le⟩
                have hverdict : (OpusAssembly.mk profile'.view.serial profile'.view.phase
                    profile'.view.carried profile'.view.audioPackets page.eos).isComplete =
                    (OggOpusProfile.mk profile'.serial profile'.phase profile'.packet
                      profile'.packetBytes profile'.audioPackets
                      (decide (page.flags &&& 0x04 ≠ 0))).isComplete := hended'.isComplete_view
                dsimp only [Option.map_some]
                rw [hverdict, show page.eos = decide (page.flags &&& 0x04 ≠ 0) by rfl]
                split_ifs with hgranule hcomplete
                · exact view_none
                · refine ⟨rfl, fun profile'' hmem => ?_⟩
                  cases hmem
                  exact hended'
                · exact view_none

end OggOpusProfile

/-! ## Segments of several packets -/

section

variable {carried : Bytes} {segments more : List Bytes}

/-- Segments are put together one after another. -/
theorem assemble_append :
    assemble carried (segments ++ more) =
      ((assemble carried segments).1 ++ (assemble (assemble carried segments).2 more).1,
        (assemble (assemble carried segments).2 more).2) := by
  induction segments generalizing carried with
  | nil => rfl
  | cons segment segments ih =>
      rw [List.cons_append, assemble, assemble]
      split_ifs
      · exact ih
      · rw [ih, List.cons_append]

/-- No packet is complete iff all segments go on. -/
theorem assemble_eq_nil : (assemble carried segments).1 = [] ↔
    ∀ segment ∈ segments, segment.length = 255 := by
  induction segments generalizing carried with
  | nil => simp [assemble]
  | cons segment segments ih =>
      rw [assemble, List.forall_mem_cons]
      split_ifs with hfull
      · rw [ih, and_iff_right hfull]
      · simp [hfull]

/-- What is carried over is part of a packet, or left over. -/
theorem length_carried_le {limit : ℕ}
    (hpackets : ∀ packet ∈ (assemble carried segments).1, packet.length ≤ limit)
    (hrest : (assemble carried segments).2.length ≤ limit) : carried.length ≤ limit := by
  induction segments generalizing carried with
  | nil => exact hrest
  | cons segment segments ih =>
      rw [assemble] at hpackets hrest
      split_ifs at hpackets hrest with hfull
      · have hlong := ih hpackets hrest
        rw [List.length_append] at hlong
        exact Nat.le_of_add_right_le hlong
      · have hlong := hpackets _ List.mem_cons_self
        rw [List.length_append] at hlong
        exact Nat.le_of_add_right_le hlong

/-- The first segment is no longer than a packet may be. -/
theorem length_first_le {limit : ℕ} {segment : Bytes}
    (hpackets : ∀ packet ∈ (assemble carried (segment :: segments)).1, packet.length ≤ limit)
    (hrest : (assemble carried (segment :: segments)).2.length ≤ limit) :
    carried.length + segment.length ≤ limit := by
  rw [← List.length_append]
  rw [assemble] at hpackets hrest
  split_ifs at hpackets hrest with hfull
  · exact length_carried_le hpackets hrest
  · exact hpackets _ List.mem_cons_self

/-- Where nothing is left over and nothing is complete, there is nothing. -/
theorem segments_eq_nil (h : assemble [] segments = ([], [])) : segments = [] := by
  cases segments with
  | nil => rfl
  | cons segment segments =>
      have hall := assemble_eq_nil.mp (congrArg Prod.fst h)
      have hfull := hall segment List.mem_cons_self
      rw [assemble, if_pos hfull] at h
      have hnil : ([] ++ segment).length ≤ 0 :=
        length_carried_le (by rw [h]; exact fun packet hmem => nomatch hmem)
          (by rw [h]; exact Nat.le_refl 0)
      rw [List.nil_append, hfull] at hnil
      exact absurd hnil (by decide)

end

/-- A framed packet is no longer than the limit. -/
theorem length_le_of_framing {packet : Bytes} (h : matchesOpusPacketFraming packet = true) :
    packet.length ≤ maxAudioPacketBytes :=
  ((matchesOpusPacketFraming_iff packet).mp h).1

namespace OpusAssembly

variable {state state' : OpusAssembly} {granule : ℤ} {segments : List Bytes}
  {completedOnPage completedOnPage' : Bool}

/-- What the segments of a page do to packets of audio. -/
theorem acceptSegments_audio (hphase : state.phase = .audio)
    (hcount : state.audioPackets ≤ maxAudioPackets)
    (hcarried : state.carried.length ≤ maxAudioPacketBytes) :
    acceptSegments granule segments state completedOnPage = some (state', completedOnPage') ↔
      (∀ packet ∈ (assemble state.carried segments).1, matchesOpusPacketFraming packet = true) ∧
      state.audioPackets + (assemble state.carried segments).1.length ≤ maxAudioPackets ∧
      (assemble state.carried segments).2.length ≤ maxAudioPacketBytes ∧
      state' = .mk state.serial .audio (assemble state.carried segments).2
        (state.audioPackets + (assemble state.carried segments).1.length) state.ended ∧
      completedOnPage' = (completedOnPage || (assemble state.carried segments).1 ≠ []) := by
  induction segments generalizing state completedOnPage with
  | nil =>
      rw [acceptSegments, assemble]
      rw [Option.some_inj, Prod.mk.injEq]
      constructor
      · rintro ⟨rfl, rfl⟩
        refine ⟨fun _ hmem => (nomatch hmem), hcount, hcarried, ?_, by simp⟩
        rw [← hphase]
        rfl
      · rintro ⟨-, -, -, rfl, rfl⟩
        rw [← hphase]
        exact ⟨rfl, by simp⟩
  | cons segment segments ih =>
      have hlimit : state.phase.limit = maxAudioPacketBytes := by rw [hphase]; rfl
      have hneither : ¬ state.phase = .tags := by rw [hphase]; decide
      rw [acceptSegments, hlimit]
      by_cases hlong : state.carried.length + segment.length > maxAudioPacketBytes
      · rw [if_pos hlong]
        refine iff_of_false (fun h => nomatch h) ?_
        rintro ⟨hframing, -, hrest, -⟩
        have hshort := length_first_le
          (fun packet hmem => length_le_of_framing (hframing packet hmem)) hrest
        omega
      · rw [if_neg hlong]
        have hfits : (state.carried ++ segment).length ≤ maxAudioPacketBytes := by
          rw [List.length_append]
          exact Nat.le_of_not_lt hlong
        dsimp only
        rw [assemble]
        by_cases hfull : segment.length = 255
        · rw [if_pos hfull, if_pos hfull]
          exact @ih (.mk state.serial state.phase (state.carried ++ segment) state.audioPackets
            state.ended) completedOnPage hphase hcount hfits
        · rw [if_neg hfull, if_neg hfull, acceptPacket]
          dsimp only
          rw [if_neg hneither, List.forall_mem_cons, List.length_cons]
          by_cases hbad : state.audioPackets ≥ maxAudioPackets ∨
              matchesOpusPacketFraming (state.carried ++ segment) = false
          · rw [if_pos (by simpa using hbad)]
            refine iff_of_false (fun h => nomatch h) ?_
            rintro ⟨⟨hframing, -⟩, hmore, -⟩
            rcases hbad with hbad | hbad
            · omega
            · rw [hframing] at hbad
              cases hbad
          · obtain ⟨hfew, hframing⟩ := not_or.mp hbad
            have hnext := @ih (.mk state.serial state.phase [] (state.audioPackets + 1) state.ended)
              true hphase (Nat.lt_of_not_le hfew) (Nat.zero_le _)
            dsimp only at hnext
            rw [if_neg (by simpa using hbad), hnext, Nat.add_assoc, Nat.add_comm 1,
              and_iff_right (Bool.eq_true_of_not_eq_false hframing)]
            simp

/-- What the segments of a page do to the comment packet: it goes on, or it ends the page. -/
theorem acceptSegments_tags (hphase : state.phase = .tags)
    (hcarried : state.carried.length ≤ maxTagBytes) :
    acceptSegments granule segments state completedOnPage = some (state', completedOnPage') ↔
      ((assemble state.carried segments).1 = [] ∧
        (assemble state.carried segments).2.length ≤ maxTagBytes ∧
        state' = .mk state.serial .tags (assemble state.carried segments).2 state.audioPackets
          state.ended ∧
        completedOnPage' = completedOnPage) ∨
      ∃ tags, assemble state.carried segments = ([tags], []) ∧ tags.length ≤ maxTagBytes ∧
        matchesOpusTags tags = true ∧ granule = 0 ∧
        state' = .mk state.serial .audio [] state.audioPackets state.ended ∧
        completedOnPage' = true := by
  induction segments generalizing state completedOnPage with
  | nil =>
      rw [acceptSegments, assemble, Option.some_inj, Prod.mk.injEq]
      constructor
      · rintro ⟨rfl, rfl⟩
        refine .inl ⟨rfl, hcarried, ?_, rfl⟩
        rw [← hphase]
      · rintro (⟨-, -, rfl, rfl⟩ | ⟨tags, hnone, -⟩)
        · rw [← hphase]
          exact ⟨rfl, rfl⟩
        · cases hnone
  | cons segment segments ih =>
      have hlimit : state.phase.limit = maxTagBytes := by rw [hphase]; rfl
      rw [acceptSegments, hlimit]
      by_cases hlong : state.carried.length + segment.length > maxTagBytes
      · rw [if_pos hlong]
        refine iff_of_false (fun h => nomatch h) ?_
        rintro (⟨hnone, hrest, -⟩ | ⟨tags, hone, htags, -⟩)
        · have hshort := length_first_le (by rw [hnone]; exact fun _ hmem => nomatch hmem) hrest
          omega
        · have hshort := @length_first_le state.carried segments maxTagBytes segment
            (by rw [hone]; simpa using htags) (by rw [hone]; exact Nat.zero_le _)
          omega
      · rw [if_neg hlong]
        have hfits : (state.carried ++ segment).length ≤ maxTagBytes := by
          rw [List.length_append]
          exact Nat.le_of_not_lt hlong
        dsimp only
        rw [assemble]
        by_cases hfull : segment.length = 255
        · rw [if_pos hfull, if_pos hfull]
          exact @ih (.mk state.serial state.phase (state.carried ++ segment) state.audioPackets
            state.ended) completedOnPage hphase hfits
        · rw [if_neg hfull, if_neg hfull, acceptPacket]
          dsimp only
          rw [if_pos hphase]
          by_cases hbad : segments ≠ [] ∨ granule ≠ 0 ∨
              matchesOpusTags (state.carried ++ segment) = false
          · rw [if_pos (by simpa [or_assoc] using hbad)]
            refine iff_of_false (fun h => nomatch h) ?_
            rintro (⟨hnone, -⟩ | ⟨tags, hone, -, htags, hgranule, -⟩)
            · cases hnone
            · obtain ⟨hpackets, hrest⟩ := Prod.mk.inj hone
              obtain ⟨rfl, hmore⟩ := List.cons.inj hpackets
              rcases hbad with hbad | hbad | hbad
              · exact hbad (segments_eq_nil (Prod.ext hmore hrest))
              · exact hbad hgranule
              · rw [htags] at hbad
                cases hbad
          · obtain ⟨hlast, hgranule, htags⟩ : segments = [] ∧ granule = 0 ∧
                matchesOpusTags (state.carried ++ segment) = true := by
              simpa [not_or] using hbad
            subst hlast
            rw [if_neg (by simpa [or_assoc] using hbad)]
            simp only [acceptSegments, assemble, Option.some_inj, Prod.mk.injEq]
            constructor
            · rintro ⟨rfl, rfl⟩
              exact .inr ⟨_, ⟨rfl, trivial⟩, hfits, htags, hgranule, rfl, rfl⟩
            · rintro (⟨hnone, -⟩ | ⟨tags, -, -, -, -, rfl, rfl⟩)
              · cases hnone
              · exact ⟨rfl, rfl⟩

/-! ## Pages -/

variable {page : OggPage}

/-- A page completes a packet just when one is put together on it. -/
theorem completes_iff (page : OggPage) (carried : Bytes) :
    decide ((assemble carried page.segments).1 ≠ []) = page.completes := by
  have hlengths : page.segments.map List.length = page.lacing.map UInt8.toNat :=
    List.map_splitLengths_length _ _ page.length_body.ge
  have hall : (∀ segment ∈ page.segments, segment.length = 255) ↔ ∀ b ∈ page.lacing, b = 255 := by
    rw [← List.forall_mem_map (P := fun n => n = 255), hlengths, List.forall_mem_map]
    refine forall₂_congr fun b _ => ?_
    rw [← UInt8.toNat_inj]
    rfl
  rw [Bool.eq_iff_iff, decide_eq_true_eq, Ne, assemble_eq_nil, hall, OggPage.completes,
    List.any_eq_true]
  simp

/-- What a page behind the first one does. -/
theorem acceptPage_eq_some {s : ℕ} (hphase : state.phase ≠ .head) (hended : state.ended = false)
    (hserial : state.serial = some s) :
    state.acceptPage page = some state' ↔
      page.serial = s ∧ page.lacing ≠ [] ∧
      ∃ next completed, acceptSegments page.position page.segments state false =
          some (next, completed) ∧
        (completed = false → page.position = -1) ∧ (completed = true → 0 ≤ page.position) ∧
        state' = { next with ended := page.eos } ∧ (page.eos = true → state'.isComplete = true) := by
  unfold acceptPage
  rw [hended, hserial, Bool.false_or, if_neg hphase, Option.any_some]
  by_cases hs : page.serial = s
  · have hstate : OpusAssembly.mk (some page.serial) state.phase state.carried state.audioPackets
        false = state := by
      rw [hs, ← hserial, ← hended]
    rw [if_neg (by simpa using hs), and_iff_right hs, hstate]
    by_cases hempty : page.lacing = []
    · rw [if_pos hempty]
      exact iff_of_false (fun h => nomatch h) fun h => h.1 hempty
    · rw [if_neg hempty, and_iff_right hempty]
      constructor
      · intro h
        split at h
        · cases h
        · rename_i next completed hsegments
          dsimp only at h
          split_ifs at h with hgranule hcomplete
          cases h
          refine ⟨next, completed, hsegments, fun hnone => ?_, fun hsome => ?_, rfl, fun heos => ?_⟩
          · by_contra hne
            exact hgranule (by simp [hnone, hne])
          · by_contra hlt
            exact hgranule (by simp [hsome, Int.not_le.mp hlt])
          · rw [heos] at hcomplete ⊢
            simpa using hcomplete
      · rintro ⟨next, completed, hsegments, hnone, hsome, rfl, hcomplete⟩
        rw [hsegments]
        dsimp only
        rw [if_neg, if_pos]
        · cases heos : page.eos with
          | false => rfl
          | true =>
              rw [heos] at hcomplete
              exact hcomplete rfl
        · cases completed with
          | false => simp [hnone rfl]
          | true => simpa using hsome rfl
  · rw [if_pos (by simpa using hs)]
    exact iff_of_false (fun h => nomatch h) fun h => hs h.1

/-- What a page of audio does. -/
theorem acceptPage_audio {s : ℕ} (hphase : state.phase = .audio) (hended : state.ended = false)
    (hserial : state.serial = some s) (hcount : state.audioPackets ≤ maxAudioPackets)
    (hcarried : state.carried.length ≤ maxAudioPacketBytes) :
    state.acceptPage page = some state' ↔
      (page.serial = s ∧ page.lacing ≠ [] ∧ (page.completes = false → page.position = -1) ∧
        (page.completes = true → 0 ≤ page.position)) ∧
      (∀ packet ∈ (assemble state.carried page.segments).1,
        matchesOpusPacketFraming packet = true) ∧
      state.audioPackets + (assemble state.carried page.segments).1.length ≤ maxAudioPackets ∧
      (assemble state.carried page.segments).2.length ≤ maxAudioPacketBytes ∧
      state' = .mk (some s) .audio (assemble state.carried page.segments).2
        (state.audioPackets + (assemble state.carried page.segments).1.length) page.eos ∧
      (page.eos = true → state'.isComplete = true) := by
  rw [acceptPage_eq_some (by rw [hphase]; decide) hended hserial]
  simp only [acceptSegments_audio hphase hcount hcarried, completes_iff, Bool.false_or, hserial]
  constructor
  · rintro ⟨hs, hlacing, _, _, ⟨hframing, hfew, hrest, rfl, rfl⟩, hnone, hsome, rfl, hcomplete⟩
    exact ⟨⟨hs, hlacing, hnone, hsome⟩, hframing, hfew, hrest, rfl, hcomplete⟩
  · rintro ⟨⟨hs, hlacing, hnone, hsome⟩, hframing, hfew, hrest, rfl, hcomplete⟩
    exact ⟨hs, hlacing, _, _, ⟨hframing, hfew, hrest, rfl, rfl⟩, hnone, hsome, rfl, hcomplete⟩

/-- What a page of the comment packet does: it is not the last page of the stream. -/
theorem acceptPage_tags {s : ℕ} (hphase : state.phase = .tags) (hended : state.ended = false)
    (hserial : state.serial = some s) (hcount : state.audioPackets = 0)
    (hcarried : state.carried.length ≤ maxTagBytes) :
    state.acceptPage page = some state' ↔
      page.serial = s ∧ page.lacing ≠ [] ∧ page.eos = false ∧
      ((page.completes = false ∧ page.position = -1 ∧
          (assemble state.carried page.segments).2.length ≤ maxTagBytes ∧
          state' = .mk (some s) .tags (assemble state.carried page.segments).2 0 false) ∨
        ∃ tags, assemble state.carried page.segments = ([tags], []) ∧ tags.length ≤ maxTagBytes ∧
          matchesOpusTags tags = true ∧ page.position = 0 ∧
          state' = .mk (some s) .audio [] 0 false) := by
  have hnil : (assemble state.carried page.segments).1 = [] ↔ page.completes = false := by
    rw [← completes_iff page state.carried, decide_eq_false_iff_not, not_not]
  rw [acceptPage_eq_some (by rw [hphase]; decide) hended hserial]
  simp only [acceptSegments_tags hphase hcarried, hnil, hserial, hcount, hended]
  refine and_congr_right fun hs => and_congr_right fun hlacing => ?_
  constructor
  · rintro ⟨next, completed, ⟨hnone, hrest, rfl, rfl⟩ | ⟨tags, hone, hle, htags, hzero, rfl, rfl⟩,
      hno, hyes, rfl, hcomplete⟩
    · have heos : page.eos = false :=
        Bool.eq_false_iff.mpr fun heos => by simpa [isComplete] using hcomplete heos
      refine ⟨heos, .inl ⟨hnone, hno rfl, hrest, ?_⟩⟩
      rw [heos]
    · have heos : page.eos = false :=
        Bool.eq_false_iff.mpr fun heos => by simpa [isComplete] using hcomplete heos
      refine ⟨heos, .inr ⟨tags, hone, hle, htags, hzero, ?_⟩⟩
      rw [heos]
  · rintro ⟨heos, ⟨hnone, hposition, hrest, rfl⟩ | ⟨tags, hone, hle, htags, hzero, rfl⟩⟩
    · refine ⟨_, _, .inl ⟨hnone, hrest, rfl, rfl⟩, fun _ => hposition, (fun h => nomatch h), ?_,
        fun h => ?_⟩
      · rw [heos]
      · rw [heos] at h
        cases h
    · refine ⟨_, _, .inr ⟨tags, hone, hle, htags, hzero, rfl, rfl⟩, (fun h => nomatch h),
        fun _ => hzero.ge, ?_, fun h => ?_⟩
      · rw [heos]
      · rw [heos] at h
        cases h

/-! ## Whole streams -/

/-- The pages are accepted one after the other, up to a stream that is complete. -/
def Accepts (state : OpusAssembly) (pages : List OggPage) : Prop :=
  ∃ state', pages.foldlM OpusAssembly.acceptPage state = some state' ∧ state'.isComplete = true

/-- Only the last of the pages ends the stream. -/
def EndsLast (pages : List OggPage) : Prop :=
  ∀ before page after, pages = before ++ page :: after → (page.eos = true ↔ after = [])

variable {pages : List OggPage}

/-- The end is accepted where the stream may end. -/
theorem accepts_nil : state.Accepts [] ↔ state.isComplete = true := by
  constructor
  · rintro ⟨state', hnil, hcomplete⟩
    rwa [Option.some.inj hnil]
  · exact fun h => ⟨state, rfl, h⟩

/-- Pages are accepted one after another. -/
theorem accepts_cons : state.Accepts (page :: pages) ↔
    ∃ next, state.acceptPage page = some next ∧ next.Accepts pages := by
  unfold Accepts
  simp only [List.foldlM_cons, Option.bind_eq_bind, Option.bind_eq_some_iff]
  constructor
  · rintro ⟨state', ⟨next, hnext, hrest⟩, hcomplete⟩
    exact ⟨next, hnext, state', hrest, hcomplete⟩
  · rintro ⟨next, hnext, state', hrest, hcomplete⟩
    exact ⟨state', ⟨next, hnext, hrest⟩, hcomplete⟩

/-- The rest ends last too. -/
theorem EndsLast.tail (h : EndsLast (page :: pages)) : EndsLast pages :=
  fun before page' after heq => h (page :: before) page' after (congrArg _ heq)

/-- Only the last page ends the stream. -/
theorem EndsLast.head (h : EndsLast (page :: pages)) : page.eos = true ↔ pages = [] :=
  h [] page pages rfl

/-- The segments of a stream, page by page. -/
theorem streamSegments_cons : streamSegments (page :: pages) = page.segments ++ streamSegments pages :=
  List.flatMap_cons

/-- A page of audio follows the rules for pages. -/
structure AudioPage (s : ℕ) (page : OggPage) : Prop where
  serial : page.serial = s
  nonempty : page.lacing ≠ []
  incomplete : page.completes = false → page.position = -1
  complete : page.completes = true → 0 ≤ page.position

/-- **The pages of audio** are accepted as their packets are, whatever the pages are. -/
theorem accepts_audio {s : ℕ} (hends : EndsLast pages) (hphase : state.phase = .audio)
    (hended : state.ended = false) (hserial : state.serial = some s)
    (hcount : state.audioPackets ≤ maxAudioPackets)
    (hcarried : state.carried.length ≤ maxAudioPacketBytes) :
    state.Accepts pages ↔
      (∀ page ∈ pages, AudioPage s page) ∧
      (assemble state.carried (streamSegments pages)).2 = [] ∧
      (∀ packet ∈ (assemble state.carried (streamSegments pages)).1,
        matchesOpusPacketFraming packet = true) ∧
      0 < state.audioPackets + (assemble state.carried (streamSegments pages)).1.length ∧
      state.audioPackets + (assemble state.carried (streamSegments pages)).1.length ≤
        maxAudioPackets ∧
      pages ≠ [] := by
  induction pages generalizing state with
  | nil =>
      rw [accepts_nil, isComplete, hended]
      exact iff_of_false Bool.false_ne_true fun h => h.2.2.2.2.2 rfl
  | cons page pages ih =>
      rw [accepts_cons, streamSegments_cons, List.forall_mem_cons, and_iff_left (List.cons_ne_nil _ _),
        assemble_append]
      simp only [acceptPage_audio hphase hended hserial hcount hcarried]
      generalize hhere : assemble state.carried page.segments = here
      obtain ⟨packets, rest⟩ := here
      dsimp only
      by_cases hlast : pages = []
      · subst hlast
        have heos := hends.head.mpr rfl
        rw [show streamSegments [] = [] by rfl, assemble]
        dsimp only
        rw [List.append_nil]
        constructor
        · rintro ⟨next, ⟨⟨hs, hlacing, hno, hyes⟩, hframing, hfew, -, rfl, hcomplete⟩, -⟩
          have hdone := hcomplete heos
          simp only [isComplete, Bool.and_eq_true, decide_eq_true_eq] at hdone
          exact ⟨⟨⟨hs, hlacing, hno, hyes⟩, fun _ hmem => nomatch hmem⟩, hdone.2, hframing,
            hdone.1.2, hfew⟩
        · rintro ⟨⟨⟨hs, hlacing, hno, hyes⟩, -⟩, rfl, hframing, hpos, hfew⟩
          have hdone : (OpusAssembly.mk (some s) .audio [] (state.audioPackets + packets.length)
              page.eos).isComplete = true := by
            simp only [isComplete, Bool.and_eq_true, decide_eq_true_eq]
            exact ⟨⟨⟨heos, trivial⟩, hpos⟩, trivial⟩
          exact ⟨_, ⟨⟨hs, hlacing, hno, hyes⟩, hframing, hfew, Nat.zero_le _, rfl, fun _ => hdone⟩,
            accepts_nil.mpr hdone⟩
      · have heos : page.eos = false := Bool.eq_false_iff.mpr fun h => hlast (hends.head.mp h)
        have hnext := fun hfew hrest => @ih (.mk (some s) .audio rest
          (state.audioPackets + packets.length) false) hends.tail rfl rfl rfl hfew hrest
        dsimp only at hnext
        rw [heos]
        simp only [List.length_append, ← Nat.add_assoc, List.forall_mem_append]
        constructor
        · rintro ⟨next, ⟨⟨hs, hlacing, hno, hyes⟩, hframing, hfew, hrest, rfl, -⟩, haccepts⟩
          obtain ⟨hall, hleft, hframing', hpos, hfew', -⟩ := (hnext hfew hrest).mp haccepts
          exact ⟨⟨⟨hs, hlacing, hno, hyes⟩, hall⟩, hleft, ⟨hframing, hframing'⟩, hpos, hfew'⟩
        · rintro ⟨⟨⟨hs, hlacing, hno, hyes⟩, hall⟩, hleft, ⟨hframing, hframing'⟩, hpos, hfew'⟩
          have hfew : state.audioPackets + packets.length ≤ maxAudioPackets := by omega
          have hrest : rest.length ≤ maxAudioPacketBytes := length_carried_le
            (fun packet hmem => length_le_of_framing (hframing' packet hmem))
            (by rw [hleft]; exact Nat.zero_le _)
          exact ⟨_, ⟨⟨hs, hlacing, hno, hyes⟩, hframing, hfew, hrest, rfl, (fun h => nomatch h)⟩,
            (hnext hfew hrest).mpr ⟨hall, hleft, hframing', hpos, hfew', hlast⟩⟩

/-- A page of the comment packet follows the rules for pages. -/
structure TagPage (s : ℕ) (page : OggPage) : Prop where
  serial : page.serial = s
  nonempty : page.lacing ≠ []
  incomplete : page.completes = false → page.position = -1
  complete : page.completes = true → page.position = 0

/-- Pages with segments hold some. -/
theorem pages_eq_nil (hlacing : ∀ page ∈ pages, page.lacing ≠ [])
    (h : streamSegments pages = []) : pages = [] := by
  cases pages with
  | nil => rfl
  | cons page pages =>
      rw [streamSegments_cons] at h
      have hnone := congrArg List.length (List.append_eq_nil_iff.mp h).1
      rw [OggPage.segments, List.length_splitLengths, List.length_map, List.length_nil,
        List.length_eq_zero_iff] at hnone
      exact absurd hnone (hlacing page List.mem_cons_self)

/-- **The pages of the comment packet** are accepted as the packet is, and so are those behind it. -/
theorem accepts_tags {s : ℕ} (hends : EndsLast pages) (hphase : state.phase = .tags)
    (hended : state.ended = false) (hserial : state.serial = some s)
    (hcount : state.audioPackets = 0) (hcarried : state.carried.length ≤ maxTagBytes) :
    state.Accepts pages ↔
      ∃ tagPages audioPages tags, pages = tagPages ++ audioPages ∧
        assemble state.carried (streamSegments tagPages) = ([tags], []) ∧
        tags.length ≤ maxTagBytes ∧ matchesOpusTags tags = true ∧
        (∀ page ∈ tagPages, TagPage s page) ∧ (∀ page ∈ audioPages, AudioPage s page) ∧
        (assemble [] (streamSegments audioPages)).2 = [] ∧
        (∀ packet ∈ packetsOf audioPages, matchesOpusPacketFraming packet = true) ∧
        0 < (packetsOf audioPages).length ∧ (packetsOf audioPages).length ≤ maxAudioPackets := by
  induction pages generalizing state with
  | nil =>
      rw [accepts_nil, isComplete, hended]
      refine iff_of_false Bool.false_ne_true ?_
      rintro ⟨tagPages, audioPages, tags, hsplit, hassemble, -⟩
      obtain ⟨rfl, -⟩ := List.append_eq_nil_iff.mp hsplit.symm
      cases hassemble
  | cons page pages ih =>
      have hopen : page.completes = false → (assemble state.carried page.segments).1 = [] := by
        intro hno
        rw [← completes_iff page state.carried] at hno
        exact not_not.mp (of_decide_eq_false hno)
      rw [accepts_cons]
      simp only [acceptPage_tags hphase hended hserial hcount hcarried]
      constructor
      · rintro ⟨next, ⟨hs, hlacing, heos, ⟨hno, hposition, hrest, rfl⟩ |
          ⟨tags, hone, hle, htags, hzero, rfl⟩⟩, haccepts⟩
        · obtain ⟨tagPages, audioPages, tags, rfl, hassemble, hle, htags, htagPages, hmore⟩ :=
            (ih hends.tail rfl rfl rfl rfl hrest).mp haccepts
          refine ⟨page :: tagPages, audioPages, tags, rfl, ?_, hle, htags,
            List.forall_mem_cons.mpr ⟨⟨hs, hlacing, fun _ => hposition, fun h => ?_⟩, htagPages⟩,
            hmore⟩
          · rw [streamSegments_cons, assemble_append, hopen hno, List.nil_append]
            exact hassemble
          · rw [hno] at h
            cases h
        · obtain ⟨haudio, hleft, hframing, hpos, hfew, -⟩ := (accepts_audio hends.tail rfl rfl rfl
            (Nat.zero_le _) (Nat.zero_le _)).mp haccepts
          rw [Nat.zero_add] at hpos hfew
          refine ⟨[page], pages, tags, rfl, ?_, hle, htags, ?_, haudio, hleft, hframing, hpos, hfew⟩
          · rw [streamSegments_cons, show streamSegments [] = [] by rfl, List.append_nil]
            exact hone
          · refine List.forall_mem_singleton.mpr ⟨hs, hlacing, fun hno => ?_, fun _ => hzero⟩
            have hnone := hopen hno
            rw [hone] at hnone
            cases hnone
      · rintro ⟨tagPages, audioPages, tags, hsplit, hassemble, hle, htags, htagPages, haudio, hleft,
          hframing, hpos, hfew⟩
        cases tagPages with
        | nil => cases hassemble
        | cons first tagPages =>
            obtain ⟨rfl, rfl⟩ := List.cons.inj hsplit
            obtain ⟨hpage, htagPages'⟩ := List.forall_mem_cons.mp htagPages
            rw [streamSegments_cons, assemble_append] at hassemble
            obtain ⟨hpackets, hrest⟩ := Prod.mk.inj hassemble
            have hmore : tagPages ++ audioPages ≠ [] := by
              intro hnil
              rw [(List.append_eq_nil_iff.mp hnil).2] at hpos
              exact absurd hpos (by decide)
            have heos : page.eos = false := Bool.eq_false_iff.mpr fun h => hmore (hends.head.mp h)
            cases hcompletes : page.completes with
            | false =>
                rw [hopen hcompletes, List.nil_append] at hpackets
                have hlong : (assemble state.carried page.segments).2.length ≤ maxTagBytes :=
                  length_carried_le (by rw [hpackets]; simpa using hle)
                    (by rw [hrest]; exact Nat.zero_le _)
                refine ⟨_, ⟨hpage.serial, hpage.nonempty, heos,
                  .inl ⟨rfl, hpage.incomplete hcompletes, hlong, rfl⟩⟩, ?_⟩
                exact (ih hends.tail rfl rfl rfl rfl hlong).mpr ⟨tagPages, audioPages, tags, rfl,
                  Prod.ext hpackets hrest, hle, htags, htagPages', haudio, hleft, hframing, hpos, hfew⟩
            | true =>
                have hsome : (assemble state.carried page.segments).1 ≠ [] := by
                  rw [← completes_iff page state.carried] at hcompletes
                  exact of_decide_eq_true hcompletes
                obtain ⟨hone, hnone⟩ :=
                  (List.append_eq_singleton_iff.mp hpackets).resolve_left fun h => hsome h.1
                have hzero : (assemble state.carried page.segments).2.length ≤ 0 :=
                  length_carried_le (by rw [hnone]; exact fun _ hmem => nomatch hmem)
                    (by rw [hrest]; exact Nat.le_refl 0)
                have hcarried' := List.eq_nil_of_length_eq_zero (Nat.le_zero.mp hzero)
                rw [hcarried'] at hnone hrest
                obtain rfl := pages_eq_nil (fun page hmem => (htagPages' page hmem).nonempty)
                  (segments_eq_nil (Prod.ext hnone hrest))
                refine ⟨_, ⟨hpage.serial, hpage.nonempty, heos, .inr ⟨tags,
                  Prod.ext hone hcarried', hle, htags, hpage.complete hcompletes, rfl⟩⟩, ?_⟩
                refine (accepts_audio hends.tail rfl rfl rfl (Nat.zero_le _) (Nat.zero_le _)).mpr
                  ⟨haudio, hleft, hframing, ?_, ?_, hmore⟩
                · rw [Nat.zero_add]
                  exact hpos
                · rw [Nat.zero_add]
                  exact hfew

/-- A page is only accepted while the stream goes on, and ends it if it says so. -/
theorem ended_of_acceptPage {next : OpusAssembly} (h : state.acceptPage page = some next) :
    state.ended = false ∧ next.ended = page.eos := by
  unfold acceptPage at h
  split_ifs at h with hended hhead haccepted
  · cases h
    have hopen := (Bool.or_eq_false_iff.mp (Bool.eq_false_iff.mpr hended)).1
    simp only [acceptHead, Bool.and_eq_true, decide_eq_true_eq] at haccepted
    refine ⟨hopen, hopen.trans ?_⟩
    rw [OggPage.eos, haccepted.1.1.1.1.1.1.1]
    decide
  · have hopen := (Bool.or_eq_false_iff.mp (Bool.eq_false_iff.mpr hended)).1
    split at h
    · cases h
    · dsimp only at h
      split_ifs at h
      cases h
      exact ⟨hopen, rfl⟩

/-- What is accepted ends with its last page. -/
theorem Accepts.endsLast (h : state.Accepts pages) : EndsLast pages := by
  induction pages generalizing state with
  | nil => exact fun before page after heq => absurd heq.symm (by simp)
  | cons page pages ih =>
      obtain ⟨next, hnext, hrest⟩ := accepts_cons.mp h
      have hended := (ended_of_acceptPage hnext).2
      intro before page' after heq
      cases before with
      | cons first before =>
          obtain ⟨rfl, htail⟩ := List.cons.inj heq
          exact ih hrest before page' after htail
      | nil =>
          obtain ⟨rfl, rfl⟩ := List.cons.inj heq
          rw [← hended]
          cases pages with
          | nil =>
              have hcomplete := accepts_nil.mp hrest
              simp only [isComplete, Bool.and_eq_true] at hcomplete
              exact iff_of_true hcomplete.1.1.1 rfl
          | cons page' pages =>
              obtain ⟨_, hnext', -⟩ := accepts_cons.mp hrest
              rw [(ended_of_acceptPage hnext').1]
              exact iff_of_false Bool.false_ne_true (List.cons_ne_nil _ _)

/-! ## The first page -/

/-- A page with one lacing value has one segment. -/
theorem segments_of_lacing {length : UInt8} (h : page.lacing = [length]) :
    page.segments = [page.body] ∧ page.body.length = length.toNat := by
  have hlength := page.length_body
  rw [h, List.map_singleton, List.sum_singleton] at hlength
  refine ⟨?_, hlength⟩
  rw [OggPage.segments, h, List.map_singleton, List.splitLengths, List.splitAt_eq]
  dsimp only
  rw [← hlength, List.take_length]
  rfl

/-- The pages of which the first one can be accepted hold an identification packet. -/
theorem acceptHead_iff : acceptHead page = true ↔
    page.flags = 0x02 ∧ page.position = 0 ∧
      (∃ length, page.lacing = [length] ∧ length ≠ 255) ∧ ValidOpusHead page.body := by
  simp only [acceptHead, Bool.and_eq_true, decide_eq_true_eq]
  constructor
  · rintro ⟨⟨⟨⟨⟨⟨⟨hflags, hposition⟩, hone⟩, hlength⟩, hmagic⟩, hversion⟩, hchannels⟩, hfamily⟩
    obtain ⟨length, hlacing⟩ := List.length_eq_one_iff.mp hone
    rw [hlacing, List.getD_cons_zero] at hlength
    subst hlength
    exact ⟨hflags, hposition, ⟨19, hlacing, by decide⟩, (segments_of_lacing hlacing).2, hmagic,
      hversion, hchannels, hfamily⟩
  · rintro ⟨hflags, hposition, ⟨length, hlacing, -⟩, hvalid⟩
    have hlength : length = 19 := by
      rw [← UInt8.toNat_inj, ← (segments_of_lacing hlacing).2, hvalid.length]
      rfl
    rw [hlacing]
    exact ⟨⟨⟨⟨⟨⟨⟨hflags, hposition⟩, rfl⟩, hlength⟩, hvalid.magic⟩, hvalid.version⟩,
      hvalid.channels⟩, hvalid.family⟩

/-- A packet that is alone on the first page is the first packet. -/
theorem packetsOf_cons {length : UInt8} (hlacing : page.lacing = [length]) (hlength : length ≠ 255) :
    packetsOf (page :: pages) = page.body :: packetsOf pages := by
  obtain ⟨hsegments, hbody⟩ := segments_of_lacing hlacing
  have hopen : ¬ page.body.length = 255 := by
    rw [hbody]
    exact fun h => hlength (UInt8.toNat_inj.mp h)
  rw [packetsOf, streamSegments_cons, hsegments, List.singleton_append, assemble, if_neg hopen]
  rfl

/-- The tags stand in front of the audio packets. -/
theorem packetsOf_append {audioPages : List OggPage} {tags : Bytes}
    (h : assemble [] (streamSegments pages) = ([tags], [])) :
    packetsOf (pages ++ audioPages) = tags :: packetsOf audioPages := by
  rw [packetsOf, streamSegments, List.flatMap_append]
  change (assemble [] (streamSegments pages ++ streamSegments audioPages)).1 = _
  rw [assemble_append, h]
  rfl

/-- **The pages of an upload** are accepted iff they are a pagination of its packets. -/
theorem accepts_iff (hends : EndsLast pages) :
    OggOpusProfile.initial.view.Accepts pages ↔
      OpusPagination pages ∧ OpusPackets (packetsOf pages) := by
  cases pages with
  | nil =>
      refine iff_of_false (fun h => ?_) ?_
      · have hcomplete := accepts_nil.mp h
        cases hcomplete
      · rintro ⟨⟨-, first, tagPages, audioPages, hsplit, -⟩, -⟩
        cases hsplit
  | cons first pages =>
      have hfirst : OggOpusProfile.initial.view.acceptPage first =
          if acceptHead first then some (.mk (some first.serial) .tags [] 0 false) else none := rfl
      have haccepts := @accepts_tags (.mk (some first.serial) .tags [] 0 false) pages first.serial
        hends.tail rfl rfl rfl rfl (Nat.zero_le _)
      rw [accepts_cons, hfirst]
      constructor
      · rintro ⟨next, hnext, hrest⟩
        split_ifs at hnext with hhead
        cases hnext
        obtain ⟨hflags, hposition, ⟨length, hlacing, hlength⟩, hvalid⟩ := acceptHead_iff.mp hhead
        obtain ⟨tagPages, audioPages, tags, rfl, hassemble, hle, htags, htagPages, haudio, hleft,
          hframing, hpos, hfew⟩ := haccepts.mp hrest
        have hserial : ∀ page ∈ first :: (tagPages ++ audioPages), page.serial = first.serial := by
          refine List.forall_mem_cons.mpr ⟨rfl, List.forall_mem_append.mpr ⟨fun page hmem => ?_,
            fun page hmem => ?_⟩⟩
          · exact (htagPages page hmem).serial
          · exact (haudio page hmem).serial
        refine ⟨⟨fun page hmem page' hmem' => (hserial page hmem).trans (hserial page' hmem').symm,
          first, tagPages, audioPages, rfl, hflags, hposition, ⟨length, hlacing, hlength⟩,
          ⟨tags, hassemble⟩, hleft, ?_, ?_, fun page hmem => (htagPages page hmem).complete,
          fun page hmem => (haudio page hmem).complete⟩, ?_⟩
        · exact List.forall_mem_append.mpr ⟨fun page hmem => (htagPages page hmem).nonempty,
            fun page hmem => (haudio page hmem).nonempty⟩
        · exact List.forall_mem_append.mpr ⟨fun page hmem => (htagPages page hmem).incomplete,
            fun page hmem => (haudio page hmem).incomplete⟩
        · exact ⟨first.body, tags, packetsOf audioPages,
            by rw [packetsOf_cons hlacing hlength, packetsOf_append hassemble], hvalid, hle, htags,
            hpos, hfew, hframing⟩
      · rintro ⟨⟨hserial, first', tagPages, audioPages, hsplit, hflags, hposition,
          ⟨length, hlacing, hlength⟩, ⟨tags, hassemble⟩, hleft, hnonempty, hno, hzero, hyes⟩,
          head, tags', audio, hpackets, hvalid, hle, htags, hpos, hfew, hframing⟩
        obtain ⟨rfl, rfl⟩ := List.cons.inj hsplit
        rw [packetsOf_cons hlacing hlength, packetsOf_append hassemble] at hpackets
        obtain ⟨rfl, hrest⟩ := List.cons.inj hpackets
        obtain ⟨rfl, rfl⟩ := List.cons.inj hrest
        rw [if_pos (acceptHead_iff.mpr ⟨hflags, hposition, ⟨length, hlacing, hlength⟩, hvalid⟩)]
        have hsame : ∀ page ∈ tagPages ++ audioPages, page.serial = first.serial :=
          fun page hmem => hserial page (List.mem_cons_of_mem _ hmem) first List.mem_cons_self
        refine ⟨_, rfl, haccepts.mpr ⟨tagPages, audioPages, tags, rfl, hassemble, hle, htags,
          fun page hmem => ?_, fun page hmem => ?_, hleft, hframing, hpos, hfew⟩⟩
        · have hmem' := List.mem_append_left audioPages hmem
          exact ⟨hsame page hmem', hnonempty page hmem', hno page hmem', hzero page hmem⟩
        · have hmem' := List.mem_append_right tagPages hmem
          exact ⟨hsame page hmem', hnonempty page hmem', hno page hmem', hyes page hmem⟩

end OpusAssembly

/-! ## The verdict -/

/-- The profile that is required decides as the bytes that are put together. -/
theorem acceptOpusPages_iff {profile : OggOpusProfile} (h : profile.Fits) (pages : List OggPage) :
    (∃ opus, acceptOpusPages (some profile) pages = some opus ∧
      opus.all OggOpusProfile.isComplete = true) ↔ profile.view.Accepts pages := by
  induction pages generalizing profile with
  | nil =>
      rw [OpusAssembly.accepts_nil, h.isComplete_view]
      constructor
      · rintro ⟨opus, hopus, hcomplete⟩
        rw [← Option.some.inj hopus] at hcomplete
        exact hcomplete
      · exact fun hcomplete => ⟨some profile, rfl, hcomplete⟩
  | cons page pages ih =>
      obtain ⟨hmap, hfits⟩ := @OggOpusProfile.view_acceptPage profile page h
      have hstep : acceptOpusPages (some profile) (page :: pages) =
          (profile.acceptPage page.encode).bind fun next => acceptOpusPages (some next) pages := by
        rw [acceptOpusPages, List.foldlM_cons, acceptOpusPage]
        cases profile.acceptPage page.encode <;> rfl
      rw [hstep, OpusAssembly.accepts_cons, ← hmap]
      cases hnext : profile.acceptPage page.encode with
      | none =>
          refine iff_of_false ?_ ?_
          · rintro ⟨opus, hnone, -⟩
            cases hnone
          · rintro ⟨opus, hnone, -⟩
            cases hnone
      | some next =>
          rw [Option.bind_some, ih (hfits next hnext), Option.map_some]
          simp only [Option.some_inj, exists_eq_left']

/-- In a container with one serial number, only the last page ends a stream. -/
theorem OggContainer.endsLast {pages : List OggPage} (h : OggContainer pages)
    (hserial : ∀ page ∈ pages, ∀ page' ∈ pages, page.serial = page'.serial) :
    OpusAssembly.EndsLast pages := by
  intro before page after heq
  have hall : streamPages pages page.serial = pages :=
    List.filter_eq_self.mpr fun page' hmem => decide_eq_true
      (hserial page' hmem page (by rw [heq]; exact List.mem_append_right _ List.mem_cons_self))
  have hlegal := h.streams page.serial
  rw [hall] at hlegal
  exact hlegal.eos before page after heq

/-- The files that are accepted with the profile. -/
theorem matchesOggStructure_opus (file : Bytes) : matchesOggStructure file true = true ↔
    matchesOggStructure file false = true ∧ ∃ pages, encodePages pages = file ∧
      OpusPagination pages ∧ OpusPackets (packetsOf pages) := by
  rw [matchesOggStructure_iff, matchesOggStructure_iff]
  have haccepts := acceptOpusPages_iff OggOpusProfile.Fits.initial
  constructor
  · rintro ⟨pages, hencode, hknown, hcontainer, hopus⟩
    have haccepted := (haccepts pages).mp hopus
    exact ⟨⟨pages, hencode, hknown, hcontainer, none, acceptOpusPages_none pages, rfl⟩, pages, hencode,
      (OpusAssembly.accepts_iff haccepted.endsLast).mp haccepted⟩
  · rintro ⟨⟨pages, rfl, hknown, hcontainer, -⟩, pages', hencode, hpagination, hpackets⟩
    obtain rfl := encodePages_injective hencode
    have hends := hcontainer.endsLast hpagination.serial
    exact ⟨pages', rfl, hknown, hcontainer,
      (haccepts pages').mpr ((OpusAssembly.accepts_iff hends).mpr ⟨hpagination, hpackets⟩)⟩

/-- Of a pagination, only the packets matter. -/
theorem matchesOggStructure_of_pagination {pages : List OggPage}
    (hgeneric : matchesOggStructure (encodePages pages) false = true)
    (hpagination : OpusPagination pages) :
    matchesOggStructure (encodePages pages) true = true ↔ OpusPackets (packetsOf pages) := by
  rw [matchesOggStructure_opus, and_iff_right hgeneric]
  constructor
  · rintro ⟨pages', hencode, -, hpackets⟩
    rwa [encodePages_injective hencode] at hpackets
  · exact fun hpackets => ⟨pages, rfl, hpagination, hpackets⟩

/-- **Opus uploads**: the streaming verdict is the one on whole streams. The generic checks have to
accept the file, its pages have to be a pagination of their packets, and these have to be the packets
of an upload. So two files that are such paginations of the same packets get one verdict; and what is
left in the buffer from earlier packets has no effect on a page. -/
theorem opus_profile :
    (∀ file, matchesOggStructure file true = true ↔
      matchesOggStructure file false = true ∧ ∃ pages, encodePages pages = file ∧
        OpusPagination pages ∧ OpusPackets (packetsOf pages)) ∧
    (∀ pages pages', matchesOggStructure (encodePages pages) false = true →
      matchesOggStructure (encodePages pages') false = true → OpusPagination pages →
      OpusPagination pages' → packetsOf pages = packetsOf pages' →
      matchesOggStructure (encodePages pages) true = matchesOggStructure (encodePages pages') true) ∧
    (OggOpusProfile.initial.Fits ∧ ∀ (profile : OggOpusProfile) (page : OggPage), profile.Fits →
      (profile.acceptPage page.encode).map OggOpusProfile.view = profile.view.acceptPage page ∧
        ∀ profile' ∈ profile.acceptPage page.encode, profile'.Fits) := by
  refine ⟨matchesOggStructure_opus, fun pages pages' h h' hpagination hpagination' hpackets => ?_,
    OggOpusProfile.Fits.initial, fun profile page h => OggOpusProfile.view_acceptPage h⟩
  rw [Bool.eq_iff_iff, matchesOggStructure_of_pagination h hpagination,
    matchesOggStructure_of_pagination h' hpagination', hpackets]

end ApiWhatsApp
