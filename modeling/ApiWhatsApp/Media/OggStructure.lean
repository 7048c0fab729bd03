import ApiWhatsApp.Media.Checksums
import ApiWhatsApp.Media.OggOpusProfile
import Mathlib.Data.List.AList

/-!
# Ogg files

`matchesOggStructure` of `media/media-audio-structure.ts`: a walk over the pages of a file that keeps,
for each serial number, what the next page of that stream has to be.

* `OggPage` is a page by its fields. `OggPage.encode` writes it, with its checksum.
* `LegalStream` says what the pages of one stream are, in their order; `OggContainer` are pages whose
  streams are legal, in any interleaving.
* **`ogg_structure`** — the files that are accepted without the Opus profile are such pages one after
  the other, none of them with unknown flags, and none that continues a packet without any segment.
  **`ogg_structure_unknown_pages`**: neither condition follows from the others.
-/

namespace ApiWhatsApp

open Library

/-! ## The validator -/

/-- Source: `OGG_CAPTURE`. -/
def oggCapture : Bytes := asciiBytes "OggS"

/-- Source: `OGG_MAX_PAGE_BYTES`. -/
def oggMaxPageBytes : ℕ := 65307

/-- Source: `OGG_MAX_PAGES`. -/
def oggMaxPages : ℕ := 100000

/-- Source: `OggStreamState`. -/
structure OggStreamState where
  nextSequence : ℕ
  continuedPacket : Bool
  ended : Bool

/-- What the loop in `matchesOggStructure` keeps. The profile is only there when it is required. -/
@[ext] structure OggWalk where
  streams : AList fun _ : ℕ => OggStreamState
  opus : Option OggOpusProfile
  sawPayload : Bool

/-- The rules for the next page of a stream. -/
def oggPageFollows (prior : Option OggStreamState) (sequence : ℕ) (bos continued : Bool) : Bool :=
  match prior with
  | none => !(!bos || continued || sequence ≠ 0)
  | some prior =>
      !(prior.ended || bos || sequence ≠ prior.nextSequence || continued ≠ prior.continuedPacket)

/-- What the profile does at a page, if there is one. -/
def acceptOpusPage (opus : Option OggOpusProfile) (page : Bytes) : Option (Option OggOpusProfile) :=
  match opus with
  | none => some none
  | some profile => (profile.acceptPage page).map some

/-- One round of the loop in `matchesOggStructure`. -/
def oggPage (file : Bytes) (walk : OggWalk) (offset : ℕ) : Except Bool (ℕ × OggWalk) :=
  match readExactly file oggFixedHeaderBytes offset with
  | none => .error false
  | some fixed =>
      if fixed.take 4 ≠ oggCapture ∨ fixed.getD 4 0 ≠ 0 then .error false
      else
        let headerType := fixed.getD 5 0
        if headerType &&& ~~~0x07 ≠ 0 then .error false
        else
          let segmentCount := (fixed.getD 26 0).toNat
          match readExactly file segmentCount (offset + oggFixedHeaderBytes) with
          | none => .error false
          | some lacing =>
              let bodyBytes := (lacing.map UInt8.toNat).sum
              let pageBytes := oggFixedHeaderBytes + segmentCount + bodyBytes
              if pageBytes > oggMaxPageBytes ∨ offset + pageBytes > file.length then .error false
              else
                match readExactly file pageBytes offset with
                | none => .error false
                | some page =>
                    let serial := readLE fixed 4 14
                    let sequence := readLE fixed 4 18
                    let bos := decide (headerType &&& 0x02 ≠ 0)
                    let eos := decide (headerType &&& 0x04 ≠ 0)
                    let continued := decide (headerType &&& 0x01 ≠ 0)
                    let continuesToNextPage := segmentCount > 0 && lacing.getD (segmentCount - 1) 0 = 255
                    if !hasValidOggCrc page then .error false
                    else if continued && segmentCount = 0 then .error false
                    else if !oggPageFollows (walk.streams.lookup serial) sequence bos continued then
                      .error false
                    else if eos && continuesToNextPage then .error false
                    else
                      match acceptOpusPage walk.opus page with
                      | none => .error false
                      | some opus =>
                          .ok (pageBytes, {
                            streams := walk.streams.insert serial {
                              nextSequence := (sequence + 1) % 2 ^ 32
                              continuedPacket := continuesToNextPage
                              ended := eos }
                            opus
                            sawPayload := walk.sawPayload || bodyBytes > 0 })

/-- What the loop starts with. -/
def OggWalk.initial (requireOpusProfile : Bool) : OggWalk where
  streams := ∅
  opus := if requireOpusProfile then some OggOpusProfile.initial else none
  sawPayload := false

/-- Source: `matchesOggStructure`. -/
def matchesOggStructure (file : Bytes) (requireOpusProfile : Bool) : Bool :=
  if file.length < oggFixedHeaderBytes + 1 then false
  else
    match scan (oggPage file) file.length oggMaxPages (OggWalk.initial requireOpusProfile) 0 with
    | .error result => result
    | .ok (budget, walk, offset) =>
        offset = file.length && budget < oggMaxPages && budget > 0 && walk.sawPayload &&
          !walk.streams.entries.isEmpty && walk.opus.all OggOpusProfile.isComplete &&
          walk.streams.entries.all fun stream => stream.2.ended && !stream.2.continuedPacket

/-! ## Pages -/

/-- A page by its fields. -/
@[ext] structure OggPage where
  flags : UInt8
  granule : Bytes
  serial : ℕ
  sequence : ℕ
  lacing : Bytes
  body : Bytes
  length_granule : granule.length = 8
  serial_lt : serial < 2 ^ 32
  sequence_lt : sequence < 2 ^ 32
  length_lacing : lacing.length < 256
  length_body : body.length = (lacing.map UInt8.toNat).sum

namespace OggPage

/-- The first page of its stream. -/
def bos (page : OggPage) : Bool := decide (page.flags &&& 0x02 ≠ 0)

/-- The last page of its stream. -/
def eos (page : OggPage) : Bool := decide (page.flags &&& 0x04 ≠ 0)

/-- A page that goes on with a packet. -/
def continued (page : OggPage) : Bool := decide (page.flags &&& 0x01 ≠ 0)

/-- Whether the last packet goes on behind the page. -/
def continues (page : OggPage) : Bool := page.lacing.getLast? = some 255

/-- What stands before the checksum, -/
def head (page : OggPage) : Bytes :=
  oggCapture ++ ([0, page.flags] ++ (page.granule ++
    (littleEndianBytes 4 page.serial ++ littleEndianBytes 4 page.sequence)))

/-- and behind it. -/
def tail (page : OggPage) : Bytes :=
  UInt8.ofNat page.lacing.length :: (page.lacing ++ page.body)

/-- The page with its checksum. -/
def encode (page : OggPage) : Bytes := withOggCrc (page.head ++ [0, 0, 0, 0] ++ page.tail)

end OggPage

/-- The pages of one stream: the first of them begins it and the last of them ends it, they are
numbered, and each continues the packet that the one before it has left. -/
structure LegalStream (pages : List OggPage) : Prop where
  bos : ∀ before page after, pages = before ++ page :: after → (page.bos = true ↔ before = [])
  eos : ∀ before page after, pages = before ++ page :: after → (page.eos = true ↔ after = [])
  sequence : ∀ before page after, pages = before ++ page :: after →
    page.sequence = before.length % 2 ^ 32
  continued : ∀ before page after, pages = before ++ page :: after →
    (page.continued = true ↔ ∃ last ∈ before.getLast?, last.continues = true)
  complete : ∀ page ∈ pages, page.eos = true → page.continues = false

/-- The pages of a stream, among others. -/
def streamPages (pages : List OggPage) (serial : ℕ) : List OggPage :=
  pages.filter fun page => page.serial = serial

/-- Pages in any interleaving of streams, with some payload. -/
structure OggContainer (pages : List OggPage) : Prop where
  pages_pos : 1 ≤ pages.length
  pages_lt : pages.length < oggMaxPages
  payload : ∃ page ∈ pages, page.body ≠ []
  streams : ∀ serial, LegalStream (streamPages pages serial)

/-! ## Checksums -/

/-- What stands in the place of the checksum does not matter for it. -/
theorem withOggCrc_append {before field after : Bytes} (hbefore : before.length = 22)
    (hfield : field.length = 4) :
    withOggCrc (before ++ field ++ after) = before ++
      littleEndianBytes 4 (oggCrc (before ++ [0, 0, 0, 0] ++ after)).toNat ++ after := by
  have hcrc : oggCrc (before ++ field ++ after) = oggCrc (before ++ [0, 0, 0, 0] ++ after) := by
    rw [oggCrc_eq, oggCrc_eq, oggReference, oggReference, withoutChecksum_append hbefore hfield,
      withoutChecksum_append hbefore rfl]
  have hboth : (before ++ field).length = 26 := by rw [List.length_append, hbefore, hfield]
  rw [withOggCrc, hcrc, List.drop_left' hboth, List.append_assoc before field, List.take_left' hbefore]

/-- The valid pages are those that carry their checksum. -/
theorem hasValidOggCrc_iff {page : Bytes} (hlength : oggFixedHeaderBytes ≤ page.length) :
    hasValidOggCrc page = true ↔ withOggCrc page = page := by
  refine ⟨fun h => ?_, fun h => h ▸ hasValidOggCrc_withOggCrc hlength⟩
  unfold oggFixedHeaderBytes at hlength
  unfold hasValidOggCrc at h
  split_ifs at h
  have hcrc := of_decide_eq_true h
  rw [withOggCrc, hcrc, Int.toNat_natCast, List.append_assoc,
    ← drop_eq_readLE (show 22 + 4 ≤ page.length by omega), List.take_append_drop]

/-! ## The fields of a page -/

/-- The part of a page that has the same length in all of them. -/
theorem fixed_eq {fixed : Bytes} (h : fixed.length = 27) :
    fixed = fixed.take 4 ++ ([fixed.getD 4 0, fixed.getD 5 0] ++ ((fixed.drop 6).take 8 ++
      (littleEndianBytes 4 (readLE fixed 4 14) ++ littleEndianBytes 4 (readLE fixed 4 18)))) ++
      littleEndianBytes 4 (readLE fixed 4 22) ++ [fixed.getD 26 0] := by
  have hend : fixed.drop 27 = [] := List.drop_eq_nil_of_le h.le
  conv_lhs => rw [← List.take_append_drop 4 fixed, drop_eq_getD_cons (show 4 < fixed.length by omega),
    drop_eq_getD_cons (show 4 + 1 < fixed.length by omega), ← List.take_append_drop 8 (fixed.drop 6),
    List.drop_drop, drop_eq_readLE (show 6 + 8 + 4 ≤ fixed.length by omega),
    drop_eq_readLE (show 6 + 8 + 4 + 4 ≤ fixed.length by omega),
    drop_eq_readLE (show 6 + 8 + 4 + 4 + 4 ≤ fixed.length by omega),
    drop_eq_getD_cons (show 6 + 8 + 4 + 4 + 4 < fixed.length by omega), hend]
  simp only [List.append_assoc, List.cons_append, List.nil_append]

namespace OggPage

variable (page : OggPage)

/-- The checksum of a page. -/
def checksum : Bytes := littleEndianBytes 4 (oggCrc (page.head ++ [0, 0, 0, 0] ++ page.tail)).toNat

/-- What a page starts with, up to the number of its segments. -/
def fixed : Bytes := page.head ++ page.checksum ++ [UInt8.ofNat page.lacing.length]

/-- The mark has four bytes. -/
theorem length_capture : oggCapture.length = 4 := by decide

/-- What stands in front of the checksum has a fixed length. -/
theorem length_head : page.head.length = 22 := by
  simp only [head, List.length_append, length_capture, page.length_granule, length_littleEndianBytes,
    List.length_cons, List.length_nil]

/-- What stands in front of the lacing values has a fixed length. -/
theorem length_fixed : page.fixed.length = oggFixedHeaderBytes := by
  simp only [fixed, checksum, List.length_append, length_head, length_littleEndianBytes,
    List.length_singleton, oggFixedHeaderBytes]

/-- A page is its header, its lacing values and its body. -/
theorem encode_eq : page.encode = page.fixed ++ (page.lacing ++ page.body) := by
  rw [encode, withOggCrc_append page.length_head rfl, fixed, tail, checksum, tail]
  simp only [List.append_assoc, List.cons_append, List.nil_append]

/-- The length of a page. -/
theorem length_encode :
    page.encode.length = oggFixedHeaderBytes + page.lacing.length + page.body.length := by
  rw [encode_eq, List.length_append, List.length_append, length_fixed, Nat.add_assoc]

/-- A page has bytes. -/
theorem encode_ne_nil : page.encode ≠ [] := by
  refine List.length_pos_iff.mp ?_
  rw [length_encode, oggFixedHeaderBytes]
  omega

/-- The number of lacing values fits a byte. -/
theorem toNat_lacing : (UInt8.ofNat page.lacing.length).toNat = page.lacing.length := by
  rw [UInt8.toNat_ofNat', Nat.mod_eq_of_lt page.length_lacing]

/-- A page that carries its checksum is valid. -/
theorem hasValidOggCrc_encode : hasValidOggCrc page.encode = true := by
  refine hasValidOggCrc_withOggCrc ?_
  rw [List.length_append, List.length_append, length_head, tail, List.length_cons]
  simp only [oggFixedHeaderBytes, List.length_cons, List.length_nil]
  omega

/-- What is read of the fields. -/
theorem fixed_fields : page.fixed.take 4 = oggCapture ∧ page.fixed.getD 4 0 = 0 ∧
    page.fixed.getD 5 0 = page.flags ∧ (page.fixed.drop 6).take 8 = page.granule ∧
    readLE page.fixed 4 14 = page.serial ∧ readLE page.fixed 4 18 = page.sequence ∧
    page.fixed.getD 26 0 = UInt8.ofNat page.lacing.length := by
  have hcapture : page.fixed = oggCapture ++ (0 :: page.flags :: (page.granule ++
      (littleEndianBytes 4 page.serial ++ (littleEndianBytes 4 page.sequence ++
        (page.checksum ++ [UInt8.ofNat page.lacing.length]))))) := by
    rw [fixed, head]
    simp only [List.append_assoc, List.cons_append, List.nil_append]
  have hversion := congrArg (List.drop 4) hcapture
  rw [List.drop_left' length_capture] at hversion
  have hflags := congrArg (List.drop 1) hversion
  rw [List.drop_drop, List.drop_one, List.tail_cons] at hflags
  have hgranule := congrArg (List.drop 1) hflags
  rw [List.drop_drop, List.drop_one, List.tail_cons] at hgranule
  have hserial := congrArg (List.drop 8) hgranule
  rw [List.drop_drop, List.drop_left' page.length_granule] at hserial
  have hsequence := congrArg (List.drop 4) hserial
  rw [List.drop_drop, List.drop_left' (length_littleEndianBytes 4 _)] at hsequence
  have hcount : page.fixed.drop 26 = [UInt8.ofNat page.lacing.length] := by
    rw [fixed, List.drop_left']
    rw [checksum, List.length_append, length_head, length_littleEndianBytes]
  refine ⟨?_, getD_of_drop hversion, getD_of_drop hflags, ?_,
    readLE_littleEndianBytes page.serial_lt hserial,
    readLE_littleEndianBytes page.sequence_lt hsequence, getD_of_drop hcount⟩
  · rw [hcapture, List.take_left' length_capture]
  · rw [hgranule, List.take_left' page.length_granule]

/-- A page is told apart, and from what follows it. -/
theorem prefixFree_encode : PrefixFree (fun _ : OggPage => True) encode := by
  intro page page' u v _ _ heq
  rw [encode_eq, encode_eq] at heq
  simp only [List.append_assoc] at heq
  obtain ⟨hfixed, hrest⟩ := List.append_inj heq (by rw [length_fixed, length_fixed])
  obtain ⟨-, -, hflags, hgranule, hserial, hsequence, hcount⟩ := page.fixed_fields
  obtain ⟨-, -, hflags', hgranule', hserial', hsequence', hcount'⟩ := page'.fixed_fields
  rw [← hfixed] at hflags' hgranule' hserial' hsequence' hcount'
  have hlacing := congrArg UInt8.toNat (hcount.symm.trans hcount')
  rw [toNat_lacing, toNat_lacing] at hlacing
  obtain ⟨hlacingBytes, hbodies⟩ := List.append_inj hrest hlacing
  obtain ⟨hbody, huv⟩ := List.append_inj hbodies (by
    rw [page.length_body, page'.length_body, hlacingBytes])
  exact ⟨OggPage.ext (hflags.symm.trans hflags') (hgranule.symm.trans hgranule')
    (hserial.symm.trans hserial') (hsequence.symm.trans hsequence') hlacingBytes hbody, huv⟩

end OggPage

/-! ## One page -/

/-- What is kept of a page for the next one of its stream. -/
def OggPage.streamState (page : OggPage) : OggStreamState where
  nextSequence := (page.sequence + 1) % 2 ^ 32
  continuedPacket := page.continues
  ended := page.eos

/-- The loop behind a page. -/
def OggWalk.after (walk : OggWalk) (page : OggPage) (opus : Option OggOpusProfile) : OggWalk where
  streams := walk.streams.insert page.serial page.streamState
  opus := opus
  sawPayload := walk.sawPayload || page.body ≠ []

/-- A page that is admitted whatever came before it: its flags are known, and it has a segment if it
continues a packet. -/
structure OggPage.Known (page : OggPage) : Prop where
  flags : page.flags &&& ~~~0x07 = 0
  continued : page.continued = true → page.lacing ≠ []

/-- A page that follows what was kept of its stream. -/
structure OggFollows (prior : Option OggStreamState) (page : OggPage) : Prop where
  follows : oggPageFollows prior page.sequence page.bos page.continued = true
  complete : page.eos = true → page.continues = false

/-- The loop goes on behind a page. -/
structure OggStep (walk : OggWalk) (page : OggPage) (walk' : OggWalk) : Prop where
  known : page.Known
  follows : OggFollows (walk.streams.lookup page.serial) page
  accepted : ∃ opus, acceptOpusPage walk.opus page.encode = some opus ∧ walk' = walk.after page opus

/-- The packet goes on where the last lacing value is 255. -/
theorem getLast?_eq_some_iff_getD {lacing : Bytes} :
    (lacing.length > 0 && decide (lacing.getD (lacing.length - 1) 0 = 255)) =
      decide (lacing.getLast? = some 255) := by
  rcases List.eq_nil_or_concat' lacing with rfl | ⟨init, last, rfl⟩
  · rfl
  · have hlast : (init ++ [last]).getD ((init ++ [last]).length - 1) 0 = last := by
      rw [List.length_append, List.length_singleton, Nat.add_sub_cancel,
        List.getD_append_right _ _ _ _ (Nat.le_refl _), Nat.sub_self]
      rfl
    rw [hlast, List.getLast?_concat, List.length_append, List.length_singleton]
    simp

section

variable {file after : Bytes} {offset : ℕ} {page : OggPage}

/-- What the loop does where a page stands. -/
theorem oggPage_of_drop (walk : OggWalk) (hdrop : file.drop offset = page.encode ++ after) :
    oggPage file walk offset =
      if page.flags &&& ~~~0x07 ≠ 0 then .error false
      else if page.continued && page.lacing.length = 0 then .error false
      else if !oggPageFollows (walk.streams.lookup page.serial) page.sequence page.bos
          page.continued then .error false
      else if page.eos && page.continues then .error false
      else
        match acceptOpusPage walk.opus page.encode with
        | none => .error false
        | some opus => .ok (page.encode.length, walk.after page opus) := by
  obtain ⟨hcapture, hversion, hflags, -, hserial, hsequence, hcount⟩ := page.fixed_fields
  have hsplit : file.drop offset = page.fixed ++ (page.lacing ++ (page.body ++ after)) := by
    rw [hdrop, page.encode_eq]
    simp only [List.append_assoc]
  have hfixed := readExactly_of_drop hsplit
  rw [page.length_fixed] at hfixed
  have hbehind : file.drop (offset + oggFixedHeaderBytes) =
      page.lacing ++ (page.body ++ after) := by
    rw [← List.drop_drop, hsplit, List.drop_left' page.length_fixed]
  have hlacing := readExactly_of_drop hbehind
  have hpage := readExactly_of_drop hdrop
  rw [page.length_encode, page.length_body] at hpage
  have hsum := congrArg List.length hdrop
  rw [List.length_drop, List.length_append, page.length_encode, page.length_body] at hsum
  have hbytes : (page.lacing.map UInt8.toNat).sum ≤ page.lacing.length * 255 := by
    have hle := List.sum_le_card_nsmul (page.lacing.map UInt8.toNat) 255 (fun n hn => by
      obtain ⟨b, -, rfl⟩ := List.mem_map.mp hn
      exact Nat.le_of_lt_succ b.toNat_lt)
    rwa [List.length_map, smul_eq_mul] at hle
  have hlength := page.length_lacing
  have hpayload : decide ((page.lacing.map UInt8.toNat).sum > 0) = decide (page.body ≠ []) := by
    rw [decide_eq_decide, ← page.length_body, gt_iff_lt, List.length_pos_iff]
  have hheader : oggFixedHeaderBytes = 27 := rfl
  have hbounds : ¬ (oggFixedHeaderBytes + page.lacing.length + (page.lacing.map UInt8.toNat).sum >
      oggMaxPageBytes ∨ offset + (oggFixedHeaderBytes + page.lacing.length +
        (page.lacing.map UInt8.toNat).sum) > file.length) := by
    rw [oggMaxPageBytes]
    omega
  unfold oggPage
  rw [hfixed]
  dsimp only
  rw [hcapture, hversion, hflags, hserial, hsequence, hcount, page.toNat_lacing, hlacing]
  dsimp only
  rw [if_neg (not_or.mpr ⟨fun h => h rfl, fun h => h rfl⟩), if_neg hbounds, hpage]
  dsimp only
  rw [page.hasValidOggCrc_encode, getLast?_eq_some_iff_getD, hpayload, page.length_encode,
    page.length_body]
  rfl

/-- Where the loop goes on, a page stands. -/
theorem exists_page {walk : OggWalk} {next : ℕ × OggWalk}
    (h : oggPage file walk offset = .ok next) :
    ∃ (page : OggPage) (after : Bytes), file.drop offset = page.encode ++ after := by
  unfold oggPage at h
  split at h
  · cases h
  rename_i fixed hfixed
  rw [ite_eq_iff] at h
  obtain ⟨-, h⟩ | ⟨hstart, h⟩ := h
  · cases h
  dsimp only at h
  rw [ite_eq_iff] at h
  obtain ⟨-, h⟩ | ⟨-, h⟩ := h
  · cases h
  split at h
  · cases h
  rename_i lacing hlacing
  rw [ite_eq_iff] at h
  obtain ⟨-, h⟩ | ⟨-, h⟩ := h
  · cases h
  split at h
  · cases h
  rename_i bytes hbytes
  rw [ite_eq_iff] at h
  obtain ⟨-, h⟩ | ⟨hcrc, -⟩ := h
  · cases h
  replace hcrc : hasValidOggCrc bytes = true := by simpa using hcrc
  obtain ⟨hcapture, hversion⟩ := not_or.mp hstart
  obtain ⟨hfixedLength, rest, hrest⟩ := readExactly_eq_some.mp hfixed
  obtain ⟨hlacingLength, rest', hrest'⟩ := readExactly_eq_some.mp hlacing
  obtain ⟨hbytesLength, after, hafter⟩ := readExactly_eq_some.mp hbytes
  rw [← List.drop_drop, hrest, List.drop_left' hfixedLength] at hrest'
  -- The whole page starts with its header and its lacing values.
  have hhead : bytes.take (oggFixedHeaderBytes + (fixed.getD 26 0).toNat) = fixed ++ lacing := by
    have hlength : (fixed ++ lacing).length = oggFixedHeaderBytes + (fixed.getD 26 0).toNat := by
      rw [List.length_append, hfixedLength, hlacingLength]
    have htake := congrArg (List.take (oggFixedHeaderBytes + (fixed.getD 26 0).toNat)) hafter
    rw [List.take_append_of_le_length (by omega), hrest, hrest', ← List.append_assoc,
      List.take_left' hlength] at htake
    exact htake.symm
  have hbody : (bytes.drop (oggFixedHeaderBytes + (fixed.getD 26 0).toNat)).length =
      (lacing.map UInt8.toNat).sum := by
    rw [List.length_drop, hbytesLength, Nat.add_sub_cancel_left]
  have hsplit : bytes = fixed ++ (lacing ++
      bytes.drop (oggFixedHeaderBytes + (fixed.getD 26 0).toNat)) := by
    rw [← List.append_assoc, ← hhead, List.take_append_drop]
  generalize bytes.drop (oggFixedHeaderBytes + (fixed.getD 26 0).toNat) = body at hbody hsplit
  have hlength : fixed.length = 27 := hfixedLength
  have hgranule : ((fixed.drop 6).take 8).length = 8 := by
    rw [List.length_take_of_le]
    rw [List.length_drop]
    omega
  have hcount : lacing.length < 256 := hlacingLength ▸ (fixed.getD 26 0).toNat_lt
  let page : OggPage := ⟨fixed.getD 5 0, (fixed.drop 6).take 8, readLE fixed 4 14, readLE fixed 4 18,
    lacing, body, hgranule, readLE_lt fixed 4 14, readLE_lt fixed 4 18, hcount, hbody⟩
  have hwhole : bytes = page.head ++ littleEndianBytes 4 (readLE fixed 4 22) ++ page.tail := by
    have hparts := fixed_eq hlength
    rw [not_not.mp hcapture, not_not.mp hversion] at hparts
    conv_lhs => rw [hsplit, hparts]
    rw [OggPage.head, OggPage.tail]
    simp only [page, hlacingLength, UInt8.ofNat_toNat, List.append_assoc, List.cons_append,
      List.nil_append]
  refine ⟨page, after, ?_⟩
  rw [hafter, OggPage.encode, withOggCrc_append page.length_head rfl,
    ← withOggCrc_append page.length_head (length_littleEndianBytes 4 (readLE fixed 4 22)), ← hwhole,
    (hasValidOggCrc_iff (by omega)).mp hcrc]

/-- A round of the walk goes over a page that its stream expects. -/
theorem oggPage_eq_ok {walk walk' : OggWalk} (hdrop : file.drop offset = page.encode ++ after)
    {length : ℕ} :
    oggPage file walk offset = .ok (length, walk') ↔
      page.encode.length = length ∧ OggStep walk page walk' := by
  rw [oggPage_of_drop walk hdrop]
  constructor
  · intro h
    split_ifs at h with hflags hempty hfollows hopen
    split at h
    · cases h
    · rename_i opus hopus
      cases h
      refine ⟨rfl, ⟨not_not.mp hflags, fun hcontinued hnil => ?_⟩, ⟨?_, fun heos => ?_⟩, opus, hopus,
        rfl⟩
      · exact hempty (by rw [hcontinued, hnil]; rfl)
      · simpa using hfollows
      · rw [heos, Bool.true_and] at hopen
        exact Bool.eq_false_iff.mpr hopen
  · rintro ⟨rfl, ⟨hflags, hempty⟩, ⟨hfollows, hopen⟩, opus, hopus, rfl⟩
    have hsegments : (page.continued && page.lacing.length = 0) = false := by
      rw [Bool.and_eq_false_imp]
      exact fun h => decide_eq_false fun hnil => hempty h (List.eq_nil_of_length_eq_zero hnil)
    have hcomplete : (page.eos && page.continues) = false := by
      rw [Bool.and_eq_false_imp]
      exact hopen
    rw [if_neg (not_not.mpr hflags), hsegments, hfollows, hcomplete, hopus]
    rfl

end

/-- No round ends the walk with a success. -/
theorem oggPage_ne_error_true (file : Bytes) (walk : OggWalk) (offset : ℕ) :
    oggPage file walk offset ≠ .error true := by
  unfold oggPage
  dsimp only
  repeat' split
  all_goals rintro ⟨⟩

/-- A round of the walk goes over a page. -/
theorem scans_oggPage (file : Bytes) :
    Scans (oggPage file) file fun walk item walk' =>
      ∃ page : OggPage, item = page.encode ∧ OggStep walk page walk' where
  sound {walk offset length walk'} h := by
    obtain ⟨page, after, hdrop⟩ := exists_page h
    obtain ⟨hlength, hstep⟩ := (oggPage_eq_ok hdrop).mp h
    exact ⟨_, after, hdrop, hlength, page, rfl, hstep⟩
  complete {walk offset item after walk'} hdrop hitem := by
    obtain ⟨page, rfl, hstep⟩ := hitem
    exact (oggPage_eq_ok hdrop).mpr ⟨rfl, hstep⟩
  ne_nil {walk item walk'} hitem := by
    obtain ⟨page, rfl, -⟩ := hitem
    exact page.encode_ne_nil

/-! ## All pages -/

/-- What is kept of all streams. -/
def streamsAfter (streams : AList fun _ : ℕ => OggStreamState) (pages : List OggPage) :
    AList fun _ : ℕ => OggStreamState :=
  pages.foldl (fun streams page => streams.insert page.serial page.streamState) streams

/-- What the profile does at all pages, if there is one. -/
def acceptOpusPages (opus : Option OggOpusProfile) (pages : List OggPage) :
    Option (Option OggOpusProfile) :=
  pages.foldlM (fun opus page => acceptOpusPage opus page.encode) opus

/-- What the loop has done at the end of some pages. -/
theorem chain_oggStep_iff {pages : List OggPage} {walk walk' : OggWalk} :
    Chain OggStep walk pages walk' ↔
      (∀ before page after, pages = before ++ page :: after → page.Known ∧
        OggFollows ((streamsAfter walk.streams before).lookup page.serial) page) ∧
      acceptOpusPages walk.opus pages = some walk'.opus ∧
      walk'.streams = streamsAfter walk.streams pages ∧
      walk'.sawPayload = (walk.sawPayload || pages.any fun page => page.body ≠ []) := by
  induction pages generalizing walk with
  | nil =>
      rw [chain_nil]
      constructor
      · rintro rfl
        exact ⟨fun before page after heq => absurd heq.symm (by simp), rfl, rfl, by simp⟩
      · rintro ⟨-, hopus, hstreams, hpayload⟩
        rw [List.any_nil, Bool.or_false] at hpayload
        exact OggWalk.ext hstreams (Option.some.inj hopus).symm hpayload
  | cons page pages ih =>
      rw [chain_cons, forall_split_cons]
      constructor
      · rintro ⟨_, ⟨hknown, hfollows, opus, hopus, rfl⟩, hrest⟩
        obtain ⟨hall, hopuses, hstreams, hpayload⟩ := ih.mp hrest
        refine ⟨⟨⟨hknown, hfollows⟩, hall⟩, ?_, hstreams, ?_⟩
        · rw [acceptOpusPages, List.foldlM_cons, hopus]
          exact hopuses
        · rw [hpayload, List.any_cons, ← Bool.or_assoc]
          rfl
      · rintro ⟨⟨⟨hknown, hfollows⟩, hall⟩, hopuses, hstreams, hpayload⟩
        rw [acceptOpusPages, List.foldlM_cons] at hopuses
        obtain ⟨opus, hopus, hrest⟩ := Option.bind_eq_some_iff.mp hopuses
        refine ⟨walk.after page opus, ⟨hknown, hfollows, opus, hopus, rfl⟩,
          ih.mpr ⟨hall, hrest, hstreams, ?_⟩⟩
        rw [hpayload, List.any_cons, ← Bool.or_assoc]
        rfl

/-- What is kept of a stream is kept of its last page. -/
theorem lookup_streamsAfter (pages : List OggPage) (serial : ℕ) :
    (streamsAfter ∅ pages).lookup serial =
      (streamPages pages serial).getLast?.map OggPage.streamState := by
  induction pages using List.reverseRecOn with
  | nil => rfl
  | append_singleton pages page ih =>
      rw [streamsAfter, List.foldl_append, List.foldl_cons, List.foldl_nil, ← streamsAfter,
        streamPages, List.filter_append]
      by_cases hserial : page.serial = serial
      · rw [List.filter_cons_of_pos (by simpa using hserial), List.filter_nil, List.getLast?_concat,
          hserial, AList.lookup_insert]
        rfl
      · rw [List.filter_cons_of_neg (by simpa using hserial), List.filter_nil, List.append_nil,
          AList.lookup_insert_ne (Ne.symm hserial), ih]
        rfl

/-! ## One stream -/

/-- Pages of one stream that follow each other, up to one that ends it. -/
structure FollowsAll (pages : List OggPage) : Prop where
  follows : ∀ before page after, pages = before ++ page :: after →
    OggFollows (before.getLast?.map OggPage.streamState) page
  ended : ∀ last ∈ pages.getLast?, last.eos = true

section

variable {pages before after : List OggPage} {page last : OggPage}

/-- A new stream begins with its first page. -/
theorem oggPageFollows_none {sequence : ℕ} {bos continued : Bool} :
    oggPageFollows none sequence bos continued = true ↔
      bos = true ∧ continued = false ∧ sequence = 0 := by
  cases bos <;> cases continued <;> simp [oggPageFollows]

/-- A known stream goes on with its next page. -/
theorem oggPageFollows_some {prior : OggStreamState} {sequence : ℕ} {bos continued : Bool} :
    oggPageFollows (some prior) sequence bos continued = true ↔
      prior.ended = false ∧ bos = false ∧ sequence = prior.nextSequence ∧
        continued = prior.continuedPacket := by
  cases bos <;> cases hended : prior.ended <;> simp [oggPageFollows, hended]

/-- What it means to follow the pages before. -/
theorem follows_iff :
    oggPageFollows (before.getLast?.map OggPage.streamState) page.sequence page.bos page.continued =
        true ↔
      (page.bos = true ↔ before = []) ∧ (∀ prior ∈ before.getLast?, prior.eos = false) ∧
      page.sequence = (before.getLast?.map OggPage.streamState).elim 0 OggStreamState.nextSequence ∧
      (page.continued = true ↔ ∃ prior ∈ before.getLast?, prior.continues = true) := by
  rcases List.eq_nil_or_concat' before with rfl | ⟨init, prior, rfl⟩
  · rw [List.getLast?_nil, Option.map_none, oggPageFollows_none]
    simp only [Option.elim_none, Option.mem_def, reduceCtorEq, false_and, exists_false,
      IsEmpty.forall_iff, implies_true, true_and, iff_true, iff_false, Bool.not_eq_true]
    tauto
  · rw [List.getLast?_concat, Option.map_some, oggPageFollows_some]
    have hcontinued : (page.continued = true ↔
        ∃ last ∈ some prior, OggPage.continues last = true) ↔ page.continued = prior.continues := by
      simp only [Option.mem_some_iff, exists_eq_left']
      exact Bool.eq_iff_iff.symm
    rw [hcontinued]
    simp only [Option.elim_some, Option.mem_some_iff, forall_eq', List.append_eq_nil_iff,
      List.cons_ne_nil, and_false, iff_false, Bool.not_eq_true]
    constructor
    · rintro ⟨hended, hbos, hsequence, hcont⟩
      exact ⟨hbos, hended, hsequence, hcont⟩
    · rintro ⟨hbos, hended, hsequence, hcont⟩
      exact ⟨hended, hbos, hsequence, hcont⟩

/-- Pages that follow each other are the legal ones. -/
theorem followsAll_iff : FollowsAll pages ↔ LegalStream pages := by
  constructor
  · rintro ⟨hall, hended⟩
    have hfollows : ∀ before page after, pages = before ++ page :: after → _ :=
      fun before page after heq => follows_iff.mp (hall before page after heq).follows
    refine ⟨fun before page after heq => (hfollows before page after heq).1,
      fun before page after heq => ⟨fun heos => ?_, ?_⟩, fun before page after heq => ?_,
      fun before page after heq => (hfollows before page after heq).2.2.2, fun page hmem => ?_⟩
    · -- A page that ends the stream is not followed by another one.
      cases after with
      | nil => rfl
      | cons next after =>
          have hnext := (hfollows (before ++ [page]) next after (by rw [heq]; simp)).2.1 page
            (by rw [List.getLast?_concat]; rfl)
          rw [heos] at hnext
          cases hnext
    · rintro rfl
      exact hended page (by rw [heq, List.getLast?_concat]; rfl)
    · -- The numbers, by induction on the pages before.
      induction before using List.reverseRecOn generalizing page after with
      | nil => exact (hfollows [] page after heq).2.2.1
      | append_singleton before prior ih =>
          have hprior := ih prior (page :: after) (by rw [heq]; simp)
          have hsequence := (hfollows _ page after heq).2.2.1
          rw [List.getLast?_concat] at hsequence
          simp only [Option.map_some, Option.elim_some, OggPage.streamState] at hsequence
          rw [hsequence, hprior, List.length_append, List.length_singleton, Nat.mod_add_mod]
    · obtain ⟨before, after, heq⟩ := List.append_of_mem hmem
      exact (hall before page after heq).complete
  · intro h
    refine ⟨fun before page after heq => ⟨follows_iff.mpr ⟨h.bos before page after heq, ?_, ?_,
      h.continued before page after heq⟩, ?_⟩, fun last hlast => ?_⟩
    · intro prior hprior
      obtain ⟨init, rfl⟩ := List.getLast?_eq_some_iff.mp hprior
      have heos := h.eos init prior (page :: after) (by rw [heq]; simp)
      exact Bool.eq_false_iff.mpr fun htrue => List.cons_ne_nil _ _ (heos.mp htrue)
    · rw [h.sequence before page after heq]
      rcases List.eq_nil_or_concat' before with rfl | ⟨init, prior, rfl⟩
      · rfl
      · have hprior := h.sequence init prior (page :: after) (by rw [heq]; simp)
        rw [List.getLast?_concat]
        simp only [Option.map_some, Option.elim_some, OggPage.streamState]
        rw [hprior, List.length_append, List.length_singleton, Nat.mod_add_mod]
    · exact h.complete page (heq ▸ List.mem_append_right _ List.mem_cons_self)
    · obtain ⟨init, rfl⟩ := List.getLast?_eq_some_iff.mp hlast
      exact (h.eos init last [] rfl).mpr rfl

end

/-! ## All streams -/

/-- A stream is divided where the pages are divided at one of its pages. -/
theorem streamPages_split {pages before after : List OggPage} {page : OggPage} {serial : ℕ} :
    streamPages pages serial = before ++ page :: after →
      ∃ before' after', pages = before' ++ page :: after' ∧ page.serial = serial ∧
        streamPages before' serial = before := by
  intro h
  obtain ⟨left, right, rfl, hleft, hright⟩ := List.filter_eq_append_iff.mp h
  obtain ⟨between, rest, rfl, hbetween, hserial, -⟩ := List.filter_eq_cons_iff.mp hright
  refine ⟨left ++ between, rest, by rw [List.append_assoc], by simpa using hserial, ?_⟩
  have hnone : streamPages between serial = [] := List.filter_eq_nil_iff.mpr hbetween
  rw [streamPages, List.filter_append]
  change streamPages left serial ++ streamPages between serial = before
  rw [hnone, List.append_nil]
  exact hleft

/-- What the loop keeps decides whether all streams are legal. -/
theorem legalStreams_iff {pages : List OggPage} :
    ((∀ before page after, pages = before ++ page :: after →
        OggFollows ((streamsAfter ∅ before).lookup page.serial) page) ∧
      ((streamsAfter ∅ pages).entries.all fun stream =>
        stream.2.ended && !stream.2.continuedPacket) = true) ↔
      ∀ serial, LegalStream (streamPages pages serial) := by
  constructor
  · rintro ⟨hall, hended⟩ serial
    refine followsAll_iff.mp ⟨fun before page after heq => ?_, fun last hlast => ?_⟩
    · obtain ⟨before', after', rfl, rfl, rfl⟩ := streamPages_split heq
      rw [← lookup_streamsAfter]
      exact hall before' page after' rfl
    · have hlookup : (streamsAfter ∅ pages).lookup serial = some last.streamState := by
        rw [lookup_streamsAfter, Option.mem_def.mp hlast]
        rfl
      have hstream := List.all_eq_true.mp hended _ (AList.mem_lookup_iff.mp hlookup)
      exact (Bool.and_eq_true_iff.mp hstream).1
  · intro h
    have hfollows : ∀ serial, FollowsAll (streamPages pages serial) :=
      fun serial => followsAll_iff.mpr (h serial)
    refine ⟨fun before page after heq => ?_, List.all_eq_true.mpr fun stream hmem => ?_⟩
    · rw [lookup_streamsAfter]
      refine (hfollows page.serial).follows _ page (streamPages after page.serial) ?_
      rw [heq, streamPages, List.filter_append, List.filter_cons_of_pos (by simp)]
      rfl
    · have hentry : Sigma.mk stream.1 stream.2 ∈ (streamsAfter ∅ pages).entries := hmem
      have hlookup := AList.mem_lookup_iff.mpr hentry
      rw [Option.mem_def, lookup_streamsAfter, Option.map_eq_some_iff] at hlookup
      obtain ⟨last, hlast, hstate⟩ := hlookup
      have heos := (hfollows stream.1).ended last hlast
      have hlegal := h stream.1
      obtain ⟨init, hinit⟩ := List.getLast?_eq_some_iff.mp hlast
      have hopen := hlegal.complete last (by rw [hinit]; simp) heos
      rw [← hstate, OggPage.streamState]
      dsimp only
      rw [heos, hopen]
      rfl

/-! ## The verdict -/

/-- The pages of which a file consists. -/
def encodePages (pages : List OggPage) : Bytes := (pages.map OggPage.encode).flatten

/-- Different pages have different bytes. -/
theorem encodePages_injective : Function.Injective encodePages := fun _ _ heq =>
  OggPage.prefixFree_encode.flatten_injective OggPage.encode_ne_nil (fun _ _ => trivial)
    (fun _ _ => trivial) heq

/-- A page with a body has two bytes behind its header. -/
theorem length_encodePages_le {pages : List OggPage} (h : ∃ page ∈ pages, page.body ≠ []) :
    oggFixedHeaderBytes + 1 ≤ (encodePages pages).length := by
  obtain ⟨page, hmem, hbody⟩ := h
  obtain ⟨before, after, rfl⟩ := List.append_of_mem hmem
  have hpos := List.length_pos_iff.mpr hbody
  rw [encodePages, List.map_append, List.map_cons, List.flatten_append, List.flatten_cons,
    List.length_append, List.length_append, page.length_encode]
  omega

/-- The files that are accepted, with or without a profile. -/
theorem matchesOggStructure_iff (file : Bytes) (requireOpusProfile : Bool) :
    matchesOggStructure file requireOpusProfile = true ↔
      ∃ pages : List OggPage, encodePages pages = file ∧ (∀ page ∈ pages, page.Known) ∧
        OggContainer pages ∧
        ∃ opus, acceptOpusPages (OggWalk.initial requireOpusProfile).opus pages = some opus ∧
          opus.all OggOpusProfile.isComplete = true := by
  unfold matchesOggStructure
  constructor
  · intro h
    split_ifs at h
    split at h
    · rename_i result hscan
      rw [h] at hscan
      exact absurd hscan (scan_ne_error_true (oggPage_ne_error_true file))
    · rename_i budget walk offset hscan
      simp only [Bool.and_eq_true, decide_eq_true_eq] at h
      obtain ⟨⟨⟨⟨⟨⟨rfl, hfew⟩, hpos⟩, hpayload⟩, -⟩, hcomplete⟩, hended⟩ := h
      obtain ⟨items, hflatten, hchain, hcount⟩ :=
        (scan_eq_ok_iff (scans_oggPage file) (Nat.zero_le _)).mp hscan
      obtain ⟨pages, rfl, hpages⟩ := chain_map.mp hchain
      obtain ⟨hall, hopus, hstreams, hsaw⟩ := chain_oggStep_iff.mp hpages
      rw [List.length_map] at hcount
      rw [hsaw, OggWalk.initial, Bool.false_or] at hpayload
      obtain ⟨page, hmem, hbody⟩ := List.any_eq_true.mp hpayload
      rw [hstreams] at hended
      refine ⟨pages, hflatten.symm, fun page hmem => ?_, ⟨by omega, by omega,
        ⟨page, hmem, of_decide_eq_true hbody⟩, legalStreams_iff.mp ⟨fun before page after heq =>
          (hall before page after heq).2, hended⟩⟩, walk.opus, hopus, hcomplete⟩
      obtain ⟨before, after, heq⟩ := List.append_of_mem hmem
      exact (hall before page after heq).1
  · rintro ⟨pages, rfl, hknown, hcontainer, opus, hopus, hcomplete⟩
    obtain ⟨hall, hended⟩ := legalStreams_iff.mpr hcontainer.streams
    have hlong := length_encodePages_le hcontainer.payload
    have hfew := hcontainer.pages_lt
    obtain ⟨page, hmem, hbody⟩ := hcontainer.payload
    have hpayload : (pages.any fun page => page.body ≠ []) = true :=
      List.any_eq_true.mpr ⟨page, hmem, decide_eq_true hbody⟩
    have hchain : Chain OggStep (OggWalk.initial requireOpusProfile) pages
        ⟨streamsAfter ∅ pages, opus, true⟩ :=
      chain_oggStep_iff.mpr ⟨fun before page after heq => ⟨hknown page (by rw [heq]; simp),
        hall before page after heq⟩, hopus, rfl, by rw [hpayload, Bool.or_true]⟩
    have hscan := (scan_eq_ok_iff (scans_oggPage (encodePages pages)) (Nat.zero_le _)).mpr
      ⟨pages.map OggPage.encode, rfl, chain_map.mpr ⟨pages, rfl, hchain⟩,
        show _ + (oggMaxPages - pages.length) = oggMaxPages by rw [List.length_map]; omega⟩
    have hentries : (streamsAfter ∅ pages).entries.isEmpty = false := by
      have hstream : page ∈ streamPages pages page.serial := List.mem_filter.mpr ⟨hmem, by simp⟩
      have hlookup := lookup_streamsAfter pages page.serial
      rw [List.getLast?_eq_some_getLast (List.ne_nil_of_mem hstream)] at hlookup
      exact List.isEmpty_eq_false_iff_exists_mem.mpr ⟨_, AList.mem_lookup_iff.mp hlookup⟩
    have hpos := hcontainer.pages_pos
    rw [if_neg (by omega), hscan]
    dsimp only
    rw [hcomplete, hended, hentries, decide_eq_true (show oggMaxPages - pages.length < oggMaxPages by
      omega), decide_eq_true (show oggMaxPages - pages.length > 0 by omega)]
    simp

/-- Without a profile nothing is asked of the pages. -/
theorem acceptOpusPages_none (pages : List OggPage) : acceptOpusPages none pages = some none := by
  induction pages with
  | nil => rfl
  | cons page pages ih =>
      rw [acceptOpusPages, List.foldlM_cons]
      exact ih

/-- The loop goes on by the length of a page. -/
theorem oggPage_advances {file : Bytes} {walk walk' : OggWalk} {offset length : ℕ}
    (h : oggPage file walk offset = .ok (length, walk')) : oggFixedHeaderBytes ≤ length := by
  obtain ⟨page, after, hdrop⟩ := exists_page h
  rw [← ((oggPage_eq_ok hdrop).mp h).1, page.length_encode, Nat.add_assoc]
  exact Nat.le_add_right ..

/-- **Ogg files**: without a profile, what is accepted are the containers whose pages are all known.
The walk goes on by at least the header of a page. -/
theorem ogg_structure (file : Bytes) :
    (matchesOggStructure file false = true ↔
      ∃ pages : List OggPage, encodePages pages = file ∧ OggContainer pages ∧
        ∀ page ∈ pages, page.Known) ∧
    (visited (oggPage file) file.length oggMaxPages (OggWalk.initial false) 0).Pairwise
      fun earlier later => earlier + oggFixedHeaderBytes ≤ later := by
  refine ⟨?_, (pairwise_visited oggPage_advances).1⟩
  rw [matchesOggStructure_iff]
  constructor
  · rintro ⟨pages, hencode, hknown, hcontainer, -⟩
    exact ⟨pages, hencode, hcontainer, hknown⟩
  · rintro ⟨pages, hencode, hcontainer, hknown⟩
    exact ⟨pages, hencode, hknown, hcontainer, none, acceptOpusPages_none pages, rfl⟩

/-! ## Pages that are not known -/

/-- A page of a stream, with zeros in its body. -/
def zeroPage (flags : UInt8) (sequence : ℕ) (lacing : Bytes) (hsequence : sequence < 2 ^ 32)
    (hlacing : lacing.length < 256) : OggPage where
  flags := flags
  granule := List.replicate 8 0
  serial := 0
  sequence := sequence
  lacing := lacing
  body := List.replicate (lacing.map UInt8.toNat).sum 0
  length_granule := rfl
  serial_lt := by decide
  sequence_lt := hsequence
  length_lacing := hlacing
  length_body := List.length_replicate ..

/-- A page that begins and ends its stream, with a flag that has no meaning. -/
def flaggedPage : OggPage := zeroPage 0x0e 0 [1] (by decide) (by decide)

/-- A stream whose second page continues a packet, but has no segments. -/
def interruptedPages : List OggPage :=
  [zeroPage 0x02 0 [255] (by decide) (by decide), zeroPage 0x01 1 [] (by decide) (by decide),
    zeroPage 0x04 2 [0] (by decide) (by decide)]

/-- One stream is a container. -/
theorem OggContainer.of_serial {pages : List OggPage} (hserial : ∀ page ∈ pages, page.serial = 0)
    (hpos : 1 ≤ pages.length) (hlt : pages.length < oggMaxPages)
    (hpayload : ∃ page ∈ pages, page.body ≠ []) (hlegal : FollowsAll pages) :
    OggContainer pages := by
  refine ⟨hpos, hlt, hpayload, fun serial => ?_⟩
  by_cases hzero : serial = 0
  · have hall : streamPages pages serial = pages :=
      List.filter_eq_self.mpr fun page hmem => decide_eq_true ((hserial page hmem).trans hzero.symm)
    rw [hall]
    exact followsAll_iff.mp hlegal
  · have hnone : streamPages pages serial = [] := List.filter_eq_nil_iff.mpr fun page hmem h =>
      hzero ((of_decide_eq_true h).symm.trans (hserial page hmem))
    rw [hnone]
    exact followsAll_iff.mp ⟨fun _ _ _ heq => absurd heq.symm (by simp), fun _ h => nomatch h⟩

/-- A page with a reserved packet flag is a container. -/
theorem oggContainer_flagged : OggContainer [flaggedPage] := by
  refine OggContainer.of_serial (by decide) (by decide) (by decide) ⟨_, List.mem_cons_self, by decide⟩
    ⟨forall_split_cons.mpr ⟨⟨by decide, by decide⟩, by simp⟩, by decide⟩

/-- A packet may be continued behind the pages of another stream. -/
theorem oggContainer_interrupted : OggContainer interruptedPages := by
  refine OggContainer.of_serial (by decide) (by decide) (by decide) ⟨_, List.mem_cons_self, by decide⟩
    ⟨forall_split_cons.mpr ⟨⟨by decide, by decide⟩, forall_split_cons.mpr ⟨⟨by decide, by decide⟩,
      forall_split_cons.mpr ⟨⟨by decide, by decide⟩, by simp⟩⟩⟩, by decide⟩

/-- **Unknown pages are refused**: containers are not enough, and neither are known flags. -/
theorem ogg_structure_unknown_pages :
    (¬ ∀ file, matchesOggStructure file false = true ↔
      ∃ pages : List OggPage, encodePages pages = file ∧ OggContainer pages) ∧
    ¬ ∀ file, matchesOggStructure file false = true ↔
      ∃ pages : List OggPage, encodePages pages = file ∧ OggContainer pages ∧
        ∀ page ∈ pages, page.flags &&& ~~~0x07 = 0 := by
  have hknown : ∀ {pages : List OggPage}, matchesOggStructure (encodePages pages) false = true →
      ∀ page ∈ pages, page.Known := by
    intro pages h
    obtain ⟨pages', hencode, hknown, -⟩ := (matchesOggStructure_iff _ _).mp h
    rwa [encodePages_injective hencode] at hknown
  constructor
  · intro h
    have hflagged := hknown ((h _).mpr ⟨[flaggedPage], rfl, oggContainer_flagged⟩) flaggedPage
      (List.mem_singleton_self _)
    exact absurd hflagged.flags (by decide)
  · intro h
    have hempty := hknown ((h _).mpr ⟨interruptedPages, rfl, oggContainer_interrupted, by decide⟩)
      (zeroPage 0x01 1 [] (by decide) (by decide)) (List.mem_cons_of_mem _ List.mem_cons_self)
    exact hempty.continued (by decide) rfl

end ApiWhatsApp
