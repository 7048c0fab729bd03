import ApiWhatsApp.Campaigns.System
import ApiWhatsApp.Segments.Definition

/-!
# The audience of a campaign, from a segment to its launch

`normalizeAudience` of `campaigns/campaigns.service.ts`, what `create` stores of it, and what `launch`
makes of that: a definition passes two normalisers, two round trips through JSON and one of two
filters on its way to the contacts.

* `NormalizedCampaignAudience.Normal` says what a normalised audience looks like, in each of the
  three modes; **`readAudience_toJson`** that it is read back as it was stored.
* **`segment_preview_equals_campaign`** — the contacts that a preview counts are those that a launch
  of a campaign from the segment selects.
-/

namespace ApiWhatsApp

open Library

/-! ## Normalising -/

/-- Source: `class CampaignAudienceDto`. -/
structure CampaignAudienceDto where
  allOptedIn : Option Bool
  contactIds : Option (List String)
  segmentId : Option Uuid
  language : Option String
  tagsAny : Option (List String)
  tagsAll : Option (List String)

/-- The audience of a segment. -/
def CampaignAudienceDto.ofSegment (id : Uuid) : CampaignAudienceDto where
  allOptedIn := none
  contactIds := none
  segmentId := some id
  language := none
  tagsAny := none
  tagsAll := none

/-- The audience of a campaign that is created from a segment. -/
def NormalizedCampaignAudience.ofSegment (segment : ContactSegment)
    (definition : SegmentDefinition) : NormalizedCampaignAudience where
  allOptedIn := false
  contactIds := none
  segmentId := some segment.id.text
  segmentName := some segment.name
  segmentUpdatedAt := some (toISOString segment.updatedAt)
  language := definition.language
  tagsAny := definition.tagsAny
  tagsAll := definition.tagsAll

/-- Source: `normalizeAudience`. -/
def normalizeAudience (segments : Table ContactSegment) (tenantId : Uuid)
    (audience : CampaignAudienceDto) : Except HttpError NormalizedCampaignAudience :=
  let allOptedIn := audience.allOptedIn = some true
  let contactIds := (audience.contactIds.getD []).filter fun id => id ≠ ""
  let hasExplicitContacts := !contactIds.isEmpty
  let language := (audience.language.map trim).filter fun text => text ≠ ""
  let tagsAny := normalizeTags (audience.tagsAny.getD [])
  let tagsAll := normalizeTags (audience.tagsAll.getD [])
  if (decide allOptedIn).toNat + hasExplicitContacts.toNat + audience.segmentId.isSome.toNat ≠ 1 then
    .error (.badRequest ("Campaign audience must specify exactly one of allOptedIn=true, a " ++
      "non-empty contactIds list, or segmentId"))
  else match audience.segmentId with
    | some segmentId =>
        if language ≠ none ∨ tagsAny ≠ [] ∨ tagsAll ≠ [] then
          .error (.badRequest
            "Campaign audience cannot combine segmentId with language, tagsAny, or tagsAll")
        else do
          let (segment, definition) ← Segments.resolveActiveForCampaign segments tenantId segmentId
          .ok (.ofSegment segment definition)
    | none =>
        .ok { allOptedIn := allOptedIn
              contactIds := nonEmpty contactIds
              segmentId := none
              segmentName := none
              segmentUpdatedAt := none
              language := language
              tagsAny := nonEmpty tagsAny
              tagsAll := nonEmpty tagsAll }

/-- What `create` stores. -/
def NormalizedCampaignAudience.toJson (a : NormalizedCampaignAudience) : Json :=
  .object [("allOptedIn", some (.bool a.allOptedIn)), ("contactIds", a.contactIds.map .strings),
    ("segmentId", a.segmentId.map .str), ("segmentName", a.segmentName.map .str),
    ("segmentUpdatedAt", a.segmentUpdatedAt.map .str), ("language", a.language.map .str),
    ("tagsAny", a.tagsAny.map .strings), ("tagsAll", a.tagsAll.map .strings)]

/-! ## Normal audiences -/

/-- Tags that are sorted, trimmed and in lower case are left alone. -/
theorem TagList.normalizeTags_eq {tags : List String} (h : TagList tags) :
    normalizeTags tags = tags := by
  rw [normalizeTags, h.map_eq]
  exact sort_newSet_eq h.sorted h.nodup

/-- The normalised tags are a list of tags. -/
theorem tagList_normalizeTags (tags : List String) : TagList (normalizeTags tags) :=
  .of_sort (fun _ htag => fixed_of_mem_map (mem_newSet.mp htag)) (nodup_newSet _)

namespace NormalizedCampaignAudience

/-- What a normalised audience looks like. -/
structure Normal (a : NormalizedCampaignAudience) : Prop where
  mode : a.allOptedIn.toNat + a.contactIds.isSome.toNat + a.segmentId.isSome.toNat = 1
  contactIds : ∀ ids, a.contactIds = some ids → ids ≠ []
  segmentId : ∀ id, a.segmentId = some id → id ≠ ""
  language : ∀ text, a.language = some text → text ≠ ""
  tagsAny : ∀ tags, a.tagsAny = some tags → tags ≠ [] ∧ TagList tags
  tagsAll : ∀ tags, a.tagsAll = some tags → tags ≠ [] ∧ TagList tags

/-- Stored tags are read back as they are. -/
theorem readStringArray_eq {tags : Option (List String)}
    (h : ∀ l, tags = some l → l ≠ [] ∧ TagList l) :
    (if (readStringArray (tags.map Json.strings)).isEmpty then none
      else some (readStringArray (tags.map Json.strings))) = tags := by
  cases tags with
  | none => rfl
  | some tags =>
      obtain ⟨hne, htags⟩ := h tags rfl
      have hread : readStringArray (some (Json.strings tags)) = tags := by
        refine Eq.trans (congrArg normalizeTags ?_) htags.normalizeTags_eq
        exact Option.some.inj (Json.filterMap_string_strings (some tags))
      rw [Option.map_some, hread, if_neg (by simpa using hne)]

/-- **An audience is read back as it was stored.** -/
theorem readAudience_toJson {a : NormalizedCampaignAudience} (h : a.Normal) :
    readAudience a.toJson = .ok a := by
  have hget : ∀ key, a.toJson.get? key = _ := Json.get?_object (by simp)
  have hfields : ∃ fields, a.toJson = .obj fields := ⟨_, rfl⟩
  have hoptedIn : a.toJson.get? "allOptedIn" = some (.bool a.allOptedIn) := hget _
  have hcontactIds : a.toJson.get? "contactIds" = a.contactIds.map .strings :=
    (hget _).trans rfl
  have hsegmentId : a.toJson.get? "segmentId" = a.segmentId.map .str := (hget _).trans rfl
  have hsegmentName : a.toJson.get? "segmentName" = a.segmentName.map .str := (hget _).trans rfl
  have hupdatedAt : a.toJson.get? "segmentUpdatedAt" = a.segmentUpdatedAt.map .str :=
    (hget _).trans rfl
  have hlanguage : a.toJson.get? "language" = a.language.map .str := (hget _).trans rfl
  have htagsAny : a.toJson.get? "tagsAny" = a.tagsAny.map .strings := (hget _).trans rfl
  have htagsAll : a.toJson.get? "tagsAll" = a.tagsAll.map .strings := (hget _).trans rfl
  generalize a.toJson = value at *
  obtain ⟨fields, rfl⟩ := hfields
  -- The three conditions of the modes are those that the audience was stored under.
  have hcontacts : a.contactIds.any (fun ids => !ids.isEmpty) = a.contactIds.isSome := by
    rcases hids : a.contactIds with _ | ids
    · rfl
    · simpa using h.contactIds ids hids
  have hkept : ∀ {text : Option String}, (∀ t, text = some t → t ≠ "") →
      text.filter (fun t => t ≠ "") = text := by
    intro text htext
    rcases ht : text with _ | t
    · rfl
    · simpa using htext t ht
  have hsame : (if a.contactIds.isSome then a.contactIds else none) = a.contactIds := by
    cases a.contactIds <;> rfl
  simp only [readAudience, hoptedIn, hcontactIds, hsegmentId, hsegmentName, hupdatedAt, hlanguage,
    htagsAny, htagsAll, Json.filterMap_string_strings, Json.bind_string_str, hcontacts,
    hkept h.segmentId, hkept h.language, readStringArray_eq h.tagsAny, readStringArray_eq h.tagsAll,
    hsame]
  obtain ⟨allOptedIn, contactIds, segmentId, segmentName, segmentUpdatedAt, language, tagsAny,
    tagsAll⟩ := a
  cases allOptedIn
  all_goals exact if_neg (not_not.mpr h.mode)

end NormalizedCampaignAudience

/-- Another error does not change a success. -/
theorem mapError_eq_ok {ε ε' : Type} {α : Type} {x : Except ε α} {f : ε → ε'} {a : α} :
    x.mapError f = .ok a ↔ x = .ok a := by
  cases x <;> simp [Except.mapError]

/-- No id has an empty text. -/
theorem Uuid.text_ne_empty (id : Uuid) : id.text ≠ "" := by
  intro h
  have hlist := congrArg String.toList h
  simp [Uuid.text] at hlist

/-- What is read of a stored definition is normal. -/
theorem normal_of_readDefinition {value : Json} {d : SegmentDefinition}
    (h : readDefinition value = .ok d) : d.Normal := by
  have hread := mapError_eq_ok.mp h
  unfold readPersistedSegmentDefinition at hread
  split at hread
  · exact normal_of_normalize hread
  · cases hread

/-- **What `normalizeAudience` returns is normal**, in each of the three modes. -/
theorem normal_of_normalizeAudience {segments : Table ContactSegment} {tenantId : Uuid}
    {dto : CampaignAudienceDto} {a : NormalizedCampaignAudience}
    (h : normalizeAudience segments tenantId dto = .ok a) : a.Normal := by
  simp only [normalizeAudience] at h
  split at h
  · cases h
  rename_i hmode
  split at h
  · split at h
    · cases h
    obtain ⟨⟨segment, definition⟩, hresolve, h⟩ := bind_eq_ok.mp h
    cases h
    have hnormal : definition.Normal := by
      unfold Segments.resolveActiveForCampaign at hresolve
      split at hresolve
      · cases hresolve
      · obtain ⟨d, hread, hd⟩ := bind_eq_ok.mp hresolve
        cases hd
        exact normal_of_readDefinition hread
    refine ⟨rfl, nofun, ?_, fun text htext => (hnormal.language text htext).1, fun tags htags => ?_,
      fun tags htags => ?_⟩
    · rintro _ ⟨⟩
      exact segment.id.text_ne_empty
    · exact ⟨(hnormal.tagsAny tags htags).ne_nil, (hnormal.tagsAny tags htags).toTagList⟩
    · exact ⟨(hnormal.tagsAll tags htags).ne_nil, (hnormal.tagsAll tags htags).toTagList⟩
  · rename_i hsegment
    cases h
    have htags : ∀ {raw tags}, nonEmpty (normalizeTags raw) = some tags →
        tags ≠ [] ∧ TagList tags := by
      intro raw tags hsome
      obtain ⟨rfl, hne⟩ := nonEmpty_eq_some hsome
      exact ⟨hne, tagList_normalizeTags raw⟩
    refine ⟨?_, ?_, nofun, ?_, fun tags => htags, fun tags => htags⟩
    · have hexplicit : ∀ ids : List String, (nonEmpty ids).isSome = !ids.isEmpty := by
        intro ids
        cases ids <;> rfl
      rw [not_not, hsegment, ← hexplicit] at hmode
      exact hmode
    · intro ids hids
      exact (nonEmpty_eq_some hids).2
    · intro text htext
      have hne := (Option.filter_eq_some_iff.mp htext).2
      simpa using hne

/-! ## Launching -/

/-- The campaign is a draft, and its sender and its template are in order. -/
def Db.ReadyToLaunch (db : Db) (c : Campaign) : Prop :=
  c.status = .draft ∧ ∃ sender template wabaId,
    db.phoneNumbers.find (.id c.senderId) = some sender ∧
    db.templates.find (.id c.templateId) = some template ∧
    (sender.wabaId.filter fun wabaId => sender.active && wabaId ≠ "") = some wabaId ∧
    assertMarketingTemplate template wabaId = .ok ()

/-- A launch selects the contacts of the stored audience. -/
theorem Db.eq_audience_of_prepareLaunch {db : Db} {config : CampaignConfig} {tenantId id : Uuid}
    {c : Campaign} {a : NormalizedCampaignAudience} {contactIds : List Uuid}
    (hc : db.campaign tenantId id = some c) (ha : readAudience c.audience = .ok a)
    (h : db.prepareLaunch config tenantId id = .ok (some contactIds)) :
    contactIds = db.audience tenantId a := by
  simp only [Db.prepareLaunch, hc] at h
  split at h
  · cases h
  split at h
  · cases h
  split at h
  · split at h
    · cases h
    · obtain ⟨_, -, h⟩ := bind_eq_ok.mp h
      obtain ⟨a', ha', h⟩ := bind_eq_ok.mp h
      obtain rfl : a = a' := Except.ok.inj (ha.symm.trans ha')
      split_ifs at h
      cases h
      rfl
  · cases h

/-- A launch that is ready goes through unless its audience is too large. -/
theorem Db.ReadyToLaunch.prepareLaunch_eq {db : Db} {config : CampaignConfig} {tenantId : Uuid}
    {c : Campaign} {a : NormalizedCampaignAudience} (h : db.ReadyToLaunch c)
    (hc : db.campaign tenantId c.id = some c) (ha : readAudience c.audience = .ok a)
    (hsmall : (db.audience tenantId a).length ≤ config.maxRecipients) :
    db.prepareLaunch config tenantId c.id = .ok (some (db.audience tenantId a)) := by
  obtain ⟨hdraft, sender, template, wabaId, hsender, htemplate, hwaba, hmarketing⟩ := h
  simp only [Db.prepareLaunch, hc, hdraft, hsender, htemplate, hwaba, hmarketing, ha, ok_bind]
  rw [if_neg (by simp), if_neg (by simp), if_neg (by omega)]

/-- The two filters agree on a normal definition. -/
theorem Db.audience_of_definition (db : Db) (tenantId : Uuid) {d : SegmentDefinition}
    (hd : d.Normal) {a : NormalizedCampaignAudience} (hcontactIds : a.contactIds = none)
    (hlanguage : a.language = d.language) (htagsAny : a.tagsAny = d.tagsAny)
    (htagsAll : a.tagsAll = d.tagsAll) :
    db.audience tenantId a = (db.segmentContacts tenantId d).map Contact.id := by
  have hkept : d.language.filter (fun text => text ≠ "") = d.language := by
    rcases hl : d.language with _ | text
    · rfl
    · simpa using (hd.language text hl).1
  refine congrArg (List.map Contact.id) (List.filter_congr fun contact _ => ?_)
  simp only [segmentContactWhere, NormalizedCampaignAudience.tagFilter, hcontactIds, hlanguage,
    htagsAny, htagsAll, hkept, Option.all_none, Bool.and_true, Bool.and_assoc]

/-- A campaign that is created from a segment has its definition. -/
theorem normalizeAudience_ofSegment {segments : Table ContactSegment} {tenantId : Uuid}
    {segment : ContactSegment} {d : SegmentDefinition} (hmem : segment ∈ segments.rows)
    (htenant : segment.tenantId = tenantId) (hactive : segment.active = true)
    (hread : readDefinition segment.definition = .ok d) :
    normalizeAudience segments tenantId (.ofSegment segment.id) = .ok (.ofSegment segment d) := by
  have hfind : segments.find (.id segment.id) = some segment :=
    segments.find_eq_some_iff.mpr ⟨hmem, mem_keys_segment_id.mpr rfl⟩
  have hown : (some segment).filter (fun r => r.tenantId = tenantId && r.active) = some segment := by
    simp [Option.filter, htenant, hactive]
  have hresolve : Segments.resolveActiveForCampaign segments tenantId segment.id =
      .ok (segment, d) := by
    simp only [Segments.resolveActiveForCampaign, hfind, hown, hread, ok_bind]
  have hnormalize : normalizeAudience segments tenantId (.ofSegment segment.id) =
      (Segments.resolveActiveForCampaign segments tenantId segment.id >>= fun r =>
        .ok (.ofSegment r.1 r.2)) := rfl
  rw [hnormalize, hresolve]
  rfl

/-- **A preview is the campaign.** For every definition that is accepted: normalising it again, and
reading it back from the database, leave it alone; every audience that `create` stores is read back
as it was; and for every segment with this definition, the contacts that `count` counts are those that
a launch of a campaign from the segment selects on the same contacts, whenever it selects any. Such a
launch fails only for reasons that have nothing to do with the definition: the state of the campaign,
of its sender or of its template, and an audience that is too large. -/
theorem segment_preview_equals_campaign (input : Option SegmentDefinition)
    (definition : SegmentDefinition) (haccepted : normalizeSegmentDefinition input = .ok definition) :
    normalizeSegmentDefinition (some definition) = .ok definition ∧
      readPersistedSegmentDefinition definition.toJson = .ok definition ∧
      (∀ segments tenantId dto audience,
        normalizeAudience segments tenantId dto = .ok audience →
          readAudience audience.toJson = .ok audience) ∧
      ∀ segments tenantId (segment : ContactSegment) (db : Db) now,
        segment ∈ segments.rows → segment.tenantId = tenantId →
        segment.definition = definition.toJson →
        ∃ counted : List Contact, counted = db.segmentContacts tenantId definition ∧
          Segments.count segments db now tenantId segment.id = .ok
            { segmentId := segment.id, active := segment.active, count := counted.length,
              evaluatedAt := now } ∧
          (segment.active = true → ∃ audience,
            normalizeAudience segments tenantId (.ofSegment segment.id) = .ok audience ∧
            ∀ (db' : Db) config (c : Campaign), db'.contacts = db.contacts →
              db'.campaign tenantId c.id = some c → c.audience = audience.toJson →
              (∀ contactIds, db'.prepareLaunch config tenantId c.id = .ok (some contactIds) →
                contactIds = counted.map Contact.id) ∧
              (db'.ReadyToLaunch c → counted.length ≤ config.maxRecipients →
                db'.prepareLaunch config tenantId c.id = .ok (some (counted.map Contact.id)))) := by
  have hnormal := normal_of_normalize haccepted
  have hpersisted : readPersistedSegmentDefinition definition.toJson = .ok definition :=
    (readPersistedSegmentDefinition_toJson definition).trans hnormal.normalize_eq
  refine ⟨hnormal.normalize_eq, hpersisted, fun segments tenantId dto audience haudience =>
    NormalizedCampaignAudience.readAudience_toJson (normal_of_normalizeAudience haudience), ?_⟩
  intro segments tenantId segment db now hmem htenant hdefinition
  have hread : readDefinition segment.definition = .ok definition := by
    rw [hdefinition]
    exact mapError_eq_ok.mpr hpersisted
  have hfind : segments.find (.id segment.id) = some segment :=
    segments.find_eq_some_iff.mpr ⟨hmem, mem_keys_segment_id.mpr rfl⟩
  refine ⟨_, rfl, ?_, fun hactive => ⟨_, normalizeAudience_ofSegment hmem htenant hactive hread, ?_⟩⟩
  · have hown : (some segment).filter (fun r => r.tenantId = tenantId) = some segment := by
      simp [Option.filter, htenant]
    simp only [Segments.count, Segments.findById, hfind, hown, hread, ok_bind]
  · intro db' config c hcontacts hc hstored
    have haudience := NormalizedCampaignAudience.readAudience_toJson
      (normal_of_normalizeAudience (normalizeAudience_ofSegment hmem htenant hactive hread))
    rw [← hstored] at haudience
    have hselected : db'.audience tenantId (.ofSegment segment definition) =
        (db.segmentContacts tenantId definition).map Contact.id := by
      refine (db'.audience_of_definition tenantId hnormal rfl rfl rfl rfl).trans ?_
      rw [Db.segmentContacts, hcontacts]
      rfl
    rw [← hselected]
    refine ⟨fun contactIds hlaunch => Db.eq_audience_of_prepareLaunch hc haudience hlaunch,
      fun hready hsmall => hready.prepareLaunch_eq hc haudience ?_⟩
    rw [hselected, List.length_map]
    exact hsmall

/-- A definition with a blank, a duplicate and capitals. -/
def sampleRequest : SegmentDefinition where
  language := none
  tagsAny := some ["VIP", " vip ", " "]
  tagsAll := none

/-- The same definition, normalised. -/
def sampleDefinition : SegmentDefinition where
  language := none
  tagsAny := some ["vip"]
  tagsAll := none

/-- A segment with this definition. -/
def sampleSegment : ContactSegment where
  id := 40
  tenantId := 1
  name := "VIP"
  definition := sampleDefinition.toJson
  active := true
  updatedAt := 0

/-- An opted-in contact with the tag, and one without. -/
def sampleTagged : Db :=
  { Db.empty with
    contacts := ⟨[{ sampleContact with consentStatus := .optedIn, tags := ["vip"] },
      { sampleContact with id := 9, phone := "2", consentStatus := .optedIn }], by decide⟩ }

/-- The draft campaign that is created from the segment. -/
def sampleSegmentCampaign : Campaign :=
  .drafted 20 1 7 9 (NormalizedCampaignAudience.ofSegment sampleSegment sampleDefinition).toJson none
    false none

/-- The contacts with the campaign, its sender and its template. -/
def sampleTaggedLaunch : Db :=
  { sampleTagged with
    phoneNumbers := ⟨[sampleCampaignSender], List.pairwise_singleton _ _⟩
    templates := ⟨[sampleTemplate], List.pairwise_singleton _ _⟩
    campaigns := ⟨[sampleSegmentCampaign], List.pairwise_singleton _ _⟩ }

/-- The sample launch has what it needs. -/
theorem readyToLaunch_sampleSegmentCampaign : sampleTaggedLaunch.ReadyToLaunch sampleSegmentCampaign :=
  ⟨rfl, sampleCampaignSender, sampleTemplate, "w", rfl, rfl, by decide, by decide⟩

/-- The preview of the segment counts the tagged contact, and the launch selects it. -/
theorem segment_preview_equals_campaign_vip :
    normalizeSegmentDefinition (some sampleRequest) = .ok sampleDefinition ∧
      readPersistedSegmentDefinition sampleSegment.definition = .ok sampleDefinition ∧
      Segments.count ⟨[sampleSegment], List.pairwise_singleton _ _⟩ sampleTagged 5 1 40 =
        .ok { segmentId := 40, active := true, count := 1, evaluatedAt := 5 } ∧
      sampleTaggedLaunch.prepareLaunch sampleCampaignEnv.config 1 20 = .ok (some [8]) := by
  have haccepted : normalizeSegmentDefinition (some sampleRequest) = .ok sampleDefinition := by
    decide
  obtain ⟨-, hpersisted, -, hsegments⟩ :=
    segment_preview_equals_campaign (some sampleRequest) sampleDefinition haccepted
  obtain ⟨counted, hcounted, hcount, hlaunch⟩ :=
    hsegments ⟨[sampleSegment], List.pairwise_singleton _ _⟩ 1 sampleSegment sampleTagged 5
      (List.mem_singleton.mpr rfl) rfl rfl
  have hids : counted.map Contact.id = [8] := by
    rw [hcounted]
    decide
  have hone : counted.length = 1 := by simpa using congrArg List.length hids
  obtain ⟨audience, haudience, hselects⟩ := hlaunch rfl
  have hstored : audience = .ofSegment sampleSegment sampleDefinition :=
    Except.ok.inj (haudience.symm.trans (normalizeAudience_ofSegment (List.mem_singleton.mpr rfl) rfl
      rfl rfl))
  have hlaunched := (hselects sampleTaggedLaunch sampleCampaignEnv.config sampleSegmentCampaign rfl rfl
    (by rw [hstored]; rfl)).2 readyToLaunch_sampleSegmentCampaign (by rw [hone]; decide)
  rw [hids] at hlaunched
  rw [hone] at hcount
  exact ⟨haccepted, hpersisted, hcount, hlaunched⟩

end ApiWhatsApp
