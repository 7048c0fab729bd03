import ApiWhatsApp.Messages.Create

/-!
# Saved segments

`segments/segment-definition.util.ts` and `segments/segments.service.ts`: the definition of a
segment, from the request to the filter of contacts, and its preview.

* `normalizeSegmentDefinition` cleans a definition up and checks it, `readPersistedSegmentDefinition`
  does so for what is stored, and `segmentContactWhere` is the filter.
* `Segments.create`, `update`, `count` and `resolveActiveForCampaign` are the service. The audit log
  and the texts that nothing reads are left out.
* `SegmentDefinition.Normal` says what a definition looks like after it was normalised:
  **`normal_of_normalize`**, and `Normal.normalize_eq` that such a definition is left alone.
-/

namespace ApiWhatsApp

open Library

/-! ## Definitions -/

/-- Source: `interface SegmentDefinitionInput` and `interface NormalizedSegmentDefinition`. -/
structure SegmentDefinition where
  language : Option String
  tagsAny : Option (List String)
  tagsAll : Option (List String)
  deriving DecidableEq

/-- Source: `TAG_PATTERN`. -/
def isTag (tag : String) : Bool :=
  match tag.toList with
  | [] => false
  | c :: cs =>
      c.isAlphanum && cs.length ≤ 63 &&
        cs.all fun c => c.isAlphanum || c = ':' || c = '_' || c = '-'

/-- Source: `normalizeTags`. -/
def Segments.normalizeTags (tags : Option (List String)) (field : String) :
    Except String (List String) :=
  match tags with
  | none => .ok []
  | some tags =>
      if 50 < tags.length then .error (field ++ " cannot contain more than 50 tags") else
      let normalized :=
        (newSet (tags.map fun tag => toLowerCase (trim tag))).filter fun tag => tag ≠ ""
      match normalized.find? fun tag => !isTag tag with
      | some tag => .error ("Invalid segment tag '" ++ tag ++ "'")
      | none => .ok (sort normalized)

/-- A list that is spread into an object only when it is not empty. -/
def nonEmpty (tags : List String) : Option (List String) := if tags = [] then none else some tags

/-- Source: `normalizeSegmentDefinition`; `none` is `undefined`. -/
def normalizeSegmentDefinition (input : Option SegmentDefinition) :
    Except String SegmentDefinition :=
  match input with
  | none => .error "Segment definition is required"
  | some input =>
      let language := (input.language.map trim).filter fun text => text ≠ ""
      if language.any fun text => 20 < utf16Length text then
        .error "Segment language must be at most 20 characters"
      else do
        let tagsAny ← Segments.normalizeTags input.tagsAny "tagsAny"
        let tagsAll ← Segments.normalizeTags input.tagsAll "tagsAll"
        if language = none ∧ tagsAny = [] ∧ tagsAll = [] then
          .error "Saved segment requires at least one criterion: language, tagsAny, or tagsAll"
        else
          .ok { language := language, tagsAny := nonEmpty tagsAny, tagsAll := nonEmpty tagsAll }

/-- The stored definition. -/
def SegmentDefinition.toJson (d : SegmentDefinition) : Json :=
  .object [("language", d.language.map .str), ("tagsAny", d.tagsAny.map .strings),
    ("tagsAll", d.tagsAll.map .strings)]

/-- Source: `readPersistedSegmentDefinition`. -/
def readPersistedSegmentDefinition (value : Json) : Except String SegmentDefinition :=
  match value with
  | .obj _ =>
      let texts (key : String) : Option (List String) :=
        ((value.get? key).bind Json.array?).map fun items => items.filterMap Json.string?
      normalizeSegmentDefinition (some
        { language := (value.get? "language").bind Json.string?
          tagsAny := texts "tagsAny"
          tagsAll := texts "tagsAll" })
  | _ => .error "Persisted segment definition is invalid"

/-- Source: `segmentContactWhere`, for one contact. -/
def segmentContactWhere (tenantId : Uuid) (definition : SegmentDefinition) (contact : Contact) :
    Bool :=
  contact.tenantId = tenantId && contact.consentStatus = .optedIn &&
    ((definition.language.filter fun text => text ≠ "").all fun language =>
      contact.language = some language) &&
    (definition.tagsAny.all fun wanted => wanted.any fun tag => tag ∈ contact.tags) &&
    definition.tagsAll.all fun wanted => wanted.all fun tag => tag ∈ contact.tags

/-! ## The service -/

/-- A segment of a tenant. Source: `model ContactSegment`. -/
structure ContactSegment where
  id : Uuid
  tenantId : Uuid
  name : String
  definition : Json
  active : Bool
  updatedAt : Time

/-- The unique columns of a segment. -/
inductive SegmentKey where
  | id (id : Uuid)
  | name (tenantId : Uuid) (name : String)
  deriving DecidableEq

/-- A segment is known by its id, and by its name within the tenant. -/
instance : Keyed ContactSegment SegmentKey where
  keys r := [.id r.id, .name r.tenantId r.name]

/-- The id is a key of its row only. -/
theorem mem_keys_segment_id {r : ContactSegment} {id : Uuid} :
    SegmentKey.id id ∈ Keyed.keys r ↔ r.id = id := by
  simp [Keyed.keys, eq_comm]

/-- An error of a definition in a request. -/
def badDefinition (result : Except String SegmentDefinition) : Except HttpError SegmentDefinition :=
  result.mapError .badRequest

/-- Source: `readDefinition`. -/
def readDefinition (value : Json) : Except HttpError SegmentDefinition :=
  (readPersistedSegmentDefinition value).mapError .unprocessable

/-- Source: `normalizeName`. -/
def normalizeSegmentName (value : String) : Except HttpError String :=
  if trim value = "" then
    .error (.badRequest "Segment name must contain non-whitespace characters")
  else .ok (trim value)

/-- The result of `count`. -/
structure SegmentCount where
  segmentId : Uuid
  active : Bool
  count : ℕ
  evaluatedAt : Time
  deriving DecidableEq

/-- The contacts that a preview counts. -/
def Db.segmentContacts (db : Db) (tenantId : Uuid) (definition : SegmentDefinition) :
    List Contact :=
  db.contacts.rows.filter (segmentContactWhere tenantId definition)

namespace Segments

/-- Source: `assertNameAvailable`. -/
def assertNameAvailable (segments : Table ContactSegment) (tenantId : Uuid) (name : String)
    (excludingId : Option Uuid) : Except HttpError Unit :=
  match (segments.find (.name tenantId name)).filter fun r => some r.id ≠ excludingId with
  | some _ =>
      .error (.conflict "A contact segment with this name already exists for the tenant")
  | none => .ok ()

/-- Source: `findById`. -/
def findById (segments : Table ContactSegment) (tenantId id : Uuid) :
    Except HttpError ContactSegment :=
  match (segments.find (.id id)).filter fun r => r.tenantId = tenantId with
  | some segment => .ok segment
  | none => .error (.notFound "Contact segment not found")

/-- The row that `create` inserts. -/
def create (segments : Table ContactSegment) (newId : Uuid) (now : Time) (tenantId : Uuid)
    (name : String) (definition : Option SegmentDefinition) : Except HttpError ContactSegment := do
  let name ← normalizeSegmentName name
  assertNameAvailable segments tenantId name none
  let definition ← badDefinition (normalizeSegmentDefinition definition)
  .ok { id := newId, tenantId := tenantId, name := name, definition := definition.toJson,
        active := true, updatedAt := now }

/-- The row that `update` writes; a field that is not given stays. -/
def update (segments : Table ContactSegment) (now : Time) (tenantId id : Uuid)
    (name : Option String) (definition : Option SegmentDefinition) (active : Option Bool) :
    Except HttpError ContactSegment := do
  let existing ← findById segments tenantId id
  let name ← match name with
    | none => .ok existing.name
    | some name => normalizeSegmentName name
  if name ≠ existing.name then assertNameAvailable segments tenantId name (some id) else .ok ()
  let stored ← match definition with
    | none => .ok existing.definition
    | some definition => do
        let definition ← badDefinition (normalizeSegmentDefinition (some definition))
        .ok definition.toJson
  .ok { existing with
        name := name, definition := stored, active := active.getD existing.active,
        updatedAt := now }

/-- Source: `count`. -/
def count (segments : Table ContactSegment) (db : Db) (now : Time) (tenantId id : Uuid) :
    Except HttpError SegmentCount := do
  let segment ← findById segments tenantId id
  let definition ← readDefinition segment.definition
  .ok { segmentId := segment.id, active := segment.active,
        count := (db.segmentContacts tenantId definition).length, evaluatedAt := now }

/-- Source: `resolveActiveForCampaign`; the definition is read. -/
def resolveActiveForCampaign (segments : Table ContactSegment) (tenantId id : Uuid) :
    Except HttpError (ContactSegment × SegmentDefinition) :=
  match (segments.find (.id id)).filter fun r => r.tenantId = tenantId && r.active with
  | none => .error (.unprocessable "Campaign contact segment was not found or is inactive")
  | some segment => do
      let definition ← readDefinition segment.definition
      .ok (segment, definition)

end Segments

/-! ## Normal lists of tags -/

/-- A list of tags that no normaliser changes: lower case, trimmed, sorted, without duplicates. -/
structure TagList (tags : List String) : Prop where
  fixed : ∀ tag ∈ tags, toLowerCase (trim tag) = tag
  nodup : tags.Nodup
  sorted : tags.Pairwise unitsLe

/-- Sorting tags that are normalised one by one. -/
theorem TagList.of_sort {tags : List String} (hfixed : ∀ tag ∈ tags, toLowerCase (trim tag) = tag)
    (hnodup : tags.Nodup) : TagList (sort tags) where
  fixed tag htag := hfixed tag (mem_sort.mp htag)
  nodup := (perm_sort tags).nodup_iff.mpr hnodup
  sorted := pairwise_sort tags

/-- A list of tags is left as it is. -/
theorem TagList.map_eq {tags : List String} (h : TagList tags) :
    tags.map (fun tag => toLowerCase (trim tag)) = tags := by
  refine (List.map_congr_left h.fixed).trans ?_
  exact List.map_id' tags

/-- A tag that was normalised stays as it is. -/
theorem fixed_of_mem_map {tags : List String} {tag : String}
    (h : tag ∈ tags.map fun tag => toLowerCase (trim tag)) : toLowerCase (trim tag) = tag := by
  obtain ⟨raw, -, rfl⟩ := List.mem_map.mp h
  rw [trim_toLowerCase, toLowerCase_toLowerCase, trim_trim]

/-- The tags of a normalised definition. -/
structure SegmentTags (tags : List String) : Prop extends TagList tags where
  ne_nil : tags ≠ []
  few : tags.length ≤ 50
  valid : ∀ tag ∈ tags, isTag tag = true

namespace Segments

/-- What a normaliser of tags returns. -/
theorem segmentTags_of_normalizeTags {tags : Option (List String)} {field : String}
    {result : List String} (h : normalizeTags tags field = .ok result) (hne : result ≠ []) :
    SegmentTags result := by
  cases tags with
  | none =>
      cases h
      exact absurd rfl hne
  | some tags =>
      simp only [normalizeTags] at h
      split_ifs at h with hmany
      split at h
      · cases h
      · rename_i hvalid
        cases h
        have hnodup := (nodup_newSet (tags.map fun tag => toLowerCase (trim tag))).filter
          (fun tag => tag ≠ "")
        refine ⟨.of_sort (fun tag htag => ?_) hnodup, hne, ?_, fun tag htag => ?_⟩
        · exact fixed_of_mem_map (mem_newSet.mp (List.mem_of_mem_filter htag))
        · have hlength := length_newSet_le (tags.map fun tag => toLowerCase (trim tag))
          have hfilter := List.length_filter_le (fun tag => decide (tag ≠ ""))
            (newSet (tags.map fun tag => toLowerCase (trim tag)))
          rw [List.length_map] at hlength
          rw [(perm_sort _).length_eq]
          omega
        · have hfound := List.find?_eq_none.mp hvalid tag (mem_sort.mp htag)
          simpa using hfound

/-- Such tags are left alone. -/
theorem normalizeTags_eq {tags : List String} (h : SegmentTags tags) (field : String) :
    normalizeTags (some tags) field = .ok tags := by
  have hfilter : (newSet tags).filter (fun tag => tag ≠ "") = tags := by
    rw [newSet_eq h.nodup, List.filter_eq_self]
    intro tag htag
    have hvalid := h.valid tag htag
    have hne : tag ≠ "" := by
      rintro rfl
      cases hvalid
    simpa using hne
  have hfind : tags.find? (fun tag => !isTag tag) = none := by
    rw [List.find?_eq_none]
    intro tag htag
    simp [h.valid tag htag]
  simp only [normalizeTags]
  rw [if_neg (by have := h.few; omega), h.map_eq, hfilter, hfind]
  exact congrArg Except.ok (h.sorted.insertionSort_eq)

end Segments

/-! ## Normal definitions -/

/-- What a definition looks like after it was normalised. -/
structure SegmentDefinition.Normal (d : SegmentDefinition) : Prop where
  language : ∀ text, d.language = some text →
    text ≠ "" ∧ trim text = text ∧ utf16Length text ≤ 20
  tagsAny : ∀ tags, d.tagsAny = some tags → SegmentTags tags
  tagsAll : ∀ tags, d.tagsAll = some tags → SegmentTags tags
  criterion : d.language ≠ none ∨ d.tagsAny ≠ none ∨ d.tagsAll ≠ none

/-- A list that is kept has tags. -/
theorem nonEmpty_eq_some {tags result : List String} (h : nonEmpty tags = some result) :
    tags = result ∧ result ≠ [] := by
  unfold nonEmpty at h
  split_ifs at h with hnil
  cases h
  exact ⟨rfl, hnil⟩

/-- **What is accepted is normal.** -/
theorem normal_of_normalize {input : Option SegmentDefinition} {d : SegmentDefinition}
    (h : normalizeSegmentDefinition input = .ok d) : d.Normal := by
  cases input with
  | none => cases h
  | some input =>
      simp only [normalizeSegmentDefinition] at h
      split_ifs at h with hlong
      obtain ⟨tagsAny, hany, h⟩ := bind_eq_ok.mp h
      obtain ⟨tagsAll, hall, h⟩ := bind_eq_ok.mp h
      split_ifs at h with hempty
      cases h
      have htags : ∀ {raw field tags result}, Segments.normalizeTags raw field = .ok tags →
          nonEmpty tags = some result → SegmentTags result := by
        intro raw field tags result hnormal hsome
        obtain ⟨rfl, hne⟩ := nonEmpty_eq_some hsome
        exact Segments.segmentTags_of_normalizeTags hnormal hne
      refine ⟨fun text htext => ?_, fun tags => htags hany, fun tags => htags hall, ?_⟩
      · dsimp only at htext
        obtain ⟨hmap, hne⟩ := Option.filter_eq_some_iff.mp htext
        obtain ⟨raw, -, rfl⟩ := Option.map_eq_some_iff.mp hmap
        refine ⟨by simpa using hne, trim_trim raw, ?_⟩
        rw [htext] at hlong
        simpa using hlong
      · by_contra hnone
        push Not at hnone
        simp only [nonEmpty, ite_eq_left_iff, reduceCtorEq, imp_false, not_not] at hnone
        exact hempty hnone

/-- Normal tags, or none, are left alone. -/
theorem normalizeTags_of_normal {tags : Option (List String)}
    (h : ∀ l, tags = some l → SegmentTags l) (field : String) :
    ∃ result, Segments.normalizeTags tags field = .ok result ∧ nonEmpty result = tags := by
  cases tags with
  | none => exact ⟨[], rfl, rfl⟩
  | some tags =>
      have htags := h tags rfl
      exact ⟨tags, Segments.normalizeTags_eq htags field, if_neg htags.ne_nil⟩

/-- **A normal definition is left alone.** -/
theorem SegmentDefinition.Normal.normalize_eq {d : SegmentDefinition} (h : d.Normal) :
    normalizeSegmentDefinition (some d) = .ok d := by
  have hlanguage : (d.language.map trim).filter (fun text => text ≠ "") = d.language := by
    rcases hd : d.language with _ | text
    · rfl
    · obtain ⟨hne, htrim, -⟩ := h.language text hd
      simp [htrim, hne]
  have hshort : d.language.any (fun text => 20 < utf16Length text) = false := by
    rcases hd : d.language with _ | text
    · rfl
    · have hle := (h.language text hd).2.2
      simpa using hle
  obtain ⟨tagsAny, hany, hsomeAny⟩ := normalizeTags_of_normal h.tagsAny "tagsAny"
  obtain ⟨tagsAll, hall, hsomeAll⟩ := normalizeTags_of_normal h.tagsAll "tagsAll"
  have hcriterion : ¬(d.language = none ∧ tagsAny = [] ∧ tagsAll = []) := by
    rintro ⟨hnone, rfl, rfl⟩
    rcases h.criterion with hsome | hsome | hsome
    · exact hsome hnone
    · exact hsome hsomeAny.symm
    · exact hsome hsomeAll.symm
  simp only [normalizeSegmentDefinition, hlanguage, hshort, hany, hall, ok_bind]
  rw [if_neg Bool.false_ne_true, if_neg hcriterion, hsomeAny, hsomeAll]

/-- Reading what was stored is normalising it again. -/
theorem readPersistedSegmentDefinition_toJson (d : SegmentDefinition) :
    readPersistedSegmentDefinition d.toJson = normalizeSegmentDefinition (some d) := by
  have hread : readPersistedSegmentDefinition d.toJson = normalizeSegmentDefinition (some
      { language := (d.toJson.get? "language").bind Json.string?
        tagsAny := ((d.toJson.get? "tagsAny").bind Json.array?).map fun items =>
          items.filterMap Json.string?
        tagsAll := ((d.toJson.get? "tagsAll").bind Json.array?).map fun items =>
          items.filterMap Json.string? }) := rfl
  have hget : ∀ key, d.toJson.get? key = _ := Json.get?_object (by simp)
  rw [hread, hget, hget, hget]
  change normalizeSegmentDefinition (some
    { language := (d.language.map Json.str).bind Json.string?
      tagsAny := ((d.tagsAny.map Json.strings).bind Json.array?).map fun items =>
        items.filterMap Json.string?
      tagsAll := ((d.tagsAll.map Json.strings).bind Json.array?).map fun items =>
        items.filterMap Json.string? }) = _
  rw [Json.filterMap_string_strings, Json.filterMap_string_strings, Json.bind_string_str]

end ApiWhatsApp
