import ApiWhatsApp.Messages.Create

/-!
# Payloads

The same untyped payload is read twice: by `create` before the row is stored, and by the Meta
message mapper when the worker sends the row.

* `normalizeMediaPayload` — the reader of media payloads, run by both. The URL parser of the
  platform is a parameter. `MediaPayload.WellFormed` is what it lets through, and
  **`normalizeMediaPayload_toJson`** that what it let through it lets through again, unchanged.
* `mapMessageToMetaPayload` — the mapper, with its error texts. `mapTextMessage_ok_iff`,
  `mapTemplateMessage_ok_iff` and `mapByType_media` say what it asks of a payload.
-/

namespace ApiWhatsApp

open Library

/-! ## Media payloads -/

/-- The parts of `new URL(value)` that the link check reads. -/
structure Url where
  protocol : String
  hostname : String
  username : String
  password : String
  hash : String

/-- The member's own text in `enum OutboundMessageType`. -/
def OutboundMessageType.label : OutboundMessageType → String
  | .text => "TEXT"
  | .template => "TEMPLATE"
  | .image => "IMAGE"
  | .video => "VIDEO"
  | .audio => "AUDIO"
  | .document => "DOCUMENT"

/-- Source: `NormalizedMediaPayload`. -/
structure MediaPayload where
  id : Option String
  link : Option String
  caption : Option String
  filename : Option String
  deriving DecidableEq

/-- A field that is spread into an object only when it is truthy. -/
def spread (key : String) (value : Option String) : List (String × Json) :=
  match value with
  | some text => if text = "" then [] else [(key, .str text)]
  | none => []

/-- The object that `normalizeMediaPayload` returns. -/
def MediaPayload.toJson (media : MediaPayload) : Json :=
  .obj (spread "id" media.id ++ spread "link" media.link ++ spread "caption" media.caption ++
    spread "filename" media.filename)

/-- `value ? 1 : 0`. -/
def truthy (value : Option String) : ℕ := if value.any (· ≠ "") then 1 else 0

/-- Source: `readOptionalString`. -/
def readOptionalString (value : Option Json) (label : String) (maxLength : ℕ) :
    Except String (Option String) :=
  match value with
  | none => .ok none
  | some (.str text) =>
      let normalized := trim text
      if normalized = "" then .error s!"{label} cannot be blank"
      else if maxLength < utf16Length normalized then
        .error s!"{label} cannot exceed {maxLength} characters"
      else .ok (some normalized)
  | some _ => .error s!"{label} must be a string when provided"

/-- Source: `containsControlCharacter`. -/
def containsControlCharacter (value : String) : Bool :=
  value.toList.any fun c => c.toNat ≤ 31 || c.toNat = 127

/-- Source: `validateHttpsLink`. -/
def validateHttpsLink (parseUrl : String → Option Url) (type : String) (value : String) :
    Except String Unit :=
  match parseUrl value with
  | none => .error s!"{type} payload 'link' must be an absolute HTTPS URL"
  | some url =>
      if url.protocol ≠ "https:" ∨ url.hostname = "" then
        .error s!"{type} payload 'link' must be an absolute HTTPS URL"
      else if url.username ≠ "" ∨ url.password ≠ "" then
        .error s!"{type} payload 'link' cannot contain embedded credentials"
      else if url.hash ≠ "" then
        .error s!"{type} payload 'link' cannot contain a URL fragment"
      else .ok ()

/-- The keys that a payload of the type may have. -/
def allowedKeys (type : OutboundMessageType) : List String :=
  ["id", "link"] ++ (if type = .audio then [] else ["caption"]) ++
    (if type = .document then ["filename"] else [])

/-- Exactly one of the two fields is truthy. -/
def requireOne (type : String) (id link : Option String) : Except String Unit :=
  if truthy id + truthy link ≠ 1 then
    .error s!"{type} payload requires exactly one of 'id' or 'link'"
  else .ok ()

/-- A truthy link is an HTTPS link. -/
def checkLink (parseUrl : String → Option Url) (type : String) (link : Option String) :
    Except String Unit :=
  match link with
  | some value => if value ≠ "" then validateHttpsLink parseUrl type value else .ok ()
  | none => .ok ()

/-- A truthy filename has no control character. -/
def checkFilename (filename : Option String) : Except String Unit :=
  if filename.any fun value => value ≠ "" && containsControlCharacter value then
    .error "DOCUMENT payload 'filename' cannot contain control characters"
  else .ok ()

/-- The caption, which audio does not have. -/
def readCaption (type : OutboundMessageType) (fields : List (String × Json)) :
    Except String (Option String) :=
  if type = .audio then .ok none
  else readOptionalString (fields.lookup "caption") s!"{type.label} payload 'caption'" 1024

/-- The filename, which only a document has. -/
def readFilename (type : OutboundMessageType) (fields : List (String × Json)) :
    Except String (Option String) :=
  if type = .document then
    readOptionalString (fields.lookup "filename") s!"{type.label} payload 'filename'" 240
  else .ok none

/-- The checks of `normalizeMediaPayload` on an object, in the source's order. -/
def readMediaFields (parseUrl : String → Option Url) (type : OutboundMessageType)
    (fields : List (String × Json)) : Except String MediaPayload :=
  match (fields.map Prod.fst).find? fun key => key ∉ allowedKeys type with
  | some key => .error s!"{type.label} payload contains unsupported field '{key}'"
  | none => do
      let id ← readOptionalString (fields.lookup "id") s!"{type.label} payload 'id'" 512
      let link ← readOptionalString (fields.lookup "link") s!"{type.label} payload 'link'" 2048
      requireOne type.label id link
      checkLink parseUrl type.label link
      let caption ← readCaption type fields
      let filename ← readFilename type fields
      checkFilename filename
      return { id, link, caption, filename }

/-- Source: `normalizeMediaPayload` in `media-payload.util.ts`. -/
def normalizeMediaPayload (parseUrl : String → Option Url) (type : OutboundMessageType)
    (input : Json) : Except String Json :=
  if !isMediaMessageType type then .error s!"Unsupported media message type: {type.label}"
  else match input with
    | .obj fields => (readMediaFields parseUrl type fields).map MediaPayload.toJson
    | _ => .error s!"{type.label} payload must be an object"

/-- A text as `readOptionalString` returns it. -/
def Tidy (maxLength : ℕ) (value : Option String) : Prop :=
  ∀ text, value = some text → text ≠ "" ∧ trim text = text ∧ utf16Length text ≤ maxLength

/-- What is read of an optional text is tidy. -/
theorem tidy_of_readOptionalString {value : Option Json} {label : String} {maxLength : ℕ}
    {read : Option String} (h : readOptionalString value label maxLength = .ok read) :
    Tidy maxLength read := by
  unfold readOptionalString at h
  split at h
  · cases h
    intro text htext
    cases htext
  · rename_i text
    dsimp only at h
    split_ifs at h with hblank hlong
    cases h
    rintro _ ⟨⟩
    exact ⟨hblank, trim_trim text, Nat.le_of_not_lt hlong⟩
  · cases h

/-- A tidy text is read back unchanged. -/
theorem Tidy.readOptionalString {maxLength : ℕ} {value : Option String} (h : Tidy maxLength value)
    (label : String) : readOptionalString (value.map .str) label maxLength = .ok value := by
  cases value with
  | none => rfl
  | some text =>
      obtain ⟨hne, htrim, hlength⟩ := h text rfl
      simp only [Option.map_some, ApiWhatsApp.readOptionalString, htrim, hne, if_false,
        Nat.not_lt_of_le hlength]

/-- A tidy text is spread as it is. -/
theorem Tidy.spread {maxLength : ℕ} {value : Option String} (h : Tidy maxLength value)
    (key : String) : spread key value = (value.map fun text => (key, Json.str text)).toList := by
  cases value with
  | none => rfl
  | some text => simp [ApiWhatsApp.spread, (h text rfl).1]

/-- What `normalizeMediaPayload` lets through for a type. -/
structure MediaPayload.WellFormed (parseUrl : String → Option Url) (type : OutboundMessageType)
    (media : MediaPayload) : Prop where
  id : Tidy 512 media.id
  link : Tidy 2048 media.link
  caption : Tidy 1024 media.caption
  filename : Tidy 240 media.filename
  one : truthy media.id + truthy media.link = 1
  https : ∀ value, media.link = some value → validateHttpsLink parseUrl type.label value = .ok ()
  noCaption : type = .audio → media.caption = none
  noFilename : type ≠ .document → media.filename = none
  printable : ∀ value, media.filename = some value → containsControlCharacter value = false

/-- What is read of the fields is well formed. -/
theorem wellFormed_of_readMediaFields {parseUrl : String → Option Url} {type : OutboundMessageType}
    {fields : List (String × Json)} {media : MediaPayload}
    (h : readMediaFields parseUrl type fields = .ok media) : media.WellFormed parseUrl type := by
  unfold readMediaFields at h
  split at h
  · cases h
  obtain ⟨id, hid, h⟩ := bind_eq_ok.mp h
  obtain ⟨link, hlink, h⟩ := bind_eq_ok.mp h
  obtain ⟨_, hone, h⟩ := bind_eq_ok.mp h
  obtain ⟨_, hcheck, h⟩ := bind_eq_ok.mp h
  obtain ⟨caption, hcaption, h⟩ := bind_eq_ok.mp h
  obtain ⟨filename, hfilename, h⟩ := bind_eq_ok.mp h
  obtain ⟨_, hprintable, h⟩ := bind_eq_ok.mp h
  cases h
  have htidy := tidy_of_readOptionalString hlink
  unfold readCaption at hcaption
  unfold readFilename at hfilename
  have htidyFilename : Tidy 240 filename := by
    split_ifs at hfilename
    · exact tidy_of_readOptionalString hfilename
    · cases hfilename
      simp [Tidy]
  refine ⟨tidy_of_readOptionalString hid, htidy, ?_, htidyFilename, ?_, ?_, ?_, ?_, ?_⟩
  · split_ifs at hcaption
    · cases hcaption
      simp [Tidy]
    · exact tidy_of_readOptionalString hcaption
  · unfold requireOne at hone
    split_ifs at hone with h1
    exact not_not.mp h1
  · rintro value rfl
    simpa [checkLink, (htidy value rfl).1] using hcheck
  · intro haudio
    rw [if_pos haudio] at hcaption
    cases hcaption
    rfl
  · intro hdocument
    rw [if_neg hdocument] at hfilename
    cases hfilename
    rfl
  · rintro value rfl
    unfold checkFilename at hprintable
    split_ifs at hprintable with hcontrol
    simpa [(htidyFilename value rfl).1] using hcontrol

/-- The fields of a payload, each where it is given. -/
def MediaPayload.fields (media : MediaPayload) : List (String × Json) :=
  (media.id.map fun text => ("id", Json.str text)).toList ++
    (media.link.map fun text => ("link", Json.str text)).toList ++
    (media.caption.map fun text => ("caption", Json.str text)).toList ++
    (media.filename.map fun text => ("filename", Json.str text)).toList

/-- Each field of a payload, by its name. -/
theorem MediaPayload.lookup_fields (media : MediaPayload) :
    media.fields.lookup "id" = media.id.map .str ∧
      media.fields.lookup "link" = media.link.map .str ∧
      media.fields.lookup "caption" = media.caption.map .str ∧
      media.fields.lookup "filename" = media.filename.map .str := by
  obtain ⟨id, link, caption, filename⟩ := media
  cases id <;> cases link <;> cases caption <;> cases filename <;> exact ⟨rfl, rfl, rfl, rfl⟩

namespace MediaPayload.WellFormed

variable {parseUrl : String → Option Url} {type : OutboundMessageType} {media : MediaPayload}

/-- A payload that is well formed is written as it is. -/
theorem toJson_eq (h : media.WellFormed parseUrl type) : media.toJson = .obj media.fields := by
  simp only [MediaPayload.toJson, MediaPayload.fields, h.id.spread, h.link.spread, h.caption.spread,
    h.filename.spread]

/-- Every field is one that the type may have. -/
theorem find_unsupported (h : media.WellFormed parseUrl type) :
    ((media.fields.map Prod.fst).find? fun key => key ∉ allowedKeys type) = none := by
  rw [List.find?_eq_none]
  intro key hkey
  have hcaption : media.caption ≠ none → type ≠ .audio := fun hne haudio => hne (h.noCaption haudio)
  have hfilename : media.filename ≠ none → type = .document := fun hne =>
    not_not.mp fun hdocument => hne (h.noFilename hdocument)
  simp only [fields, List.map_append, List.mem_append, List.mem_map, Option.mem_toList,
    Option.map_eq_some_iff] at hkey
  obtain ((⟨_, ⟨_, -, rfl⟩, rfl⟩ | ⟨_, ⟨_, -, rfl⟩, rfl⟩) | ⟨_, ⟨_, hc, rfl⟩, rfl⟩) |
    ⟨_, ⟨_, hf, rfl⟩, rfl⟩ := hkey
  · simp [allowedKeys]
  · simp [allowedKeys]
  · simp [allowedKeys, hcaption (by simp [hc])]
  · simp [allowedKeys, hfilename (by simp [hf])]

/-- A well-formed payload is read back as it is. -/
theorem readMediaFields_fields (h : media.WellFormed parseUrl type) :
    readMediaFields parseUrl type media.fields = .ok media := by
  obtain ⟨hid, hlink, hcaption, hfilename⟩ := media.lookup_fields
  have hone : requireOne type.label media.id media.link = .ok () := by
    simp [requireOne, h.one]
  have hcheck : checkLink parseUrl type.label media.link = .ok () := by
    unfold checkLink
    split
    · rename_i value hvalue
      rw [if_pos (h.link value hvalue).1, h.https value hvalue]
    · rfl
  have hreadCaption : readCaption type media.fields = .ok media.caption := by
    unfold readCaption
    split_ifs with haudio
    · rw [h.noCaption haudio]
    · rw [hcaption, h.caption.readOptionalString]
  have hreadFilename : readFilename type media.fields = .ok media.filename := by
    unfold readFilename
    split_ifs with hdocument
    · rw [hfilename, h.filename.readOptionalString]
    · rw [h.noFilename hdocument]
  have hprintable : checkFilename media.filename = .ok () := by
    unfold checkFilename
    rw [if_neg]
    simp only [Option.any_eq_true, Bool.and_eq_true, not_exists, not_and]
    intro value hvalue _
    simp [h.printable value hvalue]
  simp only [readMediaFields, h.find_unsupported, hid, hlink, h.id.readOptionalString,
    h.link.readOptionalString, ok_bind, hone, hcheck, hreadCaption, hreadFilename, hprintable]
  rfl

end MediaPayload.WellFormed

/-- What `normalizeMediaPayload` returns is well formed. -/
theorem wellFormed_of_normalizeMediaPayload {parseUrl : String → Option Url}
    {type : OutboundMessageType} {input output : Json}
    (h : normalizeMediaPayload parseUrl type input = .ok output) :
    ∃ media : MediaPayload, media.WellFormed parseUrl type ∧ output = media.toJson := by
  unfold normalizeMediaPayload at h
  split_ifs at h
  split at h
  · rename_i fields
    rcases hread : readMediaFields parseUrl type fields with error | media
    · rw [hread] at h
      cases h
    · rw [hread] at h
      cases h
      exact ⟨media, wellFormed_of_readMediaFields hread, rfl⟩
  · cases h

/-- **What was let through is let through again, unchanged.** -/
theorem normalizeMediaPayload_toJson {parseUrl : String → Option Url} {type : OutboundMessageType}
    {media : MediaPayload} (hmedia : isMediaMessageType type = true)
    (h : media.WellFormed parseUrl type) :
    normalizeMediaPayload parseUrl type media.toJson = .ok media.toJson := by
  simp only [normalizeMediaPayload, hmedia, Bool.not_true, Bool.false_eq_true, if_false,
    h.toJson_eq, h.readMediaFields_fields, Except.map]

/-! ## The Meta message mapper -/

/-- What a request carries: its `type` and the field of that name. -/
inductive MetaContent where
  | text (body : String) (previewUrl : Option Bool)
  | template (name language : String) (components : Option (List Json))
  | image (media : Json)
  | video (media : Json)
  | audio (media : Json)
  | document (media : Json)

/-- Source: `MetaMessagePayload`. -/
structure MetaMessagePayload where
  messagingProduct : String := "whatsapp"
  recipientType : String := "individual"
  to_ : String
  content : MetaContent

/-- The member's own text in `enum MessageType`. -/
def MessageType.label : MessageType → String
  | .text => "TEXT"
  | .template => "TEMPLATE"
  | .image => "IMAGE"
  | .video => "VIDEO"
  | .audio => "AUDIO"
  | .document => "DOCUMENT"
  | .interactive => "INTERACTIVE"
  | .location => "LOCATION"
  | .contact => "CONTACT"
  | .unknown => "UNKNOWN"

/-- Source: `normalizeRecipient` in `meta-message.mapper.ts`. -/
def normalizeRecipient (value : Option String) : Except String String :=
  match value.filter (· ≠ "") with
  | none => .error "Outbound message recipient is required"
  | some value =>
      let normalized := value.toList.filter Char.isDigit
      if normalized.length < 8 ∨ 15 < normalized.length then
        .error "Outbound message recipient must be a valid international phone number"
      else .ok (String.ofList normalized)

/-- Source: `asObject`. -/
def asObject : Json → Except String Json
  | .obj fields => .ok (.obj fields)
  | _ => .error "Message payload must be an object"

/-- Source: `mapTextMessage`. -/
def mapTextMessage (to_ : String) (payload : Json) : Except String MetaMessagePayload :=
  match (payload.get? "body").bind Json.string? with
  | none => .error "TEXT payload requires a non-empty 'body' string"
  | some body =>
      if trim body = "" then .error "TEXT payload requires a non-empty 'body' string"
      else match payload.get? "previewUrl" with
        | none => .ok { to_, content := .text body none }
        | some (.bool previewUrl) => .ok { to_, content := .text body (some previewUrl) }
        | some _ => .error "TEXT payload 'previewUrl' must be a boolean when provided"

/-- Source: `mapTemplateMessage`. -/
def mapTemplateMessage (to_ : String) (payload : Json) : Except String MetaMessagePayload :=
  match ((payload.get? "name").bind Json.string?).filter (trim · ≠ ""),
      ((payload.get? "language").bind Json.string?).filter (trim · ≠ "") with
  | none, _ => .error "TEMPLATE payload requires a non-empty 'name' string"
  | some _, none => .error "TEMPLATE payload requires a non-empty 'language' string"
  | some name, some language =>
      match payload.get? "components" with
      | none => .ok { to_, content := .template name language none }
      | some (.arr components) => .ok { to_, content := .template name language (some components) }
      | some _ => .error "TEMPLATE payload 'components' must be an array when provided"

/-- Source: `mapMediaMessage`; the `content` is the one of the type. -/
def mapMediaMessage (parseUrl : String → Option Url) (to_ : String) (type : OutboundMessageType)
    (content : Json → MetaContent) (payload : Json) : Except String MetaMessagePayload :=
  (normalizeMediaPayload parseUrl type payload).map fun media => { to_, content := content media }

/-- The `switch` of `mapMessageToMetaPayload`. -/
def mapByType (parseUrl : String → Option Url) (type : MessageType) (to_ : String) (payload : Json) :
    Except String MetaMessagePayload :=
  match type with
  | .text => mapTextMessage to_ payload
  | .template => mapTemplateMessage to_ payload
  | .image => mapMediaMessage parseUrl to_ .image .image payload
  | .video => mapMediaMessage parseUrl to_ .video .video payload
  | .audio => mapMediaMessage parseUrl to_ .audio .audio payload
  | .document => mapMediaMessage parseUrl to_ .document .document payload
  | type => .error s!"Unsupported outbound message type: {type.label}"

/-- Source: `mapMessageToMetaPayload` in `meta-message.mapper.ts`. -/
def mapMessageToMetaPayload (parseUrl : String → Option Url) (message : Message) :
    Except String MetaMessagePayload := do
  let to_ ← normalizeRecipient message.to_
  let payload ← asObject message.payload
  mapByType parseUrl message.type to_ payload

/-- A number in E.164 form, as `normalizePhoneNumber` returns it, is a recipient as it stands. -/
theorem normalizeRecipient_of_normalizePhoneNumber {value normalized : String}
    (h : normalizePhoneNumber value = .ok normalized) :
    normalizeRecipient (some normalized) = .ok normalized := by
  have hE164 : isE164 normalized = true := by
    unfold normalizePhoneNumber at h
    dsimp only at h
    split_ifs at h with hvalid
    cases h
    exact hvalid
  unfold isE164 at hE164
  split at hE164
  · cases hE164
  · rename_i c cs hlist
    simp only [Bool.and_eq_true, decide_eq_true_eq] at hE164
    obtain ⟨⟨⟨⟨hdigit, -⟩, hdigits⟩, hmin⟩, hmax⟩ := hE164
    have hfilter : normalized.toList.filter Char.isDigit = normalized.toList := by
      rw [List.filter_eq_self, hlist]
      simpa [hdigit] using hdigits
    have hne : normalized ≠ "" := by
      rintro rfl
      simp at hlist
    have hlength : ¬(normalized.toList.length < 8 ∨ 15 < normalized.toList.length) := by
      rw [hlist, List.length_cons]
      omega
    simp only [normalizeRecipient, Option.filter_some, hne, ne_eq, not_false_eq_true, decide_true,
      if_true, hfilter, if_neg hlength, String.ofList_toList]

/-! ## What the mapper asks of a payload -/

/-- With a recipient in E.164 form only the payload decides. -/
theorem mapMessageToMetaPayload_eq (parseUrl : String → Option Url) {message : Message}
    {value normalizedTo : String} (hto : normalizePhoneNumber value = .ok normalizedTo)
    (hmessage : message.to_ = some normalizedTo) :
    mapMessageToMetaPayload parseUrl message =
      (asObject message.payload >>= mapByType parseUrl message.type normalizedTo) := by
  unfold mapMessageToMetaPayload
  rw [hmessage, normalizeRecipient_of_normalizePhoneNumber hto, ok_bind]

/-- A text can be sent exactly when its body is not blank and its `previewUrl` is a boolean. -/
theorem mapTextMessage_ok_iff (to_ : String) (payload : Json) :
    (∃ request, (asObject payload >>= mapTextMessage to_) = .ok request ∧ request.to_ = to_) ↔
      ((nonBlankField payload "body").isSome = true ∧
        (payload.get? "previewUrl").all (fun value => value.bool?.isSome) = true) := by
  cases payload with
  | null | bool _ | num _ _ | str _ | arr _ =>
      simp [asObject, bind, Except.bind, nonBlankField, Json.get?]
  | obj fields =>
      rw [asObject, ok_bind]
      unfold mapTextMessage nonBlankField
      rcases ((Json.obj fields).get? "body").bind Json.string? with _ | body
      · simp
      · by_cases hblank : trim body = ""
        · simp [hblank]
        · rcases (Json.obj fields).get? "previewUrl" with _ | value
          · simp [hblank]
          · cases value <;> simp [hblank, Json.bool?]

/-- The name and language of a template message go out as they stand in the payload. -/
theorem mapTemplateMessage_ok_iff (to_ : String) (payload : Json) {name language : String}
    (hname : nonBlankField payload "name" = some name)
    (hlanguage : nonBlankField payload "language" = some language) :
    (∃ request, mapTemplateMessage to_ payload = .ok request ∧ request.to_ = to_ ∧
        ∃ components, request.content = .template name language components) ↔
      (["name", "language"].all (fun key =>
          ((payload.get? key).bind Json.string?).all fun text => trim text = text) = true ∧
        (payload.get? "components").all (fun value => value.array?.isSome) = true) := by
  obtain ⟨rawName, hrawName, hname⟩ := Option.bind_eq_some_iff.mp hname
  obtain ⟨rawLanguage, hrawLanguage, hlanguage⟩ := Option.bind_eq_some_iff.mp hlanguage
  obtain ⟨hnameBlank, hname⟩ := Option.ite_none_left_eq_some.mp hname
  obtain ⟨hlanguageBlank, hlanguage⟩ := Option.ite_none_left_eq_some.mp hlanguage
  obtain rfl := Option.some.inj hname
  obtain rfl := Option.some.inj hlanguage
  unfold mapTemplateMessage
  simp only [hrawName, hrawLanguage, Option.filter_some, hnameBlank, hlanguageBlank, ne_eq,
    not_false_eq_true, decide_true, if_true]
  have hsame : ∀ text : String, text = trim text ↔ trim text = text := fun _ => eq_comm
  rcases payload.get? "components" with _ | value
  · simp [hrawName, hrawLanguage, hsame]
  · cases value <;> simp [hrawName, hrawLanguage, Json.array?, hsame]

/-- A media payload that was normalised is mapped, and left as it is. -/
theorem mapByType_media {parseUrl : String → Option Url} {type : OutboundMessageType}
    {input payload : Json} (hmedia : isMediaMessageType type = true)
    (h : normalizeMediaPayload parseUrl type input = .ok payload) (to_ : String) :
    normalizeMediaPayload parseUrl type payload = .ok payload ∧
      ∃ request, (asObject payload >>= mapByType parseUrl (mapType type) to_) = .ok request ∧
        request.to_ = to_ := by
  obtain ⟨media, hwf, rfl⟩ := wellFormed_of_normalizeMediaPayload h
  have hagain := normalizeMediaPayload_toJson hmedia hwf
  refine ⟨hagain, ?_⟩
  have hobject : asObject media.toJson = .ok media.toJson := rfl
  rw [hobject, ok_bind]
  cases type with
  | text | template => cases hmedia
  | image | video | audio | document =>
      simp only [mapByType, mapType, mapMediaMessage, hagain, Except.map]
      exact ⟨_, rfl, rfl⟩

/-- The mapper changes no recipient. -/
theorem to_of_mapByType {parseUrl : String → Option Url} {type : MessageType} {to_ : String}
    {payload : Json} {request : MetaMessagePayload}
    (h : mapByType parseUrl type to_ payload = .ok request) : request.to_ = to_ := by
  have hmedia : ∀ (type : OutboundMessageType) (content : Json → MetaContent),
      mapMediaMessage parseUrl to_ type content payload = .ok request → request.to_ = to_ := by
    intro type content h
    unfold mapMediaMessage at h
    rcases hread : normalizeMediaPayload parseUrl type payload with _ | media
    · rw [hread] at h
      cases h
    · rw [hread] at h
      cases h
      rfl
  cases type with
  | text =>
      simp only [mapByType, mapTextMessage] at h
      split at h
      · cases h
      · split_ifs at h
        split at h <;> cases h <;> rfl
  | template =>
      simp only [mapByType, mapTemplateMessage] at h
      split at h
      · cases h
      · cases h
      · split at h <;> cases h <;> rfl
  | image | video | audio | document => exact hmedia _ _ h
  | interactive | location | contact | unknown => cases h

end ApiWhatsApp
