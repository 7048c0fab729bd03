import ApiWhatsApp.Library.Objects

/-!
# Personalising the components of a campaign

`campaigns/campaign-personalization.util.ts`: `validateCampaignComponents` is asked when a campaign
is created, and `renderCampaignComponents` once for each recipient.

* `visit` counts nodes and tokens on its way through a value, and `render` rebuilds it. They read
  the tokens with the same two patterns, `directToken` and `metadataToken`.
* `Personalized` is what a recipient is sent, path by path.
* **`campaign_personalization`** — a value that was accepted is rendered for every contact that has
  what its tokens stand for, and for no other.
-/

namespace ApiWhatsApp

namespace Campaigns

open Library JsString

/-! ## Tokens -/

/-- The fields of a contact that a token may name. -/
inductive ContactField where
  | name
  | phone
  | language
  | timezone
  deriving DecidableEq

namespace ContactField

/-- Every field. -/
def all : List ContactField := [name, phone, language, timezone]

/-- The field as the token has it. -/
def text : ContactField → JsString
  | name => ofText "name"
  | phone => ofText "phone"
  | language => ofText "language"
  | timezone => ofText "timezone"

end ContactField

/-- What a token begins with. -/
def tokenOpening : JsString := ofText "\x7b\x7bcontact."

/-- What a metadata token begins with. -/
def metadataOpening : JsString := ofText "\x7b\x7bcontact.metadata."

/-- What a token ends with. -/
def tokenClosing : JsString := ofText "\x7d\x7d"

/-- Source: `DIRECT_TOKEN.exec(value)`, the group of the match. -/
def directToken (value : JsString) : Option ContactField :=
  ContactField.all.find? fun field => value = tokenOpening ++ field.text ++ tokenClosing

/-- `[A-Za-z0-9_-]`. -/
def isKeyUnit (u : UInt16) : Bool :=
  isDigit u || (0x41 ≤ u.toNat && u.toNat ≤ 0x5A) || (0x61 ≤ u.toNat && u.toNat ≤ 0x7A) ||
    u = unit '_' || u = unit '-'

/-- `[A-Za-z0-9_-]{1,64}`. -/
def isMetadataKey (key : JsString) : Bool :=
  key.all isKeyUnit && 1 ≤ key.length && key.length ≤ 64

/-- Source: `METADATA_TOKEN.exec(value)`, the group of the match. -/
def metadataToken (value : JsString) : Option JsString :=
  let key := (value.drop metadataOpening.length).rdrop tokenClosing.length
  if value = metadataOpening ++ key ++ tokenClosing && isMetadataKey key then some key else none

/-- Source: `PLACEHOLDER_MARKER.test(value)`. -/
def hasPlaceholderMarker (value : JsString) : Bool :=
  ofText "\x7b\x7b" <:+: value || ofText "\x7d\x7d" <:+: value

/-! ## Errors -/

/-- Source: `CampaignPersonalizationTemplateError` and `CampaignPersonalizationValueError`. -/
inductive CampaignPersonalizationError where
  | template (message : JsString)
  | value (message : JsString)

/-- Source: `MAX_COMPONENT_NODES`. -/
def maxComponentNodes : ℕ := 1000

/-- Source: `MAX_PERSONALIZATION_TOKENS`. -/
def maxPersonalizationTokens : ℕ := 50

/-- Source: `MAX_DEPTH`. -/
def maxDepth : ℕ := 20

namespace CampaignPersonalizationError

/-- The components are nested too deep. -/
def nesting : CampaignPersonalizationError :=
  template (ofText s!"Campaign components exceed the maximum nesting depth of {maxDepth}")

/-- There are too many nodes. -/
def nodeCount : CampaignPersonalizationError :=
  template (ofText s!"Campaign components exceed the maximum node count of {maxComponentNodes}")

/-- There are too many tokens. -/
def tokenCount : CampaignPersonalizationError :=
  template (ofText
    s!"Campaign components exceed the maximum personalization token count of {maxPersonalizationTokens}")

/-- The text has braces, but is no token. -/
def unsupported (value : JsString) : CampaignPersonalizationError :=
  template (ofText "Unsupported personalization token '" ++ value ++
    ofText "'. Tokens must occupy the entire string value.")

/-- The contact has no value for the token. -/
def missing (token : JsString) : CampaignPersonalizationError :=
  value (ofText "Missing personalization value for " ++ token)

end CampaignPersonalizationError

open CampaignPersonalizationError

/-! ## Validating -/

/-- What the visitor has counted. -/
structure VisitState where
  nodes : ℕ
  tokens : ℕ

/-- Source: `visit`; the state is the one of the whole value. -/
def visit (value : JsValue) (depth : ℕ) (state : VisitState) :
    Except CampaignPersonalizationError VisitState :=
  if depth > maxDepth then .error nesting
  else if state.nodes + 1 > maxComponentNodes then .error nodeCount
  else
    let state := { state with nodes := state.nodes + 1 }
    match value with
    | .string text =>
        if (directToken text).isSome || (metadataToken text).isSome then
          if state.tokens + 1 > maxPersonalizationTokens then .error tokenCount
          else .ok { state with tokens := state.tokens + 1 }
        else if hasPlaceholderMarker text then .error (unsupported text)
        else .ok state
    | .array items => items.foldlM (fun state item => visit item (depth + 1) state) state
    | .object fields =>
        (JsValue.entries fields).foldlM (fun state entry => visit entry.2 (depth + 1) state) state
    | _ => .ok state
  termination_by maxDepth + 1 - depth

/-- Source: `validateCampaignComponents`. -/
def validateCampaignComponents (value : JsValue) : Except CampaignPersonalizationError Unit :=
  (visit value 0 ⟨0, 0⟩).map fun _ => ()

/-! ## Rendering -/

/-- Source: `interface CampaignPersonalizationContact`. -/
structure CampaignPersonalizationContact where
  name : Option JsString
  phone : JsString
  language : Option JsString
  timezone : Option JsString
  metadata : JsValue
  /-- The metadata of a contact is a JSON column. -/
  json : metadata.isUndefined = false → metadata.IsJson

namespace CampaignPersonalizationContact

/-- A nullable text, as JSON. -/
def textOrNull : Option JsString → JsValue
  | some text => .string text
  | none => .null

/-- `contact[field]`. -/
def get (contact : CampaignPersonalizationContact) : ContactField → JsValue
  | .name => textOrNull contact.name
  | .phone => .string contact.phone
  | .language => textOrNull contact.language
  | .timezone => textOrNull contact.timezone

end CampaignPersonalizationContact

/-- Source: `requireScalar`. -/
def requireScalar (value : JsValue) (token : JsString) :
    Except CampaignPersonalizationError JsString :=
  match value with
  | .string text => if text.length = 0 then .error (missing token) else .ok text
  | .number (some x) => .ok (numberText x)
  -- An infinity is no value of a JSON column either.
  | .number none => .ok (ofText "NaN")
  | .bool b => .ok (ofText (if b then "true" else "false"))
  | _ => .error (missing token)

/-- Source: `render`. -/
def render (value : JsValue) (contact : CampaignPersonalizationContact) (depth : ℕ) :
    Except CampaignPersonalizationError JsValue :=
  if depth > maxDepth then .error nesting
  else
    match value with
    | .string text =>
        match directToken text with
        | some field => (requireScalar (contact.get field) text).map .string
        | none =>
            match metadataToken text with
            | some key =>
                match contact.metadata with
                | .object source => (requireScalar (JsValue.member source key) text).map .string
                | _ => .error (missing text)
            | none =>
                if hasPlaceholderMarker text then .error (unsupported text) else .ok (.string text)
    | .array items => do
        let rendered ← items.mapM fun item => render item contact (depth + 1)
        .ok (.array rendered)
    | .object fields => do
        let rendered ← (JsValue.entries fields).mapM fun entry => do
          let nested ← render entry.2 contact (depth + 1)
          .ok (entry.1, nested)
        .ok (.object (JsValue.fromEntries rendered))
    | value => .ok value
  termination_by maxDepth + 1 - depth

/-- Source: `renderCampaignComponents`. -/
def renderCampaignComponents (value : JsValue) (contact : CampaignPersonalizationContact) :
    Except CampaignPersonalizationError JsValue :=
  render value contact 0

/-! ## What a token stands for -/

/-- The key of a metadata token. -/
structure MetadataKey where
  text : JsString
  valid : isMetadataKey text = true

/-- A token that the validator lets through. -/
inductive PersonalizationToken where
  | direct (field : ContactField)
  | metadata (key : MetadataKey)

/-- The text of the token. -/
def PersonalizationToken.text : PersonalizationToken → JsString
  | direct field => tokenOpening ++ field.text ++ tokenClosing
  | metadata key => metadataOpening ++ key.text ++ tokenClosing

/-- What a contact has for a token. -/
def CampaignPersonalizationContact.valueOf (contact : CampaignPersonalizationContact) :
    PersonalizationToken → JsValue
  | .direct field => contact.get field
  | .metadata key =>
      match contact.metadata with
      | .object source => JsValue.member source key.text
      | _ => .undefined

/-- A non-empty string, a number or a boolean, and the text that is inserted for it: a string as it
is, whatever it contains. -/
inductive Inserts : JsValue → JsString → Prop
  | string {text : JsString} (hne : text ≠ []) : Inserts (.string text) text
  | number (x : Double) : Inserts (.number (some x)) (numberText x)
  | bool (b : Bool) : Inserts (.bool b) (ofText (if b then "true" else "false"))

/-- A scalar is inserted as its text, and nothing else is. -/
theorem requireScalar_eq_ok {value : JsValue} (hfinite : value ≠ .number none)
    {token text : JsString} : requireScalar value token = .ok text ↔ Inserts value text := by
  constructor
  · intro h
    unfold requireScalar at h
    split at h
    · rename_i content
      split at h
      · cases h
      · rename_i hne
        cases h
        exact .string (fun hnil => hne (hnil ▸ rfl))
    · cases h
      exact .number _
    · exact absurd rfl hfinite
    · cases h
      exact .bool _
    · cases h
  · intro h
    cases h with
    | string hne => exact if_neg fun hlength => hne (List.eq_nil_of_length_eq_zero hlength)
    | number x => rfl
    | bool b => rfl

/-- The one error of `requireScalar`: there is nothing to insert. -/
theorem requireScalar_eq_error {value : JsValue} {token : JsString}
    {e : CampaignPersonalizationError} (h : requireScalar value token = .error e) :
    e = missing token ∧ ∀ text, ¬ Inserts value text := by
  constructor
  · unfold requireScalar at h
    split at h
    · split at h
      · cases h
        rfl
      · cases h
    · cases h
    · cases h
    · cases h
    · cases h
      rfl
  · intro text hinserts
    have hfinite : value ≠ .number none := by
      rintro rfl
      cases hinserts
    rw [(requireScalar_eq_ok hfinite).mpr hinserts] at h
    cases h

/-- A number of a contact is finite. -/
theorem CampaignPersonalizationContact.valueOf_ne (contact : CampaignPersonalizationContact)
    (token : PersonalizationToken) : contact.valueOf token ≠ .number none := by
  have htext : ∀ text : Option JsString, textOrNull text ≠ .number none := by
    rintro (_ | text) h <;> cases h
  obtain ⟨name, phone, language, timezone, metadata, hjson⟩ := contact
  cases token with
  | direct field =>
      cases field with
      | name => exact htext name
      | phone => exact fun h => (by cases h)
      | language => exact htext language
      | timezone => exact htext timezone
  | metadata key =>
      cases metadata with
      | object source =>
          intro h
          replace h : JsValue.member source key.text = .number none := h
          unfold JsValue.member at h
          split at h
          · rename_i value hlookup
            have hchild : (JsValue.object source).child (.key key.text) = some value := hlookup
            have hvalue := (hjson rfl).child hchild
            rw [h] at hvalue
            cases hvalue
          · split_ifs at h
      | _ => exact fun h => (by cases h)

/-! ## The two patterns -/

/-- What is read as a direct token is one. -/
theorem directToken_eq_some {value : JsString} {field : ContactField}
    (h : directToken value = some field) : value = (PersonalizationToken.direct field).text := by
  have hmatch := List.find?_some h
  exact of_decide_eq_true hmatch

/-- What is read as a metadata token is one, with a key that is allowed. -/
theorem metadataToken_eq_some {value key : JsString} (h : metadataToken value = some key) :
    ∃ k : MetadataKey, k.text = key ∧ value = (PersonalizationToken.metadata k).text := by
  rw [metadataToken] at h
  split at h
  · rename_i hmatch
    rw [Bool.and_eq_true, decide_eq_true_eq] at hmatch
    cases h
    exact ⟨⟨_, hmatch.2⟩, rfl, hmatch.1⟩
  · cases h

/-- Direct tokens are read back. -/
theorem directToken_direct (field : ContactField) :
    directToken (PersonalizationToken.direct field).text = some field := by
  cases field <;> decide

/-- A metadata token is no direct token. -/
theorem directToken_metadata (key : MetadataKey) :
    directToken (PersonalizationToken.metadata key).text = none := by
  rw [directToken, List.find?_eq_none]
  intro field _ hmatch
  -- The eleventh unit is not the first one of a field.
  have heq := congrArg (List.take 11) (of_decide_eq_true hmatch)
  rw [PersonalizationToken.text, List.append_assoc,
    List.take_append_of_le_length (by decide), List.append_assoc] at heq
  cases field <;> revert heq <;> decide

/-- Metadata tokens are read back. -/
theorem metadataToken_metadata (key : MetadataKey) :
    metadataToken (PersonalizationToken.metadata key).text = some key.text := by
  have hkey : ((metadataOpening ++ (key.text ++ tokenClosing)).drop metadataOpening.length).rdrop
      tokenClosing.length = key.text := by
    rw [List.drop_left, List.rdrop, List.length_append, Nat.add_sub_cancel, List.take_left]
  rw [metadataToken, PersonalizationToken.text, List.append_assoc, hkey]
  simp [key.valid]

/-- Every text is a token or is read as none. -/
theorem token_cases (text : JsString) :
    (∃ token : PersonalizationToken, text = token.text) ∨
      directToken text = none ∧ metadataToken text = none := by
  cases hdirect : directToken text with
  | some field => exact .inl ⟨.direct field, directToken_eq_some hdirect⟩
  | none =>
      cases hmetadata : metadataToken text with
      | some key =>
          obtain ⟨k, -, htext⟩ := metadataToken_eq_some hmetadata
          exact .inl ⟨.metadata k, htext⟩
      | none => exact .inr ⟨rfl, rfl⟩

/-- The renderer finds the token that a text is. -/
theorem render_token (token : PersonalizationToken) (contact : CampaignPersonalizationContact)
    {depth : ℕ} (hdepth : depth ≤ maxDepth) :
    render (.string token.text) contact depth =
      (requireScalar (contact.valueOf token) token.text).map .string := by
  rw [render, if_neg (Nat.not_lt.mpr hdepth)]
  cases token with
  | direct field => rw [directToken_direct]; rfl
  | metadata key =>
      rw [directToken_metadata, metadataToken_metadata]
      simp only [CampaignPersonalizationContact.valueOf]
      split
      · rfl
      · rfl

/-- A text that is no token is left as it is, if it has no braces. -/
theorem render_plain {text : JsString} (hdirect : directToken text = none)
    (hmetadata : metadataToken text = none) (contact : CampaignPersonalizationContact) {depth : ℕ}
    (hdepth : depth ≤ maxDepth) :
    render (.string text) contact depth =
      if hasPlaceholderMarker text then .error (unsupported text) else .ok (.string text) := by
  rw [render, if_neg (Nat.not_lt.mpr hdepth), hdirect, hmetadata]

/-- The items of an array are rendered one deeper. -/
theorem render_array (items : List JsValue) (contact : CampaignPersonalizationContact) {depth : ℕ}
    (hdepth : depth ≤ maxDepth) :
    render (.array items) contact depth =
      (items.mapM fun item => render item contact (depth + 1)) >>= fun rendered =>
        .ok (.array rendered) := by
  rw [render, if_neg (Nat.not_lt.mpr hdepth)]

/-- An entry, with the value that is rendered. -/
def renderEntry (contact : CampaignPersonalizationContact) (depth : ℕ)
    (entry : JsString × JsValue) : Except CampaignPersonalizationError (JsString × JsValue) :=
  render entry.2 contact depth >>= fun nested => .ok (entry.1, nested)

/-- So are the fields of an object. -/
theorem render_object (fields : List (JsString × JsValue))
    (contact : CampaignPersonalizationContact) {depth : ℕ} (hdepth : depth ≤ maxDepth) :
    render (.object fields) contact depth =
      (JsValue.entries fields).mapM (renderEntry contact (depth + 1)) >>= fun rendered =>
        .ok (.object (JsValue.fromEntries rendered)) := by
  rw [render, if_neg (Nat.not_lt.mpr hdepth)]
  rfl

/-- What is neither text nor container is left as it is. -/
theorem render_leaf {value : JsValue} (hleaf : value.isContainer = false)
    (htext : ∀ text, value ≠ .string text) (contact : CampaignPersonalizationContact) {depth : ℕ}
    (hdepth : depth ≤ maxDepth) : render value contact depth = .ok value := by
  rw [render, if_neg (Nat.not_lt.mpr hdepth)]
  · exact fun text heq => htext text heq
  · rintro items rfl
    cases hleaf
  · rintro fields rfl
    cases hleaf

/-! ## What the validator accepts -/

/-- The visit of a value goes through, with what was counted before it. -/
def Accepted (value : JsValue) (depth : ℕ) : Prop :=
  ∃ before after, visit value depth before = .ok after

/-- What is accepted is not nested too deep. -/
theorem Accepted.depth_le {value : JsValue} {depth : ℕ} (h : Accepted value depth) :
    depth ≤ maxDepth := by
  obtain ⟨before, after, hvisit⟩ := h
  by_contra hdepth
  rw [visit, if_pos (Nat.lt_of_not_le hdepth)] at hvisit
  cases hvisit

/-- What is accepted and no token has no braces. -/
theorem Accepted.plain {text : JsString} {depth : ℕ} (h : Accepted (.string text) depth)
    (hdirect : directToken text = none) (hmetadata : metadataToken text = none) :
    hasPlaceholderMarker text = false := by
  have hdepth := h.depth_le
  obtain ⟨before, after, hvisit⟩ := h
  rw [visit, if_neg (Nat.not_lt.mpr hdepth)] at hvisit
  split at hvisit
  · cases hvisit
  · simp only [hdirect, hmetadata] at hvisit
    by_contra hmarker
    rw [if_neg (by simp), if_pos (by simpa using hmarker)] at hvisit
    cases hvisit

/-- What is inside a value that is accepted was accepted. -/
theorem Accepted.child {value nested : JsValue} {depth : ℕ} {step : JsStep}
    (h : Accepted value depth) (hchild : value.child step = some nested) :
    Accepted nested (depth + 1) := by
  have hdepth := h.depth_le
  obtain ⟨before, after, hvisit⟩ := h
  rw [visit, if_neg (Nat.not_lt.mpr hdepth)] at hvisit
  split at hvisit
  · cases hvisit
  · cases value with
    | array items =>
        cases step with
        | index n => exact foldlM_eq_ok hvisit (List.mem_of_getElem? hchild)
        | key key => cases hchild
    | object fields =>
        cases step with
        | index n => cases hchild
        | key key => exact foldlM_eq_ok hvisit (JsValue.mem_entries.mpr hchild)
    | _ => cases hchild

/-! ## What the renderer makes of it -/

/-- **A value that was accepted fails for one reason only**: a token stands for something that the
contact does not have. -/
theorem render_error {value : JsValue} {depth : ℕ} (haccepted : Accepted value depth)
    {contact : CampaignPersonalizationContact} {e : CampaignPersonalizationError}
    (h : render value contact depth = .error e) :
    ∃ path token, value.valueAt path = some (.string (PersonalizationToken.text token)) ∧
      e = missing token.text ∧ ∀ text, ¬ Inserts (contact.valueOf token) text := by
  have hdepth := haccepted.depth_le
  have hnested : ∀ (step : JsStep) (nested : JsValue), value.child step = some nested →
      render nested contact (depth + 1) = .error e →
      ∃ path token, value.valueAt path = some (.string (PersonalizationToken.text token)) ∧
        e = missing token.text ∧ ∀ text, ¬ Inserts (contact.valueOf token) text := by
    intro step nested hchild herror
    obtain ⟨path, token, hpath, hmissing⟩ := render_error (haccepted.child hchild) herror
    refine ⟨step :: path, token, ?_, hmissing⟩
    rw [JsValue.valueAt_cons, hchild, Option.bind_some, hpath]
  cases value with
  | string text =>
      rcases token_cases text with ⟨token, rfl⟩ | ⟨hdirect, hmetadata⟩
      · rw [render_token token contact hdepth] at h
        cases hscalar : requireScalar (contact.valueOf token) token.text with
        | ok text => rw [hscalar] at h; cases h
        | error e' =>
            rw [hscalar] at h
            cases h
            exact ⟨[], token, rfl, requireScalar_eq_error hscalar⟩
      · rw [render_plain hdirect hmetadata contact hdepth,
          haccepted.plain hdirect hmetadata] at h
        cases h
  | array items =>
      rw [render_array items contact hdepth] at h
      obtain ⟨item, hitem, herror⟩ := mapM_eq_error (error_of_bind_ok h)
      obtain ⟨n, hn⟩ := List.mem_iff_getElem?.mp hitem
      exact hnested (.index n) item hn herror
  | object fields =>
      rw [render_object fields contact hdepth] at h
      obtain ⟨⟨key, nested⟩, hentry, herror⟩ := mapM_eq_error (error_of_bind_ok h)
      exact hnested (.key key) nested (JsValue.mem_entries.mp hentry) (error_of_bind_ok herror)
  | _ =>
      rw [render_leaf rfl (fun text heq => (by cases heq)) contact hdepth] at h
      cases h
  termination_by maxDepth + 1 - depth

/-- What a recipient is sent: the value as it is, but for the tokens. -/
structure Personalized (contact : CampaignPersonalizationContact) (value result : JsValue) :
    Prop where
  array : ∀ {path items}, value.valueAt path = some (.array items) →
    ∃ items', result.valueAt path = some (.array items') ∧ items'.length = items.length
  object : ∀ {path fields}, value.valueAt path = some (.object fields) →
    ∃ fields', result.valueAt path = some (.object fields') ∧
      (JsValue.entries fields').map Prod.fst = (JsValue.entries fields).map Prod.fst
  leaf : ∀ {path leaf}, value.valueAt path = some leaf → leaf.isContainer = false →
    (∀ token, leaf ≠ .string (PersonalizationToken.text token)) → result.valueAt path = some leaf
  token : ∀ {path token}, value.valueAt path = some (.string (PersonalizationToken.text token)) →
    ∃ text, Inserts (contact.valueOf token) text ∧ result.valueAt path = some (.string text)

section Rendered

variable {contact : CampaignPersonalizationContact} {value result : JsValue} {depth : ℕ}

/-- What is rendered is not nested too deep. -/
theorem depth_le_of_render (h : render value contact depth = .ok result) : depth ≤ maxDepth := by
  by_contra hdepth
  unfold render at h
  rw [if_pos (Nat.lt_of_not_le hdepth)] at h
  cases h

/-- An array is rendered item by item. -/
theorem render_array_eq_ok {items : List JsValue}
    (h : render (.array items) contact depth = .ok result) :
    ∃ items', result = .array items' ∧
      List.Forall₂ (fun item item' => render item contact (depth + 1) = .ok item') items items' := by
  rw [render_array items contact (depth_le_of_render h)] at h
  obtain ⟨items', hitems, heq⟩ := bind_eq_ok.mp h
  cases heq
  exact ⟨items', rfl, mapM_eq_ok.mp hitems⟩

/-- An object is rendered field by field, with its keys as they are. -/
theorem render_object_eq_ok {fields : List (JsString × JsValue)}
    (hkeys : (fields.map Prod.fst).Nodup)
    (h : render (.object fields) contact depth = .ok result) :
    ∃ fields', result = .object fields' ∧
      fields'.map Prod.fst = ownKeys (fields.map Prod.fst) ∧
      ∀ key nested, fields.lookup key = some nested →
        ∃ nested', fields'.lookup key = some nested' ∧
          render nested contact (depth + 1) = .ok nested' := by
  rw [render_object fields contact (depth_le_of_render h)] at h
  obtain ⟨rendered, hrendered, heq⟩ := bind_eq_ok.mp h
  cases heq
  have hentries := mapM_eq_ok.mp hrendered
  have hsame : rendered.map Prod.fst = ownKeys (fields.map Prod.fst) := by
    have hkey : ∀ entry entry', renderEntry contact (depth + 1) entry = .ok entry' →
        entry'.1 = entry.1 := by
      intro entry entry' hentry
      obtain ⟨nested, -, heq⟩ := bind_eq_ok.mp hentry
      cases heq
      rfl
    rw [← JsValue.map_fst_entries, ← List.forall₂_eq_eq_eq, List.forall₂_map_left_iff,
      List.forall₂_map_right_iff]
    exact (hentries.imp hkey).flip
  have hnodup : (rendered.map Prod.fst).Nodup := by
    rw [hsame]
    exact (perm_ownKeys _).nodup_iff.mpr hkeys
  refine ⟨rendered, by rw [JsValue.fromEntries_of_nodup hnodup], hsame, fun key nested hlookup => ?_⟩
  obtain ⟨n, hn⟩ := List.mem_iff_getElem?.mp (JsValue.mem_entries.mpr hlookup)
  obtain ⟨entry', hentry', hrender⟩ := exists_getElem?_of_forall₂ hentries hn
  obtain ⟨nested', hnested', heq⟩ := bind_eq_ok.mp hrender
  cases heq
  exact ⟨nested', JsValue.lookup_of_mem hnodup (List.mem_of_getElem? hentry'), hnested'⟩

/-- Each part of a value is rendered. -/
theorem exists_child_of_render (hjson : value.IsJson) (h : render value contact depth = .ok result)
    {step : JsStep} {nested : JsValue} (hchild : value.child step = some nested) :
    ∃ nested', result.child step = some nested' ∧
      render nested contact (depth + 1) = .ok nested' := by
  cases value with
  | array items =>
      obtain ⟨items', rfl, hitems⟩ := render_array_eq_ok h
      cases step with
      | index n => exact exists_getElem?_of_forall₂ hitems hchild
      | key key => cases hchild
  | object fields =>
      cases hjson with
      | object hfields hkeys =>
          obtain ⟨fields', rfl, -, hlookups⟩ := render_object_eq_ok hkeys h
          cases step with
          | index n => cases hchild
          | key key => exact hlookups key nested hchild
  | _ => cases hchild

/-- At every path, what is rendered is the rendering of what stood there. -/
theorem exists_valueAt_of_render (hjson : value.IsJson)
    (h : render value contact depth = .ok result) {path : List JsStep} {nested : JsValue}
    (hpath : value.valueAt path = some nested) :
    nested.IsJson ∧ ∃ nested' depth', result.valueAt path = some nested' ∧
      render nested contact depth' = .ok nested' := by
  induction path generalizing value result depth with
  | nil =>
      cases hpath
      exact ⟨hjson, result, depth, rfl, h⟩
  | cons step path ih =>
      obtain ⟨middle, hchild, hrest⟩ := Option.bind_eq_some_iff.mp hpath
      obtain ⟨middle', hchild', hrender⟩ := exists_child_of_render hjson h hchild
      obtain ⟨hnested, nested', depth', hvalue, hrender'⟩ := ih (hjson.child hchild) hrender hrest
      refine ⟨hnested, nested', depth', ?_, hrender'⟩
      rw [JsValue.valueAt_cons, hchild', Option.bind_some, hvalue]

/-- What is rendered is the template with the values of the contact in it. -/
theorem personalized (hjson : value.IsJson) (h : render value contact depth = .ok result) :
    Personalized contact value result where
  array hpath := by
    obtain ⟨-, nested', depth', hvalue, hrender⟩ := exists_valueAt_of_render hjson h hpath
    obtain ⟨items', rfl, hitems⟩ := render_array_eq_ok hrender
    exact ⟨items', hvalue, hitems.length_eq.symm⟩
  object hpath := by
    obtain ⟨hnested, nested', depth', hvalue, hrender⟩ := exists_valueAt_of_render hjson h hpath
    cases hnested with
    | object hfields hkeys =>
        obtain ⟨fields', rfl, hsame, -⟩ := render_object_eq_ok hkeys hrender
        refine ⟨fields', hvalue, ?_⟩
        rw [JsValue.map_fst_entries, JsValue.map_fst_entries, hsame, ownKeys_ownKeys]
  leaf {path leaf} hpath hleaf htoken := by
    obtain ⟨-, nested', depth', hvalue, hrender⟩ := exists_valueAt_of_render hjson h hpath
    have hdepth := depth_le_of_render hrender
    cases leaf with
    | string text =>
        rcases token_cases text with ⟨token, rfl⟩ | ⟨hdirect, hmetadata⟩
        · exact absurd rfl (htoken token)
        · rw [render_plain hdirect hmetadata contact hdepth] at hrender
          split at hrender
          · cases hrender
          · cases hrender
            exact hvalue
    | _ =>
        rw [render_leaf hleaf (fun text heq => (by cases heq)) contact hdepth] at hrender
        cases hrender
        exact hvalue
  token {path token} hpath := by
    obtain ⟨-, nested', depth', hvalue, hrender⟩ := exists_valueAt_of_render hjson h hpath
    rw [render_token token contact (depth_le_of_render hrender)] at hrender
    cases hscalar : requireScalar (contact.valueOf token) token.text with
    | error e =>
        rw [hscalar] at hrender
        cases hrender
    | ok text =>
        rw [hscalar] at hrender
        cases hrender
        exact ⟨text, (requireScalar_eq_ok (contact.valueOf_ne token)).mp hscalar, hvalue⟩

end Rendered

/-- **A value that was accepted is rendered for every contact that has what its tokens stand for**:
no contact makes it a template error, and the recipient is sent the value itself with the texts of
the contact in the places of the tokens. -/
theorem campaign_personalization {components : JsValue} (hjson : components.IsJson)
    (haccepted : validateCampaignComponents components = .ok ())
    (contact : CampaignPersonalizationContact) :
    (∀ message, renderCampaignComponents components contact ≠ .error (.template message)) ∧
    ((∃ result, renderCampaignComponents components contact = .ok result) ↔
      ∀ path token, components.valueAt path = some (.string (PersonalizationToken.text token)) →
        ∃ text, Inserts (contact.valueOf token) text) ∧
    ∀ result, renderCampaignComponents components contact = .ok result →
      Personalized contact components result ∧
      ∀ path token text, components.valueAt path = some (.string (PersonalizationToken.text token)) →
        contact.valueOf token = .string text → result.valueAt path = some (.string text) := by
  have hvisited : Accepted components 0 := by
    rw [validateCampaignComponents] at haccepted
    cases hvisit : visit components 0 ⟨0, 0⟩ with
    | ok after => exact ⟨_, after, hvisit⟩
    | error e => rw [hvisit] at haccepted; cases haccepted
  have herror : ∀ e, renderCampaignComponents components contact = .error e →
      ∃ path token, components.valueAt path = some (.string (PersonalizationToken.text token)) ∧
        e = missing token.text ∧ ∀ text, ¬ Inserts (contact.valueOf token) text :=
    fun e he => render_error hvisited he
  refine ⟨fun message h => ?_, ⟨?_, ?_⟩, fun result h => ?_⟩
  · obtain ⟨path, token, -, heq, -⟩ := herror _ h
    cases heq
  · rintro ⟨result, h⟩ path token hpath
    obtain ⟨text, hinserts, -⟩ := (personalized hjson h).token hpath
    exact ⟨text, hinserts⟩
  · intro hresolves
    cases h : renderCampaignComponents components contact with
    | ok result => exact ⟨result, rfl⟩
    | error e =>
        obtain ⟨path, token, hpath, -, hnone⟩ := herror e h
        obtain ⟨text, hinserts⟩ := hresolves path token hpath
        exact absurd hinserts (hnone text)
  · have hpersonalized := personalized hjson h
    refine ⟨hpersonalized, fun path token text hpath hvalue => ?_⟩
    obtain ⟨inserted, hinserts, hresult⟩ := hpersonalized.token hpath
    rw [hvalue] at hinserts
    cases hinserts
    exact hresult

/-- A template with a direct token and a metadata token. -/
def sampleComponents : JsValue :=
  .array [.object [(ofText "text", .string (PersonalizationToken.direct .name).text)]]

/-- A contact that is called by the text of a token. -/
def sampleContact : CampaignPersonalizationContact where
  name := some (ofText "\x7b\x7bcontact.phone\x7d\x7d")
  phone := ofText "96170123456"
  language := none
  timezone := none
  metadata := .null
  json _ := .null

/-- The template is rendered for the sample contact. -/
theorem campaign_personalization_sample :
    (∀ message, renderCampaignComponents sampleComponents sampleContact ≠
      .error (.template message)) ∧
    ∀ result, renderCampaignComponents sampleComponents sampleContact = .ok result →
      result.valueAt [.index 0, .key (ofText "text")] =
        some (.string (ofText "\x7b\x7bcontact.phone\x7d\x7d")) := by
  have hjson : sampleComponents.IsJson := by
    refine .array fun item hitem => ?_
    rw [List.mem_singleton.mp hitem]
    refine .object (fun field hfield => ?_) (List.nodup_singleton _)
    rw [List.mem_singleton.mp hfield]
    exact .string _
  have haccepted : validateCampaignComponents sampleComponents = .ok () := by
    have hentries : JsValue.entries
        [(ofText "text", .string (PersonalizationToken.direct .name).text)] =
        [(ofText "text", .string (PersonalizationToken.direct .name).text)] := rfl
    simp [validateCampaignComponents, sampleComponents, visit, hentries, directToken_direct,
      maxDepth, maxComponentNodes, maxPersonalizationTokens, Except.map, pure, Except.pure,
      ok_bind]
  obtain ⟨htemplate, -, hresult⟩ := campaign_personalization hjson haccepted sampleContact
  exact ⟨htemplate, fun result h => (hresult result h).2 _ (.direct .name) _ rfl rfl⟩

end Campaigns

end ApiWhatsApp
