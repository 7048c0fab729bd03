import ApiWhatsApp.InboxEvents.Streams
import ApiWhatsApp.Library.IsoDates
import ApiWhatsApp.Library.JsonText

/-!
# The events of the realtime inbox

What `inbox-events/inbox-realtime.service.ts` publishes on its channel and what it makes of the texts
that it receives there.

* `safeData` and `safeEnvelope` are the two filters; `eventFields` lists the fields of the data, each
  with the test that its value has to pass.
* `publish` writes the text of an event, `dispatch` says which listeners are called with what for a
  text. `Date.parse` reads `isDateTimeText`, and `other` is what it reads besides.
* `Tenanted` is the invariant of the listeners: a set has the streams of one tenant.
* **`realtime_envelopes`** — the event that is delivered is the one published, the data is clean, and
  no text reaches the listeners of another tenant.
-/

namespace ApiWhatsApp

open Library JsString

namespace InboxEvents

/-! ## Filters -/

/-- A hexadecimal digit, in either case. -/
def isHex (u : UInt16) : Bool :=
  isDigit u || (0x61 ≤ u.toNat && u.toNat ≤ 0x66) || (0x41 ≤ u.toNat && u.toNat ≤ 0x46)

/-- The classes of the regular expression `UUID`, with its flag `i`. -/
def uuidClasses : List (UInt16 → Bool) :=
  let dash (u : UInt16) : Bool := u = unit '-'
  let version (u : UInt16) : Bool := unit '1' ≤ u && u ≤ unit '5'
  let variant (u : UInt16) : Bool :=
    u ∈ [unit '8', unit '9', unit 'a', unit 'b', unit 'A', unit 'B']
  List.replicate 8 isHex ++ dash :: List.replicate 4 isHex ++
    dash :: version :: List.replicate 3 isHex ++
    dash :: variant :: List.replicate 3 isHex ++ dash :: List.replicate 12 isHex

/-- `UUID.test(text)`. -/
def isUuid (text : JsString) : Bool :=
  text.length = uuidClasses.length &&
    (List.zipWith (fun accepts u => accepts u) uuidClasses text).all id

/-- Source: `uuid`. -/
def uuid : JsValue → Option JsString
  | .string text => if isUuid text then some text else none
  | _ => none

/-- Source: `CONVERSATION_STATUSES`. -/
def conversationStatuses : List JsString := ["OPEN", "PENDING", "RESOLVED"].map ofText

/-- Source: `CONVERSATION_PRIORITIES`. -/
def conversationPriorities : List JsString := ["LOW", "NORMAL", "HIGH", "URGENT"].map ofText

/-- A field that is kept when it is a UUID. -/
def uuidField (value : JsValue) : JsValue :=
  match uuid value with
  | some text => .string text
  | none => .undefined

/-- A field that is kept when it is a UUID or `null`. -/
def nullableUuidField : JsValue → JsValue
  | .null => .null
  | value => uuidField value

/-- A field that is kept when it is one of a set of texts. -/
def memberField (texts : List JsString) : JsValue → JsValue
  | .string text => if text ∈ texts then .string text else .undefined
  | _ => .undefined

/-- A field that is kept when it is an integer from a minimum on. -/
def integerField (minimum : ℕ) : JsValue → JsValue
  | .number (some x) =>
      if x.value.isInt && minimum ≤ x.value then .number (some x) else .undefined
  | _ => .undefined

/-- A field that is kept when it is a boolean. -/
def booleanField : JsValue → JsValue
  | .bool b => .bool b
  | _ => .undefined

/-- The fields of the data in the order of `safeData`, with their tests. -/
def eventFields : List (JsString × (JsValue → JsValue)) :=
  [(ofText "conversationId", uuidField),
    (ofText "messageId", uuidField),
    (ofText "noteId", uuidField),
    (ofText "cannedResponseId", uuidField),
    (ofText "status", memberField conversationStatuses),
    (ofText "priority", memberField conversationPriorities),
    (ofText "assignedAgentId", nullableUuidField),
    (ofText "assignedTeamId", nullableUuidField),
    (ofText "unreadCount", integerField 0),
    (ofText "revision", integerField 1),
    (ofText "active", booleanField)]

/-- The fields of a value that pass their tests. -/
def cleanEntries (value : JsValue) : List (JsString × JsValue) :=
  eventFields.map fun field => (field.1, field.2 (value.get field.1))

/-- Source: `safeData`. -/
def safeData : JsValue → JsValue
  | .object fields => .object (JsValue.present (cleanEntries (.object fields)))
  | _ => .object []

/-- Source: `InboxEventType`. -/
inductive InboxEventType where
  | conversationCreated
  | conversationUpdated
  | conversationMessageCreated
  | conversationNoteCreated
  | cannedResponseCreated
  | cannedResponseUpdated
  deriving DecidableEq

/-- The text of an event type. -/
def InboxEventType.text : InboxEventType → JsString
  | conversationCreated => ofText "conversation.created"
  | conversationUpdated => ofText "conversation.updated"
  | conversationMessageCreated => ofText "conversation.message.created"
  | conversationNoteCreated => ofText "conversation.note.created"
  | cannedResponseCreated => ofText "canned_response.created"
  | cannedResponseUpdated => ofText "canned_response.updated"

/-- Source: `INBOX_EVENT_TYPES`. -/
def inboxEventTypes : List InboxEventType :=
  [.conversationCreated, .conversationUpdated, .conversationMessageCreated, .conversationNoteCreated,
    .cannedResponseCreated, .cannedResponseUpdated]

/-- Source: `InboxRealtimeEvent`. -/
structure InboxRealtimeEvent where
  id : JsString
  type : InboxEventType
  occurredAt : JsString
  data : JsValue

/-- Source: `InboxRealtimeEnvelope`. -/
structure InboxRealtimeEnvelope where
  tenantId : JsString
  event : InboxRealtimeEvent

/-- `INBOX_EVENT_TYPES.includes(value)`. -/
def eventType : JsValue → Option InboxEventType
  | .string text => inboxEventTypes.find? fun type => type.text = text
  | _ => none

/-- The texts that `Date.parse` reads; `other` are those that the implementation reads besides. -/
def dateParses (other : JsString → Bool) (text : JsString) : Bool := isDateTimeText text || other text

/-- A text that is a date; the empty text counts as missing. -/
def dateText (other : JsString → Bool) : JsValue → Option JsString
  | .string text => if dateParses other text && text ≠ [] then some text else none
  | _ => none

/-- Source: `safeEnvelope`. -/
def safeEnvelope (other : JsString → Bool) : JsValue → Option InboxRealtimeEnvelope
  | .object fields => do
      let candidate := JsValue.object fields
      let tenantId ← uuid (candidate.get (ofText "tenantId"))
      match candidate.get (ofText "event") with
      | .object rawEvent =>
          let event := JsValue.object rawEvent
          let id ← uuid (event.get (ofText "id"))
          let type ← eventType (event.get (ofText "type"))
          let occurredAt ← dateText other (event.get (ofText "occurredAt"))
          let data := safeData (event.get (ofText "data"))
          some { tenantId, event := { id, type, occurredAt, data } }
      | _ => none
  | _ => none

/-! ## Publishing and receiving -/

/-- A text that matches `UUID`: the id of a tenant, or what `randomUUID` returns. -/
structure UuidText where
  text : JsString
  valid : isUuid text = true

/-- A date in milliseconds. -/
structure Instant where
  ms : ℕ
  valid : ms ≤ maxDate

/-- An event as a value. -/
def InboxRealtimeEvent.toValue (event : InboxRealtimeEvent) : JsValue :=
  .object [(ofText "id", .string event.id), (ofText "type", .string event.type.text),
    (ofText "occurredAt", .string event.occurredAt), (ofText "data", event.data)]

/-- An envelope as a value. -/
def InboxRealtimeEnvelope.toValue (envelope : InboxRealtimeEnvelope) : JsValue :=
  .object [(ofText "tenantId", .string envelope.tenantId), (ofText "event", envelope.event.toValue)]

/-- The event that `publish` builds. -/
def publishedEvent (type : InboxEventType) (data : JsValue) (id : UuidText) (now : Instant) :
    InboxRealtimeEvent where
  id := id.text
  type := type
  occurredAt := ofText (toISOString now.ms)
  data := safeData data

/-- Source: `publish`, the text that goes to the channel. -/
def publish (tenantId : UuidText) (type : InboxEventType) (data : JsValue) (id : UuidText)
    (now : Instant) : Option JsString :=
  (InboxRealtimeEnvelope.toValue
    { tenantId := tenantId.text, event := publishedEvent type data id now }).stringify

/-- The envelope of a text that comes from the channel. -/
def receive (other : JsString → Bool) (payload : JsString) : Option InboxRealtimeEnvelope :=
  (JsValue.parse payload).bind (safeEnvelope other)

/-- Source: `dispatch`: the listeners that are called, each with its event. -/
def dispatch (other : JsString → Bool) (s : Realtime) (payload : JsString) :
    List (ℕ × InboxRealtimeEvent) :=
  match receive other payload with
  | none => []
  | some envelope => (s.listenersOf envelope.tenantId).map fun i => (i, envelope.event)

/-! ## The data is clean -/

/-- The keys that may be `null`. -/
def assigneeKeys : List String := ["assignedAgentId", "assignedTeamId"]

/-- The keys of the ids. -/
def idKeys : List String := ["conversationId", "messageId", "noteId", "cannedResponseId"]

/-- What the type `InboxEventData` allows under a key. -/
inductive AllowedField : JsString → JsValue → Prop
  | id {key : String} {text : JsString} (hkey : key ∈ idKeys) (htext : isUuid text = true) :
      AllowedField (ofText key) (.string text)
  | assignee {key : String} {text : JsString} (hkey : key ∈ assigneeKeys)
      (htext : isUuid text = true) : AllowedField (ofText key) (.string text)
  | unassigned {key : String} (hkey : key ∈ assigneeKeys) : AllowedField (ofText key) .null
  | status {text : JsString} (htext : text ∈ conversationStatuses) :
      AllowedField (ofText "status") (.string text)
  | priority {text : JsString} (htext : text ∈ conversationPriorities) :
      AllowedField (ofText "priority") (.string text)
  | unreadCount {x : Double} (hint : x.value.isInt = true) (hmin : 0 ≤ x.value) :
      AllowedField (ofText "unreadCount") (.number (some x))
  | revision {x : Double} (hint : x.value.isInt = true) (hmin : 1 ≤ x.value) :
      AllowedField (ofText "revision") (.number (some x))
  | active (b : Bool) : AllowedField (ofText "active") (.bool b)

/-- What a field may hold is JSON. -/
theorem AllowedField.isJson {key : JsString} {value : JsValue} (h : AllowedField key value) :
    value.IsJson := by
  cases h with
  | id => exact .string _
  | assignee => exact .string _
  | unassigned => exact .null
  | status => exact .string _
  | priority => exact .string _
  | unreadCount => exact .number _
  | revision => exact .number _
  | active b => exact .bool b

/-- Data with the allowed keys only, each at most once and with a value of an allowed kind. -/
def IsEventData (value : JsValue) : Prop :=
  ∃ fields, value = .object fields ∧ (fields.map Prod.fst).Nodup ∧
    ∀ field ∈ fields, AllowedField field.1 field.2

/-- A test keeps what is allowed under its key, or nothing. -/
structure FieldOk (key : JsString) (test : JsValue → JsValue) : Prop where
  missing : test .undefined = .undefined
  keeps : ∀ value, test value = .undefined ∨ (test value = value ∧ AllowedField key value)

/-- A test that was passed is passed again. -/
theorem FieldOk.twice {key : JsString} {test : JsValue → JsValue} (h : FieldOk key test)
    (value : JsValue) : test (test value) = test value := by
  rcases h.keeps value with hnone | ⟨hsame, -⟩
  · rw [hnone, h.missing]
  · rw [hsame, hsame]

/-- A UUID field keeps a UUID and drops anything else. -/
theorem uuidField_keeps (value : JsValue) :
    uuidField value = .undefined ∨
      ∃ text, isUuid text = true ∧ value = .string text ∧ uuidField value = .string text := by
  cases value with
  | string text =>
      cases h : isUuid text with
      | true => exact .inr ⟨text, h, rfl, by simp [uuidField, uuid, h]⟩
      | false => exact .inl (by simp [uuidField, uuid, h])
  | _ => exact .inl rfl

/-- The id fields keep what they may hold. -/
theorem fieldOk_uuidField {key : String} (hkey : key ∈ idKeys) : FieldOk (ofText key) uuidField := by
  refine ⟨rfl, fun value => ?_⟩
  rcases uuidField_keeps value with h | ⟨text, htext, rfl, h⟩
  · exact .inl h
  · exact .inr ⟨h, .id hkey htext⟩

/-- The assignee fields keep what they may hold. -/
theorem fieldOk_nullableUuidField {key : String} (hkey : key ∈ assigneeKeys) :
    FieldOk (ofText key) nullableUuidField := by
  refine ⟨rfl, fun value => ?_⟩
  cases value with
  | null => exact .inr ⟨rfl, .unassigned hkey⟩
  | string text =>
      rcases uuidField_keeps (.string text) with h | ⟨text', htext, heq, h⟩
      · exact .inl h
      · exact .inr ⟨by cases heq; exact h, by cases heq; exact .assignee hkey htext⟩
  | _ => exact .inl rfl

/-- A field of a few texts keeps these texts. -/
theorem fieldOk_memberField {key : JsString} {texts : List JsString}
    (h : ∀ text ∈ texts, AllowedField key (.string text)) : FieldOk key (memberField texts) := by
  refine ⟨rfl, fun value => ?_⟩
  cases value with
  | string text =>
      by_cases htext : text ∈ texts
      · exact .inr ⟨if_pos htext, h text htext⟩
      · exact .inl (if_neg htext)
  | _ => exact .inl rfl

/-- A number field keeps whole numbers from its minimum on. -/
theorem fieldOk_integerField {key : JsString} {minimum : ℕ}
    (h : ∀ x : Double, x.value.isInt = true → (minimum : ℚ) ≤ x.value →
      AllowedField key (.number (some x))) : FieldOk key (integerField minimum) := by
  refine ⟨rfl, fun value => ?_⟩
  cases value with
  | number x =>
      cases x with
      | none => exact .inl rfl
      | some x =>
          by_cases hx : (x.value.isInt && decide ((minimum : ℚ) ≤ x.value)) = true
          · have hboth := hx
            rw [Bool.and_eq_true, decide_eq_true_eq] at hboth
            exact .inr ⟨if_pos hx, h x hboth.1 hboth.2⟩
          · exact .inl (if_neg hx)
  | _ => exact .inl rfl

/-- The flag keeps a boolean. -/
theorem fieldOk_booleanField : FieldOk (ofText "active") booleanField := by
  refine ⟨rfl, fun value => ?_⟩
  cases value with
  | bool b => exact .inr ⟨rfl, .active b⟩
  | _ => exact .inl rfl

/-- Every field keeps what it may hold. -/
theorem eventFields_ok : ∀ field ∈ eventFields, FieldOk field.1 field.2 := by
  have hid : ∀ {key : String}, key ∈ idKeys → FieldOk (ofText key) uuidField := fieldOk_uuidField
  have hassignee : ∀ {key : String}, key ∈ assigneeKeys → FieldOk (ofText key) nullableUuidField :=
    fieldOk_nullableUuidField
  have hunread : FieldOk (ofText "unreadCount") (integerField 0) :=
    fieldOk_integerField fun x hint hmin => .unreadCount hint (by simpa using hmin)
  have hrevision : FieldOk (ofText "revision") (integerField 1) :=
    fieldOk_integerField fun x hint hmin => .revision hint (by simpa using hmin)
  rw [eventFields]
  simp only [List.forall_mem_cons]
  exact ⟨hid (by decide), hid (by decide), hid (by decide), hid (by decide),
    fieldOk_memberField fun text h => .status h, fieldOk_memberField fun text h => .priority h,
    hassignee (by decide), hassignee (by decide), hunread, hrevision, fieldOk_booleanField, by simp⟩

/-- No field is listed twice. -/
theorem nodup_eventFields : (eventFields.map Prod.fst).Nodup := by decide

/-- The fields come in the order of the list. -/
theorem map_cleanEntries (value : JsValue) :
    (cleanEntries value).map Prod.fst = eventFields.map Prod.fst := by
  rw [cleanEntries, List.map_map]
  rfl

/-- The early return is a case of the rest. -/
theorem safeData_eq (value : JsValue) :
    safeData value = .object (JsValue.present (cleanEntries value)) := by
  cases value with
  | object fields => rfl
  | _ => rfl

/-- What is left of the data is the data of an event. -/
theorem isEventData_safeData (value : JsValue) : IsEventData (safeData value) := by
  refine ⟨_, safeData_eq value, ?_, fun field hfield => ?_⟩
  · rw [JsValue.present]
    have hsublist := (List.filter_sublist (l := cleanEntries value)
      (p := fun entry : JsString × JsValue => !entry.2.isUndefined)).map Prod.fst
    rw [map_cleanEntries] at hsublist
    exact nodup_eventFields.sublist hsublist
  · obtain ⟨hmem, hvalue⟩ := List.mem_filter.mp hfield
    obtain ⟨entry, hentry, rfl⟩ := List.mem_map.mp hmem
    rcases (eventFields_ok entry hentry).keeps (value.get entry.1) with hnone | ⟨hsame, hallowed⟩
    · rw [hnone] at hvalue
      cases hvalue
    · rw [hsame]
      exact hallowed

/-- **Cleaning twice is cleaning once.** -/
theorem safeData_safeData (value : JsValue) : safeData (safeData value) = safeData value := by
  have hentries : cleanEntries (safeData value) = cleanEntries value := by
    refine List.map_congr_left fun field hfield => ?_
    have hmem : (field.1, field.2 (value.get field.1)) ∈ cleanEntries value :=
      List.mem_map_of_mem (f := fun f => (f.1, f.2 (value.get f.1))) hfield
    have hkeys : ((cleanEntries value).map Prod.fst).Nodup := by
      rw [map_cleanEntries]
      exact nodup_eventFields
    rw [safeData_eq value, JsValue.get_present hkeys hmem, (eventFields_ok field hfield).twice]
  rw [safeData_eq (safeData value), hentries, ← safeData_eq]

/-! ## The event comes back -/

/-- The data of an event is JSON. -/
theorem isJson_of_isEventData {value : JsValue} (h : IsEventData value) : value.IsJson := by
  obtain ⟨fields, rfl, hkeys, hfields⟩ := h
  exact .object (fun field hfield => (hfields field hfield).isJson) hkeys

/-- An event is JSON. -/
theorem isJson_event {event : InboxRealtimeEvent} (h : IsEventData event.data) :
    event.toValue.IsJson := by
  have hkeys : ["id", "type", "occurredAt", "data"].map ofText |>.Nodup := by decide
  refine .object (fun field hfield => ?_) hkeys
  simp only [List.mem_cons, List.not_mem_nil, or_false] at hfield
  rcases hfield with rfl | rfl | rfl | rfl
  · exact .string _
  · exact .string _
  · exact .string _
  · exact isJson_of_isEventData h

/-- An envelope is JSON. -/
theorem isJson_envelope {envelope : InboxRealtimeEnvelope} (h : IsEventData envelope.event.data) :
    envelope.toValue.IsJson := by
  have hkeys : ["tenantId", "event"].map ofText |>.Nodup := by decide
  refine .object (fun field hfield => ?_) hkeys
  simp only [List.mem_cons, List.not_mem_nil, or_false] at hfield
  rcases hfield with rfl | rfl
  · exact .string _
  · exact isJson_event h

/-- An event type is read back from its text. -/
theorem eventType_text (type : InboxEventType) : eventType (.string type.text) = some type := by
  cases type <;> decide

/-- What is read of the fields of an envelope. -/
theorem get_envelope (envelope : InboxRealtimeEnvelope) :
    envelope.toValue.get (ofText "tenantId") = .string envelope.tenantId ∧
      envelope.toValue.get (ofText "event") = envelope.event.toValue := ⟨rfl, rfl⟩

/-- The fields of an event, read one by one. -/
theorem get_event (event : InboxRealtimeEvent) :
    event.toValue.get (ofText "id") = .string event.id ∧
      event.toValue.get (ofText "type") = .string event.type.text ∧
      event.toValue.get (ofText "occurredAt") = .string event.occurredAt ∧
      event.toValue.get (ofText "data") = event.data := ⟨rfl, rfl, rfl, rfl⟩

/-- An envelope with clean data passes the filter as it is. -/
theorem safeEnvelope_toValue {other : JsString → Bool} {envelope : InboxRealtimeEnvelope}
    (htenant : isUuid envelope.tenantId = true) (hid : isUuid envelope.event.id = true)
    (hdate : isDateTimeText envelope.event.occurredAt = true)
    (hdata : safeData envelope.event.data = envelope.event.data) :
    safeEnvelope other envelope.toValue = some envelope := by
  have hne : envelope.event.occurredAt ≠ [] := fun h => by
    rw [h] at hdate
    cases hdate
  have hoccurred : dateText other (.string envelope.event.occurredAt) =
      some envelope.event.occurredAt := by
    simp [dateText, dateParses, hdate, hne]
  have huuid : ∀ {text}, isUuid text = true → uuid (.string text) = some text := fun h => if_pos h
  obtain ⟨hgetId, hgetType, hgetDate, hgetData⟩ := get_event envelope.event
  rw [InboxRealtimeEvent.toValue] at hgetId hgetType hgetDate hgetData
  obtain ⟨hgetTenant, hgetEvent⟩ := get_envelope envelope
  rw [InboxRealtimeEnvelope.toValue] at hgetTenant hgetEvent
  rw [InboxRealtimeEvent.toValue] at hgetTenant hgetEvent
  rw [InboxRealtimeEnvelope.toValue, InboxRealtimeEvent.toValue]
  simp only [safeEnvelope, hgetTenant, hgetEvent, hgetId, hgetType, hgetDate, hgetData, huuid htenant,
    huuid hid, eventType_text, hoccurred, hdata, Option.bind_eq_bind, Option.bind_some]

/-- The event has the time of its publication. -/
theorem publishedEvent_occurredAt (type : InboxEventType) (data : JsValue) (id : UuidText)
    (now : Instant) :
    (publishedEvent type data id now).occurredAt = ofText (toISOString now.ms) := by
  simp only [publishedEvent]

/-- The event has what is safe of the data. -/
theorem publishedEvent_data (type : InboxEventType) (data : JsValue) (id : UuidText)
    (now : Instant) : (publishedEvent type data id now).data = safeData data := rfl

/-- **The event that is received is the one that was published.** -/
theorem receive_publish (other : JsString → Bool) (tenantId : UuidText) (type : InboxEventType)
    (data : JsValue) (id : UuidText) (now : Instant) :
    ∃ payload, publish tenantId type data id now = some payload ∧
      receive other payload =
        some { tenantId := tenantId.text, event := publishedEvent type data id now } := by
  have hdate : isDateTimeText (publishedEvent type data id now).occurredAt = true := by
    rw [publishedEvent_occurredAt]
    exact isDateTimeText_toISOString now.valid
  have hdata : safeData (publishedEvent type data id now).data =
      (publishedEvent type data id now).data := by
    rw [publishedEvent_data, safeData_safeData]
  have hclean : IsEventData (publishedEvent type data id now).data := by
    rw [publishedEvent_data]
    exact isEventData_safeData data
  have hid : isUuid (publishedEvent type data id now).id = true := id.valid
  rw [publish]
  generalize publishedEvent type data id now = event at *
  have hjson : (InboxRealtimeEnvelope.toValue { tenantId := tenantId.text, event }).IsJson :=
    isJson_envelope hclean
  obtain ⟨payload, hpayload, hparse⟩ := JsValue.parse_stringify hjson
  refine ⟨payload, hpayload, ?_⟩
  rw [receive, hparse, Option.bind_some]
  exact safeEnvelope_toValue tenantId.valid hid hdate hdata

end InboxEvents

/-! ## The listeners of a tenant -/

namespace Realtime

variable {s t u : Realtime} {i k : ℕ} {x : Stream}

/-- The tenants of the streams, by position. -/
def tenants (s : Realtime) : List JsString := s.streams.map Stream.tenantId

/-- The sets that the map has are different for different tenants, and a set has the listeners of
the streams of its tenant only. -/
structure Tenanted (s : Realtime) : Prop where
  exists_set : ∀ tenantId k, s.listeners tenantId = some k → k < s.sets.length
  separate : ∀ tenantId tenantId' k, s.listeners tenantId = some k →
    s.listeners tenantId' = some k → tenantId = tenantId'
  members : ∀ tenantId k members, s.listeners tenantId = some k → s.sets[k]? = some members →
    ∀ i ∈ members, s.tenants[i]? = some tenantId

/-- `t` has no entry and no listener that `s` has not. -/
structure Narrows (s t : Realtime) : Prop where
  tenants : t.tenants = s.tenants
  listeners : ∀ tenantId k, t.listeners tenantId = some k → s.listeners tenantId = some k
  length : t.sets.length = s.sets.length
  members : ∀ (k : ℕ) (members : List ℕ), t.sets[k]? = some members → ∀ i ∈ members,
    ∃ members', s.sets[k]? = some members' ∧ i ∈ members'

/-- Nothing is narrowed. -/
theorem Narrows.refl (s : Realtime) : Narrows s s :=
  ⟨rfl, fun _ _ h => h, rfl, fun _ members h _ hi => ⟨members, h, hi⟩⟩

/-- Narrowing twice is narrowing. -/
theorem Narrows.trans (h : Narrows s t) (h' : Narrows t u) : Narrows s u where
  tenants := h'.tenants.trans h.tenants
  listeners tenantId k hk := h.listeners tenantId k (h'.listeners tenantId k hk)
  length := h'.length.trans h.length
  members k members hmembers i hi := by
    obtain ⟨members', hmembers', hi'⟩ := h'.members k members hmembers i hi
    exact h.members k members' hmembers' i hi'

/-- Tenants stay apart when streams are closed. -/
theorem Tenanted.narrow (h : Tenanted s) (hn : Narrows s t) : Tenanted t where
  exists_set tenantId k hk := by
    rw [hn.length]
    exact h.exists_set tenantId k (hn.listeners tenantId k hk)
  separate tenantId tenantId' k hk hk' :=
    h.separate tenantId tenantId' k (hn.listeners tenantId k hk) (hn.listeners tenantId' k hk')
  members tenantId k members hk hmembers i hi := by
    obtain ⟨members', hmembers', hi'⟩ := hn.members k members hmembers i hi
    rw [hn.tenants]
    exact h.members tenantId k members' (hn.listeners tenantId k hk) hmembers' i hi'

/-- A stream may be rewritten within its tenant. -/
theorem narrows_rewrite {y : Stream} (hx : s.streams[i]? = some x) (hy : y.tenantId = x.tenantId) :
    Narrows s { s with streams := s.streams.set i y } :=
  ⟨map_set_of_eq hx hy, fun _ _ h => h, rfl, fun _ members h _ hi => ⟨members, h, hi⟩⟩

/-- A listener may be taken away. -/
theorem narrows_removeListener (tenantId : JsString) : Narrows s (s.removeListener i tenantId k) where
  tenants := rfl
  listeners tenantId' k' h := by
    unfold removeListener at h
    dsimp only at h
    split_ifs at h
    · dsimp only at h
      split_ifs at h
      exact h
    · exact h
  length := by simp [removeListener]
  members k' members hmembers j hj := (mem_removeListener hmembers hj).1

/-- A stream may be closed. -/
theorem narrows_close (s : Realtime) (i : ℕ) : Narrows s (s.close i) := by
  rcases hx : s.streams[i]? with _ | x
  · rw [close, hx]
    exact Narrows.refl s
  cases hopen : x.closed with
  | true =>
      rw [close_of_closed hx hopen]
      exact Narrows.refl s
  | false =>
      have hclosing : Narrows s { s with streams := s.streams.set i (closing x) } :=
        narrows_rewrite hx rfl
      -- The closers and the count play no part.
      have hrest : ∀ {t' : Realtime} (closers : List ℕ) (active : ℕ), Narrows s t' →
          Narrows s { t' with connectionClosers := closers, activeConnections := active } :=
        fun _ _ h => ⟨h.tenants, h.listeners, h.length, h.members⟩
      simp only [close, hx, hopen, Bool.false_eq_true, if_false]
      cases x.unsubscribe with
      | none => exact hrest _ _ hclosing
      | some k => exact hrest _ _ (hclosing.trans (narrows_removeListener x.tenantId))

/-- A stream may be written to. -/
theorem narrows_write (s : Realtime) (i : ℕ) (accepted : Bool) : Narrows s (s.write i accepted) := by
  unfold write
  split
  · exact Narrows.refl s
  · split
    · exact narrows_close s i
    · exact Narrows.refl s

/-- A heartbeat may be started. -/
theorem narrows_startHeartbeat (s : Realtime) (i ms : ℕ) : Narrows s (s.startHeartbeat i ms) := by
  unfold startHeartbeat
  split
  · exact Narrows.refl s
  · next hx => exact narrows_rewrite hx rfl

/-- Several streams may be narrowed in turn. -/
theorem narrows_foldl {f : Realtime → ℕ → Realtime} (hf : ∀ s i, Narrows s (f s i)) (l : List ℕ) :
    Narrows s (l.foldl f s) := by
  induction l generalizing s with
  | nil => exact Narrows.refl s
  | cons i l ih => exact (hf s i).trans ih

/-- A stream may be resumed. -/
theorem narrows_resume (config : RealtimeConfig) (hx : s.streams[i]? = some x) (k : ℕ)
    (frame : FirstFrame) : Narrows s (s.resume config i x k frame) := by
  have hbound : Narrows s { s with streams := s.streams.set i (bound x k) } :=
    narrows_rewrite hx rfl
  unfold resume
  dsimp only
  split_ifs
  · exact hbound.trans (narrows_removeListener x.tenantId)
  · cases frame with
    | threw => exact hbound.trans (narrows_close _ i)
    | accepted => exact (hbound.trans (narrows_write _ i _)).trans (narrows_startHeartbeat _ i _)
    | refused => exact (hbound.trans (narrows_write _ i _)).trans (narrows_startHeartbeat _ i _)

/-- At the start there is nothing to keep apart. -/
theorem Tenanted.start : Tenanted start where
  exists_set _ _ h := by cases h
  separate _ _ _ h := by cases h
  members _ _ _ h := by cases h

/-- A new stream brings its tenant along. -/
theorem Tenanted.accept (h : Tenanted s) (closers : List ℕ) (active : ℕ) (y : Stream) :
    Tenanted { s with
      activeConnections := active, connectionClosers := closers, streams := s.streams ++ [y] } where
  exists_set := h.exists_set
  separate := h.separate
  members tenantId k members hk hmembers i hi := by
    have hold := h.members tenantId k members hk hmembers i hi
    rw [tenants, List.map_append, List.getElem?_append_left, ← tenants, hold]
    exact (List.getElem?_eq_some_iff.mp hold).1

/-- A listener is added under the tenant of its stream. -/
theorem Tenanted.addListener (h : Tenanted s) (hx : s.streams[i]? = some x) :
    Tenanted (s.addListener i x) := by
  have hself : s.tenants[i]? = some x.tenantId := by rw [tenants, List.getElem?_map, hx]; rfl
  have htenants : ∀ stage, (s.streams.set i { x with stage := stage }).map Stream.tenantId =
      s.tenants := fun stage => map_set_of_eq hx rfl
  unfold Realtime.addListener
  split
  · next k hk =>
      refine ⟨fun tenantId k' hk' => ?_, h.separate, fun tenantId k' members hk' hmembers j hj => ?_⟩
      · rw [List.length_set]
        exact h.exists_set tenantId k' hk'
      · rw [tenants, htenants]
        rcases getElem?_set_cases hmembers with ⟨rfl, rfl⟩ | ⟨-, hbefore⟩
        · -- The set of the tenant, with the new listener.
          obtain rfl := h.separate _ _ k' hk' hk
          rcases List.mem_append.mp hj with hj | hj
          · cases hset : s.sets[k']? with
            | none =>
                rw [List.getD_eq_getElem?_getD, hset] at hj
                cases hj
            | some members' =>
                rw [List.getD_eq_getElem?_getD, hset] at hj
                exact h.members _ k' members' hk' hset j hj
          · rw [List.mem_singleton.mp hj]
            exact hself
        · exact h.members tenantId k' members hk' hbefore j hj
  · have hentry : ∀ {tenantId k'}, (if tenantId = x.tenantId then some s.sets.length
        else s.listeners tenantId) = some k' →
        (tenantId = x.tenantId ∧ k' = s.sets.length) ∨
          (s.listeners tenantId = some k' ∧ k' < s.sets.length) := fun {tenantId k'} hk' => by
      split_ifs at hk' with htenant
      · exact .inl ⟨htenant, (Option.some.inj hk').symm⟩
      · exact .inr ⟨hk', h.exists_set _ _ hk'⟩
    refine ⟨fun tenantId k' hk' => ?_, fun tenantId tenantId' k' hk' hk'' => ?_,
      fun tenantId k' members hk' hmembers j hj => ?_⟩
    · rw [List.length_append, List.length_singleton]
      rcases hentry hk' with ⟨-, rfl⟩ | ⟨-, hlt⟩
      · exact Nat.lt_succ_self _
      · exact Nat.lt_succ_of_lt hlt
    · rcases hentry hk' with ⟨hleft, hnew⟩ | ⟨hleft, hlt⟩
      · rcases hentry hk'' with ⟨hright, -⟩ | ⟨-, hlt'⟩
        · rw [hleft, hright]
        · omega
      · rcases hentry hk'' with ⟨-, hnew⟩ | ⟨hright, -⟩
        · omega
        · exact h.separate _ _ k' hleft hright
    · rw [tenants, htenants]
      rcases getElem?_append_cases hmembers with ⟨rfl, rfl⟩ | hbefore
      · rw [List.mem_singleton.mp hj]
        rcases hentry hk' with ⟨rfl, -⟩ | ⟨-, hlt⟩
        · exact hself
        · exact absurd hlt (lt_irrefl _)
      · rcases hentry hk' with ⟨-, rfl⟩ | ⟨hold, -⟩
        · exact absurd (List.getElem?_eq_some_iff.mp hbefore).1 (lt_irrefl _)
        · exact h.members tenantId k' members hold hbefore j hj

/-- **One step keeps the tenants apart.** -/
theorem Tenanted.step {config : RealtimeConfig} {a : Act} (h : Tenanted s)
    (hstep : step config s a = some t) : Tenanted t := by
  have hdoes := does_of_step hstep
  cases a with
  | stream tenantId =>
      rcases hdoes with rfl | ⟨-, y, rfl, -⟩
      · exact h
      · exact h.accept _ _ y
  | subscribe i =>
      obtain ⟨x, hx, -, rfl⟩ := hdoes
      exact h.addListener hx
  | subscribeFails i =>
      obtain ⟨x, hx, -, rfl⟩ := hdoes
      have hfailed : Narrows s { s with streams := s.streams.set i { x with stage := .returned } } :=
        narrows_rewrite hx rfl
      exact h.narrow (hfailed.trans (narrows_close _ i))
  | resume i frame =>
      obtain ⟨x, k, hx, -, rfl⟩ := hdoes
      exact h.narrow (narrows_resume config hx k frame)
  | clientCloses i =>
      obtain rfl := hdoes
      exact h.narrow (narrows_close s i)
  | heartbeat i accepted =>
      obtain rfl := hdoes
      exact h.narrow (narrows_write s i accepted)
  | dispatch tenantId refusing =>
      obtain ⟨l, rfl⟩ := hdoes
      exact h.narrow (narrows_foldl (fun s i => narrows_write s i _) l)
  | onModuleDestroy =>
      obtain rfl := hdoes
      exact ⟨fun _ _ hk => (by cases hk), fun _ _ _ hk => (by cases hk),
        fun _ _ _ hk => (by cases hk)⟩

/-- Those who listen for a tenant are of it. -/
theorem Tenanted.tenants_of_mem_listenersOf (h : Tenanted s) {tenantId : JsString}
    (hi : i ∈ s.listenersOf tenantId) : s.tenants[i]? = some tenantId := by
  unfold listenersOf at hi
  split at hi
  · cases hi
  · next k hk =>
      rw [List.getD_eq_getElem?_getD] at hi
      cases hset : s.sets[k]? with
      | none =>
          rw [hset] at hi
          cases hi
      | some members =>
          rw [hset] at hi
          exact h.members tenantId k members hk hset i hi

/-- Tenants are apart in every state that is reached. -/
theorem tenanted_of_reachable {config : RealtimeConfig} (h : Reachable (step config) start s) :
    Tenanted s :=
  Reaches.invariant h Tenanted.start fun _ _ _ hs _ hstep => hs.step hstep

end Realtime

namespace InboxEvents

open Realtime

/-- The streams that a text is written to are those that `dispatch` calls. -/
theorem step_dispatch {config : RealtimeConfig} {other : JsString → Bool} {s : Realtime}
    {payload : JsString} {envelope : InboxRealtimeEnvelope}
    (h : receive other payload = some envelope) (refusing : List ℕ) :
    step config s (.dispatch envelope.tenantId refusing) =
      some (((dispatch other s payload).map Prod.fst).foldl
        (fun s i => s.write i (i ∉ refusing)) s) := by
  have hid : (Prod.fst ∘ fun i => (i, envelope.event)) = (id : ℕ → ℕ) := rfl
  rw [step, dispatch, h, List.map_map, hid, List.map_id]

/-- **Fidelity and isolation of the realtime events.** The event that is received is the one that was
published, and in every state that is reached it goes to every listener of its tenant; cleaning
twice is cleaning once, and what is clean has the allowed keys and kinds only; and whatever text comes
from the channel, it reaches only listeners that subscribed under the tenant of its envelope. -/
theorem realtime_envelopes (config : RealtimeConfig) (other : JsString → Bool) :
    (∀ (tenantId : UuidText) (type : InboxEventType) (data : JsValue) (id : UuidText) (now : Instant),
      ∃ payload, publish tenantId type data id now = some payload ∧
        receive other payload =
          some { tenantId := tenantId.text, event := publishedEvent type data id now } ∧
        ∀ s : Realtime, dispatch other s payload = (s.listenersOf tenantId.text).map fun i =>
          (i, publishedEvent type data id now)) ∧
    (∀ data, safeData (safeData data) = safeData data ∧ IsEventData (safeData data)) ∧
    ∀ s, Reachable (step config) start s → ∀ payload, ∀ call ∈ dispatch other s payload,
      ∃ envelope x, receive other payload = some envelope ∧ call.2 = envelope.event ∧
        s.streams[call.1]? = some x ∧ x.tenantId = envelope.tenantId := by
  refine ⟨fun tenantId type data id now => ?_,
    fun data => ⟨safeData_safeData data, isEventData_safeData data⟩,
    fun s hs payload call hcall => ?_⟩
  · obtain ⟨payload, hpayload, hreceive⟩ := receive_publish other tenantId type data id now
    exact ⟨payload, hpayload, hreceive, fun s => by rw [dispatch, hreceive]⟩
  · unfold dispatch at hcall
    split at hcall
    · cases hcall
    · next envelope hreceive =>
        obtain ⟨i, hi, rfl⟩ := List.mem_map.mp hcall
        have htenant := (tenanted_of_reachable hs).tenants_of_mem_listenersOf hi
        rw [tenants, List.getElem?_map, Option.map_eq_some_iff] at htenant
        obtain ⟨x, hx, htenant⟩ := htenant
        exact ⟨envelope, x, hreceive, rfl, hx, htenant⟩

end InboxEvents

end ApiWhatsApp
