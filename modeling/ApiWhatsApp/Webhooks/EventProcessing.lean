import ApiWhatsApp.Library.Loop
import ApiWhatsApp.Webhooks.LateReports
import ApiWhatsApp.Webhooks.Templates

/-!
# The processing of one event

The processing of one webhook event, from `webhooks/webhook-event-processor.service.ts`: the received
messages, the template updates, the statuses, and the mark at the end. An exception anywhere ends it,
and the event is tried again later, with all that it carries.

* `parseTimestamp` lets an `Invalid Date` through: the seconds are a finite positive number, but the
  date is beyond the range of `Date`. So is, for a received message, the end of its service window.
  `TimestampFits` says that this does not happen.
* `EventEnvironment.processEvent` is the processing of one event, by itself and with a database that
  fails only where it has to.
* **`processInbound_spec`** and **`processStatuses_spec`** say exactly when the messages are all
  stored, and when the statuses are all applied, and what the database is like then. The template
  updates have a module of their own.
-/

namespace ApiWhatsApp

open Library

/-! ## Timestamps -/

/-- The date of a timestamp that counts, and the instant `margin` milliseconds later, can be
represented. -/
def TimestampFits (margin : ℕ) (timestamp : Option String) : Prop :=
  ∀ text seconds, timestamp = some text → doubleOf text = some seconds → 0 < seconds →
    ∃ at_, date seconds = some at_ ∧ at_ + margin ≤ maxDate

/-- No date is beyond the last one. -/
theorem le_maxDate_of_date {seconds : ℚ} {at_ : ℕ} (h : date seconds = some at_) :
    at_ ≤ maxDate := by
  simp only [date] at h
  split_ifs at h with hle
  cases h
  exact Nat.floor_le_of_le hle

/-- What `parseTimestamp` makes of a timestamp that fits. -/
theorem timestampFits_iff (margin : ℕ) (timestamp : Option String) :
    TimestampFits margin timestamp ↔ parseTimestamp timestamp = .undefined ∨
      ∃ at_, parseTimestamp timestamp = .valid at_ ∧ at_ + margin ≤ maxDate := by
  rcases timestamp with _ | text
  · exact ⟨fun _ => .inl rfl, fun _ text seconds h => by cases h⟩
  by_cases hempty : text = ""
  · subst hempty
    refine ⟨fun _ => .inl rfl, fun _ text seconds htext hnumber hpositive => ?_⟩
    -- `Number("")` is zero.
    cases htext
    have hzero : doubleOf "" = some 0 := by decide +kernel
    rw [hzero] at hnumber
    cases hnumber
    exact absurd hpositive (lt_irrefl 0)
  have hfilter : (some text).filter (fun text => text ≠ "") = some text := by simp [hempty]
  unfold parseTimestamp
  rw [hfilter]
  dsimp only
  rcases hnumber : doubleOf text with _ | seconds
  · refine ⟨fun _ => .inl rfl, fun _ text' seconds htext h => ?_⟩
    cases htext
    rw [hnumber] at h
    cases h
  by_cases hpositive : seconds ≤ 0
  · refine ⟨fun _ => .inl (if_pos hpositive), fun _ text' seconds' htext h hlt => ?_⟩
    cases htext
    rw [hnumber] at h
    cases h
    exact absurd hpositive (not_le.mpr hlt)
  simp only [hpositive, if_false]
  constructor
  · intro h
    obtain ⟨at_, hdate, hfits⟩ := h text seconds rfl hnumber (not_le.mp hpositive)
    rw [hdate]
    exact .inr ⟨at_, rfl, hfits⟩
  · intro h text' seconds' htext hseconds _
    cases htext
    rw [hnumber] at hseconds
    cases hseconds
    rcases hdate : date seconds with _ | at_
    · rw [hdate] at h
      simp at h
    · rw [hdate] at h
      simp only [reduceCtorEq, ParsedDate.valid.injEq, exists_eq_left', false_or] at h
      exact ⟨at_, rfl, h⟩

/-- An instant with room for the margin, unless the timestamp does not fit. -/
theorem timestampOrNow_iff {margin : ℕ} {now : Time} (hnow : now + margin ≤ maxDate)
    (timestamp : Option String) :
    (∃ at_, timestampOrNow now timestamp = some at_ ∧ at_ + margin ≤ maxDate) ↔
      TimestampFits margin timestamp := by
  rw [timestampFits_iff, timestampOrNow]
  rcases hparse : parseTimestamp timestamp with _ | _ | at_
  · exact ⟨fun _ => .inl rfl, fun _ => ⟨now, rfl, hnow⟩⟩
  · simp
  · simp

/-! ## One event -/

/-- What the processing of one event meets: the ids and times that it is given. Those of a received
message go by its provider id, because no id is stored twice. -/
structure EventEnvironment where
  ids : String → InboundIds
  /-- `new Date()` for a message without a timestamp. -/
  inboundClock : String → Time
  /-- The ids of the rows that the template updates insert, one after the other. -/
  templateId : ℕ → Uuid
  /-- `new Date()` for the statuses without a timestamp, one after the other. -/
  reportClock : ℕ → Time
  /-- `new Date()` at the end. -/
  endClock : Time
  /-- The message of an exception of the database. -/
  error : String

namespace EventEnvironment

variable (env : EventEnvironment)

/-- A received message that is about to be stored. -/
def incoming (message : MetaInboundMessage) (from_ : String) : Incoming where
  message := message
  from_ := from_
  inboundAt := timestampOrNow (env.inboundClock message.id) message.timestamp

/-- Source: `persistInboundMessage`. -/
def storeMessage (db : Db) (item : WhatsAppPhoneNumber × InboundChange × MetaInboundMessage) :
    Db × Option String :=
  let (sender, change, message) := item
  match normalizePhoneNumber message.from_ with
  | .error error => (db, some error.message)
  | .ok from_ =>
      match db.messages.find (.providerMessageId message.id) with
      | some _ => (db, none)
      | none =>
          match Processor.persist db
              { sender := sender, change := change, messages := [], changes := [] }
              (env.incoming message from_) (env.ids message.id) with
          | some db' => (db', none)
          | none => (db, some env.error)

/-- The messages of one change. -/
def storeChange (db : Db) (change : InboundChange) : Db × Option String :=
  match change.providerPhoneNumberId with
  | none => (db, some Processor.missingPhoneNumberId)
  | some id =>
      match db.phoneNumbers.find (.providerPhoneNumberId id) with
      | none => (db, some (Processor.unconfigured id))
      | some sender =>
          forEach env.storeMessage db (change.messages.map fun message => (sender, change, message))

/-- Source: `process` in `inbound-message.service.ts`. -/
def processInbound (db : Db) (payload : Json) : Db × Option String :=
  forEach env.storeChange db (inboundChanges payload)

/-- Source: `applyProviderStatusUpdate`, with the lookup of the tenant before it. -/
def applyTemplate (db : Db) (item : Uuid × TemplateStatusUpdate) : Db × Option String :=
  let (newId, update) := item
  match PhoneNumbers.findTenantIdByWabaId db.phoneNumbers update.wabaId with
  | .error error => (db, some error.message)
  | .ok tenantId =>
      let existing := db.templates.find (.providerTemplateId update.providerTemplateId)
      if existing.any fun r => r.tenantId ≠ tenantId || r.wabaId ≠ update.wabaId then
        (db, some ("Meta template " ++ update.providerTemplateId ++
          " is associated with a different tenant or WABA"))
      else
        match db.applyTemplateUpdate newId tenantId update (existing.map MessageTemplate.id) with
        | some (db', _) => (db', none)
        | none => (db, some env.error)

/-- Source: `process` in `template-status-webhook.service.ts`. -/
def processTemplates (db : Db) (payload : Json) : Db × Option String :=
  forEach env.applyTemplate db
    ((extractUpdates payload).mapIdx fun i update => (env.templateId i, update))

/-- The statuses of a payload, each at its time. -/
def entries (payload : Json) : List (Time × MetaMessageStatus) :=
  (extractStatuses payload).mapIdx fun i report => (env.reportClock i, report)

/-- One status. -/
def applyEntry (db : Db) (entry : Time × MetaMessageStatus) : Db × Option String :=
  match db.applyStatus entry.1 entry.2 with
  | some db' => (db', none)
  | none => (db, some env.error)

/-- The loop of `processWebhookEvent`. -/
def processStatuses (db : Db) (payload : Json) : Db × Option String :=
  forEach env.applyEntry db (env.entries payload)

/-- The three services, one after the other; an exception ends the processing. -/
def services (db : Db) (payload : Json) : Db × Option String :=
  match env.processInbound db payload with
  | (db₁, some error) => (db₁, some error)
  | (db₁, none) =>
      match env.processTemplates db₁ payload with
      | (db₂, some error) => (db₂, some error)
      | (db₂, none) => env.processStatuses db₂ payload

/-- One event: the services, and then the mark, or the record of the exception. -/
def processEvent (db : Db) (event : WebhookEvent) : Db :=
  match env.services db event.payload with
  | (db', none) =>
      db'.updateWebhookEvent event.id (WebhookEvent.markProcessed env.endClock) fun _ => rfl
  | (db', some error) =>
      db'.updateWebhookEvent event.id
        (WebhookEvent.recordError (env.endClock + event.retryDelayMs) error) fun _ => rfl

end EventEnvironment

/-! ## Storing a message -/

section store

variable {db db' : Db} {newId tenantId id : Uuid} {phone : String} {profileName : Option String}
  {inboundAt : Time}

/-- The upsert of a contact never fails when the new id is free. -/
theorem upsertContact_spec (db : Db) (tenantId : Uuid) (phone : String)
    (profileName : Option String) (inboundAt : Time)
    (hfree : db.contacts.find (.id newId) = none) :
    ∃ contacts id, db.upsertContact newId tenantId phone profileName inboundAt =
        some (contacts, id) ∧
      ∀ i, i ≠ newId → db.contacts.find (.id i) = none → contacts.find (.id i) = none := by
  unfold Db.upsertContact
  rcases hfind : db.contacts.find (.tenantPhone tenantId phone) with _ | contact
  · obtain ⟨contacts, hcontacts⟩ : ∃ contacts,
        db.contacts.insert? (newContact newId tenantId phone profileName inboundAt) =
          some contacts := by
      refine db.contacts.exists_insert? fun k hk => ?_
      rcases List.mem_cons.mp hk with rfl | hk
      · exact hfree
      · rw [List.mem_singleton.mp hk]
        exact hfind
    refine ⟨contacts, newId, by simp only [hcontacts, Option.map_some], fun i hi hnone => ?_⟩
    rw [Table.find_of_insert? hcontacts, if_neg, hnone]
    simpa [Keyed.keys, newContact] using hi
  · refine ⟨_, contact.id, rfl, fun i _ hnone => ?_⟩
    rw [Table.find_updateWhere, hnone]
    rfl

/-- The upsert, and the update that moves the service window on. -/
theorem upsertInboundContact_spec (db : Db) (tenantId : Uuid) (phone : String)
    (profileName : Option String) (inboundAt : Time)
    (hfree : db.contacts.find (.id newId) = none) :
    ∃ contacts id, db.upsertInboundContact newId tenantId phone profileName inboundAt =
        some ({ db with contacts := contacts }, id) ∧
      ∀ i, i ≠ newId → db.contacts.find (.id i) = none → contacts.find (.id i) = none := by
  obtain ⟨contacts, id, hcontacts, hids⟩ :=
    upsertContact_spec db tenantId phone profileName inboundAt hfree
  refine ⟨_, id, by simp only [Db.upsertInboundContact, hcontacts, Option.map_some]; rfl,
    fun i hi hnone => ?_⟩
  rw [Table.find_updateWhere, hids i hi hnone]
  rfl

/-- The upsert of a conversation does not fail either. -/
theorem recordInbound_spec (db : Db) (activity : InboundActivity)
    (hfree : db.conversations.find (.id newId) = none) :
    ∃ conversations id, db.recordInbound newId activity =
        some ({ db with conversations := conversations }, id) ∧
      ∀ i, i ≠ newId → db.conversations.find (.id i) = none →
        conversations.find (.id i) = none := by
  unfold Db.recordInbound
  rcases hfind : db.conversations.find (.participants activity.tenantId activity.senderId
    activity.contactId) with _ | c
  · dsimp only
    obtain ⟨conversations, hconversations⟩ := db.conversations.exists_insert?
      (r := { Conversation.opened newId activity.tenantId activity.senderId activity.contactId
        activity.occurredAt with
          unreadCount := 1
          lastInboundAt := some activity.occurredAt }) (by
        intro k hk
        rcases List.mem_cons.mp hk with rfl | hk
        · exact hfree
        · rw [List.mem_singleton.mp hk]
          exact hfind)
    refine ⟨conversations, newId, by rw [hconversations, Option.map_some], fun i hi hnone => ?_⟩
    rw [Table.find_of_insert? hconversations, if_neg, hnone]
    exact fun hkey => hi (mem_keys_conversation_id.mp hkey).symm
  · refine ⟨_, c.id, rfl, fun i _ hnone => ?_⟩
    have hfound := Db.find_updateConversation db c.id
      (Conversation.touchInbound (db.responseSlaMinutes c) activity.occurredAt) (fun _ => rfl) (.id i)
    rw [hnone] at hfound
    exact hfound

/-- **The transaction of a message** commits when its instants can be represented, its ids are free
and its provider id is new. -/
theorem persist_spec (work : InboundWork) {incoming : Incoming} {ids : InboundIds} {at_ : Time}
    (hat : incoming.inboundAt = some at_) (hfits : at_ + serviceWindowMs ≤ maxDate)
    (hcontact : db.contacts.find (.id ids.contactId) = none)
    (hconversation : db.conversations.find (.id ids.conversationId) = none)
    (hmessage : db.messages.find (.id ids.messageId) = none)
    (hnew : db.messages.find (.providerMessageId incoming.message.id) = none) :
    ∃ contacts conversations messages statusEvents row,
      Processor.persist db work incoming ids = some { db with
        contacts := contacts, conversations := conversations
        messages := messages, statusEvents := statusEvents } ∧
      row.id = ids.messageId ∧ row.providerMessageId = some incoming.message.id ∧
      db.messages.insert? row = some messages ∧
      (∀ i, i ≠ ids.contactId → db.contacts.find (.id i) = none →
        contacts.find (.id i) = none) ∧
      ∀ i, i ≠ ids.conversationId → db.conversations.find (.id i) = none →
        conversations.find (.id i) = none := by
  obtain ⟨contacts, contactId, hcontacts, hcontactIds⟩ :=
    upsertInboundContact_spec db work.sender.tenantId incoming.from_
      (work.change.profileNames.lookup incoming.message.from_) at_ hcontact
  obtain ⟨conversations, conversationId, hconversations, hconversationIds⟩ :=
    recordInbound_spec { db with contacts := contacts }
      { tenantId := work.sender.tenantId, senderId := work.sender.id, contactId := contactId,
        occurredAt := at_ } hconversation
  obtain ⟨messages, hmessages⟩ := db.messages.exists_insert?
    (r := incoming.message.row ids.messageId work.sender work.change.displayPhoneNumber
      incoming.from_ at_ conversationId) (by
      intro k hk
      rcases List.mem_cons.mp hk with rfl | hk
      · exact hmessage
      · rw [List.mem_singleton.mp hk]
        exact hnew)
  let received : MessageStatusEvent :=
    { messageId := ids.messageId, status := .received, createdAt := at_ }
  have hpersist : db.persistInbound work.sender work.change.displayPhoneNumber
      (work.change.profileNames.lookup incoming.message.from_) incoming.message incoming.from_ at_
      ids = some ({ db with
        contacts := contacts, conversations := conversations, messages := messages
        statusEvents := received :: db.statusEvents }, incoming.message.row ids.messageId
          work.sender work.change.displayPhoneNumber incoming.from_ at_ conversationId) := by
    refine Option.bind_eq_some_iff.mpr ⟨_, hcontacts, ?_⟩
    refine Option.bind_eq_some_iff.mpr ⟨_, hconversations, ?_⟩
    exact Option.bind_eq_some_iff.mpr ⟨messages, hmessages, rfl⟩
  refine ⟨contacts, conversations, messages, received :: db.statusEvents, _, ?_, rfl, rfl, hmessages,
    hcontactIds, hconversationIds⟩
  refine Option.bind_eq_some_iff.mpr ⟨at_, hat, ?_⟩
  rw [if_neg (Nat.not_lt.mpr hfits)]
  exact Option.bind_eq_some_iff.mpr ⟨_, hpersist, rfl⟩

/-- It throws when they cannot. -/
theorem persist_eq_none {work : InboundWork} {incoming : Incoming} {ids : InboundIds}
    (h : ¬∃ at_, incoming.inboundAt = some at_ ∧ at_ + serviceWindowMs ≤ maxDate) :
    Processor.persist db work incoming ids = none := by
  refine Option.bind_eq_none_iff.mpr fun at_ hat => ?_
  refine if_pos (Nat.not_le.mp fun hfits => h ⟨at_, hat, hfits⟩)

/-- It touches neither senders nor events. -/
theorem persist_frame {work : InboundWork} {incoming : Incoming} {ids : InboundIds}
    (h : Processor.persist db work incoming ids = some db') :
    db'.phoneNumbers = db.phoneNumbers ∧ db'.webhookEvents = db.webhookEvents := by
  obtain ⟨at_, -, h⟩ := Option.bind_eq_some_iff.mp h
  split_ifs at h
  obtain ⟨⟨db₁, m⟩, hpersist, h⟩ := Option.bind_eq_some_iff.mp h
  cases h
  obtain ⟨⟨db₂, contactId⟩, hcontact, h⟩ := Option.bind_eq_some_iff.mp hpersist
  obtain ⟨⟨db₃, c⟩, hrecord, h⟩ := Option.bind_eq_some_iff.mp h
  obtain ⟨messages, -, h⟩ := Option.bind_eq_some_iff.mp h
  cases h
  obtain ⟨contacts, rfl⟩ := Db.upsertInboundContact_frame hcontact
  obtain ⟨conversations, rfl⟩ := Db.recordInbound_frame hrecord
  exact ⟨rfl, rfl⟩

end store

/-! ## The received messages -/

/-- The sender of a change. -/
def Db.senderOf (db : Db) (change : InboundChange) : Option WhatsAppPhoneNumber :=
  change.providerPhoneNumberId.bind fun id => db.phoneNumbers.find (.providerPhoneNumberId id)

/-- The received messages of a payload. -/
def inboundMessages (payload : Json) : List MetaInboundMessage :=
  (inboundChanges payload).flatMap InboundChange.messages

/-- The received messages of a payload, each with its sender and its change. -/
def Db.inboundItems (db : Db) (payload : Json) :
    List (WhatsAppPhoneNumber × InboundChange × MetaInboundMessage) :=
  (inboundChanges payload).flatMap fun change =>
    match db.senderOf change with
    | some sender => change.messages.map fun message => (sender, change, message)
    | none => []

namespace EventEnvironment

variable {env : EventEnvironment} {db s : Db} {payload : Json}
  {item : WhatsAppPhoneNumber × InboundChange × MetaInboundMessage}
  {before items : List (WhatsAppPhoneNumber × InboundChange × MetaInboundMessage)}

theorem storeMessage_frame (env : EventEnvironment) (s : Db)
    (item : WhatsAppPhoneNumber × InboundChange × MetaInboundMessage) :
    (env.storeMessage s item).1.phoneNumbers = s.phoneNumbers ∧
      (env.storeMessage s item).1.webhookEvents = s.webhookEvents := by
  obtain ⟨sender, change, message⟩ := item
  unfold storeMessage
  dsimp only
  rcases normalizePhoneNumber message.from_ with error | from_
  · exact ⟨rfl, rfl⟩
  rcases s.messages.find (.providerMessageId message.id) with _ | existing
  · dsimp only
    rcases hpersist : Processor.persist s
      { sender := sender, change := change, messages := [], changes := [] }
      (env.incoming message from_) (env.ids message.id) with _ | db'
    · exact ⟨rfl, rfl⟩
    · exact persist_frame hpersist
  · exact ⟨rfl, rfl⟩

/-- With all senders configured, the two loops are one. -/
theorem processInbound_eq
    (hsenders : ∀ change ∈ inboundChanges payload, (db.senderOf change).isSome = true) :
    env.processInbound db payload = forEach env.storeMessage db (db.inboundItems payload) := by
  refine forEach_flatMap (P := fun s => s.phoneNumbers = db.phoneNumbers) rfl
    (fun s item hs => (storeMessage_frame env s item).1.trans hs) fun s change hchange hs => ?_
  obtain ⟨sender, hsender⟩ := Option.isSome_iff_exists.mp (hsenders change hchange)
  obtain ⟨id, hid, hfind⟩ := Option.bind_eq_some_iff.mp hsender
  simp only [storeChange, hid, hs, hfind, hsender]

theorem map_inboundItems
    (hsenders : ∀ change ∈ inboundChanges payload, (db.senderOf change).isSome = true) :
    (db.inboundItems payload).map (fun item => item.2.2) = inboundMessages payload := by
  rw [Db.inboundItems, inboundMessages, List.map_flatMap]
  refine List.flatMap_congr fun change hchange => ?_
  obtain ⟨sender, hsender⟩ := Option.isSome_iff_exists.mp (hsenders change hchange)
  simp [hsender, Function.comp_def]

/-- The ids that are generated for the messages that are not stored yet are free, and those of two
messages are different. The same goes for the rows of templates. -/
structure Fresh (env : EventEnvironment) (db : Db) : Prop where
  distinct : ∀ q q', q ≠ q' → (env.ids q).messageId ≠ (env.ids q').messageId ∧
    (env.ids q).contactId ≠ (env.ids q').contactId ∧
    (env.ids q).conversationId ≠ (env.ids q').conversationId
  free : ∀ q, ¬db.Stored q → db.messages.find (.id (env.ids q).messageId) = none ∧
    db.contacts.find (.id (env.ids q).contactId) = none ∧
    db.conversations.find (.id (env.ids q).conversationId) = none
  templatesDistinct : Function.Injective env.templateId
  templatesFree : ∀ i, db.templates.find (.id (env.templateId i)) = none

/-- What the messages `before` have made of the database `db`. -/
structure InboundStage (env : EventEnvironment) (db : Db)
    (before : List (WhatsAppPhoneNumber × InboundChange × MetaInboundMessage)) (s : Db) :
    Prop where
  stored : ∀ q, s.Stored q ↔ db.Stored q ∨ ∃ item ∈ before, item.2.2.id = q
  fresh : env.Fresh s
  rows : ∀ m ∈ db.messages.rows, m ∈ s.messages.rows
  phoneNumbers : s.phoneNumbers = db.phoneNumbers
  templates : s.templates = db.templates
  webhookEvents : s.webhookEvents = db.webhookEvents

/-- When a message can be stored: its sender has a phone number, and the message is stored already, or
its timestamp fits. -/
def Storable (db : Db) (before : List (WhatsAppPhoneNumber × InboundChange × MetaInboundMessage))
    (item : WhatsAppPhoneNumber × InboundChange × MetaInboundMessage) : Prop :=
  (∃ from_, normalizePhoneNumber item.2.2.from_ = .ok from_) ∧
    (db.Stored item.2.2.id ∨ (∃ other ∈ before, other.2.2.id = item.2.2.id) ∨
      TimestampFits serviceWindowMs item.2.2.timestamp)

theorem not_stored_iff {q : String} :
    ¬s.Stored q ↔ s.messages.find (.providerMessageId q) = none := by
  simp [Db.Stored]

/-- **One message.** -/
theorem storeMessage_stage (hclock : ∀ q, env.inboundClock q + serviceWindowMs ≤ maxDate)
    (h : env.InboundStage db before s) :
    ((env.storeMessage s item).2 = none ↔ Storable db before item) ∧
      ((env.storeMessage s item).2 = none →
        env.InboundStage db (before ++ [item]) (env.storeMessage s item).1) := by
  obtain ⟨sender, change, message⟩ := item
  have hgrown : ∀ q, (∃ item ∈ before ++ [(sender, change, message)], item.2.2.id = q) ↔
      (∃ item ∈ before, item.2.2.id = q) ∨ message.id = q := by
    intro q
    simp only [List.mem_append, List.mem_singleton, or_and_right, exists_or, exists_eq_left]
  unfold storeMessage
  dsimp only
  rcases hphone : normalizePhoneNumber message.from_ with error | from_
  · refine ⟨⟨fun herror => absurd herror (Option.some_ne_none _), fun hstorable => ?_⟩,
      fun herror => absurd herror (Option.some_ne_none _)⟩
    obtain ⟨⟨from_, hok⟩, -⟩ := hstorable
    rw [hphone] at hok
    cases hok
  rcases hfind : s.messages.find (.providerMessageId message.id) with _ | existing
  · have hnew : ¬s.Stored message.id := not_stored_iff.mpr hfind
    obtain ⟨hmessage, hcontact, hconversation⟩ := h.fresh.free message.id hnew
    by_cases hfits : TimestampFits serviceWindowMs message.timestamp
    · obtain ⟨at_, hat, hwindow⟩ :=
        (timestampOrNow_iff (hclock message.id) message.timestamp).mpr hfits
      have hincoming : (env.incoming message from_).inboundAt = some at_ := hat
      obtain ⟨contacts, conversations, messages, statusEvents, row, hpersist, hrowId, hrowKey,
        hinsert, hcontactIds, hconversationIds⟩ := persist_spec
          { sender := sender, change := change, messages := [], changes := [] }
          hincoming hwindow hcontact hconversation hmessage hfind
      dsimp only
      rw [hpersist]
      refine ⟨⟨fun _ => ⟨⟨from_, hphone⟩, .inr (.inr hfits)⟩, fun _ => rfl⟩, fun _ => ?_⟩
      have hstored : ∀ q, ({ s with
          contacts := contacts, conversations := conversations
          messages := messages, statusEvents := statusEvents } : Db).Stored q ↔
            s.Stored q ∨ message.id = q := by
        intro q
        simp only [Db.Stored, Table.find_of_insert? hinsert, mem_keys_providerMessageId, hrowKey,
          Option.some.injEq]
        have hid : (env.incoming message from_).message.id = message.id := rfl
        rw [hid]
        split_ifs with hq
        · simp [hq]
        · simp [hq]
      refine ⟨fun q => ?_, ⟨h.fresh.distinct, fun q hq => ?_, h.fresh.templatesDistinct,
        h.fresh.templatesFree⟩, fun m hm => ?_, h.phoneNumbers, h.templates, h.webhookEvents⟩
      · rw [hstored, h.stored, hgrown, or_assoc]
      · rw [hstored, not_or] at hq
        obtain ⟨hmessageId, hcontactId, hconversationId⟩ := h.fresh.distinct q message.id
          fun heq => hq.2 heq.symm
        obtain ⟨hfree, hfreeContact, hfreeConversation⟩ := h.fresh.free q hq.1
        refine ⟨?_, hcontactIds _ hcontactId hfreeContact,
          hconversationIds _ hconversationId hfreeConversation⟩
        rw [Table.find_of_insert? hinsert, if_neg, hfree]
        rw [mem_keys_id, hrowId]
        exact fun heq => hmessageId heq.symm
      · rw [Table.rows_of_insert? hinsert]
        exact List.mem_cons_of_mem _ (h.rows m hm)
    · have hnone : Processor.persist s
          { sender := sender, change := change, messages := [], changes := [] }
          (env.incoming message from_) (env.ids message.id) = none :=
        persist_eq_none fun hat => hfits
          ((timestampOrNow_iff (hclock message.id) message.timestamp).mp hat)
      dsimp only
      rw [hnone]
      refine ⟨⟨fun herror => absurd herror (Option.some_ne_none _), fun hstorable => ?_⟩,
      fun herror => absurd herror (Option.some_ne_none _)⟩
      rcases hstorable.2 with hold | hearlier | hfits'
      · exact absurd ((h.stored message.id).mpr (.inl hold)) hnew
      · exact absurd ((h.stored message.id).mpr (.inr hearlier)) hnew
      · exact absurd hfits' hfits
  · have hstored : s.Stored message.id := by
      rw [Db.Stored, hfind]
      rfl
    refine ⟨⟨fun _ => ⟨⟨from_, hphone⟩, ?_⟩, fun _ => rfl⟩, fun _ => ?_⟩
    · rcases (h.stored message.id).mp hstored with hold | hearlier
      · exact .inl hold
      · exact .inr (.inl hearlier)
    · refine ⟨fun q => ?_, h.fresh, h.rows, h.phoneNumbers, h.templates, h.webhookEvents⟩
      rw [hgrown, ← or_assoc, ← h.stored]
      refine ⟨.inl, fun hq => hq.elim id fun heq => ?_⟩
      rw [← heq]
      exact hstored

/-- Every message can be stored: all have phone numbers, and of those with one new id the first has a
timestamp that fits. -/
theorem storable_iff :
    (∀ first item rest, items = first ++ item :: rest → Storable db first item) ↔
      (∀ item ∈ items, ∃ from_, normalizePhoneNumber item.2.2.from_ = .ok from_) ∧
        ∀ q, ¬db.Stored q → ∀ item, items.find? (fun x => x.2.2.id = q) = some item →
          TimestampFits serviceWindowMs item.2.2.timestamp := by
  constructor
  · intro h
    refine ⟨fun item hitem => ?_, fun q hq item hfind => ?_⟩
    · obtain ⟨first, rest, heq⟩ := List.mem_iff_append.mp hitem
      exact (h first item rest heq).1
    · obtain ⟨hid, first, rest, heq, hfirst⟩ := List.find?_eq_some_iff_append.mp hfind
      simp only [decide_eq_true_eq] at hid
      rcases (h first item rest heq).2 with hstored | ⟨other, hother, hsame⟩ | hfits
      · rw [hid] at hstored
        exact absurd hstored hq
      · have hne := hfirst other hother
        simp [hsame, hid] at hne
      · exact hfits
  · rintro ⟨hphones, hwindows⟩ first item rest heq
    refine ⟨hphones item (heq ▸ List.mem_append_right first List.mem_cons_self), ?_⟩
    by_cases hstored : db.Stored item.2.2.id
    · exact .inl hstored
    by_cases hearlier : ∃ other ∈ first, other.2.2.id = item.2.2.id
    · exact .inr (.inl hearlier)
    refine .inr (.inr (hwindows _ hstored item ?_))
    refine List.find?_eq_some_iff_append.mpr ⟨by simp, first, rest, heq, fun other hother => ?_⟩
    have hne : other.2.2.id ≠ item.2.2.id := fun hsame => hearlier ⟨other, hother, hsame⟩
    simp [hne]

/-- The senders of the received messages have phone numbers. -/
def PhonesValid (payload : Json) : Prop :=
  ∀ message ∈ inboundMessages payload, ∃ from_, normalizePhoneNumber message.from_ = .ok from_

/-- The service window of every new message can be represented. A message that the payload carries
twice is stored once, the first time. -/
def WindowsFit (db : Db) (payload : Json) : Prop :=
  ∀ q, ¬db.Stored q → ∀ message,
    (inboundMessages payload).find? (fun m => m.id = q) = some message →
      TimestampFits serviceWindowMs message.timestamp

/-- **The received messages** are all stored exactly when they are valid. -/
theorem processInbound_spec (hclock : ∀ q, env.inboundClock q + serviceWindowMs ≤ maxDate)
    (hfresh : env.Fresh db)
    (hsenders : ∀ change ∈ inboundChanges payload, (db.senderOf change).isSome = true) :
    ((env.processInbound db payload).2 = none ↔ PhonesValid payload ∧ WindowsFit db payload) ∧
      ((env.processInbound db payload).2 = none →
        env.InboundStage db (db.inboundItems payload) (env.processInbound db payload).1) := by
  have hstart : env.InboundStage db [] db :=
    ⟨fun q => by simp, hfresh, fun m hm => hm, rfl, rfl, rfl⟩
  have hloop : ((forEach env.storeMessage db (db.inboundItems payload)).2 = none ↔
        ∀ first item rest, db.inboundItems payload = first ++ item :: rest →
          Storable db ([] ++ first) item) ∧
      ((forEach env.storeMessage db (db.inboundItems payload)).2 = none →
        env.InboundStage db ([] ++ db.inboundItems payload)
          (forEach env.storeMessage db (db.inboundItems payload)).1) :=
    forEach_iff (R := env.InboundStage db) (C := Storable db) hstart
      fun before s item hs => storeMessage_stage hclock hs
  rw [processInbound_eq hsenders]
  refine ⟨hloop.1.trans ?_, hloop.2⟩
  simp only [List.nil_append]
  rw [storable_iff, PhonesValid, WindowsFit, ← map_inboundItems hsenders]
  simp only [List.forall_mem_map, List.find?_map, Function.comp_def, Option.map_eq_some_iff,
    forall_exists_index, and_imp, forall_apply_eq_imp_iff₂]

/-! ## The statuses -/

/-- What a report that is applied does: nothing, or it records the status and moves the row. -/
theorem applyStatus_cases {now : Time} {report : MetaMessageStatus} {s' : Db}
    (h : s.applyStatus now report = some s') :
    (s' = s ∧ (mapStatus report.status = none ∨ ¬s.Stored report.id)) ∨
      ∃ target message at_, mapStatus report.status = some target ∧
        s.messages.find (.providerMessageId report.id) = some message ∧
        timestampOrNow now report.timestamp = some at_ ∧
        s'.statusEvents = { messageId := message.id, status := target, createdAt := at_ } ::
          s.statusEvents ∧
        s'.webhookEvents = s.webhookEvents ∧ ∀ q, s'.Stored q ↔ s.Stored q := by
  unfold Db.applyStatus at h
  rcases hmap : mapStatus report.status with _ | target
  · rw [hmap] at h
    cases h
    exact .inl ⟨rfl, .inl rfl⟩
  rcases hfind : s.messages.find (.providerMessageId report.id) with _ | message
  · rw [hmap, hfind] at h
    cases h
    exact .inl ⟨rfl, .inr (not_stored_iff.mpr hfind)⟩
  rw [hmap, hfind] at h
  obtain ⟨at_, hat, rfl⟩ := Option.map_eq_some_iff.mp h
  refine .inr ⟨target, message, at_, rfl, rfl, hat, rfl, rfl, fun q => ?_⟩
  simp only [Db.Stored]
  split_ifs
  · rw [Table.find_updateWhere, Option.isSome_map]
  · rfl

/-- When a report cannot be applied. -/
theorem applyStatus_eq_none_iff {now : Time} {report : MetaMessageStatus} :
    s.applyStatus now report = none ↔ (mapStatus report.status).isSome = true ∧
      s.Stored report.id ∧ timestampOrNow now report.timestamp = none := by
  unfold Db.applyStatus Db.Stored
  rcases mapStatus report.status with _ | target
  · simp
  rcases s.messages.find (.providerMessageId report.id) with _ | message
  · simp
  · simp

/-- What the reports `before` have made of the database `db`. -/
structure StatusStage (db : Db) (before : List (Time × MetaMessageStatus)) (s : Db) : Prop where
  stored : ∀ q, s.Stored q ↔ db.Stored q
  rows : ∀ m ∈ db.messages.rows, ∀ p, m.providerMessageId = some p →
    m.foldStatus (before.filter fun e => e.2.id = p) ∈ s.messages.rows
  events : ∀ m ∈ db.messages.rows, ∀ e ∈ before, m.providerMessageId = some e.2.id →
    ∀ target, mapStatus e.2.status = some target → ∃ at_,
      timestampOrNow e.1 e.2.timestamp = some at_ ∧
        { messageId := m.id, status := target, createdAt := at_ } ∈ s.statusEvents
  webhookEvents : s.webhookEvents = db.webhookEvents

/-- When one report can be applied. -/
def Reportable (db : Db) (_ : List (Time × MetaMessageStatus)) (e : Time × MetaMessageStatus) :
    Prop :=
  (mapStatus e.2.status).isSome = true → db.Stored e.2.id →
    (timestampOrNow e.1 e.2.timestamp).isSome = true

/-- **One report.** -/
theorem applyEntry_stage {before : List (Time × MetaMessageStatus)} {e : Time × MetaMessageStatus}
    (h : StatusStage db before s) :
    ((env.applyEntry s e).2 = none ↔ Reportable db before e) ∧
      ((env.applyEntry s e).2 = none → StatusStage db (before ++ [e]) (env.applyEntry s e).1) := by
  unfold applyEntry
  rcases happly : s.applyStatus e.1 e.2 with _ | s'
  · obtain ⟨hknown, hstored, hnone⟩ := applyStatus_eq_none_iff.mp happly
    refine ⟨⟨fun herror => absurd herror (Option.some_ne_none _), fun hreportable => ?_⟩,
      fun herror => absurd herror (Option.some_ne_none _)⟩
    have hsome := hreportable hknown ((h.stored _).mp hstored)
    rw [hnone] at hsome
    cases hsome
  refine ⟨⟨fun _ hknown hstored => ?_, fun _ => rfl⟩, fun _ => ?_⟩
  · by_contra hnone
    have hthrows := applyStatus_eq_none_iff.mpr ⟨hknown, (h.stored _).mpr hstored,
      Option.not_isSome_iff_eq_none.mp hnone⟩
    rw [happly] at hthrows
    cases hthrows
  -- The row of a message after the reports before this one.
  have hkeep : ∀ m : Message, ∀ p, m.providerMessageId = some p →
      (m.foldStatus (before.filter fun x => x.2.id = p)).providerMessageId = some p ∧
        (m.foldStatus (before.filter fun x => x.2.id = p)).id = m.id := by
    intro m p hp
    obtain ⟨hid, hprovider⟩ :=
      WebhookSystem.identity_foldStatus m (before.filter fun x => x.2.id = p)
    exact ⟨hprovider.trans hp, hid⟩
  have hrows : ∀ m ∈ db.messages.rows, ∀ p, m.providerMessageId = some p →
      m.foldStatus ((before ++ [e]).filter fun x => x.2.id = p) ∈ s'.messages.rows := by
    intro m hm p hp
    obtain ⟨hsame, hother⟩ :=
      WebhookSystem.row_of_applyStatus happly (h.rows m hm p hp) (hkeep m p hp).1
    by_cases hid : e.2.id = p
    · obtain ⟨m', hm', hmem⟩ := hsame hid
      rw [List.filter_append, List.filter_cons_of_pos (by simpa using hid), List.filter_nil,
        Message.foldStatus_append, Message.foldStatus, hm', Option.getD_some]
      exact hmem
    · rw [List.filter_append, List.filter_cons_of_neg (by simpa using hid), List.filter_nil,
        List.append_nil]
      exact hother hid
  rcases applyStatus_cases happly with ⟨rfl, hignored⟩ | ⟨target, message, at_, hmap, hfind, hat,
    hevents, hwebhooks, hstored⟩
  · refine ⟨h.stored, hrows, fun m hm x hx hp target hmap => ?_, h.webhookEvents⟩
    rcases List.mem_append.mp hx with hx | hx
    · exact h.events m hm x hx hp target hmap
    · rw [List.mem_singleton.mp hx] at hp hmap
      rcases hignored with hunknown | hmissing
      · rw [hunknown] at hmap
        cases hmap
      · refine absurd ((h.stored _).mpr ?_) hmissing
        rw [Db.Stored, db.messages.find_eq_some_iff.mpr ⟨hm, mem_keys_providerMessageId.mpr hp⟩]
        rfl
  · refine ⟨fun q => (hstored q).trans (h.stored q), hrows, fun m hm x hx hp target' hmap' => ?_,
      hwebhooks.trans h.webhookEvents⟩
    rw [hevents]
    rcases List.mem_append.mp hx with hx | hx
    · obtain ⟨at', hat', hmem⟩ := h.events m hm x hx hp target' hmap'
      exact ⟨at', hat', List.mem_cons_of_mem _ hmem⟩
    · rw [List.mem_singleton.mp hx] at hp hmap' ⊢
      rw [hmap] at hmap'
      cases hmap'
      -- The row that was found is that of the message.
      obtain ⟨hmessage, hkey⟩ := s.messages.find_eq_some_iff.mp hfind
      have hrow := s.messages.eq_of_mem_keys hmessage (h.rows m hm _ hp) hkey
        (mem_keys_providerMessageId.mpr (hkeep m _ hp).1)
      have hid : message.id = m.id := by
        rw [hrow]
        exact (hkeep m _ hp).2
      exact ⟨at_, hat, by rw [hid]; exact List.mem_cons_self⟩

/-- **The statuses** are all applied exactly when none of them throws. -/
theorem processStatuses_spec (env : EventEnvironment) (s : Db) (payload : Json) :
    ((env.processStatuses s payload).2 = none ↔ ∀ e ∈ env.entries payload, Reportable s [] e) ∧
      ((env.processStatuses s payload).2 = none →
        StatusStage s (env.entries payload) (env.processStatuses s payload).1) := by
  have hstart : StatusStage s [] s :=
    ⟨fun _ => Iff.rfl, fun m hm _ _ => hm, fun _ _ e he => absurd he List.not_mem_nil, rfl⟩
  have hloop : ((forEach env.applyEntry s (env.entries payload)).2 = none ↔
        ∀ first e rest, env.entries payload = first ++ e :: rest → Reportable s ([] ++ first) e) ∧
      ((forEach env.applyEntry s (env.entries payload)).2 = none →
        StatusStage s ([] ++ env.entries payload)
          (forEach env.applyEntry s (env.entries payload)).1) :=
    forEach_iff (R := StatusStage s) (C := Reportable s) hstart
      fun before x e hx => applyEntry_stage hx
  refine ⟨hloop.1.trans ⟨fun h e he => ?_, fun h first e rest heq => ?_⟩, hloop.2⟩
  · obtain ⟨first, rest, heq⟩ := List.mem_iff_append.mp he
    exact h first e rest heq
  · exact h e (heq ▸ List.mem_append_right first List.mem_cons_self)

end EventEnvironment

end ApiWhatsApp
