import ApiWhatsApp.Inbox.ConversationActivity
import ApiWhatsApp.Messages.Create
import ApiWhatsApp.Webhooks.Status

/-!
# Inbound messages

`webhooks/inbound-message.service.ts`: what a webhook payload says about received messages, and the
transaction that stores one of them.

* `inboundChanges` reads the payload: one item for each change that carries messages, in the order
  of the loops of `process`. `Mentions` says that a payload names a provider message id.
* `Db.persistInbound` is the part of the transaction after its duplicate check: the contact, the
  conversation with its unread counter, then the message. The counter is raised before the insert
  that may find the id taken, so a unique violation must take the whole transaction back: `none`.
* **`Db.persistInbound_spec`** says what a committed transaction did: one new row, and one unread
  message more in its conversation.
-/

namespace ApiWhatsApp

open Library

/-- A received message, with the JSON value that is stored. Source: `interface MetaInboundMessage`. -/
structure MetaInboundMessage where
  id : String
  from_ : String
  timestamp : Option String
  type : Option String
  raw : Json

/-- One change of a payload that carries messages. -/
structure InboundChange where
  /-- `metadata.phone_number_id`. -/
  providerPhoneNumberId : Option String
  displayPhoneNumber : Option String
  /-- Profile names by `wa_id`, the last one first. -/
  profileNames : List (String × String)
  messages : List MetaInboundMessage

/-- Source: `readString`. -/
def readString (value : Option Json) (key : String) : Option String :=
  nonEmptyString? (value.bind fun object => object.get? key)

/-- The candidate with `timestamp` and `type` as they were read: dropped unless they are strings
with at least one character. -/
def withReadFields : Json → Json
  | .obj fields => .obj (fields.filter fun (key, value) =>
      if key = "timestamp" ∨ key = "type" then (nonEmptyString? (some value)).isSome else true)
  | other => other

/-- One item of `messages`, when it has an id and a sender. -/
def readInboundMessage (candidate : Json) : Option MetaInboundMessage := do
  let id ← readString (some candidate) "id"
  let from_ ← readString (some candidate) "from"
  some { id := id, from_ := from_,
         timestamp := readString (some candidate) "timestamp",
         type := readString (some candidate) "type",
         raw := withReadFields candidate }

/-- Source: `extractProfileNames`. -/
def extractProfileNames (value : Json) : List (String × String) :=
  ((arrayAt value "contacts").filterMap fun contact => do
    let waId ← readString (some contact) "wa_id"
    let name ← readString (contact.get? "profile") "name"
    some (waId, name)).reverse

/-- The changes of a payload that carry messages, in the order of the loops of `process`. -/
def inboundChanges (payload : Json) : List InboundChange :=
  (arrayAt payload "entry").flatMap fun entry =>
    (arrayAt entry "changes").filterMap fun change => do
      let value ← change.get? "value"
      let messages := (arrayAt value "messages").filterMap readInboundMessage
      if messages.isEmpty then none else
      some { providerPhoneNumberId := readString (value.get? "metadata") "phone_number_id",
             displayPhoneNumber := readString (value.get? "metadata") "display_phone_number",
             profileNames := extractProfileNames value,
             messages := messages }

/-- The payload names a received message with this provider id. -/
def Mentions (payload : Json) (p : String) : Prop :=
  ∃ change ∈ inboundChanges payload, ∃ message ∈ change.messages, message.id = p

instance (payload : Json) (p : String) : Decidable (Mentions payload p) :=
  inferInstanceAs (Decidable (∃ change ∈ inboundChanges payload, _))

/-- Source: `mapMessageType`. -/
def mapMessageType (type : Option String) : MessageType :=
  match type.map toLowerCase with
  | some "text" => .text
  | some "image" => .image
  | some "video" => .video
  | some "audio" => .audio
  | some "document" => .document
  | some "interactive" | some "button" => .interactive
  | some "location" => .location
  | some "contacts" | some "contact" => .contact
  | _ => .unknown

/-! ## The transaction -/

/-- The ids that the database chooses for new rows. -/
structure InboundIds where
  contactId : Uuid
  conversationId : Uuid
  messageId : Uuid

/-- The twenty-four hours of the customer service window, in milliseconds. -/
def serviceWindowMs : ℕ := 24 * 60 * 60 * 1000

/-- The row that the upsert of a contact creates. -/
def newContact (id tenantId : Uuid) (phone : String) (name : Option String) (inboundAt : Time) :
    Contact where
  id := id
  tenantId := tenantId
  phone := phone
  name := name
  language := none
  timezone := none
  tags := []
  consentStatus := .unknown
  consentSource := none
  consentAt := none
  optedOutAt := none
  lastInboundAt := some inboundAt
  serviceWindowExpiresAt := some (inboundAt + serviceWindowMs)
  metadata := none

/-- The upsert of the contact: an existing one is renamed when a profile name is given. -/
def Db.upsertContact (db : Db) (newId tenantId : Uuid) (phone : String)
    (profileName : Option String) (inboundAt : Time) : Option (Table Contact × Uuid) :=
  match db.contacts.find (.tenantPhone tenantId phone) with
  | some contact =>
      some (db.contacts.updateWhere (fun r => r.id = contact.id)
        (fun r => { r with name := profileName.or r.name }) fun _ => rfl, contact.id)
  | none =>
      (db.contacts.insert? (newContact newId tenantId phone profileName inboundAt)).map
        fun contacts => (contacts, newId)

/-- The upsert of the contact, and the update that moves its service window on. -/
def Db.upsertInboundContact (db : Db) (newId tenantId : Uuid) (phone : String)
    (profileName : Option String) (inboundAt : Time) : Option (Db × Uuid) :=
  (db.upsertContact newId tenantId phone profileName inboundAt).map fun (contacts, id) =>
    ({ db with
        contacts := contacts.updateWhere
          (fun r => r.id = id && isAfter inboundAt r.lastInboundAt)
          (fun r =>
            { r with
              lastInboundAt := some inboundAt
              serviceWindowExpiresAt := some (inboundAt + serviceWindowMs) }) fun _ => rfl }, id)

/-- The row that `transaction.message.create` inserts. -/
def MetaInboundMessage.row (message : MetaInboundMessage) (id : Uuid) (sender : WhatsAppPhoneNumber)
    (displayPhoneNumber : Option String) (from_ : String) (inboundAt : Time)
    (conversationId : Uuid) : Message where
  id := id
  tenantId := some sender.tenantId
  senderId := some sender.id
  conversationId := some conversationId
  direction := .inbound
  trafficClass := .transactional
  type := mapMessageType message.type
  status := .received
  to_ := displayPhoneNumber
  from_ := some from_
  providerMessageId := some message.id
  providerTimestamp := some inboundAt
  idempotencyKey := none
  payload := message.raw
  providerResponse := none
  errorCode := none
  errorMessage := none
  attemptCount := 0
  lastAttemptAt := none
  processingLeaseUntil := none
  submittedAt := none
  sentAt := none
  deliveredAt := none
  readAt := none
  failedAt := none

/-- The transaction of `persistInboundMessage` after its duplicate check, all or nothing: `none` is
a unique violation. -/
def Db.persistInbound (db : Db) (sender : WhatsAppPhoneNumber) (displayPhoneNumber : Option String)
    (profileName : Option String) (message : MetaInboundMessage) (from_ : String)
    (inboundAt : Time) (ids : InboundIds) : Option (Db × Message) := do
  let (db, contactId) ←
    db.upsertInboundContact ids.contactId sender.tenantId from_ profileName inboundAt
  let (db, conversationId) ← db.recordInbound ids.conversationId
    { tenantId := sender.tenantId, senderId := sender.id, contactId := contactId,
      occurredAt := inboundAt }
  let row := message.row ids.messageId sender displayPhoneNumber from_ inboundAt conversationId
  let messages ← db.messages.insert? row
  let event : MessageStatusEvent :=
    { messageId := row.id, status := .received, createdAt := inboundAt }
  some ({ db with messages := messages, statusEvents := event :: db.statusEvents }, row)

/-- The upsert of the contact touches no other table. -/
theorem Db.upsertInboundContact_frame {db db' : Db} {newId tenantId id : Uuid} {phone : String}
    {profileName : Option String} {inboundAt : Time}
    (h : db.upsertInboundContact newId tenantId phone profileName inboundAt = some (db', id)) :
    ∃ contacts, db' = { db with contacts := contacts } := by
  obtain ⟨⟨contacts, id'⟩, -, h⟩ := Option.map_eq_some_iff.mp h
  simp only [Prod.mk.injEq] at h
  exact ⟨_, h.1.symm⟩

/-- **A committed transaction** adds the row of its message, and one unread message to the
conversation of that row. -/
theorem Db.persistInbound_spec {db db' : Db} {sender : WhatsAppPhoneNumber}
    {displayPhoneNumber profileName : Option String} {message : MetaInboundMessage}
    {from_ : String} {inboundAt : Time} {ids : InboundIds} {m : Message}
    (h : db.persistInbound sender displayPhoneNumber profileName message from_ inboundAt ids =
      some (db', m)) :
    ∃ c, m = message.row ids.messageId sender displayPhoneNumber from_ inboundAt c ∧
      db.messages.insert? m = some db'.messages ∧ db'.webhookEvents = db.webhookEvents ∧
      ∀ j, db'.unreadCount j =
        if j = c then some ((db.unreadCount c).getD 0 + 1) else db.unreadCount j := by
  obtain ⟨⟨db₁, contactId⟩, hcontact, h⟩ := Option.bind_eq_some_iff.mp h
  obtain ⟨⟨db₂, c⟩, hrecord, h⟩ := Option.bind_eq_some_iff.mp h
  obtain ⟨messages, hinsert, h⟩ := Option.bind_eq_some_iff.mp h
  simp only [Option.some.injEq, Prod.mk.injEq] at h
  obtain ⟨rfl, rfl⟩ := h
  obtain ⟨contacts, rfl⟩ := Db.upsertInboundContact_frame hcontact
  have hcount := Db.unreadCount_recordInbound hrecord
  obtain ⟨conversations, rfl⟩ := Db.recordInbound_frame hrecord
  exact ⟨c, rfl, hinsert, rfl, hcount⟩

end ApiWhatsApp
