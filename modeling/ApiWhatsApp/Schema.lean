import ApiWhatsApp.Library.JavaScript
import ApiWhatsApp.Library.Table

/-!
# The database schema

The enumerations and tables of `prisma/schema.prisma` that the modelled services read or write,
column by column, with their unique indexes as `Keyed` instances. `createdAt` is kept only where a
modelled statement orders by it, `updatedAt` nowhere: no modelled function reads it. Identifiers
(`uuid` columns) are natural numbers, since only their equality matters; instants are milliseconds.

`Db` is the whole database. A statement or transaction of the source is one function `Db → …`.
-/

namespace ApiWhatsApp

open Library

/-- A `uuid` column. -/
abbrev Uuid := ℕ

/-- A `DateTime` column, in milliseconds. -/
abbrev Time := ℕ

/-! ## Enumerations -/

/-- Source: `ConsentStatus`. -/
inductive ConsentStatus where
  | unknown
  | optedIn
  | optedOut
  deriving DecidableEq, Repr

/-- Source: `MessageDirection`. -/
inductive MessageDirection where
  | inbound
  | outbound
  deriving DecidableEq, Repr

/-- Source: `MessageTrafficClass`. -/
inductive MessageTrafficClass where
  | otp
  | transactional
  | marketing
  deriving DecidableEq, Repr

/-- Source: `MessageStatus`. -/
inductive MessageStatus where
  | created
  | received
  | queued
  | processing
  | submitted
  | sent
  | delivered
  | read
  | failed
  | cancelled
  | expired
  deriving DecidableEq, Repr

/-- Source: `MessageType`. -/
inductive MessageType where
  | text
  | template
  | image
  | video
  | audio
  | document
  | interactive
  | location
  | contact
  | unknown
  deriving DecidableEq, Repr

/-- Source: `CampaignStatus`. -/
inductive CampaignStatus where
  | draft
  | scheduled
  | running
  | paused
  | completed
  | cancelled
  | failed
  deriving DecidableEq, Repr

/-- Source: `CampaignRecipientStatus`. -/
inductive CampaignRecipientStatus where
  | pending
  | processing
  | queued
  | skipped
  | failed
  | cancelled
  deriving DecidableEq, Repr

/-- Source: `ConversationStatus`. -/
inductive ConversationStatus where
  | «open»
  | pending
  | resolved
  deriving DecidableEq, Repr

/-- Source: `ConversationPriority`. -/
inductive ConversationPriority where
  | low
  | normal
  | high
  | urgent
  deriving DecidableEq, Repr

/-! ## Tenants' configuration -/

/-- A WhatsApp sender of a tenant. Source: `model WhatsAppPhoneNumber`. -/
structure WhatsAppPhoneNumber where
  id : Uuid
  tenantId : Uuid
  providerPhoneNumberId : String
  wabaId : Option String
  rateLimitPerSecond : Option ℕ
  active : Bool
  isDefault : Bool
  createdAt : Time

/-- The unique columns of a phone number. -/
inductive PhoneNumberKey where
  | id (id : Uuid)
  | providerPhoneNumberId (value : String)
  deriving DecidableEq

/-- A phone number is known by its id and by that of Meta. -/
instance : Keyed WhatsAppPhoneNumber PhoneNumberKey where
  keys r := [.id r.id, .providerPhoneNumberId r.providerPhoneNumberId]

/-- A synchronised message template. Source: `model MessageTemplate`. -/
structure MessageTemplate where
  id : Uuid
  tenantId : Uuid
  wabaId : String
  providerTemplateId : String
  name : String
  language : String
  category : Option String
  status : String

/-- The unique columns of a template. -/
inductive TemplateKey where
  | id (id : Uuid)
  | providerTemplateId (value : String)
  | identity (tenantId : Uuid) (wabaId name language : String)
  deriving DecidableEq

/-- A template is known by its id, by that of Meta, and by its name and language in the account. -/
instance : Keyed MessageTemplate TemplateKey where
  keys r := [.id r.id, .providerTemplateId r.providerTemplateId,
    .identity r.tenantId r.wabaId r.name r.language]

/-- A contact of a tenant. Source: `model Contact`. -/
structure Contact where
  id : Uuid
  tenantId : Uuid
  phone : String
  name : Option String
  language : Option String
  timezone : Option String
  tags : List String
  consentStatus : ConsentStatus
  consentSource : Option String
  consentAt : Option Time
  optedOutAt : Option Time
  lastInboundAt : Option Time
  serviceWindowExpiresAt : Option Time
  metadata : Option Json

/-- The unique columns of a contact. -/
inductive ContactKey where
  | id (id : Uuid)
  | tenantPhone (tenantId : Uuid) (phone : String)
  deriving DecidableEq

/-- A contact is known by its id, and by its phone within the tenant. -/
instance : Keyed Contact ContactKey where
  keys r := [.id r.id, .tenantPhone r.tenantId r.phone]

/-- A recorded consent decision. Source: `model ContactConsentEvent`. -/
structure ContactConsentEvent where
  tenantId : Uuid
  contactId : Uuid
  status : ConsentStatus
  source : String
  occurredAt : Time
  deriving DecidableEq

/-! ## The inbox -/

/-- Source: `InboxAgentPresenceStatus`. -/
inductive InboxAgentPresenceStatus where
  | available
  | away
  | offline
  deriving DecidableEq, Repr

/-- An agent. Source: `model InboxAgent`. -/
structure InboxAgent where
  id : Uuid
  tenantId : Uuid
  active : Bool
  presenceStatus : InboxAgentPresenceStatus
  maxConcurrentConversations : Option ℕ
  deriving DecidableEq

/-- An agent is known by its id. -/
instance : Keyed InboxAgent Uuid where
  keys r := [r.id]

/-- A team. Source: `model InboxTeam`. -/
structure InboxTeam where
  id : Uuid
  tenantId : Uuid
  active : Bool
  responseSlaMinutes : Option ℕ

/-- A team is known by its id. -/
instance : Keyed InboxTeam Uuid where
  keys r := [r.id]

/-- Source: `model InboxTeamMember`. -/
structure InboxTeamMember where
  tenantId : Uuid
  teamId : Uuid
  agentId : Uuid

/-- A membership is known by its team and its agent. -/
instance : Keyed InboxTeamMember (Uuid × Uuid) where
  keys r := [(r.teamId, r.agentId)]

/-- Source: `model InboxSkill`. -/
structure InboxSkill where
  id : Uuid
  tenantId : Uuid
  active : Bool

/-- A skill is known by its id. -/
instance : Keyed InboxSkill Uuid where
  keys r := [r.id]

/-- How well an agent has a skill. Source: `model InboxAgentSkill`. -/
structure InboxAgentSkill where
  tenantId : Uuid
  skillId : Uuid
  agentId : Uuid
  level : ℕ

/-- The skill of an agent is known by the two. -/
instance : Keyed InboxAgentSkill (Uuid × Uuid) where
  keys r := [(r.skillId, r.agentId)]

/-- A skill that a conversation asks for. Source: `model ConversationSkillRequirement`. -/
structure ConversationSkillRequirement where
  tenantId : Uuid
  conversationId : Uuid
  skillId : Uuid
  minLevel : ℕ

/-- A requirement is known by its conversation and its skill. -/
instance : Keyed ConversationSkillRequirement (Uuid × Uuid) where
  keys r := [(r.conversationId, r.skillId)]

/-- The team a conversation is assigned to. Source: `model ConversationTeamAssignment`. -/
structure ConversationTeamAssignment where
  conversationId : Uuid
  tenantId : Uuid
  teamId : Uuid

/-- A conversation has one team at most. -/
instance : Keyed ConversationTeamAssignment Uuid where
  keys r := [r.conversationId]

/-- The conversation of one contact with one sender. Source: `model Conversation`. -/
structure Conversation where
  id : Uuid
  tenantId : Uuid
  contactId : Uuid
  senderId : Uuid
  assignedAgentId : Option Uuid
  status : ConversationStatus
  priority : ConversationPriority
  unreadCount : ℕ
  lastMessageAt : Time
  lastInboundAt : Option Time
  lastOutboundAt : Option Time
  resolvedAt : Option Time
  responseSlaStartedAt : Option Time
  responseSlaDueAt : Option Time
  responseSlaRespondedAt : Option Time
  responseSlaEscalatedAt : Option Time
  deriving DecidableEq

/-- The unique columns of a conversation. -/
inductive ConversationKey where
  | id (id : Uuid)
  | participants (tenantId senderId contactId : Uuid)
  deriving DecidableEq

/-- A conversation is known by its id, and by its contact and phone number. -/
instance : Keyed Conversation ConversationKey where
  keys r := [.id r.id, .participants r.tenantId r.senderId r.contactId]

/-! ## Messages, outbox and webhook events -/

/-- A message in either direction. Source: `model Message`. -/
structure Message where
  id : Uuid
  tenantId : Option Uuid
  senderId : Option Uuid
  conversationId : Option Uuid
  direction : MessageDirection
  trafficClass : MessageTrafficClass
  type : MessageType
  status : MessageStatus
  to_ : Option String
  from_ : Option String
  providerMessageId : Option String
  providerTimestamp : Option Time
  idempotencyKey : Option String
  payload : Json
  providerResponse : Option Json
  errorCode : Option String
  errorMessage : Option String
  attemptCount : ℕ
  lastAttemptAt : Option Time
  processingLeaseUntil : Option Time
  submittedAt : Option Time
  sentAt : Option Time
  deliveredAt : Option Time
  readAt : Option Time
  failedAt : Option Time

/-- The unique columns of a message. -/
inductive MessageKey where
  | id (id : Uuid)
  | providerMessageId (value : String)
  | idempotencyKey (tenantId : Uuid) (value : String)
  deriving DecidableEq

/-- A message is known by its id, by the id of the provider and by its idempotency key. -/
instance : Keyed Message MessageKey where
  keys r := .id r.id :: ((r.providerMessageId.map MessageKey.providerMessageId).toList ++
    (r.tenantId.bind fun tenant => r.idempotencyKey.map (MessageKey.idempotencyKey tenant)).toList)

/-- Only the message with the id has it. -/
@[simp] theorem mem_keys_id {r : Message} {i : Uuid} :
    MessageKey.id i ∈ Keyed.keys r ↔ r.id = i := by
  simp [Keyed.keys, Option.bind_eq_some_iff]
  exact eq_comm

/-- The id of the provider is a key if there is one. -/
@[simp] theorem mem_keys_providerMessageId {r : Message} {p : String} :
    MessageKey.providerMessageId p ∈ Keyed.keys r ↔ r.providerMessageId = some p := by
  simp [Keyed.keys, Option.bind_eq_some_iff]

/-- The idempotency key is one within the tenant, if there is one. -/
@[simp] theorem mem_keys_idempotencyKey {r : Message} {t : Uuid} {k : String} :
    MessageKey.idempotencyKey t k ∈ Keyed.keys r ↔
      r.tenantId = some t ∧ r.idempotencyKey = some k := by
  simp [Keyed.keys, Option.bind_eq_some_iff]

/-- One line of a message's status history, without its free-form payload.
Source: `model MessageStatusEvent`. -/
structure MessageStatusEvent where
  messageId : Uuid
  status : MessageStatus
  createdAt : Time
  deriving DecidableEq

/-- The outbox payload, as `extractMessageId` and `extractTrafficClass` read it back. -/
structure OutboxPayload where
  messageId : Option Uuid
  trafficClass : Option MessageTrafficClass
  deriving DecidableEq

/-- A pending or published outbox event. Source: `model OutboxEvent`. -/
structure OutboxEvent where
  id : Uuid
  aggregateType : String
  aggregateId : Uuid
  eventType : String
  payload : OutboxPayload
  attempts : ℕ
  nextAttemptAt : Time
  processingLeaseUntil : Option Time
  lastError : Option String
  publishedAt : Option Time
  deriving DecidableEq

/-- An outbox event is known by its id. -/
instance : Keyed OutboxEvent Uuid where
  keys r := [r.id]

/-- A stored provider webhook. Source: `model WebhookEvent`. -/
structure WebhookEvent where
  id : Uuid
  payload : Json
  processed : Bool
  attemptCount : ℕ
  nextAttemptAt : Time
  processingLeaseUntil : Option Time
  lastError : Option String
  processedAt : Option Time

/-- A webhook event is known by its id. -/
instance : Keyed WebhookEvent Uuid where
  keys r := [r.id]

/-! ## Campaigns -/

/-- A marketing campaign. Source: `model Campaign`. -/
structure Campaign where
  id : Uuid
  tenantId : Uuid
  senderId : Uuid
  templateId : Uuid
  status : CampaignStatus
  audience : Json
  components : Option Json
  personalizationEnabled : Bool
  scheduledAt : Option Time
  snapshotAt : Option Time
  startedAt : Option Time
  completedAt : Option Time
  cancelledAt : Option Time
  failureReason : Option String
  totalRecipients : ℕ
  queuedRecipients : ℕ
  skippedRecipients : ℕ
  failedRecipients : ℕ
  cancelledRecipients : ℕ

/-- A campaign is known by its id. -/
instance : Keyed Campaign Uuid where
  keys r := [r.id]

/-- One contact of a launched campaign. Source: `model CampaignRecipient`. -/
structure CampaignRecipient where
  id : Uuid
  campaignId : Uuid
  contactId : Uuid
  messageId : Option Uuid
  status : CampaignRecipientStatus
  attemptCount : ℕ
  nextAttemptAt : Time
  processingLeaseUntil : Option Time
  lastError : Option String
  queuedAt : Option Time
  deriving DecidableEq

/-- The unique columns of a recipient. -/
inductive RecipientKey where
  | id (id : Uuid)
  | messageId (id : Uuid)
  | campaignContact (campaignId contactId : Uuid)
  deriving DecidableEq

/-- A recipient is known by its id, by its contact within the campaign, and by its message. -/
instance : Keyed CampaignRecipient RecipientKey where
  keys r := .id r.id :: .campaignContact r.campaignId r.contactId ::
    (r.messageId.map RecipientKey.messageId).toList

/-! ## The database -/

/-- All tables. -/
structure Db where
  phoneNumbers : Table WhatsAppPhoneNumber
  templates : Table MessageTemplate
  contacts : Table Contact
  /-- The last one recorded first. -/
  consentEvents : List ContactConsentEvent
  inboxAgents : Table InboxAgent
  inboxTeams : Table InboxTeam
  teamMembers : Table InboxTeamMember
  inboxSkills : Table InboxSkill
  agentSkills : Table InboxAgentSkill
  skillRequirements : Table ConversationSkillRequirement
  teamAssignments : Table ConversationTeamAssignment
  conversations : Table Conversation
  messages : Table Message
  statusEvents : List MessageStatusEvent
  outboxEvents : Table OutboxEvent
  webhookEvents : Table WebhookEvent
  campaigns : Table Campaign
  recipients : Table CampaignRecipient

/-- The database after the migrations, before the first row. -/
def Db.empty : Db where
  phoneNumbers := .empty
  templates := .empty
  contacts := .empty
  consentEvents := []
  inboxAgents := .empty
  inboxTeams := .empty
  teamMembers := .empty
  inboxSkills := .empty
  agentSkills := .empty
  skillRequirements := .empty
  teamAssignments := .empty
  conversations := .empty
  messages := .empty
  statusEvents := []
  outboxEvents := .empty
  webhookEvents := .empty
  campaigns := .empty
  recipients := .empty

/-- The row of a message. -/
def Db.message (db : Db) (id : Uuid) : Option Message := db.messages.find (.id id)

/-- How a call to the database or the broker ended. A write may have taken effect although its
caller sees an error (the connection broke after the commit or before the confirmation). -/
inductive CallOutcome where
  /-- It took effect and returned. -/
  | returned
  /-- It threw and had no effect. -/
  | failed (error : String)
  /-- It took effect and threw. -/
  | interrupted (error : String)
  deriving DecidableEq, Repr

/-- Whether the call took effect. -/
def CallOutcome.tookEffect : CallOutcome → Bool
  | returned => true
  | failed _ => false
  | interrupted _ => true

end ApiWhatsApp
