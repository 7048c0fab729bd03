import ApiWhatsApp.Inbox.ConversationActivity
import ApiWhatsApp.Library.Machine

/-!
# `MessagesService.create`

One call of `create` as a state machine that stops at each `await` of the source: the idempotency
pre-check, the outbound policy, the sender, the template, the transaction and the fallback read.
Between two steps of a call anything else may happen to the database.

* `assertAllowed`, `resolveForTenant`, `assertApproved`, `deriveTrafficClass` and
  `normalizePhoneNumber` are the validators. `normalizeMediaPayload` is a parameter of the model
  (it needs a URL parser); everything below holds for every such function.
* `Db.commitCreate` is the transaction: the conversation upsert, the message and its outbox event,
  all or nothing.
* **`CreateCall.step_db`** says what a step of a call can do to the database: nothing, or one
  `commitCreate` of its own draft; `Reads` says what a read leads to, and **`Faithful.step`** that the
  draft is what the call was called with.
-/

namespace ApiWhatsApp

open Library

/-- The exceptions a service call ends with. -/
inductive HttpError where
  | badRequest (message : String)
  | forbidden (message : String)
  | unprocessable (message : String)
  | conflict (message : String)
  | notFound (message : String)
  | other (message : String)
  deriving DecidableEq, Repr

/-- `error.message`. -/
def HttpError.message : HttpError → String
  | .badRequest message | .forbidden message | .unprocessable message | .conflict message
  | .notFound message | .other message => message

/-- Source: `enum OutboundMessageType`. -/
inductive OutboundMessageType where
  | text
  | template
  | image
  | video
  | audio
  | document
  deriving DecidableEq, Repr

/-- Source: `CreateMessageDto`. -/
structure CreateMessageDto where
  to_ : String
  type : OutboundMessageType
  senderId : Option Uuid
  payload : Json
  idempotencyKey : Option String

/-- The key when `if (dto.idempotencyKey)` takes it as given: present and not empty. -/
def CreateMessageDto.givenKey (dto : CreateMessageDto) : Option String :=
  dto.idempotencyKey.filter fun key => key ≠ ""

/-- A key is given just when there is one that is not empty. -/
theorem CreateMessageDto.givenKey_eq_some_iff {dto : CreateMessageDto} {key : String} :
    dto.givenKey = some key ↔ dto.idempotencyKey = some key ∧ key ≠ "" := by
  simp [givenKey, Option.filter_eq_some_iff]

/-! ## The validators -/

/-- Source: `mapType` in `messages.service.ts`. -/
def mapType : OutboundMessageType → MessageType
  | .text => .text
  | .template => .template
  | .image => .image
  | .video => .video
  | .audio => .audio
  | .document => .document

/-- Source: `isMediaMessageType` in `media-payload.util.ts`. -/
def isMediaMessageType : OutboundMessageType → Bool
  | .image | .video | .audio | .document => true
  | .text | .template => false

/-- Source: `traffic-class.util.ts`. -/
def deriveTrafficClass (messageType : MessageType) (templateCategory : Option String) :
    MessageTrafficClass :=
  if messageType ≠ .template then .transactional else
  match templateCategory.map fun category => toUpperCase (trim category) with
  | some category =>
      if category = "AUTHENTICATION" then .otp
      else if category = "MARKETING" then .marketing
      else .transactional
  | none => .transactional

/-- The `E164_DIGITS` pattern: a digit from 1 to 9, then 7 to 14 digits. -/
def isE164 (text : String) : Bool :=
  match text.toList with
  | [] => false
  | c :: cs => c.isDigit && c ≠ '0' && cs.all Char.isDigit && 7 ≤ cs.length && cs.length ≤ 14

/-- Source: `contacts/phone.util.ts`. -/
def normalizePhoneNumber (value : String) : Except HttpError String :=
  let trimmed := trim value
  let normalized := match trimmed.toList with
    | '+' :: rest => String.ofList rest
    | _ => trimmed
  if isE164 normalized then .ok normalized
  else .error (.badRequest "Phone number must be in E.164 format")

/-- Source: `outbound-policy.service.ts`. -/
def Db.assertAllowed (db : Db) (now : Time) (tenantId : Uuid) (to_ : String)
    (type : OutboundMessageType) : Except HttpError Unit := do
  let phone ← normalizePhoneNumber to_
  let contact := db.contacts.find (.tenantPhone tenantId phone)
  if type = .template then
    if contact.map Contact.consentStatus ≠ some .optedIn then
      throw (.forbidden "Template messages require explicit contact opt-in")
  else if !(contact.bind Contact.serviceWindowExpiresAt).any (now < ·) then
    throw (.forbidden "Free-form messages require an open 24-hour customer service window")

/-- The active sender that `ORDER BY isDefault DESC, createdAt ASC` puts first. -/
def Db.defaultSender (db : Db) (tenantId : Uuid) : Option WhatsAppPhoneNumber :=
  let active := db.phoneNumbers.rows.filter fun r => r.tenantId = tenantId && r.active
  let defaults := active.filter WhatsAppPhoneNumber.isDefault
  (if defaults.isEmpty then active else defaults).foldl
    (fun best r => match best with
      | none => some r
      | some b => if r.createdAt < b.createdAt then some r else some b) none

/-- Source: `resolveForTenant` in `phone-numbers.service.ts`. -/
def Db.resolveForTenant (db : Db) (tenantId : Uuid) (senderId : Option Uuid) :
    Except HttpError WhatsAppPhoneNumber :=
  let sender := match senderId with
    | some id => (db.phoneNumbers.find (.id id)).filter fun r => r.tenantId = tenantId && r.active
    | none => db.defaultSender tenantId
  match sender with
  | some sender => .ok sender
  | none => .error (.unprocessable "No active WhatsApp sender is configured for this tenant")

/-- A field that is a string with something other than white space in it, trimmed. -/
def nonBlankField (payload : Json) (key : String) : Option String :=
  ((payload.get? key).bind Json.string?).bind fun text =>
    if trim text = "" then none else some (trim text)

/-- Source: `extractTemplateIdentity` in `templates.service.ts`. -/
def extractTemplateIdentity (payload : Json) : Except HttpError (String × String) :=
  match payload with
  | .obj _ =>
      match nonBlankField payload "name" with
      | none => .error (.unprocessable "Template message payload requires a non-empty name")
      | some name =>
          match nonBlankField payload "language" with
          | none => .error (.unprocessable "Template message payload requires a non-empty language")
          | some language => .ok (name, language)
  | _ => .error (.unprocessable "Template message payload must be an object")

/-- Source: `assertApproved` in `templates.service.ts`. -/
def Db.assertApproved (db : Db) (tenantId : Uuid) (wabaId : String) (payload : Json) :
    Except HttpError MessageTemplate := do
  let (name, language) ← extractTemplateIdentity payload
  match (db.templates.find (.identity tenantId wabaId name language)).filter
      fun template => template.status = "APPROVED" with
  | some template => .ok template
  | none => .error (.unprocessable
      s!"Template {name}/{language} is not synced and APPROVED for WABA {wabaId}")

/-! ## The transaction -/

/-- What a call has settled before it opens its transaction. -/
structure MessageDraft where
  senderId : Uuid
  to_ : String
  type : MessageType
  trafficClass : MessageTrafficClass
  payload : Json
  acceptedAt : Time

/-- The identifiers that one transaction draws. -/
structure CreateIds where
  messageId : Uuid
  eventId : Uuid
  conversationId : Uuid
  deriving DecidableEq

/-- Source: `OUTBOUND_REQUESTED_EVENT`. -/
def outboundRequestedEvent : String := "message.outbound.requested"

/-- The row that `transaction.message.create` inserts. -/
def MessageDraft.message (draft : MessageDraft) (ids : CreateIds) (tenantId : Uuid)
    (idempotencyKey : Option String) (conversationId : Option Uuid) : Message where
  id := ids.messageId
  tenantId := some tenantId
  senderId := some draft.senderId
  conversationId := conversationId
  direction := .outbound
  trafficClass := draft.trafficClass
  type := draft.type
  status := .queued
  to_ := some draft.to_
  from_ := none
  providerMessageId := none
  providerTimestamp := none
  idempotencyKey := idempotencyKey
  payload := draft.payload
  providerResponse := none
  errorCode := none
  errorMessage := none
  attemptCount := 0
  lastAttemptAt := none
  processingLeaseUntil := none
  submittedAt := none
  sentAt := none
  deliveredAt := none
  readAt := none
  failedAt := none

/-- The row that `transaction.outboxEvent.create` inserts. -/
def MessageDraft.outboxEvent (draft : MessageDraft) (ids : CreateIds) (now : Time) :
    OutboxEvent where
  id := ids.eventId
  aggregateType := "Message"
  aggregateId := ids.messageId
  eventType := outboundRequestedEvent
  payload := { messageId := some ids.messageId, trafficClass := some draft.trafficClass }
  attempts := 0
  nextAttemptAt := now
  processingLeaseUntil := none
  lastError := none
  publishedAt := none

/-- The transaction of `create`, all or nothing: `none` is a unique violation. -/
def Db.commitCreate (db : Db) (now : Time) (tenantId : Uuid) (idempotencyKey : Option String)
    (draft : MessageDraft) (ids : CreateIds) : Option (Db × Message) := do
  let (db, conversationId) ← db.recordOutbound ids.conversationId
    { tenantId := tenantId, senderId := draft.senderId, phone := draft.to_,
      messageType := draft.type, occurredAt := draft.acceptedAt }
  let message := draft.message ids tenantId idempotencyKey conversationId
  let messages ← db.messages.insert? message
  let outboxEvents ← db.outboxEvents.insert? (draft.outboxEvent ids now)
  let event : MessageStatusEvent := { messageId := message.id, status := .queued, createdAt := now }
  some ({ db with
    messages := messages
    outboxEvents := outboxEvents
    statusEvents := event :: db.statusEvents }, message)

/-- What a committed transaction leaves: the new message in front, one outbox event for it, and a
change of the conversations. -/
theorem Db.commitCreate_spec {db db' : Db} {now : Time} {tenantId : Uuid} {key : Option String}
    {draft : MessageDraft} {ids : CreateIds} {m : Message}
    (h : db.commitCreate now tenantId key draft ids = some (db', m)) :
    (∃ c, m = draft.message ids tenantId key c) ∧
      db.messages.insert? m = some db'.messages ∧
      db.outboxEvents.insert? (draft.outboxEvent ids now) = some db'.outboxEvents := by
  unfold Db.commitCreate at h
  obtain ⟨⟨db₁, c⟩, hconv, h⟩ := Option.bind_eq_some_iff.mp h
  obtain ⟨cs, rfl⟩ := Db.recordOutbound_frame hconv
  obtain ⟨messages, hmessages, h⟩ := Option.bind_eq_some_iff.mp h
  obtain ⟨events, hevents, h⟩ := Option.bind_eq_some_iff.mp h
  cases h
  exact ⟨⟨c, rfl⟩, hmessages, hevents⟩

/-- The other tables are left alone. -/
theorem Db.commitCreate_frame {db db' : Db} {now : Time} {tenantId : Uuid} {key : Option String}
    {draft : MessageDraft} {ids : CreateIds} {m : Message}
    (h : db.commitCreate now tenantId key draft ids = some (db', m)) :
    ∃ conversations messages outboxEvents statusEvents,
      db' = { db with
        conversations := conversations
        messages := messages
        outboxEvents := outboxEvents
        statusEvents := statusEvents } := by
  unfold Db.commitCreate at h
  obtain ⟨⟨db₁, c⟩, hconv, h⟩ := Option.bind_eq_some_iff.mp h
  obtain ⟨cs, rfl⟩ := Db.recordOutbound_frame hconv
  obtain ⟨messages, -, h⟩ := Option.bind_eq_some_iff.mp h
  obtain ⟨events, -, h⟩ := Option.bind_eq_some_iff.mp h
  cases h
  exact ⟨cs, messages, events, _, rfl⟩

/-! ## One call -/

/-- Where a call of `create` stands. -/
inductive CreateStage where
  | precheck
  | policy
  | sender (normalizedTo : String)
  | template (normalizedTo : String) (sender : WhatsAppPhoneNumber) (wabaId : String)
  | transact (draft : MessageDraft)
  | fallback
  | returned (message : Message)
  | thrown (error : HttpError)
  | crashed

/-- A call of `create(tenantId, dto)`. -/
structure CreateCall where
  tenantId : Uuid
  dto : CreateMessageDto
  stage : CreateStage

/-- What the environment decides for one step of a call. -/
inductive CreateAct where
  /-- The pending read or transaction ends; `ids` are drawn by the transaction. -/
  | call (outcome : CallOutcome) (ids : CreateIds)
  /-- The process dies. -/
  | crash

/-- The stages before the transaction has ended: only from these can a call still commit. -/
def CreateStage.isOpen : CreateStage → Bool
  | precheck | policy | sender _ | template _ _ _ | transact _ => true
  | fallback | returned _ | thrown _ | crashed => false

namespace CreateCall

/-- A fresh call: the pre-check is made only under a key. -/
def begin (tenantId : Uuid) (dto : CreateMessageDto) : CreateCall where
  tenantId := tenantId
  dto := dto
  stage := if dto.givenKey.isSome then .precheck else .policy

/-- `findFirst({ where: { tenantId, idempotencyKey } })`. -/
def existing (db : Db) (call : CreateCall) : Option Message :=
  call.dto.givenKey.bind fun key => db.messages.find (.idempotencyKey call.tenantId key)

/-- The `catch` block: re-read under a key, otherwise throw. -/
def afterError (call : CreateCall) : CreateCall :=
  { call with stage :=
      if call.dto.givenKey.isSome then .fallback
      else .thrown (.conflict "Unable to create outbound message") }

/-- The rest of the validation once the sender is known: media payload, WABA, template. -/
def afterSender (normalizeMediaPayload : OutboundMessageType → Json → Except String Json)
    (now : Time) (call : CreateCall) (normalizedTo : String) (sender : WhatsAppPhoneNumber) :
    CreateStage :=
  let draft (payload : Json) : MessageDraft :=
    { senderId := sender.id, to_ := normalizedTo, type := mapType call.dto.type,
      trafficClass := deriveTrafficClass (mapType call.dto.type) none, payload := payload,
      acceptedAt := now }
  if isMediaMessageType call.dto.type then
    match normalizeMediaPayload call.dto.type call.dto.payload with
    | .ok payload => .transact (draft payload)
    | .error message => .thrown (.badRequest message)
  else if call.dto.type = .template then
    match sender.wabaId.filter fun wabaId => wabaId ≠ "" with
    | some wabaId => .template normalizedTo sender wabaId
    | none => .thrown (.unprocessable "The selected WhatsApp sender is missing its WABA ID")
  else .transact (draft call.dto.payload)

/-- The stage that the policy check leads to. -/
def afterPolicy (db : Db) (now : Time) (call : CreateCall) : CreateStage :=
  match db.assertAllowed now call.tenantId call.dto.to_ call.dto.type,
      normalizePhoneNumber call.dto.to_ with
  | .ok _, .ok normalizedTo => .sender normalizedTo
  | .error error, _ => .thrown error
  | .ok _, .error error => .thrown error

/-- The stage that the template check leads to. -/
def afterTemplate (db : Db) (now : Time) (call : CreateCall) (normalizedTo : String)
    (sender : WhatsAppPhoneNumber) (wabaId : String) : CreateStage :=
  match db.assertApproved call.tenantId wabaId call.dto.payload with
  | .error error => .thrown error
  | .ok template => .transact
      { senderId := sender.id, to_ := normalizedTo, type := mapType call.dto.type,
        trafficClass := deriveTrafficClass (mapType call.dto.type) template.category,
        payload := call.dto.payload, acceptedAt := now }

/-- The stage that a read of the database leads to. `none`: the call is not at a read. -/
def afterRead (normalizeMediaPayload : OutboundMessageType → Json → Except String Json) (db : Db)
    (now : Time) (call : CreateCall) : Option CreateStage :=
  match call.stage with
  | .precheck => some (((existing db call).map CreateStage.returned).getD .policy)
  | .policy => some (afterPolicy db now call)
  | .sender normalizedTo => some <|
      match db.resolveForTenant call.tenantId call.dto.senderId with
      | .ok sender => afterSender normalizeMediaPayload now call normalizedTo sender
      | .error error => .thrown error
  | .template normalizedTo sender wabaId =>
      some (afterTemplate db now call normalizedTo sender wabaId)
  | .fallback => some (((existing db call).map CreateStage.returned).getD
      (.thrown (.conflict "Unable to create outbound message")))
  | .transact _ | .returned _ | .thrown _ | .crashed => none

/-- One step of a call, up to its next `await`. -/
def step (normalizeMediaPayload : OutboundMessageType → Json → Except String Json) (db : Db)
    (now : Time) (call : CreateCall) : CreateAct → Option (Db × CreateCall)
  | .crash =>
      match call.stage with
      | .returned _ | .thrown _ | .crashed => none
      | _ => some (db, { call with stage := .crashed })
  | .call outcome ids =>
      match call.stage with
      | .transact draft =>
          -- A unique violation is an enabled `failed`, never a `returned`.
          match outcome with
          | .failed _ => some (db, call.afterError)
          | .interrupted _ =>
              (db.commitCreate now call.tenantId call.dto.idempotencyKey draft ids).map
                fun (db', _) => (db', call.afterError)
          | .returned =>
              (db.commitCreate now call.tenantId call.dto.idempotencyKey draft ids).map
                fun (db', message) => (db', { call with stage := .returned message })
      | _ =>
          match outcome, afterRead normalizeMediaPayload db now call with
          | .returned, some stage => some (db, { call with stage := stage })
          | .failed error, some _ => some (db, { call with stage := .thrown (.other error) })
          | _, _ => none

/-- After a throwing transaction a call never commits again. -/
theorem isOpen_afterError (call : CreateCall) : call.afterError.stage.isOpen = false := by
  unfold afterError
  split_ifs <;> rfl

/-! ### Reads -/

/-- The draft of a call to a number: of the call's type, from its sender, and with its payload unless
that is media. -/
structure Drafts (call : CreateCall) (normalizedTo : String) (draft : MessageDraft) : Prop where
  to_ : draft.to_ = normalizedTo
  type : draft.type = mapType call.dto.type
  sender : ∀ id, call.dto.senderId = some id → draft.senderId = id
  payload : isMediaMessageType call.dto.type = false → draft.payload = call.dto.payload

/-- What a read of the database leads to. -/
inductive Reads (db : Db) (now : Time) (call : CreateCall) : CreateStage → Prop where
  | found (message : Message) (h : existing db call = some message) :
      Reads db now call (.returned message)
  | unknown (hstage : call.stage = .precheck) : Reads db now call .policy
  | allowed (normalizedTo : String) (hstage : call.stage = .policy)
      (h : db.assertAllowed now call.tenantId call.dto.to_ call.dto.type = .ok ())
      (hto : normalizePhoneNumber call.dto.to_ = .ok normalizedTo) :
      Reads db now call (.sender normalizedTo)
  | resolved (normalizedTo : String) (sender : WhatsAppPhoneNumber) (wabaId : String)
      (hstage : call.stage = .sender normalizedTo)
      (hsender : ∀ id, call.dto.senderId = some id → sender.id = id) :
      Reads db now call (.template normalizedTo sender wabaId)
  | drafted (normalizedTo : String) (draft : MessageDraft)
      (hstage : call.stage = .sender normalizedTo) (h : call.Drafts normalizedTo draft) :
      Reads db now call (.transact draft)
  | approved (normalizedTo : String) (sender : WhatsAppPhoneNumber) (wabaId : String)
      (template : MessageTemplate) (hstage : call.stage = .template normalizedTo sender wabaId) :
      Reads db now call (.transact
        { senderId := sender.id, to_ := normalizedTo, type := mapType call.dto.type,
          trafficClass := deriveTrafficClass (mapType call.dto.type) template.category,
          payload := call.dto.payload, acceptedAt := now })
  | thrown (error : HttpError) : Reads db now call (.thrown error)

/-- A named sender is the one that is resolved. -/
theorem id_of_resolveForTenant {db : Db} {tenantId id : Uuid} {sender : WhatsAppPhoneNumber}
    (h : db.resolveForTenant tenantId (some id) = .ok sender) : sender.id = id := by
  simp only [Db.resolveForTenant] at h
  split at h
  · rename_i r hr
    cases h
    obtain ⟨hfind, -⟩ := Option.filter_eq_some_iff.mp hr
    have hkey := (db.phoneNumbers.find_eq_some_iff.mp hfind).2
    simpa [Keyed.keys, eq_comm] using hkey
  · cases h

/-- What was read when the sender was chosen. -/
theorem reads_afterSender
    (normalizeMediaPayload : OutboundMessageType → Json → Except String Json) (db : Db) (now : Time)
    (call : CreateCall) {normalizedTo : String} {sender : WhatsAppPhoneNumber}
    (hstage : call.stage = .sender normalizedTo)
    (hsender : ∀ id, call.dto.senderId = some id → sender.id = id) :
    Reads db now call (afterSender normalizeMediaPayload now call normalizedTo sender) := by
  unfold afterSender
  split_ifs with hmedia htemplate
  · split
    · exact .drafted normalizedTo _ hstage ⟨rfl, rfl, hsender, by simp [hmedia]⟩
    · exact .thrown _
  · split
    · exact .resolved normalizedTo sender _ hstage hsender
    · exact .thrown _
  · exact .drafted normalizedTo _ hstage ⟨rfl, rfl, hsender, fun _ => rfl⟩

/-- What was read when the message was drafted. -/
theorem reads_of_afterRead {normalizeMediaPayload : OutboundMessageType → Json → Except String Json}
    {db : Db} {now : Time} {call : CreateCall} {stage : CreateStage}
    (h : afterRead normalizeMediaPayload db now call = some stage) : Reads db now call stage := by
  unfold afterRead at h
  split at h
  case h_1 hstage =>
    cases h
    rcases hfound : existing db call with _ | m
    · exact .unknown hstage
    · exact .found m hfound
  case h_2 hstage =>
    obtain rfl := Option.some.inj h
    unfold afterPolicy
    split
    · rename_i normalizedTo hallowed hto
      exact .allowed normalizedTo hstage hallowed hto
    · exact .thrown _
    · exact .thrown _
  case h_3 normalizedTo hstage =>
    cases h
    split
    · rename_i sender hsender
      refine reads_afterSender normalizeMediaPayload db now call hstage fun id hid => ?_
      rw [hid] at hsender
      exact id_of_resolveForTenant hsender
    · exact .thrown _
  case h_4 normalizedTo sender wabaId hstage =>
    cases h
    unfold afterTemplate
    split
    · exact .thrown _
    · exact .approved normalizedTo sender wabaId _ hstage
  case h_5 hstage =>
    cases h
    rcases hfound : existing db call with _ | m
    · exact .thrown _
    · exact .found m hfound
  all_goals cases h

/-- A message that a read returns is the one stored under the call's key; and a read never takes a
call back before its transaction. -/
theorem afterRead_spec {normalizeMediaPayload : OutboundMessageType → Json → Except String Json}
    {db : Db} {now : Time} {call : CreateCall} {stage : CreateStage}
    (h : afterRead normalizeMediaPayload db now call = some stage) :
    (∀ m, stage = .returned m → existing db call = some m) ∧
      (stage.isOpen = true → call.stage.isOpen = true) := by
  cases reads_of_afterRead h with
  | found message hfound =>
      refine ⟨?_, fun hopen => by cases hopen⟩
      rintro _ ⟨⟩
      exact hfound
  | thrown error => exact ⟨by simp, fun hopen => by cases hopen⟩
  | unknown hstage | allowed _ hstage _ _ | resolved _ _ _ hstage _ | drafted _ _ hstage _
  | approved _ _ _ _ hstage => exact ⟨by simp, fun _ => by rw [hstage]; rfl⟩

/-! ### Steps -/

/-- The draft and identifiers of the transaction that a step commits. -/
def commits (call : CreateCall) : CreateAct → Option (MessageDraft × CreateIds)
  | .crash => none
  | .call outcome ids =>
      match call.stage with
      | .transact draft => if outcome.tookEffect then some (draft, ids) else none
      | _ => none

/-- What commits has a draft. -/
theorem stage_of_commits {call : CreateCall} {act : CreateAct} {draft : MessageDraft}
    {ids : CreateIds} (h : call.commits act = some (draft, ids)) : call.stage = .transact draft := by
  cases act with
  | crash => cases h
  | call outcome ids =>
      simp only [commits] at h
      split at h
      · split_ifs at h
        cases h
        assumption
      · cases h

/-- **What a step of a call can do.** It leaves the database alone, and returns only the message
stored under its key; or it commits its own draft, once: it was open and is so no longer. -/
theorem step_db {normalizeMediaPayload : OutboundMessageType → Json → Except String Json}
    {db db' : Db} {now : Time} {call call' : CreateCall} {act : CreateAct}
    (h : step normalizeMediaPayload db now call act = some (db', call')) :
    (call'.tenantId = call.tenantId ∧ call'.dto = call.dto) ∧
      ((commits call act = none ∧ db' = db ∧
          (∀ m, call'.stage = .returned m → existing db call = some m) ∧
          (call'.stage.isOpen = true → call.stage.isOpen = true)) ∨
        ∃ draft ids m, commits call act = some (draft, ids) ∧
          db.commitCreate now call.tenantId call.dto.idempotencyKey draft ids = some (db', m) ∧
          call.stage.isOpen = true ∧ call'.stage.isOpen = false ∧
          ∀ m', call'.stage = .returned m' → m' = m) := by
  have herror : ∀ m, call.afterError.stage ≠ .returned m := fun m => by
    unfold afterError
    split_ifs <;> simp
  cases act with
  | crash =>
      simp only [step] at h
      split at h <;> cases h
      exact ⟨⟨rfl, rfl⟩, .inl ⟨rfl, rfl, fun m hm => by simp at hm, fun ho => by cases ho⟩⟩
  | call outcome ids =>
      simp only [step] at h
      split at h
      case h_1 draft hstage =>
        have hopen : call.stage.isOpen = true := by rw [hstage]; rfl
        cases outcome with
        | failed e =>
            cases h
            refine ⟨⟨rfl, rfl⟩, .inl ⟨?_, rfl, fun m hm => absurd hm (herror m), fun _ => hopen⟩⟩
            simp only [commits, hstage, CallOutcome.tookEffect, Bool.false_eq_true, if_false]
        | interrupted e =>
            obtain ⟨⟨db₁, m⟩, hcommit, heq⟩ := Option.map_eq_some_iff.mp h
            cases heq
            refine ⟨⟨rfl, rfl⟩, .inr ⟨draft, ids, m, ?_, hcommit, hopen, isOpen_afterError call,
              fun m' hm' => absurd hm' (herror m')⟩⟩
            simp only [commits, hstage, CallOutcome.tookEffect, if_true]
        | returned =>
            obtain ⟨⟨db₁, m⟩, hcommit, heq⟩ := Option.map_eq_some_iff.mp h
            cases heq
            refine ⟨⟨rfl, rfl⟩, .inr ⟨draft, ids, m, ?_, hcommit, hopen, rfl,
              fun m' hm' => (CreateStage.returned.inj hm').symm⟩⟩
            simp only [commits, hstage, CallOutcome.tookEffect, if_true]
      case h_2 hstage =>
        have hnone : commits call (.call outcome ids) = none := by
          simp only [commits]
        split at h <;> cases h
        case h_1 stage hread =>
          exact ⟨⟨rfl, rfl⟩, .inl ⟨hnone, rfl, afterRead_spec hread⟩⟩
        case h_2 =>
          exact ⟨⟨rfl, rfl⟩,
            .inl ⟨hnone, rfl, fun m hm => by simp at hm, fun ho => by cases ho⟩⟩

/-! ### What a draft is made of -/

/-- The stage that a step leads to: of a read, or one from which a call never commits. -/
theorem stage_of_step {normalizeMediaPayload : OutboundMessageType → Json → Except String Json}
    {db db' : Db} {now : Time} {call call' : CreateCall} {act : CreateAct}
    (h : step normalizeMediaPayload db now call act = some (db', call')) :
    Reads db now call call'.stage ∨ call'.stage.isOpen = false := by
  cases act with
  | crash =>
      simp only [step] at h
      split at h <;> cases h
      exact .inr rfl
  | call outcome ids =>
      simp only [step] at h
      split at h
      · right
        cases outcome with
        | failed e =>
            cases h
            exact isOpen_afterError call
        | interrupted e =>
            obtain ⟨_, -, heq⟩ := Option.map_eq_some_iff.mp h
            cases heq
            exact isOpen_afterError call
        | returned =>
            obtain ⟨_, -, heq⟩ := Option.map_eq_some_iff.mp h
            cases heq
            rfl
      · split at h <;> cases h
        · exact .inl (reads_of_afterRead ‹_›)
        · exact .inr rfl

/-- The number that a call has settled. -/
def settled (call : CreateCall) : Option String :=
  match call.stage with
  | .sender normalizedTo | .template normalizedTo _ _ => some normalizedTo
  | .transact draft => some draft.to_
  | _ => none

/-- What a call has settled is what it was called with. -/
structure Faithful (call : CreateCall) : Prop where
  number : ∀ normalizedTo, call.settled = some normalizedTo →
    normalizePhoneNumber call.dto.to_ = .ok normalizedTo
  sender : ∀ normalizedTo sender wabaId, call.stage = .template normalizedTo sender wabaId →
    ∀ id, call.dto.senderId = some id → sender.id = id
  draft : ∀ draft, call.stage = .transact draft → call.Drafts draft.to_ draft

/-- A call that is over is faithful. -/
theorem Faithful.of_isOpen {call : CreateCall} (h : call.stage.isOpen = false) : Faithful call := by
  obtain ⟨tenantId, dto, stage⟩ := call
  cases stage with
  | fallback | returned _ | thrown _ | crashed => exact ⟨by simp [settled], by simp, by simp⟩
  | _ => cases h

/-- A new call is faithful. -/
theorem faithful_begin (tenantId : Uuid) (dto : CreateMessageDto) : Faithful (begin tenantId dto) := by
  unfold begin
  split_ifs <;> exact ⟨by simp [settled], by simp, by simp⟩

/-- A call keeps to what it was called with. -/
theorem Faithful.step {normalizeMediaPayload : OutboundMessageType → Json → Except String Json}
    {db db' : Db} {now : Time} {call call' : CreateCall} {act : CreateAct} (hcall : Faithful call)
    (h : step normalizeMediaPayload db now call act = some (db', call')) : Faithful call' := by
  obtain ⟨⟨-, hdto⟩, -⟩ := step_db h
  rcases stage_of_step h with hreads | hclosed
  · obtain ⟨tenantId', dto', stage'⟩ := call'
    cases hdto
    cases hreads with
    | found _ _ | unknown _ | thrown _ => exact ⟨by simp [settled], by simp, by simp⟩
    | allowed normalizedTo hstage hallowed hto =>
        refine ⟨?_, by simp, by simp⟩
        rintro _ ⟨⟩
        exact hto
    | resolved normalizedTo sender wabaId hstage hsender =>
        refine ⟨?_, ?_, by simp⟩
        · rintro _ ⟨⟩
          exact hcall.number normalizedTo (by simp [settled, hstage])
        · rintro _ _ _ ⟨⟩
          exact hsender
    | drafted normalizedTo draft hstage hdraft =>
        have hto := hdraft.to_
        refine ⟨?_, by simp, ?_⟩
        · rintro _ ⟨⟩
          rw [hto]
          exact hcall.number normalizedTo (by simp [settled, hstage])
        · rintro _ ⟨⟩
          exact ⟨rfl, hdraft.type, hdraft.sender, hdraft.payload⟩
    | approved normalizedTo sender wabaId template hstage =>
        refine ⟨?_, by simp, ?_⟩
        · rintro _ ⟨⟩
          exact hcall.number normalizedTo (by simp [settled, hstage])
        · rintro _ ⟨⟩
          exact ⟨rfl, rfl, hcall.sender normalizedTo sender wabaId hstage, fun _ => rfl⟩
  · exact .of_isOpen hclosed

end CreateCall

/-! ## A small tenant -/

/-- The sender of the tenant. -/
def sampleSender : WhatsAppPhoneNumber where
  id := 7
  tenantId := 1
  providerPhoneNumberId := "p"
  wabaId := none
  rateLimitPerSecond := none
  active := true
  isDefault := true
  createdAt := 0

/-- A contact whose service window is open. -/
def sampleContact : Contact where
  id := 8
  tenantId := 1
  phone := "5511999999999"
  name := none
  language := none
  timezone := none
  tags := []
  consentStatus := .unknown
  consentSource := none
  consentAt := none
  optedOutAt := none
  lastInboundAt := some 0
  serviceWindowExpiresAt := some 1000
  metadata := none

/-- A tenant with one sender and one contact. -/
def sampleDb : Db :=
  { Db.empty with
    phoneNumbers := ⟨[sampleSender], List.pairwise_singleton _ _⟩
    contacts := ⟨[sampleContact], List.pairwise_singleton _ _⟩ }

/-- A text message to the contact. -/
def sampleDto : CreateMessageDto where
  to_ := "+5511999999999"
  type := .text
  senderId := none
  payload := .obj [("body", .str "hi")]
  idempotencyKey := some "k"

/-- The identifiers that its transaction draws. -/
def sampleIds : CreateIds where
  messageId := 100
  eventId := 101
  conversationId := 102

end ApiWhatsApp
