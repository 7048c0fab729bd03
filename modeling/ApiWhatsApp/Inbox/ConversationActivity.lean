import ApiWhatsApp.Schema

/-!
# Conversation activity

The two upserts of `inbox/conversation-activity.service.ts` and `markRead` of
`inbox/inbox.service.ts`, as functions on the database. Both upserts run inside the transaction of
their caller (`persistInboundMessage`, `MessagesService.create`), so a `none` here rolls that
transaction back.

* `touchInbound` / `touchOutbound` are the `ON CONFLICT … DO UPDATE SET` clauses, with the
  response-time cycle (`startsResponseSlaCycle`, `closesResponseSlaCycle`).
* `recordInbound` / `recordOutbound` insert the conversation or touch the existing one.
  `recordOutbound` does nothing for a template or an unknown contact.
* `Db.unreadCount` is the counter of a conversation; one lemma for each operation says what becomes
  of all counters.
-/

namespace ApiWhatsApp

open Library

/-- `t > COALESCE(x, '-infinity')`. -/
def isAfter (t : Time) : Option Time → Bool
  | none => true
  | some x => x < t

/-- The response-time policy of the team a conversation is assigned to.
Source: the `responseSlaMinutes` subquery of `recordInbound`. -/
def Db.responseSlaMinutes (db : Db) (conversation : Conversation) : Option ℕ := do
  let assignment ← db.teamAssignments.find conversation.id
  if assignment.tenantId ≠ conversation.tenantId then none else
  let team ← db.inboxTeams.find assignment.teamId
  if team.tenantId ≠ assignment.tenantId then none else
  team.responseSlaMinutes

namespace Conversation

/-- Source: `startsResponseSlaCycle` in `recordInbound`. -/
def startsResponseSlaCycle (c : Conversation) (occurredAt : Time) : Bool :=
  isAfter occurredAt c.lastInboundAt && isAfter occurredAt c.lastOutboundAt &&
    (c.status = .resolved || c.responseSlaDueAt.isNone || c.responseSlaRespondedAt.isSome)

/-- Source: `closesResponseSlaCycle` in `recordOutbound`. -/
def closesResponseSlaCycle (c : Conversation) (occurredAt : Time) : Bool :=
  c.status ≠ .resolved && c.responseSlaStartedAt.any (· ≤ occurredAt) &&
    c.responseSlaDueAt.isSome && c.responseSlaRespondedAt.isNone &&
    isAfter occurredAt c.lastOutboundAt

/-- Source: the `DO UPDATE SET` clause of `recordInbound`. -/
def touchInbound (slaMinutes : Option ℕ) (occurredAt : Time) (c : Conversation) : Conversation :=
  { c with
    status := .open
    resolvedAt := none
    unreadCount := c.unreadCount + 1
    lastMessageAt := max c.lastMessageAt occurredAt
    lastInboundAt := some (max (c.lastInboundAt.getD occurredAt) occurredAt)
    responseSlaStartedAt :=
      if c.startsResponseSlaCycle occurredAt then slaMinutes.map fun _ => occurredAt
      else c.responseSlaStartedAt
    responseSlaDueAt :=
      if c.startsResponseSlaCycle occurredAt then
        slaMinutes.map fun minutes => occurredAt + minutes * 60000
      else c.responseSlaDueAt
    responseSlaRespondedAt :=
      if c.startsResponseSlaCycle occurredAt then none else c.responseSlaRespondedAt
    responseSlaEscalatedAt :=
      if c.startsResponseSlaCycle occurredAt then none else c.responseSlaEscalatedAt }

/-- Source: the `DO UPDATE SET` clause of `recordOutbound`. -/
def touchOutbound (occurredAt : Time) (c : Conversation) : Conversation :=
  { c with
    status := .open
    resolvedAt := none
    lastMessageAt := max c.lastMessageAt occurredAt
    lastOutboundAt := some (max (c.lastOutboundAt.getD occurredAt) occurredAt)
    responseSlaStartedAt := if c.status = .resolved then none else c.responseSlaStartedAt
    responseSlaDueAt := if c.status = .resolved then none else c.responseSlaDueAt
    responseSlaRespondedAt :=
      if c.status = .resolved then none
      else if c.closesResponseSlaCycle occurredAt then some occurredAt
      else c.responseSlaRespondedAt
    responseSlaEscalatedAt := if c.status = .resolved then none else c.responseSlaEscalatedAt }

/-- The row that both upserts insert, up to the counters and times they set. -/
def opened (id tenantId senderId contactId : Uuid) (occurredAt : Time) : Conversation where
  id := id
  tenantId := tenantId
  contactId := contactId
  senderId := senderId
  assignedAgentId := none
  status := .open
  priority := .normal
  unreadCount := 0
  lastMessageAt := occurredAt
  lastInboundAt := none
  lastOutboundAt := none
  resolvedAt := none
  responseSlaStartedAt := none
  responseSlaDueAt := none
  responseSlaRespondedAt := none
  responseSlaEscalatedAt := none

/-- An inbound message keeps the keys. -/
@[simp] theorem keys_touchInbound (m : Option ℕ) (t : Time) (c : Conversation) :
    Keyed.keys (c.touchInbound m t) = Keyed.keys c := rfl

/-- An outbound message keeps the keys. -/
@[simp] theorem keys_touchOutbound (t : Time) (c : Conversation) :
    Keyed.keys (c.touchOutbound t) = Keyed.keys c := rfl

/-- An outbound message never changes the unread counter. -/
@[simp] theorem unreadCount_touchOutbound (t : Time) (c : Conversation) :
    (c.touchOutbound t).unreadCount = c.unreadCount := rfl

/-- An inbound message counts as one unread message. -/
@[simp] theorem unreadCount_touchInbound (m : Option ℕ) (t : Time) (c : Conversation) :
    (c.touchInbound m t).unreadCount = c.unreadCount + 1 := rfl

end Conversation

/-- What `recordInbound` is told. -/
structure InboundActivity where
  tenantId : Uuid
  senderId : Uuid
  contactId : Uuid
  occurredAt : Time

/-- What `recordOutbound` is told. -/
structure OutboundActivity where
  tenantId : Uuid
  senderId : Uuid
  phone : String
  messageType : MessageType
  occurredAt : Time

/-- Update one conversation, index columns aside. -/
def Db.updateConversation (db : Db) (id : Uuid) (f : Conversation → Conversation)
    (hf : ∀ c, Keyed.keys (f c) = Keyed.keys c) : Db :=
  { db with conversations := db.conversations.updateWhere (fun r => r.id = id) f hf }

/-- An update is found where the row was. -/
theorem Db.find_updateConversation (db : Db) (id : Uuid) (f : Conversation → Conversation)
    (hf : ∀ c, Keyed.keys (f c) = Keyed.keys c) (k : ConversationKey) :
    (db.updateConversation id f hf).conversations.find k =
      (db.conversations.find k).map fun r => if r.id = id then f r else r := by
  unfold Db.updateConversation
  rw [Table.find_updateWhere]
  simp only [decide_eq_true_eq]

/-- Upsert the conversation of an inbound message and return its id. `newId` is the `randomUUID()`
of the insert; `none` is the exception that rolls back the caller's transaction.
Source: `recordInbound`. -/
def Db.recordInbound (db : Db) (newId : Uuid) (activity : InboundActivity) : Option (Db × Uuid) :=
  match db.conversations.find
      (.participants activity.tenantId activity.senderId activity.contactId) with
  | some c =>
      let touch := Conversation.touchInbound (db.responseSlaMinutes c) activity.occurredAt
      some (db.updateConversation c.id touch fun _ => rfl, c.id)
  | none =>
      (db.conversations.insert? { Conversation.opened newId activity.tenantId activity.senderId
          activity.contactId activity.occurredAt with
        unreadCount := 1
        lastInboundAt := some activity.occurredAt }).map fun conversations =>
          ({ db with conversations := conversations }, newId)

/-- Upsert the conversation of an accepted outbound message; a template or an unknown contact
touches none. The outer `none` is the exception that rolls back the caller's transaction.
Source: `recordOutbound`. -/
def Db.recordOutbound (db : Db) (newId : Uuid) (activity : OutboundActivity) :
    Option (Db × Option Uuid) :=
  -- Templates, including marketing campaigns, must not create or reopen inbox conversations.
  if activity.messageType = .template then some (db, none) else
  match db.contacts.find (.tenantPhone activity.tenantId activity.phone) with
  | none => some (db, none)
  | some contact =>
      match db.conversations.find
          (.participants activity.tenantId activity.senderId contact.id) with
      | some c =>
          let touch := Conversation.touchOutbound activity.occurredAt
          some (db.updateConversation c.id touch fun _ => rfl, some c.id)
      | none =>
          (db.conversations.insert? { Conversation.opened newId activity.tenantId
              activity.senderId contact.id activity.occurredAt with
            lastOutboundAt := some activity.occurredAt }).map fun conversations =>
              ({ db with conversations := conversations }, some newId)

/-- Reset the unread counter; `none` is the `NotFoundException`.
Source: `markRead` in `inbox.service.ts`. -/
def Db.markRead (db : Db) (tenantId id : Uuid) : Option Db :=
  match db.conversations.find (.id id) with
  | none => none
  | some c =>
      if c.tenantId ≠ tenantId then none else
      some (db.updateConversation id (fun r => { r with unreadCount := 0 }) fun _ => rfl)

/-- `recordOutbound` touches no table but the conversations. -/
theorem Db.recordOutbound_frame {db db' : Db} {newId : Uuid} {activity : OutboundActivity}
    {c : Option Uuid} (h : db.recordOutbound newId activity = some (db', c)) :
    ∃ conversations, db' = { db with conversations := conversations } := by
  unfold Db.recordOutbound at h
  split_ifs at h
  · cases h; exact ⟨_, rfl⟩
  · split at h
    · cases h; exact ⟨_, rfl⟩
    · split at h
      · cases h; exact ⟨_, rfl⟩
      · obtain ⟨cs, -, hcs⟩ := Option.map_eq_some_iff.mp h
        cases hcs; exact ⟨cs, rfl⟩

/-- `recordInbound` touches no table but the conversations. -/
theorem Db.recordInbound_frame {db db' : Db} {newId c : Uuid} {activity : InboundActivity}
    (h : db.recordInbound newId activity = some (db', c)) :
    ∃ conversations, db' = { db with conversations := conversations } := by
  unfold Db.recordInbound at h
  split at h
  · cases h; exact ⟨_, rfl⟩
  · obtain ⟨cs, -, hcs⟩ := Option.map_eq_some_iff.mp h
    cases hcs; exact ⟨cs, rfl⟩

/-! ## The unread counter -/

/-- The unread counter of a conversation; `none` when there is no such conversation. -/
def Db.unreadCount (db : Db) (id : Uuid) : Option ℕ :=
  (db.conversations.find (.id id)).map Conversation.unreadCount

/-- The id is a key of its row only. -/
theorem mem_keys_conversation_id {c : Conversation} {id : Uuid} :
    ConversationKey.id id ∈ Keyed.keys c ↔ c.id = id := by
  simp [Keyed.keys, eq_comm]

/-- An update of one conversation changes no other counter. -/
theorem Db.unreadCount_updateConversation (db : Db) (id : Uuid) (f : Conversation → Conversation)
    (hf : ∀ c, Keyed.keys (f c) = Keyed.keys c) (g : ℕ → ℕ)
    (hg : ∀ c, (f c).unreadCount = g c.unreadCount) (j : Uuid) :
    (db.updateConversation id f hf).unreadCount j =
      (db.unreadCount j).map fun n => if j = id then g n else n := by
  unfold Db.unreadCount
  rw [Db.find_updateConversation]
  rcases hc : db.conversations.find (.id j) with _ | c
  · rfl
  · have hj : c.id = j := mem_keys_conversation_id.mp (db.conversations.find_eq_some_iff.mp hc).2
    simp only [Option.map_some, hj]
    split_ifs
    · rw [hg]
    · rfl

/-- A new conversation brings its own counter. -/
theorem Db.unreadCount_insert {db : Db} {c : Conversation} {conversations : Table Conversation}
    (h : db.conversations.insert? c = some conversations) (j : Uuid) :
    db.unreadCount c.id = none ∧
      ({ db with conversations := conversations } : Db).unreadCount j =
        if j = c.id then some c.unreadCount else db.unreadCount j := by
  have hmem : ConversationKey.id c.id ∈ Keyed.keys c := mem_keys_conversation_id.mpr rfl
  constructor
  · rw [Db.unreadCount, Table.find_eq_none_of_insert? h hmem]
    rfl
  · rw [Db.unreadCount, Table.find_of_insert? h]
    by_cases hj : j = c.id
    · subst hj
      rw [if_pos hmem, if_pos rfl]
      rfl
    · have hnot : ConversationKey.id j ∉ Keyed.keys c :=
        fun hk => hj (mem_keys_conversation_id.mp hk).symm
      rw [if_neg hnot, if_neg hj]
      rfl

/-- An inbound message counts as one unread message of its conversation, which exists then. -/
theorem Db.unreadCount_recordInbound {db db' : Db} {newId c : Uuid} {activity : InboundActivity}
    (h : db.recordInbound newId activity = some (db', c)) (j : Uuid) :
    db'.unreadCount j =
      if j = c then some ((db.unreadCount c).getD 0 + 1) else db.unreadCount j := by
  unfold Db.recordInbound at h
  split at h
  · rename_i r hr
    simp only [Option.some.injEq, Prod.mk.injEq] at h
    obtain ⟨rfl, rfl⟩ := h
    have hcount := db.unreadCount_updateConversation r.id
      (Conversation.touchInbound (db.responseSlaMinutes r) activity.occurredAt) (fun _ => rfl)
      (· + 1) fun _ => rfl
    rw [hcount]
    have hrow : db.conversations.find (.id r.id) = some r :=
      db.conversations.find_eq_some_iff.mpr
        ⟨(db.conversations.find_eq_some_iff.mp hr).1, mem_keys_conversation_id.mpr rfl⟩
    by_cases hj : j = r.id
    · subst hj
      simp [Db.unreadCount, hrow]
    · simp [hj]
  · obtain ⟨conversations, hinsert, h⟩ := Option.map_eq_some_iff.mp h
    simp only [Prod.mk.injEq] at h
    obtain ⟨rfl, rfl⟩ := h
    obtain ⟨hnone, hcount⟩ := Db.unreadCount_insert hinsert j
    change db.unreadCount newId = none at hnone
    rw [hcount, hnone]
    rfl

/-- An outbound message changes no counter; a conversation that it opens has nothing unread. -/
theorem Db.unreadCount_recordOutbound {db db' : Db} {newId : Uuid} {c : Option Uuid}
    {activity : OutboundActivity} (h : db.recordOutbound newId activity = some (db', c)) :
    (∀ j, db'.unreadCount j = db.unreadCount j ∨
        (db.unreadCount j = none ∧ db'.unreadCount j = some 0)) ∧
      ∀ j, c = some j → (db'.unreadCount j).isSome = true := by
  unfold Db.recordOutbound at h
  split_ifs at h
  · cases h
    exact ⟨fun _ => .inl rfl, by simp⟩
  split at h
  · cases h
    exact ⟨fun _ => .inl rfl, by simp⟩
  split at h
  · rename_i r hr
    simp only [Option.some.injEq, Prod.mk.injEq] at h
    obtain ⟨rfl, rfl⟩ := h
    have hcount := db.unreadCount_updateConversation r.id
      (Conversation.touchOutbound activity.occurredAt) (fun _ => rfl) id fun _ => rfl
    refine ⟨fun j => .inl ?_, fun j hj => ?_⟩
    · rw [hcount]
      simp
    · cases hj
      have hrow : db.conversations.find (.id r.id) = some r :=
        db.conversations.find_eq_some_iff.mpr
          ⟨(db.conversations.find_eq_some_iff.mp hr).1, mem_keys_conversation_id.mpr rfl⟩
      rw [hcount]
      simp [Db.unreadCount, hrow]
  · obtain ⟨conversations, hinsert, h⟩ := Option.map_eq_some_iff.mp h
    simp only [Prod.mk.injEq] at h
    obtain ⟨rfl, rfl⟩ := h
    have hcount := fun j => Db.unreadCount_insert hinsert j
    refine ⟨fun j => ?_, fun j hj => ?_⟩
    · obtain ⟨hnone, hj⟩ := hcount j
      rw [hj]
      split_ifs with heq
      · exact .inr ⟨heq ▸ hnone, rfl⟩
      · exact .inl rfl
    · cases hj
      rw [(hcount newId).2]
      simp [Conversation.opened]

/-- Marking a conversation as read resets its counter and no other. -/
theorem Db.unreadCount_markRead {db db' : Db} {tenantId id : Uuid}
    (h : db.markRead tenantId id = some db') (j : Uuid) :
    db'.unreadCount j = (db.unreadCount j).map fun n => if j = id then 0 else n := by
  unfold Db.markRead at h
  split at h
  · cases h
  · split_ifs at h
    cases h
    exact db.unreadCount_updateConversation id (fun r => { r with unreadCount := 0 })
      (fun _ => rfl) (fun _ => 0) (fun _ => rfl) j

end ApiWhatsApp
