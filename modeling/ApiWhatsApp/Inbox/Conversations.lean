import ApiWhatsApp.Inbox.ConversationActivity

/-!
# Writing conversations

What `updateConversation` of `inbox/inbox.service.ts` writes once its checks have passed, with the
trigger `applyConversationTeamResponseSla` that the team assignment fires, and what `updateTeam` of
`inbox/inbox-teams.service.ts` writes of a team's response-time policy.

* `Db.assignTeam` is the upsert of the assignment together with its trigger, which fires on every
  insert and on every update of `teamId`, also when the team stays the same.
* `Conversation.updated` is the `data` object of the row update; the four response-time columns are
  none of its keys.
* `Db.writeConversationUpdate` is the team write followed by the row update.

A `dto` field that may be `null` is an `Option (Option _)`: the outer `none` is `undefined`, the
inner one `null`.
-/

namespace ApiWhatsApp

open Library

/-- The row of a conversation. -/
def Db.conversation (db : Db) (id : Uuid) : Option Conversation := db.conversations.find (.id id)

/-- The response-time policy of a team of a tenant.
Source: the `SELECT` of `applyConversationTeamResponseSla`. -/
def Db.teamResponseSlaMinutes (db : Db) (tenantId teamId : Uuid) : Option ℕ := do
  let team ← db.inboxTeams.find teamId
  if team.tenantId ≠ tenantId then none else
  team.responseSlaMinutes

namespace Conversation

/-- The customer has written last, and no response-time cycle is waiting for an answer.
Source: the `WHERE` clause of `applyConversationTeamResponseSla`. -/
def awaitsTeam (c : Conversation) : Bool :=
  c.status ≠ .resolved && c.lastInboundAt.any (fun t => isAfter t c.lastOutboundAt) &&
    (c.responseSlaDueAt.isNone || c.responseSlaRespondedAt.isSome)

/-- Source: the `SET` clause of `applyConversationTeamResponseSla`. -/
def startCycle (minutes : ℕ) (cycleStartedAt : Time) (c : Conversation) : Conversation :=
  { c with
    responseSlaStartedAt := some cycleStartedAt
    responseSlaDueAt := some (cycleStartedAt + minutes * 60000)
    responseSlaRespondedAt := none
    responseSlaEscalatedAt := none }

end Conversation

/-- The trigger on `ConversationTeamAssignment`, for the new row `(tenantId, conversationId,
teamId)`; `now` is `CURRENT_TIMESTAMP`, the time at which the transaction began. -/
def Db.applyConversationTeamResponseSla (db : Db) (tenantId conversationId teamId : Uuid)
    (now : Time) : Db :=
  match db.teamResponseSlaMinutes tenantId teamId with
  | none => db
  | some minutes =>
      { db with
        conversations := db.conversations.updateWhere
          (fun c => c.tenantId = tenantId && c.id = conversationId && c.awaitsTeam)
          (Conversation.startCycle minutes now) fun _ => rfl }

/-- Assign a conversation to a team. Source: the `upsert` in `updateConversation`, with the trigger
that it fires. -/
def Db.assignTeam (db : Db) (tenantId conversationId teamId : Uuid) (now : Time) : Option Db :=
  match db.teamAssignments.find conversationId with
  | some assignment =>
      let assignments := db.teamAssignments.updateWhere (fun a => a.conversationId = conversationId)
        (fun a => { a with teamId := teamId }) fun _ => rfl
      some (({ db with teamAssignments := assignments } : Db).applyConversationTeamResponseSla
        assignment.tenantId conversationId teamId now)
  | none =>
      (db.teamAssignments.insert? ⟨conversationId, tenantId, teamId⟩).map fun assignments =>
        ({ db with teamAssignments := assignments } : Db).applyConversationTeamResponseSla
          tenantId conversationId teamId now

/-- Source: the `deleteMany` in `updateConversation`. -/
def Db.removeTeam (db : Db) (tenantId conversationId : Uuid) : Db :=
  { db with
    teamAssignments := db.teamAssignments.deleteWhere fun a =>
      a.tenantId = tenantId && a.conversationId = conversationId }

/-- Source: `class UpdateConversationDto`. -/
structure UpdateConversationDto where
  status : Option ConversationStatus
  priority : Option ConversationPriority
  assignedAgentId : Option (Option Uuid)
  assignedTeamId : Option (Option Uuid)

/-- Source: the `data` object of the row update in `updateConversation`. -/
def Conversation.updated (dto : UpdateConversationDto) (now : Time) (c : Conversation) :
    Conversation :=
  { c with
    status := dto.status.getD c.status
    resolvedAt :=
      match dto.status with
      | none => c.resolvedAt
      | some status => if status = .resolved then some now else none
    priority := dto.priority.getD c.priority
    assignedAgentId := dto.assignedAgentId.getD c.assignedAgentId }

/-- The row update of `updateConversation`. -/
def Db.updateConversationRow (db : Db) (id : Uuid) (dto : UpdateConversationDto) (now : Time) :
    Db :=
  db.updateConversation id (Conversation.updated dto now) fun _ => rfl

/-- The team write of `updateConversation`. -/
def Db.writeTeam (db : Db) (tenantId id : Uuid) (dto : UpdateConversationDto) (startedAt : Time) :
    Option Db :=
  match dto.assignedTeamId with
  | none => some db
  | some none => some (db.removeTeam tenantId id)
  | some (some teamId) => db.assignTeam tenantId id teamId startedAt

/-- All that `updateConversation` writes, in a transaction that began at `startedAt`. -/
def Db.writeConversationUpdate (db : Db) (tenantId id : Uuid) (dto : UpdateConversationDto)
    (startedAt now : Time) : Option Db :=
  (db.writeTeam tenantId id dto startedAt).map fun db => db.updateConversationRow id dto now

/-- Source: the bounds of `responseSlaMinutes` in `UpdateInboxTeamDto`, and the table's `CHECK`. -/
def validResponseSlaMinutes (minutes : Option ℕ) : Bool :=
  minutes.all fun m => 1 ≤ m && m ≤ 10080

/-- Set or clear the response-time policy of a team.
Source: `updateTeam` in `inbox-teams.service.ts`. -/
def Db.updateTeamPolicy (db : Db) (tenantId teamId : Uuid) (minutes : Option ℕ) : Option Db :=
  if !validResponseSlaMinutes minutes then none else
  match db.inboxTeams.find teamId with
  | none => none
  | some team =>
      if team.tenantId ≠ tenantId then none else
      some { db with
        inboxTeams := db.inboxTeams.updateWhere (fun t => t.id = teamId)
          (fun t => { t with responseSlaMinutes := minutes }) fun _ => rfl }

/-- A policy change touches no table but the teams, and keeps within the bounds. -/
theorem Db.updateTeamPolicy_frame {db db' : Db} {tenantId teamId : Uuid} {minutes : Option ℕ}
    (h : db.updateTeamPolicy tenantId teamId minutes = some db') :
    validResponseSlaMinutes minutes = true ∧
      db' = { db with
        inboxTeams := db.inboxTeams.updateWhere (fun t => t.id = teamId)
          (fun t => { t with responseSlaMinutes := minutes }) fun _ => rfl } := by
  unfold Db.updateTeamPolicy at h
  split_ifs at h with hvalid
  split at h
  · cases h
  · split_ifs at h
    exact ⟨by simpa using hvalid, (Option.some.inj h).symm⟩

/-! ## Looking conversations up -/

section lookup

variable {db : Db} {id : Uuid} {c : Conversation}

theorem Db.conversation_eq_some_iff :
    db.conversation id = some c ↔ c ∈ db.conversations.rows ∧ c.id = id := by
  rw [Db.conversation, Table.find_eq_some_iff, mem_keys_conversation_id]

/-- A row is the row of its identifier. -/
theorem Db.conversation_of_mem (h : c ∈ db.conversations.rows) : db.conversation c.id = some c :=
  Db.conversation_eq_some_iff.mpr ⟨h, rfl⟩

theorem Db.conversation_updateConversation (db : Db) (i : Uuid) (f : Conversation → Conversation)
    (hf : ∀ c, Keyed.keys (f c) = Keyed.keys c) (id : Uuid) :
    (db.updateConversation i f hf).conversation id =
      (db.conversation id).map fun c => if c.id = i then f c else c := by
  simp only [Db.conversation, Db.updateConversation, Table.find_updateWhere, decide_eq_true_eq]

/-- After an insertion every conversation is an old one or the new one. -/
theorem Db.conversation_insert {conversations : Table Conversation}
    (h : db.conversations.insert? c = some conversations) (id : Uuid) :
    ({ db with conversations := conversations } : Db).conversation id =
      if c.id = id then some c else db.conversation id := by
  unfold Db.conversation
  rw [Table.find_of_insert? h]
  simp only [mem_keys_conversation_id]

/-- What the trigger makes of a conversation: a new cycle, when it is the one assigned, its team has
a policy and the customer waits. -/
theorem Db.conversation_applyConversationTeamResponseSla (db : Db)
    (tenantId conversationId teamId : Uuid) (now : Time) (id : Uuid) :
    (db.applyConversationTeamResponseSla tenantId conversationId teamId now).conversation id =
      (db.conversation id).map fun c =>
        match db.teamResponseSlaMinutes tenantId teamId with
        | none => c
        | some minutes =>
            if c.tenantId = tenantId && c.id = conversationId && c.awaitsTeam then
              c.startCycle minutes now
            else c := by
  unfold Db.applyConversationTeamResponseSla
  split
  · simp
  · rename_i minutes _
    exact db.conversations.find_updateWhere _ (Conversation.startCycle minutes now) (fun _ => rfl) _

end lookup

end ApiWhatsApp
