import ApiWhatsApp.Inbox.Conversations
import ApiWhatsApp.Library.Machine

/-!
# The response-time cycle of a conversation

Four columns of a conversation describe the cycle in which a team owes the customer an answer: when
it started, when it is due, when it was answered and when it was escalated. Three components write
them, each under a guard of its own: the two upserts of `conversation-activity.service.ts`, the
trigger on the team assignment, and the scanner `escalateOverdue` of
`inbox-response-sla-escalation.service.ts`.

* `InboxAct` are the statements of all of them, and of everything around them that a run may
  interleave: status updates, policy changes, and writes to the rest of the database. Each statement
  works on a locked row, so a run is a sequence of statements; times are arbitrary throughout.
* `Conversation.Moves` says what a statement can do to a row, guards included. **`step_row`** is the
  one place where the statements are unfolded; every result below is a case analysis on it.
* **`waiting_customer`**: an unanswered cycle means that the customer wrote last, or that the reply
  was accepted before the cycle started.
* **`check_kept`**: no statement leaves a row that the table's `CHECK` would refuse.
* **`one_escalation_one_response`**: between the start of a cycle and the next start or clearing,
  its two bounds stand and its two marks are each written at most once.
-/

namespace ApiWhatsApp

open Library

/-! ## The scanner -/

/-- Source: the `WHERE` clauses of `escalateOverdue`. -/
def Conversation.isOverdue (now : Time) (c : Conversation) : Bool :=
  c.status ≠ .resolved && c.responseSlaStartedAt.isSome &&
    c.responseSlaDueAt.any (· ≤ now) && c.responseSlaRespondedAt.isNone &&
    c.responseSlaEscalatedAt.isNone

/-- Source: the `SET` clause of `escalateOverdue`. -/
def Conversation.escalate (now : Time) (c : Conversation) : Conversation :=
  { c with responseSlaEscalatedAt := some now }

/-- Source: `ESCALATION_BATCH_SIZE`. -/
def escalationBatchSize : ℕ := 200

/-- One scan. `claimed` are the rows that `FOR UPDATE SKIP LOCKED` came by: rows that other
transactions hold are skipped, so any selection up to the batch size can be the result.
Source: `escalateOverdue`. -/
def Db.escalateOverdue (db : Db) (now : Time) (claimed : List Uuid) : Option Db :=
  if escalationBatchSize < claimed.length then none else
  some { db with
    conversations := db.conversations.updateWhere (fun c => c.id ∈ claimed && c.isOverdue now)
      (Conversation.escalate now) fun _ => rfl }

/-! ## Runs -/

/-- The columns of a conversation that only the statements below write. -/
structure CycleColumns where
  id : Uuid
  status : ConversationStatus
  lastInboundAt : Option Time
  lastOutboundAt : Option Time
  startedAt : Option Time
  dueAt : Option Time
  respondedAt : Option Time
  escalatedAt : Option Time
  deriving DecidableEq

/-- The columns of the response cycle. -/
def Conversation.cycleColumns (c : Conversation) : CycleColumns where
  id := c.id
  status := c.status
  lastInboundAt := c.lastInboundAt
  lastOutboundAt := c.lastOutboundAt
  startedAt := c.responseSlaStartedAt
  dueAt := c.responseSlaDueAt
  respondedAt := c.responseSlaRespondedAt
  escalatedAt := c.responseSlaEscalatedAt

/-- A statement that a run may contain. -/
inductive InboxAct where
  | recordInbound (newId : Uuid) (activity : InboundActivity)
  | recordOutbound (newId : Uuid) (activity : OutboundActivity)
  | assignTeam (tenantId conversationId teamId : Uuid) (now : Time)
  | removeTeam (tenantId conversationId : Uuid)
  | updateRow (id : Uuid) (dto : UpdateConversationDto) (now : Time)
  | updateTeamPolicy (tenantId teamId : Uuid) (minutes : Option ℕ)
  | escalateOverdue (now : Time) (claimed : List Uuid)
  /-- Any write that leaves the columns above and the validity of the teams' policies alone:
  claims, releases, routing, unread counters, teams, members, messages. -/
  | other (db' : Db)

/-- The policy of every team is within the bounds of its column. -/
def Db.validPolicies (db : Db) : Bool :=
  db.inboxTeams.rows.all fun team => validResponseSlaMinutes team.responseSlaMinutes

/-- The policy of a team found is within the bounds. -/
theorem Db.valid_teamResponseSlaMinutes {db : Db} (h : db.validPolicies = true)
    (tenantId teamId : Uuid) :
    validResponseSlaMinutes (db.teamResponseSlaMinutes tenantId teamId) = true := by
  rcases hteam : db.inboxTeams.find teamId with _ | team
  · simp [Db.teamResponseSlaMinutes, hteam, validResponseSlaMinutes]
  · have hvalid := List.all_eq_true.mp h team (db.inboxTeams.find_eq_some_iff.mp hteam).1
    simp only [Db.teamResponseSlaMinutes, hteam, Option.bind_eq_bind, Option.bind_some]
    split_ifs
    · rfl
    · exact hvalid

/-- So is the policy that an inbound message finds. -/
theorem Db.valid_responseSlaMinutes {db : Db} (h : db.validPolicies = true) (c : Conversation) :
    validResponseSlaMinutes (db.responseSlaMinutes c) = true := by
  rcases hassignment : db.teamAssignments.find c.id with _ | assignment
  · simp [Db.responseSlaMinutes, hassignment, validResponseSlaMinutes]
  · simp only [Db.responseSlaMinutes, hassignment, Option.bind_eq_bind, Option.bind_some]
    split_ifs
    · rfl
    · exact Db.valid_teamResponseSlaMinutes h assignment.tenantId assignment.teamId

namespace Inbox

/-- One statement; `none` when it throws. -/
def step (db : Db) : InboxAct → Option Db
  | .recordInbound newId activity => (db.recordInbound newId activity).map Prod.fst
  | .recordOutbound newId activity => (db.recordOutbound newId activity).map Prod.fst
  | .assignTeam tenantId conversationId teamId now =>
      db.assignTeam tenantId conversationId teamId now
  | .removeTeam tenantId conversationId => some (db.removeTeam tenantId conversationId)
  | .updateRow id dto now => some (db.updateConversationRow id dto now)
  | .updateTeamPolicy tenantId teamId minutes => db.updateTeamPolicy tenantId teamId minutes
  | .escalateOverdue now claimed => db.escalateOverdue now claimed
  | .other db' =>
      if db'.conversations.rows.map Conversation.cycleColumns =
          db.conversations.rows.map Conversation.cycleColumns ∧
        (db.validPolicies → db'.validPolicies) then some db' else none

end Inbox

/-- The conversation that a non-template message goes to. -/
def Db.outboundConversation (db : Db) (activity : OutboundActivity) : Option Conversation := do
  if activity.messageType = .template then none else
  let contact ← db.contacts.find (.tenantPhone activity.tenantId activity.phone)
  db.conversations.find (.participants activity.tenantId activity.senderId contact.id)

/-- A conversation that is found is of the activity, which is no template. -/
theorem mem_of_outboundConversation {db : Db} {activity : OutboundActivity} {c : Conversation}
    (h : db.outboundConversation activity = some c) :
    activity.messageType ≠ .template ∧ c ∈ db.conversations.rows := by
  unfold Db.outboundConversation at h
  split_ifs at h with htemplate
  obtain ⟨contact, -, hc⟩ := Option.bind_eq_some_iff.mp h
  exact ⟨htemplate, (db.conversations.find_eq_some_iff.mp hc).1⟩

/-- The tenant of the assignment row that the upsert of `assignTeam` leaves. -/
def Db.assignmentTenant (db : Db) (tenantId conversationId : Uuid) : Uuid :=
  (db.teamAssignments.find conversationId).elim tenantId (·.tenantId)

/-- Whether a statement starts a new cycle of a conversation or clears the one it has, by the guards
of the three components. -/
def InboxAct.startsOrClears (db : Db) (id : Uuid) : InboxAct → Bool
  | .recordInbound _ activity =>
      (db.conversations.find
        (.participants activity.tenantId activity.senderId activity.contactId)).any fun c =>
          c.id = id && c.startsResponseSlaCycle activity.occurredAt
  | .recordOutbound _ activity =>
      (db.outboundConversation activity).any fun c => c.id = id && c.status = .resolved
  | .assignTeam tenantId conversationId teamId _ =>
      conversationId = id &&
        (db.teamResponseSlaMinutes (db.assignmentTenant tenantId id) teamId).isSome &&
        (db.conversation id).any fun c =>
          c.tenantId = db.assignmentTenant tenantId id && c.awaitsTeam
  | _ => false

namespace Conversation

/-- What a statement can do to a row. -/
inductive Moves (db : Db) : InboxAct → Conversation → Conversation → Prop
  | kept {a : InboxAct} {c c' : Conversation} (h : c'.cycleColumns = c.cycleColumns)
      (hkept : a.startsOrClears db c.id = false) : Moves db a c c'
  | inbound {newId : Uuid} {activity : InboundActivity} {c : Conversation}
      (h : db.conversations.find
        (.participants activity.tenantId activity.senderId activity.contactId) = some c) :
      Moves db (.recordInbound newId activity) c
        (c.touchInbound (db.responseSlaMinutes c) activity.occurredAt)
  | outbound {newId : Uuid} {activity : OutboundActivity} {c : Conversation}
      (h : db.outboundConversation activity = some c) :
      Moves db (.recordOutbound newId activity) c (c.touchOutbound activity.occurredAt)
  | assigned {tenantId teamId : Uuid} {now : Time} {c : Conversation} {minutes : ℕ}
      (hpolicy : db.teamResponseSlaMinutes (db.assignmentTenant tenantId c.id) teamId =
        some minutes)
      (hwaits : c.tenantId = db.assignmentTenant tenantId c.id ∧ c.awaitsTeam = true) :
      Moves db (.assignTeam tenantId c.id teamId now) c (c.startCycle minutes now)
  | updated {dto : UpdateConversationDto} {now : Time} {c : Conversation} :
      Moves db (.updateRow c.id dto now) c (c.updated dto now)
  | escalated {now : Time} {claimed : List Uuid} {c : Conversation}
      (h : c.isOverdue now = true) :
      Moves db (.escalateOverdue now claimed) c (c.escalate now)

/-- The conversation has no cycle. -/
def NoCycle (c : Conversation) : Prop :=
  c.responseSlaStartedAt = none ∧ c.responseSlaDueAt = none ∧
    c.responseSlaRespondedAt = none ∧ c.responseSlaEscalatedAt = none

end Conversation

namespace Inbox

open Conversation

variable {db db' : Db} {a : InboxAct} {id : Uuid} {c c' : Conversation}

/-- What a statement does to the row of `id`: an existing row moves, a new one has no cycle. -/
def RowStep (db : Db) (a : InboxAct) (id : Uuid) (db' : Db) : Prop :=
  (∀ c, db.conversation id = some c → ∃ c', db'.conversation id = some c' ∧ Moves db a c c') ∧
    (db.conversation id = none → ∀ c', db'.conversation id = some c' → c'.NoCycle)

/-- A statement that maps the rows one by one, each by a move. -/
theorem rowStep_of_map {f : Conversation → Conversation}
    (hmap : db'.conversation id = (db.conversation id).map f)
    (hmoves : ∀ c, db.conversation id = some c → Moves db a c (f c)) : RowStep db a id db' := by
  refine ⟨fun c hc => ⟨f c, ?_, hmoves c hc⟩, fun hnone c' hc' => ?_⟩
  · rw [hmap, hc]
    rfl
  · rw [hmap, hnone] at hc'
    cases hc'

/-- A statement that inserts a row without a cycle. -/
theorem rowStep_of_insert {row : Conversation} {conversations : Table Conversation}
    (hinsert : db.conversations.insert? row = some conversations) (hrow : row.NoCycle)
    (hkept : a.startsOrClears db id = false) :
    RowStep db a id { db with conversations := conversations } := by
  have hafter := Db.conversation_insert hinsert id
  have hfree : db.conversation row.id = none :=
    Table.find_eq_none_of_insert? hinsert (mem_keys_conversation_id.mpr rfl)
  refine ⟨fun c hc => ⟨c, ?_, .kept rfl ?_⟩, fun _ c' hc' => ?_⟩
  · have hne : row.id ≠ id := by
      rintro rfl
      rw [hfree] at hc
      cases hc
    rw [hafter, if_neg hne, hc]
  · rwa [(Db.conversation_eq_some_iff.mp hc).2]
  · rw [hafter] at hc'
    split_ifs at hc'
    · cases hc'
      exact hrow
    · rename_i hnone _
      rw [hnone] at hc'
      cases hc'

/-- Two rows with one identifier are the same row. -/
theorem eq_of_conversation {r : Conversation} (hc : db.conversation id = some c)
    (hr : r ∈ db.conversations.rows) (hid : c.id = r.id) : r = c := by
  have hrow := Db.conversation_of_mem hr
  rw [← hid, (Db.conversation_eq_some_iff.mp hc).2, hc] at hrow
  exact (Option.some.inj hrow).symm

/-- An inbound message changes the row as it should. -/
theorem recordInbound_row {newId : Uuid} {activity : InboundActivity} {i : Uuid}
    (h : db.recordInbound newId activity = some (db', i)) :
    RowStep db (.recordInbound newId activity) id db' := by
  unfold Db.recordInbound at h
  split at h
  · rename_i r hr
    simp only [Option.some.injEq, Prod.mk.injEq] at h
    obtain ⟨rfl, rfl⟩ := h
    refine rowStep_of_map (Db.conversation_updateConversation _ _ _ _ _) fun c hc => ?_
    split_ifs with hid
    · obtain rfl := eq_of_conversation hc (db.conversations.find_eq_some_iff.mp hr).1 hid
      exact .inbound hr
    · exact .kept rfl (by simp [InboxAct.startsOrClears, hr, Ne.symm hid])
  · rename_i hnone
    obtain ⟨conversations, hinsert, h⟩ := Option.map_eq_some_iff.mp h
    simp only [Prod.mk.injEq] at h
    obtain ⟨rfl, rfl⟩ := h
    have hkept : (InboxAct.recordInbound newId activity).startsOrClears db id = false := by
      simp [InboxAct.startsOrClears, hnone]
    exact rowStep_of_insert hinsert ⟨rfl, rfl, rfl, rfl⟩ hkept

/-- An outbound message changes the row as it should. -/
theorem recordOutbound_row {newId : Uuid} {activity : OutboundActivity} {i : Option Uuid}
    (h : db.recordOutbound newId activity = some (db', i)) :
    RowStep db (.recordOutbound newId activity) id db' := by
  have hkept : db.outboundConversation activity = none → ∀ j,
      (InboxAct.recordOutbound newId activity).startsOrClears db j = false := by
    intro hnone j
    simp [InboxAct.startsOrClears, hnone]
  have hsame : db.outboundConversation activity = none →
      RowStep db (.recordOutbound newId activity) id db := fun hnone =>
    rowStep_of_map (by simp) fun c _ => .kept rfl (hkept hnone c.id)
  unfold Db.recordOutbound at h
  split_ifs at h with htemplate
  · cases h
    exact hsame (by simp [Db.outboundConversation, htemplate])
  split at h
  · rename_i hcontact
    cases h
    exact hsame (by simp [Db.outboundConversation, htemplate, hcontact])
  rename_i contact hcontact
  split at h
  · rename_i r hr
    simp only [Option.some.injEq, Prod.mk.injEq] at h
    obtain ⟨rfl, rfl⟩ := h
    refine rowStep_of_map (Db.conversation_updateConversation _ _ _ _ _) fun c hc => ?_
    have htarget : db.outboundConversation activity = some r := by
      simp [Db.outboundConversation, htemplate, hcontact, hr]
    split_ifs with hid
    · obtain rfl := eq_of_conversation hc (db.conversations.find_eq_some_iff.mp hr).1 hid
      exact .outbound htarget
    · exact .kept rfl (by simp [InboxAct.startsOrClears, htarget, Ne.symm hid])
  · rename_i hnone
    obtain ⟨conversations, hinsert, h⟩ := Option.map_eq_some_iff.mp h
    simp only [Prod.mk.injEq] at h
    obtain ⟨rfl, rfl⟩ := h
    have htarget : db.outboundConversation activity = none := by
      simp [Db.outboundConversation, htemplate, hcontact, hnone]
    exact rowStep_of_insert hinsert ⟨rfl, rfl, rfl, rfl⟩ (hkept htarget id)

/-- The upsert of an assignment changes no conversation; its trigger starts a cycle. -/
theorem assignTeam_row {tenantId conversationId teamId : Uuid} {now : Time}
    (h : db.assignTeam tenantId conversationId teamId now = some db') :
    RowStep db (.assignTeam tenantId conversationId teamId now) id db' := by
  have key : ∀ assignments : Table ConversationTeamAssignment,
      RowStep db (.assignTeam tenantId conversationId teamId now) id
        (({ db with teamAssignments := assignments } : Db).applyConversationTeamResponseSla
          (db.assignmentTenant tenantId conversationId) conversationId teamId now) := by
    intro assignments
    refine rowStep_of_map (Db.conversation_applyConversationTeamResponseSla _ _ _ _ _ _)
      fun c hc => ?_
    have hrow : db.conversation c.id = some c := (Db.conversation_eq_some_iff.mp hc).2 ▸ hc
    split
    · rename_i hpolicy
      refine .kept rfl ?_
      by_cases hid : conversationId = c.id
      · subst hid
        have hnone : db.teamResponseSlaMinutes (db.assignmentTenant tenantId c.id) teamId = none :=
          hpolicy
        simp [InboxAct.startsOrClears, hnone]
      · simp [InboxAct.startsOrClears, hid]
    · rename_i minutes hpolicy
      split_ifs with hwaits
      · simp only [Bool.and_eq_true, decide_eq_true_eq] at hwaits
        obtain ⟨⟨htenant, rfl⟩, hwaits⟩ := hwaits
        exact .assigned hpolicy ⟨htenant, hwaits⟩
      · refine .kept rfl ?_
        by_cases hid : conversationId = c.id
        · subst hid
          have hnot : (c.tenantId = db.assignmentTenant tenantId c.id && c.awaitsTeam) = false := by
            simpa using hwaits
          simp [InboxAct.startsOrClears, hrow, hnot]
        · simp [InboxAct.startsOrClears, hid]
  unfold Db.assignTeam at h
  split at h
  · rename_i assignment hassignment
    obtain rfl := Option.some.inj h
    have htenant : db.assignmentTenant tenantId conversationId = assignment.tenantId := by
      simp [Db.assignmentTenant, hassignment]
    rw [← htenant]
    exact key _
  · rename_i hnone
    obtain ⟨assignments, -, rfl⟩ := Option.map_eq_some_iff.mp h
    have htenant : db.assignmentTenant tenantId conversationId = tenantId := by
      simp [Db.assignmentTenant, hnone]
    have hrow := key assignments
    rwa [htenant] at hrow

/-- An escalation changes the row as it should. -/
theorem escalateOverdue_row {now : Time} {claimed : List Uuid}
    (h : db.escalateOverdue now claimed = some db') :
    RowStep db (.escalateOverdue now claimed) id db' := by
  unfold Db.escalateOverdue at h
  split_ifs at h
  obtain rfl := Option.some.inj h
  refine rowStep_of_map (db.conversations.find_updateWhere _ (escalate now) (fun _ => rfl) _)
    fun c _ => ?_
  split_ifs with hoverdue
  · exact .escalated (Bool.and_eq_true_iff.mp hoverdue).2
  · exact .kept rfl rfl

/-- The columns of the cycle, looked up by identifier. -/
theorem map_cycleColumns_conversation (db : Db) (id : Uuid) :
    (db.conversation id).map cycleColumns =
      (db.conversations.rows.map cycleColumns).find? fun r => r.id = id := by
  unfold Db.conversation Table.find
  rw [List.find?_map]
  congr 2
  funext c
  exact decide_eq_decide.mpr mem_keys_conversation_id

/-- Another statement leaves the row. -/
theorem other_row (h : db'.conversations.rows.map cycleColumns =
    db.conversations.rows.map cycleColumns) : RowStep db (.other db') id db' := by
  have hmap : (db'.conversation id).map cycleColumns = (db.conversation id).map cycleColumns := by
    rw [map_cycleColumns_conversation, map_cycleColumns_conversation, h]
  refine ⟨fun c hc => ?_, fun hnone c' hc' => ?_⟩
  · rw [hc, Option.map_some, Option.map_eq_some_iff] at hmap
    obtain ⟨c', hc', heq⟩ := hmap
    exact ⟨c', hc', .kept heq rfl⟩
  · rw [hnone, hc'] at hmap
    cases hmap

/-- **What one statement does to one conversation.** -/
theorem step_row (h : step db a = some db') (id : Uuid) : RowStep db a id db' := by
  have hsame : db'.conversations = db.conversations →
      (∀ j, a.startsOrClears db j = false) → RowStep db a id db' := by
    intro heq hkept
    refine rowStep_of_map (f := fun c => c) ?_ fun c _ => .kept rfl (hkept c.id)
    simp [Db.conversation, heq]
  cases a with
  | recordInbound newId activity =>
      obtain ⟨⟨_, i⟩, hinbound, rfl⟩ := Option.map_eq_some_iff.mp h
      exact recordInbound_row hinbound
  | recordOutbound newId activity =>
      obtain ⟨⟨_, i⟩, houtbound, rfl⟩ := Option.map_eq_some_iff.mp h
      exact recordOutbound_row houtbound
  | assignTeam tenantId conversationId teamId now => exact assignTeam_row h
  | removeTeam tenantId conversationId =>
      obtain rfl := Option.some.inj h
      exact hsame rfl fun _ => rfl
  | updateRow i dto now =>
      obtain rfl := Option.some.inj h
      refine rowStep_of_map (Db.conversation_updateConversation _ _ _ _ _) fun c _ => ?_
      split_ifs with hid
      · subst hid
        exact .updated
      · exact .kept rfl rfl
  | updateTeamPolicy tenantId teamId minutes =>
      obtain ⟨-, rfl⟩ := Db.updateTeamPolicy_frame h
      exact hsame rfl fun _ => rfl
  | escalateOverdue now claimed => exact escalateOverdue_row h
  | other d =>
      obtain ⟨⟨hrows, -⟩, hd⟩ := Option.ite_none_right_eq_some.mp h
      obtain rfl := Option.some.inj hd
      exact other_row hrows

end Inbox

/-! ## An unanswered cycle -/

namespace Conversation

variable {db : Db} {a : InboxAct} {c c' : Conversation}

/-- The columns of a row that a statement left alone. -/
theorem columns_eq (h : c'.cycleColumns = c.cycleColumns) :
    c'.id = c.id ∧ c'.status = c.status ∧ c'.lastInboundAt = c.lastInboundAt ∧
      c'.lastOutboundAt = c.lastOutboundAt ∧ c'.responseSlaStartedAt = c.responseSlaStartedAt ∧
      c'.responseSlaDueAt = c.responseSlaDueAt ∧
      c'.responseSlaRespondedAt = c.responseSlaRespondedAt ∧
      c'.responseSlaEscalatedAt = c.responseSlaEscalatedAt := by
  simpa only [cycleColumns, CycleColumns.mk.injEq] using h

/-- A cycle waits for an answer, whatever the status of its conversation. -/
def IsUnanswered (c : Conversation) : Prop :=
  c.responseSlaDueAt.isSome = true ∧ c.responseSlaRespondedAt = none

/-- The customer wrote after the team's last message, or that message was accepted before the cycle
started. -/
def CustomerWaits (c : Conversation) : Prop :=
  ∃ i startedAt, c.lastInboundAt = some i ∧ c.responseSlaStartedAt = some startedAt ∧
    ∀ o, c.lastOutboundAt = some o → o < i ∨ o < startedAt

/-- A time is after another, or after none. -/
theorem isAfter_eq_true_iff {t : Time} {x : Option Time} :
    isAfter t x = true ↔ ∀ o, x = some o → o < t := by
  cases x <;> simp [isAfter]

/-- An inbound message that starts no cycle moves `lastInboundAt` only forward. -/
theorem customerWaits_touchInbound (hwaits : c.IsUnanswered → c.CustomerWaits)
    (m : Option ℕ) (t : Time) (hopen : (c.touchInbound m t).IsUnanswered) :
    (c.touchInbound m t).CustomerWaits := by
  obtain ⟨hdue, hresponded⟩ := hopen
  by_cases hstarts : c.startsResponseSlaCycle t = true
  · -- A cycle that starts here has an inbound message later than every outbound one.
    simp only [touchInbound, hstarts, if_true] at hdue
    obtain ⟨minutes, rfl⟩ := Option.isSome_iff_exists.mp (by simpa using hdue)
    have hlater : isAfter t c.lastOutboundAt = true := by
      simp only [startsResponseSlaCycle, Bool.and_eq_true] at hstarts
      exact hstarts.1.2
    refine ⟨max (c.lastInboundAt.getD t) t, t, rfl, by simp [touchInbound, hstarts], ?_⟩
    intro o ho
    exact .inr (isAfter_eq_true_iff.mp hlater o ho)
  · simp only [touchInbound, hstarts] at hdue hresponded
    obtain ⟨i, startedAt, hi, hs, ho⟩ := hwaits ⟨hdue, hresponded⟩
    refine ⟨max i t, startedAt, by simp [touchInbound, hi], ?_, fun o hlast => ?_⟩
    · simpa [touchInbound, hstarts] using hs
    · exact (ho o hlast).imp_left lt_max_of_lt_left

/-- An outbound message that does not answer the cycle was accepted before it started, or is no
newer than the last one. -/
theorem customerWaits_touchOutbound (hwaits : c.IsUnanswered → c.CustomerWaits) (t : Time)
    (hopen : (c.touchOutbound t).IsUnanswered) : (c.touchOutbound t).CustomerWaits := by
  obtain ⟨hdue, hresponded⟩ := hopen
  have hstatus : c.status ≠ .resolved := by
    intro hresolved
    simp [touchOutbound, hresolved] at hdue
  simp only [touchOutbound, hstatus, if_false] at hdue hresponded
  split_ifs at hresponded with hcloses
  obtain ⟨i, startedAt, hi, hs, ho⟩ := hwaits ⟨hdue, hresponded⟩
  refine ⟨i, startedAt, hi, by simpa [touchOutbound, hstatus] using hs, fun o hlast => ?_⟩
  have hopen : startedAt ≤ t → isAfter t c.lastOutboundAt = false := by
    intro hle
    by_contra hafter
    exact hcloses (by simp [closesResponseSlaCycle, hstatus, hs, hle, hdue, hresponded, hafter])
  have hmax : max (c.lastOutboundAt.getD t) t = o := by simpa [touchOutbound] using hlast
  by_cases hle : startedAt ≤ t
  · -- Late enough, so not newer than an outbound message that came before.
    obtain ⟨o', ho', hold⟩ : ∃ o', c.lastOutboundAt = some o' ∧ t ≤ o' := by
      have hnot := hopen hle
      rcases hout : c.lastOutboundAt with _ | o'
      · simp [hout, isAfter] at hnot
      · exact ⟨o', rfl, by simpa [hout, isAfter] using hnot⟩
    rw [ho', Option.getD_some, max_eq_left hold] at hmax
    exact hmax ▸ ho o' ho'
  · rcases hout : c.lastOutboundAt with _ | o'
    · rw [hout, Option.getD_none, max_self] at hmax
      exact .inr (hmax ▸ not_le.mp hle)
    · rw [hout, Option.getD_some] at hmax
      rcases max_choice o' t with h | h
      · rw [h] at hmax
        exact hmax ▸ ho o' hout
      · rw [h] at hmax
        exact .inr (hmax ▸ not_le.mp hle)

/-- Every move keeps it: an unanswered cycle means that the customer waits. -/
theorem Moves.customerWaits (h : Moves db a c c') (hwaits : c.IsUnanswered → c.CustomerWaits) :
    c'.IsUnanswered → c'.CustomerWaits := by
  intro hopen
  cases h with
  | kept heq _ =>
      obtain ⟨-, -, hin, hout, hstarted, hdue, hresponded, -⟩ := columns_eq heq
      unfold IsUnanswered CustomerWaits at *
      rw [hdue, hresponded] at hopen
      rw [hin, hout, hstarted]
      exact hwaits hopen
  | inbound _ => exact customerWaits_touchInbound hwaits _ _ hopen
  | outbound _ => exact customerWaits_touchOutbound hwaits _ hopen
  | assigned _ htrigger =>
      obtain ⟨-, htrigger⟩ := htrigger
      simp only [awaitsTeam, Bool.and_eq_true] at htrigger
      obtain ⟨i, hi, hlater⟩ := Option.any_eq_true _ _ |>.mp htrigger.1.2
      exact ⟨i, _, hi, rfl, fun o ho => .inl (isAfter_eq_true_iff.mp hlater o ho)⟩
  | updated => exact hwaits hopen
  | escalated _ => exact hwaits hopen

end Conversation

namespace Inbox

open Conversation

variable {db db' : Db} {id : Uuid} {c : Conversation}

/-- **An open response-time cycle means that the customer is waiting.** From a conversation without
a cycle, or not yet there, whatever statements run: while it is `OPEN` or `PENDING` with a due time
and no answer, its customer has written, and its last outbound message, if any, is older than that
or was accepted before the cycle started. -/
theorem waiting_customer (h : Reachable step db db')
    (h0 : ∀ c, db.conversation id = some c → c.NoCycle)
    (hc : db'.conversation id = some c) (_hstatus : c.status ≠ .resolved)
    (hdue : c.responseSlaDueAt.isSome = true) (hresponded : c.responseSlaRespondedAt = none) :
    ∃ i startedAt, c.lastInboundAt = some i ∧ c.responseSlaStartedAt = some startedAt ∧
      ∀ o, c.lastOutboundAt = some o → o < i ∨ o < startedAt := by
  have noCycle : ∀ r : Conversation, r.NoCycle → r.IsUnanswered → r.CustomerWaits := by
    rintro r ⟨-, hnone, -, -⟩ ⟨hsome, -⟩
    rw [hnone] at hsome
    cases hsome
  have hall : ∀ r, db'.conversation id = some r → r.IsUnanswered → r.CustomerWaits := by
    refine Reaches.invariant (P := fun x => ∀ r, x.conversation id = some r →
      r.IsUnanswered → r.CustomerWaits) h (fun r hr => noCycle r (h0 r hr)) ?_
    intro x b y hinv _ hstep r hr
    obtain ⟨hmoves, hnew⟩ := step_row hstep id
    rcases hx : x.conversation id with _ | r₀
    · exact noCycle r (hnew hx r hr)
    · obtain ⟨r', hr', hmove⟩ := hmoves r₀ hx
      rw [hr] at hr'
      cases hr'
      exact hmove.customerWaits (hinv r₀ hx)
  exact hall c hc ⟨hdue, hresponded⟩

/-! A reply that was accepted before the team was assigned, and recorded after it. -/

section overtaken

/-- A tenant with one contact and one team, which answers within half an hour. -/
def oneTeam : Db :=
  { Db.empty with
    contacts := Table.empty.insertAll [⟨2, 1, "+351", none, none, none, [], .unknown, none, none,
      none, none, none, none⟩]
    inboxTeams := Table.empty.insertAll [⟨5, 1, true, some 30⟩] }

/-- The customer writes at 10, an agent answers at 15, the team is assigned at 20, and then the
answer is recorded. -/
def overtakenReply : List InboxAct :=
  [.recordInbound 7 ⟨1, 3, 2, 10⟩, .assignTeam 1 7 5 20,
    .updateRow 7 ⟨none, none, none, some (some 5)⟩ 20, .recordOutbound 8 ⟨1, 3, "+351", .text, 15⟩]

/-- A reply that is overtaken leaves the cycle open. -/
theorem overtakenReply_row :
    ∃ db' c, exec step oneTeam overtakenReply = some db' ∧ db'.conversation 7 = some c ∧
      c.cycleColumns = ⟨7, .open, some 10, some 15, some 20, some 1800020, none, none⟩ := by
  have hrow : ((exec step oneTeam overtakenReply).bind (·.conversation 7)).map cycleColumns =
      some ⟨7, .open, some 10, some 15, some 20, some 1800020, none, none⟩ := by decide
  obtain ⟨c, hc, hcolumns⟩ := Option.map_eq_some_iff.mp hrow
  obtain ⟨db', hdb', hc⟩ := Option.bind_eq_some_iff.mp hc
  exact ⟨db', c, hdb', hc, hcolumns⟩

/-- The conversation is new, its cycle stays open, and yet the last message is the team's. -/
theorem overtaken_reply_leaves_cycle_open :
    ∃ db' c, oneTeam.conversation 7 = none ∧ exec step oneTeam overtakenReply = some db' ∧
      db'.conversation 7 = some c ∧ c.status = .open ∧ c.responseSlaDueAt.isSome = true ∧
      c.responseSlaRespondedAt = none ∧ c.lastInboundAt = some 10 ∧ c.lastOutboundAt = some 15 := by
  obtain ⟨db', c, hdb', hc, hcolumns⟩ := overtakenReply_row
  simp only [cycleColumns, CycleColumns.mk.injEq] at hcolumns
  obtain ⟨-, hstatus, hin, hout, -, hdue, hresponded, -⟩ := hcolumns
  exact ⟨db', c, by decide, hdb', hc, hstatus, by rw [hdue]; rfl, hresponded, hin, hout⟩

/-- There the customer waits in the sense above: the reply is older than the cycle. -/
theorem waiting_customer_overtaken :
    ∃ db' c, exec step oneTeam overtakenReply = some db' ∧ db'.conversation 7 = some c ∧
      ∃ i startedAt, c.lastInboundAt = some i ∧ c.responseSlaStartedAt = some startedAt ∧
        ∀ o, c.lastOutboundAt = some o → o < i ∨ o < startedAt := by
  obtain ⟨db', c, hdb', hc, hcolumns⟩ := overtakenReply_row
  simp only [cycleColumns, CycleColumns.mk.injEq] at hcolumns
  obtain ⟨-, hstatus, -, -, -, hdue, hresponded, -⟩ := hcolumns
  have hnew : oneTeam.conversation 7 = none := by decide
  refine ⟨db', c, hdb', hc, waiting_customer (Reachable.of_exec hdb') ?_ hc ?_ ?_ hresponded⟩
  · intro r hr
    rw [hnew] at hr
    cases hr
  · rw [hstatus]
    decide
  · rw [hdue]
    rfl

end overtaken

end Inbox

/-! ## The row constraint -/

namespace Conversation

variable {db : Db} {a : InboxAct} {c c' : Conversation}

/-- Source: `Conversation_responseSlaCycle_check`. -/
def responseSlaCycleCheck (c : Conversation) : Bool :=
  (c.responseSlaStartedAt.isNone && c.responseSlaDueAt.isNone &&
      c.responseSlaRespondedAt.isNone && c.responseSlaEscalatedAt.isNone) ||
    match c.responseSlaStartedAt, c.responseSlaDueAt with
    | some startedAt, some dueAt =>
        startedAt < dueAt && c.responseSlaRespondedAt.all (startedAt ≤ ·) &&
          c.responseSlaEscalatedAt.all (dueAt ≤ ·)
    | _, _ => false

/-- A row without a cycle passes the check. -/
theorem NoCycle.check (h : c.NoCycle) : c.responseSlaCycleCheck = true := by
  obtain ⟨hstarted, hdue, hresponded, hescalated⟩ := h
  simp [responseSlaCycleCheck, hstarted, hdue, hresponded, hescalated]

/-- A row with a due time passes the constraint when its bounds are in order and its marks are not
before them. -/
theorem check_iff_of_due {dueAt : Time} (hdue : c.responseSlaDueAt = some dueAt) :
    c.responseSlaCycleCheck = true ↔ ∃ startedAt, c.responseSlaStartedAt = some startedAt ∧
      startedAt < dueAt ∧ (∀ t, c.responseSlaRespondedAt = some t → startedAt ≤ t) ∧
      ∀ t, c.responseSlaEscalatedAt = some t → dueAt ≤ t := by
  unfold responseSlaCycleCheck
  rcases hstarted : c.responseSlaStartedAt with _ | startedAt
  · simp [hdue]
  · simp [hdue, Option.all_eq_true, and_assoc]

/-- A cycle that has just started passes the constraint, under every policy there can be. -/
theorem check_of_started {minutes : ℕ} {startedAt : Time}
    (hvalid : validResponseSlaMinutes (some minutes) = true)
    (hstarted : c.responseSlaStartedAt = some startedAt)
    (hdue : c.responseSlaDueAt = some (startedAt + minutes * 60000))
    (hresponded : c.responseSlaRespondedAt = none) (hescalated : c.responseSlaEscalatedAt = none) :
    c.responseSlaCycleCheck = true := by
  have hpos : 1 ≤ minutes := by
    simp only [validResponseSlaMinutes, Option.all_some, Bool.and_eq_true, decide_eq_true_eq]
      at hvalid
    exact hvalid.1
  refine (check_iff_of_due hdue).mpr ⟨startedAt, hstarted, ?_, ?_, ?_⟩
  · exact Nat.lt_add_of_pos_right (Nat.mul_pos hpos (by decide))
  · rw [hresponded]
    intro t ht
    cases ht
  · rw [hescalated]
    intro t ht
    cases ht

/-- The constraint reads the four columns of the cycle. -/
theorem check_congr (hstarted : c'.responseSlaStartedAt = c.responseSlaStartedAt)
    (hdue : c'.responseSlaDueAt = c.responseSlaDueAt)
    (hresponded : c'.responseSlaRespondedAt = c.responseSlaRespondedAt)
    (hescalated : c'.responseSlaEscalatedAt = c.responseSlaEscalatedAt) :
    c'.responseSlaCycleCheck = c.responseSlaCycleCheck := by
  unfold responseSlaCycleCheck
  rw [hstarted, hdue, hresponded, hescalated]

/-- An inbound message keeps the check. -/
theorem check_touchInbound {m : Option ℕ} (hvalid : validResponseSlaMinutes m = true) (t : Time)
    (hcheck : c.responseSlaCycleCheck = true) :
    (c.touchInbound m t).responseSlaCycleCheck = true := by
  by_cases hstarts : c.startsResponseSlaCycle t = true
  · rcases m with _ | minutes
    · exact NoCycle.check ⟨by simp [touchInbound, hstarts], by simp [touchInbound, hstarts],
        by simp [touchInbound, hstarts], by simp [touchInbound, hstarts]⟩
    · exact check_of_started hvalid (by simp [touchInbound, hstarts]; rfl)
        (by simp [touchInbound, hstarts]) (by simp [touchInbound, hstarts])
        (by simp [touchInbound, hstarts])
  · rw [check_congr (c := c)]
    · exact hcheck
    all_goals simp [touchInbound, hstarts]

/-- An outbound message keeps the check. -/
theorem check_touchOutbound (t : Time) (hcheck : c.responseSlaCycleCheck = true) :
    (c.touchOutbound t).responseSlaCycleCheck = true := by
  by_cases hresolved : c.status = .resolved
  · exact NoCycle.check ⟨by simp [touchOutbound, hresolved], by simp [touchOutbound, hresolved],
      by simp [touchOutbound, hresolved], by simp [touchOutbound, hresolved]⟩
  by_cases hcloses : c.closesResponseSlaCycle t = true
  · have hguard := hcloses
    simp only [closesResponseSlaCycle, Bool.and_eq_true] at hguard
    obtain ⟨⟨⟨⟨-, hafter⟩, hdue⟩, -⟩, -⟩ := hguard
    obtain ⟨dueAt, hdue⟩ := Option.isSome_iff_exists.mp hdue
    obtain ⟨startedAt, hstarted, hlt, -, hescalated⟩ := (check_iff_of_due hdue).mp hcheck
    have hkept : (c.touchOutbound t).responseSlaDueAt = some dueAt := by
      simpa [touchOutbound, hresolved] using hdue
    refine (check_iff_of_due hkept).mpr ⟨startedAt, ?_, hlt, ?_, ?_⟩
    · simpa [touchOutbound, hresolved] using hstarted
    · have hle : startedAt ≤ t := by simpa [hstarted] using hafter
      simpa [touchOutbound, hresolved, hcloses] using hle
    · simpa [touchOutbound, hresolved] using hescalated
  · rw [check_congr (c := c)]
    · exact hcheck
    all_goals simp [touchOutbound, hresolved, hcloses]

/-- An escalation keeps the check. -/
theorem check_escalated {now : Time} (h : c.isOverdue now = true)
    (hcheck : c.responseSlaCycleCheck = true) :
    (c.escalate now).responseSlaCycleCheck = true := by
  simp only [isOverdue, Bool.and_eq_true] at h
  obtain ⟨⟨⟨⟨-, -⟩, hdue⟩, -⟩, -⟩ := h
  obtain ⟨dueAt, hdue, hle⟩ := (Option.any_eq_true _ _).mp hdue
  obtain ⟨startedAt, hstarted, hlt, hresponded, -⟩ := (check_iff_of_due hdue).mp hcheck
  have hkept : (c.escalate now).responseSlaDueAt = some dueAt := hdue
  refine (check_iff_of_due hkept).mpr ⟨startedAt, hstarted, hlt, hresponded, ?_⟩
  intro t ht
  obtain rfl := Option.some.inj ht
  exact of_decide_eq_true hle

/-- Every move keeps the constraint. -/
theorem Moves.check (h : Moves db a c c') (hpolicies : db.validPolicies = true)
    (hcheck : c.responseSlaCycleCheck = true) : c'.responseSlaCycleCheck = true := by
  cases h with
  | kept heq _ =>
      obtain ⟨-, -, -, -, hstarted, hdue, hresponded, hescalated⟩ := columns_eq heq
      rwa [check_congr hstarted hdue hresponded hescalated]
  | inbound _ => exact check_touchInbound (Db.valid_responseSlaMinutes hpolicies _) _ hcheck
  | outbound _ => exact check_touchOutbound _ hcheck
  | assigned hpolicy _ =>
      have hvalid := hpolicy ▸ Db.valid_teamResponseSlaMinutes hpolicies _ _
      exact check_of_started hvalid rfl rfl rfl rfl
  | updated => exact hcheck
  | escalated hoverdue => exact check_escalated hoverdue hcheck

end Conversation

namespace Inbox

open Conversation

variable {db db' : Db} {a : InboxAct} {id : Uuid} {c c' : Conversation}

/-- **The row constraint is never the cause of an abort.** Under policies within their bounds, every
statement leaves a conversation that passed the constraint, or that it inserts, in a state that
passes it; its times may be any. -/
theorem check_kept (hpolicies : db.validPolicies = true) (h : step db a = some db')
    (hcheck : ∀ c, db.conversation id = some c → c.responseSlaCycleCheck = true)
    (hc' : db'.conversation id = some c') : c'.responseSlaCycleCheck = true := by
  obtain ⟨hmoves, hnew⟩ := step_row h id
  rcases hc : db.conversation id with _ | c
  · exact (hnew hc c' hc').check
  · obtain ⟨r, hr, hmove⟩ := hmoves c hc
    rw [hc'] at hr
    cases hr
    exact hmove.check hpolicies (hcheck c hc)

/-- The customer of `oneTeam` has written, nobody has been assigned. -/
def unassigned : Db := (exec step oneTeam [.recordInbound 7 ⟨1, 3, 2, 10⟩]).getD Db.empty

/-- An assignment opens a cycle that passes the check. -/
theorem check_kept_assigned :
    ∃ db' c', step unassigned (.assignTeam 1 7 5 20) = some db' ∧ db'.conversation 7 = some c' ∧
      c'.responseSlaDueAt = some 1800020 ∧ c'.responseSlaCycleCheck = true := by
  have hrow : ((step unassigned (.assignTeam 1 7 5 20)).bind (·.conversation 7)).map
      responseSlaDueAt = some (some 1800020) := by decide
  obtain ⟨c', hc', hdue⟩ := Option.map_eq_some_iff.mp hrow
  obtain ⟨db', hdb', hc'⟩ := Option.bind_eq_some_iff.mp hc'
  have hbefore : ((unassigned.conversation 7).all responseSlaCycleCheck) = true := by decide
  refine ⟨db', c', hdb', hc', hdue, check_kept (by decide) hdb' ?_ hc'⟩
  intro c hc
  rwa [hc] at hbefore

end Inbox

/-! ## One cycle -/

namespace Conversation

variable {db : Db} {a : InboxAct} {id : Uuid} {c c' : Conversation}

/-- The statement escalates the cycle: open, unanswered, due at the time of the scan, and not
escalated before. -/
def Escalates (a : InboxAct) (c c' : Conversation) : Prop :=
  ∃ now claimed dueAt, a = .escalateOverdue now claimed ∧ c.status ≠ .resolved ∧
    c.responseSlaRespondedAt = none ∧ c.responseSlaDueAt = some dueAt ∧ dueAt ≤ now ∧
    c.responseSlaEscalatedAt = none ∧ c'.responseSlaEscalatedAt = some now

/-- The statement answers the cycle: a non-template message to this conversation, not before the
start of the cycle, which was not answered before. -/
def Responds (db : Db) (a : InboxAct) (c c' : Conversation) : Prop :=
  ∃ newId activity startedAt, a = .recordOutbound newId activity ∧
    activity.messageType ≠ .template ∧ db.outboundConversation activity = some c ∧
    c.responseSlaStartedAt = some startedAt ∧ startedAt ≤ activity.occurredAt ∧
    c.responseSlaRespondedAt = none ∧ c'.responseSlaRespondedAt = some activity.occurredAt

/-- The cycle of `c'` is that of `c`, marked at most by this statement. -/
structure SameCycle (db : Db) (a : InboxAct) (c c' : Conversation) : Prop where
  startedAt : c'.responseSlaStartedAt = c.responseSlaStartedAt
  dueAt : c'.responseSlaDueAt = c.responseSlaDueAt
  escalatedAt : c'.responseSlaEscalatedAt = c.responseSlaEscalatedAt ∨ Escalates a c c'
  respondedAt : c'.responseSlaRespondedAt = c.responseSlaRespondedAt ∨ Responds db a c c'

/-- A statement that starts and clears nothing leaves the cycle what it is. -/
theorem Moves.sameCycle (h : Moves db a c c') (hc : db.conversation c.id = some c)
    (hsame : a.startsOrClears db c.id = false) : SameCycle db a c c' := by
  cases h with
  | kept heq _ =>
      obtain ⟨-, -, -, -, hstarted, hdue, hresponded, hescalated⟩ := columns_eq heq
      exact ⟨hstarted, hdue, .inl hescalated, .inl hresponded⟩
  | @inbound newId activity _ htarget =>
      have hstarts : c.startsResponseSlaCycle activity.occurredAt = false := by
        simpa [InboxAct.startsOrClears, htarget] using hsame
      refine ⟨?_, ?_, .inl ?_, .inl ?_⟩ <;> simp [touchInbound, hstarts]
  | @outbound newId activity _ htarget =>
      have hstatus : c.status ≠ .resolved := by
        simpa [InboxAct.startsOrClears, htarget] using hsame
      refine ⟨?_, ?_, .inl ?_, ?_⟩
      · simp [touchOutbound, hstatus]
      · simp [touchOutbound, hstatus]
      · simp [touchOutbound, hstatus]
      · by_cases hcloses : c.closesResponseSlaCycle activity.occurredAt = true
        · have hguard := hcloses
          simp only [closesResponseSlaCycle, Bool.and_eq_true] at hguard
          obtain ⟨⟨⟨⟨-, hafter⟩, -⟩, hnone⟩, -⟩ := hguard
          obtain ⟨startedAt, hstarted, hle⟩ := (Option.any_eq_true _ _).mp hafter
          exact .inr ⟨newId, activity, startedAt, rfl,
            (mem_of_outboundConversation htarget).1, htarget, hstarted,
            of_decide_eq_true hle, Option.isNone_iff_eq_none.mp hnone,
            by simp [touchOutbound, hstatus, hcloses]⟩
        · exact .inl (by simp [touchOutbound, hstatus, hcloses])
  | assigned hpolicy hwaits =>
      obtain ⟨htenant, hwaits⟩ := hwaits
      rw [← htenant] at hpolicy
      simp [InboxAct.startsOrClears, hpolicy, hc, ← htenant, hwaits] at hsame
  | updated => exact ⟨rfl, rfl, .inl rfl, .inl rfl⟩
  | @escalated now claimed _ hoverdue =>
      simp only [isOverdue, Bool.and_eq_true, decide_eq_true_eq] at hoverdue
      obtain ⟨⟨⟨⟨hstatus, -⟩, hdue⟩, hresponded⟩, hescalated⟩ := hoverdue
      obtain ⟨dueAt, hdue, hle⟩ := (Option.any_eq_true _ _).mp hdue
      exact ⟨rfl, rfl, .inr ⟨now, claimed, dueAt, rfl, hstatus,
        Option.isNone_iff_eq_none.mp hresponded, hdue, of_decide_eq_true hle,
        Option.isNone_iff_eq_none.mp hescalated, rfl⟩, .inl rfl⟩

/-- A cycle that has just started, or none. -/
def IsFresh (c : Conversation) : Prop :=
  (c.responseSlaStartedAt.isSome = c.responseSlaDueAt.isSome) ∧
    c.responseSlaRespondedAt = none ∧ c.responseSlaEscalatedAt = none

/-- A statement that starts or clears the cycle leaves no mark of the old one. -/
theorem Moves.isFresh (h : Moves db a c c') (hstarts : a.startsOrClears db c.id = true) :
    c'.IsFresh := by
  cases h with
  | kept _ hkept =>
      rw [hkept] at hstarts
      cases hstarts
  | @inbound newId activity _ htarget =>
      have hguard : c.startsResponseSlaCycle activity.occurredAt = true := by
        simpa [InboxAct.startsOrClears, htarget] using hstarts
      refine ⟨?_, ?_, ?_⟩ <;> simp [touchInbound, hguard]
  | outbound htarget =>
      have hstatus : c.status = .resolved := by
        simpa [InboxAct.startsOrClears, htarget] using hstarts
      refine ⟨?_, ?_, ?_⟩ <;> simp [touchOutbound, hstatus]
  | assigned _ _ => exact ⟨rfl, rfl, rfl⟩
  | updated => cases hstarts
  | escalated _ => cases hstarts

/-- While a cycle waits for its answer, nothing starts or clears one. -/
theorem not_startsOrClears (hc : db.conversation id = some c) (hstatus : c.status ≠ .resolved)
    (hopen : c.IsUnanswered) (a : InboxAct) : a.startsOrClears db id = false := by
  obtain ⟨hdue, hresponded⟩ := hopen
  have hid : c.id = id := (Db.conversation_eq_some_iff.mp hc).2
  have hguards : (∀ t, c.startsResponseSlaCycle t = false) ∧ c.awaitsTeam = false := by
    constructor
    · intro t
      simp [startsResponseSlaCycle, hstatus, hresponded, hdue]
    · simp [awaitsTeam, hresponded, hdue]
  -- The row that a message finds is this one when it has its identifier.
  have hrow : ∀ {k r}, db.conversations.find k = some r → r.id = id → r = c := by
    intro k r hr hrid
    exact Inbox.eq_of_conversation hc (db.conversations.find_eq_some_iff.mp hr).1
      (hid.trans hrid.symm)
  cases a with
  | recordInbound newId activity =>
      rcases hr : db.conversations.find
        (.participants activity.tenantId activity.senderId activity.contactId) with _ | r
      · simp [InboxAct.startsOrClears, hr]
      · by_cases hrid : r.id = id
        · obtain rfl := hrow hr hrid
          simp [InboxAct.startsOrClears, hr, hguards.1]
        · simp [InboxAct.startsOrClears, hr, hrid]
  | recordOutbound newId activity =>
      rcases hr : db.outboundConversation activity with _ | r
      · simp [InboxAct.startsOrClears, hr]
      · by_cases hrid : r.id = id
        · have hmem : r ∈ db.conversations.rows := (mem_of_outboundConversation hr).2
          obtain rfl := Inbox.eq_of_conversation hc hmem (hid.trans hrid.symm)
          simp [InboxAct.startsOrClears, hr, hstatus]
        · simp [InboxAct.startsOrClears, hr, hrid]
  | assignTeam tenantId conversationId teamId now =>
      simp [InboxAct.startsOrClears, hc, hguards.2]
  | removeTeam tenantId conversationId => rfl
  | updateRow i dto now => rfl
  | updateTeamPolicy tenantId teamId minutes => rfl
  | escalateOverdue now claimed => rfl
  | other d => rfl

end Conversation

namespace Inbox

open Conversation

variable {db db' : Db} {a : InboxAct} {id : Uuid} {c : Conversation}

/-- A row is never lost. -/
theorem exists_row_of_reaches {G : Db → InboxAct → Prop} (h : Reaches step G db db')
    (hc : db.conversation id = some c) : ∃ c', db'.conversation id = some c' := by
  refine Reaches.invariant (P := fun x => ∃ r, x.conversation id = some r) h ⟨c, hc⟩ ?_
  rintro x b y ⟨r, hr⟩ - hstep
  obtain ⟨r', hr', -⟩ := (step_row hstep id).1 r hr
  exact ⟨r', hr'⟩

/-- What a statement that starts and clears nothing does to the row of `id`. -/
theorem sameCycle_of_step (h : step db a = some db') (hc : db.conversation id = some c)
    (hsame : a.startsOrClears db id = false) :
    ∃ c', db'.conversation id = some c' ∧ SameCycle db a c c' := by
  obtain ⟨c', hc', hmove⟩ := (step_row h id).1 c hc
  obtain rfl := (Db.conversation_eq_some_iff.mp hc).2
  exact ⟨c', hc', hmove.sameCycle hc hsame⟩

/-- The transitions of a run that start and clear nothing, one by one. -/
theorem sameCycle_of_mem_trace {as : List InboxAct} (hc : db.conversation id = some c)
    (hcycle : ∀ x ∈ trace step db as, x.2.1.startsOrClears x.1 id = false)
    {x : Db × InboxAct × Db} (hx : x ∈ trace step db as) :
    ∃ r r', x.1.conversation id = some r ∧ x.2.2.conversation id = some r' ∧
      SameCycle x.1 x.2.1 r r' := by
  obtain ⟨hreach, hstep⟩ := reaches_of_mem_trace
    (G := fun d b => b.startsOrClears d id = false) hx hcycle
  obtain ⟨r, hr⟩ := exists_row_of_reaches hreach hc
  obtain ⟨r', hr', hsame⟩ := sameCycle_of_step hstep hr (hcycle x hx)
  exact ⟨r, r', hr, hr', hsame⟩

/-- A column of a conversation. -/
def column (f : Conversation → Option Time) (id : Uuid) (db : Db) : Option Time :=
  (db.conversation id).bind f

/-- The transitions of a run that change a column of a conversation. -/
def changes (f : Conversation → Option Time) (id : Uuid) (db : Db) (as : List InboxAct) :
    List (Db × InboxAct × Db) :=
  (trace step db as).filter fun x => column f id x.2.2 ≠ column f id x.1

/-- A column is read from its row. -/
theorem column_of_row {f : Conversation → Option Time} (hc : db.conversation id = some c) :
    column f id db = f c := by
  simp [column, hc]

/-- A mark that is only set while it is unset, and only by a statement of kind `M`: it is set at
most once, stays, and every change of it is of that kind. -/
theorem mark_once {f : Conversation → Option Time} {M : Db → InboxAct → Conversation →
      Conversation → Prop} {as : List InboxAct}
    (hrun : exec step db as = some db') (hc : db.conversation id = some c)
    (hcycle : ∀ x ∈ trace step db as, x.2.1.startsOrClears x.1 id = false)
    (hmark : ∀ d b r r', SameCycle d b r r' → f r' = f r ∨ M d b r r')
    (hunset : ∀ d b r r', M d b r r' → f r = none) :
    (changes f id db as).length ≤ 1 ∧ ((f c).isSome → column f id db' = f c) ∧
      ∀ x ∈ changes f id db as, ∃ r r', x.1.conversation id = some r ∧
        x.2.2.conversation id = some r' ∧ M x.1 x.2.1 r r' := by
  have hcases : ∀ x ∈ trace step db as, column f id x.2.2 = column f id x.1 ∨
      ∃ r r', x.1.conversation id = some r ∧ x.2.2.conversation id = some r' ∧
        M x.1 x.2.1 r r' := by
    intro x hx
    obtain ⟨r, r', hr, hr', hsame⟩ := sameCycle_of_mem_trace hc hcycle hx
    rcases hmark _ _ _ _ hsame with hkeep | hM
    · exact .inl (by rw [column_of_row hr, column_of_row hr', hkeep])
    · exact .inr ⟨r, r', hr, hr', hM⟩
  obtain ⟨hle, hset⟩ := length_changes_of_exec (f := column f id) hrun (by
    intro x hx
    refine (hcases x hx).imp_right ?_
    rintro ⟨r, r', hr, -, hM⟩
    rw [column_of_row hr, hunset _ _ _ _ hM])
  refine ⟨hle, fun hsome => ?_, fun x hx => ?_⟩
  · rw [← column_of_row (f := f) hc] at hsome ⊢
    exact (hset hsome).1
  · obtain ⟨hmem, hne⟩ := List.mem_filter.mp hx
    exact (hcases x hmem).resolve_left (by simpa using hne)

/-- **One escalation and one response for each cycle.** Take any run of statements, of any number of
scanners among them, that starts and clears no cycle of a conversation. Its bounds stand; its
escalation and its response are each set at most once, by a scan that finds it open, unanswered and
due, and by a non-template message not before its start; what is set stays.

Where a statement does start or clear the cycle, no mark of the old one is left; and no statement
does so while the cycle is waiting for its answer, nor does an inbound message that is not newer
than the last one. -/
theorem one_escalation_one_response {as : List InboxAct} (hrun : exec step db as = some db')
    (hc : db.conversation id = some c)
    (hcycle : ∀ x ∈ trace step db as, x.2.1.startsOrClears x.1 id = false) :
    (∃ c', db'.conversation id = some c' ∧
      c'.responseSlaStartedAt = c.responseSlaStartedAt ∧
      c'.responseSlaDueAt = c.responseSlaDueAt ∧
      (c.responseSlaEscalatedAt.isSome → c'.responseSlaEscalatedAt = c.responseSlaEscalatedAt) ∧
      (c.responseSlaRespondedAt.isSome → c'.responseSlaRespondedAt = c.responseSlaRespondedAt)) ∧
    (changes responseSlaEscalatedAt id db as).length ≤ 1 ∧
    (∀ x ∈ changes responseSlaEscalatedAt id db as, ∃ r r', x.1.conversation id = some r ∧
      x.2.2.conversation id = some r' ∧ Escalates x.2.1 r r') ∧
    (changes responseSlaRespondedAt id db as).length ≤ 1 ∧
    (∀ x ∈ changes responseSlaRespondedAt id db as, ∃ r r', x.1.conversation id = some r ∧
      x.2.2.conversation id = some r' ∧ Responds x.1 x.2.1 r r') ∧
    (∀ d b d' r, step d b = some d' → d.conversation id = some r →
      (b.startsOrClears d id = true → ∃ r', d'.conversation id = some r' ∧ r'.IsFresh) ∧
      (r.status ≠ .resolved → r.IsUnanswered → b.startsOrClears d id = false) ∧
      (∀ newId activity, b = .recordInbound newId activity →
        isAfter activity.occurredAt r.lastInboundAt = false → b.startsOrClears d id = false)) := by
  obtain ⟨hescalations, hescalated, hescalates⟩ := mark_once (f := responseSlaEscalatedAt)
    (M := fun _ => Escalates) hrun hc hcycle (fun _ _ _ _ h => h.escalatedAt)
    fun _ _ _ _ ⟨_, _, _, _, _, _, _, _, hnone, _⟩ => hnone
  obtain ⟨hresponses, hresponded, hresponds⟩ := mark_once (f := responseSlaRespondedAt)
    (M := Responds) hrun hc hcycle (fun _ _ _ _ h => h.respondedAt)
    fun _ _ _ _ ⟨_, _, _, _, _, _, _, _, hnone, _⟩ => hnone
  refine ⟨?_, hescalations, hescalates, hresponses, hresponds, ?_⟩
  · have hreach := Reaches.of_exec (G := fun d b => b.startsOrClears d id = false) hrun hcycle
    obtain ⟨c', hc'⟩ := exists_row_of_reaches hreach hc
    have hbounds : ∀ f : Conversation → Option Time,
        (∀ d b r r', SameCycle d b r r' → f r' = f r) → f c' = f c := by
      intro f hf
      rw [← column_of_row (f := f) hc', ← column_of_row (f := f) hc]
      refine eq_of_exec hrun fun x hx => ?_
      obtain ⟨r, r', hr, hr', hsame⟩ := sameCycle_of_mem_trace hc hcycle hx
      rw [column_of_row hr, column_of_row hr', hf _ _ _ _ hsame]
    rw [column_of_row hc'] at hescalated hresponded
    exact ⟨c', hc', hbounds _ fun _ _ _ _ h => h.startedAt, hbounds _ fun _ _ _ _ h => h.dueAt,
      hescalated, hresponded⟩
  · intro d b d' r hstep hr
    refine ⟨fun hstarts => ?_, fun hstatus hopen => not_startsOrClears hr hstatus hopen b, ?_⟩
    · obtain ⟨r', hr', hmove⟩ := (step_row hstep id).1 r hr
      obtain rfl := (Db.conversation_eq_some_iff.mp hr).2
      exact ⟨r', hr', hmove.isFresh hstarts⟩
    · rintro newId activity rfl hold
      rcases htarget : d.conversations.find
        (.participants activity.tenantId activity.senderId activity.contactId) with _ | r₀
      · simp [InboxAct.startsOrClears, htarget]
      · by_cases hid : r₀.id = id
        · have hmem := (d.conversations.find_eq_some_iff.mp htarget).1
          obtain rfl := eq_of_conversation hr hmem
            ((Db.conversation_eq_some_iff.mp hr).2.trans hid.symm)
          simp [InboxAct.startsOrClears, htarget, startsResponseSlaCycle, hold]
        · simp [InboxAct.startsOrClears, htarget, hid]

/-- The cycle of the conversation of `oneTeam`, started by the assignment at 20. -/
def waiting : Db := (step unassigned (.assignTeam 1 7 5 20)).getD Db.empty

/-- A duplicate, a reassignment, a policy change, three scans, and two replies. -/
def oneCycle : List InboxAct :=
  [.recordInbound 8 ⟨1, 3, 2, 10⟩, .assignTeam 1 7 5 30, .updateTeamPolicy 1 5 (some 60),
    .escalateOverdue 1800020 [7], .escalateOverdue 1800021 [7],
    .recordOutbound 8 ⟨1, 3, "+351", .text, 1900000⟩, .escalateOverdue 2000000 [7],
    .recordOutbound 8 ⟨1, 3, "+351", .text, 1950000⟩]

/-- The columns after one cycle. -/
theorem one_escalation_one_response_oneCycle :
    ∃ db' c', exec step waiting oneCycle = some db' ∧ db'.conversation 7 = some c' ∧
      c'.responseSlaStartedAt = some 20 ∧ c'.responseSlaDueAt = some 1800020 ∧
      (changes responseSlaEscalatedAt 7 waiting oneCycle).length ≤ 1 ∧
      (changes responseSlaRespondedAt 7 waiting oneCycle).length ≤ 1 := by
  have hrun : (exec step waiting oneCycle).isSome = true := by decide
  obtain ⟨db', hdb'⟩ := Option.isSome_iff_exists.mp hrun
  have hrow : (waiting.conversation 7).map cycleColumns =
      some ⟨7, .open, some 10, none, some 20, some 1800020, none, none⟩ := by decide
  obtain ⟨c, hc, hcolumns⟩ := Option.map_eq_some_iff.mp hrow
  simp only [cycleColumns, CycleColumns.mk.injEq] at hcolumns
  obtain ⟨-, -, -, -, hstarted, hdue, -, -⟩ := hcolumns
  have hcycle : (trace step waiting oneCycle).all
      (fun x => x.2.1.startsOrClears x.1 7 = false) = true := by decide
  obtain ⟨⟨c', hc', hstarted', hdue', -⟩, hescalations, -, hresponses, -⟩ :=
    one_escalation_one_response hdb' hc fun x hx => by simpa using List.all_eq_true.mp hcycle x hx
  exact ⟨db', c', hdb', hc', hstarted'.trans hstarted, hdue'.trans hdue, hescalations, hresponses⟩

end Inbox

end ApiWhatsApp
