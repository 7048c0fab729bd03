import ApiWhatsApp.Auth.ApiKeys
import ApiWhatsApp.Library.Journal

/-!
# Skills and teams of agents

`inbox/inbox-skills.service.ts` and `inbox/inbox-teams.service.ts`: agents get skills, with a level, and
become members of teams.

* `setAgentSkill`, `removeAgentSkill`, `addMember` and `removeMember` are the services, a statement at a
  time. `Assignments` is the machine: any number of calls, with skills, agents and teams that are
  created, activated and deactivated in between.
* **`assignments_audit`** — whatever calls interleave, who has which skill at which level and who is in
  which team can be read off the audit log.
* **`assignments_isolation`** — a call changes nothing of another tenant, although the statements that
  write a level name no tenant.

The statements that write lock the row until the commit, so that a change and its entry are one step.
The answer of a call is a read behind its transaction, and left out. Skills, agents and teams are never
deleted: the source has no statement for it.
-/

namespace ApiWhatsApp

open Library

/-! ## The audit log -/

/-- Source: `auditLogData`. -/
structure AuditLogData where
  tenantId : Uuid
  actorApiKeyId : Uuid
  action : String
  entityType : String
  entityId : String
  metadata : Option Json
  context : AuditRequestContext

/-- Source: `auditLogData`, for the principals of these services, which have a key. -/
def auditLogData (actor : ApiPrincipal) (context : AuditRequestContext)
    (action entityType entityId : String) (metadata : Option Json) : AuditLogData where
  tenantId := actor.tenantId
  actorApiKeyId := actor.apiKeyId
  action := action
  entityType := entityType
  entityId := entityId
  metadata := metadata
  context := context

/-- The number in a field of the metadata. -/
def AuditLogData.number? (entry : AuditLogData) (field : String) : Option ℕ :=
  match entry.metadata.bind (·.get? field) with
  | some (.num (.ofNat n) 0) => some n
  | _ => none

/-- A number of the metadata. -/
def levelField (field : String) (level : ℕ) : String × Json := (field, .num level 0)

/-- The `entityId` of an assignment. A call takes its ids in any spelling that `ParseUUIDPipe` lets
through, so that one pair may be written in several ways; entries are read by the ids they spell. -/
def pairText (a b : Uuid) : String := s!"{a}:{b}"

/-! ## The services -/

/-- The tables that the services use. -/
structure AssignmentTables where
  agents : Table InboxAgent
  skills : Table InboxSkill
  teams : Table InboxTeam
  agentSkills : Table InboxAgentSkill
  teamMembers : Table InboxTeamMember

/-- What a caller asks for. -/
inductive AssignmentCommand where
  | setAgentSkill (skillId agentId : Uuid) (level : ℕ)
  | removeAgentSkill (skillId agentId : Uuid)
  | addMember (teamId agentId : Uuid)
  | removeMember (teamId agentId : Uuid)

/-- Where a call stands: the statement that is pending, and what it has read. -/
inductive AssignmentStage where
  /-- The skill or the team is looked up. -/
  | findOwner
  | findAgent (ownerActive : Bool)
  | findExisting (skillActive agentActive : Bool)
  | update (fromLevel : ℕ)
  /-- `createMany` with `skipDuplicates`. -/
  | insert
  | updateMany
  | ended (result : Except HttpError Unit)

/-- What a statement leaves: the tables, an entry of the log, and the next stage. -/
structure AssignmentEffect where
  tables : AssignmentTables
  entry : Option AuditLogData
  stage : AssignmentStage

/-- A statement that only reads. -/
def AssignmentEffect.read (tables : AssignmentTables) (stage : AssignmentStage) : AssignmentEffect where
  tables := tables
  entry := none
  stage := stage

/-- An exception. -/
def AssignmentEffect.throw (tables : AssignmentTables) (error : HttpError) : AssignmentEffect :=
  .read tables (.ended (.error error))

section

variable (tables : AssignmentTables) (actor : ApiPrincipal) (context : AuditRequestContext)

/-- `inboxSkill.findFirst({ where: { id, tenantId } })`. -/
def findSkill (id : Uuid) : Option InboxSkill :=
  (tables.skills.find id).filter fun skill => skill.tenantId = actor.tenantId

/-- `inboxAgent.findFirst({ where: { id, tenantId } })`. -/
def findInboxAgent (id : Uuid) : Option InboxAgent :=
  (tables.agents.find id).filter fun agent => agent.tenantId = actor.tenantId

/-- `inboxTeam.findFirst({ where: { id, tenantId } })`. -/
def findTeam (id : Uuid) : Option InboxTeam :=
  (tables.teams.find id).filter fun team => team.tenantId = actor.tenantId

/-- The entry about a skill of an agent. -/
def skillEntry (action : String) (skillId agentId : Uuid) (metadata : Option Json) : AuditLogData :=
  auditLogData actor context action "InboxAgentSkill" (pairText skillId agentId) metadata

/-- The entry about a member of a team. -/
def memberEntry (action : String) (teamId agentId : Uuid) : AuditLogData :=
  auditLogData actor context action "InboxTeamMember" (pairText teamId agentId) none

/-- Source: `InboxSkillsService.setAgentSkill`. -/
def setAgentSkill (skillId agentId : Uuid) (level : ℕ) : AssignmentStage → Option AssignmentEffect
  | .findOwner =>
      match findSkill tables actor skillId with
      | none => some (.throw tables (.notFound "Inbox skill not found"))
      | some skill => some (.read tables (.findAgent skill.active))
  | .findAgent skillActive =>
      match findInboxAgent tables actor agentId with
      | none => some (.throw tables (.unprocessable "Inbox agent is not in this tenant"))
      | some agent => some (.read tables (.findExisting skillActive agent.active))
  | .findExisting skillActive agentActive =>
      match tables.agentSkills.find (skillId, agentId) with
      | some existing =>
          if existing.level = level then some (.read tables (.ended (.ok ())))
          else some (.read tables (.update existing.level))
      | none =>
          if !skillActive then
            some (.throw tables (.unprocessable "Inbox skill must be active for a new assignment"))
          else if !agentActive then
            some (.throw tables
              (.unprocessable "Inbox agent must be active for a new skill assignment"))
          else some (.read tables .insert)
  | .update fromLevel =>
      match tables.agentSkills.update? (skillId, agentId) fun r => { r with level := level } with
      | none => some (.throw tables (.other "No record was found for an update."))
      | some agentSkills =>
          some {
            tables := { tables with agentSkills := agentSkills }
            entry := some (skillEntry actor context "inbox.skill.agent.level.updated" skillId agentId
              (some (.obj [levelField "fromLevel" fromLevel, levelField "toLevel" level])))
            stage := .ended (.ok ()) }
  | .insert =>
      match tables.agentSkills.insert? ⟨actor.tenantId, skillId, agentId, level⟩ with
      | none => some (.read tables .updateMany)
      | some agentSkills =>
          some {
            tables := { tables with agentSkills := agentSkills }
            entry := some (skillEntry actor context "inbox.skill.agent.assigned" skillId agentId
              (some (.obj [levelField "level" level])))
            stage := .ended (.ok ()) }
  | .updateMany =>
      let changes : InboxAgentSkill → Bool := fun r => r.tenantId = actor.tenantId &&
        r.skillId = skillId && r.agentId = agentId && r.level ≠ level
      if tables.agentSkills.rows.any changes then
        some {
          tables := { tables with
            agentSkills := tables.agentSkills.updateWhere changes
              (fun r => { r with level := level }) fun _ => rfl }
          entry := some (skillEntry actor context "inbox.skill.agent.level.updated" skillId agentId
            (some (.obj [levelField "toLevel" level])))
          stage := .ended (.ok ()) }
      else some (.read tables (.ended (.ok ())))
  | .ended _ => none

/-- Source: `InboxSkillsService.removeAgentSkill`. -/
def removeAgentSkill (skillId agentId : Uuid) : AssignmentStage → Option AssignmentEffect
  | .findOwner =>
      match findSkill tables actor skillId with
      | none => some (.throw tables (.notFound "Inbox skill not found"))
      | some skill => some (.read tables (.findAgent skill.active))
  | .findAgent _ =>
      let removed : InboxAgentSkill → Bool := fun r => r.tenantId = actor.tenantId &&
        r.skillId = skillId && r.agentId = agentId
      if tables.agentSkills.rows.any removed then
        some {
          tables := { tables with agentSkills := tables.agentSkills.deleteWhere removed }
          entry := some (skillEntry actor context "inbox.skill.agent.removed" skillId agentId none)
          stage := .ended (.ok ()) }
      else some (.read tables (.ended (.ok ())))
  | _ => none

/-- Source: `InboxTeamsService.addMember`. -/
def addMember (teamId agentId : Uuid) : AssignmentStage → Option AssignmentEffect
  | .findOwner =>
      match findTeam tables actor teamId with
      | none => some (.throw tables (.notFound "Inbox team not found"))
      | some team => some (.read tables (.findAgent team.active))
  | .findAgent _ =>
      match findInboxAgent tables actor agentId with
      | none => some (.throw tables (.unprocessable "Inbox agent is not in this tenant"))
      | some agent =>
          if !agent.active then
            some (.throw tables (.unprocessable "Inbox agent must be active to join a team"))
          else some (.read tables .insert)
  | .insert =>
      match tables.teamMembers.insert? ⟨actor.tenantId, teamId, agentId⟩ with
      | none => some (.read tables (.ended (.ok ())))
      | some teamMembers =>
          some {
            tables := { tables with teamMembers := teamMembers }
            entry := some (memberEntry actor context "inbox.team.member.added" teamId agentId)
            stage := .ended (.ok ()) }
  | _ => none

/-- Source: `InboxTeamsService.removeMember`. -/
def removeMember (teamId agentId : Uuid) : AssignmentStage → Option AssignmentEffect
  | .findOwner =>
      match findTeam tables actor teamId with
      | none => some (.throw tables (.notFound "Inbox team not found"))
      | some team => some (.read tables (.findAgent team.active))
  | .findAgent _ =>
      let removed : InboxTeamMember → Bool := fun r => r.tenantId = actor.tenantId &&
        r.teamId = teamId && r.agentId = agentId
      if tables.teamMembers.rows.any removed then
        some {
          tables := { tables with teamMembers := tables.teamMembers.deleteWhere removed }
          entry := some (memberEntry actor context "inbox.team.member.removed" teamId agentId)
          stage := .ended (.ok ()) }
      else some (.read tables (.ended (.ok ())))
  | _ => none

end

/-! ## The machine -/

/-- A call of one of the services. -/
structure AssignmentCall where
  actor : ApiPrincipal
  context : AuditRequestContext
  command : AssignmentCommand
  stage : AssignmentStage

/-- The pending statement of a call. -/
def AssignmentCall.pending (tables : AssignmentTables) (call : AssignmentCall) :
    Option AssignmentEffect :=
  match call.command with
  | .setAgentSkill skillId agentId level =>
      setAgentSkill tables call.actor call.context skillId agentId level call.stage
  | .removeAgentSkill skillId agentId =>
      removeAgentSkill tables call.actor call.context skillId agentId call.stage
  | .addMember teamId agentId => addMember tables call.actor call.context teamId agentId call.stage
  | .removeMember teamId agentId =>
      removeMember tables call.actor call.context teamId agentId call.stage

/-- The tables, the audit log with its newest entry last, and the calls. -/
structure Assignments where
  tables : AssignmentTables
  auditLogs : List AuditLogData
  calls : List AssignmentCall

namespace Assignments

/-- The steps of the system. -/
inductive Act where
  /-- A call comes in. -/
  | request (actor : ApiPrincipal) (context : AuditRequestContext) (command : AssignmentCommand)
  /-- The pending statement of a call ends. -/
  | call (i : ℕ) (outcome : CallOutcome)
  | createAgent (agent : InboxAgent)
  | createSkill (skill : InboxSkill)
  | createTeam (team : InboxTeam)
  | setAgentActive (id : Uuid) (active : Bool)
  | setSkillActive (id : Uuid) (active : Bool)
  | setTeamActive (id : Uuid) (active : Bool)
  /-- Another service writes an entry. -/
  | log (entry : AuditLogData)

/-- The end of a statement; it takes the transaction with it when it fails. -/
def finish (s : Assignments) (i : ℕ) (call : AssignmentCall) (effect : AssignmentEffect) :
    CallOutcome → Assignments
  | .returned => ⟨effect.tables, s.auditLogs ++ effect.entry.toList,
      s.calls.set i { call with stage := effect.stage }⟩
  | .interrupted error => ⟨effect.tables, s.auditLogs ++ effect.entry.toList,
      s.calls.set i { call with stage := .ended (.error (.other error)) }⟩
  | .failed error =>
      { s with calls := s.calls.set i { call with stage := .ended (.error (.other error)) } }

/-- One step. -/
def step (s : Assignments) : Act → Option Assignments
  | .request actor context command =>
      some { s with calls := s.calls ++ [⟨actor, context, command, .findOwner⟩] }
  | .call i outcome =>
      s.calls[i]?.bind fun call =>
        (call.pending s.tables).map fun effect => s.finish i call effect outcome
  | .createAgent agent =>
      (s.tables.agents.insert? agent).map fun agents =>
        { s with tables := { s.tables with agents := agents } }
  | .createSkill skill =>
      (s.tables.skills.insert? skill).map fun skills =>
        { s with tables := { s.tables with skills := skills } }
  | .createTeam team =>
      (s.tables.teams.insert? team).map fun teams =>
        { s with tables := { s.tables with teams := teams } }
  | .setAgentActive id active =>
      some { s with tables := { s.tables with
        agents := s.tables.agents.updateWhere (fun r => r.id = id)
          (fun r => { r with active := active }) fun _ => rfl } }
  | .setSkillActive id active =>
      some { s with tables := { s.tables with
        skills := s.tables.skills.updateWhere (fun r => r.id = id)
          (fun r => { r with active := active }) fun _ => rfl } }
  | .setTeamActive id active =>
      some { s with tables := { s.tables with
        teams := s.tables.teams.updateWhere (fun r => r.id = id)
          (fun r => { r with active := active }) fun _ => rfl } }
  | .log entry =>
      if entry.entityType = "InboxAgentSkill" ∨ entry.entityType = "InboxTeamMember" then none
      else some { s with auditLogs := s.auditLogs ++ [entry] }

/-- Tables and a log, and no calls. -/
def start (tables : AssignmentTables) (auditLogs : List AuditLogData) : Assignments where
  tables := tables
  auditLogs := auditLogs
  calls := []

end Assignments

/-! ## Reading the log -/

/-- A pair is written in one way. -/
theorem pairText_inj {a b a' b' : Uuid} (h : pairText a b = pairText a' b') : (a, b) = (a', b') := by
  have htext : ∀ a b : Uuid,
      (pairText a b).toList = (toString a).toList ++ ':' :: (toString b).toList := by
    intro a b
    simp [pairText, String.toList_append]
    rfl
  have hlist := congrArg String.toList h
  rw [htext, htext] at hlist
  have hfirst : (toString a).toList = (toString a').toList := by
    have hbefore := congrArg (List.takeWhile fun c => c ≠ ':') hlist
    rwa [takeWhile_toString_nat rfl, takeWhile_toString_nat rfl] at hbefore
  rw [hfirst] at hlist
  rw [toString_nat_inj hfirst,
    toString_nat_inj (List.cons.inj (List.append_cancel_left hlist)).2]

/-- The level at which an agent has a skill. -/
def AssignmentTables.level (tables : AssignmentTables) (k : Uuid × Uuid) : Option ℕ :=
  (tables.agentSkills.find k).map InboxAgentSkill.level

/-- Whether an agent is a member of a team. -/
def AssignmentTables.membership (tables : AssignmentTables) (k : Uuid × Uuid) : Option Unit :=
  (tables.teamMembers.find k).map fun _ => ()

/-- How the entries about skills of agents are read. -/
def agentSkillJournal : Journal AuditLogData (Uuid × Uuid) ℕ where
  about entry k := entry.entityType = "InboxAgentSkill" && entry.entityId = pairText k.1 k.2
  value entry :=
    if entry.action = "inbox.skill.agent.assigned" then entry.number? "level"
    else if entry.action = "inbox.skill.agent.level.updated" then entry.number? "toLevel"
    else none
  opens entry := entry.action = "inbox.skill.agent.assigned"

/-- How the entries about members of teams are read. -/
def teamMemberJournal : Journal AuditLogData (Uuid × Uuid) Unit where
  about entry k := entry.entityType = "InboxTeamMember" && entry.entityId = pairText k.1 k.2
  value entry := if entry.action = "inbox.team.member.added" then some () else none
  opens entry := entry.action = "inbox.team.member.added"

section

variable (actor : ApiPrincipal) (context : AuditRequestContext) (k j : Uuid × Uuid)

/-- An entry is about the pair that it was written for. -/
theorem about_skillEntry (action : String) (metadata : Option Json) :
    agentSkillJournal.about (skillEntry actor context action k.1 k.2 metadata) j = decide (j = k) := by
  have hiff : pairText k.1 k.2 = pairText j.1 j.2 ↔ j = k :=
    ⟨fun h => (pairText_inj h).symm, fun h => by rw [h]⟩
  simp [agentSkillJournal, skillEntry, auditLogData, hiff]

/-- An entry about a member is about that member. -/
theorem about_memberEntry (action : String) :
    teamMemberJournal.about (memberEntry actor context action k.1 k.2) j = decide (j = k) := by
  have hiff : pairText k.1 k.2 = pairText j.1 j.2 ↔ j = k :=
    ⟨fun h => (pairText_inj h).symm, fun h => by rw [h]⟩
  simp [teamMemberJournal, memberEntry, auditLogData, hiff]

/-- An entry about a member is about no skill. -/
theorem about_memberEntry_skill (action : String) :
    agentSkillJournal.about (memberEntry actor context action k.1 k.2) j = false := by
  simp [agentSkillJournal, memberEntry, auditLogData]

/-- An entry about a skill is about no member. -/
theorem about_skillEntry_member (action : String) (metadata : Option Json) :
    teamMemberJournal.about (skillEntry actor context action k.1 k.2 metadata) j = false := by
  simp [teamMemberJournal, skillEntry, auditLogData]

end

/-! ## What a statement does -/

/-- The skill or the team that a call is about. -/
def AssignmentCommand.pair : AssignmentCommand → Uuid × Uuid
  | setAgentSkill skillId agentId _ => (skillId, agentId)
  | removeAgentSkill skillId agentId => (skillId, agentId)
  | addMember teamId agentId => (teamId, agentId)
  | removeMember teamId agentId => (teamId, agentId)

/-- Whether a tenant has an agent. -/
def AssignmentTables.HasAgent (tables : AssignmentTables) (tenantId id : Uuid) : Prop :=
  ∃ agent ∈ tables.agents.rows, agent.id = id ∧ agent.tenantId = tenantId

/-- Whether a tenant has a skill. -/
def AssignmentTables.HasSkill (tables : AssignmentTables) (tenantId id : Uuid) : Prop :=
  ∃ skill ∈ tables.skills.rows, skill.id = id ∧ skill.tenantId = tenantId

/-- Whether a tenant has a team. -/
def AssignmentTables.HasTeam (tables : AssignmentTables) (tenantId id : Uuid) : Prop :=
  ∃ team ∈ tables.teams.rows, team.id = id ∧ team.tenantId = tenantId

/-- What the tenant of a call has, as far as the call has found it. -/
def AssignmentCall.Found (tables : AssignmentTables) (call : AssignmentCall) : Prop :=
  let owner :=
    match call.command with
    | .setAgentSkill skillId _ _ | .removeAgentSkill skillId _ =>
        tables.HasSkill call.actor.tenantId skillId
    | .addMember teamId _ | .removeMember teamId _ => tables.HasTeam call.actor.tenantId teamId
  match call.stage with
  | .findOwner | .ended _ => True
  | .findAgent _ => owner
  | .findExisting .. | .update _ | .insert | .updateMany =>
      owner ∧ tables.HasAgent call.actor.tenantId call.command.pair.2

/-- The moves of a call: what its pending statement may leave. -/
inductive AssignmentMove (tables : AssignmentTables) (call : AssignmentCall) : AssignmentEffect → Prop
  | read {stage : AssignmentStage} (hfound : { call with stage := stage }.Found tables) :
      AssignmentMove tables call (.read tables stage)
  | assign {k : Uuid × Uuid} {level : ℕ} {agentSkills : Table InboxAgentSkill}
      (hskill : tables.HasSkill call.actor.tenantId k.1) (hagent : tables.HasAgent call.actor.tenantId k.2)
      (hnone : tables.agentSkills.find k = none)
      (hfind : agentSkills.find = Function.update tables.agentSkills.find k
        (some ⟨call.actor.tenantId, k.1, k.2, level⟩)) :
      AssignmentMove tables call ⟨{ tables with agentSkills := agentSkills },
        some (skillEntry call.actor call.context "inbox.skill.agent.assigned" k.1 k.2
          (some (.obj [levelField "level" level]))), .ended (.ok ())⟩
  | setLevel {k : Uuid × Uuid} {level : ℕ} {existing : InboxAgentSkill}
      {agentSkills : Table InboxAgentSkill} {fields : List (String × Json)}
      (hskill : tables.HasSkill call.actor.tenantId k.1)
      (hexisting : tables.agentSkills.find k = some existing)
      (hfind : agentSkills.find = Function.update tables.agentSkills.find k
        (some { existing with level := level }))
      (hlevel : (Json.obj fields).get? "toLevel" = some (.num level 0)) :
      AssignmentMove tables call ⟨{ tables with agentSkills := agentSkills },
        some (skillEntry call.actor call.context "inbox.skill.agent.level.updated" k.1 k.2
          (some (.obj fields))), .ended (.ok ())⟩
  | unassign {k : Uuid × Uuid} {existing : InboxAgentSkill} {agentSkills : Table InboxAgentSkill}
      (hexisting : tables.agentSkills.find k = some existing)
      (htenant : existing.tenantId = call.actor.tenantId)
      (hfind : agentSkills.find = Function.update tables.agentSkills.find k none) :
      AssignmentMove tables call ⟨{ tables with agentSkills := agentSkills },
        some (skillEntry call.actor call.context "inbox.skill.agent.removed" k.1 k.2 none), .ended (.ok ())⟩
  | join {k : Uuid × Uuid} {teamMembers : Table InboxTeamMember}
      (hteam : tables.HasTeam call.actor.tenantId k.1) (hagent : tables.HasAgent call.actor.tenantId k.2)
      (hnone : tables.teamMembers.find k = none)
      (hfind : teamMembers.find = Function.update tables.teamMembers.find k
        (some ⟨call.actor.tenantId, k.1, k.2⟩)) :
      AssignmentMove tables call ⟨{ tables with teamMembers := teamMembers },
        some (memberEntry call.actor call.context "inbox.team.member.added" k.1 k.2), .ended (.ok ())⟩
  | leave {k : Uuid × Uuid} {existing : InboxTeamMember} {teamMembers : Table InboxTeamMember}
      (hexisting : tables.teamMembers.find k = some existing)
      (htenant : existing.tenantId = call.actor.tenantId)
      (hfind : teamMembers.find = Function.update tables.teamMembers.find k none) :
      AssignmentMove tables call ⟨{ tables with teamMembers := teamMembers },
        some (memberEntry call.actor call.context "inbox.team.member.removed" k.1 k.2), .ended (.ok ())⟩

section

variable {Row : Type} [Keyed Row (Uuid × Uuid)] {t t' : Table Row} {k : Uuid × Uuid}

/-- An insertion, as the entries lead to it. -/
theorem find_insert_eq_update {r : Row} (hkey : Keyed.keys r = [k]) (h : t.insert? r = some t') :
    t.find k = none ∧ t'.find = Function.update t.find k (some r) := by
  refine ⟨t.find_eq_none_of_insert? h (by rw [hkey]; exact List.mem_singleton_self k), ?_⟩
  funext j
  rw [Table.find_of_insert? h, hkey, Function.update_apply]
  simp only [List.mem_singleton]

/-- A condition that pins down an entry selects no row of another one. -/
theorem eq_false_of_find {p : Row → Bool} {j : Uuid × Uuid} {a : Row}
    (hkeys : ∀ a : Row, ∃ i, Keyed.keys a = [i]) (hp : ∀ a ∈ t.rows, p a = true → k ∈ Keyed.keys a)
    (ha : t.find j = some a) (hj : j ≠ k) : p a = false := by
  refine Bool.eq_false_iff.mpr fun hselected => ?_
  obtain ⟨hmem, hja⟩ := t.find_eq_some_iff.mp ha
  have hka := hp a hmem hselected
  obtain ⟨i, hi⟩ := hkeys a
  rw [hi, List.mem_singleton] at hka hja
  exact hj (hja.trans hka.symm)

/-- An update of one row, as the entries lead to it. -/
theorem find_map_eq_update {r : Row} {f : Row → Row} {p : Row → Bool}
    (hkeys : ∀ a : Row, ∃ i, Keyed.keys a = [i]) (hp : ∀ a ∈ t.rows, p a = true → k ∈ Keyed.keys a)
    (hr : t.find k = some r) (hrow : p r = true)
    (hfind : ∀ j, t'.find j = (t.find j).map fun a => if p a then f a else a) :
    t'.find = Function.update t.find k (some (f r)) := by
  funext j
  rw [hfind j, Function.update_apply]
  split_ifs with hj
  · rw [hj, hr, Option.map_some, if_pos hrow]
  · cases ha : t.find j with
    | none => rfl
    | some a => rw [Option.map_some, eq_false_of_find hkeys hp ha hj, if_neg Bool.false_ne_true]

/-- A deletion of one row, as the entries lead to it. -/
theorem find_delete_eq_update {p : Row → Bool} (hkeys : ∀ a : Row, ∃ i, Keyed.keys a = [i])
    (hp : ∀ a ∈ t.rows, p a = true → k ∈ Keyed.keys a) (hany : t.rows.any p = true) :
    ∃ r, t.find k = some r ∧ p r = true ∧
      (t.deleteWhere p).find = Function.update t.find k none := by
  obtain ⟨r, hmem, hr⟩ := List.any_eq_true.mp hany
  have hfound := t.find_eq_some_iff.mpr ⟨hmem, hp r hmem hr⟩
  refine ⟨r, hfound, hr, funext fun j => ?_⟩
  rw [Table.find_deleteWhere, Function.update_apply]
  split_ifs with hj
  · rw [hj, hfound, Option.filter_some, hr]
    rfl
  · cases ha : t.find j with
    | none => rfl
    | some a =>
        rw [Option.filter_some, eq_false_of_find hkeys hp ha hj]
        rfl

end

section

variable {tables : AssignmentTables} {actor : ApiPrincipal}

/-- A skill that is found is one of the tenant. -/
theorem hasSkill_of_find {id : Uuid} {skill : InboxSkill} (h : findSkill tables actor id = some skill) :
    tables.HasSkill actor.tenantId id := by
  obtain ⟨hrow, htenant⟩ := Option.filter_eq_some_iff.mp h
  obtain ⟨hmem, hid⟩ := tables.skills.find_eq_some_iff.mp hrow
  exact ⟨skill, hmem, (List.mem_singleton.mp hid).symm, of_decide_eq_true htenant⟩

/-- An agent that is found is one of the tenant. -/
theorem hasAgent_of_find {id : Uuid} {agent : InboxAgent}
    (h : findInboxAgent tables actor id = some agent) : tables.HasAgent actor.tenantId id := by
  obtain ⟨hrow, htenant⟩ := Option.filter_eq_some_iff.mp h
  obtain ⟨hmem, hid⟩ := tables.agents.find_eq_some_iff.mp hrow
  exact ⟨agent, hmem, (List.mem_singleton.mp hid).symm, of_decide_eq_true htenant⟩

/-- A team that is found is one of the tenant. -/
theorem hasTeam_of_find {id : Uuid} {team : InboxTeam} (h : findTeam tables actor id = some team) :
    tables.HasTeam actor.tenantId id := by
  obtain ⟨hrow, htenant⟩ := Option.filter_eq_some_iff.mp h
  obtain ⟨hmem, hid⟩ := tables.teams.find_eq_some_iff.mp hrow
  exact ⟨team, hmem, (List.mem_singleton.mp hid).symm, of_decide_eq_true htenant⟩

/-- The skill of an agent has one key. -/
theorem keys_agentSkill (r : InboxAgentSkill) : ∃ i, Keyed.keys r = [i] := ⟨_, rfl⟩

/-- A member has one key. -/
theorem keys_teamMember (r : InboxTeamMember) : ∃ i, Keyed.keys r = [i] := ⟨_, rfl⟩

end

section

variable {tables : AssignmentTables} {call : AssignmentCall} {effect : AssignmentEffect}
  {skillId teamId agentId : Uuid} {level : ℕ}

/-- The statements of `setAgentSkill`. -/
theorem move_of_setAgentSkill (hcommand : call.command = .setAgentSkill skillId agentId level)
    (hfound : call.Found tables)
    (h : setAgentSkill tables call.actor call.context skillId agentId level call.stage = some effect) :
    AssignmentMove tables call effect := by
  obtain ⟨actor, context, command, stage⟩ := call
  dsimp only at hcommand h
  subst hcommand
  cases stage with
  | findOwner =>
      simp only [setAgentSkill] at h
      split at h <;> cases h
      · exact .read trivial
      · exact .read (hasSkill_of_find ‹_›)
  | findAgent skillActive =>
      simp only [setAgentSkill] at h
      split at h <;> cases h
      · exact .read trivial
      · exact .read ⟨hfound, hasAgent_of_find ‹_›⟩
  | findExisting skillActive agentActive =>
      simp only [setAgentSkill] at h
      split at h
      · split_ifs at h <;> cases h
        · exact .read trivial
        · exact .read hfound
      · split_ifs at h <;> cases h
        · exact .read trivial
        · exact .read trivial
        · exact .read hfound
  | update fromLevel =>
      simp only [setAgentSkill] at h
      split at h <;> cases h
      · exact .read trivial
      · rename_i agentSkills hupdate
        obtain ⟨existing, hexisting⟩ := Table.exists_find_of_update? hupdate
        have hkey := (Table.find_eq_some_iff _ |>.mp hexisting).2
        refine .setLevel (k := (skillId, agentId)) hfound.1 hexisting ?_ rfl
        refine find_map_eq_update (f := fun r => { r with level := level }) keys_agentSkill
          (p := fun r => decide ((skillId, agentId) ∈ Keyed.keys r)) (fun a _ ha => of_decide_eq_true ha)
          hexisting (decide_eq_true hkey) fun j => ?_
        rw [Table.find_of_update? hupdate fun r _ => Iff.rfl]
        refine congrArg (fun f => (tables.agentSkills.find j).map f) (funext fun r => ?_)
        by_cases hr : (skillId, agentId) ∈ Keyed.keys r
        · rw [if_pos hr, if_pos (decide_eq_true hr)]
        · rw [if_neg hr, if_neg (by rwa [decide_eq_true_eq])]
  | insert =>
      simp only [setAgentSkill] at h
      split at h <;> cases h
      · exact .read hfound
      · obtain ⟨hnone, hfind⟩ := find_insert_eq_update rfl ‹_›
        exact .assign (k := (skillId, agentId)) hfound.1 hfound.2 hnone hfind
  | updateMany =>
      simp only [setAgentSkill] at h
      split_ifs at h with hany <;> cases h
      · obtain ⟨existing, hmem, hchange⟩ := List.any_eq_true.mp hany
        have hpair : ∀ a ∈ tables.agentSkills.rows, (decide (a.tenantId = actor.tenantId) &&
            decide (a.skillId = skillId) && decide (a.agentId = agentId) && decide (a.level ≠ level)) =
              true → (skillId, agentId) ∈ Keyed.keys a := by
          intro a _ ha
          simp only [Bool.and_eq_true, decide_eq_true_eq] at ha
          rw [← ha.1.1.2, ← ha.1.2]
          exact List.mem_singleton_self _
        have hexisting := tables.agentSkills.find_eq_some_iff.mpr ⟨hmem, hpair existing hmem hchange⟩
        refine .setLevel (k := (skillId, agentId)) hfound.1 hexisting ?_ rfl
        exact find_map_eq_update keys_agentSkill hpair hexisting hchange
          fun j => Table.find_updateWhere _ _ _ _ j
      · exact .read trivial
  | ended result => cases h

/-- The statements of `removeAgentSkill`. -/
theorem move_of_removeAgentSkill (hcommand : call.command = .removeAgentSkill skillId agentId)
    (h : removeAgentSkill tables call.actor call.context skillId agentId call.stage = some effect) :
    AssignmentMove tables call effect := by
  obtain ⟨actor, context, command, stage⟩ := call
  dsimp only at hcommand h
  subst hcommand
  unfold removeAgentSkill at h
  split at h
  · split at h <;> cases h
    · exact .read trivial
    · exact .read (hasSkill_of_find ‹_›)
  · dsimp only at h
    split_ifs at h with hany <;> cases h
    · obtain ⟨existing, hexisting, hremoved, hfind⟩ :=
        find_delete_eq_update (k := (skillId, agentId)) keys_agentSkill (fun a _ ha => by
          simp only [Bool.and_eq_true, decide_eq_true_eq] at ha
          rw [← ha.1.2, ← ha.2]
          exact List.mem_singleton_self _) hany
      simp only [Bool.and_eq_true, decide_eq_true_eq] at hremoved
      exact .unassign (k := (skillId, agentId)) hexisting hremoved.1.1 hfind
    · exact .read trivial
  · cases h

/-- The statements of `addMember`. -/
theorem move_of_addMember (hcommand : call.command = .addMember teamId agentId)
    (hfound : call.Found tables)
    (h : addMember tables call.actor call.context teamId agentId call.stage = some effect) :
    AssignmentMove tables call effect := by
  obtain ⟨actor, context, command, stage⟩ := call
  dsimp only at hcommand h
  subst hcommand
  unfold addMember at h
  split at h
  · split at h <;> cases h
    · exact .read trivial
    · exact .read (hasTeam_of_find ‹_›)
  · split at h
    · cases h
      exact .read trivial
    · split_ifs at h <;> cases h
      · exact .read trivial
      · exact .read ⟨hfound, hasAgent_of_find ‹_›⟩
  · split at h <;> cases h
    · exact .read trivial
    · obtain ⟨hnone, hfind⟩ := find_insert_eq_update rfl ‹_›
      exact .join (k := (teamId, agentId)) hfound.1 hfound.2 hnone hfind
  · cases h

/-- The statements of `removeMember`. -/
theorem move_of_removeMember (hcommand : call.command = .removeMember teamId agentId)
    (h : removeMember tables call.actor call.context teamId agentId call.stage = some effect) :
    AssignmentMove tables call effect := by
  obtain ⟨actor, context, command, stage⟩ := call
  dsimp only at hcommand h
  subst hcommand
  unfold removeMember at h
  split at h
  · split at h <;> cases h
    · exact .read trivial
    · exact .read (hasTeam_of_find ‹_›)
  · dsimp only at h
    split_ifs at h with hany <;> cases h
    · obtain ⟨existing, hexisting, hremoved, hfind⟩ :=
        find_delete_eq_update (k := (teamId, agentId)) keys_teamMember (fun a _ ha => by
          simp only [Bool.and_eq_true, decide_eq_true_eq] at ha
          rw [← ha.1.2, ← ha.2]
          exact List.mem_singleton_self _) hany
      simp only [Bool.and_eq_true, decide_eq_true_eq] at hremoved
      exact .leave (k := (teamId, agentId)) hexisting hremoved.1.1 hfind
    · exact .read trivial
  · cases h

/-- A statement makes one of the moves. -/
theorem move_of_assignment (hfound : call.Found tables) (h : call.pending tables = some effect) :
    AssignmentMove tables call effect := by
  unfold AssignmentCall.pending at h
  split at h
  · exact move_of_setAgentSkill ‹_› hfound h
  · exact move_of_removeAgentSkill ‹_› h
  · exact move_of_addMember ‹_› hfound h
  · exact move_of_removeMember ‹_› h

end

/-! ## What a move keeps -/

section

variable {tables tables' : AssignmentTables} {call : AssignmentCall} {effect : AssignmentEffect}

/-- Agents, skills and teams stay, with their tenants. -/
structure Keeps (tables tables' : AssignmentTables) : Prop where
  agents : ∀ tenantId id, tables.HasAgent tenantId id → tables'.HasAgent tenantId id
  skills : ∀ tenantId id, tables.HasSkill tenantId id → tables'.HasSkill tenantId id
  teams : ∀ tenantId id, tables.HasTeam tenantId id → tables'.HasTeam tenantId id

/-- The foreign keys of the two tables that the services write. -/
structure AssignmentTables.ForeignKeys (tables : AssignmentTables) : Prop where
  agentSkills : ∀ r ∈ tables.agentSkills.rows,
    tables.HasSkill r.tenantId r.skillId ∧ tables.HasAgent r.tenantId r.agentId
  teamMembers : ∀ r ∈ tables.teamMembers.rows,
    tables.HasTeam r.tenantId r.teamId ∧ tables.HasAgent r.tenantId r.agentId

/-- Nothing is lost by doing nothing. -/
theorem keeps_refl (tables : AssignmentTables) : Keeps tables tables where
  agents _ _ h := h
  skills _ _ h := h
  teams _ _ h := h

/-- What a call has found stays. -/
theorem AssignmentCall.Found.keeps (hfound : call.Found tables) (h : Keeps tables tables') :
    call.Found tables' := by
  obtain ⟨actor, context, command, stage⟩ := call
  cases stage <;> cases command <;>
    simp only [AssignmentCall.Found, AssignmentCommand.pair] at hfound ⊢ <;>
    first
      | exact h.skills _ _ hfound
      | exact h.teams _ _ hfound
      | exact ⟨h.skills _ _ hfound.1, h.agents _ _ hfound.2⟩
      | exact ⟨h.teams _ _ hfound.1, h.agents _ _ hfound.2⟩

/-- A row of a skill or a member is where its pair leads to. -/
theorem mem_agentSkills_iff {t : Table InboxAgentSkill} {r : InboxAgentSkill} :
    r ∈ t.rows ↔ t.find (r.skillId, r.agentId) = some r := by
  rw [Table.find_eq_some_iff]
  exact (and_iff_left (List.mem_singleton_self _)).symm

/-- A membership is in the table just when its key finds it. -/
theorem mem_teamMembers_iff {t : Table InboxTeamMember} {r : InboxTeamMember} :
    r ∈ t.rows ↔ t.find (r.teamId, r.agentId) = some r := by
  rw [Table.find_eq_some_iff]
  exact (and_iff_left (List.mem_singleton_self _)).symm

/-- The key of the skill of an agent is the pair. -/
theorem pair_of_find_agentSkills {t : Table InboxAgentSkill} {k : Uuid × Uuid} {r : InboxAgentSkill}
    (h : t.find k = some r) : k = (r.skillId, r.agentId) :=
  List.mem_singleton.mp ((Table.find_eq_some_iff _).mp h).2

/-- The owner of a skill is one tenant. -/
theorem tenantId_eq_of_hasSkill {a b id : Uuid} (ha : tables.HasSkill a id) (hb : tables.HasSkill b id) :
    a = b := by
  obtain ⟨skill, hmem, rfl, rfl⟩ := ha
  obtain ⟨skill', hmem', hid, rfl⟩ := hb
  rw [tables.skills.eq_of_mem_keys hmem hmem' (List.mem_singleton_self _)
    (List.mem_singleton.mpr hid.symm)]

/-- A move leaves agents, skills and teams alone. -/
theorem keeps_of_move (hmove : AssignmentMove tables call effect) : Keeps tables effect.tables := by
  cases hmove <;> exact ⟨fun _ _ h => h, fun _ _ h => h, fun _ _ h => h⟩

/-- The foreign keys hold after a move. -/
theorem foreignKeys_of_move (hkeys : tables.ForeignKeys) (hmove : AssignmentMove tables call effect) :
    effect.tables.ForeignKeys := by
  cases hmove with
  | read => exact hkeys
  | @assign k level agentSkills hskill hagent hnone hfind =>
      refine ⟨fun r hr => ?_, hkeys.teamMembers⟩
      rw [mem_agentSkills_iff, hfind, Function.update_apply] at hr
      split_ifs at hr with hpair
      · cases hr
        exact ⟨hskill, hagent⟩
      · exact hkeys.agentSkills r (mem_agentSkills_iff.mpr hr)
  | @setLevel k level existing agentSkills fields hskill hexisting hfind hlevel =>
      refine ⟨fun r hr => ?_, hkeys.teamMembers⟩
      rw [mem_agentSkills_iff, hfind, Function.update_apply] at hr
      split_ifs at hr with hpair
      · cases hr
        exact hkeys.agentSkills existing ((Table.find_eq_some_iff _).mp hexisting).1
      · exact hkeys.agentSkills r (mem_agentSkills_iff.mpr hr)
  | @unassign k existing agentSkills hexisting htenant hfind =>
      refine ⟨fun r hr => ?_, hkeys.teamMembers⟩
      rw [mem_agentSkills_iff, hfind, Function.update_apply] at hr
      split_ifs at hr with hpair
      exact hkeys.agentSkills r (mem_agentSkills_iff.mpr hr)
  | @join k teamMembers hteam hagent hnone hfind =>
      refine ⟨hkeys.agentSkills, fun r hr => ?_⟩
      rw [mem_teamMembers_iff, hfind, Function.update_apply] at hr
      split_ifs at hr with hpair
      · cases hr
        exact ⟨hteam, hagent⟩
      · exact hkeys.teamMembers r (mem_teamMembers_iff.mpr hr)
  | @leave k existing teamMembers hexisting htenant hfind =>
      refine ⟨hkeys.agentSkills, fun r hr => ?_⟩
      rw [mem_teamMembers_iff, hfind, Function.update_apply] at hr
      split_ifs at hr with hpair
      exact hkeys.teamMembers r (mem_teamMembers_iff.mpr hr)

/-- What a call leaves as it is: all that is not its tenant's. -/
structure Isolated (call : AssignmentCall) (tables tables' : AssignmentTables)
    (entries : List AuditLogData) : Prop where
  agents : tables'.agents = tables.agents
  skills : tables'.skills = tables.skills
  teams : tables'.teams = tables.teams
  agentSkills : ∀ r : InboxAgentSkill, r.tenantId ≠ call.actor.tenantId →
    (r ∈ tables'.agentSkills.rows ↔ r ∈ tables.agentSkills.rows)
  teamMembers : ∀ r : InboxTeamMember, r.tenantId ≠ call.actor.tenantId →
    (r ∈ tables'.teamMembers.rows ↔ r ∈ tables.teamMembers.rows)
  entries : ∀ entry ∈ entries, entry.tenantId = call.actor.tenantId ∧
    entry.actorApiKeyId = call.actor.apiKeyId ∧ entry.context = call.context

/-- A call that does nothing touches no tenant. -/
theorem isolated_refl (call : AssignmentCall) (tables : AssignmentTables) :
    Isolated call tables tables [] where
  agents := rfl
  skills := rfl
  teams := rfl
  agentSkills _ _ := Iff.rfl
  teamMembers _ _ := Iff.rfl
  entries _ h := absurd h List.not_mem_nil

/-- A change of one skill, of the tenant before and after. -/
theorem isolated_agentSkills {k : Uuid × Uuid} {row : Option InboxAgentSkill}
    {agentSkills : Table InboxAgentSkill} {action : String} {metadata : Option Json}
    (hold : ∀ r, tables.agentSkills.find k = some r → r.tenantId = call.actor.tenantId)
    (hnew : ∀ r, row = some r → r.tenantId = call.actor.tenantId)
    (hfind : agentSkills.find = Function.update tables.agentSkills.find k row) :
    Isolated call tables { tables with agentSkills := agentSkills }
      (some (skillEntry call.actor call.context action k.1 k.2 metadata)).toList where
  agents := rfl
  skills := rfl
  teams := rfl
  agentSkills r hr := by
    rw [mem_agentSkills_iff, mem_agentSkills_iff, hfind, Function.update_apply]
    split_ifs with hpair
    · refine iff_of_false (fun h => hr (hnew r h)) fun h => hr (hold r ?_)
      rwa [← hpair]
    · exact Iff.rfl
  teamMembers _ _ := Iff.rfl
  entries entry hentry := by
    rw [Option.toList_some, List.mem_singleton] at hentry
    subst hentry
    exact ⟨rfl, rfl, rfl⟩

/-- A change of one member, of the tenant before and after. -/
theorem isolated_teamMembers {k : Uuid × Uuid} {row : Option InboxTeamMember}
    {teamMembers : Table InboxTeamMember} {action : String}
    (hold : ∀ r, tables.teamMembers.find k = some r → r.tenantId = call.actor.tenantId)
    (hnew : ∀ r, row = some r → r.tenantId = call.actor.tenantId)
    (hfind : teamMembers.find = Function.update tables.teamMembers.find k row) :
    Isolated call tables { tables with teamMembers := teamMembers }
      (some (memberEntry call.actor call.context action k.1 k.2)).toList where
  agents := rfl
  skills := rfl
  teams := rfl
  agentSkills _ _ := Iff.rfl
  teamMembers r hr := by
    rw [mem_teamMembers_iff, mem_teamMembers_iff, hfind, Function.update_apply]
    split_ifs with hpair
    · refine iff_of_false (fun h => hr (hnew r h)) fun h => hr (hold r ?_)
      rwa [← hpair]
    · exact Iff.rfl
  entries entry hentry := by
    rw [Option.toList_some, List.mem_singleton] at hentry
    subst hentry
    exact ⟨rfl, rfl, rfl⟩

/-- A move changes nothing of another tenant. A level is set in a row of a skill that the tenant has,
which is the tenant's row because of the foreign keys. -/
theorem isolated_of_move (hkeys : tables.ForeignKeys) (hmove : AssignmentMove tables call effect) :
    Isolated call tables effect.tables effect.entry.toList := by
  cases hmove with
  | read => exact isolated_refl call tables
  | assign hskill hagent hnone hfind =>
      refine isolated_agentSkills (fun r hr => ?_) (fun r hr => ?_) hfind
      · rw [hnone] at hr
        cases hr
      · cases hr
        rfl
  | @setLevel k level existing agentSkills fields hskill hexisting hfind hlevel =>
      have hmem := ((Table.find_eq_some_iff _).mp hexisting).1
      have htenant : existing.tenantId = call.actor.tenantId := by
        refine tenantId_eq_of_hasSkill (hkeys.agentSkills existing hmem).1 ?_
        rwa [pair_of_find_agentSkills hexisting] at hskill
      refine isolated_agentSkills (fun r hr => ?_) (fun r hr => ?_) hfind
      · rw [hexisting] at hr
        cases hr
        exact htenant
      · cases hr
        exact htenant
  | unassign hexisting htenant hfind =>
      refine isolated_agentSkills (fun r hr => ?_) (fun r hr => ?_) hfind
      · rw [hexisting] at hr
        cases hr
        exact htenant
      · cases hr
  | join hteam hagent hnone hfind =>
      refine isolated_teamMembers (fun r hr => ?_) (fun r hr => ?_) hfind
      · rw [hnone] at hr
        cases hr
      · cases hr
        rfl
  | leave hexisting htenant hfind =>
      refine isolated_teamMembers (fun r hr => ?_) (fun r hr => ?_) hfind
      · rw [hexisting] at hr
        cases hr
        exact htenant
      · cases hr

end

/-! ## What a move logs -/

section

variable {tables : AssignmentTables} {call : AssignmentCall} {effect : AssignmentEffect}

/-- The log of a move is that of the changes of skills, and of members. -/
structure Logs (before after : AssignmentTables) (entries : List AuditLogData) : Prop where
  skills : agentSkillJournal.Records before.level after.level entries
  members : teamMemberJournal.Records before.membership after.membership entries

/-- A change to the skills changes the level of one pair. -/
theorem level_update {k : Uuid × Uuid} {row : Option InboxAgentSkill} {agentSkills : Table InboxAgentSkill}
    (hfind : agentSkills.find = Function.update tables.agentSkills.find k row) (j : Uuid × Uuid) :
    { tables with agentSkills := agentSkills : AssignmentTables }.level j =
      if j = k then row.map InboxAgentSkill.level else tables.level j := by
  rw [AssignmentTables.level, hfind, Function.update_apply]
  split_ifs <;> rfl

/-- A change to the memberships changes that of one pair. -/
theorem membership_update {k : Uuid × Uuid} {row : Option InboxTeamMember}
    {teamMembers : Table InboxTeamMember}
    (hfind : teamMembers.find = Function.update tables.teamMembers.find k row) (j : Uuid × Uuid) :
    { tables with teamMembers := teamMembers : AssignmentTables }.membership j =
      if j = k then row.map fun _ => () else tables.membership j := by
  rw [AssignmentTables.membership, hfind, Function.update_apply]
  split_ifs <;> rfl

/-- A change of one skill, with its entry. -/
theorem logs_agentSkills {before : AssignmentTables} {entries : List AuditLogData} {k : Uuid × Uuid}
    {row : Option InboxAgentSkill} {agentSkills : Table InboxAgentSkill} {action : String}
    {metadata : Option Json} (h : Logs before tables entries)
    (hfind : agentSkills.find = Function.update tables.agentSkills.find k row)
    (hvalue : agentSkillJournal.value (skillEntry call.actor call.context action k.1 k.2 metadata) =
      row.map InboxAgentSkill.level)
    (hopens : action = "inbox.skill.agent.assigned" ↔ tables.agentSkills.find k = none) :
    Logs before { tables with agentSkills := agentSkills }
      (entries ++ (some (skillEntry call.actor call.context action k.1 k.2 metadata)).toList) where
  skills := by
    refine h.skills.entry (fun j => ?_) fun j habout => ?_
    · rw [level_update hfind, about_skillEntry, hvalue]
      simp only [decide_eq_true_eq]
    · rw [about_skillEntry, decide_eq_true_eq] at habout
      rw [habout, AssignmentTables.level, Option.map_eq_none_iff, ← hopens]
      exact decide_eq_true_iff
  members := by
    refine h.members.other fun entry hentry j => ?_
    rw [Option.toList_some, List.mem_singleton] at hentry
    rw [hentry, about_skillEntry_member]

/-- A change of one member, with its entry. -/
theorem logs_teamMembers {before : AssignmentTables} {entries : List AuditLogData} {k : Uuid × Uuid}
    {row : Option InboxTeamMember} {teamMembers : Table InboxTeamMember} {action : String}
    (h : Logs before tables entries)
    (hfind : teamMembers.find = Function.update tables.teamMembers.find k row)
    (hvalue : (if action = "inbox.team.member.added" then some () else none) = row.map fun _ => ())
    (hopens : action = "inbox.team.member.added" ↔ tables.teamMembers.find k = none) :
    Logs before { tables with teamMembers := teamMembers }
      (entries ++ (some (memberEntry call.actor call.context action k.1 k.2)).toList) where
  skills := by
    refine h.skills.other fun entry hentry j => ?_
    rw [Option.toList_some, List.mem_singleton] at hentry
    rw [hentry, about_memberEntry_skill]
  members := by
    refine h.members.entry (fun j => ?_) fun j habout => ?_
    · rw [membership_update hfind, about_memberEntry, ← hvalue]
      simp only [decide_eq_true_eq]
      rfl
    · rw [about_memberEntry, decide_eq_true_eq] at habout
      rw [habout, AssignmentTables.membership, Option.map_eq_none_iff, ← hopens]
      exact decide_eq_true_iff

/-- The number that an entry carries. -/
theorem number?_of_get? {actor : ApiPrincipal} {context : AuditRequestContext} {action field : String}
    {k : Uuid × Uuid} {level : ℕ} {fields : List (String × Json)}
    (h : (Json.obj fields).get? field = some (.num level 0)) :
    (skillEntry actor context action k.1 k.2 (some (.obj fields))).number? field = some level := by
  rw [AuditLogData.number?]
  simp only [skillEntry, auditLogData, Option.bind_some, h]
  rfl

/-- The level that an assignment says. -/
theorem value_assigned (actor : ApiPrincipal) (context : AuditRequestContext) (k : Uuid × Uuid)
    (metadata : Option Json) :
    agentSkillJournal.value (skillEntry actor context "inbox.skill.agent.assigned" k.1 k.2 metadata) =
      (skillEntry actor context "inbox.skill.agent.assigned" k.1 k.2 metadata).number? "level" := by
  have haction : (skillEntry actor context "inbox.skill.agent.assigned" k.1 k.2 metadata).action =
      "inbox.skill.agent.assigned" := rfl
  simp only [agentSkillJournal, haction, if_true]

/-- The level that an update says. -/
theorem value_level_updated (actor : ApiPrincipal) (context : AuditRequestContext) (k : Uuid × Uuid)
    (metadata : Option Json) :
    agentSkillJournal.value (skillEntry actor context "inbox.skill.agent.level.updated" k.1 k.2 metadata) =
      (skillEntry actor context "inbox.skill.agent.level.updated" k.1 k.2 metadata).number? "toLevel" := by
  have haction : (skillEntry actor context "inbox.skill.agent.level.updated" k.1 k.2 metadata).action =
      "inbox.skill.agent.level.updated" := rfl
  simp only [agentSkillJournal, haction, String.reduceEq, if_false, if_true]

/-- A move logs its change. -/
theorem logs_of_move {before : AssignmentTables} {entries : List AuditLogData}
    (h : Logs before tables entries) (hmove : AssignmentMove tables call effect) :
    Logs before effect.tables (entries ++ effect.entry.toList) := by
  cases hmove with
  | read =>
      rw [AssignmentEffect.read, Option.toList_none, List.append_nil]
      exact h
  | @assign k level agentSkills hskill hagent hnone hfind =>
      have hlevel : (Json.obj [levelField "level" level]).get? "level" = some (.num level 0) := rfl
      refine logs_agentSkills h hfind ?_ (iff_of_true rfl hnone)
      exact (value_assigned ..).trans (number?_of_get? hlevel)
  | @setLevel k level existing agentSkills fields hskill hexisting hfind hlevel =>
      refine logs_agentSkills h hfind ?_
        (iff_of_false (by decide) (by rw [hexisting]; exact Option.some_ne_none _))
      exact (value_level_updated ..).trans (number?_of_get? hlevel)
  | unassign hexisting htenant hfind =>
      exact logs_agentSkills h hfind rfl
        (iff_of_false (by decide) (by rw [hexisting]; exact Option.some_ne_none _))
  | join hteam hagent hnone hfind => exact logs_teamMembers h hfind rfl (iff_of_true rfl hnone)
  | leave hexisting htenant hfind =>
      exact logs_teamMembers h hfind rfl
        (iff_of_false (by decide) (by rw [hexisting]; exact Option.some_ne_none _))

end

/-! ## The system -/

namespace Assignments

variable {s s' : Assignments} {act : Act}

/-- What a step of somebody else leaves. -/
structure Outside (s s' : Assignments) : Prop where
  keeps : Keeps s.tables s'.tables
  agentSkills : s'.tables.agentSkills = s.tables.agentSkills
  teamMembers : s'.tables.teamMembers = s.tables.teamMembers
  calls : ∀ call ∈ s'.calls, call ∈ s.calls ∨ call.stage = .findOwner
  entries : ∃ entries, s'.auditLogs = s.auditLogs ++ entries ∧ ∀ entry ∈ entries,
    entry.entityType ≠ "InboxAgentSkill" ∧ entry.entityType ≠ "InboxTeamMember"

section

variable {tables' : AssignmentTables}

/-- Another service writes skills, agents or teams. -/
theorem outside_tables (hkeeps : Keeps s.tables tables')
    (hagentSkills : tables'.agentSkills = s.tables.agentSkills)
    (hteamMembers : tables'.teamMembers = s.tables.teamMembers) :
    Outside s { s with tables := tables' } where
  keeps := hkeeps
  agentSkills := hagentSkills
  teamMembers := hteamMembers
  calls _ hcall := .inl hcall
  entries := ⟨[], (List.append_nil _).symm, fun _ h => absurd h List.not_mem_nil⟩

/-- An insertion takes no row away. -/
theorem exists_mem_insert {Row Key : Type} [Keyed Row Key] [DecidableEq Key] {t t' : Table Row} {r : Row}
    {p : Row → Prop} (hinsert : t.insert? r = some t') (h : ∃ a ∈ t.rows, p a) : ∃ a ∈ t'.rows, p a := by
  obtain ⟨a, hmem, ha⟩ := h
  refine ⟨a, ?_, ha⟩
  rw [Table.rows_of_insert? hinsert]
  exact List.mem_cons_of_mem _ hmem

/-- An update takes no row away. -/
theorem exists_mem_update {Row Key : Type} [Keyed Row Key] {t : Table Row} {p : Row → Prop}
    {changes : Row → Bool} {f : Row → Row} (hf : ∀ r, Keyed.keys (f r) = Keyed.keys r)
    (hp : ∀ r, p r → p (f r)) (h : ∃ a ∈ t.rows, p a) : ∃ a ∈ (t.updateWhere changes f hf).rows, p a := by
  obtain ⟨a, hmem, ha⟩ := h
  rw [Table.rows_updateWhere]
  refine ⟨_, List.mem_map_of_mem hmem, ?_⟩
  split_ifs
  · exact hp a ha
  · exact ha

end

/-- A step is a move of a call, or somebody else's. -/
theorem assignments_step_cases (hfound : ∀ call ∈ s.calls, call.Found s.tables)
    (h : step s act = some s') :
    Outside s s' ∨ ∃ (i : ℕ) (call : AssignmentCall) (effect : AssignmentEffect) (stage : AssignmentStage),
      s.calls[i]? = some call ∧ AssignmentMove s.tables call effect ∧
      (stage = effect.stage ∨ ∃ result, stage = .ended result) ∧
      (∀ j outcome, act = .call j outcome → j = i) ∧
      s' = ⟨effect.tables, s.auditLogs ++ effect.entry.toList,
        s.calls.set i { call with stage := stage }⟩ := by
  cases act with
  | request actor context command =>
      cases h
      refine .inl ⟨keeps_refl _, rfl, rfl, fun call hcall => ?_,
        ⟨[], (List.append_nil _).symm, fun _ h => absurd h List.not_mem_nil⟩⟩
      rcases List.mem_append.mp hcall with hold | hnew
      · exact .inl hold
      · rw [List.mem_singleton.mp hnew]
        exact .inr rfl
  | call i outcome =>
      obtain ⟨call, hcall, h⟩ := Option.bind_eq_some_iff.mp h
      obtain ⟨effect, heffect, rfl⟩ := Option.map_eq_some_iff.mp h
      have hmove := move_of_assignment (hfound call (List.mem_of_getElem? hcall)) heffect
      have hsame : ∀ j outcome', Act.call i outcome = .call j outcome' → j = i := by
        intro j outcome' heq
        cases heq
        rfl
      right
      cases outcome with
      | returned => exact ⟨i, call, effect, effect.stage, hcall, hmove, .inl rfl, hsame, rfl⟩
      | interrupted error => exact ⟨i, call, effect, _, hcall, hmove, .inr ⟨_, rfl⟩, hsame, rfl⟩
      | failed error =>
          refine ⟨i, call, .read s.tables (.ended (.error (.other error))), _, hcall, .read trivial,
            .inl rfl, hsame, ?_⟩
          simp only [finish, AssignmentEffect.read, Option.toList_none, List.append_nil]
  | createAgent agent =>
      obtain ⟨agents, hinsert, rfl⟩ := Option.map_eq_some_iff.mp h
      exact .inl (outside_tables ⟨fun _ _ h => exists_mem_insert hinsert h, fun _ _ h => h,
        fun _ _ h => h⟩ rfl rfl)
  | createSkill skill =>
      obtain ⟨skills, hinsert, rfl⟩ := Option.map_eq_some_iff.mp h
      exact .inl (outside_tables ⟨fun _ _ h => h, fun _ _ h => exists_mem_insert hinsert h,
        fun _ _ h => h⟩ rfl rfl)
  | createTeam team =>
      obtain ⟨teams, hinsert, rfl⟩ := Option.map_eq_some_iff.mp h
      exact .inl (outside_tables ⟨fun _ _ h => h, fun _ _ h => h,
        fun _ _ h => exists_mem_insert hinsert h⟩ rfl rfl)
  | setAgentActive id active =>
      cases h
      exact .inl (outside_tables ⟨fun _ _ h => exists_mem_update
        (f := fun r : InboxAgent => { r with active := active }) (fun _ => rfl) (fun _ hr => hr) h,
        fun _ _ h => h, fun _ _ h => h⟩ rfl rfl)
  | setSkillActive id active =>
      cases h
      exact .inl (outside_tables ⟨fun _ _ h => h, fun _ _ h => exists_mem_update
        (f := fun r : InboxSkill => { r with active := active }) (fun _ => rfl) (fun _ hr => hr) h,
        fun _ _ h => h⟩ rfl rfl)
  | setTeamActive id active =>
      cases h
      exact .inl (outside_tables ⟨fun _ _ h => h, fun _ _ h => h, fun _ _ h => exists_mem_update
        (f := fun r : InboxTeam => { r with active := active }) (fun _ => rfl) (fun _ hr => hr) h⟩ rfl rfl)
  | log entry =>
      simp only [step] at h
      split_ifs at h with hother
      cases h
      rw [not_or] at hother
      refine .inl ⟨keeps_refl _, rfl, rfl, fun _ hcall => .inl hcall, ⟨[entry], rfl, ?_⟩⟩
      intro entry' hentry
      rw [List.mem_singleton.mp hentry]
      exact hother

/-- Calls go on with what they have found. -/
def CallsFound (s : Assignments) : Prop := ∀ call ∈ s.calls, call.Found s.tables

/-- A step keeps what the calls have found. -/
theorem CallsFound.step (hs : s.CallsFound) (h : step s act = some s') : s'.CallsFound := by
  intro call' hcall'
  obtain houtside | ⟨i, call, effect, stage, hcall, hmove, hstage, -, rfl⟩ := assignments_step_cases hs h
  · rcases houtside.calls call' hcall' with hold | hnew
    · exact (hs call' hold).keeps houtside.keeps
    · simp only [AssignmentCall.Found, hnew]
  · have hkeeps := keeps_of_move hmove
    rcases List.mem_or_eq_of_mem_set hcall' with hold | rfl
    · exact (hs call' hold).keeps hkeeps
    · rcases hstage with rfl | ⟨result, rfl⟩
      · cases hmove with
        | read hfound => exact hfound
        | _ => trivial
      · trivial

/-- A step keeps the foreign keys. -/
theorem foreignKeys_of_step (hs : s.CallsFound) (hkeys : s.tables.ForeignKeys)
    (h : step s act = some s') : s'.tables.ForeignKeys := by
  obtain houtside | ⟨i, call, effect, stage, hcall, hmove, -, -, rfl⟩ := assignments_step_cases hs h
  · refine ⟨fun r hr => ?_, fun r hr => ?_⟩
    · rw [houtside.agentSkills] at hr
      obtain ⟨hskill, hagent⟩ := hkeys.agentSkills r hr
      exact ⟨houtside.keeps.skills _ _ hskill, houtside.keeps.agents _ _ hagent⟩
    · rw [houtside.teamMembers] at hr
      obtain ⟨hteam, hagent⟩ := hkeys.teamMembers r hr
      exact ⟨houtside.keeps.teams _ _ hteam, houtside.keeps.agents _ _ hagent⟩
  · exact foreignKeys_of_move hkeys hmove

/-- The log since the start tells the changes since then. -/
def Logged (s₀ s : Assignments) : Prop :=
  ∃ entries, s.auditLogs = s₀.auditLogs ++ entries ∧ Logs s₀.tables s.tables entries

/-- A step keeps the log complete. -/
theorem Logged.step {s₀ : Assignments} (hlogged : Logged s₀ s) (hs : s.CallsFound)
    (h : Assignments.step s act = some s') : Logged s₀ s' := by
  obtain ⟨entries, hlog, hlogs⟩ := hlogged
  obtain houtside | ⟨i, call, effect, stage, hcall, hmove, -, -, rfl⟩ := assignments_step_cases hs h
  · obtain ⟨more, hmore, hother⟩ := houtside.entries
    have hlevel : s'.tables.level = s.tables.level := by
      funext k
      rw [AssignmentTables.level, AssignmentTables.level, houtside.agentSkills]
    have hmembership : s'.tables.membership = s.tables.membership := by
      funext k
      rw [AssignmentTables.membership, AssignmentTables.membership, houtside.teamMembers]
    refine ⟨entries ++ more, by rw [hmore, hlog, List.append_assoc], ?_, ?_⟩
    · rw [hlevel]
      refine hlogs.skills.other fun entry hentry k => ?_
      simp only [agentSkillJournal, (hother entry hentry).1, decide_false, Bool.false_and]
    · rw [hmembership]
      refine hlogs.members.other fun entry hentry k => ?_
      simp only [teamMemberJournal, (hother entry hentry).2, decide_false, Bool.false_and]
  · exact ⟨entries ++ effect.entry.toList, by rw [hlog, List.append_assoc], logs_of_move hlogs hmove⟩

/-! ## Results -/

variable {tables : AssignmentTables} {auditLogs : List AuditLogData} {acts : List Act}

/-- **The audit log.** Whatever calls are made, however their statements interleave or break off, and
whatever else is written: the log grows by entries out of which the level of every skill of every agent,
and every membership, can be replayed. An assignment is logged just where there was none. -/
theorem assignments_audit (h : exec step (start tables auditLogs) acts = some s) :
    ∃ entries, s.auditLogs = auditLogs ++ entries ∧
      agentSkillJournal.Records tables.level s.tables.level entries ∧
      teamMemberJournal.Records tables.membership s.tables.membership entries := by
  have hinv : s.CallsFound ∧ Logged (start tables auditLogs) s := by
    refine Reaches.invariant (P := fun x => x.CallsFound ∧ Logged (start tables auditLogs) x)
      (Reachable.of_exec h) ⟨fun _ hcall => absurd hcall List.not_mem_nil, ?_⟩ ?_
    · exact ⟨[], (List.append_nil _).symm, .nil, .nil⟩
    · rintro x act y ⟨hx, hlogged⟩ - hy
      exact ⟨hx.step hy, hlogged.step hx hy⟩
  obtain ⟨entries, hlog, hlogs⟩ := hinv.2
  exact ⟨entries, hlog, hlogs.skills, hlogs.members⟩

/-- **Isolation.** In every state that is reached from tables with their foreign keys, a statement of a
call leaves every row of another tenant as it is, and what it logs is its own. -/
theorem assignments_isolation {i : ℕ} {outcome : CallOutcome} {call : AssignmentCall}
    (hkeys : tables.ForeignKeys) (h : exec step (start tables auditLogs) acts = some s)
    (hcall : s.calls[i]? = some call) (hstep : step s (.call i outcome) = some s') :
    s.tables.ForeignKeys ∧ ∃ entries, s'.auditLogs = s.auditLogs ++ entries ∧
      Isolated call s.tables s'.tables entries := by
  have hinv : s.CallsFound ∧ s.tables.ForeignKeys := by
    refine Reaches.invariant (P := fun x => x.CallsFound ∧ x.tables.ForeignKeys)
      (Reachable.of_exec h) ⟨fun _ hcall => absurd hcall List.not_mem_nil, hkeys⟩ ?_
    rintro x act y ⟨hx, hxkeys⟩ - hy
    exact ⟨hx.step hy, foreignKeys_of_step hx hxkeys hy⟩
  refine ⟨hinv.2, ?_⟩
  obtain ⟨call', hcall', hpending⟩ := Option.bind_eq_some_iff.mp hstep
  obtain ⟨effect, heffect, rfl⟩ := Option.map_eq_some_iff.mp hpending
  rw [hcall] at hcall'
  cases hcall'
  have hmove := move_of_assignment (hinv.1 call (List.mem_of_getElem? hcall)) heffect
  have hisolated := isolated_of_move hinv.2 hmove
  cases outcome with
  | returned => exact ⟨_, rfl, hisolated⟩
  | interrupted error => exact ⟨_, rfl, hisolated⟩
  | failed error => exact ⟨[], (List.append_nil _).symm, isolated_refl call s.tables⟩

/-! ### A run -/

/-- Two tenants, each with an agent and a skill, and a team of the first. -/
def officeTables : AssignmentTables where
  agents := ⟨[⟨11, 1, true, .available, none⟩, ⟨21, 2, true, .available, none⟩], by decide⟩
  skills := ⟨[⟨12, 1, true⟩, ⟨22, 2, true⟩], by decide⟩
  teams := ⟨[⟨13, 1, true, none⟩], by decide⟩
  agentSkills := ⟨[⟨2, 22, 21, 4⟩], by decide⟩
  teamMembers := ⟨[], by decide⟩

/-- The tables of the office refer to their own rows. -/
theorem foreignKeys_officeTables : officeTables.ForeignKeys where
  agentSkills r hr := by
    rw [List.mem_singleton.mp hr]
    exact ⟨⟨⟨22, 2, true⟩, List.mem_cons_of_mem _ List.mem_cons_self, rfl, rfl⟩,
      ⟨⟨21, 2, true, .available, none⟩, List.mem_cons_of_mem _ List.mem_cons_self, rfl, rfl⟩⟩
  teamMembers _ hr := absurd hr List.not_mem_nil

/-- Who acts in the office. -/
def officeActor : ApiPrincipal where
  tenantId := 1
  apiKeyId := 7
  scopes := [.inboxWrite]

/-- Where the requests come from. -/
def officeContext : AuditRequestContext where
  ipAddress := none
  userAgent := none

/-- A call of the first tenant. -/
def asks (command : AssignmentCommand) : Act := .request officeActor officeContext command

/-- Two calls give an agent the same skill, each at its level, and both find it without; the second
then finds the row of the first. The agent also joins a team, before the last statement. -/
def officeActs : List Act :=
  [asks (.setAgentSkill 12 11 3), asks (.setAgentSkill 12 11 5), asks (.addMember 13 11),
    .call 0 .returned, .call 1 .returned, .call 0 .returned, .call 1 .returned, .call 0 .returned,
    .call 1 .returned, .call 0 .returned, .call 1 .returned, .call 2 .returned, .call 2 .returned,
    .call 2 (.interrupted "connection lost")]

/-- What is seen of a state. -/
def officeView (s : Assignments) : List ℕ × ℕ × ℕ :=
  (s.tables.agentSkills.rows.map InboxAgentSkill.level, s.tables.teamMembers.rows.length,
    s.auditLogs.length)

/-- The run of the office. -/
theorem exec_officeActs : (exec step (start officeTables []) officeActs).map officeView =
    some ([3, 4], 1, 2) := by
  decide

/-- The log of the office says how its tables came about. -/
theorem assignments_audit_office : ∃ s entries, exec step (start officeTables []) officeActs = some s ∧
    s.auditLogs = entries ∧ entries.length = 2 ∧
    agentSkillJournal.Records officeTables.level s.tables.level entries ∧
    teamMemberJournal.Records officeTables.membership s.tables.membership entries := by
  obtain ⟨s, hs, hview⟩ := Option.map_eq_some_iff.mp exec_officeActs
  simp only [officeView, Prod.mk.injEq] at hview
  obtain ⟨entries, hlog, hskills, hmembers⟩ := assignments_audit hs
  rw [List.nil_append] at hlog
  exact ⟨s, entries, hs, hlog, by rw [← hlog]; exact hview.2.2, hskills, hmembers⟩

/-- The second call sets its level. -/
theorem assignments_isolation_office : ∃ s s' call entries,
    exec step (start officeTables []) officeActs = some s ∧ step s (.call 1 .returned) = some s' ∧
      s'.tables.agentSkills.rows.map InboxAgentSkill.level = [5, 4] ∧
      Isolated call s.tables s'.tables entries := by
  have hlast : ((exec step (start officeTables []) officeActs).bind fun s =>
      (step s (.call 1 .returned)).map officeView) = some ([5, 4], 1, 3) := by
    decide
  obtain ⟨s, hs, hlast⟩ := Option.bind_eq_some_iff.mp hlast
  obtain ⟨s', hstep, hview⟩ := Option.map_eq_some_iff.mp hlast
  simp only [officeView, Prod.mk.injEq] at hview
  obtain ⟨call, hcall, -⟩ := Option.bind_eq_some_iff.mp hstep
  obtain ⟨-, entries, -, hisolated⟩ := assignments_isolation foreignKeys_officeTables hs hcall hstep
  exact ⟨s, s', call, entries, hs, hstep, hview.1, hisolated⟩

end Assignments

end ApiWhatsApp
