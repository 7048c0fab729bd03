import ApiWhatsApp.Inbox.Conversations
import ApiWhatsApp.Library.Locks
import Mathlib.Data.List.Sort

/-!
# Assigning conversations to agents

`claimConversation`, `routeConversation`, `updateConversation` and `releaseConversation` of
`inbox/inbox.service.ts`, with `inbox-capacity-admission.ts` and `inbox-skill-admission.ts`, as
transactions that run side by side under `READ COMMITTED`: each statement reads what is committed
when it runs, and a row that a transaction has locked stays locked until it commits or aborts.

* `AdmissionStage` is the statement a transaction runs next, with the local variables that the code
  after it still reads. `Txn.next` runs it.
* `Txn.wants` is the row that the statement locks: conversations, agents and teams. The locks on
  memberships, skills and proficiencies are left out; without them more interleavings are possible.
* A claim and an update come to a list of `AdmissionCheck`s, in the order of the source. Routing
  locks the members of the team one by one, in the order of their identifiers, and each is looked at
  again once its lock is held.
* What a transaction writes becomes visible when it commits (`InboxRequest.write`).
* `Admission.step` runs any number of transactions, together with updates of agents, which wait for
  the agent's lock, and with writes to the rest of the database.
-/

namespace ApiWhatsApp

open Library

/-! ## What the transactions read -/

/-- Source: `type LockedAgentCapacity`. -/
structure LockedAgentCapacity where
  agentId : Uuid
  presenceStatus : InboxAgentPresenceStatus
  maxConcurrentConversations : Option ℕ
  deriving DecidableEq

/-- What is locked of an agent. -/
def InboxAgent.capacity (agent : InboxAgent) : LockedAgentCapacity where
  agentId := agent.id
  presenceStatus := agent.presenceStatus
  maxConcurrentConversations := agent.maxConcurrentConversations

/-- The conversation counts as work of the agent.
Source: the `where` object of `assertAgentHasConversationCapacity`. -/
def Conversation.isLoadOf (tenantId agentId : Uuid) (c : Conversation) : Bool :=
  c.tenantId = tenantId && c.assignedAgentId = some agentId && c.status ≠ .resolved

/-- How many conversations the agent works on. -/
def Db.load (db : Db) (tenantId agentId : Uuid) : ℕ :=
  db.conversations.rows.countP (Conversation.isLoadOf tenantId agentId)

/-- An agent of a tenant, active or not. -/
def Db.agentOf (db : Db) (tenantId agentId : Uuid) : Option InboxAgent :=
  (db.inboxAgents.find agentId).filter fun agent => agent.tenantId = tenantId

/-- Source: the second query of `lockActiveAgentCapacity`. -/
def Db.activeAgent (db : Db) (tenantId agentId : Uuid) : Option InboxAgent :=
  (db.agentOf tenantId agentId).filter fun agent => agent.active

/-- The conversation of the tenant. -/
def Db.conversationOf (db : Db) (tenantId id : Uuid) : Option Conversation :=
  (db.conversation id).filter fun c => c.tenantId = tenantId

/-- The team a conversation is assigned to. Source: `existing.teamAssignment?.teamId`. -/
def Db.teamOf (db : Db) (c : Conversation) : Option Uuid :=
  ((db.teamAssignments.find c.id).filter fun a => a.tenantId = c.tenantId).map (·.teamId)

/-- The team is there and active. -/
def Db.isActiveTeam (db : Db) (tenantId teamId : Uuid) : Bool :=
  (db.inboxTeams.find teamId).any fun team => team.tenantId = tenantId && team.active

/-- Source: `assertAgentTeamMembership`. -/
def Db.isMember (db : Db) (tenantId teamId agentId : Uuid) : Bool :=
  (db.teamMembers.find (teamId, agentId)).any fun m => m.tenantId = tenantId

/-- Source: `type SkillRequirementRow`. -/
structure SkillRequirementRow where
  skillId : Uuid
  minLevel : ℕ
  active : Bool
  deriving DecidableEq

/-- The skills that a conversation asks for. Source: `lockRequirements`. -/
def Db.lockRequirements (db : Db) (tenantId conversationId : Uuid) : List SkillRequirementRow :=
  db.skillRequirements.rows.filterMap fun requirement =>
    if requirement.tenantId = tenantId ∧ requirement.conversationId = conversationId then
      ((db.inboxSkills.find requirement.skillId).filter fun skill =>
        skill.tenantId = requirement.tenantId).map fun skill =>
          ⟨requirement.skillId, requirement.minLevel, skill.active⟩
    else none

/-- How well an agent has a skill, 0 when not at all. Source: `lockProficiencies` and the maps built
from its rows. -/
def Db.level (db : Db) (tenantId agentId skillId : Uuid) : ℕ :=
  ((db.agentSkills.find (skillId, agentId)).filter fun row => row.tenantId = tenantId).elim 0
    (·.level)

/-- The agent has every skill, in its level. -/
def Db.meetsSkills (db : Db) (tenantId agentId : Uuid) (requirements : List SkillRequirementRow) :
    Bool :=
  requirements.all fun requirement =>
    requirement.minLevel ≤ db.level tenantId agentId requirement.skillId

/-! ## Requests -/

/-- A call of the service, with the tenant of its caller. -/
inductive InboxRequest where
  | claimConversation (tenantId id agentId : Uuid)
  | routeConversation (tenantId id : Uuid)
  /-- `startedAt` is the time at which the transaction begins. -/
  | updateConversation (tenantId id : Uuid) (dto : UpdateConversationDto) (startedAt : Time)
  | releaseConversation (tenantId id agentId : Uuid)

namespace InboxRequest

/-- The tenant of a request. -/
def tenantId : InboxRequest → Uuid
  | claimConversation t _ _ => t
  | routeConversation t _ => t
  | updateConversation t _ _ _ => t
  | releaseConversation t _ _ => t

/-- The conversation of a request. -/
def id : InboxRequest → Uuid
  | claimConversation _ i _ => i
  | routeConversation _ i => i
  | updateConversation _ i _ _ => i
  | releaseConversation _ i _ => i

/-- An update without a field is refused before its transaction begins.
Source: `changedFields(dto).length === 0` in `updateConversation`. -/
def isAccepted : InboxRequest → Bool
  | updateConversation _ _ dto _ =>
      dto.status.isSome || dto.priority.isSome || dto.assignedAgentId.isSome ||
        dto.assignedTeamId.isSome
  | _ => true

end InboxRequest

/-- Why a transaction was rolled back. -/
inductive InboxError where
  | notFound (message : String)
  | unprocessable (message : String)
  | conflict (message : String)
  /-- A statement failed: a deadlock, a lost connection, the audit record. -/
  | interrupted
  deriving DecidableEq

/-! ## Checks of claims and updates -/

/-- A check of a claim or an update; each runs one statement or none. -/
inductive AdmissionCheck where
  | activeTeam (teamId : Uuid) (message : String)
  | membership (teamId agentId : Uuid) (message : String)
  | skills (agentId : Uuid) (message : String)
  /-- The second statement of a skill check. -/
  | proficiencies (agentId : Uuid) (requirements : List SkillRequirementRow) (message : String)
  | available (agent : LockedAgentCapacity) (message : String)
  | capacity (agent : LockedAgentCapacity) (message : String)
  deriving DecidableEq

/-- Source: the message of `assertRequirementsActive`. -/
def inactiveSkillsMessage : String := "Conversation has inactive required inbox skills"

/-- Run a check: it fails, or comes to the checks that it leaves to be made. -/
def AdmissionCheck.run (db : Db) (tenantId conversationId : Uuid) :
    AdmissionCheck → Except InboxError (List AdmissionCheck)
  | activeTeam teamId message =>
      if db.isActiveTeam tenantId teamId then .ok [] else .error (.unprocessable message)
  | membership teamId agentId message =>
      if db.isMember tenantId teamId agentId then .ok [] else .error (.unprocessable message)
  -- Source: `assertAgentMeetsConversationSkills`.
  | skills agentId message =>
      let requirements := db.lockRequirements tenantId conversationId
      if requirements.isEmpty then .ok []
      else if requirements.any fun requirement => !requirement.active then
        .error (.unprocessable inactiveSkillsMessage)
      else .ok [.proficiencies agentId requirements message]
  | proficiencies agentId requirements message =>
      if db.meetsSkills tenantId agentId requirements then .ok []
      else .error (.unprocessable message)
  -- Source: `assertAgentAvailableForConversation`.
  | available agent message =>
      if agent.presenceStatus = .available then .ok [] else .error (.unprocessable message)
  -- Source: `assertAgentHasConversationCapacity`.
  | capacity agent message =>
      match agent.maxConcurrentConversations with
      | none => .ok []
      | some limit =>
          if limit ≤ db.load tenantId agent.agentId then .error (.unprocessable message)
          else .ok []

/-! ## Stages -/

/-- The statement that a transaction runs next. `existing` is the row that it found, `team` the team
found with it. -/
inductive AdmissionStage where
  | lockConversation
  | findConversation
  /-- The two queries of `lockActiveAgentCapacity`, in a claim or an update. -/
  | lockAgent (existing : Conversation) (team : Option Uuid) (agentId : Uuid)
  | readAgent (existing : Conversation) (team : Option Uuid) (agentId : Uuid)
  /-- The checks of a claim or an update that are still to be made; `admitted` is the agent that the
  conversation is newly given to. -/
  | checking (existing : Conversation) (admitted : Option LockedAgentCapacity)
      (checks : List AdmissionCheck)
  /-- The statements of `routeConversation`; its candidate query locks one member after another. -/
  | lockTeam (existing : Conversation) (teamId : Uuid)
  | findMembers (existing : Conversation) (teamId : Uuid)
  | lockMembers (existing : Conversation) (teamId : Uuid) (pending : List Uuid)
      (candidates : List LockedAgentCapacity)
  | lockRequirements (existing : Conversation) (candidates : List LockedAgentCapacity)
  | lockProficiencies (existing : Conversation) (candidates : List LockedAgentCapacity)
      (requirements : List SkillRequirementRow)
  | groupLoads (existing : Conversation) (candidates : List LockedAgentCapacity)
  /-- The agent query of `releaseConversation`. -/
  | findAgent (existing : Conversation)
  /-- The write, which ends in the commit. -/
  | ready (existing : Conversation) (admitted : Option LockedAgentCapacity)
  | returned (changed : Bool)
  | failed (error : InboxError)

/-- The transaction is over. -/
def AdmissionStage.isFinal : AdmissionStage → Bool
  | returned _ => true
  | failed _ => true
  | _ => false

/-- The checks of `claimConversation`, once the agent is read. -/
def claimStage (existing : Conversation) (team : Option Uuid) (agentId : Uuid)
    (agent : LockedAgentCapacity) : AdmissionStage :=
  if existing.assignedAgentId = some agentId then .returned false
  else if existing.assignedAgentId.isSome then
    .failed (.conflict "Conversation is already assigned to another inbox agent")
  else
    .checking existing (some agent)
      (.available agent "Inbox agent is not available for new conversations" ::
        ((team.map fun teamId => .membership teamId agentId
          "Inbox agent is not a member of the assigned team").toList ++
        [.skills agentId "Inbox agent does not satisfy conversation skill requirements",
          .capacity agent "Inbox agent has no remaining conversation capacity"]))

namespace UpdateConversationDto

variable (dto : UpdateConversationDto) (existing : Conversation)

/-- Source: `finalAgentId` in `updateConversation`. -/
def finalAgentId : Option Uuid := dto.assignedAgentId.getD existing.assignedAgentId

/-- Source: `newAgentAdmission` in `updateConversation`. -/
def newAgentAdmission : Bool :=
  dto.assignedAgentId.isSome && (dto.finalAgentId existing).isSome &&
    dto.finalAgentId existing ≠ existing.assignedAgentId

end UpdateConversationDto

/-- The checks of `updateConversation`; `assignedAgentCapacity` is the agent that the request names,
locked and read. -/
def updateStage (dto : UpdateConversationDto) (existing : Conversation) (team : Option Uuid)
    (assignedAgentCapacity : Option LockedAgentCapacity) : AdmissionStage :=
  let finalAgentId := dto.finalAgentId existing
  let finalTeamId := dto.assignedTeamId.getD team
  let admitted := if dto.newAgentAdmission existing then assignedAgentCapacity else none
  .checking existing admitted
    ((match dto.assignedTeamId with
      | some (some teamId) =>
          [.activeTeam teamId "Assigned inbox team is not active in this tenant"]
      | _ => []) ++
    (match finalAgentId, finalTeamId with
      | some agentId, some teamId =>
          if dto.assignedAgentId.isSome || dto.assignedTeamId.isSome then
            [.membership teamId agentId "Assigned inbox agent is not a member of the assigned team"]
          else []
      | _, _ => []) ++
    (match finalAgentId with
      | some agentId =>
          if dto.assignedAgentId.isSome then
            [.skills agentId
              "Assigned inbox agent does not satisfy conversation skill requirements"]
          else []
      | none => []) ++
    (match admitted with
      | some agent =>
          [.available agent "Assigned inbox agent is not available for new conversations",
            .capacity agent "Assigned inbox agent has no remaining conversation capacity"]
      | none => []))

namespace InboxRequest

/-- The error of a claim or an update whose agent is not active in the tenant. -/
def inactiveMessage : InboxRequest → String
  | updateConversation _ _ _ _ => "Assigned inbox agent is not active in this tenant"
  | _ => "Inbox agent is not active in this tenant"

/-- The stage after the conversation has been found. -/
def afterFind (existing : Conversation) (team : Option Uuid) : InboxRequest → AdmissionStage
  | claimConversation _ _ agentId => .lockAgent existing team agentId
  | routeConversation _ _ =>
      if existing.assignedAgentId.isSome then .returned false
      else
        match team with
        | none => .failed (.unprocessable
            "Conversation must be assigned to an inbox team before automatic routing")
        | some teamId => .lockTeam existing teamId
  | updateConversation _ _ dto _ =>
      match dto.assignedAgentId with
      | some (some agentId) => .lockAgent existing team agentId
      | _ => updateStage dto existing team none
  | releaseConversation _ _ _ => .findAgent existing

/-- The stage after the agent has been read. -/
def afterAgent (existing : Conversation) (team : Option Uuid) (agent : LockedAgentCapacity) :
    InboxRequest → AdmissionStage
  | claimConversation _ _ agentId => claimStage existing team agentId agent
  | updateConversation _ _ dto _ => updateStage dto existing team (some agent)
  | _ => .failed .interrupted

/-- The stage of `releaseConversation` after the agent has been found. -/
def afterHolder (existing : Conversation) : InboxRequest → AdmissionStage
  | releaseConversation _ _ agentId =>
      if existing.assignedAgentId = none then .returned false
      else if existing.assignedAgentId ≠ some agentId then
        .failed (.conflict "Conversation is assigned to another inbox agent")
      else .ready existing none
  | _ => .failed .interrupted

end InboxRequest

/-! ## Routing -/

/-- The first candidate with the least load. Source: the loop over `capacityEligibleIds`. -/
def selectLeastLoaded (load : Uuid → ℕ) : List LockedAgentCapacity → Option LockedAgentCapacity
  | [] => none
  | first :: rest =>
      some (rest.foldl (fun selected candidate =>
        if load candidate.agentId < load selected.agentId then candidate else selected) first)

/-- The active members of a team, in the order of their identifiers.
Source: the candidate query of `routeConversation`. -/
def Db.routingMembers (db : Db) (tenantId teamId : Uuid) : List Uuid :=
  ((db.teamMembers.rows.filter fun m =>
      m.tenantId = tenantId && m.teamId = teamId &&
        (db.activeAgent tenantId m.agentId).isSome).map (·.agentId)).insertionSort (· ≤ ·)

/-- The member as it is once its lock is held; `none` when it no longer qualifies. -/
def Db.routingCandidate (db : Db) (tenantId teamId agentId : Uuid) : Option LockedAgentCapacity :=
  if db.isMember tenantId teamId agentId then
    (db.activeAgent tenantId agentId).map InboxAgent.capacity
  else none

/-- Source: the checks of `candidates` and `availableCandidates`. -/
def afterMembers (existing : Conversation) (candidates : List LockedAgentCapacity) :
    AdmissionStage :=
  let availableCandidates := candidates.filter fun c => c.presenceStatus = .available
  if candidates.isEmpty then
    .failed (.unprocessable "Assigned inbox team has no active routing members")
  else if availableCandidates.isEmpty then
    .failed (.unprocessable "Assigned inbox team has no available routing members")
  else .lockRequirements existing availableCandidates

/-- Source: `capacityEligibleIds` and the selection from them. -/
def afterLoads (existing : Conversation) (load : Uuid → ℕ)
    (candidates : List LockedAgentCapacity) : AdmissionStage :=
  let eligible := candidates.filter fun c =>
    c.maxConcurrentConversations.all fun limit => load c.agentId < limit
  match selectLeastLoaded load eligible with
  | none => .failed (.unprocessable
      "Assigned inbox team has no routing members with remaining conversation capacity")
  | some agent => .ready existing (some agent)

/-! ## Transactions -/

/-- A row that a statement locks with `FOR UPDATE`. -/
inductive RowLock where
  | conversation (id : Uuid)
  | agent (id : Uuid)
  | team (id : Uuid)
  deriving DecidableEq

/-- A transaction. -/
structure Txn where
  request : InboxRequest
  locks : List RowLock
  stage : AdmissionStage

namespace Txn

variable (db : Db) (t : Txn)

/-- The row that the next statement locks, when there is such a row. -/
def wants : Option RowLock :=
  match t.stage with
  | .lockConversation =>
      (db.conversationOf t.request.tenantId t.request.id).map fun _ =>
        .conversation t.request.id
  | .lockAgent _ _ agentId => (db.agentOf t.request.tenantId agentId).map fun _ => .agent agentId
  | .lockTeam _ teamId =>
      if db.isActiveTeam t.request.tenantId teamId then some (.team teamId) else none
  | .lockMembers _ _ (agentId :: _) _ => some (.agent agentId)
  | _ => none

/-- The stage after the next statement, whose lock is held. -/
def nextStage : AdmissionStage :=
  let tenantId := t.request.tenantId
  match t.stage with
  | .lockConversation => .findConversation
  | .findConversation =>
      match db.conversationOf tenantId t.request.id with
      | none => .failed (.notFound "Conversation not found")
      | some existing => t.request.afterFind existing (db.teamOf existing)
  | .lockAgent existing team agentId => .readAgent existing team agentId
  | .readAgent existing team agentId =>
      match db.activeAgent tenantId agentId with
      | none => .failed (.unprocessable t.request.inactiveMessage)
      | some agent => t.request.afterAgent existing team agent.capacity
  | .checking existing admitted [] => .ready existing admitted
  | .checking existing admitted (check :: rest) =>
      match check.run db tenantId t.request.id with
      | .error error => .failed error
      | .ok [] =>
          if rest.isEmpty then .ready existing admitted else .checking existing admitted rest
      | .ok checks => .checking existing admitted (checks ++ rest)
  | .lockTeam existing teamId =>
      if db.isActiveTeam tenantId teamId then .findMembers existing teamId
      else .failed (.unprocessable "Assigned inbox team is not active in this tenant")
  | .findMembers existing teamId =>
      .lockMembers existing teamId (db.routingMembers tenantId teamId) []
  | .lockMembers existing _ [] candidates => afterMembers existing candidates
  | .lockMembers existing teamId (agentId :: pending) candidates =>
      .lockMembers existing teamId pending
        (candidates ++ (db.routingCandidate tenantId teamId agentId).toList)
  -- Source: `filterAgentsByConversationSkills`.
  | .lockRequirements existing candidates =>
      let requirements := db.lockRequirements tenantId t.request.id
      if requirements.isEmpty then .groupLoads existing candidates
      else if requirements.any fun requirement => !requirement.active then
        .failed (.unprocessable inactiveSkillsMessage)
      else .lockProficiencies existing candidates requirements
  | .lockProficiencies existing candidates requirements =>
      let eligible := candidates.filter fun c => db.meetsSkills tenantId c.agentId requirements
      if eligible.isEmpty then
        .failed (.unprocessable
          "Assigned inbox team has no available members satisfying required skills")
      else .groupLoads existing eligible
  | .groupLoads existing candidates => afterLoads existing (db.load tenantId) candidates
  | .findAgent existing =>
      match t.request with
      | .releaseConversation _ _ agentId =>
          match db.agentOf tenantId agentId with
          | none => .failed (.unprocessable "Inbox agent is not in this tenant")
          | some _ => t.request.afterHolder existing
      | _ => .failed .interrupted
  | .ready existing admitted => .ready existing admitted
  | .returned changed => .returned changed
  | .failed error => .failed error

/-- Enter a stage; a transaction that is over holds no lock. -/
def enter (locks : List RowLock) (stage : AdmissionStage) : Txn :=
  { t with locks := if stage.isFinal then [] else locks, stage := stage }

/-- Run the next statement. -/
def next : Txn := t.enter ((t.wants db).toList ++ t.locks) (t.nextStage db)

end Txn

/-- Give a conversation to an agent, or to none. -/
def Db.assignAgent (db : Db) (id : Uuid) (agentId : Option Uuid) : Db :=
  db.updateConversation id (fun c => { c with assignedAgentId := agentId }) fun _ => rfl

/-- What a transaction has written when it commits; `admitted` is the agent that routing
selected. -/
def InboxRequest.write (db : Db) (admitted : Option LockedAgentCapacity) (now : Time) :
    InboxRequest → Option Db
  | claimConversation _ id agentId => some (db.assignAgent id (some agentId))
  | routeConversation _ id => some (db.assignAgent id (admitted.map (·.agentId)))
  | updateConversation tenantId id dto startedAt =>
      db.writeConversationUpdate tenantId id dto startedAt now
  | releaseConversation _ id _ => some (db.assignAgent id none)

/-! ## The machine -/

/-- The columns of a conversation that say whose work it is. -/
structure WorkColumns where
  id : Uuid
  tenantId : Uuid
  assignedAgentId : Option Uuid
  status : ConversationStatus
  deriving DecidableEq

/-- The columns of the work. -/
def Conversation.work (c : Conversation) : WorkColumns where
  id := c.id
  tenantId := c.tenantId
  assignedAgentId := c.assignedAgentId
  status := c.status

/-- Whose work every conversation is. -/
def Db.work (db : Db) : List WorkColumns := db.conversations.rows.map Conversation.work

/-- Source: the fields of `UpdateInboxAgentDto` that an admission reads. -/
structure UpdateInboxAgentDto where
  active : Option Bool
  presenceStatus : Option InboxAgentPresenceStatus
  maxConcurrentConversations : Option (Option ℕ)

/-- Source: `updateAgent`. -/
def InboxAgent.updated (dto : UpdateInboxAgentDto) (agent : InboxAgent) : InboxAgent :=
  { agent with
    active := dto.active.getD agent.active
    presenceStatus := dto.presenceStatus.getD agent.presenceStatus
    maxConcurrentConversations :=
      dto.maxConcurrentConversations.getD agent.maxConcurrentConversations }

/-- The columns of an agent that an update sets. -/
def Db.updateAgent (db : Db) (agentId : Uuid) (dto : UpdateInboxAgentDto) : Db :=
  { db with
    inboxAgents := db.inboxAgents.updateWhere (fun a => a.id = agentId) (InboxAgent.updated dto)
      fun _ => rfl }

/-- The database and the transactions, in the order in which they began. -/
structure AdmissionState where
  db : Db
  txns : List Txn

/-- What can happen: requests begin, go on and commit. -/
inductive AdmissionAct where
  /-- A transaction begins. -/
  | begins (request : InboxRequest)
  /-- A transaction runs its next statement. -/
  | runs (i : ℕ)
  /-- A transaction writes and commits. -/
  | commits (i : ℕ) (now : Time)
  /-- A transaction is rolled back. -/
  | aborts (i : ℕ)
  /-- An agent is updated. -/
  | updateAgent (agentId : Uuid) (dto : UpdateInboxAgentDto)
  /-- Any write that leaves the agents and the columns above alone: activity in the conversations,
  teams, memberships, skills. -/
  | other (db' : Db)

namespace Admission

/-- One step of the inbox. -/
def step (s : AdmissionState) : AdmissionAct → Option AdmissionState
  | .begins request =>
      if request.isAccepted then
        some { s with txns := s.txns ++ [⟨request, [], .lockConversation⟩] }
      else none
  | .runs i =>
      s.txns[i]?.bind fun t =>
        -- A statement waits for the row that it locks.
        if (t.wants s.db).all (freeFor Txn.locks s.txns i) then
          some { s with txns := s.txns.set i (t.next s.db) }
        else none
  | .commits i now =>
      s.txns[i]?.bind fun t =>
        match t.stage with
        | .ready _ admitted =>
            (t.request.write s.db admitted now).map fun db =>
              { db := db, txns := s.txns.set i (t.enter t.locks (.returned true)) }
        | _ => none
  | .aborts i =>
      s.txns[i]?.map fun t =>
        { s with txns := s.txns.set i (t.enter t.locks (.failed .interrupted)) }
  | .updateAgent agentId dto =>
      if s.txns.all fun t => .agent agentId ∉ t.locks then
        some { s with db := s.db.updateAgent agentId dto }
      else none
  | .other db' =>
      if db'.work = s.db.work ∧ db'.inboxAgents.rows = s.db.inboxAgents.rows then
        some { s with db := db' }
      else none

end Admission

end ApiWhatsApp
