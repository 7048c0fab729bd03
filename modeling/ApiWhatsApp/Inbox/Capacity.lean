import ApiWhatsApp.Inbox.Admission

/-!
# The capacity of agents

An admission counts the conversations of an agent and then gives it one more. Between the count and
the commit other transactions commit too; what keeps the count valid are the row locks. This module
proves it for every interleaving of `Admission.step`.

* `StageOk` says, stage by stage, what a transaction has established and what it holds: the
  conversation's lock once it has found the conversation, the agent's lock once it has read the
  agent, and room for one more conversation once it has counted.
* `nextStage_ok` — the transaction's own statements establish it; **`StageOk.frame`** — it survives
  what others write, as long as they leave alone what is locked (`Frame`).
* `frame_of_commit` — a commit gives no work to an agent that another transaction has locked.
* **`capacity_admission`** — no admission commits at or over the agent's limit, no claim or routing
  takes a conversation from its holder, and agents within their limits stay there.
-/

namespace ApiWhatsApp

open Library

/-! ## Work columns -/

section work

variable {db db' : Db} {id : Uuid}

/-- The work columns of a conversation. -/
def Db.workOf (db : Db) (id : Uuid) : Option WorkColumns := db.work.find? fun w => w.id = id

/-- The row that is found has the id. -/
theorem id_of_workOf {w : WorkColumns} (h : db.workOf id = some w) : w.id = id := by
  simpa using List.find?_some h

/-- The columns of the work are those of the conversation. -/
theorem map_work_conversation (db : Db) (id : Uuid) :
    (db.conversation id).map Conversation.work = db.workOf id := by
  unfold Db.conversation Table.find Db.workOf Db.work
  rw [List.find?_map]
  congr 2
  funext c
  exact decide_eq_decide.mpr mem_keys_conversation_id

/-- The load is a matter of the work columns. -/
def WorkColumns.isLoadOf (tenantId agentId : Uuid) (w : WorkColumns) : Bool :=
  w.tenantId = tenantId && w.assignedAgentId = some agentId && w.status ≠ .resolved

/-- The load of an agent is a count over the columns. -/
theorem load_eq (db : Db) (tenantId agentId : Uuid) :
    db.load tenantId agentId = db.work.countP (WorkColumns.isLoadOf tenantId agentId) := by
  unfold Db.load Db.work
  rw [List.countP_map]
  rfl

/-- So is the question whether a tenant has a conversation. -/
theorem isSome_conversationOf (db : Db) (tenantId id : Uuid) :
    (db.conversationOf tenantId id).isSome =
      (db.workOf id).any fun w => w.tenantId = tenantId := by
  rw [← map_work_conversation, Db.conversationOf]
  rcases db.conversation id with _ | c
  · rfl
  · by_cases h : c.tenantId = tenantId <;> simp [h, Conversation.work]

/-- A conversation of the tenant is a conversation. -/
theorem conversation_of_conversationOf {tenantId : Uuid} {c : Conversation}
    (h : db.conversationOf tenantId id = some c) :
    db.conversation id = some c ∧ c.tenantId = tenantId := by
  obtain ⟨hc, htenant⟩ := Option.filter_eq_some_iff.mp h
  exact ⟨hc, of_decide_eq_true htenant⟩

/-- An agent that is found is the one of the tenant. -/
theorem id_of_agentOf {tenantId agentId : Uuid} {agent : InboxAgent}
    (h : db.agentOf tenantId agentId = some agent) :
    agent.id = agentId ∧ agent.tenantId = tenantId := by
  obtain ⟨hfind, htenant⟩ := Option.filter_eq_some_iff.mp h
  obtain ⟨-, hkey⟩ := db.inboxAgents.find_eq_some_iff.mp hfind
  exact ⟨(List.mem_singleton.mp hkey).symm, of_decide_eq_true htenant⟩

/-- An update of an agent changes the agent only. -/
theorem agentOf_updateAgent (db : Db) (agentId : Uuid) (dto : UpdateInboxAgentDto)
    (tenantId a : Uuid) :
    (db.updateAgent agentId dto).agentOf tenantId a =
      (db.agentOf tenantId a).map fun r => if r.id = agentId then r.updated dto else r := by
  have hfind := db.inboxAgents.find_updateWhere (fun r => r.id = agentId) (InboxAgent.updated dto)
    (fun _ => rfl) a
  unfold Db.agentOf Db.updateAgent
  rw [hfind]
  rcases db.inboxAgents.find a with _ | r
  · rfl
  · by_cases hid : r.id = agentId <;> by_cases ht : r.tenantId = tenantId <;>
      simp [hid, ht, InboxAgent.updated, Option.filter_some]

/-- An active agent is an agent of the tenant. -/
theorem agentOf_of_activeAgent {tenantId agentId : Uuid} {agent : InboxAgent}
    (h : db.activeAgent tenantId agentId = some agent) : db.agentOf tenantId agentId = some agent :=
  (Option.filter_eq_some_iff.mp h).1

end work

/-! ## What a transaction has established -/

namespace Admission

/-- The transaction holds the conversation, and what it found is still there. -/
def Found (db : Db) (request : InboxRequest) (locks : List RowLock) (existing : Conversation) :
    Prop :=
  .conversation request.id ∈ locks ∧
    (db.conversation request.id).map Conversation.work = some existing.work ∧
    existing.tenantId = request.tenantId

/-- The transaction holds an agent of its tenant, and what it read is still there. -/
def HoldsAgent (db : Db) (request : InboxRequest) (locks : List RowLock)
    (agent : LockedAgentCapacity) : Prop :=
  .agent agent.agentId ∈ locks ∧
    (db.agentOf request.tenantId agent.agentId).map InboxAgent.capacity = some agent

/-- The agent can take one more conversation. -/
def HasRoom (db : Db) (request : InboxRequest) (agent : LockedAgentCapacity) : Prop :=
  ∀ limit, agent.maxConcurrentConversations = some limit →
    db.load request.tenantId agent.agentId < limit

/-- The request names the agent. -/
def Names (agentId : Uuid) : InboxRequest → Prop
  | .claimConversation _ _ a => a = agentId
  | .updateConversation _ _ dto _ => dto.assignedAgentId = some (some agentId)
  | _ => False

/-- What a request is about to write to the conversation that it found: a claim and a routing only
give an unassigned conversation to an agent, and an update that gives it to a new agent has read
that agent. -/
def Plan (locks : List RowLock) (existing : Conversation) (admitted : Option LockedAgentCapacity) :
    InboxRequest → Prop
  | .claimConversation _ _ agentId =>
      existing.assignedAgentId = none ∧ admitted.map (·.agentId) = some agentId
  | .routeConversation _ _ => existing.assignedAgentId = none ∧ admitted.isSome = true
  | .updateConversation _ _ dto _ =>
      (dto.newAgentAdmission existing = true →
        dto.assignedAgentId = some (admitted.map (·.agentId))) ∧
      ∀ agentId, dto.assignedAgentId = some (some agentId) → .agent agentId ∈ locks
  | .releaseConversation _ _ _ => True

/-- A routing that has found its conversation unassigned. -/
def Routes (db : Db) (request : InboxRequest) (locks : List RowLock) (existing : Conversation)
    (candidates : List LockedAgentCapacity) : Prop :=
  Found db request locks existing ∧ existing.assignedAgentId = none ∧
    (∃ tenantId id, request = .routeConversation tenantId id) ∧
    ∀ agent ∈ candidates, HoldsAgent db request locks agent

/-- What holds at each stage of a transaction. -/
def StageOk (db : Db) (request : InboxRequest) (locks : List RowLock) : AdmissionStage → Prop
  | .lockConversation => True
  | .findConversation =>
      .conversation request.id ∈ locks ∨ db.conversationOf request.tenantId request.id = none
  | .lockAgent existing _ agentId => Found db request locks existing ∧ Names agentId request
  | .readAgent existing _ agentId =>
      Found db request locks existing ∧ Names agentId request ∧
        (.agent agentId ∈ locks ∨ db.agentOf request.tenantId agentId = none)
  | .checking existing admitted checks =>
      Found db request locks existing ∧ Plan locks existing admitted request ∧
        ∀ agent, admitted = some agent → HoldsAgent db request locks agent ∧
          ∃ message, checks.getLast? = some (.capacity agent message)
  | .lockTeam existing _ => Routes db request locks existing []
  | .findMembers existing _ => Routes db request locks existing []
  | .lockMembers existing _ _ candidates => Routes db request locks existing candidates
  | .lockRequirements existing candidates => Routes db request locks existing candidates
  | .lockProficiencies existing candidates _ => Routes db request locks existing candidates
  | .groupLoads existing candidates => Routes db request locks existing candidates
  | .findAgent existing => Found db request locks existing
  | .ready existing admitted =>
      Found db request locks existing ∧ Plan locks existing admitted request ∧
        ∀ agent, admitted = some agent →
          HoldsAgent db request locks agent ∧ HasRoom db request agent
  | .returned _ => True
  | .failed _ => True

/-- What holds of a transaction. -/
def TxnOk (db : Db) (t : Txn) : Prop := StageOk db t.request t.locks t.stage

/-! ## The transaction's own statements -/

section own

variable {db : Db} {request : InboxRequest} {locks locks' : List RowLock} {existing : Conversation}
  {admitted : Option LockedAgentCapacity} {agent : LockedAgentCapacity}

/-- What was found under locks is found under more. -/
theorem Found.mono (h : Found db request locks existing) (hsub : locks ⊆ locks') :
    Found db request locks' existing :=
  ⟨hsub h.1, h.2⟩

/-- An agent that is held stays held under more locks. -/
theorem HoldsAgent.mono (h : HoldsAgent db request locks agent) (hsub : locks ⊆ locks') :
    HoldsAgent db request locks' agent :=
  ⟨hsub h.1, h.2⟩

/-- A plan stays one under more locks. -/
theorem Plan.mono (h : Plan locks existing admitted request) (hsub : locks ⊆ locks') :
    Plan locks' existing admitted request := by
  cases request with
  | claimConversation t i a => exact h
  | routeConversation t i => exact h
  | updateConversation t i dto startedAt => exact ⟨h.1, fun a ha => hsub (h.2 a ha)⟩
  | releaseConversation t i a => exact h

/-- A choice of candidates stays one under more locks. -/
theorem Routes.mono {candidates : List LockedAgentCapacity}
    (h : Routes db request locks existing candidates) (hsub : locks ⊆ locks') :
    Routes db request locks' existing candidates :=
  ⟨h.1.mono hsub, h.2.1, h.2.2.1, fun k hk => (h.2.2.2 k hk).mono hsub⟩

/-- Fewer candidates. -/
theorem Routes.subset {candidates candidates' : List LockedAgentCapacity}
    (h : Routes db request locks existing candidates) (hsub : candidates' ⊆ candidates) :
    Routes db request locks existing candidates' :=
  ⟨h.1, h.2.1, h.2.2.1, fun k hk => h.2.2.2 k (hsub hk)⟩

/-- The stage after the conversation has been found and is held. -/
theorem afterFind_ok (hfound : Found db request locks existing) (team : Option Uuid) :
    StageOk db request locks (request.afterFind existing team) := by
  cases request with
  | claimConversation t i a => exact ⟨hfound, rfl⟩
  | routeConversation t i =>
      simp only [InboxRequest.afterFind]
      split_ifs with hassigned
      · trivial
      · have hnone : existing.assignedAgentId = none := by simpa using hassigned
        cases team with
        | none => trivial
        | some teamId => exact ⟨hfound, hnone, ⟨t, i, rfl⟩, by simp⟩
  | updateConversation t i dto startedAt =>
      simp only [InboxRequest.afterFind]
      split
      · rename_i agentId hdto
        exact ⟨hfound, hdto⟩
      · -- Without an agent in the request there is none to admit.
        rename_i hdto
        have hno : dto.newAgentAdmission existing = false := by
          rcases hagent : dto.assignedAgentId with _ | _ | a
          · simp [UpdateConversationDto.newAgentAdmission, hagent]
          · simp [UpdateConversationDto.newAgentAdmission, UpdateConversationDto.finalAgentId,
              hagent]
          · exact absurd hagent (hdto a)
        refine ⟨hfound, ⟨?_, fun a ha => absurd ha (hdto a)⟩, ?_⟩
        · rw [hno]
          intro h
          cases h
        · intro agent hagent
          simp at hagent
  | releaseConversation t i a => exact hfound

/-- The stage after the agent has been read and is held. -/
theorem afterAgent_ok {agentId : Uuid} (hfound : Found db request locks existing)
    (hnames : Names agentId request) (hagent : HoldsAgent db request locks agent)
    (hid : agent.agentId = agentId) (team : Option Uuid) :
    StageOk db request locks (request.afterAgent existing team agent) := by
  cases request with
  | claimConversation t i a =>
      obtain rfl : a = agentId := hnames
      simp only [InboxRequest.afterAgent, claimStage]
      split_ifs with hsame hother
      · trivial
      · trivial
      · refine ⟨hfound, ⟨by simpa using hother, by simp [hid]⟩, ?_⟩
        intro k hk
        cases hk
        refine ⟨hagent, "Inbox agent has no remaining conversation capacity", ?_⟩
        simp [List.getLast?_cons, List.getLast?_append]
  | updateConversation t i dto startedAt =>
      have hdto : dto.assignedAgentId = some (some agentId) := hnames
      refine ⟨hfound, ⟨fun hnew => ?_, fun a ha => ?_⟩, ?_⟩
      · rw [if_pos hnew, hdto, Option.map_some, hid]
      · rw [hdto] at ha
        cases ha
        exact hid ▸ hagent.1
      · intro k hk
        split_ifs at hk with hnew
        cases hk
        refine ⟨hagent, "Assigned inbox agent has no remaining conversation capacity", ?_⟩
        simp [hnew, List.getLast?_append]
  | routeConversation t i => trivial
  | releaseConversation t i a => trivial

/-- The capacity check leaves nothing to be checked, and it passes only while there is room. -/
theorem hasRoom_of_run {message : String} {checks : List AdmissionCheck}
    (h : (AdmissionCheck.capacity agent message).run db request.tenantId request.id = .ok checks) :
    checks = [] ∧ HasRoom db request agent := by
  rcases hlimit : agent.maxConcurrentConversations with _ | limit
  · simp only [AdmissionCheck.run, hlimit, Except.ok.injEq] at h
    refine ⟨h.symm, fun limit hsome => ?_⟩
    rw [hlimit] at hsome
    cases hsome
  · simp only [AdmissionCheck.run, hlimit] at h
    split_ifs at h with hle
    cases h
    refine ⟨rfl, fun limit' hsome => ?_⟩
    rw [hlimit] at hsome
    cases hsome
    exact Nat.lt_of_not_le hle

/-- The stage after one check of a claim or an update. -/
theorem checking_ok {check : AdmissionCheck} {rest checks : List AdmissionCheck}
    (h : StageOk db request locks (.checking existing admitted (check :: rest)))
    (hrun : check.run db request.tenantId request.id = .ok checks) :
    (rest = [] → checks = [] → StageOk db request locks (.ready existing admitted)) ∧
      (rest ≠ [] ∨ checks ≠ [] →
        StageOk db request locks (.checking existing admitted (checks ++ rest))) := by
  obtain ⟨hfound, hplan, hadmits⟩ := h
  refine ⟨fun hrest _ => ⟨hfound, hplan, fun k hk => ?_⟩,
    fun hmore => ⟨hfound, hplan, fun k hk => ?_⟩⟩
  · -- The last check is the one that counts.
    obtain ⟨hholds, message, hlast⟩ := hadmits k hk
    subst hrest
    obtain rfl : check = .capacity k message := by simpa using hlast
    exact ⟨hholds, (hasRoom_of_run hrun).2⟩
  · obtain ⟨hholds, message, hlast⟩ := hadmits k hk
    refine ⟨hholds, message, ?_⟩
    rcases hr : rest with _ | ⟨r, rs⟩
    · subst hr
      obtain rfl : check = .capacity k message := by simpa using hlast
      have hnil := (hasRoom_of_run hrun).1
      simp [hnil] at hmore
    · rw [hr] at hlast
      rw [List.getLast?_append]
      simpa [List.getLast?_cons] using hlast

/-- The selected candidate is one of those it is selected from. -/
theorem mem_of_selectLeastLoaded {load : Uuid → ℕ} {candidates : List LockedAgentCapacity}
    (h : selectLeastLoaded load candidates = some agent) : agent ∈ candidates := by
  cases candidates with
  | nil => cases h
  | cons first rest =>
      have hfold : ∀ (rest : List LockedAgentCapacity) (selected : LockedAgentCapacity),
          rest.foldl (fun selected candidate =>
            if load candidate.agentId < load selected.agentId then candidate else selected)
            selected ∈ selected :: rest := by
        intro rest
        induction rest with
        | nil => simp
        | cons c rest ih =>
            intro selected
            rw [List.foldl_cons]
            split_ifs
            · exact List.mem_cons_of_mem _ (ih c)
            · rcases List.mem_cons.mp (ih selected) with heq | hmem
              · rw [heq]
                exact List.mem_cons_self
              · exact List.mem_cons_of_mem _ (List.mem_cons_of_mem _ hmem)
      obtain rfl := Option.some.inj h
      exact hfold rest first

/-- The stage after the loads have been counted. -/
theorem afterLoads_ok {candidates : List LockedAgentCapacity}
    (h : Routes db request locks existing candidates) :
    StageOk db request locks (afterLoads existing (db.load request.tenantId) candidates) := by
  obtain ⟨hfound, hnone, ⟨t, i, rfl⟩, hholds⟩ := h
  simp only [afterLoads]
  split
  · trivial
  · rename_i agent hselected
    obtain ⟨hmem, hroom⟩ := List.mem_filter.mp (mem_of_selectLeastLoaded hselected)
    refine ⟨hfound, ⟨hnone, rfl⟩, fun k hk => ?_⟩
    cases hk
    refine ⟨hholds agent hmem, fun limit hlimit => ?_⟩
    rw [hlimit] at hroom
    exact of_decide_eq_true hroom

/-- A candidate of a routing, read under its lock. -/
theorem holdsAgent_of_routingCandidate {teamId agentId : Uuid} (hlock : .agent agentId ∈ locks)
    (h : db.routingCandidate request.tenantId teamId agentId = some agent) :
    HoldsAgent db request locks agent := by
  unfold Db.routingCandidate at h
  split_ifs at h
  obtain ⟨a, ha, rfl⟩ := Option.map_eq_some_iff.mp h
  have hagent := agentOf_of_activeAgent ha
  obtain ⟨rfl, -⟩ := id_of_agentOf hagent
  exact ⟨hlock, by simp [InboxAgent.capacity, hagent]⟩

/-- **A transaction's own statements** establish what the next stage needs. -/
theorem nextStage_ok {t : Txn} (h : TxnOk db t) :
    StageOk db t.request ((t.wants db).toList ++ t.locks) (t.nextStage db) := by
  obtain ⟨request, locks, stage⟩ := t
  have hsub : ∀ w : Option RowLock, locks ⊆ w.toList ++ locks := fun w =>
    List.subset_append_right _ _
  cases stage with
  | lockConversation =>
      simp only [Txn.nextStage, StageOk, Txn.wants]
      rcases db.conversationOf request.tenantId request.id with _ | c
      · exact .inr rfl
      · exact .inl (by simp)
  | findConversation =>
      simp only [Txn.nextStage]
      split
      · trivial
      · rename_i existing hexisting
        obtain ⟨hc, htenant⟩ := conversation_of_conversationOf hexisting
        have hlock : RowLock.conversation request.id ∈ locks := by
          rcases h with hlock | hnone
          · exact hlock
          · rw [hexisting] at hnone
            cases hnone
        have hfound : Found db request locks existing := ⟨hlock, by rw [hc]; rfl, htenant⟩
        exact afterFind_ok (hfound.mono (hsub _)) _
  | lockAgent existing team agentId =>
      refine ⟨h.1.mono (hsub _), h.2, ?_⟩
      simp only [Txn.wants]
      rcases db.agentOf request.tenantId agentId with _ | a
      · exact .inr rfl
      · exact .inl (by simp)
  | readAgent existing team agentId =>
      obtain ⟨hfound, hnames, hlock⟩ := h
      simp only [Txn.nextStage]
      split
      · trivial
      · rename_i a ha
        have hagent := agentOf_of_activeAgent ha
        have hid : a.capacity.agentId = agentId := (id_of_agentOf hagent).1
        have hheld : RowLock.agent agentId ∈ locks := by
          rcases hlock with hlock | hnone
          · exact hlock
          · rw [hagent] at hnone
            cases hnone
        have hholds : HoldsAgent db request locks a.capacity :=
          ⟨hid ▸ hheld, by rw [hid, hagent]; rfl⟩
        exact afterAgent_ok (hfound.mono (hsub _)) hnames (hholds.mono (hsub _)) hid team
  | checking existing admitted checks =>
      cases checks with
      | nil =>
          obtain ⟨hfound, hplan, hadmits⟩ := h
          refine ⟨hfound.mono (hsub _), hplan.mono (hsub _), fun k hk => ?_⟩
          obtain ⟨-, message, hlast⟩ := hadmits k hk
          cases hlast
      | cons check rest =>
          simp only [Txn.nextStage]
          split
          · trivial
          · rename_i hrun
            obtain ⟨hready, hmore⟩ := checking_ok h hrun
            split_ifs with hrest
            · exact hready (by simpa using hrest) rfl
            · exact hmore (.inl (by simpa using hrest))
          · rename_i checks hne hrun
            exact (checking_ok h hrun).2 (.inr hne)
  | lockTeam existing teamId =>
      simp only [Txn.nextStage]
      split_ifs
      · exact Routes.mono h (hsub _)
      · trivial
  | findMembers existing teamId => exact Routes.mono h (hsub _)
  | lockMembers existing teamId pending candidates =>
      cases pending with
      | nil =>
          simp only [Txn.nextStage, afterMembers]
          split_ifs
          · trivial
          · trivial
          · exact (Routes.mono h (hsub _)).subset (List.filter_subset_self _)
      | cons agentId pending =>
          obtain ⟨hfound, hnone, hroute, hholds⟩ := Routes.mono h (hsub (some (.agent agentId)))
          refine ⟨hfound, hnone, hroute, fun k hk => ?_⟩
          rcases List.mem_append.mp hk with hk | hk
          · exact hholds k hk
          · exact holdsAgent_of_routingCandidate List.mem_cons_self (Option.mem_toList.mp hk)
  | lockRequirements existing candidates =>
      simp only [Txn.nextStage]
      split_ifs
      · exact Routes.mono h (hsub _)
      · trivial
      · exact Routes.mono h (hsub _)
  | lockProficiencies existing candidates requirements =>
      simp only [Txn.nextStage]
      split_ifs
      · trivial
      · exact (Routes.mono h (hsub _)).subset (List.filter_subset_self _)
  | groupLoads existing candidates => exact afterLoads_ok (Routes.mono h (hsub _))
  | findAgent existing =>
      cases request with
      | releaseConversation t i agentId =>
          simp only [Txn.nextStage]
          split
          · trivial
          · simp only [InboxRequest.afterHolder]
            split_ifs
            · trivial
            · trivial
            · exact ⟨Found.mono h (hsub _), trivial, by simp⟩
      | claimConversation t i agentId => trivial
      | routeConversation t i => trivial
      | updateConversation t i dto startedAt => trivial
  | ready existing admitted =>
      obtain ⟨hfound, hplan, hadmits⟩ := h
      exact ⟨hfound.mono (hsub _), hplan.mono (hsub _),
        fun k hk => ⟨(hadmits k hk).1.mono (hsub _), (hadmits k hk).2⟩⟩
  | returned changed => trivial
  | failed error => trivial

end own

/-! ## What others write -/

/-- A change of the database that leaves alone what a transaction has locked, and adds no row that
it has missed. -/
structure Frame (db db' : Db) (locks : List RowLock) : Prop where
  conversation : ∀ id, .conversation id ∈ locks →
    (db'.conversation id).map Conversation.work = (db.conversation id).map Conversation.work
  noConversation : ∀ tenantId id, db.conversationOf tenantId id = none →
    db'.conversationOf tenantId id = none
  agent : ∀ tenantId agentId, .agent agentId ∈ locks →
    db'.agentOf tenantId agentId = db.agentOf tenantId agentId
  noAgent : ∀ tenantId agentId, db.agentOf tenantId agentId = none →
    db'.agentOf tenantId agentId = none
  load : ∀ tenantId agentId, .agent agentId ∈ locks →
    db'.load tenantId agentId ≤ db.load tenantId agentId

section frame

variable {db db' : Db} {request : InboxRequest} {locks : List RowLock} {existing : Conversation}

/-- What is locked stays as it was found. -/
theorem Found.frame (h : Found db request locks existing) (hframe : Frame db db' locks) :
    Found db' request locks existing :=
  ⟨h.1, (hframe.conversation _ h.1).trans h.2.1, h.2.2⟩

/-- An agent that is locked stays as it was found. -/
theorem HoldsAgent.frame {agent : LockedAgentCapacity} (h : HoldsAgent db request locks agent)
    (hframe : Frame db db' locks) : HoldsAgent db' request locks agent :=
  ⟨h.1, by rw [hframe.agent _ _ h.1]; exact h.2⟩

/-- Candidates that are locked stay as they were found. -/
theorem Routes.frame {candidates : List LockedAgentCapacity}
    (h : Routes db request locks existing candidates) (hframe : Frame db db' locks) :
    Routes db' request locks existing candidates :=
  ⟨h.1.frame hframe, h.2.1, h.2.2.1, fun k hk => (h.2.2.2 k hk).frame hframe⟩

/-- What a transaction has established survives such a change. -/
theorem StageOk.frame {stage : AdmissionStage} (h : StageOk db request locks stage)
    (hframe : Frame db db' locks) : StageOk db' request locks stage := by
  cases stage with
  | lockConversation => trivial
  | findConversation => exact h.imp_right (hframe.noConversation _ _)
  | lockAgent existing team agentId => exact ⟨h.1.frame hframe, h.2⟩
  | readAgent existing team agentId =>
      exact ⟨h.1.frame hframe, h.2.1, h.2.2.imp_right (hframe.noAgent _ _)⟩
  | checking existing admitted checks =>
      refine ⟨h.1.frame hframe, h.2.1, fun k hk => ?_⟩
      obtain ⟨hholds, hlast⟩ := h.2.2 k hk
      exact ⟨hholds.frame hframe, hlast⟩
  | lockTeam existing teamId => exact Routes.frame h hframe
  | findMembers existing teamId => exact Routes.frame h hframe
  | lockMembers existing teamId pending candidates => exact Routes.frame h hframe
  | lockRequirements existing candidates => exact Routes.frame h hframe
  | lockProficiencies existing candidates requirements => exact Routes.frame h hframe
  | groupLoads existing candidates => exact Routes.frame h hframe
  | findAgent existing => exact Found.frame h hframe
  | ready existing admitted =>
      refine ⟨h.1.frame hframe, h.2.1, fun k hk => ?_⟩
      obtain ⟨hholds, hroom⟩ := h.2.2 k hk
      refine ⟨hholds.frame hframe, fun limit hlimit => ?_⟩
      exact (hframe.load _ _ hholds.1).trans_lt (hroom limit hlimit)
  | returned changed => trivial
  | failed error => trivial

/-- Writes that leave agents and work columns alone. -/
theorem Frame.of_work_eq (hwork : db'.work = db.work)
    (hagents : db'.inboxAgents.rows = db.inboxAgents.rows) : Frame db db' locks where
  conversation id _ := by
    rw [map_work_conversation, map_work_conversation, Db.workOf, hwork, ← Db.workOf]
  noConversation tenantId id hnone := by
    have hsome := isSome_conversationOf db' tenantId id
    rw [Db.workOf, hwork, ← Db.workOf, ← isSome_conversationOf, hnone] at hsome
    exact Option.isNone_iff_eq_none.mp (by simpa using hsome)
  agent tenantId agentId _ := by simp only [Db.agentOf, Table.find, hagents]
  noAgent tenantId agentId hnone := by simpa only [Db.agentOf, Table.find, hagents] using hnone
  load tenantId agentId _ := by rw [load_eq, load_eq, hwork]

/-- An update of an agent that nobody holds. -/
theorem Frame.of_updateAgent {agentId : Uuid} (dto : UpdateInboxAgentDto)
    (hfree : .agent agentId ∉ locks) : Frame db (db.updateAgent agentId dto) locks where
  conversation _ _ := rfl
  noConversation _ _ hnone := hnone
  agent tenantId a ha := by
    rw [agentOf_updateAgent]
    rcases hrow : db.agentOf tenantId a with _ | row
    · rfl
    · have hne : row.id ≠ agentId := by
        rintro rfl
        exact hfree ((id_of_agentOf hrow).1 ▸ ha)
      rw [Option.map_some, if_neg hne]
  noAgent tenantId a hnone := by
    rw [agentOf_updateAgent, hnone]
    rfl
  load _ _ _ := le_rfl

end frame

/-! ## Commits -/

/-- What a commit makes of the work columns of its conversation. -/
def written (admitted : Option LockedAgentCapacity) (w : WorkColumns) : InboxRequest → WorkColumns
  | .claimConversation _ _ agentId => { w with assignedAgentId := some agentId }
  | .routeConversation _ _ => { w with assignedAgentId := admitted.map (·.agentId) }
  | .updateConversation _ _ dto _ =>
      { w with
        assignedAgentId := dto.assignedAgentId.getD w.assignedAgentId
        status := dto.status.getD w.status }
  | .releaseConversation _ _ _ => { w with assignedAgentId := none }

section commits

variable {db db' : Db} {request : InboxRequest} {locks : List RowLock} {existing : Conversation}
  {admitted : Option LockedAgentCapacity} {now : Time}

/-- An update of a conversation, on its columns. -/
theorem work_updateConversation (db : Db) (id : Uuid) (f : Conversation → Conversation)
    (hf : ∀ c, Keyed.keys (f c) = Keyed.keys c) (g : WorkColumns → WorkColumns)
    (hg : ∀ c, (f c).work = g c.work) :
    (db.updateConversation id f hf).work = db.work.map fun w => if w.id = id then g w else w := by
  unfold Db.work Db.updateConversation
  rw [Table.rows_updateWhere, List.map_map, List.map_map]
  refine List.map_congr_left fun c _ => ?_
  have hwork : c.work.id = c.id := rfl
  by_cases hid : c.id = id
  · simp [hid, hg, hwork]
  · simp [hid, hwork]

/-- The response times are none of the columns. -/
theorem work_applyConversationTeamResponseSla (db : Db) (tenantId conversationId teamId : Uuid)
    (now : Time) :
    (db.applyConversationTeamResponseSla tenantId conversationId teamId now).work = db.work := by
  unfold Db.applyConversationTeamResponseSla
  split
  · rfl
  · rename_i minutes _
    have hrows := db.conversations.rows_updateWhere
      (fun c => c.tenantId = tenantId && c.id = conversationId && c.awaitsTeam)
      (Conversation.startCycle minutes now) fun _ => rfl
    unfold Db.work
    refine (congrArg (List.map Conversation.work) hrows).trans ?_
    rw [List.map_map]
    refine List.map_congr_left fun c _ => ?_
    simp only [Function.comp_apply]
    split_ifs <;> rfl

/-- The team write concerns neither agents nor work columns. -/
theorem work_writeTeam {tenantId id : Uuid} {dto : UpdateConversationDto} {startedAt : Time}
    (h : db.writeTeam tenantId id dto startedAt = some db') :
    db'.work = db.work ∧ db'.inboxAgents = db.inboxAgents := by
  have htrigger : ∀ (d : Db) (t i k : Uuid),
      (d.applyConversationTeamResponseSla t i k startedAt).inboxAgents = d.inboxAgents := by
    intro d t i k
    unfold Db.applyConversationTeamResponseSla
    split <;> rfl
  unfold Db.writeTeam at h
  split at h
  · obtain rfl := Option.some.inj h
    exact ⟨rfl, rfl⟩
  · obtain rfl := Option.some.inj h
    exact ⟨rfl, rfl⟩
  · unfold Db.assignTeam at h
    split at h
    · obtain rfl := Option.some.inj h
      exact ⟨work_applyConversationTeamResponseSla _ _ _ _ _, htrigger _ _ _ _⟩
    · obtain ⟨assignments, -, rfl⟩ := Option.map_eq_some_iff.mp h
      exact ⟨work_applyConversationTeamResponseSla _ _ _ _ _, htrigger _ _ _ _⟩

/-- **What a commit writes**, seen in the work columns. -/
theorem work_write (h : request.write db admitted now = some db') :
    db'.work = db.work.map (fun w =>
      if w.id = request.id then written admitted w request else w) ∧
      db'.inboxAgents = db.inboxAgents := by
  cases request with
  | claimConversation t i a =>
      obtain rfl := Option.some.inj h
      exact ⟨work_updateConversation _ _ _ _ _ fun _ => rfl, rfl⟩
  | routeConversation t i =>
      obtain rfl := Option.some.inj h
      exact ⟨work_updateConversation _ _ _ _ _ fun _ => rfl, rfl⟩
  | updateConversation t i dto startedAt =>
      obtain ⟨d, hd, rfl⟩ := Option.map_eq_some_iff.mp h
      obtain ⟨hwork, hagents⟩ := work_writeTeam hd
      refine ⟨?_, hagents⟩
      rw [← hwork]
      exact work_updateConversation _ _ _ _ _ fun _ => rfl
  | releaseConversation t i a =>
      obtain rfl := Option.some.inj h
      exact ⟨work_updateConversation _ _ _ _ _ fun _ => rfl, rfl⟩

/-- The written row has the id. -/
theorem written_id (w : WorkColumns) : (written admitted w request).id = w.id := by
  cases request <;> rfl

/-- The written row has the tenant. -/
theorem written_tenantId (w : WorkColumns) :
    (written admitted w request).tenantId = w.tenantId := by
  cases request <;> rfl

/-- The work columns of every conversation after a commit. -/
theorem workOf_write (h : request.write db admitted now = some db') (id : Uuid) :
    db'.workOf id =
      (db.workOf id).map fun w =>
        if w.id = request.id then written admitted w request else w := by
  rw [Db.workOf, (work_write h).1, List.find?_map]
  congr 2
  funext w
  by_cases hid : w.id = request.id
  · simp [hid, written_id]
  · simp [hid]

/-- The conversation that a transaction has found is the only row with its identifier. -/
theorem eq_of_found {w : WorkColumns} (h : Found db request locks existing) (hw : w ∈ db.work)
    (hid : w.id = request.id) : w = existing.work := by
  obtain ⟨c, hc, rfl⟩ := List.mem_map.mp hw
  have hrow : db.conversation request.id = some c := Db.conversation_eq_some_iff.mpr ⟨hc, hid⟩
  have hfound := h.2.1
  rw [hrow] at hfound
  exact Option.some.inj hfound

/-- A commit that does not make its conversation work of the agent adds none. -/
theorem load_write_le (h : request.write db admitted now = some db')
    (hfound : Found db request locks existing) {tenantId agentId : Uuid}
    (hnot : WorkColumns.isLoadOf tenantId agentId (written admitted existing.work request) = true →
      WorkColumns.isLoadOf tenantId agentId existing.work = true) :
    db'.load tenantId agentId ≤ db.load tenantId agentId := by
  rw [load_eq, load_eq, (work_write h).1, List.countP_map]
  refine List.countP_mono_left fun w hw hload => ?_
  simp only [Function.comp_apply] at hload
  split_ifs at hload with hid
  · obtain rfl := eq_of_found hfound hw hid
    exact hnot hload
  · exact hload

/-- A conversation that gets a new agent gets the one that was admitted. -/
theorem admitted_of_written {agentId : Uuid} (hplan : Plan locks existing admitted request)
    (hnew : (written admitted existing.work request).assignedAgentId = some agentId)
    (hne : existing.assignedAgentId ≠ some agentId) :
    ∃ agent, admitted = some agent ∧ agent.agentId = agentId := by
  apply Option.map_eq_some_iff.mp
  cases request with
  | claimConversation t i a =>
      rw [hplan.2]
      exact hnew
  | routeConversation t i => exact hnew
  | updateConversation t i dto startedAt =>
      simp only [written, Conversation.work] at hnew
      rcases hdto : dto.assignedAgentId with _ | a
      · rw [hdto] at hnew
        exact absurd hnew hne
      · rw [hdto, Option.getD_some] at hnew
        have hadmission : dto.newAgentAdmission existing = true := by
          simp [UpdateConversationDto.newAgentAdmission, UpdateConversationDto.finalAgentId, hdto,
            hnew, Ne.symm hne]
        have hadmits := hplan.1 hadmission
        rw [hdto, Option.some.injEq] at hadmits
        exact hadmits.symm.trans hnew
  | releaseConversation t i a => cases hnew

/-- The commit reopens a resolved conversation and leaves it with the agent it has. -/
def reopensKept (existing : Conversation) (admitted : Option LockedAgentCapacity)
    (request : InboxRequest) : Bool :=
  let w := written admitted existing.work request
  existing.status = .resolved && existing.assignedAgentId.isSome && w.status ≠ .resolved &&
    w.assignedAgentId = existing.assignedAgentId

/-- The request is an update that does not speak of the agent. -/
def leavesAgent : InboxRequest → Bool
  | .updateConversation _ _ dto _ => dto.assignedAgentId.isNone
  | _ => false

/-- A commit that makes its conversation work of an agent has admitted that agent, or reopens a
conversation of it. -/
theorem admitted_or_reopens {tenantId agentId : Uuid}
    (hplan : Plan locks existing admitted request)
    (hload : WorkColumns.isLoadOf tenantId agentId (written admitted existing.work request) = true)
    (hnot : WorkColumns.isLoadOf tenantId agentId existing.work ≠ true) :
    (existing.assignedAgentId ≠ some agentId ∧
        ∃ agent, admitted = some agent ∧ agent.agentId = agentId) ∨
      (existing.assignedAgentId = some agentId ∧ reopensKept existing admitted request = true) := by
  simp only [WorkColumns.isLoadOf, Bool.and_eq_true, decide_eq_true_eq, written_tenantId] at hload
  obtain ⟨⟨htenant, hagent⟩, hstatus⟩ := hload
  change existing.tenantId = tenantId at htenant
  by_cases hheld : existing.assignedAgentId = some agentId
  · have hresolved : existing.status = .resolved := by
      by_contra hopen
      apply hnot
      simp [WorkColumns.isLoadOf, htenant, hheld, hopen, Conversation.work]
    refine .inr ⟨hheld, ?_⟩
    simp [reopensKept, hresolved, hheld, hagent, hstatus]
  · exact .inl ⟨hheld, admitted_of_written hplan hagent hheld⟩

/-- **A commit gives no work to an agent that another transaction holds**, unless it reopens a
conversation without speaking of its agent. -/
theorem frame_of_commit {others : List RowLock}
    (hok : StageOk db request locks (.ready existing admitted))
    (h : request.write db admitted now = some db') (hdisjoint : ∀ l ∈ locks, l ∉ others)
    (hkept : (reopensKept existing admitted request && leavesAgent request) = false) :
    Frame db db' others := by
  obtain ⟨hfound, hplan, hadmits⟩ := hok
  obtain ⟨hwork, hagents⟩ := work_write h
  refine ⟨fun id hid => ?_, fun tenantId id hnone => ?_, fun tenantId a _ => ?_,
    fun tenantId a hnone => ?_, fun tenantId a ha => ?_⟩
  · have hne : request.id ≠ id := by
      rintro rfl
      exact hdisjoint _ hfound.1 hid
    rw [map_work_conversation, map_work_conversation, workOf_write h]
    rcases hw : db.workOf id with _ | w
    · rfl
    · rw [Option.map_some, if_neg (by rw [id_of_workOf hw]; exact Ne.symm hne)]
  · have hbefore := isSome_conversationOf db tenantId id
    have hafter := isSome_conversationOf db' tenantId id
    rw [workOf_write h, Option.any_map] at hafter
    have htenant : ∀ w : WorkColumns,
        (if w.id = request.id then written admitted w request else w).tenantId = w.tenantId := by
      intro w
      split_ifs
      · rw [written_tenantId]
      · rfl
    simp only [htenant] at hafter
    rw [← hbefore, hnone] at hafter
    exact Option.isNone_iff_eq_none.mp (by simpa using hafter)
  · simp only [Db.agentOf, hagents]
  · simpa only [Db.agentOf, hagents] using hnone
  · refine load_write_le h hfound fun hload => ?_
    by_contra hnot
    rcases admitted_or_reopens hplan hload hnot with ⟨-, agent, hagent, rfl⟩ | ⟨hheld, hreopens⟩
    · exact hdisjoint _ (hadmits agent hagent).1.1 ha
    · rw [hreopens, Bool.true_and] at hkept
      -- Only an update changes a status, and one that names the agent holds it.
      simp only [WorkColumns.isLoadOf, Bool.and_eq_true, decide_eq_true_eq] at hload
      cases request with
      | updateConversation t i dto startedAt =>
          obtain ⟨agentId, hdto⟩ := Option.isSome_iff_exists.mp (by simpa [leavesAgent] using hkept)
          have hnames : agentId = some a := by
            have hwritten := hload.1.2
            simpa [written, hdto] using hwritten
          subst hnames
          exact hdisjoint _ (hplan.2 a hdto) ha
      | claimConversation t i b =>
          rw [hplan.1] at hheld
          cases hheld
      | routeConversation t i =>
          rw [hplan.1] at hheld
          cases hheld
      | releaseConversation t i b =>
          have hwritten := hload.1.2
          cases hwritten

end commits

/-! ## Runs -/

section runs

variable {s s' : AdmissionState} {a : AdmissionAct} {i : ℕ} {now : Time} {id : Uuid}

/-- What a commit is about: its request, the conversation as found, and the agent admitted. -/
def committing (s : AdmissionState) :
    AdmissionAct → Option (InboxRequest × Conversation × Option LockedAgentCapacity)
  | .commits i _ =>
      s.txns[i]?.bind fun t =>
        match t.stage with
        | .ready existing admitted => some (t.request, existing, admitted)
        | _ => none
  | _ => none

/-- The step reopens a resolved conversation, which keeps its agent. -/
def reopens (s : AdmissionState) (a : AdmissionAct) : Bool :=
  (committing s a).any fun x => reopensKept x.2.1 x.2.2 x.1

/-- It does so by a request that does not speak of the agent. -/
def reopensUnasked (s : AdmissionState) (a : AdmissionAct) : Bool :=
  (committing s a).any fun x => reopensKept x.2.1 x.2.2 x.1 && leavesAgent x.1

/-- Every transaction has established what its stage needs, and no lock is held twice. -/
structure Inv (s : AdmissionState) : Prop where
  exclusive : Exclusive Txn.locks s.txns
  ok : ∀ t ∈ s.txns, TxnOk s.db t

/-- What a transaction that is ready to commit has established. -/
theorem Inv.ready {t : Txn} {existing : Conversation} {admitted : Option LockedAgentCapacity}
    (h : Inv s) (ht : t ∈ s.txns) (hstage : t.stage = .ready existing admitted) :
    StageOk s.db t.request t.locks (.ready existing admitted) :=
  hstage ▸ h.ok t ht

/-- At the start no transaction is under way. -/
theorem Inv.start (db : Db) : Inv ⟨db, []⟩ where
  exclusive := .nil
  ok t ht := by cases ht

/-- What is committed was ready, and is written as it was planned. -/
theorem commit_cases (h : step s (.commits i now) = some s') :
    ∃ t existing admitted db', s.txns[i]? = some t ∧ t.stage = .ready existing admitted ∧
      committing s (.commits i now) = some (t.request, existing, admitted) ∧
      t.request.write s.db admitted now = some db' ∧
      s' = ⟨db', s.txns.set i (t.enter t.locks (.returned true))⟩ := by
  obtain ⟨t, ht, h⟩ := Option.bind_eq_some_iff.mp h
  obtain ⟨request, locks, stage⟩ := t
  cases stage with
  | ready existing admitted =>
      obtain ⟨db', hdb', rfl⟩ := Option.map_eq_some_iff.mp h
      exact ⟨_, existing, admitted, db', ht, rfl, by simp [committing, ht], hdb', rfl⟩
  | _ => cases h

/-- A move of transaction `i` that takes only free locks and leaves it in order. -/
theorem Inv.set {t t' : Txn} {db' : Db} (hinv : Inv s) (ht : s.txns[i]? = some t)
    (htakes : ∀ l ∈ t'.locks, l ∈ t.locks ∨ freeFor Txn.locks s.txns i l = true)
    (hok : TxnOk db' t')
    (hothers : ∀ j u, j ≠ i → s.txns[j]? = some u → TxnOk db' u) :
    Inv ⟨db', s.txns.set i t'⟩ where
  exclusive := hinv.exclusive.set ht htakes
  ok u hu := by
    obtain ⟨j, hj⟩ := List.mem_iff_getElem?.mp hu
    rcases getElem?_set_cases hj with ⟨-, rfl⟩ | ⟨hne, hj⟩
    · exact hok
    · exact hothers j u hne hj

/-- A transaction that is over has nothing to keep. -/
theorem TxnOk.enter_final {db : Db} {t : Txn} {locks : List RowLock} {stage : AdmissionStage}
    (h : stage.isFinal = true) : TxnOk db (t.enter locks stage) := by
  cases stage with
  | returned changed => trivial
  | failed error => trivial
  | _ => cases h

/-- A transaction stays sound with its next statement. -/
theorem TxnOk.next {db : Db} {t : Txn} (h : TxnOk db t) : TxnOk db (t.next db) := by
  have hok := nextStage_ok h
  by_cases hfinal : (t.nextStage db).isFinal = true
  · exact TxnOk.enter_final hfinal
  · simp only [TxnOk, Txn.next, Txn.enter, hfinal]
    exact hok

/-- **The invariant of a step** that does not reopen a conversation unasked. -/
theorem Inv.after (hinv : Inv s) (hkept : reopensUnasked s a = false)
    (h : step s a = some s') : Inv s' := by
  cases a with
  | begins request =>
      obtain ⟨-, h⟩ := Option.ite_none_right_eq_some.mp h
      obtain rfl := Option.some.inj h
      refine ⟨hinv.exclusive.append rfl, fun t ht => ?_⟩
      rcases List.mem_append.mp ht with ht | ht
      · exact hinv.ok t ht
      · obtain rfl := List.mem_singleton.mp ht
        trivial
  | runs i =>
      obtain ⟨t, ht, h⟩ := Option.bind_eq_some_iff.mp h
      obtain ⟨hfree, h⟩ := Option.ite_none_right_eq_some.mp h
      obtain rfl := Option.some.inj h
      refine hinv.set ht (fun l hl => ?_) (TxnOk.next (hinv.ok t (List.mem_of_getElem? ht)))
        fun j u _ hu => hinv.ok u (List.mem_of_getElem? hu)
      simp only [Txn.next, Txn.enter] at hl
      split_ifs at hl
      · cases hl
      · rcases List.mem_append.mp hl with hl | hl
        · exact .inr ((Option.all_eq_true _ _).mp hfree l (Option.mem_toList.mp hl))
        · exact .inl hl
  | commits i now =>
      obtain ⟨t, existing, admitted, db', ht, hstage, hcommitting, hwrite, rfl⟩ := commit_cases h
      have hok := hinv.ready (List.mem_of_getElem? ht) hstage
      have hunasked :
          (reopensKept existing admitted t.request && leavesAgent t.request) = false := by
        simpa [reopensUnasked, hcommitting] using hkept
      refine hinv.set ht (fun l hl => by cases hl) (TxnOk.enter_final rfl) fun j u hne hu => ?_
      have hu_ok : TxnOk s.db u := hinv.ok u (List.mem_of_getElem? hu)
      refine StageOk.frame hu_ok (frame_of_commit hok hwrite ?_ hunasked)
      intro l hl hlu
      exact hne (hinv.exclusive j i u t l hu ht hlu hl)
  | aborts i =>
      obtain ⟨t, ht, rfl⟩ := Option.map_eq_some_iff.mp h
      exact hinv.set ht (fun l hl => by cases hl) (TxnOk.enter_final rfl)
        fun j u _ hu => hinv.ok u (List.mem_of_getElem? hu)
  | updateAgent agentId dto =>
      obtain ⟨hfree, h⟩ := Option.ite_none_right_eq_some.mp h
      obtain rfl := Option.some.inj h
      refine ⟨hinv.exclusive, fun t ht => ?_⟩
      refine StageOk.frame (hinv.ok t ht) (Frame.of_updateAgent dto ?_)
      simpa using List.all_eq_true.mp hfree t ht
  | other d =>
      obtain ⟨⟨hwork, hagents⟩, h⟩ := Option.ite_none_right_eq_some.mp h
      obtain rfl := Option.some.inj h
      exact ⟨hinv.exclusive, fun t ht => StageOk.frame (hinv.ok t ht) (.of_work_eq hwork hagents)⟩

/-- **What a step does to the database**: a commit writes, an agent is updated, other columns
change, or nothing happens to it. -/
inductive DbStep (s : AdmissionState) : AdmissionAct → Db → Prop
  | kept {a : AdmissionAct} (hnone : committing s a = none) : DbStep s a s.db
  | commits {i : ℕ} {now : Time} {t : Txn} {existing : Conversation}
      {admitted : Option LockedAgentCapacity} {db' : Db} (ht : t ∈ s.txns)
      (hstage : t.stage = .ready existing admitted)
      (hcommitting : committing s (.commits i now) = some (t.request, existing, admitted))
      (hwrite : t.request.write s.db admitted now = some db') : DbStep s (.commits i now) db'
  | updateAgent {agentId : Uuid} {dto : UpdateInboxAgentDto} :
      DbStep s (.updateAgent agentId dto) (s.db.updateAgent agentId dto)
  | other {db' : Db} (hwork : db'.work = s.db.work)
      (hagents : db'.inboxAgents.rows = s.db.inboxAgents.rows) : DbStep s (.other db') db'

/-- What a step does to the database. -/
theorem dbStep (h : step s a = some s') : DbStep s a s'.db := by
  cases a with
  | begins request =>
      obtain ⟨-, h⟩ := Option.ite_none_right_eq_some.mp h
      obtain rfl := Option.some.inj h
      exact .kept rfl
  | runs i =>
      obtain ⟨t, -, h⟩ := Option.bind_eq_some_iff.mp h
      obtain ⟨-, h⟩ := Option.ite_none_right_eq_some.mp h
      obtain rfl := Option.some.inj h
      exact .kept rfl
  | commits i now =>
      obtain ⟨t, existing, admitted, db', ht, hstage, hcommitting, hwrite, rfl⟩ := commit_cases h
      exact .commits (List.mem_of_getElem? ht) hstage hcommitting hwrite
  | aborts i =>
      obtain ⟨t, -, rfl⟩ := Option.map_eq_some_iff.mp h
      exact .kept rfl
  | updateAgent agentId dto =>
      obtain ⟨-, h⟩ := Option.ite_none_right_eq_some.mp h
      obtain rfl := Option.some.inj h
      exact .updateAgent
  | other d =>
      obtain ⟨⟨hwork, hagents⟩, h⟩ := Option.ite_none_right_eq_some.mp h
      obtain rfl := Option.some.inj h
      exact .other hwork hagents

/-- The agent that a conversation is assigned to. -/
def assignee (db : Db) (id : Uuid) : Option Uuid := (db.conversation id).bind (·.assignedAgentId)

/-- The assignee is a column of the work. -/
theorem assignee_eq (db : Db) (id : Uuid) :
    assignee db id = (db.workOf id).bind (·.assignedAgentId) := by
  rw [← map_work_conversation, assignee, Option.bind_map]
  rfl

/-- A step that changes the assignment of a conversation is a commit for it. -/
theorem commit_of_assignee_ne (h : step s a = some s')
    (hne : assignee s'.db id ≠ assignee s.db id) :
    ∃ now, ∃ t ∈ s.txns, ∃ existing admitted, t.stage = .ready existing admitted ∧
      t.request.id = id ∧ t.request.write s.db admitted now = some s'.db := by
  have hdb := dbStep h
  generalize s'.db = db' at hdb hne
  cases hdb with
  | kept _ => exact absurd rfl hne
  | @commits i now t existing admitted _ ht hstage _ hwrite =>
      refine ⟨now, t, ht, existing, admitted, hstage, ?_, hwrite⟩
      by_contra hid
      apply hne
      rw [assignee_eq, assignee_eq, workOf_write hwrite]
      rcases hw : s.db.workOf id with _ | w
      · rfl
      · rw [Option.map_some, if_neg (by rw [id_of_workOf hw]; exact Ne.symm hid)]
  | updateAgent => exact absurd rfl hne
  | other hwork _ =>
      refine absurd ?_ hne
      rw [assignee_eq, assignee_eq, Db.workOf, hwork, ← Db.workOf]

/-- The assignee that was read is the one of the row. -/
theorem assignee_of_found {db : Db} {request : InboxRequest} {locks : List RowLock}
    {existing : Conversation} (h : Found db request locks existing) :
    assignee db request.id = existing.assignedAgentId := by
  rw [assignee_eq, ← map_work_conversation, h.2.1]
  rfl

/-- What a commit does to the assignees. -/
theorem assignee_write {db db' : Db} {request : InboxRequest} {locks : List RowLock}
    {existing : Conversation} {admitted : Option LockedAgentCapacity}
    (hfound : Found db request locks existing)
    (h : request.write db admitted now = some db') :
    assignee db' request.id = (written admitted existing.work request).assignedAgentId := by
  have hw : db.workOf request.id = some existing.work := by
    rw [← map_work_conversation, hfound.2.1]
  rw [assignee_eq, workOf_write h, hw, Option.map_some, if_pos (id_of_workOf hw)]
  rfl

/-- The invariant holds in every state that is reached while nothing is reopened unasked. -/
theorem Inv.of_reaches {db : Db} {G : AdmissionState → AdmissionAct → Prop}
    (h : Reaches step G ⟨db, []⟩ s) (hG : ∀ x b, G x b → reopensUnasked x b = false) : Inv s :=
  Reaches.invariant h (Inv.start db) fun x b _ hinv hb hstep => hinv.after (hG x b hb) hstep

/-- The agent that a transaction is about to admit is below its limit. -/
theorem load_lt_of_admitted {db : Db} {request : InboxRequest} {locks : List RowLock}
    {agent : LockedAgentCapacity} {row : InboxAgent} {limit : ℕ}
    (hholds : HoldsAgent db request locks agent) (hroom : HasRoom db request agent)
    (hrow : db.inboxAgents.find agent.agentId = some row)
    (hlimit : row.maxConcurrentConversations = some limit) :
    row.tenantId = request.tenantId ∧ db.load row.tenantId agent.agentId < limit := by
  obtain ⟨row', hrow', hcapacity⟩ := Option.map_eq_some_iff.mp hholds.2
  obtain ⟨hfind, htenant⟩ := Option.filter_eq_some_iff.mp hrow'
  rw [hrow] at hfind
  obtain rfl := Option.some.inj hfind
  have htenant : row.tenantId = request.tenantId := of_decide_eq_true htenant
  refine ⟨htenant, ?_⟩
  rw [htenant]
  exact hroom limit (by rw [← hcapacity]; exact hlimit)

/-- An admission commits only while its agent is below its limit. -/
theorem load_lt_of_admission (hinv : Inv s) (h : step s a = some s') {agentId : Uuid}
    {row : InboxAgent} {limit : ℕ} (hbefore : assignee s.db id ≠ some agentId)
    (hafter : assignee s'.db id = some agentId) (hrow : s.db.inboxAgents.find agentId = some row)
    (hlimit : row.maxConcurrentConversations = some limit) :
    s.db.load row.tenantId agentId < limit := by
  obtain ⟨now, t, ht, existing, admitted, hstage, rfl, hwrite⟩ :=
    commit_of_assignee_ne h fun heq => hbefore (heq ▸ hafter)
  obtain ⟨hfound, hplan, hadmits⟩ := hinv.ready ht hstage
  rw [assignee_of_found hfound] at hbefore
  rw [assignee_write hfound hwrite] at hafter
  obtain ⟨agent, hagent, rfl⟩ := admitted_of_written hplan hafter hbefore
  obtain ⟨hholds, hroom⟩ := hadmits agent hagent
  exact (load_lt_of_admitted hholds hroom hrow hlimit).2

/-- The step gives a conversation to an agent, by a transaction that found it unassigned. -/
def wins (id : Uuid) (s : AdmissionState) (a : AdmissionAct) : Bool :=
  (committing s a).any fun x =>
    x.1.id = id && x.2.1.assignedAgentId.isNone &&
      (written x.2.2 x.2.1.work x.1).assignedAgentId.isSome

/-- The step is the commit of a claim or a routing of the conversation. -/
def claimsOrRoutes (id : Uuid) (s : AdmissionState) (a : AdmissionAct) : Bool :=
  (committing s a).any fun x =>
    match x.1 with
    | .claimConversation _ i _ => i = id
    | .routeConversation _ i => i = id
    | _ => false

/-- Whoever commits has found the present holder; a win finds none and leaves one, and claims and
routings only win. -/
theorem commit_spec (hinv : Inv s) (h : step s a = some s') (id : Uuid) :
    (∀ request existing admitted, committing s a = some (request, existing, admitted) →
      assignee s.db request.id = existing.assignedAgentId) ∧
    (wins id s a = true → assignee s.db id = none ∧ (assignee s'.db id).isSome = true) ∧
    (claimsOrRoutes id s a = true → wins id s a = true) := by
  have hdb := dbStep h
  generalize s'.db = db' at hdb
  cases hdb with
  | @commits i now t existing admitted _ ht hstage hcommitting hwrite =>
      obtain ⟨hfound, hplan, -⟩ := hinv.ready ht hstage
      refine ⟨?_, fun hwins => ?_, fun hclaims => ?_⟩
      · rintro request e k heq
        rw [hcommitting] at heq
        obtain ⟨rfl, rfl, rfl⟩ : t.request = request ∧ existing = e ∧ admitted = k := by
          simpa using heq
        exact assignee_of_found hfound
      · simp only [wins, hcommitting, Option.any_some, Bool.and_eq_true, decide_eq_true_eq] at hwins
        obtain ⟨⟨rfl, hnone⟩, hsome⟩ := hwins
        rw [assignee_of_found hfound, assignee_write hfound hwrite]
        exact ⟨Option.isNone_iff_eq_none.mp hnone, hsome⟩
      · simp only [claimsOrRoutes, hcommitting, Option.any_some] at hclaims
        simp only [wins, hcommitting, Option.any_some, Bool.and_eq_true, decide_eq_true_eq]
        split at hclaims
        · rename_i _ t' i' a' heq
          rw [heq] at hplan ⊢
          exact ⟨⟨of_decide_eq_true hclaims, by rw [hplan.1]; rfl⟩, rfl⟩
        · rename_i _ t' i' heq
          rw [heq] at hplan ⊢
          refine ⟨⟨of_decide_eq_true hclaims, by rw [hplan.1]; rfl⟩, ?_⟩
          simpa [written] using hplan.2
        · cases hclaims
  | kept hnone => simp [wins, claimsOrRoutes, hnone]
  | updateAgent => simp [wins, claimsOrRoutes, committing]
  | other _ _ => simp [wins, claimsOrRoutes, committing]

/-- As long as nothing unassigns a conversation, it is won at most once. -/
theorem length_wins_le_one {db : Db} {as : List AdmissionAct} {s : AdmissionState}
    (hrun : exec step ⟨db, []⟩ as = some s)
    (hkept : ∀ x ∈ trace step ⟨db, []⟩ as, reopensUnasked x.1 x.2.1 = false)
    (hheld : ∀ x ∈ trace step ⟨db, []⟩ as,
      assignee x.1.db id ≠ none → assignee x.2.2.db id ≠ none) :
    ((trace step ⟨db, []⟩ as).filter fun x => wins id x.1 x.2.1).length ≤ 1 := by
  let isAssigned : AdmissionState → Option Unit := fun x => (assignee x.db id).map fun _ => ()
  have hchanges := (length_changes_of_exec (f := isAssigned) hrun (by
    intro x hx
    rcases hbefore : assignee x.1.db id with _ | agentId
    · exact .inr (by simp [isAssigned, hbefore])
    · have hafter := hheld x hx (by simp [hbefore])
      obtain ⟨b, hb⟩ := Option.ne_none_iff_exists'.mp hafter
      exact .inl (by simp [isAssigned, hbefore, hb]))).1
  rw [← List.countP_eq_length_filter] at hchanges ⊢
  refine (List.countP_mono_left fun x hx hwins => ?_).trans hchanges
  obtain ⟨hreach, hstep⟩ := reaches_of_mem_trace
    (G := fun x b => reopensUnasked x b = false) hx hkept
  have hinv := Inv.of_reaches hreach fun _ _ h => h
  obtain ⟨hnone, hsome⟩ := (commit_spec hinv hstep id).2.1 hwins
  obtain ⟨b, hb⟩ := Option.isSome_iff_exists.mp hsome
  simp [isAssigned, hnone, hb]

/-- A write to one conversation adds at most one to a load. -/
theorem countP_map_le {ws : List WorkColumns} (hnodup : (ws.map (·.id)).Nodup)
    (p : WorkColumns → Bool) (i : Uuid) (f : WorkColumns → WorkColumns) :
    (ws.map fun w => if w.id = i then f w else w).countP p ≤ ws.countP p + 1 := by
  induction ws with
  | nil => simp
  | cons w ws ih =>
      obtain ⟨hnot, hrest⟩ := List.nodup_cons.mp hnodup
      rw [List.map_cons, List.countP_cons, List.countP_cons]
      by_cases hid : w.id = i
      · -- The rest of the rows have other identifiers.
        have hsame : (ws.map fun w => if w.id = i then f w else w) = ws := by
          refine (List.map_congr_left fun v hv => ?_).trans (List.map_id ws)
          refine if_neg fun hv' => hnot ?_
          exact List.mem_map.mpr ⟨v, hv, hv'.trans hid.symm⟩
        rw [hsame]
        split_ifs <;> omega
      · rw [if_neg hid]
        have := ih hrest
        omega

/-- A commit gives an agent one more conversation at most. -/
theorem load_write_le_succ {db db' : Db} {request : InboxRequest}
    {admitted : Option LockedAgentCapacity} (h : request.write db admitted now = some db')
    (tenantId agentId : Uuid) : db'.load tenantId agentId ≤ db.load tenantId agentId + 1 := by
  have hnodup : (db.work.map (·.id)).Nodup := by
    rw [Db.work, List.map_map]
    refine db.conversations.nodup_map _ fun c c' heq => ?_
    exact ⟨.id c.id, mem_keys_conversation_id.mpr rfl, mem_keys_conversation_id.mpr heq.symm⟩
  rw [load_eq, load_eq, (work_write h).1]
  exact countP_map_le hnodup _ _ _

/-- The step leaves the limit of the agent alone. -/
def keepsLimit (agentId : Uuid) : AdmissionAct → Bool
  | .updateAgent a dto => a ≠ agentId || dto.maxConcurrentConversations.isNone
  | _ => true

/-- The agent's row, as far as the limit goes. -/
def limitOf (db : Db) (agentId : Uuid) : Option (Uuid × Option ℕ) :=
  (db.inboxAgents.find agentId).map fun row => (row.tenantId, row.maxConcurrentConversations)

/-- The limit of an agent stays unless a step changes it. -/
theorem limitOf_step {agentId : Uuid} (h : step s a = some s')
    (hkeeps : keepsLimit agentId a = true) : limitOf s'.db agentId = limitOf s.db agentId := by
  have hdb := dbStep h
  generalize s'.db = db' at hdb
  cases hdb with
  | kept _ => rfl
  | commits _ _ _ hwrite => rw [limitOf, (work_write hwrite).2, ← limitOf]
  | @updateAgent b dto =>
      have hfind := s.db.inboxAgents.find_updateWhere (fun r => r.id = b) (InboxAgent.updated dto)
        (fun _ => rfl) agentId
      unfold limitOf Db.updateAgent
      rw [hfind]
      rcases hrow : s.db.inboxAgents.find agentId with _ | row
      · rfl
      · have hid : row.id = agentId := by
          have hkey := (s.db.inboxAgents.find_eq_some_iff.mp hrow).2
          exact (List.mem_singleton.mp hkey).symm
        simp only [keepsLimit, Bool.or_eq_true, decide_eq_true_eq] at hkeeps
        rcases hkeeps with hne | hnone
        · simp [hid, Ne.symm hne]
        · have hnone : dto.maxConcurrentConversations = none := Option.isNone_iff_eq_none.mp hnone
          by_cases hb : row.id = b <;> simp [hb, InboxAgent.updated, hnone]
  | other _ hagents => simp only [limitOf, Table.find, hagents]

/-- A step that reopens nothing keeps an agent within its limit. -/
theorem load_le_step {agentId tenantId : Uuid} {limit : ℕ} (hinv : Inv s)
    (h : step s a = some s') (hreopens : reopens s a = false)
    (hlimit : limitOf s.db agentId = some (tenantId, some limit))
    (hload : s.db.load tenantId agentId ≤ limit) : s'.db.load tenantId agentId ≤ limit := by
  have hdb := dbStep h
  generalize s'.db = db' at hdb
  cases hdb with
  | kept _ => exact hload
  | @commits i now t existing admitted _ ht hstage hcommitting hwrite =>
      obtain ⟨hfound, hplan, hadmits⟩ := hinv.ready ht hstage
      by_cases hmore : WorkColumns.isLoadOf tenantId agentId
          (written admitted existing.work t.request) = true →
          WorkColumns.isLoadOf tenantId agentId existing.work = true
      · exact (load_write_le hwrite hfound hmore).trans hload
      · obtain ⟨hnew, hold⟩ := Classical.not_imp.mp hmore
        rcases admitted_or_reopens hplan hnew hold with ⟨-, agent, hagent, rfl⟩ | ⟨-, hkept⟩
        · -- The agent was admitted, so there was room for one more.
          obtain ⟨row, hrow, hvalues⟩ := Option.map_eq_some_iff.mp hlimit
          obtain ⟨rfl, hrowLimit⟩ := Prod.mk.inj hvalues
          obtain ⟨hholds, hroom⟩ := hadmits agent hagent
          have hlt := (load_lt_of_admitted hholds hroom hrow hrowLimit).2
          exact (load_write_le_succ hwrite _ _).trans hlt
        · simp [reopens, hcommitting, hkept] at hreopens
  | updateAgent => exact hload
  | other hwork _ => rwa [load_eq, hwork, ← load_eq]

/-- A step that reopens nothing reopens nothing unasked. -/
theorem reopensUnasked_of_reopens (h : reopens s a = false) : reopensUnasked s a = false := by
  rcases hcommitting : committing s a with _ | x
  · simp [reopensUnasked, hcommitting]
  · have hkept : reopensKept x.2.1 x.2.2 x.1 = false := by simpa [reopens, hcommitting] using h
    simp [reopensUnasked, hcommitting, hkept]

/-- An agent within its limit stays there. -/
theorem load_le_of_reaches {db : Db} {agentId : Uuid} {row : InboxAgent} {limit : ℕ}
    (hrow : db.inboxAgents.find agentId = some row)
    (hlimit : row.maxConcurrentConversations = some limit)
    (hload : db.load row.tenantId agentId ≤ limit)
    (h : Reaches step (fun x b => reopens x b = false ∧ keepsLimit agentId b = true) ⟨db, []⟩ s) :
    s.db.load row.tenantId agentId ≤ limit := by
  have hstart : limitOf db agentId = some (row.tenantId, some limit) := by
    rw [limitOf, hrow, Option.map_some, hlimit]
  have hall : Inv s ∧ limitOf s.db agentId = some (row.tenantId, some limit) ∧
      s.db.load row.tenantId agentId ≤ limit := by
    refine Reaches.invariant (P := fun x => Inv x ∧
      limitOf x.db agentId = some (row.tenantId, some limit) ∧
      x.db.load row.tenantId agentId ≤ limit) h ⟨Inv.start db, hstart, hload⟩ ?_
    rintro x b y ⟨hinv, hl, hle⟩ ⟨hreopens, hkeeps⟩ hstep
    exact ⟨hinv.after (reopensUnasked_of_reopens hreopens) hstep,
      (limitOf_step hstep hkeeps).trans hl, load_le_step hinv hstep hreopens hl hle⟩
  exact hall.2.2

/-- **Capacity admission.** Any number of claims, routings, updates and releases run side by side,
from any database, their statements in any order that the row locks allow.

* A step that gives a conversation to an agent it did not have finds the agent below its limit. The
  runs are those in which no resolved conversation is reopened behind its agent's back, by a request
  that does not speak of the agent.
* Whoever commits has found the present holder of its conversation, and claims and routings have
  found none; unless it is unassigned in between, a conversation is won at most once by a
  transaction that found it unassigned.
* With its limit fixed, an agent within its limit stays there, as long as no conversation is
  reopened that keeps its agent: admissions, releases, unassignments and resolutions reopen none. -/
theorem capacity_admission (db : Db) :
    (∀ s a s' id agentId row limit,
      Reaches step (fun x b => reopensUnasked x b = false) ⟨db, []⟩ s → step s a = some s' →
      assignee s.db id ≠ some agentId → assignee s'.db id = some agentId →
      s.db.inboxAgents.find agentId = some row → row.maxConcurrentConversations = some limit →
      s.db.load row.tenantId agentId < limit) ∧
    (∀ id as s, exec step ⟨db, []⟩ as = some s →
      (∀ x ∈ trace step ⟨db, []⟩ as, reopensUnasked x.1 x.2.1 = false) →
      (∀ x ∈ trace step ⟨db, []⟩ as, ∀ request existing admitted,
        committing x.1 x.2.1 = some (request, existing, admitted) →
        assignee x.1.db request.id = existing.assignedAgentId) ∧
      (∀ x ∈ trace step ⟨db, []⟩ as,
        claimsOrRoutes id x.1 x.2.1 = true → wins id x.1 x.2.1 = true) ∧
      ((∀ x ∈ trace step ⟨db, []⟩ as, assignee x.1.db id ≠ none → assignee x.2.2.db id ≠ none) →
        ((trace step ⟨db, []⟩ as).filter fun x => wins id x.1 x.2.1).length ≤ 1)) ∧
    (∀ s agentId row limit, db.inboxAgents.find agentId = some row →
      row.maxConcurrentConversations = some limit → db.load row.tenantId agentId ≤ limit →
      Reaches step (fun x b => reopens x b = false ∧ keepsLimit agentId b = true) ⟨db, []⟩ s →
      s.db.load row.tenantId agentId ≤ limit) := by
  refine ⟨?_, ?_, ?_⟩
  · intro s a s' id agentId row limit hreach hstep hbefore hafter hrow hlimit
    have hinv := Inv.of_reaches hreach fun _ _ h => h
    exact load_lt_of_admission hinv hstep hbefore hafter hrow hlimit
  · intro id as s hrun hkept
    have hspec : ∀ x ∈ trace step ⟨db, []⟩ as, Inv x.1 ∧ step x.1 x.2.1 = some x.2.2 := by
      intro x hx
      obtain ⟨hreach, hstep⟩ := reaches_of_mem_trace
        (G := fun x b => reopensUnasked x b = false) hx hkept
      exact ⟨Inv.of_reaches hreach fun _ _ h => h, hstep⟩
    refine ⟨fun x hx => ?_, fun x hx => ?_, fun hheld => length_wins_le_one hrun hkept hheld⟩
    · obtain ⟨hinv, hstep⟩ := hspec x hx
      exact (commit_spec hinv hstep id).1
    · obtain ⟨hinv, hstep⟩ := hspec x hx
      exact (commit_spec hinv hstep id).2.2
  · intro s agentId row limit hrow hlimit hload hreach
    exact load_le_of_reaches hrow hlimit hload hreach

end runs

/-! Two claims for the last slot of an agent. -/

section lastSlot

/-- Two unassigned conversations, and an agent who takes one at a time. -/
def oneSlot : Db :=
  { Db.empty with
    inboxAgents := Table.empty.insertAll [⟨4, 1, true, .available, some 1⟩]
    conversations := Table.empty.insertAll [.opened 7 1 3 2 10, .opened 8 1 3 6 10] }

/-- Both claims find their conversation; the first one locks the agent and gets through its
checks. -/
def firstClaim : List AdmissionAct :=
  [.begins (.claimConversation 1 7 4), .begins (.claimConversation 1 8 4), .runs 0, .runs 1,
    .runs 1, .runs 0, .runs 0, .runs 0, .runs 0, .runs 0, .runs 0]

/-- It commits; then the second one goes on, and fails. -/
def secondClaim : List AdmissionAct :=
  [.commits 0 50, .runs 1, .runs 1, .runs 1, .runs 1, .runs 1]

/-- Of two claims, one gets the last slot. -/
theorem capacity_admission_lastSlot :
    ∃ s s' s'', exec step ⟨oneSlot, []⟩ firstClaim = some s ∧ step s (.commits 0 50) = some s' ∧
      assignee s'.db 7 = some 4 ∧ s.db.load 1 4 < 1 ∧
      exec step ⟨oneSlot, []⟩ (firstClaim ++ secondClaim) = some s'' ∧ s''.db.load 1 4 ≤ 1 := by
  obtain ⟨hbelow, -, hwithin⟩ := capacity_admission oneSlot
  have hs : (exec step ⟨oneSlot, []⟩ firstClaim).isSome = true := by decide
  obtain ⟨s, hs⟩ := Option.isSome_iff_exists.mp hs
  have hs' : ((exec step ⟨oneSlot, []⟩ firstClaim).bind fun s =>
      step s (.commits 0 50)).any (fun s' => assignee s'.db 7 = some 4) = true := by decide
  rw [hs, Option.bind_some, Option.any_eq_true] at hs'
  obtain ⟨s', hs', hafter⟩ := hs'
  have hrow : ((exec step ⟨oneSlot, []⟩ firstClaim).bind fun s => s.db.inboxAgents.find 4) =
      some ⟨4, 1, true, .available, some 1⟩ := by decide
  rw [hs, Option.bind_some] at hrow
  have hbefore : (exec step ⟨oneSlot, []⟩ firstClaim).any
      (fun s => assignee s.db 7 ≠ some 4) = true := by decide
  rw [hs, Option.any_some] at hbefore
  have hkept : (trace step ⟨oneSlot, []⟩ firstClaim).all
      (fun x => reopensUnasked x.1 x.2.1 = false) = true := by decide
  have hreach := Reaches.of_exec (G := fun x b => reopensUnasked x b = false) hs
    fun x hx => by simpa using List.all_eq_true.mp hkept x hx
  have hs'' : (exec step ⟨oneSlot, []⟩ (firstClaim ++ secondClaim)).isSome = true := by
    decide
  obtain ⟨s'', hs''⟩ := Option.isSome_iff_exists.mp hs''
  have hclosed : (trace step ⟨oneSlot, []⟩ (firstClaim ++ secondClaim)).all
      (fun x => reopens x.1 x.2.1 = false ∧ keepsLimit 4 x.2.1 = true) = true := by decide
  have hreach' := Reaches.of_exec
    (G := fun x b => reopens x b = false ∧ keepsLimit 4 b = true) hs''
    fun x hx => by simpa using List.all_eq_true.mp hclosed x hx
  have hlt := hbelow s _ s' 7 4 _ 1 hreach hs' (of_decide_eq_true hbefore)
    (of_decide_eq_true hafter) hrow rfl
  have hle := hwithin s'' 4 ⟨4, 1, true, .available, some 1⟩ 1 (by decide) rfl
    (by decide) hreach'
  exact ⟨s, s', s'', hs, hs', of_decide_eq_true hafter, hlt, hs'', hle⟩

end lastSlot

end Admission

end ApiWhatsApp
