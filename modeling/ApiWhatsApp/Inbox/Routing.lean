import ApiWhatsApp.Inbox.SingleCalls

/-!
# Least-loaded routing

What `routeConversation` of `inbox/inbox.service.ts` does with an unassigned conversation, and whom
claims and manual assignments admit beside it.

* `Db.capacityEligible` is the list that routing selects from, filter by filter as in the source;
  `mem_capacityEligible`: it holds the agents that the policy `Db.admitsAgent` admits.
* **`perform_route`** — routing assigns the agent that `selectLeastLoaded` picks from the list, and
  fails when the list is empty. `selectLeastLoaded_spec`: the pick has the least load and, among
  those, the first identifier, since the list stays in the order of identifiers.
* `Eligible` says in terms of the stored rows who may be given a conversation; `eligible_iff` brings
  it together with the policy.
* **`route_least_loaded`** and **`admission_agrees`** are the results.
-/

namespace ApiWhatsApp

open Library InboxRequest

/-! ## The candidates -/

/-- The active members of a team, as the candidate query returns them. -/
def Db.routingCandidates (db : Db) (tenantId teamId : Uuid) : List LockedAgentCapacity :=
  (db.routingMembers tenantId teamId).filterMap (db.routingCandidate tenantId teamId)

/-- Source: `availableCandidates`. -/
def Db.availableCandidates (db : Db) (tenantId teamId : Uuid) : List LockedAgentCapacity :=
  (db.routingCandidates tenantId teamId).filter fun a => a.presenceStatus = .available

/-- Source: `filterAgentsByConversationSkills`; where it throws, nobody is left. -/
def Db.skillEligible (db : Db) (c : Conversation) (candidates : List LockedAgentCapacity) :
    List LockedAgentCapacity :=
  if (db.lockRequirements c.tenantId c.id).all (·.active) then
    candidates.filter fun a =>
      db.meetsSkills c.tenantId a.agentId (db.lockRequirements c.tenantId c.id)
  else []

/-- Source: `capacityEligibleIds`. -/
def Db.capacityEligible (db : Db) (c : Conversation) (teamId : Uuid) : List LockedAgentCapacity :=
  (db.skillEligible c (db.availableCandidates c.tenantId teamId)).filter fun a =>
    a.maxConcurrentConversations.all fun limit => db.load c.tenantId a.agentId < limit

section candidates

variable {db : Db} {tenantId teamId : Uuid} {c : Conversation}

/-- A candidate is a member that is active. -/
theorem routingCandidate_eq_some {agentId : Uuid} {a : LockedAgentCapacity} :
    db.routingCandidate tenantId teamId agentId = some a ↔
      db.isMember tenantId teamId agentId = true ∧
        ∃ agent, db.activeAgent tenantId agentId = some agent ∧ agent.capacity = a := by
  unfold Db.routingCandidate
  split_ifs with hmember
  · simp [hmember]
  · simp [hmember]

/-- The candidate is the one that was asked for. -/
theorem agentId_of_routingCandidate {agentId : Uuid} {a : LockedAgentCapacity}
    (h : db.routingCandidate tenantId teamId agentId = some a) : a.agentId = agentId := by
  obtain ⟨-, agent, hagent, rfl⟩ := routingCandidate_eq_some.mp h
  exact id_of_activeAgent hagent

/-- A member has a row. -/
theorem isMember_iff {agentId : Uuid} : db.isMember tenantId teamId agentId = true ↔
    ∃ m ∈ db.teamMembers.rows, m.tenantId = tenantId ∧ m.teamId = teamId ∧ m.agentId = agentId := by
  simp only [Db.isMember, Option.any_eq_true, Table.find_eq_some_iff, decide_eq_true_eq]
  constructor
  · rintro ⟨m, ⟨hm, hkey⟩, htenant⟩
    simp only [Keyed.keys, List.mem_singleton, Prod.mk.injEq] at hkey
    exact ⟨m, hm, htenant, hkey.1.symm, hkey.2.symm⟩
  · rintro ⟨m, hm, htenant, rfl, rfl⟩
    exact ⟨m, ⟨hm, by simp [Keyed.keys]⟩, htenant⟩

/-- The members that are routed to are active. -/
theorem mem_routingMembers {agentId : Uuid} : agentId ∈ db.routingMembers tenantId teamId ↔
    db.isMember tenantId teamId agentId = true ∧
      (db.activeAgent tenantId agentId).isSome = true := by
  rw [Db.routingMembers, List.mem_insertionSort, List.mem_map, isMember_iff]
  simp only [List.mem_filter, Bool.and_eq_true, decide_eq_true_eq]
  constructor
  · rintro ⟨m, ⟨hm, ⟨htenant, hteam⟩, hactive⟩, rfl⟩
    exact ⟨⟨m, hm, htenant, hteam, rfl⟩, hactive⟩
  · rintro ⟨⟨m, hm, htenant, hteam, rfl⟩, hactive⟩
    exact ⟨m, ⟨hm, ⟨htenant, hteam⟩, hactive⟩, rfl⟩

/-- On a database that stands still, the lock of a member changes nothing about it. -/
theorem mem_routingCandidates {a : LockedAgentCapacity} :
    a ∈ db.routingCandidates tenantId teamId ↔
      db.routingCandidate tenantId teamId a.agentId = some a := by
  rw [Db.routingCandidates, List.mem_filterMap]
  constructor
  · rintro ⟨agentId, -, ha⟩
    rw [agentId_of_routingCandidate ha]
    exact ha
  · intro ha
    obtain ⟨hmember, agent, hagent, -⟩ := routingCandidate_eq_some.mp ha
    exact ⟨a.agentId, mem_routingMembers.mpr ⟨hmember, by rw [hagent]; rfl⟩, ha⟩

/-- **The list that routing selects from** holds the agents that the policy admits. -/
theorem mem_capacityEligible {a : LockedAgentCapacity} :
    a ∈ db.capacityEligible c teamId ↔
      (∃ agent, db.activeAgent c.tenantId a.agentId = some agent ∧ agent.capacity = a) ∧
        db.admitsAgent c teamId a.agentId = true := by
  have hskills : a ∈ db.skillEligible c (db.availableCandidates c.tenantId teamId) ↔
      (db.routingCandidate c.tenantId teamId a.agentId = some a ∧
        a.presenceStatus = .available) ∧
      (db.lockRequirements c.tenantId c.id).all (·.active) = true ∧
      db.meetsSkills c.tenantId a.agentId (db.lockRequirements c.tenantId c.id) = true := by
    unfold Db.skillEligible
    split_ifs with hactive
    · simp only [List.mem_filter, Db.availableCandidates, mem_routingCandidates, hactive,
        decide_eq_true_eq, true_and]
    · simp [hactive]
  rw [Db.capacityEligible, List.mem_filter, hskills, routingCandidate_eq_some]
  constructor
  · rintro ⟨⟨⟨⟨hmember, agent, hagent, hcapacity⟩, hpresence⟩, hactive, hmeets⟩, hroom⟩
    refine ⟨⟨agent, hagent, hcapacity⟩, (admits_iff hagent).mpr ?_⟩
    rw [hcapacity]
    exact ⟨hpresence, hmember, ⟨hactive, hmeets⟩, hroom⟩
  · rintro ⟨⟨agent, hagent, hcapacity⟩, hadmits⟩
    have hpolicy := (admits_iff hagent).mp hadmits
    rw [hcapacity] at hpolicy
    obtain ⟨hpresence, hmember, hskills, hroom⟩ := hpolicy
    exact ⟨⟨⟨⟨hmember, agent, hagent, hcapacity⟩, hpresence⟩, hskills⟩, hroom⟩

/-- The identifiers on the list. -/
theorem mem_map_capacityEligible {agentId : Uuid} :
    agentId ∈ (db.capacityEligible c teamId).map (·.agentId) ↔
      db.admitsAgent c teamId agentId = true := by
  rw [List.mem_map]
  constructor
  · rintro ⟨a, ha, rfl⟩
    exact (mem_capacityEligible.mp ha).2
  · intro hadmits
    cases hagent : db.activeAgent c.tenantId agentId with
    | none =>
        rw [admits_eq_false hagent] at hadmits
        cases hadmits
    | some agent =>
        have hid : agent.capacity.agentId = agentId := id_of_activeAgent hagent
        refine ⟨agent.capacity, mem_capacityEligible.mpr ?_, hid⟩
        rw [hid]
        exact ⟨⟨agent, hagent, rfl⟩, hadmits⟩

/-- The order of the identifiers is kept through all filters. -/
theorem pairwise_capacityEligible :
    (db.capacityEligible c teamId).Pairwise fun a b => a.agentId ≤ b.agentId := by
  have hcandidates : (db.routingCandidates c.tenantId teamId).Pairwise
      fun a b => a.agentId ≤ b.agentId := by
    refine List.Pairwise.filterMap _ (fun x y hxy a ha b hb => ?_)
      (List.pairwise_insertionSort (· ≤ ·) _)
    rw [agentId_of_routingCandidate ha, agentId_of_routingCandidate hb]
    exact hxy
  refine List.Pairwise.filter _ ?_
  unfold Db.skillEligible
  split_ifs
  · exact (hcandidates.filter _).filter _
  · exact List.Pairwise.nil

end candidates

/-! ## The selection -/

/-- The load first, then the identifier. -/
def PreferredTo (load : Uuid → ℕ) (a b : Uuid) : Prop := load a < load b ∨ (load a = load b ∧ a ≤ b)

/-- **The selection** from a list in the order of identifiers. -/
theorem selectLeastLoaded_spec {load : Uuid → ℕ} {candidates : List LockedAgentCapacity}
    {selected : LockedAgentCapacity} (h : selectLeastLoaded load candidates = some selected)
    (hsorted : candidates.Pairwise fun a b => a.agentId ≤ b.agentId) :
    selected ∈ candidates ∧ ∀ a ∈ candidates, PreferredTo load selected.agentId a.agentId := by
  cases candidates with
  | nil => cases h
  | cons first rest =>
      cases h
      induction rest generalizing first with
      | nil => simp [PreferredTo]
      | cons next rest ih =>
          rw [List.foldl_cons]
          obtain ⟨hfirst, hrest⟩ := List.pairwise_cons.mp hsorted
          obtain ⟨hnext, htail⟩ := List.pairwise_cons.mp hrest
          have hid : first.agentId ≤ next.agentId := hfirst next List.mem_cons_self
          split_ifs with hless
          · -- `next` is taken; it has less load than `first`
            obtain ⟨hmem, hpreferred⟩ := ih next hrest
            refine ⟨List.mem_cons_of_mem _ hmem, List.forall_mem_cons.mpr ⟨?_, hpreferred⟩⟩
            rcases hpreferred next List.mem_cons_self with hlt | ⟨heq, -⟩
            · exact .inl (hlt.trans hless)
            · exact .inl (heq.trans_lt hless)
          · -- `first` stays; `next` has no less load, and comes after it
            have hkept : (first :: rest).Pairwise fun a b => a.agentId ≤ b.agentId :=
              List.pairwise_cons.mpr ⟨fun a ha => hfirst a (List.mem_cons_of_mem _ ha), htail⟩
            obtain ⟨hmem, hpreferred⟩ := ih first hkept
            obtain ⟨hself, hothers⟩ := List.forall_mem_cons.mp hpreferred
            refine ⟨?_, List.forall_mem_cons.mpr ⟨hself, List.forall_mem_cons.mpr ⟨?_, hothers⟩⟩⟩
            · rcases List.mem_cons.mp hmem with hmem | hmem
              · rw [hmem]
                exact List.mem_cons_self
              · exact List.mem_cons_of_mem _ (List.mem_cons_of_mem _ hmem)
            · rcases hself with hlt | ⟨heq, hle⟩
              · exact .inl (hlt.trans_le (Nat.not_lt.mp hless))
              · rcases Nat.lt_or_eq_of_le (Nat.not_lt.mp hless) with hlt | hsame
                · exact .inl (heq.trans_lt hlt)
                · exact .inr ⟨heq.trans hsame, hle.trans hid⟩

/-- None is chosen just when there are none. -/
theorem selectLeastLoaded_eq_none {load : Uuid → ℕ} {candidates : List LockedAgentCapacity} :
    selectLeastLoaded load candidates = none ↔ candidates = [] := by
  cases candidates with
  | nil => exact ⟨fun _ => rfl, fun _ => rfl⟩
  | cons first rest => exact ⟨nofun, nofun⟩

/-! ## The run -/

section run

variable {db : Db} {request : InboxRequest} {c : Conversation}

/-- Locking the members of a team. -/
theorem leads_lockMembers (teamId : Uuid) (pending : List Uuid)
    (candidates : List LockedAgentCapacity) :
    request.Leads db (pending.length + 1) (.lockMembers c teamId pending candidates)
      (afterMembers c
        (candidates ++ pending.filterMap (db.routingCandidate request.tenantId teamId))) := by
  induction pending generalizing candidates with
  | nil =>
      refine Leads.head ?_ Leads.refl
      simp [stepStage, Txn.nextStage]
  | cons agentId rest ih =>
      have hstep := ih (candidates ++ (db.routingCandidate request.tenantId teamId agentId).toList)
      rw [List.append_assoc] at hstep
      refine Leads.head rfl (hstep.to_eq ?_)
      cases hcandidate : db.routingCandidate request.tenantId teamId agentId with
      | none => simp [hcandidate]
      | some a => simp [hcandidate]

/-- Without candidates none is eligible. -/
theorem skillEligible_nil : db.skillEligible c [] = [] := by
  unfold Db.skillEligible
  split_ifs <;> rfl

/-- The two statements of `filterAgentsByConversationSkills`, and the load query. -/
theorem leads_lockRequirements (hid : request.id = c.id) (htenant : request.tenantId = c.tenantId)
    (candidates : List LockedAgentCapacity) :
    request.Leads db 3 (.lockRequirements c candidates)
        (afterLoads c (db.load c.tenantId) (db.skillEligible c candidates)) ∨
      (db.skillEligible c candidates = [] ∧ ∃ message,
        request.Leads db 3 (.lockRequirements c candidates) (.failed (.unprocessable message))) := by
  have hloads : ∀ eligible, request.Leads db 1 (.groupLoads c eligible)
      (afterLoads c (db.load c.tenantId) eligible) := by
    intro eligible
    refine Leads.head ?_ Leads.refl
    simp [stepStage, Txn.nextStage, htenant]
  by_cases hempty : db.lockRequirements c.tenantId c.id = []
  · left
    have heligible : db.skillEligible c candidates = candidates := by
      simp [Db.skillEligible, hempty, Db.meetsSkills]
    rw [heligible]
    refine (Leads.head ?_ (hloads candidates)).mono (by omega)
    simp [stepStage, Txn.nextStage, htenant, hid, hempty]
  · by_cases hactive : (db.lockRequirements c.tenantId c.id).all (·.active) = true
    · have hinactive : (db.lockRequirements c.tenantId c.id).any
          (fun requirement => !requirement.active) = false := by
        simpa [List.all_eq_true] using hactive
      have hfirst : request.stepStage db (.lockRequirements c candidates) =
          .lockProficiencies c candidates (db.lockRequirements c.tenantId c.id) := by
        simp [stepStage, Txn.nextStage, htenant, hid, hempty, hinactive]
      have heligible : db.skillEligible c candidates = candidates.filter fun a =>
          db.meetsSkills c.tenantId a.agentId (db.lockRequirements c.tenantId c.id) :=
        if_pos hactive
      by_cases hnobody : db.skillEligible c candidates = []
      · right
        refine ⟨hnobody, "Assigned inbox team has no available members satisfying required skills",
          Leads.head hfirst (Leads.head ?_ Leads.refl)⟩
        rw [heligible] at hnobody
        simp [stepStage, Txn.nextStage, htenant, hnobody]
      · left
        refine Leads.head hfirst (Leads.head ?_ (hloads _))
        rw [heligible] at hnobody ⊢
        simp [stepStage, Txn.nextStage, htenant, hnobody]
    · right
      refine ⟨if_neg hactive, inactiveSkillsMessage, Leads.head ?_ Leads.refl⟩
      have hinactive : (db.lockRequirements c.tenantId c.id).any
          (fun requirement => !requirement.active) = true := by
        simpa [List.all_eq_true] using hactive
      simp [stepStage, Txn.nextStage, htenant, hid, hempty, hinactive]

/-- From the members of the team to the selection. -/
theorem leads_afterMembers (hid : request.id = c.id) (htenant : request.tenantId = c.tenantId)
    (teamId : Uuid) :
    request.Leads db 3 (afterMembers c (db.routingCandidates c.tenantId teamId))
        (afterLoads c (db.load c.tenantId)
          (db.skillEligible c (db.availableCandidates c.tenantId teamId))) ∨
      (db.skillEligible c (db.availableCandidates c.tenantId teamId) = [] ∧ ∃ message,
        request.Leads db 3 (afterMembers c (db.routingCandidates c.tenantId teamId))
          (.failed (.unprocessable message))) := by
  by_cases hmembers : db.routingCandidates c.tenantId teamId = []
  · right
    have hnobody : db.availableCandidates c.tenantId teamId = [] := by
      rw [Db.availableCandidates, hmembers]
      rfl
    rw [hnobody, hmembers]
    exact ⟨skillEligible_nil, _, Leads.refl⟩
  · by_cases hnobody : db.availableCandidates c.tenantId teamId = []
    · right
      have hstage : afterMembers c (db.routingCandidates c.tenantId teamId) =
          .failed (.unprocessable "Assigned inbox team has no available routing members") := by
        rw [Db.availableCandidates] at hnobody
        simp [afterMembers, hmembers, hnobody]
      rw [hnobody, hstage]
      exact ⟨skillEligible_nil, _, Leads.refl⟩
    · have hstage : afterMembers c (db.routingCandidates c.tenantId teamId) =
          .lockRequirements c (db.availableCandidates c.tenantId teamId) := by
        rw [Db.availableCandidates] at hnobody ⊢
        simp [afterMembers, hmembers, hnobody]
      rw [hstage]
      exact leads_lockRequirements hid htenant _

/-- There are no more of them than members. -/
theorem length_routingMembers (db : Db) (tenantId teamId : Uuid) :
    (db.routingMembers tenantId teamId).length ≤ db.teamMembers.rows.length := by
  rw [Db.routingMembers, List.length_insertionSort, List.length_map]
  exact List.length_filter_le _ _

/-- **Routing** of an unassigned conversation whose team is active. -/
theorem perform_route {tenantId id teamId : Uuid} (h : db.conversationOf tenantId id = some c)
    (hunassigned : c.assignedAgentId = none) (hteam : db.teamOf c = some teamId)
    (hactive : db.isActiveTeam tenantId teamId = true) (now : Time) :
    match selectLeastLoaded (db.load tenantId) (db.capacityEligible c teamId) with
    | some agent => (routeConversation tenantId id).perform db now =
        (db.assignAgent id (some agent.agentId), .ok true)
    | none => ∃ message, (routeConversation tenantId id).perform db now =
        (db, .error (.unprocessable message)) := by
  obtain ⟨rfl, rfl⟩ := of_conversationOf h
  have hfind : (routeConversation c.tenantId c.id).afterFind c (db.teamOf c) =
      .lockTeam c teamId := by
    simp [afterFind, hunassigned, hteam]
  have hteamStep : (routeConversation c.tenantId c.id).stepStage db (.lockTeam c teamId) =
      .findMembers c teamId := by
    simp [stepStage, Txn.nextStage, InboxRequest.tenantId, hactive]
  -- Whatever comes after the members have been locked, the call comes to it.
  have hreaches : ∀ {stage : AdmissionStage},
      (routeConversation c.tenantId c.id).Leads db 3
        (afterMembers c (db.routingCandidates c.tenantId teamId)) stage →
      (routeConversation c.tenantId c.id).Leads db (db.teamMembers.rows.length + 20)
        .lockConversation stage := by
    intro stage hrest
    have hmembers : (routeConversation c.tenantId c.id).Leads db _
        (.lockMembers c teamId (db.routingMembers c.tenantId teamId) []) stage :=
      (leads_lockMembers teamId _ []).trans hrest
    have hlocked := Leads.head hteamStep (Leads.head rfl hmembers)
    rw [← hfind] at hlocked
    refine (leads_found h hlocked).mono ?_
    have hlength := length_routingMembers db c.tenantId teamId
    omega
  rcases @leads_afterMembers db (routeConversation c.tenantId c.id) c rfl rfl teamId with
    hloads | ⟨hnobody, message, hfailed⟩
  · cases hselected : selectLeastLoaded (db.load c.tenantId) (db.capacityEligible c teamId) with
    | none =>
        have hstage : afterLoads c (db.load c.tenantId)
            (db.skillEligible c (db.availableCandidates c.tenantId teamId)) =
              .failed (.unprocessable
                "Assigned inbox team has no routing members with remaining conversation capacity") := by
          rw [Db.capacityEligible] at hselected
          rw [afterLoads, hselected]
        rw [hstage] at hloads
        exact ⟨_, perform_of_failed (hreaches hloads)⟩
    | some agent =>
        have hstage : afterLoads c (db.load c.tenantId)
            (db.skillEligible c (db.availableCandidates c.tenantId teamId)) =
              .ready c (some agent) := by
          rw [Db.capacityEligible] at hselected
          rw [afterLoads, hselected]
        rw [hstage] at hloads
        exact perform_of_ready (hreaches hloads) rfl
  · have hnone : selectLeastLoaded (db.load c.tenantId) (db.capacityEligible c teamId) = none := by
      rw [selectLeastLoaded_eq_none, Db.capacityEligible, hnobody]
      rfl
    rw [hnone]
    exact ⟨message, perform_of_failed (hreaches hfailed)⟩

end run

/-! ## The stored rows -/

/-- Every requirement is of a skill of its tenant: the foreign key of
`ConversationSkillRequirement`. -/
def Db.SkillsExist (db : Db) : Prop :=
  ∀ r ∈ db.skillRequirements.rows, ∃ skill, db.inboxSkills.find r.skillId = some skill ∧
    skill.tenantId = r.tenantId

/-- A required skill of the conversation is inactive. -/
def Db.RequiresInactive (db : Db) (c : Conversation) : Prop :=
  ∃ r ∈ db.skillRequirements.rows, r.tenantId = c.tenantId ∧ r.conversationId = c.id ∧
    ∃ skill, db.inboxSkills.find r.skillId = some skill ∧ skill.active = false

/-- Who may be given a conversation of a team. -/
structure Eligible (db : Db) (c : Conversation) (teamId agentId : Uuid) : Prop where
  member : ∃ m ∈ db.teamMembers.rows, m.tenantId = c.tenantId ∧ m.teamId = teamId ∧
    m.agentId = agentId
  agent : ∃ agent ∈ db.inboxAgents.rows, agent.id = agentId ∧ agent.tenantId = c.tenantId ∧
    agent.active = true ∧ agent.presenceStatus = .available ∧
    ∀ limit ∈ agent.maxConcurrentConversations, db.load c.tenantId agentId < limit
  skills : ∀ r ∈ db.skillRequirements.rows, r.tenantId = c.tenantId → r.conversationId = c.id →
    r.minLevel ≤ db.level c.tenantId agentId r.skillId

section rows

variable {db : Db} {c : Conversation}

/-- The rows that `lockRequirements` joins. -/
theorem mem_lockRequirements {tenantId conversationId : Uuid} {row : SkillRequirementRow} :
    row ∈ db.lockRequirements tenantId conversationId ↔
      ∃ r ∈ db.skillRequirements.rows, (r.tenantId = tenantId ∧ r.conversationId = conversationId) ∧
        ∃ skill, (db.inboxSkills.find r.skillId = some skill ∧ skill.tenantId = r.tenantId) ∧
          ⟨r.skillId, r.minLevel, skill.active⟩ = row := by
  rw [Db.lockRequirements, List.mem_filterMap]
  refine exists_congr fun r => and_congr_right fun _ => ?_
  by_cases hr : r.tenantId = tenantId ∧ r.conversationId = conversationId
  · rw [if_pos hr, Option.map_eq_some_iff]
    simp [hr, Option.filter_eq_some_iff]
  · simp [hr]

/-- The requirements are active just when none is inactive. -/
theorem allActive_iff (hskills : db.SkillsExist) :
    (db.lockRequirements c.tenantId c.id).all (·.active) = true ↔ ¬ db.RequiresInactive c := by
  rw [List.all_eq_true]
  constructor
  · rintro hall ⟨r, hr, htenant, hconversation, skill, hskill, hinactive⟩
    obtain ⟨skill', hskill', htenant'⟩ := hskills r hr
    have hsame : skill' = skill := Option.some.inj (hskill'.symm.trans hskill)
    have hactive := hall _ (mem_lockRequirements.mpr
      ⟨r, hr, ⟨htenant, hconversation⟩, skill', ⟨hskill', htenant'⟩, rfl⟩)
    rw [hsame, hinactive] at hactive
    cases hactive
  · intro hnone row hrow
    obtain ⟨r, hr, ⟨htenant, hconversation⟩, skill, ⟨hskill, -⟩, rfl⟩ :=
      mem_lockRequirements.mp hrow
    by_contra hinactive
    exact hnone ⟨r, hr, htenant, hconversation, skill, hskill, by simpa using hinactive⟩

/-- The skills suffice just when every requirement is met. -/
theorem meetsSkills_iff (hskills : db.SkillsExist) {agentId : Uuid} :
    db.meetsSkills c.tenantId agentId (db.lockRequirements c.tenantId c.id) = true ↔
      ∀ r ∈ db.skillRequirements.rows, r.tenantId = c.tenantId → r.conversationId = c.id →
        r.minLevel ≤ db.level c.tenantId agentId r.skillId := by
  rw [Db.meetsSkills, List.all_eq_true]
  constructor
  · intro hall r hr htenant hconversation
    obtain ⟨skill, hskill, hsame⟩ := hskills r hr
    have hmeets := hall _ (mem_lockRequirements.mpr
      ⟨r, hr, ⟨htenant, hconversation⟩, skill, ⟨hskill, hsame⟩, rfl⟩)
    simpa using hmeets
  · intro hall row hrow
    obtain ⟨r, hr, ⟨htenant, hconversation⟩, skill, -, rfl⟩ := mem_lockRequirements.mp hrow
    simpa using hall r hr htenant hconversation

/-- An active agent has a row that says so. -/
theorem activeAgent_iff {tenantId agentId : Uuid} {agent : InboxAgent} :
    db.activeAgent tenantId agentId = some agent ↔
      agent ∈ db.inboxAgents.rows ∧ agent.id = agentId ∧ agent.tenantId = tenantId ∧
        agent.active = true := by
  rw [Db.activeAgent, Option.filter_eq_some_iff, Db.agentOf, Option.filter_eq_some_iff,
    Table.find_eq_some_iff]
  simp only [Keyed.keys, List.mem_singleton, decide_eq_true_eq]
  constructor
  · rintro ⟨⟨⟨hmem, hid⟩, htenant⟩, hactive⟩
    exact ⟨hmem, hid.symm, htenant, hactive⟩
  · rintro ⟨hmem, hid, htenant, hactive⟩
    exact ⟨⟨⟨hmem, hid.symm⟩, htenant⟩, hactive⟩

/-- **The policy in terms of the stored rows.** -/
theorem admits_iff_eligible (hskills : db.SkillsExist) {teamId agentId : Uuid} :
    db.admitsAgent c teamId agentId = true ↔ Eligible db c teamId agentId ∧ ¬ db.RequiresInactive c := by
  constructor
  · intro hadmits
    cases hagent : db.activeAgent c.tenantId agentId with
    | none =>
        rw [admits_eq_false hagent] at hadmits
        cases hadmits
    | some agent =>
        obtain ⟨hpresence, hmember, ⟨hactive, hmeets⟩, hroom⟩ := (admits_iff hagent).mp hadmits
        obtain ⟨hmem, hid, htenant, hisActive⟩ := activeAgent_iff.mp hagent
        refine ⟨⟨isMember_iff.mp hmember, ⟨agent, hmem, hid, htenant, hisActive, hpresence, ?_⟩,
          (meetsSkills_iff hskills).mp hmeets⟩, (allActive_iff hskills).mp hactive⟩
        intro limit hlimit
        simp only [InboxAgent.capacity, hid] at hroom
        rw [Option.mem_def.mp hlimit] at hroom
        simpa using hroom
  · rintro ⟨⟨hmember, ⟨agent, hmem, hid, htenant, hisActive, hpresence, hroom⟩, hmeets⟩, hactive⟩
    have hagent := activeAgent_iff.mpr ⟨hmem, hid, htenant, hisActive⟩
    refine (admits_iff hagent).mpr ⟨hpresence, isMember_iff.mpr hmember,
      ⟨(allActive_iff hskills).mpr hactive, (meetsSkills_iff hskills).mpr hmeets⟩, ?_⟩
    simp only [InboxAgent.capacity, hid]
    cases hlimit : agent.maxConcurrentConversations with
    | none => rfl
    | some limit => simpa using hroom limit hlimit

end rows

/-! ## The results -/

section results

variable {db : Db} {tenantId id : Uuid} {c : Conversation}

/-- Routing of a conversation that has an agent already. -/
theorem perform_route_assigned {agentId : Uuid} (h : db.conversationOf tenantId id = some c)
    (hassigned : c.assignedAgentId = some agentId) (now : Time) :
    (routeConversation tenantId id).perform db now = (db, .ok false) := by
  refine perform_of_returned ((leads_found h (k := 0) ?_).mono (by omega))
  simp only [afterFind, hassigned, Option.isSome_some, if_true]
  exact Leads.refl

/-- Routing of a conversation that has no team, or whose team is inactive. -/
theorem perform_route_inactive (h : db.conversationOf tenantId id = some c)
    (hunassigned : c.assignedAgentId = none)
    (hteam : ∀ teamId, db.teamOf c = some teamId → db.isActiveTeam tenantId teamId = false)
    (now : Time) : ∃ message, (routeConversation tenantId id).perform db now =
      (db, .error (.unprocessable message)) := by
  cases hassigned : db.teamOf c with
  | none =>
      refine ⟨"Conversation must be assigned to an inbox team before automatic routing",
        perform_of_failed ((leads_found h (k := 0) ?_).mono (by omega))⟩
      simp only [afterFind, hunassigned, hassigned]
      exact Leads.refl
  | some teamId =>
      refine ⟨"Assigned inbox team is not active in this tenant",
        perform_of_failed ((leads_found h (k := 1) ?_).mono (by omega))⟩
      simp only [afterFind, hunassigned, hassigned]
      refine Leads.head ?_ Leads.refl
      simp [stepStage, Txn.nextStage, InboxRequest.tenantId, hteam teamId hassigned]

/-- **Least-loaded routing.** For every database and every conversation of it, a call of
`routeConversation` changes nothing when the conversation has an agent. Otherwise it fails, and
changes nothing, exactly when there is no team, the team is inactive, a required skill is inactive
or nobody is eligible; and when it succeeds it assigns an eligible agent with the least load and,
among those, the first identifier. -/
theorem route_least_loaded (hskills : db.SkillsExist)
    (h : db.conversationOf tenantId id = some c) (now : Time) :
    (∀ agentId, c.assignedAgentId = some agentId →
      (routeConversation tenantId id).perform db now = (db, .ok false)) ∧
    (c.assignedAgentId = none →
      ((∃ message, (routeConversation tenantId id).perform db now =
          (db, .error (.unprocessable message))) ↔
        db.teamOf c = none ∨
        (∃ teamId, db.teamOf c = some teamId ∧ db.isActiveTeam tenantId teamId = false) ∨
        db.RequiresInactive c ∨
        ∃ teamId, db.teamOf c = some teamId ∧ ∀ agentId, ¬ Eligible db c teamId agentId) ∧
      ((∃ message, (routeConversation tenantId id).perform db now =
          (db, .error (.unprocessable message))) ∨
        ∃ teamId agentId, db.teamOf c = some teamId ∧ Eligible db c teamId agentId ∧
          (∀ other, Eligible db c teamId other → PreferredTo (db.load tenantId) agentId other) ∧
          (routeConversation tenantId id).perform db now =
            (db.assignAgent id (some agentId), .ok true))) := by
  refine ⟨fun agentId hassigned => perform_route_assigned h hassigned now, fun hunassigned => ?_⟩
  by_cases hteam : ∀ teamId, db.teamOf c = some teamId → db.isActiveTeam tenantId teamId = false
  · have hfails := perform_route_inactive h hunassigned hteam now
    refine ⟨⟨fun _ => ?_, fun _ => hfails⟩, .inl hfails⟩
    cases hassigned : db.teamOf c with
    | none => exact .inl rfl
    | some teamId => exact .inr (.inl ⟨teamId, rfl, hteam teamId hassigned⟩)
  · push Not at hteam
    obtain ⟨teamId, hassigned, hactive⟩ := hteam
    have hrun := perform_route h hunassigned hassigned (by simpa using hactive) now
    cases hselect : selectLeastLoaded (db.load tenantId) (db.capacityEligible c teamId) with
    | none =>
        rw [hselect] at hrun
        refine ⟨⟨fun _ => ?_, fun _ => hrun⟩, .inl hrun⟩
        rw [selectLeastLoaded_eq_none] at hselect
        by_cases hinactive : db.RequiresInactive c
        · exact .inr (.inr (.inl hinactive))
        · refine .inr (.inr (.inr ⟨teamId, hassigned, fun agentId heligible => ?_⟩))
          have hmem := mem_map_capacityEligible.mpr
            ((admits_iff_eligible hskills).mpr ⟨heligible, hinactive⟩)
          rw [hselect] at hmem
          cases hmem
    | some agent =>
        rw [hselect] at hrun
        obtain ⟨hmem, hpreferred⟩ := selectLeastLoaded_spec hselect pairwise_capacityEligible
        obtain ⟨heligible, hskillsActive⟩ := (admits_iff_eligible hskills).mp
          (mem_capacityEligible.mp hmem).2
        constructor
        · constructor
          · rintro ⟨message, hfails⟩
            rw [hrun] at hfails
            cases (Prod.mk.inj hfails).2
          · rintro (hnone | ⟨other, hother, hinactive⟩ | hinactive | ⟨other, hother, hnobody⟩)
            · rw [hassigned] at hnone
              cases hnone
            · rw [hassigned] at hother
              cases hother
              rw [hinactive] at hactive
              exact absurd rfl hactive
            · exact absurd hinactive hskillsActive
            · rw [hassigned] at hother
              cases hother
              exact absurd heligible (hnobody _)
        · refine .inr ⟨teamId, agent.agentId, hassigned, heligible, fun other hother => ?_, hrun⟩
          have hothermem := mem_map_capacityEligible.mpr
            ((admits_iff_eligible hskills).mpr ⟨hother, hskillsActive⟩)
          obtain ⟨a, ha, rfl⟩ := List.mem_map.mp hothermem
          exact hpreferred a ha

/-- A team of two, with an open conversation that asks for a skill. -/
def sampleTeam : Db :=
  { Db.empty with
    inboxTeams := Table.empty.insertAll [⟨5, 1, true, none⟩]
    inboxAgents := Table.empty.insertAll
      [⟨11, 1, true, .available, some 1⟩, ⟨12, 1, true, .available, none⟩]
    teamMembers := Table.empty.insertAll [⟨1, 5, 11⟩, ⟨1, 5, 12⟩]
    inboxSkills := Table.empty.insertAll [⟨3, 1, true⟩]
    agentSkills := Table.empty.insertAll [⟨1, 3, 11, 2⟩, ⟨1, 3, 12, 1⟩]
    skillRequirements := Table.empty.insertAll [⟨1, 9, 3, 1⟩]
    teamAssignments := Table.empty.insertAll [⟨9, 1, 5⟩]
    conversations := Table.empty.insertAll [.opened 9 1 2 7 100] }

/-- The sample team has an agent with the least load. -/
theorem route_least_loaded_sample :
    ∃ agentId, Eligible sampleTeam (.opened 9 1 2 7 100) 5 agentId ∧
      (∀ other, Eligible sampleTeam (.opened 9 1 2 7 100) 5 other →
        PreferredTo (sampleTeam.load 1) agentId other) ∧
      (routeConversation 1 9).perform sampleTeam 200 =
        (sampleTeam.assignAgent 9 (some agentId), .ok true) := by
  have hexist : (sampleTeam.skillRequirements.rows.all fun r =>
      (sampleTeam.inboxSkills.find r.skillId).any fun skill => skill.tenantId = r.tenantId) =
        true := by
    decide
  have hskills : sampleTeam.SkillsExist := by
    intro r hr
    simpa [Option.any_eq_true] using List.all_eq_true.mp hexist r hr
  have hfound : sampleTeam.conversationOf 1 9 = some (.opened 9 1 2 7 100) := by decide
  have hteam : sampleTeam.teamOf (.opened 9 1 2 7 100) = some 5 := by decide
  have hok : ((routeConversation 1 9).perform sampleTeam 200).2.toBool = true := by decide
  obtain ⟨-, hroute⟩ := route_least_loaded hskills hfound 200
  rcases (hroute rfl).2 with ⟨message, hfails⟩ | ⟨teamId, agentId, hteam', heligible, hleast, hrun⟩
  · rw [hfails] at hok
    cases hok
  · rw [hteam] at hteam'
    cases hteam'
    exact ⟨agentId, heligible, hleast, hrun⟩

/-- A call that runs alone succeeds. -/
def InboxRequest.Succeeds (db : Db) (now : Time) (request : InboxRequest) : Prop :=
  ∃ changed, (request.perform db now).2 = .ok changed

/-- A call that comes to its write or throws, as a test decides. -/
theorem succeeds_iff_of_if {request : InboxRequest} {db' : Db} {now : Time} {b : Bool}
    (h : if b then request.perform db now = (db', .ok true)
      else ∃ message, request.perform db now = (db, .error (.unprocessable message))) :
    request.Succeeds db now ↔ b = true := by
  cases b with
  | true =>
      have hrun : request.perform db now = (db', .ok true) := h
      exact ⟨fun _ => rfl, fun _ => ⟨true, by rw [hrun]⟩⟩
  | false =>
      obtain ⟨message, hrun⟩ : ∃ message, request.perform db now =
        (db, .error (.unprocessable message)) := h
      refine ⟨?_, nofun⟩
      rintro ⟨changed, hok⟩
      rw [hrun] at hok
      cases hok

/-- **Claims, manual assignments and routing admit the same agents** to an unassigned conversation
whose team is active: a claim by an agent succeeds exactly when an update that assigns only this
agent does, and exactly when the agent is on the list from which routing selects. Routing succeeds
exactly when the claim of some agent would, and then takes an agent of the list. -/
theorem admission_agrees {teamId : Uuid} (h : db.conversationOf tenantId id = some c)
    (hunassigned : c.assignedAgentId = none) (hteam : db.teamOf c = some teamId)
    (hactive : db.isActiveTeam tenantId teamId = true) (startedAt now : Time) :
    (∀ agentId,
      ((claimConversation tenantId id agentId).Succeeds db now ↔
        (updateConversation tenantId id ⟨none, none, some (some agentId), none⟩ startedAt).Succeeds
          db now) ∧
      ((claimConversation tenantId id agentId).Succeeds db now ↔
        agentId ∈ (db.capacityEligible c teamId).map (·.agentId))) ∧
    ((routeConversation tenantId id).Succeeds db now ↔
      ∃ agentId, (claimConversation tenantId id agentId).Succeeds db now) ∧
    ((routeConversation tenantId id).Succeeds db now →
      ∃ agentId ∈ (db.capacityEligible c teamId).map (·.agentId),
        ((routeConversation tenantId id).perform db now).1 = db.assignAgent id (some agentId)) := by
  have hclaim : ∀ agentId, (claimConversation tenantId id agentId).Succeeds db now ↔
      db.admitsAgent c teamId agentId = true := fun agentId =>
    succeeds_iff_of_if (perform_claim h hunassigned hteam agentId now)
  have hupdate : ∀ agentId,
      (updateConversation tenantId id ⟨none, none, some (some agentId), none⟩ startedAt).Succeeds
        db now ↔ db.admitsAgent c teamId agentId = true := fun agentId =>
    succeeds_iff_of_if (perform_update h hunassigned hteam agentId startedAt now)
  refine ⟨fun agentId => ⟨(hclaim agentId).trans (hupdate agentId).symm,
    (hclaim agentId).trans mem_map_capacityEligible.symm⟩, ?_⟩
  have hrun := perform_route h hunassigned hteam hactive now
  cases hselect : selectLeastLoaded (db.load tenantId) (db.capacityEligible c teamId) with
  | none =>
      rw [hselect] at hrun
      obtain ⟨message, hrun⟩ := hrun
      have hfails : ¬ (routeConversation tenantId id).Succeeds db now := by
        rintro ⟨changed, hok⟩
        rw [hrun] at hok
        cases hok
      rw [selectLeastLoaded_eq_none] at hselect
      refine ⟨⟨fun hsucceeds => absurd hsucceeds hfails, ?_⟩, fun hsucceeds =>
        absurd hsucceeds hfails⟩
      rintro ⟨agentId, hsucceeds⟩
      have hmem := mem_map_capacityEligible.mpr ((hclaim agentId).mp hsucceeds)
      rw [hselect] at hmem
      cases hmem
  | some agent =>
      rw [hselect] at hrun
      obtain ⟨hmem, -⟩ := selectLeastLoaded_spec hselect pairwise_capacityEligible
      have hsucceeds : (routeConversation tenantId id).Succeeds db now := ⟨true, by rw [hrun]⟩
      refine ⟨⟨fun _ => ⟨agent.agentId, ?_⟩, fun _ => hsucceeds⟩, fun _ =>
        ⟨agent.agentId, List.mem_map_of_mem hmem, by rw [hrun]⟩⟩
      exact (hclaim agent.agentId).mpr (mem_capacityEligible.mp hmem).2

/-- What is routed in the sample is claimed as well. -/
theorem admission_agrees_sample :
    (routeConversation 1 9).Succeeds sampleTeam 200 ∧
      ∃ agentId, (claimConversation 1 9 agentId).Succeeds sampleTeam 200 := by
  have hok : ((routeConversation 1 9).perform sampleTeam 200).2.toBool = true := by decide
  have hsucceeds : (routeConversation 1 9).Succeeds sampleTeam 200 := by
    unfold InboxRequest.Succeeds
    rcases hresult : ((routeConversation 1 9).perform sampleTeam 200).2 with error | changed
    · rw [hresult] at hok
      cases hok
    · exact ⟨changed, rfl⟩
  have hfound : sampleTeam.conversationOf 1 9 = some (.opened 9 1 2 7 100) := by decide
  have hteam : sampleTeam.teamOf (.opened 9 1 2 7 100) = some 5 := by decide
  obtain ⟨-, hroute, -⟩ := admission_agrees hfound rfl hteam (by decide) 150 200
  exact ⟨hsucceeds, hroute.mp hsucceeds⟩

end results

end ApiWhatsApp
