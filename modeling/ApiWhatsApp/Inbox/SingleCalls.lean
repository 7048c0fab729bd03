import ApiWhatsApp.Inbox.Admission

/-!
# One call of the inbox at a time

What `claimConversation`, `updateConversation` and `routeConversation` do when nothing else runs.

* `InboxRequest.perform` runs a call from its first statement to its commit or its error;
  **`exec_perform`** — the machine of `Admission.step` does the same.
* `Leads` bounds the statements between two stages of a call; `perform_of_ready` and
  `perform_of_failed` read the result of a call from the stage that it comes to.
* `leads_checking` — a list of checks comes to the write when all of them pass, and to an error
  otherwise.
* `Db.admitsAgent` is the admission policy of the inbox. **`perform_claim`** and **`perform_update`**:
  a claim of an unassigned conversation, and an update that assigns only an agent, come to their
  write exactly when the policy admits the agent.
-/

namespace ApiWhatsApp

open Library

/-! ## Running a call -/

namespace InboxRequest

variable (db : Db) (request : InboxRequest)

/-- The stage after the next statement. -/
def stepStage (stage : AdmissionStage) : AdmissionStage :=
  (Txn.mk request [] stage).nextStage db

/-- The stage that a call comes to; routing locks the members of a team one by one, and there are
fewer than twenty other statements. -/
def settled : AdmissionStage :=
  (request.stepStage db)^[db.teamMembers.rows.length + 20] .lockConversation

/-- A call that runs alone: the database after it, and what it returns or throws. -/
def perform (now : Time) : Db × Except InboxError Bool :=
  match request.settled db with
  | .ready _ admitted =>
      match request.write db admitted now with
      | some db' => (db', .ok true)
      | none => (db, .error .interrupted)
  | .returned changed => (db, .ok changed)
  | .failed error => (db, .error error)
  | _ => (db, .error .interrupted)

/-- A stage leads to another one within `k` statements. -/
def Leads (k : ℕ) (stage stage' : AdmissionStage) : Prop :=
  ∃ n ≤ k, (request.stepStage db)^[n] stage = stage'

end InboxRequest

section leads

variable {db : Db} {request : InboxRequest} {k m : ℕ} {a b c : AdmissionStage}

open InboxRequest

/-- No statement leads nowhere. -/
theorem InboxRequest.Leads.refl : request.Leads db k a a := ⟨0, Nat.zero_le k, rfl⟩

/-- One statement first. -/
theorem InboxRequest.Leads.head (h : request.stepStage db a = b) (hrest : request.Leads db k b c) :
    request.Leads db (k + 1) a c := by
  obtain ⟨n, hn, hiter⟩ := hrest
  refine ⟨n + 1, by omega, ?_⟩
  rw [Function.iterate_succ_apply, h]
  exact hiter

/-- Two runs of statements are one. -/
theorem InboxRequest.Leads.trans (h : request.Leads db k a b) (h' : request.Leads db m b c) :
    request.Leads db (k + m) a c := by
  obtain ⟨n, hn, hiter⟩ := h
  obtain ⟨n', hn', hiter'⟩ := h'
  refine ⟨n' + n, by omega, ?_⟩
  rw [Function.iterate_add_apply, hiter]
  exact hiter'

/-- More statements may be allowed. -/
theorem InboxRequest.Leads.mono (h : request.Leads db k a b) (hle : k ≤ m) : request.Leads db m a b := by
  obtain ⟨n, hn, hiter⟩ := h
  exact ⟨n, hn.trans hle, hiter⟩

/-- The end may be put in other words. -/
theorem InboxRequest.Leads.to_eq (h : request.Leads db k a b) (heq : b = c) :
    request.Leads db k a c := heq ▸ h

/-- A call comes to a stage that it does not leave. -/
theorem settled_of_leads
    (h : request.Leads db (db.teamMembers.rows.length + 20) .lockConversation a)
    (hdone : request.stepStage db a = a) : request.settled db = a := by
  obtain ⟨n, hn, hiter⟩ := h
  obtain ⟨rest, hrest⟩ := Nat.exists_eq_add_of_le' hn
  rw [settled, hrest, Function.iterate_add_apply, hiter]
  exact Function.iterate_fixed hdone rest

/-- The write of a call that comes to its write. -/
theorem perform_of_ready {existing : Conversation} {admitted : Option LockedAgentCapacity}
    {now : Time} {db' : Db}
    (h : request.Leads db (db.teamMembers.rows.length + 20) .lockConversation
      (.ready existing admitted))
    (hwrite : request.write db admitted now = some db') :
    request.perform db now = (db', .ok true) := by
  rw [perform, settled_of_leads h rfl]
  dsimp only
  rw [hwrite]

/-- A call that fails writes nothing. -/
theorem perform_of_failed {error : InboxError} {now : Time}
    (h : request.Leads db (db.teamMembers.rows.length + 20) .lockConversation (.failed error)) :
    request.perform db now = (db, .error error) := by
  rw [perform, settled_of_leads h rfl]

/-- A call that returns early writes nothing. -/
theorem perform_of_returned {changed : Bool} {now : Time}
    (h : request.Leads db (db.teamMembers.rows.length + 20) .lockConversation
      (.returned changed)) : request.perform db now = (db, .ok changed) := by
  rw [perform, settled_of_leads h rfl]

end leads

/-! ## The machine -/

/-- A statement of a call that runs alone waits for nobody. -/
theorem step_runs_alone (db : Db) (t : Txn) :
    Admission.step ⟨db, [t]⟩ (.runs 0) = some ⟨db, [t.next db]⟩ := by
  have hfree : (t.wants db).all (freeFor Txn.locks [t] 0) = true := by
    cases t.wants db with
    | none => rfl
    | some lock => simp [freeFor]
  simp [Admission.step, hfree]

/-- After `n` statements of a call that runs alone. -/
theorem exec_runs_alone (db : Db) (request : InboxRequest) (n : ℕ) {t : Txn}
    (hrequest : t.request = request) :
    ∃ t', (∀ acts, exec Admission.step ⟨db, [t]⟩ (List.replicate n (.runs 0) ++ acts) =
        exec Admission.step ⟨db, [t']⟩ acts) ∧
      t'.request = request ∧ t'.stage = (request.stepStage db)^[n] t.stage := by
  induction n generalizing t with
  | zero => exact ⟨t, fun _ => rfl, hrequest, rfl⟩
  | succ n ih =>
      have hstage : (t.next db).stage = request.stepStage db t.stage := by
        subst hrequest
        rfl
      have hnext : (t.next db).request = request := hrequest
      obtain ⟨t', hexec, hrequest', hstage'⟩ := ih hnext
      refine ⟨t', fun acts => ?_, hrequest', ?_⟩
      · rw [List.replicate_succ, List.cons_append, exec, step_runs_alone]
        exact hexec acts
      · rw [hstage', hstage, Function.iterate_succ_apply]

/-- **The machine** takes a call that runs alone to the same database and the same result. -/
theorem exec_perform (db : Db) (request : InboxRequest) (now : Time)
    (hresult : (request.perform db now).2 ≠ .error .interrupted) :
    ∃ acts t, exec Admission.step ⟨db, [⟨request, [], .lockConversation⟩]⟩ acts =
        some ⟨(request.perform db now).1, [t]⟩ ∧
      match (request.perform db now).2 with
      | .ok changed => t.stage = .returned changed
      | .error error => t.stage = .failed error := by
  obtain ⟨t, hexec, hrequest, hstage⟩ := exec_runs_alone db request
    (db.teamMembers.rows.length + 20) (t := ⟨request, [], .lockConversation⟩) rfl
  have hsettled : t.stage = request.settled db := hstage
  unfold InboxRequest.perform at hresult ⊢
  split at hresult
  · next existing admitted hready =>
      split at hresult
      · next db' hwrite =>
          refine ⟨_ ++ [.commits 0 now], t.enter t.locks (.returned true), (hexec _).trans ?_, rfl⟩
          rw [hready] at hsettled
          simp [exec, Admission.step, hsettled, hrequest, hwrite]
      · exact absurd rfl hresult
  · next changed hreturned =>
      exact ⟨_ ++ [], t, hexec _, by rw [hsettled, hreturned]⟩
  · next error hfailed =>
      exact ⟨_ ++ [], t, hexec _, by rw [hsettled, hfailed]⟩
  · exact absurd rfl hresult

/-! ## Checks -/

namespace AdmissionCheck

/-- What a check asks for. -/
def passes (db : Db) (tenantId conversationId : Uuid) : AdmissionCheck → Bool
  | activeTeam teamId _ => db.isActiveTeam tenantId teamId
  | membership teamId agentId _ => db.isMember tenantId teamId agentId
  | skills agentId _ =>
      (db.lockRequirements tenantId conversationId).all (·.active) &&
        db.meetsSkills tenantId agentId (db.lockRequirements tenantId conversationId)
  | proficiencies agentId requirements _ => db.meetsSkills tenantId agentId requirements
  | available agent _ => agent.presenceStatus = .available
  | capacity agent _ =>
      agent.maxConcurrentConversations.all fun limit => db.load tenantId agent.agentId < limit

variable {db : Db} {tenantId conversationId : Uuid} {check : AdmissionCheck}

/-- A check that passes runs one statement, or two for skills. -/
theorem run_of_passes (h : check.passes db tenantId conversationId = true) :
    check.run db tenantId conversationId = .ok [] ∨
      ∃ next, check.run db tenantId conversationId = .ok [next] ∧
        next.run db tenantId conversationId = .ok [] := by
  cases check with
  | activeTeam teamId message => exact .inl (if_pos h)
  | membership teamId agentId message => exact .inl (if_pos h)
  | skills agentId message =>
      obtain ⟨hactive, hmeets⟩ := Bool.and_eq_true_iff.mp h
      have hinactive : (db.lockRequirements tenantId conversationId).any
          (fun requirement => !requirement.active) = false := by
        simpa [List.all_eq_true] using hactive
      unfold run
      dsimp only
      split_ifs with hempty
      · exact .inl rfl
      · rw [hinactive] at *
        contradiction
      · exact .inr ⟨_, rfl, if_pos hmeets⟩
  | proficiencies agentId requirements message => exact .inl (if_pos h)
  | available agent message => exact .inl (if_pos (of_decide_eq_true h))
  | capacity agent message =>
      refine .inl ?_
      unfold run
      dsimp only
      cases hlimit : agent.maxConcurrentConversations with
      | none => rfl
      | some limit =>
          rw [passes, hlimit, Option.all_some, decide_eq_true_eq] at h
          exact if_neg (Nat.not_le.mpr h)

/-- A check that does not pass throws. -/
theorem run_of_not_passes (h : check.passes db tenantId conversationId = false) :
    (∃ message, check.run db tenantId conversationId = .error (.unprocessable message)) ∨
      ∃ next message, check.run db tenantId conversationId = .ok [next] ∧
        next.run db tenantId conversationId = .error (.unprocessable message) := by
  cases check with
  | activeTeam teamId message => exact .inl ⟨message, if_neg (Bool.not_eq_true _ ▸ h)⟩
  | membership teamId agentId message => exact .inl ⟨message, if_neg (Bool.not_eq_true _ ▸ h)⟩
  | skills agentId message =>
      unfold run
      dsimp only
      split_ifs with hempty hinactive
      · rw [List.isEmpty_iff] at hempty
        simp [passes, hempty, Db.meetsSkills] at h
      · exact .inl ⟨_, rfl⟩
      · have hactive : (db.lockRequirements tenantId conversationId).all (·.active) = true := by
          simpa [List.all_eq_true] using hinactive
        rw [passes, hactive, Bool.true_and] at h
        exact .inr ⟨_, message, rfl, if_neg (Bool.not_eq_true _ ▸ h)⟩
  | proficiencies agentId requirements message =>
      exact .inl ⟨message, if_neg (Bool.not_eq_true _ ▸ h)⟩
  | available agent message => exact .inl ⟨message, if_neg (of_decide_eq_false h)⟩
  | capacity agent message =>
      refine .inl ⟨message, ?_⟩
      unfold run
      dsimp only
      cases hlimit : agent.maxConcurrentConversations with
      | none =>
          rw [passes, hlimit] at h
          cases h
      | some limit =>
          rw [passes, hlimit, Option.all_some, decide_eq_false_iff_not, Nat.not_lt] at h
          exact if_pos h

end AdmissionCheck

section checks

variable {db : Db} {request : InboxRequest} {existing : Conversation}
  {admitted : Option LockedAgentCapacity}

open InboxRequest

/-- The stage after a check that has nothing left to do. -/
theorem leads_checking_ok {check : AdmissionCheck} {rest : List AdmissionCheck} {k : ℕ}
    {stage : AdmissionStage}
    (hrun : check.run db request.tenantId request.id = .ok [])
    (hrest : request.Leads db k (.checking existing admitted rest) stage)
    (hstage : request.stepStage db stage = stage) :
    request.Leads db (k + 1) (.checking existing admitted (check :: rest)) stage := by
  cases rest with
  | nil =>
      -- the code goes straight to the write
      have hready : request.stepStage db (.checking existing admitted [check]) =
          .ready existing admitted := by
        simp [stepStage, Txn.nextStage, hrun]
      have hsame : stage = .ready existing admitted := by
        obtain ⟨n, hn, hiter⟩ := hrest
        cases n with
        | zero =>
            rw [← hiter] at hstage
            cases hstage
        | succ n =>
            rw [Function.iterate_succ_apply] at hiter
            rw [← hiter]
            exact Function.iterate_fixed rfl n
      rw [hsame]
      exact Leads.head hready Leads.refl
  | cons next rest =>
      refine Leads.head ?_ hrest
      simp [stepStage, Txn.nextStage, hrun]

/-- A check that comes to another one first. -/
theorem leads_checking_next {check next : AdmissionCheck} {rest : List AdmissionCheck} {k : ℕ}
    {stage : AdmissionStage}
    (hrun : check.run db request.tenantId request.id = .ok [next])
    (hrest : request.Leads db k (.checking existing admitted (next :: rest)) stage) :
    request.Leads db (k + 1) (.checking existing admitted (check :: rest)) stage := by
  refine Leads.head ?_ hrest
  simp [stepStage, Txn.nextStage, hrun]

/-- A check that throws. -/
theorem leads_checking_error {check : AdmissionCheck} {rest : List AdmissionCheck}
    {error : InboxError} (k : ℕ) (hrun : check.run db request.tenantId request.id = .error error) :
    request.Leads db (k + 1) (.checking existing admitted (check :: rest)) (.failed error) := by
  refine Leads.head ?_ Leads.refl
  simp [stepStage, Txn.nextStage, hrun]

/-- **Checks** that all pass come to the write. -/
theorem leads_checking (checks : List AdmissionCheck)
    (h : ∀ check ∈ checks, check.passes db request.tenantId request.id = true) :
    request.Leads db (2 * checks.length + 1) (.checking existing admitted checks)
      (.ready existing admitted) := by
  induction checks with
  | nil => exact Leads.head rfl Leads.refl
  | cons check rest ih =>
      have hrest := ih fun c hc => h c (List.mem_cons_of_mem _ hc)
      rcases AdmissionCheck.run_of_passes (h check List.mem_cons_self) with
        hrun | ⟨next, hrun, hnext⟩
      · exact (leads_checking_ok hrun hrest rfl).mono (by rw [List.length_cons]; omega)
      · exact (leads_checking_next hrun (leads_checking_ok hnext hrest rfl)).mono
          (by rw [List.length_cons]; omega)

/-- **Checks** of which one does not pass come to an error. -/
theorem leads_checking_failed (checks : List AdmissionCheck)
    (h : ∃ check ∈ checks, check.passes db request.tenantId request.id = false) :
    ∃ message, request.Leads db (2 * checks.length) (.checking existing admitted checks)
      (.failed (.unprocessable message)) := by
  induction checks with
  | nil =>
      obtain ⟨check, hcheck, -⟩ := h
      cases hcheck
  | cons check rest ih =>
      cases hpasses : check.passes db request.tenantId request.id with
      | false =>
          rcases AdmissionCheck.run_of_not_passes hpasses with
            ⟨message, hrun⟩ | ⟨next, message, hrun, hnext⟩
          · exact ⟨message, (leads_checking_error 0 hrun).mono (by rw [List.length_cons]; omega)⟩
          · exact ⟨message, (leads_checking_next hrun (leads_checking_error 0 hnext)).mono
              (by simp)⟩
      | true =>
          have hlater : ∃ c ∈ rest, c.passes db request.tenantId request.id = false := by
            obtain ⟨c, hc, hfails⟩ := h
            rcases List.mem_cons.mp hc with rfl | hc
            · rw [hpasses] at hfails
              cases hfails
            · exact ⟨c, hc, hfails⟩
          obtain ⟨message, hrest⟩ := ih hlater
          refine ⟨message, ?_⟩
          rcases AdmissionCheck.run_of_passes hpasses with hrun | ⟨next, hrun, hnext⟩
          · exact (leads_checking_ok hrun hrest rfl).mono (by rw [List.length_cons]; omega)
          · exact (leads_checking_next hrun (leads_checking_ok hnext hrest rfl)).mono
              (by rw [List.length_cons]; omega)

end checks

/-! ## The admission policy -/

/-- The agent is active and available, a member of the team, meets the requirements of the
conversation, none of which is inactive, and has room for one more conversation. -/
def Db.admitsAgent (db : Db) (c : Conversation) (teamId agentId : Uuid) : Bool :=
  db.isMember c.tenantId teamId agentId &&
  (db.lockRequirements c.tenantId c.id).all (·.active) &&
  db.meetsSkills c.tenantId agentId (db.lockRequirements c.tenantId c.id) &&
  (db.activeAgent c.tenantId agentId).any fun agent =>
    agent.presenceStatus = .available &&
      agent.maxConcurrentConversations.all fun limit => db.load c.tenantId agentId < limit

section policy

variable {db : Db} {tenantId id : Uuid} {c : Conversation}

open InboxRequest

/-- A conversation that is found is the one of the tenant. -/
theorem of_conversationOf (h : db.conversationOf tenantId id = some c) :
    c.id = id ∧ c.tenantId = tenantId := by
  obtain ⟨hfind, htenant⟩ := Option.filter_eq_some_iff.mp h
  have hkey := (db.conversations.find_eq_some_iff.mp hfind).2
  exact ⟨mem_keys_conversation_id.mp hkey, by simpa using htenant⟩

/-- An active agent is the one that was asked for. -/
theorem id_of_activeAgent {agentId : Uuid} {agent : InboxAgent}
    (h : db.activeAgent tenantId agentId = some agent) : agent.id = agentId := by
  obtain ⟨hagent, -⟩ := Option.filter_eq_some_iff.mp h
  obtain ⟨hfind, -⟩ := Option.filter_eq_some_iff.mp hagent
  simpa [Keyed.keys, eq_comm] using (db.inboxAgents.find_eq_some_iff.mp hfind).2

/-- The first two statements of every call. -/
theorem leads_found {request : InboxRequest} {k : ℕ} {stage : AdmissionStage}
    (h : db.conversationOf request.tenantId request.id = some c)
    (hrest : request.Leads db k (request.afterFind c (db.teamOf c)) stage) :
    request.Leads db (k + 2) .lockConversation stage := by
  refine Leads.head rfl (Leads.head ?_ hrest)
  simp [stepStage, Txn.nextStage, h]

/-- The two queries of `lockActiveAgentCapacity`. -/
theorem leads_agent {request : InboxRequest} {team : Option Uuid} {agentId : Uuid} {k : ℕ}
    {stage : AdmissionStage} {agent : InboxAgent}
    (h : db.activeAgent request.tenantId agentId = some agent)
    (hrest : request.Leads db k (request.afterAgent c team agent.capacity) stage) :
    request.Leads db (k + 2) (.lockAgent c team agentId) stage := by
  refine Leads.head rfl (Leads.head ?_ hrest)
  simp [stepStage, Txn.nextStage, h]

/-- Without the agent the call fails. -/
theorem leads_agent_failed {request : InboxRequest} {team : Option Uuid} {agentId : Uuid}
    (h : db.activeAgent request.tenantId agentId = none) :
    request.Leads db 2 (.lockAgent c team agentId)
      (.failed (.unprocessable request.inactiveMessage)) := by
  refine Leads.head rfl (Leads.head ?_ Leads.refl)
  simp [stepStage, Txn.nextStage, h]

/-- What the policy asks of an active agent, as the checks of a claim or an update have it. -/
theorem admits_iff {teamId agentId : Uuid} {agent : InboxAgent}
    (hactive : db.activeAgent c.tenantId agentId = some agent) :
    db.admitsAgent c teamId agentId = true ↔
      agent.capacity.presenceStatus = .available ∧ db.isMember c.tenantId teamId agentId = true ∧
      ((db.lockRequirements c.tenantId c.id).all (·.active) = true ∧
        db.meetsSkills c.tenantId agentId (db.lockRequirements c.tenantId c.id) = true) ∧
      (agent.capacity.maxConcurrentConversations.all fun limit =>
        db.load c.tenantId agent.capacity.agentId < limit) = true := by
  have hid := id_of_activeAgent hactive
  simp only [Db.admitsAgent, hactive, Option.any_some, Bool.and_eq_true, InboxAgent.capacity, hid,
    decide_eq_true_eq]
  tauto

/-- Without the agent nothing is admitted. -/
theorem admits_eq_false {teamId agentId : Uuid} (h : db.activeAgent c.tenantId agentId = none) :
    db.admitsAgent c teamId agentId = false := by
  simp [Db.admitsAgent, h]

/-- A call that looks up one agent and then makes the checks of the policy. -/
theorem perform_admission {request : InboxRequest} {teamId agentId : Uuid} {db' : Db} {now : Time}
    (checks : InboxAgent → List AdmissionCheck)
    (h : db.conversationOf request.tenantId request.id = some c)
    (hfind : request.afterFind c (db.teamOf c) = .lockAgent c (db.teamOf c) agentId)
    (hagent : ∀ agent, request.afterAgent c (db.teamOf c) agent.capacity =
      .checking c (some agent.capacity) (checks agent))
    (hlength : ∀ agent, (checks agent).length ≤ 4)
    (hchecks : ∀ agent, db.activeAgent c.tenantId agentId = some agent →
      (db.admitsAgent c teamId agentId = true ↔
        ∀ check ∈ checks agent, check.passes db c.tenantId c.id = true))
    (hwrite : ∀ admitted, request.write db admitted now = some db') :
    if db.admitsAgent c teamId agentId then request.perform db now = (db', .ok true)
    else ∃ message, request.perform db now = (db, .error (.unprocessable message)) := by
  obtain ⟨hid, htenant⟩ := of_conversationOf h
  rw [hid, htenant] at hchecks
  cases hactive : db.activeAgent request.tenantId agentId with
  | none =>
      have hrefused : db.admitsAgent c teamId agentId = false := by
        rw [← htenant] at hactive
        exact admits_eq_false hactive
      rw [hrefused, if_neg Bool.false_ne_true]
      have hleads : request.Leads db 4 .lockConversation
          (.failed (.unprocessable request.inactiveMessage)) :=
        leads_found h (by rw [hfind]; exact leads_agent_failed hactive)
      exact ⟨_, perform_of_failed (hleads.mono (by omega))⟩
  | some agent =>
      have hlength := hlength agent
      have hreaches : ∀ {k : ℕ} {stage : AdmissionStage}, k ≤ 9 →
          request.Leads db k (.checking c (some agent.capacity) (checks agent)) stage →
            request.Leads db (db.teamMembers.rows.length + 20) .lockConversation stage := by
        intro k stage hk hchecking
        rw [← hagent] at hchecking
        have hleads := leads_agent hactive hchecking
        rw [← hfind] at hleads
        exact (leads_found h hleads).mono (by omega)
      split_ifs with hadmits
      · refine perform_of_ready (hreaches ?_ (leads_checking _ ?_)) (hwrite _)
        · omega
        · exact (hchecks agent hactive).mp hadmits
      · have hfails : ∃ check ∈ checks agent,
            check.passes db request.tenantId request.id = false := by
          by_contra hnone
          push Not at hnone
          refine hadmits ((hchecks agent hactive).mpr fun check hcheck => ?_)
          simpa using hnone check hcheck
        obtain ⟨message, hchecking⟩ := leads_checking_failed (checks agent) hfails
        exact ⟨message, perform_of_failed (hreaches (by omega) hchecking)⟩

/-- **A claim** of an unassigned conversation with a team. -/
theorem perform_claim {teamId : Uuid} (h : db.conversationOf tenantId id = some c)
    (hunassigned : c.assignedAgentId = none) (hteam : db.teamOf c = some teamId) (agentId : Uuid)
    (now : Time) :
    if db.admitsAgent c teamId agentId then
      (claimConversation tenantId id agentId).perform db now =
        (db.assignAgent id (some agentId), .ok true)
    else ∃ message, (claimConversation tenantId id agentId).perform db now =
      (db, .error (.unprocessable message)) := by
  refine perform_admission (fun agent =>
    [.available agent.capacity "Inbox agent is not available for new conversations",
      .membership teamId agentId "Inbox agent is not a member of the assigned team",
      .skills agentId "Inbox agent does not satisfy conversation skill requirements",
      .capacity agent.capacity "Inbox agent has no remaining conversation capacity"])
    h rfl (fun agent => ?_) (fun _ => le_rfl) (fun agent hactive => ?_) fun _ => rfl
  · simp [afterAgent, claimStage, hunassigned, hteam]
  · rw [admits_iff hactive]
    simp [AdmissionCheck.passes]

/-- **An update** of an unassigned conversation with a team that assigns only an agent. -/
theorem perform_update {teamId : Uuid} (h : db.conversationOf tenantId id = some c)
    (hunassigned : c.assignedAgentId = none) (hteam : db.teamOf c = some teamId) (agentId : Uuid)
    (startedAt now : Time) :
    if db.admitsAgent c teamId agentId then
      (updateConversation tenantId id ⟨none, none, some (some agentId), none⟩ startedAt).perform db
        now = (db.updateConversationRow id ⟨none, none, some (some agentId), none⟩ now, .ok true)
    else ∃ message,
      (updateConversation tenantId id ⟨none, none, some (some agentId), none⟩ startedAt).perform db
        now = (db, .error (.unprocessable message)) := by
  refine perform_admission (fun agent =>
    [.membership teamId agentId "Assigned inbox agent is not a member of the assigned team",
      .skills agentId "Assigned inbox agent does not satisfy conversation skill requirements",
      .available agent.capacity "Assigned inbox agent is not available for new conversations",
      .capacity agent.capacity "Assigned inbox agent has no remaining conversation capacity"])
    h rfl (fun agent => ?_) (fun _ => le_rfl) (fun agent hactive => ?_) fun _ => rfl
  · simp [afterAgent, updateStage, UpdateConversationDto.newAgentAdmission,
      UpdateConversationDto.finalAgentId, hunassigned, hteam]
  · rw [admits_iff hactive]
    simp only [List.forall_mem_cons, AdmissionCheck.passes, Bool.and_eq_true, decide_eq_true_eq,
      List.not_mem_nil, false_implies, implies_true, and_true]
    tauto

end policy

end ApiWhatsApp
