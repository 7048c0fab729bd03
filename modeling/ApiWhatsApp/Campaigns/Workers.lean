import ApiWhatsApp.Campaigns.Processor

/-!
# Operators and workers

The calls of `campaigns/campaigns.service.ts`, and everyone who writes campaigns.

* `Operator` is one call of `launch`, `pause`, `resume` or `cancel`, stopped at every `await`;
  `Operator.statement_moves` says how it can go on.
* `Worker` is a pass, an operator, or an API call of `MessagesService.create`. `Worker.step` makes a
  statement wait while another transaction holds a row that it would write (`Held`).
* **`step_tables`** says what a step of a worker does to campaigns and recipients, `write_cases` which
  statement a worker runs where, `campaigns_step` and `refresh_step` which campaigns it refreshes.
-/

namespace ApiWhatsApp

open Library

/-! ## Operators -/

/-- Where a call of an operator stands. -/
inductive OperatorStage where
  | launch
  /-- The transaction of `launch` has locked the campaign and read its contacts. -/
  | launching (contactIds : List Uuid)
  | pause
  | resume
  | resuming (status : CampaignStatus) (startedAt : Option Time)
  | cancel
  | cancelTransaction (cancelledAt : Time)
  /-- The transaction of `cancel` has run its statements. -/
  | cancelling (cancelledAt : Time) (pending : List Uuid)
  | refresh (refresh : Refresh)
  /-- The read after an update that matched nothing: the call succeeds in this status. -/
  | recheck (accepted : Option CampaignStatus) (participle : String)
  | replied (reply : Except HttpError Unit)
  | crashed

/-- One call of `launch`, `pause`, `resume` or `cancel`. -/
structure Operator where
  tenantId : Uuid
  id : Uuid
  stage : OperatorStage

namespace Operator

variable (env : CampaignEnv)

/-- The error of a transition from a wrong status. -/
def conflict (status : CampaignStatus) (participle : String) : HttpError :=
  .conflict s!"Campaign in {status.text} state cannot be {participle}"

/-- The campaign that an operator names. -/
def campaign (db : Db) (o : Operator) : Option Campaign := db.campaign o.tenantId o.id

/-- The error of a campaign that the tenant does not have. -/
def missing : OperatorStage := .replied (.error (.notFound "Campaign not found"))

/-- The transaction of `launch` up to its last statement. -/
def prepareLaunch (db : Db) (o : Operator) : OperatorStage :=
  match db.prepareLaunch env.config o.tenantId o.id with
  | .error error => .replied (.error error)
  | .ok none => .replied (.ok ())
  | .ok (some contactIds) => .launching contactIds

/-- The code of `resume` between its read and its update. -/
def prepareResume (db : Db) (now : Time) (o : Operator) : OperatorStage :=
  match o.campaign db with
  | none => missing
  | some c =>
      if c.status ≠ .paused then .replied (.error (conflict c.status "resumed"))
      else if c.scheduledAt.any fun scheduledAt => now < scheduledAt then .resuming .scheduled none
      else .resuming .running (if c.startedAt.isSome then none else some now)

/-- The code of `cancel` between its read and its transaction. -/
def prepareCancel (db : Db) (now : Time) (o : Operator) : OperatorStage :=
  match o.campaign db with
  | none => missing
  | some c =>
      if c.status = .cancelled then .replied (.ok ())
      else if c.status = .completed || c.status = .failed then
        .replied (.error (conflict c.status "cancelled"))
      else .cancelTransaction now

/-- The read after an update that matched nothing. -/
def afterRecheck (db : Db) (o : Operator) (accepted : Option CampaignStatus) (participle : String) :
    OperatorStage :=
  match o.campaign db with
  | none => missing
  | some c =>
      if accepted = some c.status then .replied (.ok ())
      else .replied (.error (conflict c.status participle))

/-- The pending call of an operator: what it writes, and where the call goes on. -/
def statement (db : Db) (now : Time) (ids : List Uuid) (o : Operator) :
    Option (Option CampaignWrite × OperatorStage) :=
  match o.stage with
  | .launch => some (none, o.prepareLaunch env db)
  | .launching contactIds =>
      -- The database draws fresh ids for the new recipients.
      if ids.length = contactIds.length && ids.Nodup &&
          ids.all fun id => (db.recipients.find (.id id)).isNone then
        some (some (.launch o.id contactIds ids now), .replied (.ok ()))
      else none
  | .pause => some (some (.pause o.tenantId o.id),
      if (o.campaign db).any (CampaignWrite.pause o.tenantId o.id).targets then .replied (.ok ())
      else .recheck (some .paused) "paused")
  | .resume => some (none, o.prepareResume db now)
  | .resuming status startedAt => some (some (.resume o.tenantId o.id status startedAt),
      if (o.campaign db).any fun c => c.status = .paused then .replied (.ok ())
      else .recheck none "resumed")
  | .cancel => some (none, o.prepareCancel db now)
  | .cancelTransaction cancelledAt => some (none,
      if (o.campaign db).any (CampaignWrite.cancel o.tenantId o.id cancelledAt []).targets then
        .cancelling cancelledAt (db.pendingRecipients o.id)
      else .recheck (some .cancelled) "cancelled")
  | .cancelling cancelledAt pending =>
      some (some (.cancel o.tenantId o.id cancelledAt pending),
        .refresh { campaignId := o.id, stage := .aggregate })
  | .refresh refresh => some ((refresh.pending db now).1,
      match (refresh.pending db now).2 with
      | some refresh => .refresh refresh
      | none => .replied (.ok ()))
  | .recheck accepted participle => some (none, o.afterRecheck db accepted participle)
  | .replied _ | .crashed => none

/-- The same as a call whose error is the reply. -/
def pending (db : Db) (now : Time) (ids : List Uuid) (o : Operator) :
    Option (PendingCall Operator) :=
  (o.statement env db now ids).map fun (write, stage) =>
    { write := write
      returned := { o with stage := stage }
      threw := fun message => { o with stage := .replied (.error (.other message)) } }

/-! ## What an operator can do next -/

/-- The stages in which a call holds nothing and is in no `refreshStats`. -/
def isQuiet : OperatorStage → Bool
  | .launch | .pause | .resume | .cancel | .cancelTransaction _ | .recheck _ _ | .replied _
  | .crashed => true
  | .launching _ | .resuming _ _ | .cancelling _ _ | .refresh _ => false

/-- What a call that returns writes, and where the operator goes on. -/
inductive Moves (env : CampaignEnv) (db : Db) (now : Time) (ids : List Uuid) (o : Operator) :
    Option CampaignWrite → OperatorStage → Prop where
  | quiet (stage : OperatorStage) (hstage : isQuiet o.stage = true) (hquiet : isQuiet stage = true) :
      Moves env db now ids o none stage
  | launching (contactIds : List Uuid) (hstage : o.stage = .launch)
      (h : db.prepareLaunch env.config o.tenantId o.id = .ok (some contactIds)) :
      Moves env db now ids o none (.launching contactIds)
  | launched (contactIds : List Uuid) (hstage : o.stage = .launching contactIds)
      (hlength : ids.length = contactIds.length) (hnodup : ids.Nodup)
      (hfresh : ∀ id ∈ ids, db.recipients.find (.id id) = none) :
      Moves env db now ids o (some (.launch o.id contactIds ids now)) (.replied (.ok ()))
  | paused (stage : OperatorStage) (hstage : o.stage = .pause) (hquiet : isQuiet stage = true) :
      Moves env db now ids o (some (.pause o.tenantId o.id)) stage
  | resuming (status : CampaignStatus) (startedAt : Option Time) (hstage : o.stage = .resume)
      (h : status = .scheduled ∨ status = .running) :
      Moves env db now ids o none (.resuming status startedAt)
  | resumed (status : CampaignStatus) (startedAt : Option Time) (stage : OperatorStage)
      (hstage : o.stage = .resuming status startedAt) (hquiet : isQuiet stage = true) :
      Moves env db now ids o (some (.resume o.tenantId o.id status startedAt)) stage
  | cancelling (cancelledAt : Time) (c : Campaign) (hstage : o.stage = .cancelTransaction cancelledAt)
      (hc : o.campaign db = some c)
      (h : (CampaignWrite.cancel o.tenantId o.id cancelledAt []).targets c = true) :
      Moves env db now ids o none (.cancelling cancelledAt (db.pendingRecipients o.id))
  | cancelled (cancelledAt : Time) (pending : List Uuid)
      (hstage : o.stage = .cancelling cancelledAt pending) :
      Moves env db now ids o (some (.cancel o.tenantId o.id cancelledAt pending))
        (.refresh { campaignId := o.id, stage := .aggregate })
  | refreshed (refresh : Refresh) (hstage : o.stage = .refresh refresh) :
      Moves env db now ids o (refresh.pending db now).1
        (match (refresh.pending db now).2 with
          | some refresh => .refresh refresh
          | none => .replied (.ok ()))

variable {env} {db : Db} {now : Time} {ids : List Uuid} {o : Operator}
  {write : Option CampaignWrite} {stage : OperatorStage}

/-- The preparation of a cancellation writes nothing. -/
theorem isQuiet_prepareCancel : isQuiet (o.prepareCancel db now) = true := by
  unfold prepareCancel
  split
  · rfl
  · split_ifs <;> rfl

/-- A second look writes nothing. -/
theorem isQuiet_afterRecheck {accepted : Option CampaignStatus} {participle : String} :
    isQuiet (o.afterRecheck db accepted participle) = true := by
  unfold afterRecheck
  split
  · rfl
  · split_ifs <;> rfl

/-- A statement of an operator is a move. -/
theorem statement_moves (h : o.statement env db now ids = some (write, stage)) :
    Moves env db now ids o write stage := by
  unfold statement at h
  split at h
  case h_1 hstage =>
    cases h
    unfold prepareLaunch
    split
    · exact .quiet _ (by rw [hstage]; rfl) rfl
    · exact .quiet _ (by rw [hstage]; rfl) rfl
    · exact .launching _ hstage ‹_›
  case h_2 contactIds hstage =>
    split_ifs at h with hids
    cases h
    simp only [Bool.and_eq_true, decide_eq_true_eq, List.all_eq_true, Option.isNone_iff_eq_none]
      at hids
    exact .launched contactIds hstage hids.1.1 hids.1.2 hids.2
  case h_3 hstage =>
    cases h
    exact .paused _ hstage (by split_ifs <;> rfl)
  case h_4 hstage =>
    cases h
    unfold prepareResume
    split
    · exact .quiet _ (by rw [hstage]; rfl) rfl
    · split_ifs
      · exact .quiet _ (by rw [hstage]; rfl) rfl
      · exact .resuming _ _ hstage (.inl rfl)
      · exact .resuming _ _ hstage (.inr rfl)
      · exact .resuming _ _ hstage (.inr rfl)
  case h_5 status startedAt hstage =>
    cases h
    exact .resumed status startedAt _ hstage (by split_ifs <;> rfl)
  case h_6 hstage =>
    cases h
    exact .quiet _ (by rw [hstage]; rfl) isQuiet_prepareCancel
  case h_7 cancelledAt hstage =>
    cases h
    split_ifs with htargets
    · obtain ⟨c, hc, ht⟩ := (Option.any_eq_true _ _).mp htargets
      exact .cancelling cancelledAt c hstage hc ht
    · exact .quiet _ (by rw [hstage]; rfl) rfl
  case h_8 cancelledAt pending hstage =>
    cases h
    exact .cancelled cancelledAt pending hstage
  case h_9 refresh hstage =>
    cases h
    exact .refreshed refresh hstage
  case h_10 accepted participle hstage =>
    cases h
    exact .quiet _ (by rw [hstage]; rfl) isQuiet_afterRecheck
  all_goals cases h

end Operator

/-! ## Workers and their locks -/

/-- The rows that a transaction holds. -/
structure Held where
  campaignId : Uuid
  recipients : List Uuid

/-- A pass, a call of an operator, or an API call of `MessagesService.create`. -/
inductive Worker where
  | pass (p : Pass)
  | operator (o : Operator)
  | api (call : CreateCall)

/-- One step of a worker, by what the environment decides. -/
inductive WorkerAct where
  | run (now : Time)
  | call (outcome : CallOutcome) (now : Time) (ids : List Uuid)
  /-- A step of `MessagesService.create`. -/
  | create (act : CreateAct)
  | crash

namespace Worker

/-- What a worker's transaction holds. -/
def held : Worker → Option Held
  | .pass { stage := .failing _ campaignId _ pending, .. } =>
      some { campaignId := campaignId, recipients := pending }
  | .operator { id := id, stage := .launching _, .. } => some { campaignId := id, recipients := [] }
  | .operator { id := id, stage := .cancelling _ pending, .. } =>
      some { campaignId := id, recipients := pending }
  | _ => none

/-- The pending call of a worker, other than those of `MessagesService.create`. -/
def pending (env : CampaignEnv) (db : Db) (clock now : Time) (ids : List Uuid) :
    Worker → Option (PendingCall Worker)
  | .pass p => (p.pending env db clock now ids).map fun call =>
      { write := call.write, returned := .pass call.returned, threw := fun e => .pass (call.threw e) }
  | .operator o => (o.pending env db now ids).map fun call =>
      { write := call.write, returned := .operator call.returned
        threw := fun e => .operator (call.threw e) }
  | .api _ => none

/-- A statement that would write a row that another transaction holds waits. -/
def waitsFor (db : Db) (held : Held) (write : Option CampaignWrite) (next : Worker) : Bool :=
  (write.any fun w => db.campaigns.rows.any fun c => c.id = held.campaignId && w.targets c) ||
    (match write with
      | some (.claimRecipients _ ids) => ids.any fun id => id ∈ held.recipients
      | _ => false) ||
    next.held.any fun wanted => wanted.campaignId = held.campaignId

/-- The process of a worker dies. -/
def crash : Worker → Option Worker
  | .pass p => match p.stage with
      | .finished | .crashed => none
      | _ => some (.pass { p with stage := .crashed })
  | .operator o => match o.stage with
      | .replied _ | .crashed => none
      | _ => some (.operator { o with stage := .crashed })
  | .api call => match call.stage with
      | .returned _ | .thrown _ | .crashed => none
      | _ => some (.api { call with stage := .crashed })

/-- What a step leaves: the database, the statement that took effect, and the worker. -/
structure Result where
  db : Db
  write : Option CampaignWrite
  worker : Worker

/-- One step, while other transactions hold `locks`. -/
def step (env : CampaignEnv) (db : Db) (clock : Time) (locks : List Held) (w : Worker) :
    WorkerAct → Option Result
  | .run now => match w with
      | .pass p => (p.run env now).map fun p' => { db := db, write := none, worker := .pass p' }
      | .operator _ | .api _ => none
  | .call outcome now ids => (w.pending env db clock now ids).bind fun call =>
      let next := call.next outcome
      if outcome.tookEffect then
        if locks.any fun held => waitsFor db held call.write call.returned then none
        else match call.write with
          | none => some { db := db, write := none, worker := next }
          | some write => (write.run db clock).map fun db' =>
              { db := db', write := some write, worker := next }
      else some { db := db, write := none, worker := next }
  | .create act => match w with
      | .pass { stage := .create claim loaded call, queue := queue, touched := touched } =>
          (call.step env.normalizeMediaPayload db clock act).map fun (db', call') =>
            { db := db', write := none, worker := .pass
                { queue := queue, touched := touched, stage := .create claim loaded call' } }
      | .api call => (call.step env.normalizeMediaPayload db clock act).map fun (db', call') =>
          { db := db', write := none, worker := .api call' }
      | _ => none
  | .crash => w.crash.map fun w' => { db := db, write := none, worker := w' }

/-! ## What a step of a worker can be -/

section cases

variable {env : CampaignEnv} {db : Db} {clock : Time} {locks : List Held} {w : Worker}
  {act : WorkerAct} {result : Result}

/-- The step ends the pending call `call`. -/
structure Calls (env : CampaignEnv) (db : Db) (clock : Time) (locks : List Held) (w : Worker)
    (outcome : CallOutcome) (now : Time) (ids : List Uuid) (call : PendingCall Worker)
    (result : Result) : Prop where
  pending : w.pending env db clock now ids = some call
  write : result.write = if outcome.tookEffect then call.write else none
  db_eq : result.write = none → result.db = db
  run : ∀ write, result.write = some write → write.run db clock = some result.db
  free : outcome.tookEffect = true →
    ∀ held ∈ locks, waitsFor db held call.write call.returned = false
  next : (outcome = .returned ∧ result.worker = call.returned) ∨
    (outcome ≠ .returned ∧ ∃ e, result.worker = call.threw e)

/-- A call of `MessagesService.create` goes on. -/
inductive Creates (env : CampaignEnv) (db : Db) (clock : Time) (act : CreateAct) :
    Worker → Result → Prop where
  | pass (queue : List CampaignRecipient) (touched : List Uuid) (claim : CampaignRecipient)
      (loaded : LoadedRecipient) (call call' : CreateCall) (db' : Db)
      (h : call.step env.normalizeMediaPayload db clock act = some (db', call')) :
      Creates env db clock act
        (.pass { queue := queue, touched := touched, stage := .create claim loaded call })
        { db := db', write := none, worker := .pass
            { queue := queue, touched := touched, stage := .create claim loaded call' } }
  | api (call call' : CreateCall) (db' : Db)
      (h : call.step env.normalizeMediaPayload db clock act = some (db', call')) :
      Creates env db clock act (.api call) { db := db', write := none, worker := .api call' }

/-- A step of a worker is code between two calls, the end of a call, a step of
`MessagesService.create`, or a crash. -/
theorem step_cases (h : w.step env db clock locks act = some result) :
    (∃ now p p', act = .run now ∧ w = .pass p ∧ p.run env now = some p' ∧
        result = { db := db, write := none, worker := .pass p' }) ∨
      (∃ outcome now ids call, act = .call outcome now ids ∧
        Calls env db clock locks w outcome now ids call result) ∨
      (∃ create, act = .create create ∧ Creates env db clock create w result) ∨
      (act = .crash ∧ ∃ w', w.crash = some w' ∧
        result = { db := db, write := none, worker := w' }) := by
  cases act with
  | run now =>
      cases w with
      | pass p =>
          obtain ⟨p', hp', rfl⟩ := Option.map_eq_some_iff.mp h
          exact .inl ⟨now, p, p', rfl, rfl, hp', rfl⟩
      | operator _ => cases h
      | api _ => cases h
  | call outcome now ids =>
      obtain ⟨call, hcall, h⟩ := Option.bind_eq_some_iff.mp h
      refine .inr (.inl ⟨outcome, now, ids, call, rfl, ?_⟩)
      have hnext := call.next_cases outcome
      by_cases htook : outcome.tookEffect = true
      · simp only [htook, if_true] at h
        split_ifs at h with hwaits
        have hfree : ∀ held ∈ locks, waitsFor db held call.write call.returned = false := by
          simpa using hwaits
        split at h
        · rename_i hwrite
          cases h
          exact ⟨hcall, by simp [hwrite], fun _ => rfl, by simp, fun _ => hfree, hnext⟩
        · rename_i write hwrite
          obtain ⟨db', hrun, rfl⟩ := Option.map_eq_some_iff.mp h
          refine ⟨hcall, by simp [htook, hwrite], by simp, ?_, fun _ => hfree, hnext⟩
          rintro write' ⟨⟩
          exact hrun
      · simp only [htook] at h
        cases h
        exact ⟨hcall, by simp [htook], fun _ => rfl, by simp, fun ht => absurd ht htook,
          hnext⟩
  | create create =>
      refine .inr (.inr (.inl ⟨create, rfl, ?_⟩))
      simp only [step] at h
      split at h
      · obtain ⟨⟨db', call'⟩, hstep, rfl⟩ := Option.map_eq_some_iff.mp h
        exact .pass _ _ _ _ _ _ _ hstep
      · obtain ⟨⟨db', call'⟩, hstep, rfl⟩ := Option.map_eq_some_iff.mp h
        exact .api _ _ _ hstep
      · cases h
  | crash =>
      obtain ⟨w', hw', rfl⟩ := Option.map_eq_some_iff.mp h
      exact .inr (.inr (.inr ⟨rfl, w', hw', rfl⟩))

/-- `MessagesService.create` writes neither campaigns nor recipients. -/
theorem Creates.tables {create : CreateAct} (h : Creates env db clock create w result) :
    result.write = none ∧ result.db.campaigns = db.campaigns ∧
      result.db.recipients = db.recipients := by
  have htables : ∀ {call call' : CreateCall} {db' : Db},
      call.step env.normalizeMediaPayload db clock create = some (db', call') →
        db'.campaigns = db.campaigns ∧ db'.recipients = db.recipients := by
    intro call call' db' hstep
    obtain ⟨-, ⟨-, rfl, -⟩ | ⟨draft, ids, m, -, hcommit, -⟩⟩ := CreateCall.step_db hstep
    · exact ⟨rfl, rfl⟩
    · obtain ⟨_, _, _, _, rfl⟩ := Db.commitCreate_frame hcommit
      exact ⟨rfl, rfl⟩
  cases h with
  | pass _ _ _ _ _ _ _ hstep => exact ⟨rfl, htables hstep⟩
  | api _ _ _ hstep => exact ⟨rfl, htables hstep⟩

/-- **A step of a worker** leaves the campaigns and recipients alone, or runs one statement. -/
theorem step_tables (h : w.step env db clock locks act = some result) :
    (result.write = none ∧ result.db.campaigns = db.campaigns ∧
        result.db.recipients = db.recipients) ∨
      ∃ write, result.write = some write ∧ write.run db clock = some result.db := by
  rcases step_cases h with ⟨_, _, _, -, -, -, rfl⟩ | ⟨_, _, _, call, -, hcalls⟩ |
    ⟨_, -, hcreates⟩ | ⟨-, _, -, rfl⟩
  · exact .inl ⟨rfl, rfl, rfl⟩
  · rcases hwrite : result.write with _ | write
    · rw [hcalls.db_eq hwrite]
      exact .inl ⟨rfl, rfl, rfl⟩
    · exact .inr ⟨write, rfl, hcalls.run write hwrite⟩
  · exact .inl hcreates.tables
  · exact .inl ⟨rfl, rfl, rfl⟩

/-- The `messages.create` that a worker is in. -/
def call? : Worker → Option CreateCall
  | .pass { stage := .create _ _ call, .. } => some call
  | .api call => some call
  | _ => none

/-- The transaction of `messages.create` that an act commits. -/
def commits (w : Worker) : WorkerAct → Option (CreateCall × MessageDraft × CreateIds)
  | .create create => w.call?.bind fun call =>
      (call.commits create).map fun (draft, ids) => (call, draft, ids)
  | _ => none

/-- The step of a call of `messages.create`. -/
theorem Creates.call {create : CreateAct} (h : Creates env db clock create w result) :
    ∃ call call', w.call? = some call ∧ result.worker.call? = some call' ∧
      call.step env.normalizeMediaPayload db clock create = some (result.db, call') := by
  cases h with
  | pass _ _ _ _ call call' _ hstep => exact ⟨call, call', rfl, rfl, hstep⟩
  | api call call' _ hstep => exact ⟨call, call', rfl, rfl, hstep⟩

/-- **A step of a worker** leaves messages, contacts and templates alone, or commits one message. -/
theorem step_messages (h : w.step env db clock locks act = some result) :
    (w.commits act = none ∧ result.db.messages = db.messages ∧ result.db.contacts = db.contacts ∧
        result.db.templates = db.templates) ∨
      ∃ call draft ids m, w.commits act = some (call, draft, ids) ∧
        db.commitCreate clock call.tenantId call.dto.idempotencyKey draft ids =
          some (result.db, m) := by
  rcases step_cases h with ⟨_, _, _, rfl, -, -, rfl⟩ | ⟨_, _, _, call, rfl, hcalls⟩ |
    ⟨create, rfl, hcreates⟩ | ⟨rfl, _, -, rfl⟩
  · exact .inl ⟨rfl, rfl, rfl, rfl⟩
  · left
    rcases hwrite : result.write with _ | write
    · rw [hcalls.db_eq hwrite]
      exact ⟨rfl, rfl, rfl, rfl⟩
    · obtain ⟨_, _, hdb⟩ := CampaignWrite.run_frame (hcalls.run write hwrite)
      rw [hdb]
      exact ⟨rfl, rfl, rfl, rfl⟩
  · obtain ⟨call, call', hcall, -, hstep⟩ := hcreates.call
    obtain ⟨-, ⟨hnone, hdb, -⟩ | ⟨draft, ids, m, hsome, hcommit, -⟩⟩ := CreateCall.step_db hstep
    · rw [hdb]
      exact .inl ⟨by simp [commits, hcall, hnone], rfl, rfl, rfl⟩
    · exact .inr ⟨call, draft, ids, m, by simp [commits, hcall, hsome], hcommit⟩
  · exact .inl ⟨rfl, rfl, rfl, rfl⟩

/-! ### How a pass and an operator move -/

/-- A call of a pass. -/
theorem Calls.pass_call {p : Pass} {outcome : CallOutcome} {now : Time} {ids : List Uuid}
    {call : PendingCall Worker}
    (h : Calls env db clock locks (.pass p) outcome now ids call result) :
    ∃ call' : PendingCall Pass, p.pending env db clock now ids = some call' ∧
      call.write = call'.write ∧
      ((outcome = .returned ∧ result.worker = .pass call'.returned) ∨
        ∃ e, outcome ≠ .returned ∧ result.worker = .pass (call'.threw e)) := by
  obtain ⟨call', hcall', rfl⟩ := Option.map_eq_some_iff.mp h.pending
  refine ⟨call', hcall', rfl, ?_⟩
  rcases h.next with ⟨houtcome, hnext⟩ | ⟨houtcome, e, hnext⟩
  · exact .inl ⟨houtcome, hnext⟩
  · exact .inr ⟨e, houtcome, hnext⟩

/-- A call of an operator. -/
theorem Calls.operator_call {o : Operator} {outcome : CallOutcome} {now : Time} {ids : List Uuid}
    {call : PendingCall Worker}
    (h : Calls env db clock locks (.operator o) outcome now ids call result) :
    ∃ stage, Operator.Moves env db now ids o call.write stage ∧
      ((outcome = .returned ∧ result.worker = .operator { o with stage := stage }) ∨
        ∃ reply, outcome ≠ .returned ∧
          result.worker = .operator { o with stage := .replied reply }) := by
  obtain ⟨call', hcall', rfl⟩ := Option.map_eq_some_iff.mp h.pending
  obtain ⟨⟨write, stage⟩, hstatement, rfl⟩ := Option.map_eq_some_iff.mp hcall'
  refine ⟨stage, Operator.statement_moves hstatement, ?_⟩
  rcases h.next with ⟨houtcome, hnext⟩ | ⟨houtcome, e, hnext⟩
  · exact .inl ⟨houtcome, hnext⟩
  · exact .inr ⟨_, houtcome, hnext⟩

/-- The act ends a worker before it is done: its process dies, or an error that nothing recovers
from. -/
def abandons (w : Worker) : WorkerAct → Bool
  | .crash => true
  | .call outcome _ _ => outcome ≠ .returned && match w with
      | .pass p => p.stage.stopsAtError
      | .operator _ => true
      | .api _ => false
  | .run _ | .create _ => false

/-- How a pass can move. -/
inductive PassMoves (env : CampaignEnv) (db : Db) (clock : Time) (act : WorkerAct) (p : Pass) :
    Pass → Prop where
  | promoted (hstage : p.stage = .promote) : PassMoves env db clock act p { p with stage := .claim }
  | claimed (now : Time) (ids : List Uuid) (hstage : p.stage = .claim)
      (hact : act = .call .returned now ids) :
      PassMoves env db clock act p
        { p with
          queue := Pass.claimedQueue db clock (now + env.config.leaseMs) ids
          stage := .next }
  | began (claim : CampaignRecipient) (queue : List CampaignRecipient) (hstage : p.stage = .next)
      (hqueue : p.queue = claim :: queue) :
      PassMoves env db clock act p
        { queue := queue
          touched :=
            if claim.campaignId ∈ p.touched then p.touched else p.touched ++ [claim.campaignId]
          stage := .load claim }
  | follows (now : Time) (claim : CampaignRecipient) (stage : PassStage)
      (h : Pass.Follows env db now claim p.stage stage) :
      PassMoves env db clock act p { p with stage := stage }
  | created (claim : CampaignRecipient) (loaded : LoadedRecipient) (call call' : CreateCall)
      (create : CreateAct) (db' : Db) (hstage : p.stage = .create claim loaded call)
      (hact : act = .create create)
      (h : call.step env.normalizeMediaPayload db clock create = some (db', call')) :
      PassMoves env db clock act p { p with stage := .create claim loaded call' }
  | refreshing (hstage : p.stage = .next) (hqueue : p.queue = []) :
      PassMoves env db clock act p { p with stage := .refreshing p.touched }
  | refreshed (now : Time) (refresh : Refresh) (rest : List Uuid)
      (hstage : p.stage = .refresh refresh rest) :
      PassMoves env db clock act p { p with stage :=
        match (refresh.pending db now).2 with
        | some refresh => .refresh refresh rest
        | none => .refreshing rest }
  | ended (stage : PassStage) (hstage : stage = .finished ∨ stage = .crashed)
      (hact : (Worker.pass p).abandons act = true) :
      PassMoves env db clock act p { p with stage := stage }

/-- A call of a pass is a move. -/
theorem PassMoves.of_call {p : Pass} {outcome : CallOutcome} {now : Time} {ids : List Uuid}
    {call : PendingCall Worker}
    (h : Calls env db clock locks (.pass p) outcome now ids call result) :
    ∃ p', result.worker = .pass p' ∧
      PassMoves env db clock (.call outcome now ids) p p' := by
  obtain ⟨call', hpending, -, ⟨rfl, hnext⟩ | ⟨e, houtcome, hnext⟩⟩ := h.pass_call
  · refine ⟨_, hnext, ?_⟩
    rcases Pass.returned_cases hpending with ⟨hstage, heq⟩ | ⟨hstage, heq⟩ |
      ⟨claim, stage, hfollows, heq⟩ | ⟨refresh, rest, hstage, heq⟩
    · rw [heq]
      exact .promoted hstage
    · rw [heq]
      exact .claimed now ids hstage rfl
    · rw [heq]
      exact .follows now claim stage hfollows
    · rw [heq]
      exact .refreshed now refresh rest hstage
  · refine ⟨_, hnext, ?_⟩
    rcases Pass.threw_cases hpending e with ⟨hstops, heq⟩ | ⟨claim, res, site, hclaim, hres, heq⟩
    · rw [heq]
      exact .ended .finished (.inl rfl) (by simp [abandons, houtcome, hstops])
    · rw [heq]
      exact .follows now claim _ (.ended _ res site hclaim hres)

/-- **Moves of a pass.** -/
theorem pass_moves {p : Pass} (h : (Worker.pass p).step env db clock locks act = some result) :
    ∃ p', result.worker = .pass p' ∧ PassMoves env db clock act p p' := by
  rcases step_cases h with ⟨now, p₀, p', rfl, hw, hrun, rfl⟩ |
    ⟨outcome, now, ids, call, rfl, hcalls⟩ | ⟨create, rfl, hcreates⟩ | ⟨rfl, w', hw', rfl⟩
  · cases hw
    refine ⟨p', rfl, ?_⟩
    rcases Pass.run_cases db hrun with ⟨hstage, hqueue, rfl⟩ |
      ⟨claim, hstage, hqueue, hstage', htouched⟩ | ⟨claim, loaded, call, stage, hstage, hfollows, rfl⟩
    · exact .refreshing hstage hqueue
    · obtain ⟨queue, touched, stage⟩ := p'
      cases hstage'
      cases htouched
      exact .began claim queue hstage hqueue
    · exact .follows now claim stage hfollows
  · exact PassMoves.of_call hcalls
  · cases hcreates with
    | pass queue touched claim loaded call call' db' hstep =>
        exact ⟨_, rfl, .created claim loaded call call' create db' rfl rfl hstep⟩
  · simp only [crash] at hw'
    split at hw'
    all_goals cases hw'
    exact ⟨_, rfl, .ended .crashed (.inr rfl) rfl⟩

/-- How a pass comes to work on a claim: it takes it from its queue, it goes on with it, or its
`messages.create` goes on. -/
theorem PassMoves.claim_cases {p p' : Pass} (h : PassMoves env db clock act p p')
    {claim : CampaignRecipient} (hclaim : p'.stage.claim? = some claim) :
    (p'.stage = .load claim ∧ p.queue = claim :: p'.queue ∧ claim.campaignId ∈ p'.touched ∧
        p.touched ⊆ p'.touched) ∨
      (p'.queue = p.queue ∧ p'.touched = p.touched ∧
        ((∃ now, Pass.Follows env db now claim p.stage p'.stage) ∨
          ∃ loaded call call' create db', p.stage = .create claim loaded call ∧
            p'.stage = .create claim loaded call' ∧ act = .create create ∧
            call.step env.normalizeMediaPayload db clock create = some (db', call'))) := by
  cases h with
  | promoted _ | claimed _ _ _ _ => cases hclaim
  | began claim' queue hstage hqueue =>
      cases hclaim
      refine .inl ⟨rfl, hqueue, ?_, ?_⟩
      · simp only
        split_ifs with hmem
        · exact hmem
        · exact List.mem_append_right _ List.mem_cons_self
      · simp only
        split_ifs
        · exact List.Subset.refl _
        · exact List.subset_append_left _ _
  | follows now claim' stage hfollows =>
      rcases hfollows.claim_after with rfl | hstage
      · cases hclaim
      · rw [hstage] at hclaim
        cases hclaim
        exact .inr ⟨rfl, rfl, .inl ⟨now, hfollows⟩⟩
  | created claim' loaded call call' create db' hstage hact hstep =>
      cases hclaim
      exact .inr ⟨rfl, rfl, .inr ⟨loaded, call, call', create, db', hstage, rfl, hact, hstep⟩⟩
  | refreshing hstage hqueue =>
      simp only [PassStage.refreshing] at hclaim
      split at hclaim <;> cases hclaim
  | refreshed now refresh rest hstage =>
      simp only [PassStage.refreshing] at hclaim
      split at hclaim
      · cases hclaim
      · split at hclaim <;> cases hclaim
  | ended stage hstage hact => rcases hstage with rfl | rfl <;> cases hclaim

/-- How an operator can move. -/
inductive OperatorMoves (env : CampaignEnv) (db : Db) (act : WorkerAct) (o : Operator) :
    Option CampaignWrite → Operator → Prop where
  | returned (now : Time) (ids : List Uuid) (write : Option CampaignWrite) (stage : OperatorStage)
      (hact : act = .call .returned now ids) (h : Operator.Moves env db now ids o write stage) :
      OperatorMoves env db act o write { o with stage := stage }
  | ended (write : Option CampaignWrite) (stage : OperatorStage)
      (hstage : (∃ reply, stage = .replied reply) ∨ stage = .crashed)
      (hact : (Worker.operator o).abandons act = true) :
      OperatorMoves env db act o write { o with stage := stage }

/-- **Moves of an operator.** -/
theorem operator_moves {o : Operator}
    (h : (Worker.operator o).step env db clock locks act = some result) :
    ∃ o', result.worker = .operator o' ∧ OperatorMoves env db act o result.write o' := by
  rcases step_cases h with ⟨_, _, _, -, hw, -, -⟩ | ⟨outcome, now, ids, call, rfl, hcalls⟩ |
    ⟨_, -, hcreates⟩ | ⟨rfl, w', hw', rfl⟩
  · cases hw
  · obtain ⟨stage, hmoves, ⟨rfl, hnext⟩ | ⟨reply, houtcome, hnext⟩⟩ := hcalls.operator_call
    · refine ⟨_, hnext, .returned now ids _ stage rfl ?_⟩
      have hwrite : result.write = call.write := by simpa [CallOutcome.tookEffect] using hcalls.write
      rwa [hwrite]
    · refine ⟨_, hnext, .ended _ _ (.inl ⟨reply, rfl⟩) ?_⟩
      simp [abandons, houtcome]
  · cases hcreates
  · simp only [crash] at hw'
    split at hw'
    all_goals cases hw'
    exact ⟨_, rfl, .ended _ _ (.inr rfl) rfl⟩

/-- An API call holds nothing and refreshes nothing. -/
theorem api_moves {call : CreateCall}
    (h : (Worker.api call).step env db clock locks act = some result) :
    ∃ call', result.worker = .api call' := by
  rcases step_cases h with ⟨_, _, _, -, hw, -, -⟩ | ⟨_, _, _, _, -, hcalls⟩ | ⟨_, -, hcreates⟩ |
    ⟨-, w', hw', rfl⟩
  · cases hw
  · cases hcalls.pending
  · cases hcreates with
    | api call call' db' _ => exact ⟨call', rfl⟩
  · simp only [crash] at hw'
    split at hw'
    all_goals cases hw'
    exact ⟨_, rfl⟩

/-! ### Refreshes -/

/-- The `refreshStats` that a worker is in. -/
def refresh? : Worker → Option Refresh
  | .pass { stage := .refresh refresh _, .. } => some refresh
  | .operator { stage := .refresh refresh, .. } => some refresh
  | _ => none

/-- The campaigns for which a worker calls `refreshStats`, now or before it ends. -/
def campaigns : Worker → List Uuid
  | .pass p => match p.stage with
      | .refresh refresh rest => refresh.campaignId :: rest
      | .finished | .crashed => []
      | _ => p.touched ++ p.queue.map CampaignRecipient.campaignId
  | .operator { stage := .refresh refresh, .. } => [refresh.campaignId]
  | _ => []

/-- A quiet operator looks at no campaign. -/
theorem facts_of_isQuiet (o : Operator) {stage : OperatorStage} (h : Operator.isQuiet stage = true) :
    (Worker.operator { o with stage := stage }).campaigns = [] ∧
      (Worker.operator { o with stage := stage }).refresh? = none ∧
      (Worker.operator { o with stage := stage }).held = none := by
  cases stage <;> first | exact ⟨rfl, rfl, rfl⟩ | cases h

/-- Who refreshes looks at the campaigns that are left. -/
theorem facts_refreshing (p : Pass) (rest : List Uuid) :
    (Worker.pass { p with stage := .refreshing rest }).campaigns = rest ∧
      (∀ r, (Worker.pass { p with stage := .refreshing rest }).refresh? = some r →
        r.stage = .aggregate) ∧
      (Worker.pass { p with stage := .refreshing rest }).held = none := by
  cases rest with
  | nil => exact ⟨rfl, fun r hr => (by cases hr), rfl⟩
  | cons id rest =>
      refine ⟨rfl, fun r hr => ?_, rfl⟩
      cases hr
      rfl

/-- While a pass works on claims it refreshes what it has touched or will touch. -/
theorem facts_of_claim {p : Pass} {c : CampaignRecipient} (h : p.stage.claim? = some c) :
    (Worker.pass p).campaigns = p.touched ++ p.queue.map CampaignRecipient.campaignId ∧
      (Worker.pass p).refresh? = none := by
  obtain ⟨queue, touched, stage⟩ := p
  cases stage <;> first | exact ⟨rfl, rfl⟩ | cases h

/-- Who follows a claim looks at no other campaign. -/
theorem facts_follows (p : Pass) {now : Time} {claim : CampaignRecipient} {stage : PassStage}
    (h : Pass.Follows env db now claim p.stage stage) :
    (Worker.pass { p with stage := stage }).campaigns = (Worker.pass p).campaigns ∧
      (Worker.pass { p with stage := stage }).refresh? = none := by
  rw [(facts_of_claim h.claim_before).1]
  rcases h.claim_after with rfl | hclaim
  · exact ⟨rfl, rfl⟩
  · exact facts_of_claim (p := { p with stage := stage }) hclaim

/-- A pass that is over looks at no campaign. -/
theorem facts_of_ended (p : Pass) {stage : PassStage} (h : stage = .finished ∨ stage = .crashed) :
    (Worker.pass { p with stage := stage }).campaigns = [] ∧
      (Worker.pass { p with stage := stage }).refresh? = none ∧
      (Worker.pass { p with stage := stage }).held = none := by
  rcases h with rfl | rfl <;> exact ⟨rfl, rfl, rfl⟩

/-- The claims of the queue are rows of the table. -/
theorem mem_claimedQueue {leaseUntil : Time} {ids : List Uuid} {claim : CampaignRecipient}
    (h : claim ∈ Pass.claimedQueue db clock leaseUntil ids) :
    ∃ r ∈ db.recipients.rows, CampaignWrite.claims db clock ids r = true ∧
      claim = CampaignWrite.claimed leaseUntil r := by
  obtain ⟨id, -, h⟩ := List.mem_filterMap.mp h
  obtain ⟨r, hr, rfl⟩ := Option.map_eq_some_iff.mp h
  obtain ⟨hfind, hclaims⟩ := Option.filter_eq_some_iff.mp hr
  exact ⟨r, (db.recipients.find_eq_some_iff.mp hfind).1, hclaims, rfl⟩

/-- A pass refreshes a campaign because it did so before, or because it has claimed one of its
recipients. -/
theorem PassMoves.campaigns {p p' : Pass} (h : PassMoves env db clock act p p') {id : Uuid}
    (hid : id ∈ (Worker.pass p').campaigns) :
    id ∈ (Worker.pass p).campaigns ∨ ∃ r ∈ db.recipients.rows, r.campaignId = id := by
  cases h with
  | promoted hstage =>
      left
      simpa [Worker.campaigns, hstage] using hid
  | claimed now ids hstage hact =>
      have hid : id ∈ p.touched ++ (Pass.claimedQueue db clock (now + env.config.leaseMs) ids).map
          CampaignRecipient.campaignId := hid
      rcases List.mem_append.mp hid with hid | hid
      · exact .inl (by simp [Worker.campaigns, hstage, hid])
      · obtain ⟨claim, hclaim, rfl⟩ := List.mem_map.mp hid
        obtain ⟨r, hr, -, rfl⟩ := mem_claimedQueue hclaim
        exact .inr ⟨r, hr, rfl⟩
  | began claim queue hstage hqueue =>
      left
      simp only [Worker.campaigns, hstage, hqueue, List.map_cons] at hid ⊢
      split_ifs at hid <;> simp at hid ⊢ <;> tauto
  | follows now claim stage hfollows =>
      rw [(facts_follows p hfollows).1] at hid
      exact .inl hid
  | created claim loaded call call' create db' hstage hact hstep =>
      left
      rw [(facts_of_claim (p := { p with stage := .create claim loaded call' }) rfl).1] at hid
      rwa [(facts_of_claim (p := p) (c := claim) (by rw [hstage]; rfl)).1]
  | refreshing hstage hqueue =>
      rw [(facts_refreshing p _).1] at hid
      left
      simpa [Worker.campaigns, hstage, hqueue] using hid
  | refreshed now refresh rest hstage =>
      left
      simp only [Worker.campaigns, hstage]
      rcases hnext : (refresh.pending db now).2 with _ | refresh'
      · rw [hnext, (facts_refreshing p rest).1] at hid
        exact List.mem_cons_of_mem _ hid
      · rw [hnext] at hid
        change id ∈ refresh'.campaignId :: rest at hid
        rwa [Refresh.campaignId_of_pending hnext] at hid
  | ended stage hstage hact =>
      rw [(facts_of_ended p hstage).1] at hid
      cases hid

/-- An operator refreshes a campaign because it did so before, or because it has cancelled it. -/
theorem OperatorMoves.campaigns {o o' : Operator} {write : Option CampaignWrite}
    (h : OperatorMoves env db act o write o') {id : Uuid}
    (hid : id ∈ (Worker.operator o').campaigns) :
    id ∈ (Worker.operator o).campaigns ∨
      ∃ tenantId cancelledAt pending, write = some (.cancel tenantId id cancelledAt pending) := by
  cases h with
  | ended _ stage hstage hact =>
      rcases hstage with ⟨reply, rfl⟩ | rfl <;> cases hid
  | returned now ids _ stage hact hmoves =>
      cases hmoves with
      | quiet stage _ hquiet | paused stage _ hquiet | resumed _ _ stage _ hquiet =>
          rw [(facts_of_isQuiet o hquiet).1] at hid
          cases hid
      | launching _ _ _ | launched _ _ _ _ _ | resuming _ _ _ _ | cancelling _ _ _ _ _ => cases hid
      | cancelled cancelledAt pending hstage =>
          obtain rfl : id = o.id := by simpa [Worker.campaigns] using hid
          exact .inr ⟨o.tenantId, cancelledAt, pending, rfl⟩
      | refreshed refresh hstage =>
          left
          obtain ⟨tenantId, id', stage⟩ := o
          cases hstage
          rcases hnext : (refresh.pending db now).2 with _ | refresh'
          · rw [hnext] at hid
            cases hid
          · rw [hnext] at hid
            change id ∈ [refresh'.campaignId] at hid
            rwa [Refresh.campaignId_of_pending hnext] at hid

/-- **Campaigns of a worker.** A worker refreshes a campaign because it did so before, because it
has claimed one of its recipients, or because it has cancelled it. -/
theorem campaigns_step (h : w.step env db clock locks act = some result) {id : Uuid}
    (hid : id ∈ result.worker.campaigns) :
    id ∈ w.campaigns ∨ (∃ r ∈ db.recipients.rows, r.campaignId = id) ∨
      ∃ tenantId cancelledAt pending,
        result.write = some (.cancel tenantId id cancelledAt pending) := by
  cases w with
  | pass p =>
      obtain ⟨p', hp', hmoves⟩ := pass_moves h
      rw [hp'] at hid
      exact (hmoves.campaigns hid).imp_right .inl
  | operator o =>
      obtain ⟨o', ho', hmoves⟩ := operator_moves h
      rw [ho'] at hid
      exact (hmoves.campaigns hid).imp_right .inr
  | api call =>
      obtain ⟨call', hcall'⟩ := api_moves h
      rw [hcall'] at hid
      cases hid

/-- **Refreshes.** A worker that is in `refreshStats` after a step has just begun it, or has gone on
in it. -/
theorem refresh_step (h : w.step env db clock locks act = some result) {r' : Refresh}
    (hr' : result.worker.refresh? = some r') :
    r'.stage = .aggregate ∨ ∃ r now, w.refresh? = some r ∧ (r.pending db now).2 = some r' := by
  cases w with
  | pass p =>
      obtain ⟨p', hp', hmoves⟩ := pass_moves h
      rw [hp'] at hr'
      cases hmoves with
      | promoted _ | claimed _ _ _ _ | began _ _ _ _ | created _ _ _ _ _ _ _ _ _ => cases hr'
      | follows now claim stage hfollows =>
          rw [(facts_follows p hfollows).2] at hr'
          cases hr'
      | refreshing hstage hqueue => exact .inl ((facts_refreshing p _).2.1 r' hr')
      | refreshed now refresh rest hstage =>
          obtain ⟨queue, touched, stage⟩ := p
          cases hstage
          rcases hnext : (refresh.pending db now).2 with _ | refresh'
          · rw [hnext] at hr'
            refine .inl ((facts_refreshing { queue, touched, stage := .next } rest).2.1 r' hr')
          · rw [hnext] at hr'
            cases hr'
            exact .inr ⟨refresh, now, rfl, hnext⟩
      | ended stage hstage hact =>
          rw [(facts_of_ended p hstage).2.1] at hr'
          cases hr'
  | operator o =>
      obtain ⟨o', ho', hmoves⟩ := operator_moves h
      rw [ho'] at hr'
      generalize result.write = write at hmoves
      cases hmoves with
      | ended _ stage hstage hact =>
          rcases hstage with ⟨reply, rfl⟩ | rfl <;> cases hr'
      | returned now ids _ stage hact hmoves =>
          cases hmoves with
          | quiet stage _ hquiet | paused stage _ hquiet | resumed _ _ stage _ hquiet =>
              rw [(facts_of_isQuiet o hquiet).2.1] at hr'
              cases hr'
          | launching _ _ _ | launched _ _ _ _ _ | resuming _ _ _ _ | cancelling _ _ _ _ _ =>
              cases hr'
          | cancelled cancelledAt pending hstage =>
              cases hr'
              exact .inl rfl
          | refreshed refresh hstage =>
              obtain ⟨tenantId, id', stage⟩ := o
              cases hstage
              rcases hnext : (refresh.pending db now).2 with _ | refresh'
              · rw [hnext] at hr'
                cases hr'
              · rw [hnext] at hr'
                cases hr'
                exact .inr ⟨refresh, now, rfl, hnext⟩
  | api call =>
      obtain ⟨call', hcall'⟩ := api_moves h
      rw [hcall'] at hr'
      cases hr'

/-! ### Statements and transactions -/

/-- Which statement a worker runs where. -/
inductive Writes (env : CampaignEnv) (db : Db) : Worker → CampaignWrite → Prop where
  | promote (p : Pass) (now : Time) (hstage : p.stage = .promote) :
      Writes env db (.pass p) (.promoteScheduledCampaigns now)
  | claim (p : Pass) (now : Time) (ids : List Uuid) (hstage : p.stage = .claim)
      (hnodup : ids.Nodup) :
      Writes env db (.pass p) (.claimRecipients (now + env.config.leaseMs) ids)
  | failCampaign (p : Pass) (claim : CampaignRecipient) (campaignId : Uuid) (reason : String)
      (pending : List Uuid) (hstage : p.stage = .failing claim campaignId reason pending) :
      Writes env db (.pass p) (.failCampaign campaignId (slice reason 2000) pending)
  | completeClaim (p : Pass) (claim : CampaignRecipient) (result : ClaimResult)
      (site : CompletionSite) (hstage : p.stage = .complete claim result site) :
      Writes env db (.pass p) (.completeClaim claim result)
  | launch (o : Operator) (contactIds ids : List Uuid) (now : Time)
      (hstage : o.stage = .launching contactIds) (hlength : ids.length = contactIds.length)
      (hnodup : ids.Nodup) (hfresh : ∀ id ∈ ids, db.recipients.find (.id id) = none) :
      Writes env db (.operator o) (.launch o.id contactIds ids now)
  | pause (o : Operator) (hstage : o.stage = .pause) :
      Writes env db (.operator o) (.pause o.tenantId o.id)
  | resume (o : Operator) (status : CampaignStatus) (startedAt : Option Time)
      (hstage : o.stage = .resuming status startedAt) :
      Writes env db (.operator o) (.resume o.tenantId o.id status startedAt)
  | cancel (o : Operator) (cancelledAt : Time) (pending : List Uuid)
      (hstage : o.stage = .cancelling cancelledAt pending) :
      Writes env db (.operator o) (.cancel o.tenantId o.id cancelledAt pending)
  | storeCounts (w : Worker) (id : Uuid) (counts : RecipientCounts)
      (hrefresh : w.refresh? = some { campaignId := id, stage := .store counts }) :
      Writes env db w (.storeCounts id counts)
  | complete (w : Worker) (id : Uuid) (now : Time)
      (hrefresh : w.refresh? = some { campaignId := id, stage := .complete }) :
      Writes env db w (.complete id now)

/-- What a refresh writes. -/
theorem Writes.of_refresh {refresh : Refresh} {now : Time} {write : CampaignWrite}
    (hw : w.refresh? = some refresh) (h : (refresh.pending db now).1 = some write) :
    Writes env db w write := by
  obtain ⟨id, stage⟩ := refresh
  cases stage with
  | aggregate => cases h
  | store counts =>
      cases h
      exact .storeCounts w id counts hw
  | complete =>
      cases h
      exact .complete w id now hw

/-- What a pass writes. -/
theorem Writes.of_pass {p : Pass} {now : Time} {ids : List Uuid} {call : PendingCall Pass}
    {write : CampaignWrite} (h : p.pending env db clock now ids = some call)
    (hwrite : call.write = some write) : Writes env db (.pass p) write := by
  unfold Pass.pending at h
  split at h
  case h_1 hstage =>
    cases h
    cases hwrite
    exact .promote p now hstage
  case h_2 hstage =>
    split_ifs at h with hids
    cases h
    cases hwrite
    simp only [Bool.and_eq_true, decide_eq_true_eq] at hids
    exact .claim p now ids hstage hids.2
  case h_6 claim campaignId reason pending hstage =>
    cases h
    cases hwrite
    exact .failCampaign p claim campaignId reason pending hstage
  case h_8 claim result site hstage =>
    cases h
    cases hwrite
    exact .completeClaim p claim result site hstage
  case h_9 refresh rest hstage =>
    cases h
    obtain ⟨queue, touched, stage⟩ := p
    cases hstage
    exact .of_refresh rfl hwrite
  all_goals cases h
  all_goals cases hwrite

/-- What an operator writes. -/
theorem Writes.of_operator {o : Operator} {now : Time} {ids : List Uuid} {stage : OperatorStage}
    {write : CampaignWrite} (h : Operator.Moves env db now ids o (some write) stage) :
    Writes env db (.operator o) write := by
  generalize hwrite : some write = write' at h
  cases h with
  | quiet _ _ _ | launching _ _ _ | resuming _ _ _ _ | cancelling _ _ _ _ _ => cases hwrite
  | launched contactIds hstage hlength hnodup hfresh =>
      cases hwrite
      exact .launch o contactIds ids now hstage hlength hnodup hfresh
  | paused _ hstage _ =>
      cases hwrite
      exact .pause o hstage
  | resumed status startedAt _ hstage _ =>
      cases hwrite
      exact .resume o status startedAt hstage
  | cancelled cancelledAt pending hstage =>
      cases hwrite
      exact .cancel o cancelledAt pending hstage
  | refreshed refresh hstage =>
      obtain ⟨tenantId, id, stage⟩ := o
      cases hstage
      exact .of_refresh rfl hwrite.symm

/-- **Statements.** A worker runs the statement of its stage, and none that writes a campaign that
another transaction holds. -/
theorem writes_of_step (h : w.step env db clock locks act = some result) {write : CampaignWrite}
    (hwrite : result.write = some write) :
    Writes env db w write ∧
      ∀ held ∈ locks, ∃ next, waitsFor db held (some write) next = false := by
  rcases step_cases h with ⟨_, _, _, -, -, -, rfl⟩ | ⟨outcome, now, ids, call, -, hcalls⟩ |
    ⟨_, -, hcreates⟩ | ⟨-, _, -, rfl⟩
  · cases hwrite
  · have htook : outcome.tookEffect = true := by
      by_contra htook
      rw [hcalls.write, if_neg htook] at hwrite
      cases hwrite
    have hcall : call.write = some write := by rw [← hwrite, hcalls.write, if_pos htook]
    refine ⟨?_, fun held hheld => ⟨call.returned, by rw [← hcall]; exact hcalls.free htook held hheld⟩⟩
    cases w with
    | pass p =>
        obtain ⟨call', hpending, hcall', -⟩ := hcalls.pass_call
        exact .of_pass hpending (by rw [← hcall', hcall])
    | operator o =>
        obtain ⟨stage, hmoves, -⟩ := hcalls.operator_call
        rw [hcall] at hmoves
        exact .of_operator hmoves
    | api c => cases hcalls.pending
  · rw [hcreates.tables.1] at hwrite
    cases hwrite
  · cases hwrite

/-- How a worker comes to hold rows. -/
inductive Acquires (env : CampaignEnv) (db : Db) : Worker → Worker → Prop where
  | launching (o : Operator) (contactIds : List Uuid) (hstage : o.stage = .launch)
      (h : db.prepareLaunch env.config o.tenantId o.id = .ok (some contactIds)) :
      Acquires env db (.operator o) (.operator { o with stage := .launching contactIds })
  | cancelling (o : Operator) (cancelledAt : Time) (c : Campaign)
      (hstage : o.stage = .cancelTransaction cancelledAt) (hc : o.campaign db = some c)
      (h : (CampaignWrite.cancel o.tenantId o.id cancelledAt []).targets c = true) :
      Acquires env db (.operator o)
        (.operator { o with stage := .cancelling cancelledAt (db.pendingRecipients o.id) })
  | failing (p : Pass) (claim : CampaignRecipient) (campaignId : Uuid) (reason : String)
      (hstage : p.stage = .fail claim campaignId reason)
      (c : Campaign) (hc : db.campaigns.find campaignId = some c)
      (h : (CampaignWrite.failCampaign campaignId reason []).targets c = true) :
      Acquires env db (.pass p) (.pass { p with
        stage := .failing claim campaignId reason (db.pendingRecipients campaignId) })

/-- A pass that goes on with a claim holds rows only if it is in `failCampaign`. -/
theorem Acquires.of_follows {p : Pass} {now : Time} {claim : CampaignRecipient} {stage : PassStage}
    (h : Pass.Follows env db now claim p.stage stage)
    (hheld : (Worker.pass { p with stage := stage }).held ≠ none) :
    Acquires env db (.pass p) (.pass { p with stage := stage }) := by
  generalize hstage : p.stage = stage₀ at h
  cases h with
  | failing campaignId reason c hc h =>
      exact .failing p claim campaignId reason hstage c hc h
  | _ => exact absurd rfl hheld

/-- A pass that holds rows has just begun `failCampaign`. -/
theorem Acquires.of_pass {p p' : Pass} (h : PassMoves env db clock act p p')
    (hheld : (Worker.pass p').held ≠ none) : Acquires env db (.pass p) (.pass p') := by
  cases h with
  | promoted _ | claimed _ _ _ _ | began _ _ _ _ | created _ _ _ _ _ _ _ _ _ =>
      exact absurd rfl hheld
  | follows now claim stage hfollows => exact .of_follows hfollows hheld
  | refreshing hstage hqueue => exact absurd (facts_refreshing p _).2.2 hheld
  | refreshed now refresh rest hstage =>
      refine absurd ?_ hheld
      split
      · rfl
      · exact (facts_refreshing p rest).2.2
  | ended stage hstage hact => exact absurd (facts_of_ended p hstage).2.2 hheld

/-- An operator that holds rows has just begun the transaction of `launch` or `cancel`. -/
theorem Acquires.of_operator {o o' : Operator} {write : Option CampaignWrite}
    (h : OperatorMoves env db act o write o') (hheld : (Worker.operator o').held ≠ none) :
    Acquires env db (.operator o) (.operator o') := by
  cases h with
  | ended _ stage hstage hact =>
      rcases hstage with ⟨reply, rfl⟩ | rfl <;> exact absurd rfl hheld
  | returned now ids _ stage hact hmoves =>
      cases hmoves with
      | quiet stage _ hquiet | paused stage _ hquiet | resumed _ _ stage _ hquiet =>
          exact absurd (facts_of_isQuiet o hquiet).2.2 hheld
      | launching contactIds hstage h => exact .launching o contactIds hstage h
      | cancelling cancelledAt c hstage hc h => exact .cancelling o cancelledAt c hstage hc h
      | launched _ _ _ _ _ | resuming _ _ _ _ | cancelled _ _ _ => exact absurd rfl hheld
      | refreshed refresh _ =>
          refine absurd ?_ hheld
          split <;> rfl

/-- The call that opens a transaction runs no other statement. -/
theorem Acquires.not_writes {w' : Worker} {write : CampaignWrite} (h : Acquires env db w w') :
    ¬Writes env db w write := by
  intro hwrites
  cases h with
  | launching o contactIds hstage h =>
      obtain ⟨tenantId, id, stage⟩ := o
      cases hstage
      cases hwrites <;> contradiction
  | cancelling o cancelledAt c hstage hc h =>
      obtain ⟨tenantId, id, stage⟩ := o
      cases hstage
      cases hwrites <;> contradiction
  | failing p claim campaignId reason hstage c hc h =>
      obtain ⟨queue, touched, stage⟩ := p
      cases hstage
      cases hwrites <;> contradiction

/-- An error leaves no transaction open. -/
theorem Calls.returned_of_held {outcome : CallOutcome} {now : Time} {ids : List Uuid}
    {call : PendingCall Worker} (h : Calls env db clock locks w outcome now ids call result)
    (hheld : result.worker.held ≠ none) : outcome = .returned := by
  cases w with
  | pass p =>
      obtain ⟨call', hpending, -, ⟨houtcome, -⟩ | ⟨e, -, hnext⟩⟩ := h.pass_call
      · exact houtcome
      · rw [hnext] at hheld
        rcases Pass.threw_cases hpending e with ⟨-, heq⟩ | ⟨_, _, _, -, -, heq⟩
        all_goals rw [heq] at hheld
        all_goals exact absurd rfl hheld
  | operator o =>
      obtain ⟨stage, -, ⟨houtcome, -⟩ | ⟨reply, -, hnext⟩⟩ := h.operator_call
      · exact houtcome
      · rw [hnext] at hheld
        exact absurd rfl hheld
  | api c => cases h.pending

/-- What is held was there when it was taken. -/
theorem acquires {w' : Worker} (h : w.step env db clock locks act = some result)
    (hw' : result.worker = w') (hheld : w'.held ≠ none) : Acquires env db w w' := by
  subst hw'
  cases w with
  | pass p =>
      obtain ⟨p', hp', hmoves⟩ := pass_moves h
      rw [hp'] at hheld ⊢
      exact .of_pass hmoves hheld
  | operator o =>
      obtain ⟨o', ho', hmoves⟩ := operator_moves h
      rw [ho'] at hheld ⊢
      exact .of_operator hmoves hheld
  | api call =>
      obtain ⟨call', hcall'⟩ := api_moves h
      rw [hcall'] at hheld
      exact absurd rfl hheld

/-- **Transactions.** A worker that holds rows after a step has just locked them, and no other
transaction holds the same campaign. -/
theorem acquires_of_step (h : w.step env db clock locks act = some result) {held : Held}
    (hheld : result.worker.held = some held) :
    Acquires env db w result.worker ∧ result.write = none ∧ result.db = db ∧
      ∀ l ∈ locks, l.campaignId ≠ held.campaignId := by
  have hacquires : Acquires env db w result.worker := acquires h rfl (by simp [hheld])
  have hwrite : result.write = none := by
    by_contra hsome
    obtain ⟨write, hwrite⟩ := Option.ne_none_iff_exists'.mp hsome
    exact hacquires.not_writes (writes_of_step h hwrite).1
  refine ⟨hacquires, hwrite, ?_⟩
  rcases step_cases h with ⟨_, p, p', -, rfl, hrun, rfl⟩ | ⟨outcome, now, ids, call, -, hcalls⟩ |
    ⟨_, -, hcreates⟩ | ⟨-, w', hw', rfl⟩
  · -- a transaction is opened by a call, not by the code between two calls
    exfalso
    generalize hw : Worker.pass p = w at hacquires
    cases hacquires
    case failing claim campaignId reason hstage c hc htargets =>
      cases hw
      simp [Pass.run, hstage] at hrun
  · refine ⟨hcalls.db_eq hwrite, fun l hl hid => ?_⟩
    obtain rfl := hcalls.returned_of_held (by simp [hheld])
    have hreturned : result.worker = call.returned := by
      rcases hcalls.next with ⟨-, hnext⟩ | ⟨hne, -⟩
      · exact hnext
      · exact absurd rfl hne
    have hfree := hcalls.free rfl l hl
    rw [hreturned] at hheld
    simp [waitsFor, hheld, hid] at hfree
  · exfalso
    cases hcreates <;> cases hheld
  · exfalso
    unfold crash at hw'
    split at hw'
    all_goals split at hw'
    all_goals cases hw'
    all_goals cases hheld

end cases

end Worker

end ApiWhatsApp
