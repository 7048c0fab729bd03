import ApiWhatsApp.Campaigns.Workers
import ApiWhatsApp.Contacts.Consent
import ApiWhatsApp.Webhooks.Inbound

/-!
# Campaigns in the whole system

`CampaignSystem` runs any number of passes and calls of operators beside API calls that create
messages, consent decisions and all writes of other services. Its history variables record the claims
that were granted and completed, and the messages that campaigns have created.

* `UnrelatedToCampaigns` — what the other services may write.
* `written` is the statement of a step; **`campaigns_step`** and **`recipients_step`** say what it
  leaves in the two tables, and `writes_step` which worker ran it.
* `workers_step` says which workers there are after a step, and `not_targets_of_held` that no statement
  writes a campaign which the transaction of another worker holds.
-/

namespace ApiWhatsApp

open Library

/-- What a message is created with. -/
structure MessageOrigin where
  id : Uuid
  tenantId : Option Uuid
  senderId : Option Uuid
  direction : MessageDirection
  type : MessageType
  to_ : Option String
  idempotencyKey : Option String
  payload : Json

/-- No update changes what a message was created with. -/
def Message.origin (m : Message) : MessageOrigin where
  id := m.id
  tenantId := m.tenantId
  senderId := m.senderId
  direction := m.direction
  type := m.type
  to_ := m.to_
  idempotencyKey := m.idempotencyKey
  payload := m.payload

/-- What only `recordConsent` changes about a contact. -/
def Contact.standing (c : Contact) : Uuid × Uuid × String × ConsentStatus :=
  (c.id, c.tenantId, c.phone, c.consentStatus)

/-- A write of another service. New contacts have a normalised number and no consent yet, new
messages are received ones, and the provider never renames a template. -/
structure UnrelatedToCampaigns where
  run : Db → Db
  campaigns_run : ∀ db, (run db).campaigns = db.campaigns
  recipients_run : ∀ db, (run db).recipients = db.recipients
  messages_kept : ∀ db, ∀ m ∈ db.messages.rows,
    ∃ m' ∈ (run db).messages.rows, m'.origin = m.origin
  messages_new : ∀ db, ∀ m' ∈ (run db).messages.rows,
    (∃ m ∈ db.messages.rows, m'.origin = m.origin) ∨
      (m'.direction = .inbound ∧ m'.idempotencyKey = none)
  contacts_kept : ∀ db, ∀ c ∈ db.contacts.rows,
    ∃ c' ∈ (run db).contacts.rows, c'.standing = c.standing
  contacts_new : ∀ db, ∀ c' ∈ (run db).contacts.rows,
    (∃ c ∈ db.contacts.rows, c'.standing = c.standing) ∨
      (c'.consentStatus = .unknown ∧ normalizePhoneNumber c'.phone = .ok c'.phone)
  templates_kept : ∀ db, ∀ t ∈ db.templates.rows,
    ∃ t' ∈ (run db).templates.rows, t'.id = t.id ∧ t'.name = t.name ∧ t'.language = t.language

/-- The row that `CampaignsService.create` inserts. -/
def Campaign.drafted (id tenantId senderId templateId : Uuid) (audience : Json)
    (components : Option Json) (personalizationEnabled : Bool) (scheduledAt : Option Time) :
    Campaign where
  id := id
  tenantId := tenantId
  senderId := senderId
  templateId := templateId
  status := .draft
  audience := audience
  components := components
  personalizationEnabled := personalizationEnabled
  scheduledAt := scheduledAt
  snapshotAt := none
  startedAt := none
  completedAt := none
  cancelledAt := none
  failureReason := none
  totalRecipients := 0
  queuedRecipients := 0
  skippedRecipients := 0
  failedRecipients := 0
  cancelledRecipients := 0

/-- The commands of operators. -/
inductive OperatorCommand where
  | launch
  | pause
  | resume
  | cancel

/-- Where the call of a command starts. -/
def OperatorCommand.stage : OperatorCommand → OperatorStage
  | launch => .launch
  | pause => .pause
  | resume => .resume
  | cancel => .cancel

/-- The database, all workers and the history. -/
structure CampaignSystem where
  db : Db
  clock : Time
  workers : List Worker
  /-- History: the claims that were granted, recipient and deadline, the last one first. -/
  granted : List (Uuid × Time)
  /-- History: the claims that were completed, the last one first. -/
  completed : List (Uuid × Time)
  /-- History: the campaign and contact of each message that a pass has created. -/
  sent : List (Uuid × Uuid)

/-- The claims that a statement grants. -/
def CampaignWrite.grants (db : Db) (clock : Time) : CampaignWrite → List (Uuid × Time)
  | .claimRecipients leaseUntil ids =>
      (db.recipients.rows.filter (claims db clock ids)).map fun r => (r.id, leaseUntil)
  | _ => []

/-- The claims that a statement completes. -/
def CampaignWrite.completions (db : Db) : CampaignWrite → List (Uuid × Time)
  | .completeClaim claim _ =>
      (db.recipients.rows.filter (isHeld claim)).filterMap fun r =>
        r.processingLeaseUntil.map fun leaseUntil => (r.id, leaseUntil)
  | _ => []

/-- The campaign and contact of the message that a step of a pass creates. -/
def Worker.sends : Worker → WorkerAct → Option (Uuid × Uuid)
  | .pass { stage := .create _ loaded call, .. }, .create act =>
      (call.commits act).map fun _ => (loaded.campaign.id, loaded.recipient.contactId)
  | _, _ => none

/-- A worker that has just begun. -/
inductive Worker.IsNew : Worker → Prop where
  | pass : Worker.IsNew (.pass .begin)
  | operator (tenantId id : Uuid) (command : OperatorCommand) :
      Worker.IsNew (.operator { tenantId := tenantId, id := id, stage := command.stage })
  | api (tenantId : Uuid) (dto : CreateMessageDto) : Worker.IsNew (.api (.begin tenantId dto))

/-- It holds nothing and has no campaigns yet. -/
theorem Worker.IsNew.facts {w : Worker} (h : w.IsNew) :
    w.held = none ∧ w.refresh? = none ∧ w.campaigns = [] := by
  cases h with
  | pass => exact ⟨rfl, rfl, rfl⟩
  | operator tenantId id command => cases command <;> exact ⟨rfl, rfl, rfl⟩
  | api tenantId dto => exact ⟨rfl, rfl, rfl⟩

namespace CampaignSystem

/-- One move. -/
inductive Act where
  | tick (elapsed : Time)
  | other (write : UnrelatedToCampaigns)
  | recordConsent (tenantId id : Uuid) (decision : ConsentDecision) (source : String)
      (occurredAt : Time)
  | createCampaign (id tenantId senderId templateId : Uuid) (audience : Json)
      (components : Option Json) (personalizationEnabled : Bool) (scheduledAt : Option Time)
  | beginPass
  | beginOperator (tenantId id : Uuid) (command : OperatorCommand)
  | beginApi (tenantId : Uuid) (dto : CreateMessageDto)
  | worker (i : ℕ) (act : WorkerAct)

/-- Nothing is stored and nothing is running yet. -/
def start (clock : Time) : CampaignSystem where
  db := .empty
  clock := clock
  workers := []
  granted := []
  completed := []
  sent := []

/-- What all workers but one hold. -/
def locks (s : CampaignSystem) (i : ℕ) : List Held :=
  (s.workers.eraseIdx i).filterMap Worker.held

/-- One step. -/
def step (env : CampaignEnv) (s : CampaignSystem) : Act → Option CampaignSystem
  | .tick elapsed => some { s with clock := s.clock + elapsed }
  | .other write => some { s with db := write.run s.db }
  | .recordConsent tenantId id decision source occurredAt =>
      (s.db.recordConsent tenantId id decision source occurredAt).map fun db => { s with db := db }
  | .createCampaign id tenantId senderId templateId audience components personalized scheduledAt =>
      let row := Campaign.drafted id tenantId senderId templateId audience components personalized
        scheduledAt
      ((CampaignWrite.insert row).run s.db s.clock).map fun db => { s with db := db }
  | .beginPass => some { s with workers := s.workers ++ [.pass .begin] }
  | .beginOperator tenantId id command =>
      some { s with
        workers := s.workers ++ [.operator { tenantId := tenantId, id := id, stage := command.stage }] }
  | .beginApi tenantId dto => some { s with workers := s.workers ++ [.api (.begin tenantId dto)] }
  | .worker i act =>
      s.workers[i]?.bind fun w =>
        (w.step env s.db s.clock (s.locks i) act).map fun result =>
          { s with
            db := result.db
            workers := s.workers.set i result.worker
            granted := (result.write.map (CampaignWrite.grants s.db s.clock)).getD [] ++ s.granted
            completed := (result.write.map (CampaignWrite.completions s.db)).getD [] ++ s.completed
            sent := (w.sends act).toList ++ s.sent }

/-! ## What a step can be -/

/-- The statement of a step that writes campaigns or recipients. -/
def written (env : CampaignEnv) (s : CampaignSystem) : Act → Option CampaignWrite
  | .createCampaign id tenantId senderId templateId audience components personalized scheduledAt =>
      some (.insert (.drafted id tenantId senderId templateId audience components personalized
        scheduledAt))
  | .worker i act =>
      (s.workers[i]?.bind fun w => w.step env s.db s.clock (s.locks i) act).bind Worker.Result.write
  | _ => none

section cases

variable {env : CampaignEnv} {s s' : CampaignSystem} {a : Act}

/-- A step of a worker. -/
theorem worker_step {i : ℕ} {act : WorkerAct} (h : s.step env (.worker i act) = some s') :
    ∃ w result, s.workers[i]? = some w ∧
      w.step env s.db s.clock (s.locks i) act = some result ∧
      written env s (.worker i act) = result.write ∧
      s' = { s with
        db := result.db
        workers := s.workers.set i result.worker
        granted := (result.write.map (CampaignWrite.grants s.db s.clock)).getD [] ++ s.granted
        completed := (result.write.map (CampaignWrite.completions s.db)).getD [] ++ s.completed
        sent := (w.sends act).toList ++ s.sent } := by
  obtain ⟨w, hw, h⟩ := Option.bind_eq_some_iff.mp h
  obtain ⟨result, hresult, rfl⟩ := Option.map_eq_some_iff.mp h
  refine ⟨w, result, hw, hresult, ?_, rfl⟩
  simp [written, hw, hresult]

/-- The worker after its own step. -/
theorem worker_moved {i : ℕ} {act : WorkerAct} {w : Worker}
    (h : s.step env (.worker i act) = some s') (hw : s.workers[i]? = some w) :
    ∃ result, w.step env s.db s.clock (s.locks i) act = some result ∧
      s'.workers[i]? = some result.worker ∧ written env s (.worker i act) = result.write ∧
      s'.db = result.db := by
  obtain ⟨w₀, result, hw₀, hresult, hwritten, rfl⟩ := worker_step h
  rw [hw] at hw₀
  cases hw₀
  refine ⟨result, hresult, ?_, hwritten, rfl⟩
  show (s.workers.set i result.worker)[i]? = some result.worker
  exact List.getElem?_set_self (List.getElem?_eq_some_iff.mp hw).1

/-- A step leaves campaigns and recipients alone, or it runs its statement. -/
theorem step_tables (h : s.step env a = some s') :
    (written env s a = none ∧ s'.db.campaigns = s.db.campaigns ∧
        s'.db.recipients = s.db.recipients) ∨
      ∃ write, written env s a = some write ∧ write.run s.db s.clock = some s'.db := by
  cases a with
  | tick elapsed | beginPass | beginOperator tenantId id command | beginApi tenantId dto =>
      cases h
      exact .inl ⟨rfl, rfl, rfl⟩
  | other write =>
      cases h
      exact .inl ⟨rfl, write.campaigns_run s.db, write.recipients_run s.db⟩
  | recordConsent tenantId id decision source occurredAt =>
      obtain ⟨db, hdb, rfl⟩ := Option.map_eq_some_iff.mp h
      obtain ⟨contacts, consentEvents, rfl⟩ := Db.recordConsent_frame hdb
      exact .inl ⟨rfl, rfl, rfl⟩
  | createCampaign id tenantId senderId templateId audience components personalized scheduledAt =>
      obtain ⟨db, hdb, rfl⟩ := Option.map_eq_some_iff.mp h
      exact .inr ⟨_, rfl, hdb⟩
  | worker i act =>
      obtain ⟨w, result, hw, hresult, hwritten, rfl⟩ := worker_step h
      rw [hwritten]
      exact Worker.step_tables hresult

/-- The history records what the statement grants and completes. -/
theorem step_history (h : s.step env a = some s') :
    s'.granted = ((written env s a).map (CampaignWrite.grants s.db s.clock)).getD [] ++ s.granted ∧
      s'.completed =
        ((written env s a).map (CampaignWrite.completions s.db)).getD [] ++ s.completed := by
  cases a with
  | tick _ | other _ | beginPass | beginOperator _ _ _ | beginApi _ _ =>
      cases h
      exact ⟨rfl, rfl⟩
  | recordConsent tenantId id decision source occurredAt =>
      obtain ⟨db, -, rfl⟩ := Option.map_eq_some_iff.mp h
      exact ⟨rfl, rfl⟩
  | createCampaign id tenantId senderId templateId audience components personalized scheduledAt =>
      obtain ⟨db, -, rfl⟩ := Option.map_eq_some_iff.mp h
      exact ⟨rfl, rfl⟩
  | worker i act =>
      obtain ⟨w, result, hw, hresult, hwritten, rfl⟩ := worker_step h
      rw [hwritten]
      exact ⟨rfl, rfl⟩

/-- The campaign after a step, from the one before. -/
def campaignAfter (env : CampaignEnv) (s : CampaignSystem) (a : Act) (c : Campaign) : Campaign :=
  (written env s a).elim c fun write => write.campaign c

/-- The recipient after a step, from the one before. -/
def recipientAfter (env : CampaignEnv) (s : CampaignSystem) (a : Act) (r : CampaignRecipient) :
    CampaignRecipient :=
  (written env s a).elim r fun write => write.recipient s.db s.clock r

/-- **Campaigns after a step.** Those before, each moved by the statement, and one that is new. -/
theorem campaigns_step (h : s.step env a = some s') :
    (∀ c ∈ s.db.campaigns.rows, campaignAfter env s a c ∈ s'.db.campaigns.rows) ∧
      ∀ c' ∈ s'.db.campaigns.rows,
        (∃ c ∈ s.db.campaigns.rows, c' = campaignAfter env s a c) ∨
          (written env s a = some (.insert c') ∧ ∀ c ∈ s.db.campaigns.rows, c.id ≠ c'.id) := by
  rcases step_tables h with ⟨hnone, hcampaigns, -⟩ | ⟨write, hwrite, hrun⟩
  · simp only [campaignAfter, hnone, hcampaigns, Option.elim_none]
    exact ⟨fun c hc => hc, fun c' hc' => .inl ⟨c', hc', rfl⟩⟩
  · simp only [campaignAfter, hwrite, Option.elim_some, Option.some.injEq]
    exact CampaignWrite.campaigns_run hrun

/-- **Recipients after a step.** Those before, each moved by the statement, and those of a launch. -/
theorem recipients_step (h : s.step env a = some s') :
    (∀ r ∈ s.db.recipients.rows, recipientAfter env s a r ∈ s'.db.recipients.rows) ∧
      ∀ r' ∈ s'.db.recipients.rows,
        (∃ r ∈ s.db.recipients.rows, r' = recipientAfter env s a r) ∨
          ∃ id contactIds rowIds now, written env s a = some (.launch id contactIds rowIds now) ∧
            r' ∈ CampaignWrite.launched id contactIds rowIds s.clock := by
  rcases step_tables h with ⟨hnone, -, hrecipients⟩ | ⟨write, hwrite, hrun⟩
  · simp only [recipientAfter, hnone, hrecipients, Option.elim_none]
    exact ⟨fun r hr => hr, fun r' hr' => .inl ⟨r', hr', rfl⟩⟩
  · simp only [recipientAfter, hwrite, Option.elim_some, Option.some.injEq]
    exact CampaignWrite.recipients_run hrun

/-- The recipients after a step, as a list: of a launch, or the image of those before. -/
theorem recipients_rows (h : s.step env a = some s') :
    (∃ id contactIds rowIds now, written env s a = some (.launch id contactIds rowIds now) ∧
        s'.db.recipients =
          s.db.recipients.insertAll (CampaignWrite.launched id contactIds rowIds s.clock)) ∨
      ((∀ id contactIds rowIds now, written env s a ≠ some (.launch id contactIds rowIds now)) ∧
        s'.db.recipients.rows = s.db.recipients.rows.map (recipientAfter env s a)) := by
  rcases step_tables h with ⟨hnone, -, hrecipients⟩ | ⟨write, hwrite, hrun⟩
  · refine .inr ⟨by simp [hnone], ?_⟩
    have hafter : recipientAfter env s a = id := by
      funext r
      simp [recipientAfter, hnone]
    rw [hrecipients, hafter, List.map_id]
  · rcases CampaignWrite.recipients_rows hrun with ⟨id, contactIds, rowIds, now, rfl, hrows⟩ |
      ⟨hnot, hrows⟩
    · exact .inl ⟨id, contactIds, rowIds, now, hwrite, hrows⟩
    · refine .inr ⟨by simpa [hwrite] using hnot, ?_⟩
      have hafter : recipientAfter env s a = write.recipient s.db s.clock := by
        funext r
        simp [recipientAfter, hwrite]
      rw [hrows, hafter]

/-- **Workers after a step.** A worker is the one it was, has just begun, or has made the step. -/
theorem workers_step (h : s.step env a = some s') {j : ℕ} {w' : Worker}
    (hj : s'.workers[j]? = some w') :
    (s.workers[j]? = some w' ∧ ∀ act, a ≠ .worker j act) ∨ w'.IsNew ∨
      ∃ act w result, a = .worker j act ∧ s.workers[j]? = some w ∧
        w.step env s.db s.clock (s.locks j) act = some result ∧ w' = result.worker ∧
        written env s a = result.write ∧ s'.db = result.db := by
  cases a with
  | tick _ | other _ =>
      cases h
      exact .inl ⟨hj, by simp⟩
  | recordConsent _ _ _ _ _ | createCampaign _ _ _ _ _ _ _ _ =>
      obtain ⟨db, -, rfl⟩ := Option.map_eq_some_iff.mp h
      exact .inl ⟨hj, by simp⟩
  | beginPass =>
      cases h
      rcases getElem?_append_cases hj with ⟨-, rfl⟩ | hj
      · exact .inr (.inl .pass)
      · exact .inl ⟨hj, by simp⟩
  | beginOperator tenantId id command =>
      cases h
      rcases getElem?_append_cases hj with ⟨-, rfl⟩ | hj
      · exact .inr (.inl (.operator tenantId id command))
      · exact .inl ⟨hj, by simp⟩
  | beginApi tenantId dto =>
      cases h
      rcases getElem?_append_cases hj with ⟨-, rfl⟩ | hj
      · exact .inr (.inl (.api tenantId dto))
      · exact .inl ⟨hj, by simp⟩
  | worker i act =>
      obtain ⟨w, result, hw, hresult, hwritten, rfl⟩ := worker_step h
      rcases getElem?_set_cases hj with ⟨rfl, rfl⟩ | ⟨hne, hj⟩
      · exact .inr (.inr ⟨act, w, result, rfl, hw, hresult, rfl, hwritten, rfl⟩)
      · exact .inl ⟨hj, by simp [Ne.symm hne]⟩

/-- A pass after a step is one that was there, a new one, or one that has moved. -/
theorem pass_step (h : s.step env a = some s') {j : ℕ} {p' : Pass}
    (hj : s'.workers[j]? = some (.pass p')) :
    (s.workers[j]? = some (.pass p') ∧ ∀ act, a ≠ .worker j act) ∨ p' = .begin ∨
      ∃ act p result, a = .worker j act ∧ s.workers[j]? = some (.pass p) ∧
        (Worker.pass p).step env s.db s.clock (s.locks j) act = some result ∧
        Worker.PassMoves env s.db s.clock act p p' ∧ written env s a = result.write ∧
        s'.db = result.db := by
  rcases workers_step h hj with hsame | hnew |
    ⟨act, w, result, hact, hw, hresult, hworker, hwritten, hdb⟩
  · exact .inl hsame
  · cases hnew
    exact .inr (.inl rfl)
  · cases w with
    | pass p =>
        obtain ⟨p₁, hp₁, hmoves⟩ := Worker.pass_moves hresult
        rw [hp₁] at hworker
        cases hworker
        exact .inr (.inr ⟨act, p, result, hact, hw, hresult, hmoves, hwritten, hdb⟩)
    | operator o =>
        obtain ⟨o', ho', -⟩ := Worker.operator_moves hresult
        rw [ho'] at hworker
        cases hworker
    | api call =>
        obtain ⟨call', hcall'⟩ := Worker.api_moves hresult
        rw [hcall'] at hworker
        cases hworker

/-- A worker that makes no step stays as it is. -/
theorem worker_kept (h : s.step env a = some s') {j : ℕ} {w : Worker}
    (hj : s.workers[j]? = some w) (hother : ∀ act, a ≠ .worker j act) :
    s'.workers[j]? = some w := by
  have happend : ∀ w', (s.workers ++ [w'])[j]? = some w := by
    intro w'
    have hlt := (List.getElem?_eq_some_iff.mp hj).1
    rwa [List.getElem?_append_left hlt]
  cases a with
  | tick _ | other _ =>
      cases h
      exact hj
  | recordConsent _ _ _ _ _ | createCampaign _ _ _ _ _ _ _ _ =>
      obtain ⟨db, -, rfl⟩ := Option.map_eq_some_iff.mp h
      exact hj
  | beginPass | beginOperator _ _ _ | beginApi _ _ =>
      cases h
      exact happend _
  | worker i act =>
      obtain ⟨w₀, result, hw, hresult, hwritten, rfl⟩ := worker_step h
      have hne : i ≠ j := by
        rintro rfl
        exact hother act rfl
      show (s.workers.set i result.worker)[j]? = some w
      rwa [List.getElem?_set_ne hne]

/-- **The writer.** A statement inserts a new campaign, or a worker runs it. -/
theorem writes_step {write : CampaignWrite} (hwrite : written env s a = some write) :
    (∃ id tenantId senderId templateId audience components personalized scheduledAt,
        a = .createCampaign id tenantId senderId templateId audience components personalized
          scheduledAt ∧
        write = .insert (.drafted id tenantId senderId templateId audience components personalized
          scheduledAt)) ∨
      ∃ i act w result, a = .worker i act ∧ s.workers[i]? = some w ∧
        w.step env s.db s.clock (s.locks i) act = some result ∧ result.write = some write ∧
        w.Writes env s.db write := by
  cases a with
  | createCampaign id tenantId senderId templateId audience components personalized scheduledAt =>
      cases hwrite
      exact .inl ⟨_, _, _, _, _, _, _, _, rfl, rfl⟩
  | worker i act =>
      obtain ⟨result, hresult, hwrite⟩ := Option.bind_eq_some_iff.mp hwrite
      obtain ⟨w, hw, hresult⟩ := Option.bind_eq_some_iff.mp hresult
      obtain ⟨hwrites, -⟩ := Worker.writes_of_step hresult hwrite
      exact .inr ⟨i, act, w, result, rfl, hw, hresult, hwrite, hwrites⟩
  | _ => cases hwrite

/-! ## Messages, contacts and templates -/

/-- The transaction of `messages.create` that a step commits. -/
def committed (s : CampaignSystem) : Act → Option (CreateCall × MessageDraft × CreateIds)
  | .worker i act => s.workers[i]?.bind fun w => w.commits act
  | _ => none

/-- Such a step is one of the worker whose call it is. -/
theorem committed_call {call : CreateCall} {draft : MessageDraft} {ids : CreateIds}
    (h : committed s a = some (call, draft, ids)) :
    ∃ i create w, a = .worker i (.create create) ∧ s.workers[i]? = some w ∧
      w.call? = some call ∧ call.commits create = some (draft, ids) := by
  cases a with
  | worker i act =>
      obtain ⟨w, hw, hcommits⟩ := Option.bind_eq_some_iff.mp h
      cases act with
      | create create =>
          obtain ⟨call₁, hcall, hmap⟩ := Option.bind_eq_some_iff.mp hcommits
          obtain ⟨⟨draft₁, ids₁⟩, hcall₁, heq⟩ := Option.map_eq_some_iff.mp hmap
          cases heq
          exact ⟨i, create, w, rfl, hw, hcall, hcall₁⟩
      | _ => cases hcommits
  | _ => cases h

/-- **Messages after a step.** One is created, or all are what they were and those that are new were
received. -/
theorem messages_step (h : s.step env a = some s') :
    (committed s a = none ∧
        (∀ m ∈ s.db.messages.rows, ∃ m' ∈ s'.db.messages.rows, m'.origin = m.origin) ∧
        ∀ m' ∈ s'.db.messages.rows, (∃ m ∈ s.db.messages.rows, m'.origin = m.origin) ∨
          (m'.direction = .inbound ∧ m'.idempotencyKey = none)) ∨
      ∃ call draft ids m, committed s a = some (call, draft, ids) ∧
        s.db.commitCreate s.clock call.tenantId call.dto.idempotencyKey draft ids =
          some (s'.db, m) := by
  have hsame : s'.db.messages = s.db.messages →
      (∀ m ∈ s.db.messages.rows, ∃ m' ∈ s'.db.messages.rows, m'.origin = m.origin) ∧
        ∀ m' ∈ s'.db.messages.rows, (∃ m ∈ s.db.messages.rows, m'.origin = m.origin) ∨
          (m'.direction = .inbound ∧ m'.idempotencyKey = none) := by
    intro heq
    rw [heq]
    exact ⟨fun m hm => ⟨m, hm, rfl⟩, fun m hm => .inl ⟨m, hm, rfl⟩⟩
  cases a with
  | tick _ | beginPass | beginOperator _ _ _ | beginApi _ _ =>
      cases h
      exact .inl ⟨rfl, hsame rfl⟩
  | other write =>
      cases h
      exact .inl ⟨rfl, write.messages_kept s.db, write.messages_new s.db⟩
  | recordConsent _ _ _ _ _ =>
      obtain ⟨db, hdb, rfl⟩ := Option.map_eq_some_iff.mp h
      obtain ⟨_, _, rfl⟩ := Db.recordConsent_frame hdb
      exact .inl ⟨rfl, hsame rfl⟩
  | createCampaign _ _ _ _ _ _ _ _ =>
      obtain ⟨db, hdb, rfl⟩ := Option.map_eq_some_iff.mp h
      obtain ⟨_, _, rfl⟩ := CampaignWrite.run_frame hdb
      exact .inl ⟨rfl, hsame rfl⟩
  | worker i act =>
      obtain ⟨w, result, hw, hresult, -, rfl⟩ := worker_step h
      simp only [committed, hw, Option.bind_some]
      rcases Worker.step_messages hresult with ⟨hnone, hmessages, -⟩ | hcommits
      · exact .inl ⟨hnone, hsame hmessages⟩
      · exact .inr hcommits

/-- **Contacts after a step.** A contact keeps its number, and changes its consent only by
`recordConsent`; new contacts have given none. -/
theorem contacts_step (h : s.step env a = some s') :
    (∀ c ∈ s.db.contacts.rows, ∃ c' ∈ s'.db.contacts.rows, c'.id = c.id ∧ c'.phone = c.phone) ∧
      ∀ c' ∈ s'.db.contacts.rows,
        (∃ c ∈ s.db.contacts.rows, c'.standing = c.standing) ∨
          (c'.consentStatus = .unknown ∧ normalizePhoneNumber c'.phone = .ok c'.phone) ∨
          ∃ c ∈ s.db.contacts.rows, ∃ tenantId decision source occurredAt,
            a = .recordConsent tenantId c.id decision source occurredAt ∧
              c' = c.decided decision source occurredAt := by
  have hsame : s'.db.contacts = s.db.contacts →
      (∀ c ∈ s.db.contacts.rows, ∃ c' ∈ s'.db.contacts.rows, c'.id = c.id ∧ c'.phone = c.phone) ∧
        ∀ c' ∈ s'.db.contacts.rows, (∃ c ∈ s.db.contacts.rows, c'.standing = c.standing) ∨
          (c'.consentStatus = .unknown ∧ normalizePhoneNumber c'.phone = .ok c'.phone) ∨
          ∃ c ∈ s.db.contacts.rows, ∃ tenantId decision source occurredAt,
            a = .recordConsent tenantId c.id decision source occurredAt ∧
              c' = c.decided decision source occurredAt := by
    intro heq
    rw [heq]
    exact ⟨fun c hc => ⟨c, hc, rfl, rfl⟩, fun c hc => .inl ⟨c, hc, rfl⟩⟩
  cases a with
  | tick _ | beginPass | beginOperator _ _ _ | beginApi _ _ =>
      cases h
      exact hsame rfl
  | other write =>
      cases h
      refine ⟨fun c hc => ?_, fun c' hc' => ?_⟩
      · obtain ⟨c', hc', hstanding⟩ := write.contacts_kept s.db c hc
        simp only [Contact.standing, Prod.mk.injEq] at hstanding
        exact ⟨c', hc', hstanding.1, hstanding.2.2.1⟩
      · rcases write.contacts_new s.db c' hc' with hold | hnew
        · exact .inl hold
        · exact .inr (.inl hnew)
  | recordConsent tenantId id decision source occurredAt =>
      obtain ⟨db, hdb, rfl⟩ := Option.map_eq_some_iff.mp h
      obtain ⟨f, hrows, hf⟩ := Db.recordConsent_contacts hdb
      rw [hrows]
      refine ⟨fun c hc => ⟨f c, List.mem_map_of_mem hc, ?_⟩, fun c' hc' => ?_⟩
      · rcases hf c with heq | ⟨-, heq⟩ <;> rw [heq]
        · exact ⟨rfl, rfl⟩
        · exact ⟨rfl, rfl⟩
      · obtain ⟨c, hc, rfl⟩ := List.mem_map.mp hc'
        rcases hf c with heq | ⟨hid, heq⟩
        · exact .inl ⟨c, hc, by rw [heq]⟩
        · exact .inr (.inr ⟨c, hc, tenantId, decision, source, occurredAt, by rw [hid], heq⟩)
  | createCampaign _ _ _ _ _ _ _ _ =>
      obtain ⟨db, hdb, rfl⟩ := Option.map_eq_some_iff.mp h
      obtain ⟨_, _, rfl⟩ := CampaignWrite.run_frame hdb
      exact hsame rfl
  | worker i act =>
      obtain ⟨w, result, hw, hresult, -, rfl⟩ := worker_step h
      rcases Worker.step_messages hresult with ⟨-, -, hcontacts, -⟩ | ⟨_, _, _, _, -, hcommit⟩
      · exact hsame hcontacts
      · obtain ⟨_, _, _, _, hdb⟩ := Db.commitCreate_frame hcommit
        exact hsame (by rw [show result.db = _ from hdb])

/-- Templates keep their names. -/
theorem templates_step (h : s.step env a = some s') :
    ∀ t ∈ s.db.templates.rows, ∃ t' ∈ s'.db.templates.rows,
      t'.id = t.id ∧ t'.name = t.name ∧ t'.language = t.language := by
  have hsame : s'.db.templates = s.db.templates → ∀ t ∈ s.db.templates.rows,
      ∃ t' ∈ s'.db.templates.rows, t'.id = t.id ∧ t'.name = t.name ∧ t'.language = t.language := by
    intro heq t ht
    rw [heq]
    exact ⟨t, ht, rfl, rfl, rfl⟩
  cases a with
  | tick _ | beginPass | beginOperator _ _ _ | beginApi _ _ =>
      cases h
      exact hsame rfl
  | other write =>
      cases h
      exact write.templates_kept s.db
  | recordConsent _ _ _ _ _ =>
      obtain ⟨db, hdb, rfl⟩ := Option.map_eq_some_iff.mp h
      obtain ⟨_, _, rfl⟩ := Db.recordConsent_frame hdb
      exact hsame rfl
  | createCampaign _ _ _ _ _ _ _ _ =>
      obtain ⟨db, hdb, rfl⟩ := Option.map_eq_some_iff.mp h
      obtain ⟨_, _, rfl⟩ := CampaignWrite.run_frame hdb
      exact hsame rfl
  | worker i act =>
      obtain ⟨w, result, hw, hresult, -, rfl⟩ := worker_step h
      rcases Worker.step_messages hresult with ⟨-, -, -, htemplates⟩ | ⟨_, _, _, _, -, hcommit⟩
      · exact hsame htemplates
      · obtain ⟨_, _, _, _, hdb⟩ := Db.commitCreate_frame hcommit
        exact hsame (by rw [show result.db = _ from hdb])

/-! ## Locks -/

/-- What a worker holds is locked for every other one. -/
theorem mem_locks {i j : ℕ} {w : Worker} {held : Held} (hj : s.workers[j]? = some w)
    (hheld : w.held = some held) (hne : j ≠ i) : held ∈ s.locks i :=
  List.mem_filterMap.mpr ⟨w, List.mem_eraseIdx_iff_getElem?.mpr ⟨j, hne, hj⟩, hheld⟩

/-- While a worker holds rows no other statement updates its campaign or claims its recipients. -/
theorem not_waiting_of_held {write : CampaignWrite} (hwrite : written env s a = some write) {j : ℕ}
    {w : Worker} {held : Held} (hj : s.workers[j]? = some w) (hheld : w.held = some held)
    (hother : ∀ act, a ≠ .worker j act) :
    ∃ next, Worker.waitsFor s.db held (some write) next = false := by
  rcases writes_step hwrite with ⟨_, _, _, _, _, _, _, _, -, rfl⟩ |
    ⟨i, act, w', result, rfl, -, hresult, hwrite, -⟩
  · refine ⟨.pass .begin, ?_⟩
    simp [Worker.waitsFor, CampaignWrite.targets, Worker.held, Pass.begin]
  · have hne : j ≠ i := by
      rintro rfl
      exact hother act rfl
    exact (Worker.writes_of_step hresult hwrite).2 held (mem_locks hj hheld hne)

theorem not_targets_of_held {write : CampaignWrite} (hwrite : written env s a = some write) {j : ℕ}
    {w : Worker} {held : Held} (hj : s.workers[j]? = some w) (hheld : w.held = some held)
    (hother : ∀ act, a ≠ .worker j act) {c : Campaign} (hc : c ∈ s.db.campaigns.rows)
    (hid : c.id = held.campaignId) : write.targets c = false := by
  obtain ⟨next, hnext⟩ := not_waiting_of_held hwrite hj hheld hother
  simp only [Worker.waitsFor, Bool.or_eq_false_iff] at hnext
  have hrows := hnext.1.1
  simp only [Option.any_some, List.any_eq_false] at hrows
  simpa [hid] using hrows c hc

end cases

end CampaignSystem

/-! ## A small campaign -/

/-- Default settings; no message of the campaign has media or personal values. -/
def sampleCampaignEnv : CampaignEnv where
  config :=
    { maxRecipientsRaw := none, batchSizeRaw := none, leaseMsRaw := none, maxAttemptsRaw := none }
  normalizeMediaPayload := fun _ payload => .ok payload
  renderCampaignComponents := fun components _ => .ok components

/-- The sender of the campaign. -/
def sampleCampaignSender : WhatsAppPhoneNumber := { sampleSender with wabaId := some "w" }

/-- Its template. -/
def sampleTemplate : MessageTemplate where
  id := 9
  tenantId := 1
  wabaId := "w"
  providerTemplateId := "t"
  name := "promo"
  language := "en"
  category := some "MARKETING"
  status := "APPROVED"

/-- The tenant registers the sender, the template and a contact. -/
def sampleTenant : UnrelatedToCampaigns where
  run db :=
    { db with
      phoneNumbers := db.phoneNumbers.insertAll [sampleCampaignSender]
      templates := db.templates.insertAll [sampleTemplate]
      contacts := db.contacts.insertAll [sampleContact] }
  campaigns_run _ := rfl
  recipients_run _ := rfl
  messages_kept _ m hm := ⟨m, hm, rfl⟩
  messages_new _ m hm := .inl ⟨m, hm, rfl⟩
  contacts_kept db c hc := ⟨c, (db.contacts.mem_insertAll [sampleContact]).2 c hc, rfl⟩
  contacts_new db c hc := by
    rcases (db.contacts.mem_insertAll [sampleContact]).1 c hc with hc | hc
    · exact .inl ⟨c, hc, rfl⟩
    · obtain rfl := List.mem_singleton.mp hc
      exact .inr ⟨rfl, by decide⟩
  templates_kept db t ht := ⟨t, (db.templates.mem_insertAll [sampleTemplate]).2 t ht, rfl, rfl, rfl⟩

namespace CampaignSystem

/-- The pending call of a worker returns. -/
def Act.returns (i : ℕ) (ids : List Uuid) : Act := .worker i (.call .returned 0 ids)

/-- The contact opts in, and worker `0` launches a campaign for it. -/
def sampleLaunch : List Act :=
  [.other sampleTenant, .recordConsent 1 8 .optedIn "web" 0,
    .createCampaign 20 1 7 9 (.obj [("allOptedIn", .bool true)]) none false none,
    .beginOperator 1 20 .launch, .returns 0 [], .returns 0 [30]]

/-- Worker `i` claims the recipient and reads it. -/
def sampleClaim (i : ℕ) : List Act :=
  [.beginPass, .returns i [], .returns i [30], .worker i (.run 0), .returns i [], .returns i []]

/-- Worker `i` creates the message. -/
def sampleCreate (i : ℕ) : List Act :=
  List.replicate 5 (.worker i (.create (.call .returned sampleIds)))

/-- Worker `i` completes the claim and refreshes the campaign. -/
def sampleFinish (i : ℕ) : List Act :=
  [.worker i (.run 0), .returns i [], .worker i (.run 0), .returns i [], .returns i [],
    .returns i []]

end CampaignSystem

end ApiWhatsApp
