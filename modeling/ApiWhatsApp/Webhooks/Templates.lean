import ApiWhatsApp.PhoneNumbers.Ownership
import ApiWhatsApp.Webhooks.System

/-!
# Template statuses from webhooks

`webhooks/template-status-webhook.service.ts` and `applyProviderStatusUpdate` of
`templates/templates.service.ts`: the middle one of the three steps that a poll takes for an event.
`TemplateSystem` puts its database calls into the runs of `WebhookSystem`, where a poll stays at its
stage `templates` until they are done.

* `extractUpdates` reads the payload; `Db.applyTemplateUpdate` is the write, which overwrites
  whatever status the template has.
* The history `log` records which event has set which template, and whether the event had been
  claimed more than once by then; `received` lists the events in the order of their arrival.
* A retry repeats all three steps. `writesOvertaken` names the harm: an event that has been claimed
  more than once writes a template after an event received later has written it.
* **`template_status_survives`** — in every run without it, the writes are in order and what a later
  event has set is not changed by an earlier one. `approval_replayed` is a run in which a rejected
  template is approved again.

The columns `rejectionReason`, `providerPayload` and `lastSyncedAt` are written here and read by
nothing that is modelled; they are left out.
-/

namespace ApiWhatsApp

open Library

/-! ## Payloads -/

/-- Source: `interface TemplateStatusWebhookUpdate`. -/
structure TemplateStatusUpdate where
  wabaId : String
  providerTemplateId : String
  name : String
  language : String
  status : String
  rejectionReason : Option String
  raw : Json

/-- Source: `asString`. -/
def asString : Option Json → Option String
  | some (.str text) => if text = "" then none else some text
  | some (.num mantissa exponent) => some (Json.numberText mantissa exponent)
  | _ => none

/-- One change of an entry, when it is a complete status update. -/
def readTemplateUpdate (wabaId : String) (change : Json) : Option TemplateStatusUpdate := do
  if (change.get? "field").bind Json.string? ≠ some "message_template_status_update" then none else
  let raw ← change.get? "value"
  let providerTemplateId ← asString (raw.get? "message_template_id")
  let name ← asString (raw.get? "message_template_name")
  let language ← asString (raw.get? "message_template_language")
  let status ← asString (raw.get? "event")
  some { wabaId := wabaId, providerTemplateId := providerTemplateId, name := name,
         language := language, status := toUpperCase status,
         rejectionReason := (raw.get? "reason").bind Json.string?, raw := raw }

/-- Source: `extractUpdates`. -/
def extractUpdates (payload : Json) : List TemplateStatusUpdate :=
  (arrayAt payload "entry").flatMap fun entry =>
    match asString (entry.get? "id") with
    | none => []
    | some wabaId => (arrayAt entry "changes").filterMap (readTemplateUpdate wabaId)

/-! ## The write -/

/-- The row that an update is going to write: the one that was found by its provider id, else the
one of the same name and language. -/
def Db.templateTarget (db : Db) (tenantId : Uuid) (update : TemplateStatusUpdate)
    (found : Option Uuid) : Option MessageTemplate :=
  match found with
  | some id => db.templates.find (.id id)
  | none => db.templates.find (.identity tenantId update.wabaId update.name update.language)

/-- The id of that row; `newId` is the one of a new row. -/
def Db.writtenTemplate (db : Db) (newId tenantId : Uuid) (update : TemplateStatusUpdate)
    (found : Option Uuid) : Uuid :=
  ((db.templateTarget tenantId update found).map MessageTemplate.id).getD newId

/-- The end of `applyProviderStatusUpdate`, and the id of the row that it wrote; `none` is a unique
violation, or a row that is gone. -/
def Db.applyTemplateUpdate (db : Db) (newId tenantId : Uuid) (update : TemplateStatusUpdate)
    (found : Option Uuid) : Option (Db × Uuid) :=
  let status := toUpperCase update.status
  match found, db.templateTarget tenantId update found with
  | some id, _ =>
      (db.templates.update? (.id id) fun r =>
        { r with name := update.name, language := update.language, status := status }).map
          fun templates => ({ db with templates := templates }, id)
  | none, some row =>
      (db.templates.update? (.id row.id) fun r =>
        { r with providerTemplateId := update.providerTemplateId, status := status }).map
          fun templates => ({ db with templates := templates }, row.id)
  | none, none =>
      (db.templates.insert? {
        id := newId
        tenantId := tenantId
        wabaId := update.wabaId
        providerTemplateId := update.providerTemplateId
        name := update.name
        language := update.language
        category := none
        status := status }).map fun templates => ({ db with templates := templates }, newId)

/-- The status of a template. -/
def Db.templateStatus (db : Db) (id : Uuid) : Option String :=
  (db.templates.find (.id id)).map MessageTemplate.status

theorem mem_keys_template_id {r : MessageTemplate} {id : Uuid} :
    TemplateKey.id id ∈ Keyed.keys r ↔ r.id = id := by
  simp [Keyed.keys, eq_comm]

/-- An update of one row sets its status and no other. -/
theorem templateStatus_of_update? {db : Db} {id : Uuid} {f : MessageTemplate → MessageTemplate}
    {templates : Table MessageTemplate} {status : String}
    (h : db.templates.update? (.id id) f = some templates) (hid : ∀ r, (f r).id = r.id)
    (hstatus : ∀ r, (f r).status = status) (j : Uuid) :
    ({ db with templates := templates } : Db).templateStatus j =
      if j = id then some status else db.templateStatus j := by
  have hkeep : ∀ r, TemplateKey.id j ∈ Keyed.keys (f r) ↔ TemplateKey.id j ∈ Keyed.keys r := by
    intro r
    rw [mem_keys_template_id, mem_keys_template_id, hid]
  obtain ⟨row, hrow⟩ := Table.exists_find_of_update? h
  rw [Db.templateStatus, Table.find_of_update? h fun r _ => hkeep r]
  by_cases hj : j = id
  · subst hj
    have hkey := (db.templates.find_eq_some_iff.mp hrow).2
    simp [hrow, hkey, hstatus]
  · rw [if_neg hj, Db.templateStatus]
    rcases hfind : db.templates.find (.id j) with _ | r
    · rfl
    · have hr : r.id = j := mem_keys_template_id.mp (db.templates.find_eq_some_iff.mp hfind).2
      have hnot : TemplateKey.id id ∉ Keyed.keys r := by
        rw [mem_keys_template_id, hr]
        exact hj
      simp [hnot]

/-- **The write** sets the status of one template, whatever it was. -/
theorem Db.applyTemplateUpdate_spec {db db' : Db} {newId tenantId id : Uuid}
    {update : TemplateStatusUpdate} {found : Option Uuid}
    (h : db.applyTemplateUpdate newId tenantId update found = some (db', id)) :
    (∃ templates, db' = { db with templates := templates }) ∧
      id = db.writtenTemplate newId tenantId update found ∧
      ∀ j, db'.templateStatus j =
        if j = id then some (toUpperCase update.status) else db.templateStatus j := by
  unfold Db.applyTemplateUpdate at h
  simp only at h
  split at h
  · rename_i i
    obtain ⟨templates, hupdate, h⟩ := Option.map_eq_some_iff.mp h
    cases h
    refine ⟨⟨templates, rfl⟩, ?_, templateStatus_of_update? hupdate (fun _ => rfl) fun _ => rfl⟩
    obtain ⟨row, hrow⟩ := Table.exists_find_of_update? hupdate
    have hid : row.id = id := mem_keys_template_id.mp (db.templates.find_eq_some_iff.mp hrow).2
    simp [Db.writtenTemplate, Db.templateTarget, hrow, hid]
  · rename_i row htarget
    obtain ⟨templates, hupdate, h⟩ := Option.map_eq_some_iff.mp h
    cases h
    refine ⟨⟨templates, rfl⟩, ?_, templateStatus_of_update? hupdate (fun _ => rfl) fun _ => rfl⟩
    simp [Db.writtenTemplate, htarget]
  · rename_i htarget
    obtain ⟨templates, hinsert, h⟩ := Option.map_eq_some_iff.mp h
    cases h
    refine ⟨⟨templates, rfl⟩, by simp [Db.writtenTemplate, htarget], fun j => ?_⟩
    rw [Db.templateStatus, Table.find_of_insert? hinsert]
    simp only [mem_keys_template_id]
    by_cases hj : newId = j
    · simp [hj]
    · have hj' : j ≠ newId := fun h => hj h.symm
      simp [hj, hj', Db.templateStatus]

/-! ## The system -/

/-- Where a poll stands in its template updates. -/
inductive TemplateStage where
  | idle
  /-- About to look up the tenant of the first update; nothing is left for `[]`. -/
  | tenant (updates : List TemplateStatusUpdate)
  /-- About to look for the template. -/
  | lookup (tenantId : Uuid) (update : TemplateStatusUpdate) (rest : List TemplateStatusUpdate)
  /-- About to write; `found` is the row with the provider id. -/
  | write (tenantId : Uuid) (update : TemplateStatusUpdate) (found : Option Uuid)
      (rest : List TemplateStatusUpdate)

/-- The updates that are left. -/
def TemplateStage.updates : TemplateStage → List TemplateStatusUpdate
  | .idle => []
  | .tenant updates => updates
  | .lookup _ update rest | .write _ update _ rest => update :: rest

/-- A write of a template for an event, and whether that had been claimed more than once by then. -/
structure TemplateWrite where
  eventId : Uuid
  templateId : Uuid
  again : Bool

/-- The webhook system, the template updates of its polls, and the history. -/
structure TemplateSystem where
  base : WebhookSystem
  /-- One for each poll. -/
  work : List TemplateStage
  /-- The last one received first. -/
  received : List Uuid
  /-- The last one written first. -/
  log : List TemplateWrite

namespace TemplateSystem

/-- Nothing is being processed yet. -/
def start (db : Db) (clock : Time) : TemplateSystem where
  base := .start db clock
  work := []
  received := db.webhookEvents.rows.map WebhookEvent.id
  log := []

/-- One move. -/
inductive Act where
  | base (act : WebhookSystem.Act)
  /-- A poll begins with the updates of its event. -/
  | begin (i : ℕ)
  /-- The pending call of its updates ends. -/
  | call (i : ℕ) (outcome : CallOutcome) (newId : Uuid)

/-- The event whose updates a poll applies. -/
def applying (s : TemplateSystem) (i : ℕ) : Option WebhookEvent :=
  s.base.processors[i]?.bind fun p =>
    match p.stage with
    | .templates event => some event
    | _ => none

/-- An event has been claimed more than once. -/
def reclaimed (s : TemplateSystem) (id : Uuid) : Bool :=
  s.base.db.webhookEvents.rows.any fun e => e.id = id && 1 < e.attemptCount

/-- The pending call: what it writes, and the next stage or the exception. -/
def pending (s : TemplateSystem) (event : WebhookEvent) (newId : Uuid) :
    TemplateStage → Option (Db × List TemplateWrite × Except String TemplateStage)
  | .tenant (update :: rest) =>
      match PhoneNumbers.findTenantIdByWabaId s.base.db.phoneNumbers update.wabaId with
      | .ok tenantId => some (s.base.db, [], .ok (.lookup tenantId update rest))
      | .error error => some (s.base.db, [], .error error.message)
  | .lookup tenantId update rest =>
      match s.base.db.templates.find (.providerTemplateId update.providerTemplateId) with
      | none => some (s.base.db, [], .ok (.write tenantId update none rest))
      | some existing =>
          if existing.tenantId ≠ tenantId ∨ existing.wabaId ≠ update.wabaId then
            some (s.base.db, [], .error ("Meta template " ++ update.providerTemplateId ++
              " is associated with a different tenant or WABA"))
          else some (s.base.db, [], .ok (.write tenantId update (some existing.id) rest))
  | .write tenantId update found rest =>
      (s.base.db.applyTemplateUpdate newId tenantId update found).map fun (db, id) =>
        (db, [{ eventId := event.id, templateId := id, again := s.reclaimed event.id }],
          .ok (.tenant rest))
  | .idle | .tenant [] => none

/-- An exception ends the processing of the event. -/
def throw (config : WebhookConfig) (s : TemplateSystem) (i : ℕ) (error : String) :
    Option TemplateSystem :=
  (s.base.step config (.processor i
    (.call (.failed error) { contactId := 0, conversationId := 0, messageId := 0 } false))).map
      fun base => { s with base := base, work := s.work.set i .idle }

/-- A poll leaves its stage `templates` by a crash, or with no update left. -/
def allows (s : TemplateSystem) : WebhookSystem.Act → Bool
  | .processor i (.call outcome _ _) =>
      match s.applying i with
      | none => true
      | some _ =>
          match outcome, s.work[i]? with
          | .returned, some (.tenant []) => true
          | _, _ => false
  | _ => true

/-- The template updates after a move of the webhook system. -/
def workAfter (s : TemplateSystem) : WebhookSystem.Act → List TemplateStage
  | .poll _ _ => s.work ++ [.idle]
  | .processor i _ => s.work.set i .idle
  | _ => s.work

/-- The arrivals after a move of the webhook system. -/
def receivedAfter (s : TemplateSystem) : WebhookSystem.Act → List Uuid
  | .receive id _ => id :: s.received
  | _ => s.received

/-- One step. -/
def step (config : WebhookConfig) (s : TemplateSystem) : Act → Option TemplateSystem
  | .base act =>
      if s.allows act then
        (s.base.step config act).map fun base =>
          { s with base := base, work := s.workAfter act, received := s.receivedAfter act }
      else none
  | .begin i =>
      match s.applying i, s.work[i]? with
      | some event, some .idle =>
          some { s with work := s.work.set i (.tenant (extractUpdates event.payload)) }
      | _, _ => none
  | .call i outcome newId =>
      (s.applying i).bind fun event =>
        s.work[i]?.bind fun stage =>
          match outcome with
          | .failed error => if stage.updates.isEmpty then none else s.throw config i error
          | .returned =>
              (s.pending event newId stage).bind fun (db, writes, next) =>
                let t := { s with base := { s.base with db := db }, log := writes ++ s.log }
                match next with
                | .ok stage => some { t with work := t.work.set i stage }
                | .error error => t.throw config i error
          | .interrupted error =>
              (s.pending event newId stage).bind fun (db, writes, _) =>
                let t := { s with base := { s.base with db := db }, log := writes ++ s.log }
                t.throw config i error

/-! ## Repetitions -/

/-- The events received after an event. -/
def arrivedAfter (s : TemplateSystem) (id : Uuid) : List Uuid :=
  s.received.takeWhile fun other => other ≠ id

/-- An event received after this one has written the template. -/
def overtaken (s : TemplateSystem) (eventId templateId : Uuid) : Bool :=
  s.log.any fun w => w.templateId = templateId && w.eventId ∈ s.arrivedAfter eventId

/-- A poll is about to write a template for an event that has been claimed more than once, after an
event received later has written it. -/
def writesOvertaken (s : TemplateSystem) : Act → Bool
  | .call i outcome newId =>
      (s.applying i).any fun event =>
        match s.work[i]? with
        | some (.write tenantId update found _) =>
            outcome.tookEffect && s.reclaimed event.id &&
              s.overtaken event.id (s.base.db.writtenTemplate newId tenantId update found)
        | _ => false
  | _ => false

/-- The writes are in order: none is made for an event claimed more than once after the template was
written for one received later. -/
def InOrder (s : TemplateSystem) : Prop :=
  s.log.Pairwise fun w earlier => w.templateId = earlier.templateId → w.again = true →
    earlier.eventId ∉ s.arrivedAfter w.eventId

/-- What a later event has set is not changed when an earlier one is processed again. -/
def Survives (s : TemplateSystem) (act : Act) (t : TemplateSystem) : Prop :=
  ∀ i outcome newId event r, act = .call i outcome newId → s.applying i = some event →
    s.reclaimed event.id = true → s.overtaken event.id r = true →
    t.base.db.templateStatus r = s.base.db.templateStatus r

/-! ## What a step does -/

variable {config : WebhookConfig} {s t : TemplateSystem} {act : Act}

/-- Whoever has written is a stored event, and so are the events that polls hold. -/
structure Ok (s : TemplateSystem) : Prop where
  copies : s.base.Copies
  log : ∀ w ∈ s.log, ∃ r ∈ s.base.db.webhookEvents.rows, r.id = w.eventId

theorem ok_start (db : Db) (clock : Time) : (start db clock).Ok where
  copies := WebhookSystem.copies_start db clock
  log := by simp [start]

/-- A move of the webhook system. -/
theorem ok_base {s' : WebhookSystem} {a : WebhookSystem.Act} {work : List TemplateStage}
    {received : List Uuid} (h : s.Ok) (hstep : s.base.step config a = some s') :
    Ok { s with base := s', work := work, received := received } := by
  refine ⟨WebhookSystem.copies_step h.copies hstep, fun w hw => ?_⟩
  obtain ⟨r, hr, hid⟩ := h.log w hw
  obtain ⟨f, hf⟩ := WebhookSystem.step_events hstep
  exact ⟨f r, hf.kept hr, (hf.id r).trans hid⟩

/-- A step that writes no template: the history and the templates stay. -/
structure Idles (s t : TemplateSystem) : Prop where
  log : t.log = s.log
  received : t.received = s.received
  templates : t.base.db.templates = s.base.db.templates

/-- An exception. -/
theorem ok_throw {i : ℕ} {error : String} (h : s.Ok) (hthrow : s.throw config i error = some t) :
    t.Ok ∧ Idles s t := by
  obtain ⟨base, hbase, rfl⟩ := Option.map_eq_some_iff.mp hthrow
  refine ⟨ok_base h hbase, rfl, rfl, ?_⟩
  obtain ⟨p, hp, hbase⟩ := Option.bind_eq_some_iff.mp hbase
  obtain ⟨⟨db, q⟩, hq, rfl⟩ := Option.map_eq_some_iff.mp hbase
  obtain ⟨⟨written, returned, threw⟩, -, hq⟩ := Option.bind_eq_some_iff.mp hq
  cases hq
  rfl

/-- What a pending call of the updates does: it writes nothing, or the next update. -/
theorem pending_cases {event : WebhookEvent} {newId : Uuid} {stage : TemplateStage} {db : Db}
    {writes : List TemplateWrite} {next : Except String TemplateStage}
    (h : s.pending event newId stage = some (db, writes, next)) :
    (db = s.base.db ∧ writes = []) ∨
      ∃ tenantId update found rest id, stage = .write tenantId update found rest ∧
        writes = [{ eventId := event.id, templateId := id, again := s.reclaimed event.id }] ∧
        s.base.db.applyTemplateUpdate newId tenantId update found = some (db, id) := by
  unfold pending at h
  split at h
  · split at h <;> cases h <;> exact .inl ⟨rfl, rfl⟩
  · split at h
    · cases h
      exact .inl ⟨rfl, rfl⟩
    · split_ifs at h <;> cases h <;> exact .inl ⟨rfl, rfl⟩
  · rename_i tenantId update found rest
    obtain ⟨⟨db', id⟩, happly, h⟩ := Option.map_eq_some_iff.mp h
    cases h
    exact .inr ⟨tenantId, update, found, rest, id, rfl, rfl, happly⟩
  · cases h
  · cases h

/-- The event that a poll is at is in the table. -/
theorem row_of_applying {i : ℕ} {event : WebhookEvent} (h : s.base.Copies)
    (hevent : s.applying i = some event) :
    ∃ r ∈ s.base.db.webhookEvents.rows, r.id = event.id := by
  obtain ⟨p, hp, hstage⟩ := Option.bind_eq_some_iff.mp hevent
  split at hstage
  · rename_i event' hworking
    cases hstage
    obtain ⟨r, hr, hid, -⟩ := h p (List.mem_of_getElem? hp) event (by
      simp [WebhookSystem.held, hworking, ProcessorStage.working])
    exact ⟨r, hr, hid⟩
  · cases hstage

/-- A step that writes a template for the event of its poll. -/
structure Writes (s t : TemplateSystem) (i : ℕ) (outcome : CallOutcome) (newId : Uuid)
    (event : WebhookEvent) (tenantId : Uuid) (update : TemplateStatusUpdate) (found : Option Uuid)
    (id : Uuid) : Prop where
  applying : s.applying i = some event
  tookEffect : outcome.tookEffect = true
  stage : ∃ rest, s.work[i]? = some (.write tenantId update found rest)
  /-- The template, and what becomes of it. -/
  id_eq : id = s.base.db.writtenTemplate newId tenantId update found
  status : ∀ j, t.base.db.templateStatus j =
    if j = id then some (toUpperCase update.status) else s.base.db.templateStatus j
  log : t.log = { eventId := event.id, templateId := id, again := s.reclaimed event.id } :: s.log
  received : t.received = s.received

/-- **A call of the updates** leaves the templates alone, or makes the next write. -/
theorem call_spec {i : ℕ} {outcome : CallOutcome} {newId : Uuid} (h : s.Ok)
    (hstep : s.step config (.call i outcome newId) = some t) :
    t.Ok ∧ (Idles s t ∨ ∃ event tenantId update found id,
      Writes s t i outcome newId event tenantId update found id) := by
  obtain ⟨event, hevent, hstep⟩ := Option.bind_eq_some_iff.mp hstep
  obtain ⟨stage, hstage, hstep⟩ := Option.bind_eq_some_iff.mp hstep
  -- The effect of the call, whatever comes after it.
  have heffect : ∀ {db writes next}, s.pending event newId stage = some (db, writes, next) →
      outcome.tookEffect = true →
      Ok { s with base := { s.base with db := db }, log := writes ++ s.log } ∧
        (t.log = writes ++ s.log → t.received = s.received →
          t.base.db.templates = db.templates → Idles s t ∨ ∃ event tenantId update found id,
            Writes s t i outcome newId event tenantId update found id) := by
    intro db writes next hpending htook
    rcases pending_cases hpending with ⟨rfl, rfl⟩ | ⟨tenantId, update, found, rest, id, rfl, rfl, happly⟩
    · exact ⟨⟨h.copies, h.log⟩, fun hlog hreceived htemplates => .inl ⟨hlog, hreceived, htemplates⟩⟩
    · obtain ⟨⟨templates, rfl⟩, hid, hstatus⟩ := Db.applyTemplateUpdate_spec happly
      refine ⟨⟨h.copies, List.forall_mem_cons.mpr ⟨row_of_applying h.copies hevent, h.log⟩⟩,
        fun hlog hreceived htemplates => .inr ⟨event, tenantId, update, found, id, hevent, htook,
          ⟨rest, hstage⟩, hid, fun j => ?_, hlog, hreceived⟩⟩
      rw [← hstatus j, Db.templateStatus, Db.templateStatus, htemplates]
  cases outcome with
  | failed error =>
      simp only at hstep
      split_ifs at hstep
      obtain ⟨hok, hidles⟩ := ok_throw h hstep
      exact ⟨hok, .inl hidles⟩
  | interrupted error =>
      obtain ⟨⟨db, writes, next⟩, hpending, hstep⟩ := Option.bind_eq_some_iff.mp hstep
      obtain ⟨hok, hdone⟩ := heffect hpending rfl
      obtain ⟨hok, hidles⟩ := ok_throw hok hstep
      exact ⟨hok, hdone hidles.log hidles.received hidles.templates⟩
  | returned =>
      obtain ⟨⟨db, writes, next⟩, hpending, hstep⟩ := Option.bind_eq_some_iff.mp hstep
      obtain ⟨hok, hdone⟩ := heffect hpending rfl
      cases next with
      | error error =>
          obtain ⟨hok, hidles⟩ := ok_throw hok hstep
          exact ⟨hok, hdone hidles.log hidles.received hidles.templates⟩
      | ok stage' =>
          cases hstep
          exact ⟨⟨hok.copies, hok.log⟩, hdone rfl rfl rfl⟩

/-- Every step keeps the invariant. -/
theorem ok_step (h : s.Ok) (hstep : s.step config act = some t) : t.Ok := by
  cases act with
  | base a =>
      obtain ⟨-, hstep⟩ := Option.ite_none_right_eq_some.mp hstep
      obtain ⟨base, hbase, rfl⟩ := Option.map_eq_some_iff.mp hstep
      exact ok_base h hbase
  | begin i =>
      simp only [step] at hstep
      split at hstep
      · cases hstep
        exact ⟨h.copies, h.log⟩
      · cases hstep
  | call i outcome newId => exact (call_spec h hstep).1

/-! ## The law -/

/-- When a write is an overtaken one. -/
theorem writesOvertaken_of_writes {i : ℕ} {outcome : CallOutcome} {newId tenantId id : Uuid}
    {event : WebhookEvent} {update : TemplateStatusUpdate} {found : Option Uuid}
    (h : Writes s t i outcome newId event tenantId update found id) :
    s.writesOvertaken (.call i outcome newId) =
      (s.reclaimed event.id && s.overtaken event.id id) := by
  obtain ⟨rest, hstage⟩ := h.stage
  simp [writesOvertaken, h.applying, hstage, h.tookEffect, h.id_eq]

/-- A new event has not written anything. -/
theorem inOrder_receive {received : List Uuid} (h : s.InOrder)
    (hreceived : received = s.received ∨
      ∃ id, received = id :: s.received ∧ ∀ w ∈ s.log, w.eventId ≠ id) :
    InOrder { s with received := received } := by
  refine List.Pairwise.imp_of_mem ?_ h
  intro w earlier _ hearlier horder htemplate hagain
  rcases hreceived with rfl | ⟨id, rfl, hnew⟩
  · exact horder htemplate hagain
  · simp only [arrivedAfter, List.takeWhile_cons]
    split_ifs
    · exact List.not_mem_cons_of_ne_of_not_mem (hnew earlier hearlier) (horder htemplate hagain)
    · exact List.not_mem_nil

/-- A step without an overtaken write keeps the order. -/
theorem inOrder_step (hok : s.Ok) (h : s.InOrder) (hstep : s.step config act = some t)
    (hG : s.writesOvertaken act = false) : t.InOrder := by
  cases act with
  | base a =>
      obtain ⟨-, hstep⟩ := Option.ite_none_right_eq_some.mp hstep
      obtain ⟨base, hbase, rfl⟩ := Option.map_eq_some_iff.mp hstep
      refine inOrder_receive h ?_
      cases a with
      | receive id payload =>
          refine .inr ⟨id, rfl, fun w hw heq => ?_⟩
          obtain ⟨events, hinsert, -⟩ := Option.map_eq_some_iff.mp hbase
          obtain ⟨r, hr, hid⟩ := hok.log w hw
          have hfree := Table.find_eq_none_of_insert? hinsert (k := id) (by simp [Keyed.keys,
            WebhookEvent.received])
          refine s.base.db.webhookEvents.find_eq_none_iff.mp hfree r hr ?_
          simp [Keyed.keys, hid, heq]
      | _ => exact .inl rfl
  | begin i =>
      simp only [step] at hstep
      split at hstep
      · cases hstep
        exact h
      · cases hstep
  | call i outcome newId =>
      obtain ⟨-, hidles | ⟨event, tenantId, update, found, id, hwrites⟩⟩ := call_spec hok hstep
      · rw [InOrder, hidles.log]
        unfold arrivedAfter
        rw [hidles.received]
        exact h
      · rw [InOrder, hwrites.log]
        unfold arrivedAfter
        rw [hwrites.received]
        refine List.pairwise_cons.mpr ⟨fun earlier hearlier htemplate hagain hafter => ?_, h⟩
        have hover : s.overtaken event.id id = true := by
          refine List.any_eq_true.mpr ⟨earlier, hearlier, ?_⟩
          rw [Bool.and_eq_true, decide_eq_true_eq, decide_eq_true_eq]
          exact ⟨htemplate.symm, hafter⟩
        have hguard := writesOvertaken_of_writes hwrites
        dsimp only at hagain
        rw [hG, hagain, hover] at hguard
        cases hguard

/-- A step without an overtaken write keeps what later events have set. -/
theorem survives_step (hok : s.Ok) (hstep : s.step config act = some t)
    (hG : s.writesOvertaken act = false) : Survives s act t := by
  rintro i outcome newId event r rfl hevent hagain hover
  obtain ⟨-, hidles | ⟨event', tenantId, update, found, id, hwrites⟩⟩ := call_spec hok hstep
  · rw [Db.templateStatus, Db.templateStatus, hidles.templates]
  · obtain rfl := Option.some.inj (hevent.symm.trans hwrites.applying)
    rw [hwrites.status r, if_neg]
    rintro rfl
    have hguard := writesOvertaken_of_writes hwrites
    rw [hG, hagain, hover] at hguard
    cases hguard

/-- **Template statuses survive replays** in every run in which no event that has been claimed more
than once writes a template after one received later: whatever polls run, crash and fail in between,
the writes of every template are in order, and no step of an event that is processed again changes
what an event received after it has set. -/
theorem template_status_survives (config : WebhookConfig) (db : Db) (clock : Time)
    (s : TemplateSystem)
    (hrun : Reaches (step config) (fun s act => s.writesOvertaken act = false) (start db clock) s) :
    s.InOrder ∧ ∀ act t, s.writesOvertaken act = false → s.step config act = some t →
      Survives s act t := by
  have hinv : s.Ok ∧ s.InOrder := by
    refine hrun.invariant (P := fun s => s.Ok ∧ s.InOrder)
      ⟨ok_start db clock, List.Pairwise.nil⟩ ?_
    intro x a y hx hG hstep
    exact ⟨ok_step hx.1 hstep, inOrder_step hx.1 hx.2 hstep hG⟩
  exact ⟨hinv.2, fun act t hG hstep => survives_step hinv.1 hstep hG⟩

/-- A tenant with a phone number of the WABA 500. -/
def sampleTenant : Db :=
  { sampleDb with
    phoneNumbers := ⟨[{ sampleSender with wabaId := some "500" }], List.pairwise_singleton _ _⟩ }

/-- A webhook that reports the status of a template. -/
def sampleUpdate (template status : String) : Json :=
  let value : Json := .obj [("message_template_id", .str template),
    ("message_template_name", .str template), ("message_template_language", .str "en"),
    ("event", .str status)]
  let change : Json := .obj [("field", .str "message_template_status_update"), ("value", value)]
  .obj [("entry", .arr [.obj [("id", .str "500"), ("changes", .arr [change])]])]

/-- A poll claims an event and takes all template calls but the last one. -/
def sampleLookup (i : ℕ) (id : Uuid) : List Act :=
  let call : Act := .call i .returned 70
  [.base (.poll 0 [id]), .base (.processor i .run), .base (.processor i .run), .begin i, call, call]

/-- A poll writes the template, a new one as `newId`, and marks its event, or fails to. -/
def sampleFinish (i : ℕ) (newId : Uuid) (marked : Bool) : List Act :=
  let ids : InboundIds := { contactId := 0, conversationId := 0, messageId := 0 }
  let call (outcome : CallOutcome) : Act := .base (.processor i (.call outcome ids false))
  [.call i .returned newId, call .returned, .base (.processor i .run)] ++
    if marked then [call .returned] else [call (.failed "timeout"), call .returned]

/-- An approval of a template whose event could not be marked as processed, then the rejection of a
template, then the retry of the approval up to its write. -/
def sampleRetry (template : String) (newId : Uuid) : List Act :=
  [.base (.receive 50 (sampleUpdate "offer" "APPROVED"))] ++ sampleLookup 0 50 ++
    sampleFinish 0 70 false ++ [.base (.receive 51 (sampleUpdate template "REJECTED"))] ++
    sampleLookup 1 51 ++ sampleFinish 1 newId true ++ [.base (.tick 2000)] ++ sampleLookup 2 50

/-- A rejected template is approved again by the retry of an older event. -/
theorem approval_replayed :
    ∃ s t, Reachable (step WebhookSystem.sampleConfig) (start sampleTenant 0) s ∧
      s.step WebhookSystem.sampleConfig (.call 2 .returned 70) = some t ∧
      s.base.db.templateStatus 70 = some "REJECTED" ∧
      t.base.db.templateStatus 70 = some "APPROVED" ∧
      ¬Survives s (.call 2 .returned 70) t := by
  have hend : ∃ s ∈ exec (step WebhookSystem.sampleConfig) (start sampleTenant 0)
        (sampleRetry "offer" 70),
      ∃ t ∈ s.step WebhookSystem.sampleConfig (.call 2 .returned 70),
        s.base.db.templateStatus 70 = some "REJECTED" ∧
        t.base.db.templateStatus 70 = some "APPROVED" ∧
        (s.applying 2).map WebhookEvent.id = some 50 ∧ s.reclaimed 50 = true ∧
        s.overtaken 50 70 = true := by
    decide
  obtain ⟨s, hs, t, ht, hbefore, hafter, happlying, hagain, hover⟩ := hend
  refine ⟨s, t, Reachable.of_exec hs, ht, hbefore, hafter, fun hsurvives => ?_⟩
  obtain ⟨event, hevent, hid⟩ := Option.map_eq_some_iff.mp happlying
  have hsame := hsurvives 2 .returned 70 event 70 rfl hevent (hid ▸ hagain) (hid ▸ hover)
  rw [hbefore, hafter] at hsame
  exact absurd hsame (by decide)

/-- The retry of an approval after another template was rejected, which stays rejected. -/
theorem template_status_survives_sample :
    ∃ s t, Reaches (step WebhookSystem.sampleConfig) (fun s act => s.writesOvertaken act = false)
        (start sampleTenant 0) s ∧
      s.step WebhookSystem.sampleConfig (.call 2 .returned 70) = some t ∧ s.InOrder ∧
      s.reclaimed 50 = true ∧ s.overtaken 50 71 = true ∧
      s.base.db.templateStatus 71 = some "REJECTED" ∧
      t.base.db.templateStatus 71 = s.base.db.templateStatus 71 := by
  have hend : ∃ s ∈ exec (step WebhookSystem.sampleConfig) (start sampleTenant 0)
        (sampleRetry "reminder" 71),
      ∃ t ∈ s.step WebhookSystem.sampleConfig (.call 2 .returned 70),
        s.writesOvertaken (.call 2 .returned 70) = false ∧
        (s.applying 2).map WebhookEvent.id = some 50 ∧ s.reclaimed 50 = true ∧
        s.overtaken 50 71 = true ∧ s.base.db.templateStatus 71 = some "REJECTED" := by
    decide
  have hguard : ∀ x ∈ trace (step WebhookSystem.sampleConfig) (start sampleTenant 0)
      (sampleRetry "reminder" 71), x.1.writesOvertaken x.2.1 = false := by
    decide
  obtain ⟨s, hs, t, ht, hG, happlying, hagain, hover, hstatus⟩ := hend
  obtain ⟨event, hevent, hid⟩ := Option.map_eq_some_iff.mp happlying
  have hrun := Reaches.of_exec (G := fun s act => s.writesOvertaken act = false) hs hguard
  obtain ⟨horder, hsurvives⟩ := template_status_survives _ _ _ s hrun
  exact ⟨s, t, hrun, ht, horder, hagain, hover, hstatus,
    hsurvives _ t hG ht 2 .returned 70 event 71 rfl hevent (hid ▸ hagain) (hid ▸ hover)⟩

end TemplateSystem

end ApiWhatsApp
