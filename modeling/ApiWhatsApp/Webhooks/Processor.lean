import ApiWhatsApp.Webhooks.Inbound

/-!
# The webhook processor

`webhooks/webhook-event-processor.service.ts`: a poll claims a batch of stored events and processes
them one after the other, first the received messages, then template updates, then the statuses of
sent messages. A `Processor` is one such poll, stopped at every `await`.

* `persistInboundMessage` takes two steps here: the duplicate check at the start of its transaction,
  and the commit. Under `READ COMMITTED` another processor may commit the same message in between;
  the insert then breaks the unique index, and `recheck` is the read of the `catch` clause.
* An error ends the processing of the event: what was committed stays, and the event is due again.
* **`Processor.step_progress`** says what a step does for the event it works on, and `step_writes`
  what it does to the database.

The realtime hints after a commit never throw and write nothing, so they are left out. The updates
that `templateStatusService.process` makes are among the writes of other services. The `new Date()`
of a report without a timestamp is taken at the end of its transaction.
-/

namespace ApiWhatsApp

open Library

/-- The settings of the processor. -/
structure WebhookConfig where
  /-- `WEBHOOK_PROCESSOR_LEASE_MS`. -/
  leaseMs : Option ℕ
  /-- `WEBHOOK_PROCESSOR_BATCH_SIZE`. -/
  batchSize : Option ℕ

/-- At least five seconds. -/
def WebhookConfig.lease (config : WebhookConfig) : ℕ := max 5000 (config.leaseMs.getD 30000)

/-- At least one event. -/
def WebhookConfig.batch (config : WebhookConfig) : ℕ := max 1 (config.batchSize.getD 50)

/-! ## Events -/

namespace WebhookEvent

/-- The row that the controller inserts. -/
def received (id : Uuid) (payload : Json) (now : Time) : WebhookEvent where
  id := id
  payload := payload
  processed := false
  attemptCount := 0
  nextAttemptAt := now
  processingLeaseUntil := none
  lastError := none
  processedAt := none

/-- The `WHERE` of the claiming statement. -/
def isDue (now : Time) (e : WebhookEvent) : Bool :=
  !e.processed && e.nextAttemptAt ≤ now &&
    match e.processingLeaseUntil with
    | none => true
    | some leaseUntil => leaseUntil ≤ now

/-- The `SET` of the claiming statement. -/
def claim (leaseUntil : Time) (e : WebhookEvent) : WebhookEvent :=
  { e with processingLeaseUntil := some leaseUntil, attemptCount := e.attemptCount + 1 }

/-- The update at the end of `processWebhookEvent`. -/
def markProcessed (now : Time) (e : WebhookEvent) : WebhookEvent :=
  { e with
    processed := true
    processedAt := some now
    processingLeaseUntil := none
    lastError := none }

/-- The update after an error. -/
def recordError (nextAttemptAt : Time) (error : String) (e : WebhookEvent) : WebhookEvent :=
  { e with
    lastError := some (slice error 2000)
    nextAttemptAt := nextAttemptAt
    processingLeaseUntil := none }

/-- `Math.min(60_000, 1000 * 2 ** Math.min(Math.max(attemptCount - 1, 0), 6))`. -/
def retryDelayMs (e : WebhookEvent) : ℕ := min 60000 (1000 * 2 ^ min (e.attemptCount - 1) 6)

end WebhookEvent

/-- Update one webhook event. -/
def Db.updateWebhookEvent (db : Db) (id : Uuid) (f : WebhookEvent → WebhookEvent)
    (hf : ∀ e, Keyed.keys (f e) = Keyed.keys e) : Db :=
  { db with webhookEvents := db.webhookEvents.updateWhere (fun e => e.id = id) f hf }

/-- Claim the events `ids`, as far as they are due. The choice of `ids` stands for the `LIMIT` and
for the rows that other polls have locked. Source: `claimEvents`. -/
def Db.claimWebhookEvents (db : Db) (now leaseUntil : Time) (ids : List Uuid) :
    Db × List WebhookEvent :=
  ({ db with
      webhookEvents := db.webhookEvents.updateWhere (fun e => e.id ∈ ids && e.isDue now)
        (WebhookEvent.claim leaseUntil) fun _ => rfl },
    (db.webhookEvents.rows.filter fun e => e.id ∈ ids && e.isDue now).map
      (WebhookEvent.claim leaseUntil))

/-! ## One poll -/

/-- What the loops of `process` have left, once the sender of a change is known. -/
structure InboundWork where
  sender : WhatsAppPhoneNumber
  change : InboundChange
  messages : List MetaInboundMessage
  changes : List InboundChange

/-- A message on its way into the database. -/
structure Incoming where
  message : MetaInboundMessage
  from_ : String
  /-- `none` is an `Invalid Date`. -/
  inboundAt : Option Time

/-- Where a poll stands. -/
inductive ProcessorStage where
  | next
  | changes (event : WebhookEvent) (changes : List InboundChange)
  | sender (event : WebhookEvent) (providerPhoneNumberId : String) (change : InboundChange)
      (changes : List InboundChange)
  | messages (event : WebhookEvent) (work : InboundWork)
  | duplicate (event : WebhookEvent) (work : InboundWork) (incoming : Incoming)
  | commit (event : WebhookEvent) (work : InboundWork) (incoming : Incoming)
  | recheck (event : WebhookEvent) (work : InboundWork) (incoming : Incoming) (error : String)
  | templates (event : WebhookEvent)
  | statuses (event : WebhookEvent) (reports : List MetaMessageStatus)
  | markProcessed (event : WebhookEvent) (now : Time)
  | recordError (event : WebhookEvent) (now : Time) (error : String)
  | finished
  | crashed

/-- One poll: the claimed events that it has not begun, and where it stands. -/
structure Processor where
  batch : List WebhookEvent
  stage : ProcessorStage

/-- One step of a poll, by what the environment decides. -/
inductive ProcessorAct where
  | run
  /-- The pending call ends; new rows get `ids`, and an error of the transaction is `P2002` or
  not. -/
  | call (outcome : CallOutcome) (ids : InboundIds) (uniqueViolation : Bool)
  | crash

namespace Processor

/-- The error of a change without a phone number id. -/
def missingPhoneNumberId : String := "Inbound WhatsApp webhook is missing metadata.phone_number_id"

/-- The error of a phone number id that no sender has. -/
def unconfigured (providerPhoneNumberId : String) : String :=
  s!"Unconfigured Meta phone_number_id {providerPhoneNumberId}"

/-- The code between two calls. -/
def run (clock : Time) (p : Processor) : Option Processor :=
  match p.stage, p.batch with
  | .next, [] => some { p with stage := .finished }
  | .next, event :: batch =>
      some { batch := batch, stage := .changes event (inboundChanges event.payload) }
  | .changes event [], _ => some { p with stage := .templates event }
  | .changes event (change :: rest), _ =>
      match change.providerPhoneNumberId with
      | none => some { p with stage := .recordError event clock missingPhoneNumberId }
      | some id => some { p with stage := .sender event id change rest }
  | .messages event work, _ =>
      match work.messages with
      | [] => some { p with stage := .changes event work.changes }
      | message :: rest =>
          match normalizePhoneNumber message.from_ with
          | .error error => some { p with stage := .recordError event clock error.message }
          | .ok from_ =>
              let incoming : Incoming :=
                { message := message, from_ := from_,
                  inboundAt := timestampOrNow clock message.timestamp }
              some { p with stage := .duplicate event { work with messages := rest } incoming }
  | .statuses event [], _ => some { p with stage := .markProcessed event clock }
  | _, _ => none

/-- The `catch` clause of `persistInboundMessage`. -/
def afterThrow (clock : Time) (event : WebhookEvent) (work : InboundWork) (incoming : Incoming)
    (uniqueViolation : Bool) (error : String) : ProcessorStage :=
  if uniqueViolation then .recheck event work incoming error else .recordError event clock error

/-- The transaction of a message; `none` when it throws, because of a date or a unique index. -/
def persist (db : Db) (work : InboundWork) (incoming : Incoming) (ids : InboundIds) : Option Db := do
  let inboundAt ← incoming.inboundAt
  if maxDate < inboundAt + serviceWindowMs then none else
  let (db, _) ← db.persistInbound work.sender work.change.displayPhoneNumber
    (work.change.profileNames.lookup incoming.message.from_) incoming.message incoming.from_
    inboundAt ids
  some db

/-- The pending call: what it does to the database, `none` when it cannot succeed, and the next
stages. -/
def pending (db : Db) (clock : Time) (ids : InboundIds) (uniqueViolation : Bool) :
    ProcessorStage → Option (Option Db × ProcessorStage × (String → ProcessorStage))
  | .sender event id change changes =>
      let found := match db.phoneNumbers.find (.providerPhoneNumberId id) with
        | none => .recordError event clock (unconfigured id)
        | some sender => .messages event
            { sender := sender, change := change, messages := change.messages, changes := changes }
      some (some db, found, .recordError event clock)
  | .duplicate event work incoming =>
      let found := match db.messages.find (.providerMessageId incoming.message.id) with
        | some _ => .messages event work
        | none => .commit event work incoming
      some (some db, found, afterThrow clock event work incoming uniqueViolation)
  | .commit event work incoming =>
      some (persist db work incoming ids, .messages event work,
        afterThrow clock event work incoming uniqueViolation)
  | .recheck event work incoming error =>
      let found := match db.messages.find (.providerMessageId incoming.message.id) with
        | some _ => .messages event work
        | none => .recordError event clock error
      some (some db, found, .recordError event clock)
  | .templates event =>
      some (some db, .statuses event (extractStatuses event.payload), .recordError event clock)
  | .statuses event (report :: reports) =>
      some (db.applyStatus clock report, .statuses event reports, .recordError event clock)
  | .markProcessed event now =>
      some (some (db.updateWebhookEvent event.id (WebhookEvent.markProcessed now) fun _ => rfl),
        .next, .recordError event clock)
  | .recordError event now error =>
      some (some (db.updateWebhookEvent event.id
          (WebhookEvent.recordError (now + event.retryDelayMs) error) fun _ => rfl),
        -- An error of this update ends the poll.
        .next, fun _ => .finished)
  | .next | .changes _ _ | .messages _ _ | .statuses _ [] | .finished | .crashed => none

/-- One step of a poll. -/
def step (db : Db) (clock : Time) (p : Processor) : ProcessorAct → Option (Db × Processor)
  | .run => (p.run clock).map fun p' => (db, p')
  | .call outcome ids uniqueViolation =>
      (pending db clock ids uniqueViolation p.stage).bind fun (written, returned, threw) =>
        match outcome with
        | .returned => written.map fun db' => (db', { p with stage := returned })
        | .interrupted error => written.map fun db' => (db', { p with stage := threw error })
        | .failed error => some (db, { p with stage := threw error })
  | .crash =>
      match p.stage with
      | .finished | .crashed => none
      | _ => some (db, { p with stage := .crashed })

end Processor

/-! ## What a step of a poll can do -/

/-- The event that a poll is processing, as long as no error has ended that. -/
def ProcessorStage.working : ProcessorStage → Option WebhookEvent
  | .changes event _ | .sender event _ _ _ | .messages event _ | .duplicate event _ _
  | .commit event _ _ | .recheck event _ _ _ | .templates event | .statuses event _
  | .markProcessed event _ => some event
  | .next | .recordError _ _ _ | .finished | .crashed => none

/-- The provider ids of the messages in a list of changes. -/
def idsOfChanges (changes : List InboundChange) : List String :=
  changes.flatMap fun change => change.messages.map MetaInboundMessage.id

/-- The ids of the payload are those it mentions. -/
theorem mem_idsOfChanges {payload : Json} {q : String} :
    q ∈ idsOfChanges (inboundChanges payload) ↔ Mentions payload q := by
  simp [idsOfChanges, Mentions]

/-- The provider ids that the loops have left. -/
def InboundWork.owed (work : InboundWork) : List String :=
  work.messages.map MetaInboundMessage.id ++ idsOfChanges work.changes

/-- The provider ids of the received messages that a poll has still to store. -/
def ProcessorStage.owed : ProcessorStage → List String
  | .changes _ rest => idsOfChanges rest
  | .sender _ _ change rest => idsOfChanges (change :: rest)
  | .messages _ work => work.owed
  | .duplicate _ work incoming | .commit _ work incoming | .recheck _ work incoming _ =>
      incoming.message.id :: work.owed
  | .next | .templates _ | .statuses _ _ | .markProcessed _ _ | .recordError _ _ _ | .finished
  | .crashed => []

/-- The reports that a poll has still to apply. -/
def ProcessorStage.unreported : ProcessorStage → List MetaMessageStatus
  | .changes event _ | .sender event _ _ _ | .messages event _ | .duplicate event _ _
  | .commit event _ _ | .recheck event _ _ _ | .templates event => extractStatuses event.payload
  | .statuses _ reports => reports
  | .next | .markProcessed _ _ | .recordError _ _ _ | .finished | .crashed => []

/-- A message with this provider id is in the table. -/
def Db.Stored (db : Db) (q : String) : Prop :=
  (db.messages.find (.providerMessageId q)).isSome = true

namespace Processor

variable {db db' : Db} {clock : Time} {p p' : Processor} {act : ProcessorAct}

/-- The report that a step applies. -/
def reports (p : Processor) : ProcessorAct → Option MetaMessageStatus
  | .call outcome _ _ =>
      match p.stage with
      | .statuses _ (report :: _) => if outcome.tookEffect then some report else none
      | _ => none
  | .run | .crash => none

/-- A transaction that commits stores its message. -/
theorem stored_of_persist {work : InboundWork} {incoming : Incoming} {ids : InboundIds}
    (h : persist db work incoming ids = some db') : db'.Stored incoming.message.id := by
  obtain ⟨inboundAt, -, h⟩ := Option.bind_eq_some_iff.mp h
  split_ifs at h
  obtain ⟨⟨db₁, m⟩, hpersist, h⟩ := Option.bind_eq_some_iff.mp h
  cases h
  obtain ⟨c, rfl, hinsert, -⟩ := Db.persistInbound_spec hpersist
  rw [Db.Stored, Table.find_of_insert? hinsert, if_pos]
  · rfl
  · exact mem_keys_providerMessageId.mpr rfl

/-- How a pending call can end. -/
theorem call_cases {outcome : CallOutcome} {ids : InboundIds} {violation : Bool}
    (h : p.step db clock (.call outcome ids violation) = some (db', p')) :
    ∃ written returned threw,
      pending db clock ids violation p.stage = some (written, returned, threw) ∧
      p'.batch = p.batch ∧
      ((outcome.tookEffect = true ∧ written = some db' ∧ p'.stage = returned) ∨
        ∃ error, p'.stage = threw error ∧
          ((outcome.tookEffect = true ∧ written = some db') ∨
            (outcome.tookEffect = false ∧ db' = db))) := by
  obtain ⟨⟨written, returned, threw⟩, hp, h⟩ := Option.bind_eq_some_iff.mp h
  refine ⟨written, returned, threw, hp, ?_⟩
  cases outcome with
  | returned =>
      obtain ⟨db₁, hw, h⟩ := Option.map_eq_some_iff.mp h
      cases h
      exact ⟨rfl, .inl ⟨rfl, hw, rfl⟩⟩
  | interrupted error =>
      obtain ⟨db₁, hw, h⟩ := Option.map_eq_some_iff.mp h
      cases h
      exact ⟨rfl, .inr ⟨error, rfl, .inl ⟨rfl, hw⟩⟩⟩
  | failed error =>
      cases h
      exact ⟨rfl, .inr ⟨error, rfl, .inr ⟨rfl, rfl⟩⟩⟩

/-- After an error of the transaction a poll works on only when it reads once more. -/
theorem afterThrow_cases {event event' : WebhookEvent} {work : InboundWork} {incoming : Incoming}
    {violation : Bool} {error : String}
    (h : (afterThrow clock event work incoming violation error).working = some event') :
    event' = event ∧
      afterThrow clock event work incoming violation error = .recheck event work incoming error := by
  unfold afterThrow at h ⊢
  split_ifs at h ⊢
  · cases h
    exact ⟨rfl, rfl⟩
  · cases h

/-- The poll goes on with the same event: what is no longer owed is stored, and what is no longer to
be applied was applied. -/
structure Advances (p : Processor) (act : ProcessorAct) (db' : Db) (p' : Processor)
    (event : WebhookEvent) : Prop where
  working : p.stage.working = some event
  stored : ∀ q ∈ p.stage.owed, q ∈ p'.stage.owed ∨ db'.Stored q
  applied : ∀ report ∈ p.stage.unreported, report ∈ p'.stage.unreported ∨
    p.reports act = some report

/-- Nothing is owed less. -/
theorem Advances.of_same {event : WebhookEvent} (hevent : p'.stage.working = some event)
    (hworking : p'.stage.working = p.stage.working) (howed : p'.stage.owed = p.stage.owed)
    (hunreported : p'.stage.unreported = p.stage.unreported) : Advances p act db' p' event where
  working := by rw [← hworking, hevent]
  stored q hq := .inl (by rw [howed]; exact hq)
  applied r hr := .inl (by rw [hunreported]; exact hr)

/-- The first message that was owed is stored. -/
theorem Advances.of_stored {event event' : WebhookEvent} {work : InboundWork} {q : String}
    (hevent : p'.stage.working = some event) (hs' : p'.stage = .messages event' work)
    (hworking : p.stage.working = some event') (howed : p.stage.owed = q :: work.owed)
    (hunreported : p.stage.unreported = extractStatuses event'.payload) (hq : db'.Stored q) :
    Advances p act db' p' event := by
  rw [hs'] at hevent
  cases hevent
  refine ⟨hworking, fun r hr => ?_, fun r hr => .inl ?_⟩
  · rw [howed] at hr
    rcases List.mem_cons.mp hr with rfl | hr
    · exact .inr hq
    · exact .inl (by rw [hs']; exact hr)
  · rw [hs']
    rw [hunreported] at hr
    exact hr

/-- What working on an event leads to. -/
theorem run_progress (h : p.run clock = some p') {event : WebhookEvent}
    (hevent : p'.stage.working = some event) :
    (event ∈ p.batch ∧ p'.stage = .changes event (inboundChanges event.payload)) ∨
      Advances p .run db' p' event := by
  obtain ⟨batch, stage⟩ := p
  simp only [run] at h
  split at h
  · cases h
    cases hevent
  · cases h
    cases hevent
    exact .inl ⟨List.mem_cons_self, rfl⟩
  · cases h
    cases hevent
    exact .inr ⟨rfl, by simp [ProcessorStage.owed, idsOfChanges], fun r hr => .inl hr⟩
  · split at h <;> cases h <;> cases hevent
    exact .inr (.of_same rfl rfl rfl rfl)
  · rename_i event' work _
    split at h
    · rename_i hnil
      cases h
      cases hevent
      refine .inr (.of_same rfl rfl ?_ rfl)
      simp [ProcessorStage.owed, InboundWork.owed, hnil]
    · rename_i message rest hcons
      split at h <;> cases h <;> cases hevent
      refine .inr (.of_same rfl rfl ?_ rfl)
      simp [ProcessorStage.owed, InboundWork.owed, hcons]
  · cases h
    cases hevent
    exact .inr ⟨rfl, by simp [ProcessorStage.owed], by simp [ProcessorStage.unreported]⟩
  · cases h

/-- What a call on an event leads to. -/
theorem call_progress {outcome : CallOutcome} {ids : InboundIds} {violation : Bool}
    (h : p.step db clock (.call outcome ids violation) = some (db', p')) {event : WebhookEvent}
    (hevent : p'.stage.working = some event) :
    Advances p (.call outcome ids violation) db' p' event := by
  obtain ⟨written, returned, threw, hp, -, hcase⟩ := call_cases h
  obtain ⟨batch, stage⟩ := p
  -- An error that is recorded ends the work on the event.
  have hended : ∀ {stage' : ProcessorStage}, p'.stage = stage' → stage'.working ≠ none := by
    intro stage' hs' hnone
    rw [hs', hnone] at hevent
    cases hevent
  simp only [pending] at hp
  split at hp <;> cases hp
  · rcases hcase with ⟨-, -, hs'⟩ | ⟨e, hs', -⟩
    · split at hs'
      · exact absurd rfl (hended hs')
      · exact .of_same hevent (by rw [hs']; rfl) (by rw [hs']; rfl) (by rw [hs']; rfl)
    · exact absurd rfl (hended hs')
  · rename_i event' work incoming
    rcases hcase with ⟨-, hw, hs'⟩ | ⟨e, hs', -⟩
    · cases hw
      split at hs'
      · rename_i m hm
        exact .of_stored hevent hs' rfl rfl rfl (by rw [Db.Stored, hm]; rfl)
      · exact .of_same hevent (by rw [hs']; rfl) (by rw [hs']; rfl) (by rw [hs']; rfl)
    · rw [hs'] at hevent
      rw [(afterThrow_cases hevent).2] at hs' hevent
      exact .of_same (hs' ▸ hevent) (by rw [hs']; rfl) (by rw [hs']; rfl) (by rw [hs']; rfl)
  · rename_i event' work incoming
    rcases hcase with ⟨-, hw, hs'⟩ | ⟨e, hs', -⟩
    · exact .of_stored hevent hs' rfl rfl rfl (stored_of_persist hw)
    · rw [hs'] at hevent
      rw [(afterThrow_cases hevent).2] at hs' hevent
      exact .of_same (hs' ▸ hevent) (by rw [hs']; rfl) (by rw [hs']; rfl) (by rw [hs']; rfl)
  · rename_i event' work incoming error
    rcases hcase with ⟨-, hw, hs'⟩ | ⟨e, hs', -⟩
    · cases hw
      split at hs'
      · rename_i m hm
        exact .of_stored hevent hs' rfl rfl rfl (by rw [Db.Stored, hm]; rfl)
      · exact absurd rfl (hended hs')
    · exact absurd rfl (hended hs')
  · rcases hcase with ⟨-, -, hs'⟩ | ⟨e, hs', -⟩
    · exact .of_same hevent (by rw [hs']; rfl) (by rw [hs']; rfl) (by rw [hs']; rfl)
    · exact absurd rfl (hended hs')
  · rename_i event' report rest
    rcases hcase with ⟨htook, hw, hs'⟩ | ⟨e, hs', -⟩
    · refine ⟨by rw [← hevent, hs']; rfl, by simp [ProcessorStage.owed], fun r hr => ?_⟩
      rcases List.mem_cons.mp hr with rfl | hr
      · exact .inr (by simp [reports, htook])
      · exact .inl (by rw [hs']; exact hr)
    · exact absurd rfl (hended hs')
  · rcases hcase with ⟨-, -, hs'⟩ | ⟨e, hs', -⟩ <;> exact absurd rfl (hended hs')
  · rcases hcase with ⟨-, -, hs'⟩ | ⟨e, hs', -⟩ <;> exact absurd rfl (hended hs')

/-- **Progress.** The event that a poll works on after a step is the next of its batch, begun in
this step, or the one it worked on before, on which it has advanced. -/
theorem step_progress (h : p.step db clock act = some (db', p')) {event : WebhookEvent}
    (hevent : p'.stage.working = some event) :
    (event ∈ p.batch ∧ p'.stage = .changes event (inboundChanges event.payload)) ∨
      Advances p act db' p' event := by
  cases act with
  | crash =>
      simp only [step] at h
      split at h <;> cases h
      cases hevent
  | run =>
      obtain ⟨q, hrun, h⟩ := Option.map_eq_some_iff.mp h
      cases h
      exact run_progress hrun hevent
  | call outcome ids violation => exact .inr (call_progress h hevent)

/-- What a step of a poll does to the database. -/
inductive Writes (db : Db) (clock : Time) (p : Processor) (act : ProcessorAct) (db' : Db) : Prop where
  | nothing (h : db' = db) (hreports : p.reports act = none)
  | stored (event : WebhookEvent) (work : InboundWork) (incoming : Incoming) (ids : InboundIds)
      (inboundAt : Time) (m : Message) (hstage : p.stage = .commit event work incoming)
      (h : db.persistInbound work.sender work.change.displayPhoneNumber
        (work.change.profileNames.lookup incoming.message.from_) incoming.message incoming.from_
        inboundAt ids = some (db', m)) (hreports : p.reports act = none)
  | applied (report : MetaMessageStatus) (hreports : p.reports act = some report)
      (h : db.applyStatus clock report = some db')
  | event (event : WebhookEvent) (f : WebhookEvent → WebhookEvent)
      (hf : ∀ e, Keyed.keys (f e) = Keyed.keys e) (h : db' = db.updateWebhookEvent event.id f hf)
      (hpayload : ∀ e, (f e).payload = e.payload)
      (hprocessed : ∀ e, (f e).processed = true → e.processed = true ∨
        p.stage.working = some event ∧ p.stage.owed = [] ∧ p.stage.unreported = [])
      (hreports : p.reports act = none)

/-- What a step writes. -/
theorem step_writes (h : p.step db clock act = some (db', p')) : Writes db clock p act db' := by
  cases act with
  | crash =>
      simp only [step] at h
      split at h <;> cases h
      exact .nothing rfl rfl
  | run =>
      obtain ⟨q, hrun, h⟩ := Option.map_eq_some_iff.mp h
      cases h
      exact .nothing rfl rfl
  | call outcome ids violation =>
      obtain ⟨written, returned, threw, hp, -, hcase⟩ := call_cases h
      have heffect : (outcome.tookEffect = true ∧ written = some db') ∨
          (outcome.tookEffect = false ∧ db' = db) := by
        rcases hcase with ⟨htook, hw, -⟩ | ⟨e, -, hw⟩
        · exact .inl ⟨htook, hw⟩
        · exact hw
      obtain ⟨batch, stage⟩ := p
      simp only [pending] at hp
      rcases heffect with ⟨htook, hw⟩ | ⟨htook, rfl⟩
      · split at hp <;> cases hp
        · cases hw
          exact .nothing rfl rfl
        · cases hw
          exact .nothing rfl rfl
        · rename_i event work incoming
          obtain ⟨inboundAt, -, hpersist⟩ := Option.bind_eq_some_iff.mp hw
          split_ifs at hpersist
          obtain ⟨⟨db₁, m⟩, hpersist, heq⟩ := Option.bind_eq_some_iff.mp hpersist
          cases heq
          exact .stored event work incoming ids inboundAt m rfl hpersist rfl
        · cases hw
          exact .nothing rfl rfl
        · cases hw
          exact .nothing rfl rfl
        · rename_i event report rest
          exact .applied report (by simp [reports, htook]) hw
        · rename_i event now
          cases hw
          exact .event event (WebhookEvent.markProcessed now) (fun _ => rfl) rfl (fun _ => rfl)
            (fun _ _ => .inr ⟨rfl, rfl, rfl⟩) rfl
        · rename_i event now error
          cases hw
          exact .event event (WebhookEvent.recordError (now + event.retryDelayMs) error)
            (fun _ => rfl) rfl (fun _ => rfl) (fun _ hp => .inl hp) rfl
      · refine .nothing rfl ?_
        unfold reports
        simp only
        split
        · simp [htook]
        · rfl

/-- A poll takes up no event but those of its batch. -/
theorem batch_step (h : p.step db clock act = some (db', p')) :
    ∀ e ∈ p'.batch, e ∈ p.batch := by
  cases act with
  | crash =>
      simp only [step] at h
      split at h <;> cases h
      exact fun _ he => he
  | run =>
      obtain ⟨q, hrun, h⟩ := Option.map_eq_some_iff.mp h
      cases h
      obtain ⟨batch, stage⟩ := p
      simp only [run] at hrun
      split at hrun
      · cases hrun; exact fun _ he => he
      · cases hrun; exact fun _ he => List.mem_cons_of_mem _ he
      · cases hrun; exact fun _ he => he
      · split at hrun <;> cases hrun <;> exact fun _ he => he
      · split at hrun
        · cases hrun; exact fun _ he => he
        · split at hrun <;> cases hrun <;> exact fun _ he => he
      · cases hrun; exact fun _ he => he
      · cases hrun
  | call outcome ids violation =>
      obtain ⟨_, _, _, -, hbatch, -⟩ := call_cases h
      rw [hbatch]
      exact fun _ he => he

end Processor

end ApiWhatsApp
