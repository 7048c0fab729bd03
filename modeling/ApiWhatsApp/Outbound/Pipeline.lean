import ApiWhatsApp.Outbound.Dispatch
import ApiWhatsApp.Outbound.Publisher
import ApiWhatsApp.Webhooks.Status

/-!
# The outbound pipeline

The whole path of an outbound message as one machine: `create` calls, outbox flushes, the broker and
the deliveries, interleaved step by step with the clock, with provider statuses and with every
write of other services.

* The broker keeps what it has confirmed. It may take back an unacknowledged delivery at any
  moment (`redeliver`): the consumer keeps running, but its channel is closed, so it can publish
  and acknowledge no more.
* Any process may die at any step (`crash`); a call that throws may have taken effect.
* Threads are kept in lists, also when they have ended; a thread is named by its position.

**`step_moves`** says once what a step can do to the rows, the deliveries and the history of sends;
the invariants about leases are proved from it.
-/

namespace ApiWhatsApp

open Library

/-- What the pipeline takes as given. -/
structure PipelineEnv where
  config : OutboundConfig
  normalizeMediaPayload : OutboundMessageType → Json → Except String Json

/-- A write of another service to other tables. -/
structure UnrelatedWrite where
  run : Db → Db
  messages_run : ∀ db, (run db).messages = db.messages
  outboxEvents_run : ∀ db, (run db).outboxEvents = db.outboxEvents

/-- The database, the broker and all threads. -/
structure Pipeline where
  db : Db
  clock : Time
  calls : List CreateCall
  publishers : List Publisher
  deliveries : List Delivery
  /-- The main queues of all traffic classes. -/
  main : List OutboundQueueJob
  /-- The retry queues. -/
  retry : List RetryEntry
  /-- The dead-letter queues. -/
  dead : List DeadLetter
  /-- History: the message of every `sendMessage` call that returned a provider id. -/
  sends : List Uuid

namespace Pipeline

/-- One move of the pipeline. -/
inductive Act where
  | tick (elapsed : Time)
  | other (write : UnrelatedWrite)
  /-- A webhook report is applied. -/
  | report (status : MetaMessageStatus)
  | beginCreate (tenantId : Uuid) (dto : CreateMessageDto)
  | create (i : ℕ) (act : CreateAct)
  /-- A flush claims its batch under a lease computed at `readAt`. -/
  | flush (readAt : Time) (ids : List Uuid)
  | publisher (i : ℕ) (act : PublisherAct)
  /-- The broker delivers the job at a position of the main queues. -/
  | consume (n : ℕ)
  /-- The time to live of a message in a retry queue is over. -/
  | expire (n : ℕ)
  /-- The channel of a delivery closes and the broker takes it back. -/
  | redeliver (i : ℕ)
  | delivery (i : ℕ) (act : DeliveryAct)

/-- The delivery that an act moves, and how. -/
def Act.moved : Act → Option (ℕ × DeliveryAct)
  | .delivery i act => some (i, act)
  | _ => none

/-- Nothing has been created, published or delivered yet. -/
def start (db : Db) (clock : Time) : Pipeline where
  db := db
  clock := clock
  calls := []
  publishers := []
  deliveries := []
  main := []
  retry := []
  dead := []
  sends := []

/-- Carry out the effect of a flush. -/
def publish (s : Pipeline) : PublisherEffect → Pipeline
  | .none => s
  | .enqueue job => { s with main := job :: s.main }
  | .markPublished id now =>
      { s with db := s.db.updateEvent id (OutboxEvent.markPublished now) fun _ => rfl }
  | .recordError id nextAttemptAt error =>
      { s with db := s.db.updateEvent id (OutboxEvent.recordError nextAttemptAt error) fun _ => rfl }

/-- Carry out the effect of a delivery; `none` when its update breaks a unique index or finds no
row, which the code sees as a call that throws. -/
def perform (s : Pipeline) (job : OutboundQueueJob) : Effect → Option Pipeline
  | .none | .ack => some s
  | .write write =>
      (s.db.messages.update? (.id job.messageId) write.apply).map fun messages =>
        let event : MessageStatusEvent :=
          { messageId := job.messageId, status := write.status, createdAt := s.clock }
        { s with db := { s.db with
            messages := messages
            statusEvents :=
              if write.isCompleting then event :: s.db.statusEvents else s.db.statusEvents } }
  | .recordEvent status =>
      let event : MessageStatusEvent :=
        { messageId := job.messageId, status := status, createdAt := s.clock }
      some { s with db := { s.db with statusEvents := event :: s.db.statusEvents } }
  | .publishRetry publication =>
      let entry : RetryEntry :=
        { due := s.clock + ⌊publication.delay⌋₊, publication := publication }
      some { s with retry := entry :: s.retry }
  | .publishDead letter => some { s with dead := letter :: s.dead }
  | .nack => some { s with main := job :: s.main }

/-- The message of a `sendMessage` call that this step sees accepted. -/
def newSends (d : Delivery) : DeliveryAct → List Uuid
  | .sent (.accepted _ _) => [d.job.messageId]
  | _ => []

/-- One step of the pipeline. -/
def step (env : PipelineEnv) (s : Pipeline) : Act → Option Pipeline
  | .tick elapsed => some { s with clock := s.clock + elapsed }
  | .other write => some { s with db := write.run s.db }
  | .report status => (s.db.applyStatus s.clock status).map fun db => { s with db := db }
  | .beginCreate tenantId dto => some { s with calls := s.calls ++ [.begin tenantId dto] }
  | .create i act =>
      s.calls[i]?.bind fun call =>
        (call.step env.normalizeMediaPayload s.db s.clock act).map fun (db, call') =>
          { s with db := db, calls := s.calls.set i call' }
  | .flush readAt ids =>
      if readAt ≤ s.clock ∧ ids.length ≤ env.config.outboxBatch then
        let (db, events) :=
          s.db.claimEvents s.clock (readAt + env.config.outboxLease) ids
        some { s with
          db := db
          publishers := s.publishers ++ [{ batch := events, stage := .next }] }
      else none
  | .publisher i act =>
      s.publishers[i]?.bind fun p =>
        (p.step s.clock s.db.message act).map fun (p', effect) =>
          { s.publish effect with publishers := s.publishers.set i p' }
  | .consume n =>
      s.main[n]?.map fun job =>
        { s with main := s.main.eraseIdx n, deliveries := s.deliveries ++ [.begin job] }
  | .expire n =>
      s.retry[n]?.bind fun entry =>
        if entry.due ≤ s.clock then
          some { s with
            retry := s.retry.eraseIdx n
            main := entry.publication.job :: s.main }
        else none
  | .redeliver i =>
      s.deliveries[i]?.bind fun d =>
        if d.unacked then
          some { s with
            main := d.job :: s.main
            deliveries := s.deliveries.set i { d with unacked := false } }
        else none
  | .delivery i act =>
      s.deliveries[i]?.bind fun d =>
        (d.step env.config s.clock (s.db.message d.job.messageId) act).bind fun (d', effect) =>
          (s.perform d.job effect).map fun s' =>
            { s' with
              deliveries := s.deliveries.set i d'
              sends := newSends d act ++ s.sends }

/-! ## What a step does to the rows and the deliveries -/

/-- The row of a message after an effect. -/
def onRow : Effect → Message → Message
  | .write write => write.apply
  | _ => id

/-- An update of one message's row. -/
theorem message_of_update? {db : Db} {id : Uuid} {f : Message → Message} {messages : Table Message}
    (hid : ∀ m, (f m).id = m.id) (h : db.messages.update? (.id id) f = some messages) (j : Uuid) :
    messages.find (.id j) = (db.message j).map fun m => if j = id then f m else m := by
  rw [Table.find_of_update? h fun m _ => by simp [hid], Db.message]
  rcases hm : db.messages.find (.id j) with _ | m
  · rfl
  · have hj : m.id = j := by simpa using (db.messages.find_eq_some_iff.mp hm).2
    simp [← hj]

/-- A report moves at most the row that carries its id. -/
theorem message_of_applyStatus {db db' : Db} {now : Time} {report : MetaMessageStatus}
    (h : db.applyStatus now report = some db') :
    (∀ j, db'.message j = db.message j) ∨
      ∃ m target at_ error, db.message m.id = some m ∧ m.providerMessageId = some report.id ∧
        mapStatus report.status = some target ∧ shouldApplyStatus m.status target = true ∧
        ∀ j, db'.message j = if j = m.id then some (m.stamp target at_ error) else db.message j := by
  unfold Db.applyStatus at h
  split at h
  · cases h; exact .inl fun _ => rfl
  rename_i target htarget
  split at h
  · cases h; exact .inl fun _ => rfl
  rename_i m hm
  obtain ⟨at_, -, rfl⟩ := Option.map_eq_some_iff.mp h
  obtain ⟨hmem, hkey⟩ := db.messages.find_eq_some_iff.mp hm
  have hrow : db.message m.id = some m := db.messages.find_eq_some_iff.mpr ⟨hmem, by simp⟩
  by_cases happly : shouldApplyStatus m.status target = true
  · refine .inr ⟨m, target, at_, extractError report.errors, hrow, by simpa using hkey, htarget,
      happly, fun j => ?_⟩
    simp only [Db.message, happly, if_true, Table.find_updateWhere]
    by_cases hj : j = m.id
    · subst hj
      rw [Db.message] at hrow
      simp [hrow]
    · rcases hrow' : db.messages.find (.id j) with _ | r
      · simp [hj]
      · have hr : r.id = j := by simpa using (db.messages.find_eq_some_iff.mp hrow').2
        have hne : r.id ≠ m.id := fun heq => hj (hr.symm.trans heq)
        simp [hj, hne]
  · exact .inl fun j => by simp [Db.message, happly]

/-- A committed `create` adds one row, which the table did not have. -/
theorem message_of_commitCreate {db db' : Db} {now : Time} {t : Uuid} {key : Option String}
    {draft : MessageDraft} {ids : CreateIds} {m : Message}
    (h : db.commitCreate now t key draft ids = some (db', m)) :
    db.message ids.messageId = none ∧
      ∀ j, db'.message j = if j = ids.messageId then some m else db.message j := by
  obtain ⟨⟨c, rfl⟩, hmessages, -⟩ := Db.commitCreate_spec h
  refine ⟨Table.find_eq_none_of_insert? hmessages (by simp [MessageDraft.message]), fun j => ?_⟩
  rw [Db.message, Table.find_of_insert? hmessages]
  by_cases hj : j = ids.messageId
  · simp [hj, MessageDraft.message]
  · have hj' : ¬ ids.messageId = j := fun heq => hj heq.symm
    simp [hj, hj', MessageDraft.message, Db.message]

/-- Carrying out an effect touches the row of its message and no delivery. -/
theorem perform_spec {s s' : Pipeline} {job : OutboundQueueJob} {effect : Effect}
    (h : s.perform job effect = some s') :
    (∀ j, s'.db.message j =
        (s.db.message j).map fun m => if j = job.messageId then onRow effect m else m) ∧
      s'.db.outboxEvents = s.db.outboxEvents ∧ s'.clock = s.clock ∧
      s'.publishers = s.publishers ∧ (∀ w, effect = .write w → ∃ m, s.db.message job.messageId = some m) := by
  have hsame : ∀ j, s.db.message j =
      (s.db.message j).map fun m => if j = job.messageId then m else m := fun j => by simp
  cases effect with
  | write w =>
      obtain ⟨messages, hup, rfl⟩ := Option.map_eq_some_iff.mp h
      refine ⟨message_of_update? w.id_apply hup, rfl, rfl, rfl, fun _ _ => ?_⟩
      exact Table.exists_find_of_update? hup
  | none | ack | nack | recordEvent _ | publishRetry _ | publishDead _ =>
      cases h
      exact ⟨hsame, rfl, rfl, rfl, fun w hw => by cases hw⟩

/-- What a step can do to the rows, the deliveries and the history of sends. -/
inductive Moves (env : PipelineEnv) (s s' : Pipeline) : Act → Prop where
  /-- Nothing of these, though time may pass. -/
  | quiet (a : Act) (hrows : ∀ j, s'.db.message j = s.db.message j)
      (hdeliveries : s'.deliveries = s.deliveries) (hsends : s'.sends = s.sends)
      (hclock : s.clock ≤ s'.clock) : Moves env s s' a
  /-- A message is created. -/
  | created (i : ℕ) (act : CreateAct) (m : Message) (hnone : s.db.message m.id = none)
      (hfresh : m.status = .queued ∧ m.providerMessageId = none ∧ m.attemptCount = 0)
      (hrows : ∀ j, s'.db.message j = if j = m.id then some m else s.db.message j)
      (hdeliveries : s'.deliveries = s.deliveries) (hsends : s'.sends = s.sends)
      (hclock : s'.clock = s.clock) : Moves env s s' (.create i act)
  /-- A report moves the row that carries its id. -/
  | reported (report : MetaMessageStatus) (m : Message) (target : MessageStatus) (at_ : Time)
      (error : Option String × Option String) (hm : s.db.message m.id = some m)
      (hprovider : m.providerMessageId = some report.id) (htarget : IsReported target)
      (happly : shouldApplyStatus m.status target = true)
      (hrows : ∀ j, s'.db.message j =
        if j = m.id then some (m.stamp target at_ error) else s.db.message j)
      (hdeliveries : s'.deliveries = s.deliveries) (hsends : s'.sends = s.sends)
      (hclock : s'.clock = s.clock) : Moves env s s' (.report report)
  /-- A job is delivered. -/
  | consumed (n : ℕ) (job : OutboundQueueJob) (hrows : ∀ j, s'.db.message j = s.db.message j)
      (hdeliveries : s'.deliveries = s.deliveries ++ [.begin job]) (hsends : s'.sends = s.sends)
      (hclock : s'.clock = s.clock) : Moves env s s' (.consume n)
  /-- A delivery loses its channel. -/
  | redelivered (i : ℕ) (d : Delivery) (hd : s.deliveries[i]? = some d)
      (hrows : ∀ j, s'.db.message j = s.db.message j)
      (hdeliveries : s'.deliveries = s.deliveries.set i { d with unacked := false })
      (hsends : s'.sends = s.sends) (hclock : s'.clock = s.clock) : Moves env s s' (.redeliver i)
  /-- A delivery takes a step. -/
  | delivered (i : ℕ) (act : DeliveryAct) (d d' : Delivery) (effect : Effect)
      (hd : s.deliveries[i]? = some d)
      (hstep : d.step env.config s.clock (s.db.message d.job.messageId) act = some (d', effect))
      (hwrite : ∀ w, effect = .write w → ∃ m, s.db.message d.job.messageId = some m)
      (hrows : ∀ j, s'.db.message j =
        (s.db.message j).map fun m => if j = d.job.messageId then onRow effect m else m)
      (hdeliveries : s'.deliveries = s.deliveries.set i d')
      (hsends : s'.sends = newSends d act ++ s.sends)
      (hclock : s'.clock = s.clock) : Moves env s s' (.delivery i act)

/-- **Every step is one of these.** -/
theorem step_moves {env : PipelineEnv} {s s' : Pipeline} {a : Act} (h : s.step env a = some s') :
    Moves env s s' a := by
  cases a with
  | tick elapsed =>
      cases h
      exact .quiet _ (fun _ => rfl) rfl rfl (Nat.le_add_right _ _)
  | other write =>
      cases h
      exact .quiet _ (fun j => by simp [Db.message, write.messages_run]) rfl rfl le_rfl
  | report status =>
      obtain ⟨db, hdb, rfl⟩ := Option.map_eq_some_iff.mp h
      rcases message_of_applyStatus hdb with hrows | ⟨m, target, at_, error, hm, hp, ht, ha, hrows⟩
      · exact .quiet _ hrows rfl rfl le_rfl
      · exact .reported status m target at_ error hm hp (isReported_of_mapStatus ht) ha hrows rfl rfl
          rfl
  | beginCreate tenantId dto =>
      cases h
      exact .quiet _ (fun _ => rfl) rfl rfl le_rfl
  | create i act =>
      obtain ⟨call, -, h⟩ := Option.bind_eq_some_iff.mp h
      obtain ⟨⟨db, call'⟩, hcall, rfl⟩ := Option.map_eq_some_iff.mp h
      obtain ⟨-, ⟨-, rfl, -⟩ | ⟨draft, ids, m, -, hcommit, -⟩⟩ := CreateCall.step_db hcall
      · exact .quiet _ (fun _ => rfl) rfl rfl le_rfl
      · obtain ⟨hnone, hrows⟩ := message_of_commitCreate hcommit
        obtain ⟨⟨c, rfl⟩, -⟩ := Db.commitCreate_spec hcommit
        exact .created i act (draft.message ids call.tenantId call.dto.idempotencyKey c) hnone
          ⟨rfl, rfl, rfl⟩ hrows rfl rfl rfl
  | flush readAt ids =>
      simp only [step] at h
      split_ifs at h
      cases h
      exact .quiet _ (fun _ => rfl) rfl rfl le_rfl
  | publisher i act =>
      obtain ⟨p, -, h⟩ := Option.bind_eq_some_iff.mp h
      obtain ⟨⟨p', effect⟩, -, rfl⟩ := Option.map_eq_some_iff.mp h
      cases effect <;> exact .quiet _ (fun _ => rfl) rfl rfl le_rfl
  | consume n =>
      obtain ⟨job, -, rfl⟩ := Option.map_eq_some_iff.mp h
      exact .consumed n job (fun _ => rfl) rfl rfl rfl
  | expire n =>
      obtain ⟨entry, -, h⟩ := Option.bind_eq_some_iff.mp h
      split_ifs at h
      cases h
      exact .quiet _ (fun _ => rfl) rfl rfl le_rfl
  | redeliver i =>
      obtain ⟨d, hd, h⟩ := Option.bind_eq_some_iff.mp h
      split_ifs at h
      cases h
      exact .redelivered i d hd (fun _ => rfl) rfl rfl rfl
  | delivery i act =>
      obtain ⟨d, hd, h⟩ := Option.bind_eq_some_iff.mp h
      obtain ⟨⟨d', effect⟩, hstep, h⟩ := Option.bind_eq_some_iff.mp h
      obtain ⟨s₁, hperform, rfl⟩ := Option.map_eq_some_iff.mp h
      obtain ⟨hrows, -, hclock, -, hwrite⟩ := perform_spec hperform
      exact .delivered i act d d' effect hd hstep hwrite hrows rfl rfl hclock

/-- What new deliveries have, and a step of a delivery and the loss of its channel keep, every
delivery has after every step. -/
theorem Moves.forall_deliveries {env : PipelineEnv} {s s' : Pipeline} {a : Act}
    {P : Delivery → Prop} (h : Moves env s s' a) (hall : ∀ d ∈ s.deliveries, P d)
    (hbegin : ∀ job, P (.begin job)) (hunacked : ∀ d, P d → P { d with unacked := false })
    (hstep : ∀ d ∈ s.deliveries, ∀ act d' effect, P d →
      d.step env.config s.clock (s.db.message d.job.messageId) act = some (d', effect) → P d') :
    ∀ d ∈ s'.deliveries, P d := by
  cases h with
  | quiet _ _ hds | created _ _ _ _ _ _ hds | reported _ _ _ _ _ _ _ _ _ _ hds =>
      rw [hds]
      exact hall
  | consumed n job _ hds =>
      rw [hds]
      intro d hd
      rcases List.mem_append.mp hd with hd | hd
      · exact hall d hd
      · rw [List.mem_singleton.mp hd]
        exact hbegin job
  | redelivered i₀ d₀ hd₀ _ hds =>
      rw [hds]
      intro d hd
      rcases List.mem_or_eq_of_mem_set hd with hd | rfl
      · exact hall d hd
      · exact hunacked d₀ (hall d₀ (List.mem_of_getElem? hd₀))
  | delivered i₀ act d₀ d' effect hd₀ hlocal _ _ hds =>
      rw [hds]
      intro d hd
      have hmem₀ := List.mem_of_getElem? hd₀
      rcases List.mem_or_eq_of_mem_set hd with hd | rfl
      · exact hall d hd
      · exact hstep d₀ hmem₀ act d effect (hall d₀ hmem₀) hlocal

/-! ## A small pipeline -/

/-- Leases of five seconds and one retry after five seconds. -/
def sampleEnv : PipelineEnv where
  config :=
    { messageLeaseMs := some 5000, retryDelaysMs := some "5000", reservationWindowMs := none,
      outboxLeaseMs := none, outboxBatchSize := none }
  normalizeMediaPayload := fun _ payload => .ok payload

/-- The message 100 is created, published and delivered to delivery 0. -/
def sampleDelivered : List Act :=
  let created : Act := .create 0 (.call .returned sampleIds)
  let published : Act := .publisher 0 (.call .returned)
  [.beginCreate 1 sampleDto, created, created, created, created, .flush 0 [101],
    .publisher 0 .run, published, published, published, .publisher 0 .run, .consume 0]

/-- Delivery `i` claims its message and waits for a slot. -/
def sampleClaimed (i : ℕ) : List Act :=
  let returned : Act := .delivery i (.call .returned)
  [.delivery i .run, returned, returned, returned, .delivery i (.sender .resolved),
    .delivery i .run]

end Pipeline

end ApiWhatsApp
