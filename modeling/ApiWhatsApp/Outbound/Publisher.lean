import ApiWhatsApp.Messages.Create
import ApiWhatsApp.Outbound.Queue

/-!
# The outbox publisher

`outbox/outbox-publisher.service.ts`: a flush claims a batch of due events and publishes them one
after the other. A `Publisher` is one such flush, stopped at every `await`; `Db.claimEvents` is its
claiming statement.

* An event is published to the broker first and marked afterwards, so a crash between the two
  publishes it again later.
* `PublisherEffect` is what a step asks of the shared state: a job for the main queue, or an update
  of the event.
-/

namespace ApiWhatsApp

open Library

/-- `OUTBOX_LEASE_MS`, at least five seconds. -/
def OutboundConfig.outboxLease (config : OutboundConfig) : ℕ :=
  max 5000 (config.outboxLeaseMs.getD 30000)

/-- `OUTBOX_BATCH_SIZE`, at least one. -/
def OutboundConfig.outboxBatch (config : OutboundConfig) : ℕ :=
  max 1 (config.outboxBatchSize.getD 50)

/-- The `WHERE` of the claiming statement. -/
def OutboxEvent.isDue (now : Time) (e : OutboxEvent) : Bool :=
  e.publishedAt.isNone && e.nextAttemptAt ≤ now &&
    match e.processingLeaseUntil with
    | none => true
    | some leaseUntil => leaseUntil ≤ now

/-- The `SET` of the claiming statement. -/
def OutboxEvent.claim (leaseUntil : Time) (e : OutboxEvent) : OutboxEvent :=
  { e with processingLeaseUntil := some leaseUntil, attempts := e.attempts + 1 }

/-- The update after a confirmed publication. -/
def OutboxEvent.markPublished (now : Time) (e : OutboxEvent) : OutboxEvent :=
  { e with publishedAt := some now, processingLeaseUntil := none, lastError := none }

/-- The update after a failed one. -/
def OutboxEvent.recordError (nextAttemptAt : Time) (error : String) (e : OutboxEvent) :
    OutboxEvent :=
  { e with
    lastError := some (slice error 2000)
    nextAttemptAt := nextAttemptAt
    processingLeaseUntil := none }

/-- Update one outbox event. -/
def Db.updateEvent (db : Db) (id : Uuid) (f : OutboxEvent → OutboxEvent)
    (hf : ∀ e, Keyed.keys (f e) = Keyed.keys e) : Db :=
  { db with outboxEvents := db.outboxEvents.updateWhere (fun e => e.id = id) f hf }

/-- Claim the events `ids`, as far as they are due. The choice of `ids` stands for the `LIMIT` and
for the rows that other flushes have locked. Source: `claimEvents`. -/
def Db.claimEvents (db : Db) (now leaseUntil : Time) (ids : List Uuid) : Db × List OutboxEvent :=
  ({ db with
      outboxEvents := db.outboxEvents.updateWhere (fun e => e.id ∈ ids && e.isDue now)
        (OutboxEvent.claim leaseUntil) fun _ => rfl },
    (db.outboxEvents.rows.filter fun e => e.id ∈ ids && e.isDue now).map
      (OutboxEvent.claim leaseUntil))

/-- `Math.min(60_000, 1000 * 2 ** Math.min(Math.max(attempts - 1, 0), 6))`. -/
def outboxRetryDelayMs (attempts : ℕ) : ℕ := min 60000 (1000 * 2 ^ min (attempts - 1) 6)

/-- Where a flush stands. -/
inductive PublisherStage where
  | next
  | lookup (event : OutboxEvent)
  | publish (event : OutboxEvent) (job : OutboundQueueJob)
  | markPublished (event : OutboxEvent) (now : Time)
  | recordError (event : OutboxEvent) (now : Time) (error : String)
  | finished
  | crashed
  deriving DecidableEq

/-- One flush: the claimed events still to be published, and where it stands. -/
structure Publisher where
  batch : List OutboxEvent
  stage : PublisherStage
  deriving DecidableEq

/-- What a step of a flush asks of the shared state. -/
inductive PublisherEffect where
  | none
  | enqueue (job : OutboundQueueJob)
  | markPublished (id : Uuid) (now : Time)
  | recordError (id : Uuid) (nextAttemptAt : Time) (error : String)

/-- One step of a flush, by what the environment decides. -/
inductive PublisherAct where
  | run
  | call (outcome : CallOutcome)
  | crash

namespace Publisher

/-- `extractMessageId(payload) ?? aggregateId`. -/
def messageId (event : OutboxEvent) : Uuid := event.payload.messageId.getD event.aggregateId

/-- The error of an event whose traffic class is not that of its message. -/
def mismatchError (payloadClass persistedClass : MessageTrafficClass) : String :=
  s!"Outbox traffic class {trafficClassName payloadClass} does not match persisted message class "
    ++ trafficClassName persistedClass

/-- Where `publish` goes after `lookupTrafficClass`. -/
def afterLookup (clock : Time) (row : Option Message) (event : OutboxEvent) : PublisherStage :=
  let job (trafficClass : MessageTrafficClass) : OutboundQueueJob :=
    { messageId := messageId event, attempt := 0, trafficClass := trafficClass }
  match row, event.payload.trafficClass with
  | none, _ => .recordError event clock s!"Outbound message {messageId event} no longer exists"
  | some message, none => .publish event (job message.trafficClass)
  | some message, some trafficClass =>
      if trafficClass = message.trafficClass then .publish event (job message.trafficClass)
      else .recordError event clock (mismatchError trafficClass message.trafficClass)

/-- The pending call of a stage: its effect, and the next stages. -/
def pending (clock : Time) (row : Uuid → Option Message) (p : Publisher) :
    Option (PublisherEffect × PublisherStage × (String → PublisherStage)) :=
  match p.stage with
  | .lookup event =>
      some (.none, afterLookup clock (row (messageId event)) event, .recordError event clock)
  | .publish event job => some (.enqueue job, .markPublished event clock, .recordError event clock)
  | .markPublished event now =>
      some (.markPublished event.id now, .next, .recordError event clock)
  | .recordError event now error =>
      some (.recordError event.id (now + outboxRetryDelayMs event.attempts) error, .next,
        -- An error of this update ends the flush.
        fun _ => .finished)
  | .next | .finished | .crashed => none

/-- One step of a flush. -/
def step (clock : Time) (row : Uuid → Option Message) (p : Publisher) :
    PublisherAct → Option (Publisher × PublisherEffect)
  | .run =>
      match p.stage, p.batch with
      | .next, [] => some ({ p with stage := .finished }, .none)
      | .next, event :: batch =>
          if event.eventType = outboundRequestedEvent then
            some ({ batch := batch, stage := .lookup event }, .none)
          else
            let error := s!"Unsupported outbox event type: {event.eventType}"
            some ({ batch := batch, stage := .recordError event clock error }, .none)
      | _, _ => none
  | .call outcome =>
      (p.pending clock row).map fun (effect, returned, threw) =>
        match outcome with
        | .returned => ({ p with stage := returned }, effect)
        | .interrupted error => ({ p with stage := threw error }, effect)
        | .failed error => ({ p with stage := threw error }, .none)
  | .crash =>
      match p.stage with
      | .finished | .crashed => none
      | _ => some ({ p with stage := .crashed }, .none)

end Publisher

end ApiWhatsApp
