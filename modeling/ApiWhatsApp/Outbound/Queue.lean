import ApiWhatsApp.Schema

/-!
# The outbound queue

The data of `queue/messaging-queue.service.ts`: jobs, what a handler may answer, the queues of the
broker, and the two ways of putting a job back.

* `retryDelays` reads `OUTBOUND_RETRY_DELAYS_MS`; `retryDelays_ne_nil` says that at least one
  positive delay remains, whatever the variable holds.
* `scheduleRetry` consumes one retry of the budget or refuses when it is used up;
  `scheduleDeferredRetry` puts the job back under its own retry count.

A job stands for its queue message: `attempt` is the header `x-retry-count`, and the traffic class
is that of the queue it is in. Messages that do not parse are not modelled, since nothing here
publishes one; neither are trace carriers.
-/

namespace ApiWhatsApp

open Library

/-- The name that a template literal prints. -/
def trafficClassName : MessageTrafficClass → String
  | .otp => "OTP"
  | .transactional => "TRANSACTIONAL"
  | .marketing => "MARKETING"

/-- Source: `interface OutboundQueueJob`. -/
structure OutboundQueueJob where
  messageId : Uuid
  attempt : ℕ
  trafficClass : MessageTrafficClass
  deriving DecidableEq, Repr

/-- Source: `interface QueueProcessingResult`; every action but `ack` is given a reason. -/
inductive QueueProcessingResult where
  | ack
  | retry (reason : String)
  | defer (reason : String)
  | dead (reason : String)
  deriving DecidableEq, Repr

/-- A message for a retry queue. -/
structure RetryPublication where
  delay : ℚ
  job : OutboundQueueJob
  lastError : Option String
  deriving DecidableEq

/-- A message waiting in a retry queue until its time to live is over. -/
structure RetryEntry where
  due : Time
  publication : RetryPublication
  deriving DecidableEq

/-- A message in a dead-letter queue. -/
structure DeadLetter where
  messageId : Uuid
  trafficClass : MessageTrafficClass
  reason : String
  failedAt : Time
  deriving DecidableEq

/-- The environment variables that the outbound services read. -/
structure OutboundConfig where
  /-- `OUTBOUND_MESSAGE_LEASE_MS`. -/
  messageLeaseMs : Option ℕ
  /-- `OUTBOUND_RETRY_DELAYS_MS`. -/
  retryDelaysMs : Option String
  /-- `OUTBOUND_PRIORITY_RESERVATION_WINDOW_MS`, `none` when it is absent or not a number. -/
  reservationWindowMs : Option ℚ
  /-- `OUTBOX_LEASE_MS`. -/
  outboxLeaseMs : Option ℕ
  /-- `OUTBOX_BATCH_SIZE`. -/
  outboxBatchSize : Option ℕ

namespace OutboundConfig

/-- The lease that `claimMessage` takes: at least five seconds. -/
def leaseMs (config : OutboundConfig) : ℕ := max 5000 (config.messageLeaseMs.getD 30000)

/-- The delays of a variable's value: the positive numbers among its comma-separated parts. -/
def positiveDelays (raw : String) : List ℚ :=
  ((raw.toList.splitOn ',').filterMap fun part => doubleOf (String.ofList part)).filter (0 < ·)

/-- The delays used when the variable holds none. -/
def defaultDelays : List ℚ := [5000, 30000, 120000, 600000]

/-- Source: `retryDelays`. -/
def retryDelays (config : OutboundConfig) : List ℚ :=
  let values := positiveDelays (config.retryDelaysMs.getD "5000,30000,120000,600000")
  if values.isEmpty then defaultDelays else values

theorem retryDelays_ne_nil (config : OutboundConfig) : config.retryDelays ≠ [] := by
  unfold retryDelays
  simp only
  split_ifs with h
  · simp [defaultDelays]
  · simpa using h

/-- `Math.min(...this.retryDelays())`. -/
def shortestDelay (config : OutboundConfig) : ℚ :=
  match config.retryDelays with
  | [] => 0
  | delay :: rest => rest.foldl min delay

/-- The shortest delay is one of the delays. -/
theorem shortestDelay_mem_retryDelays (config : OutboundConfig) :
    config.shortestDelay ∈ config.retryDelays := by
  have hfold : ∀ (rest : List ℚ) (delay : ℚ), rest.foldl min delay ∈ delay :: rest := by
    intro rest
    induction rest with
    | nil => simp
    | cons next rest ih =>
        intro delay
        rcases List.mem_cons.mp (ih (min delay next)) with heq | hmem
        · rw [List.foldl_cons, heq]
          rcases min_choice delay next with hmin | hmin <;> simp [hmin]
        · exact List.mem_cons_of_mem _ (List.mem_cons_of_mem _ hmem)
  unfold shortestDelay
  split
  · exact absurd ‹_› config.retryDelays_ne_nil
  · rename_i hdelays
    exact hdelays ▸ hfold _ _

end OutboundConfig

/-- The `x-last-error` header. -/
def lastErrorHeader (reason : String) : Option String :=
  if reason = "" then none else some (slice reason 512)

/-- The publication of a deferred job: the shortest delay, the same retry count.
Source: `scheduleDeferredRetry`. -/
def scheduleDeferredRetry (config : OutboundConfig) (job : OutboundQueueJob) (reason : String) :
    RetryPublication where
  delay := config.shortestDelay
  job := job
  lastError := lastErrorHeader reason

/-- The publication of a retried job: the next delay, one more retry; `none` when the retry budget
is used up. Source: `scheduleRetry`. -/
def scheduleRetry (config : OutboundConfig) (job : OutboundQueueJob) (reason : String) :
    Option RetryPublication :=
  config.retryDelays[job.attempt]?.map fun delay =>
    { delay := delay, job := { job with attempt := job.attempt + 1 },
      lastError := lastErrorHeader reason }

/-- Both ways of putting a job back keep its message. -/
@[simp] theorem messageId_scheduleDeferredRetry (config : OutboundConfig) (job : OutboundQueueJob)
    (reason : String) : (scheduleDeferredRetry config job reason).job.messageId = job.messageId :=
  rfl

theorem messageId_of_scheduleRetry {config : OutboundConfig} {job : OutboundQueueJob}
    {reason : String} {p : RetryPublication} (h : scheduleRetry config job reason = some p) :
    p.job.messageId = job.messageId := by
  obtain ⟨delay, -, rfl⟩ := Option.map_eq_some_iff.mp h
  rfl

end ApiWhatsApp
