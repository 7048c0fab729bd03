import ApiWhatsApp.Outbound.Queue

/-!
# One delivery

`MessagingQueueService.processDelivery` with its handler `MessageDispatcherService.dispatch`, and
`markRetryExhausted`, as a state machine that stops at every `await`. A delivery sees the clock and
the row of its message, and asks the shared state for at most one `Effect` a step.

* `RowWrite` — the four updates of the message row: the claim and the three completing writes.
* `Delivery.pending` — the database or broker call a stage waits for: its effect, where the code
  goes when the call returns, and where when it throws. A call that throws may have taken effect.
* `Delivery.step` — one step, by whatever the environment decides.

A `Delivery` carries three history variables that the code does not have: the claim it made, the
provider id that `sendMessage` returned to it, and whether one of its completing writes took effect.

The order of the reads of the clock is that of the source: `claimMessage` reads it before its
statement runs, so the statement may use an old instant.
-/

namespace ApiWhatsApp

open Library

/-! ## Writes to the message row -/

/-- Source: `TERMINAL_OR_SUBMITTED_STATUSES`. -/
def isTerminalOrSubmitted : MessageStatus → Bool
  | .submitted | .sent | .delivered | .read | .failed | .cancelled | .expired => true
  | .created | .received | .queued | .processing => false

/-- The `where` of the claim's `updateMany`. -/
def Message.claimable (now : Time) (m : Message) : Bool :=
  m.providerMessageId.isNone &&
    match m.status with
    | .created | .queued => true
    | .processing =>
        match m.processingLeaseUntil with
        | none => true
        | some leaseUntil => leaseUntil ≤ now
    | _ => false

/-- The updates of a message row that the dispatcher makes. -/
inductive RowWrite where
  /-- The `updateMany` of `claimMessage`. -/
  | claim (now leaseUntil : Time)
  /-- The update to `SUBMITTED`. -/
  | submit (now : Time) (providerMessageId : String) (response : Json)
  /-- `markRetryableFailure`. -/
  | markRetryableFailure (errorCode errorMessage : String)
  /-- `markFailed`. -/
  | markFailed (now : Time) (errorCode errorMessage : String) (response : Option Json)

namespace RowWrite

/-- The row after the update. -/
def apply : RowWrite → Message → Message
  | claim now leaseUntil, m =>
      { m with
        status := .processing
        attemptCount := m.attemptCount + 1
        lastAttemptAt := some now
        processingLeaseUntil := some leaseUntil
        errorCode := none
        errorMessage := none }
  | submit now providerMessageId response, m =>
      { m with
        status := .submitted
        providerMessageId := some providerMessageId
        providerResponse := some response
        submittedAt := some now
        processingLeaseUntil := none
        errorCode := none
        errorMessage := none }
  | markRetryableFailure errorCode errorMessage, m =>
      { m with
        status := .queued
        processingLeaseUntil := none
        errorCode := some errorCode
        errorMessage := some (slice errorMessage 2000) }
  | markFailed now errorCode errorMessage response, m =>
      { m with
        status := .failed
        processingLeaseUntil := none
        errorCode := some errorCode
        errorMessage := some (slice errorMessage 2000)
        failedAt := some now
        providerResponse := response.or m.providerResponse }

/-- The status that the update writes. -/
def status : RowWrite → MessageStatus
  | claim _ _ => .processing
  | submit _ _ _ => .submitted
  | markRetryableFailure _ _ => .queued
  | markFailed _ _ _ _ => .failed

/-- Whether the update ends a dispatch; the claim begins one. -/
def isCompleting : RowWrite → Bool
  | claim _ _ => false
  | submit _ _ _ | markRetryableFailure _ _ | markFailed _ _ _ _ => true

/-- The row has the status that is written. -/
@[simp] theorem status_apply (w : RowWrite) (m : Message) : (w.apply m).status = w.status := by
  cases w <;> rfl

/-- A write leaves the id. -/
@[simp] theorem id_apply (w : RowWrite) (m : Message) : (w.apply m).id = m.id := by
  cases w <;> rfl

/-- Only the claim counts an attempt. -/
theorem attemptCount_apply (w : RowWrite) (m : Message) :
    (w.apply m).attemptCount = if w.isCompleting then m.attemptCount else m.attemptCount + 1 := by
  cases w <;> rfl

end RowWrite

/-! ## What the environment answers -/

/-- Source: `class MetaApiError`. -/
structure MetaApiError where
  message : String
  httpStatus : Option ℕ
  code : Option ℤ
  subcode : Option ℤ
  retryable : Bool
  response : Option Json

/-- Source: `metaErrorCode`. -/
def metaErrorCode (error : MetaApiError) : String :=
  match error.code with
  | some code =>
      match error.subcode with
      | some subcode => s!"META_{code}_{subcode}"
      | none => s!"META_{code}"
  | none =>
      match error.httpStatus with
      | some httpStatus => s!"HTTP_{httpStatus}"
      | none => "META_API_ERROR"

/-- How the call of `sendMessage` ended. -/
inductive SendOutcome where
  | accepted (providerMessageId : String) (response : Json)
  | metaApiError (error : MetaApiError)
  | otherError (reason : String)

/-- How `senderResolver.resolve` ended. -/
inductive SenderOutcome where
  | resolved
  | failed (reason : String)

/-- How one round of `waitForOutboundSlot` ended. -/
inductive SlotOutcome where
  | granted
  | refused
  | failed (reason : String)

/-! ## The delivery -/

/-- Where a delivery stands: the call it waits for, with what the code keeps until then. -/
inductive Stage where
  | start
  | claim (now : Time)
  | reload (claimed : Bool)
  | recordProcessing
  | resolveSender
  | awaitSlot
  | reserveSlot (now : Time)
  | sleep (wakeAt : Time)
  | send
  | submit (now : Time) (providerMessageId : String) (response : Json)
  | markRetryable (errorCode errorMessage : String)
  | markFailed (now : Time) (errorCode errorMessage : String) (response : Option Json)
  | publish (publication : RetryPublication)
  | exhausted (reason : String)
  | markExhausted (now : Time) (reason : String)
  | deadLetter (reason : String)
  | ack
  | nack
  | finished
  | crashed

/-- The completing write that a stage waits for. -/
def Stage.completing : Stage → Option RowWrite
  | .submit now providerMessageId response => some (.submit now providerMessageId response)
  | .markRetryable errorCode errorMessage => some (.markRetryableFailure errorCode errorMessage)
  | .markFailed now errorCode errorMessage response =>
      some (.markFailed now errorCode errorMessage response)
  | .markExhausted now reason => some (.markFailed now "RETRY_EXHAUSTED" reason none)
  | _ => none

/-- A stage that completes writes a completion. -/
theorem Stage.isCompleting_of_completing {stage : Stage} {w : RowWrite}
    (h : stage.completing = some w) : w.isCompleting = true := by
  unfold Stage.completing at h
  split at h <;> cases h <;> rfl

/-- A retryable failure is written at its own stage. -/
theorem Stage.eq_markRetryable_of_completing {stage : Stage} {errorCode errorMessage : String}
    (h : stage.completing = some (.markRetryableFailure errorCode errorMessage)) :
    stage = .markRetryable errorCode errorMessage := by
  unfold Stage.completing at h
  split at h <;> cases h
  rfl

/-- A claim that took effect: the instant it was computed from, its lease, and the attempt count it
left in the row. -/
structure Claim where
  claimedAt : Time
  leaseUntil : Time
  number : ℕ
  deriving DecidableEq

/-- One delivery of a job to a consumer. -/
structure Delivery where
  job : OutboundQueueJob
  stage : Stage
  /-- The broker waits for the acknowledgement, on an open channel. -/
  unacked : Bool
  /-- History: the claim this delivery made. -/
  claim : Option Claim
  /-- History: the provider id that `sendMessage` returned to this delivery. -/
  accepted : Option String
  /-- History: a completing write of this dispatch took effect. -/
  settled : Bool

/-- What a step asks of the shared state. -/
inductive Effect where
  | none
  | write (write : RowWrite)
  | recordEvent (status : MessageStatus)
  | publishRetry (publication : RetryPublication)
  | publishDead (letter : DeadLetter)
  | ack
  | nack

/-- Whether the effect needs the channel of the delivery. -/
def Effect.usesChannel : Effect → Bool
  | publishRetry _ | publishDead _ | ack | nack => true
  | none | write _ | recordEvent _ => false

/-- A pending database or broker call. -/
structure Pending where
  effect : Effect
  /-- The next stage when the call returns. -/
  returned : Stage
  /-- The next stage when the call throws. -/
  threw : String → Stage

/-- One step of a delivery, by what the environment decides. -/
inductive DeliveryAct where
  /-- The code goes on without waiting for a call. -/
  | run
  /-- The pending database or broker call ends. -/
  | call (outcome : CallOutcome)
  | sender (outcome : SenderOutcome)
  | slot (outcome : SlotOutcome)
  | sent (outcome : SendOutcome)
  /-- The process dies. -/
  | crash

/-- Source: `reservationWindowMs` in `distributed-rate-limiter.service.ts`. -/
def OutboundConfig.reservationWindow (config : OutboundConfig) : ℕ :=
  match config.reservationWindowMs with
  | some value => if 0 ≤ value ∧ value ≤ 950 then ⌊value⌋₊ else 700
  | none => 700

/-- How long a refused round of `waitForOutboundSlot` that read the clock at `now` sleeps. -/
def OutboundConfig.slotDelayMs (config : OutboundConfig) (now : Time) : ℕ :=
  let elapsed := now % 1000
  if elapsed < config.reservationWindow then max 25 (config.reservationWindow - elapsed + 5)
  else max 25 (1000 - elapsed + 5)

namespace Delivery

variable (config : OutboundConfig) (clock : Time) (row : Option Message)

/-- A job handed to a consumer. -/
def begin (job : OutboundQueueJob) : Delivery where
  job := job
  stage := .start
  unacked := true
  claim := none
  accepted := none
  settled := false

/-- What `processDelivery` does with the handler's answer. -/
def afterHandler (job : OutboundQueueJob) : QueueProcessingResult → Stage
  | .ack => .ack
  | .dead reason => .deadLetter reason
  | .defer reason => .publish (scheduleDeferredRetry config job reason)
  | .retry reason =>
      match scheduleRetry config job reason with
      | some publication => .publish publication
      | none => .exhausted reason

/-- The answer of `dispatch` when the claim failed, from the row read back. -/
def notClaimed : QueueProcessingResult :=
  match row with
  | none => .ack
  | some message =>
      if message.providerMessageId.isSome || isTerminalOrSubmitted message.status then .ack
      else if message.status = .processing then
        .defer "Message is currently leased by another worker"
      else .ack

/-- The reason of a traffic class mismatch. -/
def mismatchReason (queued persisted : MessageTrafficClass) : String :=
  s!"Queue traffic class {trafficClassName queued} does not match persisted class " ++
    trafficClassName persisted

/-- Where `dispatch` goes after the claim, from the row read back. -/
def afterReload (job : OutboundQueueJob) (claimed : Bool) : Stage :=
  if claimed then
    match row with
    | none => afterHandler config job (.retry "Claimed message could not be reloaded")
    | some message =>
        if message.trafficClass ≠ job.trafficClass then
          .markFailed clock "QUEUE_TRAFFIC_CLASS_MISMATCH"
            (mismatchReason job.trafficClass message.trafficClass) none
        else .recordProcessing
  else afterHandler config job (notClaimed row)

/-- Where `markRetryExhausted` goes, from the row it reads. -/
def afterExhausted (reason : String) : Stage :=
  match row with
  | none => .deadLetter reason
  | some message =>
      if isTerminalOrSubmitted message.status then .deadLetter reason
      else if message.status = .processing && message.processingLeaseUntil.any (clock < ·) then
        .deadLetter reason
      else .markExhausted clock reason

/-- The row that the claim's `updateMany` matches. -/
def claimed (now : Time) : Bool := row.any (Message.claimable now)

/-- The call that a stage waits for. -/
def pending (d : Delivery) : Option Pending :=
  match d.stage with
  | .claim now => some
      { effect :=
          if claimed row now then .write (.claim now (now + config.leaseMs)) else .none
        returned := .reload (claimed row now)
        threw := fun _ => .nack }
  | .reload claimed => some
      { effect := .none
        returned := afterReload config clock row d.job claimed
        threw := fun _ => .nack }
  | .recordProcessing => some
      { effect := .recordEvent .processing, returned := .resolveSender, threw := fun _ => .nack }
  | .submit now providerMessageId response => some
      { effect := .write (.submit now providerMessageId response)
        returned := .ack
        -- One `try` block covers the send and this update, so its error is taken for one of
        -- the mapping.
        threw := fun error => .markFailed clock "OUTBOUND_VALIDATION_ERROR" error none }
  | .markRetryable errorCode errorMessage => some
      { effect := .write (.markRetryableFailure errorCode errorMessage)
        returned := afterHandler config d.job (.retry errorMessage)
        threw := fun _ => .nack }
  | .markFailed now errorCode errorMessage response => some
      { effect := .write (.markFailed now errorCode errorMessage response)
        returned := .deadLetter errorMessage
        threw := fun _ => .nack }
  | .publish publication => some
      { effect := .publishRetry publication, returned := .ack, threw := fun _ => .nack }
  | .exhausted reason => some
      { effect := .none
        returned := afterExhausted clock row reason
        threw := fun _ => .nack }
  | .markExhausted now reason => some
      { effect := .write (.markFailed now "RETRY_EXHAUSTED" reason none)
        returned := .deadLetter reason
        threw := fun _ => .nack }
  | .deadLetter reason => some
      { effect := .publishDead
          { messageId := d.job.messageId, trafficClass := d.job.trafficClass, reason := reason,
            failedAt := clock }
        returned := .ack
        threw := fun _ => .nack }
  -- Acknowledgements are not confirmed: one that is lost leaves the delivery to the broker, and one
  -- on a closed channel throws.
  | .ack => some
      { effect := .ack, returned := .finished,
        threw := fun _ => if d.unacked then .finished else .nack }
  | .nack => some { effect := .nack, returned := .finished, threw := fun _ => .finished }
  | .start | .resolveSender | .awaitSlot | .reserveSlot _ | .sleep _ | .send | .finished
  | .crashed => none

/-- What an effect that took place leaves in the delivery: the history variables, and the end of
the broker's wait. -/
def note (d : Delivery) : Effect → Delivery
  | .write (.claim now leaseUntil) =>
      { d with claim := row.map fun message =>
          { claimedAt := now, leaseUntil := leaseUntil, number := message.attemptCount + 1 } }
  | .write _ => { d with settled := true }
  | .ack | .nack => { d with unacked := false }
  | .none | .recordEvent _ | .publishRetry _ | .publishDead _ => d

/-- The end of the pending call. -/
def endCall (d : Delivery) (p : Pending) : CallOutcome → Option (Delivery × Effect)
  | .failed error => some ({ d with stage := p.threw error }, .none)
  | .returned =>
      if p.effect.usesChannel && !d.unacked then none
      else some ({ d.note row p.effect with stage := p.returned }, p.effect)
  | .interrupted error =>
      if p.effect.usesChannel && !d.unacked then none
      else some ({ d.note row p.effect with stage := p.threw error }, p.effect)

/-- Where the answer of `sendMessage` leads. -/
def afterSend : SendOutcome → Stage
  | .accepted providerMessageId response => .submit clock providerMessageId response
  | .metaApiError error =>
      if error.retryable then .markRetryable (metaErrorCode error) error.message
      else .markFailed clock (metaErrorCode error) error.message error.response
  | .otherError reason => .markFailed clock "OUTBOUND_VALIDATION_ERROR" reason none

/-- The provider id of an accepted send. -/
def acceptedId : SendOutcome → Option String
  | .accepted providerMessageId _ => some providerMessageId
  | .metaApiError _ | .otherError _ => none

/-- One step of a delivery, with the effect it asks for. -/
def step (d : Delivery) : DeliveryAct → Option (Delivery × Effect)
  | .call outcome => (d.pending config clock row).bind fun p => d.endCall row p outcome
  | .run =>
      match d.stage with
      | .start => some ({ d with stage := .claim clock }, .none)
      | .awaitSlot => some ({ d with stage := .reserveSlot clock }, .none)
      | .sleep wakeAt => if wakeAt ≤ clock then some ({ d with stage := .awaitSlot }, .none) else none
      | _ => none
  | .sender outcome =>
      match d.stage, outcome with
      | .resolveSender, .resolved => some ({ d with stage := .awaitSlot }, .none)
      | .resolveSender, .failed reason =>
          some ({ d with stage := .markFailed clock "SENDER_CONFIGURATION_ERROR" reason none },
            .none)
      | _, _ => none
  | .slot outcome =>
      match d.stage, outcome with
      -- `sendMessage` is called as soon as the slot is granted.
      | .reserveSlot _, .granted => some ({ d with stage := .send }, .none)
      | .reserveSlot now, .refused =>
          some ({ d with stage := .sleep (clock + config.slotDelayMs now) }, .none)
      | .awaitSlot, .failed reason | .reserveSlot _, .failed reason =>
          some ({ d with stage := .markRetryable "RATE_LIMITER_UNAVAILABLE" reason }, .none)
      | _, _ => none
  | .sent outcome =>
      match d.stage with
      | .send => some ({ d with stage := afterSend clock outcome, accepted := acceptedId outcome },
          .none)
      | _ => none
  | .crash =>
      match d.stage with
      | .finished | .crashed => none
      | _ => some ({ d with stage := .crashed }, .none)

/-! ## What a step of a delivery can do -/

variable {config clock row} {d d' : Delivery} {act : DeliveryAct} {effect : Effect}

/-- How a pending call can end: without effect, or with its effect and a note of it. -/
theorem call_cases {outcome : CallOutcome}
    (h : d.step config clock row (.call outcome) = some (d', effect)) :
    ∃ p, d.pending config clock row = some p ∧
      ((effect = .none ∧ ∃ error, d' = { d with stage := p.threw error }) ∨
        (effect = p.effect ∧ (p.effect.usesChannel = true → d.unacked = true) ∧
          ∃ stage, (stage = p.returned ∨ ∃ error, stage = p.threw error) ∧
            d' = { d.note row p.effect with stage := stage })) := by
  obtain ⟨p, hp, h⟩ := Option.bind_eq_some_iff.mp h
  refine ⟨p, hp, ?_⟩
  cases outcome with
  | failed error =>
      cases h
      exact .inl ⟨rfl, error, rfl⟩
  | returned =>
      simp only [endCall] at h
      split_ifs at h with hchannel
      cases h
      exact .inr ⟨rfl, fun hu => by simpa [hu] using hchannel, _, .inl rfl, rfl⟩
  | interrupted error =>
      simp only [endCall] at h
      split_ifs at h with hchannel
      cases h
      exact .inr ⟨rfl, fun hu => by simpa [hu] using hchannel, _, .inr ⟨error, rfl⟩, rfl⟩

/-- A step that ends no call has no effect and only moves the stage, unless it is the answer of
`sendMessage`. -/
theorem idle_cases (h : d.step config clock row act = some (d', effect))
    (hact : ∀ outcome, act ≠ .call outcome) :
    effect = .none ∧ ((∃ stage, d' = { d with stage := stage }) ∨
      ∃ outcome, act = .sent outcome ∧ d.stage = .send ∧
        d' = { d with stage := afterSend clock outcome, accepted := acceptedId outcome }) := by
  cases act with
  | call outcome => exact absurd rfl (hact outcome)
  | sent outcome =>
      simp only [step] at h
      split at h <;> cases h
      exact ⟨rfl, .inr ⟨outcome, rfl, ‹_›, rfl⟩⟩
  | run =>
      simp only [step] at h
      split at h
      · cases h; exact ⟨rfl, .inl ⟨_, rfl⟩⟩
      · cases h; exact ⟨rfl, .inl ⟨_, rfl⟩⟩
      · split_ifs at h; cases h; exact ⟨rfl, .inl ⟨_, rfl⟩⟩
      · cases h
  | sender outcome | slot outcome | crash =>
      simp only [step] at h
      split at h <;> cases h <;> exact ⟨rfl, .inl ⟨_, rfl⟩⟩

/-- A step never changes the job. -/
theorem job_step (h : d.step config clock row act = some (d', effect)) : d'.job = d.job := by
  by_cases hact : ∃ outcome, act = .call outcome
  · obtain ⟨outcome, rfl⟩ := hact
    obtain ⟨p, -, ⟨-, e, rfl⟩ | ⟨-, -, stage, -, rfl⟩⟩ := call_cases h
    · rfl
    · unfold note
      split <;> rfl
  · obtain ⟨-, ⟨stage, rfl⟩ | ⟨outcome, -, -, rfl⟩⟩ := idle_cases h fun o ho => hact ⟨o, ho⟩ <;> rfl

/-- A write is the claim of a claimable row, or a completing write; the history records which. -/
theorem write_cases {w : RowWrite} (h : d.step config clock row act = some (d', .write w)) :
    (∃ now m, d.stage = .claim now ∧ row = some m ∧ m.claimable now = true ∧
      w = .claim now (now + config.leaseMs) ∧ (d'.stage = .reload true ∨ d'.stage = .nack) ∧
      d' = { d with
        stage := d'.stage
        claim := some ⟨now, now + config.leaseMs, m.attemptCount + 1⟩ }) ∨
    (d.stage.completing = some w ∧ d' = { d with stage := d'.stage, settled := true }) := by
  by_cases hact : ∃ outcome, act = .call outcome
  case neg => exact absurd (idle_cases h fun o ho => hact ⟨o, ho⟩).1 (by simp)
  obtain ⟨outcome, rfl⟩ := hact
  obtain ⟨p, hp, ⟨heq, -⟩ | ⟨heq, -, stage, hstage, hd'⟩⟩ := call_cases h
  · cases heq
  unfold pending at hp
  split at hp <;> cases hp <;> try (cases heq)
  · rename_i now hs
    rcases hrow : row with _ | m
    · simp [claimed, hrow] at heq
    · by_cases hclaim : m.claimable now = true
      · simp only [claimed, hrow, Option.any_some, hclaim, if_true, Effect.write.injEq] at heq
        subst heq
        simp only [claimed, hrow, Option.any_some, hclaim, if_true, note, Option.map_some] at hd'
        refine .inl ⟨now, m, hs, rfl, hclaim, rfl, ?_, by rw [hd']⟩
        rw [hd']
        rcases hstage with rfl | ⟨e, rfl⟩
        · exact .inl (by simp [claimed, hrow, hclaim])
        · exact .inr rfl
      · simp [claimed, hrow, hclaim] at heq
  all_goals
    rename_i hs
    exact .inr ⟨by rw [hs]; rfl, by rw [hd']; rfl⟩

/-- A write takes place at the end of a call that took effect. -/
theorem exists_call_of_write {w : RowWrite}
    (h : d.step config clock row act = some (d', .write w)) :
    ∃ outcome, act = .call outcome ∧ outcome.tookEffect = true := by
  cases act with
  | call outcome =>
      refine ⟨outcome, rfl, ?_⟩
      cases outcome with
      | failed e =>
          obtain ⟨p, -, h⟩ := Option.bind_eq_some_iff.mp h
          cases h
      | returned => rfl
      | interrupted e => rfl
  | run | sender _ | slot _ | sent _ | crash => exact absurd (idle_cases h (by simp)).1 (by simp)

/-- A step without a write leaves the history alone, unless it is the answer of `sendMessage`. -/
theorem no_write_cases (h : d.step config clock row act = some (d', effect))
    (hw : ∀ w, effect ≠ .write w) :
    d'.claim = d.claim ∧ d'.settled = d.settled ∧
      (d'.accepted = d.accepted ∨
        ∃ outcome, act = .sent outcome ∧ d.stage = .send ∧ d'.accepted = acceptedId outcome ∧
          d'.stage = afterSend clock outcome) := by
  by_cases hact : ∃ outcome, act = .call outcome
  · obtain ⟨outcome, rfl⟩ := hact
    obtain ⟨p, -, ⟨-, e, rfl⟩ | ⟨heq, -, stage, -, rfl⟩⟩ := call_cases h
    · exact ⟨rfl, rfl, .inl rfl⟩
    · rw [heq] at hw
      cases hp : p.effect with
      | write w => exact absurd hp (hw w)
      | none | ack | nack | recordEvent _ | publishRetry _ | publishDead _ =>
          exact ⟨rfl, rfl, .inl rfl⟩
  · obtain ⟨-, ⟨stage, rfl⟩ | ⟨outcome, ha, hs, rfl⟩⟩ := idle_cases h fun o ho => hact ⟨o, ho⟩
    · exact ⟨rfl, rfl, .inl rfl⟩
    · exact ⟨rfl, rfl, .inr ⟨outcome, ha, hs, rfl, rfl⟩⟩

end Delivery

/-! ## The control flow -/

/-- The parts of a delivery, from the claim to the end. -/
inductive Phase where
  /-- Before the claim. -/
  | entering
  /-- The claim found nothing to claim. -/
  | missed
  /-- Claimed, and not accepted by the provider so far. -/
  | unsent
  /-- About to put the message back to `QUEUED`. -/
  | requeueing
  /-- Accepted by the provider, about to record it. -/
  | submitting
  /-- About to record a failure. -/
  | failing
  /-- `dispatch` has returned and the job goes to a retry queue, or its retries are used up. -/
  | returning
  /-- The job is let go: dead letter and acknowledgement. -/
  | releasing
  /-- The job is given back, or the delivery has ended. -/
  | over
  deriving DecidableEq

/-- The phase of a stage. -/
def Stage.phase : Stage → Phase
  | .start | .claim _ => .entering
  | .reload claimed => if claimed then .unsent else .missed
  | .recordProcessing | .resolveSender | .awaitSlot | .reserveSlot _ | .sleep _ | .send => .unsent
  | .markRetryable _ _ => .requeueing
  | .submit _ _ _ => .submitting
  | .markFailed _ _ _ _ => .failing
  | .publish _ | .exhausted _ | .markExhausted _ _ => .returning
  | .deadLetter _ | .ack => .releasing
  | .nack | .finished | .crashed => .over

/-- Which part can follow which. -/
def Phase.leadsTo : Phase → Phase → Bool
  | .entering, p => p ∈ [.entering, .missed, .unsent, .over]
  | .missed, p => p ∈ [.returning, .releasing, .over]
  | .unsent, p => p ∈ [.unsent, .requeueing, .submitting, .failing, .returning, .over]
  | .requeueing, p => p ∈ [.returning, .over]
  | .submitting, p => p ∈ [.releasing, .failing, .over]
  | .failing, p => p ∈ [.releasing, .over]
  | .returning, p => p ∈ [.returning, .releasing, .over]
  | .releasing, p => p ∈ [.releasing, .over]
  | .over, p => p = .over

namespace Delivery

/-- After the handler the delivery returns or goes on to its end. -/
theorem phase_afterHandler (config : OutboundConfig) (job : OutboundQueueJob)
    (r : QueueProcessingResult) :
    (afterHandler config job r).phase = .returning ∨ (afterHandler config job r).phase = .releasing := by
  cases r with
  | retry reason =>
      simp only [afterHandler]
      split
      · exact .inl rfl
      · exact .inl rfl
  | ack => exact .inr rfl
  | defer _ => exact .inl rfl
  | dead _ => exact .inr rfl

/-- After a retry the delivery returns. -/
theorem phase_afterHandler_retry (config : OutboundConfig) (job : OutboundQueueJob)
    (reason : String) : (afterHandler config job (.retry reason)).phase = .returning := by
  simp only [afterHandler]
  split <;> rfl

/-- The second look leads to a later phase. -/
theorem phase_afterReload (config : OutboundConfig) (clock : Time) (row : Option Message)
    (job : OutboundQueueJob) (claimed : Bool) :
    (Stage.reload claimed).phase.leadsTo (afterReload config clock row job claimed).phase = true := by
  cases claimed with
  | true =>
      unfold afterReload
      split
      · split
        · rw [phase_afterHandler_retry]; rfl
        · split_ifs <;> rfl
      · contradiction
  | false =>
      show Phase.missed.leadsTo (afterHandler config job (notClaimed row)).phase = true
      rcases phase_afterHandler config job (notClaimed row) with h | h <;> rw [h] <;> rfl

/-- The end of the retries leads to a later phase. -/
theorem phase_afterExhausted (clock : Time) (row : Option Message) (reason : String) :
    Phase.returning.leadsTo (afterExhausted clock row reason).phase = true := by
  unfold afterExhausted
  split
  · rfl
  · split_ifs <;> rfl

/-- A send leads to a later phase. -/
theorem phase_afterSend (clock : Time) (outcome : SendOutcome) :
    Phase.unsent.leadsTo (afterSend clock outcome).phase = true := by
  cases outcome with
  | metaApiError error => simp only [afterSend]; split_ifs <;> rfl
  | accepted _ _ | otherError _ => rfl

variable {config : OutboundConfig} {clock : Time} {row : Option Message} {d d' : Delivery}
  {act : DeliveryAct} {effect : Effect}

/-- Where a pending call leads, whether it returns or throws. -/
theorem phase_pending {p : Pending} (hp : d.pending config clock row = some p) :
    d.stage.phase.leadsTo p.returned.phase = true ∧
      ∀ error, d.stage.phase.leadsTo (p.threw error).phase = true := by
  unfold pending at hp
  split at hp <;> cases hp <;> rename_i hs <;> rw [hs]
  case h_1 => exact ⟨by cases claimed row _ <;> rfl, fun _ => rfl⟩
  case h_2 claimed => exact ⟨phase_afterReload _ _ _ _ _, fun _ => by cases claimed <;> rfl⟩
  case h_5 =>
    refine ⟨?_, fun _ => rfl⟩
    show Phase.requeueing.leadsTo (afterHandler config d.job (.retry _)).phase = true
    rw [phase_afterHandler_retry]
    rfl
  case h_8 => exact ⟨phase_afterExhausted _ _ _, fun _ => rfl⟩
  case h_11 =>
    refine ⟨rfl, fun _ => ?_⟩
    simp only
    split_ifs <;> rfl
  all_goals exact ⟨rfl, fun _ => rfl⟩

/-- **Every step follows the control flow.** -/
theorem phase_step (h : d.step config clock row act = some (d', effect)) :
    d.stage.phase.leadsTo d'.stage.phase = true := by
  cases act with
  | call outcome =>
      obtain ⟨p, hp, hcase⟩ := call_cases h
      obtain ⟨hreturned, hthrew⟩ := phase_pending hp
      rcases hcase with ⟨-, e, rfl⟩ | ⟨-, -, stage, rfl | ⟨e, rfl⟩, rfl⟩
      · exact hthrew e
      · exact hreturned
      · exact hthrew e
  | run =>
      simp only [step] at h
      split at h
      · cases h; simp_all [Stage.phase, Phase.leadsTo]
      · cases h; simp_all [Stage.phase, Phase.leadsTo]
      · split_ifs at h; cases h; simp_all [Stage.phase, Phase.leadsTo]
      · cases h
  | sender outcome =>
      simp only [step] at h
      split at h <;> cases h <;> simp_all [Stage.phase, Phase.leadsTo]
  | slot outcome =>
      simp only [step] at h
      split at h <;> cases h <;> simp_all [Stage.phase, Phase.leadsTo]
  | sent outcome =>
      simp only [step] at h
      split at h <;> cases h
      rename_i hs
      rw [hs]
      exact phase_afterSend clock outcome
  | crash =>
      simp only [step] at h
      split at h <;> cases h
      cases d.stage.phase <;> rfl

/-- A step from before the claim reaches the unsent part only by a claim. -/
theorem unsent_of_entering (h : d.step config clock row act = some (d', effect))
    (hunsent : d'.stage.phase = .unsent) (hentering : d.stage.phase = .entering) :
    ∃ now leaseUntil, effect = .write (.claim now leaseUntil) := by
  have hstage : d.stage = .start ∨ ∃ now, d.stage = .claim now := by
    cases hs : d.stage with
    | start => exact .inl rfl
    | claim now => exact .inr ⟨now, rfl⟩
    | reload c => rw [hs] at hentering; cases c <;> cases hentering
    | _ => rw [hs] at hentering; cases hentering
  by_cases hact : ∃ outcome, act = .call outcome
  · obtain ⟨outcome, rfl⟩ := hact
    obtain ⟨p, hp, hcase⟩ := call_cases h
    rcases hstage with hs | ⟨now, hs⟩
    · simp [pending, hs] at hp
    simp only [pending, hs, Option.some.injEq] at hp
    subst hp
    rcases hcase with ⟨-, e, rfl⟩ | ⟨rfl, -, stage, rfl | ⟨e, rfl⟩, rfl⟩
    · cases hunsent
    · have hclaimed : claimed row now = true := by
        by_contra hc
        simp [hc, Stage.phase] at hunsent
      exact ⟨_, _, if_pos hclaimed⟩
    · cases hunsent
  · -- The steps of these stages that end no call read the clock, or the process dies.
    cases act <;> rcases hstage with hs | ⟨now, hs⟩ <;> simp [step, hs] at h hact <;>
      obtain ⟨rfl, -⟩ := h <;> cases hunsent

/-! ## Publications -/

/-- Both ways of putting a job back keep its message. -/
theorem messageId_of_afterHandler {job : OutboundQueueJob} {r : QueueProcessingResult}
    {publication : RetryPublication} (h : afterHandler config job r = .publish publication) :
    publication.job.messageId = job.messageId := by
  cases r with
  | ack | dead _ => cases h
  | defer reason =>
      cases h
      rfl
  | retry reason =>
      simp only [afterHandler] at h
      split at h <;> cases h
      exact messageId_of_scheduleRetry ‹_›

/-- A publication is scheduled from a row read back, or after a requeue. -/
theorem publish_cases {publication : RetryPublication}
    (h : d.step config clock row act = some (d', effect))
    (hs' : d'.stage = .publish publication) :
    (∃ claimed, d.stage = .reload claimed ∧
        afterReload config clock row d.job claimed = .publish publication) ∨
      ∃ errorCode errorMessage, d.stage = .markRetryable errorCode errorMessage ∧
        afterHandler config d.job (.retry errorMessage) = .publish publication := by
  by_cases hact : ∃ outcome, act = .call outcome
  · obtain ⟨outcome, rfl⟩ := hact
    obtain ⟨p, hp, hcase⟩ := call_cases h
    have hnext : p.returned = .publish publication ∨
        ∃ error, p.threw error = .publish publication := by
      rcases hcase with ⟨-, e, rfl⟩ | ⟨-, -, stage, rfl | ⟨e, rfl⟩, rfl⟩
      · exact .inr ⟨e, hs'⟩
      · exact .inl hs'
      · exact .inr ⟨e, hs'⟩
    unfold pending at hp
    split at hp <;> cases hp <;> rename_i hs
    case h_2 claimed => exact .inl ⟨claimed, hs, by simpa using hnext⟩
    case h_5 errorCode errorMessage => exact .inr ⟨errorCode, errorMessage, hs, by simpa using hnext⟩
    case h_8 reason =>
      have hexhausted : afterExhausted clock row reason = .publish publication := by
        simpa using hnext
      unfold afterExhausted at hexhausted
      split at hexhausted
      · cases hexhausted
      · split_ifs at hexhausted
    case h_11 =>
      simp only [reduceCtorEq, false_or] at hnext
      obtain ⟨e, he⟩ := hnext
      split_ifs at he
    all_goals simp at hnext
  · cases act with
    | call outcome => exact absurd ⟨outcome, rfl⟩ hact
    | sent outcome =>
        simp only [step] at h
        split at h <;> cases h
        cases outcome with
        | metaApiError error => simp only [afterSend] at hs'; split_ifs at hs'
        | accepted _ _ | otherError _ => cases hs'
    | run =>
        simp only [step] at h
        split at h
        · cases h; cases hs'
        · cases h; cases hs'
        · split_ifs at h; cases h; cases hs'
        · cases h
    | sender outcome | slot outcome | crash =>
        simp only [step] at h
        split at h <;> cases h <;> cases hs'

/-- The publication of a step is the one its stage holds. -/
theorem stage_of_publishRetry {publication : RetryPublication}
    (h : d.step config clock row act = some (d', .publishRetry publication)) :
    d.stage = .publish publication := by
  by_cases hact : ∃ outcome, act = .call outcome
  case neg => exact absurd (idle_cases h fun o ho => hact ⟨o, ho⟩).1 (by simp)
  obtain ⟨outcome, rfl⟩ := hact
  obtain ⟨p, hp, ⟨heq, -⟩ | ⟨heq, -⟩⟩ := call_cases h
  · cases heq
  unfold pending at hp
  split at hp <;> cases hp <;> rename_i hs
  case h_1 =>
    simp only at heq
    split_ifs at heq
  case h_7 =>
    cases heq
    exact hs
  all_goals cases heq

/-- A delivery that publishes puts back a job for its own message. -/
theorem messageId_of_publish {publication : RetryPublication}
    (h : d.step config clock row act = some (d', effect))
    (hs' : d'.stage = .publish publication) :
    publication.job.messageId = d'.job.messageId := by
  rw [job_step h]
  rcases publish_cases h hs' with ⟨claimed, -, hstage⟩ | ⟨_, _, -, hstage⟩
  · unfold afterReload at hstage
    split_ifs at hstage
    · split at hstage
      · exact messageId_of_afterHandler hstage
      · split_ifs at hstage
    · exact messageId_of_afterHandler hstage
  · exact messageId_of_afterHandler hstage

/-- Only an acknowledgement ends the broker's wait. -/
theorem unacked_step (h : d.step config clock row act = some (d', effect)) :
    d'.unacked = d.unacked ∨ (effect = .ack ∧ d.stage = .ack) ∨ effect = .nack := by
  by_cases hact : ∃ outcome, act = .call outcome
  · obtain ⟨outcome, rfl⟩ := hact
    obtain ⟨p, hp, ⟨-, e, rfl⟩ | ⟨rfl, -, stage, -, rfl⟩⟩ := call_cases h
    · exact .inl rfl
    · cases hp' : p.effect with
      | nack => exact .inr (.inr rfl)
      | ack =>
          refine .inr (.inl ⟨rfl, ?_⟩)
          unfold pending at hp
          split at hp <;> cases hp <;> rename_i hs
          case h_1 =>
            simp only at hp'
            split_ifs at hp'
          case h_11 => exact hs
          all_goals cases hp'
      | write w => exact .inl (by cases w <;> rfl)
      | none | recordEvent _ | publishRetry _ | publishDead _ => exact .inl rfl
  · obtain ⟨-, ⟨stage, rfl⟩ | ⟨outcome, -, -, rfl⟩⟩ := idle_cases h fun o ho => hact ⟨o, ho⟩ <;>
      exact .inl rfl

end Delivery

end ApiWhatsApp
