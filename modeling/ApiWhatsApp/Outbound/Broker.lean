import ApiWhatsApp.Library.Machine
import ApiWhatsApp.Outbound.Queue

/-!
# The broker

`queue/messaging-queue.service.ts` as a machine of its own: a broker, the calls that declare and
consume queues, and `processDelivery` under a handler that may answer anything.

* `assertTrafficTopology`, `assertLegacyTopology`, `consumeOutboundMessages` and
  `publishOutboundMessage` are lists of calls that a process makes one after another and leaves at
  the first that throws; a broker may refuse any of them (a queue with a time to live that is not a
  whole number, for instance).
* `deliveryCalls` is what `processDelivery` does once the handler has answered, and `step_spec` what
  one step of it can do.
* A message carries the header `x-retry-count`, and for the statements about it its `chain`: how
  each delivery before it has put it back, the newest first.

Queues are named by their parts, not by the text of their names. When a message of a retry queue
expires is left open. A job of the base queue was put there by a release without traffic classes:
it has not been retried yet.
-/

namespace ApiWhatsApp

open Library

/-! ## Queues and messages -/

/-- The names of the queues. Source: `baseQueueName`, `trafficQueueName`, `trafficDeadQueueName`,
`trafficRetryQueueName`. -/
inductive QueueName where
  | base
  | baseDead
  | baseRetry (delayMs : ℚ)
  | traffic (trafficClass : MessageTrafficClass)
  | trafficDead (trafficClass : MessageTrafficClass)
  | trafficRetry (trafficClass : MessageTrafficClass) (delayMs : ℚ)
  deriving DecidableEq

/-- A queue as `assertQueue` declares it: `x-message-ttl` and `x-dead-letter-routing-key`. -/
structure QueueDeclaration where
  name : QueueName
  messageTtl : Option ℚ
  deadLetterRoutingKey : Option QueueName
  deriving DecidableEq

/-- The ways in which a delivery puts its message back. -/
inductive PutBack where
  | retry
  | defer
  /-- `nack` with `requeue`, or the broker's own when a channel is lost. -/
  | requeue
  deriving DecidableEq, Repr

/-- One step of a chain of deliveries: how the message was put back, and into which queue. -/
structure Link where
  kind : PutBack
  queue : QueueName
  deriving DecidableEq

/-- The number of retries in a chain. -/
def retries (chain : List Link) : ℕ := chain.countP fun link => link.kind = .retry

/-- One more link, and one more retry if it is one. -/
theorem retries_cons (link : Link) (older : List Link) :
    retries (link :: older) = retries older + if link.kind = .retry then 1 else 0 := by
  simp [retries, List.countP_cons]

/-- Where the first message of a chain was published. -/
inductive JobOrigin where
  | published (trafficClass : MessageTrafficClass)
  | legacy
  deriving DecidableEq

/-- The traffic class under which a chain is delivered; the legacy consumer takes every job as
`TRANSACTIONAL`. -/
def JobOrigin.trafficClass : JobOrigin → MessageTrafficClass
  | published trafficClass => trafficClass
  | legacy => .transactional

/-- The queue that a chain begins in. -/
def JobOrigin.queue : JobOrigin → QueueName
  | published trafficClass => .traffic trafficClass
  | legacy => .base

/-- A message of a queue, with its history. -/
structure Envelope where
  messageId : Uuid
  /-- The header `x-retry-count`. -/
  retryCountHeader : Option Json
  /-- The header `x-last-error`. -/
  lastErrorHeader : Option String
  origin : JobOrigin
  chain : List Link

/-- Source: `retryCount`. -/
def retryCount (header : Option Json) : ℕ :=
  match header with
  | some (.num mantissa exponent) =>
      if 0 ≤ mantissa ∧ (10 : ℤ) ^ exponent ∣ mantissa then (mantissa / 10 ^ exponent).toNat else 0
  | _ => 0

/-- A count is read as a number. -/
@[simp] theorem retryCount_num (n : ℕ) : retryCount (some (.num n 0)) = n := by
  simp [retryCount]

/-! ## Declaring, consuming and publishing -/

/-- A call to the broker. -/
inductive ChannelCall where
  | assertQueue (declaration : QueueDeclaration)
  | consume (queue : QueueName) (trafficClass : MessageTrafficClass)
  | sendJob (trafficClass : MessageTrafficClass) (messageId : Uuid)

/-- Source: `assertTrafficTopology`. -/
def assertTrafficTopology (config : OutboundConfig) (trafficClass : MessageTrafficClass) :
    List QueueDeclaration :=
  { name := .trafficDead trafficClass, messageTtl := none, deadLetterRoutingKey := none } ::
  { name := .traffic trafficClass, messageTtl := none,
    deadLetterRoutingKey := some (.trafficDead trafficClass) } ::
  config.retryDelays.map fun delay =>
    { name := .trafficRetry trafficClass delay, messageTtl := some delay,
      deadLetterRoutingKey := some (.traffic trafficClass) }

/-- Source: `assertLegacyTopology`. -/
def assertLegacyTopology (config : OutboundConfig) : List QueueDeclaration :=
  { name := .baseDead, messageTtl := none, deadLetterRoutingKey := none } ::
  { name := .base, messageTtl := none, deadLetterRoutingKey := some .baseDead } ::
  config.retryDelays.map fun delay =>
    { name := .baseRetry delay, messageTtl := some delay, deadLetterRoutingKey := some .base }

/-- Source: `startTrafficConsumer`. -/
def startTrafficConsumer (config : OutboundConfig) (trafficClass : MessageTrafficClass) :
    List ChannelCall :=
  (assertTrafficTopology config trafficClass).map .assertQueue ++
    [.consume (.traffic trafficClass) trafficClass]

/-- Source: `startLegacyConsumer`. -/
def startLegacyConsumer (config : OutboundConfig) : List ChannelCall :=
  (assertLegacyTopology config).map .assertQueue ++ [.consume .base .transactional]

/-- Source: `consumeOutboundMessages`. -/
def consumeOutboundMessages (config : OutboundConfig) : List ChannelCall :=
  startTrafficConsumer config .otp ++ startTrafficConsumer config .transactional ++
    startTrafficConsumer config .marketing ++ startLegacyConsumer config

/-- Source: `publishOutboundMessage`. -/
def publishOutboundMessage (config : OutboundConfig) (trafficClass : MessageTrafficClass)
    (messageId : Uuid) : List ChannelCall :=
  (assertTrafficTopology config trafficClass).map .assertQueue ++ [.sendJob trafficClass messageId]

/-! ## One delivery -/

/-- The field `action` of a handler's result. -/
inductive QueueAction where
  | ack
  | retry
  | defer
  | dead
  deriving DecidableEq, Repr

/-- What a handler may return. -/
structure HandlerResult where
  action : QueueAction
  reason : Option String
  deriving DecidableEq, Repr

/-- What `processDelivery` does after the handler. -/
inductive DeliveryCall where
  | publish (kind : PutBack) (publication : RetryPublication)
  | onExhausted (job : OutboundQueueJob) (reason : Option String)
  | publishDeadLetter (trafficClass : MessageTrafficClass) (messageId : Uuid) (reason : String)
  | ack
  deriving DecidableEq

/-- The queue of a publication. -/
def RetryPublication.queue (p : RetryPublication) : QueueName :=
  .trafficRetry p.job.trafficClass p.delay

/-- The calls of `processDelivery` for a result of the handler, in their order. A missing reason and
an empty one leave out the same header. -/
def deliveryCalls (config : OutboundConfig) (job : OutboundQueueJob) (result : HandlerResult) :
    List DeliveryCall :=
  match result.action with
  | .ack => [.ack]
  | .dead =>
      [.publishDeadLetter job.trafficClass job.messageId
          (result.reason.getD "Unknown failure"),
        .ack]
  | .defer => [.publish .defer (scheduleDeferredRetry config job (result.reason.getD "")), .ack]
  | .retry =>
      match scheduleRetry config job (result.reason.getD "") with
      | some publication => [.publish .retry publication, .ack]
      | none =>
          [.onExhausted job result.reason,
            .publishDeadLetter job.trafficClass job.messageId
              (result.reason.getD "Retry policy exhausted"),
            .ack]

/-- Where a delivery stands. -/
inductive QueueStage where
  | handling
  | calling (rest : List DeliveryCall)
  /-- In the `catch` block. -/
  | catching
  | over

/-- A delivery. -/
structure QueueDelivery where
  envelope : Envelope
  queue : QueueName
  trafficClass : MessageTrafficClass
  /-- What the handler has returned. -/
  answer : Option HandlerResult
  stage : QueueStage
  /-- The calls that took effect. -/
  done : List DeliveryCall
  /-- The broker waits for an `ack` or a `nack`, and the channel is open. -/
  unacked : Bool

namespace QueueDelivery

/-- The job that the handler is given. -/
def job (d : QueueDelivery) : OutboundQueueJob where
  messageId := d.envelope.messageId
  attempt := retryCount d.envelope.retryCountHeader
  trafficClass := d.trafficClass

/-- The calls that are still to be made. -/
def remaining (d : QueueDelivery) : List DeliveryCall :=
  match d.stage with
  | .calling rest => rest
  | _ => []

/-- The delivered message as the broker puts it back. -/
def requeued (d : QueueDelivery) : QueueName × Envelope :=
  (d.queue, { d.envelope with chain := { kind := .requeue, queue := d.queue } :: d.envelope.chain })

/-- The message that a publication puts into its queue. -/
def republished (d : QueueDelivery) (kind : PutBack) (p : RetryPublication) :
    QueueName × Envelope :=
  (p.queue,
    { messageId := p.job.messageId
      retryCountHeader := some (.num p.job.attempt 0)
      lastErrorHeader := p.lastError
      origin := d.envelope.origin
      chain := { kind := kind, queue := p.queue } :: d.envelope.chain })

/-- What can happen to a delivery. -/
inductive Act where
  | answer (result : HandlerResult)
  | throws
  | call (outcome : CallOutcome)
  | nack
  | closeChannel
  | crash

/-- The broker puts the message of a delivery back, if it still waits for it. -/
def giveBack (d : QueueDelivery) : List (QueueName × Envelope) :=
  if d.unacked then [d.requeued] else []

/-- The delivery after a call that took effect. -/
def afterCall (d : QueueDelivery) (call : DeliveryCall) (rest : List DeliveryCall)
    (outcome : CallOutcome) : QueueDelivery :=
  { d with
    done := d.done ++ [call]
    stage := if outcome = .returned then .calling rest else .catching }

/-- Make the call at the head of what is left. Without its channel, all that a delivery can still do
is to tell the handler. -/
def makeCall (d : QueueDelivery) (call : DeliveryCall) (rest : List DeliveryCall)
    (outcome : CallOutcome) : Option (QueueDelivery × List (QueueName × Envelope)) :=
  match outcome, call with
  | .failed _, _ => some ({ d with stage := .catching }, [])
  | _, .onExhausted _ _ => some (d.afterCall call rest outcome, [])
  | .returned, .ack =>
      if d.unacked then
        some ({ d with done := d.done ++ [.ack], stage := .over, unacked := false }, [])
      else none
  | .interrupted _, .ack => none
  | _, .publish kind p =>
      if d.unacked then some (d.afterCall call rest outcome, [d.republished kind p]) else none
  | _, .publishDeadLetter _ _ _ =>
      if d.unacked then some (d.afterCall call rest outcome, []) else none

/-- One step of `processDelivery`, with the messages that it puts into queues. -/
def step (config : OutboundConfig) (d : QueueDelivery) :
    Act → Option (QueueDelivery × List (QueueName × Envelope))
  | .answer result =>
      match d.stage with
      | .handling =>
          some ({ d with
            answer := some result
            stage := .calling (deliveryCalls config d.job result) }, [])
      | _ => none
  | .throws =>
      match d.stage with
      | .handling => some ({ d with stage := .catching }, [])
      | _ => none
  | .call outcome =>
      match d.stage with
      | .calling (call :: rest) => d.makeCall call rest outcome
      | _ => none
  | .nack =>
      match d.stage with
      | .catching => some ({ d with stage := .over, unacked := false }, d.giveBack)
      | _ => none
  | .closeChannel => some ({ d with unacked := false }, d.giveBack)
  | .crash => some ({ d with stage := .over, unacked := false }, d.giveBack)

/-! ### What a delivery does -/

section spec

variable {config : OutboundConfig} {d d' : QueueDelivery} {act : Act}
  {messages : List (QueueName × Envelope)}

/-- A delivery makes the calls that follow from the handler's answer, in their order, and stops at
the first that throws. -/
def Planned (config : OutboundConfig) (d : QueueDelivery) : Prop :=
  match d.stage with
  | .handling => d.answer = none ∧ d.done = []
  | .calling rest => ∃ result, d.answer = some result ∧
      d.done ++ rest = deliveryCalls config d.job result
  | .catching | .over => (d.answer = none ∧ d.done = []) ∨
      ∃ result, d.answer = some result ∧ d.done <+: deliveryCalls config d.job result

/-- What was called is the beginning of what is to be called. -/
theorem Planned.done_prefix (h : d.Planned config) {result : HandlerResult}
    (hanswer : d.answer = some result) : d.done <+: deliveryCalls config d.job result := by
  unfold Planned at h
  rw [hanswer] at h
  split at h
  · cases h.1
  · obtain ⟨_, hresult, hcalls⟩ := h
    cases hresult
    exact ⟨_, hcalls⟩
  all_goals
    obtain ⟨hnone, -⟩ | ⟨_, hresult, hinit⟩ := h
    · cases hnone
    · cases hresult
      exact hinit

/-- What a delivery has done or is about to do is part of its plan. -/
theorem Planned.mem_deliveryCalls (h : d.Planned config) {call : DeliveryCall}
    (hcall : call ∈ d.done ++ d.remaining) :
    ∃ result, d.answer = some result ∧ call ∈ deliveryCalls config d.job result := by
  unfold Planned at h
  unfold remaining at hcall
  split at h <;> rename_i hstage <;> rw [hstage] at hcall
  · simp [h.2] at hcall
  · obtain ⟨result, hanswer, hcalls⟩ := h
    exact ⟨result, hanswer, hcalls ▸ hcall⟩
  all_goals
    obtain ⟨-, hnil⟩ | ⟨result, hanswer, hinit⟩ := h
    · simp [hnil] at hcall
    · rw [List.append_nil] at hcall
      exact ⟨result, hanswer, hinit.subset hcall⟩

/-- The part of a delivery that no step changes. -/
structure SameJob (d d' : QueueDelivery) : Prop where
  envelope : d'.envelope = d.envelope
  queue : d'.queue = d.queue
  trafficClass : d'.trafficClass = d.trafficClass

/-- A message that a delivery may put into a queue: its own, or the next one of its plan. -/
def MayPut (d : QueueDelivery) (m : QueueName × Envelope) : Prop :=
  m = d.requeued ∨ ∃ kind p, m = d.republished kind p ∧ .publish kind p ∈ d.remaining

/-- What is given back may be put into its queue. -/
theorem mayPut_giveBack : ∀ m ∈ d.giveBack, d.MayPut m := by
  intro m hm
  unfold giveBack at hm
  split_ifs at hm
  · exact .inl (List.mem_singleton.mp hm)
  · cases hm

section call

variable {call : DeliveryCall} {rest : List DeliveryCall} {outcome : CallOutcome}
  {result : HandlerResult}

/-- A call that took effect is recorded, and the rest of the plan is left or given up. -/
theorem planned_afterCall (outcome : CallOutcome) (hanswer : d.answer = some result)
    (hcalls : d.done ++ call :: rest = deliveryCalls config d.job result) :
    (d.afterCall call rest outcome).Planned config := by
  have hnext : d.done ++ [call] ++ rest = deliveryCalls config d.job result := by
    simpa using hcalls
  by_cases hreturned : outcome = .returned
  · simp only [Planned, afterCall, hreturned, if_true]
    exact ⟨result, hanswer, hnext⟩
  · simp only [Planned, afterCall, hreturned, if_false]
    exact .inr ⟨result, hanswer, _, hnext⟩

/-- A call is the next one of the plan. -/
theorem makeCall_spec (h : d.makeCall call rest outcome = some (d', messages))
    (hstage : d.stage = .calling (call :: rest)) (hanswer : d.answer = some result)
    (hcalls : d.done ++ call :: rest = deliveryCalls config d.job result) :
    d.SameJob d' ∧ d'.Planned config ∧ ∀ m ∈ messages, d.MayPut m := by
  have hafter := planned_afterCall outcome hanswer hcalls
  unfold makeCall at h
  split at h
  · cases h
    exact ⟨⟨rfl, rfl, rfl⟩, .inr ⟨result, hanswer, _, hcalls⟩, by simp⟩
  · cases h
    exact ⟨⟨rfl, rfl, rfl⟩, hafter, by simp⟩
  · obtain ⟨-, h⟩ := Option.ite_none_right_eq_some.mp h
    cases h
    refine ⟨⟨rfl, rfl, rfl⟩, .inr ⟨result, hanswer, rest, ?_⟩, by simp⟩
    show d.done ++ [.ack] ++ rest = deliveryCalls config d.job result
    simpa using hcalls
  · cases h
  · obtain ⟨-, h⟩ := Option.ite_none_right_eq_some.mp h
    cases h
    refine ⟨⟨rfl, rfl, rfl⟩, hafter, ?_⟩
    intro m hm
    exact .inr ⟨_, _, List.mem_singleton.mp hm, by simp [remaining, hstage]⟩
  · obtain ⟨-, h⟩ := Option.ite_none_right_eq_some.mp h
    cases h
    exact ⟨⟨rfl, rfl, rfl⟩, hafter, by simp⟩

end call

/-- **One step of a delivery.** It keeps its job and its plan; what it puts into a queue is the
message itself or the publication that is next in the plan. -/
theorem step_spec (h : d.step config act = some (d', messages)) (hplan : d.Planned config) :
    d.SameJob d' ∧ d'.Planned config ∧ ∀ m ∈ messages, d.MayPut m := by
  unfold Planned at hplan
  cases act with
  | answer result =>
      simp only [step] at h
      split at h <;> cases h
      rename_i hstage
      rw [hstage] at hplan
      refine ⟨⟨rfl, rfl, rfl⟩, ⟨result, rfl, ?_⟩, by simp⟩
      rw [hplan.2]
      rfl
  | throws =>
      simp only [step] at h
      split at h <;> cases h
      rename_i hstage
      rw [hstage] at hplan
      exact ⟨⟨rfl, rfl, rfl⟩, .inl hplan, by simp⟩
  | nack =>
      simp only [step] at h
      split at h <;> cases h
      rename_i hstage
      rw [hstage] at hplan
      exact ⟨⟨rfl, rfl, rfl⟩, hplan, mayPut_giveBack⟩
  | closeChannel =>
      cases h
      exact ⟨⟨rfl, rfl, rfl⟩, hplan, mayPut_giveBack⟩
  | crash =>
      cases h
      refine ⟨⟨rfl, rfl, rfl⟩, ?_, mayPut_giveBack⟩
      split at hplan
      · exact .inl hplan
      · obtain ⟨result, hanswer, hcalls⟩ := hplan
        exact .inr ⟨result, hanswer, _, hcalls⟩
      · exact hplan
      · exact hplan
  | call outcome =>
      simp only [step] at h
      split at h
      · rename_i call rest hstage
        rw [hstage] at hplan
        obtain ⟨result, hanswer, hcalls⟩ := hplan
        exact makeCall_spec h hstage hanswer hcalls
      · cases h

end spec

end QueueDelivery

/-! ## The broker -/

/-- The broker, and the processes at it. -/
structure Broker where
  declared : List QueueDeclaration
  ready : List (QueueName × Envelope)
  consumers : List (QueueName × MessageTrafficClass)
  /-- What each process has yet to call. -/
  programs : List (List ChannelCall)
  /-- Every delivery made so far. -/
  deliveries : List QueueDelivery

namespace Broker

/-- Nothing is declared yet. -/
def initial : Broker where
  declared := []
  ready := []
  consumers := []
  programs := []
  deliveries := []

/-- The names of the queues declared so far. -/
def names (s : Broker) : List QueueName := s.declared.map QueueDeclaration.name

/-- The effect of a call. -/
def apply (s : Broker) : ChannelCall → Broker
  | .assertQueue declaration => { s with declared := declaration :: s.declared }
  | .consume queue trafficClass => { s with consumers := s.consumers ++ [(queue, trafficClass)] }
  | .sendJob trafficClass messageId =>
      { s with ready := s.ready ++ [(.traffic trafficClass,
        { messageId := messageId, retryCountHeader := some (.num 0 0), lastErrorHeader := none,
          origin := .published trafficClass, chain := [] })] }

/-- The steps of the system. -/
inductive Act where
  | startWorker
  | publish (trafficClass : MessageTrafficClass) (messageId : Uuid)
  /-- A job in the base queue, from a release before traffic classes. -/
  | legacyJob (messageId : Uuid) (header : Option Json)
  | program (i : ℕ) (outcome : CallOutcome)
  | stopConsumer (i : ℕ)
  | deliver (message consumer : ℕ)
  | expire (message : ℕ)
  | delivery (i : ℕ) (act : QueueDelivery.Act)

/-- One step. -/
def step (config : OutboundConfig) (s : Broker) : Act → Option Broker
  | .startWorker => some { s with programs := s.programs ++ [consumeOutboundMessages config] }
  | .publish trafficClass messageId =>
      some { s with
        programs := s.programs ++ [publishOutboundMessage config trafficClass messageId] }
  | .legacyJob messageId header =>
      if retryCount header = 0 then
        some { s with ready := s.ready ++ [(.base,
          { messageId := messageId, retryCountHeader := header, lastErrorHeader := none,
            origin := .legacy, chain := [] })] }
      else none
  | .program i outcome =>
      match s.programs[i]? with
      | some (call :: rest) =>
          let t := if outcome.tookEffect then s.apply call else s
          some { t with
            programs := if outcome = .returned then s.programs.set i rest
              else s.programs.eraseIdx i }
      | _ => none
  | .stopConsumer i => some { s with consumers := s.consumers.eraseIdx i }
  | .deliver message consumer =>
      s.ready[message]?.bind fun (queue, envelope) =>
        s.consumers[consumer]?.bind fun (consumed, trafficClass) =>
          if consumed = queue then
            some { s with
              ready := s.ready.eraseIdx message
              deliveries := s.deliveries ++ [
                { envelope := envelope, queue := queue, trafficClass := trafficClass,
                  answer := none, stage := .handling, done := [], unacked := true }] }
          else none
  | .expire message =>
      s.ready[message]?.bind fun (queue, envelope) =>
        (s.declared.find? fun declaration => declaration.name = queue).bind fun declaration =>
          match declaration.messageTtl, declaration.deadLetterRoutingKey with
          | some _, some routingKey =>
              some { s with ready := s.ready.set message (routingKey, envelope) }
          | _, _ => none
  | .delivery i act =>
      s.deliveries[i]?.bind fun d =>
        (d.step config act).map fun (d', messages) =>
          { s with deliveries := s.deliveries.set i d', ready := s.ready ++ messages }

end Broker

end ApiWhatsApp
