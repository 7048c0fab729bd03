import ApiWhatsApp.Outbound.Broker

/-!
# The retry budget

The retries of a job, along every chain of deliveries that descends from it.

* `Walked` — every link of a chain went where it should: the `k`-th retry into the queue of the
  `k`-th delay, a deferral into that of the shortest.
* `Guarded` — what a process has yet to call never consumes under a class before everything that the
  class needs is declared; the legacy consumer relies on the retry queues of `TRANSACTIONAL`.
* `Broker.Sound` is the invariant.
* **`retry_budget`** — the count is the number of retries in the chain and stays within the budget,
  no queue is used before it is declared, and a budget that is spent ends in one dead letter.
-/

namespace ApiWhatsApp

open Library

/-! ## Chains -/

section chains

variable {config : OutboundConfig} {names names' : List QueueName}
  {trafficClass : MessageTrafficClass}

/-- How a message may be put back: a retry into the queue of the delay whose turn it is, a deferral
into that of the shortest delay, both declared and of the chain's own traffic class. -/
def Link.Fits (config : OutboundConfig) (names : List QueueName)
    (trafficClass : MessageTrafficClass) (link : Link) (older : List Link) : Prop :=
  match link.kind with
  | .retry => link.queue ∈ names ∧ ∃ delay, config.retryDelays[retries older]? = some delay ∧
      link.queue = .trafficRetry trafficClass delay
  | .defer => link.queue ∈ names ∧ link.queue = .trafficRetry trafficClass config.shortestDelay
  | .requeue => True

/-- Every link of a chain fits. -/
def Walked (config : OutboundConfig) (names : List QueueName)
    (trafficClass : MessageTrafficClass) : List Link → Prop
  | [] => True
  | link :: older =>
      link.Fits config names trafficClass older ∧ Walked config names trafficClass older

/-- A link stays allowed when more queues are declared. -/
theorem Link.Fits.mono {link : Link} {older : List Link}
    (h : link.Fits config names trafficClass older) (hsub : names ⊆ names') :
    link.Fits config names' trafficClass older := by
  unfold Link.Fits at h ⊢
  split <;> rename_i hkind <;> rw [hkind] at h
  · exact ⟨hsub h.1, h.2⟩
  · exact ⟨hsub h.1, h.2⟩
  · trivial

/-- A chain stays allowed when more queues are declared. -/
theorem Walked.mono {chain : List Link} (h : Walked config names trafficClass chain)
    (hsub : names ⊆ names') : Walked config names' trafficClass chain := by
  induction chain with
  | nil => trivial
  | cons link older ih => exact ⟨h.1.mono hsub, ih h.2⟩

/-- Every link of a chain was allowed in its place. -/
theorem Walked.fits {newer older : List Link} {link : Link}
    (h : Walked config names trafficClass (newer ++ link :: older)) :
    link.Fits config names trafficClass older := by
  induction newer with
  | nil => exact h.1
  | cons _ newer ih => exact ih h.2

/-- A retry that fits takes a delay that no earlier retry has taken, so there are no more retries
than delays. -/
theorem Walked.retries_le {chain : List Link} (h : Walked config names trafficClass chain) :
    retries chain ≤ config.retryDelays.length := by
  induction chain with
  | nil => simp [retries]
  | cons link older ih =>
      rw [retries_cons]
      split_ifs with hkind
      · obtain ⟨hfits, -⟩ := h
        unfold Link.Fits at hfits
        rw [hkind] at hfits
        obtain ⟨-, delay, hdelay, -⟩ := hfits
        exact (List.getElem?_eq_some_iff.mp hdelay).1
      · exact ih h.2

/-- The header of a message counts the retries of its chain. -/
structure Envelope.InBudget (config : OutboundConfig) (names : List QueueName) (e : Envelope) :
    Prop where
  count : retryCount e.retryCountHeader = retries e.chain
  walked : Walked config names e.origin.trafficClass e.chain

/-- An envelope stays within its budget. -/
theorem Envelope.InBudget.mono {e : Envelope} (h : e.InBudget config names)
    (hsub : names ⊆ names') : e.InBudget config names' :=
  ⟨h.count, h.walked.mono hsub⟩

/-- A message is in the queue that its chain began in, in the queue of its class, or in the queue
that its last delivery has put it into. -/
def Placed (m : QueueName × Envelope) : Prop :=
  m.1 = m.2.origin.queue ∨ m.1 = .traffic m.2.origin.trafficClass ∨
    ∃ link older, m.2.chain = link :: older ∧ link.kind ≠ .requeue ∧ m.1 = link.queue

/-- The only retry queues that hold a message are those of its class. -/
theorem Placed.queue_cases {m : QueueName × Envelope} (h : Placed m)
    (hbudget : m.2.InBudget config names) :
    m.1 = m.2.origin.queue ∨ m.1 = .traffic m.2.origin.trafficClass ∨
      ∃ delay, m.1 = .trafficRetry m.2.origin.trafficClass delay := by
  refine h.imp_right (Or.imp_right ?_)
  rintro ⟨link, older, hchain, hkind, hqueue⟩
  have hwalked := hbudget.walked
  rw [hchain] at hwalked
  obtain ⟨hlink, -⟩ := hwalked
  unfold Link.Fits at hlink
  split at hlink
  · obtain ⟨-, delay, -, hretry⟩ := hlink
    exact ⟨delay, hqueue.trans hretry⟩
  · exact ⟨_, hqueue.trans hlink.2⟩
  · exact absurd ‹_› hkind

/-- No job begins in a retry queue. -/
theorem JobOrigin.queue_ne_trafficRetry (origin : JobOrigin) (trafficClass : MessageTrafficClass)
    (delay : ℚ) : origin.queue ≠ .trafficRetry trafficClass delay := by
  cases origin <;> nofun

/-- Nothing within its budget is in the retry queue of the base. -/
theorem Placed.ne_baseRetry {m : QueueName × Envelope} {delay : ℚ} (h : Placed m)
    (hbudget : m.2.InBudget config names) : m.1 ≠ .baseRetry delay := by
  intro hbase
  obtain horigin | hclass | ⟨_, hretry⟩ := h.queue_cases hbudget
  · rw [hbase] at horigin
    rcases horigin' : m.2.origin with c | _ <;> rw [horigin'] at horigin <;> cases horigin
  · rw [hbase] at hclass
    cases hclass
  · rw [hbase] at hretry
    cases hretry

/-- What is in a retry queue has the class of the queue. -/
theorem Placed.retry_class {m : QueueName × Envelope} {delay : ℚ} (h : Placed m)
    (hbudget : m.2.InBudget config names) (hqueue : m.1 = .trafficRetry trafficClass delay) :
    trafficClass = m.2.origin.trafficClass := by
  obtain horigin | hclass | ⟨_, hretry⟩ := h.queue_cases hbudget
  · exact absurd (horigin.symm.trans hqueue) (m.2.origin.queue_ne_trafficRetry _ _)
  · rw [hqueue] at hclass
    cases hclass
  · rw [hqueue] at hretry
    cases hretry
    rfl

end chains

/-! ## Publications -/

section publications

variable {config : OutboundConfig} {job : OutboundQueueJob} {result : HandlerResult}
  {kind : PutBack} {p : RetryPublication}

/-- A publication among the calls of a delivery is a deferral or a retry that the budget allows. -/
theorem publish_mem_deliveryCalls (h : .publish kind p ∈ deliveryCalls config job result) :
    (kind = .defer ∧ p = scheduleDeferredRetry config job (result.reason.getD "")) ∨
      (kind = .retry ∧ scheduleRetry config job (result.reason.getD "") = some p) := by
  unfold deliveryCalls at h
  split at h
  · simp at h
  · simp at h
  · simp only [List.mem_cons, DeliveryCall.publish.injEq, reduceCtorEq, List.not_mem_nil,
      or_false] at h
    exact .inl h
  · split at h
    · rename_i q hq
      simp only [List.mem_cons, DeliveryCall.publish.injEq, reduceCtorEq, List.not_mem_nil,
        or_false] at h
      exact .inr ⟨h.1, h.2 ▸ hq⟩
    · simp at h

/-- The queue of a publication is one of the retry queues of the job's class. -/
theorem queue_of_publish (h : .publish kind p ∈ deliveryCalls config job result) :
    ∃ delay ∈ config.retryDelays, p.queue = .trafficRetry job.trafficClass delay := by
  obtain ⟨-, rfl⟩ | ⟨-, hretry⟩ := publish_mem_deliveryCalls h
  · exact ⟨_, config.shortestDelay_mem_retryDelays, rfl⟩
  · obtain ⟨delay, hdelay, rfl⟩ := Option.map_eq_some_iff.mp hretry
    exact ⟨delay, List.mem_of_getElem? hdelay, rfl⟩

/-- With the budget spent, a retry is given up. -/
theorem deliveryCalls_spent {reason : Option String}
    (hspent : config.retryDelays.length ≤ job.attempt) :
    deliveryCalls config job { action := .retry, reason := reason } =
      [.onExhausted job reason,
        .publishDeadLetter job.trafficClass job.messageId (reason.getD "Retry policy exhausted"),
        .ack] := by
  have hnone : config.retryDelays[job.attempt]? = none := List.getElem?_eq_none hspent
  simp [deliveryCalls, scheduleRetry, hnone]

end publications

/-! ## Declared before use -/

section declared

variable {config : OutboundConfig} {declared declared' : List QueueDeclaration}

/-- Everything that a class needs is declared. -/
def Covered (config : OutboundConfig) (declared : List QueueDeclaration)
    (trafficClass : MessageTrafficClass) : Prop :=
  assertTrafficTopology config trafficClass ⊆ declared

/-- A declaration that some topology makes. -/
def OfTopology (config : OutboundConfig) (declaration : QueueDeclaration) : Prop :=
  declaration ∈ assertLegacyTopology config ∨
    ∃ trafficClass, declaration ∈ assertTrafficTopology config trafficClass

/-- The consumers that a worker starts. -/
def OfConsumer (queue : QueueName) (trafficClass : MessageTrafficClass) : Prop :=
  queue = .traffic trafficClass ∨ (queue = .base ∧ trafficClass = .transactional)

/-- What a process has yet to call, given what is declared: it consumes under a class only after
everything that the class needs is declared. -/
def Guarded (config : OutboundConfig) : List QueueDeclaration → List ChannelCall → Prop
  | _, [] => True
  | declared, .assertQueue declaration :: rest =>
      OfTopology config declaration ∧ Guarded config (declaration :: declared) rest
  | declared, .consume queue trafficClass :: rest =>
      OfConsumer queue trafficClass ∧ Covered config declared trafficClass ∧
        Guarded config declared rest
  | declared, .sendJob _ _ :: rest => Guarded config declared rest

/-- Calls stay guarded when more queues are declared. -/
theorem Guarded.mono {calls : List ChannelCall} (h : Guarded config declared calls)
    (hsub : declared ⊆ declared') : Guarded config declared' calls := by
  induction calls generalizing declared declared' with
  | nil => trivial
  | cons call rest ih =>
      cases call with
      | assertQueue declaration => exact ⟨h.1, ih h.2 (List.cons_subset_cons _ hsub)⟩
      | consume queue trafficClass => exact ⟨h.1, List.Subset.trans h.2.1 hsub, ih h.2.2 hsub⟩
      | sendJob trafficClass messageId => exact ih h hsub

/-- After a topology is declared, the rest may rely on it. -/
theorem guarded_assertQueue_append {topology : List QueueDeclaration} {rest : List ChannelCall}
    (htopology : ∀ declaration ∈ topology, OfTopology config declaration)
    (hrest : Guarded config (topology ++ declared) rest) :
    Guarded config declared (topology.map .assertQueue ++ rest) := by
  induction topology generalizing declared with
  | nil => exact hrest
  | cons declaration topology ih =>
      refine ⟨htopology _ List.mem_cons_self, ih ?_ (hrest.mono ?_)⟩
      · intro x hx
        exact htopology x (List.mem_cons_of_mem _ hx)
      · intro x hx
        simp only [List.cons_append, List.mem_cons, List.mem_append] at hx ⊢
        tauto

/-- A consumer declares its queues before it uses them. -/
theorem guarded_startTrafficConsumer {trafficClass : MessageTrafficClass} {rest : List ChannelCall}
    (hrest : Guarded config (assertTrafficTopology config trafficClass ++ declared) rest) :
    Guarded config declared (startTrafficConsumer config trafficClass ++ rest) := by
  rw [startTrafficConsumer, List.append_assoc]
  apply guarded_assertQueue_append
  · intro x hx
    exact .inr ⟨trafficClass, hx⟩
  · exact ⟨.inl rfl, List.subset_append_left _ _, hrest⟩

/-- A worker declares the retry queues of `TRANSACTIONAL` before it starts the legacy consumer. -/
theorem guarded_consumeOutboundMessages :
    Guarded config declared (consumeOutboundMessages config) := by
  rw [consumeOutboundMessages, List.append_assoc, List.append_assoc]
  refine guarded_startTrafficConsumer (guarded_startTrafficConsumer
    (guarded_startTrafficConsumer (guarded_assertQueue_append ?_ ?_)))
  · intro x hx
    exact .inl hx
  · refine ⟨.inr ⟨rfl, rfl⟩, ?_, trivial⟩
    intro x hx
    simp only [List.mem_append]
    exact .inr (.inr (.inl hx))

/-- A publication goes to a queue that is declared. -/
theorem guarded_publishOutboundMessage {trafficClass : MessageTrafficClass} {messageId : Uuid} :
    Guarded config declared (publishOutboundMessage config trafficClass messageId) := by
  apply guarded_assertQueue_append
  · intro x hx
    exact .inr ⟨trafficClass, hx⟩
  · trivial

/-- Messages expire only in retry queues; one of a traffic class goes to the queue of the class. -/
theorem OfTopology.expires {declaration : QueueDeclaration} (h : OfTopology config declaration)
    {delay : ℚ} {routingKey : QueueName} (hdelay : declaration.messageTtl = some delay)
    (hkey : declaration.deadLetterRoutingKey = some routingKey) :
    declaration.name = .baseRetry delay ∨
      ∃ trafficClass, declaration.name = .trafficRetry trafficClass delay ∧
        routingKey = .traffic trafficClass := by
  obtain hlegacy | ⟨trafficClass, htraffic⟩ := h
  · simp only [assertLegacyTopology, List.mem_cons, List.mem_map] at hlegacy
    obtain rfl | rfl | ⟨x, -, rfl⟩ := hlegacy <;> cases hdelay
    exact .inl rfl
  · simp only [assertTrafficTopology, List.mem_cons, List.mem_map] at htraffic
    obtain rfl | rfl | ⟨x, -, rfl⟩ := htraffic <;> cases hdelay
    cases hkey
    exact .inr ⟨trafficClass, rfl, rfl⟩

/-- The retry queues of a class are declared. -/
theorem Covered.retry_mem {trafficClass : MessageTrafficClass} {delay : ℚ}
    (h : Covered config declared trafficClass) (hdelay : delay ∈ config.retryDelays) :
    .trafficRetry trafficClass delay ∈ declared.map QueueDeclaration.name := by
  have hmem := List.mem_map_of_mem (f := fun delay => QueueDeclaration.mk
    (.trafficRetry trafficClass delay) (some delay) (some (.traffic trafficClass))) hdelay
  exact List.mem_map_of_mem (f := QueueDeclaration.name)
    (h (List.mem_cons_of_mem _ (List.mem_cons_of_mem _ hmem)))

end declared

/-! ## The invariant -/

/-- A delivery of a chain that is within its budget. -/
structure QueueDelivery.Sound (config : OutboundConfig) (declared : List QueueDeclaration)
    (d : QueueDelivery) : Prop where
  inBudget : d.envelope.InBudget config (declared.map QueueDeclaration.name)
  planned : d.Planned config
  sameClass : d.trafficClass = d.envelope.origin.trafficClass
  placed : d.queue = d.envelope.origin.queue ∨ d.queue = .traffic d.envelope.origin.trafficClass
  covered : Covered config declared d.trafficClass

/-- A delivery stays sound when more queues are declared. -/
theorem QueueDelivery.Sound.mono {config : OutboundConfig}
    {declared declared' : List QueueDeclaration} {d : QueueDelivery}
    (h : d.Sound config declared) (hsub : declared ⊆ declared') : d.Sound config declared' :=
  { h with
    inBudget := h.inBudget.mono (List.map_subset _ hsub)
    covered := List.Subset.trans h.covered hsub }

/-- A delivery stays sound while its job and its calls are the same. -/
theorem QueueDelivery.Sound.of_sameJob {config : OutboundConfig} {declared : List QueueDeclaration}
    {d d' : QueueDelivery} (h : d.Sound config declared) (hsame : d.SameJob d')
    (hplanned : d'.Planned config) : d'.Sound config declared where
  inBudget := hsame.envelope ▸ h.inBudget
  planned := hplanned
  sameClass := by rw [hsame.trafficClass, hsame.envelope, h.sameClass]
  placed := by rw [hsame.queue, hsame.envelope]; exact h.placed
  covered := hsame.trafficClass ▸ h.covered

namespace Broker

variable {config : OutboundConfig} {s t : Broker} {act : Act}

/-- The invariant. -/
structure Sound (config : OutboundConfig) (s : Broker) : Prop where
  declared : ∀ declaration ∈ s.declared, OfTopology config declaration
  programs : ∀ calls ∈ s.programs, Guarded config s.declared calls
  consumers : ∀ x ∈ s.consumers, OfConsumer x.1 x.2 ∧ Covered config s.declared x.2
  ready : ∀ m ∈ s.ready, m.2.InBudget config s.names ∧ Placed m
  deliveries : ∀ d ∈ s.deliveries, d.Sound config s.declared

/-- At the start nothing is under way. -/
theorem sound_initial : initial.Sound config where
  declared := by simp [initial]
  programs := by simp [initial]
  consumers := by simp [initial]
  ready := by simp [initial]
  deliveries := by simp [initial]

/-! ### Every step keeps the invariant -/

/-- A call that takes effect keeps everything but what its own process has yet to do. -/
theorem Sound.apply {call : ChannelCall} {rest : List ChannelCall} (h : s.Sound config)
    (hcall : Guarded config s.declared (call :: rest)) :
    (s.apply call).Sound config ∧ Guarded config (s.apply call).declared rest := by
  cases call with
  | assertQueue declaration =>
      have hsub : s.declared ⊆ declaration :: s.declared := List.subset_cons_self _ _
      refine ⟨⟨?_, ?_, ?_, ?_, ?_⟩, hcall.2⟩
      · intro x hx
        rcases List.mem_cons.mp hx with rfl | hx
        · exact hcall.1
        · exact h.declared x hx
      · intro calls hcalls
        exact (h.programs calls hcalls).mono hsub
      · intro x hx
        obtain ⟨hconsumer, hcovered⟩ := h.consumers x hx
        exact ⟨hconsumer, List.Subset.trans hcovered hsub⟩
      · intro m hm
        obtain ⟨hbudget, hplaced⟩ := h.ready m hm
        exact ⟨hbudget.mono (List.map_subset _ hsub), hplaced⟩
      · intro d hd
        exact (h.deliveries d hd).mono hsub
  | consume queue trafficClass =>
      refine ⟨{ h with consumers := ?_ }, hcall.2.2⟩
      intro x hx
      rcases List.mem_append.mp hx with hx | hx
      · exact h.consumers x hx
      · cases List.mem_singleton.mp hx
        exact ⟨hcall.1, hcall.2.1⟩
  | sendJob trafficClass messageId =>
      refine ⟨{ h with ready := ?_ }, hcall⟩
      intro m hm
      rcases List.mem_append.mp hm with hm | hm
      · exact h.ready m hm
      · cases List.mem_singleton.mp hm
        exact ⟨⟨by simp [retryCount, retries], trivial⟩, .inl rfl⟩

/-- A call takes no declaration back. -/
theorem declared_subset_apply {call : ChannelCall} : s.declared ⊆ (s.apply call).declared := by
  cases call with
  | assertQueue declaration => exact List.subset_cons_self _ _
  | consume queue trafficClass => exact List.Subset.refl _
  | sendJob trafficClass messageId => exact List.Subset.refl _

/-- A call that returns leaves its process with the rest. -/
theorem Sound.afterCall {call : ChannelCall} {rest : List ChannelCall} (h : s.Sound config)
    (outcome : CallOutcome) (hcall : Guarded config s.declared (call :: rest)) :
    (if outcome.tookEffect then s.apply call else s).Sound config ∧
      (outcome = .returned →
        Guarded config (if outcome.tookEffect then s.apply call else s).declared rest) := by
  obtain ⟨happlied, hrest⟩ := h.apply hcall
  split_ifs with heffect
  · exact ⟨happlied, fun _ => hrest⟩
  · refine ⟨h, ?_⟩
    rintro rfl
    exact absurd rfl heffect

/-- A process that starts with a guarded program. -/
theorem Sound.addProgram {calls : List ChannelCall} (h : s.Sound config)
    (hcalls : Guarded config s.declared calls) :
    Sound config { s with programs := s.programs ++ [calls] } := by
  refine { h with programs := ?_ }
  intro x hx
  rcases List.mem_append.mp hx with hx | hx
  · exact h.programs x hx
  · rw [List.mem_singleton.mp hx]
    exact hcalls

/-- What a delivery puts into a queue is within the budget. -/
theorem ready_of_mayPut {d : QueueDelivery} {m : QueueName × Envelope}
    (h : d.Sound config s.declared) (hm : d.MayPut m) :
    m.2.InBudget config s.names ∧ Placed m := by
  obtain rfl | ⟨kind, p, rfl, hp⟩ := hm
  · refine ⟨⟨?_, trivial, h.inBudget.walked⟩, ?_⟩
    · simpa [QueueDelivery.requeued, retries_cons] using h.inBudget.count
    · exact h.placed.imp_right .inl
  · obtain ⟨result, -, hcall⟩ := h.planned.mem_deliveryCalls (List.mem_append_right _ hp)
    obtain ⟨delay, hdelay, hqueue⟩ := queue_of_publish hcall
    have hdeclared : p.queue ∈ s.names := hqueue ▸ h.covered.retry_mem hdelay
    obtain ⟨rfl, rfl⟩ | ⟨rfl, hretry⟩ := publish_mem_deliveryCalls hcall
    · refine ⟨⟨?_, ⟨hdeclared, ?_⟩, h.inBudget.walked⟩, .inr (.inr ⟨_, _, rfl, nofun, rfl⟩)⟩
      · simpa [QueueDelivery.republished, retries_cons, scheduleDeferredRetry, QueueDelivery.job]
          using h.inBudget.count
      · exact congrArg (QueueName.trafficRetry · config.shortestDelay) h.sameClass
    · obtain ⟨next, hnext, rfl⟩ := Option.map_eq_some_iff.mp hretry
      simp only [QueueDelivery.job, h.inBudget.count] at hnext
      refine ⟨⟨?_, ⟨hdeclared, next, hnext, ?_⟩, h.inBudget.walked⟩,
        .inr (.inr ⟨_, _, rfl, nofun, rfl⟩)⟩
      · simp only [QueueDelivery.republished, retryCount_num, retries_cons, if_true]
        exact congrArg (· + 1) h.inBudget.count
      · exact congrArg (QueueName.trafficRetry · next) h.sameClass

/-- A message is delivered under the class of its chain. -/
theorem sound_delivery {queue : QueueName} {envelope : Envelope}
    {trafficClass : MessageTrafficClass} (hbudget : envelope.InBudget config s.names)
    (hplaced : Placed (queue, envelope)) (hconsumer : OfConsumer queue trafficClass)
    (hcovered : Covered config s.declared trafficClass) :
    QueueDelivery.Sound config s.declared
      { envelope := envelope, queue := queue, trafficClass := trafficClass, answer := none,
        stage := .handling, done := [], unacked := true } := by
  -- A consumer finds what was published to its queue or came back to it; no retry queue has one.
  have hwhere : (queue = envelope.origin.queue ∨ queue = .traffic envelope.origin.trafficClass) ∧
      trafficClass = envelope.origin.trafficClass := by
    obtain horigin | hclass | ⟨delay, hretry⟩ := hplaced.queue_cases hbudget
    · refine ⟨.inl horigin, ?_⟩
      simp only at horigin
      rcases h : envelope.origin with c | _
      all_goals
        rw [h] at horigin
        obtain rfl | ⟨rfl, rfl⟩ := hconsumer <;> cases horigin
        rfl
    · refine ⟨.inr hclass, ?_⟩
      simp only at hclass
      obtain rfl | ⟨rfl, rfl⟩ := hconsumer <;> cases hclass
      rfl
    · simp only at hretry
      obtain rfl | ⟨rfl, rfl⟩ := hconsumer <;> cases hretry
  exact ⟨hbudget, ⟨rfl, rfl⟩, hwhere.2, hwhere.1, hcovered⟩

/-- Every step keeps the invariant. -/
theorem sound_step (h : s.Sound config) (hstep : s.step config act = some t) : t.Sound config := by
  cases act with
  | startWorker =>
      cases hstep
      exact h.addProgram guarded_consumeOutboundMessages
  | publish trafficClass messageId =>
      cases hstep
      exact h.addProgram guarded_publishOutboundMessage
  | legacyJob messageId header =>
      obtain ⟨hfresh, hstep⟩ := Option.ite_none_right_eq_some.mp hstep
      cases hstep
      refine { h with ready := ?_ }
      intro m hm
      rcases List.mem_append.mp hm with hm | hm
      · exact h.ready m hm
      · cases List.mem_singleton.mp hm
        exact ⟨⟨hfresh, trivial⟩, .inl rfl⟩
  | program i outcome =>
      simp only [step] at hstep
      split at hstep
      case h_2 => cases hstep
      rename_i call rest hcall
      cases hstep
      obtain ⟨hsound, hrest⟩ :=
        h.afterCall outcome (h.programs _ (List.mem_of_getElem? hcall))
      refine { hsound with programs := ?_ }
      intro calls hcalls
      have hkept : ∀ calls ∈ s.programs, Guarded config
          (if outcome.tookEffect then s.apply call else s).declared calls := by
        intro calls hcalls
        refine (h.programs calls hcalls).mono ?_
        split_ifs
        · exact declared_subset_apply
        · exact List.Subset.refl _
      simp only at hcalls
      split_ifs at hcalls with hreturned
      · rcases List.mem_or_eq_of_mem_set hcalls with hcalls | rfl
        · exact hkept calls hcalls
        · exact hrest hreturned
      · exact hkept calls (List.mem_of_mem_eraseIdx hcalls)
  | stopConsumer i =>
      cases hstep
      refine { h with consumers := ?_ }
      intro x hx
      exact h.consumers x (List.mem_of_mem_eraseIdx hx)
  | deliver message consumer =>
      obtain ⟨⟨queue, envelope⟩, hmessage, hstep⟩ := Option.bind_eq_some_iff.mp hstep
      obtain ⟨⟨consumed, trafficClass⟩, hconsumer, hstep⟩ := Option.bind_eq_some_iff.mp hstep
      obtain ⟨rfl, hstep⟩ := Option.ite_none_right_eq_some.mp hstep
      cases hstep
      obtain ⟨hbudget, hplaced⟩ := h.ready _ (List.mem_of_getElem? hmessage)
      obtain ⟨hof, hcovered⟩ := h.consumers _ (List.mem_of_getElem? hconsumer)
      refine { h with ready := ?_, deliveries := ?_ }
      · intro m hm
        exact h.ready m (List.mem_of_mem_eraseIdx hm)
      · intro d hd
        rcases List.mem_append.mp hd with hd | hd
        · exact h.deliveries d hd
        · exact List.mem_singleton.mp hd ▸ sound_delivery hbudget hplaced hof hcovered
  | expire message =>
      obtain ⟨⟨queue, envelope⟩, hmessage, hstep⟩ := Option.bind_eq_some_iff.mp hstep
      obtain ⟨declaration, hfind, hstep⟩ := Option.bind_eq_some_iff.mp hstep
      split at hstep
      case h_2 => cases hstep
      rename_i delay routingKey hdelay hkey
      cases hstep
      obtain ⟨hbudget, hplaced⟩ := h.ready _ (List.mem_of_getElem? hmessage)
      have hname : declaration.name = queue := by simpa using List.find?_some hfind
      have hof := h.declared _ (List.mem_of_find?_eq_some hfind)
      have hexpires := hof.expires hdelay hkey
      rw [hname] at hexpires
      have hclass : routingKey = .traffic envelope.origin.trafficClass := by
        obtain hbase | ⟨trafficClass, hretry, rfl⟩ := hexpires
        · exact absurd hbase (hplaced.ne_baseRetry hbudget)
        · rw [hplaced.retry_class hbudget hretry]
      refine { h with ready := ?_ }
      intro m hm
      rcases List.mem_or_eq_of_mem_set hm with hm | rfl
      · exact h.ready m hm
      · exact ⟨hbudget, .inr (.inl hclass)⟩
  | delivery i act =>
      obtain ⟨d, hd, hstep⟩ := Option.bind_eq_some_iff.mp hstep
      obtain ⟨⟨d', messages⟩, hd', hstep⟩ := Option.map_eq_some_iff.mp hstep
      cases hstep
      have hsound := h.deliveries d (List.mem_of_getElem? hd)
      obtain ⟨hsame, hplanned, hput⟩ := QueueDelivery.step_spec hd' hsound.planned
      refine { h with ready := ?_, deliveries := ?_ }
      · intro m hm
        rcases List.mem_append.mp hm with hm | hm
        · exact h.ready m hm
        · exact ready_of_mayPut hsound (hput m hm)
      · intro x hx
        rcases List.mem_or_eq_of_mem_set hx with hx | rfl
        · exact h.deliveries x hx
        · exact hsound.of_sameJob hsame hplanned

/-- The invariant holds in every state that is reached. -/
theorem sound_of_reachable (h : Reachable (step config) initial s) : s.Sound config :=
  h.invariant sound_initial fun _ _ _ hx _ hstep => sound_step hx hstep

/-! ## The result -/

/-- A message that waits in a retry queue was put there by its last delivery. -/
theorem waits_of_ready {m : QueueName × Envelope} {trafficClass : MessageTrafficClass} {delay : ℚ}
    (hbudget : m.2.InBudget config s.names) (hplaced : Placed m)
    (hqueue : m.1 = .trafficRetry trafficClass delay) :
    ∃ link older, m.2.chain = link :: older ∧ link.kind ≠ .requeue ∧ m.1 = link.queue ∧
      link.Fits config s.names m.2.origin.trafficClass older := by
  obtain horigin | hclass | ⟨link, older, hchain, hkind, hlink⟩ := hplaced
  · exact absurd (horigin.symm.trans hqueue) (m.2.origin.queue_ne_trafficRetry _ _)
  · rw [hqueue] at hclass
    cases hclass
  · have hwalked := hbudget.walked
    rw [hchain] at hwalked
    exact ⟨link, older, hchain, hkind, hlink, hwalked.1⟩

/-- With the budget spent, a delivery tells the handler, publishes one dead letter and
acknowledges; only a call that throws cuts this short. -/
theorem spent_of_sound {d : QueueDelivery} {reason : Option String}
    {declared : List QueueDeclaration} (h : d.Sound config declared)
    (hanswer : d.answer = some { action := .retry, reason := reason })
    (hspent : config.retryDelays.length ≤ d.job.attempt) :
    d.done <+: deliveryCalls config d.job { action := .retry, reason := reason } ∧
      (∀ kind p, .publish kind p ∉ d.done) ∧
      (.ack ∈ d.done →
        d.done = deliveryCalls config d.job { action := .retry, reason := reason }) ∧
      ∀ rest, d.stage = .calling rest →
        d.done ++ rest = deliveryCalls config d.job { action := .retry, reason := reason } := by
  have hinit := h.planned.done_prefix hanswer
  refine ⟨hinit, ?_, ?_, ?_⟩
  · intro kind p hp
    have hmem := hinit.subset hp
    simp [deliveryCalls_spent hspent] at hmem
  · -- The acknowledgement is the last call of the plan.
    intro hack
    rw [deliveryCalls_spent hspent] at hinit ⊢
    have hsplit : d.done <+: [.onExhausted d.job reason, .publishDeadLetter d.job.trafficClass
      d.job.messageId (reason.getD "Retry policy exhausted")] ++ [.ack] := hinit
    obtain heq | hshort := List.prefix_concat_iff.mp hsplit
    · exact heq
    · have hmem := hshort.subset hack
      simp at hmem
  · intro rest hstage
    have hplanned := h.planned
    simp only [QueueDelivery.Planned, hstage] at hplanned
    obtain ⟨result, hresult, hcalls⟩ := hplanned
    rw [hanswer] at hresult
    cases hresult
    exact hcalls

/-- **The retry budget**, for every value of `OUTBOUND_RETRY_DELAYS_MS` and every run. A message in
a retry queue was put there by the last link of its chain. For every delivery, the count that it
reads is the number of retries in its chain and at most the number of delays; every link goes into a
declared queue of the chain's class, the `k`-th retry into that of the `k`-th delay; the queues that
it publishes to itself are declared; and when the handler asks for a retry with the budget spent,
the delivery publishes no job: it tells the handler, publishes one dead letter and acknowledges. -/
theorem retry_budget (h : Reachable (step config) initial s) :
    (∀ m ∈ s.ready, ∀ trafficClass delay, m.1 = .trafficRetry trafficClass delay →
      ∃ link older, m.2.chain = link :: older ∧ link.kind ≠ .requeue ∧ m.1 = link.queue ∧
        link.Fits config s.names m.2.origin.trafficClass older) ∧
    ∀ d ∈ s.deliveries,
      d.job.attempt = retries d.envelope.chain ∧
      retries d.envelope.chain ≤ config.retryDelays.length ∧
      d.job.trafficClass = d.envelope.origin.trafficClass ∧
      (∀ newer link older, d.envelope.chain = newer ++ link :: older →
        link.Fits config s.names d.envelope.origin.trafficClass older) ∧
      (∀ kind p, .publish kind p ∈ d.done ++ d.remaining →
        p.queue ∈ s.names ∧
          ∃ delay ∈ config.retryDelays,
            p.queue = .trafficRetry d.envelope.origin.trafficClass delay) ∧
      ∀ reason, d.answer = some { action := .retry, reason := reason } →
        config.retryDelays.length ≤ d.job.attempt →
        let plan : List DeliveryCall :=
          [.onExhausted d.job reason,
            .publishDeadLetter d.job.trafficClass d.job.messageId
              (reason.getD "Retry policy exhausted"),
            .ack]
        d.done <+: plan ∧ (∀ kind p, .publish kind p ∉ d.done) ∧ (.ack ∈ d.done → d.done = plan) ∧
          ∀ rest, d.stage = .calling rest → d.done ++ rest = plan := by
  have hsound := sound_of_reachable h
  refine ⟨?_, ?_⟩
  · intro m hm trafficClass delay hqueue
    obtain ⟨hbudget, hplaced⟩ := hsound.ready m hm
    exact waits_of_ready hbudget hplaced hqueue
  · intro d hd
    have hdelivery := hsound.deliveries d hd
    have hcount : d.job.attempt = retries d.envelope.chain := hdelivery.inBudget.count
    refine ⟨hcount, hdelivery.inBudget.walked.retries_le, hdelivery.sameClass, ?_, ?_, ?_⟩
    · intro newer link older hchain
      have hwalked := hdelivery.inBudget.walked
      rw [hchain] at hwalked
      exact hwalked.fits
    · intro kind p hp
      obtain ⟨result, -, hcall⟩ := hdelivery.planned.mem_deliveryCalls hp
      obtain ⟨delay, hdelay, hqueue⟩ := queue_of_publish hcall
      refine ⟨hqueue ▸ hdelivery.covered.retry_mem hdelay, delay, hdelay, ?_⟩
      rw [hqueue, ← hdelivery.sameClass]
      rfl
    · intro reason hanswer hspent
      have hresult := spent_of_sound hdelivery hanswer hspent
      rw [deliveryCalls_spent hspent] at hresult
      exact hresult

/-- A configuration with one delay, written twice. -/
def sampleBudget : OutboundConfig where
  messageLeaseMs := none
  retryDelaysMs := some "7, x,-1,7"
  reservationWindowMs := none
  outboxLeaseMs := none
  outboxBatchSize := none

/-- Start a worker, publish a marketing message, and deliver it until the budget is spent. -/
def sampleActs : List Act :=
  let returned := Act.program 0 .returned
  let answer := fun i action =>
    [Act.deliver 0 2, .delivery i (.answer { action := action, reason := none })]
  let putBack := fun i action =>
    answer i action ++ [.delivery i (.call .returned), .delivery i (.call .returned), .expire 0]
  [.startWorker] ++ List.replicate 20 returned ++
    [.publish .marketing 5] ++ List.replicate 5 (.program 1 .returned) ++
    putBack 0 .retry ++ putBack 1 .defer ++ putBack 2 .retry ++ answer 3 .retry ++
    List.replicate 3 (.delivery 3 (.call .returned))

/-- The third retry finds the budget spent: the delivery ends in a dead letter. -/
theorem retry_budget_spent :
    ∃ s d, Reachable (step sampleBudget) initial s ∧ d ∈ s.deliveries ∧
      retries d.envelope.chain = 2 ∧ d.done = [.onExhausted d.job none,
        .publishDeadLetter .marketing 5 "Retry policy exhausted", .ack] := by
  have hrun : ((exec (step sampleBudget) initial sampleActs).bind fun s =>
      s.deliveries[3]?.map fun d => (d.answer, retries d.envelope.chain, d.job,
        decide (DeliveryCall.ack ∈ d.done))) =
      some (some { action := .retry, reason := none }, 2,
        { messageId := 5, attempt := 2, trafficClass := .marketing }, true) := by
    decide +kernel
  have hdelays : sampleBudget.retryDelays.length = 2 := by decide +kernel
  obtain ⟨s, hs, hlast⟩ := Option.bind_eq_some_iff.mp hrun
  obtain ⟨d, hd, hfacts⟩ := Option.map_eq_some_iff.mp hlast
  simp only [Prod.mk.injEq, decide_eq_true_eq] at hfacts
  obtain ⟨hanswer, hretries, hjob, hack⟩ := hfacts
  have hreach : Reachable (step sampleBudget) initial s := Reachable.of_exec hs
  have hmem := List.mem_of_getElem? hd
  obtain ⟨-, -, -, -, -, hspent⟩ := (retry_budget hreach).2 d hmem
  obtain ⟨-, -, hplan, -⟩ := hspent none hanswer (by rw [hdelays, hjob])
  refine ⟨s, d, hreach, hmem, hretries, ?_⟩
  rw [hplan hack, hjob]
  rfl

end Broker

end ApiWhatsApp
