import ApiWhatsApp.Library.JsonText
import ApiWhatsApp.Library.Machine
import ApiWhatsApp.Observability.ExporterConfiguration
import ApiWhatsApp.Observability.TraceContext

/-!
# The queue of the trace exporter

`observability/otlp-trace-exporter.service.ts`: spans are queued, and sent away in batches by one
operation at a time.

* `SpanExporter` is the exporter between two turns of the event loop. An operation is a call of
  `flushPending` that its promise stands for; `ShutdownStage` is how far a call of `onModuleDestroy`
  has got. `accepted` and `batches` say what has gone in and what was handed out.
* `step` is one turn: a call, a timer, an export that is over, the callback of `finally`, and
  `onModuleDestroy` going on after its `await`.
* **`Sound`** is the invariant: what has gone in is what was handed out and what is queued, in that
  order, and there is one operation at most. `Sound.step` keeps it.
* `Moves` says that a turn leaves the operations as they are, or brings every `rank` down; `Turn` is
  what a turn does in that respect.
-/

namespace ApiWhatsApp

open Library

/-! ## Spans -/

/-- Source: `type OtlpSpanKind`. -/
structure OtlpSpanKind where
  value : ℕ
  valid : 1 ≤ value ∧ value ≤ 5

/-- Source: `type OtlpSpanStatusCode`. -/
structure OtlpSpanStatusCode where
  value : ℕ
  valid : value ≤ 2

/-- Source: `type OtlpAttributeValue`. -/
inductive OtlpAttributeValue where
  | string (text : String)
  | number (x : Option Double)
  | boolean (b : Bool)

/-- Source: `interface OtlpSpanInput`; the attributes as `Object.entries` lists them. -/
structure OtlpSpanInput where
  context : TraceContext
  name : String
  kind : OtlpSpanKind
  startTimeUnixNano : ℤ
  endTimeUnixNano : ℤ
  attributes : Option (List (String × OtlpAttributeValue))
  statusCode : Option OtlpSpanStatusCode

/-- The value of a `QueuedSpan` attribute. -/
inductive QueuedValue where
  | stringValue (text : String)
  | boolValue (b : Bool)
  | intValue (text : JsString)
  | doubleValue (x : Double)

/-- Source: `interface QueuedSpan`. -/
structure QueuedSpan where
  traceId : String
  spanId : String
  parentSpanId : Option String
  flags : ℕ
  name : String
  kind : OtlpSpanKind
  startTimeUnixNano : String
  endTimeUnixNano : String
  attributes : List (String × QueuedValue)
  status : OtlpSpanStatusCode

/-- `Number.parseInt(text, 16)` as a 32-bit operator reads it: 0 for `NaN`. -/
def parseHexInteger (text : String) : ℤ :=
  let trimmed := text.toList.dropWhile isStrWhiteSpace
  let negative := trimmed.head? = some '-'
  let unsigned := if negative || trimmed.head? = some '+' then trimmed.drop 1 else trimmed
  let digits :=
    if unsigned.take 2 = ['0', 'x'] || unsigned.take 2 = ['0', 'X'] then unsigned.drop 2 else unsigned
  let value := ⌊toDouble (digitsValue 16 (digits.takeWhile isHexDigitAnyCase))⌋
  if negative then -value else value

/-- Source: `isSampled`. -/
def isSampled (traceFlags : String) : Bool := parseHexInteger traceFlags % 2 = 1

/-- The attribute that is queued for a value, if any. -/
def queuedValue : OtlpAttributeValue → Option QueuedValue
  | .string text => some (.stringValue (slice text 512))
  | .boolean b => some (.boolValue b)
  | .number none => none
  | .number (some x) =>
      some (if x.value.isInt then .intValue (JsString.numberText x) else .doubleValue x)

/-- Source: `attributes`. -/
def queuedAttributes (values : Option (List (String × OtlpAttributeValue))) :
    List (String × QueuedValue) :=
  ((values.getD []).take 32).filterMap fun entry =>
    if entry.1 = "" || utf16Length entry.1 > 128 then none
    else (queuedValue entry.2).map fun value => (entry.1, value)

/-- The span that `recordSpan` queues. -/
def OtlpSpanInput.queued (input : OtlpSpanInput) : QueuedSpan where
  traceId := input.context.traceId
  spanId := input.context.spanId
  parentSpanId := input.context.parentSpanId.filter fun id => id ≠ ""
  flags := (parseHexInteger input.context.traceFlags % 256).toNat
  name := slice input.name 256
  kind := input.kind
  startTimeUnixNano := toString input.startTimeUnixNano
  endTimeUnixNano := toString input.endTimeUnixNano
  attributes := queuedAttributes input.attributes
  status := input.statusCode.getD ⟨0, by omega⟩

/-! ## State -/

/-- How far a call of `flushPending` has got. -/
inductive OperationStage where
  /-- It waits for the export of a batch. -/
  | exporting (batch : List QueuedSpan) (remaining : ℕ)
  /-- It has returned, and the callback of `finally` has not run. -/
  | finished

/-- An operation, by the number of its promise. -/
structure Operation where
  id : ℕ
  stage : OperationStage

/-- How far a call of `onModuleDestroy` has got. -/
inductive ShutdownStage where
  /-- It waits for a promise; `none` is one that is settled already. -/
  | waiting (promise : Option ℕ)
  | returned

/-- The exporter: its own fields, the operations under way, and what has gone in and out. -/
structure SpanExporter where
  queue : List QueuedSpan
  flushTimer : Bool
  flushInFlight : Option ℕ
  droppedSpans : ℕ
  shuttingDown : Bool
  /-- The operations whose promises are not settled. -/
  operations : List Operation
  /-- The number of operations that were started. -/
  started : ℕ
  /-- The calls of `onModuleDestroy`. -/
  shutdowns : List ShutdownStage
  /-- What `recordSpan` has queued. -/
  accepted : List QueuedSpan
  /-- What was handed to `exportBatch`. -/
  batches : List (List QueuedSpan)

namespace SpanExporter

/-- After the constructor. -/
def init (configuration : Option OtlpExporterConfiguration) : SpanExporter where
  queue := []
  flushTimer := configuration.isSome
  flushInFlight := none
  droppedSpans := 0
  shuttingDown := false
  operations := []
  started := 0
  shutdowns := []
  accepted := []
  batches := []

/-- Source: `flushPending`, from the head of its loop to the next `await`. -/
def flushPending (config : OtlpExporterConfiguration) (s : SpanExporter) (remaining : ℕ) :
    SpanExporter × OperationStage :=
  let batch := s.queue.take (min config.maxBatchSize remaining)
  if 0 < remaining ∧ batch.length ≠ 0 then
    ({ s with
        queue := s.queue.drop (min config.maxBatchSize remaining)
        batches := s.batches ++ [batch] },
      .exporting batch (remaining - batch.length))
  else (s, .finished)

/-- Source: `flush`, up to its `await`: the promise that it waits for. -/
def flush (configuration : Option OtlpExporterConfiguration) (s : SpanExporter) :
    SpanExporter × Option ℕ :=
  match configuration with
  | none => (s, none)
  | some config =>
      if s.queue.length = 0 then (s, none)
      else
        match s.flushInFlight with
        | some promise => (s, some promise)
        | none =>
            let pending := flushPending config s s.queue.length
            ({ pending.1 with
                operations := s.operations ++ [⟨s.started, pending.2⟩]
                started := s.started + 1
                flushInFlight := some s.started },
              some s.started)

/-- Source: `recordSpan`. -/
def recordSpan (configuration : Option OtlpExporterConfiguration) (input : OtlpSpanInput)
    (s : SpanExporter) : SpanExporter :=
  match configuration with
  | none => s
  | some config =>
      if s.shuttingDown || !isSampled input.context.traceFlags then s
      else if input.endTimeUnixNano < input.startTimeUnixNano then s
      else if s.queue.length ≥ config.maxQueueSize then
        { s with droppedSpans := s.droppedSpans + 1 }
      else
        let s := { s with
          queue := s.queue ++ [input.queued]
          accepted := s.accepted ++ [input.queued] }
        if s.queue.length ≥ config.maxBatchSize then (flush configuration s).1 else s

/-- The loop of `onModuleDestroy`, from its head to the next `await`. -/
def shutdownLoop (configuration : Option OtlpExporterConfiguration) (s : SpanExporter) :
    SpanExporter × ShutdownStage :=
  if s.queue.length > 0 then
    let flushed := flush configuration s
    (flushed.1, .waiting flushed.2)
  else (s, .returned)

/-- Source: `onModuleDestroy`, up to its first `await`. -/
def onModuleDestroy (configuration : Option OtlpExporterConfiguration) (s : SpanExporter) :
    SpanExporter :=
  let s := { s with shuttingDown := true, flushTimer := false }
  match s.flushInFlight with
  | some promise => { s with shutdowns := s.shutdowns ++ [.waiting (some promise)] }
  | none =>
      let looped := shutdownLoop configuration s
      { looped.1 with shutdowns := looped.1.shutdowns ++ [looped.2] }

/-! ## Steps -/

/-- What can happen to the exporter. -/
inductive ExporterEvent where
  | recordSpan (input : OtlpSpanInput)
  /-- The interval of `flushTimer` is over. -/
  | timer
  /-- A call of `flush` from outside. -/
  | flush
  /-- The export of an operation has succeeded or failed; a failure is caught. -/
  | exported (operation : ℕ) (failed : Bool)
  /-- The callback of `finally`. -/
  | finallyCallback (operation : ℕ)
  | onModuleDestroy
  /-- A call of `onModuleDestroy` goes on after its `await`. -/
  | resume (call : ℕ)

/-- The promise of an operation is settled. -/
def settled (s : SpanExporter) (promise : Option ℕ) : Bool :=
  s.operations.all fun operation => some operation.id ≠ promise

/-- The operation goes on after its `await`. -/
def exported (configuration : Option OtlpExporterConfiguration) (s : SpanExporter) (i : ℕ) :
    Option SpanExporter := do
  let config ← configuration
  let operation ← s.operations[i]?
  match operation.stage with
  | .exporting _ remaining =>
      let pending := flushPending config s remaining
      some { pending.1 with operations := s.operations.set i { operation with stage := pending.2 } }
  | .finished => none

/-- The promise of an operation is settled. -/
def finallyCallback (s : SpanExporter) (i : ℕ) : Option SpanExporter := do
  let operation ← s.operations[i]?
  match operation.stage with
  | .exporting _ _ => none
  | .finished => some { s with operations := s.operations.eraseIdx i, flushInFlight := none }

/-- The call asks again whether something is left. -/
def resume (configuration : Option OtlpExporterConfiguration) (s : SpanExporter) (i : ℕ) :
    Option SpanExporter := do
  let stage ← s.shutdowns[i]?
  match stage with
  | .waiting promise =>
      if s.settled promise then
        let looped := shutdownLoop configuration s
        some { looped.1 with shutdowns := looped.1.shutdowns.set i looped.2 }
      else none
  | .returned => none

/-- One turn of the event loop. -/
def step (configuration : Option OtlpExporterConfiguration) (s : SpanExporter) :
    ExporterEvent → Option SpanExporter
  | .recordSpan input => some (s.recordSpan configuration input)
  | .timer => if s.flushTimer then some (flush configuration s).1 else none
  | .flush => some (flush configuration s).1
  | .exported i _ => s.exported configuration i
  | .finallyCallback i => s.finallyCallback i
  | .onModuleDestroy => some (s.onModuleDestroy configuration)
  | .resume i => s.resume configuration i

/-! ## What a flush does -/

section

variable {configuration : Option OtlpExporterConfiguration} {config : OtlpExporterConfiguration}
  {s t : SpanExporter}

/-- Hand the first spans of the queue out. -/
def handOut (s : SpanExporter) (k : ℕ) : SpanExporter :=
  { s with queue := s.queue.drop k, batches := s.batches ++ [s.queue.take k] }

/-- A batch is handed out, or nothing is left to do. -/
theorem flushPending_cases (hbatch : 1 ≤ config.maxBatchSize) (s : SpanExporter) (remaining : ℕ) :
    (∃ k, 1 ≤ k ∧ k ≤ config.maxBatchSize ∧ k ≤ s.queue.length ∧
      flushPending config s remaining =
        (s.handOut k, .exporting (s.queue.take k) (remaining - k))) ∨
    (remaining = 0 ∨ s.queue = []) ∧ flushPending config s remaining = (s, .finished) := by
  by_cases h : remaining = 0 ∨ s.queue = []
  · refine .inr ⟨h, if_neg ?_⟩
    rintro ⟨hpos, hne⟩
    rcases h with hzero | hnil
    · omega
    · exact hne (by rw [hnil, List.take_nil, List.length_nil])
  · obtain ⟨hremaining, hqueue⟩ := not_or.mp h
    have hlength := List.length_pos_iff.mpr hqueue
    have hk : min (min config.maxBatchSize remaining) s.queue.length ≤ s.queue.length :=
      Nat.min_le_right _ _
    have htake : s.queue.take (min config.maxBatchSize remaining) =
        s.queue.take (min (min config.maxBatchSize remaining) s.queue.length) := by
      rw [← List.take_eq_take_min]
    have hdrop : s.queue.drop (min config.maxBatchSize remaining) =
        s.queue.drop (min (min config.maxBatchSize remaining) s.queue.length) := by
      rw [List.drop_eq_drop_min]
    refine .inl ⟨min (min config.maxBatchSize remaining) s.queue.length, by omega, by omega, hk, ?_⟩
    rw [flushPending, htake, hdrop, List.length_take_of_le hk, if_pos ⟨by omega, by omega⟩]
    rfl

/-- The exporter starts an operation, with its first batch. -/
def start (s : SpanExporter) (k : ℕ) : SpanExporter :=
  { s.handOut k with
    operations := s.operations ++
      [⟨s.started, .exporting (s.queue.take k) (s.queue.length - k)⟩]
    started := s.started + 1
    flushInFlight := some s.started }

/-- A flush finds nothing to do, or an operation under way, or it starts one. -/
theorem flush_cases (hbounded : ∀ config ∈ configuration, config.Bounded) (s : SpanExporter) :
    (configuration = none ∨ s.queue = []) ∧ flush configuration s = (s, none) ∨
    (∃ promise, s.flushInFlight = some promise ∧ flush configuration s = (s, some promise)) ∨
    ∃ config k, configuration = some config ∧ s.flushInFlight = none ∧ 1 ≤ k ∧
      k ≤ config.maxBatchSize ∧ k ≤ s.queue.length ∧
      flush configuration s = (s.start k, some s.started) := by
  cases configuration with
  | none => exact .inl ⟨.inl rfl, rfl⟩
  | some config =>
      by_cases hqueue : s.queue = []
      · exact .inl ⟨.inr hqueue, if_pos (by rw [hqueue, List.length_nil])⟩
      have hlength : s.queue.length ≠ 0 := fun h => hqueue (List.eq_nil_of_length_eq_zero h)
      cases hflight : s.flushInFlight with
      | some promise =>
          refine .inr (.inl ⟨promise, rfl, ?_⟩)
          simp only [flush, if_neg hlength, hflight]
      | none =>
          rcases flushPending_cases (hbounded config rfl).batch s s.queue.length with
            ⟨k, hpos, hbatch, hk, heq⟩ | ⟨hnone, -⟩
          · refine .inr (.inr ⟨config, k, rfl, rfl, hpos, hbatch, hk, ?_⟩)
            simp only [flush, if_neg hlength, hflight, heq]
            rfl
          · exact absurd hnone (not_or.mpr ⟨hlength, hqueue⟩)

/-! ## Safety -/

/-- No span is lost and none is sent twice: what has gone in is what was handed out, in that order,
and then what is queued. -/
structure Accounts (configuration : Option OtlpExporterConfiguration) (s : SpanExporter) :
    Prop where
  once : s.accepted = s.batches.flatten ++ s.queue
  bounded : s.queue.length ≤ configuration.elim 0 (·.maxQueueSize)
  sizes : ∀ batch ∈ s.batches,
    1 ≤ batch.length ∧ batch.length ≤ configuration.elim 0 (·.maxBatchSize)

/-- The invariant: the accounts are right, and there is one operation at most. -/
structure Sound (configuration : Option OtlpExporterConfiguration) (s : SpanExporter) : Prop
    extends Accounts configuration s where
  flight : s.operations = [] ∧ s.flushInFlight = none ∨
    ∃ operation, s.operations = [operation] ∧ s.flushInFlight = some operation.id
  timer : s.flushTimer = (configuration.isSome && !s.shuttingDown)
  called : s.shutdowns ≠ [] → s.shuttingDown = true
  drained : .returned ∈ s.shutdowns → s.queue = []

/-- The constructor leaves a sound state. -/
theorem Sound.init (configuration : Option OtlpExporterConfiguration) :
    Sound configuration (init configuration) where
  once := rfl
  bounded := Nat.zero_le _
  sizes := by rintro batch ⟨⟩
  flight := .inl ⟨rfl, rfl⟩
  timer := (Bool.and_true _).symm
  called h := absurd rfl h
  drained := by rintro ⟨⟩

/-- A batch that is handed out is taken from the queue. -/
theorem Accounts.handOut (h : Accounts (some config) s) {k : ℕ} (hpos : 1 ≤ k)
    (hbatch : k ≤ config.maxBatchSize) (hk : k ≤ s.queue.length) :
    Accounts (some config) (s.handOut k) where
  once := by
    rw [SpanExporter.handOut, List.flatten_append, List.flatten_singleton, List.append_assoc,
      List.take_append_drop]
    exact h.once
  bounded := by
    have hle := h.bounded
    rw [SpanExporter.handOut, List.length_drop]
    omega
  sizes := by
    intro batch hmem
    rcases List.mem_append.mp hmem with hmem | hmem
    · exact h.sizes batch hmem
    · rw [List.mem_singleton.mp hmem, List.length_take_of_le hk]
      exact ⟨hpos, hbatch⟩

/-- Without a flush in flight there is no operation. -/
theorem Sound.operations_eq_nil (h : Sound configuration s) (hflight : s.flushInFlight = none) :
    s.operations = [] := by
  rcases h.flight with ⟨hnil, -⟩ | ⟨operation, -, hsome⟩
  · exact hnil
  · rw [hflight] at hsome
    cases hsome

/-- A flush keeps the accounts. -/
theorem Sound.flush (hbounded : ∀ config ∈ configuration, config.Bounded)
    (h : Sound configuration s) : Sound configuration (flush configuration s).1 := by
  rcases flush_cases hbounded s with ⟨-, heq⟩ | ⟨promise, -, heq⟩ |
    ⟨config, k, rfl, hflight, hpos, hbatch, hk, heq⟩
  · rwa [heq]
  · rwa [heq]
  · rw [heq]
    have hoperations : s.operations = [] := h.operations_eq_nil hflight
    have haccounts := h.toAccounts.handOut hpos hbatch hk
    refine ⟨⟨haccounts.once, haccounts.bounded, haccounts.sizes⟩, .inr ?_, h.timer, h.called, ?_⟩
    · exact ⟨_, by rw [start, hoperations]; rfl, rfl⟩
    · -- Nobody has returned, for there was something in the queue.
      intro hmem
      rw [h.drained hmem, List.length_nil] at hk
      omega

/-- A span that is queued is accounted for. -/
theorem Sound.push (h : Sound (some config) s) (hrunning : s.shuttingDown = false)
    (hroom : s.queue.length < config.maxQueueSize) (span : QueuedSpan) :
    Sound (some config)
      { s with queue := s.queue ++ [span], accepted := s.accepted ++ [span] } where
  once := by
    dsimp only
    rw [h.once, List.append_assoc]
  bounded := by
    dsimp only
    rw [List.length_append, List.length_singleton]
    exact hroom
  sizes := h.sizes
  flight := h.flight
  timer := h.timer
  called := h.called
  drained hmem := by
    have hshutting := h.called (List.ne_nil_of_mem hmem)
    rw [hrunning] at hshutting
    cases hshutting

/-- Recording keeps the invariant. -/
theorem Sound.recordSpan (hbounded : ∀ config ∈ configuration, config.Bounded)
    (h : Sound configuration s) (input : OtlpSpanInput) :
    Sound configuration (s.recordSpan configuration input) := by
  cases configuration with
  | none => exact h
  | some config =>
      unfold SpanExporter.recordSpan
      dsimp only
      split_ifs with hskip horder hfull hflush
      · exact h
      · exact h
      · exact ⟨⟨h.once, h.bounded, h.sizes⟩, h.flight, h.timer, h.called, h.drained⟩
      · have hrunning : s.shuttingDown = false := by simp_all
        exact (h.push hrunning (Nat.lt_of_not_le hfull) input.queued).flush hbounded
      · have hrunning : s.shuttingDown = false := by simp_all
        exact h.push hrunning (Nat.lt_of_not_le hfull) input.queued

/-- There is one operation at most. -/
theorem Sound.operation (h : Sound configuration s) {i : ℕ} {operation : Operation}
    (hoperation : s.operations[i]? = some operation) : s.operations = [operation] ∧ i = 0 := by
  rcases h.flight with ⟨hnil, -⟩ | ⟨other, hone, -⟩
  · rw [hnil] at hoperation
    cases hoperation
  · rw [hone, List.getElem?_singleton] at hoperation
    split_ifs at hoperation with hi
    cases hoperation
    exact ⟨hone, hi⟩

/-- An export that ends takes its operation to the next batch or to its end. -/
theorem exported_cases {i : ℕ} (ht : s.exported configuration i = some t) :
    ∃ config operation batch remaining, configuration = some config ∧
      s.operations[i]? = some operation ∧ operation.stage = .exporting batch remaining ∧
      t = { (flushPending config s remaining).1 with
            operations := s.operations.set i
              { operation with stage := (flushPending config s remaining).2 } } := by
  simp only [SpanExporter.exported, Option.bind_eq_bind, Option.bind_eq_some_iff] at ht
  obtain ⟨config, rfl, operation, hoperation, ht⟩ := ht
  split at ht
  · next batch remaining hstage =>
      cases ht
      exact ⟨config, operation, batch, remaining, rfl, hoperation, hstage, rfl⟩
  · cases ht

/-- The callback takes the operation away. -/
theorem finallyCallback_cases {i : ℕ} (ht : s.finallyCallback i = some t) :
    ∃ operation, s.operations[i]? = some operation ∧ operation.stage = .finished ∧
      t = { s with operations := s.operations.eraseIdx i, flushInFlight := none } := by
  simp only [SpanExporter.finallyCallback, Option.bind_eq_bind, Option.bind_eq_some_iff] at ht
  obtain ⟨operation, hoperation, ht⟩ := ht
  split at ht
  · cases ht
  · next hstage =>
      cases ht
      exact ⟨operation, hoperation, hstage, rfl⟩

/-- A call that goes on has waited for a promise that is settled. -/
theorem resume_cases {i : ℕ} (ht : s.resume configuration i = some t) :
    ∃ promise, s.shutdowns[i]? = some (.waiting promise) ∧ s.settled promise = true ∧
      t = { (shutdownLoop configuration s).1 with
            shutdowns := (shutdownLoop configuration s).1.shutdowns.set i
              (shutdownLoop configuration s).2 } := by
  simp only [SpanExporter.resume, Option.bind_eq_bind, Option.bind_eq_some_iff] at ht
  obtain ⟨stage, hstage, ht⟩ := ht
  split at ht
  · next promise =>
      split_ifs at ht with hsettled
      cases ht
      exact ⟨promise, hstage, hsettled, rfl⟩
  · cases ht

/-- An export that ends keeps the invariant. -/
theorem Sound.exported (hbounded : ∀ config ∈ configuration, config.Bounded)
    (h : Sound configuration s) {i : ℕ} (ht : s.exported configuration i = some t) :
    Sound configuration t := by
  obtain ⟨config, operation, batch, remaining, rfl, hoperation, -, rfl⟩ := exported_cases ht
  obtain ⟨hone, rfl⟩ := h.operation hoperation
  have hflight : s.flushInFlight = some operation.id := by
    rcases h.flight with ⟨hnil, -⟩ | ⟨other, hother, hid⟩
    · rw [hone] at hnil
      cases hnil
    · rw [hone] at hother
      cases hother
      exact hid
  rcases flushPending_cases (hbounded config rfl).batch s remaining with
    ⟨k, hpos, hbatch, hk, heq⟩ | ⟨-, heq⟩
  · rw [heq, hone]
    have haccounts := h.toAccounts.handOut hpos hbatch hk
    refine ⟨⟨haccounts.once, haccounts.bounded, haccounts.sizes⟩, .inr ⟨_, rfl, hflight⟩, h.timer,
      h.called, ?_⟩
    intro hmem
    rw [h.drained hmem, List.length_nil] at hk
    omega
  · rw [heq, hone]
    exact ⟨⟨h.once, h.bounded, h.sizes⟩, .inr ⟨_, rfl, hflight⟩, h.timer, h.called, h.drained⟩

/-- The callback keeps the invariant. -/
theorem Sound.finallyCallback (h : Sound configuration s) {i : ℕ}
    (ht : s.finallyCallback i = some t) : Sound configuration t := by
  obtain ⟨operation, hoperation, -, rfl⟩ := finallyCallback_cases ht
  obtain ⟨hone, rfl⟩ := h.operation hoperation
  rw [hone]
  exact ⟨⟨h.once, h.bounded, h.sizes⟩, .inl ⟨rfl, rfl⟩, h.timer, h.called, h.drained⟩

/-- What a flush leaves as it is. -/
theorem flush_frame (hbounded : ∀ config ∈ configuration, config.Bounded) (s : SpanExporter) :
    (flush configuration s).1.shuttingDown = s.shuttingDown ∧
      (flush configuration s).1.shutdowns = s.shutdowns ∧
      (flush configuration s).1.accepted = s.accepted := by
  rcases flush_cases hbounded s with ⟨-, heq⟩ | ⟨promise, -, heq⟩ |
    ⟨config, k, -, -, -, -, -, heq⟩
  · rw [heq]; exact ⟨rfl, rfl, rfl⟩
  · rw [heq]; exact ⟨rfl, rfl, rfl⟩
  · rw [heq]; exact ⟨rfl, rfl, rfl⟩

/-- The loop returns when the queue is empty, or it flushes. -/
theorem shutdownLoop_cases (configuration : Option OtlpExporterConfiguration) (s : SpanExporter) :
    s.queue = [] ∧ shutdownLoop configuration s = (s, .returned) ∨
      s.queue ≠ [] ∧ shutdownLoop configuration s =
        ((flush configuration s).1, .waiting (flush configuration s).2) := by
  by_cases hqueue : s.queue = []
  · exact .inl ⟨hqueue, if_neg (by simp [hqueue])⟩
  · exact .inr ⟨hqueue, if_pos (List.length_pos_iff.mpr hqueue)⟩

/-- The calls may go on once nothing is left. -/
theorem Sound.setShutdowns (h : Sound configuration s) (hshutting : s.shuttingDown = true)
    {stages : List ShutdownStage} (hdrained : .returned ∈ stages → s.queue = []) :
    Sound configuration { s with shutdowns := stages } :=
  ⟨⟨h.once, h.bounded, h.sizes⟩, h.flight, h.timer, fun _ => hshutting, hdrained⟩

/-- What a call of `onModuleDestroy` does when it comes to its loop. -/
theorem Sound.shutdownLoop (hbounded : ∀ config ∈ configuration, config.Bounded)
    (h : Sound configuration s) (hshutting : s.shuttingDown = true)
    {f : List ShutdownStage → ShutdownStage → List ShutdownStage}
    (hf : ∀ stages stage x, x ∈ f stages stage → x ∈ stages ∨ x = stage) :
    Sound configuration { (s.shutdownLoop configuration).1 with
      shutdowns := f (s.shutdownLoop configuration).1.shutdowns
        (s.shutdownLoop configuration).2 } := by
  rcases shutdownLoop_cases configuration s with ⟨hqueue, heq⟩ | ⟨-, heq⟩
  · rw [heq]
    exact h.setShutdowns hshutting fun _ => hqueue
  · rw [heq]
    have hflush := h.flush hbounded
    refine hflush.setShutdowns ((flush_frame hbounded s).1.trans hshutting) fun hmem => ?_
    rcases hf _ _ _ hmem with hmem | hmem
    · exact hflush.drained hmem
    · cases hmem

/-- A shutdown keeps the invariant. -/
theorem Sound.onModuleDestroy (hbounded : ∀ config ∈ configuration, config.Bounded)
    (h : Sound configuration s) : Sound configuration (s.onModuleDestroy configuration) := by
  have hclosed : Sound configuration { s with shuttingDown := true, flushTimer := false } :=
    ⟨⟨h.once, h.bounded, h.sizes⟩, h.flight, (Bool.and_false _).symm, fun _ => rfl, h.drained⟩
  unfold SpanExporter.onModuleDestroy
  dsimp only
  split
  · refine hclosed.setShutdowns rfl fun hmem => ?_
    rcases List.mem_append.mp hmem with hmem | hmem
    · exact h.drained hmem
    · cases List.mem_singleton.mp hmem
  · refine hclosed.shutdownLoop hbounded rfl (f := fun stages stage => stages ++ [stage]) ?_
    intro stages stage x hmem
    simpa using hmem

/-- A call that goes on keeps the invariant. -/
theorem Sound.resume (hbounded : ∀ config ∈ configuration, config.Bounded)
    (h : Sound configuration s) {i : ℕ} (ht : s.resume configuration i = some t) :
    Sound configuration t := by
  obtain ⟨promise, hstage, -, rfl⟩ := resume_cases ht
  have hshutting := h.called (List.ne_nil_of_mem (List.mem_of_getElem? hstage))
  refine h.shutdownLoop hbounded hshutting (f := fun stages stage => stages.set i stage) ?_
  intro stages stage x hmem
  exact List.mem_or_eq_of_mem_set hmem

/-- One turn keeps the invariant. -/
theorem Sound.step (hbounded : ∀ config ∈ configuration, config.Bounded)
    (h : Sound configuration s) {event : ExporterEvent}
    (ht : s.step configuration event = some t) : Sound configuration t := by
  cases event with
  | recordSpan input => cases ht; exact h.recordSpan hbounded input
  | timer =>
      rw [SpanExporter.step] at ht
      split at ht
      · cases ht
        exact h.flush hbounded
      · cases ht
  | flush => cases ht; exact h.flush hbounded
  | exported i failed => exact h.exported hbounded ht
  | finallyCallback i => exact h.finallyCallback ht
  | onModuleDestroy => cases ht; exact h.onModuleDestroy hbounded
  | resume i => exact h.resume hbounded ht

/-! ## Progress -/

/-- How many spans were handed out. -/
def handed (s : SpanExporter) : ℕ := s.batches.flatten.length

/-- How far the operations are from their end. -/
def phase (s : SpanExporter) : ℕ :=
  (s.operations.map fun operation =>
    match operation.stage with
    | .exporting _ _ => 2
    | .finished => 1).sum

/-- What is missing until `goal` spans are handed out and the operations are over. -/
def rank (goal : ℕ) (s : SpanExporter) : ℕ := 3 * (goal - s.handed) + s.phase

/-- A turn changes nothing about the operations, or it brings every goal nearer. -/
def Moves (s t : SpanExporter) : Prop :=
  t.batches = s.batches ∧ t.operations = s.operations ∨
    ∀ goal, s.handed < goal → t.rank goal < s.rank goal

/-- The operation that a flush starts has handed a batch out. -/
theorem rank_start_lt {goal k : ℕ} (hoperations : s.operations = []) (hpos : 1 ≤ k)
    (hk : k ≤ s.queue.length) (hgoal : s.handed < goal) : (s.start k).rank goal < s.rank goal := by
  have hhanded : (s.start k).handed = s.handed + k := by
    rw [handed, start, handOut, List.flatten_append, List.length_append, List.flatten_singleton,
      List.length_take_of_le hk, handed]
  have hphase : (s.start k).phase = 2 := by
    rw [phase, start, hoperations]
    rfl
  rw [rank, rank, hhanded, hphase]
  omega

/-- A flush stands still or comes closer. -/
theorem Moves.flush (hbounded : ∀ config ∈ configuration, config.Bounded)
    (h : Sound configuration s) : Moves s (flush configuration s).1 := by
  rcases flush_cases hbounded s with ⟨-, heq⟩ | ⟨promise, -, heq⟩ |
    ⟨config, k, -, hflight, hpos, -, hk, heq⟩
  · rw [heq]; exact .inl ⟨rfl, rfl⟩
  · rw [heq]; exact .inl ⟨rfl, rfl⟩
  · rw [heq]
    have hoperations : s.operations = [] := h.operations_eq_nil hflight
    exact .inr fun goal hgoal => rank_start_lt hoperations hpos hk hgoal

/-- An export that ends comes closer. -/
theorem Moves.exported (hbounded : ∀ config ∈ configuration, config.Bounded)
    (h : Sound configuration s) {i : ℕ} (ht : s.exported configuration i = some t) {goal : ℕ}
    (hgoal : s.handed < goal) : t.rank goal < s.rank goal := by
  obtain ⟨config, operation, batch, remaining, rfl, hoperation, hstage, rfl⟩ := exported_cases ht
  obtain ⟨hone, rfl⟩ := h.operation hoperation
  have hphase : s.phase = 2 := by
    rw [phase, hone, List.map_singleton, List.sum_singleton, hstage]
  rcases flushPending_cases (hbounded config rfl).batch s remaining with
    ⟨k, hpos, -, hk, heq⟩ | ⟨-, heq⟩
  · have hhanded : (s.handOut k).handed = s.handed + k := by
      rw [handed, handOut, List.flatten_append, List.length_append, List.flatten_singleton,
        List.length_take_of_le hk, handed]
    rw [heq, hone]
    change 3 * (goal - (s.handOut k).handed) + 2 < _
    rw [rank, hphase, hhanded]
    omega
  · rw [heq, hone]
    change 3 * (goal - s.handed) + 1 < _
    rw [rank, hphase]
    omega

/-- The callback comes closer. -/
theorem Moves.finallyCallback (h : Sound configuration s) {i : ℕ}
    (ht : s.finallyCallback i = some t) (goal : ℕ) : t.rank goal < s.rank goal := by
  obtain ⟨operation, hoperation, hstage, rfl⟩ := finallyCallback_cases ht
  obtain ⟨hone, rfl⟩ := h.operation hoperation
  have hphase : s.phase = 1 := by
    rw [phase, hone, List.map_singleton, List.sum_singleton, hstage]
  rw [hone]
  change 3 * (goal - s.handed) + 0 < _
  rw [rank, hphase]
  omega

/-- What a turn does, as far as progress is concerned. -/
structure Turn (s t : SpanExporter) : Prop where
  moves : Moves s t
  handed : s.handed ≤ t.handed
  accepted : s.accepted <+: t.accepted
  calls : s.shutdowns.length ≤ t.shutdowns.length
  asked : (s.shuttingDown = true → s.shutdowns ≠ []) → t.shuttingDown = true → t.shutdowns ≠ []
  closed : s.shuttingDown = true → t.shuttingDown = true ∧ t.accepted = s.accepted

/-- Nothing that was handed out is taken back. -/
theorem handed_le_handOut (s : SpanExporter) (k : ℕ) : s.handed ≤ (s.handOut k).handed := by
  rw [handed, handed, handOut, List.flatten_append, List.length_append]
  omega

/-- A flush is a turn. -/
theorem Turn.flush (hbounded : ∀ config ∈ configuration, config.Bounded)
    (h : Sound configuration s) : Turn s (flush configuration s).1 := by
  obtain ⟨hshutting, hshutdowns, haccepted⟩ := flush_frame hbounded s
  refine ⟨.flush hbounded h, ?_, ?_, ?_, ?_, ?_⟩
  · rcases flush_cases hbounded s with ⟨-, heq⟩ | ⟨promise, -, heq⟩ | ⟨config, k, -, -, -, -, -, heq⟩
    · rw [heq]
    · rw [heq]
    · rw [heq]
      exact handed_le_handOut s k
  · rw [haccepted]
  · rw [hshutdowns]
  · rw [hshutting, hshutdowns]
    exact id
  · rw [hshutting, haccepted]
    exact fun hs => ⟨hs, rfl⟩

/-- Recording is a turn. -/
theorem Turn.recordSpan (hbounded : ∀ config ∈ configuration, config.Bounded)
    (h : Sound configuration s) (input : OtlpSpanInput) :
    Turn s (s.recordSpan configuration input) := by
  have hsame : Turn s s := ⟨.inl ⟨rfl, rfl⟩, le_rfl, List.prefix_rfl, le_rfl, id, fun hs => ⟨hs, rfl⟩⟩
  cases configuration with
  | none => exact hsame
  | some config =>
      unfold SpanExporter.recordSpan
      dsimp only
      split_ifs with hskip horder hfull hflush
      · exact hsame
      · exact hsame
      · exact ⟨hsame.moves, hsame.handed, hsame.accepted, hsame.calls, hsame.asked, hsame.closed⟩
      all_goals
        have hrunning : s.shuttingDown = false := by simp_all
        have hpush := h.push hrunning (Nat.lt_of_not_le hfull) input.queued
        have hprefix := List.prefix_append s.accepted [input.queued]
      · have hturn := Turn.flush hbounded hpush
        refine ⟨hturn.moves, hturn.handed, hprefix.trans hturn.accepted, hturn.calls, hturn.asked, ?_⟩
        rw [hrunning]
        rintro ⟨⟩
      · refine ⟨hsame.moves, hsame.handed, hprefix, hsame.calls, hsame.asked, ?_⟩
        rw [hrunning]
        rintro ⟨⟩

/-- A round of the shutdown is a turn. -/
theorem Turn.shutdownLoop (hbounded : ∀ config ∈ configuration, config.Bounded)
    (h : Sound configuration s) (hshutting : s.shuttingDown = true) {stages : List ShutdownStage}
    (hcalls : s.shutdowns.length ≤ stages.length) (hne : stages ≠ []) :
    Turn s { (s.shutdownLoop configuration).1 with shutdowns := stages } := by
  rcases shutdownLoop_cases configuration s with ⟨-, heq⟩ | ⟨-, heq⟩
  · rw [heq]
    exact ⟨.inl ⟨rfl, rfl⟩, le_rfl, List.prefix_rfl, hcalls, fun _ _ => hne,
      fun _ => ⟨hshutting, rfl⟩⟩
  · rw [heq]
    have hturn := Turn.flush hbounded h
    exact ⟨hturn.moves, hturn.handed, hturn.accepted, hcalls, fun _ _ => hne, hturn.closed⟩

/-- A round of the shutdown leaves the calls as they are. -/
theorem shutdownLoop_shutdowns (hbounded : ∀ config ∈ configuration, config.Bounded)
    (s : SpanExporter) : (shutdownLoop configuration s).1.shutdowns = s.shutdowns := by
  rcases shutdownLoop_cases configuration s with ⟨-, heq⟩ | ⟨-, heq⟩
  · rw [heq]
  · rw [heq]
    exact (flush_frame hbounded s).2.1

/-- No call is lost. -/
theorem length_le_shutdownLoop_append (hbounded : ∀ config ∈ configuration, config.Bounded)
    (s : SpanExporter) :
    s.shutdowns.length ≤ ((shutdownLoop configuration s).1.shutdowns ++
      [(shutdownLoop configuration s).2]).length := by
  rw [shutdownLoop_shutdowns hbounded, List.length_append]
  exact Nat.le_add_right _ _

/-- A shutdown is a turn. -/
theorem Turn.onModuleDestroy (hbounded : ∀ config ∈ configuration, config.Bounded)
    (h : Sound configuration s) : Turn s (s.onModuleDestroy configuration) := by
  have hclosed : Sound configuration { s with shuttingDown := true, flushTimer := false } :=
    ⟨⟨h.once, h.bounded, h.sizes⟩, h.flight, (Bool.and_false _).symm, fun _ => rfl, h.drained⟩
  unfold SpanExporter.onModuleDestroy
  dsimp only
  split
  · exact ⟨.inl ⟨rfl, rfl⟩, le_rfl, List.prefix_rfl, by simp, fun _ _ => by simp,
      fun _ => ⟨rfl, rfl⟩⟩
  · have hturn := Turn.shutdownLoop hbounded hclosed rfl
      (length_le_shutdownLoop_append hbounded { s with shuttingDown := true, flushTimer := false })
      (List.append_ne_nil_of_right_ne_nil _ (List.cons_ne_nil _ _))
    exact ⟨hturn.moves, hturn.handed, hturn.accepted, hturn.calls,
      fun _ _ => List.append_ne_nil_of_right_ne_nil _ (List.cons_ne_nil _ _),
      fun _ => hturn.closed rfl⟩

/-- One turn, for the progress. -/
theorem Sound.turn (hbounded : ∀ config ∈ configuration, config.Bounded)
    (h : Sound configuration s) {event : ExporterEvent}
    (ht : s.step configuration event = some t) : Turn s t := by
  cases event with
  | recordSpan input => cases ht; exact .recordSpan hbounded h input
  | timer =>
      rw [SpanExporter.step] at ht
      split at ht
      · cases ht
        exact .flush hbounded h
      · cases ht
  | flush => cases ht; exact .flush hbounded h
  | exported i failed =>
      have hmoves : Moves s t := .inr fun goal hgoal => Moves.exported hbounded h ht hgoal
      obtain ⟨config, operation, batch, remaining, rfl, -, -, rfl⟩ := exported_cases ht
      rcases flushPending_cases (hbounded config rfl).batch s remaining with
        ⟨k, -, -, -, heq⟩ | ⟨-, heq⟩
      · rw [heq] at hmoves ⊢
        exact ⟨hmoves, handed_le_handOut s k, List.prefix_rfl, le_rfl, id, fun hs => ⟨hs, rfl⟩⟩
      · rw [heq] at hmoves ⊢
        exact ⟨hmoves, le_rfl, List.prefix_rfl, le_rfl, id, fun hs => ⟨hs, rfl⟩⟩
  | finallyCallback i =>
      have hmoves : Moves s t := .inr fun goal _ => Moves.finallyCallback h ht goal
      obtain ⟨operation, -, -, rfl⟩ := finallyCallback_cases ht
      exact ⟨hmoves, le_rfl, List.prefix_rfl, le_rfl, id, fun hs => ⟨hs, rfl⟩⟩
  | onModuleDestroy => cases ht; exact .onModuleDestroy hbounded h
  | resume i =>
      obtain ⟨promise, hstage, -, rfl⟩ := resume_cases ht
      have hmem := List.mem_of_getElem? hstage
      have hlength : s.shutdowns.length ≤
          ((SpanExporter.shutdownLoop configuration s).1.shutdowns.set i
            (SpanExporter.shutdownLoop configuration s).2).length := by
        rw [List.length_set, shutdownLoop_shutdowns hbounded]
      refine .shutdownLoop hbounded h (h.called (List.ne_nil_of_mem hmem)) hlength ?_
      exact List.ne_nil_of_length_pos ((List.length_pos_of_mem hmem).trans_le hlength)

end

end SpanExporter

end ApiWhatsApp
