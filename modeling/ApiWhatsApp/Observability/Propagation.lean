import ApiWhatsApp.Observability.TraceContext
import ApiWhatsApp.Schema

/-!
# Trace propagation

A request enters through the API and goes on through the outbox, the queue and the worker; at each hop
the carrier of the last context is read, and `runFromParent` makes the next one.

* `queueBody` is the payload of an outbox event, and the body of a queue message; `extractTrace`
  (`outbox/outbox-publisher.service.ts`) and `parseMessage` (`queue/messaging-queue.service.ts`) read
  the carrier of it.
* A `Hop` goes through the outbox, through the queue with any number of retries, each of which parses
  and writes the body again, or to a client span of the dispatcher, which takes the carrier as it is.
* `hop_spec` says what one hop keeps. `Decided` carries the sampled bit along: given its own flags as
  those of a parent, the sampler decides for a context as it has decided.
* **`trace_propagation`** — the result, for every chain of hops, every sampler and every incoming
  `traceparent`.
-/

namespace ApiWhatsApp

open Library

/-! ## What goes over the wire -/

/-- The payload of an outbox event and the body of a queue message. -/
def queueBody (messageId : Uuid) (trafficClass : String) (trace : Option TraceCarrier) : Json :=
  Json.object [("messageId", some (.str (toString messageId))),
    ("trafficClass", some (.str trafficClass)), ("trace", trace.map TraceCarrier.toJson)]

/-- Source: `extractTrace`. -/
def extractTrace (payload : Json) : Option TraceCarrier := parseCarrier (payload.get? "trace")

/-- Source: `parseMessage`. -/
def parseMessage (body : Json) : Option (String × Option TraceCarrier) :=
  (((body.get? "messageId").bind Json.string?).filter fun text => text ≠ "").map fun messageId =>
    (messageId, parseCarrier (body.get? "trace"))

/-- The body that a retry publishes again. -/
def requeue (messageId : Uuid) (trafficClass : String) (body : Json) : Json :=
  match parseMessage body with
  | none => body
  | some (_, trace) => queueBody messageId trafficClass trace

/-- How a carrier gets from one context to the next. -/
inductive Hop where
  | outbox (messageId : Uuid) (trafficClass : String)
  | queue (messageId : Uuid) (trafficClass : String) (retries : ℕ)
  | span

/-- The carrier that arrives. -/
def Hop.received (context : TraceContext) : Hop → Option TraceCarrier
  | outbox messageId trafficClass =>
      extractTrace (queueBody messageId trafficClass (some context.carrier))
  | queue messageId trafficClass retries =>
      (parseMessage ((requeue messageId trafficClass)^[retries]
        (queueBody messageId trafficClass (some context.carrier)))).bind (·.2)
  | span => some context.carrier

/-- The context after a hop. -/
def Hop.next (sampler : TraceSamplerConfiguration) (context : TraceContext)
    (hop : Hop × RandomIds) : TraceContext :=
  runFromParent sampler hop.2 (hop.1.received context)

/-- The contexts along a chain of hops, the first one included. -/
def hops (sampler : TraceSamplerConfiguration) (context : TraceContext) :
    List (Hop × RandomIds) → List TraceContext
  | [] => [context]
  | hop :: rest => context :: hops sampler (Hop.next sampler context hop) rest

/-! ## One hop -/

theorem get?_queueBody (messageId : Uuid) (trafficClass : String) (trace : Option TraceCarrier) :
    (queueBody messageId trafficClass trace).get? "messageId" = some (.str (toString messageId)) ∧
      (queueBody messageId trafficClass trace).get? "trace" = trace.map TraceCarrier.toJson := by
  have hget : ∀ key, (queueBody messageId trafficClass trace).get? key =
      (List.lookup key [("messageId", some (Json.str (toString messageId))),
        ("trafficClass", some (.str trafficClass)), ("trace", trace.map TraceCarrier.toJson)]).join := by
    intro key
    exact Json.get?_object (by simp) key
  exact ⟨hget _, hget _⟩

/-- A body is parsed back to its carrier. -/
theorem parseMessage_queueBody (messageId : Uuid) (trafficClass : String) {carrier : TraceCarrier}
    (h : carrier.WellFormed) :
    parseMessage (queueBody messageId trafficClass (some carrier)) =
      some (toString messageId, some carrier) := by
  obtain ⟨hid, htrace⟩ := get?_queueBody messageId trafficClass (some carrier)
  rw [parseMessage, hid, htrace, Option.bind_some, Json.string?, Option.filter_some,
    if_pos (by simp), Option.map_some, Option.map_some,
    parseCarrier_toJson h]

/-- Whatever the hop, the carrier of a valid context arrives. -/
theorem received_eq {context : TraceContext} (h : context.Valid) (hop : Hop) :
    hop.received context = some context.carrier := by
  cases hop with
  | outbox messageId trafficClass =>
      rw [Hop.received, extractTrace, (get?_queueBody _ _ _).2, Option.map_some,
        parseCarrier_toJson h.carrier]
  | queue messageId trafficClass retries =>
      have hfixed : (requeue messageId trafficClass)^[retries]
          (queueBody messageId trafficClass (some context.carrier)) =
            queueBody messageId trafficClass (some context.carrier) := by
        refine Function.iterate_fixed ?_ retries
        rw [requeue, parseMessage_queueBody messageId trafficClass h.carrier]
      rw [Hop.received, hfixed, parseMessage_queueBody messageId trafficClass h.carrier]
      rfl
  | span => rfl

/-- The sampled bit. -/
def TraceContext.isSampled (context : TraceContext) : Bool := flagsValue context.traceFlags &&& 1 = 1

/-- Given its own flags as those of a parent, the sampler decides for a context as it has decided. -/
def Decided (sampler : TraceSamplerConfiguration) (context : TraceContext) : Prop :=
  sampled sampler context.traceId (flagsValue context.traceFlags) true = context.isSampled

/-- A context whose bit the sampler has set is decided, whatever the parent was. -/
theorem decided_of_sampled {sampler : TraceSamplerConfiguration} {context : TraceContext}
    {existing : ℕ} {hasParent : Bool}
    (h : context.isSampled = sampled sampler context.traceId existing hasParent) :
    Decided sampler context := by
  unfold Decided
  unfold sampled at h ⊢
  cases hname : sampler.name with
  | alwaysOn | alwaysOff | traceidratio =>
      rw [hname] at h
      exact h.symm
  | parentbasedAlwaysOn | parentbasedAlwaysOff | parentbasedTraceidratio => rfl

/-- What one hop does. -/
structure HopOk (sampler : TraceSamplerConfiguration) (context next : TraceContext) : Prop where
  valid : next.Valid
  decided : Decided sampler next
  traceId : next.traceId = context.traceId
  requestId : next.requestId = context.requestId
  parentSpanId : next.parentSpanId = some context.spanId
  otherFlags : flagsValue next.traceFlags &&& 0xfe = flagsValue context.traceFlags &&& 0xfe
  isSampled : next.isSampled = context.isSampled

theorem hop_spec {sampler : TraceSamplerConfiguration} {context : TraceContext} (h : context.Valid)
    (hd : Decided sampler context) (hop : Hop × RandomIds) :
    HopOk sampler context (Hop.next sampler context hop) := by
  have hnext : Hop.next sampler context hop =
      { requestId := context.requestId, traceId := context.traceId, spanId := hop.2.spanId,
        parentSpanId := some context.spanId,
        traceFlags := samplingFlags sampler context.traceId (some context.traceFlags) true } := by
    rw [Hop.next, received_eq h, runFromParent]
    simp only [TraceContext.carrier, safeRequestId, Option.map_some, Option.bind_some,
      Option.filter_some, if_pos h.traceId, if_pos h.spanId, if_pos h.traceFlags,
      if_pos h.requestId, Option.getD_some, Option.some_or, Option.isSome_some]
  have hexisting : existingFlags (some context.traceFlags) = flagsValue context.traceFlags := by
    rw [existingFlags, Option.filter_some, if_pos h.traceFlags]
    rfl
  obtain ⟨-, hother, hbit⟩ :=
    @samplingFlags_spec sampler context.traceId (some context.traceFlags) true
  rw [hexisting] at hother hbit
  have hsampled : (Hop.next sampler context hop).isSampled =
      sampled sampler context.traceId (flagsValue context.traceFlags) true := by
    rw [hnext]
    exact hbit
  have htrace : (Hop.next sampler context hop).traceId = context.traceId := by rw [hnext]
  exact {
    valid := valid_runFromParent _ _
    decided := decided_of_sampled (by rw [htrace]; exact hsampled)
    traceId := htrace
    requestId := by rw [hnext]
    parentSpanId := by rw [hnext]
    otherFlags := by
      rw [hnext]
      exact hother
    isSampled := hsampled.trans hd }

/-! ## Every chain of hops -/

/-- What a context along a chain has in common with the first one. -/
structure SameTrace (sampler : TraceSamplerConfiguration) (first context : TraceContext) :
    Prop where
  valid : context.Valid
  decided : Decided sampler context
  traceId : context.traceId = first.traceId
  requestId : context.requestId = first.requestId
  otherFlags : flagsValue context.traceFlags &&& 0xfe = flagsValue first.traceFlags &&& 0xfe
  isSampled : context.isSampled = first.isSampled

theorem SameTrace.next {sampler : TraceSamplerConfiguration} {first context next : TraceContext}
    (h : SameTrace sampler first context) (hop : HopOk sampler context next) :
    SameTrace sampler first next where
  valid := hop.valid
  decided := hop.decided
  traceId := hop.traceId.trans h.traceId
  requestId := hop.requestId.trans h.requestId
  otherFlags := hop.otherFlags.trans h.otherFlags
  isSampled := hop.isSampled.trans h.isSampled

/-- The induction over the hops: each context is of the trace of the first one, and names the span
before it as its parent. -/
theorem hops_spec {sampler : TraceSamplerConfiguration} {first : TraceContext}
    (list : List (Hop × RandomIds)) {context : TraceContext}
    (h : SameTrace sampler first context) :
    (∀ c ∈ hops sampler context list, SameTrace sampler first c) ∧
      (hops sampler context list).IsChain fun before after =>
        after.parentSpanId = some before.spanId := by
  induction list generalizing context with
  | nil =>
      refine ⟨fun c hc => ?_, List.IsChain.singleton _⟩
      rw [List.mem_singleton.mp hc]
      exact h
  | cons hop rest ih =>
      have hstep := hop_spec h.valid h.decided hop
      obtain ⟨hall, hchain⟩ := ih (h.next hstep)
      constructor
      · intro c hc
        rcases List.mem_cons.mp hc with rfl | hc
        · exact h
        · exact hall c hc
      · -- the rest starts with the context after this hop
        rw [hops]
        cases rest with
        | nil => exact List.IsChain.cons_cons hstep.parentSpanId hchain
        | cons hop' rest' => exact List.IsChain.cons_cons hstep.parentSpanId hchain

/-- The flags of a parsed `traceparent` are two hexadecimal digits. -/
theorem traceFlagsPattern_of_parseTraceparent {value : Option String}
    {traceId spanId flags : String} (h : parseTraceparent value = some (traceId, spanId, flags)) :
    traceFlagsPattern flags = true := by
  unfold parseTraceparent at h
  split at h
  · cases h
  · have hpattern := (Option.filter_eq_some_iff.mp h).1
    unfold traceparentPattern at hpattern
    dsimp only at hpattern
    split_ifs at hpattern with hparts
    obtain ⟨hlength, -, -, -, -, -, hflags⟩ := hparts
    simp only [Option.some.injEq, Prod.mk.injEq] at hpattern
    rw [← hpattern.2.2, traceFlagsPattern, repeats]
    simp only [String.toList_ofList, List.length_drop, hlength, hflags]
    decide

/-- An incoming request is decided by its own sampler, and starts its own trace. -/
theorem sameTrace_createIncoming (sampler : TraceSamplerConfiguration) (ids : RandomIds)
    (traceparent requestId : Option String) :
    SameTrace sampler (createIncoming sampler ids traceparent requestId)
      (createIncoming sampler ids traceparent requestId) where
  valid := valid_createIncoming ids traceparent requestId
  decided := decided_of_sampled (samplingFlags_spec _ _).2.2
  traceId := rfl
  requestId := rfl
  otherFlags := rfl
  isSampled := rfl

/-- What an incoming request takes over of its `traceparent`. -/
theorem createIncoming_of_parsed {sampler : TraceSamplerConfiguration} (ids : RandomIds)
    {traceparent requestId : Option String} {traceId spanId flags : String}
    (h : parseTraceparent traceparent = some (traceId, spanId, flags)) :
    (createIncoming sampler ids traceparent requestId).traceId = traceId ∧
      (createIncoming sampler ids traceparent requestId).parentSpanId = some spanId ∧
      flagsValue (createIncoming sampler ids traceparent requestId).traceFlags &&& 0xfe =
        flagsValue flags &&& 0xfe := by
  refine ⟨by simp [createIncoming, h], by simp [createIncoming, h], ?_⟩
  have hexisting : existingFlags (some flags) = flagsValue flags := by
    rw [existingFlags, Option.filter_some, if_pos (traceFlagsPattern_of_parseTraceparent h)]
    rfl
  have hflags := (@samplingFlags_spec sampler traceId (some flags) true).2.1
  rw [hexisting] at hflags
  simpa [createIncoming, h] using hflags

/-- **Trace propagation.** Along every chain of hops from an incoming request, with any sampler and
any `traceparent`, the trace id, the request id, the sampled bit and the other flags stay those of
the first context, which takes them from a `traceparent` that parses; the parent of each context is
the span before it; and the `traceparent` of each context parses to its trace id, span id and flags.
A trace id that is sampled at some ratio is sampled at every larger one. -/
theorem trace_propagation (sampler : TraceSamplerConfiguration) (ids : RandomIds)
    (traceparent requestId : Option String) (list : List (Hop × RandomIds)) :
    let first := createIncoming sampler ids traceparent requestId
    (∀ context ∈ hops sampler first list,
      context.traceId = first.traceId ∧ context.requestId = first.requestId ∧
      flagsValue context.traceFlags &&& 0xfe = flagsValue first.traceFlags &&& 0xfe ∧
      context.isSampled = first.isSampled ∧
      parseTraceparent (some context.traceparent) =
        some (context.traceId, context.spanId, context.traceFlags)) ∧
    ((hops sampler first list).IsChain fun before after =>
      after.parentSpanId = some before.spanId) ∧
    (∀ traceId spanId flags, parseTraceparent traceparent = some (traceId, spanId, flags) →
      first.traceId = traceId ∧ first.parentSpanId = some spanId ∧
      flagsValue first.traceFlags &&& 0xfe = flagsValue flags &&& 0xfe) ∧
    (∀ raw raw' traceId r r', trim raw ≠ "" → trim raw' ≠ "" → doubleOf raw = some r →
      doubleOf raw' = some r' → 0 ≤ r → r ≤ r' → r' ≤ 1 →
      sampleTraceId (readRatioThreshold (some raw)) traceId = true →
      sampleTraceId (readRatioThreshold (some raw')) traceId = true) := by
  intro first
  obtain ⟨hall, hchain⟩ :=
    hops_spec list (sameTrace_createIncoming sampler ids traceparent requestId)
  refine ⟨fun context hcontext => ?_, hchain, fun traceId spanId flags hparsed =>
    createIncoming_of_parsed ids hparsed, ?_⟩
  · have h := hall context hcontext
    exact ⟨h.traceId, h.requestId, h.otherFlags, h.isSampled,
      parseTraceparent_traceparent h.valid⟩
  · intro raw raw' traceId r r' hblank hblank' hr hr' h0 hle h1 h
    exact sampleTraceId_mono hblank hblank' hr hr' h0 hle h1 h

/-- Random ids. -/
def sampleRandomIds : RandomIds where
  traceId := "0af7651916cd43dd8448eb211c80319c"
  spanId := "b7ad6b7169203331"
  uuid := "3f2504e0-4f89-41d3-9a0c-0305e82c3301"
  validTraceId := by decide
  validSpanId := by decide
  uuidText := by decide

/-- An incoming trace under a sampler of the environment, and two ratios. -/
theorem trace_propagation_sample :
    (createIncoming (readSampler (some "TraceIdRatio") (some "0.75")) sampleRandomIds
      (some " 00-4BF92F3577B34DA6A3CE929D0E0E4736-00f067aa0ba902b7-03") none).parentSpanId =
        some "00f067aa0ba902b7" ∧
    sampleTraceId (readRatioThreshold (some "1")) "4bf92f3577b34da6a3ce929d0e0e4736" = true := by
  obtain ⟨-, -, hparsed, hratio⟩ := trace_propagation
    (readSampler (some "TraceIdRatio") (some "0.75")) sampleRandomIds
    (some " 00-4BF92F3577B34DA6A3CE929D0E0E4736-00f067aa0ba902b7-03") none
    [(.outbox 1 "OTP", sampleRandomIds), (.queue 1 "OTP" 2, sampleRandomIds),
      (.span, sampleRandomIds)]
  constructor
  · exact (hparsed "4bf92f3577b34da6a3ce929d0e0e4736" "00f067aa0ba902b7" "03"
      (by decide)).2.1
  · exact hratio "0.75" "1" "4bf92f3577b34da6a3ce929d0e0e4736" (3 / 4) 1 (by decide)
      (by decide +kernel) (by decide +kernel) (by decide +kernel) (by norm_num) (by norm_num)
      (by norm_num) (by decide +kernel)

end ApiWhatsApp
