import ApiWhatsApp.Library.JavaScript
import Mathlib.Data.Nat.Bitwise

/-!
# Trace contexts

`observability/trace-context.service.ts`: the context of a request, its two codecs and the samplers.

* `TraceContext` is the context that a service runs under, `TraceCarrier` what is handed on.
* `RandomIds` are the random ids that a context may take, each of them well formed; an id of zeros is
  left out.
* `parseTraceparent` and `traceparent` are the text codec, `parseCarrier` and `TraceCarrier.toJson` the
  JSON codec. `JSON.stringify` and `JSON.parse` are inverse on these values, so the JSON value stands
  for its text.
* `samplingFlags` sets the sampled bit of the flags and keeps the others; `TraceSamplerName` has the
  six samplers.
* `TraceContext.Valid` is what all produced contexts have (`valid_createIncoming`,
  `valid_runFromParent`). **`parseTraceparent_traceparent`** and **`parseCarrier_toJson`**: both
  codecs read back what they write.
* **`sampleTraceId_mono`** — a trace id that is sampled at some ratio is sampled at every larger one.
-/

namespace ApiWhatsApp

open Library

/-! ## Patterns -/

/-- `[0-9a-f]`. -/
def isHexDigit (c : Char) : Bool := c.isDigit || ('a' ≤ c && c ≤ 'f')

/-- Source: `TRACE_ID_PATTERN`. -/
def traceIdPattern (text : String) : Bool := repeats isHexDigit 32 32 text

/-- Source: `SPAN_ID_PATTERN`. -/
def spanIdPattern (text : String) : Bool := repeats isHexDigit 16 16 text

/-- Source: `TRACE_FLAGS_PATTERN`. -/
def traceFlagsPattern (text : String) : Bool := repeats isHexDigit 2 2 text

/-- Source: `REQUEST_ID_PATTERN`. -/
def requestIdPattern (text : String) : Bool :=
  repeats (fun c => c.isAlphanum || c ∈ ['.', '_', ':', '@', '/', '-']) 1 128 text

/-- Source: `validTraceId`. -/
def validTraceId (value : String) : Bool :=
  traceIdPattern value && value ≠ "00000000000000000000000000000000"

/-- Source: `validSpanId`. -/
def validSpanId (value : String) : Bool := spanIdPattern value && value ≠ "0000000000000000"

/-- The random ids of one context: `randomBytes(16)` and `randomBytes(8)` in hexadecimal, not zero, and
a `randomUUID()`. -/
structure RandomIds where
  traceId : String
  spanId : String
  uuid : String
  validTraceId : ApiWhatsApp.validTraceId traceId = true
  validSpanId : ApiWhatsApp.validSpanId spanId = true
  uuidText : repeats (fun c => isHexDigit c || c = '-') 36 36 uuid = true

/-! ## Contexts -/

/-- Source: `interface TraceContext`. -/
structure TraceContext where
  requestId : String
  traceId : String
  spanId : String
  parentSpanId : Option String
  traceFlags : String
  deriving DecidableEq

/-- Source: `interface TraceCarrier`. -/
structure TraceCarrier where
  traceId : String
  parentSpanId : Option String
  traceFlags : Option String
  requestId : Option String
  deriving DecidableEq

/-- Source: `type TraceSamplerName`. -/
inductive TraceSamplerName where
  | alwaysOn
  | alwaysOff
  | traceidratio
  | parentbasedAlwaysOn
  | parentbasedAlwaysOff
  | parentbasedTraceidratio
  deriving DecidableEq

/-- Source: `interface TraceSamplerConfiguration`. -/
structure TraceSamplerConfiguration where
  name : TraceSamplerName
  ratioThreshold : ℕ

/-! ## Samplers -/

/-- Source: `TRACE_ID_RATIO_RANGE`. -/
def traceIdRatioRange : ℕ := 2 ^ 63

/-- Source: `TRACE_ID_RATIO_PRECISION`. -/
def traceIdRatioPrecision : ℕ := 2 ^ 53

/-- The threshold of a ratio from 0 to 1. A double times `2^53` is exact. -/
def ratioThreshold (ratio : ℚ) : ℕ :=
  if ratio ≤ 0 then 0
  else if 1 ≤ ratio then traceIdRatioRange
  else ⌊ratio * traceIdRatioPrecision⌋₊ * (traceIdRatioRange / traceIdRatioPrecision)

/-- Source: `readRatioThreshold`. -/
def readRatioThreshold (raw : Option String) : ℕ :=
  match raw.filter fun text => trim text ≠ "" with
  | none => traceIdRatioRange
  | some text =>
      match (doubleOf text).filter fun ratio => 0 ≤ ratio && ratio ≤ 1 with
      | none => traceIdRatioRange
      | some ratio => ratioThreshold ratio

/-- Source: `supportedSampler`. -/
def supportedSampler (value : String) : Option TraceSamplerName :=
  match value with
  | "always_on" => some .alwaysOn
  | "always_off" => some .alwaysOff
  | "traceidratio" => some .traceidratio
  | "parentbased_always_on" => some .parentbasedAlwaysOn
  | "parentbased_always_off" => some .parentbasedAlwaysOff
  | "parentbased_traceidratio" => some .parentbasedTraceidratio
  | _ => none

/-- The sampler of `OTEL_TRACES_SAMPLER` and `OTEL_TRACES_SAMPLER_ARG`. Source: `readSampler`. -/
def readSampler (sampler argument : Option String) : TraceSamplerConfiguration :=
  match supportedSampler (toLowerCase (trim (sampler.getD "parentbased_always_on"))) with
  | none => ⟨.parentbasedAlwaysOn, traceIdRatioRange⟩
  | some .traceidratio => ⟨.traceidratio, readRatioThreshold argument⟩
  | some .parentbasedTraceidratio => ⟨.parentbasedTraceidratio, readRatioThreshold argument⟩
  | some name => ⟨name, traceIdRatioRange⟩

/-- Source: `sampleTraceId`. -/
def sampleTraceId (ratioThreshold : ℕ) (traceId : String) : Bool :=
  if ratioThreshold = 0 then false
  else if traceIdRatioRange ≤ ratioThreshold then true
  else digitsValue 16 (traceId.toList.drop 16) >>> 1 < ratioThreshold

/-- `Number.parseInt(flags, 16)` for two hexadecimal digits. -/
def flagsValue (flags : String) : ℕ := digitsValue 16 flags.toList

/-- `flags.toString(16).padStart(2, "0")` for a byte. -/
def flagsText (flags : ℕ) : String :=
  String.ofList [Nat.digitChar (flags / 16), Nat.digitChar (flags % 16)]

/-- The flags of the parent, 0 without any. Source: `existingFlags` in `samplingFlags`. -/
def existingFlags (parentFlags : Option String) : ℕ :=
  (parentFlags.filter traceFlagsPattern).elim 0 flagsValue

/-- The decision of a sampler; `existing` are the flags of the parent. -/
def sampled (sampler : TraceSamplerConfiguration) (traceId : String) (existing : ℕ)
    (hasParent : Bool) : Bool :=
  match sampler.name with
  | .alwaysOn => true
  | .alwaysOff => false
  | .traceidratio => sampleTraceId sampler.ratioThreshold traceId
  | .parentbasedAlwaysOff => if hasParent then existing &&& 1 = 1 else false
  | .parentbasedTraceidratio =>
      if hasParent then existing &&& 1 = 1 else sampleTraceId sampler.ratioThreshold traceId
  | .parentbasedAlwaysOn => if hasParent then existing &&& 1 = 1 else true

/-- Source: `samplingFlags`. -/
def samplingFlags (sampler : TraceSamplerConfiguration) (traceId : String)
    (parentFlags : Option String) (hasParent : Bool) : String :=
  flagsText ((existingFlags parentFlags &&& 0xfe) |||
    if sampled sampler traceId (existingFlags parentFlags) hasParent then 1 else 0)

/-! ## The text codec -/

/-- Source: `TRACEPARENT_PATTERN`: the groups of a match. -/
def traceparentPattern (text : String) : Option (String × String × String) :=
  let cs := text.toList
  let traceId := (cs.drop 3).take 32
  let spanId := (cs.drop 36).take 16
  let flags := cs.drop 53
  if cs.length = 55 ∧ cs.take 3 = ['0', '0', '-'] ∧ traceId.all isHexDigit ∧ cs[35]? = some '-' ∧
      spanId.all isHexDigit ∧ cs[52]? = some '-' ∧ flags.all isHexDigit then
    some (String.ofList traceId, String.ofList spanId, String.ofList flags)
  else none

/-- Source: `parseTraceparent`: trace id, parent span id and flags. -/
def parseTraceparent (value : Option String) : Option (String × String × String) :=
  match value.filter fun text => text ≠ "" with
  | none => none
  | some text =>
      (traceparentPattern (toLowerCase (trim text))).filter fun (traceId, parentSpanId, _) =>
        validTraceId traceId && validSpanId parentSpanId

/-- Source: `traceparent`. -/
def TraceContext.traceparent (context : TraceContext) : String :=
  "00-" ++ context.traceId ++ "-" ++ context.spanId ++ "-" ++ context.traceFlags

/-! ## The JSON codec -/

/-- The carrier as `JSON.stringify` writes it. -/
def TraceCarrier.toJson (carrier : TraceCarrier) : Json :=
  Json.object [("traceId", some (.str carrier.traceId)),
    ("parentSpanId", carrier.parentSpanId.map .str), ("traceFlags", carrier.traceFlags.map .str),
    ("requestId", carrier.requestId.map .str)]

/-- Source: `parseCarrier`. -/
def parseCarrier (value : Option Json) : Option TraceCarrier := do
  let candidate ← value
  let traceId ← ((candidate.get? "traceId").bind Json.string?).filter validTraceId
  some { traceId := traceId,
         parentSpanId := ((candidate.get? "parentSpanId").bind Json.string?).filter validSpanId,
         traceFlags := ((candidate.get? "traceFlags").bind Json.string?).filter traceFlagsPattern,
         requestId := ((candidate.get? "requestId").bind Json.string?).filter requestIdPattern }

/-! ## Making contexts -/

/-- Source: `safeRequestId`. -/
def safeRequestId (ids : RandomIds) (value : Option String) : String :=
  (value.filter requestIdPattern).getD ids.uuid

/-- Source: `createIncoming`. -/
def createIncoming (sampler : TraceSamplerConfiguration) (ids : RandomIds)
    (traceparent requestId : Option String) : TraceContext :=
  let parsed := parseTraceparent traceparent
  let traceId := parsed.elim ids.traceId fun p => p.1
  { requestId := safeRequestId ids requestId,
    traceId := traceId,
    spanId := ids.spanId,
    parentSpanId := parsed.map fun p => p.2.1,
    traceFlags := samplingFlags sampler traceId (parsed.map fun p => p.2.2) parsed.isSome }

/-- The context under which `runFromParent` runs its callback. -/
def runFromParent (sampler : TraceSamplerConfiguration) (ids : RandomIds)
    (carrier : Option TraceCarrier) : TraceContext :=
  let traceId := ((carrier.map (·.traceId)).filter validTraceId).getD ids.traceId
  let parentSpanId := (carrier.bind (·.parentSpanId)).filter validSpanId
  let parentFlags := ((carrier.bind (·.traceFlags)).filter traceFlagsPattern).or
    (parentSpanId.map fun _ => "01")
  { requestId := safeRequestId ids (carrier.bind (·.requestId)),
    traceId := traceId,
    spanId := ids.spanId,
    parentSpanId := parentSpanId,
    traceFlags := samplingFlags sampler traceId parentFlags parentSpanId.isSome }

/-- Source: `carrier`, under a current context. -/
def TraceContext.carrier (context : TraceContext) : TraceCarrier where
  traceId := context.traceId
  parentSpanId := some context.spanId
  traceFlags := some context.traceFlags
  requestId := some context.requestId

/-! ## Hexadecimal digits -/

/-- The digits, by their codes. -/
theorem isDigit_iff (c : Char) : c.isDigit = true ↔ 48 ≤ c.toNat ∧ c.toNat ≤ 57 := by
  simp only [Char.isDigit, ge_iff_le, Bool.and_eq_true, decide_eq_true_eq, UInt32.le_iff_toNat_le]
  exact Iff.rfl

/-- The codes of the hexadecimal digits. -/
theorem isHexDigit_iff (c : Char) : isHexDigit c = true ↔
    (48 ≤ c.toNat ∧ c.toNat ≤ 57) ∨ (97 ≤ c.toNat ∧ c.toNat ≤ 102) := by
  rw [isHexDigit, Bool.or_eq_true, isDigit_iff]
  simp only [Bool.and_eq_true, decide_eq_true_eq, Char.le_def, UInt32.le_iff_toNat_le]
  exact Iff.rfl

/-- The characters of a `traceparent` are no white space and their own lower case. -/
theorem lowerTable_chars_of_isHexDigit {c : Char} (h : isHexDigit c = true ∨ c = '-') :
    lowerTable.chars c = [c] ∧ isStrWhiteSpace c = false := by
  have hcode : (48 ≤ c.toNat ∧ c.toNat ≤ 57) ∨ (97 ≤ c.toNat ∧ c.toNat ≤ 102) ∨ c.toNat = 45 := by
    rcases h with h | rfl
    · rcases (isHexDigit_iff c).mp h with h | h
      · exact .inl h
      · exact .inr (.inl h)
    · exact .inr (.inr rfl)
  constructor
  · have hlower : c.toLower = c := by
      refine char_eq_of_toNat ?_
      rw [toNat_toLower]
      split_ifs <;> omega
    rw [CaseTable.chars, if_pos (by omega)]
    exact congrArg (fun d => [d]) hlower
  · simp only [isStrWhiteSpace, Bool.or_eq_false_iff, decide_eq_false_iff_not, List.mem_cons,
      List.not_mem_nil, or_false, Bool.and_eq_false_iff]
    omega

/-- The value of a hexadecimal digit. -/
theorem digitValue_lt {c : Char} (h : isHexDigit c = true) : digitValue c < 16 := by
  rw [isHexDigit_iff] at h
  rw [digitValue]
  split_ifs with hdigit
  · rw [isDigit_iff] at hdigit
    omega
  · rw [isDigit_iff] at hdigit
    rw [toNat_toLower]
    split_ifs <;> omega

/-- Two hexadecimal digits are a byte. -/
theorem flagsValue_lt {flags : String} (h : traceFlagsPattern flags = true) :
    flagsValue flags < 256 := by
  simp only [traceFlagsPattern, repeats, Bool.and_eq_true, decide_eq_true_eq, List.all_eq_true] at h
  obtain ⟨⟨hmin, hmax⟩, hall⟩ := h
  obtain ⟨a, b, hflags⟩ := List.length_eq_two.mp (Nat.le_antisymm hmax hmin)
  rw [hflags] at hall
  have ha := digitValue_lt (hall a (by simp))
  have hb := digitValue_lt (hall b (by simp))
  simp only [flagsValue, hflags, digitsValue, List.foldl_cons, List.foldl_nil]
  omega

/-- The digits of a byte. -/
theorem flagsText_spec : ∀ n < 256, flagsValue (flagsText n) = n ∧
    traceFlagsPattern (flagsText n) = true := by
  decide +kernel

/-! ## Flags -/

variable {sampler : TraceSamplerConfiguration} {traceId : String}

/-- Flags are a byte. -/
theorem existingFlags_lt (parentFlags : Option String) : existingFlags parentFlags < 256 := by
  unfold existingFlags
  cases h : parentFlags.filter traceFlagsPattern with
  | none => decide
  | some flags => exact flagsValue_lt (Option.filter_eq_some_iff.mp h).2

/-- A byte with its lowest bit set anew. -/
theorem setBit_spec : ∀ n < 256, ∀ b : Bool,
    ((n &&& 0xfe) ||| if b then 1 else 0) < 256 ∧
    ((n &&& 0xfe) ||| if b then 1 else 0) &&& 0xfe = n &&& 0xfe ∧
    decide (((n &&& 0xfe) ||| if b then 1 else 0) &&& 1 = 1) = b := by
  decide +kernel

/-- What `samplingFlags` returns: two digits, with the bits of the parent except the lowest, which is
the decision of the sampler. -/
theorem samplingFlags_spec (parentFlags : Option String) (hasParent : Bool) :
    traceFlagsPattern (samplingFlags sampler traceId parentFlags hasParent) = true ∧
    flagsValue (samplingFlags sampler traceId parentFlags hasParent) &&& 0xfe =
      existingFlags parentFlags &&& 0xfe ∧
    decide (flagsValue (samplingFlags sampler traceId parentFlags hasParent) &&& 1 = 1) =
      sampled sampler traceId (existingFlags parentFlags) hasParent := by
  obtain ⟨hlt, hbits, hbit⟩ := setBit_spec _ (existingFlags_lt parentFlags)
    (sampled sampler traceId (existingFlags parentFlags) hasParent)
  obtain ⟨hvalue, hpattern⟩ := flagsText_spec _ hlt
  refine ⟨hpattern, ?_, ?_⟩
  · rw [samplingFlags, hvalue]
    exact hbits
  · rw [samplingFlags, hvalue]
    exact hbit

/-! ## Produced contexts -/

/-- What all produced contexts have. -/
structure TraceContext.Valid (context : TraceContext) : Prop where
  traceId : validTraceId context.traceId = true
  spanId : validSpanId context.spanId = true
  traceFlags : traceFlagsPattern context.traceFlags = true
  requestId : requestIdPattern context.requestId = true

/-- A random UUID is a request id. -/
theorem requestIdPattern_uuid (ids : RandomIds) : requestIdPattern ids.uuid = true := by
  have h := ids.uuidText
  simp only [repeats, Bool.and_eq_true, decide_eq_true_eq, List.all_eq_true] at h
  obtain ⟨⟨hmin, hmax⟩, hall⟩ := h
  simp only [requestIdPattern, repeats, Bool.and_eq_true, decide_eq_true_eq, List.all_eq_true]
  refine ⟨⟨by omega, by omega⟩, fun c hc => ?_⟩
  rcases Bool.or_eq_true_iff.mp (hall c hc) with hhex | hdash
  · have hcode := (isHexDigit_iff c).mp hhex
    have halnum : c.isAlphanum = true := by
      have hunfold : c.isAlphanum = ((decide (c.val ≥ 'A'.val ∧ c.val ≤ 'Z'.val) ||
        (c.val ≥ 'a'.val && c.val ≤ 'z'.val)) || c.isDigit) := rfl
      rw [hunfold]
      simp only [Bool.or_eq_true, isDigit_iff, ge_iff_le, Bool.and_eq_true, decide_eq_true_eq,
        UInt32.le_iff_toNat_le]
      have hletters : 'a'.val.toNat = 97 ∧ 'z'.val.toNat = 122 := by decide
      have hval : c.val.toNat = c.toNat := rfl
      omega
    rw [halnum]
    rfl
  · rw [of_decide_eq_true hdash]
    decide

/-- A request id that is kept or made fits the pattern. -/
theorem requestIdPattern_safeRequestId (ids : RandomIds) (value : Option String) :
    requestIdPattern (safeRequestId ids value) = true := by
  unfold safeRequestId
  cases h : value.filter requestIdPattern with
  | none => exact requestIdPattern_uuid ids
  | some text => exact (Option.filter_eq_some_iff.mp h).2

/-- A parsed `traceparent` has valid ids. -/
theorem valid_of_parseTraceparent {value : Option String} {traceId spanId flags : String}
    (h : parseTraceparent value = some (traceId, spanId, flags)) :
    validTraceId traceId = true ∧ validSpanId spanId = true := by
  unfold parseTraceparent at h
  split at h
  · cases h
  · have hvalid := (Option.filter_eq_some_iff.mp h).2
    simpa using hvalid

/-- What is created from a request is valid. -/
theorem valid_createIncoming (ids : RandomIds) (traceparent requestId : Option String) :
    (createIncoming sampler ids traceparent requestId).Valid where
  traceId := by
    rw [createIncoming]
    cases hparsed : parseTraceparent traceparent with
    | none => exact ids.validTraceId
    | some parsed => exact (valid_of_parseTraceparent hparsed).1
  spanId := ids.validSpanId
  traceFlags := (samplingFlags_spec _ _).1
  requestId := requestIdPattern_safeRequestId ids requestId

/-- What goes on from a parent is valid. -/
theorem valid_runFromParent (ids : RandomIds) (carrier : Option TraceCarrier) :
    (runFromParent sampler ids carrier).Valid where
  traceId := by
    rw [runFromParent]
    dsimp only
    cases htrace : (carrier.map (·.traceId)).filter validTraceId with
    | none => exact ids.validTraceId
    | some traceId => exact (Option.filter_eq_some_iff.mp htrace).2
  spanId := ids.validSpanId
  traceFlags := (samplingFlags_spec _ _).1
  requestId := requestIdPattern_safeRequestId ids _

/-! ## The codecs read back what they write -/

/-- A text of exactly `n` characters of a class. -/
theorem of_repeats {p : Char → Bool} {n : ℕ} {text : String} (h : repeats p n n text = true) :
    text.toList.length = n ∧ ∀ c ∈ text.toList, p c = true := by
  simp only [repeats, Bool.and_eq_true, decide_eq_true_eq, List.all_eq_true] at h
  exact ⟨Nat.le_antisymm h.1.2 h.1.1, h.2⟩

/-- The groups of a text with the parts of a `traceparent`. -/
theorem traceparentPattern_of_parts {text : String} {traceId spanId flags : List Char}
    (htext : text.toList = '0' :: '0' :: '-' :: (traceId ++ '-' :: (spanId ++ '-' :: flags)))
    (htrace : traceId.length = 32) (hspan : spanId.length = 16) (hflags : flags.length = 2)
    (hall : ∀ c ∈ traceId ++ spanId ++ flags, isHexDigit c = true) :
    traceparentPattern text =
      some (String.ofList traceId, String.ofList spanId, String.ofList flags) := by
  have hdrop36 : text.toList.drop 36 = spanId ++ '-' :: flags := by
    rw [htext]
    simp [List.drop_append, htrace]
  have hdrop53 : text.toList.drop 53 = flags := by
    have hsplit : text.toList.drop 53 = (text.toList.drop 36).drop 17 := by rw [List.drop_drop]
    have hparts : spanId ++ '-' :: flags = (spanId ++ ['-']) ++ flags := by simp
    rw [hsplit, hdrop36, hparts]
    exact List.drop_left' (by simp [hspan])
  have hlength : text.toList.length = 55 := by
    rw [htext]
    simp only [List.length_cons, List.length_append, htrace, hspan, hflags]
  have htake : (text.toList.drop 3).take 32 = traceId := by
    rw [htext]
    simp [htrace]
  have hdashes : text.toList[35]? = some '-' ∧ text.toList[52]? = some '-' := by
    rw [htext]
    constructor
    · simp [htrace]
    · simp [List.getElem?_append, htrace, hspan]
  have htraceAll : traceId.all isHexDigit = true :=
    List.all_eq_true.mpr fun c hc => hall c (by simp [hc])
  have hspanAll : spanId.all isHexDigit = true :=
    List.all_eq_true.mpr fun c hc => hall c (by simp [hc])
  have hflagsAll : flags.all isHexDigit = true :=
    List.all_eq_true.mpr fun c hc => hall c (by simp [hc])
  have htakeSpan : (text.toList.drop 36).take 16 = spanId := by
    rw [hdrop36]
    simp [hspan]
  have hhead : text.toList.take 3 = ['0', '0', '-'] := by
    rw [htext]
    rfl
  simp only [traceparentPattern, htake, htakeSpan, hdrop53, hlength, hhead, hdashes.1, hdashes.2,
    htraceAll, hspanAll, hflagsAll, and_self, if_true]

/-- **The text codec** reads back the trace id, span id and flags of a valid context. -/
theorem parseTraceparent_traceparent {context : TraceContext} (h : context.Valid) :
    parseTraceparent (some context.traceparent) =
      some (context.traceId, context.spanId, context.traceFlags) := by
  have htrace := h.traceId
  have hspan := h.spanId
  simp only [validTraceId, validSpanId, Bool.and_eq_true] at htrace hspan
  obtain ⟨htraceLength, htraceAll⟩ := of_repeats htrace.1
  obtain ⟨hspanLength, hspanAll⟩ := of_repeats hspan.1
  obtain ⟨hflagsLength, hflagsAll⟩ := of_repeats h.traceFlags
  have htext : context.traceparent.toList = '0' :: '0' :: '-' :: (context.traceId.toList ++
      '-' :: (context.spanId.toList ++ '-' :: context.traceFlags.toList)) := by
    simp [TraceContext.traceparent]
  have hchars : ∀ c ∈ context.traceparent.toList, isHexDigit c = true ∨ c = '-' := by
    intro c hc
    rw [htext] at hc
    simp only [List.mem_cons, List.mem_append] at hc
    rcases hc with rfl | rfl | rfl | hc | rfl | hc | rfl | hc
    · exact .inl (by decide)
    · exact .inl (by decide)
    · exact .inr rfl
    · exact .inl (htraceAll c hc)
    · exact .inr rfl
    · exact .inl (hspanAll c hc)
    · exact .inr rfl
    · exact .inl (hflagsAll c hc)
  have hne : context.traceparent ≠ "" := by
    intro hempty
    rw [hempty] at htext
    cases htext
  have hpattern := traceparentPattern_of_parts htext htraceLength hspanLength hflagsLength (by
    intro c hc
    simp only [List.mem_append] at hc
    rcases hc with (hc | hc) | hc
    · exact htraceAll c hc
    · exact hspanAll c hc
    · exact hflagsAll c hc)
  simp only [String.ofList_toList] at hpattern
  rw [parseTraceparent, Option.filter_some, if_pos (by simpa using hne)]
  dsimp only
  rw [trim_of_forall fun c hc => (lowerTable_chars_of_isHexDigit (hchars c hc)).2,
    toLowerCase_of_forall fun c hc => (lowerTable_chars_of_isHexDigit (hchars c hc)).1, hpattern,
    Option.filter_some, if_pos]
  simp [h.traceId, h.spanId]

/-- Every field of a carrier passes its test. -/
structure TraceCarrier.WellFormed (carrier : TraceCarrier) : Prop where
  traceId : validTraceId carrier.traceId = true
  parentSpanId : ∀ value ∈ carrier.parentSpanId, validSpanId value = true
  traceFlags : ∀ value ∈ carrier.traceFlags, traceFlagsPattern value = true
  requestId : ∀ value ∈ carrier.requestId, requestIdPattern value = true

/-- A valid context is carried well formed. -/
theorem TraceContext.Valid.carrier {context : TraceContext} (h : context.Valid) :
    context.carrier.WellFormed where
  traceId := h.traceId
  parentSpanId := by
    rintro value ⟨⟩
    exact h.spanId
  traceFlags := by
    rintro value ⟨⟩
    exact h.traceFlags
  requestId := by
    rintro value ⟨⟩
    exact h.requestId

/-- What is read of an optional text that passes its test. -/
theorem filter_bind_string {p : String → Bool} {text : Option String}
    (h : ∀ value ∈ text, p value = true) :
    ((text.map Json.str).bind Json.string?).filter p = text := by
  rw [Json.bind_string_str]
  cases text with
  | none => rfl
  | some value => rw [Option.filter_some, if_pos (h value rfl)]

/-- **The JSON codec** reads back a carrier whose fields pass their tests. -/
theorem parseCarrier_toJson {carrier : TraceCarrier} (h : carrier.WellFormed) :
    parseCarrier (some carrier.toJson) = some carrier := by
  have hget : ∀ key, carrier.toJson.get? key =
      (List.lookup key [("traceId", some (Json.str carrier.traceId)),
        ("parentSpanId", carrier.parentSpanId.map .str), ("traceFlags", carrier.traceFlags.map .str),
        ("requestId", carrier.requestId.map .str)]).join := by
    intro key
    exact Json.get?_object (by simp) key
  have htrace : (carrier.toJson.get? "traceId") = (some carrier.traceId).map .str := hget _
  have hparent : (carrier.toJson.get? "parentSpanId") = carrier.parentSpanId.map .str := hget _
  have hflags : (carrier.toJson.get? "traceFlags") = carrier.traceFlags.map .str := hget _
  have hrequest : (carrier.toJson.get? "requestId") = carrier.requestId.map .str := hget _
  have hid : ∀ value ∈ some carrier.traceId, validTraceId value = true := by
    rintro value ⟨⟩
    exact h.traceId
  simp only [parseCarrier, htrace, hparent, hflags, hrequest, filter_bind_string hid,
    filter_bind_string h.parentSpanId, filter_bind_string h.traceFlags,
    filter_bind_string h.requestId, Option.bind_eq_bind, Option.bind_some]

/-! ## Ratios -/

/-- A larger threshold samples more. -/
theorem sampleTraceId_of_le {t t' : ℕ} (hle : t ≤ t') (h : sampleTraceId t traceId = true) :
    sampleTraceId t' traceId = true := by
  unfold sampleTraceId at h ⊢
  split_ifs at h with hzero hfull
  · have hpos : t' ≠ 0 := by omega
    rw [if_neg hpos, if_pos (hfull.trans hle)]
  · have hpos : t' ≠ 0 := by omega
    rw [if_neg hpos]
    split_ifs
    · rfl
    · rw [decide_eq_true_eq] at h ⊢
      omega

/-- No threshold is above the range. -/
theorem ratioThreshold_le (ratio : ℚ) : ratioThreshold ratio ≤ traceIdRatioRange := by
  unfold ratioThreshold
  split_ifs with hzero hone
  · exact Nat.zero_le _
  · exact le_rfl
  · have hfloor : ⌊ratio * traceIdRatioPrecision⌋₊ ≤ traceIdRatioPrecision := by
      refine Nat.floor_le_of_le ?_
      have hnonneg : (0 : ℚ) ≤ traceIdRatioPrecision := Nat.cast_nonneg _
      exact mul_le_of_le_one_left hnonneg (not_le.mp hone).le
    calc ⌊ratio * traceIdRatioPrecision⌋₊ * (traceIdRatioRange / traceIdRatioPrecision)
        ≤ traceIdRatioPrecision * (traceIdRatioRange / traceIdRatioPrecision) :=
          Nat.mul_le_mul_right _ hfloor
      _ ≤ traceIdRatioRange := Nat.mul_div_le _ _

/-- A larger ratio has a larger threshold. -/
theorem ratioThreshold_mono {r r' : ℚ} (h : r ≤ r') : ratioThreshold r ≤ ratioThreshold r' := by
  by_cases hone : 1 ≤ r'
  · have hfull : ratioThreshold r' = traceIdRatioRange := by
      rw [ratioThreshold, if_neg (by linarith), if_pos hone]
    rw [hfull]
    exact ratioThreshold_le r
  · by_cases hzero : r ≤ 0
    · rw [ratioThreshold, if_pos hzero]
      exact Nat.zero_le _
    · rw [ratioThreshold, if_neg hzero, if_neg (by linarith), ratioThreshold, if_neg (by linarith),
        if_neg hone]
      refine Nat.mul_le_mul_right _ (Nat.floor_le_floor ?_)
      exact mul_le_mul_of_nonneg_right h (Nat.cast_nonneg _)

/-- The threshold that a configured ratio is read as. -/
theorem readRatioThreshold_of_ratio {raw : String} {r : ℚ} (hblank : trim raw ≠ "")
    (hr : doubleOf raw = some r) (h0 : 0 ≤ r) (h1 : r ≤ 1) :
    readRatioThreshold (some raw) = ratioThreshold r := by
  rw [readRatioThreshold, Option.filter_some, if_pos (by simpa using hblank)]
  dsimp only
  rw [hr, Option.filter_some, if_pos (by simp [h0, h1])]

/-- **Ratios.** A trace id that is sampled at some configured ratio is sampled at every larger
one. -/
theorem sampleTraceId_mono {raw raw' : String} {r r' : ℚ} (hblank : trim raw ≠ "")
    (hblank' : trim raw' ≠ "") (hr : doubleOf raw = some r) (hr' : doubleOf raw' = some r')
    (h0 : 0 ≤ r) (hle : r ≤ r') (h1 : r' ≤ 1)
    (h : sampleTraceId (readRatioThreshold (some raw)) traceId = true) :
    sampleTraceId (readRatioThreshold (some raw')) traceId = true := by
  rw [readRatioThreshold_of_ratio hblank hr h0 (hle.trans h1)] at h
  rw [readRatioThreshold_of_ratio hblank' hr' (h0.trans hle) h1]
  exact sampleTraceId_of_le (ratioThreshold_mono hle) h

end ApiWhatsApp
