import ApiWhatsApp.Config.ProductionConfig

/-!
# The configuration of the trace exporter

`readConfiguration` of `observability/otlp-trace-exporter.service.ts` and the readers that it calls.
An environment without an endpoint leaves the exporter off, and so does one that a reader rejects.

* `OtlpExporterConfiguration.Bounded` is what the queue of the exporter relies on;
  **`bounded_of_exporterConfiguration`**: every configuration that is read has it.
-/

namespace ApiWhatsApp

open Library

/-! ## `decodeURIComponent` -/

/-- A character, or a byte that is escaped. -/
abbrev UriUnit := Char ⊕ UInt8

/-- A hexadecimal digit, in either case. -/
def isHexDigitAnyCase (c : Char) : Bool :=
  c.isDigit || ('a' ≤ c && c ≤ 'f') || ('A' ≤ c && c ≤ 'F')

/-- What `decodeURIComponent` reads: characters and escapes. -/
def uriUnits : List Char → Option (List UriUnit)
  | [] => some []
  | '%' :: high :: low :: rest =>
      if isHexDigitAnyCase high && isHexDigitAnyCase low then
        (uriUnits rest).map fun units => .inr (UInt8.ofNat (digitsValue 16 [high, low])) :: units
      else none
  | '%' :: _ => none
  | c :: rest => (uriUnits rest).map fun units => .inl c :: units

/-- The bytes of a run are strict UTF-8; `pending` are the ones of the run so far. -/
def decodeUnits (pending : List UInt8) : List UriUnit → Option (List Char)
  | [] => (String.fromUTF8? ⟨pending.toArray⟩).map String.toList
  | .inr byte :: rest => decodeUnits (pending ++ [byte]) rest
  | .inl c :: rest => do
      let decoded ← String.fromUTF8? ⟨pending.toArray⟩
      let after ← decodeUnits [] rest
      some (decoded.toList ++ c :: after)

/-- `decodeURIComponent(text)`; `none` when it throws. -/
def decodeURIComponent (text : String) : Option String :=
  ((uriUnits text.toList).bind (decodeUnits [])).map String.ofList

/-! ## Readers -/

/-- Source: `interface OtlpExporterConfiguration`. -/
structure OtlpExporterConfiguration where
  endpoint : ParsedUrl
  headers : List (String × String)
  timeoutMs : ℕ
  maxQueueSize : ℕ
  maxBatchSize : ℕ
  scheduleDelayMs : ℕ
  serviceName : String

namespace OtlpExporterConfiguration

/-- Source: `parseEndpoint`. -/
def parseEndpoint (host : Host) (raw : String) : Except String ParsedUrl :=
  match host.newUrl raw with
  | none => .error "OTLP trace endpoint must be an absolute URL"
  | some endpoint =>
      if endpoint.protocol ≠ "http:" && endpoint.protocol ≠ "https:" then
        .error "OTLP trace endpoint must use HTTP or HTTPS"
      else if endpoint.username ≠ "" || endpoint.password ≠ "" || endpoint.hash ≠ "" then
        .error "OTLP trace endpoint cannot contain credentials or a fragment"
      else .ok endpoint

/-- Source: `traceEndpointFromGeneric`. -/
def traceEndpointFromGeneric (endpoint : ParsedUrl) : ParsedUrl :=
  { endpoint with
    pathname := String.ofList (endpoint.pathname.toList.rdropWhile (· = '/')) ++ "/v1/traces" }

/-- `result[name] = value`; a text is no prototype, so that `__proto__` stays what it is. -/
def setHeader (name value : String) (headers : List (String × String)) : List (String × String) :=
  if name = "__proto__" then headers
  else if headers.any fun header => header.1 = name then
    headers.map fun header => if header.1 = name then (name, value) else header
  else headers ++ [(name, value)]

/-- A character of a header name. -/
def isHeaderNameChar (c : Char) : Bool :=
  c.isDigit || ('a' ≤ c && c ≤ 'z') || c ∈ "!#$%&'*+.^_`|~-".toList

/-- One round of the loop in `parseHeaders`. -/
def parseHeader (result : List (String × String)) (entry : List Char) :
    Except String (List (String × String)) :=
  let separator := entry.idxOf '='
  if separator = 0 || separator = entry.length then
    .error "Invalid OTLP exporter header configuration"
  else
    let name := toLowerCase (trim (String.ofList (entry.take separator)))
    let encodedValue := trim (String.ofList (entry.drop (separator + 1)))
    if name = "" || !name.toList.all isHeaderNameChar then
      .error "Invalid OTLP exporter header name"
    else
      match decodeURIComponent encodedValue with
      | none => .error "Invalid OTLP exporter header value"
      | some value =>
          if '\r' ∈ value.toList || '\n' ∈ value.toList then
            .error "Invalid OTLP exporter header value"
          else .ok (setHeader name value result)

/-- Source: `parseHeaders`. -/
def parseHeaders (raw : Option String) : Except String (List (String × String)) :=
  match raw.filter fun text => trim text ≠ "" with
  | none => .ok []
  | some text => (text.toList.splitOn ',').foldlM parseHeader []

/-- Source: `readHeaders`. -/
def readHeaders (env : EnvironmentConfig) : Except String (List (String × String)) := do
  let generic ← parseHeaders (env "OTEL_EXPORTER_OTLP_HEADERS")
  let traces ← parseHeaders (env "OTEL_EXPORTER_OTLP_TRACES_HEADERS")
  let headers := traces.foldl (fun headers header => setHeader header.1 header.2 headers) generic
  .ok (headers.filter fun header =>
    header.1 ∉ ["content-type", "content-length", "host", "connection", "transfer-encoding"])

/-- Source: `readInteger`. -/
def readInteger (raw : Option String) (fallback minimum maximum : ℕ) : Except String ℕ :=
  match raw.filter fun text => trim text ≠ "" with
  | none => .ok fallback
  | some text =>
      match (doubleOf text).filter (isIntegerBetween minimum maximum) with
      | some value => .ok ⌊value⌋₊
      | none =>
          .error s!"OpenTelemetry integer setting must be between {minimum} and {maximum}"

/-- Source: `readConfiguration`. -/
def readConfiguration (host : Host) (env : EnvironmentConfig) :
    Except String (Option OtlpExporterConfiguration) :=
  let tracesEndpoint := env.text "OTEL_EXPORTER_OTLP_TRACES_ENDPOINT"
  let genericEndpoint := env.text "OTEL_EXPORTER_OTLP_ENDPOINT"
  if tracesEndpoint = "" && genericEndpoint = "" then .ok none
  else
    let protocol := toLowerCase (trim (((env "OTEL_EXPORTER_OTLP_TRACES_PROTOCOL").or
      (env "OTEL_EXPORTER_OTLP_PROTOCOL")).getD "http/json"))
    if protocol ≠ "http/json" then .error "Only OTLP HTTP/JSON trace export is supported"
    else do
      let endpoint ←
        if tracesEndpoint ≠ "" then parseEndpoint host tracesEndpoint
        else (parseEndpoint host genericEndpoint).map traceEndpointFromGeneric
      let timeoutMs ← readInteger
        ((env "OTEL_EXPORTER_OTLP_TRACES_TIMEOUT").or (env "OTEL_EXPORTER_OTLP_TIMEOUT"))
        10000 1 60000
      let maxQueueSize ← readInteger (env "OTEL_BSP_MAX_QUEUE_SIZE") 2048 1 10000
      let maxBatchSize ← readInteger (env "OTEL_BSP_MAX_EXPORT_BATCH_SIZE")
        (min 512 maxQueueSize) 1 maxQueueSize
      let scheduleDelayMs ← readInteger (env "OTEL_BSP_SCHEDULE_DELAY") 5000 100 60000
      let serviceName := orDefault (env.text "OTEL_SERVICE_NAME") "apiWhatsApp"
      let headers ← readHeaders env
      .ok (some { endpoint, headers, timeoutMs, maxQueueSize, maxBatchSize, scheduleDelayMs
                  serviceName := slice serviceName 128 })

/-- The configuration that the constructor keeps. -/
def exporterConfiguration (host : Host) (env : EnvironmentConfig) :
    Option OtlpExporterConfiguration :=
  match readConfiguration host env with
  | .ok configuration => configuration
  | .error _ => none

/-! ## Bounds -/

/-- What the queue relies on. -/
structure Bounded (config : OtlpExporterConfiguration) : Prop where
  batch : 1 ≤ config.maxBatchSize
  queue : config.maxBatchSize ≤ config.maxQueueSize
  limit : config.maxQueueSize ≤ 10000

/-- A setting is within its bounds, whatever it was read from. -/
theorem readInteger_mem {raw : Option String} {fallback minimum maximum n : ℕ}
    (hfallback : minimum ≤ fallback ∧ fallback ≤ maximum)
    (h : readInteger raw fallback minimum maximum = .ok n) : minimum ≤ n ∧ n ≤ maximum := by
  unfold readInteger at h
  split at h
  · cases h
    exact hfallback
  · split at h
    · next value hvalue =>
        cases h
        obtain ⟨-, hbetween⟩ := Option.filter_eq_some_iff.mp hvalue
        simp only [isIntegerBetween, Bool.and_eq_true, decide_eq_true_eq] at hbetween
        exact ⟨Nat.le_floor hbetween.1.2, Nat.floor_le_of_le hbetween.2⟩
    · cases h

/-- **Every configuration that is read is within its bounds.** -/
theorem bounded_of_exporterConfiguration {host : Host} {env : EnvironmentConfig}
    {config : OtlpExporterConfiguration}
    (h : exporterConfiguration host env = some config) : config.Bounded := by
  unfold exporterConfiguration at h
  split at h
  · next configuration hread =>
      subst h
      unfold readConfiguration at hread
      dsimp only at hread
      split_ifs at hread
      · cases hread
      all_goals
        obtain ⟨endpoint, -, hread⟩ := bind_eq_ok.mp hread
        obtain ⟨timeoutMs, -, hread⟩ := bind_eq_ok.mp hread
        obtain ⟨maxQueueSize, hqueue, hread⟩ := bind_eq_ok.mp hread
        obtain ⟨maxBatchSize, hbatch, hread⟩ := bind_eq_ok.mp hread
        obtain ⟨scheduleDelayMs, -, hread⟩ := bind_eq_ok.mp hread
        obtain ⟨headers, -, hread⟩ := bind_eq_ok.mp hread
        cases hread
        have hsize := readInteger_mem (by omega) hqueue
        have hbounds := readInteger_mem (by omega) hbatch
        exact ⟨hbounds.1, hbounds.2, hsize.2⟩
  · cases h

end OtlpExporterConfiguration

end ApiWhatsApp
