import ApiWhatsApp.Library.JavaScript
import Mathlib.Data.List.Infix

/-!
# Validation of the production configuration

`config/production-config.validator.ts`: what the API and the worker check of their environment
before they start.

* `EnvironmentConfig` is the environment: a text for each variable that is set.
* `Host` has the functions of Node.js that the checks call: `new URL`, `isAbsolute`, `resolve`, `sep`.
* Each check returns the issues that it pushes, in order; `validateProductionConfig` throws when there
  are any.
* The three checks of numbers are one, `validateNumber`, with the test and the reason of each.
-/

namespace ApiWhatsApp

open Library

/-- The environment: the variables that are set. -/
abbrev EnvironmentConfig := String → Option String

/-- Source: `interface ValidationIssue`. -/
structure ValidationIssue where
  name : String
  reason : String
  deriving DecidableEq, Repr

/-- What the checks read of a `URL`. -/
structure ParsedUrl where
  protocol : String
  username : String
  password : String
  pathname : String
  search : String
  hash : String
  deriving DecidableEq

/-- The functions of Node.js that the configuration is read with. -/
structure Host where
  /-- `new URL(text)`; `none` when it throws. -/
  newUrl : String → Option ParsedUrl
  isAbsolute : String → Bool
  resolve : String → String
  sep : String

/-- The path is not absolute, or the root of the file system. -/
def Host.isUnsafePath (host : Host) (path : String) : Bool :=
  !host.isAbsolute path || host.resolve path = host.sep

/-- Source: `type ProductionConfigProfile`. -/
inductive ProductionConfigProfile where
  | api
  | worker
  deriving DecidableEq

def ProductionConfigProfile.name : ProductionConfigProfile → String
  | api => "api"
  | worker => "worker"

/-! ## Patterns -/

/-- `[a-z0-9]`. -/
def isLowerAlphanum (c : Char) : Bool := c.isLower || c.isDigit

/-- Source: `EXACT_GIT_SHA`. -/
def exactGitSha (text : String) : Bool :=
  repeats (fun c => c.isDigit || ('a' ≤ c && c ≤ 'f')) 40 40 text

/-- Source: `META_GRAPH_VERSION`. -/
def metaGraphVersion (text : String) : Bool :=
  match text.toList with
  | 'v' :: rest =>
      match rest.dropWhile Char.isDigit with
      | '.' :: minor =>
          !(rest.takeWhile Char.isDigit).isEmpty && !minor.isEmpty && minor.all Char.isDigit
      | _ => false
  | _ => false

/-- Source: `S3_BUCKET`. -/
def s3Bucket (text : String) : Bool :=
  repeats (fun c => isLowerAlphanum c || c = '.' || c = '-') 3 63 text &&
    text.toList.head?.any isLowerAlphanum && text.toList.getLast?.any isLowerAlphanum

/-- Source: `S3_REGION`. -/
def s3Region (text : String) : Bool := repeats (fun c => isLowerAlphanum c || c = '-') 1 64 text

/-- `bucket.includes("..")`. -/
def hasDoubleDot (text : String) : Bool := ['.', '.'] <:+: text.toList

/-- Source: `UNSAFE_API_KEY_SECRET`. -/
def unsafeApiKeySecret : String := "replace-with-a-long-random-secret"

/-! ## Tests of numbers -/

/-- `Number.isInteger(value) && minimum <= value && value <= maximum`. -/
def isIntegerBetween (minimum maximum : ℕ) (value : ℚ) : Bool :=
  value.isInt && (minimum : ℚ) ≤ value && value ≤ maximum

/-- `Number.isSafeInteger(value) && minimum <= value`. -/
def isSafeIntegerFrom (minimum : ℕ) (value : ℚ) : Bool :=
  value.isInt && |value| ≤ 2 ^ 53 - 1 && (minimum : ℚ) ≤ value

/-- `Number.isFinite(value) && minimum <= value && value <= maximum`. -/
def isNumberBetween (minimum maximum : ℕ) (value : ℚ) : Bool :=
  (minimum : ℚ) ≤ value && value ≤ maximum

/-- `value || fallback` for a text. -/
def orDefault (value fallback : String) : String := if value = "" then fallback else value

namespace EnvironmentConfig

variable (host : Host) (config : EnvironmentConfig)

/-- Source: `text`. -/
def text (name : String) : String := (config name).elim "" trim

/-- Source: `requireText`, whose value is `text config name` in every case. -/
def requireText (name : String) (minimumLength : ℕ) : List ValidationIssue :=
  if config.text name = "" then [⟨name, "is required"⟩]
  else if utf16Length (config.text name) < minimumLength then
    [⟨name, s!"must contain at least {minimumLength} characters"⟩]
  else []

/-- Source: the options of `validateUrl`. -/
structure UrlOptions where
  required : Bool := false
  forbidCredentials : Bool := false
  forbidQueryOrFragment : Bool := false

/-- Source: `validateUrl`. -/
def validateUrl (name : String) (protocols : List String) (options : UrlOptions) :
    Option ParsedUrl × List ValidationIssue :=
  if config.text name = "" then (none, if options.required then [⟨name, "is required"⟩] else [])
  else match host.newUrl (config.text name) with
    | none => (none, [⟨name, "must be a valid absolute URL"⟩])
    | some url => (some url,
        (if url.protocol ∈ protocols then []
          else [⟨name, "must use " ++ " or ".intercalate protocols⟩]) ++
        (if options.forbidCredentials && (url.username ≠ "" || url.password ≠ "") then
          [⟨name, "must not contain embedded credentials"⟩] else []) ++
        (if options.forbidQueryOrFragment && (url.search ≠ "" || url.hash ≠ "") then
          [⟨name, "must not contain query parameters or fragments"⟩] else []))

/-- A variable that is set and not blank is a number that passes a test. -/
def validateNumber (accepts : ℚ → Bool) (reason : String) (name : String) : List ValidationIssue :=
  if (config name).isNone || config.text name = "" then []
  else if (doubleOf (config.text name)).any accepts then []
  else [⟨name, reason⟩]

/-- Source: `validateInteger`. -/
def validateInteger (name : String) (minimum maximum : ℕ) : List ValidationIssue :=
  config.validateNumber (isIntegerBetween minimum maximum)
    s!"must be an integer between {minimum} and {maximum}" name

/-- Source: `validateSafeIntegerMinimum`. -/
def validateSafeIntegerMinimum (name : String) (minimum : ℕ) : List ValidationIssue :=
  config.validateNumber (isSafeIntegerFrom minimum)
    s!"must be a safe integer greater than or equal to {minimum}" name

/-- Source: `validateNumberRange`. -/
def validateNumberRange (name : String) (minimum maximum : ℕ) : List ValidationIssue :=
  config.validateNumber (isNumberBetween minimum maximum)
    s!"must be a number between {minimum} and {maximum}" name

/-- Source: `validateSecretRoots`. -/
def validateSecretRoots : List ValidationIssue :=
  if (config "SECRET_FILE_ROOTS").isNone then []
  else
    let roots := (((config.text "SECRET_FILE_ROOTS").toList.splitOn ',').map fun part =>
      trim (String.ofList part)).filter fun root => root ≠ ""
    if roots.isEmpty then
      [⟨"SECRET_FILE_ROOTS", "must contain at least one absolute non-root path"⟩]
    else if roots.any host.isUnsafePath then
      [⟨"SECRET_FILE_ROOTS", "must contain only absolute non-root paths"⟩]
    else []

/-- Source: `validateSharedProductionConfig`. -/
def validateSharedProductionConfig : List ValidationIssue :=
  (config.validateUrl host "DATABASE_URL" ["postgresql:", "postgres:"] { required := true }).2 ++
  (config.validateUrl host "REDIS_URL" ["redis:", "rediss:"] { required := true }).2 ++
  (config.validateUrl host "RABBITMQ_URL" ["amqp:", "amqps:"] { required := true }).2 ++
  config.requireText "META_GRAPH_API_VERSION" 1 ++
  (if config.text "META_GRAPH_API_VERSION" ≠ "" &&
      !metaGraphVersion (config.text "META_GRAPH_API_VERSION") then
    [⟨"META_GRAPH_API_VERSION", "must use the format vNN.N"⟩] else []) ++
  (config.validateUrl host "META_GRAPH_API_BASE_URL" ["https:"]
    { forbidCredentials := true, forbidQueryOrFragment := true }).2 ++
  config.requireText "APP_REVISION" 1 ++
  (if config.text "APP_REVISION" ≠ "" && !exactGitSha (config.text "APP_REVISION") then
    [⟨"APP_REVISION", "must be the exact lowercase 40-character Git commit SHA"⟩] else []) ++
  config.validateSecretRoots host

/-- Source: `validateFilesystemMedia`. -/
def validateFilesystemMedia : List ValidationIssue :=
  config.requireText "MEDIA_FILESYSTEM_STORAGE_PATH" 1 ++
  (if config.text "MEDIA_FILESYSTEM_STORAGE_PATH" ≠ "" &&
      host.isUnsafePath (config.text "MEDIA_FILESYSTEM_STORAGE_PATH") then
    [⟨"MEDIA_FILESYSTEM_STORAGE_PATH", "must be an absolute non-root path"⟩] else []) ++
  config.validateSafeIntegerMinimum "MEDIA_FILESYSTEM_MIN_FREE_BYTES" 0 ++
  config.validateNumberRange "MEDIA_FILESYSTEM_MIN_FREE_PERCENT" 0 100

/-- Source: `validateS3Media`. -/
def validateS3Media : List ValidationIssue :=
  let (endpoint, endpointIssues) := config.validateUrl host "MEDIA_S3_ENDPOINT" ["https:"]
    { required := true, forbidCredentials := true, forbidQueryOrFragment := true }
  endpointIssues ++
  (if endpoint.any fun url => url.pathname ≠ "/" && url.pathname ≠ "" then
    [⟨"MEDIA_S3_ENDPOINT", "must not contain a path"⟩] else []) ++
  config.requireText "MEDIA_S3_BUCKET" 1 ++
  (if config.text "MEDIA_S3_BUCKET" ≠ "" &&
      (!s3Bucket (config.text "MEDIA_S3_BUCKET") || hasDoubleDot (config.text "MEDIA_S3_BUCKET")) then
    [⟨"MEDIA_S3_BUCKET", "must be a DNS-compatible bucket name"⟩] else []) ++
  (if !s3Region (toLowerCase (orDefault (config.text "MEDIA_S3_REGION") "us-east-1")) then
    [⟨"MEDIA_S3_REGION", "must contain only lowercase letters, digits, or hyphens"⟩] else []) ++
  config.requireText "MEDIA_S3_ACCESS_KEY_ID" 1 ++
  config.requireText "MEDIA_S3_SECRET_ACCESS_KEY" 1 ++
  config.validateInteger "MEDIA_S3_TIMEOUT_MS" 1000 300000

/-- Source: `validateMediaProductionConfig`. -/
def validateMediaProductionConfig : List ValidationIssue :=
  let storageMode := toLowerCase (orDefault (config.text "MEDIA_BINARY_STORAGE_MODE") "disabled")
  let malwareMode := toLowerCase (orDefault (config.text "MEDIA_MALWARE_SCAN_MODE") "disabled")
  (if storageMode ∉ ["disabled", "filesystem", "s3"] then
    [⟨"MEDIA_BINARY_STORAGE_MODE", "must be disabled, filesystem, or s3"⟩]
  else if storageMode = "filesystem" then config.validateFilesystemMedia host
  else if storageMode = "s3" then config.validateS3Media host
  else []) ++
  (if malwareMode ∉ ["disabled", "clamav"] then
    [⟨"MEDIA_MALWARE_SCAN_MODE", "must be disabled or clamav"⟩]
  else if malwareMode = "clamav" then
    config.requireText "MEDIA_CLAMAV_HOST" 1 ++
    config.validateInteger "MEDIA_CLAMAV_PORT" 1 65535 ++
    config.validateInteger "MEDIA_CLAMAV_TIMEOUT_MS" 1000 600000
  else [])

/-- Source: `validateApiProductionConfigOnly`. -/
def validateApiProductionConfigOnly : List ValidationIssue :=
  config.requireText "API_KEY_HASH_SECRET" 32 ++
  (if config.text "API_KEY_HASH_SECRET" = unsafeApiKeySecret then
    [⟨"API_KEY_HASH_SECRET", "must not use the documented placeholder value"⟩] else []) ++
  config.requireText "META_WEBHOOK_VERIFY_TOKEN" 16 ++
  config.requireText "META_APP_SECRET" 16 ++
  config.requireText "METRICS_BEARER_TOKEN" 32 ++
  config.validateInteger "PORT" 1 65535 ++
  config.validateMediaProductionConfig host

/-- `NODE_ENV` says production. -/
def isProduction : Bool := toLowerCase (config.text "NODE_ENV") = "production"

/-- The issues of a production configuration. -/
def issues : ProductionConfigProfile → List ValidationIssue
  | .api => config.validateSharedProductionConfig host ++ config.validateApiProductionConfigOnly host
  | .worker => config.validateSharedProductionConfig host

/-- Source: `validateProductionConfig`. -/
def validateProductionConfig (profile : ProductionConfigProfile) :
    Except String EnvironmentConfig :=
  if !config.isProduction then .ok config
  else if config.issues host profile = [] then .ok config
  else
    .error ("Production configuration validation failed (" ++ profile.name ++ "): " ++
      "; ".intercalate ((config.issues host profile).map fun issue =>
        issue.name ++ ": " ++ issue.reason))

/-! ## What an accepted configuration has -/

variable {host config}

theorem text_ne_of_requireText {name : String} {minimumLength : ℕ}
    (h : config.requireText name minimumLength = []) : config.text name ≠ "" := by
  intro hblank
  simp [requireText, hblank] at h

/-- A production configuration is accepted when it has no issue. -/
theorem validateProductionConfig_eq_ok_iff {profile : ProductionConfigProfile}
    (hproduction : config.isProduction = true) :
    config.validateProductionConfig host profile = .ok config ↔ config.issues host profile = [] := by
  simp only [validateProductionConfig, hproduction, Bool.not_true, Bool.false_eq_true, if_false]
  constructor
  · intro h
    by_contra hissues
    rw [if_neg hissues] at h
    cases h
  · intro h
    rw [if_pos h]

/-- An accepted configuration of the API has no issue about media. -/
theorem media_of_validateProductionConfig (hproduction : config.isProduction = true)
    (h : config.validateProductionConfig host .api = .ok config) :
    config.validateMediaProductionConfig host = [] := by
  have hissues := (validateProductionConfig_eq_ok_iff hproduction).mp h
  rw [issues, List.append_eq_nil_iff, validateApiProductionConfigOnly,
    List.append_eq_nil_iff] at hissues
  exact hissues.2.2

end EnvironmentConfig

end ApiWhatsApp
