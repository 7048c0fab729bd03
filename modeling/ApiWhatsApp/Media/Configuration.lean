import ApiWhatsApp.Config.ProductionConfig
import ApiWhatsApp.Media.Registry

/-!
# Reading the media configuration at run time

The readers of the media variables: `media/media-binary-storage.service.ts`,
`media/media-s3-storage.service.ts` and `media/media-malware-scanner.service.ts`. They parse the texts
that the validation of the production configuration has parsed before, each on its own.

* `storageMode`, `filesystemRoot`, `readMinimumFreeBytes` and `readMinimumFreePercent` belong to the
  binary storage, `s3Configuration` to the S3 storage, `scannerSettings` to the scanner: what `scan`
  reads before it connects.
* `env.text name` stands for `process.env[name]?.trim()` too: the readers treat `undefined` and the
  empty text alike.
* The readers of numbers are one, `readNumber`, with the test, default and error of each.
  `readNumber_of_validateNumber`: what passes a check of the validation passes a reader with the same
  test.
* `ReadersReturn` says that no reader throws. The file system is read in every storage mode, since
  `discard` goes by the mode that a row was stored under; S3 is read in its own mode only.
* **`validated_media_readers`** — in a configuration that the validation accepts, they return exactly
  when neither mode is set to a blank text and the settings of the file system are in order,
  whatever the mode: the validation takes a blank mode as `disabled`, and the readers refuse it; and
  it checks those settings in mode `filesystem` only. `blank_storage_mode_throws` is such a
  configuration.
-/

namespace ApiWhatsApp

open Library

namespace EnvironmentConfig

variable (host : Host) (env : EnvironmentConfig)

/-- A variable that is missing or blank has its default; any other is a number that passes a test. -/
def readNumber (accepts : ℚ → Bool) (fallback : ℚ) (error : String) (raw : Option String) :
    Except String ℚ :=
  match raw with
  | none => .ok fallback
  | some text =>
      if trim text = "" then .ok fallback
      else match (doubleOf text).filter accepts with
        | some value => .ok value
        | none => .error error

/-! ## Binary storage -/

/-- Source: `mode` of `MediaBinaryStorageService`. -/
def storageMode : Except String StorageMode :=
  let value := toLowerCase (trim ((env "MEDIA_BINARY_STORAGE_MODE").getD "disabled"))
  if value = "disabled" then .ok .disabled
  else if value = "filesystem" then .ok .filesystem
  else if value = "s3" then .ok .s3
  else .error ("Unsupported MEDIA_BINARY_STORAGE_MODE: " ++ value)

/-- Source: `filesystemRoot`. -/
def filesystemRoot : Except String String :=
  let configured := env.text "MEDIA_FILESYSTEM_STORAGE_PATH"
  if configured = "" then
    .error "MEDIA_FILESYSTEM_STORAGE_PATH is required for filesystem media storage"
  else if !host.isAbsolute configured then
    .error "MEDIA_FILESYSTEM_STORAGE_PATH must be an absolute path"
  else if host.resolve configured = host.sep then
    .error "MEDIA_FILESYSTEM_STORAGE_PATH cannot be the filesystem root"
  else .ok (host.resolve configured)

/-- Source: `readMinimumFreeBytes`. -/
def readMinimumFreeBytes : Except String ℚ :=
  readNumber (isSafeIntegerFrom 0) (1024 * 1024 * 1024)
    "MEDIA_FILESYSTEM_MIN_FREE_BYTES must be a non-negative safe integer"
    (env "MEDIA_FILESYSTEM_MIN_FREE_BYTES")

/-- Source: `readMinimumFreePercent`. -/
def readMinimumFreePercent : Except String ℚ :=
  readNumber (isNumberBetween 0 100) 5 "MEDIA_FILESYSTEM_MIN_FREE_PERCENT must be between 0 and 100"
    (env "MEDIA_FILESYSTEM_MIN_FREE_PERCENT")

/-! ## S3 -/

/-- Source: `interface MediaS3Configuration`. -/
structure MediaS3Configuration where
  endpoint : ParsedUrl
  bucket : String
  region : String
  accessKeyId : String
  secretAccessKey : String
  sessionToken : Option String
  timeoutMs : ℚ

/-- Source: `readTimeout` of `MediaS3StorageService`. -/
def readS3Timeout : Except String ℚ :=
  readNumber (isIntegerBetween 1000 300000) 30000
    "MEDIA_S3_TIMEOUT_MS must be an integer between 1000 and 300000" (env "MEDIA_S3_TIMEOUT_MS")

/-- Source: `configuration` of `MediaS3StorageService`. -/
def s3Configuration : Except String MediaS3Configuration :=
  let endpointRaw := env.text "MEDIA_S3_ENDPOINT"
  if endpointRaw = "" then .error "MEDIA_S3_ENDPOINT is required for S3 media storage"
  else match host.newUrl endpointRaw with
    | none => .error "MEDIA_S3_ENDPOINT must be an absolute URL"
    | some endpoint =>
        if endpoint.username ≠ "" || endpoint.password ≠ "" || endpoint.search ≠ "" ||
            endpoint.hash ≠ "" then
          .error "MEDIA_S3_ENDPOINT cannot contain credentials, query, or fragment"
        else if endpoint.pathname ≠ "/" && endpoint.pathname ≠ "" then
          .error "MEDIA_S3_ENDPOINT cannot contain a path"
        else if endpoint.protocol ≠ "https:" &&
            !(env "NODE_ENV" = some "test" && endpoint.protocol = "http:") then
          .error "MEDIA_S3_ENDPOINT must use HTTPS outside test mode"
        else
          let bucket := env.text "MEDIA_S3_BUCKET"
          let region := toLowerCase (orDefault (env.text "MEDIA_S3_REGION") "us-east-1")
          let accessKeyId := env.text "MEDIA_S3_ACCESS_KEY_ID"
          let secretAccessKey := env.text "MEDIA_S3_SECRET_ACCESS_KEY"
          let sessionToken := env.text "MEDIA_S3_SESSION_TOKEN"
          if !s3Bucket bucket || hasDoubleDot bucket then
            .error "MEDIA_S3_BUCKET must be a valid DNS-compatible bucket name"
          else if !s3Region region then .error "MEDIA_S3_REGION is invalid"
          else if accessKeyId = "" || secretAccessKey = "" then
            .error ("MEDIA_S3_ACCESS_KEY_ID and MEDIA_S3_SECRET_ACCESS_KEY are required for S3 " ++
              "media storage")
          else (readS3Timeout env).map fun timeoutMs =>
            { endpoint := endpoint, bucket := bucket, region := region, accessKeyId := accessKeyId,
              secretAccessKey := secretAccessKey,
              sessionToken := if sessionToken = "" then none else some sessionToken,
              timeoutMs := timeoutMs }

/-! ## The scanner -/

/-- What a scan connects with. -/
structure ScannerSettings where
  host : String
  port : ℚ
  timeoutMs : ℚ

/-- Source: `readPort` of `MediaMalwareScannerService`. -/
def readPort : Except String ℚ :=
  readNumber (isIntegerBetween 1 65535) 3310
    "MEDIA_CLAMAV_PORT must be an integer between 1 and 65535" (env "MEDIA_CLAMAV_PORT")

/-- Source: `readTimeout` of `MediaMalwareScannerService`. -/
def readScanTimeout : Except String ℚ :=
  readNumber (isIntegerBetween 1000 600000) 120000
    "MEDIA_CLAMAV_TIMEOUT_MS must be an integer between 1000 and 600000"
    (env "MEDIA_CLAMAV_TIMEOUT_MS")

/-- What `scan` reads; `none` when scanning is disabled. -/
def scannerSettings : Except String (Option ScannerSettings) :=
  let mode := toLowerCase (trim ((env "MEDIA_MALWARE_SCAN_MODE").getD "disabled"))
  if mode = "disabled" then .ok none
  else if mode ≠ "clamav" then .error ("Unsupported MEDIA_MALWARE_SCAN_MODE: " ++ mode)
  else
    let host := env.text "MEDIA_CLAMAV_HOST"
    if host = "" then .error "MEDIA_CLAMAV_HOST is required when malware scanning is enabled"
    else (readPort env).bind fun port => (readScanTimeout env).map fun timeoutMs =>
      some { host := host, port := port, timeoutMs := timeoutMs }

/-! ## All readers -/

/-- No reader throws; S3 is read when it is the mode. -/
structure ReadersReturn : Prop where
  mode : (storageMode env).isOk = true
  root : (filesystemRoot host env).isOk = true
  freeBytes : (readMinimumFreeBytes env).isOk = true
  freePercent : (readMinimumFreePercent env).isOk = true
  s3 : storageMode env = .ok .s3 → (s3Configuration host env).isOk = true
  scanner : (scannerSettings env).isOk = true

/-- The variable is set, to a blank text. -/
def isBlank (name : String) : Bool := (env name).any fun text => trim text = ""

/-! ## Readers against checks -/

variable {host env}

/-- **A number passes a check of the validation exactly when the reader with the same test returns.** -/
theorem readNumber_isOk_iff (accepts : ℚ → Bool) (reason name : String) (fallback : ℚ)
    (error : String) :
    (readNumber accepts fallback error (env name)).isOk = true ↔
      env.validateNumber accepts reason name = [] := by
  cases hraw : env name with
  | none => simp [readNumber, validateNumber, hraw, Except.isOk, Except.toBool]
  | some text =>
      have htext : env.text name = trim text := by rw [EnvironmentConfig.text, hraw]; rfl
      simp only [readNumber, validateNumber, hraw, htext, Option.isNone_some, Bool.false_or,
        decide_eq_true_eq, doubleOf_trim]
      by_cases hblank : trim text = ""
      · simp [hblank, Except.isOk, Except.toBool]
      · rw [if_neg hblank, if_neg hblank]
        rcases hvalue : (doubleOf text).filter accepts with _ | value
        · have hnone : (doubleOf text).any accepts = false := by
            rw [Option.filter_eq_none_iff] at hvalue
            simpa [Option.any_eq_false] using hvalue
          simp [hnone, Except.isOk, Except.toBool]
        · obtain ⟨hsome, hpasses⟩ := Option.filter_eq_some_iff.mp hvalue
          simp [hsome, hpasses, Except.isOk, Except.toBool]

/-- What passes a check of the validation is read. -/
theorem readNumber_of_validateNumber {accepts : ℚ → Bool} {reason name : String}
    (h : env.validateNumber accepts reason name = []) (fallback : ℚ) (error : String) :
    ∃ value, readNumber accepts fallback error (env name) = .ok value := by
  have hok := (readNumber_isOk_iff accepts reason name fallback error).mpr h
  cases hread : readNumber accepts fallback error (env name) with
  | ok value => exact ⟨value, rfl⟩
  | error message =>
      rw [hread] at hok
      cases hok

/-- A mode that is not blank is read as the validation reads it. -/
theorem mode_of_not_isBlank {name : String} (h : env.isBlank name = false) :
    trim ((env name).getD "disabled") = orDefault (env.text name) "disabled" := by
  cases hraw : env name with
  | none =>
      simp only [EnvironmentConfig.text, hraw, Option.getD_none, Option.elim_none, orDefault, if_true]
      decide +kernel
  | some text =>
      have hfull : trim text ≠ "" := by simpa [isBlank, hraw] using h
      simp [EnvironmentConfig.text, hraw, orDefault, hfull]

/-- A blank mode is read as the empty text. -/
theorem mode_of_isBlank {name : String} (h : env.isBlank name = true) :
    toLowerCase (trim ((env name).getD "disabled")) = "" := by
  obtain ⟨text, hraw, hblank⟩ := (Option.any_eq_true _ _).mp h
  rw [hraw, Option.getD_some, of_decide_eq_true hblank]
  rfl

/-- A blank storage mode is refused by its reader. -/
theorem storageMode_of_isBlank (h : env.isBlank "MEDIA_BINARY_STORAGE_MODE" = true) :
    (storageMode env).isOk = false := by
  simp only [storageMode, mode_of_isBlank h]
  rfl

/-- A blank scan mode is refused by its reader. -/
theorem scannerSettings_of_isBlank (h : env.isBlank "MEDIA_MALWARE_SCAN_MODE" = true) :
    (scannerSettings env).isOk = false := by
  simp only [scannerSettings, mode_of_isBlank h]
  rfl

/-- The path is a root exactly when it passes the checks of the validation. -/
theorem filesystemRoot_isOk_iff :
    (filesystemRoot host env).isOk = true ↔
      env.text "MEDIA_FILESYSTEM_STORAGE_PATH" ≠ "" ∧
        host.isUnsafePath (env.text "MEDIA_FILESYSTEM_STORAGE_PATH") = false := by
  simp only [filesystemRoot, Host.isUnsafePath]
  split_ifs with hblank habsolute hroot <;> simp_all [Except.isOk, Except.toBool]

/-- A variable is missing or blank, or a number that passes a test. -/
def BlankOrNumber (env : EnvironmentConfig) (accepts : ℚ → Bool) (name : String) : Prop :=
  env.text name = "" ∨ (doubleOf (env.text name)).any accepts = true

/-- The settings of the file system: an absolute path other than the root, a number of bytes and a
percentage. -/
structure FilesystemSettings (host : Host) (env : EnvironmentConfig) : Prop where
  path : env.text "MEDIA_FILESYSTEM_STORAGE_PATH" ≠ ""
  safe : host.isUnsafePath (env.text "MEDIA_FILESYSTEM_STORAGE_PATH") = false
  freeBytes : env.BlankOrNumber (isSafeIntegerFrom 0) "MEDIA_FILESYSTEM_MIN_FREE_BYTES"
  freePercent : env.BlankOrNumber (isNumberBetween 0 100) "MEDIA_FILESYSTEM_MIN_FREE_PERCENT"

/-- A number is accepted just when it is blank or fits. -/
theorem validateNumber_eq_nil_iff {accepts : ℚ → Bool} {reason name : String} :
    env.validateNumber accepts reason name = [] ↔ env.BlankOrNumber accepts name := by
  unfold validateNumber BlankOrNumber
  rcases hvalue : env name with _ | value
  · simp [text, hvalue]
  · by_cases hblank : env.text name = ""
    · simp [hblank]
    · by_cases hnumber : (doubleOf (env.text name)).any accepts = true <;> simp [hblank, hnumber]

/-- In mode `filesystem` the validation makes sure of them. -/
theorem filesystemSettings_iff :
    FilesystemSettings host env ↔ env.validateFilesystemMedia host = [] := by
  have hfields : FilesystemSettings host env ↔ env.text "MEDIA_FILESYSTEM_STORAGE_PATH" ≠ "" ∧
      host.isUnsafePath (env.text "MEDIA_FILESYSTEM_STORAGE_PATH") = false ∧
      env.BlankOrNumber (isSafeIntegerFrom 0) "MEDIA_FILESYSTEM_MIN_FREE_BYTES" ∧
      env.BlankOrNumber (isNumberBetween 0 100) "MEDIA_FILESYSTEM_MIN_FREE_PERCENT" :=
    ⟨fun h => ⟨h.path, h.safe, h.freeBytes, h.freePercent⟩, fun h => ⟨h.1, h.2.1, h.2.2.1, h.2.2.2⟩⟩
  rw [hfields]
  simp only [validateFilesystemMedia, validateSafeIntegerMinimum, validateNumberRange,
    List.append_eq_nil_iff, validateNumber_eq_nil_iff]
  by_cases hblank : env.text "MEDIA_FILESYSTEM_STORAGE_PATH" = ""
  · simp [requireText, hblank]
  · have hunits := utf16Length_pos hblank
    simp [requireText, hblank, hunits.ne', and_assoc]

/-- **The settings of the file system are read exactly when they are in order.** -/
theorem filesystem_isOk_iff :
    ((filesystemRoot host env).isOk = true ∧ (readMinimumFreeBytes env).isOk = true ∧
        (readMinimumFreePercent env).isOk = true) ↔ FilesystemSettings host env := by
  rw [filesystemSettings_iff]
  have hbytes : (readMinimumFreeBytes env).isOk = true ↔
      env.validateSafeIntegerMinimum "MEDIA_FILESYSTEM_MIN_FREE_BYTES" 0 = [] :=
    readNumber_isOk_iff _ _ _ _ _
  have hpercent : (readMinimumFreePercent env).isOk = true ↔
      env.validateNumberRange "MEDIA_FILESYSTEM_MIN_FREE_PERCENT" 0 100 = [] :=
    readNumber_isOk_iff _ _ _ _ _
  rw [filesystemRoot_isOk_iff, hbytes, hpercent]
  simp only [validateFilesystemMedia, List.append_eq_nil_iff]
  by_cases hblank : env.text "MEDIA_FILESYSTEM_STORAGE_PATH" = ""
  · simp [requireText, hblank]
  · have hunits := utf16Length_pos hblank
    simp [requireText, hblank, hunits.ne', and_assoc]

/-- The options under which the S3 endpoint is validated. -/
abbrev endpointOptions : UrlOptions where
  required := true
  forbidCredentials := true
  forbidQueryOrFragment := true

/-- What the validation accepts as an endpoint. -/
theorem endpoint_of_validateUrl {name : String}
    (h : (env.validateUrl host name ["https:"] endpointOptions).2 = []) :
    env.text name ≠ "" ∧ ∃ url, host.newUrl (env.text name) = some url ∧
      (env.validateUrl host name ["https:"] endpointOptions).1 = some url ∧
      url.protocol = "https:" ∧ url.username = "" ∧ url.password = "" ∧ url.search = "" ∧
      url.hash = "" := by
  unfold validateUrl at h ⊢
  by_cases hblank : env.text name = ""
  · rw [if_pos hblank, if_pos rfl] at h
    cases h
  · rw [if_neg hblank] at h ⊢
    refine ⟨hblank, ?_⟩
    cases hurl : host.newUrl (env.text name) with
    | none =>
        rw [hurl] at h
        cases h
    | some url =>
        rw [hurl] at h
        refine ⟨url, rfl, rfl, ?_⟩
        simpa [and_assoc] using h

/-- The S3 settings that the validation accepts are a configuration. -/
theorem s3Configuration_of_validateS3Media (h : env.validateS3Media host = []) :
    (s3Configuration host env).isOk = true := by
  simp only [validateS3Media, List.append_eq_nil_iff] at h
  obtain ⟨⟨⟨⟨⟨⟨⟨hendpoint, hpath⟩, hbucketText⟩, hbucket⟩, hregion⟩, hkey⟩, hsecret⟩, htimeout⟩ := h
  obtain ⟨hset, url, hurl, hreturned, hprotocol, husername, hpassword, hsearch, hhash⟩ :=
    endpoint_of_validateUrl hendpoint
  have hbucketSet := text_ne_of_requireText hbucketText
  have hkeySet := text_ne_of_requireText hkey
  have hsecretSet := text_ne_of_requireText hsecret
  obtain ⟨timeoutMs, hread⟩ : ∃ timeoutMs, readS3Timeout env = .ok timeoutMs :=
    readNumber_of_validateNumber htimeout _ _
  rw [hreturned] at hpath
  simp only [Option.any_some, ite_eq_right_iff, List.cons_ne_self, imp_false] at hpath
  simp only [hbucketSet, ne_eq, not_false_eq_true, decide_true, Bool.true_and, ite_eq_right_iff,
    List.cons_ne_self, imp_false] at hbucket
  simp only [ite_eq_right_iff, List.cons_ne_self, imp_false] at hregion
  simp only [s3Configuration, if_neg hset, hurl, husername, hpassword, hsearch, hhash, hprotocol,
    if_neg hpath, if_neg hbucket, if_neg hregion, hkeySet, hsecretSet, hread]
  rfl

/-- The scanner settings that the validation accepts are read. -/
theorem scannerSettings_of_validateMedia (hblank : env.isBlank "MEDIA_MALWARE_SCAN_MODE" = false)
    (h : env.validateMediaProductionConfig host = []) : (scannerSettings env).isOk = true := by
  have hchecked := (List.append_eq_nil_iff.mp h).2
  simp only [scannerSettings, mode_of_not_isBlank hblank]
  split_ifs at hchecked with hknown hclamav
  · obtain ⟨⟨hhost, hport⟩, htimeout⟩ := by
      simpa only [List.append_eq_nil_iff] using hchecked
    obtain ⟨port, hreadPort⟩ : ∃ port, readPort env = .ok port :=
      readNumber_of_validateNumber hport _ _
    obtain ⟨timeoutMs, hreadTimeout⟩ : ∃ timeoutMs, readScanTimeout env = .ok timeoutMs :=
      readNumber_of_validateNumber htimeout _ _
    simp only [hclamav, text_ne_of_requireText hhost, hreadPort, hreadTimeout]
    rfl
  · have hdisabled : toLowerCase (orDefault (env.text "MEDIA_MALWARE_SCAN_MODE") "disabled") =
        "disabled" := by
      simpa [hclamav] using hknown
    rw [if_pos hdisabled]
    rfl

/-- The storage settings that the validation accepts have a mode, with the settings of that mode. -/
theorem storage_of_validateMedia (hblank : env.isBlank "MEDIA_BINARY_STORAGE_MODE" = false)
    (h : env.validateMediaProductionConfig host = []) :
    storageMode env = .ok .disabled ∨
      (storageMode env = .ok .filesystem ∧ env.validateFilesystemMedia host = []) ∨
      (storageMode env = .ok .s3 ∧ env.validateS3Media host = []) := by
  have hchecked := (List.append_eq_nil_iff.mp h).1
  simp only [storageMode, mode_of_not_isBlank hblank]
  split_ifs at hchecked with hknown hfilesystem hs3
  · exact .inr (.inl ⟨by rw [hfilesystem]; rfl, hchecked⟩)
  · exact .inr (.inr ⟨by rw [hs3]; rfl, hchecked⟩)
  · have hdisabled : toLowerCase (orDefault (env.text "MEDIA_BINARY_STORAGE_MODE") "disabled") =
        "disabled" := by
      simpa [hfilesystem, hs3] using hknown
    exact .inl (by rw [if_pos hdisabled])

/-- In mode `s3` the configuration of S3 is read. -/
theorem s3Configuration_of_validateMedia
    (hblank : env.isBlank "MEDIA_BINARY_STORAGE_MODE" = false)
    (h : env.validateMediaProductionConfig host = []) (hmode : storageMode env = .ok .s3) :
    (s3Configuration host env).isOk = true := by
  rcases storage_of_validateMedia hblank h with hother | ⟨hother, -⟩ | ⟨-, hs3⟩
  · rw [hother] at hmode
    cases hmode
  · rw [hother] at hmode
    cases hmode
  · exact s3Configuration_of_validateS3Media hs3

/-- A mode that is not blank is read. -/
theorem storageMode_of_validateMedia (hblank : env.isBlank "MEDIA_BINARY_STORAGE_MODE" = false)
    (h : env.validateMediaProductionConfig host = []) : (storageMode env).isOk = true := by
  rcases storage_of_validateMedia hblank h with hmode | ⟨hmode, -⟩ | ⟨hmode, -⟩ <;>
    rw [hmode] <;> rfl

/-- **Reading what was validated.** In a production configuration that the validation of the API
accepts, the readers of the media variables return exactly when neither the storage mode nor the scan
mode is set to a blank text, and the settings of the file system are in order, in whatever mode. -/
theorem validated_media_readers (host : Host) (env : EnvironmentConfig)
    (hproduction : env.isProduction = true)
    (haccepted : env.validateProductionConfig host .api = .ok env) :
    ReadersReturn host env ↔ env.isBlank "MEDIA_BINARY_STORAGE_MODE" = false ∧
      env.isBlank "MEDIA_MALWARE_SCAN_MODE" = false ∧ FilesystemSettings host env := by
  have hmedia := media_of_validateProductionConfig hproduction haccepted
  constructor
  · intro hreads
    refine ⟨?_, ?_, filesystem_isOk_iff.mp ⟨hreads.root, hreads.freeBytes, hreads.freePercent⟩⟩
    · by_contra hblank
      have hthrows := storageMode_of_isBlank (by simpa using hblank)
      rw [hreads.mode] at hthrows
      cases hthrows
    · by_contra hblank
      have hthrows := scannerSettings_of_isBlank (by simpa using hblank)
      rw [hreads.scanner] at hthrows
      cases hthrows
  · rintro ⟨hstorage, hscan, hfilesystem⟩
    obtain ⟨hroot, hbytes, hpercent⟩ := filesystem_isOk_iff.mpr hfilesystem
    exact ⟨storageMode_of_validateMedia hstorage hmedia, hroot, hbytes, hpercent,
      s3Configuration_of_validateMedia hstorage hmedia, scannerSettings_of_validateMedia hscan hmedia⟩

/-! ## A configuration -/

/-- A production configuration of the API that keeps media on a file system and scans them, and a
host that knows its URLs. -/
def sampleHost : Host where
  newUrl text :=
    let url : ParsedUrl :=
      { protocol := "", username := "", password := "", pathname := "/", search := "", hash := "" }
    if text = "postgresql://db/app" then some { url with protocol := "postgresql:" }
    else if text = "redis://cache/0" then some { url with protocol := "redis:" }
    else if text = "amqp://broker/" then some { url with protocol := "amqp:" }
    else none
  isAbsolute path := path.toList.head? = some '/'
  resolve path := path
  sep := "/"

/-- A production environment with a filesystem store. -/
def sampleProductionConfig : EnvironmentConfig := fun name =>
  [("NODE_ENV", "production"), ("DATABASE_URL", "postgresql://db/app"),
    ("REDIS_URL", "redis://cache/0"), ("RABBITMQ_URL", "amqp://broker/"),
    ("META_GRAPH_API_VERSION", "v23.0"),
    ("APP_REVISION", "0123456789abcdef0123456789abcdef01234567"),
    ("API_KEY_HASH_SECRET", "an-api-key-hash-secret-of-40-characters!"),
    ("META_WEBHOOK_VERIFY_TOKEN", "a-webhook-verify-token"), ("META_APP_SECRET", "an-app-secret-text"),
    ("METRICS_BEARER_TOKEN", "a-metrics-bearer-token-of-36-characters"),
    ("MEDIA_BINARY_STORAGE_MODE", " Filesystem "), ("MEDIA_FILESYSTEM_STORAGE_PATH", "/srv/media"),
    ("MEDIA_FILESYSTEM_MIN_FREE_PERCENT", " 12.5 "), ("MEDIA_MALWARE_SCAN_MODE", "clamav"),
    ("MEDIA_CLAMAV_HOST", "scanner"), ("MEDIA_CLAMAV_PORT", "")].lookup name

/-- The same with a blank storage mode, as an `env` file leaves it whose line has no value. -/
def blankModeConfig : EnvironmentConfig := fun name =>
  if name = "MEDIA_BINARY_STORAGE_MODE" then some "" else sampleProductionConfig name

/-- All readers return for a configuration of mode `filesystem`. -/
theorem validated_media_readers_sample : ReadersReturn sampleHost sampleProductionConfig :=
  (validated_media_readers sampleHost sampleProductionConfig (by decide)
    ((validateProductionConfig_eq_ok_iff (by decide)).mpr (by decide +kernel))).mpr
    ⟨by decide, by decide, filesystemSettings_iff.mpr (by decide +kernel)⟩

/-- The validation accepts a blank storage mode, and the reader of the mode throws. -/
theorem blank_storage_mode_throws :
    blankModeConfig.isProduction = true ∧
      blankModeConfig.validateProductionConfig sampleHost .api = .ok blankModeConfig ∧
      storageMode blankModeConfig = .error "Unsupported MEDIA_BINARY_STORAGE_MODE: " ∧
      ¬ReadersReturn sampleHost blankModeConfig := by
  have hproduction : blankModeConfig.isProduction = true := by decide
  have hblank : blankModeConfig.isBlank "MEDIA_BINARY_STORAGE_MODE" = true := by decide
  refine ⟨hproduction, (validateProductionConfig_eq_ok_iff hproduction).mpr (by decide),
    rfl, fun hreads => ?_⟩
  have hthrows := storageMode_of_isBlank hblank
  rw [hreads.mode] at hthrows
  cases hthrows

end EnvironmentConfig

end ApiWhatsApp
