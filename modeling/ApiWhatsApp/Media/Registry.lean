import ApiWhatsApp.Library.Machine
import ApiWhatsApp.Schema

/-!
# The media registry

`media/media.service.ts`, `media/media-asset-retention.service.ts` and the storage calls of
`media/media-binary-storage.service.ts`: uploads that write a registry row, a stored binary and an
object of the provider, and the two maintenance jobs that clean up after them. `MediaSystem` is the
machine of any number of uploads and jobs, each of them stopped at every `await`.

* An upload draws its id, creates its row, stages the binary, stamps `storedAt`, uploads to the
  provider and completes the row; `markAssetFailed` is its compensation.
* While a binary is being staged, it may become visible at any time (`land`). A transfer may go on
  after its caller has seen an error, or has crashed; `lingers` says so, and `settle` ends it.
* `reconcileStaleUploads` claims, discards and clears; `purgeExpired` discards and deletes. The
  choice of `ids` stands for the `ORDER BY` and the `LIMIT` of their queries.
* `MediaSystem.timely` is the deployment's promise: the threshold of staleness and the lifetime are
  longer than staging takes.

What an upload checks before it creates its row (fields, policy, signature, capacity, malware, the
sender) writes nothing, so an upload starts here when all of it has passed. All replicas share the
storage, as the documentation asks. The columns that no modelled function reads are left out.
-/

namespace ApiWhatsApp

open Library

/-! ## Rows and binaries -/

/-- Source: `type MediaBinaryStorageMode`. -/
inductive StorageMode where
  | disabled
  | filesystem
  | s3
  deriving DecidableEq, Repr

/-- A row of the registry. Source: `model MediaAsset`. -/
structure MediaAsset where
  id : Uuid
  tenantId : Uuid
  providerMediaId : Option String
  storageMode : StorageMode
  storageKey : Option String
  storedAt : Option Time
  providerUploadedAt : Option Time
  expiresAt : Option Time
  failedAt : Option Time
  failureCode : Option String
  updatedAt : Time
  deriving DecidableEq

/-- The unique columns of an asset. -/
inductive MediaAssetKey where
  | id (id : Uuid)
  | providerMediaId (tenantId : Uuid) (value : String)
  | storageKey (tenantId : Uuid) (value : String)
  deriving DecidableEq

/-- An asset is known by its id. -/
instance : Keyed MediaAsset MediaAssetKey where
  keys r := .id r.id :: ((r.providerMediaId.map (.providerMediaId r.tenantId)).toList ++
    (r.storageKey.map (.storageKey r.tenantId)).toList)

/-- The id is a key of its row only. -/
theorem mem_keys_asset_id {r : MediaAsset} {id : Uuid} :
    MediaAssetKey.id id ∈ Keyed.keys r ↔ r.id = id := by
  simp [Keyed.keys, eq_comm]

/-- The table of the assets. -/
abbrev MediaAssets := Table MediaAsset

/-- Source: `ABANDONED_UPLOAD_FAILURE_CODE`. -/
def abandonedUploadFailureCode : String := "UPLOAD_ABANDONED"

/-- The states that the registry shows. -/
inductive MediaAssetState where
  | failed
  | expired
  | active
  | uploading
  deriving DecidableEq, Repr

namespace MediaAsset

/-- Source: `state` in `toResponse`. -/
def state (now : Time) (r : MediaAsset) : MediaAssetState :=
  if r.failureCode.getD "" ≠ "" then .failed
  else if r.providerMediaId.getD "" ≠ "" then
    if r.expiresAt.any fun expiresAt => expiresAt ≤ now then .expired else .active
  else .uploading

/-- An upload that has made no progress since `now - staleMs`. -/
def isStale (staleMs : ℕ) (now : Time) (r : MediaAsset) : Bool :=
  r.providerMediaId = none && r.failedAt = none && r.updatedAt + staleMs ≤ now

/-- The lifetime of the row is over. -/
def isExpired (now : Time) (r : MediaAsset) : Bool :=
  r.expiresAt.any fun expiresAt => expiresAt ≤ now

end MediaAsset

/-- A stored binary, in the filesystem or in S3. -/
structure StoredBinary where
  mode : StorageMode
  key : String
  deriving DecidableEq, Repr

/-- Source: `key` in `targetFor`. -/
def storageKeyFor (mode : StorageMode) (tenantId assetId : Uuid) : Option String :=
  match mode with
  | .disabled => none
  | .filesystem | .s3 => some (toString tenantId ++ "/" ++ toString assetId)

/-- The binary that `stage` writes and that `discard` removes; none without a key. -/
def binaryAt (mode : StorageMode) (key : Option String) : Option StoredBinary :=
  match key with
  | none => none
  | some key => if key = "" ∨ mode = .disabled then none else some { mode := mode, key := key }

/-! ## Settings -/

/-- The settings that the services read. -/
structure MediaConfig where
  /-- `MEDIA_ASSET_TTL_DAYS`. -/
  ttlDays : Option ℕ
  /-- `MEDIA_ASSET_STALE_UPLOAD_MS`. -/
  staleUploadMs : Option ℕ

namespace MediaConfig

/-- Source: `readAssetTtlDays`. -/
def readAssetTtlDays (config : MediaConfig) : Except String ℕ :=
  match config.ttlDays with
  | none => .ok 30
  | some days =>
      if days < 1 ∨ 3650 < days then .error "Media asset registry configuration is invalid"
      else .ok days

/-- Source: `readStaleUploadMs`. -/
def readStaleUploadMs (config : MediaConfig) : Except String ℕ :=
  match config.staleUploadMs with
  | none => .ok (2 * 60 * 60 * 1000)
  | some ms =>
      if ms < 30 * 60 * 1000 ∨ 24 * 60 * 60 * 1000 < ms then
        .error "MEDIA_ASSET_STALE_UPLOAD_MS must be an integer between 1800000 and 86400000"
      else .ok ms

end MediaConfig

/-! ## Uploads -/

/-- An error of the provider call. -/
inductive MediaProviderError where
  /-- A `MetaApiError`. -/
  | metaApi (httpStatus : Option ℕ) (code subcode : Option ℤ)
  | other

/-- Source: `metaFailureCode`, and the last lines of `upload`. -/
def MediaProviderError.failureCode : MediaProviderError → String
  | .metaApi httpStatus code subcode =>
      match code, httpStatus with
      | some code, _ => "META_" ++ toString code ++
          (match subcode with
            | some subcode => "_" ++ toString subcode
            | none => "")
      | none, some httpStatus => s!"HTTP_{httpStatus}"
      | none, none => "META_API_ERROR"
  | .other => "UPLOAD_ERROR"

/-- Where an upload stands. -/
inductive UploadStage where
  /-- About to create its row. -/
  | create (expiresAt : Time)
  /-- `stage` is running. -/
  | staging
  /-- About to stamp the row. -/
  | storedAt (at_ : Time)
  /-- `uploadMedia` is running. -/
  | provider
  /-- About to complete the row. -/
  | complete (mediaId : String) (providerUploadedAt : Time)
  | markAssetFailed (failureCode : String)
  | ended
  | crashed
  deriving DecidableEq

/-- An upload, and how far it has got. -/
structure MediaUpload where
  tenantId : Uuid
  assetId : Uuid
  mode : StorageMode
  stage : UploadStage
  /-- The transfer goes on although nobody waits for it. -/
  lingers : Bool

namespace MediaUpload

/-- The binary of the upload. -/
def binary (u : MediaUpload) : Option StoredBinary :=
  binaryAt u.mode (storageKeyFor u.mode u.tenantId u.assetId)

/-- The binary is being written. -/
def isStaging (u : MediaUpload) : Bool := u.stage = .staging || u.lingers

/-- The row that `upload` creates. -/
def row (u : MediaUpload) (now expiresAt : Time) : MediaAsset where
  id := u.assetId
  tenantId := u.tenantId
  providerMediaId := none
  storageMode := u.mode
  storageKey := storageKeyFor u.mode u.tenantId u.assetId
  storedAt := none
  providerUploadedAt := none
  expiresAt := some expiresAt
  failedAt := none
  failureCode := none
  updatedAt := now

/-- The update that completes a row: only one that is neither complete nor failed. -/
def completeRow (assets : MediaAssets) (now : Time) (id : Uuid) (mediaId : String)
    (providerUploadedAt : Time) : Option MediaAssets :=
  match (assets.find (.id id)).filter fun r => r.providerMediaId = none && r.failedAt = none with
  | none => none
  | some _ => assets.update? (.id id) fun r =>
      { r with
        providerMediaId := some mediaId
        providerUploadedAt := some providerUploadedAt
        failedAt := none
        failureCode := none
        updatedAt := now }

/-- The pending database call: what it writes, `none` when it cannot succeed, and the stages after
it returns or throws. -/
def pending (assets : MediaAssets) (now : Time) (u : MediaUpload) :
    Option (Option MediaAssets × UploadStage × UploadStage) :=
  match u.stage with
  | .create expiresAt => some (assets.insert? (u.row now expiresAt), .staging, .ended)
  | .storedAt at_ =>
      some (assets.update? (.id u.assetId) fun r =>
          { r with storedAt := some at_, updatedAt := now },
        .provider, .markAssetFailed "STORAGE_METADATA_ERROR")
  | .complete mediaId at_ => some (completeRow assets now u.assetId mediaId at_, .ended, .ended)
  | .markAssetFailed failureCode =>
      some (assets.update? (.id u.assetId) fun r =>
          { r with failedAt := some now, failureCode := some failureCode, updatedAt := now },
        .ended, .ended)
  | .staging | .provider | .ended | .crashed => none

end MediaUpload

/-! ## Maintenance -/

/-- The `select` of the two queries. -/
structure AssetSnapshot where
  id : Uuid
  storageMode : StorageMode
  storageKey : Option String
  failureCode : Option String
  deriving DecidableEq

/-- What a query selects of a row. -/
def MediaAsset.snapshot (r : MediaAsset) : AssetSnapshot where
  id := r.id
  storageMode := r.storageMode
  storageKey := r.storageKey
  failureCode := r.failureCode

/-- The binary that `discard` is called for. -/
def AssetSnapshot.binary (a : AssetSnapshot) : Option StoredBinary :=
  binaryAt a.storageMode a.storageKey

/-- Where a job stands; it holds what it has still to go through. -/
inductive MaintenanceStage where
  | findStale
  | claim (asset : AssetSnapshot) (rest : List AssetSnapshot)
  | discardStale (asset : AssetSnapshot) (rest : List AssetSnapshot)
  | clear (asset : AssetSnapshot) (rest : List AssetSnapshot)
  | findExpired
  | discardExpired (asset : AssetSnapshot) (rest : List AssetSnapshot)
  | delete (asset : AssetSnapshot) (rest : List AssetSnapshot)
  | ended
  | crashed
  deriving DecidableEq

namespace MaintenanceStage

/-- The loop of `reconcileStaleUploads` takes up its next asset: one that was abandoned before is
not claimed again, and one without a key has no binary. -/
def nextStale : List AssetSnapshot → MaintenanceStage
  | [] => .ended
  | asset :: rest =>
      if asset.failureCode ≠ some abandonedUploadFailureCode then .claim asset rest
      else if asset.storageKey.getD "" = "" then nextStale rest
      else .discardStale asset rest

/-- The loop goes on with an asset that it has claimed. -/
def afterClaim (asset : AssetSnapshot) (rest : List AssetSnapshot) : MaintenanceStage :=
  if asset.storageKey.getD "" = "" then nextStale rest else .discardStale asset rest

/-- The loop of `purgeExpired` takes up its next asset. -/
def nextExpired : List AssetSnapshot → MaintenanceStage
  | [] => .ended
  | asset :: rest => .discardExpired asset rest

end MaintenanceStage

/-- A run of `reconcileStaleUploads` or `purgeExpired`. -/
structure MaintenanceJob where
  now : Time
  /-- The threshold that `reconcileStaleUploads` has read. -/
  staleMs : ℕ
  stage : MaintenanceStage

namespace MaintenanceJob

/-- Source: `CLEANUP_BATCH_SIZE`. -/
def cleanupBatchSize : ℕ := 200

/-- The `where` of the first query. -/
def isCandidate (job : MaintenanceJob) (r : MediaAsset) : Bool :=
  r.providerMediaId = none &&
    (r.isStale job.staleMs job.now ||
      (r.failureCode = some abandonedUploadFailureCode && r.storageKey ≠ none))

/-- The rows of a query, in the order of `ids`. -/
def select (assets : MediaAssets) (ids : List Uuid) (p : MediaAsset → Bool) : List AssetSnapshot :=
  ids.filterMap fun id => ((assets.find (.id id)).filter p).map MediaAsset.snapshot

/-- The rows that a claim marks. -/
def claims (job : MaintenanceJob) (asset : AssetSnapshot) (r : MediaAsset) : Bool :=
  r.id = asset.id && r.isStale job.staleMs job.now

/-- The update of a claim. -/
def markAbandoned (job : MaintenanceJob) (clock : Time) (r : MediaAsset) : MediaAsset :=
  { r with
    failedAt := some job.now
    failureCode := some abandonedUploadFailureCode
    updatedAt := clock }

/-- The rows whose key is cleared. -/
def clears (asset : AssetSnapshot) (r : MediaAsset) : Bool :=
  r.id = asset.id && r.providerMediaId = none &&
    r.failureCode = some abandonedUploadFailureCode && r.storageKey = asset.storageKey

/-- The update that clears a key. -/
def clearKey (clock : Time) (r : MediaAsset) : MediaAsset :=
  { r with storageKey := none, storedAt := none, updatedAt := clock }

/-- The pending call: the rows that it leaves, the binary that it discards, and the stages after it
returns or throws. An error of the database ends the job; one of the storage does not. -/
def pending (assets : MediaAssets) (clock : Time) (ids : List Uuid) (job : MaintenanceJob) :
    Option (Option MediaAssets × Option StoredBinary × MaintenanceStage × MaintenanceStage) :=
  match job.stage with
  | .findStale =>
      some (assets, none,
        .nextStale (select assets (ids.take cleanupBatchSize) job.isCandidate), .ended)
  | .claim asset rest =>
      some (assets.updateWhere (job.claims asset) (job.markAbandoned clock) fun _ => rfl, none,
        if assets.rows.any (job.claims asset) then .afterClaim asset rest else .nextStale rest,
        .ended)
  | .discardStale asset rest => some (assets, asset.binary, .clear asset rest, .nextStale rest)
  | .clear asset rest =>
      some (assets.mapRows? fun r => if clears asset r then clearKey clock r else r, none,
        .nextStale rest, .ended)
  | .findExpired =>
      some (assets, none,
        .nextExpired (select assets (ids.take cleanupBatchSize) (MediaAsset.isExpired job.now)),
        .ended)
  | .discardExpired asset rest =>
      some (assets, asset.binary, .delete asset rest, .nextExpired rest)
  | .delete asset rest =>
      some (assets.deleteWhere fun r => r.id = asset.id && r.isExpired job.now, none,
        .nextExpired rest, .ended)
  | .ended | .crashed => none

end MaintenanceJob

/-! ## The system -/

/-- The registry, the storage, the uploads and the jobs. -/
structure MediaSystem where
  assets : MediaAssets
  binaries : List StoredBinary
  clock : Time
  uploads : List MediaUpload
  jobs : List MaintenanceJob
  /-- History: the binaries whose `discard` has returned. -/
  discarded : List StoredBinary

/-- One step of an upload. -/
inductive UploadAct where
  /-- The pending database call ends. -/
  | call (outcome : CallOutcome)
  /-- The binary becomes visible, or a part of it. -/
  | land
  /-- `stage` returns. -/
  | staged
  /-- `stage` throws; `removed` when the copy was removed from the filesystem. -/
  | stageThrew (removed lingers : Bool)
  /-- A transfer that nobody waits for is over. -/
  | settle
  /-- `uploadMedia` ends. -/
  | provided (result : Except MediaProviderError String)
  | crash (lingers : Bool)

namespace MediaSystem

/-- One move. -/
inductive Act where
  | tick (elapsed : Time)
  /-- An upload passes its checks; `randomUUID` draws an id that no other upload has. -/
  | upload (tenantId assetId : Uuid) (mode : StorageMode)
  | onUpload (i : ℕ) (act : UploadAct)
  | reconcileStaleUploads
  | purgeExpired
  /-- The pending call of a job ends. -/
  | onJob (i : ℕ) (outcome : CallOutcome) (ids : List Uuid)
  | crashJob (i : ℕ)

/-- An empty registry and an empty storage. -/
def initial : MediaSystem where
  assets := .empty
  binaries := []
  clock := 0
  uploads := []
  jobs := []
  discarded := []

/-- Another stage, and whether the transfer goes on. -/
def setUpload (s : MediaSystem) (i : ℕ) (u : MediaUpload) (stage : UploadStage)
    (lingers : Bool) : MediaSystem :=
  { s with uploads := s.uploads.set i { u with stage := stage, lingers := lingers } }

/-- The storage with one binary more. -/
def put (binaries : List StoredBinary) : Option StoredBinary → List StoredBinary
  | none => binaries
  | some b => b :: binaries

/-- The storage without a binary. -/
def remove (binaries : List StoredBinary) (b : Option StoredBinary) : List StoredBinary :=
  binaries.filter fun other => some other ≠ b

/-- One step of an upload. -/
def stepUpload (s : MediaSystem) (i : ℕ) (u : MediaUpload) : UploadAct → Option MediaSystem
  | .call outcome =>
      (u.pending s.assets s.clock).bind fun (written, returned, threw) =>
        match outcome with
        | .returned => written.map fun assets =>
            { s.setUpload i u returned u.lingers with assets := assets }
        | .interrupted _ => written.map fun assets =>
            { s.setUpload i u threw u.lingers with assets := assets }
        | .failed _ => some (s.setUpload i u threw u.lingers)
  | .land =>
      if u.isStaging then some { s with binaries := put s.binaries u.binary } else none
  | .staged =>
      if u.stage = .staging then
        -- Without a storage nothing is written, and there is nothing to stamp.
        let stage := if u.mode = .disabled then .provider else .storedAt s.clock
        some { s.setUpload i u stage u.lingers with binaries := put s.binaries u.binary }
      else none
  | .stageThrew removed lingers =>
      if u.stage = .staging ∧ u.mode ≠ .disabled then
        let binaries :=
          if removed ∧ u.mode = .filesystem then remove s.binaries u.binary else s.binaries
        some { s.setUpload i u (.markAssetFailed "STORAGE_ERROR") lingers with
          binaries := binaries }
      else none
  | .settle => if u.lingers then some (s.setUpload i u u.stage false) else none
  | .provided result =>
      if u.stage = .provider then
        match result with
        | .ok mediaId => some (s.setUpload i u (.complete mediaId s.clock) u.lingers)
        | .error error => some (s.setUpload i u (.markAssetFailed error.failureCode) u.lingers)
      else none
  | .crash lingers =>
      if u.stage = .ended ∨ u.stage = .crashed then none
      else some (s.setUpload i u .crashed (u.lingers || (u.stage = .staging && lingers)))

/-- The pending call of a job ends. -/
def stepJob (s : MediaSystem) (i : ℕ) (job : MaintenanceJob) (outcome : CallOutcome)
    (ids : List Uuid) : Option MediaSystem :=
  (job.pending s.assets s.clock ids).bind fun (written, binary, returned, threw) =>
    match outcome with
    | .returned => written.map fun assets =>
        { s with
          assets := assets
          binaries := remove s.binaries binary
          jobs := s.jobs.set i { job with stage := returned }
          discarded := binary.toList ++ s.discarded }
    | .interrupted _ => written.map fun assets =>
        { s with
          assets := assets
          binaries := remove s.binaries binary
          jobs := s.jobs.set i { job with stage := threw } }
    | .failed _ => some { s with jobs := s.jobs.set i { job with stage := threw } }

/-- One step. -/
def step (config : MediaConfig) (s : MediaSystem) : Act → Option MediaSystem
  | .tick elapsed => some { s with clock := s.clock + elapsed }
  | .upload tenantId assetId mode =>
      if assetId ∈ s.uploads.map MediaUpload.assetId then none else
      match config.readAssetTtlDays with
      | .error _ => none
      | .ok ttlDays =>
          let expiresAt := s.clock + ttlDays * (24 * 60 * 60 * 1000)
          some { s with uploads := s.uploads ++ [{
            tenantId := tenantId
            assetId := assetId
            mode := mode
            stage := .create expiresAt
            lingers := false }] }
  | .onUpload i act => s.uploads[i]?.bind fun u => s.stepUpload i u act
  | .reconcileStaleUploads =>
      match config.readStaleUploadMs with
      | .error _ => none
      | .ok staleMs =>
          some { s with jobs := s.jobs ++ [{ now := s.clock, staleMs := staleMs,
                                             stage := .findStale }] }
  | .purgeExpired =>
      some { s with jobs := s.jobs ++ [{ now := s.clock, staleMs := 0, stage := .findExpired }] }
  | .onJob i outcome ids => s.jobs[i]?.bind fun job => s.stepJob i job outcome ids
  | .crashJob i =>
      s.jobs[i]?.bind fun job =>
        if job.stage = .ended ∨ job.stage = .crashed then none
        else some { s with jobs := s.jobs.set i { job with stage := .crashed } }

/-- Whoever is staging has a row that is neither stale nor expired. -/
def timely (config : MediaConfig) (s : MediaSystem) : Bool :=
  s.uploads.all fun u => !u.isStaging || s.assets.rows.all fun r =>
    r.id ≠ u.assetId || (!r.isExpired s.clock &&
      match config.readStaleUploadMs with
      | .ok staleMs => !r.isStale staleMs s.clock
      | .error _ => true)

end MediaSystem

end ApiWhatsApp
