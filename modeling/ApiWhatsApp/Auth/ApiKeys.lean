import ApiWhatsApp.Library.Machine
import ApiWhatsApp.Messages.Create

/-!
# API keys

`auth/api-key.guard.ts`, `auth/scopes.guard.ts` and `api-keys/api-keys.service.ts`: a request is
authenticated by the hash of its key, and with the scopes of that key it may create and revoke others.

* `authenticate` is the guard; `createApiKey`, `findRevocable` and `revokeApiKey` are the statements of
  the service. `ApiKeySystem` is the machine: any number of requests, each of them stopped at every
  `await`.
* **`no_escalation`** — no key has a scope that no key of its tenant had at the start.
* **`audit_trail`** — the log has one entry for every new key, in their order, and names what has been
  revoked and by which key.
* **`revocation`** — a key that is revoked stays so, nobody authenticates with it, and it does no more
  than the requests do that it had authenticated before.

HMAC and the random parts of a key are parameters. Keys are never deleted: the source has no statement
for it. The row of a tenant is only read for its status, which is a parameter too.
-/

namespace ApiWhatsApp

open Library

/-! ## Keys -/

/-- Source: `enum ApiScope`. -/
inductive ApiScope where
  | messagesRead
  | messagesWrite
  | mediaRead
  | mediaWrite
  | contactsRead
  | contactsWrite
  | phoneNumbersRead
  | phoneNumbersWrite
  | templatesRead
  | templatesWrite
  | campaignsRead
  | campaignsWrite
  | segmentsRead
  | segmentsWrite
  | inboxRead
  | inboxWrite
  | operationsRead
  | apiKeysRead
  | apiKeysWrite
  | auditRead
  deriving DecidableEq, Repr

/-- The values of the enumeration, as the errors name them. -/
def ApiScope.value : ApiScope → String
  | messagesRead => "messages:read"
  | messagesWrite => "messages:write"
  | mediaRead => "media:read"
  | mediaWrite => "media:write"
  | contactsRead => "contacts:read"
  | contactsWrite => "contacts:write"
  | phoneNumbersRead => "phone_numbers:read"
  | phoneNumbersWrite => "phone_numbers:write"
  | templatesRead => "templates:read"
  | templatesWrite => "templates:write"
  | campaignsRead => "campaigns:read"
  | campaignsWrite => "campaigns:write"
  | segmentsRead => "segments:read"
  | segmentsWrite => "segments:write"
  | inboxRead => "inbox:read"
  | inboxWrite => "inbox:write"
  | operationsRead => "operations:read"
  | apiKeysRead => "api_keys:read"
  | apiKeysWrite => "api_keys:write"
  | auditRead => "audit:read"

/-- Source: `model ApiKey`. Its scopes are texts there: one that is none of the scopes of the API is
asked for by no handler and can be given to no other key, so that it is left out. -/
structure ApiKey where
  id : Uuid
  tenantId : Uuid
  name : String
  prefix_ : String
  keyHash : String
  scopes : List ApiScope
  active : Bool
  lastUsedAt : Option Time
  createdAt : Time
  revokedAt : Option Time
  deriving DecidableEq, Repr

/-- The unique columns of a key. -/
inductive ApiKeyKey where
  | id (id : Uuid)
  | keyHash (keyHash : String)
  deriving DecidableEq

/-- A key is known by its id and by its hash. -/
instance : Keyed ApiKey ApiKeyKey where
  keys key := [.id key.id, .keyHash key.keyHash]

/-- The table of the keys. -/
abbrev ApiKeys := Table ApiKey

/-- Source: `safeApiKey`, a key without its hash and its tenant. -/
structure SafeApiKey where
  id : Uuid
  name : String
  prefix_ : String
  scopes : List ApiScope
  active : Bool
  lastUsedAt : Option Time
  createdAt : Time
  revokedAt : Option Time
  deriving DecidableEq, Repr

/-- Source: `safeApiKey`. -/
def ApiKey.safe (key : ApiKey) : SafeApiKey where
  id := key.id
  name := key.name
  prefix_ := key.prefix_
  scopes := key.scopes
  active := key.active
  lastUsedAt := key.lastUsedAt
  createdAt := key.createdAt
  revokedAt := key.revokedAt

/-- Source: `enum TenantStatus`. -/
inductive TenantStatus where
  | active
  | suspended
  deriving DecidableEq, Repr

/-- Source: `ApiPrincipal`. -/
structure ApiPrincipal where
  tenantId : Uuid
  apiKeyId : Uuid
  scopes : List ApiScope
  deriving DecidableEq, Repr

/-- Source: `AuditRequestContext`. -/
structure AuditRequestContext where
  ipAddress : Option String
  userAgent : Option String
  deriving DecidableEq, Repr

/-- Source: `model AuditLog`, with the `metadata` of the entries about keys. -/
structure AuditLog where
  tenantId : Uuid
  actorApiKeyId : Uuid
  action : String
  entityType : String
  entityId : Uuid
  name : String
  prefix_ : String
  scopes : List ApiScope
  context : AuditRequestContext
  deriving DecidableEq, Repr

/-- Source: `CreateApiKeyDto`. -/
structure CreateApiKeyDto where
  name : String
  scopes : List ApiScope
  deriving DecidableEq, Repr

/-! ## Guards -/

/-- What the guards and the service take from outside: `API_KEY_HASH_SECRET`, and
`createHmac("sha256", hashSecret).update(rawKey).digest("hex")`. -/
structure KeyHashing where
  hashSecret : Option String
  hashApiKey : String → String → String

/-- `process.env.API_KEY_HASH_SECRET`, which must not be empty. -/
def KeyHashing.secret (env : KeyHashing) : Except HttpError String :=
  match env.hashSecret with
  | none => .error (.other "API_KEY_HASH_SECRET is required")
  | some secret =>
      if secret = "" then .error (.other "API_KEY_HASH_SECRET is required") else .ok secret

/-- Source: `LAST_USED_WRITE_INTERVAL_MS`. -/
def lastUsedWriteIntervalMs : ℕ := 15 * 60 * 1000

/-- The key opens the door: it is active, was not revoked, and its tenant is active. -/
def ApiKey.isUsable (key : ApiKey) (status : TenantStatus) : Bool :=
  key.active && key.revokedAt.isNone && status = .active

/-- The principal of a key. -/
def ApiKey.principal (key : ApiKey) : ApiPrincipal where
  tenantId := key.tenantId
  apiKeyId := key.id
  scopes := key.scopes

/-- Source: `ApiKeyGuard.canActivate`, up to the write of `lastUsedAt`, which it says is due or not. -/
def authenticate (env : KeyHashing) (keys : ApiKeys) (status : TenantStatus) (now : Time)
    (rawKey : Option String) : Except HttpError (ApiPrincipal × Bool) := do
  let rawKey := rawKey.getD ""
  if rawKey = "" then throw (.other "X-API-Key header is required")
  let secret ← env.secret
  match keys.find (.keyHash (env.hashApiKey rawKey secret)) with
  | none => throw (.other "Invalid or inactive API key")
  | some apiKey =>
      if !apiKey.isUsable status then throw (.other "Invalid or inactive API key")
      return (apiKey.principal,
        apiKey.lastUsedAt.all fun lastUsedAt => lastUsedAt + lastUsedWriteIntervalMs ≤ now)

/-- The `update` of `lastUsedAt`. -/
def markUsed (keys : ApiKeys) (id : Uuid) (now : Time) : ApiKeys :=
  keys.updateWhere (fun key => key.id = id) (fun key => { key with lastUsedAt := some now })
    fun _ => rfl

/-- The scopes that are asked for and not held. -/
def missingScopes (required held : List ApiScope) : List ApiScope :=
  required.filter fun scope => !held.contains scope

/-- How the errors list scopes. -/
def scopeList (scopes : List ApiScope) : String := String.intercalate ", " (scopes.map ApiScope.value)

/-- Source: `ScopesGuard.canActivate`. -/
def checkScopes (required : List ApiScope) (principal : ApiPrincipal) : Except HttpError Unit :=
  let missing := missingScopes required principal.scopes
  if missing.length > 0 then
    .error (.forbidden s!"Missing required API scopes: {scopeList missing}")
  else .ok ()

/-! ## The service -/

/-- What a request asks of the controller. -/
inductive ApiKeyCommand where
  | create (dto : CreateApiKeyDto)
  | list
  | revoke (id : Uuid)
  deriving DecidableEq, Repr

/-- Source: the `@RequireScopes` of `ApiKeysController`. -/
def ApiKeyCommand.requiredScopes : ApiKeyCommand → List ApiScope
  | create _ => [.apiKeysWrite]
  | list => [.apiKeysRead]
  | revoke _ => [.apiKeysWrite]

/-- What the service answers. -/
inductive ApiKeyResponse where
  | created (apiKey : String) (key : SafeApiKey)
  | listed (keys : List SafeApiKey)
  | revoked (key : SafeApiKey)
  deriving DecidableEq, Repr

/-- The entry of the audit log about a key. -/
def auditEntry (principal : ApiPrincipal) (context : AuditRequestContext) (action : String)
    (key : ApiKey) : AuditLog where
  tenantId := principal.tenantId
  actorApiKeyId := principal.apiKeyId
  action := action
  entityType := "ApiKey"
  entityId := key.id
  name := key.name
  prefix_ := key.prefix_
  scopes := key.scopes
  context := context

/-- Source: `generateApiKey`, from its two random parts. -/
def generateApiKey (randomPrefix secret : String) : String :=
  s!"wapi_{randomPrefix}_{secret}"

/-- Source: `ApiKeysService.create`: the table and the entry that its transaction leaves. -/
def createApiKey (env : KeyHashing) (keys : ApiKeys) (principal : ApiPrincipal)
    (context : AuditRequestContext) (dto : CreateApiKeyDto) (newId : Uuid) (now : Time)
    (randomPrefix secret : String) : Except HttpError (ApiKeys × AuditLog × ApiKeyResponse) := do
  let requestedScopes := newSet dto.scopes
  let unauthorizedScopes := missingScopes requestedScopes principal.scopes
  if unauthorizedScopes.length > 0 then
    throw (.forbidden
      s!"Cannot grant scopes not held by the current API key: {scopeList unauthorizedScopes}")
  let hashSecret ← env.secret
  let rawKey := generateApiKey randomPrefix secret
  let created : ApiKey := {
    id := newId
    tenantId := principal.tenantId
    name := trim dto.name
    prefix_ := randomPrefix
    keyHash := env.hashApiKey rawKey hashSecret
    scopes := requestedScopes
    active := true
    lastUsedAt := none
    createdAt := now
    revokedAt := none }
  match keys.insert? created with
  | none => throw (.other "Unique constraint failed")
  | some keys' =>
      return (keys', auditEntry principal context "api_key.created" created,
        .created rawKey created.safe)

/-- The `orderBy` of `list`. -/
def listedBefore (a b : ApiKey) : Prop :=
  b.active < a.active ∨ b.active = a.active ∧ b.createdAt ≤ a.createdAt

/-- The order of the list. -/
instance : DecidableRel listedBefore := fun a b =>
  inferInstanceAs (Decidable (b.active < a.active ∨ b.active = a.active ∧ b.createdAt ≤ a.createdAt))

/-- Source: `ApiKeysService.list`. -/
def listApiKeys (keys : ApiKeys) (tenantId : Uuid) : List SafeApiKey :=
  ((keys.rows.filter fun key => key.tenantId = tenantId).insertionSort listedBefore).map ApiKey.safe

/-- Source: the first statement of `ApiKeysService.revoke`, with the answer if there is nothing to do. -/
def findRevocable (keys : ApiKeys) (principal : ApiPrincipal) (id : Uuid) :
    Except HttpError (ApiKey ⊕ ApiKeyResponse) :=
  match (keys.find (.id id)).filter fun key => key.tenantId = principal.tenantId with
  | none => .error (.notFound "API key not found")
  | some existing =>
      if !existing.active || existing.revokedAt.isSome then .ok (.inr (.revoked existing.safe))
      else .ok (.inl existing)

/-- The `update` of `revoke`. -/
def markRevoked (keys : ApiKeys) (id : Uuid) (revokedAt : Time) : ApiKeys :=
  keys.updateWhere (fun key => key.id = id)
    (fun key => { key with active := false, revokedAt := some revokedAt }) fun _ => rfl

/-- Source: the other statements of `ApiKeysService.revoke`. -/
def revokeApiKey (keys : ApiKeys) (principal : ApiPrincipal) (context : AuditRequestContext)
    (id : Uuid) (revokedAt : Time) : Except HttpError (ApiKeys × AuditLog × ApiKeyResponse) :=
  let keys' := markRevoked keys id revokedAt
  match keys'.find (.id id) with
  | none => .error (.other "Record to update not found")
  | some revoked =>
      .ok (keys', auditEntry principal context "api_key.revoked" revoked, .revoked revoked.safe)

/-! ## Requests -/

/-- Where a request stands. -/
inductive ApiKeyStage where
  /-- About to look for its key. -/
  | received
  /-- About to write `lastUsedAt`. -/
  | used (principal : ApiPrincipal)
  /-- About to run the first statement of the service. -/
  | authenticated (principal : ApiPrincipal)
  /-- About to revoke a key that it has found. -/
  | revoking (principal : ApiPrincipal) (existing : ApiKey)
  | returned (response : ApiKeyResponse)
  | thrown (error : HttpError)

/-- As whom a request acts. -/
def ApiKeyStage.principal? : ApiKeyStage → Option ApiPrincipal
  | used principal | authenticated principal | revoking principal _ => some principal
  | _ => none

/-- A call, and how far it has got. -/
structure ApiKeyCall where
  rawKey : Option String
  context : AuditRequestContext
  command : ApiKeyCommand
  stage : ApiKeyStage

/-- What a statement meets: the status of the tenant, the clock, and random choices. -/
structure Circumstances where
  status : TenantStatus
  now : Time
  newId : Uuid
  randomPrefix : String
  secret : String

/-- What a statement leaves: the table, an entry of the log, and the next stage when it returns. -/
structure ApiKeyEffect where
  keys : ApiKeys
  entry : Option AuditLog
  stage : ApiKeyStage

/-- A statement without an effect. -/
def ApiKeyEffect.silent (keys : ApiKeys) (stage : ApiKeyStage) : ApiKeyEffect where
  keys := keys
  entry := none
  stage := stage

/-- The end of a call of the service. -/
def ApiKeyEffect.finish (keys : ApiKeys) :
    Except HttpError (ApiKeys × AuditLog × ApiKeyResponse) → ApiKeyEffect
  | .error error => .silent keys (.thrown error)
  | .ok (keys', entry, response) => ⟨keys', some entry, .returned response⟩

/-- The pending statement of a request. -/
def ApiKeyCall.pending (env : KeyHashing) (keys : ApiKeys) (c : Circumstances) (call : ApiKeyCall) :
    Option ApiKeyEffect :=
  match call.stage with
  | .received =>
      match authenticate env keys c.status c.now call.rawKey with
      | .error error => some (.silent keys (.thrown error))
      | .ok (principal, true) => some (.silent keys (.used principal))
      | .ok (principal, false) => some (.silent keys (.authenticated principal))
  | .used principal =>
      some (.silent (markUsed keys principal.apiKeyId c.now) (.authenticated principal))
  | .authenticated principal =>
      match checkScopes call.command.requiredScopes principal, call.command with
      | .error error, _ => some (.silent keys (.thrown error))
      | .ok (), .create dto =>
          some (.finish keys (createApiKey env keys principal call.context dto c.newId c.now
            c.randomPrefix c.secret))
      | .ok (), .list => some (.silent keys (.returned (.listed (listApiKeys keys principal.tenantId))))
      | .ok (), .revoke id =>
          match findRevocable keys principal id with
          | .error error => some (.silent keys (.thrown error))
          | .ok (.inr response) => some (.silent keys (.returned response))
          | .ok (.inl existing) => some (.silent keys (.revoking principal existing))
  | .revoking principal existing =>
      some (.finish keys (revokeApiKey keys principal call.context existing.id c.now))
  | .returned _ => none
  | .thrown _ => none

/-- The keys, the log with its newest entry first, and the requests. -/
structure ApiKeySystem where
  keys : ApiKeys
  auditLog : List AuditLog
  calls : List ApiKeyCall

namespace ApiKeySystem

/-- The steps of the system. -/
inductive Act where
  /-- A request comes in. -/
  | request (rawKey : Option String) (context : AuditRequestContext) (command : ApiKeyCommand)
  /-- The pending statement of a request ends. -/
  | call (i : ℕ) (outcome : CallOutcome) (c : Circumstances)

/-- One step. -/
def step (env : KeyHashing) (s : ApiKeySystem) : Act → Option ApiKeySystem
  | .request rawKey context command =>
      some { s with calls := s.calls ++ [⟨rawKey, context, command, .received⟩] }
  | .call i outcome c =>
      s.calls[i]?.bind fun call =>
        (call.pending env s.keys c).map fun effect =>
          match outcome with
          | .returned => ⟨effect.keys, effect.entry.toList ++ s.auditLog,
              s.calls.set i { call with stage := effect.stage }⟩
          | .interrupted error => ⟨effect.keys, effect.entry.toList ++ s.auditLog,
              s.calls.set i { call with stage := .thrown (.other error) }⟩
          | .failed error =>
              { s with calls := s.calls.set i { call with stage := .thrown (.other error) } }

/-- Keys and a log, and no requests. -/
def start (keys : ApiKeys) (auditLog : List AuditLog) : ApiKeySystem where
  keys := keys
  auditLog := auditLog
  calls := []

end ApiKeySystem

/-! ## What a statement does -/

/-- What no statement changes of a key. -/
def ApiKey.fixed (key : ApiKey) : ApiKey :=
  { key with active := true, lastUsedAt := none, revokedAt := none }

/-- A key that opens no door any more. -/
def ApiKey.isRevoked (key : ApiKey) : Bool := !key.active || key.revokedAt.isSome

/-- The moves of a request: what its pending statement may leave. -/
inductive ApiKeyMove (keys : ApiKeys) (call : ApiKeyCall) : ApiKeyEffect → Prop
  | stop {stage : ApiKeyStage} (hstage : stage.principal? = none) :
      ApiKeyMove keys call (.silent keys stage)
  | authenticate {key : ApiKey} {stage : ApiKeyStage} (hmem : key ∈ keys.rows)
      (husable : key.isRevoked = false)
      (hstage : stage = .used key.principal ∨ stage = .authenticated key.principal) :
      ApiKeyMove keys call (.silent keys stage)
  | markUsed {principal : ApiPrincipal} {now : Time} (hcall : call.stage = .used principal) :
      ApiKeyMove keys call
        (.silent (markUsed keys principal.apiKeyId now) (.authenticated principal))
  | find {principal : ApiPrincipal} {existing : ApiKey} (hcall : call.stage = .authenticated principal)
      (hscope : ApiScope.apiKeysWrite ∈ principal.scopes) (hmem : existing ∈ keys.rows)
      (htenant : existing.tenantId = principal.tenantId) :
      ApiKeyMove keys call (.silent keys (.revoking principal existing))
  | create {principal : ApiPrincipal} {created : ApiKey} {keys' : ApiKeys} {response : ApiKeyResponse}
      (hcall : call.stage = .authenticated principal)
      (hscope : ApiScope.apiKeysWrite ∈ principal.scopes)
      (htenant : created.tenantId = principal.tenantId)
      (hscopes : ∀ scope ∈ created.scopes, scope ∈ principal.scopes)
      (husable : created.isRevoked = false) (hinsert : keys.insert? created = some keys') :
      ApiKeyMove keys call
        ⟨keys', some (auditEntry principal call.context "api_key.created" created), .returned response⟩
  | revoke {principal : ApiPrincipal} {existing revoked : ApiKey} {revokedAt : Time}
      {response : ApiKeyResponse} (hcall : call.stage = .revoking principal existing)
      (hfind : (markRevoked keys existing.id revokedAt).find (.id existing.id) = some revoked) :
      ApiKeyMove keys call ⟨markRevoked keys existing.id revokedAt,
        some (auditEntry principal call.context "api_key.revoked" revoked), .returned response⟩

/-- No scope is missing just when all are held. -/
theorem missingScopes_eq_nil {required held : List ApiScope} :
    missingScopes required held = [] ↔ ∀ scope ∈ required, scope ∈ held := by
  simp [missingScopes, List.filter_eq_nil_iff]

/-- The check is passed just when every scope is held. -/
theorem checkScopes_eq_ok {required : List ApiScope} {principal : ApiPrincipal} :
    checkScopes required principal = .ok () ↔ ∀ scope ∈ required, scope ∈ principal.scopes := by
  unfold checkScopes
  rw [← missingScopes_eq_nil]
  dsimp only
  split_ifs with h
  · refine iff_of_false (fun h' => nomatch h') (List.ne_nil_of_length_pos h)
  · exact iff_of_true rfl (List.eq_nil_of_length_eq_zero (Nat.eq_zero_of_not_pos h))

/-- Who is authenticated has a key that is not revoked. -/
theorem exists_key_of_authenticate {env : KeyHashing} {keys : ApiKeys} {status : TenantStatus}
    {now : Time} {rawKey : Option String} {principal : ApiPrincipal} {due : Bool}
    (h : authenticate env keys status now rawKey = .ok (principal, due)) :
    ∃ key ∈ keys.rows, key.isRevoked = false ∧ principal = key.principal := by
  unfold authenticate at h
  dsimp only at h
  split_ifs at h with hkey
  · cases h
  obtain ⟨secret, -, h⟩ := bind_eq_ok.mp h
  split at h
  · cases h
  · rename_i key hfind
    split_ifs at h with husable
    · cases h
    cases h
    refine ⟨key, (keys.find_eq_some_iff.mp hfind).1, ?_, rfl⟩
    simp only [ApiKey.isUsable, Bool.not_eq_true', Bool.and_eq_false_iff, not_or, Bool.not_eq_false]
      at husable
    rw [ApiKey.isRevoked, husable.1.1]
    simpa using husable.1.2

/-- A key that is created has no scope that its creator has not. -/
theorem createApiKey_eq_ok {env : KeyHashing} {keys keys' : ApiKeys} {principal : ApiPrincipal}
    {context : AuditRequestContext} {dto : CreateApiKeyDto} {newId : Uuid} {now : Time}
    {randomPrefix secret : String} {entry : AuditLog} {response : ApiKeyResponse}
    (h : createApiKey env keys principal context dto newId now randomPrefix secret =
      .ok (keys', entry, response)) :
    ∃ created : ApiKey, created.tenantId = principal.tenantId ∧
      (∀ scope ∈ created.scopes, scope ∈ principal.scopes) ∧ created.isRevoked = false ∧
      keys.insert? created = some keys' ∧
      entry = auditEntry principal context "api_key.created" created := by
  unfold createApiKey at h
  dsimp only at h
  split_ifs at h with hscopes
  · cases h
  obtain ⟨hashSecret, -, h⟩ := bind_eq_ok.mp h
  split at h
  · cases h
  · rename_i hinsert
    cases h
    refine ⟨_, rfl, ?_, rfl, hinsert, rfl⟩
    exact missingScopes_eq_nil.mp (List.eq_nil_of_length_eq_zero (Nat.eq_zero_of_not_pos hscopes))

/-- A statement makes one of the moves. -/
theorem move_of_pending {env : KeyHashing} {keys : ApiKeys} {c : Circumstances} {call : ApiKeyCall}
    {effect : ApiKeyEffect} (h : call.pending env keys c = some effect) : ApiKeyMove keys call effect := by
  unfold ApiKeyCall.pending at h
  split at h
  · split at h
    · cases h
      exact .stop rfl
    all_goals
      rename_i principal hok
      cases h
      obtain ⟨key, hmem, husable, rfl⟩ := exists_key_of_authenticate hok
    · exact .authenticate hmem husable (.inl rfl)
    · exact .authenticate hmem husable (.inr rfl)
  · rename_i principal hstage
    cases h
    exact .markUsed hstage
  · rename_i principal hstage
    split at h
    · cases h
      exact .stop rfl
    · rename_i dto hscopes hcommand
      cases h
      have hscope := checkScopes_eq_ok.mp hscopes .apiKeysWrite
        (by rw [hcommand]; exact List.mem_singleton_self _)
      unfold ApiKeyEffect.finish
      split
      · exact .stop rfl
      · rename_i hcreate
        obtain ⟨created, htenant, hheld, husable, hinsert, rfl⟩ := createApiKey_eq_ok hcreate
        exact .create hstage hscope htenant hheld husable hinsert
    · cases h
      exact .stop rfl
    · rename_i id hscopes hcommand
      have hscope := checkScopes_eq_ok.mp hscopes .apiKeysWrite
        (by rw [hcommand]; exact List.mem_singleton_self _)
      split at h
      · cases h
        exact .stop rfl
      · cases h
        exact .stop rfl
      · rename_i existing hfind
        cases h
        unfold findRevocable at hfind
        split at hfind
        · cases hfind
        · rename_i found hfound
          split_ifs at hfind with hdone
          · cases hfind
          · cases hfind
            obtain ⟨hrow, htenant⟩ := Option.filter_eq_some_iff.mp hfound
            exact .find hstage hscope (keys.find_eq_some_iff.mp hrow).1 (of_decide_eq_true htenant)
  · rename_i principal existing hstage
    cases h
    unfold ApiKeyEffect.finish revokeApiKey
    dsimp only
    cases hfind : (markRevoked keys existing.id c.now).find (.id existing.id) with
    | none => exact .stop rfl
    | some revoked => exact .revoke hstage hfind
  · cases h
  · cases h

/-! ## What a move keeps -/

/-- Use changes no column that is fixed. -/
@[simp] theorem fixed_markUsed (keys : ApiKeys) (id : Uuid) (now : Time) :
    (markUsed keys id now).rows.map ApiKey.fixed = keys.rows.map ApiKey.fixed := by
  rw [markUsed, Table.rows_updateWhere, List.map_map]
  refine List.map_congr_left fun key _ => ?_
  rw [Function.comp_apply]
  split_ifs <;> rfl

/-- Revocation changes no column that is fixed. -/
@[simp] theorem fixed_markRevoked (keys : ApiKeys) (id : Uuid) (revokedAt : Time) :
    (markRevoked keys id revokedAt).rows.map ApiKey.fixed = keys.rows.map ApiKey.fixed := by
  rw [markRevoked, Table.rows_updateWhere, List.map_map]
  refine List.map_congr_left fun key _ => ?_
  rw [Function.comp_apply]
  split_ifs <;> rfl

/-- A key is still there, with its fixed columns. -/
theorem exists_fixed_eq {keys keys' : ApiKeys} {key : ApiKey}
    (h : keys'.rows.map ApiKey.fixed = keys.rows.map ApiKey.fixed) (hmem : key ∈ keys.rows) :
    ∃ key' ∈ keys'.rows, key'.fixed = key.fixed :=
  List.mem_map.mp (h ▸ List.mem_map_of_mem hmem)

/-- The id is fixed. -/
theorem id_of_fixed {a b : ApiKey} (h : a.fixed = b.fixed) : a.id = b.id :=
  show a.fixed.id = b.fixed.id by rw [h]

/-- The tenant is fixed. -/
theorem tenantId_of_fixed {a b : ApiKey} (h : a.fixed = b.fixed) : a.tenantId = b.tenantId :=
  show a.fixed.tenantId = b.fixed.tenantId by rw [h]

/-- The id tells keys apart. -/
theorem eq_of_id (keys : ApiKeys) {a b : ApiKey} (ha : a ∈ keys.rows) (hb : b ∈ keys.rows)
    (h : a.id = b.id) : a = b := by
  have hkey : ApiKeyKey.id b.id ∈ Keyed.keys a := by
    rw [← h]
    exact List.mem_cons_self
  exact keys.eq_of_mem_keys ha hb hkey List.mem_cons_self

/-- An insertion takes no key away. -/
theorem mem_of_insert? {keys keys' : ApiKeys} {key created : ApiKey}
    (h : keys.insert? created = some keys') (hmem : key ∈ keys.rows) : key ∈ keys'.rows := by
  rw [Table.rows_of_insert? h]
  exact List.mem_cons_of_mem _ hmem

/-- Using a key does not revoke one. -/
theorem mem_markUsed {keys : ApiKeys} {id : Uuid} {now : Time} {key' : ApiKey}
    (h : key' ∈ (markUsed keys id now).rows) :
    ∃ key ∈ keys.rows, key'.id = key.id ∧ key'.isRevoked = key.isRevoked := by
  rw [markUsed, Table.rows_updateWhere] at h
  obtain ⟨key, hmem, rfl⟩ := List.mem_map.mp h
  exact ⟨key, hmem, by split_ifs <;> rfl, by split_ifs <;> rfl⟩

/-- What is revoked is the key that is asked for. -/
theorem mem_markRevoked {keys : ApiKeys} {id : Uuid} {revokedAt : Time} {key' : ApiKey}
    (h : key' ∈ (markRevoked keys id revokedAt).rows) :
    ∃ key ∈ keys.rows, key'.id = key.id ∧
      (key'.isRevoked = true ↔ key.isRevoked = true ∨ key.id = id) := by
  rw [markRevoked, Table.rows_updateWhere] at h
  obtain ⟨key, hmem, rfl⟩ := List.mem_map.mp h
  refine ⟨key, hmem, by split_ifs <;> rfl, ?_⟩
  split_ifs with hid
  · exact iff_of_true rfl (.inr (of_decide_eq_true hid))
  · rw [or_iff_left (fun heq => hid (decide_eq_true heq))]

/-! ## The system -/

namespace ApiKeySystem

variable {env : KeyHashing} {s s' s₀ : ApiKeySystem} {act : Act}

/-- A step makes a request, or a move of one; the request then stands where the move leaves it, or it
has thrown. -/
theorem step_cases (h : step env s act = some s') :
    (∃ call : ApiKeyCall, call.stage = .received ∧ s' = { s with calls := s.calls ++ [call] }) ∨
    ∃ (i : ℕ) (call : ApiKeyCall) (effect : ApiKeyEffect) (stage : ApiKeyStage), s.calls[i]? = some call ∧
      ApiKeyMove s.keys call effect ∧ (stage = effect.stage ∨ stage.principal? = none) ∧
      s' = ⟨effect.keys, effect.entry.toList ++ s.auditLog,
        s.calls.set i { call with stage := stage }⟩ := by
  cases act with
  | request rawKey context command =>
      cases h
      exact .inl ⟨_, rfl, rfl⟩
  | call i outcome c =>
      obtain ⟨call, hcall, h⟩ := Option.bind_eq_some_iff.mp h
      obtain ⟨effect, heffect, h⟩ := Option.map_eq_some_iff.mp h
      have hmove := move_of_pending heffect
      right
      cases outcome with
      | returned => exact ⟨i, call, effect, effect.stage, hcall, hmove, .inl rfl, h.symm⟩
      | interrupted error => exact ⟨i, call, effect, _, hcall, hmove, .inr rfl, h.symm⟩
      | failed error =>
          exact ⟨i, call, .silent s.keys (.thrown (.other error)), _, hcall, .stop rfl, .inl rfl, h.symm⟩

/-- What is fixed of a key outlives every move. -/
theorem exists_fixed_of_move {keys : ApiKeys} {call : ApiKeyCall} {effect : ApiKeyEffect} {key : ApiKey}
    (hmove : ApiKeyMove keys call effect) (hmem : key ∈ keys.rows) :
    ∃ key' ∈ effect.keys.rows, key'.fixed = key.fixed := by
  cases hmove with
  | stop => exact ⟨key, hmem, rfl⟩
  | authenticate => exact ⟨key, hmem, rfl⟩
  | markUsed => exact exists_fixed_eq (fixed_markUsed ..) hmem
  | find => exact ⟨key, hmem, rfl⟩
  | create hcall hscope htenant hscopes husable hinsert =>
      exact ⟨key, mem_of_insert? hinsert hmem, rfl⟩
  | revoke => exact exists_fixed_eq (fixed_markRevoked ..) hmem

/-- Requests act as keys of the table, and revoke keys of their tenant. -/
structure Legal (s : ApiKeySystem) : Prop where
  holder : ∀ call ∈ s.calls, ∀ principal, call.stage.principal? = some principal →
    ∃ key ∈ s.keys.rows, key.fixed.principal = principal
  revoker : ∀ call ∈ s.calls, ∀ principal existing, call.stage = .revoking principal existing →
    ApiScope.apiKeysWrite ∈ principal.scopes ∧ existing.tenantId = principal.tenantId ∧
      ∃ key ∈ s.keys.rows, key.fixed = existing.fixed

/-- At the start no call is under way. -/
theorem legal_start (keys : ApiKeys) (auditLog : List AuditLog) : (start keys auditLog).Legal where
  holder _ hcall := absurd hcall List.not_mem_nil
  revoker _ hcall := absurd hcall List.not_mem_nil

/-- A step keeps the calls lawful. -/
theorem Legal.step (hs : s.Legal) (h : step env s act = some s') : s'.Legal := by
  obtain ⟨call, hreceived, rfl⟩ | ⟨i, call, effect, stage, hcall, hmove, hstage, rfl⟩ := step_cases h
  · have hnew : ∀ call' ∈ s.calls ++ [call], call' ∈ s.calls ∨ call'.stage = .received := by
      intro call' hmem
      rcases List.mem_append.mp hmem with hold | hnew
      · exact .inl hold
      · exact .inr (List.mem_singleton.mp hnew ▸ hreceived)
    refine ⟨fun call' hmem principal hprincipal => ?_, fun call' hmem principal existing heq => ?_⟩
    · rcases hnew call' hmem with hold | hnone
      · exact hs.holder call' hold principal hprincipal
      · rw [hnone] at hprincipal
        cases hprincipal
    · rcases hnew call' hmem with hold | hnone
      · exact hs.revoker call' hold principal existing heq
      · rw [hnone] at heq
        cases heq
  · have hmem := List.mem_of_getElem? hcall
    refine ⟨fun call' hmem' principal hprincipal => ?_, fun call' hmem' principal existing heq => ?_⟩
    · rcases List.mem_or_eq_of_mem_set hmem' with hold | rfl
      · obtain ⟨key, hkey, rfl⟩ := hs.holder call' hold principal hprincipal
        obtain ⟨key', hkey', heq⟩ := exists_fixed_of_move hmove hkey
        exact ⟨key', hkey', by rw [heq]⟩
      · rcases hstage with rfl | hnone
        · -- The principal is the one the request had, or that of the key it has found.
          have hheld : ∃ key ∈ s.keys.rows, key.fixed.principal = principal := by
            cases hmove with
            | stop hnone => exact nomatch hnone.symm.trans hprincipal
            | authenticate hkey husable hstage =>
                rcases hstage with rfl | rfl <;> cases hprincipal <;> exact ⟨_, hkey, rfl⟩
            | markUsed hused =>
                cases hprincipal
                exact hs.holder call hmem _ (by rw [hused]; rfl)
            | find hauthenticated =>
                cases hprincipal
                exact hs.holder call hmem _ (by rw [hauthenticated]; rfl)
            | create => cases hprincipal
            | revoke => cases hprincipal
          obtain ⟨key, hkey, rfl⟩ := hheld
          obtain ⟨key', hkey', heq⟩ := exists_fixed_of_move hmove hkey
          exact ⟨key', hkey', by rw [heq]⟩
        · exact nomatch hnone.symm.trans hprincipal
    · rcases List.mem_or_eq_of_mem_set hmem' with hold | rfl
      · obtain ⟨hscope, htenant, key, hkey, hfixed⟩ := hs.revoker call' hold principal existing heq
        obtain ⟨key', hkey', heq'⟩ := exists_fixed_of_move hmove hkey
        exact ⟨hscope, htenant, key', hkey', heq'.trans hfixed⟩
      · rcases hstage with rfl | hnone
        · cases hmove with
          | stop hnone => exact nomatch hnone.symm.trans (congrArg ApiKeyStage.principal? heq)
          | authenticate hkey husable hstage =>
              rcases hstage with rfl | rfl <;> cases heq
          | markUsed hused => cases heq
          | find hauthenticated hscope hfound htenant =>
              cases heq
              exact ⟨hscope, htenant, _, hfound, rfl⟩
          | create => cases heq
          | revoke => cases heq
        · exact nomatch hnone.symm.trans (congrArg ApiKeyStage.principal? heq)

/-- Every key has its scopes from a key that its tenant had at the start, and one that may create
keys unless it is that key itself. -/
def Rooted (s₀ s : ApiKeySystem) : Prop :=
  ∀ key ∈ s.keys.rows, ∃ root ∈ s₀.keys.rows, root.tenantId = key.fixed.tenantId ∧
    (∀ scope ∈ key.fixed.scopes, scope ∈ root.scopes) ∧
    (root.id = key.fixed.id ∨ ApiScope.apiKeysWrite ∈ root.scopes)

/-- A step gives no key more than its root has. -/
theorem Rooted.step (hroot : Rooted s₀ s) (hs : s.Legal) (h : step env s act = some s') :
    Rooted s₀ s' := by
  obtain ⟨call, -, rfl⟩ | ⟨i, call, effect, stage, hcall, hmove, -, rfl⟩ := step_cases h
  · exact hroot
  · have hkept : ∀ keys : ApiKeys, keys.rows.map ApiKey.fixed = s.keys.rows.map ApiKey.fixed →
        ∀ auditLog calls, Rooted s₀ ⟨keys, auditLog, calls⟩ := by
      intro keys hfixed auditLog calls key hmem
      obtain ⟨key', hmem', heq⟩ := exists_fixed_eq hfixed.symm hmem
      rw [← heq]
      exact hroot key' hmem'
    cases hmove with
    | stop => exact hroot
    | authenticate => exact hroot
    | markUsed => exact hkept _ (fixed_markUsed ..) _ _
    | find => exact hroot
    | create hauthenticated hscope htenant hscopes husable hinsert =>
        obtain ⟨actor, hactor, rfl⟩ :=
          hs.holder call (List.mem_of_getElem? hcall) _ (by rw [hauthenticated]; rfl)
        obtain ⟨root, hmem, hrootTenant, hrootScopes, -⟩ := hroot actor hactor
        intro key hkey
        rw [Table.rows_of_insert? hinsert] at hkey
        rcases List.mem_cons.mp hkey with rfl | hold
        · exact ⟨root, hmem, hrootTenant.trans htenant.symm,
            fun scope hmem' => hrootScopes scope (hscopes scope hmem'), .inr (hrootScopes _ hscope)⟩
        · exact hroot key hold
    | revoke => exact hkept _ (fixed_markRevoked ..) _ _

/-! ## The audit log -/

/-- What has happened to the keys since the start, and what the log says of it. -/
structure Trail (s₀ s : ApiKeySystem) (newKeys : List ApiKey) (entries : List AuditLog) : Prop where
  keys : s.keys.rows.map ApiKey.fixed = newKeys ++ s₀.keys.rows.map ApiKey.fixed
  log : s.auditLog = entries ++ s₀.auditLog
  created : (entries.filter fun entry => entry.action = "api_key.created").map AuditLog.entityId =
    newKeys.map ApiKey.id
  actor : ∀ entry ∈ entries, ∃ key ∈ s.keys.rows, key.fixed.id = entry.actorApiKeyId ∧
    key.fixed.tenantId = entry.tenantId ∧ ApiScope.apiKeysWrite ∈ key.fixed.scopes
  entity : ∀ entry ∈ entries, ∃ key ∈ s.keys.rows, key.fixed.id = entry.entityId ∧
    key.fixed.tenantId = entry.tenantId ∧ key.fixed.name = entry.name ∧
    key.fixed.prefix_ = entry.prefix_ ∧ key.fixed.scopes = entry.scopes
  revoked : ∀ key ∈ s.keys.rows, key.isRevoked = true ↔
    (∃ key₀ ∈ s₀.keys.rows, key₀.id = key.id ∧ key₀.isRevoked = true) ∨
      ∃ entry ∈ entries, entry.action = "api_key.revoked" ∧ entry.entityId = key.id

/-- The trail of no step is empty. -/
theorem trail_refl (s : ApiKeySystem) : Trail s s [] [] where
  keys := rfl
  log := rfl
  created := rfl
  actor _ hmem := absurd hmem List.not_mem_nil
  entity _ hmem := absurd hmem List.not_mem_nil
  revoked key hmem := by
    simp only [List.not_mem_nil, false_and, exists_false, or_false]
    refine ⟨fun h => ⟨key, hmem, rfl, h⟩, ?_⟩
    rintro ⟨key₀, hmem₀, hid, hrevoked⟩
    rwa [← eq_of_id s.keys hmem₀ hmem hid]

section

variable {newKeys : List ApiKey} {entries : List AuditLog}

/-- A move without an entry leaves the trail as it is. -/
theorem Trail.silent (h : Trail s₀ s newKeys entries) {keys : ApiKeys} {calls : List ApiKeyCall}
    (hfixed : keys.rows.map ApiKey.fixed = s.keys.rows.map ApiKey.fixed)
    (hrevoked : ∀ key' ∈ keys.rows, ∃ key ∈ s.keys.rows, key'.id = key.id ∧
      key'.isRevoked = key.isRevoked) :
    Trail s₀ ⟨keys, s.auditLog, calls⟩ newKeys entries where
  keys := hfixed.trans h.keys
  log := h.log
  created := h.created
  actor entry hmem := by
    obtain ⟨key, hkey, hactor⟩ := h.actor entry hmem
    obtain ⟨key', hkey', heq⟩ := exists_fixed_eq hfixed hkey
    exact ⟨key', hkey', heq ▸ hactor⟩
  entity entry hmem := by
    obtain ⟨key, hkey, hentity⟩ := h.entity entry hmem
    obtain ⟨key', hkey', heq⟩ := exists_fixed_eq hfixed hkey
    exact ⟨key', hkey', heq ▸ hentity⟩
  revoked key' hmem := by
    obtain ⟨key, hkey, hid, heq⟩ := hrevoked key' hmem
    rw [heq, hid]
    exact h.revoked key hkey

/-- A key that is created adds itself, and its entry. -/
theorem Trail.create (h : Trail s₀ s newKeys entries) {keys : ApiKeys} {calls : List ApiKeyCall}
    {actor created : ApiKey} {context : AuditRequestContext} (hactor : actor ∈ s.keys.rows)
    (hscope : ApiScope.apiKeysWrite ∈ actor.scopes) (htenant : created.tenantId = actor.tenantId)
    (husable : created.isRevoked = false) (hinsert : s.keys.insert? created = some keys) :
    Trail s₀ ⟨keys, auditEntry actor.principal context "api_key.created" created :: s.auditLog, calls⟩
      (created.fixed :: newKeys)
      (auditEntry actor.principal context "api_key.created" created :: entries) where
  keys := by
    rw [Table.rows_of_insert? hinsert, List.map_cons, h.keys]
    rfl
  log := by
    rw [h.log]
    rfl
  created := by
    rw [List.filter_cons_of_pos (by simp [auditEntry]), List.map_cons, List.map_cons, h.created]
    rfl
  actor entry hmem := by
    rcases List.mem_cons.mp hmem with rfl | hold
    · exact ⟨actor, mem_of_insert? hinsert hactor, rfl, rfl, hscope⟩
    · obtain ⟨key, hkey, hentry⟩ := h.actor entry hold
      exact ⟨key, mem_of_insert? hinsert hkey, hentry⟩
  entity entry hmem := by
    rcases List.mem_cons.mp hmem with rfl | hold
    · exact ⟨created, by rw [Table.rows_of_insert? hinsert]; exact List.mem_cons_self, rfl, htenant,
        rfl, rfl, rfl⟩
    · obtain ⟨key, hkey, hentry⟩ := h.entity entry hold
      exact ⟨key, mem_of_insert? hinsert hkey, hentry⟩
  revoked key hmem := by
    have hnew : ∀ key ∈ s.keys.rows, key.id ≠ created.id := fun key hkey hid =>
      s.keys.find_eq_none_iff.mp (s.keys.find_eq_none_of_insert? hinsert List.mem_cons_self) key hkey
        (hid ▸ List.mem_cons_self)
    have hentries : (∃ entry ∈ auditEntry actor.principal context "api_key.created" created :: entries,
        entry.action = "api_key.revoked" ∧ entry.entityId = key.id) ↔
        ∃ entry ∈ entries, entry.action = "api_key.revoked" ∧ entry.entityId = key.id := by
      rw [List.exists_mem_cons_iff]
      exact or_iff_right fun hentry => absurd hentry.1 (by decide : "api_key.created" ≠ "api_key.revoked")
    rw [hentries]
    rw [Table.rows_of_insert? hinsert] at hmem
    rcases List.mem_cons.mp hmem with rfl | hold
    · -- Neither the keys of the start nor the log know the new id.
      rw [husable]
      refine iff_of_false Bool.false_ne_true ?_
      rintro (⟨key₀, hmem₀, hid, -⟩ | ⟨entry, hentry, -, hid⟩)
      · have hfixed : key₀.fixed ∈ s.keys.rows.map ApiKey.fixed := by
          rw [h.keys]
          exact List.mem_append_right _ (List.mem_map_of_mem hmem₀)
        obtain ⟨key', hkey', heq⟩ := List.mem_map.mp hfixed
        exact hnew key' hkey' ((id_of_fixed heq).trans hid)
      · obtain ⟨key', hkey', hid', -⟩ := h.entity entry hentry
        exact hnew key' hkey' (hid'.trans hid)
    · exact h.revoked key hold

/-- A key that is revoked adds an entry. -/
theorem Trail.revoke (h : Trail s₀ s newKeys entries) {calls : List ApiKeyCall}
    {actor existing revoked : ApiKey} {context : AuditRequestContext} {revokedAt : Time}
    (hactor : actor ∈ s.keys.rows) (hscope : ApiScope.apiKeysWrite ∈ actor.scopes)
    (htenant : existing.tenantId = actor.tenantId)
    (hexisting : ∃ key ∈ s.keys.rows, key.fixed = existing.fixed)
    (hfind : (markRevoked s.keys existing.id revokedAt).find (.id existing.id) = some revoked)
    (hid : revoked.id = existing.id) :
    Trail s₀ ⟨markRevoked s.keys existing.id revokedAt,
        auditEntry actor.principal context "api_key.revoked" revoked :: s.auditLog, calls⟩ newKeys
      (auditEntry actor.principal context "api_key.revoked" revoked :: entries) where
  keys := (fixed_markRevoked ..).trans h.keys
  log := by
    rw [h.log]
    rfl
  created := by
    rw [List.filter_cons_of_neg (by simp [auditEntry]), h.created]
  actor entry hmem := by
    rcases List.mem_cons.mp hmem with rfl | hold
    · obtain ⟨key, hkey, heq⟩ := exists_fixed_eq (fixed_markRevoked s.keys existing.id revokedAt) hactor
      exact ⟨key, hkey, by rw [heq]; rfl, by rw [heq]; rfl, by rw [heq]; exact hscope⟩
    · obtain ⟨key, hkey, hentry⟩ := h.actor entry hold
      obtain ⟨key', hkey', heq⟩ := exists_fixed_eq (fixed_markRevoked s.keys existing.id revokedAt) hkey
      exact ⟨key', hkey', heq ▸ hentry⟩
  entity entry hmem := by
    rcases List.mem_cons.mp hmem with rfl | hold
    · obtain ⟨key, hkey, heq⟩ := exists_fixed_eq (fixed_markRevoked s.keys existing.id revokedAt).symm
        (Table.find_eq_some_iff _ |>.mp hfind).1
      obtain ⟨key', hkey', heq'⟩ := hexisting
      have hsame : key = key' := eq_of_id s.keys hkey hkey'
        ((id_of_fixed heq).trans (hid.trans (id_of_fixed heq').symm))
      have hrevokedTenant : revoked.tenantId = existing.tenantId := by
        rw [← tenantId_of_fixed heq, hsame, tenantId_of_fixed heq']
      exact ⟨revoked, (Table.find_eq_some_iff _ |>.mp hfind).1, rfl, hrevokedTenant.trans htenant,
        rfl, rfl, rfl⟩
    · obtain ⟨key, hkey, hentry⟩ := h.entity entry hold
      obtain ⟨key', hkey', heq⟩ := exists_fixed_eq (fixed_markRevoked s.keys existing.id revokedAt) hkey
      exact ⟨key', hkey', heq ▸ hentry⟩
  revoked key' hmem := by
    obtain ⟨key, hkey, hsame, hiff⟩ := mem_markRevoked hmem
    have hentries : (∃ entry ∈ auditEntry actor.principal context "api_key.revoked" revoked :: entries,
        entry.action = "api_key.revoked" ∧ entry.entityId = key.id) ↔
        key.id = existing.id ∨
          ∃ entry ∈ entries, entry.action = "api_key.revoked" ∧ entry.entityId = key.id := by
      rw [List.exists_mem_cons_iff]
      refine or_congr_left ⟨fun hentry => ?_, fun heq => ⟨rfl, hid.trans heq.symm⟩⟩
      exact hentry.2.symm.trans hid
    rw [hiff, hsame, h.revoked key hkey, hentries, or_assoc, @or_comm (∃ entry ∈ entries, _)]

/-- Every step continues the trail. -/
theorem Trail.step (h : Trail s₀ s newKeys entries) (hs : s.Legal)
    (hstep : ApiKeySystem.step env s act = some s') :
    ∃ newKeys' entries', Trail s₀ s' newKeys' entries' := by
  have hidle : ∀ calls, Trail s₀ ⟨s.keys, s.auditLog, calls⟩ newKeys entries := fun calls =>
    h.silent rfl fun key hmem => ⟨key, hmem, rfl, rfl⟩
  obtain ⟨call, -, rfl⟩ | ⟨i, call, effect, stage, hcall, hmove, -, rfl⟩ := step_cases hstep
  · exact ⟨_, _, hidle _⟩
  · have hmem := List.mem_of_getElem? hcall
    cases hmove with
    | stop => exact ⟨_, _, hidle _⟩
    | authenticate => exact ⟨_, _, hidle _⟩
    | markUsed => exact ⟨_, _, h.silent (fixed_markUsed ..) fun key hkey => mem_markUsed hkey⟩
    | find => exact ⟨_, _, hidle _⟩
    | create hauthenticated hscope htenant hscopes husable hinsert =>
        obtain ⟨actor, hactor, hprincipal⟩ := hs.holder call hmem _ (by rw [hauthenticated]; rfl)
        obtain rfl : actor.principal = _ := hprincipal
        exact ⟨_, _, h.create hactor hscope htenant husable hinsert⟩
    | revoke hrevoking hfind =>
        obtain ⟨hscope, htenant, hexisting⟩ := hs.revoker call hmem _ _ hrevoking
        obtain ⟨actor, hactor, hprincipal⟩ := hs.holder call hmem _ (by rw [hrevoking]; rfl)
        obtain rfl : actor.principal = _ := hprincipal
        have hid := (Table.find_eq_some_iff _).mp hfind
        simp only [Keyed.keys, List.mem_cons, ApiKeyKey.id.injEq, reduceCtorEq, List.not_mem_nil,
          or_false] at hid
        exact ⟨_, _, h.revoke hactor hscope htenant hexisting hfind hid.2.symm⟩

end

/-! ## Revocation -/

/-- Whether a request that stands there acts as the key. -/
def actsAs (id : Uuid) (stage : ApiKeyStage) : Bool :=
  stage.principal?.any fun principal => principal.apiKeyId = id

/-- The requests that act as a key. -/
def acting (s : ApiKeySystem) (id : Uuid) : ℕ := s.calls.countP fun call => actsAs id call.stage

/-- The entries of the log that a key has written. -/
def acted (s : ApiKeySystem) (id : Uuid) : ℕ :=
  s.auditLog.countP fun entry => entry.actorApiKeyId = id

/-- A key is in the table, and revoked. -/
def IsRevoked (s : ApiKeySystem) (id : Uuid) : Prop :=
  ∃ key ∈ s.keys.rows, key.id = id ∧ key.isRevoked = true

/-- A call that is not authenticated acts as no key. -/
theorem actsAs_of_none {id : Uuid} {stage : ApiKeyStage} (h : stage.principal? = none) :
    actsAs id stage = false := by
  rw [actsAs, h]
  rfl

/-- No move makes a key usable again. -/
theorem isRevoked_of_move {keys : ApiKeys} {call : ApiKeyCall} {effect : ApiKeyEffect} {key : ApiKey}
    (hmove : ApiKeyMove keys call effect) (hmem : key ∈ keys.rows) (hrevoked : key.isRevoked = true) :
    ∃ key' ∈ effect.keys.rows, key'.id = key.id ∧ key'.isRevoked = true := by
  obtain ⟨key', hmem', heq⟩ := exists_fixed_of_move hmove hmem
  refine ⟨key', hmem', id_of_fixed heq, ?_⟩
  have hsame : ∀ old ∈ keys.rows, key'.id = old.id → old = key := fun old hold hid =>
    eq_of_id keys hold hmem (hid.symm.trans (id_of_fixed heq))
  cases hmove with
  | stop => rwa [hsame key' hmem' rfl]
  | authenticate => rwa [hsame key' hmem' rfl]
  | markUsed =>
      obtain ⟨old, hold, hid, hiff⟩ := mem_markUsed hmem'
      rwa [hiff, hsame old hold hid]
  | find => rwa [hsame key' hmem' rfl]
  | create hcall hscope htenant hscopes husable hinsert =>
      have hkey := eq_of_id _ hmem' (mem_of_insert? hinsert hmem) (id_of_fixed heq)
      rwa [hkey]
  | revoke =>
      obtain ⟨old, hold, hid, hiff⟩ := mem_markRevoked hmem'
      rw [hiff, hsame old hold hid]
      exact .inl hrevoked

/-- A request that writes an entry for a revoked key has acted as it, and does so no more. -/
theorem weight_of_move {keys : ApiKeys} {call : ApiKeyCall} {effect : ApiKeyEffect} {stage : ApiKeyStage}
    {id : Uuid} (hmove : ApiKeyMove keys call effect)
    (hstage : stage = effect.stage ∨ stage.principal? = none)
    (hrevoked : ∀ key ∈ keys.rows, key.isRevoked = false → key.id ≠ id) :
    (actsAs id stage).toNat +
        effect.entry.toList.countP (fun entry => entry.actorApiKeyId = id) ≤
      (actsAs id call.stage).toNat := by
  have hle : (actsAs id stage).toNat ≤ (actsAs id effect.stage).toNat := by
    rcases hstage with rfl | hnone
    · exact Nat.le_refl _
    · rw [actsAs_of_none hnone]
      exact Nat.zero_le _
  have hentry : ∀ principal context action key,
      (actsAs id (.returned (.listed []))).toNat +
        (some (auditEntry principal context action key)).toList.countP
          (fun entry => entry.actorApiKeyId = id) = (actsAs id (.authenticated principal)).toNat := by
    intro principal context action key
    by_cases hid : principal.apiKeyId = id <;> simp [actsAs, ApiKeyStage.principal?, auditEntry, hid]
  refine Nat.le_trans (Nat.add_le_add_right hle _) ?_
  cases hmove with
  | stop hnone =>
      rw [ApiKeyEffect.silent, actsAs_of_none hnone]
      exact Nat.zero_le _
  | authenticate hkey husable hfound =>
      have hnone : ∀ found : ApiKey, found.id ≠ id → ∀ stage : ApiKeyStage,
          stage = .used found.principal ∨ stage = .authenticated found.principal →
          actsAs id stage = false := by
        rintro found hne stage (rfl | rfl) <;> exact decide_eq_false hne
      rw [ApiKeyEffect.silent, hnone _ (hrevoked _ hkey husable) _ hfound]
      exact Nat.zero_le _
  | markUsed hcall =>
      rw [hcall]
      exact Nat.le_refl _
  | find hcall =>
      rw [hcall]
      exact Nat.le_refl _
  | @create principal created keys' response hcall =>
      rw [hcall]
      exact Nat.le_of_eq (hentry principal call.context _ created)
  | @revoke principal existing revoked revokedAt response hcall =>
      rw [hcall]
      exact Nat.le_of_eq (hentry principal call.context _ revoked)

/-- **After a revocation**, a step that writes an entry for the key takes one of the requests that
still act as it. -/
theorem acted_add_acting_le {id : Uuid} (hrevoked : s.IsRevoked id) (h : step env s act = some s') :
    s'.IsRevoked id ∧ s'.acted id + s'.acting id ≤ s.acted id + s.acting id := by
  obtain ⟨key, hkey, hid, hkeyRevoked⟩ := hrevoked
  obtain ⟨call, hreceived, rfl⟩ | ⟨i, call, effect, stage, hcall, hmove, hstage, rfl⟩ := step_cases h
  · refine ⟨⟨key, hkey, hid, hkeyRevoked⟩, ?_⟩
    rw [acting, List.countP_append, List.countP_singleton, hreceived]
    exact Nat.le_refl _
  · obtain ⟨key', hkey', hid', hkeyRevoked'⟩ := isRevoked_of_move hmove hkey hkeyRevoked
    refine ⟨⟨key', hkey', hid'.trans hid, hkeyRevoked'⟩, ?_⟩
    have hweight := weight_of_move hmove hstage fun other hother husable heq => by
      rw [eq_of_id s.keys hother hkey (heq.trans hid.symm), hkeyRevoked] at husable
      cases husable
    have hset := @countP_set_add _ _ i call { call with stage := stage } hcall
      fun call => actsAs id call.stage
    rw [acted, acting, List.countP_append]
    simp only [acted, acting] at hset ⊢
    omega

/-! ## Results -/

variable {keys : ApiKeys} {auditLog : List AuditLog} {acts : List Act}

/-- **No escalation.** Whatever requests come, and however their statements interleave, a key has only
scopes of one key that its tenant had at the start: the key itself, or one that may create keys. What a
request may do is what a key of the table may. -/
theorem no_escalation (h : exec (step env) (start keys auditLog) acts = some s) :
    (∀ key ∈ s.keys.rows, ∃ root ∈ keys.rows, root.tenantId = key.tenantId ∧
      (∀ scope ∈ key.scopes, scope ∈ root.scopes) ∧
      (root.id = key.id ∨ ApiScope.apiKeysWrite ∈ root.scopes)) ∧
    ∀ call ∈ s.calls, ∀ principal, call.stage.principal? = some principal →
      ∃ key ∈ s.keys.rows, key.principal = principal := by
  have hroot : Rooted (start keys auditLog) s ∧ s.Legal := by
    refine Reaches.invariant (P := fun x => Rooted (start keys auditLog) x ∧ x.Legal)
      (Reachable.of_exec h) ⟨?_, legal_start keys auditLog⟩ ?_
    · intro key hkey
      exact ⟨key, hkey, rfl, fun _ hscope => hscope, .inl rfl⟩
    · rintro x act y ⟨hrooted, hlegal⟩ - hy
      exact ⟨hrooted.step hlegal hy, hlegal.step hy⟩
  exact ⟨hroot.1, hroot.2.holder⟩

/-- **The audit trail.** The keys of a state are those of the start, but for their use and their
revocation, and below them one for each entry of a creation. Every entry was written by a key of its
tenant that may create keys, and is about a key of that tenant, as this key is. A key is revoked just
when it was so at the start or an entry says so. -/
theorem audit_trail (h : exec (step env) (start keys auditLog) acts = some s) :
    ∃ newKeys entries, Trail (start keys auditLog) s newKeys entries := by
  refine (Reaches.invariant (P := fun x => (∃ newKeys entries, Trail (start keys auditLog) x newKeys
    entries) ∧ x.Legal) (Reachable.of_exec h) ⟨⟨[], [], trail_refl _⟩, legal_start keys auditLog⟩ ?_).1
  rintro x act y ⟨⟨newKeys, entries, htrail⟩, hlegal⟩ - hy
  exact ⟨htrail.step hlegal hy, hlegal.step hy⟩

/-- **Revocation.** A key that is revoked stays so, and no request is authenticated with it. What it
still does to the keys, the requests do that were authenticated with it before: each of them once at
most. -/
theorem revocation {t : ApiKeySystem} {id : Uuid} (hrevoked : s.IsRevoked id)
    (h : exec (step env) s acts = some t) :
    t.IsRevoked id ∧ t.acted id + t.acting id ≤ s.acted id + s.acting id ∧
    ∀ status now rawKey principal due, authenticate env t.keys status now rawKey = .ok (principal, due) →
      principal.apiKeyId ≠ id := by
  have hinv : t.IsRevoked id ∧ t.acted id + t.acting id ≤ s.acted id + s.acting id := by
    refine Reaches.invariant (P := fun x => x.IsRevoked id ∧
      x.acted id + x.acting id ≤ s.acted id + s.acting id) (Reachable.of_exec h)
      ⟨hrevoked, Nat.le_refl _⟩ ?_
    rintro x act y ⟨hx, hle⟩ - hy
    exact ⟨(acted_add_acting_le hx hy).1, Nat.le_trans (acted_add_acting_le hx hy).2 hle⟩
  refine ⟨hinv.1, hinv.2, fun status now rawKey principal due hok heq => ?_⟩
  obtain ⟨key, hkey, hid, hkeyRevoked⟩ := hinv.1
  obtain ⟨found, hfound, husable, rfl⟩ := exists_key_of_authenticate hok
  rw [eq_of_id t.keys hfound hkey (heq.trans hid.symm), hkeyRevoked] at husable
  cases husable

/-! ### A run -/

/-- A hash that hides nothing. -/
def plainHashing : KeyHashing where
  hashSecret := some "pepper"
  hashApiKey rawKey secret := rawKey ++ secret

/-- The key of an administrator. -/
def rootKey : ApiKey where
  id := 0
  tenantId := 1
  name := "Root"
  prefix_ := "00"
  keyHash := "wapi_00_rootpepper"
  scopes := [.apiKeysRead, .apiKeysWrite, .messagesRead]
  active := true
  lastUsedAt := none
  createdAt := 0
  revokedAt := none

/-- The table with this key. -/
def rootKeys : ApiKeys where
  rows := [rootKey]
  unique := List.pairwise_singleton ..

/-- Where the sample requests come from. -/
def sampleContext : AuditRequestContext where
  ipAddress := none
  userAgent := none

/-- The statement of a request ends at a time. -/
def returns (i now newId : ℕ) (randomPrefix secret : String) : Act :=
  .call i .returned ⟨.active, now, newId, randomPrefix, secret⟩

/-- The administrator creates a key that may create keys. It is authenticated for a creation, is
revoked, and then creates. -/
def sampleActs : List Act :=
  [.request (some "wapi_00_root") sampleContext (.create ⟨" Deputy ", [.apiKeysWrite, .apiKeysWrite]⟩),
    returns 0 10 0 "" "", returns 0 11 0 "" "", returns 0 12 5 "01" "deputy",
    .request (some "wapi_01_deputy") sampleContext (.create ⟨"Late", [.apiKeysWrite]⟩),
    returns 1 20 0 "" "", returns 1 21 0 "" "",
    .request (some "wapi_00_root") sampleContext (.revoke 5),
    returns 2 30 0 "" "", returns 2 31 0 "" "", returns 2 32 0 "" ""]

/-- The steps after the revocation. -/
def lateActs : List Act :=
  [returns 1 40 6 "02" "late", .request (some "wapi_01_deputy") sampleContext .list,
    returns 3 50 0 "" ""]

/-- What is seen of a state. -/
def view (s : ApiKeySystem) : List (Uuid × List ApiScope × Bool) × ℕ × ℕ :=
  (s.keys.rows.map fun key => (key.id, key.scopes, key.isRevoked), s.acted 5, s.acting 5)

/-- The key that the run revokes. -/
theorem exists_sample_revoked : ∃ s, exec (step plainHashing) (start rootKeys []) sampleActs = some s ∧
    s.IsRevoked 5 ∧ s.acted 5 + s.acting 5 = 1 := by
  have hrun : (exec (step plainHashing) (start rootKeys []) sampleActs).map view =
      some ([(5, [.apiKeysWrite], true), (0, [.apiKeysRead, .apiKeysWrite, .messagesRead], false)],
        0, 1) := by
    decide
  obtain ⟨s, hs, hview⟩ := Option.map_eq_some_iff.mp hrun
  simp only [view, Prod.mk.injEq] at hview
  obtain ⟨key, hkey, hsame⟩ := List.mem_map.mp
    (hview.1 ▸ List.mem_cons_self : (5, [.apiKeysWrite], true) ∈
      s.keys.rows.map fun key => (key.id, key.scopes, key.isRevoked))
  simp only [Prod.mk.injEq] at hsame
  exact ⟨s, hs, ⟨key, hkey, hsame.1, hsame.2.2⟩, by rw [hview.2.1, hview.2.2]⟩

/-- The sample run gives no key more than its root has. -/
theorem no_escalation_sample : ∃ s, exec (step plainHashing) (start rootKeys []) sampleActs = some s ∧
    ∀ key ∈ s.keys.rows, ∃ root ∈ rootKeys.rows, root.tenantId = key.tenantId ∧
      (∀ scope ∈ key.scopes, scope ∈ root.scopes) ∧
      (root.id = key.id ∨ ApiScope.apiKeysWrite ∈ root.scopes) := by
  obtain ⟨s, hs, -⟩ := exists_sample_revoked
  exact ⟨s, hs, (no_escalation hs).1⟩

/-- The log of the sample run accounts for its keys. -/
theorem audit_trail_sample : ∃ s newKeys entries,
    exec (step plainHashing) (start rootKeys []) sampleActs = some s ∧
      Trail (start rootKeys []) s newKeys entries := by
  obtain ⟨s, hs, -⟩ := exists_sample_revoked
  obtain ⟨newKeys, entries, htrail⟩ := audit_trail hs
  exact ⟨s, newKeys, entries, hs, htrail⟩

/-- The deputy's request creates a key after the deputy was revoked; that is its last. -/
theorem revocation_sample : ∃ s t, s.IsRevoked 5 ∧ exec (step plainHashing) s lateActs = some t ∧
    t.IsRevoked 5 ∧ t.acted 5 + t.acting 5 ≤ 1 := by
  obtain ⟨s, hs, hrevoked, hone⟩ := exists_sample_revoked
  have hrun : ((exec (step plainHashing) (start rootKeys []) sampleActs).bind fun s =>
      exec (step plainHashing) s lateActs).isSome := by
    decide
  rw [hs, Option.bind_some] at hrun
  obtain ⟨t, hlate⟩ := Option.isSome_iff_exists.mp hrun
  have hrevocation := revocation hrevoked hlate
  exact ⟨s, t, hrevoked, hlate, hrevocation.1, hone ▸ hrevocation.2.1⟩

end ApiKeySystem

end ApiWhatsApp
