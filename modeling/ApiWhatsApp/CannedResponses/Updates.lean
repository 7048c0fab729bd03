import ApiWhatsApp.CannedResponses.Policy
import ApiWhatsApp.Library.Locks
import ApiWhatsApp.Messages.Create

/-!
# Optimistic updates of canned responses

`update` and `create` of `canned-responses/canned-responses.service.ts`, as transactions that run side
by side under `READ COMMITTED`.

* `InboxCannedResponse` is a row, and `fits` its `CHECK` constraints and column types.
* `CannedStage` is the statement that an update runs next. `updateMany` finds its row by id, tenant
  and expected revision; it waits while another transaction has the row, or an entry of the shortcut
  index that it takes or gives up (`CannedCall.held`). What it writes becomes visible at the commit.
* `CannedSystem.step` runs any number of updates beside creations. An update may fail at any
  statement (`fail`: the audit record, a lost connection); its transaction is then rolled back.
* `Sound` is the invariant: a transaction that holds a row has read its committed version, and the
  revision of a row counts the updates that succeeded.
* **`canned_response_updates`** — the result, for every interleaving.

The realtime hints after a commit never throw and write nothing, so they are left out.
-/

namespace ApiWhatsApp

open Library CannedPolicy

/-! ## Rows -/

/-- Source: `model InboxCannedResponse`. -/
structure InboxCannedResponse where
  id : Uuid
  tenantId : Uuid
  shortcut : String
  title : String
  body : String
  active : Bool
  revision : ℕ
  createdAt : Time
  updatedAt : Time
  deriving DecidableEq

/-- The unique columns of a canned response. -/
inductive CannedResponseKey where
  | id (id : Uuid)
  | tenantShortcut (tenantId : Uuid) (shortcut : String)
  deriving DecidableEq

/-- A response is known by its id, and by its shortcut within the tenant. -/
instance : Keyed InboxCannedResponse CannedResponseKey where
  keys r := [.id r.id, .tenantShortcut r.tenantId r.shortcut]

namespace InboxCannedResponse

/-- The `CHECK` constraints and column types; `INTEGER` has 32 bits. -/
def fits (r : InboxCannedResponse) : Bool :=
  CannedText.shortcutOk r.shortcut && CannedText.titleOk r.title && CannedText.bodyOk r.body &&
    (0 < r.revision && r.revision < 2 ^ 31)

/-- The row that `create` inserts. -/
def created (id tenantId : Uuid) (content : CannedResponseContent) (now : Time) :
    InboxCannedResponse where
  id := id
  tenantId := tenantId
  shortcut := content.shortcut.toText
  title := content.title.toText
  body := content.body.toText
  active := true
  revision := 1
  createdAt := now
  updatedAt := now

/-- The `data` of the update. -/
def patched (changes : CannedResponseChanges) (now : Time) (r : InboxCannedResponse) :
    InboxCannedResponse :=
  { r with
    shortcut := (changes.shortcut.map JsString.toText).getD r.shortcut
    title := (changes.title.map JsString.toText).getD r.title
    body := (changes.body.map JsString.toText).getD r.body
    active := changes.active.getD r.active
    revision := r.revision + 1
    updatedAt := now }

/-- A change leaves the id. -/
@[simp] theorem id_patched (changes : CannedResponseChanges) (now : Time) (r : InboxCannedResponse) :
    (r.patched changes now).id = r.id := rfl

/-- A change leaves the tenant. -/
@[simp] theorem tenantId_patched (changes : CannedResponseChanges) (now : Time)
    (r : InboxCannedResponse) : (r.patched changes now).tenantId = r.tenantId := rfl

/-- A change is one more revision. -/
@[simp] theorem revision_patched (changes : CannedResponseChanges) (now : Time)
    (r : InboxCannedResponse) : (r.patched changes now).revision = r.revision + 1 := rfl

/-- The id is a key of its row only. -/
theorem mem_keys_id {r : InboxCannedResponse} {id : Uuid} :
    CannedResponseKey.id id ∈ Keyed.keys r ↔ r.id = id := by
  simp [Keyed.keys, eq_comm]

/-- A created row fits its columns. -/
theorem fits_created {toLowerCase : JsString → JsString} {value : CannedInput}
    {content : CannedResponseContent}
    (h : prepareCannedResponseCreate toLowerCase value = .ok content) (id tenantId : Uuid)
    (now : Time) : (created id tenantId content now).fits = true := by
  obtain ⟨hshortcut, htitle, hbody⟩ := create_fits_columns h
  simp [fits, created, hshortcut, htitle, hbody]

/-- An accepted patch of a row that fits, at the revision that it expects, fits. -/
theorem fits_patched {toLowerCase : JsString → JsString} {value : CannedInput}
    {patch : CannedResponsePatch} {r : InboxCannedResponse}
    (h : prepareCannedResponsePatch toLowerCase value = .ok patch) (hr : r.fits = true)
    (hrevision : r.revision = patch.expectedRevision) (now : Time) :
    (r.patched patch.changes now).fits = true := by
  obtain ⟨hshortcut, htitle, hbody, -, hmax⟩ := patch_fits_columns h
  simp only [fits, Bool.and_eq_true, decide_eq_true_eq] at hr ⊢
  obtain ⟨⟨⟨hs, ht⟩, hb⟩, -⟩ := hr
  refine ⟨⟨⟨?_, ?_⟩, ?_⟩, Nat.succ_pos _, by rw [revision_patched, hrevision]; exact hmax⟩
  · cases hchange : patch.changes.shortcut with
    | none => simpa [patched, hchange] using hs
    | some value => simpa [patched, hchange] using hshortcut value hchange
  · cases hchange : patch.changes.title with
    | none => simpa [patched, hchange] using ht
    | some value => simpa [patched, hchange] using htitle value hchange
  · cases hchange : patch.changes.body with
    | none => simpa [patched, hchange] using hb
    | some value => simpa [patched, hchange] using hbody value hchange

end InboxCannedResponse

/-! ## Updates -/

/-- What a transaction keeps others from touching: a row, or an entry of the shortcut index. -/
inductive CannedLock where
  | row (id : Uuid)
  | entry (tenantId : Uuid) (shortcut : String)
  deriving DecidableEq

/-- The statement that an update runs next. `found` is the row that it has locked, `updated` the
version that it has written. -/
inductive CannedStage where
  | updateMany
  /-- No row was updated: does it exist? -/
  | missed
  | reread (found updated : InboxCannedResponse)
  | audit (found updated : InboxCannedResponse)
  | commit (found updated : InboxCannedResponse)
  | returned (updated : InboxCannedResponse)
  | failed (error : HttpError)

/-- A call of `update` whose patch the policy has accepted. -/
structure CannedCall where
  tenantId : Uuid
  id : Uuid
  patch : CannedResponsePatch
  stage : CannedStage

/-- The row that a transaction has locked, and the version that it has written. -/
def CannedStage.pending : CannedStage → Option (InboxCannedResponse × InboxCannedResponse)
  | reread found updated | audit found updated | commit found updated => some (found, updated)
  | updateMany | missed | returned _ | failed _ => none

/-- The call has returned. -/
def CannedStage.isReturned : CannedStage → Bool
  | returned _ => true
  | _ => false

/-- The call has thrown. -/
def CannedStage.isFailed : CannedStage → Bool
  | failed _ => true
  | _ => false

namespace CannedCall

/-- The locks of an update of `found` to `updated`. -/
def locksOf (found updated : InboxCannedResponse) : List CannedLock :=
  [.row found.id, .entry found.tenantId found.shortcut, .entry updated.tenantId updated.shortcut]

/-- The locks that a call holds. -/
def held (call : CannedCall) : List CannedLock :=
  call.stage.pending.elim [] fun (found, updated) => locksOf found updated

/-- The update has succeeded. -/
def succeeded (call : CannedCall) : Bool := call.stage.isReturned

/-- The row that the `where` object of `updateMany` selects. -/
def target (table : Table InboxCannedResponse) (call : CannedCall) : Option InboxCannedResponse :=
  (table.find (.id call.id)).filter fun r =>
    r.tenantId = call.tenantId && r.revision = call.patch.expectedRevision

/-- The statement that a call runs next, with the locks that are free for it: `none` while it waits,
and when the call is over. -/
def statement (table : Table InboxCannedResponse) (now : Time) (free : CannedLock → Bool)
    (call : CannedCall) : Option (Table InboxCannedResponse × CannedStage) :=
  match call.stage with
  | .updateMany =>
      match call.target table with
      | none => some (table, .missed)
      | some found =>
          let updated := found.patched call.patch.changes now
          if !(locksOf found updated).all free then none
          else if !updated.fits then some (table, .failed (.other "check constraint violated"))
          else match table.update? (.id call.id) fun _ => updated with
            | none => some (table, .failed
                (.conflict "Canned response shortcut already exists in this tenant"))
            | some _ => some (table, .reread found updated)
  | .missed =>
      if (table.find (.id call.id)).any fun r => r.tenantId = call.tenantId then
        some (table, .failed
          (.conflict "Canned response revision has changed; reload before updating"))
      else some (table, .failed (.notFound "Canned response not found"))
  | .reread found updated => some (table, .audit found updated)
  | .audit found updated => some (table, .commit found updated)
  | .commit _ updated =>
      (table.update? (.id call.id) fun _ => updated).map fun table' => (table', .returned updated)
  | .returned _ | .failed _ => none

end CannedCall

/-! ## The system -/

/-- The committed rows, and all calls of `update` so far. -/
structure CannedSystem where
  table : Table InboxCannedResponse
  calls : List CannedCall

namespace CannedSystem

/-- No row and no call. -/
def start : CannedSystem where
  table := .empty
  calls := []

/-- What can happen: a call begins, or goes on with its next statement. -/
inductive Act where
  /-- A call of `create`, from its request to its commit. -/
  | create (id tenantId : Uuid) (value : CannedInput) (now : Time)
  /-- A call of `update` begins. -/
  | update (tenantId id : Uuid) (value : CannedInput)
  /-- The next statement of a call. -/
  | statement (i : ℕ) (now : Time)
  /-- The next statement of a call fails. -/
  | fail (i : ℕ) (error : String)

/-- One step. -/
def step (toLowerCase : JsString → JsString) (s : CannedSystem) : Act → Option CannedSystem
  | .create id tenantId value now =>
      match prepareCannedResponseCreate toLowerCase value with
      | .error _ => some s
      | .ok content =>
          let row := InboxCannedResponse.created id tenantId content now
          -- An entry that a transaction is about to take or to give up is waited for.
          if !freeFor CannedCall.held s.calls s.calls.length (.entry tenantId row.shortcut) then none
          else if !row.fits then some s
          else some { s with table := (s.table.insert? row).getD s.table }
  | .update tenantId id value =>
      match prepareCannedResponsePatch toLowerCase value with
      | .error _ => some s
      | .ok patch => some { s with
          calls := s.calls ++ [{ tenantId := tenantId, id := id, patch := patch,
                                 stage := .updateMany }] }
  | .statement i now =>
      s.calls[i]?.bind fun call =>
        (call.statement s.table now (freeFor CannedCall.held s.calls i)).map fun (table, stage) =>
          { table := table, calls := s.calls.set i { call with stage := stage } }
  | .fail i error =>
      s.calls[i]?.bind fun call =>
        if call.stage.isReturned || call.stage.isFailed then none
        else some { s with calls := s.calls.set i { call with stage := .failed (.other error) } }

end CannedSystem

/-! ## What a statement can do -/

/-- A move of a call, from the committed table. -/
inductive CannedMove (free : CannedLock → Bool) (table : Table InboxCannedResponse)
    (call : CannedCall) : Table InboxCannedResponse → CannedStage → Prop where
  /-- The call goes on without a lock, or throws; its transaction is rolled back. -/
  | ends {stage : CannedStage} (hpending : stage.pending = none)
      (hreturned : stage.isReturned = false) : CannedMove free table call table stage
  /-- `updateMany` finds its row and locks it. -/
  | locks {found : InboxCannedResponse} {now : Time} (htarget : call.target table = some found)
      (hfree : ∀ l ∈ CannedCall.locksOf found (found.patched call.patch.changes now), free l = true)
      (hfits : (found.patched call.patch.changes now).fits = true) :
      CannedMove free table call table (.reread found (found.patched call.patch.changes now))
  /-- A statement between the two. -/
  | keeps {stage : CannedStage} (hpending : stage.pending = call.stage.pending)
      (hreturned : stage.isReturned = false) : CannedMove free table call table stage
  | commits {found updated : InboxCannedResponse} {table' : Table InboxCannedResponse}
      (hstage : call.stage = .commit found updated)
      (hupdate : (table.update? (.id call.id) fun _ => updated) = some table') :
      CannedMove free table call table' (.returned updated)

namespace CannedCall

variable {table table' : Table InboxCannedResponse} {now : Time} {free : CannedLock → Bool}
  {call : CannedCall} {stage : CannedStage}

/-- A statement that is no success moves its call on. -/
theorem move_of_statement (h : call.statement table now free = some (table', stage)) :
    CannedMove free table call table' stage ∧ call.succeeded = false := by
  unfold statement at h
  unfold succeeded
  split at h
  · next hstage =>
      refine ⟨?_, by rw [hstage]; rfl⟩
      split at h
      · cases h
        exact .ends rfl rfl
      · next found htarget =>
          dsimp only at h
          split_ifs at h with hfree hfits
          · cases h
            exact .ends rfl rfl
          · split at h
            · cases h
              exact .ends rfl rfl
            · cases h
              refine .locks htarget ?_ (by simpa using hfits)
              simpa using hfree
  · next hstage =>
      refine ⟨?_, by rw [hstage]; rfl⟩
      split_ifs at h <;> cases h <;> exact .ends rfl rfl
  · next found updated hstage =>
      cases h
      exact ⟨.keeps (by rw [hstage]; rfl) rfl, by rw [hstage]; rfl⟩
  · next found updated hstage =>
      cases h
      exact ⟨.keeps (by rw [hstage]; rfl) rfl, by rw [hstage]; rfl⟩
  · next found updated hstage =>
      obtain ⟨table'', hupdate, h⟩ := Option.map_eq_some_iff.mp h
      cases h
      exact ⟨.commits hstage hupdate, by rw [hstage]; rfl⟩
  · cases h
  · cases h

end CannedCall

namespace CannedSystem

variable {toLowerCase : JsString → JsString} {s s' : CannedSystem} {a : Act}

/-- **What a step can do**: nothing, a creation, a new call, or a move of a call. -/
theorem step_cases (h : s.step toLowerCase a = some s') :
    s' = s ∨
    (∃ id tenantId value now content, a = .create id tenantId value now ∧
      prepareCannedResponseCreate toLowerCase value = .ok content ∧
      freeFor CannedCall.held s.calls s.calls.length
        (.entry tenantId (InboxCannedResponse.created id tenantId content now).shortcut) = true ∧
      s'.calls = s.calls ∧
      s.table.insert? (InboxCannedResponse.created id tenantId content now) = some s'.table) ∨
    (∃ tenantId id value patch, prepareCannedResponsePatch toLowerCase value = .ok patch ∧
      s' = { s with calls := s.calls ++ [⟨tenantId, id, patch, .updateMany⟩] }) ∨
    ∃ i call stage, s.calls[i]? = some call ∧ call.succeeded = false ∧
      CannedMove (freeFor CannedCall.held s.calls i) s.table call s'.table stage ∧
      s'.calls = s.calls.set i { call with stage := stage } := by
  cases a with
  | create id tenantId value now =>
      simp only [step] at h
      split at h
      · cases h
        exact .inl rfl
      · next content hcontent =>
          split_ifs at h with hfree hfits
          · cases h
            exact .inl rfl
          · cases h
            cases hinsert : s.table.insert? (InboxCannedResponse.created id tenantId content now) with
            | none => exact .inl (by simp)
            | some table =>
                exact .inr (.inl ⟨id, tenantId, value, now, content, rfl, hcontent,
                  by simpa using hfree, rfl, by simpa using hinsert⟩)
  | update tenantId id value =>
      simp only [step] at h
      split at h
      · cases h
        exact .inl rfl
      · next patch hpatch =>
          cases h
          exact .inr (.inr (.inl ⟨tenantId, id, value, patch, hpatch, rfl⟩))
  | statement i now =>
      obtain ⟨call, hcall, h⟩ := Option.bind_eq_some_iff.mp h
      obtain ⟨⟨table, stage⟩, hstatement, h⟩ := Option.map_eq_some_iff.mp h
      cases h
      obtain ⟨hmove, hactive⟩ := CannedCall.move_of_statement hstatement
      exact .inr (.inr (.inr ⟨i, call, stage, hcall, hactive, hmove, rfl⟩))
  | fail i error =>
      obtain ⟨call, hcall, h⟩ := Option.bind_eq_some_iff.mp h
      split_ifs at h with hover
      cases h
      refine .inr (.inr (.inr ⟨i, call, _, hcall, ?_, .ends rfl rfl, rfl⟩))
      simp only [Bool.or_eq_true, not_or, Bool.not_eq_true] at hover
      exact hover.1

/-! ## The invariant -/

/-- How many updates of a row have succeeded. -/
def successes (s : CannedSystem) (id : Uuid) : ℕ :=
  s.calls.countP fun call => call.id = id && call.succeeded

/-- What a transaction that holds a row knows: the committed version, at the revision that its patch
expects, and a next version that fits. -/
structure Holds (table : Table InboxCannedResponse) (call : CannedCall)
    (found updated : InboxCannedResponse) : Prop where
  committed : table.find (.id call.id) = some found
  revision : found.revision = call.patch.expectedRevision
  id : updated.id = call.id
  next : updated.revision = found.revision + 1
  fits : updated.fits = true

/-- The invariant. -/
structure Sound (s : CannedSystem) : Prop where
  locks : Exclusive CannedCall.held s.calls
  holds : ∀ call ∈ s.calls, ∀ found updated, call.stage.pending = some (found, updated) →
    Holds s.table call found updated
  fits : ∀ r ∈ s.table.rows, r.fits = true
  /-- The revision of a row counts the updates that succeeded. -/
  counted : ∀ r ∈ s.table.rows, r.revision = 1 + s.successes r.id
  /-- An update that succeeded is behind the row. -/
  behind : ∀ call ∈ s.calls, call.succeeded = true →
    ∃ r, s.table.find (.id call.id) = some r ∧ call.patch.expectedRevision < r.revision
  /-- At most one update succeeds at each revision. -/
  once : ∀ (i j : ℕ) c d, s.calls[i]? = some c → s.calls[j]? = some d → c.succeeded = true →
    d.succeeded = true → c.id = d.id → c.patch.expectedRevision = d.patch.expectedRevision → i = j

/-- At the start there is nothing to keep. -/
theorem Sound.start : Sound start where
  locks := Exclusive.nil
  holds _ hcall := absurd hcall List.not_mem_nil
  fits _ hr := absurd hr List.not_mem_nil
  counted _ hr := absurd hr List.not_mem_nil
  behind _ hcall := absurd hcall List.not_mem_nil
  once i j c d hc := by simp [CannedSystem.start] at hc

/-- A table in which every call's row is as before, or has gone one revision further. -/
theorem find_of_commit {table table' : Table InboxCannedResponse} {id : Uuid}
    {updated : InboxCannedResponse} (hid : updated.id = id)
    (h : (table.update? (.id id) fun _ => updated) = some table') (j : Uuid) :
    table'.find (.id j) = if j = id then some updated else table.find (.id j) := by
  obtain ⟨found, hfound⟩ := Table.exists_find_of_update? h
  have hkeep : ∀ r : InboxCannedResponse, CannedResponseKey.id id ∈ Keyed.keys r →
      (CannedResponseKey.id j ∈ Keyed.keys updated ↔ CannedResponseKey.id j ∈ Keyed.keys r) := by
    intro r hr
    rw [InboxCannedResponse.mem_keys_id] at hr
    rw [InboxCannedResponse.mem_keys_id, InboxCannedResponse.mem_keys_id, hid, hr]
  rw [Table.find_of_update? h hkeep]
  split_ifs with hj
  · subst hj
    rw [hfound, Option.map_some, if_pos (table.find_eq_some_iff.mp hfound).2]
  · cases hother : table.find (.id j) with
    | none => rfl
    | some r =>
        have hr := InboxCannedResponse.mem_keys_id.mp (table.find_eq_some_iff.mp hother).2
        have hne : ¬CannedResponseKey.id id ∈ Keyed.keys r := by
          rw [InboxCannedResponse.mem_keys_id, hr]
          exact hj
        rw [Option.map_some, if_neg hne]

/-- Every row is at its id. -/
theorem find_id {table : Table InboxCannedResponse} {r : InboxCannedResponse} (h : r ∈ table.rows) :
    table.find (.id r.id) = some r :=
  table.find_eq_some_iff.mpr ⟨h, InboxCannedResponse.mem_keys_id.mpr rfl⟩

/-- A creation. -/
theorem Sound.create {row : InboxCannedResponse} {table : Table InboxCannedResponse}
    (hs : Sound s) (hfits : row.fits = true) (hrevision : row.revision = 1)
    (h : s.table.insert? row = some table) : Sound { s with table := table } := by
  have hnew : s.table.find (.id row.id) = none :=
    Table.find_eq_none_of_insert? h (InboxCannedResponse.mem_keys_id.mpr rfl)
  have hkept : ∀ {j : Uuid} {r : InboxCannedResponse}, s.table.find (.id j) = some r →
      table.find (.id j) = some r := by
    intro j r hr
    rw [Table.find_of_insert? h, if_neg, hr]
    intro hj
    rw [InboxCannedResponse.mem_keys_id] at hj
    rw [← hj, hnew] at hr
    cases hr
  -- No update of the new row has succeeded: it would have found it.
  have hzero : s.successes row.id = 0 := by
    refine List.countP_eq_zero.mpr fun call hcall hcounted => ?_
    simp only [Bool.and_eq_true, decide_eq_true_eq] at hcounted
    obtain ⟨r, hr, -⟩ := hs.behind call hcall hcounted.2
    rw [hcounted.1, hnew] at hr
    cases hr
  refine ⟨hs.locks, ?_, ?_, ?_, ?_, hs.once⟩
  · intro call hcall found updated hpending
    obtain ⟨hfind, hrest⟩ := hs.holds call hcall found updated hpending
    exact ⟨hkept hfind, hrest, by assumption, by assumption, by assumption⟩
  · intro r hr
    rw [Table.rows_of_insert? h] at hr
    rcases List.mem_cons.mp hr with rfl | hr
    · exact hfits
    · exact hs.fits r hr
  · intro r hr
    rw [Table.rows_of_insert? h] at hr
    rcases List.mem_cons.mp hr with rfl | hr
    · rw [hrevision]
      exact (congrArg (1 + ·) hzero).symm
    · exact hs.counted r hr
  · intro call hcall hsucceeded
    obtain ⟨r, hr, hlt⟩ := hs.behind call hcall hsucceeded
    exact ⟨r, hkept hr, hlt⟩

/-- A new call. -/
theorem Sound.append {call : CannedCall} (hs : Sound s) (hstage : call.stage = .updateMany) :
    Sound { s with calls := s.calls ++ [call] } := by
  have hheld : call.held = [] := by rw [CannedCall.held, hstage]; rfl
  have hidle : call.succeeded = false := by rw [CannedCall.succeeded, hstage]; rfl
  have hcount : ∀ id, successes { s with calls := s.calls ++ [call] } id = s.successes id := by
    intro id
    simp [successes, hidle]
  refine ⟨hs.locks.append hheld, ?_, hs.fits, ?_, ?_, ?_⟩
  · intro c hc found updated hpending
    rcases List.mem_append.mp hc with hc | hc
    · exact hs.holds c hc found updated hpending
    · rw [List.mem_singleton.mp hc, hstage] at hpending
      cases hpending
  · intro r hr
    rw [hcount]
    exact hs.counted r hr
  · intro c hc hsucceeded
    rcases List.mem_append.mp hc with hc | hc
    · exact hs.behind c hc hsucceeded
    · rw [List.mem_singleton.mp hc, hidle] at hsucceeded
      cases hsucceeded
  · intro i j c d hc hd hcs hds
    rcases getElem?_append_cases hc with ⟨-, rfl⟩ | hc
    · rw [hidle] at hcs
      cases hcs
    · rcases getElem?_append_cases hd with ⟨-, rfl⟩ | hd
      · rw [hidle] at hds
        cases hds
      · exact hs.once i j c d hc hd hcs hds

/-- How a move changes the number of updates that succeeded. -/
theorem successes_set {i : ℕ} {call call' : CannedCall} (hcall : s.calls[i]? = some call)
    (hactive : call.succeeded = false) (table : Table InboxCannedResponse) (id : Uuid) :
    successes { table := table, calls := s.calls.set i call' } id =
      s.successes id + if call'.id = id ∧ call'.succeeded = true then 1 else 0 := by
  obtain ⟨hlt, hget⟩ := List.getElem?_eq_some_iff.mp hcall
  rw [successes, List.countP_set hlt, hget, hactive]
  simp [successes]

/-- A move that leaves the table alone. -/
theorem Sound.move {i : ℕ} {call : CannedCall} {stage : CannedStage} (hs : Sound s)
    (hcall : s.calls[i]? = some call) (hactive : call.succeeded = false)
    (hreturned : stage.isReturned = false)
    (hlocks : ∀ l ∈ CannedCall.held { call with stage := stage },
      l ∈ call.held ∨ freeFor CannedCall.held s.calls i l = true)
    (hholds : ∀ found updated, stage.pending = some (found, updated) →
      Holds s.table call found updated) :
    Sound { s with calls := s.calls.set i { call with stage := stage } } := by
  have hidle : CannedCall.succeeded { call with stage := stage } = false := hreturned
  refine ⟨hs.locks.set hcall hlocks, ?_, hs.fits, ?_, ?_, ?_⟩
  · intro c hc found updated hpending
    rcases List.mem_or_eq_of_mem_set hc with hc | rfl
    · exact hs.holds c hc found updated hpending
    · obtain ⟨hfind, hrevision, hid, hnext, hfits⟩ := hholds found updated hpending
      exact ⟨hfind, hrevision, hid, hnext, hfits⟩
  · intro r hr
    rw [successes_set hcall hactive, hidle]
    simpa using hs.counted r hr
  · intro c hc hsucceeded
    rcases List.mem_or_eq_of_mem_set hc with hc | rfl
    · exact hs.behind c hc hsucceeded
    · rw [hidle] at hsucceeded
      cases hsucceeded
  · intro j k c d hc hd hcs hds
    rcases getElem?_set_cases hc with ⟨-, rfl⟩ | ⟨-, hc⟩
    · rw [hidle] at hcs
      cases hcs
    · rcases getElem?_set_cases hd with ⟨-, rfl⟩ | ⟨-, hd⟩
      · rw [hidle] at hds
        cases hds
      · exact hs.once j k c d hc hd hcs hds

/-- A commit. -/
theorem Sound.commit {i : ℕ} {call : CannedCall} {found updated : InboxCannedResponse}
    {table : Table InboxCannedResponse} (hs : Sound s) (hcall : s.calls[i]? = some call)
    (hstage : call.stage = .commit found updated)
    (hupdate : (s.table.update? (.id call.id) fun _ => updated) = some table) :
    Sound { table := table, calls := s.calls.set i { call with stage := .returned updated } } := by
  have hpending : call.stage.pending = some (found, updated) := by rw [hstage]; rfl
  have hactive : call.succeeded = false := by rw [CannedCall.succeeded, hstage]; rfl
  have hholds := hs.holds call (List.mem_of_getElem? hcall) found updated hpending
  have hfind := find_of_commit hholds.id hupdate
  have hfoundMem := (s.table.find_eq_some_iff.mp hholds.committed).1
  have hfoundId := InboxCannedResponse.mem_keys_id.mp
    (s.table.find_eq_some_iff.mp hholds.committed).2
  -- No update of this row has succeeded at its present revision.
  have hbefore : ∀ c ∈ s.calls, c.succeeded = true → c.id = call.id →
      c.patch.expectedRevision < call.patch.expectedRevision := by
    intro c hc hsucceeded hid
    obtain ⟨r, hr, hlt⟩ := hs.behind c hc hsucceeded
    rw [hid, hholds.committed] at hr
    cases hr
    rwa [hholds.revision] at hlt
  have hrows : ∀ r ∈ table.rows, r = updated ∨ (r ∈ s.table.rows ∧ r.id ≠ call.id) := by
    intro r hr
    have hr' := find_id hr
    rw [hfind] at hr'
    split_ifs at hr' with hid
    · cases hr'
      exact .inl rfl
    · exact .inr ⟨(s.table.find_eq_some_iff.mp hr').1, hid⟩
  refine ⟨hs.locks.set hcall (by simp [CannedCall.held, CannedStage.pending]), ?_, ?_, ?_, ?_, ?_⟩
  · intro c hc found' updated' hpending'
    obtain ⟨j, hj⟩ := List.mem_iff_getElem?.mp hc
    rcases getElem?_set_cases hj with ⟨-, rfl⟩ | ⟨hne, hj⟩
    · cases hpending'
    · obtain ⟨hcommitted, hrest⟩ := hs.holds c (List.mem_of_getElem? hj) found' updated' hpending'
      refine ⟨?_, hrest, by assumption, by assumption, by assumption⟩
      -- The row of another transaction is another row: this one is locked.
      have hid : c.id ≠ call.id := by
        intro heq
        refine hne (hs.locks j i c call (.row call.id) hj hcall ?_ ?_)
        · have hfound' := InboxCannedResponse.mem_keys_id.mp
            (s.table.find_eq_some_iff.mp hcommitted).2
          simp [CannedCall.held, hpending', CannedCall.locksOf, hfound', heq]
        · simp [CannedCall.held, hpending, CannedCall.locksOf, hfoundId]
      rw [hfind, if_neg hid, hcommitted]
  · intro r hr
    rcases hrows r hr with rfl | ⟨hr, -⟩
    · exact hholds.fits
    · exact hs.fits r hr
  · intro r hr
    rw [successes_set hcall hactive]
    rcases hrows r hr with rfl | ⟨hr, hid⟩
    · have hcounted := hs.counted found hfoundMem
      rw [hfoundId] at hcounted
      rw [hholds.next, hholds.id, hcounted]
      simp [CannedCall.succeeded, CannedStage.isReturned]
      omega
    · rw [if_neg fun hsame => hid hsame.1.symm]
      exact hs.counted r hr
  · intro c hc hsucceeded
    rcases List.mem_or_eq_of_mem_set hc with hc | rfl
    · obtain ⟨r, hr, hlt⟩ := hs.behind c hc hsucceeded
      rw [hfind]
      split_ifs with hid
      · refine ⟨updated, rfl, ?_⟩
        have hlt' := hbefore c hc hsucceeded hid
        have hnext := hholds.next
        have hrevision := hholds.revision
        omega
      · exact ⟨r, hr, hlt⟩
    · refine ⟨updated, by rw [hfind, if_pos rfl], ?_⟩
      have hnext := hholds.next
      have hrevision := hholds.revision
      dsimp only
      omega
  · intro j k c d hc hd hcs hds hid hsame
    rcases getElem?_set_cases hc with ⟨hj, rfl⟩ | ⟨hj, hc⟩
    · rcases getElem?_set_cases hd with ⟨hk, rfl⟩ | ⟨hk, hd⟩
      · exact hj.trans hk.symm
      · have hlt := hbefore d (List.mem_of_getElem? hd) hds hid.symm
        dsimp only at hsame
        omega
    · rcases getElem?_set_cases hd with ⟨hk, rfl⟩ | ⟨hk, hd⟩
      · have hlt := hbefore c (List.mem_of_getElem? hc) hcs hid
        dsimp only at hsame
        omega
      · exact hs.once j k c d hc hd hcs hds hid hsame

/-- A step keeps the invariant. -/
theorem Sound.step (hs : Sound s) (h : s.step toLowerCase a = some s') : Sound s' := by
  rcases step_cases h with rfl | ⟨id, tenantId, value, now, content, -, hcontent, -, hcalls, hinsert⟩ |
    ⟨tenantId, id, value, patch, -, rfl⟩ | ⟨i, call, stage, hcall, hactive, hmove, hcalls⟩
  · exact hs
  · have hcreated := hs.create (InboxCannedResponse.fits_created hcontent id tenantId now) rfl hinsert
    rw [← hcalls] at hcreated
    exact hcreated
  · exact hs.append rfl
  · obtain ⟨table', calls'⟩ := s'
    dsimp only at hcalls hmove
    subst hcalls
    cases hmove with
    | ends hpending hreturned =>
        refine hs.move hcall hactive hreturned ?_ ?_
        · simp [CannedCall.held, hpending]
        · intro found updated hsome
          rw [hpending] at hsome
          cases hsome
    | locks htarget hfree hfits =>
        refine hs.move hcall hactive rfl (fun l hl => .inr (hfree l hl)) ?_
        intro found updated hsome
        cases hsome
        obtain ⟨hfind, hwhere⟩ := Option.filter_eq_some_iff.mp htarget
        simp only [Bool.and_eq_true, decide_eq_true_eq] at hwhere
        have hid := InboxCannedResponse.mem_keys_id.mp (s.table.find_eq_some_iff.mp hfind).2
        exact ⟨hfind, hwhere.2, hid, rfl, hfits⟩
    | keeps hpending hreturned =>
        refine hs.move hcall hactive hreturned (fun l hl => .inl ?_) ?_
        · simpa [CannedCall.held, hpending] using hl
        · intro found updated hsome
          exact hs.holds call (List.mem_of_getElem? hcall) found updated (hpending ▸ hsome)
    | commits hstage hupdate => exact hs.commit hcall hstage hupdate

/-- The invariant holds in every state that is reached. -/
theorem sound_of_reachable (h : Reachable (CannedSystem.step toLowerCase) start s) : Sound s :=
  h.invariant Sound.start fun _ _ _ hs _ hstep => hs.step hstep

/-! ## The result -/

/-- A step writes nothing, is a creation, or makes an update succeed. -/
theorem writes_of_step (h : s.step toLowerCase a = some s') :
    s'.table = s.table ∨ (∃ id tenantId value now, a = .create id tenantId value now) ∨
      ∃ i c c', s.calls[i]? = some c ∧ c.succeeded = false ∧ c'.succeeded = true ∧
        s'.calls = s.calls.set i c' := by
  rcases step_cases h with rfl | ⟨id, tenantId, value, now, content, ha, -⟩ |
    ⟨tenantId, id, value, patch, -, rfl⟩ | ⟨i, call, stage, hcall, hactive, hmove, hcalls⟩
  · exact .inl rfl
  · exact .inr (.inl ⟨id, tenantId, value, now, ha⟩)
  · exact .inl rfl
  · obtain ⟨table', calls'⟩ := s'
    dsimp only at hmove hcalls ⊢
    cases hmove with
    | ends | locks | keeps => exact .inl rfl
    | commits hstage hupdate => exact .inr (.inr ⟨i, call, _, hcall, hactive, rfl, hcalls⟩)

/-- A call that is over takes no step. -/
theorem step_eq_none_of_over {i : ℕ} {c : CannedCall} (hc : s.calls[i]? = some c)
    (hover : c.stage.isReturned = true ∨ c.stage.isFailed = true) (now : Time) (error : String) :
    s.step toLowerCase (.statement i now) = none ∧ s.step toLowerCase (.fail i error) = none := by
  simp only [step, hc, Option.bind_some]
  rw [if_pos (by simpa using hover)]
  refine ⟨?_, rfl⟩
  cases hstage : c.stage with
  | returned updated => simp [CannedCall.statement, hstage]
  | failed error => simp [CannedCall.statement, hstage]
  | updateMany | missed | reread found updated | audit found updated | commit found updated =>
      rw [hstage] at hover
      rcases hover with hover | hover <;> cases hover

/-- **Optimistic updates.** In every interleaving of updates and creations: at most one update of a
row succeeds for each revision; the stored revision is 1 plus the number of updates that succeeded,
and the row fits its columns; a step that writes makes a call succeed, a call that is over takes no
step, and a request that the policy refuses changes nothing. What the policy accepts fits the
columns. -/
theorem canned_response_updates (toLowerCase : JsString → JsString) (s : CannedSystem)
    (h : Reachable (CannedSystem.step toLowerCase) start s) :
    (∀ (i j : ℕ) c d, s.calls[i]? = some c → s.calls[j]? = some d → c.succeeded = true →
      d.succeeded = true → c.id = d.id → c.patch.expectedRevision = d.patch.expectedRevision →
        i = j) ∧
    (∀ r ∈ s.table.rows, r.revision = 1 + s.successes r.id ∧ r.fits = true ∧
      r.revision ≤ 2147483647) ∧
    (∀ a s', s.step toLowerCase a = some s' →
      s'.table = s.table ∨ (∃ id tenantId value now, a = .create id tenantId value now) ∨
        ∃ i c c', s.calls[i]? = some c ∧ c.succeeded = false ∧ c'.succeeded = true ∧
          s'.calls = s.calls.set i c') ∧
    (∀ i c, s.calls[i]? = some c → c.stage.isReturned = true ∨ c.stage.isFailed = true →
      ∀ now error, s.step toLowerCase (.statement i now) = none ∧
        s.step toLowerCase (.fail i error) = none) ∧
    (∀ tenantId id value error, prepareCannedResponsePatch toLowerCase value = .error error →
      s.step toLowerCase (.update tenantId id value) = some s) ∧
    (∀ value content, prepareCannedResponseCreate toLowerCase value = .ok content →
      ∀ id tenantId now, (InboxCannedResponse.created id tenantId content now).fits = true) ∧
    ∀ value patch, prepareCannedResponsePatch toLowerCase value = .ok patch →
      ∀ r : InboxCannedResponse, r.fits = true → r.revision = patch.expectedRevision →
        ∀ now, (r.patched patch.changes now).fits = true := by
  have hs := sound_of_reachable h
  refine ⟨hs.once, ?_, fun a s' hstep => writes_of_step hstep, ?_, ?_, ?_, ?_⟩
  · intro r hr
    have hfits := hs.fits r hr
    refine ⟨hs.counted r hr, hfits, ?_⟩
    simp only [InboxCannedResponse.fits, Bool.and_eq_true, decide_eq_true_eq] at hfits
    omega
  · intro i c hc hover now error
    exact step_eq_none_of_over hc hover now error
  · intro tenantId id value error hrefused
    simp only [step, hrefused]
  · intro value content hcontent id tenantId now
    exact InboxCannedResponse.fits_created hcontent id tenantId now
  · intro value patch hpatch r hr hrevision now
    exact InboxCannedResponse.fits_patched hpatch hr hrevision now

/-- The units of an ASCII text. -/
def units (text : String) : JsString := text.toList.map fun c => UInt16.ofNat c.toNat

/-- A request for a new title, at a revision. -/
def samplePatch (title : String) (revision : ℚ) : CannedInput :=
  some [("title", .string (units title)), ("expectedRevision", .number (some revision))]

/-- Two updates of one row at its first revision: the second waits, and then misses. -/
def sampleUpdates : List Act :=
  [.create 1 7 (some [("shortcut", .string (units "Hello")), ("title", .string (units "Greeting")),
      ("body", .string (units "Hello!"))]) 10,
    .update 7 1 (samplePatch " Welcome " 1), .update 7 1 (samplePatch "Good morning" 1),
    .statement 0 20, .statement 0 21, .statement 0 22, .statement 0 23, .statement 1 24,
    .statement 1 25]

/-- The lower case of ASCII letters. -/
def asciiLower (text : JsString) : JsString :=
  text.map fun u => if 65 ≤ u.toNat ∧ u.toNat ≤ 90 then u + 32 else u

/-- Of two updates from one revision, one succeeds. -/
theorem canned_response_updates_race :
    ∃ s, Reachable (CannedSystem.step asciiLower) start s ∧
      s.table.rows.map (fun r => (r.shortcut, r.title, r.revision)) = [("hello", "Welcome", 2)] ∧
      s.calls.map CannedCall.succeeded = [true, false] ∧
      ∀ r ∈ s.table.rows, r.revision = 1 + s.successes r.id := by
  have hrun : (exec (CannedSystem.step asciiLower) start sampleUpdates).map (fun s =>
      (s.table.rows.map (fun r => (r.shortcut, r.title, r.revision)),
        s.calls.map CannedCall.succeeded)) =
      some ([("hello", "Welcome", 2)], [true, false]) := by
    decide
  obtain ⟨s, hs, hview⟩ := Option.map_eq_some_iff.mp hrun
  obtain ⟨hrows, hcalls⟩ := Prod.ext_iff.mp hview
  have hreach : Reachable (CannedSystem.step asciiLower) start s := Reachable.of_exec hs
  exact ⟨s, hreach, hrows, hcalls, fun r hr =>
    ((canned_response_updates asciiLower s hreach).2.1 r hr).1⟩

end CannedSystem

end ApiWhatsApp
