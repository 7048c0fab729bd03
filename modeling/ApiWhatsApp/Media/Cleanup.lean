import ApiWhatsApp.Library.Batches
import ApiWhatsApp.Media.Orphans

/-!
# The cleanup of the media registry

`purgeExpired` and `reconcileStaleUploads` of `media/media-asset-retention.service.ts`, as passes over
the registry while nothing else writes to it. Each takes the 200 oldest rows that are due. A row whose
binary cannot be deleted stays where it is, at the front.

* `discards` is the call of the storage; which binaries cannot be deleted does not change.
* `purgeExpired` and `reconcileStaleUploads` are the loops, `purgeStep` and `reconcileStep` one pass.
* `purgeSweep` and `reconcileSweep` say what a pass makes of each row (`purgeStep_eq`,
  `reconcileStep_eq`).
* **`cleanup_progress`** — when the passes get to every row that can be cleaned.

The interleavings of these jobs with uploads are those of `MediaSystem`.
-/

set_option linter.unusedSectionVars false

namespace ApiWhatsApp

open Library

/-- A row with the column that breaks ties. -/
structure DatedAsset where
  asset : MediaAsset
  createdAt : Time
  deriving DecidableEq

/-- A snapshot has the id. -/
@[simp] theorem MediaAsset.id_snapshot (r : MediaAsset) : r.snapshot.id = r.id := rfl

namespace MediaCleanup

variable (fails : StoredBinary → Bool)

/-- Source: `discard`; `fails` are the binaries that cannot be deleted. -/
def discards (asset : AssetSnapshot) : Bool := asset.binary.all fun b => !fails b

/-! ## Expired rows -/

/-- The loop body of `purgeExpired`. -/
def purgeOne (now : Time) (state : List DatedAsset × ℕ) (asset : AssetSnapshot) :
    List DatedAsset × ℕ :=
  let deletes (r : DatedAsset) : Bool := r.asset.id = asset.id && r.asset.isExpired now
  if !discards fails asset then state
  else (state.1.filter fun r => !deletes r, state.2 + state.1.countP deletes)

/-- Source: `purgeExpired`, for a result of its query. -/
def purgeExpired (now : Time) (batch rows : List DatedAsset) : List DatedAsset × ℕ :=
  (batch.map fun r => r.asset.snapshot).foldl (purgeOne fails now) (rows, 0)

/-- What a pass makes of a row. -/
def purgeSweep : Sweep Time DatedAsset Uuid (Time ×ₗ Time) where
  id r := r.asset.id
  key r := toLex (r.asset.expiresAt.getD 0, r.createdAt)
  due now r := r.asset.isExpired now
  handle _ r := if discards fails r.asset.snapshot then none else some r
  stays r := !discards fails r.asset.snapshot
  id_handle h := by
    split_ifs at h
    rw [Option.some.inj h]
  handle_of_stays _ h := if_neg (by simpa using h)

/-- One pass, with the order in which the database gives the rows. -/
def purgeStep (rows : List DatedAsset) (a : Time × List DatedAsset) : Option (List DatedAsset) :=
  if (purgeSweep fails).Orders a.1 rows a.2 then
    some (purgeExpired fails a.1 (a.2.take MaintenanceJob.cleanupBatchSize) rows).1
  else none

variable {fails} {rows : List DatedAsset}

/-- The purge of one candidate, as a change of the rows. -/
theorem purgeOne_eq {now : Time} {a : DatedAsset} (count : ℕ) (hnodup : (rows.map (·.asset.id)).Nodup)
    (ha : a ∈ rows) (hdue : a.asset.isExpired now = true) :
    (purgeOne fails now (rows, count) a.asset.snapshot).1 =
      (purgeSweep fails).pass now [a] rows := by
  have hid : ∀ r ∈ rows, r.asset.id = a.asset.id → r = a := fun r hr h =>
    List.inj_on_of_nodup_map hnodup hr ha h
  rw [Sweep.pass, purgeOne]
  cases hdiscards : discards fails a.asset.snapshot with
  | false =>
      rw [if_pos (by simp)]
      refine (List.filterMap_some).symm.trans (List.filterMap_congr fun r hr => ?_)
      unfold Sweep.after
      split_ifs with h
      · rw [List.mem_singleton.mp h]
        exact ((purgeSweep fails).handle_of_stays hdue (by simp [purgeSweep, hdiscards])).symm
      · rfl
  | true =>
      rw [if_neg (by simp), ← List.filterMap_eq_filter]
      refine List.filterMap_congr fun r hr => ?_
      by_cases hra : r = a
      · subst hra
        simp [Sweep.after, purgeSweep, hdiscards, hdue, Option.guard]
      · have hother : r.asset.id ≠ a.asset.id := fun h => hra (hid r hr h)
        simp [Sweep.after, hra, hother, Option.guard]

/-- The purge of a batch, as a pass of the sweep. -/
theorem purgeExpired_eq {now : Time} {order : List DatedAsset} (size : ℕ)
    (hnodup : (rows.map (·.asset.id)).Nodup) (horder : (purgeSweep fails).Orders now rows order) :
    (purgeExpired fails now (order.take size) rows).1 =
      (purgeSweep fails).pass now (order.take size) rows := by
  rw [← Sweep.foldl_eq_pass
    (fun rows a => (purgeOne fails now (rows, 0) a.asset.snapshot).1)
    (fun rows a hnodup ha hdue => purgeOne_eq 0 hnodup ha hdue) hnodup
    (horder.nodup_take hnodup) (fun a ha => horder.mem ha), purgeExpired, List.foldl_map]
  show _ = List.foldl _ ((rows, 0) : List DatedAsset × ℕ).1 _
  refine (List.foldl_hom Prod.fst fun state a => ?_).symm
  unfold purgeOne
  dsimp only
  split_ifs
  · rfl
  · rfl

/-- A purge is a step of the sweep. -/
theorem purgeStep_eq (a : Time × List DatedAsset) (hnodup : (rows.map (·.asset.id)).Nodup) :
    purgeStep fails rows a = (purgeSweep fails).step MaintenanceJob.cleanupBatchSize rows a := by
  unfold purgeStep Sweep.step
  split_ifs with horder
  · rw [purgeExpired_eq _ hnodup horder]
  · rfl

/-! ## Abandoned uploads -/

/-- Source: `interface MediaAssetReconciliationResult`. -/
structure MediaAssetReconciliationResult where
  markedFailed : ℕ := 0
  binariesCleaned : ℕ := 0
  cleanupDeferred : ℕ := 0

/-- A pass: its time, and the times at which it marks a row as failed and clears its key. -/
structure ReconcilePass where
  now : Time
  clock : Uuid → Time × Time

section

variable (fails : StoredBinary → Bool) (staleMs : ℕ)

/-- The pass as a job of `MediaSystem`. -/
def ReconcilePass.job (p : ReconcilePass) : MaintenanceJob where
  now := p.now
  staleMs := staleMs
  stage := .findStale

/-- An update of the rows with this condition. -/
def updateMany (where_ : MediaAsset → Bool) (f : MediaAsset → MediaAsset) (rows : List DatedAsset) :
    List DatedAsset :=
  rows.map fun r => if where_ r.asset then { r with asset := f r.asset } else r

/-- The loop body of `reconcileStaleUploads`, from the check of the key on. -/
def discardStale (p : ReconcilePass) (state : List DatedAsset × MediaAssetReconciliationResult)
    (asset : AssetSnapshot) : List DatedAsset × MediaAssetReconciliationResult :=
  if asset.storageKey.getD "" = "" then state
  else if !discards fails asset then
    (state.1, { state.2 with cleanupDeferred := state.2.cleanupDeferred + 1 })
  else
    (updateMany (MaintenanceJob.clears asset) (MaintenanceJob.clearKey (p.clock asset.id).2) state.1,
      { state.2 with binariesCleaned := state.2.binariesCleaned +
          state.1.countP fun r => MaintenanceJob.clears asset r.asset })

/-- The loop body of `reconcileStaleUploads`. -/
def reconcileOne (p : ReconcilePass) (state : List DatedAsset × MediaAssetReconciliationResult)
    (asset : AssetSnapshot) : List DatedAsset × MediaAssetReconciliationResult :=
  if asset.failureCode ≠ some abandonedUploadFailureCode then
    if (state.1.countP fun r => (p.job staleMs).claims asset r.asset) ≠ 1 then state
    else discardStale fails p
      (updateMany ((p.job staleMs).claims asset)
        ((p.job staleMs).markAbandoned (p.clock asset.id).1) state.1,
        { state.2 with markedFailed := state.2.markedFailed + 1 }) asset
  else discardStale fails p state asset

/-- Source: `reconcileStaleUploads`, for a result of its query. -/
def reconcileStaleUploads (p : ReconcilePass) (batch rows : List DatedAsset) :
    List DatedAsset × MediaAssetReconciliationResult :=
  (batch.map fun r => r.asset.snapshot).foldl (reconcileOne fails staleMs p) (rows, {})

/-- The row after its claim. -/
def claimed (p : ReconcilePass) (r : DatedAsset) : DatedAsset :=
  if r.asset.failureCode ≠ some abandonedUploadFailureCode then
    { r with asset := (p.job staleMs).markAbandoned (p.clock r.asset.id).1 r.asset }
  else r

/-- The row after the loop body. -/
def reconciled (p : ReconcilePass) (r : DatedAsset) : DatedAsset :=
  if r.asset.storageKey.getD "" = "" || !discards fails r.asset.snapshot then claimed staleMs p r
  else
    { claimed staleMs p r with
      asset := MaintenanceJob.clearKey (p.clock r.asset.id).2 (claimed staleMs p r).asset }

/-- The rows that a pass leaves as they are. -/
def isStuck (r : DatedAsset) : Bool :=
  r.asset.failureCode = some abandonedUploadFailureCode &&
    (r.asset.storageKey.getD "" = "" || !discards fails r.asset.snapshot)

/-- A claim leaves the id. -/
@[simp] theorem id_claimed (p : ReconcilePass) (r : DatedAsset) :
    (claimed staleMs p r).asset.id = r.asset.id := by
  unfold claimed
  split_ifs
  · rfl
  · rfl

/-- A reconciliation leaves the id. -/
@[simp] theorem id_reconciled (p : ReconcilePass) (r : DatedAsset) :
    (reconciled fails staleMs p r).asset.id = r.asset.id := by
  unfold reconciled
  split_ifs
  · exact id_claimed staleMs p r
  · exact id_claimed staleMs p r

/-- What a pass makes of a row. -/
def reconcileSweep : Sweep ReconcilePass DatedAsset Uuid (Time ×ₗ Time) where
  id r := r.asset.id
  key r := toLex (r.asset.updatedAt, r.createdAt)
  due p r := (p.job staleMs).isCandidate r.asset
  handle p r := some (reconciled fails staleMs p r)
  stays := isStuck fails
  id_handle h := by
    rw [← Option.some.inj h]
    exact id_reconciled fails staleMs _ _
  handle_of_stays _ h := by
    obtain ⟨hcode, hkey⟩ := Bool.and_eq_true_iff.mp h
    rw [reconciled, if_pos hkey, claimed, if_neg (not_not.mpr (of_decide_eq_true hcode))]

/-- One pass, with the order in which the database gives the rows. -/
def reconcileStep (rows : List DatedAsset) (a : ReconcilePass × List DatedAsset) :
    Option (List DatedAsset) :=
  if (reconcileSweep fails staleMs).Orders a.1 rows a.2 then
    some (reconcileStaleUploads fails staleMs a.1 (a.2.take MaintenanceJob.cleanupBatchSize) rows).1
  else none

end

variable {staleMs : ℕ}

/-- An update of one row. -/
theorem updateMany_eq (where_ : MediaAsset → Bool) (f : MediaAsset → MediaAsset) {a : DatedAsset}
    (hnodup : (rows.map (·.asset.id)).Nodup) (ha : a ∈ rows)
    (hwhere : ∀ r : MediaAsset, where_ r = true → r.id = a.asset.id) (hself : where_ a.asset = true) :
    updateMany where_ f rows =
      rows.map fun r => if r = a then { a with asset := f a.asset } else r := by
  refine List.map_congr_left fun r hr => ?_
  by_cases hra : r = a
  · rw [hra, if_pos hself, if_pos rfl]
  · rw [if_neg hra, if_neg]
    intro hcond
    exact hra (List.inj_on_of_nodup_map hnodup hr ha (hwhere _ hcond))

/-- A pass over one row changes that row. -/
theorem pass_reconcile {p : ReconcilePass} {a : DatedAsset} :
    (reconcileSweep fails staleMs).pass p [a] rows =
      rows.map fun r => if r = a then reconciled fails staleMs p a else r := by
  rw [Sweep.pass, ← List.filterMap_eq_map]
  refine List.filterMap_congr fun r _ => ?_
  rw [Sweep.after, Function.comp_apply]
  by_cases hra : r = a
  · rw [hra, if_pos List.mem_cons_self, if_pos rfl]
    rfl
  · rw [if_neg fun h => hra (List.mem_singleton.mp h), if_neg hra]

/-- The discarding of one row, as a change of the rows. -/
theorem discardStale_eq {p : ReconcilePass} {result : MediaAssetReconciliationResult}
    {asset : AssetSnapshot} {a : DatedAsset} (hnodup : (rows.map (·.asset.id)).Nodup) (ha : a ∈ rows)
    (hid : a.asset.id = asset.id) (hopen : a.asset.providerMediaId = none)
    (hcode : a.asset.failureCode = some abandonedUploadFailureCode)
    (hkey : a.asset.storageKey = asset.storageKey) :
    (discardStale fails p (rows, result) asset).1 = rows.map fun r =>
      if r = a then
        if asset.storageKey.getD "" = "" || !discards fails asset then a
        else { a with asset := MaintenanceJob.clearKey (p.clock asset.id).2 a.asset }
      else r := by
  have hsame : rows = rows.map fun r => if r = a then a else r := by
    refine (List.map_id rows).symm.trans (List.map_congr_left fun r _ => ?_)
    split_ifs with hra
    · exact hra
    · rfl
  unfold discardStale
  by_cases hempty : asset.storageKey.getD "" = ""
  · simpa [hempty] using hsame
  cases hdiscards : discards fails asset with
  | false => simpa [hempty, hdiscards] using hsame
  | true =>
      have hupdate := updateMany_eq (MaintenanceJob.clears asset)
        (MaintenanceJob.clearKey (p.clock asset.id).2) hnodup ha
        (fun r hr => by
          simp only [MaintenanceJob.clears, Bool.and_eq_true, decide_eq_true_eq] at hr
          rw [hid]
          exact hr.1.1.1)
        (by simp [MaintenanceJob.clears, hid, hopen, hcode, hkey])
      simpa [hempty, hdiscards] using hupdate

/-- The reconciliation of one candidate, as a change of the rows. -/
theorem reconcileOne_eq {p : ReconcilePass} {a : DatedAsset} (result : MediaAssetReconciliationResult)
    (hnodup : (rows.map (·.asset.id)).Nodup) (ha : a ∈ rows)
    (hdue : (p.job staleMs).isCandidate a.asset = true) :
    (reconcileOne fails staleMs p (rows, result) a.asset.snapshot).1 =
      (reconcileSweep fails staleMs).pass p [a] rows := by
  have hid : ∀ r ∈ rows, r.asset.id = a.asset.id → r = a := fun r hr h =>
    List.inj_on_of_nodup_map hnodup hr ha h
  simp only [MaintenanceJob.isCandidate, Bool.and_eq_true, Bool.or_eq_true, decide_eq_true_eq] at hdue
  obtain ⟨hopen, hdue⟩ := hdue
  rw [pass_reconcile]
  unfold reconcileOne
  rw [show a.asset.snapshot.failureCode = a.asset.failureCode from rfl]
  by_cases hcode : a.asset.failureCode = some abandonedUploadFailureCode
  · rw [if_neg (not_not.mpr hcode), discardStale_eq hnodup ha rfl hopen hcode rfl]
    refine List.map_congr_left fun r _ => ?_
    rw [reconciled, claimed, if_neg (not_not.mpr hcode)]
    rfl
  · have hstale : a.asset.isStale staleMs p.now = true := hdue.resolve_right fun h => hcode h.1
    have hclaims : ∀ r ∈ rows,
        ((p.job staleMs).claims a.asset.snapshot r.asset = true ↔ r = a) := by
      intro r hr
      constructor
      · intro h
        exact hid r hr (of_decide_eq_true (Bool.and_eq_true_iff.mp h).1)
      · rintro rfl
        exact Bool.and_eq_true_iff.mpr ⟨decide_eq_true rfl, hstale⟩
    have hcount : (rows.countP fun r => (p.job staleMs).claims a.asset.snapshot r.asset) = 1 := by
      rw [← List.count_eq_one_of_mem (hnodup.of_map _) ha]
      exact List.countP_congr fun r hr => (hclaims r hr).trans beq_iff_eq.symm
    have hupdate := updateMany_eq ((p.job staleMs).claims a.asset.snapshot)
      ((p.job staleMs).markAbandoned (p.clock a.asset.id).1) hnodup ha
      (fun r hr => of_decide_eq_true (Bool.and_eq_true_iff.mp hr).1)
      ((hclaims a ha).mpr rfl)
    have hmarked : claimed staleMs p a =
        { a with asset := (p.job staleMs).markAbandoned (p.clock a.asset.id).1 a.asset } := if_pos hcode
    rw [← hmarked] at hupdate
    rw [if_pos hcode, if_neg (not_not.mpr hcount), MediaAsset.id_snapshot, hupdate]
    have hids : (rows.map fun r => if r = a then claimed staleMs p a else r).map (·.asset.id) =
        rows.map (·.asset.id) := by
      rw [List.map_map]
      refine List.map_congr_left fun r _ => ?_
      rw [Function.comp_apply]
      split_ifs with hra
      · rw [id_claimed, hra]
      · rfl
    have hmem : claimed staleMs p a ∈ rows.map fun r => if r = a then claimed staleMs p a else r :=
      List.mem_map.mpr ⟨a, ha, if_pos rfl⟩
    rw [discardStale_eq (hids.symm ▸ hnodup) hmem (id_claimed staleMs p a)
      (by rw [hmarked]; exact hopen) (by rw [hmarked]; rfl) (by rw [hmarked]; rfl), List.map_map]
    refine List.map_congr_left fun r hr => ?_
    rw [Function.comp_apply]
    by_cases hra : r = a
    · rw [if_pos hra, if_pos rfl, if_pos hra]
      rfl
    · rw [if_neg hra, if_neg hra, if_neg]
      rintro rfl
      exact hra (hid _ hr (id_claimed staleMs p a))

/-- The reconciliation of a batch, as a pass of the sweep. -/
theorem reconcileStaleUploads_eq {p : ReconcilePass} {order : List DatedAsset} (size : ℕ)
    (hnodup : (rows.map (·.asset.id)).Nodup)
    (horder : (reconcileSweep fails staleMs).Orders p rows order) :
    (reconcileStaleUploads fails staleMs p (order.take size) rows).1 =
      (reconcileSweep fails staleMs).pass p (order.take size) rows := by
  rw [← Sweep.foldl_eq_pass
    (fun rows a => (reconcileOne fails staleMs p (rows, {}) a.asset.snapshot).1)
    (fun rows a hnodup ha hdue => reconcileOne_eq {} hnodup ha hdue) hnodup
    (horder.nodup_take hnodup) (fun a ha => horder.mem ha), reconcileStaleUploads, List.foldl_map]
  show _ = List.foldl _ ((rows, {}) : List DatedAsset × MediaAssetReconciliationResult).1 _
  refine (List.foldl_hom Prod.fst fun state a => ?_).symm
  unfold reconcileOne discardStale
  dsimp only
  split_ifs <;> rfl

/-- A reconciliation is a step of the sweep. -/
theorem reconcileStep_eq (a : ReconcilePass × List DatedAsset)
    (hnodup : (rows.map (·.asset.id)).Nodup) :
    reconcileStep fails staleMs rows a =
      (reconcileSweep fails staleMs).step MaintenanceJob.cleanupBatchSize rows a := by
  unfold reconcileStep Sweep.step
  split_ifs with horder
  · rw [reconcileStaleUploads_eq _ hnodup horder]
  · rfl

/-! ## Progress -/

/-- A pass at this time or later, which reads the clock after its start. -/
def ReconcilePass.From (start : Time) (p : ReconcilePass) : Prop :=
  start ≤ p.now ∧ ∀ id, p.now ≤ (p.clock id).1 ∧ p.now ≤ (p.clock id).2

/-- An expired row whose binary can be deleted. -/
def Removable (fails : StoredBinary → Bool) (start : Time) (r : DatedAsset) : Prop :=
  r.asset.isExpired start = true ∧ discards fails r.asset.snapshot = true

/-- An abandoned upload, written before this time, with a binary that can be deleted. -/
def Cleanable (fails : StoredBinary → Bool) (staleMs : ℕ) (start : Time) (r : DatedAsset) : Prop :=
  (r.asset.isStale staleMs start = true ∨ r.asset.providerMediaId = none ∧
      r.asset.failureCode = some abandonedUploadFailureCode) ∧
    r.asset.updatedAt < start ∧ ∃ b, r.asset.snapshot.binary = some b ∧ fails b = false

/-- Passes of `purgeExpired`, if there are enough, remove every row that can be removed. -/
def PurgeProgress (fails : StoredBinary → Bool) (rows : List DatedAsset) (start : Time) : Prop :=
  ∃ n, ∀ acts rows', (∀ a ∈ acts, start ≤ a.1) → n ≤ acts.length →
    exec (purgeStep fails) rows acts = some rows' → ∀ r ∈ rows, Removable fails start r → r ∉ rows'

/-- Passes of `reconcileStaleUploads`, if there are enough, clean every binary that can be deleted. -/
def ReconcileProgress (fails : StoredBinary → Bool) (staleMs : ℕ) (rows : List DatedAsset)
    (start : Time) : Prop :=
  ∃ n, ∀ acts rows', (∀ a ∈ acts, a.1.From start) → n ≤ acts.length →
    exec (reconcileStep fails staleMs) rows acts = some rows' →
      ∀ r ∈ rows, Cleanable fails staleMs start r →
        ∀ r' ∈ rows', r'.asset.id = r.asset.id → r'.asset.storageKey = none

/-- A run of purges is a run of the sweep. -/
theorem exec_purgeStep (hnodup : (rows.map (·.asset.id)).Nodup) (acts : List (Time × List DatedAsset)) :
    exec (purgeStep fails) rows acts =
      exec ((purgeSweep fails).step MaintenanceJob.cleanupBatchSize) rows acts := by
  refine exec_congr (P := fun rows => (rows.map (·.asset.id)).Nodup) hnodup
    (fun x a hx => purgeStep_eq a hx) (fun x a y hx hy => ?_) acts
  obtain ⟨-, rfl⟩ := Sweep.step_eq_some.mp hy
  exact Sweep.nodup_pass (s := purgeSweep fails) hx

/-- A run of reconciliations is a run of the sweep. -/
theorem exec_reconcileStep (hnodup : (rows.map (·.asset.id)).Nodup)
    (acts : List (ReconcilePass × List DatedAsset)) :
    exec (reconcileStep fails staleMs) rows acts =
      exec ((reconcileSweep fails staleMs).step MaintenanceJob.cleanupBatchSize) rows acts := by
  refine exec_congr (P := fun rows => (rows.map (·.asset.id)).Nodup) hnodup
    (fun x a hx => reconcileStep_eq a hx) (fun x a y hx hy => ?_) acts
  obtain ⟨-, rfl⟩ := Sweep.step_eq_some.mp hy
  exact Sweep.nodup_pass (s := reconcileSweep fails staleMs) hx

/-- What can be removed is a target of the sweep. -/
theorem target_purge {start : Time} {r : DatedAsset} (h : Removable fails start r) :
    (purgeSweep fails).Target (fun now => start ≤ now) r where
  due _ hnow := MediaSystem.isExpired_mono h.1 hnow
  moves := by simp [purgeSweep, h.2]
  behind now _ u u' _ hmoves hhandle := by
    have hdiscards : discards fails u.asset.snapshot = true := by simpa [purgeSweep] using hmoves
    simp [purgeSweep, hdiscards] at hhandle

/-- A binary that can be deleted is deleted. -/
theorem discards_of_binary {r : DatedAsset} {b : StoredBinary} (h : r.asset.snapshot.binary = some b)
    (hb : fails b = false) :
    r.asset.storageKey.getD "" ≠ "" ∧ discards fails r.asset.snapshot = true := by
  refine ⟨fun hempty => ?_, by rw [discards, h, Option.all_some, hb]; rfl⟩
  have hbinary : binaryAt r.asset.storageMode r.asset.storageKey = some b := h
  cases hkey : r.asset.storageKey with
  | none =>
      rw [hkey] at hbinary
      cases hbinary
  | some key =>
      rw [hkey, Option.getD_some] at hempty
      rw [hkey, hempty, binaryAt, if_pos (.inl rfl)] at hbinary
      cases hbinary

/-- A row that moves is written. -/
theorem updatedAt_reconciled {p : ReconcilePass} {r : DatedAsset} (h : isStuck fails r = false) :
    (reconciled fails staleMs p r).asset.updatedAt = (p.clock r.asset.id).1 ∨
      (reconciled fails staleMs p r).asset.updatedAt = (p.clock r.asset.id).2 := by
  unfold reconciled
  split_ifs with hkeep
  · refine .inl ?_
    have hcode : r.asset.failureCode ≠ some abandonedUploadFailureCode := by
      intro hcode
      simp only [isStuck, hcode, hkeep] at h
      cases h
    rw [claimed, if_pos hcode]
    rfl
  · exact .inr rfl

/-- A claim leaves the storage key. -/
theorem storageKey_claimed (p : ReconcilePass) (r : DatedAsset) :
    (claimed staleMs p r).asset.storageKey = r.asset.storageKey := by
  unfold claimed
  split_ifs
  · rfl
  · rfl

/-- A key that can be cleaned is gone after the reconciliation. -/
theorem storageKey_reconciled {p : ReconcilePass} {r : DatedAsset}
    (h : r.asset.storageKey = none ∨
      r.asset.storageKey.getD "" ≠ "" ∧ discards fails r.asset.snapshot = true) :
    (reconciled fails staleMs p r).asset.storageKey = none := by
  unfold reconciled
  split_ifs with hkeep
  · rw [storageKey_claimed]
    rcases h with h | ⟨hkey, hdiscards⟩
    · exact h
    · simp [hkey, hdiscards] at hkeep
  · rfl

/-- What can be cleaned is a target of the sweep. -/
theorem target_reconcile {start : Time} {r : DatedAsset} (h : Cleanable fails staleMs start r) :
    (reconcileSweep fails staleMs).Target (ReconcilePass.From start) r := by
  obtain ⟨hdue, hbefore, b, hb, hdeletable⟩ := h
  obtain ⟨hkey, hdiscards⟩ := discards_of_binary hb hdeletable
  refine ⟨fun p hp => ?_, by simp [reconcileSweep, isStuck, hkey, hdiscards],
    fun p hp u u' _ hmoves hhandle => ?_⟩
  · have hsome : r.asset.storageKey ≠ none := by
      intro hnone
      rw [hnone] at hkey
      exact hkey rfl
    simp only [reconcileSweep, MaintenanceJob.isCandidate, Bool.and_eq_true, Bool.or_eq_true,
      decide_eq_true_eq]
    rcases hdue with hstale | ⟨hopen, hcode⟩
    · refine ⟨?_, .inl (MediaSystem.isStale_mono hstale hp.1)⟩
      simp only [MediaAsset.isStale, Bool.and_eq_true, decide_eq_true_eq] at hstale
      exact hstale.1.1
    · exact ⟨hopen, .inr ⟨hcode, hsome⟩⟩
  · cases hhandle
    refine Prod.Lex.toLex_lt_toLex.mpr (.inl ?_)
    have hclock := hp.2 u.asset.id
    have hcases : (reconciled fails staleMs p u).asset.updatedAt = (p.clock u.asset.id).1 ∨
        (reconciled fails staleMs p u).asset.updatedAt = (p.clock u.asset.id).2 :=
      updatedAt_reconciled hmoves
    rcases hcases with hupdated | hupdated
    · rw [hupdated]
      exact hbefore.trans_le (hp.1.trans hclock.1)
    · rw [hupdated]
      exact hbefore.trans_le (hp.1.trans hclock.2)

/-- What comes before an expired row has expired. -/
theorem blocking_purge {start now : Time} {r : DatedAsset} (h : r.asset.isExpired start = true)
    (hnow : start ≤ now) :
    (purgeSweep fails).blocking now r rows = (purgeSweep fails).blocking start r rows := by
  refine List.countP_congr fun u _ => ?_
  simp only [Bool.and_eq_true, decide_eq_true_eq]
  refine and_congr_left fun hle => and_congr_left fun _ => ⟨fun hdue => ?_, fun hdue =>
    MediaSystem.isExpired_mono hdue hnow⟩
  simp only [purgeSweep, MediaAsset.isExpired] at hdue h hle ⊢
  obtain ⟨expiresAt, hexpires, -⟩ := (Option.any_eq_true _ _).mp hdue
  obtain ⟨bound, hbound, hstart⟩ := (Option.any_eq_true _ _).mp h
  rw [hexpires, hbound] at hle
  have htime : expiresAt ≤ bound := Prod.Lex.monotone_fst _ _ hle
  rw [hexpires]
  exact decide_eq_true (htime.trans (of_decide_eq_true hstart))

/-- Purges progress just when few rows are in the way. -/
theorem purgeProgress_iff (hnodup : (rows.map (·.asset.id)).Nodup) (start : Time) :
    PurgeProgress fails rows start ↔ ∀ r ∈ rows, Removable fails start r →
      (purgeSweep fails).blocking start r rows < MaintenanceJob.cleanupBatchSize := by
  have hdrains : PurgeProgress fails rows start ↔
      (purgeSweep fails).Drains MaintenanceJob.cleanupBatchSize (fun now => start ≤ now) rows
        (Removable fails start) := by
    refine exists_congr fun n => forall₄_congr fun acts rows' _ _ => ?_
    rw [exec_purgeStep hnodup]
  rw [hdrains, Sweep.drains_iff (fun r _ h => target_purge h) hnodup]
  refine forall₃_congr fun r _ hremovable => ⟨fun h => h start le_rfl, fun h now hnow => ?_⟩
  rwa [blocking_purge hremovable.1 hnow]

/-- Until it is cleaned, an abandoned upload is as it was. -/
theorem eq_or_cleaned {acts : List (ReconcilePass × List DatedAsset)} {rows' : List DatedAsset}
    {start : Time} {r : DatedAsset} (hnodup : (rows.map (·.asset.id)).Nodup) (hr : r ∈ rows)
    (h : Cleanable fails staleMs start r)
    (hrun : exec ((reconcileSweep fails staleMs).step MaintenanceJob.cleanupBatchSize) rows acts =
      some rows') :
    ∀ r' ∈ rows', r'.asset.id = r.asset.id → r' = r ∨ r'.asset.storageKey = none := by
  obtain ⟨-, -, b, hb, hdeletable⟩ := h
  refine Reaches.invariant (P := fun x => ∀ r' ∈ x, r'.asset.id = r.asset.id →
    r' = r ∨ r'.asset.storageKey = none) (Reachable.of_exec hrun)
    (fun r' hr' hid => .inl (List.inj_on_of_nodup_map hnodup hr' hr hid)) ?_
  intro x a y hx _ hy r' hr' hid
  obtain ⟨-, rfl⟩ := Sweep.step_eq_some.mp hy
  obtain ⟨u, hu, hafter⟩ := List.mem_filterMap.mp hr'
  unfold Sweep.after at hafter
  split_ifs at hafter with hbatch
  · have hreconciled : reconciled fails staleMs a.1 u = r' := Option.some.inj hafter
    have hidu : u.asset.id = r.asset.id := by rw [← hid, ← hreconciled, id_reconciled]
    refine .inr ?_
    rw [← hreconciled]
    rcases hx u hu hidu with rfl | hnone
    · exact storageKey_reconciled (.inr (discards_of_binary hb hdeletable))
    · exact storageKey_reconciled (.inl hnone)
  · cases hafter
    exact hx r' hu hid

/-- Reconciliations progress just when few rows are in the way. -/
theorem reconcileProgress_iff (hnodup : (rows.map (·.asset.id)).Nodup) (start : Time) :
    ReconcileProgress fails staleMs rows start ↔ ∀ r ∈ rows, Cleanable fails staleMs start r →
      ∀ p : ReconcilePass, p.From start →
        (reconcileSweep fails staleMs).blocking p r rows < MaintenanceJob.cleanupBatchSize := by
  rw [← Sweep.drains_iff (fun r _ h => target_reconcile h) hnodup]
  refine exists_congr fun n => forall₄_congr fun acts rows' _ _ => ?_
  rw [exec_reconcileStep hnodup]
  refine forall_congr' fun hrun => forall₃_congr fun r hr hcleanable => ?_
  constructor
  · intro hcleaned hleft
    obtain ⟨-, -, b, hb, hdeletable⟩ := hcleanable
    obtain ⟨hkey, -⟩ := discards_of_binary hb hdeletable
    rw [hcleaned r hleft rfl] at hkey
    exact hkey rfl
  · intro hgone r' hr' hid
    refine (eq_or_cleaned hnodup hr hcleanable hrun r' hr' hid).resolve_left ?_
    rintro rfl
    exact hgone hr'

/-- **Progress of the cleanup.** Passes of either job get to every row that can be cleaned if and only
if fewer than 200 rows that cannot may come before it in the order of its query. -/
theorem cleanup_progress (fails : StoredBinary → Bool) (staleMs : ℕ) (rows : List DatedAsset)
    (hnodup : (rows.map (·.asset.id)).Nodup) (start : Time) :
    (PurgeProgress fails rows start ↔ ∀ r ∈ rows, Removable fails start r →
      (purgeSweep fails).blocking start r rows < MaintenanceJob.cleanupBatchSize) ∧
    (ReconcileProgress fails staleMs rows start ↔ ∀ r ∈ rows, Cleanable fails staleMs start r →
      ∀ p : ReconcilePass, p.From start →
        (reconcileSweep fails staleMs).blocking p r rows < MaintenanceJob.cleanupBatchSize) :=
  ⟨purgeProgress_iff hnodup start, reconcileProgress_iff hnodup start⟩

/-! ## Rows that come first -/

/-- An upload of tenant 1 that was abandoned and has expired. -/
def abandonedAsset (mode : StorageMode) (id : Uuid) : DatedAsset where
  asset :=
    { id := id
      tenantId := 1
      providerMediaId := none
      storageMode := mode
      storageKey := storageKeyFor mode 1 id
      storedAt := some 0
      providerUploadedAt := none
      expiresAt := some 1
      failedAt := some 1
      failureCode := some abandonedUploadFailureCode
      updatedAt := 1 }
  createdAt := id

/-- A volume that is not there any more. -/
def volumeLost (b : StoredBinary) : Bool := b.mode = .filesystem

/-- An abandoned asset has a binary. -/
theorem binary_abandonedAsset (mode : StorageMode) (h : mode ≠ .disabled) (id : Uuid) :
    ∃ key, (abandonedAsset mode id).asset.snapshot.binary = some { mode := mode, key := key } := by
  cases mode with
  | disabled => exact absurd rfl h
  | filesystem => exact ⟨_, binaryAt_storageKeyFor rfl⟩
  | s3 => exact ⟨_, binaryAt_storageKeyFor rfl⟩

/-- On a volume that is lost no binary is discarded. -/
theorem not_discards_abandonedAsset (id : Uuid) :
    discards volumeLost (abandonedAsset .filesystem id).asset.snapshot = false := by
  obtain ⟨key, hkey⟩ := binary_abandonedAsset StorageMode.filesystem (by decide) id
  rw [discards, hkey]
  rfl

/-- An asset in the object store can be cleaned. -/
theorem cleanable_abandonedAsset (id : Uuid) (staleMs : ℕ) :
    Cleanable volumeLost staleMs 5 (abandonedAsset .s3 id) ∧
      Removable volumeLost 5 (abandonedAsset .s3 id) := by
  obtain ⟨key, hkey⟩ := binary_abandonedAsset StorageMode.s3 (by decide) id
  refine ⟨⟨.inr ⟨rfl, rfl⟩, Nat.lt_of_sub_eq_succ rfl, _, hkey, rfl⟩, rfl, ?_⟩
  exact (discards_of_binary hkey rfl).2

/-- Both jobs get to the one binary that can be deleted. -/
theorem cleanup_progress_of_two :
    PurgeProgress volumeLost [abandonedAsset .filesystem 1, abandonedAsset .s3 2] 5 ∧
      ReconcileProgress volumeLost 7200000 [abandonedAsset .filesystem 1, abandonedAsset .s3 2] 5 := by
  obtain ⟨hpurge, hreconcile⟩ := cleanup_progress volumeLost 7200000
    [abandonedAsset .filesystem 1, abandonedAsset .s3 2] (by decide) 5
  refine ⟨hpurge.mpr fun r _ _ => ?_, hreconcile.mpr fun r _ _ p _ => ?_⟩
  · exact List.countP_le_length.trans_lt (by decide)
  · exact List.countP_le_length.trans_lt (by decide)

/-- 200 rows whose volume is lost, and one that is kept elsewhere. -/
def crowded : List DatedAsset :=
  (List.range 200).map (abandonedAsset .filesystem) ++ [abandonedAsset .s3 200]

/-- The crowded table has different ids. -/
theorem nodup_crowded : (crowded.map (·.asset.id)).Nodup := by
  have hids : crowded.map (·.asset.id) = List.range (200 + 1) := by
    have hfirst : ((List.range 200).map (abandonedAsset .filesystem)).map (·.asset.id) =
        List.range 200 := by
      rw [List.map_map]
      exact List.map_id _
    rw [List.range_succ, crowded, List.map_append, hfirst]
    exact congrArg (List.range 200 ++ ·) rfl
  rw [hids]
  exact List.nodup_range

/-- **Neither job ever gets to the last row.** -/
theorem cleanup_starved :
    ¬PurgeProgress volumeLost crowded 5 ∧ ¬ReconcileProgress volumeLost 7200000 crowded 5 := by
  have hlast : abandonedAsset .s3 200 ∈ crowded := List.mem_append_right _ List.mem_cons_self
  have hcount : ∀ q : DatedAsset → Bool, (∀ id < 200, q (abandonedAsset .filesystem id) = true) →
      200 ≤ crowded.countP q := by
    intro q hq
    have hall : ((List.range 200).map (abandonedAsset .filesystem)).countP q = 200 := by
      refine (List.countP_eq_length.mpr fun r hr => ?_).trans (by simp)
      obtain ⟨id, hid, rfl⟩ := List.mem_map.mp hr
      exact hq id (List.mem_range.mp hid)
    rw [crowded, List.countP_append, hall]
    exact Nat.le_add_right _ _
  obtain ⟨hcleanable, hremovable⟩ := cleanable_abandonedAsset 200 7200000
  constructor
  · intro hprogress
    refine absurd ((purgeProgress_iff nodup_crowded 5).mp hprogress _ hlast hremovable)
      (not_lt.mpr (hcount _ fun id hid => ?_))
    have hkey : (purgeSweep volumeLost).key (abandonedAsset .filesystem id) ≤
        (purgeSweep volumeLost).key (abandonedAsset .s3 200) :=
      Prod.Lex.toLex_le_toLex.mpr (.inr ⟨rfl, hid.le⟩)
    simp only [Bool.and_eq_true, decide_eq_true_eq]
    refine ⟨⟨rfl, ?_⟩, hkey⟩
    simp [purgeSweep, not_discards_abandonedAsset]
  · intro hprogress
    have hpass : ReconcilePass.From 5 { now := 5, clock := fun _ => (5, 5) } :=
      ⟨le_rfl, fun _ => ⟨le_rfl, le_rfl⟩⟩
    refine absurd ((reconcileProgress_iff nodup_crowded 5).mp hprogress _ hlast hcleanable _ hpass)
      (not_lt.mpr (hcount _ fun id hid => ?_))
    have hkey : (reconcileSweep volumeLost 7200000).key (abandonedAsset .filesystem id) ≤
        (reconcileSweep volumeLost 7200000).key (abandonedAsset .s3 200) :=
      Prod.Lex.toLex_le_toLex.mpr (.inr ⟨rfl, hid.le⟩)
    simp only [Bool.and_eq_true, decide_eq_true_eq]
    refine ⟨⟨rfl, ?_⟩, hkey⟩
    show isStuck volumeLost (abandonedAsset .filesystem id) = true
    rw [isStuck, not_discards_abandonedAsset, Bool.not_false, Bool.or_true, Bool.and_true]
    rfl

end MediaCleanup

end ApiWhatsApp
