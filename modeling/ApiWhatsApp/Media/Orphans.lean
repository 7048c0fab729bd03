import ApiWhatsApp.Media.Uploads

/-!
# No orphaned media

The maintenance jobs, and what the registry promises about the storage in every run of `MediaSystem`
in which staging ends before a row becomes stale or expires.

* `rowsOk_pending` says what the calls of a job write, `jobOk_returned` and `jobOk_threw` what it
  knows after them.
* **`stepOk_step`** — every step is one that keeps the invariant `Kept`.
* **`media_registry_leaves_no_orphan`** — every binary is referenced, a reference is given up only
  after `discard` has returned, no row is both complete and failed, and an abandoned one is never
  active again.
-/

namespace ApiWhatsApp

open Library

namespace MediaSystem

variable {config : MediaConfig} {s t : MediaSystem}

/-! ## Jobs -/

/-- Where staging ends in time, a row that is stale or expired belongs to an upload that is over. -/
theorem over_of_timely {r : MediaAsset} (h : Kept config s) (hG : s.timely config = true)
    (hr : r ∈ s.assets.rows)
    (hlate : r.isExpired s.clock = true ∨
      ∃ staleMs, config.readStaleUploadMs = .ok staleMs ∧ r.isStale staleMs s.clock = true) :
    s.Over r.id := by
  obtain ⟨u, hu, hdescribes⟩ := h.described r hr
  refine ⟨u, hu, hdescribes.id.symm, ?_⟩
  by_contra hover
  have hstaging : u.isStaging = true := by
    simpa [MediaUpload.isOver, hdescribes.begun] using hover
  have hrow := List.all_eq_true.mp hG u hu
  rw [hstaging, Bool.not_true, Bool.false_or] at hrow
  have hfresh := List.all_eq_true.mp hrow r hr
  rcases hlate with hexpired | ⟨staleMs, hread, hstale⟩
  · simp [hdescribes.id, hexpired] at hfresh
  · simp [hdescribes.id, hread, hstale] at hfresh

/-- What has expired stays so. -/
theorem isExpired_mono {r : MediaAsset} {now now' : Time} (h : r.isExpired now = true)
    (hle : now ≤ now') : r.isExpired now' = true := by
  unfold MediaAsset.isExpired at h ⊢
  cases hexpires : r.expiresAt with
  | none => simp [hexpires] at h
  | some expiresAt =>
      have hthen : expiresAt ≤ now := by simpa [hexpires] using h
      simpa using hthen.trans hle

/-- What is stale stays so. -/
theorem isStale_mono {r : MediaAsset} {staleMs : ℕ} {now now' : Time}
    (h : r.isStale staleMs now = true) (hle : now ≤ now') : r.isStale staleMs now' = true := by
  simp only [MediaAsset.isStale, Bool.and_eq_true, decide_eq_true_eq] at h ⊢
  exact ⟨h.1, h.2.trans hle⟩

/-- A row that a job has claimed, or has found expired, belongs to an upload that is over. -/
theorem over_of_claims {job : MaintenanceJob} {asset : AssetSnapshot} {r : MediaAsset}
    (h : Kept config s) (hG : s.timely config = true) (hjob : s.JobOk config job)
    (hreconciles : job.stage.reconciles = true) (hr : r ∈ s.assets.rows)
    (hclaims : job.claims asset r = true) : s.Over r.id := by
  obtain ⟨-, hstale⟩ := Bool.and_eq_true_iff.mp hclaims
  exact over_of_timely h hG hr
    (.inr ⟨job.staleMs, hjob.stale hreconciles, isStale_mono hstale hjob.now⟩)

/-- What a query has found. -/
theorem traced_of_row {r : MediaAsset} (h : Kept config s) (hr : r ∈ s.assets.rows) :
    ∃ u, s.Traced r.snapshot u := by
  obtain ⟨u, hu, hdescribes⟩ := h.described r hr
  refine ⟨u, hu, hdescribes.id.symm, hdescribes.begun, hdescribes.mode, hdescribes.key,
    hdescribes.abandoned, ?_⟩
  intro hnone r' hr' hid
  obtain rfl : r' = r := s.assets.eq_of_mem_keys hr' hr (mem_keys_asset_id.mpr hid)
    (mem_keys_asset_id.mpr rfl)
  exact hnone

/-- What is selected is a snapshot of a row. -/
theorem mem_select {ids : List Uuid} {p : MediaAsset → Bool} {a : AssetSnapshot}
    (h : a ∈ MaintenanceJob.select s.assets ids p) :
    ∃ r ∈ s.assets.rows, p r = true ∧ r.snapshot = a := by
  obtain ⟨id, -, hid⟩ := List.mem_filterMap.mp h
  obtain ⟨r, hr, rfl⟩ := Option.map_eq_some_iff.mp hid
  obtain ⟨hfind, hp⟩ := Option.filter_eq_some_iff.mp hr
  exact ⟨r, (s.assets.find_eq_some_iff.mp hfind).1, hp, rfl⟩

/-- What a job does to the rows. -/
structure RowsOk (s : MediaSystem) (assets : MediaAssets) (binaries : List StoredBinary) :
    Prop where
  described : ∀ r' ∈ assets.rows, ∃ u ∈ s.uploads, u.Describes r'
  back : ∀ r' ∈ assets.rows, ∃ r ∈ s.assets.rows, r.id = r'.id ∧
    (r.storageKey = none → r'.storageKey = none) ∧ (r.failureCode ≠ none → r'.failureCode ≠ none)
  releases : ∀ r ∈ s.assets.rows,
    (∃ r' ∈ assets.rows, r'.id = r.id ∧ r'.storageMode = r.storageMode ∧
      r'.storageKey = r.storageKey) ∨
    (s.Over r.id ∧ ∀ b, binaryAt r.storageMode r.storageKey = some b →
      b ∉ binaries ∧ b ∈ s.discarded)

/-- Rows may stay as they are. -/
theorem RowsOk.refl (h : Kept config s) (binaries : List StoredBinary) :
    RowsOk s s.assets binaries :=
  ⟨h.described, fun r hr => ⟨r, hr, rfl, id, id⟩, fun r hr => .inl ⟨r, hr, rfl, rfl, rfl⟩⟩

/-- **A step of a job.** -/
theorem stepOk_job {i : ℕ} {job' : MaintenanceJob} {assets : MediaAssets}
    {binaries discarded : List StoredBinary} (h : Kept config s) (hrows : RowsOk s assets binaries)
    (hbinaries : binaries ⊆ s.binaries) (hdiscarded : s.discarded ⊆ discarded)
    (hjob : ∀ t, Grows s t → t.binaries = binaries → t.discarded = discarded →
      t.JobOk config job') :
    StepOk config s
      { s with
        assets := assets, binaries := binaries, jobs := s.jobs.set i job',
        discarded := discarded } := by
  have hgrows : Grows s
      { s with
        assets := assets, binaries := binaries, jobs := s.jobs.set i job',
        discarded := discarded } :=
    ⟨le_refl _, fun u hu => ⟨u, hu, .refl u⟩, fun r' hr' => .inl (hrows.back r' hr'),
      fun b hb => .inl (hbinaries hb), hdiscarded⟩
  refine ⟨hgrows, hrows.releases, h.ids, h.lingers, hrows.described,
    fun u hu hstaging => .inl ⟨u, hu, hstaging, .refl u⟩, ?_⟩
  intro job hmem
  rcases List.mem_or_eq_of_mem_set hmem with hmem | rfl
  · exact .inl hmem
  · exact .inr (hjob _ hgrows rfl rfl)

/-- The upload of an asset that is held, as it describes a row of the asset. -/
theorem Traced.describes {a : AssetSnapshot} {u : MediaUpload} {r : MediaAsset} (h : Kept config s)
    (ha : s.Traced a u) (hr : r ∈ s.assets.rows) (hid : r.id = a.id) : u.Describes r :=
  h.describes ha.mem hr (hid.trans ha.id.symm)

/-- What the calls of a job write. -/
theorem rowsOk_pending {job : MaintenanceJob} {ids : List Uuid} {written : Option MediaAssets}
    {assets : MediaAssets} {binary : Option StoredBinary} {returned threw : MaintenanceStage}
    (h : Kept config s) (hG : s.timely config = true) (hjob : s.JobOk config job)
    (hp : job.pending s.assets s.clock ids = some (written, binary, returned, threw))
    (hwritten : written = some assets) : RowsOk s assets (remove s.binaries binary) := by
  unfold MaintenanceJob.pending at hp
  split at hp <;> cases hp
  case h_1 | h_3 | h_5 | h_6 =>
      cases hwritten
      exact .refl h _
  case h_2 asset rest hstage =>
      cases hwritten
      constructor
      · intro r' hr'
        obtain ⟨r, hr, rfl⟩ := List.mem_map.mp hr'
        split_ifs with hclaims
        · -- A claimed row belongs to an upload that is over.
          obtain ⟨u, hu, hid, hover⟩ :=
            over_of_claims h hG hjob (by rw [hstage]; rfl) hr hclaims
          obtain ⟨hid, hbegun, hmode, hkey, -, -, -⟩ := h.describes hu hr hid.symm
          refine ⟨u, hu, hid, hbegun, hmode, hkey, fun _ => nofun, fun _ => hover, ?_⟩
          intro hmedia
          simp only [MaintenanceJob.claims, MediaAsset.isStale, Bool.and_eq_true,
            decide_eq_true_eq] at hclaims
          exact absurd hclaims.2.1.1 hmedia
        · exact h.described r hr
      · intro r' hr'
        obtain ⟨r, hr, rfl⟩ := List.mem_map.mp hr'
        refine ⟨r, hr, ?_⟩
        split_ifs
        · exact ⟨rfl, id, fun _ => nofun⟩
        · exact ⟨rfl, id, id⟩
      · intro r hr
        refine .inl ⟨_, List.mem_map_of_mem hr, ?_⟩
        split_ifs <;> exact ⟨rfl, rfl, rfl⟩
  case h_4 asset rest hstage =>
      have hrows := Table.rows_of_mapRows? hwritten
      constructor
      · intro r' hr'
        rw [hrows] at hr'
        obtain ⟨r, hr, rfl⟩ := List.mem_map.mp hr'
        obtain ⟨u, hu, hdescribes⟩ := h.described r hr
        refine ⟨u, hu, ?_⟩
        split_ifs
        · obtain ⟨hid, hbegun, hmode, -, hfailed, habandoned, hcompleted⟩ := hdescribes
          exact ⟨hid, hbegun, hmode, .inl rfl, hfailed, habandoned, hcompleted⟩
        · exact hdescribes
      · intro r' hr'
        rw [hrows] at hr'
        obtain ⟨r, hr, rfl⟩ := List.mem_map.mp hr'
        refine ⟨r, hr, ?_⟩
        split_ifs
        · exact ⟨rfl, fun _ => rfl, id⟩
        · exact ⟨rfl, id, id⟩
      · intro r hr
        by_cases hclears : MaintenanceJob.clears asset r = true
        · have hclears' := hclears
          simp only [MaintenanceJob.clears, Bool.and_eq_true, decide_eq_true_eq] at hclears'
          obtain ⟨⟨⟨hid, -⟩, hcode⟩, hkey⟩ := hclears'
          obtain ⟨u, hu⟩ := hjob.held asset (by rw [hstage]; exact List.mem_cons_self)
          have hdescribes := hu.describes h hr hid
          refine .inr ⟨⟨u, hu.mem, hdescribes.id.symm, hdescribes.abandoned hcode⟩, ?_⟩
          intro b hb
          rw [hdescribes.mode, ← hu.mode, hkey] at hb
          obtain ⟨habsent, hdiscarded⟩ := hjob.released asset (by rw [hstage]; rfl) b hb
          exact ⟨fun hmem => habsent (mem_remove.mp hmem).1, hdiscarded⟩
        · refine .inl ⟨r, ?_, rfl, rfl, rfl⟩
          rw [hrows]
          exact List.mem_map.mpr ⟨r, hr, if_neg hclears⟩
  case h_7 asset rest hstage =>
      cases hwritten
      have hsub : ∀ r ∈ (s.assets.deleteWhere fun r =>
          r.id = asset.id && r.isExpired job.now).rows, r ∈ s.assets.rows :=
        fun r hr => List.mem_of_mem_filter hr
      refine ⟨fun r hr => h.described r (hsub r hr), fun r hr => ⟨r, hsub r hr, rfl, id, id⟩, ?_⟩
      intro r hr
      by_cases hid : r.id = asset.id
      · obtain ⟨u, hu⟩ := hjob.held asset (by rw [hstage]; exact List.mem_cons_self)
        have hdescribes := hu.describes h hr hid
        have hover : s.Over asset.id :=
          hjob.ended asset (by rw [hstage]; exact List.mem_cons_self)
        refine .inr ⟨hid ▸ hover, fun b hb => ?_⟩
        -- The row has the key that the job has read.
        have hkey : asset.storageKey = r.storageKey := by
          have hsome := (binaryAt_eq_some hb).2
          rcases hu.key with hnone | hkey
          · rw [hu.rows hnone r hr hid] at hsome
            cases hsome
          · rcases hdescribes.key with hnone | hkey'
            · rw [hnone] at hsome
              cases hsome
            · rw [hkey, hkey']
        rw [hdescribes.mode, ← hu.mode, ← hkey] at hb
        obtain ⟨habsent, hdiscarded⟩ := hjob.released asset (by rw [hstage]; rfl) b hb
        exact ⟨fun hmem => habsent (mem_remove.mp hmem).1, hdiscarded⟩
      · refine .inl ⟨r, List.mem_filter.mpr ⟨hr, ?_⟩, rfl, rfl, rfl⟩
        simp [hid]

/-- A job that holds nothing. -/
theorem jobOk_of_nothing {job : MaintenanceJob} (hnow : job.now ≤ s.clock)
    (hstale : job.stage.reconciles = true → config.readStaleUploadMs = .ok job.staleMs)
    (hheld : job.stage.held = []) : s.JobOk config job := by
  have hnone : job.stage.discardable = [] ∧ job.stage.released = none := by
    revert hheld
    cases job.stage <;> simp [MaintenanceStage.held, MaintenanceStage.discardable,
      MaintenanceStage.released]
  refine ⟨hnow, hstale, by simp [hheld], by simp [hnone], by simp [hnone]⟩

/-- The loop of `reconcileStaleUploads` goes on. -/
theorem jobOk_nextStale {job : MaintenanceJob} {rest : List AssetSnapshot}
    (hnow : job.now ≤ s.clock) (hstale : config.readStaleUploadMs = .ok job.staleMs)
    (hheld : ∀ a ∈ rest, ∃ u, s.Traced a u) :
    s.JobOk config { job with stage := .nextStale rest } := by
  obtain ⟨hsub, hreleased, hdiscardable⟩ := MaintenanceStage.nextStale_spec rest
  refine ⟨hnow, fun _ => hstale, fun a ha => hheld a (hsub ha), fun a ha => ?_, by simp [hreleased]⟩
  obtain ⟨hmem, hcode⟩ := hdiscardable a ha
  obtain ⟨u, hu⟩ := hheld a hmem
  exact ⟨u, hu.mem, hu.id, hu.abandoned hcode⟩

/-- The loop of `purgeExpired` goes on. -/
theorem jobOk_nextExpired {job : MaintenanceJob} {rest : List AssetSnapshot}
    (hnow : job.now ≤ s.clock) (hheld : ∀ a ∈ rest, ∃ u, s.Traced a u)
    (hover : ∀ a ∈ rest, s.Over a.id) :
    s.JobOk config { job with stage := .nextExpired rest } := by
  obtain ⟨hsame, hreleased, hdiscardable⟩ := MaintenanceStage.nextExpired_spec rest
  refine ⟨hnow, fun hreconciles => ?_, ?_, ?_, by simp [hreleased]⟩
  · cases rest <;> cases hreconciles
  · rw [hsame]
    exact hheld
  · rw [hdiscardable]
    exact hover

/-- After an error a job goes on with what it holds, or ends. -/
theorem jobOk_threw {job : MaintenanceJob} {ids : List Uuid} {written : Option MediaAssets}
    {binary : Option StoredBinary} {returned threw : MaintenanceStage}
    (h : Kept config s) (hjob : s.JobOk config job)
    (hp : job.pending s.assets s.clock ids = some (written, binary, returned, threw))
    (hg : Grows s t) : t.JobOk config { job with stage := threw } := by
  have hjob' := hjob.mono h hg
  unfold MaintenanceJob.pending at hp
  split at hp <;> cases hp
  case h_1 | h_2 | h_4 | h_5 | h_7 => exact jobOk_of_nothing hjob'.now nofun rfl
  case h_3 asset rest hstage =>
      refine jobOk_nextStale hjob'.now (hjob'.stale (by rw [hstage]; rfl)) fun a ha => ?_
      exact hjob'.held a (by rw [hstage]; exact List.mem_cons_of_mem _ ha)
  case h_6 asset rest hstage =>
      refine jobOk_nextExpired hjob'.now (fun a ha => ?_) fun a ha => ?_
      · exact hjob'.held a (by rw [hstage]; exact List.mem_cons_of_mem _ ha)
      · exact hjob'.ended a (by rw [hstage]; exact List.mem_cons_of_mem _ ha)

/-- After a call has returned, what a job has found out is true. -/
theorem jobOk_returned {job : MaintenanceJob} {ids : List Uuid} {written : Option MediaAssets}
    {binary : Option StoredBinary} {returned threw : MaintenanceStage}
    (h : Kept config s) (hG : s.timely config = true) (hjob : s.JobOk config job)
    (hp : job.pending s.assets s.clock ids = some (written, binary, returned, threw))
    (hg : Grows s t) (hbinaries : t.binaries = remove s.binaries binary)
    (hdiscarded : t.discarded = binary.toList ++ s.discarded) :
    t.JobOk config { job with stage := returned } := by
  have hjob' := hjob.mono h hg
  -- A binary that was discarded is gone.
  have hreleased : ∀ b, binary = some b → b ∉ t.binaries ∧ b ∈ t.discarded := by
    rintro b rfl
    refine ⟨fun hmem => ?_, by simp [hdiscarded]⟩
    rw [hbinaries, mem_remove] at hmem
    exact hmem.2 rfl
  have htraced : ∀ r ∈ s.assets.rows, ∃ u, t.Traced r.snapshot u := by
    intro r hr
    obtain ⟨u, hu⟩ := traced_of_row h hr
    exact hu.mono h hg
  unfold MaintenanceJob.pending at hp
  split at hp <;> cases hp
  case h_1 hstage =>
      refine jobOk_nextStale hjob'.now (hjob'.stale (by rw [hstage]; rfl)) fun a ha => ?_
      obtain ⟨r, hr, -, rfl⟩ := mem_select ha
      exact htraced r hr
  case h_2 asset rest hstage =>
      have hstale := hjob'.stale (by rw [hstage]; rfl)
      have hrest : ∀ a ∈ rest, ∃ u, t.Traced a u := fun a ha =>
        hjob'.held a (by rw [hstage]; exact List.mem_cons_of_mem _ ha)
      split_ifs with hany
      · obtain ⟨r, hr, hclaims⟩ := List.any_eq_true.mp hany
        have hover := (over_of_claims h hG hjob (by rw [hstage]; rfl) hr hclaims).mono hg
        have hid : r.id = asset.id := by simpa using (Bool.and_eq_true_iff.mp hclaims).1
        rw [hid] at hover
        unfold MaintenanceStage.afterClaim
        split_ifs with hkey
        · exact jobOk_nextStale hjob'.now hstale hrest
        · exact ⟨hjob'.now, fun _ => hstale, fun a ha => hjob'.held a (by rw [hstage]; exact ha),
            fun a ha => List.mem_singleton.mp ha ▸ hover, nofun⟩
      · exact jobOk_nextStale hjob'.now hstale hrest
  case h_3 asset rest hstage =>
      refine ⟨hjob'.now, fun _ => hjob'.stale (by rw [hstage]; rfl),
        fun a ha => hjob'.held a (by rw [hstage]; exact ha),
        fun a ha => hjob'.ended a (by rw [hstage]; exact ha), ?_⟩
      intro a ha b hb
      cases ha
      exact hreleased b hb
  case h_4 asset rest hstage =>
      refine jobOk_nextStale hjob'.now (hjob'.stale (by rw [hstage]; rfl)) fun a ha => ?_
      exact hjob'.held a (by rw [hstage]; exact List.mem_cons_of_mem _ ha)
  case h_5 hstage =>
      refine jobOk_nextExpired hjob'.now (fun a ha => ?_) fun a ha => ?_
      · obtain ⟨r, hr, -, rfl⟩ := mem_select ha
        exact htraced r hr
      · obtain ⟨r, hr, hexpired, rfl⟩ := mem_select ha
        have hover := over_of_timely h hG hr (.inl (isExpired_mono hexpired hjob.now))
        exact hover.mono hg
  case h_6 asset rest hstage =>
      refine ⟨hjob'.now, nofun, fun a ha => hjob'.held a (by rw [hstage]; exact ha),
        fun a ha => hjob'.ended a (by rw [hstage]; exact ha), ?_⟩
      intro a ha b hb
      cases ha
      exact hreleased b hb
  case h_7 asset rest hstage =>
      refine jobOk_nextExpired hjob'.now (fun a ha => ?_) fun a ha => ?_
      · exact hjob'.held a (by rw [hstage]; exact List.mem_cons_of_mem _ ha)
      · exact hjob'.ended a (by rw [hstage]; exact List.mem_cons_of_mem _ ha)

/-- **Every call of a job.** -/
theorem stepOk_stepJob {i : ℕ} {job : MaintenanceJob} {outcome : CallOutcome} {ids : List Uuid}
    (h : Kept config s) (hG : s.timely config = true) (hi : s.jobs[i]? = some job)
    (hstep : s.stepJob i job outcome ids = some t) : StepOk config s t := by
  have hjob := h.jobs job (List.mem_of_getElem? hi)
  have hsub : ∀ b, remove s.binaries b ⊆ s.binaries := fun _ _ hmem => (mem_remove.mp hmem).1
  obtain ⟨⟨written, binary, returned, threw⟩, hp, hstep⟩ := Option.bind_eq_some_iff.mp hstep
  cases outcome with
  | returned =>
      obtain ⟨assets, hwritten, rfl⟩ := Option.map_eq_some_iff.mp hstep
      exact stepOk_job h (rowsOk_pending h hG hjob hp hwritten) (hsub binary)
        (List.subset_append_right _ _) fun t hg => jobOk_returned h hG hjob hp hg
  | interrupted error =>
      obtain ⟨assets, hwritten, rfl⟩ := Option.map_eq_some_iff.mp hstep
      exact stepOk_job h (rowsOk_pending h hG hjob hp hwritten) (hsub binary)
        (List.Subset.refl _) fun t hg _ _ => jobOk_threw h hjob hp hg
  | failed error =>
      cases hstep
      exact stepOk_job h (.refl h _) (List.Subset.refl _) (List.Subset.refl _)
        fun t hg _ _ => jobOk_threw h hjob hp hg

/-! ## All steps -/

/-- A step that leaves rows, binaries and uploads alone. -/
theorem stepOk_of_same (h : Kept config s) (hclock : s.clock ≤ t.clock)
    (hassets : t.assets = s.assets) (hbinaries : t.binaries = s.binaries)
    (huploads : t.uploads = s.uploads) (hdiscarded : t.discarded = s.discarded)
    (hjobs : ∀ job ∈ t.jobs, job ∈ s.jobs ∨ t.JobOk config job) : StepOk config s t where
  grows := by
    refine ⟨hclock, fun u hu => ⟨u, huploads ▸ hu, .refl u⟩, fun r hr => .inl ⟨r, ?_, rfl, id, id⟩,
      fun b hb => .inl (hbinaries ▸ hb), fun b hb => hdiscarded ▸ hb⟩
    exact hassets ▸ hr
  releases r hr := .inl ⟨r, hassets ▸ hr, rfl, rfl, rfl⟩
  ids := huploads ▸ h.ids
  lingers u hu := h.lingers u (huploads ▸ hu)
  described r hr := by
    rw [huploads]
    exact h.described r (hassets ▸ hr)
  staging u hu hstaging := .inl ⟨u, huploads ▸ hu, hstaging, .refl u⟩
  jobs := hjobs

/-- **Every step**, under the deployment's promise. -/
theorem stepOk_step {act : Act} (h : Kept config s) (hG : s.timely config = true)
    (hstep : s.step config act = some t) : StepOk config s t := by
  -- A new job knows the time and, for `reconcileStaleUploads`, the threshold.
  have hnew : ∀ {job' : MaintenanceJob}, t.JobOk config job' → ∀ job ∈ s.jobs ++ [job'],
      job ∈ s.jobs ∨ t.JobOk config job := by
    intro job' hjob' job hmem
    rcases List.mem_append.mp hmem with hmem | hmem
    · exact .inl hmem
    · exact .inr (List.mem_singleton.mp hmem ▸ hjob')
  cases act with
  | tick elapsed =>
      cases hstep
      exact stepOk_of_same h (Nat.le_add_right _ _) rfl rfl rfl rfl fun job hjob => .inl hjob
  | upload tenantId assetId mode =>
      obtain ⟨hfresh, hstep⟩ := Option.ite_none_left_eq_some.mp hstep
      split at hstep
      · cases hstep
      cases hstep
      refine ⟨⟨le_refl _, fun u hu => ⟨u, List.mem_append_left _ hu, .refl u⟩,
        fun r hr => .inl ⟨r, hr, rfl, id, id⟩, fun b hb => .inl hb, List.Subset.refl _⟩,
        fun r hr => .inl ⟨r, hr, rfl, rfl, rfl⟩, ?_, ?_, ?_, ?_, fun job hjob => .inl hjob⟩
      · rw [List.map_append, List.nodup_append]
        refine ⟨h.ids, List.nodup_singleton _, ?_⟩
        rintro id hid _ hnew rfl
        obtain rfl : id = assetId := by simpa using hnew
        exact hfresh hid
      · intro u hu
        rcases List.mem_append.mp hu with hu | hu
        · exact h.lingers u hu
        · rw [List.mem_singleton.mp hu]
          exact nofun
      · intro r hr
        obtain ⟨u, hu, hdescribes⟩ := h.described r hr
        exact ⟨u, List.mem_append_left _ hu, hdescribes⟩
      · intro u hu hstaging
        rcases List.mem_append.mp hu with hu | hu
        · exact .inl ⟨u, hu, hstaging, .refl u⟩
        · rw [List.mem_singleton.mp hu] at hstaging
          cases hstaging
  | onUpload i act =>
      obtain ⟨u, hu, hstep⟩ := Option.bind_eq_some_iff.mp hstep
      exact stepOk_stepUpload h hu hstep
  | reconcileStaleUploads =>
      simp only [step] at hstep
      split at hstep
      · cases hstep
      · rename_i staleMs hread
        cases hstep
        exact stepOk_of_same h (le_refl _) rfl rfl rfl rfl
          (hnew (jobOk_of_nothing (le_refl _) (fun _ => hread) rfl))
  | purgeExpired =>
      cases hstep
      exact stepOk_of_same h (le_refl _) rfl rfl rfl rfl
        (hnew (jobOk_of_nothing (le_refl _) nofun rfl))
  | onJob i outcome ids =>
      obtain ⟨job, hi, hstep⟩ := Option.bind_eq_some_iff.mp hstep
      exact stepOk_stepJob h hG hi hstep
  | crashJob i =>
      obtain ⟨job, hi, hstep⟩ := Option.bind_eq_some_iff.mp hstep
      obtain ⟨-, hstep⟩ := Option.ite_none_left_eq_some.mp hstep
      cases hstep
      refine stepOk_of_same h (le_refl _) rfl rfl rfl rfl fun job' hmem => ?_
      rcases List.mem_or_eq_of_mem_set hmem with hmem | rfl
      · exact .inl hmem
      · exact .inr (jobOk_of_nothing (h.jobs job (List.mem_of_getElem? hi)).now nofun rfl)

/-- The invariant holds in every state reached. -/
theorem kept_of_reaches
    (hrun : Reaches (step config) (fun s _ => s.timely config = true) initial s) :
    Kept config s :=
  hrun.invariant kept_initial fun _ _ _ hx hG hy => (stepOk_step hx hG hy).kept hx

/-! ## The promises -/

/-- Every binary is referenced by a row. -/
def Referenced (s : MediaSystem) : Prop :=
  ∀ b ∈ s.binaries, ∃ r ∈ s.assets.rows, r.storageMode = b.mode ∧ r.storageKey = some b.key

/-- A row gives up its key, by an update or with itself, only after `discard` of it has returned. -/
def GivesUpDiscarded (s t : MediaSystem) : Prop :=
  ∀ r ∈ s.assets.rows, ∀ key, r.storageKey = some key →
    (∃ r' ∈ t.assets.rows, r'.id = r.id ∧ r'.storageKey = some key) ∨
      { mode := r.storageMode, key := key } ∈ s.discarded

/-- No row is complete and failed. -/
def Exclusive (s : MediaSystem) : Prop :=
  ∀ r ∈ s.assets.rows, r.providerMediaId = none ∨ r.failureCode = none

/-- Every binary is referred to. -/
theorem Kept.referenced (h : Kept config s) : s.Referenced := by
  intro b hb
  obtain ⟨r, hr, hbinary⟩ := h.binaries b hb
  exact ⟨r, hr, binaryAt_eq_some hbinary⟩

/-- No binary is referred to twice. -/
theorem Kept.exclusive (h : Kept config s) : s.Exclusive := by
  intro r hr
  obtain ⟨u, -, hdescribes⟩ := h.described r hr
  by_cases hmedia : r.providerMediaId = none
  · exact .inl hmedia
  · exact .inr (hdescribes.completed hmedia).1

/-- What is given up is discarded. -/
theorem Kept.givesUpDiscarded (h : Kept config s) (hs : StepOk config s t) :
    GivesUpDiscarded s t := by
  intro r hr key hkey
  rcases hs.releases r hr with ⟨r', hr', hid, -, hsame⟩ | ⟨-, hgone⟩
  · exact .inl ⟨r', hr', hid, hsame.trans hkey⟩
  · right
    obtain ⟨u, -, hdescribes⟩ := h.described r hr
    have htarget : storageKeyFor u.mode u.tenantId u.assetId = some key := by
      rcases hdescribes.key with hnone | htarget
      · rw [hnone] at hkey
        cases hkey
      · rw [← htarget, hkey]
    refine (hgone _ ?_).2
    rw [hdescribes.mode, hkey]
    exact binaryAt_storageKeyFor htarget

/-- The asset `id` was created, and its row, if there is one, has failed. -/
def HasFailed (s : MediaSystem) (id : Uuid) : Prop :=
  (∃ u ∈ s.uploads, u.assetId = id ∧ u.stage.begun = true) ∧
    ∀ r ∈ s.assets.rows, r.id = id → r.failureCode ≠ none

/-- A failure is never taken back. -/
theorem HasFailed.step {id : Uuid} (h : Kept config s) (hs : StepOk config s t)
    (hfailed : s.HasFailed id) : t.HasFailed id := by
  obtain ⟨⟨u, hu, hid, hbegun⟩, hrows⟩ := hfailed
  obtain ⟨u', hu', hadvances⟩ := hs.grows.uploads u hu
  refine ⟨⟨u', hu', hadvances.assetId.trans hid, hadvances.begun hbegun⟩, fun r' hr' hrid => ?_⟩
  rcases hs.grows.rows r' hr' with ⟨r, hr, hsame, -, hcode⟩ | ⟨v, hv, hvid, hnot⟩
  · exact hcode (hrows r hr (hsame.trans hrid))
  · -- Its upload does not create the row a second time.
    obtain rfl : v = u := h.eq_of_assetId hv hu (hvid.trans (hrid.trans hid.symm))
    rw [hbegun] at hnot
    cases hnot

/-- A row that is not complete is not shown as active. -/
theorem state_ne_active {r : MediaAsset} (h : r.providerMediaId = none) (now : Time) :
    r.state now ≠ .active := by
  unfold MediaAsset.state
  rw [h]
  split_ifs with hfailed hmedia
  · exact nofun
  · exact absurd rfl hmedia
  · exact absurd rfl hmedia
  · exact nofun

/-- **The media registry leaves no orphan.** In every run in which staging ends before the row of
the upload becomes stale or expires, whatever crashes and fails in between: every stored binary is
referenced by a row; a row gives up its key only after `discard` of it has returned; no row is
complete and failed; and an asset that was marked as abandoned is never active again. -/
theorem media_registry_leaves_no_orphan (config : MediaConfig) (s : MediaSystem)
    (hrun : Reaches (step config) (fun s _ => s.timely config = true) initial s) :
    s.Referenced ∧ s.Exclusive ∧
      (∀ act t, s.timely config = true → s.step config act = some t → GivesUpDiscarded s t) ∧
      ∀ r ∈ s.assets.rows, r.failureCode = some abandonedUploadFailureCode →
        ∀ t, Reaches (step config) (fun s _ => s.timely config = true) s t →
          ∀ r' ∈ t.assets.rows, r'.id = r.id → ∀ now, r'.state now ≠ .active := by
  have hkept := kept_of_reaches hrun
  refine ⟨hkept.referenced, hkept.exclusive,
    fun act t hG hstep => hkept.givesUpDiscarded (stepOk_step hkept hG hstep), ?_⟩
  intro r hr hcode t hlater r' hr' hid now
  have hfailed : s.HasFailed r.id := by
    obtain ⟨u, hu, hdescribes⟩ := hkept.described r hr
    refine ⟨⟨u, hu, hdescribes.id.symm, hdescribes.begun⟩, fun r₁ hr₁ hid₁ => ?_⟩
    obtain rfl : r₁ = r := s.assets.eq_of_mem_keys hr₁ hr (mem_keys_asset_id.mpr hid₁)
      (mem_keys_asset_id.mpr rfl)
    rw [hcode]
    exact nofun
  have hend : Kept config t ∧ t.HasFailed r.id := by
    refine hlater.invariant (P := fun x => Kept config x ∧ x.HasFailed r.id) ⟨hkept, hfailed⟩ ?_
    rintro x act y ⟨hx, hfailed⟩ hG hstep
    have hs := stepOk_step hx hG hstep
    exact ⟨hs.kept hx, hfailed.step hx hs⟩
  refine state_ne_active ?_ now
  exact (hend.1.exclusive r' hr').resolve_right (hend.2.2 r' hr' hid)

/-- The default settings. -/
def sampleSettings : MediaConfig where
  ttlDays := none
  staleUploadMs := none

/-- A replica crashes while it stages a binary; two hours later the upload is claimed. -/
def sampleCrash : List Act :=
  [.upload 1 10 .s3, .onUpload 0 (.call .returned), .onUpload 0 .land, .onUpload 0 (.crash false),
    .tick 7200000, .reconcileStaleUploads, .onJob 0 .returned [10], .onJob 0 .returned []]

/-- The binary of the crashed upload is still there, and so is its row. -/
theorem media_registry_leaves_no_orphan_crash :
    ∃ s, Reaches (step sampleSettings) (fun s _ => s.timely sampleSettings = true) initial s ∧
      s.binaries = [{ mode := .s3, key := "1/10" }] ∧
      s.assets.rows.map MediaAsset.failureCode = [some abandonedUploadFailureCode] ∧
      s.Referenced ∧ s.Exclusive := by
  have hend : ∃ s ∈ exec (step sampleSettings) initial sampleCrash,
      s.binaries = [{ mode := .s3, key := "1/10" }] ∧
      s.assets.rows.map MediaAsset.failureCode = [some abandonedUploadFailureCode] := by
    decide
  have hguard : ∀ x ∈ trace (step sampleSettings) initial sampleCrash,
      x.1.timely sampleSettings = true := by
    decide
  obtain ⟨s, hs, hbinaries, hcode⟩ := hend
  have hrun := Reaches.of_exec (G := fun s _ => s.timely sampleSettings = true) hs hguard
  obtain ⟨hreferenced, hexclusive, -⟩ := media_registry_leaves_no_orphan sampleSettings s hrun
  exact ⟨s, hrun, hbinaries, hcode, hreferenced, hexclusive⟩

end MediaSystem

end ApiWhatsApp
