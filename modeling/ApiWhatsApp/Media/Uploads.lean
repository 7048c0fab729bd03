import Mathlib.Data.List.Nodup
import ApiWhatsApp.Media.Registry

/-!
# What uploads leave behind

The invariant of the media registry, and that every step of an upload keeps it.

* `Describes` says what the row of an upload can look like at each stage; `Traced` and `JobOk` what
  a job knows about the assets it holds.
* `Kept` is the invariant. A job touches the binary of an asset only when its upload is over
  (`MediaUpload.isOver`), so what it has discarded does not come back (**`JobOk.mono`**).
* `StepOk` says what a step can do; `StepOk.kept` derives the invariant from it, and
  **`stepOk_stepUpload`** proves it of every step of an upload.
-/

namespace ApiWhatsApp

open Library

/-! ## Keys -/

/-- A key belongs to one asset. -/
theorem storageKeyFor_inj {mode mode' : StorageMode} {tenantId tenantId' assetId assetId' : Uuid}
    {key : String} (h : storageKeyFor mode tenantId assetId = some key)
    (h' : storageKeyFor mode' tenantId' assetId' = some key) : assetId = assetId' := by
  have htext : ∀ {mode tenantId assetId}, storageKeyFor mode tenantId assetId = some key →
      key.toList = (toString tenantId).toList ++ '/' :: (toString assetId).toList := by
    intro mode tenantId assetId h
    cases mode
    · cases h
    all_goals
      cases h
      simp [String.toList_append]
  have hlist := (htext h).symm.trans (htext h')
  have htenant : (toString tenantId).toList = (toString tenantId').toList := by
    have hbefore := congrArg (List.takeWhile fun c => c ≠ '/') hlist
    rwa [takeWhile_toString_nat rfl, takeWhile_toString_nat rfl] at hbefore
  rw [htenant] at hlist
  exact toString_nat_inj (List.cons.inj (List.append_cancel_left hlist)).2

/-- A binary is where its mode and its key say. -/
theorem binaryAt_eq_some {mode : StorageMode} {key : Option String} {b : StoredBinary}
    (h : binaryAt mode key = some b) : mode = b.mode ∧ key = some b.key := by
  unfold binaryAt at h
  split at h
  · cases h
  · split_ifs at h
    cases h
    exact ⟨rfl, rfl⟩

/-- The key of an upload has a binary. -/
theorem binaryAt_storageKeyFor {mode : StorageMode} {tenantId assetId : Uuid} {key : String}
    (h : storageKeyFor mode tenantId assetId = some key) :
    binaryAt mode (some key) = some { mode := mode, key := key } := by
  have hkey : key ≠ "" := by
    rintro rfl
    cases mode
    · cases h
    all_goals
      have hlist := congrArg String.toList (Option.some.inj h)
      simp [String.toList_append] at hlist
  cases mode with
  | disabled => cases h
  | filesystem | s3 => simp [binaryAt, hkey]

/-! ## Uploads and their rows -/

/-- The creation of the row is over. -/
def UploadStage.begun : UploadStage → Bool
  | .create _ => false
  | _ => true

/-- Nothing more will be written. -/
def UploadStage.isFinal : UploadStage → Bool
  | .ended | .crashed => true
  | _ => false

namespace MediaUpload

/-- The binary of the upload is no longer being written, and will not be again. -/
def isOver (u : MediaUpload) : Bool := u.stage.begun && !u.isStaging

/-- An upload that is over stages nothing. -/
theorem not_isStaging_of_isOver {u : MediaUpload} (h : u.isOver = true) : u.isStaging = false := by
  simpa using (Bool.and_eq_true_iff.mp h).2

/-- Only a failed upload leaves a transfer behind. -/
def LingersOk (u : MediaUpload) : Prop :=
  u.lingers = true → u.stage = .markAssetFailed "STORAGE_ERROR" ∨ u.stage.isFinal = true

/-- An upload goes on. -/
structure Advances (u u' : MediaUpload) : Prop where
  tenantId : u'.tenantId = u.tenantId
  assetId : u'.assetId = u.assetId
  mode : u'.mode = u.mode
  begun : u.stage.begun = true → u'.stage.begun = true
  ended : u.isOver = true → u'.isOver = true
  final : u.stage.isFinal = true → u'.stage.isFinal = true

/-- Standing still is no step back. -/
theorem Advances.refl (u : MediaUpload) : Advances u u := ⟨rfl, rfl, rfl, id, id, id⟩

/-- What the row of an upload can look like. -/
structure Describes (u : MediaUpload) (r : MediaAsset) : Prop where
  id : r.id = u.assetId
  begun : u.stage.begun = true
  mode : r.storageMode = u.mode
  key : r.storageKey = none ∨ r.storageKey = storageKeyFor u.mode u.tenantId u.assetId
  failed : r.failureCode ≠ none → r.failedAt ≠ none
  abandoned : r.failureCode = some abandonedUploadFailureCode → u.isOver = true
  completed : r.providerMediaId ≠ none → r.failureCode = none ∧ u.stage.isFinal = true

/-- A row that describes an upload goes on doing so. -/
theorem Describes.advance {u u' : MediaUpload} {r : MediaAsset} (h : u.Describes r)
    (hu : u.Advances u') : u'.Describes r where
  id := h.id.trans hu.assetId.symm
  begun := hu.begun h.begun
  mode := h.mode.trans hu.mode.symm
  key := by
    rw [hu.mode, hu.tenantId, hu.assetId]
    exact h.key
  failed := h.failed
  abandoned hr := hu.ended (h.abandoned hr)
  completed hr := ⟨(h.completed hr).1, hu.final (h.completed hr).2⟩

end MediaUpload

/-! ## What a job knows -/

namespace MaintenanceStage

/-- The assets that a job holds. -/
def held : MaintenanceStage → List AssetSnapshot
  | .claim asset rest | .discardStale asset rest | .clear asset rest
  | .discardExpired asset rest | .delete asset rest => asset :: rest
  | .findStale | .findExpired | .ended | .crashed => []

/-- The assets whose binaries it may discard. -/
def discardable : MaintenanceStage → List AssetSnapshot
  | .discardStale asset _ | .clear asset _ => [asset]
  | .discardExpired asset rest | .delete asset rest => asset :: rest
  | .findStale | .claim _ _ | .findExpired | .ended | .crashed => []

/-- The asset whose binary it has discarded. -/
def released : MaintenanceStage → Option AssetSnapshot
  | .clear asset _ | .delete asset _ => some asset
  | _ => none

/-- The stages of `reconcileStaleUploads`. -/
def reconciles : MaintenanceStage → Bool
  | .findStale | .claim _ _ | .discardStale _ _ | .clear _ _ => true
  | _ => false

/-- What is next of the stale uploads. -/
theorem nextStale_spec (l : List AssetSnapshot) :
    (nextStale l).held ⊆ l ∧ (nextStale l).released = none ∧
      ∀ a ∈ (nextStale l).discardable, a ∈ l ∧ a.failureCode = some abandonedUploadFailureCode := by
  induction l with
  | nil => simp [nextStale, held, released, discardable]
  | cons asset rest ih =>
      rw [nextStale]
      split_ifs with hcode hkey
      · simp [held, released, discardable]
      · obtain ⟨hheld, hreleased, hdiscardable⟩ := ih
        exact ⟨fun a ha => List.mem_cons_of_mem _ (hheld ha), hreleased,
          fun a ha => ⟨List.mem_cons_of_mem _ (hdiscardable a ha).1, (hdiscardable a ha).2⟩⟩
      · simpa [held, released, discardable] using hcode

/-- What is next of the expired assets. -/
theorem nextExpired_spec (l : List AssetSnapshot) :
    (nextExpired l).held = l ∧ (nextExpired l).released = none ∧
      (nextExpired l).discardable = l := by
  cases l <;> exact ⟨rfl, rfl, rfl⟩

end MaintenanceStage

namespace MediaSystem

/-- An asset that a job holds, and the upload that it belongs to. -/
structure Traced (s : MediaSystem) (a : AssetSnapshot) (u : MediaUpload) : Prop where
  mem : u ∈ s.uploads
  id : u.assetId = a.id
  begun : u.stage.begun = true
  mode : a.storageMode = u.mode
  key : a.storageKey = none ∨ a.storageKey = storageKeyFor u.mode u.tenantId u.assetId
  abandoned : a.failureCode = some abandonedUploadFailureCode → u.isOver = true
  /-- Keys are cleared and never set again. -/
  rows : a.storageKey = none → ∀ r ∈ s.assets.rows, r.id = a.id → r.storageKey = none

/-- The upload of an asset is over. -/
def Over (s : MediaSystem) (id : Uuid) : Prop :=
  ∃ u ∈ s.uploads, u.assetId = id ∧ u.isOver = true

/-- What a job knows at its stage. -/
structure JobOk (config : MediaConfig) (s : MediaSystem) (job : MaintenanceJob) : Prop where
  now : job.now ≤ s.clock
  stale : job.stage.reconciles = true → config.readStaleUploadMs = .ok job.staleMs
  held : ∀ a ∈ job.stage.held, ∃ u, s.Traced a u
  ended : ∀ a ∈ job.stage.discardable, s.Over a.id
  released : ∀ a, job.stage.released = some a → ∀ b, a.binary = some b →
    b ∉ s.binaries ∧ b ∈ s.discarded

/-- The invariant. -/
structure Kept (config : MediaConfig) (s : MediaSystem) : Prop where
  ids : (s.uploads.map MediaUpload.assetId).Nodup
  lingers : ∀ u ∈ s.uploads, u.LingersOk
  described : ∀ r ∈ s.assets.rows, ∃ u ∈ s.uploads, u.Describes r
  staging : ∀ u ∈ s.uploads, u.isStaging = true → ∃ r ∈ s.assets.rows, r.id = u.assetId ∧
    r.storageKey = storageKeyFor u.mode u.tenantId u.assetId
  binaries : ∀ b ∈ s.binaries, ∃ r ∈ s.assets.rows, binaryAt r.storageMode r.storageKey = some b
  jobs : ∀ job ∈ s.jobs, s.JobOk config job

variable {config : MediaConfig} {s t : MediaSystem}

/-- At the start there is nothing to keep. -/
theorem kept_initial : Kept config initial := by
  refine ⟨List.nodup_nil, ?_, ?_, ?_, ?_, ?_⟩ <;> simp [initial]

/-- An id belongs to one upload. -/
theorem Kept.eq_of_assetId (h : Kept config s) {u v : MediaUpload} (hu : u ∈ s.uploads)
    (hv : v ∈ s.uploads) (heq : u.assetId = v.assetId) : u = v :=
  List.inj_on_of_nodup_map h.ids hu hv heq

/-- The upload of a row describes it. -/
theorem Kept.describes (h : Kept config s) {u : MediaUpload} {r : MediaAsset} (hu : u ∈ s.uploads)
    (hr : r ∈ s.assets.rows) (heq : r.id = u.assetId) : u.Describes r := by
  obtain ⟨v, hv, hdescribes⟩ := h.described r hr
  obtain rfl : v = u := h.eq_of_assetId hv hu (hdescribes.id.symm.trans heq)
  exact hdescribes

/-- Nobody is staging what is over. -/
theorem Kept.not_over (h : Kept config s) {u : MediaUpload} (hu : u ∈ s.uploads)
    (hstaging : u.isStaging = true) : ¬s.Over u.assetId := by
  rintro ⟨v, hv, hid, hover⟩
  obtain rfl := h.eq_of_assetId hv hu hid
  rw [MediaUpload.not_isStaging_of_isOver hover] at hstaging
  cases hstaging

/-! ## What a step can do -/

/-- What every step does to the rest of the system. -/
structure Grows (s t : MediaSystem) : Prop where
  clock : s.clock ≤ t.clock
  uploads : ∀ u ∈ s.uploads, ∃ u' ∈ t.uploads, u.Advances u'
  /-- A row was there, or an upload has just created it. -/
  rows : ∀ r' ∈ t.assets.rows,
    (∃ r ∈ s.assets.rows, r.id = r'.id ∧ (r.storageKey = none → r'.storageKey = none) ∧
      (r.failureCode ≠ none → r'.failureCode ≠ none)) ∨
    ∃ u ∈ s.uploads, u.assetId = r'.id ∧ u.stage.begun = false
  /-- A binary was there, or its upload is staging it. -/
  binaries : ∀ b ∈ t.binaries, b ∈ s.binaries ∨
    ∃ u ∈ s.uploads, u.isStaging = true ∧ u.binary = some b
  discarded : s.discarded ⊆ t.discarded

/-- A row keeps its reference, or its binary has been discarded. -/
def Releases (s t : MediaSystem) : Prop :=
  ∀ r ∈ s.assets.rows,
    (∃ r' ∈ t.assets.rows, r'.id = r.id ∧ r'.storageMode = r.storageMode ∧
      r'.storageKey = r.storageKey) ∨
    (s.Over r.id ∧ ∀ b, binaryAt r.storageMode r.storageKey = some b →
      b ∉ t.binaries ∧ b ∈ s.discarded)

/-- What is over stays over. -/
theorem Over.mono {id : Uuid} (h : s.Over id) (hg : Grows s t) : t.Over id := by
  obtain ⟨u, hu, hid, hover⟩ := h
  obtain ⟨u', hu', hadvances⟩ := hg.uploads u hu
  exact ⟨u', hu', hadvances.assetId.trans hid, hadvances.ended hover⟩

/-- What was traced stays traced. -/
theorem Traced.mono (h : Kept config s) {a : AssetSnapshot} {u : MediaUpload}
    (ha : s.Traced a u) (hg : Grows s t) : ∃ u', t.Traced a u' := by
  obtain ⟨u', hu', hadvances⟩ := hg.uploads u ha.mem
  refine ⟨u', hu', hadvances.assetId.trans ha.id, hadvances.begun ha.begun,
    ha.mode.trans hadvances.mode.symm, ?_, fun hcode => hadvances.ended (ha.abandoned hcode), ?_⟩
  · rw [hadvances.mode, hadvances.tenantId, hadvances.assetId]
    exact ha.key
  · intro hnone r' hr' hid
    rcases hg.rows r' hr' with ⟨r, hr, hrid, hkey, -⟩ | ⟨v, hv, hvid, hbegun⟩
    · exact hkey (ha.rows hnone r hr (hrid.trans hid))
    · -- The upload of the asset has created its row before.
      obtain rfl := h.eq_of_assetId hv ha.mem (hvid.trans (hid.trans ha.id.symm))
      rw [ha.begun] at hbegun
      cases hbegun

/-- **What a job knows stays true**, whatever the others do. -/
theorem JobOk.mono {job : MaintenanceJob} (h : Kept config s) (hjob : s.JobOk config job)
    (hg : Grows s t) : t.JobOk config job := by
  refine ⟨hjob.now.trans hg.clock, hjob.stale, ?_, fun a ha => (hjob.ended a ha).mono hg, ?_⟩
  · intro a ha
    obtain ⟨u, hu⟩ := hjob.held a ha
    exact hu.mono h hg
  · intro a ha b hb
    obtain ⟨habsent, hdiscarded⟩ := hjob.released a ha b hb
    refine ⟨fun hmem => ?_, hg.discarded hdiscarded⟩
    rcases hg.binaries b hmem with hmem | ⟨u, hu, hstaging, hbinary⟩
    · exact habsent hmem
    · -- Whoever stages this binary is the upload of the asset, which is over.
      have hheld : a ∈ job.stage.held ∧ a ∈ job.stage.discardable := by
        revert ha
        cases job.stage <;> simp +contextual [MaintenanceStage.released, MaintenanceStage.held,
          MaintenanceStage.discardable]
      obtain ⟨v, hv⟩ := hjob.held a hheld.1
      have hkey := (binaryAt_eq_some hb).2
      have hvkey : storageKeyFor v.mode v.tenantId v.assetId = some b.key := by
        rcases hv.key with hnone | hkey'
        · rw [hnone] at hkey
          cases hkey
        · rw [← hkey', hkey]
      have hid : u.assetId = a.id :=
        (storageKeyFor_inj (binaryAt_eq_some hbinary).2 hvkey).trans hv.id
      exact h.not_over hu hstaging (hid ▸ hjob.ended a hheld.2)

/-- What a step can do. -/
structure StepOk (config : MediaConfig) (s t : MediaSystem) : Prop where
  grows : Grows s t
  releases : Releases s t
  ids : (t.uploads.map MediaUpload.assetId).Nodup
  lingers : ∀ u ∈ t.uploads, u.LingersOk
  described : ∀ r ∈ t.assets.rows, ∃ u ∈ t.uploads, u.Describes r
  /-- Whoever is staging was doing so before, or has just created its row. -/
  staging : ∀ u' ∈ t.uploads, u'.isStaging = true →
    (∃ u ∈ s.uploads, u.isStaging = true ∧ u.Advances u') ∨
      ∃ r ∈ t.assets.rows, r.id = u'.assetId ∧
        r.storageKey = storageKeyFor u'.mode u'.tenantId u'.assetId
  jobs : ∀ job ∈ t.jobs, job ∈ s.jobs ∨ t.JobOk config job

/-- **The invariant is kept** by such steps. -/
theorem StepOk.kept (hs : StepOk config s t) (h : Kept config s) : Kept config t := by
  -- The row of an upload that is staging is not given up.
  have hstaging : ∀ u ∈ s.uploads, u.isStaging = true → ∃ r ∈ t.assets.rows, r.id = u.assetId ∧
      r.storageMode = u.mode ∧ r.storageKey = storageKeyFor u.mode u.tenantId u.assetId := by
    intro u hu hstage
    obtain ⟨r, hr, hid, hkey⟩ := h.staging u hu hstage
    rcases hs.releases r hr with ⟨r', hr', hid', hmode', hkey'⟩ | ⟨hover, -⟩
    · exact ⟨r', hr', hid'.trans hid, hmode'.trans (h.describes hu hr hid).mode,
        hkey'.trans hkey⟩
    · rw [hid] at hover
      exact absurd hover (h.not_over hu hstage)
  refine ⟨hs.ids, hs.lingers, hs.described, ?_, ?_, ?_⟩
  · intro u' hu' hstage
    rcases hs.staging u' hu' hstage with ⟨u, hu, hstage, hadvances⟩ | hcreated
    · obtain ⟨r, hr, hid, -, hkey⟩ := hstaging u hu hstage
      refine ⟨r, hr, hid.trans hadvances.assetId.symm, ?_⟩
      rw [hadvances.mode, hadvances.tenantId, hadvances.assetId]
      exact hkey
    · exact hcreated
  · intro b hb
    rcases hs.grows.binaries b hb with hold | ⟨u, hu, hstage, hbinary⟩
    · obtain ⟨r, hr, hrb⟩ := h.binaries b hold
      rcases hs.releases r hr with ⟨r', hr', -, hmode, hkey⟩ | ⟨-, hgone⟩
      · exact ⟨r', hr', by rw [hmode, hkey]; exact hrb⟩
      · exact absurd hb (hgone b hrb).1
    · obtain ⟨r, hr, -, hmode, hkey⟩ := hstaging u hu hstage
      exact ⟨r, hr, by rw [hmode, hkey]; exact hbinary⟩
  · intro job hjob
    rcases hs.jobs job hjob with hold | hnew
    · exact (h.jobs job hold).mono h hs.grows
    · exact hnew

/-! ## Uploads -/

/-- What an upload does to the rows: it leaves them alone, or writes its own. -/
structure Writes (s : MediaSystem) (u u' : MediaUpload) (assets : MediaAssets) : Prop where
  back : ∀ r' ∈ assets.rows, r' ∈ s.assets.rows ∨ (u'.Describes r' ∧ (u.stage.begun = false ∨
    ∃ r ∈ s.assets.rows, r.id = r'.id ∧ r.storageKey = r'.storageKey ∧
      (r.failureCode ≠ none → r'.failureCode ≠ none)))
  forth : ∀ r ∈ s.assets.rows, ∃ r' ∈ assets.rows, r'.id = r.id ∧
    r'.storageMode = r.storageMode ∧ r'.storageKey = r.storageKey

/-- Nothing is written. -/
theorem Writes.refl (u u' : MediaUpload) : Writes s u u' s.assets :=
  ⟨fun _ hr => .inl hr, fun r hr => ⟨r, hr, rfl, rfl, rfl⟩⟩

/-- An update of its own row. -/
theorem Writes.update {u u' : MediaUpload} {assets : MediaAssets} {f : MediaAsset → MediaAsset}
    (h : s.assets.update? (.id u.assetId) f = some assets)
    (hf : ∀ r, (f r).id = r.id ∧ (f r).storageMode = r.storageMode ∧
      (f r).storageKey = r.storageKey)
    (hdescribes : ∀ r ∈ s.assets.rows, r.id = u.assetId → u'.Describes (f r))
    (hfailed : ∀ r ∈ s.assets.rows, r.id = u.assetId → r.failureCode ≠ none →
      (f r).failureCode ≠ none) : Writes s u u' assets := by
  have hrows := Table.rows_of_update? h
  constructor
  · intro r' hr'
    rw [hrows] at hr'
    obtain ⟨r, hr, rfl⟩ := List.mem_map.mp hr'
    split_ifs with hkey
    · have hid := mem_keys_asset_id.mp hkey
      exact .inr ⟨hdescribes r hr hid, .inr ⟨r, hr, (hf r).1.symm, (hf r).2.2.symm,
        hfailed r hr hid⟩⟩
    · exact .inl hr
  · intro r hr
    refine ⟨_, hrows ▸ List.mem_map_of_mem hr, ?_⟩
    split_ifs
    · exact hf r
    · exact ⟨rfl, rfl, rfl⟩

/-- **A step of an upload.** -/
theorem stepOk_upload {i : ℕ} {u u' : MediaUpload} {assets : MediaAssets}
    {binaries : List StoredBinary} (h : Kept config s) (hu : s.uploads[i]? = some u)
    (hadvances : u.Advances u') (hlingers : u'.LingersOk) (hwrites : Writes s u u' assets)
    (hstaging : u'.isStaging = true → u.isStaging = true ∨
      ∃ r ∈ assets.rows, r.id = u'.assetId ∧
        r.storageKey = storageKeyFor u'.mode u'.tenantId u'.assetId)
    (hbinaries : ∀ b ∈ binaries, b ∈ s.binaries ∨ (u.isStaging = true ∧ u.binary = some b)) :
    StepOk config s
      { s with assets := assets, binaries := binaries, uploads := s.uploads.set i u' } := by
  have hmem : u ∈ s.uploads := List.mem_of_getElem? hu
  have hmem' : u' ∈ s.uploads.set i u' := List.mem_set (List.getElem?_eq_some_iff.mp hu).1 u'
  -- Every upload has gone on, this one or not at all.
  have hlater : ∀ v ∈ s.uploads, ∃ v' ∈ s.uploads.set i u', v.Advances v' := by
    intro v hv
    rcases eq_or_mem_set (b := u') hu hv with rfl | hv
    · exact ⟨u', hmem', hadvances⟩
    · exact ⟨v, hv, .refl v⟩
  refine ⟨⟨le_refl _, hlater, ?_, ?_, List.Subset.refl _⟩, fun r hr => .inl (hwrites.forth r hr),
    ?_, ?_, ?_, ?_, fun job hjob => .inl hjob⟩
  · intro r' hr'
    rcases hwrites.back r' hr' with hr | ⟨hdescribes, hbegun | ⟨r, hr, hid, hkey, hfailed⟩⟩
    · exact .inl ⟨r', hr, rfl, id, id⟩
    · exact .inr ⟨u, hmem, hadvances.assetId.symm.trans hdescribes.id.symm, hbegun⟩
    · exact .inl ⟨r, hr, hid, fun hnone => hkey ▸ hnone, hfailed⟩
  · intro b hb
    exact (hbinaries b hb).imp_right fun hnew => ⟨u, hmem, hnew⟩
  · rw [map_set_of_eq hu hadvances.assetId]
    exact h.ids
  · intro v hv
    rcases List.mem_or_eq_of_mem_set hv with hv | rfl
    · exact h.lingers v hv
    · exact hlingers
  · intro r' hr'
    rcases hwrites.back r' hr' with hr | ⟨hdescribes, -⟩
    · obtain ⟨v, hv, hdescribes⟩ := h.described r' hr
      obtain ⟨v', hv', hadvances⟩ := hlater v hv
      exact ⟨v', hv', hdescribes.advance hadvances⟩
    · exact ⟨u', hmem', hdescribes⟩
  · intro v hv hstage
    rcases List.mem_or_eq_of_mem_set hv with hv | rfl
    · exact .inl ⟨v, hv, hstage, .refl v⟩
    · exact (hstaging hstage).imp_left fun hstage => ⟨u, hmem, hstage, hadvances⟩

/-- The next stage of an upload that is not final. -/
theorem advances_of_stage {u : MediaUpload} {stage : UploadStage} {lingers : Bool}
    (hbegun : stage.begun = true) (hfinal : u.stage.isFinal = false)
    (hover : u.isOver = true → stage ≠ .staging ∧ lingers = false) :
    u.Advances { u with stage := stage, lingers := lingers } := by
  refine ⟨rfl, rfl, rfl, fun _ => hbegun, fun h => ?_, fun h => ?_⟩
  · obtain ⟨hstage, rfl⟩ := hover h
    simp [MediaUpload.isOver, MediaUpload.isStaging, hbegun, hstage]
  · rw [hfinal] at h
    cases h

/-- An upload that has created its row and leaves no transfer behind is over once staging is. -/
theorem isOver_of_stage {u : MediaUpload} (hbegun : u.stage.begun = true)
    (hstage : u.stage ≠ .staging) (hlingers : u.lingers = false) : u.isOver = true := by
  simp [MediaUpload.isOver, MediaUpload.isStaging, hbegun, hstage, hlingers]

/-- At a stage between staging and the end only a failed upload leaves a transfer behind. -/
theorem lingers_eq_false {u : MediaUpload} (h : u.LingersOk) (hfinal : u.stage.isFinal = false)
    (hstage : u.stage ≠ .markAssetFailed "STORAGE_ERROR") : u.lingers = false := by
  by_contra hlingers
  rcases h (by simpa using hlingers) with hfailed | hended
  · exact hstage hfailed
  · rw [hfinal] at hended
    cases hended

/-- The stages after a database call. -/
theorem advances_pending {u : MediaUpload} {written : Option MediaAssets}
    {returned threw stage : UploadStage} (hlingers : u.LingersOk)
    (hp : u.pending s.assets s.clock = some (written, returned, threw))
    (hstage : stage = returned ∨ stage = threw) :
    u.Advances { u with stage := stage } ∧ MediaUpload.LingersOk { u with stage := stage } := by
  unfold MediaUpload.pending at hp
  split at hp <;> cases hp
  case h_1 expiresAt hcreate =>
      have hfalse : u.lingers = false := lingers_eq_false hlingers (by rw [hcreate]; rfl)
        (by rw [hcreate]; exact nofun)
      have hover : u.isOver = false := by simp [MediaUpload.isOver, hcreate, UploadStage.begun]
      refine ⟨advances_of_stage ?_ (by rw [hcreate]; rfl) (by simp [hover]), by
        simp [MediaUpload.LingersOk, hfalse]⟩
      rcases hstage with rfl | rfl <;> rfl
  case h_2 at_ hstored =>
      have hfalse : u.lingers = false := lingers_eq_false hlingers (by rw [hstored]; rfl)
        (by rw [hstored]; exact nofun)
      refine ⟨advances_of_stage ?_ (by rw [hstored]; rfl) fun _ => ⟨?_, hfalse⟩, by
        simp [MediaUpload.LingersOk, hfalse]⟩
      · rcases hstage with rfl | rfl <;> rfl
      · rcases hstage with rfl | rfl <;> exact nofun
  case h_3 mediaId at_ hcomplete =>
      obtain rfl : stage = .ended := hstage.elim id id
      have hfalse : u.lingers = false := lingers_eq_false hlingers (by rw [hcomplete]; rfl)
        (by rw [hcomplete]; exact nofun)
      exact ⟨advances_of_stage rfl (by rw [hcomplete]; rfl) fun _ => ⟨nofun, hfalse⟩, by
        simp [MediaUpload.LingersOk, hfalse]⟩
  case h_4 code hfailed =>
      obtain rfl : stage = .ended := hstage.elim id id
      refine ⟨advances_of_stage rfl (by rw [hfailed]; rfl) fun hover => ⟨nofun, ?_⟩,
        fun _ => .inr rfl⟩
      have hnot := MediaUpload.not_isStaging_of_isOver hover
      simpa [MediaUpload.isStaging, hfailed] using hnot

/-- What a database call of an upload writes. -/
theorem writes_pending {u : MediaUpload} {assets : MediaAssets} {returned threw stage : UploadStage}
    (h : Kept config s) (hu : u ∈ s.uploads)
    (hp : u.pending s.assets s.clock = some (some assets, returned, threw))
    (hstage : stage = returned ∨ stage = threw) : Writes s u { u with stage := stage } assets := by
  have hadvances := (advances_pending (h.lingers u hu) hp hstage).1
  -- The row of this upload as it is described after the call, its own columns aside.
  have hdescribes : ∀ r ∈ s.assets.rows, r.id = u.assetId →
      MediaUpload.Describes { u with stage := stage } r :=
    fun r hr hid => (h.describes hu hr hid).advance hadvances
  unfold MediaUpload.pending at hp
  split at hp
  case h_1 expiresAt hcreate =>
      obtain ⟨hinsert, rfl, rfl⟩ : _ ∧ _ ∧ _ := by simpa using hp
      have hrows := Table.rows_of_insert? hinsert
      constructor
      · intro r' hr'
        rw [hrows] at hr'
        rcases List.mem_cons.mp hr' with rfl | hr
        · refine .inr ⟨⟨rfl, ?_, rfl, .inr rfl, fun hnone => absurd rfl hnone, nofun,
            fun hnone => absurd rfl hnone⟩, .inl (by rw [hcreate]; rfl)⟩
          rcases hstage with rfl | rfl <;> rfl
        · exact .inl hr
      · intro r hr
        exact ⟨r, hrows ▸ List.mem_cons_of_mem _ hr, rfl, rfl, rfl⟩
  case h_2 at_ hstored =>
      obtain ⟨hupdate, -, -⟩ : _ ∧ _ ∧ _ := by simpa using hp
      refine .update hupdate (fun _ => ⟨rfl, rfl, rfl⟩) (fun r hr hid => ?_) fun _ _ _ h => h
      obtain ⟨hid, hbegun, hmode, hkey, hfailed, habandoned, hcompleted⟩ := hdescribes r hr hid
      exact ⟨hid, hbegun, hmode, hkey, hfailed, habandoned, hcompleted⟩
  case h_3 mediaId at_ hcomplete =>
      obtain ⟨hwritten, rfl, rfl⟩ : _ ∧ _ ∧ _ := by simpa using hp
      unfold MediaUpload.completeRow at hwritten
      split at hwritten
      · cases hwritten
      rename_i r₀ hfilter
      obtain ⟨hfind, hopen⟩ := Option.filter_eq_some_iff.mp hfilter
      obtain ⟨hr₀, hkey₀⟩ := s.assets.find_eq_some_iff.mp hfind
      refine .update hwritten (fun _ => ⟨rfl, rfl, rfl⟩) (fun r hr hid => ?_) ?_
      · obtain ⟨hid, hbegun, hmode, hkey, -, -, -⟩ := hdescribes r hr hid
        refine ⟨hid, hbegun, hmode, hkey, fun hnone => absurd rfl hnone, nofun, fun _ => ⟨rfl, ?_⟩⟩
        rcases hstage with rfl | rfl <;> rfl
      · -- The row that is completed had not failed.
        intro r hr hid hcode
        obtain rfl : r = r₀ := s.assets.eq_of_mem_keys hr hr₀ (mem_keys_asset_id.mpr hid) hkey₀
        have hnone : r.failedAt = none := by simpa using (Bool.and_eq_true_iff.mp hopen).2
        exact absurd hnone ((hdescribes r hr hid).failed hcode)
  case h_4 code hfailed =>
      obtain ⟨hupdate, rfl, rfl⟩ : _ ∧ _ ∧ _ := by simpa using hp
      refine .update hupdate (fun _ => ⟨rfl, rfl, rfl⟩) (fun r hr hid => ?_) fun _ _ _ _ => nofun
      have hcompleted := (h.describes hu hr hid).completed
      obtain ⟨hid, hbegun, hmode, hkey, -, -, -⟩ := hdescribes r hr hid
      refine ⟨hid, hbegun, hmode, hkey, fun _ => nofun, fun hcode => ?_, fun hmedia => ?_⟩
      · -- An upload that leaves a transfer behind has failed with another code.
        refine hadvances.ended (isOver_of_stage (by rw [hfailed]; rfl) (by rw [hfailed]; exact nofun)
          (lingers_eq_false (h.lingers u hu) (by rw [hfailed]; rfl) fun hlingers => ?_))
        rw [hfailed] at hlingers
        cases hlingers
        exact absurd (Option.some.inj hcode) (by decide)
      · have hfinal := (hcompleted hmedia).2
        rw [hfailed] at hfinal
        cases hfinal
  all_goals cases hp

/-- Who is staging after a database call. -/
theorem staging_pending {u : MediaUpload} {written : Option MediaAssets} {assets : MediaAssets}
    {returned threw : UploadStage}
    (hp : u.pending s.assets s.clock = some (written, returned, threw))
    (hwritten : written = some assets)
    (hstaging : MediaUpload.isStaging { u with stage := returned } = true) :
    u.isStaging = true ∨ ∃ r ∈ assets.rows, r.id = u.assetId ∧
      r.storageKey = storageKeyFor u.mode u.tenantId u.assetId := by
  unfold MediaUpload.pending at hp
  split at hp <;> cases hp
  case h_1 expiresAt hcreate =>
      exact .inr ⟨_, Table.rows_of_insert? hwritten ▸ List.mem_cons_self, rfl, rfl⟩
  all_goals
    have hlingers : u.lingers = true := by simpa [MediaUpload.isStaging] using hstaging
    simp [MediaUpload.isStaging, hlingers]

/-- No upload stages anything after an error of the database. -/
theorem staging_threw {u : MediaUpload} {written : Option MediaAssets}
    {returned threw : UploadStage}
    (hp : u.pending s.assets s.clock = some (written, returned, threw))
    (hstaging : MediaUpload.isStaging { u with stage := threw } = true) : u.isStaging = true := by
  unfold MediaUpload.pending at hp
  split at hp <;> cases hp
  all_goals
    have hlingers : u.lingers = true := by simpa [MediaUpload.isStaging] using hstaging
    simp [MediaUpload.isStaging, hlingers]

/-- Only the binary that is put is new. -/
theorem mem_put {binaries : List StoredBinary} {b : Option StoredBinary} {x : StoredBinary}
    (h : x ∈ put binaries b) : x ∈ binaries ∨ b = some x := by
  cases b with
  | none => exact .inl h
  | some b =>
      rcases List.mem_cons.mp h with rfl | h
      · exact .inr rfl
      · exact .inl h

/-- Only the binary that is removed is gone. -/
theorem mem_remove {binaries : List StoredBinary} {b : Option StoredBinary} {x : StoredBinary} :
    x ∈ remove binaries b ↔ x ∈ binaries ∧ some x ≠ b := by
  simp [remove]

/-- **Every step of an upload.** -/
theorem stepOk_stepUpload {i : ℕ} {u : MediaUpload} {act : UploadAct} (h : Kept config s)
    (hu : s.uploads[i]? = some u) (hstep : s.stepUpload i u act = some t) : StepOk config s t := by
  have hmem : u ∈ s.uploads := List.mem_of_getElem? hu
  have hlingers := h.lingers u hmem
  have hold : ∀ b ∈ s.binaries, b ∈ s.binaries ∨ (u.isStaging = true ∧ u.binary = some b) :=
    fun _ hb => .inl hb
  cases act with
  | call outcome =>
      obtain ⟨⟨written, returned, threw⟩, hp, hstep⟩ := Option.bind_eq_some_iff.mp hstep
      cases outcome with
      | returned =>
          obtain ⟨assets, rfl, rfl⟩ := Option.map_eq_some_iff.mp hstep
          obtain ⟨hadvances, hlingers⟩ := advances_pending hlingers hp (.inl rfl)
          exact stepOk_upload h hu hadvances hlingers (writes_pending h hmem hp (.inl rfl))
            (staging_pending hp rfl) hold
      | interrupted error =>
          obtain ⟨assets, rfl, rfl⟩ := Option.map_eq_some_iff.mp hstep
          obtain ⟨hadvances, hlingers⟩ := advances_pending hlingers hp (.inr rfl)
          exact stepOk_upload h hu hadvances hlingers (writes_pending h hmem hp (.inr rfl))
            (fun hstaging => .inl (staging_threw hp hstaging)) hold
      | failed error =>
          cases hstep
          obtain ⟨hadvances, hlingers⟩ := advances_pending hlingers hp (.inr rfl)
          exact stepOk_upload h hu hadvances hlingers (.refl u _)
            (fun hstaging => .inl (staging_threw hp hstaging)) hold
  | land =>
      obtain ⟨hstaging, hstep⟩ := Option.ite_none_right_eq_some.mp hstep
      cases hstep
      have hok : StepOk config s { s with binaries := put s.binaries u.binary
                                          uploads := s.uploads.set i u } :=
        stepOk_upload h hu (.refl u) hlingers (.refl u u) .inl
          fun b hb => (mem_put hb).imp_right fun hb => ⟨hstaging, hb⟩
      rwa [set_of_getElem? hu] at hok
  | staged =>
      obtain ⟨hstage, hstep⟩ := Option.ite_none_right_eq_some.mp hstep
      cases hstep
      have hstaging : u.isStaging = true := by simp [MediaUpload.isStaging, hstage]
      have hfalse : u.lingers = false := lingers_eq_false hlingers (by rw [hstage]; rfl)
        (by rw [hstage]; exact nofun)
      refine stepOk_upload h hu (advances_of_stage ?_ (by rw [hstage]; rfl) ?_)
        (by simp [MediaUpload.LingersOk, hfalse]) (.refl u _) (fun _ => .inl hstaging)
        fun b hb => (mem_put hb).imp_right fun hb => ⟨hstaging, hb⟩
      · split_ifs <;> rfl
      · simp [MediaUpload.isOver, hstaging]
  | stageThrew removed lingers =>
      obtain ⟨⟨hstage, -⟩, hstep⟩ := Option.ite_none_right_eq_some.mp hstep
      cases hstep
      have hstaging : u.isStaging = true := by simp [MediaUpload.isStaging, hstage]
      refine stepOk_upload h hu (advances_of_stage rfl (by rw [hstage]; rfl) ?_)
        (fun _ => .inl rfl) (.refl u _) (fun _ => .inl hstaging) fun b hb => .inl ?_
      · simp [MediaUpload.isOver, hstaging]
      · split_ifs at hb
        · exact (mem_remove.mp hb).1
        · exact hb
  | settle =>
      obtain ⟨hlinger, hstep⟩ := Option.ite_none_right_eq_some.mp hstep
      cases hstep
      have hstaging : u.isStaging = true := by simp [MediaUpload.isStaging, hlinger]
      refine stepOk_upload h hu ⟨rfl, rfl, rfl, id, fun hover => ?_, id⟩
        (by simp [MediaUpload.LingersOk]) (.refl u _) (fun _ => .inl hstaging) hold
      rw [MediaUpload.not_isStaging_of_isOver hover] at hstaging
      cases hstaging
  | provided result =>
      obtain ⟨hstage, hstep⟩ := Option.ite_none_right_eq_some.mp hstep
      have hfalse : u.lingers = false := lingers_eq_false hlingers (by rw [hstage]; rfl)
        (by rw [hstage]; exact nofun)
      cases result with
      | ok mediaId =>
          cases hstep
          exact stepOk_upload h hu
            (advances_of_stage rfl (by rw [hstage]; rfl) fun _ => ⟨nofun, hfalse⟩)
            (by simp [MediaUpload.LingersOk, hfalse]) (.refl u _)
            (by simp [MediaUpload.isStaging, hfalse]) hold
      | error error =>
          cases hstep
          exact stepOk_upload h hu
            (advances_of_stage rfl (by rw [hstage]; rfl) fun _ => ⟨nofun, hfalse⟩)
            (by simp [MediaUpload.LingersOk, hfalse]) (.refl u _)
            (by simp [MediaUpload.isStaging, hfalse]) hold
  | crash lingers =>
      obtain ⟨hstage, hstep⟩ := Option.ite_none_left_eq_some.mp hstep
      cases hstep
      have hfinal : u.stage.isFinal = false := by
        revert hstage
        cases u.stage <;> simp [UploadStage.isFinal]
      refine stepOk_upload h hu (advances_of_stage rfl hfinal fun hover => ⟨nofun, ?_⟩)
        (fun _ => .inr rfl) (.refl u _) (fun hstaging => .inl ?_) hold
      · have hnot := MediaUpload.not_isStaging_of_isOver hover
        simp only [MediaUpload.isStaging, Bool.or_eq_false_iff] at hnot
        simp [hnot]
      · simp only [MediaUpload.isStaging, Bool.or_eq_true, Bool.and_eq_true] at hstaging ⊢
        rcases hstaging with hcrashed | hlinger | hstage
        · simp at hcrashed
        · exact .inr hlinger
        · exact .inl hstage.1

end MediaSystem

end ApiWhatsApp
