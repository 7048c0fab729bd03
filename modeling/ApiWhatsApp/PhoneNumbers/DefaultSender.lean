import ApiWhatsApp.PhoneNumbers.Ownership

/-!
# The default sender of a tenant

`create` and `update` of `phone-numbers/phone-numbers.service.ts` recompute which phone number of a
tenant is the default: the old default is cleared first, and after an update the oldest active phone
number takes its place when none is left.

* `DefaultIndex` is the partial unique index of the table: one active default for a tenant.
  `transactStates` has the table after each statement of a transaction.
* `OneDefault` is the invariant: the index holds, every default is active, and a tenant with an active
  phone number has a default.
* **`OneDefault.createPhoneNumber`** and **`OneDefault.updatePhoneNumber`** — both transactions keep
  it; **`defaultIndex_transactStates`** — and the index holds after each of their statements, so it
  never makes a statement fail.
* **`default_sender`** — the result, for every run of the calls of all tenants.
-/

namespace ApiWhatsApp

open Library

namespace PhoneNumbers

/-- The index `WhatsAppPhoneNumber_active_default_per_tenant_key`. -/
def DefaultIndex (t : PhoneNumbers) : Prop :=
  ∀ a ∈ t.rows, ∀ b ∈ t.rows, a.tenantId = b.tenantId → (a.active = true ∧ a.isDefault = true) →
    (b.active = true ∧ b.isDefault = true) → a = b

/-- The defaults of the tenants, one by one: the invariant. -/
structure OneDefault (t : PhoneNumbers) : Prop where
  index : DefaultIndex t
  active : ∀ r ∈ t.rows, r.isDefault = true → r.active = true
  covered : ∀ r ∈ t.rows, r.active = true → ∃ d ∈ t.rows, d.tenantId = r.tenantId ∧
    d.isDefault = true

/-- Source: `isDefault` in `create`. -/
def becomesDefault (t : PhoneNumbers) (tenantId : Uuid) (dto : CreatePhoneNumberDto) : Bool :=
  !(t.rows.any fun r => r.tenantId = tenantId && r.active) || dto.isDefault = some true

/-- The table after each statement of `create` that writes. -/
def createStates (t : PhoneNumbers) (newId tenantId : Uuid) (now : Time)
    (dto : CreatePhoneNumberDto) : List PhoneNumbers :=
  setDefault t false (fun r => becomesDefault t tenantId dto && r.tenantId = tenantId &&
    r.isDefault) :: (createPhoneNumber t newId tenantId now dto).toList

/-- Source: `willBeActive` in `update`. -/
def willBeActive (dto : UpdatePhoneNumberDto) (existing : WhatsAppPhoneNumber) : Bool :=
  dto.active.getD existing.active

/-- Source: `requestedDefault` in `update`. -/
def requestedDefault (dto : UpdatePhoneNumberDto) (existing : WhatsAppPhoneNumber) : Bool :=
  dto.isDefault.getD (if dto.active = some false then false else existing.isDefault)

/-- The `updateMany` of `update`. -/
def clearOthers (t : PhoneNumbers) (dto : UpdatePhoneNumberDto) (existing : WhatsAppPhoneNumber) :
    PhoneNumbers :=
  setDefault t false fun r => requestedDefault dto existing && willBeActive dto existing &&
    r.tenantId = existing.tenantId && r.id ≠ existing.id && r.isDefault

/-- An update keeps the keys. -/
theorem keys_applyUpdate (dto : UpdatePhoneNumberDto) (r : WhatsAppPhoneNumber) :
    Keyed.keys (applyUpdate dto r) = Keyed.keys r := rfl

/-- The first `update` statement of `update`. -/
def updateRow (t : PhoneNumbers) (id : Uuid) (dto : UpdatePhoneNumberDto) : PhoneNumbers :=
  t.updateWhere (fun r => r.id = id) (applyUpdate dto) (keys_applyUpdate dto)

/-- The table after each statement of `update` that writes. -/
def updateStates (t : PhoneNumbers) (tenantId id : Uuid) (dto : UpdatePhoneNumberDto) :
    List PhoneNumbers :=
  match (t.find (.id id)).filter fun r => r.tenantId = tenantId with
  | none => []
  | some existing =>
      if dto.isDefault = some true ∧ willBeActive dto existing = false then []
      else
        let cleared := clearOthers t dto existing
        let updated := updateRow cleared id dto
        [cleared, updated, ensureDefault updated tenantId]

/-- The table after each statement of a transaction that writes. -/
def transactStates (t : PhoneNumbers) (newId tenantId : Uuid) (now : Time) :
    PhoneNumberCommand → List PhoneNumbers
  | .create dto => createStates t newId tenantId now dto
  | .update id dto => updateStates t tenantId id dto

variable {t t' : PhoneNumbers} {newId tenantId id : Uuid} {now : Time}

/-- The row of a phone number of a tenant. -/
theorem of_find {existing : WhatsAppPhoneNumber}
    (h : (t.find (.id id)).filter (fun r => r.tenantId = tenantId) = some existing) :
    existing ∈ t.rows ∧ existing.id = id ∧ existing.tenantId = tenantId := by
  obtain ⟨hfind, htenant⟩ := Option.filter_eq_some_iff.mp h
  obtain ⟨hmem, hkey⟩ := t.find_eq_some_iff.mp hfind
  simp only [Keyed.keys, List.mem_cons, PhoneNumberKey.id.injEq, reduceCtorEq, List.not_mem_nil,
    or_false] at hkey
  exact ⟨hmem, hkey.symm, by simpa using htenant⟩

/-- What `update` does with a phone number of the tenant. -/
theorem updatePhoneNumber_cases {dto : UpdatePhoneNumberDto}
    (h : updatePhoneNumber t tenantId id dto = .ok t') :
    ∃ existing, (t.find (.id id)).filter (fun r => r.tenantId = tenantId) = some existing ∧
      ¬(dto.isDefault = some true ∧ willBeActive dto existing = false) ∧
      t' = ensureDefault (updateRow (clearOthers t dto existing) id dto) tenantId := by
  unfold updatePhoneNumber at h
  split at h
  · cases h
  · next existing hexisting =>
      obtain ⟨-, rfl, rfl⟩ := of_find hexisting
      refine ⟨existing, hexisting, ?_⟩
      have hnamed : (if dto.isDefault = some true ∧ willBeActive dto existing = false then
            (.error (.badRequest
              "An inactive WhatsApp phone number cannot be the default sender") :
                Except HttpError PhoneNumbers)
          else .ok (ensureDefault (updateRow (clearOthers t dto existing) existing.id dto)
            existing.tenantId)) = .ok t' := h
      split_ifs at hnamed with hinactive
      exact ⟨hinactive, (Except.ok.inj hnamed).symm⟩

/-- The last of these tables is what the transaction commits. -/
theorem getLast?_transactStates {command : PhoneNumberCommand}
    (h : transact t newId tenantId now command = .ok t') :
    (transactStates t newId tenantId now command).getLast? = some t' := by
  cases command with
  | create dto =>
      simp only [transact] at h
      split at h
      · next t'' hcreate =>
          cases h
          simp [transactStates, createStates, hcreate]
      · cases h
  | update id dto =>
      obtain ⟨existing, hexisting, hactive, rfl⟩ := updatePhoneNumber_cases h
      simp [transactStates, updateStates, hexisting, hactive]

/-! ## Clearing defaults -/

/-- The rows after the default was set. -/
theorem mem_setDefault {isDefault : Bool} {sel : WhatsAppPhoneNumber → Bool}
    {r' : WhatsAppPhoneNumber} :
    r' ∈ (setDefault t isDefault sel).rows ↔
      ∃ r ∈ t.rows, (if sel r then { r with isDefault := isDefault } else r) = r' := by
  rw [setDefault, Table.rows_updateWhere, List.mem_map]

/-- A row that is still a default after defaults were cleared has not been touched. -/
theorem of_mem_cleared {sel : WhatsAppPhoneNumber → Bool} {r : WhatsAppPhoneNumber}
    (h : r ∈ (setDefault t false sel).rows) (hdefault : r.isDefault = true) :
    r ∈ t.rows ∧ sel r = false := by
  obtain ⟨r₀, hr₀, heq⟩ := mem_setDefault.mp h
  split_ifs at heq with hsel
  · rw [← heq] at hdefault
    cases hdefault
  · rw [← heq]
    exact ⟨hr₀, by simpa using hsel⟩

/-- A row that is not selected stays. -/
theorem mem_of_not_selected {isDefault : Bool} {sel : WhatsAppPhoneNumber → Bool}
    {r : WhatsAppPhoneNumber} (h : r ∈ t.rows) (hsel : sel r = false) :
    r ∈ (setDefault t isDefault sel).rows :=
  mem_setDefault.mpr ⟨r, h, by simp [hsel]⟩

/-- Clearing any defaults, also only some of those that a statement selects, keeps the index. -/
theorem DefaultIndex.clear (h : DefaultIndex t) (sel : WhatsAppPhoneNumber → Bool) :
    DefaultIndex (setDefault t false sel) := by
  intro a ha b hb htenant hda hdb
  exact h a (of_mem_cleared ha hda.2).1 b (of_mem_cleared hb hdb.2).1 htenant hda hdb

/-! ## Creating -/

/-- **A new phone number** keeps the invariant. -/
theorem OneDefault.createPhoneNumber {dto : CreatePhoneNumberDto} (h : OneDefault t)
    (hcreate : createPhoneNumber t newId tenantId now dto = some t') : OneDefault t' := by
  obtain ⟨new, htenant, hactive, hdefault, hrows⟩ : ∃ new : WhatsAppPhoneNumber,
      new.tenantId = tenantId ∧ new.active = true ∧
      new.isDefault = becomesDefault t tenantId dto ∧
      t'.rows = new :: (setDefault t false fun r => becomesDefault t tenantId dto &&
        r.tenantId = tenantId && r.isDefault).rows :=
    ⟨_, rfl, rfl, rfl, Table.rows_of_insert? hcreate⟩
  -- A default among the old rows is not of this tenant, when the new one is the default.
  have hold : ∀ r ∈ (setDefault t false fun r => becomesDefault t tenantId dto &&
      r.tenantId = tenantId && r.isDefault).rows, r.isDefault = true →
      r ∈ t.rows ∧ (becomesDefault t tenantId dto = true → r.tenantId ≠ tenantId) := by
    intro r hr hrdefault
    obtain ⟨hmem, hsel⟩ := of_mem_cleared hr hrdefault
    refine ⟨hmem, fun hbecomes hsame => ?_⟩
    simp [hbecomes, hsame, hrdefault] at hsel
  refine ⟨?_, ?_, ?_⟩
  · intro a ha b hb hsame hda hdb
    rw [hrows] at ha hb
    rcases List.mem_cons.mp ha with rfl | haold
    · rcases List.mem_cons.mp hb with rfl | hbold
      · rfl
      · rw [hdefault] at hda
        exact absurd (hsame.symm.trans htenant) ((hold b hbold hdb.2).2 hda.2)
    · rcases List.mem_cons.mp hb with rfl | hbold
      · rw [hdefault] at hdb
        exact absurd (hsame.trans htenant) ((hold a haold hda.2).2 hdb.2)
      · exact h.index a (hold a haold hda.2).1 b (hold b hbold hdb.2).1 hsame hda hdb
  · intro r hr hrdefault
    rw [hrows] at hr
    rcases List.mem_cons.mp hr with rfl | hr
    · exact hactive
    · exact h.active r (hold r hr hrdefault).1 hrdefault
  · intro r hr hractive
    rw [hrows] at hr ⊢
    by_cases hown : becomesDefault t tenantId dto = true ∧ r.tenantId = tenantId
    · exact ⟨new, List.mem_cons_self, htenant.trans hown.2.symm, hdefault.trans hown.1⟩
    · -- The default that was there is not cleared.
      have hkept : ∀ r₀ ∈ t.rows, r₀.active = true → r₀.tenantId = r.tenantId →
          ∃ d ∈ new :: (setDefault t false fun r => becomesDefault t tenantId dto &&
            r.tenantId = tenantId && r.isDefault).rows, d.tenantId = r.tenantId ∧
            d.isDefault = true := by
        intro r₀ hr₀ hactive₀ hsame
        obtain ⟨d, hd, hdtenant, hddefault⟩ := h.covered r₀ hr₀ hactive₀
        refine ⟨d, List.mem_cons_of_mem _ (mem_of_not_selected hd ?_), hdtenant.trans hsame,
          hddefault⟩
        have htenantEq := hdtenant.trans hsame
        rw [not_and] at hown
        cases hbecomes : becomesDefault t tenantId dto with
        | false => simp
        | true => simp [htenantEq, hown hbecomes]
      rcases List.mem_cons.mp hr with rfl | hr
      · -- the new row is not the default, so there was an active one
        have hbecomes : becomesDefault t tenantId dto = false := by
          by_contra hne
          exact hown ⟨by simpa using hne, htenant⟩
        rw [becomesDefault, Bool.or_eq_false_iff, Bool.not_eq_false', List.any_eq_true] at hbecomes
        obtain ⟨⟨r₀, hr₀, hr₀active⟩, -⟩ := hbecomes
        simp only [Bool.and_eq_true, decide_eq_true_eq] at hr₀active
        exact hkept r₀ hr₀ hr₀active.2 (hr₀active.1.trans htenant.symm)
      · obtain ⟨r₀, hr₀, heq⟩ := mem_setDefault.mp hr
        have hsame : r₀.active = r.active ∧ r₀.tenantId = r.tenantId := by
          rw [← heq]
          split_ifs <;> exact ⟨rfl, rfl⟩
        exact hkept r₀ hr₀ (hsame.1.trans hractive) hsame.2

/-! ## Updating -/

section update

variable {dto : UpdatePhoneNumberDto} {existing : WhatsAppPhoneNumber}

/-- An update sets whether the number is active. -/
@[simp] theorem active_applyUpdate (dto : UpdatePhoneNumberDto) (r : WhatsAppPhoneNumber) :
    (applyUpdate dto r).active = willBeActive dto r := rfl

/-- An update sets whether the number is the default. -/
@[simp] theorem isDefault_applyUpdate (dto : UpdatePhoneNumberDto) (r : WhatsAppPhoneNumber) :
    (applyUpdate dto r).isDefault = requestedDefault dto r := rfl

/-- An update leaves the tenant. -/
@[simp] theorem tenantId_applyUpdate (dto : UpdatePhoneNumberDto) (r : WhatsAppPhoneNumber) :
    (applyUpdate dto r).tenantId = r.tenantId := rfl

/-- A request that is not refused never asks for an inactive default. -/
theorem willBeActive_of_requestedDefault
    (haccepted : ¬(dto.isDefault = some true ∧ willBeActive dto existing = false))
    (hactive : existing.isDefault = true → existing.active = true)
    (hrequested : requestedDefault dto existing = true) : willBeActive dto existing = true := by
  unfold requestedDefault willBeActive at *
  cases hdefault : dto.isDefault with
  | some value =>
      rw [hdefault] at hrequested haccepted
      simp only [Option.getD_some] at hrequested
      simpa [hrequested] using haccepted
  | none =>
      rw [hdefault, Option.getD_none] at hrequested
      split_ifs at hrequested with hoff
      cases hvalue : dto.active with
      | none => exact hactive hrequested
      | some value =>
          cases value with
          | true => rfl
          | false => exact absurd hvalue hoff

/-- The rows after the first `update` statement: the updated one, and the others, cleared or not. -/
theorem mem_updateRow (hexisting : existing ∈ t.rows) {r' : WhatsAppPhoneNumber} :
    r' ∈ (updateRow (clearOthers t dto existing) existing.id dto).rows ↔
      r' = applyUpdate dto existing ∨
        r' ∈ (clearOthers t dto existing).rows ∧ r'.id ≠ existing.id := by
  rw [updateRow, Table.rows_updateWhere, List.mem_map]
  have hcleared : existing ∈ (clearOthers t dto existing).rows :=
    mem_of_not_selected hexisting (by simp)
  have honly : ∀ r ∈ (clearOthers t dto existing).rows, r.id = existing.id → r = existing := by
    intro r hr hid
    refine (clearOthers t dto existing).eq_of_mem_keys hr hcleared (k := .id existing.id) ?_ ?_
    · simp [Keyed.keys, hid]
    · simp [Keyed.keys]
  constructor
  · rintro ⟨r, hr, rfl⟩
    split_ifs with hid
    · left
      rw [honly r hr (by simpa using hid)]
    · exact .inr ⟨hr, by simpa using hid⟩
  · rintro (rfl | ⟨hr, hid⟩)
    · exact ⟨existing, hcleared, by simp⟩
    · exact ⟨r', hr, by simp [hid]⟩

/-- After the first `update` statement the index holds, every default is active, and the tenants
other than this one are covered. -/
theorem OneDefault.updateRow (h : OneDefault t) (hexisting : existing ∈ t.rows)
    (haccepted : ¬(dto.isDefault = some true ∧ willBeActive dto existing = false)) :
    DefaultIndex (updateRow (clearOthers t dto existing) existing.id dto) ∧
    (∀ r ∈ (updateRow (clearOthers t dto existing) existing.id dto).rows,
      r.isDefault = true → r.active = true) ∧
    ∀ r ∈ (updateRow (clearOthers t dto existing) existing.id dto).rows,
      r.tenantId ≠ existing.tenantId → r.active = true →
      ∃ d ∈ (updateRow (clearOthers t dto existing) existing.id dto).rows,
        d.tenantId = r.tenantId ∧ d.isDefault = true := by
  -- When the updated row is an active default, no other row of its tenant is a default.
  have hsole : ∀ r ∈ (clearOthers t dto existing).rows, r.id ≠ existing.id →
      r.tenantId = existing.tenantId → r.isDefault = true →
      ¬(willBeActive dto existing = true ∧ requestedDefault dto existing = true) := by
    rintro r hr hid htenant hdefault ⟨hactive, hrequested⟩
    have hsel := (of_mem_cleared hr hdefault).2
    simp [hactive, hrequested, htenant, hid, hdefault] at hsel
  refine ⟨?_, ?_, ?_⟩
  · intro a ha b hb hsame hda hdb
    rcases (mem_updateRow hexisting).mp ha with rfl | ⟨haold, haid⟩
    · rcases (mem_updateRow hexisting).mp hb with rfl | ⟨hbold, hbid⟩
      · rfl
      · exact absurd hda (hsole b hbold hbid hsame.symm hdb.2)
    · rcases (mem_updateRow hexisting).mp hb with rfl | ⟨hbold, hbid⟩
      · exact absurd hdb (hsole a haold haid hsame hda.2)
      · exact h.index a (of_mem_cleared haold hda.2).1 b (of_mem_cleared hbold hdb.2).1 hsame hda
          hdb
  · intro r hr hdefault
    rcases (mem_updateRow hexisting).mp hr with rfl | ⟨hrold, -⟩
    · exact willBeActive_of_requestedDefault haccepted (h.active existing hexisting) hdefault
    · exact h.active r (of_mem_cleared hrold hdefault).1 hdefault
  · intro r hr htenant hractive
    rcases (mem_updateRow hexisting).mp hr with rfl | ⟨hrold, -⟩
    · exact absurd rfl htenant
    · obtain ⟨r₀, hr₀, heq⟩ := mem_setDefault.mp hrold
      have hsame : r₀.active = r.active ∧ r₀.tenantId = r.tenantId := by
        rw [← heq]
        split_ifs <;> exact ⟨rfl, rfl⟩
      obtain ⟨d, hd, hdtenant, hddefault⟩ := h.covered r₀ hr₀ (hsame.1.trans hractive)
      have hdother : d.tenantId ≠ existing.tenantId := by
        rw [hdtenant, hsame.2]
        exact htenant
      refine ⟨d, (mem_updateRow hexisting).mpr (.inr ⟨mem_of_not_selected hd ?_, ?_⟩),
        hdtenant.trans hsame.2, hddefault⟩
      · simp [hdother]
      · intro hid
        have hsameRow : d = existing := t.eq_of_mem_keys hd hexisting (k := .id existing.id)
          (by simp [Keyed.keys, hid]) (by simp [Keyed.keys])
        exact hdother (by rw [hsameRow])

/-- A search for the least `createdAt` returns one of the rows. -/
theorem foldl_createdAt_mem (rows : List WhatsAppPhoneNumber) (first : Option WhatsAppPhoneNumber)
    {r : WhatsAppPhoneNumber}
    (h : rows.foldl (fun best r => match best with
      | none => some r
      | some b => if r.createdAt < b.createdAt then some r else some b) first = some r) :
    r ∈ rows ∨ first = some r := by
  induction rows generalizing first with
  | nil => exact .inr h
  | cons a rest ih =>
      rw [List.foldl_cons] at h
      rcases ih _ h with hrest | hfirst
      · exact .inl (List.mem_cons_of_mem _ hrest)
      · cases first with
        | none => exact .inl (List.mem_cons.mpr (.inl (Option.some.inj hfirst).symm))
        | some b =>
            dsimp only at hfirst
            split_ifs at hfirst
            · exact .inl (List.mem_cons.mpr (.inl (Option.some.inj hfirst).symm))
            · exact .inr hfirst

/-- It returns one when there is one. -/
theorem isSome_foldl_createdAt (rows : List WhatsAppPhoneNumber)
    (first : Option WhatsAppPhoneNumber) (h : rows ≠ [] ∨ first.isSome = true) :
    (rows.foldl (fun best r => match best with
      | none => some r
      | some b => if r.createdAt < b.createdAt then some r else some b) first).isSome = true := by
  induction rows generalizing first with
  | nil => exact h.resolve_left (absurd rfl)
  | cons a rest ih =>
      rw [List.foldl_cons]
      refine ih _ (.inr ?_)
      cases first with
      | none => rfl
      | some b =>
          dsimp only
          split_ifs <;> rfl

/-- The end of an update: the tenant gets a default when it has none. -/
theorem OneDefault.ensureDefault (hindex : DefaultIndex t)
    (hactive : ∀ r ∈ t.rows, r.isDefault = true → r.active = true)
    (hcovered : ∀ r ∈ t.rows, r.tenantId ≠ tenantId → r.active = true →
      ∃ d ∈ t.rows, d.tenantId = r.tenantId ∧ d.isDefault = true) :
    OneDefault (ensureDefault t tenantId) := by
  unfold PhoneNumbers.ensureDefault
  split_ifs with hany
  · refine ⟨hindex, hactive, fun r hr hractive => ?_⟩
    by_cases htenant : r.tenantId = tenantId
    · obtain ⟨d, hd, hddefault⟩ := List.any_eq_true.mp hany
      simp only [Bool.and_eq_true, decide_eq_true_eq] at hddefault
      exact ⟨d, hd, hddefault.1.1.trans htenant.symm, hddefault.2⟩
    · exact hcovered r hr htenant hractive
  · have hnone : ∀ r ∈ t.rows, r.tenantId = tenantId → r.isDefault = false := by
      intro r hr htenant
      by_contra hdefault
      have hrdefault : r.isDefault = true := by simpa using hdefault
      refine hany (List.any_eq_true.mpr ⟨r, hr, ?_⟩)
      simp [htenant, hrdefault, hactive r hr hrdefault]
    cases holdest : oldestActive t tenantId with
    | none =>
        refine ⟨hindex, hactive, fun r hr hractive => ?_⟩
        by_cases htenant : r.tenantId = tenantId
        · have hmem : r ∈ t.rows.filter fun r => r.tenantId = tenantId && r.active := by
            simp [List.mem_filter, hr, htenant, hractive]
          have hsome : (oldestActive t tenantId).isSome = true :=
            isSome_foldl_createdAt _ none (.inl (List.ne_nil_of_mem hmem))
          rw [holdest] at hsome
          cases hsome
        · exact hcovered r hr htenant hractive
    | some fallback =>
        have hfallback := (foldl_createdAt_mem _ none holdest).resolve_right nofun
        simp only [List.mem_filter, Bool.and_eq_true, decide_eq_true_eq] at hfallback
        obtain ⟨hmem, hftenant, hfactive⟩ := hfallback
        -- The row that becomes the default is the one that was found.
        have hrows : ∀ r', r' ∈ (setDefault t true fun r => r.id = fallback.id).rows ↔
            r' = { fallback with isDefault := true } ∨ r' ∈ t.rows ∧ r'.id ≠ fallback.id := by
          intro r'
          rw [mem_setDefault]
          constructor
          · rintro ⟨r, hr, rfl⟩
            split_ifs with hid
            · left
              have hsame : r = fallback := t.eq_of_mem_keys hr hmem (k := .id fallback.id)
                (by simpa [Keyed.keys, eq_comm] using hid) (by simp [Keyed.keys])
              rw [hsame]
            · exact .inr ⟨hr, by simpa using hid⟩
          · rintro (rfl | ⟨hr, hid⟩)
            · exact ⟨fallback, hmem, by simp⟩
            · exact ⟨r', hr, by simp [hid]⟩
        refine ⟨?_, ?_, ?_⟩
        · intro a ha b hb hsame hda hdb
          rcases (hrows a).mp ha with rfl | ⟨haold, -⟩
          · rcases (hrows b).mp hb with rfl | ⟨hbold, -⟩
            · rfl
            · have hnot := hnone b hbold (hsame.symm.trans hftenant)
              rw [hnot] at hdb
              exact absurd hdb.2 Bool.false_ne_true
          · rcases (hrows b).mp hb with rfl | ⟨hbold, -⟩
            · have hnot := hnone a haold (hsame.trans hftenant)
              rw [hnot] at hda
              exact absurd hda.2 Bool.false_ne_true
            · exact hindex a haold b hbold hsame hda hdb
        · intro r hr hdefault
          rcases (hrows r).mp hr with rfl | ⟨hrold, -⟩
          · exact hfactive
          · exact hactive r hrold hdefault
        · intro r hr hractive
          by_cases htenant : r.tenantId = tenantId
          · exact ⟨{ fallback with isDefault := true }, (hrows _).mpr (.inl rfl),
              hftenant.trans htenant.symm, rfl⟩
          · rcases (hrows r).mp hr with rfl | ⟨hrold, -⟩
            · exact absurd hftenant htenant
            · obtain ⟨d, hd, hdtenant, hddefault⟩ := hcovered r hrold htenant hractive
              refine ⟨d, (hrows d).mpr (.inr ⟨hd, fun hid => ?_⟩), hdtenant, hddefault⟩
              have hsame : d = fallback := t.eq_of_mem_keys hd hmem (k := .id fallback.id)
                (by simp [Keyed.keys, hid]) (by simp [Keyed.keys])
              exact htenant (by rw [← hdtenant, hsame, hftenant])

/-- **An update** keeps the invariant. -/
theorem OneDefault.updatePhoneNumber (h : OneDefault t)
    (hupdate : updatePhoneNumber t tenantId id dto = .ok t') : OneDefault t' := by
  obtain ⟨existing, hexisting, haccepted, rfl⟩ := updatePhoneNumber_cases hupdate
  obtain ⟨hmem, rfl, rfl⟩ := of_find hexisting
  obtain ⟨hindex, hactive, hcovered⟩ := h.updateRow hmem haccepted
  exact OneDefault.ensureDefault hindex hactive hcovered

end update

/-- A transaction keeps one default to a tenant. -/
theorem OneDefault.transact {command : PhoneNumberCommand} (h : OneDefault t)
    (htransact : transact t newId tenantId now command = .ok t') : OneDefault t' := by
  cases command with
  | create dto =>
      simp only [PhoneNumbers.transact] at htransact
      split at htransact
      · next t'' hcreate =>
          cases htransact
          exact h.createPhoneNumber hcreate
      · cases htransact
  | update id dto => exact h.updatePhoneNumber htransact

/-- **The index** holds after every statement of a transaction. -/
theorem defaultIndex_transactStates (h : OneDefault t) (command : PhoneNumberCommand) :
    ∀ u ∈ transactStates t newId tenantId now command, DefaultIndex u := by
  cases command with
  | create dto =>
      intro u hu
      rcases List.mem_cons.mp hu with rfl | hu
      · exact h.index.clear _
      · exact (h.createPhoneNumber (Option.mem_toList.mp hu)).index
  | update id dto =>
      intro u hu
      simp only [transactStates, updateStates] at hu
      split at hu
      · cases hu
      · next existing hexisting =>
          obtain ⟨hmem, rfl, rfl⟩ := of_find hexisting
          split_ifs at hu with haccepted
          · cases hu
          · obtain ⟨hindex, hactive, hcovered⟩ := h.updateRow hmem haccepted
            simp only [List.mem_cons, List.not_mem_nil, or_false] at hu
            rcases hu with rfl | rfl | rfl
            · exact h.index.clear _
            · exact hindex
            · exact (OneDefault.ensureDefault hindex hactive hcovered).index

/-! ## The default -/

/-- The defaults of a tenant. -/
def defaults (t : PhoneNumbers) (tenantId : Uuid) : List WhatsAppPhoneNumber :=
  t.rows.filter fun r => r.tenantId = tenantId && r.isDefault

/-- The defaults of a tenant. -/
theorem mem_defaults {r : WhatsAppPhoneNumber} :
    r ∈ defaults t tenantId ↔ r ∈ t.rows ∧ r.tenantId = tenantId ∧ r.isDefault = true := by
  simp [defaults, List.mem_filter]

/-- A tenant has one default, and it is active, or it has no active phone number and no default. -/
theorem OneDefault.defaults_cases (h : OneDefault t) (tenantId : Uuid) :
    (∃ d, d.active = true ∧ defaults t tenantId = [d]) ∨
      (defaults t tenantId = [] ∧ ∀ r ∈ t.rows, r.tenantId = tenantId → r.active = false) := by
  rcases hlist : defaults t tenantId with _ | ⟨d, _ | ⟨d', rest⟩⟩
  · refine .inr ⟨rfl, fun r hr htenant => ?_⟩
    by_contra hactive
    obtain ⟨d, hd, hdtenant, hddefault⟩ := h.covered r hr (by simpa using hactive)
    have hmem := mem_defaults.mpr ⟨hd, hdtenant.trans htenant, hddefault⟩
    rw [hlist] at hmem
    cases hmem
  · obtain ⟨hd, -, hdefault⟩ := mem_defaults.mp (hlist ▸ List.mem_cons_self)
    exact .inl ⟨d, h.active d hd hdefault, rfl⟩
  · -- Two defaults would be one row, twice.
    have hmem : ∀ r ∈ [d, d'], r ∈ t.rows ∧ r.tenantId = tenantId ∧ r.isDefault = true := by
      intro r hr
      refine mem_defaults.mp ?_
      rw [hlist]
      exact List.mem_append_left rest hr
    obtain ⟨hd, hdtenant, hddefault⟩ := hmem d (by simp)
    obtain ⟨hd', hdtenant', hddefault'⟩ := hmem d' (by simp)
    have hsame : d = d' := h.index d hd d' hd' (hdtenant.trans hdtenant'.symm)
      ⟨h.active d hd hddefault, hddefault⟩ ⟨h.active d' hd' hddefault', hddefault'⟩
    have hpair : (defaults t tenantId).Pairwise fun a b =>
        ∀ k ∈ Keyed.keys a, k ∉ Keyed.keys b := t.unique.filter _
    rw [hlist, hsame] at hpair
    have hkeys := (List.pairwise_cons.mp hpair).1 d' List.mem_cons_self
    exact absurd (by simp [Keyed.keys]) (hkeys (.id d'.id) (by simp [Keyed.keys]))

/-- `resolveForTenant` reads the active defaults of the tenant, and these are its defaults. -/
theorem OneDefault.resolveForTenant (h : OneDefault t) {db : Db} (hdb : db.phoneNumbers = t)
    (tenantId : Uuid) :
    db.resolveForTenant tenantId none = match defaults t tenantId with
      | d :: _ => .ok d
      | [] => .error (.unprocessable
          "No active WhatsApp sender is configured for this tenant") := by
  subst hdb
  have hfilter : ((db.phoneNumbers.rows.filter fun r => r.tenantId = tenantId && r.active).filter
      WhatsAppPhoneNumber.isDefault) = defaults db.phoneNumbers tenantId := by
    rw [List.filter_filter, defaults]
    refine List.filter_congr fun r hr => ?_
    cases hdefault : r.isDefault with
    | false => simp
    | true => simp [h.active r hr hdefault]
  obtain ⟨d, hactive, hlist⟩ | ⟨hlist, hnone⟩ := h.defaults_cases tenantId
  · simp [Db.resolveForTenant, Db.defaultSender, hfilter, hlist]
  · have hactive : (db.phoneNumbers.rows.filter fun r => r.tenantId = tenantId && r.active) = [] := by
      refine List.filter_eq_nil_iff.mpr fun r hr => ?_
      by_cases htenant : r.tenantId = tenantId
      · simp [hnone r hr htenant]
      · simp [htenant]
    simp [Db.resolveForTenant, Db.defaultSender, hlist, hactive]

end PhoneNumbers

/-! ## Runs -/

namespace Registrations

open PhoneNumbers

variable {s : Registrations}

/-- Every state that is reached has one default to a tenant. -/
theorem oneDefault (h : Reachable step initial s) : OneDefault s.phoneNumbers := by
  refine h.invariant (P := fun x => OneDefault x.phoneNumbers) ?_ ?_
  · refine ⟨?_, ?_, ?_⟩
    · intro a ha
      simp [initial] at ha
    · intro r hr
      simp [initial] at hr
    · intro r hr
      simp [initial] at hr
  · intro x act y hx _ hstep
    obtain ⟨hsame, -⟩ | ⟨_, _, _, _, _, _, _, _, _, htransact⟩ := step_cases hstep
    · rw [hsame]
      exact hx
    · exact hx.transact htransact

/-- **The default sender.** In every state that any calls lead to, a tenant with an active phone
number has exactly one default, which is active, and a call without a `senderId` gets it; a tenant
without one has no default, and such a call gets the error. From there, no statement of a transaction
breaks the index, and the table after its last statement is what it commits. -/
theorem default_sender (h : Reachable step initial s) (tenantId : Uuid) :
    ((∃ r ∈ s.phoneNumbers.rows, r.tenantId = tenantId ∧ r.active = true) →
      ∃ d, d.active = true ∧ defaults s.phoneNumbers tenantId = [d] ∧
        ∀ db : Db, db.phoneNumbers = s.phoneNumbers →
          db.resolveForTenant tenantId none = .ok d) ∧
    ((∀ r ∈ s.phoneNumbers.rows, r.tenantId = tenantId → r.active = false) →
      defaults s.phoneNumbers tenantId = [] ∧
        ∀ db : Db, db.phoneNumbers = s.phoneNumbers →
          db.resolveForTenant tenantId none = .error (.unprocessable
            "No active WhatsApp sender is configured for this tenant")) ∧
    (∀ r ∈ s.phoneNumbers.rows, r.active = false → r.isDefault = false) ∧
    ∀ (newId : Uuid) (now : Time) (command : PhoneNumberCommand),
      (∀ u ∈ transactStates s.phoneNumbers newId tenantId now command, DefaultIndex u) ∧
      ∀ t, transact s.phoneNumbers newId tenantId now command = .ok t →
        (transactStates s.phoneNumbers newId tenantId now command).getLast? = some t := by
  have hone := oneDefault h
  refine ⟨?_, ?_, ?_, ?_⟩
  · rintro ⟨r, hr, htenant, hactive⟩
    obtain ⟨d, hdactive, hlist⟩ | ⟨-, hnone⟩ := hone.defaults_cases tenantId
    · refine ⟨d, hdactive, hlist, fun db hdb => ?_⟩
      rw [hone.resolveForTenant hdb, hlist]
    · rw [hnone r hr htenant] at hactive
      cases hactive
  · intro hinactive
    have hlist : defaults s.phoneNumbers tenantId = [] := by
      refine List.eq_nil_iff_forall_not_mem.mpr fun d hd => ?_
      obtain ⟨hmem, htenant, hdefault⟩ := mem_defaults.mp hd
      have hactive := hone.active d hmem hdefault
      rw [hinactive d hmem htenant] at hactive
      cases hactive
    refine ⟨hlist, fun db hdb => ?_⟩
    rw [hone.resolveForTenant hdb, hlist]
  · intro r hr hinactive
    by_contra hdefault
    have hactive := hone.active r hr (by simpa using hdefault)
    rw [hinactive] at hactive
    cases hactive
  · intro newId now command
    exact ⟨defaultIndex_transactStates hone command, fun t => getLast?_transactStates⟩

/-- A second phone number becomes the default, and is switched off again. -/
def sampleSwitch : List Act :=
  [.request 1 (sampleCreate "10"), .call 0 .returned 0 0, .call 0 .returned 0 0,
    .call 0 .returned 101 5,
    .request 1 (.create
      { providerPhoneNumberId := "11", wabaId := none
        rateLimitPerSecond := none, isDefault := some true }),
    .call 1 .returned 0 0, .call 1 .returned 0 0, .call 1 .returned 102 6,
    .request 1 (.update 102
      { wabaId := none, rateLimitPerSecond := none, active := some false, isDefault := none }),
    .call 2 .returned 0 0, .call 2 .returned 0 7]

/-- The first phone number is the default again. -/
theorem default_sender_switch :
    ∃ s d, Reachable step initial s ∧
      (s.phoneNumbers.rows.map fun r => (r.id, r.active, r.isDefault)) =
        [(102, false, false), (101, true, true)] ∧
      d.active = true ∧ defaults s.phoneNumbers 1 = [d] ∧
      ∀ db : Db, db.phoneNumbers = s.phoneNumbers → db.resolveForTenant 1 none = .ok d := by
  have hrun : ((exec step initial sampleSwitch).map fun s =>
      s.phoneNumbers.rows.map fun r => (r.id, r.tenantId, r.active, r.isDefault)) =
      some [(102, 1, false, false), (101, 1, true, true)] := by decide
  obtain ⟨s, hs, hrows⟩ := Option.map_eq_some_iff.mp hrun
  have hreach : Reachable step initial s := Reachable.of_exec hs
  have hactive : ∃ r ∈ s.phoneNumbers.rows, r.tenantId = 1 ∧ r.active = true := by
    have hmem : (101, 1, true, true) ∈ s.phoneNumbers.rows.map fun r =>
        (r.id, r.tenantId, r.active, r.isDefault) := by simp [hrows]
    obtain ⟨r, hr, heq⟩ := List.mem_map.mp hmem
    simp only [Prod.mk.injEq] at heq
    exact ⟨r, hr, heq.2.1, heq.2.2.1⟩
  obtain ⟨d, hd, hlist, hresolve⟩ := (default_sender hreach 1).1 hactive
  have hview := congrArg (List.map fun x : Uuid × Uuid × Bool × Bool => (x.1, x.2.2)) hrows
  rw [List.map_map] at hview
  exact ⟨s, d, hreach, hview, hd, hlist, hresolve⟩

end Registrations

end ApiWhatsApp
