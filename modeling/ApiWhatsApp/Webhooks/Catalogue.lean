import ApiWhatsApp.Webhooks.EventProcessing

/-!
# The template updates of an event

Which template updates of a payload can be applied, from `template-status-webhook.service.ts` and
`applyProviderStatusUpdate`. An update names a template twice, by its provider id and by its name and
language, and the two may lead to different rows.

* `Catalogue` says which template each provider id stands for. An update that is applied makes its id
  stand for its template, and no other id (`assign`).
* `Catalogue.Accepts` is the condition: the WABA has one tenant, the provider id is free or belongs to
  that tenant and WABA, and it is not moved to a template that another id stands for.
* **`processTemplates_iff`** — the updates of a payload are all applied exactly when the catalogue of
  the database accepts them.
-/

namespace ApiWhatsApp

open Library

/-! ## The catalogue -/

/-- What a template is called. -/
structure TemplateIdentity where
  tenantId : Uuid
  wabaId : String
  name : String
  language : String
  deriving DecidableEq

/-- The name and language of a row, in its account. -/
def MessageTemplate.identity (r : MessageTemplate) : TemplateIdentity where
  tenantId := r.tenantId
  wabaId := r.wabaId
  name := r.name
  language := r.language

/-- The name and language of an update, in its account. -/
def TemplateStatusUpdate.identity (update : TemplateStatusUpdate) (tenantId : Uuid) :
    TemplateIdentity where
  tenantId := tenantId
  wabaId := update.wabaId
  name := update.name
  language := update.language

/-- The templates that the provider ids stand for. -/
def Catalogue := String → Option TemplateIdentity

namespace Catalogue

/-- An id stands for a template from now on, and no other id does. -/
def assign (held : Catalogue) (p : String) (identity : TemplateIdentity) : Catalogue := fun q =>
  if q = p then some identity else (held q).filter fun other => other ≠ identity

/-- One update can be applied for a tenant. An id that is in use keeps its row, so that the row has to
be the tenant's, and its new name free. -/
def Permits (held : Catalogue) (update : TemplateStatusUpdate) (tenantId : Uuid) : Prop :=
  ∀ identity, held update.providerTemplateId = some identity →
    identity.tenantId = tenantId ∧ identity.wabaId = update.wabaId ∧
      ∀ q, held q = some (update.identity tenantId) → q = update.providerTemplateId

/-- The updates can be applied one after the other. -/
def Accepts (t : PhoneNumbers) : Catalogue → List TemplateStatusUpdate → Prop
  | _, [] => True
  | held, update :: rest =>
      ∃ tenantId, PhoneNumbers.owners t update.wabaId = [tenantId] ∧ held.Permits update tenantId ∧
        Accepts t (held.assign update.providerTemplateId (update.identity tenantId)) rest

end Catalogue

/-- The catalogue of a table. -/
def catalogueOf (t : Table MessageTemplate) : Catalogue := fun p =>
  (t.find (.providerTemplateId p)).map MessageTemplate.identity

section table

variable {t t' : Table MessageTemplate} {r row : MessageTemplate} {p : String}
  {identity : TemplateIdentity}

/-- The id of Meta is a key of its row only. -/
theorem mem_keys_template_provider :
    TemplateKey.providerTemplateId p ∈ Keyed.keys r ↔ r.providerTemplateId = p := by
  simp [Keyed.keys, eq_comm]

/-- The name and the language are keys of their row only. -/
theorem mem_keys_template_identity (identity : TemplateIdentity) :
    TemplateKey.identity identity.tenantId identity.wabaId identity.name identity.language ∈
      Keyed.keys r ↔ r.identity = identity := by
  obtain ⟨tenantId, wabaId, name, language⟩ := identity
  simp [Keyed.keys, MessageTemplate.identity, eq_comm]

/-- The catalogue has the identity of the row with the id. -/
theorem catalogueOf_eq_some_iff :
    catalogueOf t p = some identity ↔
      ∃ r ∈ t.rows, r.providerTemplateId = p ∧ r.identity = identity := by
  simp only [catalogueOf, Option.map_eq_some_iff, t.find_eq_some_iff, mem_keys_template_provider,
    and_assoc]

/-- **What a write does to the catalogue.** The new row takes the place of a row with its provider id
or of one with its name, if there is one. -/
theorem catalogueOf_eq_assign {target : Option MessageTemplate}
    (hrows : ∀ a, a ∈ t'.rows ↔ a = row ∨ a ∈ t.rows ∧ some a ≠ target)
    (htarget : ∀ a, target = some a →
      a.providerTemplateId = row.providerTemplateId ∨ a.identity = row.identity) :
    catalogueOf t' = (catalogueOf t).assign row.providerTemplateId row.identity := by
  have hrow : row ∈ t'.rows := (hrows row).mpr (.inl rfl)
  funext q
  by_cases hq : q = row.providerTemplateId
  · rw [Catalogue.assign, if_pos hq]
    exact catalogueOf_eq_some_iff.mpr ⟨row, hrow, hq.symm, rfl⟩
  rw [Catalogue.assign, if_neg hq]
  refine Option.ext fun identity => ?_
  rw [Option.filter_eq_some_iff, catalogueOf_eq_some_iff, catalogueOf_eq_some_iff]
  simp only [ne_eq, decide_not, Bool.not_eq_true', decide_eq_false_iff_not]
  constructor
  · rintro ⟨a, ha, rfl, rfl⟩
    have hne : a ≠ row := fun heq => hq (heq ▸ rfl)
    have hold := ((hrows a).mp ha).resolve_left hne
    refine ⟨⟨a, hold.1, rfl, rfl⟩, fun hsame => hne ?_⟩
    exact t'.eq_of_mem_keys ha hrow ((mem_keys_template_identity _).mpr hsame)
      ((mem_keys_template_identity _).mpr rfl)
  · rintro ⟨⟨a, ha, rfl, rfl⟩, hother⟩
    refine ⟨a, (hrows a).mpr (.inr ⟨ha, fun heq => ?_⟩), rfl, rfl⟩
    rcases htarget a heq.symm with hsame | hsame
    · exact hq hsame
    · exact hother hsame

/-- A name that is taken by another row is one that another id stands for. -/
theorem forall_catalogueOf_iff (hr : r ∈ t.rows) :
    (∀ q, catalogueOf t q = some identity → q = r.providerTemplateId) ↔
      ∀ a ∈ t.rows, a.id ≠ r.id → a.identity ≠ identity := by
  constructor
  · intro h a ha hne hidentity
    have hsame := h a.providerTemplateId (catalogueOf_eq_some_iff.mpr ⟨a, ha, rfl, hidentity⟩)
    refine hne ?_
    rw [t.eq_of_mem_keys ha hr (mem_keys_template_provider.mpr hsame)
      (mem_keys_template_provider.mpr rfl)]
  · intro h q hq
    obtain ⟨a, ha, rfl, hidentity⟩ := catalogueOf_eq_some_iff.mp hq
    by_cases hid : a.id = r.id
    · rw [t.eq_of_mem_keys ha hr (mem_keys_template_id.mpr hid) (mem_keys_template_id.mpr rfl)]
    · exact absurd hidentity (h a ha hid)

end table

/-! ## One write -/

/-- What the write of an update makes of the templates. -/
structure Writes (newId tenantId : Uuid) (update : TemplateStatusUpdate)
    (t t' : Table MessageTemplate) : Prop where
  catalogue : catalogueOf t' =
    (catalogueOf t).assign update.providerTemplateId (update.identity tenantId)
  free : ∀ i, i ≠ newId → t.find (.id i) = none → t'.find (.id i) = none

section write

variable {db db' : Db} {newId tenantId id : Uuid} {update : TemplateStatusUpdate}
  {t' : Table MessageTemplate} {r row : MessageTemplate}

/-- Rows of which one is new are a write. -/
theorem writes_of_rows {t : Table MessageTemplate} (target : Option MessageTemplate)
    (hrows : ∀ a, a ∈ t'.rows ↔ a = row ∨ a ∈ t.rows ∧ some a ≠ target)
    (htarget : ∀ a, target = some a →
      a.providerTemplateId = row.providerTemplateId ∨ a.identity = row.identity)
    (hprovider : row.providerTemplateId = update.providerTemplateId)
    (hidentity : row.identity = update.identity tenantId)
    (hid : row.id = newId ∨ ∃ a ∈ t.rows, a.id = row.id) : Writes newId tenantId update t t' := by
  constructor
  · rw [← hprovider, ← hidentity]
    exact catalogueOf_eq_assign hrows htarget
  · intro i hi hnone
    rw [Table.find_eq_none_iff] at hnone ⊢
    intro a ha hkey
    rcases (hrows a).mp ha with rfl | ⟨hold, -⟩
    · rcases hid with hnew | ⟨b, hb, hsame⟩
      · exact hi ((mem_keys_template_id.mp hkey).symm.trans hnew)
      · exact hnone b hb (mem_keys_template_id.mpr (hsame.trans (mem_keys_template_id.mp hkey)))
    · exact hnone a hold hkey

/-- An update of one row is a write. -/
theorem writes_of_update? {f : MessageTemplate → MessageTemplate}
    (hr : r ∈ db.templates.rows) (h : db.templates.update? (.id r.id) f = some t')
    (hid : (f r).id = r.id)
    (htarget : r.providerTemplateId = (f r).providerTemplateId ∨ r.identity = (f r).identity)
    (hprovider : (f r).providerTemplateId = update.providerTemplateId)
    (hidentity : (f r).identity = update.identity tenantId) :
    Writes newId tenantId update db.templates t' := by
  have hfind : db.templates.find (.id r.id) = some r :=
    db.templates.find_eq_some_iff.mpr ⟨hr, mem_keys_template_id.mpr rfl⟩
  refine writes_of_rows (some r) (fun a => ?_) (fun a ha => ?_) hprovider hidentity
    (.inr ⟨r, hr, hid.symm⟩)
  · rw [Table.mem_update?_iff h hfind, ne_eq, ne_eq, Option.some.injEq]
  · cases ha
    exact htarget

/-- An insertion is a write. -/
theorem writes_of_insert? (h : db.templates.insert? row = some t')
    (hprovider : row.providerTemplateId = update.providerTemplateId)
    (hidentity : row.identity = update.identity tenantId) (hid : row.id = newId) :
    Writes newId tenantId update db.templates t' := by
  refine writes_of_rows none (fun a => ?_) (fun a ha => (by cases ha)) hprovider hidentity (.inl hid)
  rw [Table.rows_of_insert? h, List.mem_cons]
  simp

/-- The update of a row that has the provider id. -/
theorem applyTemplateUpdate_renames (newId : Uuid) (hr : r ∈ db.templates.rows)
    (hprovider : r.providerTemplateId = update.providerTemplateId) (htenant : r.tenantId = tenantId)
    (hwaba : r.wabaId = update.wabaId) :
    ((db.applyTemplateUpdate newId tenantId update (some r.id)).isSome = true ↔
        ∀ a ∈ db.templates.rows, a.id ≠ r.id → a.identity ≠ update.identity tenantId) ∧
      ∀ db' id, db.applyTemplateUpdate newId tenantId update (some r.id) = some (db', id) →
        Writes newId tenantId update db.templates db'.templates := by
  have hfind : db.templates.find (.id r.id) = some r :=
    db.templates.find_eq_some_iff.mpr ⟨hr, mem_keys_template_id.mpr rfl⟩
  subst htenant
  unfold Db.applyTemplateUpdate
  dsimp only
  constructor
  · rw [Option.isSome_map, Table.isSome_update?_iff _ hfind]
    refine forall_congr' fun a => forall_congr' fun ha => ?_
    rw [mem_keys_template_id]
    refine forall_congr' fun hid => ⟨fun h hsame => ?_, fun h k hk hka => ?_⟩
    · refine h _ ?_ ((mem_keys_template_identity _).mpr hsame)
      simp [Keyed.keys, TemplateStatusUpdate.identity, hwaba]
    · simp only [Keyed.keys, List.mem_cons, List.not_mem_nil, or_false] at hk
      rcases hk with rfl | rfl | rfl
      · exact hid (mem_keys_template_id.mp hka)
      · refine hid ?_
        rw [db.templates.eq_of_mem_keys ha hr hka (mem_keys_template_provider.mpr rfl)]
      · rw [hwaba] at hka
        exact h ((mem_keys_template_identity (update.identity r.tenantId)).mp hka)
  · intro db' id h
    obtain ⟨templates, hupdate, heq⟩ := Option.map_eq_some_iff.mp h
    cases heq
    refine writes_of_update? hr hupdate rfl (.inl rfl) hprovider ?_
    simp only [MessageTemplate.identity, TemplateStatusUpdate.identity, hwaba]

/-- The upsert for a provider id that is free. -/
theorem applyTemplateUpdate_upserts (tenantId : Uuid)
    (hfree : db.templates.find (.id newId) = none)
    (hprovider : db.templates.find (.providerTemplateId update.providerTemplateId) = none) :
    ∃ db' id, db.applyTemplateUpdate newId tenantId update none = some (db', id) ∧
      Writes newId tenantId update db.templates db'.templates := by
  unfold Db.applyTemplateUpdate
  rcases hfind : db.templateTarget tenantId update none with _ | row
  · dsimp only
    obtain ⟨templates, htemplates⟩ := db.templates.exists_insert? (r := {
        id := newId
        tenantId := tenantId
        wabaId := update.wabaId
        providerTemplateId := update.providerTemplateId
        name := update.name
        language := update.language
        category := none
        status := toUpperCase update.status }) (by
      intro k hk
      simp only [Keyed.keys, List.mem_cons, List.not_mem_nil, or_false] at hk
      rcases hk with rfl | rfl | rfl
      · exact hfree
      · exact hprovider
      · exact hfind)
    refine ⟨_, _, by rw [htemplates, Option.map_some], ?_⟩
    exact writes_of_insert? htemplates rfl rfl rfl
  · dsimp only
    obtain ⟨hrow, hkey⟩ := db.templates.find_eq_some_iff.mp hfind
    have hidentity := (mem_keys_template_identity (update.identity tenantId)).mp hkey
    have hrowId : db.templates.find (.id row.id) = some row :=
      db.templates.find_eq_some_iff.mpr ⟨hrow, mem_keys_template_id.mpr rfl⟩
    obtain ⟨templates, htemplates⟩ := Option.isSome_iff_exists.mp
      ((Table.isSome_update?_iff db.templates (f := fun r => { r with
        providerTemplateId := update.providerTemplateId
        status := toUpperCase update.status }) hrowId).mpr (by
      intro a ha hid k hk hka
      simp only [Keyed.keys, List.mem_cons, List.not_mem_nil, or_false] at hk
      rcases hk with rfl | rfl | rfl
      · exact hid hka
      · exact db.templates.find_eq_none_iff.mp hprovider a ha hka
      · have hsame := db.templates.eq_of_mem_keys ha hrow hka ((mem_keys_template_identity
          row.identity).mpr rfl)
        exact hid (hsame ▸ mem_keys_template_id.mpr rfl)))
    refine ⟨_, _, by rw [htemplates, Option.map_some], ?_⟩
    exact writes_of_update? hrow htemplates rfl (.inr rfl) rfl hidentity

end write

namespace EventEnvironment

variable {env : EventEnvironment} {db s : Db} {payload : Json}

/-! ## The template updates -/

/-- A template update reads and writes the templates only. -/
theorem applyTemplateUpdate_eq (db : Db) (newId tenantId : Uuid) (update : TemplateStatusUpdate)
    (found : Option Uuid) :
    db.applyTemplateUpdate newId tenantId update found =
      (({ Db.empty with templates := db.templates } : Db).applyTemplateUpdate newId tenantId update
        found).map fun x => ({ db with templates := x.1.templates }, x.2) := by
  unfold Db.applyTemplateUpdate
  rcases found with _ | id
  · have htarget : ({ Db.empty with templates := db.templates } : Db).templateTarget tenantId update
        none = db.templateTarget tenantId update none := rfl
    rw [htarget]
    rcases db.templateTarget tenantId update none with _ | row
    · simp only [Option.map_map, Function.comp_def]
    · simp only [Option.map_map, Function.comp_def]
  · simp only [Option.map_map, Function.comp_def]

/-- So its outcome is the same wherever these and the senders are. -/
theorem applyTemplate_congr {s s' : Db} (hphones : s.phoneNumbers = s'.phoneNumbers)
    (htemplates : s.templates = s'.templates) (x : Uuid × TemplateStatusUpdate) :
    (env.applyTemplate s x).2 = (env.applyTemplate s' x).2 ∧
      (env.applyTemplate s x).1.phoneNumbers = (env.applyTemplate s' x).1.phoneNumbers ∧
      (env.applyTemplate s x).1.templates = (env.applyTemplate s' x).1.templates := by
  obtain ⟨newId, update⟩ := x
  unfold applyTemplate
  dsimp only
  rw [← hphones, ← htemplates]
  rcases PhoneNumbers.findTenantIdByWabaId s.phoneNumbers update.wabaId with error | tenantId
  · exact ⟨rfl, hphones, htemplates⟩
  dsimp only
  split_ifs
  · exact ⟨rfl, hphones, htemplates⟩
  rw [applyTemplateUpdate_eq s, applyTemplateUpdate_eq s', htemplates]
  rcases ({ Db.empty with templates := s'.templates } : Db).applyTemplateUpdate newId tenantId update
    _ with _ | ⟨db', id⟩
  · exact ⟨rfl, hphones, htemplates⟩
  · exact ⟨rfl, hphones, rfl⟩

/-- It leaves everything else alone. -/
theorem applyTemplate_frame (env : EventEnvironment) (s : Db) (x : Uuid × TemplateStatusUpdate) :
    (env.applyTemplate s x).1.messages = s.messages ∧
      (env.applyTemplate s x).1.webhookEvents = s.webhookEvents := by
  obtain ⟨newId, update⟩ := x
  unfold applyTemplate
  dsimp only
  rcases PhoneNumbers.findTenantIdByWabaId s.phoneNumbers update.wabaId with error | tenantId
  · exact ⟨rfl, rfl⟩
  dsimp only
  split_ifs
  · exact ⟨rfl, rfl⟩
  rw [applyTemplateUpdate_eq s]
  rcases ({ Db.empty with templates := s.templates } : Db).applyTemplateUpdate newId tenantId update
    _ with _ | ⟨db', id⟩
  · exact ⟨rfl, rfl⟩
  · exact ⟨rfl, rfl⟩

/-- The tenant is found just when it is the only owner. -/
theorem findTenantIdByWabaId_eq_ok_iff {t : PhoneNumbers} {wabaId : String} {tenantId : Uuid} :
    PhoneNumbers.findTenantIdByWabaId t wabaId = .ok tenantId ↔
      PhoneNumbers.owners t wabaId = [tenantId] := by
  unfold PhoneNumbers.findTenantIdByWabaId
  split
  · next howners => simp [howners]
  · next owner howners => simp [howners]
  · next howners => simp [howners]

/-- **One update** of a WABA with one tenant. -/
theorem applyTemplate_of_owner (env : EventEnvironment) {newId tenantId : Uuid}
    {update : TemplateStatusUpdate}
    (hone : PhoneNumbers.owners s.phoneNumbers update.wabaId = [tenantId])
    (hfree : s.templates.find (.id newId) = none) :
    ((env.applyTemplate s (newId, update)).2 = none ↔
        (catalogueOf s.templates).Permits update tenantId) ∧
      ((env.applyTemplate s (newId, update)).2 = none →
        (env.applyTemplate s (newId, update)).1.phoneNumbers = s.phoneNumbers ∧
        Writes newId tenantId update s.templates
          (env.applyTemplate s (newId, update)).1.templates) := by
  have howner := findTenantIdByWabaId_eq_ok_iff.mpr hone
  unfold applyTemplate
  dsimp only
  rw [howner]
  dsimp only
  rcases hfind : s.templates.find (.providerTemplateId update.providerTemplateId) with _ | r
  · obtain ⟨db', id, happly, hwrites⟩ := applyTemplateUpdate_upserts tenantId hfree hfind
    obtain ⟨⟨templates, rfl⟩, -⟩ := Db.applyTemplateUpdate_spec happly
    rw [Option.any_none, if_neg Bool.false_ne_true, Option.map_none, happly]
    refine ⟨⟨fun _ identity hheld => ?_, fun _ => rfl⟩, fun _ => ⟨rfl, hwrites⟩⟩
    rw [catalogueOf, hfind] at hheld
    cases hheld
  obtain ⟨hr, hkey⟩ := s.templates.find_eq_some_iff.mp hfind
  have hprovider := mem_keys_template_provider.mp hkey
  have hheld : catalogueOf s.templates update.providerTemplateId = some r.identity :=
    catalogueOf_eq_some_iff.mpr ⟨r, hr, hprovider, rfl⟩
  by_cases hown : r.tenantId = tenantId ∧ r.wabaId = update.wabaId
  · obtain ⟨htenant, hwaba⟩ := hown
    obtain ⟨hiff, hwrites⟩ :=
      applyTemplateUpdate_renames newId hr hprovider htenant hwaba
    have hpermits : (catalogueOf s.templates).Permits update tenantId ↔
        (s.applyTemplateUpdate newId tenantId update (some r.id)).isSome = true := by
      rw [hiff, ← forall_catalogueOf_iff hr, hprovider]
      refine ⟨fun h => (h r.identity hheld).2.2, fun h identity hidentity => ?_⟩
      rw [hheld] at hidentity
      cases hidentity
      exact ⟨htenant, hwaba, h⟩
    rw [hpermits, if_neg (by simp [htenant, hwaba]), Option.map_some]
    rcases happly : s.applyTemplateUpdate newId tenantId update (some r.id) with _ | ⟨db', id⟩
    · exact ⟨by simp, fun herror => absurd herror (Option.some_ne_none _)⟩
    · have hwritten := hwrites db' id happly
      obtain ⟨⟨templates, rfl⟩, -⟩ := Db.applyTemplateUpdate_spec happly
      exact ⟨by simp, fun _ => ⟨rfl, hwritten⟩⟩
  · have hforeign : (Option.any (fun x : MessageTemplate => decide (x.tenantId ≠ tenantId) ||
        decide (x.wabaId ≠ update.wabaId)) (some r)) = true := by
      rcases not_and_or.mp hown with hother | hother
      · simp [hother]
      · simp [hother]
    rw [if_pos hforeign]
    refine ⟨⟨fun herror => absurd herror (Option.some_ne_none _), fun hpermits => ?_⟩,
      fun herror => absurd herror (Option.some_ne_none _)⟩
    obtain ⟨htenant, hwaba, -⟩ := hpermits r.identity hheld
    exact absurd ⟨htenant, hwaba⟩ hown

/-- Without one, the update throws. -/
theorem applyTemplate_ne_none (env : EventEnvironment) (newId : Uuid) {update : TemplateStatusUpdate}
    (h : ∀ tenantId, PhoneNumbers.owners s.phoneNumbers update.wabaId ≠ [tenantId]) :
    (env.applyTemplate s (newId, update)).2 ≠ none := by
  unfold applyTemplate
  dsimp only
  rcases howner : PhoneNumbers.findTenantIdByWabaId s.phoneNumbers update.wabaId with
    error | tenantId
  · exact Option.some_ne_none _
  · exact absurd (findTenantIdByWabaId_eq_ok_iff.mp howner) (h tenantId)

/-- **The loop.** -/
theorem forEach_applyTemplate_iff {items : List (Uuid × TemplateStatusUpdate)}
    (hdistinct : (items.map Prod.fst).Nodup)
    (hfree : ∀ x ∈ items, s.templates.find (.id x.1) = none) :
    (forEach env.applyTemplate s items).2 = none ↔
      (catalogueOf s.templates).Accepts s.phoneNumbers (items.map Prod.snd) := by
  induction items generalizing s with
  | nil => exact ⟨fun _ => trivial, fun _ => rfl⟩
  | cons x rest ih =>
      obtain ⟨newId, update⟩ := x
      rw [List.map_cons, List.nodup_cons] at hdistinct
      rw [List.map_cons, Catalogue.Accepts]
      by_cases hone : ∃ tenantId, PhoneNumbers.owners s.phoneNumbers update.wabaId = [tenantId]
      · obtain ⟨tenantId, hone⟩ := hone
        have hthe : ∀ P : Uuid → Prop, (∃ other,
            PhoneNumbers.owners s.phoneNumbers update.wabaId = [other] ∧ P other) ↔ P tenantId := by
          intro P
          simp [hone]
        rw [hthe]
        obtain ⟨hiff, hwrites⟩ := applyTemplate_of_owner env hone
          (hfree _ List.mem_cons_self)
        by_cases hnone : (env.applyTemplate s (newId, update)).2 = none
        · obtain ⟨hphones, hwritten⟩ := hwrites hnone
          rw [forEach_cons_of_none hnone, ih hdistinct.2, hwritten.catalogue, hphones]
          · exact ⟨fun h => ⟨hiff.mp hnone, h⟩, fun h => h.2⟩
          · intro y hy
            refine hwritten.free _ (fun heq => hdistinct.1 ?_) (hfree y (List.mem_cons_of_mem _ hy))
            exact heq ▸ List.mem_map_of_mem hy
        · rw [forEach_cons_of_some hnone]
          exact ⟨fun h => absurd h hnone, fun h => absurd (hiff.mpr h.1) hnone⟩
      · push Not at hone
        have hthrows := applyTemplate_ne_none env newId hone
        rw [forEach_cons_of_some hthrows]
        refine ⟨fun h => absurd h hthrows, ?_⟩
        rintro ⟨tenantId, h, -⟩
        exact absurd h (hone tenantId)

/-- **The template updates** of a payload are all applied exactly when the catalogue accepts them. -/
theorem processTemplates_iff (hfresh : env.Fresh db) :
    (env.processTemplates db payload).2 = none ↔
      (catalogueOf db.templates).Accepts db.phoneNumbers (extractUpdates payload) := by
  have hupdates : ((extractUpdates payload).mapIdx fun i update =>
      (env.templateId i, update)).map Prod.snd = extractUpdates payload := by
    refine List.ext_getElem (by simp) fun i hi hi' => ?_
    simp
  unfold processTemplates
  rw [forEach_applyTemplate_iff, hupdates]
  · refine List.nodup_iff_injective_getElem.mpr fun i j hij => ?_
    simp only [List.getElem_map, List.getElem_mapIdx] at hij
    exact Fin.ext (hfresh.templatesDistinct hij)
  · intro x hx
    obtain ⟨i, hi, rfl⟩ := List.mem_mapIdx.mp hx
    exact hfresh.templatesFree i

/-- **The template updates** end as they would have before the messages were stored, and touch neither
messages nor events. -/
theorem processTemplates_spec (hphones : s.phoneNumbers = db.phoneNumbers)
    (htemplates : s.templates = db.templates) :
    (env.processTemplates s payload).2 = (env.processTemplates db payload).2 ∧
      (env.processTemplates s payload).1.messages = s.messages ∧
      (env.processTemplates s payload).1.webhookEvents = s.webhookEvents := by
  refine ⟨(forEach_congr (R := fun s s' => s.phoneNumbers = s'.phoneNumbers ∧
    s.templates = s'.templates) ⟨hphones, htemplates⟩ fun s s' x h =>
      applyTemplate_congr h.1 h.2 x).1, ?_⟩
  refine forEach_invariant (P := fun x : Db => x.messages = s.messages ∧
    x.webhookEvents = s.webhookEvents) ⟨rfl, rfl⟩ fun x item _ hx => ?_
  obtain ⟨hmessages, hevents⟩ := applyTemplate_frame env x item
  exact ⟨hmessages.trans hx.1, hevents.trans hx.2⟩

end EventEnvironment

end ApiWhatsApp
