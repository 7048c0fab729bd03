import ApiWhatsApp.Templates.Pages

/-!
# Synchronising the template catalogue

`sync` of `templates/templates.service.ts`: the whole catalogue is read first, and one transaction
then upserts every template of it under its name and language, and marks the others `DELETED`.

* `SyncedTemplate` is the row with all its columns; `store` writes those of a template into it.
* `Mirrors` is what the table should be afterwards: of the rows of the tenant and the WABA exactly
  those whose provider id is in the catalogue are live, with the remote values.
* The rows are unique by provider id as well. `Placed` names the tables on which this does no harm:
  a local row with the id of a remote template has the name and language of that template, or of
  one that comes before it in the catalogue and gives the row its own id.
* **`isSome_upsertAll_iff`** — the upserts succeed exactly on these tables.
* **`sync_reaches_catalogue`** — the result. `sync_renamed` is a template whose language a webhook
  has spelled differently: its sync fails, and so does every later one.

The audit log, and failures of the database that have nothing to do with the rows, are left out.
-/

namespace ApiWhatsApp

open Library

/-! ## Rows -/

/-- A row of `MessageTemplate`, with the columns that only the synchronisation writes. -/
structure SyncedTemplate extends MessageTemplate where
  components : Option Json
  qualityScore : Option Json
  rejectionReason : Option String
  providerPayload : Option Json
  lastSyncedAt : Option Time
  createdAt : Time
  updatedAt : Time

/-- A template is known by its id, by that of Meta, and by its name and language in the account. -/
instance : Keyed SyncedTemplate TemplateKey where
  keys r := Keyed.keys r.toMessageTemplate

namespace SyncedTemplate

/-- The columns of a template; a column that is `undefined` keeps its value. -/
def store (template : MetaMessageTemplate) (r : SyncedTemplate) : SyncedTemplate :=
  { r with
    providerTemplateId := template.id
    category := template.category
    status := toUpperCase template.status
    components := (template.components.map Json.arr).or r.components
    qualityScore := template.qualityScore.or r.qualityScore
    rejectionReason := template.rejectionReason
    providerPayload := some template.raw }

/-- The times that every write of the synchronisation sets. -/
def stamp (syncedAt now : Time) (r : SyncedTemplate) : SyncedTemplate :=
  { r with lastSyncedAt := some syncedAt, updatedAt := now }

/-- The row without these times. -/
def untimed (r : SyncedTemplate) : SyncedTemplate := { r with lastSyncedAt := none, updatedAt := 0 }

/-- A row before the columns of its template are set. -/
def blank (newId tenantId : Uuid) (wabaId name language : String) (now : Time) :
    SyncedTemplate where
  id := newId
  tenantId := tenantId
  wabaId := wabaId
  providerTemplateId := ""
  name := name
  language := language
  category := none
  status := ""
  components := none
  qualityScore := none
  rejectionReason := none
  providerPayload := none
  lastSyncedAt := none
  createdAt := now
  updatedAt := now

end SyncedTemplate

/-! ## The service -/

/-- What one call of `sync` meets outside of the table. -/
structure SyncEnvironment where
  client : MetaTemplateClient
  /-- The rest of the database. -/
  db : Db
  syncedAt : Time
  /-- The ids that the statements generate, and the times at which they run. -/
  newId : ℕ → Uuid
  clock : ℕ → Time
  /-- Prisma and the database take the values of the template: no `null` for a JSON column, no
  character that a text column cannot hold. -/
  accepts : MetaMessageTemplate → Bool

/-- What `sync` returns. -/
structure SyncResult where
  wabaId : String
  senderId : Uuid
  synced : ℕ
  markedDeleted : ℕ
  syncedAt : Time

namespace SyncEnvironment

variable (env : SyncEnvironment)

/-- The `upsert` of a template; `none` is a unique violation, or a value that is not taken. -/
def upsert (tenantId : Uuid) (wabaId : String) (i : ℕ) (t : Table SyncedTemplate)
    (template : MetaMessageTemplate) : Option (Table SyncedTemplate) :=
  if env.accepts template then
    match t.find (.identity tenantId wabaId template.name template.language) with
    | some row =>
        t.update? (.id row.id) fun r => (r.store template).stamp env.syncedAt (env.clock i)
    | none =>
        t.insert? (((SyncedTemplate.blank (env.newId i) tenantId wabaId template.name
          template.language (env.clock i)).store template).stamp env.syncedAt (env.clock i))
  else none

/-- The loop of the transaction. -/
def upsertAll (tenantId : Uuid) (wabaId : String) :
    ℕ → Table SyncedTemplate → List MetaMessageTemplate → Option (Table SyncedTemplate)
  | _, t, [] => some t
  | i, t, template :: rest =>
      (env.upsert tenantId wabaId i t template).bind fun t' =>
        upsertAll tenantId wabaId (i + 1) t' rest

/-- The `where` of the `updateMany`. -/
def isMissing (tenantId : Uuid) (wabaId : String) (providerTemplateIds : List String)
    (r : SyncedTemplate) : Bool :=
  r.tenantId = tenantId && r.wabaId = wabaId && r.status ≠ "DELETED" &&
    r.providerTemplateId ∉ providerTemplateIds

/-- The `updateMany` of the transaction; it comes after `i` other statements. -/
def markDeleted (tenantId : Uuid) (wabaId : String) (i : ℕ) (providerTemplateIds : List String)
    (t : Table SyncedTemplate) : Table SyncedTemplate :=
  t.updateWhere (isMissing tenantId wabaId providerTemplateIds)
    (fun r => SyncedTemplate.stamp env.syncedAt (env.clock i) { r with status := "DELETED" })
    fun _ => rfl

/-- Source: `sync`. Next to the result stands the table that it leaves. -/
def sync (tenantId : Uuid) (senderId : Option Uuid) (t : Table SyncedTemplate) :
    Except SyncError SyncResult × Table SyncedTemplate :=
  match env.client.listTemplates env.db tenantId senderId with
  | .error error => (.error error, t)
  | .ok remote =>
      let providerTemplateIds := remote.templates.map MetaMessageTemplate.id
      match t.rows.find? fun r =>
          r.providerTemplateId ∈ providerTemplateIds && r.tenantId ≠ tenantId with
      | some collision =>
          (.error (.http (.conflict ("Meta template " ++ collision.providerTemplateId ++
            " is already associated with another tenant"))), t)
      | none =>
          match env.upsertAll tenantId remote.wabaId 0 t remote.templates with
          | none => (.error .prisma, t)
          | some upserted =>
              (.ok
                { wabaId := remote.wabaId
                  senderId := remote.senderId
                  synced := remote.templates.length
                  markedDeleted := upserted.rows.countP
                    (isMissing tenantId remote.wabaId providerTemplateIds)
                  syncedAt := env.syncedAt },
                env.markDeleted tenantId remote.wabaId remote.templates.length
                  providerTemplateIds upserted)

end SyncEnvironment

/-! ## One upsert -/

namespace SyncedTemplate

/-- The row of the template: that of its name and language. -/
def IsFor (tenantId : Uuid) (wabaId : String) (template : MetaMessageTemplate)
    (r : SyncedTemplate) : Prop :=
  r.tenantId = tenantId ∧ r.wabaId = wabaId ∧ r.name = template.name ∧
    r.language = template.language

/-- The row of the template, with its values. -/
def UpToDate (tenantId : Uuid) (wabaId : String) (template : MetaMessageTemplate)
    (r : SyncedTemplate) : Prop :=
  r.IsFor tenantId wabaId template ∧ r.store template = r

variable {r : SyncedTemplate} {tenantId : Uuid} {wabaId : String} {template : MetaMessageTemplate}

/-- The id is a key of its row only. -/
theorem id_mem_keys {id : Uuid} : TemplateKey.id id ∈ Keyed.keys r ↔ r.id = id := by
  simp [Keyed.keys, eq_comm]

/-- The id of Meta is a key of its row only. -/
theorem providerTemplateId_mem_keys {value : String} :
    TemplateKey.providerTemplateId value ∈ Keyed.keys r ↔ r.providerTemplateId = value := by
  simp [Keyed.keys, eq_comm]

/-- The name and the language are keys of the row for the template. -/
theorem identity_mem_keys :
    TemplateKey.identity tenantId wabaId template.name template.language ∈ Keyed.keys r ↔
      r.IsFor tenantId wabaId template := by
  simp [Keyed.keys, IsFor, eq_comm]

/-- Columns that are set a second time stay as they are. -/
theorem store_store (template : MetaMessageTemplate) (r : SyncedTemplate) :
    (r.store template).store template = r.store template := by
  simp only [store]
  cases template.components <;> cases template.qualityScore <;> rfl

/-- What is stored and stamped is up to date. -/
theorem IsFor.upToDate (h : r.IsFor tenantId wabaId template) (syncedAt now : Time) :
    ((r.store template).stamp syncedAt now).UpToDate tenantId wabaId template := by
  refine ⟨h, ?_⟩
  have hstore : ((r.store template).stamp syncedAt now).store template =
      ((r.store template).store template).stamp syncedAt now := rfl
  rw [hstore, store_store]

/-- A row that is up to date has the id of Meta. -/
theorem UpToDate.providerTemplateId (h : r.UpToDate tenantId wabaId template) :
    r.providerTemplateId = template.id := by
  rw [← h.2]
  rfl

/-- A row that is up to date has the status, in upper case. -/
theorem UpToDate.status (h : r.UpToDate tenantId wabaId template) :
    r.status = toUpperCase template.status := by
  rw [← h.2]
  rfl

end SyncedTemplate

namespace SyncEnvironment

open SyncedTemplate

variable {env : SyncEnvironment} {tenantId : Uuid} {wabaId : String} {i : ℕ}
  {t t' : Table SyncedTemplate} {template : MetaMessageTemplate}
  {templates : List MetaMessageTemplate}

/-- The rows after an upsert: the row of the template, up to date, and the rows of all others. -/
theorem mem_upsert (h : env.upsert tenantId wabaId i t template = some t') :
    ∃ row, row.UpToDate tenantId wabaId template ∧
      (row.id = env.newId i ∨ ∃ r ∈ t.rows, r.id = row.id) ∧
      ∀ r, r ∈ t'.rows ↔ r = row ∨ r ∈ t.rows ∧ ¬r.IsFor tenantId wabaId template := by
  unfold upsert at h
  split_ifs at h
  split at h
  · next old hfind =>
      obtain ⟨hold, hkey⟩ := t.find_eq_some_iff.mp hfind
      have hfor := identity_mem_keys.mp hkey
      have honly : ∀ r ∈ t.rows, (TemplateKey.id old.id ∈ Keyed.keys r ↔ r = old) ∧
          (r.IsFor tenantId wabaId template ↔ r = old) := by
        intro r hr
        refine ⟨⟨fun hid => ?_, ?_⟩, ⟨fun hrfor => ?_, ?_⟩⟩
        · exact t.eq_of_mem_keys hr hold hid (id_mem_keys.mpr rfl)
        · rintro rfl
          exact id_mem_keys.mpr rfl
        · exact t.eq_of_mem_keys hr hold (identity_mem_keys.mpr hrfor) hkey
        · rintro rfl
          exact hfor
      refine ⟨_, hfor.upToDate env.syncedAt (env.clock i), .inr ⟨old, hold, rfl⟩, fun r => ?_⟩
      rw [Table.rows_of_update? h, List.mem_map]
      constructor
      · rintro ⟨a, ha, rfl⟩
        split_ifs with hid
        · left
          rw [(honly a ha).1.mp hid]
        · right
          rw [(honly a ha).2]
          exact ⟨ha, fun heq => hid ((honly a ha).1.mpr heq)⟩
      · rintro (rfl | ⟨hr, hnot⟩)
        · exact ⟨old, hold, if_pos (id_mem_keys.mpr rfl)⟩
        · refine ⟨r, hr, if_neg fun hid => hnot ?_⟩
          exact (honly r hr).2.mpr ((honly r hr).1.mp hid)
  · next hfind =>
      have hnone : ∀ r ∈ t.rows, ¬r.IsFor tenantId wabaId template := fun r hr hfor =>
        t.find_eq_none_iff.mp hfind r hr (identity_mem_keys.mpr hfor)
      have hfor : (blank (env.newId i) tenantId wabaId template.name template.language
          (env.clock i)).IsFor tenantId wabaId template := ⟨rfl, rfl, rfl, rfl⟩
      refine ⟨_, hfor.upToDate env.syncedAt (env.clock i), .inl rfl, fun r => ?_⟩
      rw [Table.rows_of_insert? h, List.mem_cons]
      constructor
      · rintro (rfl | hr)
        · exact .inl rfl
        · exact .inr ⟨hr, hnone r hr⟩
      · rintro (rfl | ⟨hr, -⟩)
        · exact .inl rfl
        · exact .inr hr

/-- **One upsert** succeeds when the values are taken and no other row has the provider id. -/
theorem isSome_upsert_iff (hfresh : ∀ r ∈ t.rows, r.id ≠ env.newId i) :
    (env.upsert tenantId wabaId i t template).isSome = true ↔
      env.accepts template = true ∧ ∀ r ∈ t.rows, r.providerTemplateId = template.id →
        r.IsFor tenantId wabaId template := by
  unfold upsert
  split_ifs with haccepts
  · simp only [haccepts, true_and]
    split
    · next old hfind =>
        obtain ⟨hold, hkey⟩ := t.find_eq_some_iff.mp hfind
        have hfor := identity_mem_keys.mp hkey
        have hid : t.find (.id old.id) = some old :=
          t.find_eq_some_iff.mpr ⟨hold, id_mem_keys.mpr rfl⟩
        rw [t.isSome_update?_iff hid]
        constructor
        · intro hfree r hr hprovider
          by_contra hnot
          refine hfree r hr (fun hrid => hnot ?_) (.providerTemplateId template.id)
            (providerTemplateId_mem_keys.mpr rfl) (providerTemplateId_mem_keys.mpr hprovider)
          rw [t.eq_of_mem_keys hr hold hrid (id_mem_keys.mpr rfl)]
          exact hfor
        · intro hfree r hr hrid k hk hkr
          have hne : r ≠ old := fun heq => hrid (id_mem_keys.mpr (by rw [heq]))
          -- The new row has the id and the identity of the old one, and the new provider id.
          have hkeys : k = .id old.id ∨ k = .providerTemplateId template.id ∨
              k ∈ Keyed.keys old := by
            rcases List.mem_cons.mp hk with rfl | hk
            · exact .inl rfl
            · rcases List.mem_cons.mp hk with rfl | hk
              · exact .inr (.inl rfl)
              · exact .inr (.inr (List.mem_cons_of_mem _ (List.mem_cons_of_mem _ hk)))
          rcases hkeys with rfl | rfl | hk
          · exact hrid hkr
          · have hrfor := hfree r hr (providerTemplateId_mem_keys.mp hkr)
            exact hne (t.eq_of_mem_keys hr hold (identity_mem_keys.mpr hrfor) hkey)
          · exact hne (t.eq_of_mem_keys hr hold hkr hk)
    · next hfind =>
        have hnone : ∀ r ∈ t.rows, ¬r.IsFor tenantId wabaId template := fun r hr hfor =>
          t.find_eq_none_iff.mp hfind r hr (identity_mem_keys.mpr hfor)
        rw [← not_iff_not, Bool.not_eq_true, Option.isSome_eq_false_iff, Option.isNone_iff_eq_none,
          t.insert?_eq_none_iff]
        constructor
        · rintro ⟨k, hk, hfound⟩ hfree
          obtain ⟨r, hr⟩ := Option.ne_none_iff_exists'.mp hfound
          obtain ⟨hmem, hkr⟩ := t.find_eq_some_iff.mp hr
          rcases List.mem_cons.mp hk with rfl | hk
          · exact hfresh r hmem (id_mem_keys.mp hkr)
          · rcases List.mem_cons.mp hk with rfl | hk
            · exact hnone r hmem (hfree r hmem (providerTemplateId_mem_keys.mp hkr))
            · rw [List.mem_singleton.mp hk] at hkr
              exact hnone r hmem (identity_mem_keys.mp hkr)
        · intro hfree
          push Not at hfree
          obtain ⟨r, hr, hprovider, -⟩ := hfree
          refine ⟨.providerTemplateId template.id, providerTemplateId_mem_keys.mpr rfl, ?_⟩
          rw [t.find_eq_some_iff.mpr ⟨hr, providerTemplateId_mem_keys.mpr hprovider⟩]
          exact Option.some_ne_none r
  · simp [haccepts]

/-! ## All of them -/

/-- A local row with the id of a remote template has the name and language of that template, or of
one before it in the catalogue, whose upsert gives the row another id. -/
def Placed (tenantId : Uuid) (wabaId : String) (t : Table SyncedTemplate)
    (templates : List MetaMessageTemplate) : Prop :=
  ∀ before template after, templates = before ++ template :: after →
    ∀ r ∈ t.rows, r.providerTemplateId = template.id →
      ∃ other ∈ before ++ [template], r.IsFor tenantId wabaId other

/-- An upsert that succeeds leaves the rest as well placed as it was. -/
theorem placed_upsert_iff (h : env.upsert tenantId wabaId i t template = some t')
    (hid : template.id ∉ templates.map MetaMessageTemplate.id)
    (hfree : ∀ r ∈ t.rows, r.providerTemplateId = template.id →
      r.IsFor tenantId wabaId template) :
    Placed tenantId wabaId t' templates ↔ Placed tenantId wabaId t (template :: templates) := by
  obtain ⟨row, hrow, -, hmem⟩ := mem_upsert h
  constructor
  · intro hplaced before other after heq r hr hprovider
    rcases before with _ | ⟨first, before⟩
    · obtain ⟨rfl, -⟩ := List.cons.inj heq
      exact ⟨template, List.mem_singleton_self template, hfree r hr hprovider⟩
    · obtain ⟨rfl, hrest⟩ := List.cons.inj heq
      by_cases hfor : r.IsFor tenantId wabaId template
      · exact ⟨template, List.mem_cons_self, hfor⟩
      · obtain ⟨earlier, hearlier, hrfor⟩ :=
          hplaced before other after hrest r ((hmem r).mpr (.inr ⟨hr, hfor⟩)) hprovider
        exact ⟨earlier, List.mem_cons_of_mem _ hearlier, hrfor⟩
  · intro hplaced before other after heq r hr hprovider
    rcases (hmem r).mp hr with rfl | ⟨hr, hnot⟩
    · -- The row of the template has its id, and no other template has.
      rw [hrow.providerTemplateId] at hprovider
      refine absurd (List.mem_map.mpr ⟨other, ?_, hprovider.symm⟩) hid
      rw [heq]
      exact List.mem_append_right before List.mem_cons_self
    · obtain ⟨earlier, hearlier, hrfor⟩ :=
        hplaced (template :: before) other after (by rw [heq]; rfl) r hr hprovider
      rcases List.mem_cons.mp hearlier with rfl | hearlier
      · exact absurd hrfor hnot
      · exact ⟨earlier, hearlier, hrfor⟩

/-- **The upserts** succeed exactly when the database takes the values and the rows are placed. -/
theorem isSome_upsertAll_iff (hids : (templates.map MetaMessageTemplate.id).Nodup)
    (hnewId : Function.Injective env.newId)
    (hfresh : ∀ j, i ≤ j → ∀ r ∈ t.rows, r.id ≠ env.newId j) :
    (env.upsertAll tenantId wabaId i t templates).isSome = true ↔
      (∀ template ∈ templates, env.accepts template = true) ∧
        Placed tenantId wabaId t templates := by
  induction templates generalizing i t with
  | nil =>
      refine ⟨fun _ => ⟨fun template htemplate => absurd htemplate List.not_mem_nil, ?_⟩,
        fun _ => rfl⟩
      intro before template after heq
      exact absurd heq (by simp)
  | cons template rest ih =>
      rw [List.map_cons, List.nodup_cons] at hids
      have hone : (env.upsert tenantId wabaId i t template).isSome = true ↔
          env.accepts template = true ∧ ∀ r ∈ t.rows, r.providerTemplateId = template.id →
            r.IsFor tenantId wabaId template := isSome_upsert_iff (hfresh i le_rfl)
      rw [upsertAll]
      cases hupsert : env.upsert tenantId wabaId i t template with
      | none =>
          rw [hupsert] at hone
          refine ⟨fun h => absurd h Bool.false_ne_true, fun h => ?_⟩
          refine absurd (hone.mpr ⟨h.1 template List.mem_cons_self, ?_⟩) Bool.false_ne_true
          intro r hr hprovider
          obtain ⟨other, hother, hfor⟩ := h.2 [] template rest rfl r hr hprovider
          rw [List.mem_singleton.mp hother] at hfor
          exact hfor
      | some t' =>
          rw [hupsert] at hone
          obtain ⟨haccepts, hfree⟩ := hone.mp rfl
          obtain ⟨row, -, hrowId, hmem⟩ := mem_upsert hupsert
          have hfresh' : ∀ j, i + 1 ≤ j → ∀ r ∈ t'.rows, r.id ≠ env.newId j := by
            intro j hj r hr
            rcases (hmem r).mp hr with rfl | ⟨hr, -⟩
            · rcases hrowId with hnew | ⟨old, hold, hsame⟩
              · rw [hnew]
                exact fun heq => absurd (hnewId heq) (Nat.ne_of_lt hj)
              · rw [← hsame]
                exact hfresh j (Nat.le_of_succ_le hj) old hold
            · exact hfresh j (Nat.le_of_succ_le hj) r hr
          rw [Option.bind_some, ih hids.2 hfresh', placed_upsert_iff hupsert hids.1 hfree,
            List.forall_mem_cons]
          exact ⟨fun h => ⟨⟨haccepts, h.1⟩, h.2⟩, fun h => ⟨h.1.2, h.2⟩⟩

/-- Every template has a row with its values. -/
def Current (tenantId : Uuid) (wabaId : String) (t : Table SyncedTemplate)
    (templates : List MetaMessageTemplate) : Prop :=
  ∀ template ∈ templates, ∃ row ∈ t.rows, row.UpToDate tenantId wabaId template

/-- After the upserts every template has its row, and the rows of no template are still there. -/
theorem current_upsertAll
    (hnames : (templates.map fun template => (template.name, template.language)).Nodup)
    (h : env.upsertAll tenantId wabaId i t templates = some t') :
    Current tenantId wabaId t' templates ∧
      ∀ r ∈ t.rows, (∀ template ∈ templates, ¬r.IsFor tenantId wabaId template) → r ∈ t'.rows := by
  induction templates generalizing i t with
  | nil =>
      cases h
      exact ⟨fun template htemplate => absurd htemplate List.not_mem_nil, fun r hr _ => hr⟩
  | cons template rest ih =>
      rw [List.map_cons, List.nodup_cons] at hnames
      obtain ⟨u, hupsert, hrest⟩ := Option.bind_eq_some_iff.mp h
      obtain ⟨row, hrow, -, hmem⟩ := mem_upsert hupsert
      obtain ⟨hcurrent, hkept⟩ := ih hnames.2 hrest
      refine ⟨fun other hother => ?_, fun r hr hnone => ?_⟩
      · rcases List.mem_cons.mp hother with rfl | hother
        · refine ⟨row, hkept row ((hmem row).mpr (.inl rfl)) fun later hlater hfor => ?_, hrow⟩
          -- A later template has another name or language.
          refine hnames.1 (List.mem_map.mpr ⟨later, hlater, ?_⟩)
          rw [← hfor.2.2.1, ← hfor.2.2.2, hrow.1.2.2.1, hrow.1.2.2.2]
        · exact hcurrent other hother
      · refine hkept r ((hmem r).mpr (.inr ⟨hr, hnone template List.mem_cons_self⟩)) ?_
        exact fun later hlater => hnone later (List.mem_cons_of_mem _ hlater)

/-! ## The catalogue in the table -/

/-- **The table mirrors the catalogue**: of the rows of the tenant and the WABA, exactly those with
the id of a remote template are live, they have its values, and there is one for each. -/
structure Mirrors (tenantId : Uuid) (wabaId : String) (templates : List MetaMessageTemplate)
    (t : Table SyncedTemplate) : Prop where
  live_iff : ∀ r ∈ t.rows, r.tenantId = tenantId → r.wabaId = wabaId →
    (r.status ≠ "DELETED" ↔ r.providerTemplateId ∈ templates.map MetaMessageTemplate.id)
  values : ∀ r ∈ t.rows, r.tenantId = tenantId → r.wabaId = wabaId → ∀ template ∈ templates,
    r.providerTemplateId = template.id →
      r.name = template.name ∧ r.language = template.language ∧ r.status = template.status
  complete : ∀ template ∈ templates, ∃ r ∈ t.rows, r.tenantId = tenantId ∧ r.wabaId = wabaId ∧
    r.providerTemplateId = template.id

/-- A row with the id of a template is its row. -/
theorem Current.upToDate (h : Current tenantId wabaId t templates) {r : SyncedTemplate}
    (hr : r ∈ t.rows) (htemplate : template ∈ templates)
    (hprovider : r.providerTemplateId = template.id) : r.UpToDate tenantId wabaId template := by
  obtain ⟨row, hrow, hupToDate⟩ := h template htemplate
  have hsame : r = row := t.eq_of_mem_keys hr hrow (providerTemplateId_mem_keys.mpr hprovider)
    (providerTemplateId_mem_keys.mpr hupToDate.providerTemplateId)
  rw [hsame]
  exact hupToDate

/-- What was seen is not missing. -/
theorem not_isMissing {r : SyncedTemplate} {ids : List String} (h : r.providerTemplateId ∈ ids) :
    isMissing tenantId wabaId ids r = false := by
  simp [isMissing, h]

/-- Marking the others leaves the rows current. -/
theorem current_markDeleted (h : Current tenantId wabaId t templates) :
    Current tenantId wabaId (env.markDeleted tenantId wabaId i
      (templates.map MetaMessageTemplate.id) t) templates := by
  intro template htemplate
  obtain ⟨row, hrow, hupToDate⟩ := h template htemplate
  refine ⟨row, List.mem_map.mpr ⟨row, hrow, if_neg ?_⟩, hupToDate⟩
  rw [not_isMissing (List.mem_map.mpr ⟨template, htemplate, hupToDate.providerTemplateId.symm⟩)]
  exact Bool.false_ne_true

/-- With every template in its row, marking the others as deleted completes the mirror. -/
theorem Current.mirrors (h : Current tenantId wabaId t templates)
    (hstatus : ∀ template ∈ templates, toUpperCase template.status = template.status)
    (hlive : ∀ template ∈ templates, template.status ≠ "DELETED") :
    Mirrors tenantId wabaId templates (env.markDeleted tenantId wabaId i
      (templates.map MetaMessageTemplate.id) t) := by
  have hcurrent : Current tenantId wabaId (env.markDeleted tenantId wabaId i
      (templates.map MetaMessageTemplate.id) t) templates := current_markDeleted h
  refine ⟨fun r hr htenant hwaba => ⟨fun hne => ?_, fun hid => ?_⟩, ?_, ?_⟩
  · by_contra hmissing
    obtain ⟨a, -, heq⟩ := List.mem_map.mp hr
    split_ifs at heq with hsel
    · rw [← heq] at hne
      exact hne rfl
    · rw [heq] at hsel
      exact hsel (by simp [isMissing, htenant, hwaba, hne, hmissing])
  · obtain ⟨template, htemplate, hprovider⟩ := List.mem_map.mp hid
    rw [(hcurrent.upToDate hr htemplate hprovider.symm).status, hstatus template htemplate]
    exact hlive template htemplate
  · intro r hr _ _ template htemplate hprovider
    have hupToDate := hcurrent.upToDate hr htemplate hprovider
    exact ⟨hupToDate.1.2.2.1, hupToDate.1.2.2.2,
      hupToDate.status.trans (hstatus template htemplate)⟩
  · intro template htemplate
    obtain ⟨row, hrow, hupToDate⟩ := hcurrent template htemplate
    exact ⟨row, hrow, hupToDate.1.1, hupToDate.1.2.1, hupToDate.providerTemplateId⟩

/-! ## A second time -/

/-- Rows that differ in the times only are up to date together. -/
theorem upToDate_of_untimed {r r' : SyncedTemplate} (h : r'.untimed = r.untimed)
    (hr : r.UpToDate tenantId wabaId template) : r'.UpToDate tenantId wabaId template := by
  have hcopy : r' = { r with lastSyncedAt := r'.lastSyncedAt, updatedAt := r'.updatedAt } := by
    have hback := congrArg
      (fun a => { a with lastSyncedAt := r'.lastSyncedAt, updatedAt := r'.updatedAt }) h
    exact hback
  rw [hcopy]
  refine ⟨hr.1, ?_⟩
  have hstore := congrArg
    (fun a => { a with lastSyncedAt := r'.lastSyncedAt, updatedAt := r'.updatedAt }) hr.2
  exact hstore

/-- The time of a synchronisation does not matter. -/
theorem Current.of_untimed (h : Current tenantId wabaId t templates)
    (hrows : t'.rows.map untimed = t.rows.map untimed) :
    Current tenantId wabaId t' templates := by
  intro template htemplate
  obtain ⟨row, hrow, hupToDate⟩ := h template htemplate
  have hmem : row.untimed ∈ t'.rows.map untimed := by
    rw [hrows]
    exact List.mem_map_of_mem hrow
  obtain ⟨row', hrow', heq⟩ := List.mem_map.mp hmem
  exact ⟨row', hrow', upToDate_of_untimed heq hupToDate⟩

/-- The upsert of a template whose row is up to date changes its times. -/
theorem upsert_of_upToDate (haccepts : env.accepts template = true)
    (h : ∃ row ∈ t.rows, row.UpToDate tenantId wabaId template) :
    ∃ t', env.upsert tenantId wabaId i t template = some t' ∧
      t'.rows.map untimed = t.rows.map untimed := by
  obtain ⟨row, hrow, hupToDate⟩ := h
  have hidentity := identity_mem_keys.mpr hupToDate.1
  have hfind : t.find (.identity tenantId wabaId template.name template.language) = some row :=
    t.find_eq_some_iff.mpr ⟨hrow, hidentity⟩
  have hid : t.find (.id row.id) = some row :=
    t.find_eq_some_iff.mpr ⟨hrow, id_mem_keys.mpr rfl⟩
  have hkeys : Keyed.keys ((row.store template).stamp env.syncedAt (env.clock i)) =
      Keyed.keys row := by
    rw [hupToDate.2]
    rfl
  obtain ⟨t', ht'⟩ := Option.isSome_iff_exists.mp ((t.isSome_update?_iff
      (f := fun r => (r.store template).stamp env.syncedAt (env.clock i)) hid).mpr (by
    intro r hr hrid k hk hkr
    rw [hkeys] at hk
    refine hrid (id_mem_keys.mpr ?_)
    rw [t.eq_of_mem_keys hr hrow hkr hk]))
  refine ⟨t', ?_, ?_⟩
  · simp only [upsert, haccepts, if_true, hfind]
    exact ht'
  · rw [Table.rows_of_update? ht', List.map_map]
    refine List.map_congr_left fun r hr => ?_
    rw [Function.comp_apply]
    split_ifs with hrid
    · rw [t.eq_of_mem_keys hr hrow hrid (id_mem_keys.mpr rfl), hupToDate.2]
      rfl
    · rfl

/-- Where all rows are current, everything is stored again. -/
theorem upsertAll_of_current (haccepts : ∀ template ∈ templates, env.accepts template = true)
    (h : Current tenantId wabaId t templates) :
    ∃ t', env.upsertAll tenantId wabaId i t templates = some t' ∧
      t'.rows.map untimed = t.rows.map untimed := by
  induction templates generalizing i t with
  | nil => exact ⟨t, rfl, rfl⟩
  | cons template rest ih =>
      obtain ⟨u, hupsert, hu⟩ := upsert_of_upToDate (i := i)
        (haccepts template List.mem_cons_self) (h template List.mem_cons_self)
      have hrest : Current tenantId wabaId u rest := Current.of_untimed
        (fun later hlater => h later (List.mem_cons_of_mem _ hlater)) hu
      obtain ⟨t', ht', hrows⟩ := ih (i := i + 1)
        (fun later hlater => haccepts later (List.mem_cons_of_mem _ hlater)) hrest
      refine ⟨t', ?_, hrows.trans hu⟩
      rw [upsertAll, hupsert]
      exact ht'

/-- In a mirror there is nothing to mark. -/
theorem Mirrors.markDeleted (h : Mirrors tenantId wabaId templates t)
    (hrows : t'.rows.map untimed = t.rows.map untimed) :
    (env.markDeleted tenantId wabaId i (templates.map MetaMessageTemplate.id) t').rows =
      t'.rows := by
  refine (List.map_congr_left fun r hr => ?_).trans (List.map_id _)
  refine if_neg fun hmissing => ?_
  have hmem : r.untimed ∈ t.rows.map untimed := by
    rw [← hrows]
    exact List.mem_map_of_mem hr
  obtain ⟨a, ha, heq⟩ := List.mem_map.mp hmem
  have hmissing' : isMissing tenantId wabaId (templates.map MetaMessageTemplate.id)
      a.untimed = true := by
    rw [heq]
    exact hmissing
  simp only [isMissing, Bool.and_eq_true, decide_eq_true_eq] at hmissing'
  obtain ⟨⟨⟨htenant, hwaba⟩, hstatus⟩, hnot⟩ := hmissing'
  exact hnot ((h.live_iff a ha htenant hwaba).mp hstatus)

/-! ## The result -/

variable {senderId : Option Uuid} {context : MetaWabaContext}

/-- The synchronisation succeeds and leaves a mirror, and a second one with the same catalogue
changes nothing but the times. -/
def Syncs (env : SyncEnvironment) (tenantId : Uuid) (senderId : Option Uuid)
    (t : Table SyncedTemplate) (wabaId : String) (templates : List MetaMessageTemplate) : Prop :=
  ∃ result t', env.sync tenantId senderId t = (.ok result, t') ∧
    Mirrors tenantId wabaId templates t' ∧
    ∀ (again : SyncEnvironment) (senderId' : Option Uuid) (context : MetaWabaContext),
      again.accepts = env.accepts → context.wabaId = wabaId →
      again.client.Offers again.db tenantId senderId' wellFormedPaging context templates →
      ∃ result' t'', again.sync tenantId senderId' t' = (.ok result', t'') ∧
        t''.rows.map untimed = t'.rows.map untimed

/-- What the table and the catalogue have to meet: no remote template is `DELETED` itself, the
database takes the values, and the rows are placed. -/
structure Syncable (env : SyncEnvironment) (tenantId : Uuid) (wabaId : String)
    (t : Table SyncedTemplate) (templates : List MetaMessageTemplate) : Prop where
  live : ∀ template ∈ templates, template.status ≠ "DELETED"
  accepted : ∀ template ∈ templates, env.accepts template = true
  placed : Placed tenantId wabaId t templates

/-- Without a collision, the upserts decide. -/
theorem sync_eq (hoffers : env.client.Offers env.db tenantId senderId wellFormedPaging context
      templates)
    (howned : ∀ r ∈ t.rows, r.providerTemplateId ∈ templates.map MetaMessageTemplate.id →
      r.tenantId = tenantId) :
    (env.upsertAll tenantId context.wabaId 0 t templates = none ∧
        env.sync tenantId senderId t = (.error .prisma, t)) ∨
      ∃ result upserted, env.upsertAll tenantId context.wabaId 0 t templates = some upserted ∧
        env.sync tenantId senderId t = (.ok result, env.markDeleted tenantId context.wabaId
          templates.length (templates.map MetaMessageTemplate.id) upserted) := by
  have hcollision : (t.rows.find? fun r =>
      r.providerTemplateId ∈ templates.map MetaMessageTemplate.id && r.tenantId ≠ tenantId) =
      none := by
    refine List.find?_eq_none.mpr fun r hr hboth => ?_
    simp only [Bool.and_eq_true, decide_eq_true_eq] at hboth
    exact hboth.2 (howned r hr hboth.1)
  unfold sync
  rw [hoffers.listTemplates]
  dsimp only
  rw [hcollision]
  dsimp only
  cases hupserts : env.upsertAll tenantId context.wabaId 0 t templates with
  | none => exact .inl ⟨rfl, rfl⟩
  | some upserted => exact .inr ⟨_, upserted, rfl, rfl⟩

/-- A second synchronisation of a mirror. -/
theorem sync_again (hoffers : env.client.Offers env.db tenantId senderId wellFormedPaging context
      templates)
    (hwaba : context.wabaId = wabaId)
    (haccepts : ∀ template ∈ templates, env.accepts template = true)
    (hcurrent : Current tenantId wabaId t templates)
    (hmirrors : Mirrors tenantId wabaId templates t) :
    ∃ result t', env.sync tenantId senderId t = (.ok result, t') ∧
      t'.rows.map untimed = t.rows.map untimed := by
  subst hwaba
  have howned : ∀ r ∈ t.rows, r.providerTemplateId ∈ templates.map MetaMessageTemplate.id →
      r.tenantId = tenantId := by
    intro r hr hid
    obtain ⟨template, htemplate, hprovider⟩ := List.mem_map.mp hid
    exact (hcurrent.upToDate hr htemplate hprovider.symm).1.1
  obtain ⟨upserted, hupserts, hrows⟩ := upsertAll_of_current (i := 0) haccepts hcurrent
  obtain ⟨hnone, -⟩ | ⟨result, u, hu, hsync⟩ := sync_eq hoffers howned
  · rw [hupserts] at hnone
    cases hnone
  · rw [hupserts] at hu
    cases hu
    refine ⟨result, _, hsync, ?_⟩
    rw [hmirrors.markDeleted hrows]
    exact hrows

/-- **The synchronisation** of a catalogue with distinct ids and distinct names, none of them of
another tenant, succeeds, mirrors the catalogue and can be repeated exactly when the table and the
catalogue are `Syncable`. And when the pagination is no complete catalogue, nothing changes, unless
it ends in a page whose `paging` is malformed: that page is taken for the last one. -/
theorem sync_reaches_catalogue (env : SyncEnvironment) (tenantId : Uuid) (senderId : Option Uuid)
    (t : Table SyncedTemplate) :
    (∀ context templates,
      env.client.Offers env.db tenantId senderId wellFormedPaging context templates →
      (templates.map MetaMessageTemplate.id).Nodup →
      (templates.map fun template => (template.name, template.language)).Nodup →
      (∀ r ∈ t.rows, r.providerTemplateId ∈ templates.map MetaMessageTemplate.id →
        r.tenantId = tenantId) →
      Function.Injective env.newId → (∀ i, ∀ r ∈ t.rows, r.id ≠ env.newId i) →
      (env.Syncs tenantId senderId t context.wabaId templates ↔
        env.Syncable tenantId context.wabaId t templates)) ∧
    ((∀ context templates,
        ¬env.client.Offers env.db tenantId senderId wellFormedPaging context templates) →
      (∀ context templates, ¬env.client.Offers env.db tenantId senderId
        (fun body => !wellFormedPaging body) context templates) →
      ∃ error, env.sync tenantId senderId t = (.error error, t)) := by
  refine ⟨?_, ?_⟩
  · intro context templates hoffers hids hnames howned hnewId hfresh
    have hsome : (env.upsertAll tenantId context.wabaId 0 t templates).isSome = true ↔
        (∀ template ∈ templates, env.accepts template = true) ∧
          Placed tenantId context.wabaId t templates :=
      isSome_upsertAll_iff hids hnewId fun j _ => hfresh j
    constructor
    · rintro ⟨result, t', hsync, hmirrors, -⟩
      obtain ⟨-, hfailed⟩ | ⟨result', upserted, hupserts, -⟩ := sync_eq hoffers howned
      · rw [hfailed] at hsync
        cases hsync
      · rw [hupserts] at hsome
        obtain ⟨haccepts, hplaced⟩ := hsome.mp rfl
        refine ⟨fun template htemplate => ?_, haccepts, hplaced⟩
        obtain ⟨r, hr, htenant, hwaba, hprovider⟩ := hmirrors.complete template htemplate
        have hvalues := hmirrors.values r hr htenant hwaba template htemplate hprovider
        rw [← hvalues.2.2]
        exact (hmirrors.live_iff r hr htenant hwaba).mpr
          (List.mem_map.mpr ⟨template, htemplate, hprovider.symm⟩)
    · rintro ⟨hlive, haccepts, hplaced⟩
      obtain ⟨hnone, -⟩ | ⟨result, upserted, hupserts, hsync⟩ := sync_eq hoffers howned
      · rw [hnone] at hsome
        exact absurd (hsome.mpr ⟨haccepts, hplaced⟩) Bool.false_ne_true
      · have hcurrent := (current_upsertAll hnames hupserts).1
        have hmirrors : Mirrors tenantId context.wabaId templates (env.markDeleted tenantId
            context.wabaId templates.length (templates.map MetaMessageTemplate.id) upserted) :=
          hcurrent.mirrors hoffers.status hlive
        refine ⟨result, _, hsync, hmirrors, ?_⟩
        intro again senderId' context' hsame hwaba hoffers'
        refine sync_again hoffers' hwaba (fun template htemplate => ?_)
          (current_markDeleted hcurrent) hmirrors
        rw [hsame]
        exact haccepts template htemplate
  · intro hnone hmalformed
    cases hlist : env.client.listTemplates env.db tenantId senderId with
    | error error =>
        refine ⟨error, ?_⟩
        simp only [sync, hlist]
    | ok remote =>
        obtain ⟨context, hoffers | hoffers⟩ := MetaTemplateClient.offers_of_listTemplates hlist
        · exact absurd hoffers (hnone context remote.templates)
        · exact absurd hoffers (hmalformed context remote.templates)

/-- An entry of a catalogue: the template `welcome`. -/
def sampleEntry (id language : String) : Json :=
  .obj [("id", .str id), ("name", .str "welcome"), ("language", .str language),
    ("status", .str "APPROVED")]

/-- What the client makes of it. -/
def sampleTemplate (id language : String) : MetaMessageTemplate where
  id := id
  name := "welcome"
  language := language
  status := "APPROVED"
  category := none
  components := none
  qualityScore := none
  rejectionReason := none
  raw := sampleEntry id language

/-- A page with these entries. -/
def samplePage (entries : List Json) : Json := .obj [("data", .arr entries)]

/-- A tenant with one sender, and a catalogue of one page. -/
def sampleEnvironment (body : Json) : SyncEnvironment where
  client :=
    { graphVersion := some "v23.0"
      graphUrl := .ok ()
      resolveSecret := fun _ => .ok "token"
      fetch := fun _ _ _ => .response 200 (.json body) }
  db :=
    { Db.empty with
      phoneNumbers :=
        ⟨[{ id := 101, tenantId := 1, providerPhoneNumberId := "10", wabaId := some "500"
            rateLimitPerSecond := none, active := true, isDefault := true, createdAt := 5 }],
          List.pairwise_singleton _ _⟩ }
  syncedAt := 20
  newId := fun i => 200 + i
  clock := fun i => 20 + i
  accepts := fun _ => true

/-- The table with one row, of the template `7`. -/
def sampleTemplates (language : String) : Table SyncedTemplate where
  rows := [(blank 102 1 "500" "welcome" language 10).store (sampleTemplate "7" language)]
  unique := List.pairwise_singleton _ _

/-- The sample client offers its one page. -/
theorem offers_sampleEnvironment (ids : List (String × String)) :
    (sampleEnvironment (samplePage (ids.map fun x => sampleEntry x.1 x.2))).client.Offers
      (sampleEnvironment (samplePage (ids.map fun x => sampleEntry x.1 x.2))).db 1 none
      wellFormedPaging ⟨101, "500", "token"⟩ (ids.map fun x => sampleTemplate x.1 x.2) := by
  have hentries : (ids.map fun x => sampleEntry x.1 x.2).mapM extractTemplate =
      .ok (ids.map fun x => sampleTemplate x.1 x.2) := by
    induction ids with
    | nil => rfl
    | cons x rest ih =>
        rw [List.map_cons, List.mapM_cons, ih]
        rfl
  refine ⟨rfl, rfl, [ids.map fun x => sampleTemplate x.1 x.2], [], ?_, by simp, List.nodup_nil,
    by simp⟩
  refine .last rfl ?_ rfl rfl
  simpa only [samplePage, extractTemplates, Json.get?, List.lookup_cons_self] using hentries

/-- **A template that a webhook has spelled differently.** The local row of the template `7` has the
language `en-US`, the catalogue has `en_US`: the sync fails. -/
theorem sync_renamed :
    ∃ (env : SyncEnvironment) (t : Table SyncedTemplate) (context : MetaWabaContext)
      (templates : List MetaMessageTemplate),
      env.client.Offers env.db 1 none wellFormedPaging context templates ∧
      (templates.map MetaMessageTemplate.id).Nodup ∧
      (templates.map fun template => (template.name, template.language)).Nodup ∧
      (∀ r ∈ t.rows, r.providerTemplateId ∈ templates.map MetaMessageTemplate.id →
        r.tenantId = 1) ∧
      Function.Injective env.newId ∧ (∀ i, ∀ r ∈ t.rows, r.id ≠ env.newId i) ∧
      (∀ template ∈ templates, env.accepts template = true ∧ template.status ≠ "DELETED") ∧
      env.sync 1 none t = (.error .prisma, t) ∧
      ¬env.Syncs 1 none t context.wabaId templates := by
  have hoffers := offers_sampleEnvironment [("7", "en_US")]
  have hfails : (sampleEnvironment (samplePage [sampleEntry "7" "en_US"])).upsertAll 1 "500" 0
      (sampleTemplates "en-US") [sampleTemplate "7" "en_US"] = none := by decide
  have howned : ∀ r ∈ (sampleTemplates "en-US").rows,
      r.providerTemplateId ∈ [sampleTemplate "7" "en_US"].map MetaMessageTemplate.id →
        r.tenantId = 1 := by
    intro r hr _
    rw [List.mem_singleton.mp hr]
    rfl
  have hsync : (sampleEnvironment (samplePage [sampleEntry "7" "en_US"])).sync 1 none
      (sampleTemplates "en-US") = (.error .prisma, sampleTemplates "en-US") := by
    obtain ⟨-, hsync⟩ | ⟨_, _, hsome, -⟩ := sync_eq hoffers howned
    · exact hsync
    · exact absurd (hfails.symm.trans hsome) (Option.some_ne_none _).symm
  refine ⟨sampleEnvironment (samplePage [sampleEntry "7" "en_US"]), sampleTemplates "en-US", _, _,
    hoffers, by decide, by decide, howned, fun i j h => Nat.add_left_cancel h, ?_, ?_, hsync, ?_⟩
  · intro i r hr
    rw [List.mem_singleton.mp hr]
    exact Nat.ne_of_lt (Nat.lt_of_lt_of_le (by decide) (Nat.le_add_right 200 i))
  · intro template htemplate
    rw [List.mem_singleton.mp htemplate]
    exact ⟨rfl, by decide⟩
  · rintro ⟨result, t', hok, -⟩
    rw [hsync] at hok
    cases hok

/-- The row of the template `7` becomes that of `8`, which comes first, and `7` gets a new one. -/
theorem sync_reaches_catalogue_swap :
    (sampleEnvironment (samplePage [sampleEntry "8" "en_US", sampleEntry "7" "es"])).Syncs 1 none
      (sampleTemplates "en_US") "500" [sampleTemplate "8" "en_US", sampleTemplate "7" "es"] := by
  have hoffers := offers_sampleEnvironment [("8", "en_US"), ("7", "es")]
  refine ((sync_reaches_catalogue (sampleEnvironment (samplePage [sampleEntry "8" "en_US",
    sampleEntry "7" "es"])) 1 none (sampleTemplates "en_US")).1 _ _ hoffers (by decide) (by decide)
    ?_ (fun i j h => Nat.add_left_cancel h) ?_).mpr ⟨?_, ?_, ?_⟩
  · intro r hr _
    rw [List.mem_singleton.mp hr]
    rfl
  · intro i r hr
    rw [List.mem_singleton.mp hr]
    exact Nat.ne_of_lt (Nat.lt_of_lt_of_le (by decide) (Nat.le_add_right 200 i))
  · intro template htemplate
    rcases List.mem_cons.mp htemplate with rfl | htemplate
    · decide
    · rw [List.mem_singleton.mp htemplate]
      decide
  · exact fun template _ => rfl
  · -- The only row is that of `8`, the first of the two.
    intro before template after heq r hr hprovider
    rw [List.mem_singleton.mp hr] at hprovider ⊢
    rcases before with _ | ⟨first, before⟩
    · obtain ⟨rfl, -⟩ := List.cons.inj heq
      exact absurd hprovider (by decide)
    · obtain ⟨rfl, -⟩ := List.cons.inj heq
      exact ⟨_, List.mem_cons_self, rfl, rfl, rfl, rfl⟩

/-- **A malformed page is taken for the last one.** Its `paging` is a string; the one row of the
table is marked `DELETED`. -/
theorem sync_malformed_paging :
    ∃ (env : SyncEnvironment) (t : Table SyncedTemplate),
      (∀ context templates, ¬env.client.Offers env.db 1 none wellFormedPaging context templates) ∧
      t.rows.map (fun r => r.status) = ["APPROVED"] ∧
      (env.sync 1 none t).2.rows.map (fun r => r.status) = ["DELETED"] := by
  refine ⟨sampleEnvironment (.obj [("data", .arr []), ("paging", .str "x")]),
    sampleTemplates "en_US", ?_, by decide, by decide⟩
  rintro context templates ⟨-, -, pages, cursors, hserves, -⟩
  cases hserves with
  | last hask _ _ hends =>
      cases hask
      exact absurd hends (by decide)
  | next hask _ hnext _ =>
      cases hask
      have hmore :
          (extractPaging (.obj [("data", .arr []), ("paging", .str "x")])).hasNext = true :=
        congrArg Paging.hasNext hnext
      exact absurd hmore (by decide)

end SyncEnvironment

end ApiWhatsApp
