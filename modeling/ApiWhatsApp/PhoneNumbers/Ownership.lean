import ApiWhatsApp.Library.Machine
import ApiWhatsApp.Messages.Create
import Mathlib.Data.List.Dedup

/-!
# Who owns a WABA

`phone-numbers/phone-numbers.service.ts`: `create` and `update` check that no other tenant has the
WABA, and write in a transaction that comes later.

* `assertWabaOwnership`, `createPhoneNumber` and `updatePhoneNumber` are the check and the two
  transactions; `findTenantIdByWabaId` is how webhooks find the tenant of a WABA.
* `Registrations` is the machine: any number of calls, each of them stopped at every `await`.
* `overtaken` names the commits whose check no longer holds, because another tenant has registered
  the WABA since.
* **`one_tenant_per_waba`** — in every run without them, all phone numbers of a WABA belong to one
  tenant; and a commit that is overtaken always breaks this. `two_owners` is a run of two tenants.

The columns `displayPhoneNumber`, `verifiedName` and `credentialRef` and the audit log are left out:
nothing here reads them.
-/

namespace ApiWhatsApp

open Library

/-! ## Requests -/

/-- `@Matches(/^\d+$/)`. -/
def isDigits (text : String) : Bool := text ≠ "" && text.toList.all Char.isDigit

/-- Source: `class CreatePhoneNumberDto`. -/
structure CreatePhoneNumberDto where
  providerPhoneNumberId : String
  wabaId : Option String
  rateLimitPerSecond : Option ℕ
  isDefault : Option Bool

/-- Source: `class UpdatePhoneNumberDto`; the inner `none` is `null`. -/
structure UpdatePhoneNumberDto where
  wabaId : Option (Option String)
  rateLimitPerSecond : Option (Option ℕ)
  active : Option Bool
  isDefault : Option Bool

/-- What a call is asked to do. -/
inductive PhoneNumberCommand where
  | create (dto : CreatePhoneNumberDto)
  | update (id : Uuid) (dto : UpdatePhoneNumberDto)

namespace PhoneNumberCommand

/-- `dto.wabaId`, with `null` as `undefined`. -/
def wabaId : PhoneNumberCommand → Option String
  | create dto => dto.wabaId
  | update _ dto => dto.wabaId.join

/-- The request passes the validation of its class. -/
def isValid : PhoneNumberCommand → Bool
  | create dto => isDigits dto.providerPhoneNumberId && dto.wabaId.all isDigits
  | update _ dto => dto.wabaId.join.all isDigits

end PhoneNumberCommand

/-! ## The service -/

/-- The table of the phone numbers. -/
abbrev PhoneNumbers := Table WhatsAppPhoneNumber

namespace PhoneNumbers

/-- Another tenant has the WABA. -/
def ownedByOther (t : PhoneNumbers) (tenantId : Uuid) (wabaId : String) : Bool :=
  t.rows.any fun r => r.wabaId = some wabaId && r.tenantId ≠ tenantId

/-- Source: `assertWabaOwnership`. -/
def assertWabaOwnership (t : PhoneNumbers) (tenantId : Uuid) (wabaId : Option String) :
    Except HttpError Unit :=
  match wabaId with
  | none => .ok ()
  | some wabaId =>
      if wabaId ≠ "" ∧ ownedByOther t tenantId wabaId then
        .error (.conflict "This WABA is already associated with another tenant")
      else .ok ()

/-- The tenants that have a phone number of the WABA. -/
def owners (t : PhoneNumbers) (wabaId : String) : List Uuid :=
  ((t.rows.filter fun r => r.wabaId = some wabaId).map WhatsAppPhoneNumber.tenantId).dedup

/-- Source: `findTenantIdByWabaId`. -/
def findTenantIdByWabaId (t : PhoneNumbers) (wabaId : String) : Except HttpError Uuid :=
  match owners t wabaId with
  | [] => .error (.unprocessable s!"Unconfigured WABA {wabaId}")
  | [owner] => .ok owner
  | _ :: _ :: _ =>
      .error (.unprocessable s!"WABA {wabaId} is ambiguously assigned to multiple tenants")

/-- Change rows of one tenant, their keys aside. -/
def setDefault (t : PhoneNumbers) (isDefault : Bool) (sel : WhatsAppPhoneNumber → Bool) :
    PhoneNumbers :=
  t.updateWhere sel (fun r => { r with isDefault := isDefault }) fun _ => rfl

/-- The transaction of `create`; `none` is a unique violation. -/
def createPhoneNumber (t : PhoneNumbers) (newId tenantId : Uuid) (now : Time)
    (dto : CreatePhoneNumberDto) : Option PhoneNumbers :=
  let existingActive := t.rows.any fun r => r.tenantId = tenantId && r.active
  let isDefault := !existingActive || dto.isDefault = some true
  let cleared := setDefault t false fun r => isDefault && r.tenantId = tenantId && r.isDefault
  cleared.insert? {
    id := newId
    tenantId := tenantId
    providerPhoneNumberId := dto.providerPhoneNumberId
    wabaId := dto.wabaId
    rateLimitPerSecond := dto.rateLimitPerSecond
    active := true
    isDefault := isDefault
    createdAt := now }

/-- `findFirst` of the active phone numbers of a tenant, by `createdAt`. -/
def oldestActive (t : PhoneNumbers) (tenantId : Uuid) : Option WhatsAppPhoneNumber :=
  (t.rows.filter fun r => r.tenantId = tenantId && r.active).foldl
    (fun best r => match best with
      | none => some r
      | some b => if r.createdAt < b.createdAt then some r else some b) none

/-- The `data` of the update. -/
def applyUpdate (dto : UpdatePhoneNumberDto) (r : WhatsAppPhoneNumber) : WhatsAppPhoneNumber :=
  { r with
    wabaId := dto.wabaId.getD r.wabaId
    rateLimitPerSecond := dto.rateLimitPerSecond.getD r.rateLimitPerSecond
    active := dto.active.getD r.active
    isDefault := dto.isDefault.getD (if dto.active = some false then false else r.isDefault) }

/-- The end of `update`: when the tenant has no active default, its oldest active phone number
becomes it. -/
def ensureDefault (t : PhoneNumbers) (tenantId : Uuid) : PhoneNumbers :=
  if t.rows.any fun r => r.tenantId = tenantId && r.active && r.isDefault then t else
  match oldestActive t tenantId with
  | none => t
  | some fallback => setDefault t true fun r => r.id = fallback.id

/-- The transaction of `update`. -/
def updatePhoneNumber (t : PhoneNumbers) (tenantId id : Uuid) (dto : UpdatePhoneNumberDto) :
    Except HttpError PhoneNumbers :=
  match (t.find (.id id)).filter fun r => r.tenantId = tenantId with
  | none => .error (.notFound "WhatsApp phone number not found")
  | some existing =>
      let willBeActive := dto.active.getD existing.active
      let requestedDefault :=
        dto.isDefault.getD (if dto.active = some false then false else existing.isDefault)
      if dto.isDefault = some true ∧ willBeActive = false then
        .error (.badRequest "An inactive WhatsApp phone number cannot be the default sender")
      else
        let cleared := setDefault t false fun r =>
          requestedDefault && willBeActive && r.tenantId = tenantId && r.id ≠ id && r.isDefault
        let updated := cleared.updateWhere (fun r => r.id = id) (applyUpdate dto) fun _ => rfl
        .ok (ensureDefault updated tenantId)

/-- The transaction of a call. -/
def transact (t : PhoneNumbers) (newId tenantId : Uuid) (now : Time) :
    PhoneNumberCommand → Except HttpError PhoneNumbers
  | .create dto =>
      match createPhoneNumber t newId tenantId now dto with
      | some t' => .ok t'
      | none => .error (.conflict ("Unable to register WhatsApp phone number because a unique " ++
          "sender constraint was violated"))
  | .update id dto => updatePhoneNumber t tenantId id dto

end PhoneNumbers

/-! ## Calls -/

/-- Where a call stands. -/
inductive PhoneNumberStage where
  /-- About to look for the `phone_number_id`. -/
  | provider
  /-- About to check who has the WABA. -/
  | ownership
  /-- About to run the transaction. -/
  | transaction
  | returned
  | thrown (error : HttpError)
  deriving DecidableEq

/-- A call of `create` or `update`. -/
structure PhoneNumberCall where
  tenantId : Uuid
  command : PhoneNumberCommand
  stage : PhoneNumberStage

namespace PhoneNumberCall

/-- A call that has just been made. -/
def start (tenantId : Uuid) (command : PhoneNumberCommand) : PhoneNumberCall where
  tenantId := tenantId
  command := command
  stage := match command with
    | .create _ => .provider
    | .update _ _ => .ownership

/-- The pending database call: the table that it leaves, and the next stage when it returns. -/
def pending (t : PhoneNumbers) (newId : Uuid) (now : Time) (call : PhoneNumberCall) :
    Option (PhoneNumbers × PhoneNumberStage) :=
  match call.stage, call.command with
  | .provider, .create dto =>
      match t.find (.providerPhoneNumberId dto.providerPhoneNumberId) with
      | some _ =>
          some (t, .thrown (.conflict "This Meta phone_number_id is already registered"))
      | none => some (t, .ownership)
  | .ownership, command =>
      match PhoneNumbers.assertWabaOwnership t call.tenantId command.wabaId with
      | .ok () => some (t, .transaction)
      | .error error => some (t, .thrown error)
  | .transaction, command =>
      match PhoneNumbers.transact t newId call.tenantId now command with
      | .ok t' => some (t', .returned)
      | .error error => some (t, .thrown error)
  | _, _ => none

end PhoneNumberCall

/-- The table, and the calls. -/
structure Registrations where
  phoneNumbers : PhoneNumbers
  calls : List PhoneNumberCall

namespace Registrations

/-- No phone number is registered. -/
def initial : Registrations where
  phoneNumbers := .empty
  calls := []

/-- The steps of the system. -/
inductive Act where
  /-- A tenant makes a request that passes validation. -/
  | request (tenantId : Uuid) (command : PhoneNumberCommand)
  /-- The pending database call of a request ends. -/
  | call (i : ℕ) (outcome : CallOutcome) (newId : Uuid) (now : Time)

/-- One step. -/
def step (s : Registrations) : Act → Option Registrations
  | .request tenantId command =>
      if command.isValid then
        some { s with calls := s.calls ++ [.start tenantId command] }
      else none
  | .call i outcome newId now =>
      s.calls[i]?.bind fun call =>
        (call.pending s.phoneNumbers newId now).map fun (t, stage) =>
          match outcome with
          | .returned => ⟨t, s.calls.set i { call with stage := stage }⟩
          | .interrupted error =>
              ⟨t, s.calls.set i { call with stage := .thrown (.other error) }⟩
          | .failed error =>
              { s with calls := s.calls.set i { call with stage := .thrown (.other error) } }

end Registrations

/-! ## What a transaction does to the owners -/

namespace PhoneNumbers

variable {t t' : PhoneNumbers} {newId tenantId : Uuid} {now : Time}

/-- All phone numbers of a WABA belong to one tenant. -/
def OneTenant (t : PhoneNumbers) : Prop :=
  ∀ a ∈ t.rows, ∀ b ∈ t.rows, ∀ wabaId, a.wabaId = some wabaId → b.wabaId = some wabaId →
    a.tenantId = b.tenantId

/-- Another tenant has a row of the account. -/
theorem ownedByOther_eq_true_iff {wabaId : String} :
    ownedByOther t tenantId wabaId = true ↔
      ∃ r ∈ t.rows, r.wabaId = some wabaId ∧ r.tenantId ≠ tenantId := by
  simp [ownedByOther]

/-- A transaction gives its WABA to phone numbers of its own tenant, and touches no other tenant. -/
structure Assigns (t t' : PhoneNumbers) (tenantId : Uuid) (wabaId : Option String) : Prop where
  origin : ∀ r' ∈ t'.rows,
    (∃ r ∈ t.rows, r.tenantId = r'.tenantId ∧ r.wabaId = r'.wabaId) ∨
      (r'.tenantId = tenantId ∧ (r'.wabaId = none ∨ r'.wabaId = wabaId))
  kept : ∀ r ∈ t.rows, r.tenantId ≠ tenantId →
    ∃ r' ∈ t'.rows, r'.tenantId = r.tenantId ∧ r'.wabaId = r.wabaId
  assigned : ∀ w, wabaId = some w → ∃ r' ∈ t'.rows, r'.tenantId = tenantId ∧ r'.wabaId = some w

/-- The rows change in place: ids and tenants stay, and `f` gives the new WABA of a row. -/
def InPlace (t t' : PhoneNumbers) (f : Uuid → Option String → Option String) : Prop :=
  ∃ g : WhatsAppPhoneNumber → WhatsAppPhoneNumber, t'.rows = t.rows.map g ∧
    ∀ r, (g r).id = r.id ∧ (g r).tenantId = r.tenantId ∧ (g r).wabaId = f r.id r.wabaId

/-- Two changes in place are one. -/
theorem InPlace.trans {u : PhoneNumbers} {f g : Uuid → Option String → Option String}
    (htu : InPlace t u f) (hut' : InPlace u t' g) : InPlace t t' fun id w => g id (f id w) := by
  obtain ⟨k, hk, hkeep⟩ := htu
  obtain ⟨k', hk', hkeep'⟩ := hut'
  refine ⟨k' ∘ k, by rw [hk', hk, List.map_map], ?_⟩
  intro r
  obtain ⟨hid, htenant, hwaba⟩ := hkeep r
  obtain ⟨hid', htenant', hwaba'⟩ := hkeep' (k r)
  refine ⟨hid'.trans hid, htenant'.trans htenant, ?_⟩
  rw [Function.comp_apply, hwaba', hid, hwaba]

/-- A default is set in place. -/
theorem inPlace_setDefault (t : PhoneNumbers) (isDefault : Bool)
    (sel : WhatsAppPhoneNumber → Bool) :
    InPlace t (setDefault t isDefault sel) fun _ w => w := by
  refine ⟨_, rfl, ?_⟩
  intro r
  split_ifs <;> exact ⟨rfl, rfl, rfl⟩

/-- A default is found in place. -/
theorem inPlace_ensureDefault (t : PhoneNumbers) (tenantId : Uuid) :
    InPlace t (ensureDefault t tenantId) fun _ w => w := by
  have hsame : InPlace t t fun _ w => w := ⟨id, by simp, fun _ => ⟨rfl, rfl, rfl⟩⟩
  unfold ensureDefault
  split_ifs
  · exact hsame
  · split
    · exact hsame
    · exact inPlace_setDefault t true _

/-- An update is in place. -/
theorem inPlace_applyUpdate (t : PhoneNumbers) (id : Uuid) (dto : UpdatePhoneNumberDto) :
    InPlace t (t.updateWhere (fun r => r.id = id) (applyUpdate dto) fun _ => rfl)
      fun j w => if j = id then dto.wabaId.getD w else w := by
  refine ⟨_, rfl, ?_⟩
  intro r
  by_cases hid : r.id = id
  · simp [hid, applyUpdate]
  · simp [hid]

/-- A new number assigns its account. -/
theorem assigns_createPhoneNumber {dto : CreatePhoneNumberDto}
    (h : createPhoneNumber t newId tenantId now dto = some t') :
    Assigns t t' tenantId dto.wabaId := by
  -- The defaults of the tenant are cleared; then the new row is added.
  unfold createPhoneNumber at h
  have hrows := Table.rows_of_insert? h
  obtain ⟨g, hg, hkeep⟩ := inPlace_setDefault t false fun r =>
    (!(t.rows.any fun r => r.tenantId = tenantId && r.active) || dto.isDefault = some true) &&
      r.tenantId = tenantId && r.isDefault
  rw [hg] at hrows
  refine ⟨?_, ?_, ?_⟩
  · intro r' hr'
    rw [hrows] at hr'
    rcases List.mem_cons.mp hr' with rfl | hr'
    · exact .inr ⟨rfl, .inr rfl⟩
    · obtain ⟨r, hr, rfl⟩ := List.mem_map.mp hr'
      exact .inl ⟨r, hr, (hkeep r).2.1.symm, (hkeep r).2.2.symm⟩
  · intro r hr _
    refine ⟨g r, ?_, (hkeep r).2⟩
    rw [hrows]
    exact List.mem_cons_of_mem _ (List.mem_map_of_mem hr)
  · intro w hw
    have hnew := List.mem_of_getElem? (l := t'.rows) (i := 0) (by rw [hrows]; rfl)
    exact ⟨_, hnew, rfl, hw⟩

/-- An update changes the WABA of one row. -/
theorem inPlace_updatePhoneNumber {id : Uuid} {dto : UpdatePhoneNumberDto}
    (h : updatePhoneNumber t tenantId id dto = .ok t') :
    (∃ existing ∈ t.rows, existing.id = id ∧ existing.tenantId = tenantId) ∧
      InPlace t t' fun j w => if j = id then dto.wabaId.getD w else w := by
  unfold updatePhoneNumber at h
  split at h
  · cases h
  rename_i existing hfind
  obtain ⟨hfind, htenant⟩ := Option.filter_eq_some_iff.mp hfind
  obtain ⟨hmem, hkey⟩ := t.find_eq_some_iff.mp hfind
  refine ⟨⟨existing, hmem, ?_, by simpa using htenant⟩, ?_⟩
  · simpa [Keyed.keys, eq_comm] using hkey
  by_cases hrefused : dto.isDefault = some true ∧ dto.active.getD existing.active = false
  · rw [if_pos hrefused] at h
    cases h
  · rw [if_neg hrefused] at h
    cases h
    exact ((inPlace_setDefault t false _).trans (inPlace_applyUpdate _ id dto)).trans
      (inPlace_ensureDefault _ tenantId)

/-- An update assigns the account that it names. -/
theorem assigns_updatePhoneNumber {id : Uuid} {dto : UpdatePhoneNumberDto}
    (h : updatePhoneNumber t tenantId id dto = .ok t') :
    Assigns t t' tenantId dto.wabaId.join := by
  obtain ⟨⟨existing, hexisting, hid, htenant⟩, g, hrows, hkeep⟩ := inPlace_updatePhoneNumber h
  simp only at hkeep
  have howner : ∀ r ∈ t.rows, r.id = id → r.tenantId = tenantId := by
    intro r hr hr'
    have hsame : r = existing := t.eq_of_mem_keys hr hexisting
      (k := .id id) (by simp [Keyed.keys, hr']) (by simp [Keyed.keys, hid])
    rw [hsame, htenant]
  refine ⟨?_, ?_, ?_⟩
  · intro r' hr'
    rw [hrows] at hr'
    obtain ⟨r, hr, rfl⟩ := List.mem_map.mp hr'
    obtain ⟨-, hrTenant, hrWaba⟩ := hkeep r
    by_cases hr' : r.id = id
    · rw [if_pos hr'] at hrWaba
      rcases hdto : dto.wabaId with _ | w
      · rw [hdto] at hrWaba
        exact .inl ⟨r, hr, hrTenant.symm, hrWaba.symm⟩
      · rw [hdto] at hrWaba
        refine .inr ⟨hrTenant.trans (howner r hr hr'), .inr ?_⟩
        rw [hrWaba]
        rfl
    · rw [if_neg hr'] at hrWaba
      exact .inl ⟨r, hr, hrTenant.symm, hrWaba.symm⟩
  · intro r hr hother
    have hne : r.id ≠ id := fun hr' => hother (howner r hr hr')
    obtain ⟨-, hrTenant, hrWaba⟩ := hkeep r
    rw [if_neg hne] at hrWaba
    refine ⟨g r, ?_, hrTenant, hrWaba⟩
    rw [hrows]
    exact List.mem_map_of_mem hr
  · intro w hw
    obtain ⟨-, hgTenant, hgWaba⟩ := hkeep existing
    rw [if_pos hid, Option.join_eq_some_iff.mp hw] at hgWaba
    refine ⟨g existing, ?_, hgTenant.trans htenant, hgWaba⟩
    rw [hrows]
    exact List.mem_map_of_mem hexisting

/-- **What a transaction does.** -/
theorem assigns_transact {command : PhoneNumberCommand}
    (h : transact t newId tenantId now command = .ok t') :
    Assigns t t' tenantId command.wabaId := by
  cases command with
  | create dto =>
      simp only [transact] at h
      split at h <;> cases h
      exact assigns_createPhoneNumber ‹_›
  | update id dto => exact assigns_updatePhoneNumber h

/-- A transaction whose check still holds keeps the rule. -/
theorem Assigns.oneTenant {wabaId : Option String} (h : Assigns t t' tenantId wabaId)
    (hone : OneTenant t) (howned : ∀ w, wabaId = some w → ownedByOther t tenantId w = false) :
    OneTenant t' := by
  -- Whoever has the WABA of the transaction belongs to its tenant.
  have hnew : ∀ r ∈ t.rows, ∀ w, wabaId = some w → r.wabaId = some w → r.tenantId = tenantId := by
    intro r hr w hw hrw
    by_contra hne
    have hother := ownedByOther_eq_true_iff.mpr ⟨r, hr, hrw, hne⟩
    rw [howned w hw] at hother
    cases hother
  have hwaba : ∀ {r : WhatsAppPhoneNumber} {w : String}, r.wabaId = none ∨ r.wabaId = wabaId →
      r.wabaId = some w → wabaId = some w := by
    rintro r w (hnone | hsame) hr
    · rw [hnone] at hr
      cases hr
    · exact hsame.symm.trans hr
  intro a ha b hb w haw hbw
  obtain ⟨a₀, ha₀, hta, hwa⟩ | ⟨hta, hwa⟩ := h.origin a ha
  · obtain ⟨b₀, hb₀, htb, hwb⟩ | ⟨htb, hwb⟩ := h.origin b hb
    · rw [← hta, ← htb]
      exact hone a₀ ha₀ b₀ hb₀ w (hwa.trans haw) (hwb.trans hbw)
    · rw [← hta, htb]
      exact hnew a₀ ha₀ w (hwaba hwb hbw) (hwa.trans haw)
  · obtain ⟨b₀, hb₀, htb, hwb'⟩ | ⟨htb, hwb⟩ := h.origin b hb
    · rw [hta, ← htb]
      exact (hnew b₀ hb₀ w (hwaba hwa haw) (hwb'.trans hbw)).symm
    · rw [hta, htb]

/-- A transaction whose check no longer holds breaks the rule. -/
theorem Assigns.not_oneTenant {w : String} (h : Assigns t t' tenantId (some w))
    (howned : ownedByOther t tenantId w = true) : ¬OneTenant t' := by
  intro hone
  obtain ⟨r, hr, hrw, hother⟩ := ownedByOther_eq_true_iff.mp howned
  obtain ⟨r', hr', htenant, hwaba⟩ := h.kept r hr hother
  obtain ⟨own, hown, hownTenant, hownWaba⟩ := h.assigned w rfl
  have hsame := hone r' hr' own hown w (hwaba.trans hrw) hownWaba
  exact hother (by rw [← htenant, hsame, hownTenant])

/-- Where every WABA has one tenant, its webhooks find the tenant. -/
theorem findTenantIdByWabaId_eq (hone : OneTenant t) (wabaId : String) :
    findTenantIdByWabaId t wabaId = .error (.unprocessable s!"Unconfigured WABA {wabaId}") ∨
      ∃ r ∈ t.rows, r.wabaId = some wabaId ∧ findTenantIdByWabaId t wabaId = .ok r.tenantId := by
  have hmem : ∀ owner, owner ∈ owners t wabaId ↔
      ∃ r ∈ t.rows, r.wabaId = some wabaId ∧ r.tenantId = owner := by
    intro owner
    simp [owners, and_assoc]
  unfold findTenantIdByWabaId
  split
  · exact .inl rfl
  · rename_i owner howners
    obtain ⟨r, hr, hw, rfl⟩ := (hmem owner).mp (by simp [howners])
    exact .inr ⟨r, hr, hw, rfl⟩
  · rename_i a b rest howners
    -- Two owners in the list are different, but the rule makes them equal.
    obtain ⟨ra, hra, hwa, rfl⟩ := (hmem a).mp (by simp [howners])
    obtain ⟨rb, hrb, hwb, rfl⟩ := (hmem b).mp (by simp [howners])
    have hnodup : (owners t wabaId).Nodup := List.nodup_dedup _
    rw [howners, hone ra hra rb hrb wabaId hwa hwb] at hnodup
    simp at hnodup

end PhoneNumbers

/-! ## Runs -/

namespace Registrations

variable {s t : Registrations} {act : Act}

/-- A commit whose check no longer holds: since the check, another tenant has registered the
WABA. -/
def overtaken (s : Registrations) : Act → Bool
  | .request _ _ => false
  | .call i outcome newId now =>
      s.calls[i]?.any fun call =>
        call.stage = .transaction && outcome.tookEffect &&
          (PhoneNumbers.transact s.phoneNumbers newId call.tenantId now call.command).isOk &&
          call.command.wabaId.any (PhoneNumbers.ownedByOther s.phoneNumbers call.tenantId)

/-- A call is overtaken just when another tenant's rows came in between. -/
theorem overtaken_call_iff {i : ℕ} {outcome : CallOutcome} {newId : Uuid} {now : Time} :
    s.overtaken (.call i outcome newId now) = true ↔
      ∃ call w t', s.calls[i]? = some call ∧ call.stage = .transaction ∧
        outcome.tookEffect = true ∧
        PhoneNumbers.transact s.phoneNumbers newId call.tenantId now call.command = .ok t' ∧
        call.command.wabaId = some w ∧
        PhoneNumbers.ownedByOther s.phoneNumbers call.tenantId w = true := by
  simp only [overtaken, Option.any_eq_true, Bool.and_eq_true, decide_eq_true_eq]
  constructor
  · rintro ⟨call, hcall, ⟨⟨hstage, heffect⟩, hok⟩, w, hw, howned⟩
    rcases ht : PhoneNumbers.transact s.phoneNumbers newId call.tenantId now call.command
      with error | t'
    · simp [ht, Except.isOk, Except.toBool] at hok
    · exact ⟨call, w, t', hcall, hstage, heffect, ht, hw, howned⟩
  · rintro ⟨call, w, t', hcall, hstage, heffect, ht, hw, howned⟩
    exact ⟨call, hcall, ⟨⟨hstage, heffect⟩, by rw [ht]; rfl⟩, w, hw, howned⟩

/-- What the pending call of a request does to the table: nothing, or its transaction. -/
theorem pending_cases {table table' : PhoneNumbers} {newId : Uuid} {now : Time}
    {call : PhoneNumberCall} {stage : PhoneNumberStage}
    (h : call.pending table newId now = some (table', stage)) :
    (table' = table ∧ ¬(call.stage = .transaction ∧
        ∃ t, PhoneNumbers.transact table newId call.tenantId now call.command = .ok t)) ∨
      (call.stage = .transaction ∧
        PhoneNumbers.transact table newId call.tenantId now call.command = .ok table') := by
  unfold PhoneNumberCall.pending at h
  split at h
  · rename_i hstage _
    split at h <;> cases h <;> exact .inl ⟨rfl, by simp [hstage]⟩
  · rename_i hstage
    split at h <;> cases h <;> exact .inl ⟨rfl, by simp [hstage]⟩
  · rename_i hstage
    split at h
    · rename_i t' htransact
      cases h
      exact .inr ⟨hstage, htransact⟩
    · rename_i error htransact
      cases h
      exact .inl ⟨rfl, by simp [htransact]⟩
  · cases h

/-- What a step does to the table: nothing, or the transaction of a call. -/
theorem step_cases (h : s.step act = some t) :
    (t.phoneNumbers = s.phoneNumbers ∧ s.overtaken act = false) ∨
      ∃ (i : ℕ) (outcome : CallOutcome) (newId : Uuid) (now : Time) (call : PhoneNumberCall),
        act = .call i outcome newId now ∧ s.calls[i]? = some call ∧ call.stage = .transaction ∧
        outcome.tookEffect = true ∧
        PhoneNumbers.transact s.phoneNumbers newId call.tenantId now call.command =
          .ok t.phoneNumbers := by
  cases act with
  | request tenantId command =>
      obtain ⟨-, h⟩ := Option.ite_none_right_eq_some.mp h
      cases h
      exact .inl ⟨rfl, rfl⟩
  | call i outcome newId now =>
      obtain ⟨call, hcall, h⟩ := Option.bind_eq_some_iff.mp h
      obtain ⟨⟨table, stage⟩, hpending, h⟩ := Option.map_eq_some_iff.mp h
      have hcases := pending_cases hpending
      cases outcome with
      | failed error =>
          cases h
          refine .inl ⟨rfl, Bool.eq_false_iff.mpr ?_⟩
          intro hovertaken
          obtain ⟨_, _, _, -, -, heffect, -⟩ := overtaken_call_iff.mp hovertaken
          cases heffect
      | returned | interrupted error =>
          cases h
          obtain ⟨rfl, hnot⟩ | ⟨hstage, htransact⟩ := hcases
          · refine .inl ⟨rfl, Bool.eq_false_iff.mpr ?_⟩
            intro hovertaken
            obtain ⟨_, _, t', hcall', hstage, -, htransact, -⟩ := overtaken_call_iff.mp hovertaken
            rw [hcall] at hcall'
            cases hcall'
            exact hnot ⟨hstage, t', htransact⟩
          · exact .inr ⟨i, _, newId, now, call, rfl, hcall, hstage, rfl, htransact⟩

/-- A step keeps the rule exactly when it is not overtaken. -/
theorem oneTenant_step_iff (hone : s.phoneNumbers.OneTenant) (h : s.step act = some t) :
    t.phoneNumbers.OneTenant ↔ s.overtaken act = false := by
  obtain ⟨hsame, hnot⟩ | ⟨i, outcome, newId, now, call, rfl, hcall, hstage, heffect, htransact⟩ :=
    step_cases h
  · rw [hsame]
    exact ⟨fun _ => hnot, fun _ => hone⟩
  · have hassigns := PhoneNumbers.assigns_transact htransact
    rw [Bool.eq_false_iff]
    constructor
    · intro hone' hovertaken
      obtain ⟨call', w, t', hcall', -, -, -, hwaba, howned⟩ := overtaken_call_iff.mp hovertaken
      rw [hcall] at hcall'
      cases hcall'
      rw [hwaba] at hassigns
      exact hassigns.not_oneTenant howned hone'
    · intro hnot
      refine hassigns.oneTenant hone ?_
      intro w hw
      by_contra howned
      rw [Bool.not_eq_false] at howned
      exact hnot
        (overtaken_call_iff.mpr ⟨call, w, _, hcall, hstage, heffect, htransact, hw, howned⟩)

/-- **One tenant per WABA.** In every run in which no commit is overtaken, the phone numbers of a
WABA belong to one tenant, so its webhooks find the tenant, unless nobody has the WABA; and the next
step keeps this exactly when it is not overtaken either. -/
theorem one_tenant_per_waba (h : Reaches step (fun s act => s.overtaken act = false) initial s) :
    s.phoneNumbers.OneTenant ∧
      (∀ wabaId,
        PhoneNumbers.findTenantIdByWabaId s.phoneNumbers wabaId =
            .error (.unprocessable s!"Unconfigured WABA {wabaId}") ∨
          ∃ r ∈ s.phoneNumbers.rows, r.wabaId = some wabaId ∧
            PhoneNumbers.findTenantIdByWabaId s.phoneNumbers wabaId = .ok r.tenantId) ∧
      ∀ act t, s.step act = some t → (t.phoneNumbers.OneTenant ↔ s.overtaken act = false) := by
  have hone : s.phoneNumbers.OneTenant := by
    refine h.invariant (P := fun x => x.phoneNumbers.OneTenant) ?_ ?_
    · intro a ha
      simp [initial] at ha
    · intro x act y hx hnot hstep
      exact (oneTenant_step_iff hx hstep).mpr hnot
  refine ⟨hone, ?_, ?_⟩
  · intro wabaId
    exact PhoneNumbers.findTenantIdByWabaId_eq hone wabaId
  · intro act t hstep
    exact oneTenant_step_iff hone hstep

/-- A request for a phone number of the WABA `500`. -/
def sampleCreate (providerPhoneNumberId : String) : PhoneNumberCommand :=
  .create
    { providerPhoneNumberId := providerPhoneNumberId, wabaId := some "500"
      rateLimitPerSecond := none, isDefault := none }

/-- One tenant registers two phone numbers of its WABA. -/
def sampleOwner : List Act :=
  [.request 1 (sampleCreate "10"), .call 0 .returned 0 0, .call 0 .returned 0 0,
    .call 0 .returned 101 5, .request 1 (sampleCreate "11"), .call 1 .returned 0 0,
    .call 1 .returned 0 0, .call 1 .returned 102 6]

/-- Two tenants check the WABA before either of them has registered it. -/
def sampleRace : List Act :=
  [.request 1 (sampleCreate "10"), .request 2 (sampleCreate "20"), .call 0 .returned 0 0,
    .call 1 .returned 0 0, .call 0 .returned 0 0, .call 1 .returned 0 0,
    .call 0 .returned 101 5, .call 1 .returned 102 6]

/-- The WABA of the two tenants is ambiguous, so its webhooks are refused. -/
theorem two_owners :
    ∃ s, Reachable step initial s ∧ ¬s.phoneNumbers.OneTenant ∧
      PhoneNumbers.findTenantIdByWabaId s.phoneNumbers "500" =
        .error (.unprocessable "WABA 500 is ambiguously assigned to multiple tenants") := by
  have hrun : ((exec step initial sampleRace).map fun s =>
      PhoneNumbers.findTenantIdByWabaId s.phoneNumbers "500") =
      some (.error (.unprocessable "WABA 500 is ambiguously assigned to multiple tenants")) := by
    decide
  obtain ⟨s, hs, hfind⟩ := Option.map_eq_some_iff.mp hrun
  refine ⟨s, Reachable.of_exec hs, ?_, hfind⟩
  intro hone
  obtain herror | ⟨r, -, -, hok⟩ := PhoneNumbers.findTenantIdByWabaId_eq hone "500"
  · rw [hfind] at herror
    exact absurd herror (by decide)
  · rw [hfind] at hok
    cases hok

/-- Two phone numbers of one WABA, and one tenant. -/
theorem one_tenant_per_waba_sample :
    ∃ s, Reaches step (fun s act => s.overtaken act = false) initial s ∧
      s.phoneNumbers.rows.map WhatsAppPhoneNumber.wabaId = [some "500", some "500"] ∧
      s.phoneNumbers.OneTenant := by
  have hrun : ((exec step initial sampleOwner).map fun s =>
      s.phoneNumbers.rows.map WhatsAppPhoneNumber.wabaId) = some [some "500", some "500"] := by
    decide
  have hguard : ∀ x ∈ trace step initial sampleOwner, x.1.overtaken x.2.1 = false := by
    decide
  obtain ⟨s, hs, hrows⟩ := Option.map_eq_some_iff.mp hrun
  have hreach : Reaches step (fun s act => s.overtaken act = false) initial s :=
    Reaches.of_exec hs hguard
  exact ⟨s, hreach, hrows, (one_tenant_per_waba hreach).1⟩

end Registrations

end ApiWhatsApp
