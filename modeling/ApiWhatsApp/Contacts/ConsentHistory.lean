import ApiWhatsApp.Contacts.Consent
import ApiWhatsApp.Library.Locks
import ApiWhatsApp.Library.Newest
import ApiWhatsApp.Messages.Create

/-!
# Consent by event time

Calls of `recordConsent` (`contacts/contacts.service.ts`) that run side by side, statement by
statement.

* `ConsentStage` is the statement that a call runs next. The first one locks the row of the contact,
  and the lock is held to the end of the transaction; what the transaction writes becomes visible at
  its commit.
* `ConsentSystem.step` runs any number of calls beside the creation of contacts and the writes of
  other services (`Contact.patched`), which leave the consent of a contact alone.
* `Sound` is the invariant: a call that holds the lock has read the committed row and the latest
  committed event, and each row shows the newest event of its history.
* **`commit_refines`** — a commit does what `Db.recordConsent` does in one step.
* **`consent_by_event_time`** — the result, for every interleaving.
-/

namespace ApiWhatsApp

open Library

/-! ## Calls -/

/-- The statement that a call runs next; `existing` and `latest` are what it has read. -/
inductive ConsentStage where
  /-- `SELECT … FOR UPDATE`. -/
  | lock
  | findUnique
  | findLatest (existing : Contact)
  | create (existing : Contact) (latest : Option ContactConsentEvent)
  | update (existing : Contact) (latest : Option ContactConsentEvent)
  | commit (existing : Contact) (latest : Option ContactConsentEvent)
  | returned (contact : Contact)
  | failed (error : HttpError)

/-- A call of `recordConsent`. -/
structure ConsentCall where
  tenantId : Uuid
  id : Uuid
  decision : ConsentDecision
  source : String
  occurredAt : Time
  stage : ConsentStage

/-- The row of a contact is locked. -/
def ConsentStage.isLocked : ConsentStage → Bool
  | findUnique | findLatest _ | create _ _ | update _ _ | commit _ _ => true
  | lock | returned _ | failed _ => false

/-- The contact that a transaction has read. -/
def ConsentStage.existing? : ConsentStage → Option Contact
  | findLatest existing | create existing _ | update existing _ | commit existing _ => some existing
  | lock | findUnique | returned _ | failed _ => none

/-- The latest event that a transaction has read. -/
def ConsentStage.latest? : ConsentStage → Option (Option ContactConsentEvent)
  | create _ latest | update _ latest | commit _ latest => some latest
  | lock | findUnique | findLatest _ | returned _ | failed _ => none

namespace ConsentCall

/-- The contacts whose rows a call has locked. -/
def held (call : ConsentCall) : List Uuid := if call.stage.isLocked then [call.id] else []

/-- The event that a call records. -/
def event (call : ConsentCall) : ContactConsentEvent where
  tenantId := call.tenantId
  contactId := call.id
  status := call.decision.status
  source := call.source
  occurredAt := call.occurredAt

/-- Source: `isCurrentDecision`. -/
def isCurrentDecision (call : ConsentCall) (latest : Option ContactConsentEvent) : Bool :=
  latest.all fun l => l.occurredAt ≤ call.occurredAt

/-- The `data` of the update, where `existing` is what was read under the lock. -/
def updated (call : ConsentCall) (existing c : Contact) : Contact :=
  { c with
    consentStatus := call.decision.status
    consentSource := some call.source
    consentAt := if call.decision = .optedIn then some call.occurredAt else existing.consentAt
    optedOutAt := if call.decision = .optedOut then some call.occurredAt else none }

/-- An update keeps the keys. -/
@[simp] theorem keys_updated (call : ConsentCall) (existing c : Contact) :
    Keyed.keys (call.updated existing c) = Keyed.keys c := rfl

/-- The database after the commit. -/
def committed (db : Db) (call : ConsentCall) (existing : Contact)
    (latest : Option ContactConsentEvent) : Db :=
  { db with
    consentEvents := call.event :: db.consentEvents
    contacts :=
      if call.isCurrentDecision latest then
        db.contacts.updateWhere (fun c => c.id = call.id) (call.updated existing)
          (keys_updated call existing)
      else db.contacts }

/-- The statement that a call runs next: `none` while it waits for the lock, and when the call is
over. -/
def statement (db : Db) (free : Bool) (call : ConsentCall) : Option (Db × ConsentStage) :=
  match call.stage with
  | .lock =>
      match (db.contacts.find (.id call.id)).filter fun c => c.tenantId = call.tenantId with
      | none => some (db, .failed (.notFound "Contact not found"))
      | some _ => if free then some (db, .findUnique) else none
  | .findUnique =>
      match db.contacts.find (.id call.id) with
      | none => some (db, .failed (.other "No record was found"))
      | some existing => some (db, .findLatest existing)
  | .findLatest existing =>
      some (db, .create existing (db.latestConsentEvent call.tenantId call.id))
  | .create existing latest =>
      if call.isCurrentDecision latest then some (db, .update existing latest)
      else some (db, .commit existing latest)
  | .update existing latest => some (db, .commit existing latest)
  | .commit existing latest =>
      some (call.committed db existing latest, .returned
        (if call.isCurrentDecision latest then call.updated existing existing else existing))
  | .returned _ | .failed _ => none

end ConsentCall

/-! ## The system -/

/-- A new contact has given no consent. -/
def Contact.created (c : Contact) : Contact :=
  { c with
    consentStatus := .unknown
    consentSource := none
    consentAt := none
    optedOutAt := none }

/-- A write of another service: the columns that it may change. -/
def Contact.patched (f : Contact → Contact) (c : Contact) : Contact :=
  { f c with
    id := c.id
    tenantId := c.tenantId
    phone := c.phone
    consentStatus := c.consentStatus
    consentSource := c.consentSource
    consentAt := c.consentAt
    optedOutAt := c.optedOutAt }

/-- A patch keeps the keys. -/
@[simp] theorem Contact.keys_patched (f : Contact → Contact) (c : Contact) :
    Keyed.keys (c.patched f) = Keyed.keys c := rfl

/-- The committed rows, and all calls so far. -/
structure ConsentSystem where
  db : Db
  calls : List ConsentCall

namespace ConsentSystem

/-- Nothing is stored and nothing is running yet. -/
def start : ConsentSystem where
  db := .empty
  calls := []

/-- What can happen to the contacts and their consent. -/
inductive Act where
  | createContact (row : Contact)
  /-- Another service writes contacts. -/
  | patchContacts (selects : Contact → Bool) (f : Contact → Contact)
  /-- A call of `recordConsent` begins. -/
  | recordConsent (tenantId id : Uuid) (decision : ConsentDecision) (source : String)
      (occurredAt : Time)
  /-- The next statement of a call. -/
  | statement (i : ℕ)
  /-- The next statement of a call fails, and its transaction is rolled back. -/
  | fail (i : ℕ) (error : String)

/-- One step. -/
def step (s : ConsentSystem) : Act → Option ConsentSystem
  | .createContact row =>
      (s.db.contacts.insert? row.created).map fun contacts =>
        { s with db := { s.db with contacts := contacts } }
  | .patchContacts selects f =>
      some { s with db := { s.db with
        contacts := s.db.contacts.updateWhere selects (Contact.patched f) (Contact.keys_patched f) } }
  | .recordConsent tenantId id decision source occurredAt =>
      some { s with calls := s.calls ++ [⟨tenantId, id, decision, source, occurredAt, .lock⟩] }
  | .statement i =>
      s.calls[i]?.bind fun call =>
        (call.statement s.db (freeFor ConsentCall.held s.calls i call.id)).map fun (db, stage) =>
          { db := db, calls := s.calls.set i { call with stage := stage } }
  | .fail i error =>
      s.calls[i]?.bind fun call =>
        match call.stage with
        | .returned _ | .failed _ => none
        | _ => some { s with calls := s.calls.set i { call with stage := .failed (.other error) } }

end ConsentSystem

/-! ## One decision -/

/-- The row of a contact shows an event. -/
structure Contact.Shows (c : Contact) (e : ContactConsentEvent) : Prop where
  consentStatus : c.consentStatus = e.status
  consentSource : c.consentSource = some e.source
  optedOutAt : c.optedOutAt = if e.status = .optedOut then some e.occurredAt else none

/-- The row of a contact shows the newest event of its history, and no consent without any. -/
structure Db.RowCurrent (db : Db) (c : Contact) : Prop where
  unknown : db.consentHistory c.tenantId c.id = [] →
    c.consentStatus = .unknown ∧ c.consentSource = none ∧ c.optedOutAt = none
  newest : ∀ e, IsNewest (·.occurredAt) (db.consentHistory c.tenantId c.id) e → c.Shows e

/-- A contact shows the decision that was made last. -/
theorem Contact.shows_decided (decision : ConsentDecision) (source : String) (occurredAt : Time)
    (c : Contact) (tenantId id : Uuid) :
    (c.decided decision source occurredAt).Shows
      ⟨tenantId, id, decision.status, source, occurredAt⟩ where
  consentStatus := rfl
  consentSource := rfl
  optedOutAt := by cases decision <;> rfl

/-- What `recordConsent` does: it appends its event, and writes the row of the contact unless an
event of the history is later. -/
theorem Db.recordConsent_spec {db db' : Db} {tenantId id : Uuid} {decision : ConsentDecision}
    {source : String} {occurredAt : Time}
    (h : db.recordConsent tenantId id decision source occurredAt = some db') :
    db'.consentEvents = ⟨tenantId, id, decision.status, source, occurredAt⟩ :: db.consentEvents ∧
    (∃ row, db.contacts.find (.id id) = some row ∧ row.tenantId = tenantId) ∧
    ((∀ e ∈ db.consentHistory tenantId id, e.occurredAt ≤ occurredAt) →
      db'.contacts.rows = db.contacts.rows.map fun c =>
        if c.id = id then c.decided decision source occurredAt else c) ∧
    ((∃ e ∈ db.consentHistory tenantId id, occurredAt < e.occurredAt) →
      db'.contacts = db.contacts) := by
  unfold Db.recordConsent at h
  split at h
  · cases h
  · next row hrow =>
      obtain ⟨hfind, htenant⟩ := Option.filter_eq_some_iff.mp hrow
      cases h
      refine ⟨rfl, ⟨row, hfind, by simpa using htenant⟩, fun hall => ?_, fun hlater => ?_⟩
      · rw [if_pos ((db.all_latestConsentEvent _ _ _).mpr hall)]
        simp
      · rw [if_neg]
        rw [db.all_latestConsentEvent]
        obtain ⟨e, he, hlt⟩ := hlater
        exact fun hall => absurd (hall e he) (Nat.not_le.mpr hlt)

/-- The history of a contact after another event. -/
theorem Db.consentHistory_of_cons {db db' : Db} {event : ContactConsentEvent}
    (h : db'.consentEvents = event :: db.consentEvents) (tenantId id : Uuid) :
    db'.consentHistory tenantId id = db.consentHistory tenantId id ++
      if event.tenantId = tenantId ∧ event.contactId = id then [event] else [] := by
  rw [Db.consentHistory, h, List.filter_cons, Db.consentHistory]
  by_cases hevent : event.tenantId = tenantId ∧ event.contactId = id
  · simp [hevent]
  · rw [if_neg (by simpa using hevent), if_neg hevent, List.append_nil]

/-- **One decision** keeps all rows current. -/
theorem Db.rowCurrent_of_recordConsent {db db' : Db} {tenantId id : Uuid}
    {decision : ConsentDecision} {source : String} {occurredAt : Time}
    (h : db.recordConsent tenantId id decision source occurredAt = some db')
    (hcurrent : ∀ c ∈ db.contacts.rows, db.RowCurrent c) :
    ∀ c ∈ db'.contacts.rows, db'.RowCurrent c := by
  obtain ⟨hevents, ⟨row, hrow, htenant⟩, hwrites, hkeeps⟩ := Db.recordConsent_spec h
  have hhistory := Db.consentHistory_of_cons hevents
  have hid : row.id = id := by
    simpa [Keyed.keys, eq_comm] using (db.contacts.find_eq_some_iff.mp hrow).2
  -- The other rows, and their histories, stay.
  have hother : ∀ c ∈ db.contacts.rows, c.id ≠ id → db'.RowCurrent c := by
    intro c hc hne
    have hsame : db'.consentHistory c.tenantId c.id = db.consentHistory c.tenantId c.id := by
      rw [hhistory, if_neg (fun heq => hne heq.2.symm), List.append_nil]
    constructor
    · rw [hsame]
      exact (hcurrent c hc).unknown
    · rw [hsame]
      exact (hcurrent c hc).newest
  have hrowOnly : ∀ c ∈ db.contacts.rows, c.id = id → c = row := by
    intro c hc heq
    refine db.contacts.eq_of_mem_keys hc (db.contacts.find_eq_some_iff.mp hrow).1
      (k := ContactKey.id id) ?_ ?_ <;> simp [Keyed.keys, heq, hid]
  have happended : db'.consentHistory row.tenantId row.id = db.consentHistory tenantId id ++
      [⟨tenantId, id, decision.status, source, occurredAt⟩] := by
    rw [hhistory, htenant, hid, if_pos ⟨rfl, rfl⟩]
  by_cases hall : ∀ e ∈ db.consentHistory tenantId id, e.occurredAt ≤ occurredAt
  · intro c hc
    rw [hwrites hall, List.mem_map] at hc
    obtain ⟨c, hc, rfl⟩ := hc
    split_ifs with heq
    · rw [hrowOnly c hc heq]
      constructor
      · intro hempty
        have hne : db'.consentHistory row.tenantId row.id ≠ [] := by simp [happended]
        exact absurd hempty hne
      · intro e he
        have he' : IsNewest (·.occurredAt) (db'.consentHistory row.tenantId row.id) e := he
        rw [happended] at he'
        have hnew : IsNewest (·.occurredAt) (db.consentHistory tenantId id ++
            [⟨tenantId, id, decision.status, source, occurredAt⟩])
              (⟨tenantId, id, decision.status, source, occurredAt⟩ : ContactConsentEvent) :=
          isNewest_append_of_forall_le hall
        rw [he'.unique hnew]
        exact Contact.shows_decided decision source occurredAt row tenantId id
    · exact hother c hc heq
  · push Not at hall
    obtain ⟨later, hlater, hlt⟩ := hall
    rw [hkeeps ⟨later, hlater, hlt⟩]
    intro c hc
    by_cases heq : c.id = id
    · rw [hrowOnly c hc heq]
      have hnewest := (hcurrent row (hrowOnly c hc heq ▸ hc)).newest
      rw [htenant, hid] at hnewest
      constructor
      · intro hempty
        rw [happended] at hempty
        simp at hempty
      · intro e he
        rw [happended] at he
        obtain ⟨e', he'⟩ : ∃ e', IsNewest (·.occurredAt) (db.consentHistory tenantId id) e' :=
          exists_isNewest (List.ne_nil_of_mem hlater)
        rw [he.unique (he'.append_of_lt (hlt.trans_le (he'.le hlater)))]
        exact hnewest e' he'
    · exact hother c hc heq

/-! ## What a statement can do -/

/-- A move of a call, from the committed database. -/
inductive ConsentMove (free : Bool) (db : Db) (call : ConsentCall) : Db → ConsentStage → Prop where
  /-- The call throws; its transaction is rolled back. -/
  | ends (error : HttpError) : ConsentMove free db call db (.failed error)
  /-- The row is there, and nobody else has locked it. -/
  | locks {row : Contact} (hfree : free = true) (hrow : db.contacts.find (.id call.id) = some row)
      (htenant : row.tenantId = call.tenantId) : ConsentMove free db call db .findUnique
  /-- A statement under the lock: what it knows it has read now, or knew before. -/
  | reads {stage : ConsentStage} (hbefore : call.stage.isLocked = true)
      (hafter : stage.isLocked = true)
      (hexisting : ∀ c ∈ stage.existing?,
        db.contacts.find (.id call.id) = some c ∨ call.stage.existing? = some c)
      (hlatest : ∀ l ∈ stage.latest?,
        l = db.latestConsentEvent call.tenantId call.id ∨ call.stage.latest? = some l) :
      ConsentMove free db call db stage
  | commits {existing : Contact} {latest : Option ContactConsentEvent} {contact : Contact}
      (hstage : call.stage = .commit existing latest) :
      ConsentMove free db call (call.committed db existing latest) (.returned contact)

/-- Every statement is one of these moves. -/
theorem ConsentCall.move_of_statement {db db' : Db} {free : Bool} {call : ConsentCall}
    {stage : ConsentStage} (h : call.statement db free = some (db', stage)) :
    ConsentMove free db call db' stage := by
  unfold ConsentCall.statement at h
  cases hstage : call.stage with
  | lock =>
      rw [hstage] at h
      dsimp only at h
      split at h
      · cases h
        exact .ends _
      · next row hrow =>
          obtain ⟨hfind, htenant⟩ := Option.filter_eq_some_iff.mp hrow
          split_ifs at h with hfree
          cases h
          exact .locks hfree hfind (by simpa using htenant)
  | findUnique =>
      rw [hstage] at h
      dsimp only at h
      split at h
      · cases h
        exact .ends _
      · next existing hfind =>
          cases h
          refine .reads (by rw [hstage]; rfl) rfl ?_ nofun
          rintro c ⟨⟩
          exact .inl hfind
  | findLatest existing =>
      rw [hstage] at h
      cases h
      refine .reads (by rw [hstage]; rfl) rfl ?_ ?_
      · intro c hc
        exact .inr (by rw [hstage]; exact hc)
      · rintro l ⟨⟩
        exact .inl rfl
  | create existing latest =>
      rw [hstage] at h
      dsimp only at h
      split_ifs at h <;> cases h
      · exact .reads (by rw [hstage]; rfl) rfl (fun c hc => .inr (by rw [hstage]; exact hc))
          fun l hl => .inr (by rw [hstage]; exact hl)
      · exact .reads (by rw [hstage]; rfl) rfl (fun c hc => .inr (by rw [hstage]; exact hc))
          fun l hl => .inr (by rw [hstage]; exact hl)
  | update existing latest =>
      rw [hstage] at h
      cases h
      exact .reads (by rw [hstage]; rfl) rfl (fun c hc => .inr (by rw [hstage]; exact hc))
        fun l hl => .inr (by rw [hstage]; exact hl)
  | commit existing latest =>
      rw [hstage] at h
      cases h
      exact .commits hstage
  | returned contact =>
      rw [hstage] at h
      cases h
  | failed error =>
      rw [hstage] at h
      cases h

namespace ConsentSystem

variable {s s' : ConsentSystem} {a : Act}

/-- **What a step can do.** -/
theorem step_cases (h : s.step a = some s') :
    (∃ (row : Contact) (contacts : Table Contact), s.db.contacts.insert? row.created = some contacts ∧
      s' = { s with db := { s.db with contacts := contacts } }) ∨
    (∃ selects f, s' = { s with db := { s.db with
      contacts := s.db.contacts.updateWhere selects (Contact.patched f)
        (Contact.keys_patched f) } }) ∨
    (∃ tenantId id decision source occurredAt, s' = { s with
      calls := s.calls ++ [⟨tenantId, id, decision, source, occurredAt, .lock⟩] }) ∨
    ∃ i call stage, s.calls[i]? = some call ∧
      ConsentMove (freeFor ConsentCall.held s.calls i call.id) s.db call s'.db stage ∧
      s'.calls = s.calls.set i { call with stage := stage } := by
  cases a with
  | createContact row =>
      obtain ⟨contacts, hinsert, rfl⟩ := Option.map_eq_some_iff.mp h
      exact .inl ⟨row, contacts, hinsert, rfl⟩
  | patchContacts selects f =>
      cases h
      exact .inr (.inl ⟨selects, f, rfl⟩)
  | recordConsent tenantId id decision source occurredAt =>
      cases h
      exact .inr (.inr (.inl ⟨tenantId, id, decision, source, occurredAt, rfl⟩))
  | statement i =>
      obtain ⟨call, hcall, h⟩ := Option.bind_eq_some_iff.mp h
      obtain ⟨⟨db, stage⟩, hstatement, rfl⟩ := Option.map_eq_some_iff.mp h
      exact .inr (.inr (.inr ⟨i, call, stage, hcall,
        ConsentCall.move_of_statement hstatement, rfl⟩))
  | fail i error =>
      obtain ⟨call, hcall, h⟩ := Option.bind_eq_some_iff.mp h
      split at h
      · cases h
      · cases h
      · cases h
        exact .inr (.inr (.inr ⟨i, call, _, hcall, .ends _, rfl⟩))

/-! ## The invariant -/

/-- What a call that holds the lock knows of the committed database. -/
def Holds (db : Db) (call : ConsentCall) : Prop :=
  ∃ row, db.contacts.find (.id call.id) = some row ∧ row.tenantId = call.tenantId ∧
    (∀ c ∈ call.stage.existing?, c.consentAt = row.consentAt) ∧
    ∀ l ∈ call.stage.latest?, l = db.latestConsentEvent call.tenantId call.id

/-- The invariant. -/
structure Sound (s : ConsentSystem) : Prop where
  locks : Exclusive ConsentCall.held s.calls
  holds : ∀ call ∈ s.calls, call.stage.isLocked = true → Holds s.db call
  current : ∀ c ∈ s.db.contacts.rows, s.db.RowCurrent c
  /-- Every event is of a stored contact. -/
  owned : ∀ e ∈ s.db.consentEvents, ∃ c ∈ s.db.contacts.rows, c.id = e.contactId

/-- At the start there is nothing to show. -/
theorem Sound.start : Sound start where
  locks := Exclusive.nil
  holds _ hcall := absurd hcall List.not_mem_nil
  current _ hc := absurd hc List.not_mem_nil
  owned _ he := absurd he List.not_mem_nil

/-- **A commit** of a call that holds the lock does what `Db.recordConsent` does. -/
theorem commit_refines {db : Db} {call : ConsentCall} {existing : Contact}
    {latest : Option ContactConsentEvent} (h : Holds db call)
    (hstage : call.stage = .commit existing latest) :
    db.recordConsent call.tenantId call.id call.decision call.source call.occurredAt =
      some (call.committed db existing latest) := by
  obtain ⟨row, hrow, htenant, hexisting, hlatest⟩ := h
  have hconsentAt : existing.consentAt = row.consentAt := hexisting existing (by rw [hstage]; rfl)
  have hseen : latest = db.latestConsentEvent call.tenantId call.id :=
    hlatest latest (by rw [hstage]; rfl)
  have hwrite : db.contacts.updateWhere (fun c => c.id = call.id)
      (Contact.decided call.decision call.source call.occurredAt)
      (Contact.keys_decided call.decision call.source call.occurredAt) =
        db.contacts.updateWhere (fun c => c.id = call.id) (call.updated existing)
          (ConsentCall.keys_updated call existing) := by
    refine Table.eq_of_rows ?_
    rw [Table.rows_updateWhere, Table.rows_updateWhere]
    refine List.map_congr_left fun c hc => ?_
    split_ifs with hid
    · -- the row that the call has locked
      have hsame : c = row := by
        refine db.contacts.eq_of_mem_keys hc (db.contacts.find_eq_some_iff.mp hrow).1 ?_
          (db.contacts.find_eq_some_iff.mp hrow).2
        simpa [Keyed.keys, eq_comm] using hid
      rw [Contact.decided, ConsentCall.updated, hconsentAt, hsame]
    · rfl
  rw [Db.recordConsent, hrow, Option.filter_some, if_pos (by simpa using htenant)]
  dsimp only
  rw [hwrite, ← hseen]
  rfl

/-- What a call knows stays true while its row keeps its consent and its history stays. -/
theorem Holds.of_same {db db' : Db} {call : ConsentCall} (h : Holds db call)
    (hevents : db'.latestConsentEvent call.tenantId call.id =
      db.latestConsentEvent call.tenantId call.id)
    (hrow : ∀ row, db.contacts.find (.id call.id) = some row →
      ∃ row', db'.contacts.find (.id call.id) = some row' ∧ row'.tenantId = row.tenantId ∧
        row'.consentAt = row.consentAt) : Holds db' call := by
  obtain ⟨row, hfind, htenant, hexisting, hlatest⟩ := h
  obtain ⟨row', hfind', htenant', hconsentAt⟩ := hrow row hfind
  refine ⟨row', hfind', htenant'.trans htenant, fun c hc => ?_, fun l hl => ?_⟩
  · rw [hconsentAt]
    exact hexisting c hc
  · rw [hevents]
    exact hlatest l hl

/-- The commit of another contact's decision. -/
theorem Holds.of_recordConsent {db db' : Db} {call other : ConsentCall} (h : Holds db call)
    (hne : call.id ≠ other.id)
    (hcommit : db.recordConsent other.tenantId other.id other.decision other.source
      other.occurredAt = some db') : Holds db' call := by
  obtain ⟨hevents, -, hwrites, hkeeps⟩ := Db.recordConsent_spec hcommit
  refine h.of_same ?_ fun row hrow => ?_
  · rw [Db.latestConsentEvent, hevents, List.filter_cons_of_neg (by simp [hne.symm])]
    rfl
  · refine ⟨row, ?_, rfl, rfl⟩
    obtain ⟨hmem, hkey⟩ := db.contacts.find_eq_some_iff.mp hrow
    refine db'.contacts.find_eq_some_iff.mpr ⟨?_, hkey⟩
    by_cases hall : ∀ e ∈ db.consentHistory other.tenantId other.id,
        e.occurredAt ≤ other.occurredAt
    · have hid : row.id ≠ other.id := by
        have hcall : call.id = row.id := by simpa [Keyed.keys] using hkey
        exact fun heq => hne (hcall.trans heq)
      rw [hwrites hall]
      exact List.mem_map.mpr ⟨row, hmem, if_neg hid⟩
    · push Not at hall
      rw [hkeeps hall]
      exact hmem

/-- A new contact keeps the invariant. -/
theorem Sound.createContact (h : Sound s) {row : Contact} {contacts : Table Contact}
    (hinsert : s.db.contacts.insert? row.created = some contacts) :
    Sound { s with db := { s.db with contacts := contacts } } where
  locks := h.locks
  holds call hcall hlocked := by
    refine (h.holds call hcall hlocked).of_same rfl fun row' hrow' => ⟨row', ?_, rfl, rfl⟩
    rw [Table.find_of_insert? hinsert, if_neg]
    · exact hrow'
    · intro hkey
      have hnone := Table.find_eq_none_of_insert? hinsert hkey
      rw [hrow'] at hnone
      cases hnone
  current c hc := by
    rw [Table.rows_of_insert? hinsert] at hc
    rcases List.mem_cons.mp hc with rfl | hc
    · -- Its id is new, so it has no history.
      have hempty : s.db.consentHistory row.created.tenantId row.created.id = [] := by
        refine List.reverse_eq_nil_iff.mpr (List.filter_eq_nil_iff.mpr fun e he hmatch => ?_)
        simp only [Bool.and_eq_true, decide_eq_true_eq] at hmatch
        obtain ⟨c, hc, hid⟩ := h.owned e he
        have hkey : ContactKey.id e.contactId ∈ Keyed.keys row.created := by
          simp [Keyed.keys, hmatch.2]
        have hnone := Table.find_eq_none_of_insert? hinsert hkey
        rw [Table.find_eq_none_iff] at hnone
        exact hnone c hc (by simp [Keyed.keys, hid])
      constructor
      · exact fun _ => ⟨rfl, rfl, rfl⟩
      · intro e he
        have hmem : e ∈ s.db.consentHistory row.created.tenantId row.created.id := he.mem
        rw [hempty] at hmem
        cases hmem
    · exact ⟨(h.current c hc).unknown, (h.current c hc).newest⟩
  owned e he := by
    obtain ⟨c, hc, hid⟩ := h.owned e he
    refine ⟨c, ?_, hid⟩
    rw [Table.rows_of_insert? hinsert]
    exact List.mem_cons_of_mem _ hc

/-- A change of other columns keeps the invariant. -/
theorem Sound.patchContacts (h : Sound s) (selects : Contact → Bool) (f : Contact → Contact) :
    Sound { s with db := { s.db with
      contacts := s.db.contacts.updateWhere selects (Contact.patched f)
        (Contact.keys_patched f) } } where
  locks := h.locks
  holds call hcall hlocked := by
    refine (h.holds call hcall hlocked).of_same rfl fun row hrow => ?_
    refine ⟨if selects row then row.patched f else row, ?_, ?_, ?_⟩
    · rw [Table.find_updateWhere, hrow]
      rfl
    · split_ifs <;> rfl
    · split_ifs <;> rfl
  current c hc := by
    rw [Table.rows_updateWhere, List.mem_map] at hc
    obtain ⟨c, hc, rfl⟩ := hc
    have hcurrent := h.current c hc
    split_ifs
    · exact ⟨hcurrent.unknown, fun e he => ⟨(hcurrent.newest e he).consentStatus,
        (hcurrent.newest e he).consentSource, (hcurrent.newest e he).optedOutAt⟩⟩
    · exact ⟨hcurrent.unknown, hcurrent.newest⟩
  owned e he := by
    obtain ⟨c, hc, hid⟩ := h.owned e he
    refine ⟨_, List.mem_map.mpr ⟨c, hc, rfl⟩, ?_⟩
    split_ifs <;> exact hid

/-- A new call keeps the invariant. -/
theorem Sound.append (h : Sound s) (tenantId id : Uuid) (decision : ConsentDecision)
    (source : String) (occurredAt : Time) :
    Sound { s with calls := s.calls ++ [⟨tenantId, id, decision, source, occurredAt, .lock⟩] } where
  locks := h.locks.append rfl
  holds call hcall hlocked := by
    rcases List.mem_append.mp hcall with hcall | hcall
    · exact h.holds call hcall hlocked
    · rw [List.mem_singleton.mp hcall] at hlocked
      cases hlocked
  current := h.current
  owned := h.owned

/-- A call that moves without a write. -/
theorem Sound.move (h : Sound s) {i : ℕ} {call : ConsentCall} {stage : ConsentStage}
    (hcall : s.calls[i]? = some call)
    (hlocks : stage.isLocked = true → call.stage.isLocked = true ∨
      freeFor ConsentCall.held s.calls i call.id = true)
    (hholds : stage.isLocked = true → Holds s.db { call with stage := stage }) :
    Sound { s with calls := s.calls.set i { call with stage := stage } } where
  locks := by
    refine h.locks.set hcall fun l hl => ?_
    unfold ConsentCall.held at hl ⊢
    split_ifs at hl with hlocked
    · rw [List.mem_singleton.mp hl]
      rcases hlocks hlocked with hbefore | hfree
      · exact .inl (by rw [if_pos hbefore]; exact List.mem_singleton_self _)
      · exact .inr hfree
    · cases hl
  holds c hc hlocked := by
    rcases List.mem_or_eq_of_mem_set hc with hc | rfl
    · exact h.holds c hc hlocked
    · exact hholds hlocked
  current := h.current
  owned := h.owned

/-- A commit keeps the invariant. -/
theorem Sound.commit (h : Sound s) {i : ℕ} {call : ConsentCall} {existing contact : Contact}
    {latest : Option ContactConsentEvent} (hcall : s.calls[i]? = some call)
    (hstage : call.stage = .commit existing latest) :
    Sound { db := call.committed s.db existing latest,
            calls := s.calls.set i { call with stage := .returned contact } } := by
  have hlocked : call.stage.isLocked = true := by rw [hstage]; rfl
  have hcommit := commit_refines (h.holds call (List.mem_of_getElem? hcall) hlocked) hstage
  have hheld : call.id ∈ call.held := by
    rw [ConsentCall.held, if_pos hlocked]
    exact List.mem_singleton_self _
  have hmove : Sound { s with calls := s.calls.set i { call with stage := .returned contact } } :=
    h.move hcall (fun hreturned => by cases hreturned) fun hreturned => by cases hreturned
  exact {
    locks := hmove.locks
    holds := by
      intro c hc hcLocked
      obtain ⟨j, hj⟩ := List.mem_iff_getElem?.mp hc
      rcases getElem?_set_cases hj with ⟨-, rfl⟩ | ⟨hne, hj⟩
      · cases hcLocked
      · -- Another call that holds a lock holds that of another contact.
        refine (h.holds c (List.mem_of_getElem? hj) hcLocked).of_recordConsent ?_ hcommit
        intro hsame
        refine hne (h.locks j i c call call.id hj hcall ?_ hheld)
        rw [ConsentCall.held, if_pos hcLocked, hsame]
        exact List.mem_singleton_self _
    current := Db.rowCurrent_of_recordConsent hcommit h.current
    owned := by
      obtain ⟨hevents, ⟨row, hrow, -⟩, -, -⟩ := Db.recordConsent_spec hcommit
      obtain ⟨f, hrows, hf⟩ := Db.recordConsent_contacts hcommit
      have hkept : ∀ c ∈ s.db.contacts.rows,
          ∃ c' ∈ (call.committed s.db existing latest).contacts.rows, c'.id = c.id := by
        intro c hc
        refine ⟨f c, by rw [hrows]; exact List.mem_map_of_mem hc, ?_⟩
        rcases hf c with heq | ⟨-, heq⟩ <;> rw [heq]
        rfl
      intro e he
      rw [hevents] at he
      rcases List.mem_cons.mp he with rfl | he
      · obtain ⟨hmem, hkey⟩ := s.db.contacts.find_eq_some_iff.mp hrow
        obtain ⟨c', hc', hid⟩ := hkept row hmem
        exact ⟨c', hc', hid.trans (by simpa [Keyed.keys, eq_comm] using hkey)⟩
      · obtain ⟨c, hc, hid⟩ := h.owned e he
        obtain ⟨c', hc', hid'⟩ := hkept c hc
        exact ⟨c', hc', hid'.trans hid⟩ }

/-- **One step** keeps the invariant. -/
theorem Sound.step (h : Sound s) (hstep : s.step a = some s') : Sound s' := by
  rcases step_cases hstep with ⟨row, contacts, hinsert, rfl⟩ | ⟨selects, f, rfl⟩ |
    ⟨tenantId, id, decision, source, occurredAt, rfl⟩ | ⟨i, call, stage, hcall, hmove, hcalls⟩
  · exact h.createContact hinsert
  · exact h.patchContacts selects f
  · exact h.append tenantId id decision source occurredAt
  · obtain ⟨db, calls⟩ := s'
    dsimp only at hmove hcalls
    subst hcalls
    cases hmove with
    | ends error =>
        exact h.move hcall (fun hfailed => by cases hfailed) fun hfailed => by cases hfailed
    | locks hfree hrow htenant =>
        refine h.move hcall (fun _ => .inr hfree) fun _ => ⟨_, hrow, htenant, ?_, ?_⟩
        · intro c hc
          cases hc
        · intro l hl
          cases hl
    | reads hbefore hafter hexisting hlatest =>
        refine h.move hcall (fun _ => .inl hbefore) fun _ => ?_
        obtain ⟨row, hrow, htenant, hknown, hseen⟩ :=
          h.holds call (List.mem_of_getElem? hcall) hbefore
        refine ⟨row, hrow, htenant, fun c hc => ?_, fun l hl => ?_⟩
        · rcases hexisting c hc with hfind | hc
          · rw [Option.some.inj (hfind.symm.trans hrow)]
          · exact hknown c hc
        · rcases hlatest l hl with hl | hl
          · exact hl
          · exact hseen l hl
    | commits hstage => exact h.commit hcall hstage

/-- The invariant holds in every state that is reached. -/
theorem sound_of_reachable (h : Reachable step start s) : Sound s :=
  h.invariant Sound.start fun _ _ _ hs _ hstep => hs.step hstep

/-! ## The result -/

/-- The last statement of a call. -/
theorem step_commit {i : ℕ} {call : ConsentCall} {existing : Contact}
    {latest : Option ContactConsentEvent} (hcall : s.calls[i]? = some call)
    (hstage : call.stage = .commit existing latest) :
    s.step (.statement i) = some
      { db := call.committed s.db existing latest,
        calls := s.calls.set i { call with
          stage := .returned (if call.isCurrentDecision latest then call.updated existing existing
            else existing) } } := by
  simp only [step, hcall, Option.bind_some, ConsentCall.statement, hstage, Option.map_some]

/-- **Consent is decided by event time**, in every interleaving of calls with each other and with the
other writers of contacts. A contact with a history shows the event with the greatest `occurredAt`,
the last one recorded among several: its status, its source and, for an opt-out, its time. Two
histories of the same events with different times lead to the same fields, whatever the order. The
call of a decision appends its event; when an event of the history is later it leaves all contacts
as they are, and returns the contact as it was. -/
theorem consent_by_event_time (h : Reachable step start s) :
    (∀ c ∈ s.db.contacts.rows, s.db.consentHistory c.tenantId c.id ≠ [] →
      ∃ e, IsNewest (·.occurredAt) (s.db.consentHistory c.tenantId c.id) e ∧
        c.consentStatus = e.status ∧ c.consentSource = some e.source ∧
        c.optedOutAt = if e.status = .optedOut then some e.occurredAt else none) ∧
    (∀ s', Reachable step start s' → ∀ c ∈ s.db.contacts.rows, ∀ c' ∈ s'.db.contacts.rows,
      ((s.db.consentHistory c.tenantId c.id).map (·.occurredAt)).Nodup →
      (s.db.consentHistory c.tenantId c.id).Perm (s'.db.consentHistory c'.tenantId c'.id) →
      c'.consentStatus = c.consentStatus ∧ c'.consentSource = c.consentSource ∧
        c'.optedOutAt = c.optedOutAt) ∧
    (∀ i call existing latest, s.calls[i]? = some call → call.stage = .commit existing latest →
      ∃ s' contact, s.step (.statement i) = some s' ∧
        s'.calls = s.calls.set i { call with stage := .returned contact } ∧
        s'.db.consentHistory call.tenantId call.id =
          s.db.consentHistory call.tenantId call.id ++ [call.event] ∧
        ((∃ e ∈ s.db.consentHistory call.tenantId call.id, call.occurredAt < e.occurredAt) →
          s'.db.contacts = s.db.contacts ∧ contact = existing)) := by
  have hsound := sound_of_reachable h
  refine ⟨fun c hc hhistory => ?_, fun s' h' c hc c' hc' hnodup hperm => ?_,
    fun i call existing latest hcall hstage => ?_⟩
  · obtain ⟨e, he⟩ : ∃ e, IsNewest (·.occurredAt) (s.db.consentHistory c.tenantId c.id) e :=
      exists_isNewest hhistory
    have hshows := (hsound.current c hc).newest e he
    exact ⟨e, he, hshows.consentStatus, hshows.consentSource, hshows.optedOutAt⟩
  · have hcurrent := hsound.current c hc
    have hcurrent' := (sound_of_reachable h').current c' hc'
    by_cases hempty : s.db.consentHistory c.tenantId c.id = []
    · rw [hempty] at hperm
      obtain ⟨hstatus, hsource, hoptedOut⟩ := hcurrent.unknown hempty
      obtain ⟨hstatus', hsource', hoptedOut'⟩ := hcurrent'.unknown hperm.symm.eq_nil
      exact ⟨hstatus'.trans hstatus.symm, hsource'.trans hsource.symm,
        hoptedOut'.trans hoptedOut.symm⟩
    · obtain ⟨e, he⟩ : ∃ e, IsNewest (·.occurredAt) (s.db.consentHistory c.tenantId c.id) e :=
        exists_isNewest hempty
      have hempty' : s'.db.consentHistory c'.tenantId c'.id ≠ [] := by
        intro hnil
        rw [hnil] at hperm
        exact hempty hperm.eq_nil
      obtain ⟨e', he'⟩ : ∃ e', IsNewest (·.occurredAt)
          (s'.db.consentHistory c'.tenantId c'.id) e' := exists_isNewest hempty'
      have hsame := he.eq_of_perm he' hperm hnodup
      have hshows := hcurrent.newest e he
      have hshows' := hcurrent'.newest e' he'
      rw [← hsame] at hshows'
      exact ⟨hshows'.consentStatus.trans hshows.consentStatus.symm,
        hshows'.consentSource.trans hshows.consentSource.symm,
        hshows'.optedOutAt.trans hshows.optedOutAt.symm⟩
  · have hlocked : call.stage.isLocked = true := by rw [hstage]; rfl
    have hholds := hsound.holds call (List.mem_of_getElem? hcall) hlocked
    obtain ⟨hevents, -, -, hkeeps⟩ := Db.recordConsent_spec (commit_refines hholds hstage)
    refine ⟨_, _, step_commit hcall hstage, rfl, ?_, fun hlater => ⟨hkeeps hlater, if_neg ?_⟩⟩
    · rw [Db.consentHistory_of_cons hevents, if_pos ⟨rfl, rfl⟩]
      rfl
    · obtain ⟨-, -, -, -, hlatest⟩ := hholds
      rw [ConsentCall.isCurrentDecision, hlatest latest (by rw [hstage]; rfl),
        s.db.all_latestConsentEvent]
      obtain ⟨e, he, hlt⟩ := hlater
      exact fun hall => absurd (hall e he) (Nat.not_le.mpr hlt)

/-- A contact. -/
def sampleContact : Contact where
  id := 7
  tenantId := 1
  phone := "5511999990000"
  name := none
  language := none
  timezone := none
  tags := []
  consentStatus := .unknown
  consentSource := none
  consentAt := none
  optedOutAt := none
  lastInboundAt := none
  serviceWindowExpiresAt := none
  metadata := none

/-- An opt-out and an older opt-in that arrive together; the opt-in waits for the lock. -/
def sampleRun : List Act :=
  [.createContact sampleContact, .recordConsent 1 7 .optedIn "import" 10,
    .recordConsent 1 7 .optedOut "reply" 20, .statement 1, .statement 1, .statement 1, .statement 1,
    .statement 1, .statement 1, .statement 0, .statement 0, .statement 0, .statement 0, .statement 0]

/-- A decision that arrives late leaves the contact as it is. -/
theorem consent_by_event_time_late :
    ∃ s, Reachable step start s ∧ ∃ c ∈ s.db.contacts.rows, c.optedOutAt = some 20 ∧
      (s.db.consentHistory c.tenantId c.id).map (·.occurredAt) = [20, 10] ∧
      ∃ e, IsNewest (·.occurredAt) (s.db.consentHistory c.tenantId c.id) e ∧
        c.consentStatus = e.status := by
  have hrun : (exec step start sampleRun).map (fun s : ConsentSystem =>
      s.db.contacts.rows.map fun c =>
        (c.optedOutAt, (s.db.consentHistory c.tenantId c.id).map (·.occurredAt))) =
      some [(some 20, [20, 10])] := by
    decide
  obtain ⟨s, hs, hview⟩ := Option.map_eq_some_iff.mp hrun
  have hreach : Reachable step start s := Reachable.of_exec hs
  have hmem : (some 20, [20, 10]) ∈ s.db.contacts.rows.map fun c =>
      (c.optedOutAt, (s.db.consentHistory c.tenantId c.id).map (·.occurredAt)) := by
    rw [hview]
    exact List.mem_singleton_self _
  obtain ⟨c, hc, heq⟩ := List.mem_map.mp hmem
  obtain ⟨hoptedOut, hhistory⟩ := Prod.ext_iff.mp heq
  have hne : s.db.consentHistory c.tenantId c.id ≠ [] := by
    intro hnil
    rw [hnil] at hhistory
    cases hhistory
  obtain ⟨e, he, hstatus, -, -⟩ := (consent_by_event_time hreach).1 c hc hne
  exact ⟨s, hreach, c, hc, hoptedOut, hhistory, e, he, hstatus⟩

end ConsentSystem

end ApiWhatsApp
