import ApiWhatsApp.Schema

/-!
# Consent

`recordConsent` of `contacts/contacts.service.ts`: every decision is kept as an event, and the contact
shows the one with the latest `occurredAt`.

`Db.recordConsent_frame` and `Db.recordConsent_contacts` say what a recorded decision can change;
`all_latestConsentEvent` reads the test for the current decision as a bound on the whole history.
-/

namespace ApiWhatsApp

open Library

/-- Source: `enum ConsentDecision`. -/
inductive ConsentDecision where
  | optedIn
  | optedOut
  deriving DecidableEq, Repr

/-- The status that a decision leads to. -/
def ConsentDecision.status : ConsentDecision → ConsentStatus
  | optedIn => .optedIn
  | optedOut => .optedOut

/-- The event that `ORDER BY occurredAt DESC, createdAt DESC` puts first. -/
def Db.latestConsentEvent (db : Db) (tenantId contactId : Uuid) : Option ContactConsentEvent :=
  (db.consentEvents.filter fun e => e.tenantId = tenantId && e.contactId = contactId).foldl
    (fun latest e => match latest with
      | none => some e
      | some l => if l.occurredAt < e.occurredAt then some e else some l) none

/-- The contact after the decision that is current. -/
def Contact.decided (decision : ConsentDecision) (source : String) (occurredAt : Time)
    (c : Contact) : Contact :=
  { c with
    consentStatus := decision.status
    consentSource := some source
    consentAt := if decision = .optedIn then some occurredAt else c.consentAt
    optedOutAt := if decision = .optedOut then some occurredAt else none }

@[simp] theorem Contact.keys_decided (decision : ConsentDecision) (source : String)
    (occurredAt : Time) (c : Contact) :
    Keyed.keys (c.decided decision source occurredAt) = Keyed.keys c := rfl

/-- The transaction; `none` when the tenant has no such contact. Source: `recordConsent`. -/
def Db.recordConsent (db : Db) (tenantId id : Uuid) (decision : ConsentDecision)
    (source : String) (occurredAt : Time) : Option Db :=
  match (db.contacts.find (.id id)).filter fun c => c.tenantId = tenantId with
  | none => none
  | some _ =>
      let isCurrentDecision := (db.latestConsentEvent tenantId id).all fun latest =>
        latest.occurredAt ≤ occurredAt
      let event : ContactConsentEvent :=
        { tenantId := tenantId, contactId := id, status := decision.status, source := source,
          occurredAt := occurredAt }
      some { db with
        consentEvents := event :: db.consentEvents
        contacts :=
          if isCurrentDecision then
            db.contacts.updateWhere (fun c => c.id = id)
              (Contact.decided decision source occurredAt)
              (Contact.keys_decided decision source occurredAt)
          else db.contacts }

/-- A decision touches no other table. -/
theorem Db.recordConsent_frame {db db' : Db} {tenantId id : Uuid} {decision : ConsentDecision}
    {source : String} {occurredAt : Time}
    (h : db.recordConsent tenantId id decision source occurredAt = some db') :
    ∃ contacts consentEvents,
      db' = { db with contacts := contacts, consentEvents := consentEvents } := by
  unfold Db.recordConsent at h
  split at h
  · cases h
  · cases h
    exact ⟨_, _, rfl⟩

/-- A decision changes the consent of its contact only. -/
theorem Db.recordConsent_contacts {db db' : Db} {tenantId id : Uuid} {decision : ConsentDecision}
    {source : String} {occurredAt : Time}
    (h : db.recordConsent tenantId id decision source occurredAt = some db') :
    ∃ f : Contact → Contact, db'.contacts.rows = db.contacts.rows.map f ∧
      ∀ c, f c = c ∨ (c.id = id ∧ f c = c.decided decision source occurredAt) := by
  unfold Db.recordConsent at h
  split at h
  · cases h
  · cases h
    by_cases hcurrent : ((db.latestConsentEvent tenantId id).all fun latest =>
        latest.occurredAt ≤ occurredAt) = true
    · refine ⟨fun c => if c.id = id then c.decided decision source occurredAt else c, ?_, ?_⟩
      · simp [hcurrent]
      · intro c
        by_cases hc : c.id = id
        · exact .inr ⟨hc, by simp [hc]⟩
        · exact .inl (by simp [hc])
    · exact ⟨fun c => c, by simp [hcurrent], fun c => .inl rfl⟩

/-! ## The history of a contact -/

/-- The events of a contact, in the order in which they were recorded. -/
def Db.consentHistory (db : Db) (tenantId contactId : Uuid) : List ContactConsentEvent :=
  (db.consentEvents.filter fun e => e.tenantId = tenantId && e.contactId = contactId).reverse

/-- The latest event passes a bound when all events do. -/
theorem Db.all_latestConsentEvent (db : Db) (tenantId contactId : Uuid) (bound : Time) :
    (db.latestConsentEvent tenantId contactId).all (fun l => l.occurredAt ≤ bound) = true ↔
      ∀ e ∈ db.consentHistory tenantId contactId, e.occurredAt ≤ bound := by
  have hfold : ∀ (l : List ContactConsentEvent) (first : Option ContactConsentEvent),
      (l.foldl (fun latest e => match latest with
        | none => some e
        | some l => if l.occurredAt < e.occurredAt then some e else some l) first).all
          (fun l => l.occurredAt ≤ bound) = true ↔
        first.all (fun l => l.occurredAt ≤ bound) = true ∧ ∀ e ∈ l, e.occurredAt ≤ bound := by
    intro l
    induction l with
    | nil => simp
    | cons a rest ih =>
        intro first
        rw [List.foldl_cons, ih, List.forall_mem_cons, ← and_assoc]
        refine and_congr_left' ?_
        cases first with
        | none => simp
        | some l =>
            dsimp only
            split_ifs with hlt
            · simp only [Option.all_some, decide_eq_true_eq]
              exact ⟨fun h => ⟨hlt.le.trans h, h⟩, fun h => h.2⟩
            · simp only [Option.all_some, decide_eq_true_eq]
              exact ⟨fun h => ⟨h, (Nat.not_lt.mp hlt).trans h⟩, fun h => h.1⟩
  rw [Db.latestConsentEvent, hfold]
  simp [Db.consentHistory]

end ApiWhatsApp
