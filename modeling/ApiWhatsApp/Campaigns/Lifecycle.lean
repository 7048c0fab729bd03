import ApiWhatsApp.Messages.Create

/-!
# Campaigns: statuses and statements

`campaigns/campaigns.service.ts` and the statements of `campaigns/campaign-processor.service.ts`.

* `readAudience` and `Db.audience` select the contacts of a campaign, `Db.prepareLaunch` is what
  `launch` decides under its row lock.
* `CampaignWrite` lists every statement or transaction that writes campaigns or recipients, from all
  services. On the campaigns each is an `UPDATE`: `targets` is its `WHERE`, `set` its `SET`.
* `recipient` is what a statement does to one recipient: the claim, its completion, and the bulk
  updates.
* **`campaigns_run`** and **`recipients_run`** say what a statement leaves in the two tables.

`cancel` and `failCampaign` update the campaign and its pending recipients in one transaction, under
`READ COMMITTED`: the second statement sees the recipients that are pending when it runs, so their
list is part of the write.
-/

namespace ApiWhatsApp

open Library

/-- The text of a `uuid`. -/
def Uuid.text (id : Uuid) : String := toString id

/-- Source: `positiveInteger`. -/
def positiveInteger (raw : Option ℕ) (fallback : ℕ) : ℕ := (raw.filter fun n => 0 < n).getD fallback

/-- The settings of campaigns. -/
structure CampaignConfig where
  /-- `CAMPAIGN_MAX_RECIPIENTS`. -/
  maxRecipientsRaw : Option ℕ
  /-- `CAMPAIGN_PROCESSOR_BATCH_SIZE`. -/
  batchSizeRaw : Option ℕ
  /-- `CAMPAIGN_PROCESSOR_LEASE_MS`. -/
  leaseMsRaw : Option ℕ
  /-- `CAMPAIGN_RECIPIENT_MAX_ATTEMPTS`. -/
  maxAttemptsRaw : Option ℕ

namespace CampaignConfig

/-- Source: `maxRecipients`. -/
def maxRecipients (config : CampaignConfig) : ℕ :=
  min (positiveInteger config.maxRecipientsRaw 50000) 50000

def batchSize (config : CampaignConfig) : ℕ := positiveInteger config.batchSizeRaw 100

/-- At least five seconds. -/
def leaseMs (config : CampaignConfig) : ℕ := max 5000 (positiveInteger config.leaseMsRaw 30000)

def maxAttempts (config : CampaignConfig) : ℕ := positiveInteger config.maxAttemptsRaw 5

end CampaignConfig

/-- The name of a status in messages. -/
def CampaignStatus.text : CampaignStatus → String
  | .draft => "DRAFT"
  | .scheduled => "SCHEDULED"
  | .running => "RUNNING"
  | .paused => "PAUSED"
  | .completed => "COMPLETED"
  | .cancelled => "CANCELLED"
  | .failed => "FAILED"

/-- The statuses that no statement leaves. -/
def CampaignStatus.isTerminal : CampaignStatus → Bool
  | .completed | .cancelled | .failed => true
  | .draft | .scheduled | .running | .paused => false

/-- The statuses in which a recipient is done. -/
def CampaignRecipientStatus.isTerminal : CampaignRecipientStatus → Bool
  | .queued | .skipped | .failed | .cancelled => true
  | .pending | .processing => false

/-! ## The audience -/

/-- Source: `interface NormalizedCampaignAudience`. -/
structure NormalizedCampaignAudience where
  allOptedIn : Bool
  contactIds : Option (List String)
  segmentId : Option String
  segmentName : Option String
  segmentUpdatedAt : Option String
  language : Option String
  tagsAny : Option (List String)
  tagsAll : Option (List String)

/-- Source: `normalizeTags`. -/
def normalizeTags (tags : List String) : List String :=
  sort (newSet (tags.map fun tag => toLowerCase (trim tag)))

/-- Source: `readStringArray`. -/
def readStringArray (value : Option Json) : List String :=
  normalizeTags (((value.bind Json.array?).getD []).filterMap Json.string?)

/-- Source: `readAudience`. -/
def readAudience (value : Json) : Except HttpError NormalizedCampaignAudience :=
  match value with
  | .obj _ =>
      let allOptedIn := match value.get? "allOptedIn" with
        | some (.bool true) => true
        | _ => false
      let contactIds := ((value.get? "contactIds").bind Json.array?).map fun items =>
        items.filterMap Json.string?
      let hasContacts := contactIds.any fun ids => !ids.isEmpty
      let segmentId := ((value.get? "segmentId").bind Json.string?).filter fun id => id ≠ ""
      let tagsAny := readStringArray (value.get? "tagsAny")
      let tagsAll := readStringArray (value.get? "tagsAll")
      if allOptedIn.toNat + hasContacts.toNat + segmentId.isSome.toNat ≠ 1 then
        .error (.unprocessable "Campaign audience configuration is ambiguous")
      else .ok
        { allOptedIn := allOptedIn
          contactIds := if hasContacts then contactIds else none
          segmentId := segmentId
          segmentName := (value.get? "segmentName").bind Json.string?
          segmentUpdatedAt := (value.get? "segmentUpdatedAt").bind Json.string?
          language := ((value.get? "language").bind Json.string?).filter fun text => text ≠ ""
          tagsAny := if tagsAny.isEmpty then none else some tagsAny
          tagsAll := if tagsAll.isEmpty then none else some tagsAll }
  | _ => .error (.unprocessable "Campaign audience snapshot configuration is invalid")

/-- Source: `tagFilter`, applied to the tags of a contact. -/
def NormalizedCampaignAudience.tagFilter (audience : NormalizedCampaignAudience)
    (tags : List String) : Bool :=
  (audience.tagsAny.all fun wanted => wanted.any fun tag => tag ∈ tags) &&
    audience.tagsAll.all fun wanted => wanted.all fun tag => tag ∈ tags

/-- The contacts that `launch` finds. -/
def Db.audience (db : Db) (tenantId : Uuid) (audience : NormalizedCampaignAudience) : List Uuid :=
  (db.contacts.rows.filter fun contact =>
    contact.tenantId = tenantId && contact.consentStatus = .optedIn &&
    (audience.language.all fun language => contact.language = some language) &&
    (audience.contactIds.all fun ids => contact.id.text ∈ ids) &&
    audience.tagFilter contact.tags).map Contact.id

/-- Source: `assertMarketingTemplate`. -/
def assertMarketingTemplate (template : MessageTemplate) (senderWabaId : String) :
    Except HttpError Unit :=
  if template.wabaId ≠ senderWabaId then
    .error (.unprocessable "Campaign template does not belong to the selected sender WABA")
  else if toUpperCase template.status ≠ "APPROVED" then
    .error (.unprocessable "Campaign template must be APPROVED")
  else if template.category.map toUpperCase ≠ some "MARKETING" then
    .error (.unprocessable "Campaigns require a MARKETING template")
  else .ok ()

/-- The campaign of a tenant. -/
def Db.campaign (db : Db) (tenantId id : Uuid) : Option Campaign :=
  (db.campaigns.find id).filter fun c => c.tenantId = tenantId

/-- What `launch` decides in its transaction: `none` for a campaign that was launched before, else
the contacts. The rows that foreign keys guarantee are taken for missing when they are. -/
def Db.prepareLaunch (db : Db) (config : CampaignConfig) (tenantId id : Uuid) :
    Except HttpError (Option (List Uuid)) :=
  match db.campaign tenantId id with
  | none => .error (.notFound "Campaign not found")
  | some c =>
      if c.snapshotAt.isSome &&
          (c.status = .scheduled || c.status = .running || c.status = .completed) then .ok none
      else if c.status ≠ .draft then
        .error (.conflict s!"Campaign in {c.status.text} state cannot be launched")
      else match db.phoneNumbers.find (.id c.senderId), db.templates.find (.id c.templateId) with
        | some sender, some template =>
            match sender.wabaId.filter fun wabaId => sender.active && wabaId ≠ "" with
            | none =>
                .error (.unprocessable "Campaign sender is inactive or missing its WABA ID")
            | some wabaId => do
                assertMarketingTemplate template wabaId
                let audience ← readAudience c.audience
                let contactIds := db.audience tenantId audience
                if config.maxRecipients < contactIds.length then
                  .error (.badRequest s!"Campaign audience exceeds CAMPAIGN_MAX_RECIPIENTS ({config.maxRecipients})")
                else .ok (some contactIds)
        | _, _ => .error (.notFound "Campaign not found")

/-! ## Statements -/

/-- What `refreshStats` counts. -/
structure RecipientCounts where
  pending : ℕ
  processing : ℕ
  queued : ℕ
  skipped : ℕ
  failed : ℕ
  cancelled : ℕ
  deriving DecidableEq

/-- The recipients of a campaign in a status. -/
def Db.countRecipients (db : Db) (campaignId : Uuid) (status : CampaignRecipientStatus) : ℕ :=
  (db.recipients.rows.filter fun r => r.campaignId = campaignId && r.status = status).length

/-- The aggregate of `refreshStats`. -/
def Db.recipientCounts (db : Db) (campaignId : Uuid) : RecipientCounts where
  pending := db.countRecipients campaignId .pending
  processing := db.countRecipients campaignId .processing
  queued := db.countRecipients campaignId .queued
  skipped := db.countRecipients campaignId .skipped
  failed := db.countRecipients campaignId .failed
  cancelled := db.countRecipients campaignId .cancelled

/-- The `data` of `completeClaim`; a field that is not given is left as it is. -/
structure ClaimResult where
  status : CampaignRecipientStatus
  nextAttemptAt : Option Time
  lastError : Option String
  messageId : Option Uuid
  queuedAt : Option Time

/-- The row after `completeClaim`. -/
def ClaimResult.apply (result : ClaimResult) (r : CampaignRecipient) : CampaignRecipient :=
  { r with
    status := result.status
    nextAttemptAt := result.nextAttemptAt.getD r.nextAttemptAt
    lastError := result.lastError
    messageId := result.messageId.or r.messageId
    queuedAt := result.queuedAt.or r.queuedAt
    processingLeaseUntil := none }

/-- The statements and transactions that write campaigns or recipients. -/
inductive CampaignWrite where
  /-- `campaign.create`. -/
  | insert (row : Campaign)
  /-- The end of `launch`. -/
  | launch (id : Uuid) (contactIds rowIds : List Uuid) (now : Time)
  | promoteScheduledCampaigns (now : Time)
  | pause (tenantId id : Uuid)
  | resume (tenantId id : Uuid) (status : CampaignStatus) (startedAt : Option Time)
  | cancel (tenantId id : Uuid) (cancelledAt : Time) (pending : List Uuid)
  | failCampaign (id : Uuid) (failureReason : String) (pending : List Uuid)
  /-- The first update of `refreshStats`. -/
  | storeCounts (id : Uuid) (counts : RecipientCounts)
  /-- The second update of `refreshStats`. -/
  | complete (id : Uuid) (now : Time)
  | claimRecipients (leaseUntil : Time) (ids : List Uuid)
  | completeClaim (claim : CampaignRecipient) (result : ClaimResult)

namespace CampaignWrite

/-- The status that `launch` ends in. -/
def launchStatus (contactIds : List Uuid) (now : Time) (c : Campaign) : CampaignStatus :=
  if contactIds.length = 0 then .completed
  else if c.scheduledAt.any fun scheduledAt => now < scheduledAt then .scheduled
  else .running

/-- The campaigns that a statement updates. -/
def targets : CampaignWrite → Campaign → Bool
  | launch id _ _ _, c => c.id = id
  | promoteScheduledCampaigns now, c =>
      c.status = .scheduled && c.scheduledAt.any fun scheduledAt => scheduledAt ≤ now
  | pause tenantId id, c =>
      c.id = id && c.tenantId = tenantId && (c.status = .running || c.status = .scheduled)
  | resume tenantId id _ _, c => c.id = id && c.tenantId = tenantId && c.status = .paused
  | cancel tenantId id _ _, c =>
      c.id = id && c.tenantId = tenantId &&
        (c.status = .draft || c.status = .scheduled || c.status = .running || c.status = .paused)
  | failCampaign id _ _, c => c.id = id && (c.status = .running || c.status = .scheduled)
  | storeCounts id _, c => c.id = id
  | complete id _, c => c.id = id && c.status = .running
  | insert _, _ | claimRecipients _ _, _ | completeClaim _ _, _ => false

/-- What becomes of such a campaign. -/
def set : CampaignWrite → Campaign → Campaign
  | launch _ contactIds _ now, c =>
      let status := launchStatus contactIds now c
      { c with
        status := status
        snapshotAt := some now
        totalRecipients := contactIds.length
        startedAt := if status = .running then some now else c.startedAt
        completedAt := if status = .completed then some now else c.completedAt }
  | promoteScheduledCampaigns now, c => { c with status := .running, startedAt := some now }
  | pause _ _, c => { c with status := .paused }
  | resume _ _ status startedAt, c =>
      { c with status := status, startedAt := startedAt.or c.startedAt }
  | cancel _ _ cancelledAt _, c =>
      { c with status := .cancelled, cancelledAt := some cancelledAt }
  | failCampaign _ failureReason _, c =>
      { c with status := .failed, failureReason := some failureReason }
  | storeCounts _ counts, c =>
      { c with
        queuedRecipients := counts.queued
        skippedRecipients := counts.skipped
        failedRecipients := counts.failed
        cancelledRecipients := counts.cancelled }
  | complete _ now, c => { c with status := .completed, completedAt := some now }
  | insert _, c | claimRecipients _ _, c | completeClaim _ _, c => c

@[simp] theorem keys_set (w : CampaignWrite) (c : Campaign) :
    Keyed.keys (w.set c) = Keyed.keys c := by
  cases w <;> rfl

/-- The campaign after the statement. -/
def campaign (w : CampaignWrite) (c : Campaign) : Campaign := if w.targets c then w.set c else c

/-- The row of a new recipient. -/
def newRecipient (id campaignId contactId : Uuid) (now : Time) : CampaignRecipient where
  id := id
  campaignId := campaignId
  contactId := contactId
  messageId := none
  status := .pending
  attemptCount := 0
  nextAttemptAt := now
  processingLeaseUntil := none
  lastError := none
  queuedAt := none

/-- The `WHERE` of the claiming statement, for a recipient of a campaign in this status. -/
def isClaimable (clock : Time) (status : Option CampaignStatus) (r : CampaignRecipient) : Bool :=
  (r.status = .pending && r.nextAttemptAt ≤ clock &&
      (r.processingLeaseUntil.all fun leaseUntil => leaseUntil ≤ clock) && status = some .running) ||
    r.status = .processing && r.processingLeaseUntil.any fun leaseUntil => leaseUntil ≤ clock

/-- The claiming statement takes this recipient. -/
def claims (db : Db) (clock : Time) (ids : List Uuid) (r : CampaignRecipient) : Bool :=
  r.id ∈ ids && isClaimable clock ((db.campaigns.find r.campaignId).map Campaign.status) r

/-- The row after the claiming statement. -/
def claimed (leaseUntil : Time) (r : CampaignRecipient) : CampaignRecipient :=
  { r with
    status := .processing
    attemptCount := r.attemptCount + 1
    processingLeaseUntil := some leaseUntil }

/-- The `WHERE` of `completeClaim`. -/
def isHeld (claim r : CampaignRecipient) : Bool :=
  r.id = claim.id && r.status = .processing &&
    r.processingLeaseUntil = claim.processingLeaseUntil

/-- The bulk update of a transaction that ends a campaign. -/
def ended (status : CampaignRecipientStatus) (lastError : String) (r : CampaignRecipient) :
    CampaignRecipient :=
  { r with status := status, processingLeaseUntil := none, lastError := some lastError }

/-- The `WHERE` of the bulk update. -/
def isCovered (campaignId : Uuid) (pending : List Uuid) (r : CampaignRecipient) : Bool :=
  r.campaignId = campaignId && r.status = .pending && r.id ∈ pending

/-- The recipient after the statement. -/
def recipient (db : Db) (clock : Time) : CampaignWrite → CampaignRecipient → CampaignRecipient
  | claimRecipients leaseUntil ids, r => if claims db clock ids r then claimed leaseUntil r else r
  | completeClaim claim result, r => if isHeld claim r then result.apply r else r
  | cancel _ id _ pending, r =>
      if isCovered id pending r then
        ended .cancelled "Campaign cancelled before recipient processing" r
      else r
  | failCampaign id failureReason pending, r =>
      if isCovered id pending r then ended .failed failureReason r else r
  | insert _, r | launch _ _ _ _, r | promoteScheduledCampaigns _, r | pause _ _, r
  | resume _ _ _ _, r | storeCounts _ _, r | complete _ _, r => r

/-- The rows that `launch` adds, at most a thousand a statement and `skipDuplicates`. -/
def launched (id : Uuid) (contactIds rowIds : List Uuid) (clock : Time) : List CampaignRecipient :=
  List.zipWith (fun contactId rowId => newRecipient rowId id contactId clock) contactIds rowIds

/-- The campaigns after the statement; `none` is a unique violation. -/
def campaignsAfter (db : Db) : CampaignWrite → Option (Table Campaign)
  | insert row => db.campaigns.insert? row
  | w => some (db.campaigns.updateWhere w.targets w.set w.keys_set)

/-- The recipients after the statement; `none` is a unique violation. -/
def recipientsAfter (db : Db) (clock : Time) : CampaignWrite → Option (Table CampaignRecipient)
  | launch id contactIds rowIds _ =>
      some (db.recipients.insertAll (launched id contactIds rowIds clock))
  | w => db.recipients.mapRows? (w.recipient db clock)

/-- The statement. -/
def run (db : Db) (clock : Time) (w : CampaignWrite) : Option Db :=
  (w.campaignsAfter db).bind fun campaigns =>
    (w.recipientsAfter db clock).map fun recipients =>
      { db with campaigns := campaigns, recipients := recipients }

/-! ## What a statement does to one row -/

variable {db db' : Db} {clock : Time} {w : CampaignWrite}

/-- A statement writes no table but the two. -/
theorem run_frame (h : w.run db clock = some db') :
    ∃ campaigns recipients, db' = { db with campaigns := campaigns, recipients := recipients } := by
  obtain ⟨campaigns, -, h⟩ := Option.bind_eq_some_iff.mp h
  obtain ⟨recipients, -, rfl⟩ := Option.map_eq_some_iff.mp h
  exact ⟨campaigns, recipients, rfl⟩

/-- The campaigns after a statement: the image of those before, and a new one. -/
theorem campaigns_run (h : w.run db clock = some db') :
    (∀ c ∈ db.campaigns.rows, w.campaign c ∈ db'.campaigns.rows) ∧
      ∀ c' ∈ db'.campaigns.rows, (∃ c ∈ db.campaigns.rows, c' = w.campaign c) ∨
        (w = .insert c' ∧ ∀ c ∈ db.campaigns.rows, c.id ≠ c'.id) := by
  obtain ⟨campaigns, hcampaigns, h⟩ := Option.bind_eq_some_iff.mp h
  obtain ⟨recipients, -, rfl⟩ := Option.map_eq_some_iff.mp h
  by_cases hw : ∃ row, w = .insert row
  · obtain ⟨row, rfl⟩ := hw
    have hsame : ∀ c, (insert row).campaign c = c := fun c => by simp [campaign, targets]
    simp only [hsame, exists_eq_right']
    have hrows := Table.rows_of_insert? hcampaigns
    rw [hrows]
    refine ⟨fun c hc => List.mem_cons_of_mem _ hc, fun c' hc' => ?_⟩
    rcases List.mem_cons.mp hc' with rfl | hc'
    · refine .inr ⟨rfl, fun c hc hid => ?_⟩
      have hfree := Table.find_eq_none_of_insert? hcampaigns (List.mem_singleton.mpr rfl)
      exact db.campaigns.find_eq_none_iff.mp hfree c hc (List.mem_singleton.mpr hid.symm)
    · exact .inl hc'
  · have hrows : campaigns.rows = db.campaigns.rows.map w.campaign := by
      cases w with
      | insert row => exact absurd ⟨row, rfl⟩ hw
      | _ =>
          cases hcampaigns
          rfl
    rw [hrows]
    refine ⟨fun c hc => List.mem_map_of_mem hc, fun c' hc' => .inl ?_⟩
    obtain ⟨c, hc, rfl⟩ := List.mem_map.mp hc'
    exact ⟨c, hc, rfl⟩

/-- The recipients after a statement, as a list: of a launch, or the image of those before. -/
theorem recipients_rows (h : w.run db clock = some db') :
    (∃ id contactIds rowIds now, w = .launch id contactIds rowIds now ∧
        db'.recipients = db.recipients.insertAll (launched id contactIds rowIds clock)) ∨
      ((∀ id contactIds rowIds now, w ≠ .launch id contactIds rowIds now) ∧
        db'.recipients.rows = db.recipients.rows.map (w.recipient db clock)) := by
  obtain ⟨campaigns, -, h⟩ := Option.bind_eq_some_iff.mp h
  obtain ⟨recipients, hrecipients, rfl⟩ := Option.map_eq_some_iff.mp h
  cases w with
  | launch id contactIds rowIds now =>
      cases hrecipients
      exact .inl ⟨id, contactIds, rowIds, now, rfl, rfl⟩
  | _ => exact .inr ⟨by simp, Table.rows_of_mapRows? hrecipients⟩

/-- The recipients after a statement: the image of those before, and those of a launch. -/
theorem recipients_run (h : w.run db clock = some db') :
    (∀ r ∈ db.recipients.rows, w.recipient db clock r ∈ db'.recipients.rows) ∧
      ∀ r' ∈ db'.recipients.rows, (∃ r ∈ db.recipients.rows, r' = w.recipient db clock r) ∨
        ∃ id contactIds rowIds now, w = .launch id contactIds rowIds now ∧
          r' ∈ launched id contactIds rowIds clock := by
  rcases recipients_rows h with ⟨id, contactIds, rowIds, now, rfl, hrecipients⟩ | ⟨-, hrows⟩
  · obtain ⟨hback, hkept⟩ := db.recipients.mem_insertAll (launched id contactIds rowIds clock)
    rw [hrecipients]
    refine ⟨hkept, fun r' hr' => ?_⟩
    rcases hback r' hr' with hr' | hr'
    · exact .inl ⟨r', hr', rfl⟩
    · exact .inr ⟨id, contactIds, rowIds, now, rfl, hr'⟩
  · rw [hrows]
    refine ⟨fun r hr => List.mem_map_of_mem hr, fun r' hr' => .inl ?_⟩
    obtain ⟨r, hr, rfl⟩ := List.mem_map.mp hr'
    exact ⟨r, hr, rfl⟩

end CampaignWrite

end ApiWhatsApp
