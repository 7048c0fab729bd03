import ApiWhatsApp.Campaigns.Counters
import ApiWhatsApp.Library.Doubles
import ApiWhatsApp.Outbound.Pipeline
import Mathlib.Tactic.Linarith
import Mathlib.Tactic.Positivity

/-!
# Campaign analytics

`campaigns/campaign-analytics.service.ts`: the milestones that the messages of a campaign have passed,
and their ratios.

* `Db.milestones` is the aggregate over the recipients joined with their messages, `rate` the
  rounding, `getAnalytics` the call. Its queries run beside each other, so each sees a database of
  its own.
* `Db.messaging` is everything that happens to the messages meanwhile: the dispatcher's updates and
  provider statuses in any order, new messages and their link to the recipient.
* `Staged` is the invariant. A milestone is a nullable time of its own, and a report sets only the
  time of its own status: a `READ` report that overtakes `DELIVERED` leaves `deliveredAt` empty for
  good. `ReadsDelivered` excludes just that.
* **`analytics_funnel`** — the milestones are ordered and the rates are percentages along every history
  in which no `READ` skips `DELIVERED`; `skipped_delivery` is a history in which one does.
-/

namespace ApiWhatsApp

open Library

/-! ## The service -/

/-- Source: `CampaignMessageMilestones`. -/
structure CampaignMessageMilestones where
  created : ℕ
  submitted : ℕ
  sent : ℕ
  delivered : ℕ
  read : ℕ
  failed : ℕ
  deriving DecidableEq

/-- The message of a recipient, in the `LEFT JOIN`. -/
def Db.messageOf (db : Db) (r : CampaignRecipient) : Option Message :=
  r.messageId.bind db.message

/-- The recipients of a campaign whose message has passed a milestone. -/
def Db.passed (db : Db) (campaignId : Uuid) (milestone : Message → Option Time) : ℕ :=
  (db.recipientsOf campaignId).countP fun r => (db.messageOf r).any fun m => (milestone m).isSome

/-- The second query of `get`. -/
def Db.milestones (db : Db) (campaignId : Uuid) : CampaignMessageMilestones where
  created := (db.recipientsOf campaignId).countP fun r => r.messageId.isSome
  submitted := db.passed campaignId Message.submittedAt
  sent := db.passed campaignId Message.sentAt
  delivered := db.passed campaignId Message.deliveredAt
  read := db.passed campaignId Message.readAt
  failed := db.passed campaignId Message.failedAt

/-- The third query of `get`. -/
def Db.currentStatus (db : Db) (campaignId : Uuid) (status : MessageStatus) : ℕ :=
  (db.recipientsOf campaignId).countP fun r => (db.messageOf r).any fun m => m.status = status

/-- Source: `rate`: two decimals, each operation in doubles; `Math.round` is exact, halves up. -/
def rate (numerator denominator : ℕ) : Option ℚ :=
  if denominator ≤ 0 then none
  else
    let scaled := toDouble (toDouble (numerator / denominator) * 10000)
    some (toDouble (⌊scaled + 1 / 2⌋ / 100))

/-- The `rates` of the response. -/
structure CampaignRates where
  messageCreationRate : Option ℚ
  submissionRate : Option ℚ
  deliveryRate : Option ℚ
  readRate : Option ℚ
  failureRate : Option ℚ

/-- All of them. -/
def CampaignRates.all (rates : CampaignRates) : List (Option ℚ) :=
  [rates.messageCreationRate, rates.submissionRate, rates.deliveryRate, rates.readRate,
    rates.failureRate]

/-- Source: `CampaignAnalyticsResponse`. -/
structure CampaignAnalyticsResponse where
  campaign : Campaign
  snapshotRecipients : ℕ
  byStatus : RecipientCounts
  terminalRecipients : ℕ
  milestones : CampaignMessageMilestones
  currentStatus : MessageStatus → ℕ
  rates : CampaignRates
  snapshotMatchesStoredTotal : Bool
  generatedAt : Time

/-- The sum over all statuses. -/
def RecipientCounts.total (counts : RecipientCounts) : ℕ :=
  counts.pending + counts.processing + counts.queued + counts.skipped + counts.failed +
    counts.cancelled

/-- Source: `CampaignAnalyticsService.get`. The campaign is read first; the three aggregates are read
at once, in no order, so each has the database that it finds. -/
def getAnalytics (atCampaign atRecipients atMilestones atStatuses : Db) (now : Time)
    (tenantId campaignId : Uuid) : Except HttpError CampaignAnalyticsResponse :=
  match atCampaign.campaign tenantId campaignId with
  | none => .error (.notFound "Campaign not found")
  | some campaign =>
      let counts := atRecipients.recipientCounts campaignId
      let milestones := atMilestones.milestones campaignId
      .ok
        { campaign := campaign
          snapshotRecipients := counts.total
          byStatus := counts
          terminalRecipients := counts.queued + counts.skipped + counts.failed + counts.cancelled
          milestones := milestones
          currentStatus := atStatuses.currentStatus campaignId
          rates :=
            { messageCreationRate := rate milestones.created counts.total
              submissionRate := rate milestones.submitted milestones.created
              deliveryRate := rate milestones.delivered milestones.submitted
              readRate := rate milestones.read milestones.delivered
              failureRate := rate milestones.failed milestones.created }
          snapshotMatchesStoredTotal := counts.total = campaign.totalRecipients
          generatedAt := now }

/-- A part of a whole is a percentage of it. -/
theorem rate_mem_percent {numerator denominator : ℕ} (h : numerator ≤ denominator) {percent : ℚ}
    (hrate : rate numerator denominator = some percent) : 0 ≤ percent ∧ percent ≤ 100 := by
  unfold rate at hrate
  split_ifs at hrate with hpos
  obtain rfl := Option.some.inj hrate
  have hden : (0 : ℚ) < denominator := by exact_mod_cast Nat.lt_of_not_le hpos
  have hnum : (numerator : ℚ) ≤ denominator := by exact_mod_cast h
  have hnonneg : (0 : ℚ) ≤ numerator / denominator := by positivity
  have hquotient : toDouble (numerator / denominator) ≤ (1 : ℕ) :=
    toDouble_le_natCast hnonneg (by simpa using (div_le_one hden).mpr hnum) (by norm_num)
  have hproduct : 0 ≤ toDouble (numerator / denominator) * 10000 :=
    mul_nonneg (toDouble_nonneg hnonneg) (by norm_num)
  have hscaled : toDouble (toDouble (numerator / denominator) * 10000) ≤ (10000 : ℕ) := by
    refine toDouble_le_natCast hproduct ?_ (by norm_num)
    push_cast at hquotient ⊢
    linarith
  have hpositive := toDouble_nonneg hproduct
  generalize toDouble (toDouble (numerator / denominator) * 10000) = scaled at hscaled hpositive ⊢
  have hlow : (0 : ℤ) ≤ ⌊scaled + 1 / 2⌋ := Int.floor_nonneg.mpr (by linarith)
  have hhigh : ⌊scaled + 1 / 2⌋ < 10001 := Int.floor_lt.mpr (by push_cast at hscaled ⊢; linarith)
  have hlow' : (0 : ℚ) ≤ (⌊scaled + 1 / 2⌋ : ℤ) / 100 := by
    exact div_nonneg (by exact_mod_cast hlow) (by norm_num)
  have hhigh' : ((⌊scaled + 1 / 2⌋ : ℤ) : ℚ) / 100 ≤ (100 : ℕ) := by
    have hcast : ((⌊scaled + 1 / 2⌋ : ℤ) : ℚ) ≤ 10000 := by exact_mod_cast Int.lt_add_one_iff.mp hhigh
    push_cast
    linarith
  exact ⟨toDouble_nonneg hlow', by exact_mod_cast toDouble_le_natCast hlow' hhigh' (by norm_num)⟩

/-- The statuses of the recipients add up to their number. -/
theorem total_recipientCounts (db : Db) (campaignId : Uuid) :
    (db.recipientCounts campaignId).total = (db.recipientsOf campaignId).length := by
  rw [length_eq_sum_countP]
  simp only [RecipientCounts.total, Db.recipientCounts, Db.countRecipients_eq]

/-! ## The history of the messages -/

/-- What happens to the messages of a campaign after its launch. -/
inductive MessagingAct where
  /-- A call of `create` commits. -/
  | create (now : Time) (tenantId : Uuid) (key : Option String) (draft : MessageDraft)
      (ids : CreateIds)
  /-- A message is received. -/
  | receive (message : Message)
  /-- A statement of the campaign services; one of them links a recipient to its message. -/
  | campaign (now : Time) (write : CampaignWrite)
  /-- An update of the dispatcher. -/
  | dispatch (messageId : Uuid) (write : RowWrite)
  /-- A provider status is applied. -/
  | report (now : Time) (status : MetaMessageStatus)

/-- The message that a statement links a recipient to. -/
def CampaignWrite.links : CampaignWrite → Option Uuid
  | .completeClaim _ result => result.messageId
  | _ => none

/-- A statement that links only to a sent message, and does not launch. -/
def Db.admits (db : Db) (write : CampaignWrite) : Bool :=
  (write.links.all fun id =>
    (db.message id).any fun m => m.direction = .outbound) &&
    match write with
    | .launch _ _ _ _ => false
    | _ => true

/-- One act. -/
def Db.messaging (db : Db) : MessagingAct → Option Db
  | .create now tenantId key draft ids =>
      (db.commitCreate now tenantId key draft ids).map Prod.fst
  | .receive message =>
      if message.direction = .inbound then
        (db.messages.insert? message).map fun messages => { db with messages := messages }
      else none
  | .campaign now write => if db.admits write then write.run db now else none
  | .dispatch messageId write =>
      (db.messages.update? (.id messageId) write.apply).map fun messages =>
        { db with messages := messages }
  | .report now status => db.applyStatus now status

/-- Nothing has been sent yet: the campaign may be launched, but its recipients have no messages. -/
structure Db.Unsent (db : Db) : Prop where
  inbound : ∀ m ∈ db.messages.rows, m.direction = .inbound
  unlinked : ∀ r ∈ db.recipients.rows, r.messageId = none

/-- A `READ` report that moves a message finds it delivered. -/
def Db.readsDelivered (db : Db) : MessagingAct → Bool
  | .report _ status =>
      mapStatus status.status ≠ some .read ||
        (db.messages.find (.providerMessageId status.id)).all fun message =>
          !shouldApplyStatus message.status .read || message.deliveredAt.isSome
  | _ => true

/-- No `READ` skips `DELIVERED`. -/
def ReadsDelivered (db : Db) (act : MessagingAct) : Prop := db.readsDelivered act = true

/-- The condition can be checked. -/
instance (db : Db) (act : MessagingAct) : Decidable (ReadsDelivered db act) :=
  inferInstanceAs (Decidable (_ = _))

/-- The milestones of a sent message are passed in order. -/
structure Message.Staged (m : Message) : Prop where
  submitted : m.providerMessageId.isSome = true → m.submittedAt.isSome = true
  delivered : m.deliveredAt.isSome = true → m.submittedAt.isSome = true
  read : m.readAt.isSome = true → m.deliveredAt.isSome = true

/-- The invariant: sent messages pass their milestones in order, and recipients are linked to them. -/
structure Db.Staged (db : Db) : Prop where
  messages : ∀ id m, db.message id = some m → m.direction = .outbound → m.Staged
  linked : ∀ r ∈ db.recipients.rows, ∀ id, r.messageId = some id →
    ∃ m, db.message id = some m ∧ m.direction = .outbound

/-- Where nothing was sent the milestones are in order. -/
theorem Db.Unsent.staged {db : Db} (h : db.Unsent) : db.Staged := by
  refine ⟨fun id m hm hout => ?_, fun r hr id hid => ?_⟩
  · rw [h.inbound m (db.messages.find_eq_some_iff.mp hm).1] at hout
    cases hout
  · rw [h.unlinked r hr] at hid
    cases hid

/-- A new message has passed none. -/
theorem MessageDraft.staged_message (draft : MessageDraft) (ids : CreateIds) (tenantId : Uuid)
    (key : Option String) (conversationId : Option Uuid) :
    (draft.message ids tenantId key conversationId).Staged := by
  constructor <;> intro h <;> cases h

/-- The dispatcher's updates keep the order of the milestones. -/
theorem Message.Staged.write {m : Message} (h : m.Staged) (write : RowWrite) :
    (write.apply m).Staged := by
  obtain ⟨hsubmitted, hdelivered, hread⟩ := h
  cases write with
  | submit now providerMessageId response => exact ⟨fun _ => rfl, fun _ => rfl, hread⟩
  | claim _ _ | markRetryableFailure _ _ | markFailed _ _ _ _ =>
      exact ⟨hsubmitted, hdelivered, hread⟩

/-- A report for a submitted message keeps it, unless a `READ` skips `DELIVERED`. -/
theorem Message.Staged.stamp {m : Message} (h : m.Staged) {target : MessageStatus} (at_ : Time)
    (error : Option String × Option String) (hid : m.providerMessageId.isSome = true)
    (hread : target = .read → m.deliveredAt.isSome = true) : (m.stamp target at_ error).Staged := by
  obtain ⟨hsubmitted, hdelivered, hreadAt⟩ := h
  cases target with
  | delivered => exact ⟨hsubmitted, fun _ => hsubmitted hid, fun _ => rfl⟩
  | read => exact ⟨hsubmitted, hdelivered, fun _ => hread rfl⟩
  | _ => exact ⟨hsubmitted, hdelivered, hreadAt⟩

/-- An act that leaves the recipients alone keeps the invariant when every message it leaves is staged
and none is lost. -/
theorem Db.Staged.of_messages {db db' : Db} (h : db.Staged)
    (hrecipients : db'.recipients = db.recipients)
    (hkept : ∀ id m, db.message id = some m →
      ∃ m', db'.message id = some m' ∧ m'.direction = m.direction)
    (hstaged : ∀ id m, db'.message id = some m → m.direction = .outbound → m.Staged) :
    db'.Staged := by
  refine ⟨hstaged, ?_⟩
  rw [hrecipients]
  intro r hr id hid
  obtain ⟨m, hm, hout⟩ := h.linked r hr id hid
  obtain ⟨m', hm', hdirection⟩ := hkept id m hm
  exact ⟨m', hm', hdirection.trans hout⟩

/-- A new message keeps the invariant when it is staged. -/
theorem Db.Staged.insert {db db' : Db} (h : db.Staged)
    (hrecipients : db'.recipients = db.recipients) (message : Message)
    (hnew : db.message message.id = none)
    (hrows : ∀ id, db'.message id = if id = message.id then some message else db.message id)
    (hstaged : message.direction = .outbound → message.Staged) : db'.Staged := by
  refine h.of_messages hrecipients ?_ ?_
  · intro id m hm
    have hne : id ≠ message.id := by
      rintro rfl
      rw [hnew] at hm
      cases hm
    exact ⟨m, by rw [hrows, if_neg hne, hm], rfl⟩
  · intro id m hm hout
    rw [hrows] at hm
    split_ifs at hm with hid
    · obtain rfl := Option.some.inj hm
      exact hstaged hout
    · exact h.messages id m hm hout

/-- An update of one message keeps the invariant when it does so on its row. -/
theorem Db.Staged.update {db db' : Db} (h : db.Staged)
    (hrecipients : db'.recipients = db.recipients) {target : Uuid} {f : Message → Message}
    (hrows : ∀ id, db'.message id = (db.message id).map fun m => if id = target then f m else m)
    (hdirection : ∀ m, (f m).direction = m.direction)
    (hf : ∀ m, db.message target = some m → m.Staged → (f m).Staged) : db'.Staged := by
  refine h.of_messages hrecipients ?_ ?_
  · intro id m hm
    refine ⟨if id = target then f m else m, by rw [hrows, hm]; rfl, ?_⟩
    split_ifs
    · exact hdirection m
    · rfl
  · intro id m' hm' hout
    rw [hrows] at hm'
    obtain ⟨m, hm, rfl⟩ := Option.map_eq_some_iff.mp hm'
    split_ifs at hout ⊢ with hid
    · subst hid
      rw [hdirection] at hout
      exact hf m hm (h.messages id m hm hout)
    · exact h.messages id m hm hout

/-- A status report leaves the recipients. -/
theorem recipients_applyStatus {db db' : Db} {now : Time} {status : MetaMessageStatus}
    (h : db.applyStatus now status = some db') : db'.recipients = db.recipients := by
  unfold Db.applyStatus at h
  split at h
  · cases h
    rfl
  · split at h
    · cases h
      rfl
    · obtain ⟨at_, -, rfl⟩ := Option.map_eq_some_iff.mp h
      rfl

/-- A status report keeps the milestones in order. -/
theorem Db.Staged.applyStatus {db db' : Db} (h : db.Staged) {now : Time}
    {status : MetaMessageStatus} (hread : ReadsDelivered db (.report now status))
    (happly : db.applyStatus now status = some db') : db'.Staged := by
  have hrecipients := recipients_applyStatus happly
  rcases Pipeline.message_of_applyStatus happly with hrows |
    ⟨message, target, at_, error, hrow, hid, htarget, hshould, hrows⟩
  · exact h.of_messages hrecipients (fun id m hm => ⟨m, by rw [hrows, hm], rfl⟩)
      fun id m hm => h.messages id m (by rwa [hrows] at hm)
  · have hmap : ∀ id, db'.message id =
        (db.message id).map fun m => if id = message.id then m.stamp target at_ error else m := by
      intro id
      rw [hrows]
      split_ifs with heq
      · rw [heq, hrow]
        rfl
      · simp
    refine h.update hrecipients hmap ?_ ?_
    · intro m
      cases target <;> rfl
    · intro m hm hstaged
      obtain rfl := Option.some.inj (hrow.symm.trans hm)
      refine hstaged.stamp at_ error (by rw [hid]; rfl) fun hRead => ?_
      subst hRead
      have hfind : db.messages.find (.providerMessageId status.id) = some message :=
        db.messages.find_eq_some_iff.mpr
          ⟨(db.messages.find_eq_some_iff.mp hrow).1, by simpa using hid⟩
      simpa [ReadsDelivered, Db.readsDelivered, htarget, hfind, hshould] using hread

/-- Where the recipients after a statement have their messages from. -/
theorem CampaignWrite.messageId_recipient {db : Db} {now : Time} {write : CampaignWrite}
    {r : CampaignRecipient} {id : Uuid} (h : (write.recipient db now r).messageId = some id) :
    r.messageId = some id ∨ write.links = some id := by
  cases write with
  | completeClaim claim result =>
      simp only [recipient] at h
      split_ifs at h
      · rcases hresult : result.messageId with _ | linked
        · exact .inl (by simpa [ClaimResult.apply, hresult] using h)
        · exact .inr (by simpa [links, ClaimResult.apply, hresult] using h)
      · exact .inl h
  | claimRecipients _ _ | cancel _ _ _ _ | failCampaign _ _ _ =>
      simp only [recipient] at h
      split_ifs at h <;> exact .inl h
  | _ => exact .inl h

/-- A statement of the campaign services that is not a launch, in the history of the messages. -/
theorem Db.rows_of_admits {db db' : Db} {now : Time} {write : CampaignWrite}
    (hadmits : db.admits write = true) (hrun : write.run db now = some db') :
    db'.messages = db.messages ∧ db'.recipients.rows = db.recipients.rows.map (write.recipient db now) := by
  refine ⟨?_, ?_⟩
  · obtain ⟨campaigns, recipients, rfl⟩ := CampaignWrite.run_frame hrun
    rfl
  · rcases CampaignWrite.recipients_rows hrun with ⟨_, _, _, _, rfl, -⟩ | ⟨-, hrows⟩
    · simp [Db.admits] at hadmits
    · exact hrows

/-- A write of a campaign keeps the milestones in order. -/
theorem Db.Staged.campaign {db db' : Db} (h : db.Staged) {now : Time} {write : CampaignWrite}
    (hadmits : db.admits write = true) (hrun : write.run db now = some db') : db'.Staged := by
  obtain ⟨hmessages, hrows⟩ := Db.rows_of_admits hadmits hrun
  have hsame : ∀ id, db'.message id = db.message id := fun id => by simp only [Db.message, hmessages]
  refine ⟨fun id m hm => h.messages id m (by rwa [hsame] at hm), ?_⟩
  rw [hrows]
  intro r' hr' id hid
  obtain ⟨r, hr, rfl⟩ := List.mem_map.mp hr'
  rw [hsame]
  rcases CampaignWrite.messageId_recipient hid with hid | hlinks
  · exact h.linked r hr id hid
  · simp only [Db.admits, Bool.and_eq_true, hlinks, Option.all_some, Option.any_eq_true,
      decide_eq_true_eq] at hadmits
    exact hadmits.1

/-- **Every act keeps the milestones in order**, unless a `READ` skips `DELIVERED`. -/
theorem Db.Staged.messaging {db db' : Db} (h : db.Staged) {act : MessagingAct}
    (hread : ReadsDelivered db act) (hact : db.messaging act = some db') : db'.Staged := by
  cases act with
  | create now tenantId key draft ids =>
      obtain ⟨⟨db₁, message⟩, hcommit, rfl⟩ := Option.map_eq_some_iff.mp hact
      obtain ⟨_, _, _, _, hframe⟩ := Db.commitCreate_frame hcommit
      obtain ⟨hnew, hrows⟩ := Pipeline.message_of_commitCreate hcommit
      obtain ⟨⟨conversationId, rfl⟩, -, -⟩ := Db.commitCreate_spec hcommit
      exact h.insert (by rw [hframe]) _ hnew hrows fun _ => draft.staged_message ids tenantId key _
  | receive message =>
      obtain ⟨hinbound, hact⟩ := Option.ite_none_right_eq_some.mp hact
      obtain ⟨messages, hinsert, rfl⟩ := Option.map_eq_some_iff.mp hact
      have hnew : db.message message.id = none :=
        Table.find_eq_none_of_insert? hinsert (by simp)
      refine h.insert rfl message hnew (fun id => ?_) fun hout => ?_
      · rw [Db.message, Table.find_of_insert? hinsert]
        simp only [mem_keys_id, Db.message, eq_comm]
      · rw [hinbound] at hout
        cases hout
  | campaign now write =>
      obtain ⟨hadmits, hrun⟩ := Option.ite_none_right_eq_some.mp hact
      exact h.campaign hadmits hrun
  | dispatch messageId write =>
      obtain ⟨messages, hupdate, rfl⟩ := Option.map_eq_some_iff.mp hact
      exact h.update rfl (Pipeline.message_of_update? (fun m => write.id_apply m) hupdate)
        (fun m => by cases write <;> rfl) fun m _ hstaged => hstaged.write write
  | report now status => exact h.applyStatus hread hact

/-! ## The funnel -/

/-- The message of a recipient is a sent one, and the recipient is linked to it. -/
theorem Db.Staged.messageOf {db : Db} (h : db.Staged) {r : CampaignRecipient}
    (hr : r ∈ db.recipients.rows) {m : Message} (hm : db.messageOf r = some m) :
    r.messageId.isSome = true ∧ m.Staged := by
  obtain ⟨id, hid, hmessage⟩ := Option.bind_eq_some_iff.mp hm
  obtain ⟨m', hm', hout⟩ := h.linked r hr id hid
  obtain rfl := Option.some.inj (hmessage.symm.trans hm')
  exact ⟨by rw [hid]; rfl, h.messages id m hmessage hout⟩

/-- A milestone that every sent message passes after another is counted no more often. -/
theorem Db.Staged.passed_le {db : Db} (h : db.Staged) (campaignId : Uuid)
    {later earlier : Message → Option Time}
    (himp : ∀ m : Message, m.Staged → (later m).isSome = true → (earlier m).isSome = true) :
    db.passed campaignId later ≤ db.passed campaignId earlier := by
  refine List.countP_mono_left fun r hr hlater => ?_
  obtain ⟨m, hm, hlater⟩ := (Option.any_eq_true _ _).mp hlater
  obtain ⟨-, hstaged⟩ := h.messageOf (List.mem_of_mem_filter hr) hm
  exact (Option.any_eq_true _ _).mpr ⟨m, hm, himp m hstaged hlater⟩

/-- Only a linked recipient has passed anything. -/
theorem Db.Staged.passed_le_created {db : Db} (h : db.Staged) (campaignId : Uuid)
    (milestone : Message → Option Time) :
    db.passed campaignId milestone ≤ (db.milestones campaignId).created := by
  refine List.countP_mono_left fun r hr hpassed => ?_
  obtain ⟨m, hm, -⟩ := (Option.any_eq_true _ _).mp hpassed
  exact (h.messageOf (List.mem_of_mem_filter hr) hm).1

/-- The milestones form a funnel. -/
structure CampaignMessageMilestones.Funnel (milestones : CampaignMessageMilestones) : Prop where
  read : milestones.read ≤ milestones.delivered
  delivered : milestones.delivered ≤ milestones.submitted
  submitted : milestones.submitted ≤ milestones.created
  failed : milestones.failed ≤ milestones.created

/-- The milestones make a funnel. -/
theorem Db.Staged.funnel {db : Db} (h : db.Staged) (campaignId : Uuid) :
    (db.milestones campaignId).Funnel where
  read := h.passed_le campaignId fun _ hm => hm.read
  delivered := h.passed_le campaignId fun _ hm => hm.delivered
  submitted := h.passed_le_created campaignId _
  failed := h.passed_le_created campaignId _

/-- No act adds or removes a recipient. -/
theorem length_recipientsOf_messaging {db db' : Db} {act : MessagingAct}
    (hact : db.messaging act = some db') (campaignId : Uuid) :
    (db'.recipientsOf campaignId).length = (db.recipientsOf campaignId).length := by
  have hsame : db'.recipients = db.recipients →
      (db'.recipientsOf campaignId).length = (db.recipientsOf campaignId).length := by
    intro heq
    rw [Db.recipientsOf, heq, Db.recipientsOf]
  cases act with
  | create now tenantId key draft ids =>
      obtain ⟨⟨db₁, message⟩, hcommit, rfl⟩ := Option.map_eq_some_iff.mp hact
      obtain ⟨_, _, _, _, hframe⟩ := Db.commitCreate_frame hcommit
      exact hsame (by rw [hframe])
  | receive message =>
      obtain ⟨-, hact⟩ := Option.ite_none_right_eq_some.mp hact
      obtain ⟨messages, -, rfl⟩ := Option.map_eq_some_iff.mp hact
      exact hsame rfl
  | campaign now write =>
      obtain ⟨hadmits, hrun⟩ := Option.ite_none_right_eq_some.mp hact
      rw [Db.recipientsOf, (Db.rows_of_admits hadmits hrun).2, List.filter_map, List.length_map,
        Db.recipientsOf]
      congr 1
      refine List.filter_congr fun r _ => ?_
      simp [(write.identity_recipient r).2.1]
  | dispatch messageId write =>
      obtain ⟨messages, -, rfl⟩ := Option.map_eq_some_iff.mp hact
      exact hsame rfl
  | report now status => exact hsame (recipients_applyStatus hact)

/-- Every rate is a percentage. -/
def CampaignRates.Percentages (rates : CampaignRates) : Prop :=
  ∀ rate ∈ rates.all, ∀ percent, rate = some percent → 0 ≤ percent ∧ percent ≤ 100

/-- **The funnel.** Along every history of the messages of a campaign in which no `READ` report skips
`DELIVERED`, the milestones that `get` returns are ordered and its rates are percentages; whatever
happens between its queries. -/
theorem analytics_funnel {start atRecipients atMilestones : Db} (hstart : start.Unsent)
    (hrecipients : Reaches Db.messaging ReadsDelivered start atRecipients)
    (hmilestones : Reaches Db.messaging ReadsDelivered start atMilestones)
    (atCampaign atStatuses : Db) (now : Time) (tenantId campaignId : Uuid)
    {response : CampaignAnalyticsResponse}
    (hget : getAnalytics atCampaign atRecipients atMilestones atStatuses now tenantId campaignId =
      .ok response) :
    response.milestones.Funnel ∧ response.rates.Percentages := by
  have hstaged : atMilestones.Staged :=
    hmilestones.invariant hstart.staged fun _ _ _ h hread hact => h.messaging hread hact
  have hfunnel := hstaged.funnel campaignId
  -- Recipients do not come or go, so it does not matter when they are counted.
  have hlength : ∀ db, Reaches Db.messaging ReadsDelivered start db →
      (db.recipientsOf campaignId).length = (start.recipientsOf campaignId).length := fun db hdb =>
    hdb.invariant (P := fun db => (db.recipientsOf campaignId).length =
      (start.recipientsOf campaignId).length) rfl
      fun _ _ _ h _ hact => (length_recipientsOf_messaging hact campaignId).trans h
  have hcreated : (atMilestones.milestones campaignId).created ≤
      (atRecipients.recipientCounts campaignId).total := by
    rw [total_recipientCounts, hlength _ hrecipients, ← hlength _ hmilestones]
    exact List.countP_le_length
  unfold getAnalytics at hget
  split at hget
  · cases hget
  · obtain rfl := Except.ok.inj hget
    refine ⟨hfunnel, ?_⟩
    intro value hvalue percent hpercent
    simp only [CampaignRates.all, List.mem_cons, List.not_mem_nil, or_false] at hvalue
    rcases hvalue with rfl | rfl | rfl | rfl | rfl
    · exact rate_mem_percent hcreated hpercent
    · exact rate_mem_percent hfunnel.submitted hpercent
    · exact rate_mem_percent hfunnel.delivered hpercent
    · exact rate_mem_percent hfunnel.read hpercent
    · exact rate_mem_percent hfunnel.failed hpercent

/-! ## Two recipients -/

/-- A recipient that a pass has claimed. -/
def claimedRecipient (id contactId : Uuid) : CampaignRecipient :=
  { CampaignWrite.newRecipient id 50 contactId 0 with
    status := .processing
    processingLeaseUntil := some 10 }

/-- A launched campaign with two recipients. -/
def launchedDb : Db :=
  { Db.empty with
    campaigns := ⟨[Campaign.drafted 50 1 7 9 .null none false none], List.pairwise_singleton _ _⟩
    recipients := ⟨[claimedRecipient 60 80, claimedRecipient 61 81], by decide⟩ }

/-- Nothing was sent of the sample launch. -/
theorem unsent_launchedDb : launchedDb.Unsent :=
  ⟨by decide, by decide⟩

/-- A message is created for a recipient, linked to it and submitted. -/
def submission (recipientId contactId messageId : Uuid) (wamid : String) : List MessagingAct :=
  [.create 0 1 none
      { senderId := 7, to_ := "5511999999999", type := .template, trafficClass := .marketing,
        payload := .null, acceptedAt := 0 }
      { messageId := messageId, eventId := messageId, conversationId := messageId },
    .campaign 0 (.completeClaim (claimedRecipient recipientId contactId)
      { status := .queued, nextAttemptAt := none, lastError := none, messageId := some messageId,
        queuedAt := some 0 }),
    .dispatch messageId (.submit 1 wamid .null)]

/-- A provider status without a timestamp. -/
def reportOf (wamid status : String) : MessagingAct :=
  .report 2 { id := wamid, status := status, timestamp := none, errors := none }

/-- The first message is read after it was delivered. -/
def deliveredFirst : List MessagingAct :=
  submission 60 80 100 "a" ++ [reportOf "a" "delivered", reportOf "a" "read"]

/-- The second message is read, and the report of its delivery comes late. -/
def readFirst : List MessagingAct :=
  deliveredFirst ++ submission 61 81 101 "b" ++ [reportOf "b" "read", reportOf "b" "delivered"]

/-- `get` finds the campaign. -/
theorem getAnalytics_launchedDb (atRecipients atMilestones atStatuses : Db) :
    ∃ response, getAnalytics launchedDb atRecipients atMilestones atStatuses 0 1 50 = .ok response ∧
      response.milestones = atMilestones.milestones 50 := ⟨_, rfl, rfl⟩

/-- One message that is delivered and then read: the rates are percentages. -/
theorem analytics_funnel_delivered : ∃ db response,
    exec Db.messaging launchedDb deliveredFirst = some db ∧
      getAnalytics launchedDb db db db 0 1 50 = .ok response ∧ response.milestones.read = 1 ∧
      response.milestones.Funnel ∧ response.rates.Percentages := by
  have hread : (exec Db.messaging launchedDb deliveredFirst).map
      (fun db => (db.milestones 50).read) = some 1 := by decide
  obtain ⟨db, hrun, hread⟩ := Option.map_eq_some_iff.mp hread
  obtain ⟨response, hget, hmilestones⟩ := getAnalytics_launchedDb db db db
  have hreaches : Reaches Db.messaging ReadsDelivered launchedDb db :=
    Reaches.of_exec hrun (by decide)
  exact ⟨db, response, hrun, hget, by rw [hmilestones, hread],
    analytics_funnel unsent_launchedDb hreaches hreaches launchedDb db 0 1 50 hget⟩

/-- A `READ` report overtakes `DELIVERED`: two messages are read and one is delivered. -/
theorem skipped_delivery :
    ¬∀ start atRecipients atMilestones : Db, start.Unsent →
      Reachable Db.messaging start atRecipients → Reachable Db.messaging start atMilestones →
      ∀ (atCampaign atStatuses : Db) (now : Time) (tenantId campaignId : Uuid)
        (response : CampaignAnalyticsResponse),
        getAnalytics atCampaign atRecipients atMilestones atStatuses now tenantId campaignId =
          .ok response →
        response.milestones.Funnel ∧ response.rates.Percentages := by
  intro hall
  have hcounts : (exec Db.messaging launchedDb readFirst).map (fun db => db.milestones 50) =
      some { created := 2, submitted := 2, sent := 0, delivered := 1, read := 2, failed := 0 } := by
    decide
  obtain ⟨db, hrun, hcounts⟩ := Option.map_eq_some_iff.mp hcounts
  obtain ⟨response, hget, hmilestones⟩ := getAnalytics_launchedDb db db db
  have hreach : Reachable Db.messaging launchedDb db := Reachable.of_exec hrun
  obtain ⟨hfunnel, -⟩ := hall launchedDb db db unsent_launchedDb hreach hreach launchedDb db 0 1 50
    response hget
  have hread := hfunnel.read
  rw [hmilestones, hcounts] at hread
  exact absurd hread (by decide)

end ApiWhatsApp
