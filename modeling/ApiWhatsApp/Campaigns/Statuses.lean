import ApiWhatsApp.Campaigns.System

/-!
# The lifecycle of a campaign

Launch, pause, resume, cancel, `failCampaign`, `refreshStats` and any number of passes move the
status of a campaign, each from what it has read in an earlier statement.

* `CampaignStatus.canMoveTo` is the table of moves.
* `Lawful` is the invariant. It says what the workers may rely on: who launches or cancels holds a
  campaign that can still be launched or cancelled, and who has counted no open recipient refreshes a
  campaign without open recipients.
* **`lifecycle`** — the moves of every step, and what `COMPLETED` means in every state.

The count of `refreshStats` is stable once it is zero: a terminal recipient never changes, and
recipients are added only to a draft, for which nobody calls `refreshStats`.
-/

namespace ApiWhatsApp

open Library

/-- The moves of a status. -/
def CampaignStatus.canMoveTo : CampaignStatus → CampaignStatus → Bool
  | .draft, .scheduled | .draft, .running | .draft, .completed | .draft, .cancelled => true
  | .scheduled, .running | .scheduled, .paused | .scheduled, .cancelled | .scheduled, .failed => true
  | .running, .paused | .running, .completed | .running, .cancelled | .running, .failed => true
  | .paused, .scheduled | .paused, .running | .paused, .cancelled => true
  | _, _ => false

/-- Nothing becomes a draft again. -/
theorem CampaignStatus.not_canMoveTo_draft (status : CampaignStatus) :
    status.canMoveTo .draft = false := by
  cases status <;> rfl

/-- Nothing comes after a terminal status. -/
theorem CampaignStatus.not_canMoveTo_of_isTerminal {status status' : CampaignStatus}
    (h : status.isTerminal = true) : status.canMoveTo status' = false := by
  cases status <;> cases status' <;> first | rfl | cases h

/-- All recipients of a campaign are done. -/
def Db.Drained (db : Db) (campaignId : Uuid) : Prop :=
  ∀ r ∈ db.recipients.rows, r.campaignId = campaignId → r.status.isTerminal = true

/-- The recipients can be gone through. -/
instance (db : Db) (campaignId : Uuid) : Decidable (db.Drained campaignId) :=
  inferInstanceAs (Decidable (∀ r ∈ db.recipients.rows, r.campaignId = campaignId →
    r.status.isTerminal = true))

/-- A campaign that is found is the one of the tenant. -/
theorem Db.campaign_eq_some_iff {db : Db} {tenantId id : Uuid} {c : Campaign} :
    db.campaign tenantId id = some c ↔
      c ∈ db.campaigns.rows ∧ c.id = id ∧ c.tenantId = tenantId := by
  simp only [Db.campaign, Option.filter_eq_some_iff, Table.find_eq_some_iff, Keyed.keys,
    List.mem_singleton, decide_eq_true_eq, and_assoc]
  exact ⟨fun h => ⟨h.1, h.2.1.symm, h.2.2⟩, fun h => ⟨h.1, h.2.1.symm, h.2.2⟩⟩

/-- Campaigns are told apart by their id. -/
theorem Db.eq_of_campaign_id {db : Db} {c c' : Campaign} (hc : c ∈ db.campaigns.rows)
    (hc' : c' ∈ db.campaigns.rows) (h : c.id = c'.id) : c = c' :=
  db.campaigns.eq_of_mem_keys hc hc' (List.mem_singleton.mpr rfl) (List.mem_singleton.mpr h)

/-! ## What a statement can change -/

namespace CampaignWrite

variable {db db' : Db} {clock : Time} {w : CampaignWrite}

/-- Who a campaign belongs to never changes. -/
theorem identity_campaign (w : CampaignWrite) (c : Campaign) :
    (w.campaign c).id = c.id ∧ (w.campaign c).tenantId = c.tenantId ∧
      (w.campaign c).senderId = c.senderId ∧ (w.campaign c).templateId = c.templateId := by
  unfold campaign
  split_ifs
  · cases w <;> exact ⟨rfl, rfl, rfl, rfl⟩
  · exact ⟨rfl, rfl, rfl, rfl⟩

/-- Whom a recipient stands for never changes. -/
theorem identity_recipient (w : CampaignWrite) (r : CampaignRecipient) :
    (w.recipient db clock r).id = r.id ∧ (w.recipient db clock r).campaignId = r.campaignId ∧
      (w.recipient db clock r).contactId = r.contactId := by
  cases w with
  | claimRecipients _ _ | completeClaim _ _ | cancel _ _ _ _ | failCampaign _ _ _ =>
      simp only [recipient]
      split_ifs <;> exact ⟨rfl, rfl, rfl⟩
  | _ => exact ⟨rfl, rfl, rfl⟩

/-- A recipient that is done is left alone by every statement. -/
theorem recipient_of_isTerminal {r : CampaignRecipient} (h : r.status.isTerminal = true)
    (w : CampaignWrite) : w.recipient db clock r = r := by
  have hpending : r.status ≠ .pending := by
    intro hr
    rw [hr] at h
    cases h
  have hprocessing : r.status ≠ .processing := by
    intro hr
    rw [hr] at h
    cases h
  cases w with
  | claimRecipients _ _ => simp [recipient, claims, isClaimable, hpending, hprocessing]
  | completeClaim _ _ => simp [recipient, isHeld, hprocessing]
  | cancel _ _ _ _ => simp [recipient, isCovered, hpending]
  | failCampaign _ _ _ => simp [recipient, isCovered, hpending]
  | _ => rfl

/-- A recipient that can be claimed is not done. -/
theorem not_isTerminal_of_claims {ids : List Uuid} {r : CampaignRecipient}
    (h : claims db clock ids r = true) : r.status.isTerminal = false := by
  by_contra hterminal
  rw [Bool.not_eq_false] at hterminal
  have hsame : (claimRecipients 0 ids).recipient db clock r = r :=
    recipient_of_isTerminal hterminal _
  simp only [recipient, h, if_true] at hsame
  have hattempts := congrArg CampaignRecipient.attemptCount hsame
  simp [claimed] at hattempts

/-- How a statement changes a recipient: it claims it, completes its claim, or ends it with its
campaign. -/
inductive Changes (db : Db) (clock : Time) (r : CampaignRecipient) :
    CampaignWrite → CampaignRecipient → Prop where
  | claimed (leaseUntil : Time) (ids : List Uuid) (h : claims db clock ids r = true) :
      Changes db clock r (.claimRecipients leaseUntil ids) (claimed leaseUntil r)
  | completed (claim : CampaignRecipient) (result : ClaimResult) (h : isHeld claim r = true) :
      Changes db clock r (.completeClaim claim result) (result.apply r)
  | cancelled (tenantId id : Uuid) (cancelledAt : Time) (pending : List Uuid) (lastError : String)
      (h : isCovered id pending r = true) :
      Changes db clock r (.cancel tenantId id cancelledAt pending) (ended .cancelled lastError r)
  | failed (id : Uuid) (reason : String) (pending : List Uuid)
      (h : isCovered id pending r = true) :
      Changes db clock r (.failCampaign id reason pending) (ended .failed reason r)

/-- **What a statement does to a recipient**: nothing, or one of the changes. -/
theorem recipient_changes (w : CampaignWrite) (r : CampaignRecipient) :
    w.recipient db clock r = r ∨ Changes db clock r w (w.recipient db clock r) := by
  cases w with
  | claimRecipients leaseUntil ids =>
      simp only [recipient]
      split_ifs with h
      · exact .inr (.claimed leaseUntil ids h)
      · exact .inl rfl
  | completeClaim claim result =>
      simp only [recipient]
      split_ifs with h
      · exact .inr (.completed claim result h)
      · exact .inl rfl
  | cancel tenantId id cancelledAt pending =>
      simp only [recipient]
      split_ifs with h
      · exact .inr (.cancelled tenantId id cancelledAt pending _ h)
      · exact .inl rfl
  | failCampaign id reason pending =>
      simp only [recipient]
      split_ifs with h
      · exact .inr (.failed id reason pending h)
      · exact .inl rfl
  | _ => exact .inl rfl

/-- A cancellation is about the campaign. -/
theorem id_of_cancel {tenantId id : Uuid} {cancelledAt : Time} {pending : List Uuid} {c : Campaign}
    (h : (cancel tenantId id cancelledAt pending).targets c = true) : c.id = id := by
  simp only [targets, Bool.and_eq_true, decide_eq_true_eq] at h
  exact h.1.1

/-- A failure is about the campaign. -/
theorem id_of_failCampaign {id : Uuid} {reason : String} {pending : List Uuid} {c : Campaign}
    (h : (failCampaign id reason pending).targets c = true) : c.id = id := by
  simp only [targets, Bool.and_eq_true, decide_eq_true_eq] at h
  exact h.1

/-- What `launch` adds. -/
theorem eq_of_mem_launched {id : Uuid} {contactIds rowIds : List Uuid} {r : CampaignRecipient}
    (h : r ∈ launched id contactIds rowIds clock) :
    ∃ contactId ∈ contactIds, ∃ rowId ∈ rowIds, r = newRecipient rowId id contactId clock := by
  unfold launched at h
  rw [← List.map_uncurry_zip_eq_zipWith] at h
  obtain ⟨⟨contactId, rowId⟩, hpair, rfl⟩ := List.mem_map.mp h
  obtain ⟨hcontact, hrow⟩ := List.of_mem_zip hpair
  exact ⟨contactId, hcontact, rowId, hrow, rfl⟩

/-- The recipients of a launch are of the campaign. -/
theorem campaignId_launched {id : Uuid} {contactIds rowIds : List Uuid} {r : CampaignRecipient}
    (h : r ∈ launched id contactIds rowIds clock) : r.campaignId = id := by
  obtain ⟨_, -, _, -, rfl⟩ := eq_of_mem_launched h
  rfl

/-- What the workers see to before they run a statement. -/
def IsLawful (db : Db) : CampaignWrite → Prop
  | insert row => row.status = .draft
  | launch id contactIds _ _ =>
      contactIds.Nodup ∧ ∃ c ∈ db.campaigns.rows, c.id = id ∧ c.status = .draft
  | resume _ _ status _ => status = .scheduled ∨ status = .running
  | complete id _ => db.Drained id
  | _ => True

/-- Such a statement moves a campaign along the table. -/
theorem status_campaign (h : w.IsLawful db) {c : Campaign} (hc : c ∈ db.campaigns.rows) :
    (w.campaign c).status = c.status ∨ c.status.canMoveTo (w.campaign c).status = true := by
  unfold campaign
  split_ifs with htargets
  · cases w with
    | launch id contactIds rowIds now =>
        obtain ⟨-, c₀, hc₀, hid, hdraft⟩ := h
        have hsame : c = c₀ := by
          refine Db.eq_of_campaign_id hc hc₀ ?_
          rw [hid]
          simpa [targets] using htargets
        subst hsame
        right
        simp only [set, launchStatus, hdraft]
        split_ifs <;> rfl
    | resume tenantId id status startedAt =>
        have hpaused : c.status = .paused := by simp_all [targets]
        right
        rcases h with rfl | rfl <;> simp [set, hpaused, CampaignStatus.canMoveTo]
    | promoteScheduledCampaigns now =>
        have hscheduled : c.status = .scheduled := by simp_all [targets]
        simp [set, hscheduled, CampaignStatus.canMoveTo]
    | complete id now =>
        have hrunning : c.status = .running := by simp_all [targets]
        simp [set, hrunning, CampaignStatus.canMoveTo]
    | pause tenantId id | cancel tenantId id at_ pending | failCampaign id reason pending =>
        right
        cases hstatus : c.status <;> simp_all [set, targets, CampaignStatus.canMoveTo]
    | storeCounts id counts => exact .inl rfl
    | insert _ | claimRecipients _ _ | completeClaim _ _ => exact .inl rfl
  · exact .inl rfl

/-- No statement makes a draft of a campaign. -/
theorem ne_draft_campaign (h : w.IsLawful db) {c : Campaign} (hc : c ∈ db.campaigns.rows)
    (hdraft : c.status ≠ .draft) : (w.campaign c).status ≠ .draft := by
  rcases status_campaign h hc with hsame | hmoves
  · rw [hsame]
    exact hdraft
  · intro hd
    rw [hd, CampaignStatus.not_canMoveTo_draft] at hmoves
    cases hmoves

/-- What is launched has been launched before, unless this is the launch. -/
theorem snapshot_campaign {c : Campaign}
    (h : c.status ≠ .draft → c.status ≠ .cancelled → c.snapshotAt.isSome = true)
    (hdraft : (w.campaign c).status ≠ .draft) (hcancelled : (w.campaign c).status ≠ .cancelled) :
    (w.campaign c).snapshotAt.isSome = true := by
  unfold campaign at hdraft hcancelled ⊢
  split_ifs at hdraft hcancelled ⊢ with htargets
  · cases w with
    | launch _ _ _ _ => rfl
    | cancel _ _ _ _ => exact absurd rfl hcancelled
    | storeCounts _ _ | insert _ | claimRecipients _ _ | completeClaim _ _ => exact h hdraft hcancelled
    | promoteScheduledCampaigns _ | pause _ _ | resume _ _ _ _ | failCampaign _ _ _ | complete _ _ =>
        have hlaunched : c.status ≠ .draft ∧ c.status ≠ .cancelled := by
          simp only [targets, Bool.and_eq_true, Bool.or_eq_true, decide_eq_true_eq] at htargets
          constructor
          all_goals
            intro hstatus
            simp [hstatus] at htargets
        exact h hlaunched.1 hlaunched.2
  · exact h hdraft hcancelled

/-- A statement that completes a campaign is the launch without recipients, or the last one of
`refreshStats`. -/
theorem completed_campaign (hw : w.IsLawful db) {c : Campaign}
    (h : (w.campaign c).status = .completed) :
    (c.status = .completed ∧ (w.campaign c).completedAt = c.completedAt) ∨
      ((w.campaign c).completedAt.isSome = true ∧
        ((∃ rowIds now, w = .launch c.id [] rowIds now) ∨
          c.status = .running ∧ ∃ now, w = .complete c.id now)) := by
  unfold campaign at h ⊢
  split_ifs at h ⊢ with htargets
  · cases w with
    | launch id contactIds rowIds now =>
        have hid : c.id = id := by simpa [targets] using htargets
        simp only [set, launchStatus] at h ⊢
        split_ifs at h with hempty
        obtain rfl := List.length_eq_zero_iff.mp hempty
        refine .inr ⟨?_, .inl ⟨rowIds, now, by rw [hid]⟩⟩
        simp
    | complete id now =>
        simp only [targets, Bool.and_eq_true, decide_eq_true_eq] at htargets
        exact .inr ⟨rfl, .inr ⟨htargets.2, now, by rw [htargets.1]⟩⟩
    | storeCounts _ _ | insert _ | claimRecipients _ _ | completeClaim _ _ => exact .inl ⟨h, rfl⟩
    | resume tenantId id status startedAt =>
        rcases hw with rfl | rfl
        · cases h
        · cases h
    | promoteScheduledCampaigns _ | pause _ _ | cancel _ _ _ _ | failCampaign _ _ _ => cases h
  · exact .inl ⟨h, rfl⟩

end CampaignWrite

/-! ## What the workers rely on -/

/-- `refreshStats` has counted no open recipient. -/
def Refresh.isDrained (r : Refresh) : Bool :=
  match r.stage with
  | .aggregate => false
  | .store counts => counts.pending = 0 && counts.processing = 0
  | .complete => true

/-- A count is zero just when there is no such recipient. -/
theorem Db.countRecipients_eq_zero_iff {db : Db} {campaignId : Uuid}
    {status : CampaignRecipientStatus} :
    db.countRecipients campaignId status = 0 ↔
      ∀ r ∈ db.recipients.rows, r.campaignId = campaignId → r.status ≠ status := by
  simp [Db.countRecipients, List.filter_eq_nil_iff]

/-- A count of zero says that the campaign is drained. -/
theorem Db.drained_of_recipientCounts {db : Db} {campaignId : Uuid}
    (hpending : (db.recipientCounts campaignId).pending = 0)
    (hprocessing : (db.recipientCounts campaignId).processing = 0) : db.Drained campaignId := by
  intro r hr hcampaign
  have h₁ := Db.countRecipients_eq_zero_iff.mp hpending r hr hcampaign
  have h₂ := Db.countRecipients_eq_zero_iff.mp hprocessing r hr hcampaign
  cases hstatus : r.status <;> first | rfl | exact absurd hstatus ‹_›

/-- A `refreshStats` that goes on with a count of zero has just counted, or did so before. -/
theorem Refresh.drained_of_pending {db : Db} {now : Time} {r r' : Refresh}
    (h : r.isDrained = true → db.Drained r.campaignId) (hnext : (r.pending db now).2 = some r')
    (hd : r'.isDrained = true) : db.Drained r.campaignId := by
  obtain ⟨campaignId, stage⟩ := r
  cases stage with
  | aggregate =>
      cases hnext
      simp only [Refresh.isDrained, Bool.and_eq_true, decide_eq_true_eq] at hd
      exact Db.drained_of_recipientCounts hd.1 hd.2
  | store counts =>
      simp only [Refresh.pending] at hnext
      split_ifs at hnext with hzero
      simp only [Bool.and_eq_true, decide_eq_true_eq] at hzero
      exact h (by simp [Refresh.isDrained, hzero.1.2, hzero.2])
  | complete => cases hnext

/-- What an open transaction or a decision of a worker relies on. -/
def Worker.Sound (db : Db) : Worker → Prop
  | .operator { id := id, stage := .launching contactIds, .. } =>
      contactIds.Nodup ∧ ∃ c ∈ db.campaigns.rows, c.id = id ∧ c.status = .draft
  | .operator { tenantId := tenantId, id := id, stage := .cancelling cancelledAt pending } =>
      ∃ c ∈ db.campaigns.rows,
        (CampaignWrite.cancel tenantId id cancelledAt pending).targets c = true
  | .operator { stage := .resuming status _, .. } => status = .scheduled ∨ status = .running
  | .pass { stage := .failing _ campaignId reason pending, .. } =>
      ∃ c ∈ db.campaigns.rows,
        (CampaignWrite.failCampaign campaignId reason pending).targets c = true
  | _ => True

/-- A contact occurs once in an audience. -/
theorem Db.nodup_audience (db : Db) (tenantId : Uuid) (audience : NormalizedCampaignAudience) :
    (db.audience tenantId audience).Nodup := by
  refine List.Nodup.sublist (List.filter_sublist.map _) ?_
  exact db.contacts.nodup_map _ fun a b hab =>
    ⟨.id a.id, List.mem_cons_self, by rw [hab]; exact List.mem_cons_self⟩

/-- `launch` goes on with a draft only, and with each contact once. -/
theorem Db.prepareLaunch_spec {db : Db} {config : CampaignConfig} {tenantId id : Uuid}
    {contactIds : List Uuid} (h : db.prepareLaunch config tenantId id = .ok (some contactIds)) :
    contactIds.Nodup ∧ ∃ c ∈ db.campaigns.rows, c.id = id ∧ c.status = .draft := by
  unfold Db.prepareLaunch at h
  split at h
  · cases h
  · rename_i c hc
    obtain ⟨hmem, hid, -⟩ := Db.campaign_eq_some_iff.mp hc
    split_ifs at h with hlaunched hdraft
    · cases h
    · refine ⟨?_, c, hmem, hid, not_not.mp hdraft⟩
      split at h
      · split at h
        · cases h
        · simp only [bind, Except.bind] at h
          split at h
          · cases h
          · split at h
            · cases h
            · split_ifs at h
              cases h
              exact db.nodup_audience _ _
      · cases h

/-- An operator resumes to one of two statuses. -/
theorem Operator.sound_moves {env : CampaignEnv} {db db' : Db} {now : Time} {ids : List Uuid}
    {o : Operator} {write : Option CampaignWrite} {stage : OperatorStage}
    (h : Operator.Moves env db now ids o write stage)
    (hheld : (Worker.operator { o with stage := stage }).held = none) :
    (Worker.operator { o with stage := stage }).Sound db' := by
  cases h with
  | quiet stage _ hquiet | paused stage _ hquiet | resumed _ _ stage _ hquiet =>
      cases stage <;> trivial
  | resuming status startedAt _ h => exact h
  | launching _ _ _ | cancelling _ _ _ _ _ => cases hheld
  | launched _ _ _ _ _ | cancelled _ _ _ => trivial
  | refreshed refresh _ => split <;> trivial

namespace Worker

variable {env : CampaignEnv} {db : Db} {clock : Time} {locks : List Held} {w : Worker}
  {act : WorkerAct} {result : Result}

/-- A worker that takes a campaign finds it as it was. -/
theorem sound_of_acquires {w' : Worker} (h : Acquires env db w w') : w'.Sound db := by
  cases h with
  | launching o contactIds hstage h => exact Db.prepareLaunch_spec h
  | cancelling o cancelledAt c hstage hc h => exact ⟨c, (Db.campaign_eq_some_iff.mp hc).1, h⟩
  | failing p claim campaignId reason hstage c hc h =>
      exact ⟨c, (db.campaigns.find_eq_some_iff.mp hc).1, h⟩

/-- A pass that holds nothing finds everything as it was. -/
theorem sound_pass {p : Pass} {db : Db} (h : (Worker.pass p).held = none) :
    (Worker.pass p).Sound db := by
  obtain ⟨queue, touched, stage⟩ := p
  cases stage <;> trivial

/-- A worker relies on nothing that its step has not seen. -/
theorem sound_step (h : w.step env db clock locks act = some result) :
    result.worker.Sound result.db := by
  rcases hheld : result.worker.held with _ | held
  · rcases step_cases h with ⟨_, p, p', -, -, -, rfl⟩ | ⟨outcome, now, ids, call, -, hcalls⟩ |
      ⟨_, -, hcreates⟩ | ⟨-, w', hw', rfl⟩
    · exact sound_pass hheld
    · cases w with
      | pass p =>
          obtain ⟨call', -, -, ⟨-, hnext⟩ | ⟨e, -, hnext⟩⟩ := hcalls.pass_call
          all_goals rw [hnext] at hheld ⊢
          all_goals exact sound_pass hheld
      | operator o =>
          obtain ⟨stage, hmoves, ⟨-, hnext⟩ | ⟨reply, -, hnext⟩⟩ := hcalls.operator_call
          · rw [hnext] at hheld ⊢
            exact Operator.sound_moves hmoves hheld
          · rw [hnext]
            trivial
      | api c => cases hcalls.pending
    · cases hcreates <;> trivial
    · unfold crash at hw'
      split at hw'
      all_goals split at hw'
      all_goals cases hw'
      all_goals trivial
  · obtain ⟨hacquires, -, hdb, -⟩ := acquires_of_step h hheld
    rw [hdb]
    exact sound_of_acquires hacquires

/-- A new worker finds everything as it was. -/
theorem IsNew.sound (h : w.IsNew) : w.Sound db := by
  cases h with
  | operator tenantId id command => cases command <;> trivial
  | _ => trivial

/-- The campaign of a `refreshStats` is one that the worker refreshes. -/
theorem campaignId_of_refresh {r : Refresh} (h : w.refresh? = some r) :
    r.campaignId ∈ w.campaigns := by
  unfold refresh? at h
  split at h
  · cases h
    exact List.mem_cons_self
  · cases h
    exact List.mem_cons_self
  · cases h

/-- A worker keeps relying on what it holds while its campaign stays as it is. -/
theorem Sound.mono {db' : Db} (h : w.Sound db)
    (hkept : ∀ held, w.held = some held → ∀ c ∈ db.campaigns.rows, c.id = held.campaignId →
      c ∈ db'.campaigns.rows) : w.Sound db' := by
  cases w with
  | api call => trivial
  | pass p =>
      obtain ⟨queue, touched, stage⟩ := p
      cases stage with
      | failing claim campaignId reason pending =>
          obtain ⟨c, hc, htargets⟩ := h
          exact ⟨c, hkept _ rfl c hc (CampaignWrite.id_of_failCampaign htargets), htargets⟩
      | _ => trivial
  | operator o =>
      obtain ⟨tenantId, id, stage⟩ := o
      cases stage with
      | launching contactIds =>
          obtain ⟨hnodup, c, hc, hid, hdraft⟩ := h
          exact ⟨hnodup, c, hkept _ rfl c hc hid, hid, hdraft⟩
      | cancelling cancelledAt pending =>
          obtain ⟨c, hc, htargets⟩ := h
          exact ⟨c, hkept _ rfl c hc (CampaignWrite.id_of_cancel htargets), htargets⟩
      | resuming status startedAt => exact h
      | _ => trivial

end Worker

/-! ## The invariant -/

namespace CampaignSystem

/-- What holds in every state. -/
structure Lawful (s : CampaignSystem) : Prop where
  /-- Only launched campaigns have recipients. -/
  launched : ∀ r ∈ s.db.recipients.rows,
    ∃ c ∈ s.db.campaigns.rows, c.id = r.campaignId ∧ c.status ≠ .draft
  snapshot : ∀ c ∈ s.db.campaigns.rows, c.status ≠ .draft → c.status ≠ .cancelled →
    c.snapshotAt.isSome = true
  completed : ∀ c ∈ s.db.campaigns.rows, c.status = .completed →
    c.completedAt.isSome = true ∧ s.db.Drained c.id
  /-- Nobody refreshes a draft. -/
  refreshed : ∀ w ∈ s.workers, ∀ id ∈ w.campaigns,
    ∃ c ∈ s.db.campaigns.rows, c.id = id ∧ c.status ≠ .draft
  /-- A count of zero stays one. -/
  drained : ∀ w ∈ s.workers, ∀ r, w.refresh? = some r → r.isDrained = true →
    s.db.Drained r.campaignId
  sound : ∀ w ∈ s.workers, w.Sound s.db

/-- At the start there is nothing to keep. -/
theorem Lawful.start (clock : Time) : Lawful (start clock) where
  launched := by simp [CampaignSystem.start, Db.empty]
  snapshot := by simp [CampaignSystem.start, Db.empty]
  completed := by simp [CampaignSystem.start, Db.empty]
  refreshed := by simp [CampaignSystem.start]
  drained := by simp [CampaignSystem.start]
  sound := by simp [CampaignSystem.start]

variable {env : CampaignEnv} {s s' : CampaignSystem} {a : Act}

/-- The statement of a step is one that its worker may run. -/
theorem Lawful.isLawful (hs : Lawful s) {write : CampaignWrite}
    (hwrite : written env s a = some write) : write.IsLawful s.db := by
  rcases writes_step hwrite with ⟨_, _, _, _, _, _, _, _, -, rfl⟩ |
    ⟨i, act, w, result, -, hw, -, -, hwrites⟩
  · rfl
  · have hmem := List.mem_of_getElem? hw
    have hsound := hs.sound w hmem
    cases hwrites with
    | launch o contactIds ids now hstage _ _ _ =>
        obtain ⟨tenantId, id, stage⟩ := o
        cases hstage
        exact hsound
    | resume o status startedAt hstage =>
        obtain ⟨tenantId, id, stage⟩ := o
        cases hstage
        exact hsound
    | complete w id now hrefresh => exact hs.drained w hmem _ hrefresh rfl
    | _ => trivial

/-- No step makes a draft of a campaign. -/
theorem Lawful.ne_draft (hs : Lawful s) {c : Campaign} (hc : c ∈ s.db.campaigns.rows)
    (hdraft : c.status ≠ .draft) : (campaignAfter env s a c).status ≠ .draft := by
  rcases hwrite : written env s a with _ | write
  · simpa [campaignAfter, hwrite] using hdraft
  · rw [campaignAfter, hwrite]
    exact CampaignWrite.ne_draft_campaign (hs.isLawful hwrite) hc hdraft

/-- A step leaves the identity of a campaign. -/
theorem identity_campaignAfter (c : Campaign) :
    (campaignAfter env s a c).id = c.id ∧ (campaignAfter env s a c).tenantId = c.tenantId ∧
      (campaignAfter env s a c).senderId = c.senderId ∧
      (campaignAfter env s a c).templateId = c.templateId := by
  unfold campaignAfter
  cases written env s a with
  | none => exact ⟨rfl, rfl, rfl, rfl⟩
  | some write => exact write.identity_campaign c

/-- A step leaves the id of a campaign. -/
theorem id_campaignAfter (c : Campaign) : (campaignAfter env s a c).id = c.id :=
  (identity_campaignAfter c).1

/-- A step leaves the identity of a recipient. -/
theorem identity_recipientAfter (r : CampaignRecipient) :
    (recipientAfter env s a r).id = r.id ∧
      (recipientAfter env s a r).campaignId = r.campaignId ∧
      (recipientAfter env s a r).contactId = r.contactId := by
  unfold recipientAfter
  cases written env s a with
  | none => exact ⟨rfl, rfl, rfl⟩
  | some write => exact write.identity_recipient r

/-- A step leaves a recipient as it is, or it changes it by its statement. -/
theorem recipientAfter_changes (r : CampaignRecipient) :
    recipientAfter env s a r = r ∨ ∃ write, written env s a = some write ∧
      CampaignWrite.Changes s.db s.clock r write (recipientAfter env s a r) := by
  unfold recipientAfter
  rcases hwrite : written env s a with _ | write
  · exact .inl rfl
  · rcases write.recipient_changes r with hsame | hchanges
    · exact .inl hsame
    · exact .inr ⟨write, rfl, hchanges⟩

/-- A recipient that is done is never changed again. -/
theorem recipientAfter_of_isTerminal {r : CampaignRecipient} (h : r.status.isTerminal = true) :
    recipientAfter env s a r = r := by
  unfold recipientAfter
  cases written env s a with
  | none => rfl
  | some write => exact CampaignWrite.recipient_of_isTerminal h write

/-- A launched campaign stays one. -/
theorem Lawful.launched_kept (hs : Lawful s) (h : s.step env a = some s') {id : Uuid}
    (hid : ∃ c ∈ s.db.campaigns.rows, c.id = id ∧ c.status ≠ .draft) :
    ∃ c ∈ s'.db.campaigns.rows, c.id = id ∧ c.status ≠ .draft := by
  obtain ⟨c, hc, hcid, hdraft⟩ := hid
  refine ⟨campaignAfter env s a c, (campaigns_step h).1 c hc, ?_, hs.ne_draft hc hdraft⟩
  rw [id_campaignAfter, hcid]

/-- **A launched campaign that is drained stays drained.** -/
theorem Lawful.drained_step (hs : Lawful s) (h : s.step env a = some s') {id : Uuid}
    (hid : ∃ c ∈ s.db.campaigns.rows, c.id = id ∧ c.status ≠ .draft) (hd : s.db.Drained id) :
    s'.db.Drained id := by
  intro r' hr' hcampaign
  rcases (recipients_step h).2 r' hr' with ⟨r, hr, rfl⟩ | ⟨id', contactIds, rowIds, now, hwrite, hr'⟩
  · rw [(identity_recipientAfter r).2.1] at hcampaign
    rw [recipientAfter_of_isTerminal (hd r hr hcampaign)]
    exact hd r hr hcampaign
  · -- recipients are added to a draft only
    obtain ⟨-, c₀, hc₀, hid₀, hdraft₀⟩ := hs.isLawful hwrite
    obtain ⟨c, hc, hcid, hdraft⟩ := hid
    have hlaunched : r'.campaignId = id' := CampaignWrite.campaignId_launched hr'
    have hsame : c = c₀ := by
      refine Db.eq_of_campaign_id hc hc₀ ?_
      rw [hcid, hid₀, ← hlaunched, hcampaign]
    rw [hsame] at hdraft
    exact absurd hdraft₀ hdraft

/-- A campaign that the transaction of a worker holds is left alone by all others. -/
theorem campaign_kept_of_held (h : s.step env a = some s') {j : ℕ} {w : Worker} {held : Held}
    (hj : s.workers[j]? = some w) (hheld : w.held = some held)
    (hother : ∀ act, a ≠ .worker j act) {c : Campaign} (hc : c ∈ s.db.campaigns.rows)
    (hid : c.id = held.campaignId) : c ∈ s'.db.campaigns.rows := by
  have hafter := (campaigns_step h).1 c hc
  rcases hwrite : written env s a with _ | write
  · simpa [campaignAfter, hwrite] using hafter
  · have htargets := not_targets_of_held hwrite hj hheld hother hc hid
    simpa [campaignAfter, hwrite, CampaignWrite.campaign, htargets] using hafter

/-! ### One step -/

/-- Recipients are of campaigns that were launched. -/
theorem Lawful.launched_step (hs : Lawful s) (h : s.step env a = some s') :
    ∀ r ∈ s'.db.recipients.rows,
      ∃ c ∈ s'.db.campaigns.rows, c.id = r.campaignId ∧ c.status ≠ .draft := by
  intro r' hr'
  rcases (recipients_step h).2 r' hr' with ⟨r, hr, rfl⟩ | ⟨id, contactIds, rowIds, now, hwrite, hr'⟩
  · rw [(identity_recipientAfter r).2.1]
    exact hs.launched_kept h (hs.launched r hr)
  · obtain ⟨-, c, hc, hid, -⟩ := hs.isLawful hwrite
    refine ⟨_, (campaigns_step h).1 c hc, ?_, ?_⟩
    · rw [id_campaignAfter, hid, CampaignWrite.campaignId_launched hr']
    · simp only [campaignAfter, hwrite, Option.elim_some, CampaignWrite.campaign,
        CampaignWrite.targets, hid, decide_true, if_true, CampaignWrite.set,
        CampaignWrite.launchStatus]
      split_ifs <;> simp

/-- What was launched has its snapshot. -/
theorem Lawful.snapshot_step (hs : Lawful s) (h : s.step env a = some s') :
    ∀ c ∈ s'.db.campaigns.rows, c.status ≠ .draft → c.status ≠ .cancelled →
      c.snapshotAt.isSome = true := by
  intro c' hc' hdraft hcancelled
  rcases (campaigns_step h).2 c' hc' with ⟨c, hc, rfl⟩ | ⟨hwrite, -⟩
  · rcases hwrite : written env s a with _ | write
    · simp only [campaignAfter, hwrite, Option.elim_none] at hdraft hcancelled ⊢
      exact hs.snapshot c hc hdraft hcancelled
    · simp only [campaignAfter, hwrite, Option.elim_some] at hdraft hcancelled ⊢
      exact CampaignWrite.snapshot_campaign (hs.snapshot c hc) hdraft hcancelled
  · exact absurd (hs.isLawful hwrite) hdraft

/-- A campaign that is launched without contacts has no recipients. -/
theorem Lawful.drained_of_launch (hs : Lawful s) (h : s.step env a = some s') {id : Uuid}
    {rowIds : List Uuid} {now : Time} (hwrite : written env s a = some (.launch id [] rowIds now)) :
    s'.db.Drained id := by
  intro r' hr' hcampaign
  exfalso
  obtain ⟨-, c, hc, hid, hdraft⟩ := hs.isLawful hwrite
  rcases (recipients_step h).2 r' hr' with ⟨r, hr, rfl⟩ | ⟨id', contactIds, rowIds', now', hw', hr'⟩
  · rw [(identity_recipientAfter r).2.1] at hcampaign
    obtain ⟨c', hc', hid', hdraft'⟩ := hs.launched r hr
    have hsame : c = c' := Db.eq_of_campaign_id hc hc' (by rw [hid, hid', hcampaign])
    rw [hsame] at hdraft
    exact hdraft' hdraft
  · rw [hwrite] at hw'
    cases hw'
    cases hr'

/-- What is completed has its time, and nothing left to do. -/
theorem Lawful.completed_step (hs : Lawful s) (h : s.step env a = some s') :
    ∀ c ∈ s'.db.campaigns.rows, c.status = .completed →
      c.completedAt.isSome = true ∧ s'.db.Drained c.id := by
  intro c' hc' hcompleted
  rcases (campaigns_step h).2 c' hc' with ⟨c, hc, rfl⟩ | ⟨hwrite, -⟩
  · rw [id_campaignAfter]
    have hkept : c.status = .completed →
        c.completedAt.isSome = true ∧ s'.db.Drained c.id := by
      intro hc₀
      obtain ⟨hat, hdrained⟩ := hs.completed c hc hc₀
      exact ⟨hat, hs.drained_step h ⟨c, hc, rfl, by simp [hc₀]⟩ hdrained⟩
    rcases hwrite : written env s a with _ | write
    · simp only [campaignAfter, hwrite, Option.elim_none] at hcompleted ⊢
      exact hkept hcompleted
    · have hlawful := hs.isLawful hwrite
      simp only [campaignAfter, hwrite, Option.elim_some] at hcompleted ⊢
      rcases CampaignWrite.completed_campaign hlawful hcompleted with
        ⟨hc₀, hat⟩ | ⟨hat, ⟨rowIds, now, rfl⟩ | ⟨hrunning, now, rfl⟩⟩
      · rw [hat]
        exact hkept hc₀
      · exact ⟨hat, hs.drained_of_launch h hwrite⟩
      · exact ⟨hat, hs.drained_step h ⟨c, hc, rfl, by simp [hrunning]⟩ hlawful⟩
  · rw [hs.isLawful hwrite] at hcompleted
    cases hcompleted

/-- Workers look at campaigns that were launched. -/
theorem Lawful.refreshed_step (hs : Lawful s) (h : s.step env a = some s') :
    ∀ w ∈ s'.workers, ∀ id ∈ w.campaigns,
      ∃ c ∈ s'.db.campaigns.rows, c.id = id ∧ c.status ≠ .draft := by
  intro w' hw' id hid
  obtain ⟨j, hj⟩ := List.getElem?_of_mem hw'
  rcases workers_step h hj with ⟨hj, -⟩ | hnew | ⟨act, w, result, rfl, hw, hresult, rfl, hwritten, -⟩
  · exact hs.launched_kept h (hs.refreshed w' (List.mem_of_getElem? hj) id hid)
  · rw [hnew.facts.2.2] at hid
    cases hid
  · rcases Worker.campaigns_step hresult hid with hid | ⟨r, hr, rfl⟩ |
      ⟨tenantId, cancelledAt, pending, hwrite⟩
    · exact hs.launched_kept h (hs.refreshed w (List.mem_of_getElem? hw) id hid)
    · exact hs.launched_kept h (hs.launched r hr)
    · -- the campaign that has just been cancelled
      rw [hwrite] at hwritten
      obtain ⟨hwrites, -⟩ := Worker.writes_of_step hresult hwrite
      have hsound := hs.sound w (List.mem_of_getElem? hw)
      cases hwrites with
      | cancel o _ _ hstage =>
          obtain ⟨tenantId, id, stage⟩ := o
          cases hstage
          obtain ⟨c, hc, htargets⟩ := hsound
          refine ⟨_, (campaigns_step h).1 c hc, ?_, ?_⟩
          · rw [id_campaignAfter, CampaignWrite.id_of_cancel htargets]
          · simp [campaignAfter, hwritten, CampaignWrite.campaign, htargets, CampaignWrite.set]

/-- What a worker found done stays done. -/
theorem Lawful.drained_step_workers (hs : Lawful s) (h : s.step env a = some s') :
    ∀ w ∈ s'.workers, ∀ r, w.refresh? = some r → r.isDrained = true →
      s'.db.Drained r.campaignId := by
  intro w' hw' r' hr' hd
  obtain ⟨j, hj⟩ := List.getElem?_of_mem hw'
  rcases workers_step h hj with ⟨hj, -⟩ | hnew | ⟨act, w, result, rfl, hw, hresult, rfl, hwritten, -⟩
  · have hmem := List.mem_of_getElem? hj
    exact hs.drained_step h (hs.refreshed w' hmem _ (Worker.campaignId_of_refresh hr'))
      (hs.drained w' hmem r' hr' hd)
  · rw [hnew.facts.2.1] at hr'
    cases hr'
  · have hmem := List.mem_of_getElem? hw
    rcases Worker.refresh_step hresult hr' with hagg | ⟨r, now, hr, hnext⟩
    · simp [Refresh.isDrained, hagg] at hd
    · have hcampaign := Refresh.campaignId_of_pending hnext
      rw [hcampaign]
      refine hs.drained_step h (hs.refreshed w hmem _ (Worker.campaignId_of_refresh hr)) ?_
      exact Refresh.drained_of_pending (fun hd => hs.drained w hmem r hr hd) hnext hd

/-- What the workers hold stays as it was. -/
theorem Lawful.sound_step (hs : Lawful s) (h : s.step env a = some s') :
    ∀ w ∈ s'.workers, w.Sound s'.db := by
  intro w' hw'
  obtain ⟨j, hj⟩ := List.getElem?_of_mem hw'
  rcases workers_step h hj with ⟨hj, hother⟩ | hnew |
    ⟨act, w, result, -, hw, hresult, rfl, -, hdb⟩
  · refine (hs.sound w' (List.mem_of_getElem? hj)).mono fun held hheld c hc hid => ?_
    exact campaign_kept_of_held h hj hheld hother hc hid
  · exact hnew.sound
  · rw [hdb]
    exact Worker.sound_step hresult

/-- **One step keeps the invariant.** -/
theorem Lawful.step (hs : Lawful s) (h : s.step env a = some s') : Lawful s' where
  launched := hs.launched_step h
  snapshot := hs.snapshot_step h
  completed := hs.completed_step h
  refreshed := hs.refreshed_step h
  drained := hs.drained_step_workers h
  sound := hs.sound_step h

/-- The invariant holds in every state that is reached. -/
theorem lawful_of_reachable {clock : Time} (h : Reachable (step env) (start clock) s) : Lawful s :=
  Reaches.invariant h (Lawful.start clock) fun _ _ _ hs _ hstep => hs.step hstep

/-! ## The lifecycle -/

/-- A campaign moves along the table or stays. -/
theorem Lawful.moves (hs : Lawful s) (h : s.step env a = some s') {c : Campaign}
    (hc : c ∈ s.db.campaigns.rows) :
    ∃ c' ∈ s'.db.campaigns.rows, c'.id = c.id ∧
      (c'.status = c.status ∨ c.status.canMoveTo c'.status = true) := by
  refine ⟨_, (campaigns_step h).1 c hc, id_campaignAfter c, ?_⟩
  rcases hwrite : written env s a with _ | write
  · exact .inl (by simp [campaignAfter, hwrite])
  · simp only [campaignAfter, hwrite, Option.elim_some]
    exact CampaignWrite.status_campaign (hs.isLawful hwrite) hc

/-- A terminal status is never left. -/
theorem terminal_of_reaches (hs : Lawful s) (h : Reachable (step env) s s') {c : Campaign}
    (hc : c ∈ s.db.campaigns.rows) (hterminal : c.status.isTerminal = true) :
    ∃ c' ∈ s'.db.campaigns.rows, c'.id = c.id ∧ c'.status = c.status := by
  have hboth := Reaches.invariant (P := fun x => Lawful x ∧
    ∃ c' ∈ x.db.campaigns.rows, c'.id = c.id ∧ c'.status = c.status) h ⟨hs, c, hc, rfl, rfl⟩ ?_
  · exact hboth.2
  · rintro x b y ⟨hx, c₁, hc₁, hid₁, hstatus₁⟩ - hstep
    refine ⟨hx.step hstep, ?_⟩
    obtain ⟨c₂, hc₂, hid₂, hmoves⟩ := hx.moves hstep hc₁
    refine ⟨c₂, hc₂, hid₂.trans hid₁, ?_⟩
    rcases hmoves with hsame | hmoves
    · exact hsame.trans hstatus₁
    · rw [hstatus₁, CampaignStatus.not_canMoveTo_of_isTerminal hterminal] at hmoves
      cases hmoves

/-- **The lifecycle of a campaign**, under any interleaving of operators and passes. In every state
that is reached each step moves each campaign along the table, a terminal status is kept by all that
follows, and a completed campaign has been launched and has no open recipient. -/
theorem lifecycle {clock : Time} (h : Reachable (step env) (start clock) s) {c : Campaign}
    (hc : c ∈ s.db.campaigns.rows) :
    (∀ a s', s.step env a = some s' → ∃ c' ∈ s'.db.campaigns.rows, c'.id = c.id ∧
        (c'.status = c.status ∨ c.status.canMoveTo c'.status = true)) ∧
      (c.status.isTerminal = true → ∀ s', Reachable (step env) s s' →
        ∃ c' ∈ s'.db.campaigns.rows, c'.id = c.id ∧ c'.status = c.status) ∧
      (c.status = .completed → c.snapshotAt.isSome = true ∧ c.completedAt.isSome = true ∧
        ∀ r ∈ s.db.recipients.rows, r.campaignId = c.id →
          r.status ≠ .pending ∧ r.status ≠ .processing) := by
  have hs := lawful_of_reachable h
  refine ⟨fun a s' hstep => hs.moves hstep hc, fun hterminal s' hs' => ?_, fun hcompleted => ?_⟩
  · exact terminal_of_reaches hs hs' hc hterminal
  · obtain ⟨hat, hdrained⟩ := hs.completed c hc hcompleted
    refine ⟨hs.snapshot c hc (by simp [hcompleted]) (by simp [hcompleted]), hat, ?_⟩
    intro r hr hcampaign
    have hterminal := hdrained r hr hcampaign
    constructor
    all_goals
      intro hstatus
      rw [hstatus] at hterminal
      cases hterminal

/-- A pass sends the only message of a campaign and completes it. -/
theorem lifecycle_completed : ∃ s c, Reachable (step sampleCampaignEnv) (start 0) s ∧
    c ∈ s.db.campaigns.rows ∧ c.status = .completed ∧ c.snapshotAt.isSome = true ∧
      c.completedAt.isSome = true ∧ ∀ r ∈ s.db.recipients.rows, r.campaignId = c.id →
        r.status ≠ .pending ∧ r.status ≠ .processing := by
  have hrun : ((exec (step sampleCampaignEnv) (start 0)
      (sampleLaunch ++ sampleClaim 1 ++ sampleCreate 1 ++ sampleFinish 1)).any fun s =>
        s.db.campaigns.rows.any fun c => c.status = .completed) = true := by decide
  obtain ⟨s, hs, hany⟩ := (Option.any_eq_true _ _).mp hrun
  obtain ⟨c, hc, hcompleted⟩ := List.any_eq_true.mp hany
  have hcompleted := of_decide_eq_true hcompleted
  have hreach := Reachable.of_exec hs
  exact ⟨s, c, hreach, hc, hcompleted, (lifecycle hreach hc).2.2 hcompleted⟩

end CampaignSystem

end ApiWhatsApp
