import ApiWhatsApp.Campaigns.Claims

/-!
# The end of a campaign

`cancel` and `failCampaign` end the campaign and all recipients that are pending when their second
statement runs. A pass whose claim is open at that moment decides on its own what becomes of its
recipient.

* `Worker.ending` is a transaction that has run both statements, `IsEnding` a campaign that is
  `CANCELLED` or `FAILED` or that such a transaction holds.
* `Swept` is the invariant: an ended campaign has no pending recipient, and a transaction that ends
  one covers all of them.
* **`ended_campaigns_swept`** — nobody is stranded as long as no claim is given back to a campaign that
  is ending (`GivesBackInTime`).
* **`stranded_by_retry`** — `retryOrFail` does not look at the campaign, so an error after the
  cancellation gives the claim back, and no pass ever claims a pending recipient of a campaign that is
  not running.
-/

namespace ApiWhatsApp

open Library

/-- The transaction of `cancel` or `failCampaign`, once both statements have run. -/
def Worker.ending : Worker → Option Held
  | .pass { stage := .failing _ campaignId _ pending, .. } =>
      some { campaignId := campaignId, recipients := pending }
  | .operator { id := id, stage := .cancelling _ pending, .. } =>
      some { campaignId := id, recipients := pending }
  | _ => none

/-- What is ending is held. -/
theorem Worker.held_of_ending {w : Worker} {held : Held} (h : w.ending = some held) :
    w.held = some held := by
  unfold Worker.ending at h
  split at h
  · exact h
  · exact h
  · cases h

/-- A new worker ends nothing. -/
theorem Worker.IsNew.ending {w : Worker} (h : w.IsNew) : w.ending = none := by
  rcases hending : w.ending with _ | held
  · rfl
  · have hheld := Worker.held_of_ending hending
    rw [h.facts.1] at hheld
    cases hheld

/-- The statuses of a campaign that was ended from outside. -/
def CampaignStatus.isEnded : CampaignStatus → Bool
  | .cancelled | .failed => true
  | .draft | .scheduled | .running | .paused | .completed => false

namespace CampaignWrite

variable {db : Db} {w : CampaignWrite}

/-- Only two statements end a campaign. -/
theorem ended_campaign (hw : w.IsLawful db) {c : Campaign}
    (h : (w.campaign c).status.isEnded = true) :
    c.status.isEnded = true ∨
      (∃ tenantId cancelledAt pending, w = .cancel tenantId c.id cancelledAt pending) ∨
      ∃ reason pending, w = .failCampaign c.id reason pending := by
  unfold campaign at h
  split_ifs at h with htargets
  · cases w with
    | cancel tenantId id cancelledAt pending =>
        rw [id_of_cancel htargets]
        exact .inr (.inl ⟨tenantId, cancelledAt, pending, rfl⟩)
    | failCampaign id reason pending =>
        rw [id_of_failCampaign htargets]
        exact .inr (.inr ⟨reason, pending, rfl⟩)
    | launch id contactIds rowIds now =>
        simp only [set, launchStatus] at h
        split_ifs at h <;> cases h
    | resume tenantId id status startedAt =>
        rcases hw with rfl | rfl <;> cases h
    | storeCounts _ _ | insert _ | claimRecipients _ _ | completeClaim _ _ => exact .inl h
    | promoteScheduledCampaigns _ | pause _ _ | complete _ _ => cases h
  · exact .inl h

/-- The statement of a pass that gives its claim back. -/
def givesBack : CampaignWrite → Bool
  | completeClaim _ result => result.status = .pending
  | _ => false

end CampaignWrite

namespace CampaignSystem

/-- The campaign is ended, or a transaction is about to commit its end. -/
def IsEnding (s : CampaignSystem) (campaignId : Uuid) : Prop :=
  (∃ c ∈ s.db.campaigns.rows, c.id = campaignId ∧ c.status.isEnded = true) ∨
    ∃ w ∈ s.workers, ∃ held, w.ending = some held ∧ held.campaignId = campaignId

/-- No claim is given back to a campaign that is ending. -/
def GivesBackInTime (env : CampaignEnv) (s : CampaignSystem) (a : Act) : Prop :=
  ∀ claim result, written env s a = some (.completeClaim claim result) → result.status = .pending →
    ∀ r ∈ s.db.recipients.rows, CampaignWrite.isHeld claim r = true → ¬s.IsEnding r.campaignId

/-- A statement that gives no claim back meets the guard. -/
theorem givesBackInTime_of_all {env : CampaignEnv} {s : CampaignSystem} {a : Act}
    (h : (written env s a).all (fun write => !write.givesBack) = true) :
    GivesBackInTime env s a := by
  intro claim result hwrite hpending
  simp [hwrite, CampaignWrite.givesBack, hpending] at h

/-- What holds in every state. -/
structure Swept (s : CampaignSystem) : Prop where
  lawful : Lawful s
  endsClaims : EndsClaims s
  /-- A recipient that is being processed is under a claim. -/
  leased : ∀ r ∈ s.db.recipients.rows, r.status = .processing →
    r.processingLeaseUntil.isSome = true
  ended : ∀ c ∈ s.db.campaigns.rows, c.status.isEnded = true →
    ∀ r ∈ s.db.recipients.rows, r.campaignId = c.id → r.status ≠ .pending
  /-- A transaction that ends a campaign covers its pending recipients. -/
  covered : ∀ w ∈ s.workers, ∀ held, w.ending = some held →
    ∀ r ∈ s.db.recipients.rows, r.campaignId = held.campaignId → r.status = .pending →
      r.id ∈ held.recipients

/-- At the start no campaign has ended. -/
theorem Swept.start (clock : Time) : Swept (start clock) where
  lawful := Lawful.start clock
  endsClaims := EndsClaims.start clock
  leased := by simp [CampaignSystem.start, Db.empty]
  ended := by simp [CampaignSystem.start, Db.empty]
  covered := by simp [CampaignSystem.start]

variable {env : CampaignEnv} {s s' : CampaignSystem} {a : Act}

/-- What is processed has a lease. -/
theorem leased_step (hs : EndsClaims s)
    (hleased : ∀ r ∈ s.db.recipients.rows, r.status = .processing →
      r.processingLeaseUntil.isSome = true) (h : s.step env a = some s') :
    ∀ r ∈ s'.db.recipients.rows, r.status = .processing →
      r.processingLeaseUntil.isSome = true := by
  intro r' hr' hprocessing
  rcases (recipients_step h).2 r' hr' with ⟨r, hr, rfl⟩ | ⟨id, contactIds, rowIds, now, -, hr'⟩
  · rcases recipientAfter_changes r with hsame | ⟨write, hwrite, hchanges⟩
    · rw [hsame] at hprocessing ⊢
      exact hleased r hr hprocessing
    · generalize recipientAfter env s a r = r' at hchanges hprocessing ⊢
      cases hchanges with
      | claimed leaseUntil ids hclaims => rfl
      | completed claim result hheld => exact absurd hprocessing (hs.written hwrite)
      | cancelled _ _ _ _ _ _ | failed _ _ _ _ => cases hprocessing
  · obtain ⟨_, -, _, -, rfl⟩ := CampaignWrite.eq_of_mem_launched hr'
    cases hprocessing

/-- A recipient that is pending after a step was so before, unless its claim was given back. -/
theorem pending_before (hguard : GivesBackInTime env s a)
    {r : CampaignRecipient} (hr : r ∈ s.db.recipients.rows) (hending : s.IsEnding r.campaignId)
    (hpending : (recipientAfter env s a r).status = .pending) :
    r.status = .pending ∧ recipientAfter env s a r = r := by
  rcases recipientAfter_changes r with hsame | ⟨write, hwrite, hchanges⟩
  · rw [hsame] at hpending
    exact ⟨hpending, hsame⟩
  · exfalso
    generalize recipientAfter env s a r = r' at hchanges hpending
    cases hchanges with
    | claimed _ _ _ | cancelled _ _ _ _ _ _ | failed _ _ _ _ => cases hpending
    | completed claim result hheld => exact hguard claim result hwrite hpending r hr hheld hending

/-- A campaign that is ended after a step was so before, or is ended by the statement. -/
theorem ended_before (hs : Lawful s) {c : Campaign}
    (h : (campaignAfter env s a c).status.isEnded = true) :
    c.status.isEnded = true ∨ ∃ write pending, written env s a = some write ∧
      ((∃ tenantId cancelledAt, write = .cancel tenantId c.id cancelledAt pending) ∨
        ∃ reason, write = .failCampaign c.id reason pending) := by
  rcases hwrite : written env s a with _ | write
  · rw [campaignAfter, hwrite] at h
    exact .inl h
  · rw [campaignAfter, hwrite] at h
    rcases CampaignWrite.ended_campaign (hs.isLawful hwrite) h with hended |
      ⟨tenantId, cancelledAt, pending, rfl⟩ | ⟨reason, pending, rfl⟩
    · exact .inl hended
    · exact .inr ⟨_, pending, rfl, .inl ⟨tenantId, cancelledAt, rfl⟩⟩
    · exact .inr ⟨_, pending, rfl, .inr ⟨reason, rfl⟩⟩

/-- The statement that ends a campaign covers all that are pending. -/
theorem Swept.covered_of_written (hs : Swept s) {write : CampaignWrite} {campaignId : Uuid}
    {pending : List Uuid} (hwrite : written env s a = some write)
    (hends : (∃ tenantId cancelledAt, write = .cancel tenantId campaignId cancelledAt pending) ∨
      ∃ reason, write = .failCampaign campaignId reason pending) :
    ∀ r ∈ s.db.recipients.rows, r.campaignId = campaignId → r.status = .pending →
      CampaignWrite.isCovered campaignId pending r = true := by
  intro r hr hcampaign hpending
  have hmem : r.id ∈ pending := by
    rcases writes_step hwrite with ⟨_, _, _, _, _, _, _, _, -, rfl⟩ |
      ⟨i, act, w, result, -, hw, -, -, hwrites⟩
    · rcases hends with ⟨_, _, hends⟩ | ⟨_, hends⟩ <;> cases hends
    · have hw := List.mem_of_getElem? hw
      rcases hends with ⟨tenantId, cancelledAt, rfl⟩ | ⟨reason, rfl⟩
      · cases hwrites with
        | cancel o _ _ hstage =>
            obtain ⟨tenantId, id, stage⟩ := o
            cases hstage
            exact hs.covered _ hw _ rfl r hr hcampaign hpending
      · cases hwrites with
        | failCampaign p claim _ _ _ hstage =>
            obtain ⟨queue, touched, stage⟩ := p
            cases hstage
            exact hs.covered _ hw _ rfl r hr hcampaign hpending
  simp [CampaignWrite.isCovered, hcampaign, hpending, hmem]

/-- A step leaves no recipient of an ended campaign behind. -/
theorem Swept.ended_step (hs : Swept s) (hguard : GivesBackInTime env s a)
    (h : s.step env a = some s') :
    ∀ c ∈ s'.db.campaigns.rows, c.status.isEnded = true →
      ∀ r ∈ s'.db.recipients.rows, r.campaignId = c.id → r.status ≠ .pending := by
  intro c' hc' hended r' hr' hcampaign hpending
  rcases (campaigns_step h).2 c' hc' with ⟨c, hc, rfl⟩ | ⟨hwrite, -⟩
  · rw [id_campaignAfter] at hcampaign
    rcases (recipients_step h).2 r' hr' with ⟨r, hr, rfl⟩ |
      ⟨id, contactIds, rowIds, now, hwrite, hr'⟩
    · rw [(identity_recipientAfter r).2.1] at hcampaign
      rcases ended_before hs.lawful hended with hended | ⟨write, pending, hwrite, hends⟩
      · obtain ⟨hbefore, -⟩ := pending_before hguard hr (.inl ⟨c, hc, hcampaign.symm, hended⟩) hpending
        exact hs.ended c hc hended r hr hcampaign hbefore
      · have hcovered := hs.covered_of_written hwrite hends r hr hcampaign
        by_cases hbefore : r.status = .pending
        · rcases hends with ⟨_, _, rfl⟩ | ⟨_, rfl⟩
          all_goals simp [recipientAfter, hwrite, CampaignWrite.recipient, hcovered hbefore,
            CampaignWrite.ended] at hpending
        · rcases hends with ⟨_, _, rfl⟩ | ⟨_, rfl⟩
          all_goals simp [recipientAfter, hwrite, CampaignWrite.recipient, CampaignWrite.isCovered,
            hbefore] at hpending
    · -- a campaign is launched as a draft, and does not end by its launch
      obtain ⟨-, c₀, hc₀, hid₀, hdraft⟩ := hs.lawful.isLawful hwrite
      have hsame : c = c₀ := by
        refine Db.eq_of_campaign_id hc hc₀ ?_
        rw [hid₀, ← hcampaign, CampaignWrite.campaignId_launched hr']
      subst hsame
      rcases ended_before hs.lawful hended with hended | ⟨write, pending, hwrite', hends⟩
      · rw [hdraft] at hended
        cases hended
      · rw [hwrite] at hwrite'
        cases hwrite'
        rcases hends with ⟨_, _, hends⟩ | ⟨_, hends⟩ <;> cases hends
  · rw [hs.lawful.isLawful hwrite] at hended
    cases hended

/-- A step leaves the recipients to the worker that ends the campaign. -/
theorem Swept.covered_step (hs : Swept s) (hguard : GivesBackInTime env s a)
    (h : s.step env a = some s') :
    ∀ w ∈ s'.workers, ∀ held, w.ending = some held →
      ∀ r ∈ s'.db.recipients.rows, r.campaignId = held.campaignId → r.status = .pending →
        r.id ∈ held.recipients := by
  intro w' hw' held hending r' hr' hcampaign hpending
  obtain ⟨j, hj⟩ := List.getElem?_of_mem hw'
  rcases workers_step h hj with ⟨hj, hother⟩ | hnew | ⟨act, w, result, -, hw, hresult, rfl, -, hdb⟩
  · have hmem := List.mem_of_getElem? hj
    rcases (recipients_step h).2 r' hr' with ⟨r, hr, rfl⟩ |
      ⟨id, contactIds, rowIds, now, hwrite, hr'⟩
    · rw [(identity_recipientAfter r).2.1] at hcampaign
      obtain ⟨hbefore, hsame⟩ := pending_before hguard hr
        (.inr ⟨w', hmem, held, hending, hcampaign.symm⟩) hpending
      rw [hsame]
      exact hs.covered w' hmem held hending r hr hcampaign hbefore
    · -- the launch would have to wait for the transaction
      exfalso
      obtain ⟨-, c, hc, hid, -⟩ := hs.lawful.isLawful hwrite
      have htargets := not_targets_of_held hwrite hj (Worker.held_of_ending hending) hother hc
        (by rw [hid, ← hcampaign, CampaignWrite.campaignId_launched hr'])
      simp [CampaignWrite.targets, hid] at htargets
  · rw [hnew.ending] at hending
    cases hending
  · obtain ⟨hacquires, -, hsame, -⟩ :=
      Worker.acquires_of_step hresult (Worker.held_of_ending hending)
    rw [hdb, hsame] at hr'
    have hpendings : r'.id ∈ s.db.pendingRecipients held.campaignId := by
      refine List.mem_map.mpr ⟨r', List.mem_filter.mpr ⟨hr', ?_⟩, rfl⟩
      simp [hcampaign, hpending]
    generalize result.worker = w' at hacquires hending
    cases hacquires with
    | launching _ _ _ _ => cases hending
    | cancelling _ _ _ _ _ _ | failing _ _ _ _ _ _ _ _ =>
        cases hending
        exact hpendings

/-- **One step keeps the invariant.** -/
theorem Swept.step (hs : Swept s) (hguard : GivesBackInTime env s a) (h : s.step env a = some s') :
    Swept s' where
  lawful := hs.lawful.step h
  endsClaims := hs.endsClaims.step h
  leased := leased_step hs.endsClaims hs.leased h
  ended := hs.ended_step hguard h
  covered := hs.covered_step hguard h

/-- The invariant holds in every state that is reached. -/
theorem swept_of_reaches {clock : Time} (h : Reaches (step env) (GivesBackInTime env) (start clock) s) :
    Swept s :=
  Reaches.invariant h (Swept.start clock) fun _ _ _ hx hguard hstep => hx.step hguard hstep

/-- **Nobody is stranded.** In every run in which no claim is given back to a campaign that is ending,
each recipient of a campaign that is `CANCELLED` or `FAILED` is being processed under a claim, or done. -/
theorem ended_campaigns_swept {clock : Time}
    (h : Reaches (step env) (GivesBackInTime env) (start clock) s) {c : Campaign}
    (hc : c ∈ s.db.campaigns.rows) (hended : c.status = .cancelled ∨ c.status = .failed)
    {r : CampaignRecipient} (hr : r ∈ s.db.recipients.rows) (hcampaign : r.campaignId = c.id) :
    (r.status = .processing ∧ r.processingLeaseUntil.isSome = true) ∨
      r.status.isTerminal = true := by
  have hs := swept_of_reaches h
  have hpending : r.status ≠ .pending := by
    refine hs.ended c hc ?_ r hr hcampaign
    rcases hended with hended | hended <;> rw [hended] <;> rfl
  cases hstatus : r.status with
  | pending => exact absurd hstatus hpending
  | processing => exact .inl ⟨rfl, hs.leased r hr hstatus⟩
  | queued | skipped | failed | cancelled => exact .inr rfl

/-- An operator cancels the campaign while a pass holds a claim. -/
def sampleCancel : List Act :=
  sampleLaunch ++ [.beginPass, .returns 1 [], .returns 1 [30],
    .beginOperator 1 20 .cancel, .returns 2 [], .returns 2 [], .returns 2 []]

/-- The recipient of the campaign is still being processed, under its claim. -/
theorem ended_campaigns_swept_claimed : ∃ s c r,
    Reaches (step sampleCampaignEnv) (GivesBackInTime sampleCampaignEnv) (start 0) s ∧
      c ∈ s.db.campaigns.rows ∧ c.status = .cancelled ∧ r ∈ s.db.recipients.rows ∧
      r.campaignId = c.id ∧
      ((r.status = .processing ∧ r.processingLeaseUntil.isSome = true) ∨
        r.status.isTerminal = true) := by
  have hrun : ((exec (step sampleCampaignEnv) (start 0) sampleCancel).any fun s =>
      s.db.campaigns.rows.any fun c => c.status = .cancelled &&
        s.db.recipients.rows.any fun r => r.campaignId = c.id) = true := by
    decide
  have hguard : ∀ x ∈ trace (step sampleCampaignEnv) (start 0) sampleCancel,
      (written sampleCampaignEnv x.1 x.2.1).all (fun write => !write.givesBack) = true := by
    decide
  obtain ⟨s, hs, hstate⟩ := (Option.any_eq_true _ _).mp hrun
  obtain ⟨c, hc, hstate⟩ := List.any_eq_true.mp hstate
  obtain ⟨hcancelled, hstate⟩ := Bool.and_eq_true_iff.mp hstate
  have hcancelled := of_decide_eq_true hcancelled
  obtain ⟨r, hr, hcampaign⟩ := List.any_eq_true.mp hstate
  have hcampaign := of_decide_eq_true hcampaign
  have hreach := Reaches.of_exec hs fun x hx => givesBackInTime_of_all (hguard x hx)
  exact ⟨s, c, r, hreach, hc, hcancelled, hr, hcampaign,
    ended_campaigns_swept hreach hc (.inl hcancelled) hr hcampaign⟩

/-- A pass reads the campaign as running and is about to create the message when an operator cancels
the campaign. The database then fails once. -/
def sampleStranding : List Act :=
  sampleLaunch ++ sampleClaim 1 ++
    [.beginOperator 1 20 .cancel, .returns 2 [], .returns 2 [], .returns 2 [],
      .worker 1 (.create (.call (.failed "Connection lost") sampleIds)), .worker 1 (.run 0),
      .returns 1 []]

/-- **A cancelled campaign with a pending recipient.** -/
theorem stranded_by_retry : ¬∀ s, Reachable (step sampleCampaignEnv) (start 0) s →
    ∀ c ∈ s.db.campaigns.rows, c.status = .cancelled ∨ c.status = .failed →
      ∀ r ∈ s.db.recipients.rows, r.campaignId = c.id →
        (r.status = .processing ∧ r.processingLeaseUntil.isSome = true) ∨
          r.status.isTerminal = true := by
  intro hall
  have hrun : ((exec (step sampleCampaignEnv) (start 0) sampleStranding).any fun s =>
      s.db.campaigns.rows.any fun c => c.status = .cancelled &&
        s.db.recipients.rows.any fun r => r.campaignId = c.id && r.status = .pending) = true := by
    decide
  obtain ⟨s, hs, hstate⟩ := (Option.any_eq_true _ _).mp hrun
  obtain ⟨c, hc, hstate⟩ := List.any_eq_true.mp hstate
  obtain ⟨hcancelled, hstate⟩ := Bool.and_eq_true_iff.mp hstate
  obtain ⟨r, hr, hstate⟩ := List.any_eq_true.mp hstate
  obtain ⟨hcampaign, hpending⟩ := Bool.and_eq_true_iff.mp hstate
  have hpending := of_decide_eq_true hpending
  rcases hall s (Reachable.of_exec hs) c hc (.inl (of_decide_eq_true hcancelled)) r hr
    (of_decide_eq_true hcampaign) with ⟨hprocessing, -⟩ | hterminal
  · rw [hpending] at hprocessing
    cases hprocessing
  · rw [hpending] at hterminal
    cases hterminal

end CampaignSystem

end ApiWhatsApp
