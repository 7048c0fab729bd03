import ApiWhatsApp.Campaigns.Passes

/-!
# Fencing of recipient claims

What a pass can still do to the recipients once its claim has expired and was granted again, and what
holds of the claims of a recipient in every run.

* `completeClaim` is fenced by the deadline of the lease, so it does nothing. `failCampaign` is not: it
  ends the campaign with the recipients that are pending by then, whoever has claimed them meanwhile.
* **`claim_fencing`** — a superseded pass changes nothing but that; no claim is completed twice,
  `attemptCount` counts the claims, and a recipient that is done is never changed again.
* `failed_after_reclaim` is a run in which a superseded pass fails the recipient of its claim.
-/

namespace ApiWhatsApp

open Library

namespace CampaignSystem

variable {env : CampaignEnv} {s s' : CampaignSystem} {a : Act}

/-- The campaign that a pass is about to fail is the one of its claim. -/
theorem campaignId_of_failCampaign (hs : Coherent s) {i : ℕ} {act : WorkerAct} {p : Pass}
    {claim : CampaignRecipient} (hw : s.workers[i]? = some (.pass p))
    (hclaim : p.stage.claim? = some claim) {campaignId : Uuid} {reason : String}
    {pending : List Uuid}
    (hwrite : written env s (.worker i act) = some (.failCampaign campaignId reason pending)) :
    campaignId = claim.campaignId := by
  rcases writes_step hwrite with ⟨_, _, _, _, _, _, _, _, -, hinsert⟩ |
    ⟨i', act', w, result, hact, hw', -, -, hwrites⟩
  · cases hinsert
  · cases hact
    rw [hw] at hw'
    cases hw'
    have hbelongs := (hs i p hw).belongs
    cases hwrites with
    | failCampaign _ _ _ _ _ hstage =>
        rw [hstage] at hclaim hbelongs
        cases hclaim
        exact hbelongs

/-- **Recipient claim fencing**, for replicas whose clocks never give the same deadline twice for one
recipient. A pass whose claim was granted again changes no recipient, unless its `failCampaign` ends
the campaign of the claim, and then only by failing recipients of that campaign that are pending; each
claim is completed at most once; `attemptCount` is the number of claims ever granted; a recipient that
is done stays as it is. -/
theorem claim_fencing {clock : Time}
    (h : Reaches (step env) (FreshLeases env) (start clock) s) :
    (∀ i p claim leaseUntil, s.workers[i]? = some (.pass p) → p.stage.claim? = some claim →
        claim.processingLeaseUntil = some leaseUntil → s.Superseded claim.id leaseUntil →
        ∀ act s', s.step env (.worker i act) = some s' →
          ∀ r ∈ s.db.recipients.rows, r ∈ s'.db.recipients.rows ∨
            ∃ reason pending,
              written env s (.worker i act) =
                some (.failCampaign claim.campaignId reason pending) ∧
              r.campaignId = claim.campaignId ∧ r.status = .pending ∧
              CampaignWrite.ended .failed reason r ∈ s'.db.recipients.rows) ∧
      s.completed.Nodup ∧
      (∀ r ∈ s.db.recipients.rows,
        r.attemptCount = (s.granted.filter fun g => g.1 = r.id).length) ∧
      ∀ r ∈ s.db.recipients.rows, r.status.isTerminal = true →
        ∀ s', Reachable (step env) s s' → r ∈ s'.db.recipients.rows := by
  have hs : Fenced s :=
    Reaches.invariant h (Fenced.start clock) fun _ _ _ hx hfresh hstep => hx.step hfresh hstep
  have hcoherent : Coherent s :=
    Reaches.invariant h (Coherent.start clock) fun _ _ _ hx _ hstep => hx.step hstep
  refine ⟨?_, hs.nodup_completed, hs.counted, ?_⟩
  · intro i p claim leaseUntil hw hclaim hlease hsuperseded act s' hstep r hr
    have hafter := (recipients_step hstep).1 r hr
    rcases hwrite : written env s (.worker i act) with _ | write
    · left
      simpa [recipientAfter, hwrite] using hafter
    · rcases written_of_claim hw hclaim hwrite with ⟨result, rfl⟩ | ⟨id, reason, pending, rfl⟩
      · left
        have hvoid := hs.not_isHeld hr hlease hsuperseded
        simpa [recipientAfter, hwrite, CampaignWrite.recipient, hvoid] using hafter
      · obtain rfl := campaignId_of_failCampaign hcoherent hw hclaim hwrite
        by_cases hcovered : CampaignWrite.isCovered claim.campaignId pending r = true
        · right
          have hrow := hcovered
          simp only [CampaignWrite.isCovered, Bool.and_eq_true, decide_eq_true_eq] at hrow
          refine ⟨reason, pending, rfl, hrow.1.1, hrow.1.2, ?_⟩
          simpa [recipientAfter, hwrite, CampaignWrite.recipient, hcovered] using hafter
        · left
          simpa [recipientAfter, hwrite, CampaignWrite.recipient, hcovered] using hafter
  · intro r hr hterminal s' hs'
    refine Reaches.invariant (P := fun x => r ∈ x.db.recipients.rows) hs' hr ?_
    rintro x b y hx - hstep
    have hafter := (recipients_step hstep).1 r hx
    rwa [recipientAfter_of_isTerminal hterminal] at hafter

/-- Worker `1` has created the message of a recipient when its lease expires and worker `2` claims the
recipient again. -/
def sampleReclaim : List Act :=
  sampleLaunch ++ sampleClaim 1 ++ sampleCreate 1 ++
    [.worker 1 (.run 0), .tick 30000, .beginPass, .returns 2 [],
      .worker 2 (.call .returned 30000 [30])]

/-- A pass that completes the first of the two claims. -/
def isLate (w : Worker) : Bool :=
  match w with
  | .pass { stage := .complete claim _ _, .. } =>
      claim.id = 30 && claim.processingLeaseUntil = some 30000
  | _ => false

theorem stage_of_isLate {w : Worker} (h : isLate w = true) :
    ∃ p claim result site, w = .pass p ∧ p.stage = .complete claim result site ∧
      claim.id = 30 ∧ claim.processingLeaseUntil = some 30000 := by
  unfold isLate at h
  split at h
  · simp only [Bool.and_eq_true, decide_eq_true_eq] at h
    exact ⟨_, _, _, _, rfl, rfl, h.1, h.2⟩
  · cases h

/-- The late completion of worker `1` changes nothing. -/
theorem claim_fencing_reclaimed : ∃ s s' r,
    Reaches (step sampleCampaignEnv) (FreshLeases sampleCampaignEnv) (start 0) s ∧
      s.granted = [(30, 60000), (30, 30000)] ∧
      s.step sampleCampaignEnv (.returns 1 []) = some s' ∧ r ∈ s.db.recipients.rows ∧
      r ∈ s'.db.recipients.rows := by
  have hrun : ((exec (step sampleCampaignEnv) (start 0) sampleReclaim).any fun s =>
      s.granted = [(30, 60000), (30, 30000)] && s.workers[1]?.any isLate &&
        (s.step sampleCampaignEnv (.returns 1 [])).isSome && !s.db.recipients.rows.isEmpty) = true := by
    decide
  have hfresh : ∀ x ∈ trace (step sampleCampaignEnv) (start 0) sampleReclaim,
      FreshLeases sampleCampaignEnv x.1 x.2.1 := by decide
  obtain ⟨s, hs, hstate⟩ := (Option.any_eq_true _ _).mp hrun
  simp only [Bool.and_eq_true, decide_eq_true_eq] at hstate
  obtain ⟨⟨⟨hgranted, hlate⟩, hstep⟩, hrows⟩ := hstate
  obtain ⟨w, hw, hlate⟩ := (Option.any_eq_true _ _).mp hlate
  obtain ⟨p, claim, result, site, rfl, hstage, hid, hlease⟩ := stage_of_isLate hlate
  obtain ⟨s', hs'⟩ := Option.isSome_iff_exists.mp hstep
  obtain ⟨r, hr⟩ := List.exists_mem_of_ne_nil s.db.recipients.rows (by simpa using hrows)
  have hreach := Reaches.of_exec hs hfresh
  have hsuperseded : s.Superseded claim.id 30000 := by
    rw [hid]
    exact ⟨[(30, 60000)], [], 60000, hgranted, by simp⟩
  refine ⟨s, s', r, hreach, hgranted, hs', hr, ?_⟩
  rcases (claim_fencing hreach).1 1 p claim 30000 hw (by rw [hstage]; rfl) hlease hsuperseded _ s' hs'
    r hr with hkept | ⟨reason, pending, hwrite, -⟩
  · exact hkept
  · rcases writes_step hwrite with ⟨_, _, _, _, _, _, _, _, -, hinsert⟩ |
      ⟨i, act, w', _, hact, hw', -, -, hwrites⟩
    · cases hinsert
    · cases hact
      rw [hw] at hw'
      cases hw'
      cases hwrites with
      | failCampaign _ _ _ _ _ hfailing =>
          rw [hstage] at hfailing
          cases hfailing

/-- The template is paused. -/
def samplePaused : UnrelatedToCampaigns where
  run db :=
    { db with templates :=
        db.templates.updateWhere (fun _ => true) (fun t => { t with status := "PAUSED" }) fun _ => rfl }
  campaigns_run _ := rfl
  recipients_run _ := rfl
  messages_kept _ m hm := ⟨m, hm, rfl⟩
  messages_new _ m hm := .inl ⟨m, hm, rfl⟩
  contacts_kept _ c hc := ⟨c, hc, rfl⟩
  contacts_new _ c hc := .inl ⟨c, hc, rfl⟩
  templates_kept _ _ ht := ⟨_, List.mem_map_of_mem ht, rfl, rfl, rfl⟩

/-- Worker `1` has found the template paused and begun `failCampaign` when its lease expires; worker
`2` claims the recipient again and puts it back after an error. -/
def sampleReturned : List Act :=
  sampleLaunch ++ [.other samplePaused] ++ sampleClaim 1 ++
    [.tick 30000, .beginPass, .returns 2 [], .worker 2 (.call .returned 30000 [30]),
      .worker 2 (.run 0), .worker 2 (.call (.failed "timeout") 30000 []), .returns 2 [],
      .returns 1 []]

/-- A pass that fails the campaign of the first of the two claims. -/
def isLateFailure (w : Worker) : Bool :=
  match w with
  | .pass { stage := .failing claim _ _ _, .. } =>
      claim.id = 30 && claim.processingLeaseUntil = some 30000
  | _ => false

theorem claim_of_isLateFailure {w : Worker} (h : isLateFailure w = true) :
    ∃ p claim, w = .pass p ∧ p.stage.claim? = some claim ∧ claim.id = 30 ∧
      claim.processingLeaseUntil = some 30000 := by
  unfold isLateFailure at h
  split at h
  · simp only [Bool.and_eq_true, decide_eq_true_eq] at h
    exact ⟨_, _, rfl, rfl, h.1, h.2⟩
  · cases h

/-- The statements of worker `1` then fail the recipient of its claim. -/
theorem failed_after_reclaim :
    ¬ ∀ s, Reaches (step sampleCampaignEnv) (FreshLeases sampleCampaignEnv) (start 0) s →
      ∀ i p claim leaseUntil, s.workers[i]? = some (.pass p) → p.stage.claim? = some claim →
        claim.processingLeaseUntil = some leaseUntil → s.Superseded claim.id leaseUntil →
        ∀ act s', s.step sampleCampaignEnv (.worker i act) = some s' →
          ∀ r ∈ s.db.recipients.rows, r.id = claim.id → r ∈ s'.db.recipients.rows := by
  intro hall
  have hrun : ((exec (step sampleCampaignEnv) (start 0) sampleReturned).any fun s =>
      s.granted = [(30, 60000), (30, 30000)] && s.workers[1]?.any isLateFailure &&
        s.db.recipients.rows.any (fun r => r.id = 30 && r.status = .pending) &&
        (s.step sampleCampaignEnv (.returns 1 [])).any fun s' =>
          s'.db.recipients.rows.all fun r => r.status = .failed) = true := by
    decide
  have hfresh : ∀ x ∈ trace (step sampleCampaignEnv) (start 0) sampleReturned,
      FreshLeases sampleCampaignEnv x.1 x.2.1 := by decide
  obtain ⟨s, hs, hstate⟩ := (Option.any_eq_true _ _).mp hrun
  simp only [Bool.and_eq_true, decide_eq_true_eq] at hstate
  obtain ⟨⟨⟨hgranted, hlate⟩, hpending⟩, hstep⟩ := hstate
  obtain ⟨w, hw, hlate⟩ := (Option.any_eq_true _ _).mp hlate
  obtain ⟨p, claim, rfl, hclaim, hid, hlease⟩ := claim_of_isLateFailure hlate
  obtain ⟨r, hr, hpending⟩ := List.any_eq_true.mp hpending
  obtain ⟨s', hs', hfailed⟩ := (Option.any_eq_true _ _).mp hstep
  simp only [Bool.and_eq_true, decide_eq_true_eq] at hpending
  have hsuperseded : s.Superseded claim.id 30000 := by
    rw [hid]
    exact ⟨[(30, 60000)], [], 60000, hgranted, by simp⟩
  have hkept := hall s (Reaches.of_exec hs hfresh) 1 p claim 30000 hw hclaim hlease hsuperseded _ s'
    hs' r hr (hpending.1.trans hid.symm)
  have hr' := of_decide_eq_true (List.all_eq_true.mp hfailed r hkept)
  rw [hpending.2] at hr'
  cases hr'

end CampaignSystem

end ApiWhatsApp
