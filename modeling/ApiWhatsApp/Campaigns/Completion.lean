import ApiWhatsApp.Campaigns.Passes

/-!
# Campaigns that are never completed

Only `refreshStats` completes a running campaign, and a pass calls it for the campaigns of the
recipients that it has claimed. A running campaign whose recipients are all done offers nothing to
claim, so no later pass looks at it.

* `IsPassAlone` — the acts of one pass, without a crash and without any other writer.
* `Pass.Avoids` — a pass has nothing to do with a campaign.
* **`drained_stays_running`** — a full pass leaves every such campaign running.
* **`drained_while_paused`** — such campaigns exist: the last recipient is done while the campaign is
  paused, and then the campaign is resumed.
-/

namespace ApiWhatsApp

open Library

/-- A pass has nothing to do with a campaign. -/
structure Pass.Avoids (p : Pass) (id : Uuid) : Prop where
  queue : ∀ claim ∈ p.queue, claim.campaignId ≠ id
  claim : ∀ claim, p.stage.claim? = some claim → claim.campaignId ≠ id
  touched : id ∉ p.touched
  refresh : ∀ refresh rest, p.stage = .refresh refresh rest → refresh.campaignId ≠ id ∧ id ∉ rest

namespace Worker

variable {env : CampaignEnv} {db : Db} {clock : Time} {act : WorkerAct} {p p' : Pass} {id : Uuid}

theorem refresh_of_refreshing {rest rest' : List Uuid} {refresh : Refresh}
    (h : PassStage.refreshing rest = .refresh refresh rest') :
    rest = refresh.campaignId :: rest' := by
  cases rest with
  | nil => cases h
  | cons id rest =>
      cases h
      rfl

/-- A pass does not turn to a campaign whose recipients are all done. -/
theorem avoids_moves (h : PassMoves env db clock act p p') (hdrained : db.Drained id)
    (hp : p.Avoids id) : p'.Avoids id := by
  refine ⟨?_, ?_, ?_, ?_⟩
  · intro claim hclaim
    cases h with
    | claimed now ids hstage hact =>
        obtain ⟨r, hr, hclaims, rfl⟩ := mem_claimedQueue hclaim
        intro hcampaign
        have hterminal := hdrained r hr hcampaign
        rw [CampaignWrite.not_isTerminal_of_claims hclaims] at hterminal
        cases hterminal
    | began claim' queue hstage hqueue =>
        exact hp.queue claim (by rw [hqueue]; exact List.mem_cons_of_mem _ hclaim)
    | _ => exact hp.queue claim hclaim
  · intro claim hclaim
    rcases h.claim_cases hclaim with ⟨-, hqueue, -⟩ | ⟨-, -, hfollows⟩
    · exact hp.queue claim (by rw [hqueue]; exact List.mem_cons_self)
    · refine hp.claim claim ?_
      rcases hfollows with ⟨now, hfollows⟩ | ⟨_, _, _, _, _, hstage, -⟩
      · exact hfollows.claim_before
      · rw [hstage]
        rfl
  · cases h with
    | began claim queue hstage hqueue =>
        have hclaim : claim.campaignId ≠ id :=
          hp.queue claim (by rw [hqueue]; exact List.mem_cons_self)
        simp only
        split_ifs
        · exact hp.touched
        · simp [hp.touched, Ne.symm hclaim]
    | _ => exact hp.touched
  · intro refresh' rest' hstage'
    cases h with
    | refreshing hstage hqueue =>
        have htouched := hp.touched
        rw [refresh_of_refreshing hstage'] at htouched
        simp only [List.mem_cons, not_or] at htouched
        exact ⟨Ne.symm htouched.1, htouched.2⟩
    | refreshed now refresh rest hstage =>
        obtain ⟨hcampaign, hrest⟩ := hp.refresh refresh rest hstage
        rcases hnext : (refresh.pending db now).2 with _ | refresh₁
        · simp only [hnext] at hstage'
          rw [refresh_of_refreshing hstage'] at hrest
          simp only [List.mem_cons, not_or] at hrest
          exact ⟨Ne.symm hrest.1, hrest.2⟩
        · simp only [hnext] at hstage'
          cases hstage'
          exact ⟨by rwa [Refresh.campaignId_of_pending hnext], hrest⟩
    | follows now claim stage hfollows =>
        rcases hfollows.claim_after with rfl | hclaim
        · cases hstage'
        · rw [show stage = .refresh refresh' rest' from hstage'] at hclaim
          cases hclaim
    | ended stage hstage hact => rcases hstage with rfl | rfl <;> cases hstage'
    | promoted _ | claimed _ _ _ _ | began _ _ _ _ | created _ _ _ _ _ _ _ _ _ => cases hstage'

/-- The statements of such a pass leave a running campaign alone. -/
theorem not_targets_of_avoids {write : CampaignWrite} {c : Campaign}
    (h : Writes env db (.pass p) write) (hcoherent : p.Coherent db) (hp : p.Avoids c.id)
    (hrunning : c.status = .running) : write.targets c = false := by
  have hrefresh : ∀ refresh, (Worker.pass p).refresh? = some refresh → refresh.campaignId ≠ c.id := by
    intro refresh hrefresh
    obtain ⟨queue, touched, stage⟩ := p
    cases stage with
    | refresh refresh' rest =>
        cases hrefresh
        exact (hp.refresh _ _ rfl).1
    | _ => cases hrefresh
  cases h with
  | promote _ now hstage => simp [CampaignWrite.targets, hrunning]
  | claim _ _ _ _ _ | completeClaim _ _ _ _ => rfl
  | failCampaign _ claim campaignId reason pending hstage =>
      have hbelongs := hcoherent.belongs
      rw [hstage] at hbelongs
      have hne := hp.claim claim (by rw [hstage]; rfl)
      have hcampaign : campaignId = claim.campaignId := hbelongs
      simp [CampaignWrite.targets, hcampaign, Ne.symm hne]
  | storeCounts _ id counts h =>
      have hne := hrefresh _ h
      simp [CampaignWrite.targets, Ne.symm hne]
  | complete _ id now h =>
      have hne := hrefresh _ h
      simp [CampaignWrite.targets, Ne.symm hne]

end Worker

namespace CampaignSystem

/-- The acts of one pass alone, without a crash. -/
def IsPassAlone (i : ℕ) : Act → Bool
  | .tick _ => true
  | .worker j act => j = i && match act with
      | .crash => false
      | _ => true
  | _ => false

variable {env : CampaignEnv} {s s' : CampaignSystem} {a : Act}

/-- A pass alone leaves a running campaign that it avoids as it is. -/
theorem untouched_of_passAlone {i : ℕ} {p : Pass} {c : Campaign} (hs : Coherent s)
    (hi : s.workers[i]? = some (.pass p)) (hp : p.Avoids c.id) (hc : c ∈ s.db.campaigns.rows)
    (hrunning : c.status = .running) (halone : IsPassAlone i a = true)
    (h : s.step env a = some s') : c ∈ s'.db.campaigns.rows := by
  have hafter := (campaigns_step h).1 c hc
  rcases hwrite : written env s a with _ | write
  · simpa [campaignAfter, hwrite] using hafter
  · have htargets : write.targets c = false := by
      rcases writes_step hwrite with ⟨_, _, _, _, _, _, _, _, rfl, -⟩ |
        ⟨j, act, w, result, rfl, hw, -, -, hwrites⟩
      · cases halone
      · simp only [IsPassAlone, Bool.and_eq_true, decide_eq_true_eq] at halone
        obtain ⟨rfl, -⟩ := halone
        rw [hi] at hw
        cases hw
        exact Worker.not_targets_of_avoids hwrites (hs j p hi) hp hrunning
    simpa [campaignAfter, hwrite, CampaignWrite.campaign, htargets] using hafter

/-- What holds while a pass runs alone. -/
structure Overlooked (i : ℕ) (c : Campaign) (s : CampaignSystem) : Prop where
  lawful : Lawful s
  coherent : Coherent s
  campaign : c ∈ s.db.campaigns.rows
  drained : s.db.Drained c.id
  pass : ∃ p, s.workers[i]? = some (.pass p) ∧ p.Avoids c.id

theorem Overlooked.step {i : ℕ} {c : Campaign} (hs : Overlooked i c s)
    (hrunning : c.status = .running) (halone : IsPassAlone i a = true)
    (h : s.step env a = some s') : Overlooked i c s' := by
  obtain ⟨p, hi, hp⟩ := hs.pass
  refine ⟨hs.lawful.step h, hs.coherent.step h, ?_, ?_, ?_⟩
  · exact untouched_of_passAlone hs.coherent hi hp hs.campaign hrunning halone h
  · exact hs.lawful.drained_step h ⟨c, hs.campaign, rfl, by simp [hrunning]⟩ hs.drained
  · cases a with
    | tick elapsed =>
        cases h
        exact ⟨p, hi, hp⟩
    | worker j act =>
        simp only [IsPassAlone, Bool.and_eq_true, decide_eq_true_eq] at halone
        obtain ⟨rfl, -⟩ := halone
        obtain ⟨result, hresult, hmoved, -, -⟩ := worker_moved h hi
        obtain ⟨p', hp', hmoves⟩ := Worker.pass_moves hresult
        rw [hp'] at hmoved
        exact ⟨p', hmoved, Worker.avoids_moves hmoves hs.drained hp⟩
    | _ => cases halone

/-- **A finished campaign stays running.** In no reachable state does a full pass, alone and without a
crash, complete a running campaign whose recipients are all done: the campaign is `RUNNING` at every
point of the pass and at its end. -/
theorem drained_stays_running {clock : Time} (h : Reachable (step env) (start clock) s)
    {c : Campaign} (hc : c ∈ s.db.campaigns.rows) (hrunning : c.status = .running)
    (hdrained : s.db.Drained c.id) {acts : List Act}
    (halone : ∀ a ∈ acts, IsPassAlone s.workers.length a = true)
    (hrun : exec (step env) s (.beginPass :: acts) = some s') :
    ∀ c' ∈ s'.db.campaigns.rows, c'.id = c.id → c'.status = .running := by
  obtain ⟨s₁, hbegin, hrun⟩ := exec_cons.mp hrun
  have hlawful := lawful_of_reachable h
  have hcoherent := coherent_of_reachable h
  have hstart : Overlooked s.workers.length c s₁ := by
    refine ⟨hlawful.step hbegin, hcoherent.step hbegin, ?_, ?_, .begin, ?_, ?_⟩
    all_goals cases hbegin
    · exact hc
    · exact hdrained
    · simp
    · exact ⟨by simp [Pass.begin], by simp [Pass.begin, PassStage.claim?], by simp [Pass.begin],
        by simp [Pass.begin]⟩
  have hreach : Reaches (step env) (fun _ a => IsPassAlone s.workers.length a = true) s₁ s' :=
    Reaches.of_exec hrun fun x hx => halone _ (label_mem_of_mem_trace hx)
  have hend := Reaches.invariant (P := Overlooked s.workers.length c) hreach hstart
    fun _ _ _ hx halone hstep => hx.step hrunning halone hstep
  intro c' hc' hid
  rw [Db.eq_of_campaign_id hc' hend.campaign hid]
  exact hrunning

/-- The only recipient of a campaign is done while the campaign is paused; then it is resumed. -/
def samplePause : List Act :=
  sampleLaunch ++ sampleClaim 1 ++ sampleCreate 1 ++ [.beginOperator 1 20 .pause, .returns 2 []] ++
    sampleFinish 1 ++ [.beginOperator 1 20 .resume, .returns 3 [], .returns 3 []]

/-- A full pass that finds nothing to claim. -/
def sampleIdle : List Act := [.returns 4 [], .returns 4 [], .worker 4 (.run 0)]

/-- The worker is a pass that has ended. -/
def isFinished : Worker → Bool
  | .pass { stage := .finished, .. } => true
  | _ => false

theorem samplePause_drained : ∃ s c s', Reachable (step sampleCampaignEnv) (start 0) s ∧
    c ∈ s.db.campaigns.rows ∧ c.status = .running ∧ s.db.Drained c.id ∧
    (∀ a ∈ sampleIdle, IsPassAlone s.workers.length a = true) ∧
    exec (step sampleCampaignEnv) s (.beginPass :: sampleIdle) = some s' ∧
    s'.workers[s.workers.length]?.any isFinished = true ∧
    ∀ c' ∈ s'.db.campaigns.rows, c'.status = .running := by
  have hrun : ((exec (step sampleCampaignEnv) (start 0) samplePause).any fun s =>
      (s.db.campaigns.rows.any fun c => c.status = .running && s.db.Drained c.id) &&
        (sampleIdle.all fun a => IsPassAlone s.workers.length a) &&
        (exec (step sampleCampaignEnv) s (.beginPass :: sampleIdle)).any fun s' =>
          s'.workers[s.workers.length]?.any isFinished &&
            s'.db.campaigns.rows.all fun c' => c'.status = .running) = true := by decide
  obtain ⟨s, hs, hstate⟩ := (Option.any_eq_true _ _).mp hrun
  obtain ⟨hstate, hpass⟩ := Bool.and_eq_true_iff.mp hstate
  obtain ⟨hcampaign, halone⟩ := Bool.and_eq_true_iff.mp hstate
  obtain ⟨c, hc, hcampaign⟩ := List.any_eq_true.mp hcampaign
  obtain ⟨hrunning, hdrained⟩ := Bool.and_eq_true_iff.mp hcampaign
  obtain ⟨s', hs', hend⟩ := (Option.any_eq_true _ _).mp hpass
  obtain ⟨hfinished, hstays⟩ := Bool.and_eq_true_iff.mp hend
  exact ⟨s, c, s', Reachable.of_exec hs, hc, of_decide_eq_true hrunning, of_decide_eq_true hdrained,
    List.all_eq_true.mp halone, hs', hfinished,
    fun c' hc' => of_decide_eq_true (List.all_eq_true.mp hstays c' hc')⟩

/-- The pass after the campaign is resumed ends, and the campaign is still running. -/
theorem drained_stays_running_resumed : ∃ s c s', Reachable (step sampleCampaignEnv) (start 0) s ∧
    c ∈ s.db.campaigns.rows ∧ c.status = .running ∧ s.db.Drained c.id ∧
    exec (step sampleCampaignEnv) s (.beginPass :: sampleIdle) = some s' ∧
    ∀ c' ∈ s'.db.campaigns.rows, c'.id = c.id → c'.status = .running := by
  obtain ⟨s, c, s', hreach, hc, hrunning, hdrained, halone, hrun, -⟩ := samplePause_drained
  exact ⟨s, c, s', hreach, hc, hrunning, hdrained, hrun,
    drained_stays_running hreach hc hrunning hdrained halone hrun⟩

/-- **Drained while paused.** Not every running campaign without open recipients is completed by the
next full pass. -/
theorem drained_while_paused : ¬∀ s, Reachable (step sampleCampaignEnv) (start 0) s →
    ∀ c ∈ s.db.campaigns.rows, c.status = .running → s.db.Drained c.id →
      ∀ acts s', (∀ a ∈ acts, IsPassAlone s.workers.length a = true) →
        exec (step sampleCampaignEnv) s (.beginPass :: acts) = some s' →
        s'.workers[s.workers.length]?.any isFinished = true →
          ∃ c' ∈ s'.db.campaigns.rows, c'.id = c.id ∧ c'.status = .completed := by
  intro hall
  obtain ⟨s, c, s', hreach, hc, hrunning, hdrained, halone, hpass, hfinished, hstays⟩ :=
    samplePause_drained
  obtain ⟨c', hc', -, hcompleted⟩ :=
    hall s hreach c hc hrunning hdrained sampleIdle s' halone hpass hfinished
  rw [hstays c' hc'] at hcompleted
  cases hcompleted

end CampaignSystem

end ApiWhatsApp
