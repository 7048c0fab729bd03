import ApiWhatsApp.Campaigns.Endings
import ApiWhatsApp.Campaigns.Passes

/-!
# The counters of a campaign

`refreshStats` counts the recipients in one statement and stores the counts in another, without a
lock. Passes and `cancel` call it after their last update, and may run side by side.

* `Db.endCounts` are the counts, `Campaign.storedCounts` what the campaign shows, `IsCurrent` that
  both agree.
* `Worker.WillCount` — a worker has yet to count the recipients of a campaign; `Worker.Owes` — it has
  yet to store counts that are current.
* `Tallied` is the invariant: the counters are current, or some worker owes them.
* **`counters_converge`** — the counters are right once nobody works on an ended campaign, provided that
  no worker stores an overtaken count as the last one, or stops before it has refreshed what it owes
  (`Refreshes`), and no claim is given back too late (`GivesBackInTime`).
* **`overtaken_count`** — `cancel` and a pass count in one order and store in the other.
-/

namespace ApiWhatsApp

open Library

/-! ## Counting -/

/-- The counts of the recipients that are done. -/
def RecipientCounts.ends (counts : RecipientCounts) : ℕ × ℕ × ℕ × ℕ :=
  (counts.queued, counts.skipped, counts.failed, counts.cancelled)

/-- The recipients of a campaign that are done. -/
def Db.endCounts (db : Db) (campaignId : Uuid) : ℕ × ℕ × ℕ × ℕ := (db.recipientCounts campaignId).ends

/-- What a campaign shows. -/
def Campaign.storedCounts (c : Campaign) : ℕ × ℕ × ℕ × ℕ :=
  (c.queuedRecipients, c.skippedRecipients, c.failedRecipients, c.cancelledRecipients)

/-- The recipients of a campaign. -/
def Db.recipientsOf (db : Db) (campaignId : Uuid) : List CampaignRecipient :=
  db.recipients.rows.filter fun r => r.campaignId = campaignId

/-- A count is over the recipients of the campaign. -/
theorem Db.countRecipients_eq (db : Db) (campaignId : Uuid) (status : CampaignRecipientStatus) :
    db.countRecipients campaignId status =
      (db.recipientsOf campaignId).countP fun r => r.status = status := by
  rw [Db.countRecipients, Db.recipientsOf, List.countP_filter, List.countP_eq_length_filter]
  congr 1
  refine List.filter_congr fun r _ => ?_
  exact Bool.and_comm _ _

/-- Every recipient is in one of the six statuses. -/
theorem length_eq_sum_countP (rows : List CampaignRecipient) :
    rows.length = rows.countP (fun r => r.status = .pending) +
      rows.countP (fun r => r.status = .processing) +
      rows.countP (fun r => r.status = .queued) + rows.countP (fun r => r.status = .skipped) +
      rows.countP (fun r => r.status = .failed) + rows.countP (fun r => r.status = .cancelled) := by
  induction rows with
  | nil => rfl
  | cons r rest ih =>
      cases hstatus : r.status <;> simp [hstatus, ih] <;> omega

/-- Statuses that change only among open ones leave the counts alone. -/
theorem countP_of_open {rows rows' : List CampaignRecipient} {f : CampaignRecipient → CampaignRecipient}
    (hrows : rows' = rows.map f)
    (hf : ∀ r ∈ rows, (f r).status = r.status ∨
      (r.status.isTerminal = false ∧ (f r).status.isTerminal = false))
    {status : CampaignRecipientStatus} (hterminal : status.isTerminal = true) :
    (rows'.countP fun r => r.status = status) = rows.countP fun r => r.status = status := by
  rw [hrows, List.countP_map]
  refine List.countP_congr fun r hr => ?_
  rcases hf r hr with hsame | ⟨hopen, hopen'⟩
  · simp [hsame]
  · have h₁ : r.status ≠ status := by
      rintro rfl
      rw [hopen] at hterminal
      cases hterminal
    have h₂ : (f r).status ≠ status := by
      rintro rfl
      rw [hopen'] at hterminal
      cases hterminal
    simp [h₁, h₂]

/-- The end counts depend on the list of the campaign's recipients only. -/
theorem Db.endCounts_congr {db db' : Db} {campaignId : Uuid}
    (h : ∀ status : CampaignRecipientStatus, status.isTerminal = true →
      ((db'.recipientsOf campaignId).countP fun r => r.status = status) =
        (db.recipientsOf campaignId).countP fun r => r.status = status) :
    db'.endCounts campaignId = db.endCounts campaignId := by
  simp only [Db.endCounts, RecipientCounts.ends, Db.recipientCounts, Db.countRecipients_eq]
  rw [h .queued rfl, h .skipped rfl, h .failed rfl, h .cancelled rfl]

namespace CampaignSystem

variable {env : CampaignEnv} {s s' : CampaignSystem} {a : Act}

/-- The recipients of a campaign after a step that does not launch it. -/
theorem recipientsOf_step (h : s.step env a = some s') (id : Uuid) :
    (∃ contactIds rowIds now, written env s a = some (.launch id contactIds rowIds now)) ∨
      s'.db.recipientsOf id = (s.db.recipientsOf id).map (recipientAfter env s a) := by
  rcases recipients_rows h with ⟨id', contactIds, rowIds, now, hwrite, hrows⟩ | ⟨-, hrows⟩
  · by_cases hid : id' = id
    · subst hid
      exact .inl ⟨contactIds, rowIds, now, hwrite⟩
    · right
      have hafter : recipientAfter env s a = fun r => r := by
        funext r
        simp [recipientAfter, hwrite, CampaignWrite.recipient]
      rw [Db.recipientsOf, Db.recipientsOf, hrows, hafter, List.map_id']
      refine Table.filter_insertAll _ fun r hr => ?_
      simp [CampaignWrite.campaignId_launched hr, hid]
  · right
    rw [Db.recipientsOf, Db.recipientsOf, hrows, List.filter_map]
    congr 1
    refine List.filter_congr fun r _ => ?_
    have hcampaign : (recipientAfter env s a r).campaignId = r.campaignId :=
      (identity_recipientAfter r).2.1
    simp [hcampaign]

/-- What `launch` adds takes only free entries. -/
theorem pairwise_launched {id : Uuid} {contactIds rowIds : List Uuid} {clock : Time}
    (hcontacts : contactIds.Nodup) (hrows : rowIds.Nodup) :
    (CampaignWrite.launched id contactIds rowIds clock).Pairwise fun a b =>
      ∀ k ∈ Keyed.keys a, k ∉ Keyed.keys b := by
  unfold CampaignWrite.launched
  rw [List.pairwise_iff_getElem]
  intro i j hi hj hij k hka hkb
  simp only [List.getElem_zipWith, Keyed.keys, CampaignWrite.newRecipient, Option.map_none,
    Option.toList_none, List.mem_cons, List.not_mem_nil, or_false] at hka hkb
  simp only [List.length_zipWith, lt_min_iff] at hi hj
  rcases hka with rfl | rfl
  · rcases hkb with hkb | hkb
    · have hrow := (List.Nodup.getElem_inj_iff hrows).mp (RecipientKey.id.inj hkb)
      omega
    · cases hkb
  · rcases hkb with hkb | hkb
    · cases hkb
    · have hcontact := (List.Nodup.getElem_inj_iff hcontacts).mp (RecipientKey.campaignContact.inj hkb).2
      omega

/-- **A launch** gives the campaign one recipient for each contact. -/
theorem Lawful.recipientsOf_launch (hs : Lawful s) (h : s.step env a = some s') {id : Uuid}
    {contactIds rowIds : List Uuid} {now : Time}
    (hwrite : written env s a = some (.launch id contactIds rowIds now)) :
    s'.db.recipientsOf id = (CampaignWrite.launched id contactIds rowIds s.clock).reverse ∧
      (CampaignWrite.launched id contactIds rowIds s.clock).length = contactIds.length ∧
      s.db.recipientsOf id = [] := by
  obtain ⟨hcontacts, c, hc, hid, hdraft⟩ := hs.isLawful hwrite
  have hnone : ∀ r ∈ s.db.recipients.rows, r.campaignId ≠ id := by
    intro r hr hcampaign
    obtain ⟨c', hc', hid', hdraft'⟩ := hs.launched r hr
    have hsame : c' = c := Db.eq_of_campaign_id hc' hc (by rw [hid', hcampaign, hid])
    rw [hsame] at hdraft'
    exact hdraft' hdraft
  have hempty : s.db.recipientsOf id = [] := by
    refine List.filter_eq_nil_iff.mpr fun r hr => ?_
    simpa using hnone r hr
  obtain ⟨hlength, hrows, hfresh⟩ : rowIds.length = contactIds.length ∧ rowIds.Nodup ∧
      ∀ rowId ∈ rowIds, s.db.recipients.find (.id rowId) = none := by
    rcases writes_step hwrite with ⟨_, _, _, _, _, _, _, _, -, hinsert⟩ |
      ⟨i, act, w, result, -, -, -, -, hwrites⟩
    · cases hinsert
    · cases hwrites with
      | launch o _ _ _ _ hlength hnodup hfresh => exact ⟨hlength, hnodup, hfresh⟩
  have hinserted : (s.db.recipients.insertAll
      (CampaignWrite.launched id contactIds rowIds s.clock)).rows =
        (CampaignWrite.launched id contactIds rowIds s.clock).reverse ++ s.db.recipients.rows := by
    refine Table.rows_insertAll ?_ (pairwise_launched hcontacts hrows)
    intro r hr k hk a ha hka
    obtain ⟨contactId, -, rowId, hrowId, rfl⟩ := CampaignWrite.eq_of_mem_launched hr
    have hkeys : k = .id rowId ∨ k = .campaignContact id contactId := by
      simpa [Keyed.keys, CampaignWrite.newRecipient] using hk
    rcases hkeys with rfl | rfl
    · exact s.db.recipients.find_eq_none_iff.mp (hfresh rowId hrowId) a ha hka
    · have hcampaign : a.campaignId = id := by
        simp only [Keyed.keys, List.mem_cons, reduceCtorEq, RecipientKey.campaignContact.injEq,
          Option.mem_toList, Option.map_eq_some_iff, and_false, exists_false, or_false,
          false_or] at hka
        exact hka.1.symm
      exact hnone a ha hcampaign
  refine ⟨?_, ?_, hempty⟩
  · rcases recipients_rows h with ⟨id', _, _, _, hwrite', hrecipients⟩ | ⟨hnot, -⟩
    · rw [hwrite] at hwrite'
      cases hwrite'
      rw [Db.recipientsOf, hrecipients, hinserted, List.filter_append]
      have hold : s.db.recipients.rows.filter (fun r => r.campaignId = id) = [] := hempty
      rw [hold, List.append_nil, List.filter_eq_self]
      intro r hr
      simpa using CampaignWrite.campaignId_launched (List.mem_reverse.mp hr)
    · exact absurd hwrite (hnot _ _ _ _)
  · simp [CampaignWrite.launched, hlength]

/-- **The end counts after a step.** They change only when a claim of the campaign is completed, or when
the campaign is ended. -/
theorem Lawful.endCounts_step (hs : Lawful s) (h : s.step env a = some s') (id : Uuid) :
    s'.db.endCounts id = s.db.endCounts id ∨
      (∃ claim result, written env s a = some (.completeClaim claim result) ∧
        ∃ r ∈ s.db.recipients.rows, CampaignWrite.isHeld claim r = true ∧ r.campaignId = id) ∨
      (∃ tenantId cancelledAt pending,
        written env s a = some (.cancel tenantId id cancelledAt pending)) ∨
      ∃ reason pending, written env s a = some (.failCampaign id reason pending) := by
  rcases recipientsOf_step h id with ⟨contactIds, rowIds, now, hwrite⟩ | hrecipients
  · left
    obtain ⟨hafter, -, hbefore⟩ := hs.recipientsOf_launch h hwrite
    refine Db.endCounts_congr fun status hterminal => ?_
    rw [hafter, hbefore, List.countP_nil, List.countP_eq_zero]
    intro r hr
    obtain ⟨_, -, _, -, rfl⟩ := CampaignWrite.eq_of_mem_launched (List.mem_reverse.mp hr)
    rintro hstatus
    rw [← of_decide_eq_true hstatus] at hterminal
    cases hterminal
  · by_cases hopen : ∀ r ∈ s.db.recipientsOf id, (recipientAfter env s a r).status = r.status ∨
        (r.status.isTerminal = false ∧ (recipientAfter env s a r).status.isTerminal = false)
    · exact .inl (Db.endCounts_congr fun status hterminal => countP_of_open hrecipients hopen hterminal)
    · right
      push Not at hopen
      obtain ⟨r, hr, hstatus, hends⟩ := hopen
      obtain ⟨hmem, hcampaign⟩ := List.mem_filter.mp hr
      have hcampaign := of_decide_eq_true hcampaign
      rcases recipientAfter_changes r with hsame | ⟨write, hwrite, hchanges⟩
      · rw [hsame] at hstatus
        exact absurd rfl hstatus
      · generalize recipientAfter env s a r = r' at hchanges hends
        cases hchanges with
        | claimed leaseUntil ids hclaims =>
            exact absurd rfl (hends (CampaignWrite.not_isTerminal_of_claims hclaims))
        | completed claim result hheld =>
            exact .inl ⟨claim, result, hwrite, r, hmem, hheld, hcampaign⟩
        | cancelled tenantId id' cancelledAt pending _ hcovered =>
            simp only [CampaignWrite.isCovered, Bool.and_eq_true, decide_eq_true_eq] at hcovered
            rw [← hcampaign, hcovered.1.1]
            exact .inr (.inl ⟨tenantId, cancelledAt, pending, hwrite⟩)
        | failed id' reason pending hcovered =>
            simp only [CampaignWrite.isCovered, Bool.and_eq_true, decide_eq_true_eq] at hcovered
            rw [← hcampaign, hcovered.1.1]
            exact .inr (.inr ⟨reason, pending, hwrite⟩)

/-- Only one statement stores counts. -/
theorem storedCounts_step (c : Campaign) :
    (campaignAfter env s a c).storedCounts = c.storedCounts ∨
      ∃ counts, written env s a = some (.storeCounts c.id counts) ∧
        (campaignAfter env s a c).storedCounts = counts.ends := by
  unfold campaignAfter
  rcases hwrite : written env s a with _ | write
  · exact .inl rfl
  · simp only [Option.elim_some, CampaignWrite.campaign]
    split_ifs with htargets
    · cases write with
      | storeCounts id counts =>
          have hid : c.id = id := by simpa [CampaignWrite.targets] using htargets
          exact .inr ⟨counts, by rw [hid], rfl⟩
      | _ => exact .inl rfl
    · exact .inl rfl

end CampaignSystem

/-! ## Who refreshes a campaign -/

namespace Worker

/-- The worker has yet to count the recipients of the campaign. -/
def WillCount (id : Uuid) : Worker → Prop
  | .pass p => match p.stage with
      | .refresh refresh rest => (refresh.campaignId = id ∧ refresh.stage = .aggregate) ∨ id ∈ rest
      | .finished | .crashed => False
      | _ => id ∈ p.touched ++ p.queue.map CampaignRecipient.campaignId
  | .operator { stage := .refresh refresh, .. } =>
      refresh.campaignId = id ∧ refresh.stage = .aggregate
  | _ => False

/-- The worker has yet to store counts that are current. -/
def Owes (db : Db) (id : Uuid) (w : Worker) : Prop :=
  w.WillCount id ∨ ∃ counts, w.refresh? = some { campaignId := id, stage := .store counts } ∧
    counts.ends = db.endCounts id

variable {env : CampaignEnv} {db : Db} {clock : Time} {locks : List Held} {w : Worker}
  {act : WorkerAct} {result : Result} {id : Uuid}

/-- Who holds a claim will count the campaigns of the pass. -/
theorem willCount_of_claim {p : Pass} {c : CampaignRecipient} (h : p.stage.claim? = some c) :
    (Worker.pass p).WillCount id ↔
      id ∈ p.touched ++ p.queue.map CampaignRecipient.campaignId := by
  obtain ⟨queue, touched, stage⟩ := p
  cases stage <;> first | exact Iff.rfl | cases h

/-- Who refreshes will count the campaigns that are left. -/
theorem willCount_refreshing (p : Pass) {rest : List Uuid} (h : id ∈ rest) :
    (Worker.pass { p with stage := .refreshing rest }).WillCount id := by
  cases rest with
  | nil => cases h
  | cons id' rest =>
      rcases List.mem_cons.mp h with rfl | h
      · exact .inl ⟨rfl, rfl⟩
      · exact .inr h

/-- A worker that has to count a campaign still has to after a step, or has just counted it. -/
theorem PassMoves.willCount {p p' : Pass} (h : PassMoves env db clock act p p')
    (hp : p.Coherent db) (hact : (Worker.pass p).abandons act = false)
    (hcount : (Worker.pass p).WillCount id) :
    (Worker.pass p').WillCount id ∨
      (∃ rest, p.stage = .refresh { campaignId := id, stage := .aggregate } rest) ∧
        (Worker.pass p').refresh? =
          some { campaignId := id, stage := .store (db.recipientCounts id) } := by
  cases h with
  | promoted hstage =>
      left
      simpa [WillCount, hstage] using hcount
  | claimed now ids hstage _ =>
      have hempty := hp.empty (.inr hstage)
      simp [WillCount, hstage, hempty] at hcount
  | began claim queue hstage hqueue =>
      left
      simp only [WillCount, hstage, hqueue, List.map_cons] at hcount
      simp only [WillCount]
      split_ifs
      · simp at hcount ⊢
        rcases hcount with hcount | rfl | hcount
        · exact .inl hcount
        · exact .inl ‹_›
        · exact .inr hcount
      · simp at hcount ⊢
        tauto
  | follows now claim stage hfollows =>
      left
      rw [willCount_of_claim hfollows.claim_before] at hcount
      rcases hfollows.claim_after with rfl | hclaim
      · exact hcount
      · exact (willCount_of_claim (p := { p with stage := stage }) hclaim).mpr hcount
  | created claim loaded call call' create db' hstage _ hstep =>
      left
      exact (willCount_of_claim (p := p) (c := claim) (by rw [hstage]; rfl)).mp hcount
  | refreshing hstage hqueue =>
      left
      apply willCount_refreshing
      simpa [WillCount, hstage, hqueue] using hcount
  | refreshed now refresh rest hstage =>
      simp only [WillCount, hstage] at hcount
      rcases hcount with ⟨rfl, hagg⟩ | hrest
      · right
        obtain ⟨campaignId, stage⟩ := refresh
        cases hagg
        exact ⟨⟨rest, hstage⟩, rfl⟩
      · left
        rcases hnext : (refresh.pending db now).2 with _ | refresh'
        · exact willCount_refreshing p hrest
        · exact .inr hrest
  | ended stage hstage habandons =>
      rw [hact] at habandons
      cases habandons

/-- An operator goes on counting unless it gives up. -/
theorem OperatorMoves.willCount {o o' : Operator} {write : Option CampaignWrite}
    (h : OperatorMoves env db act o write o') (hact : (Worker.operator o).abandons act = false)
    (hcount : (Worker.operator o).WillCount id) :
    (Worker.operator o').WillCount id ∨
      (o.stage = .refresh { campaignId := id, stage := .aggregate } ∧
        (Worker.operator o').refresh? =
          some { campaignId := id, stage := .store (db.recipientCounts id) }) := by
  obtain ⟨tenantId, oid, stage⟩ := o
  cases stage with
  | refresh refresh =>
      obtain ⟨campaignId, stage⟩ := refresh
      obtain ⟨rfl, hagg⟩ := hcount
      cases hagg
      right
      cases h with
      | ended _ _ _ habandons =>
          rw [hact] at habandons
          cases habandons
      | returned now ids _ stage _ hmoves =>
          cases hmoves with
          | refreshed refresh hstage =>
              cases hstage
              exact ⟨rfl, rfl⟩
          | quiet _ hstage _ | paused _ hstage _ | resumed _ _ _ hstage _ => cases hstage
          | launching _ hstage _ | launched _ hstage _ _ _ | resuming _ _ hstage _ => cases hstage
          | cancelling _ _ hstage _ _ | cancelled _ _ hstage => cases hstage
  | _ => exact hcount.elim

/-- A call of `refreshStats` in a worker. -/
theorem pending_refresh {refresh : Refresh} {now : Time} {ids : List Uuid}
    {call : PendingCall Worker} (hrefresh : w.refresh? = some refresh)
    (h : w.pending env db clock now ids = some call) : call.write = (refresh.pending db now).1 := by
  cases w with
  | pass p =>
      obtain ⟨queue, touched, stage⟩ := p
      cases stage with
      | refresh r rest =>
          cases hrefresh
          cases h
          rfl
      | _ => cases hrefresh
  | operator o =>
      obtain ⟨tenantId, oid, stage⟩ := o
      cases stage with
      | refresh r =>
          cases hrefresh
          cases h
          rfl
      | _ => cases hrefresh
  | api call => cases hrefresh

/-- An error in `refreshStats` ends its worker. -/
theorem abandons_of_refresh {refresh : Refresh} (hrefresh : w.refresh? = some refresh)
    {outcome : CallOutcome} {now : Time} {ids : List Uuid} (hne : outcome ≠ .returned) :
    w.abandons (.call outcome now ids) = true := by
  cases w with
  | pass p =>
      obtain ⟨queue, touched, stage⟩ := p
      cases stage with
      | refresh r rest => simp [abandons, PassStage.stopsAtError, hne]
      | _ => cases hrefresh
  | operator o => simp [abandons, hne]
  | api call => cases hrefresh

/-- The stored counts are the pending statement of `refreshStats`. -/
theorem storeCounts_of_step (h : w.step env db clock locks act = some result)
    (hact : w.abandons act = false) {counts : RecipientCounts}
    (hrefresh : w.refresh? = some { campaignId := id, stage := .store counts }) :
    result.write = some (.storeCounts id counts) := by
  rcases step_cases h with ⟨now, p, p', rfl, rfl, hrun, -⟩ |
    ⟨outcome, now, ids, call, rfl, hcalls⟩ | ⟨_, -, hcreates⟩ | ⟨rfl, -⟩
  · obtain ⟨queue, touched, stage⟩ := p
    cases stage with
    | refresh r rest => simp [Pass.run] at hrun
    | _ => cases hrefresh
  · have houtcome : outcome = .returned := by
      by_contra hne
      rw [abandons_of_refresh hrefresh hne] at hact
      cases hact
    subst houtcome
    have hwrite : result.write = call.write := by
      simpa [CallOutcome.tookEffect] using hcalls.write
    rw [hwrite, pending_refresh hrefresh hcalls.pending]
    rfl
  · cases hcreates <;> cases hrefresh
  · cases hact

/-- **What is owed** stays so, or is stored. -/
theorem owes_step (h : w.step env db clock locks act = some result)
    (hcoherent : ∀ p, w = .pass p → p.Coherent db) (hact : w.abandons act = false)
    (howes : w.Owes db id) :
    result.worker.Owes db id ∨ ∃ counts, result.write = some (.storeCounts id counts) := by
  rcases howes with hcount | ⟨counts, hrefresh, -⟩
  · left
    cases w with
    | pass p =>
        obtain ⟨p', hp', hmoves⟩ := pass_moves h
        rw [hp']
        rcases hmoves.willCount (hcoherent p rfl) hact hcount with hcount | ⟨-, hrefresh⟩
        · exact .inl hcount
        · exact .inr ⟨_, hrefresh, rfl⟩
    | operator o =>
        obtain ⟨o', ho', hmoves⟩ := operator_moves h
        rw [ho']
        rcases hmoves.willCount hact hcount with hcount | ⟨-, hrefresh⟩
        · exact .inl hcount
        · exact .inr ⟨_, hrefresh, rfl⟩
    | api call => exact hcount.elim
  · exact .inr ⟨counts, storeCounts_of_step h hact hrefresh⟩

end Worker

/-! ## The invariant -/

/-- The statements that may change recipients. -/
def CampaignWrite.movesRecipients : CampaignWrite → Bool
  | .launch _ _ _ _ | .claimRecipients _ _ | .completeClaim _ _ | .cancel _ _ _ _
  | .failCampaign _ _ _ => true
  | .insert _ | .promoteScheduledCampaigns _ | .pause _ _ | .resume _ _ _ _ | .storeCounts _ _
  | .complete _ _ => false

namespace CampaignSystem

/-- The counters of the campaign are right. -/
def IsCurrent (s : CampaignSystem) (id : Uuid) : Prop :=
  ∀ c ∈ s.db.campaigns.rows, c.id = id → c.storedCounts = s.db.endCounts id

/-- A worker other than `i` has yet to count the campaign. -/
def OtherCounts (s : CampaignSystem) (i : ℕ) (id : Uuid) : Prop :=
  ∃ (j : ℕ) (w : Worker), j ≠ i ∧ s.workers[j]? = some w ∧ w.WillCount id

/-- A worker other than `i` has yet to store counts that are current. -/
def OtherOwes (s : CampaignSystem) (i : ℕ) (id : Uuid) : Prop :=
  ∃ (j : ℕ) (w : Worker), j ≠ i ∧ s.workers[j]? = some w ∧ w.Owes s.db id

/-- Counts that updates have overtaken are stored only while another worker owes current ones. -/
def StoresInOrder (env : CampaignEnv) (s : CampaignSystem) (a : Act) : Prop :=
  ∀ i act id counts, a = .worker i act → written env s a = some (.storeCounts id counts) →
    counts.ends = s.db.endCounts id ∨ s.OtherOwes i id

/-- The act refreshes nothing that the campaign is owed: its worker dies or stops at an error while it
owes current counts, or at the end of its `cancel`. -/
def Abandons (env : CampaignEnv) (s : CampaignSystem) (i : ℕ) (act : WorkerAct) (id : Uuid) : Prop :=
  ∃ w, s.workers[i]? = some w ∧ w.abandons act = true ∧
    (w.Owes s.db id ∨ ∃ tenantId cancelledAt pending,
      written env s (.worker i act) = some (.cancel tenantId id cancelledAt pending))

/-- A worker that owes a campaign current counts stops early only if its last statement stores them, if
another worker has yet to count, or if the counters are right (or another worker owes them) and its
last statement changes no recipient. -/
def RefreshesAll (env : CampaignEnv) (s : CampaignSystem) (a : Act) : Prop :=
  ∀ i act id, a = .worker i act → s.Abandons env i act id →
    (∃ counts, written env s a = some (.storeCounts id counts)) ∨ s.OtherCounts i id ∨
      ((written env s a).all (fun write => !write.movesRecipients) = true ∧
        (s.IsCurrent id ∨ s.OtherOwes i id))

/-- What is asked of each step. -/
structure Refreshes (env : CampaignEnv) (s : CampaignSystem) (a : Act) : Prop where
  givesBack : GivesBackInTime env s a
  stores : StoresInOrder env s a
  refreshes : RefreshesAll env s a

/-- What holds in every state. -/
structure Tallied (s : CampaignSystem) : Prop where
  swept : Swept s
  coherent : Coherent s
  totals : ∀ c ∈ s.db.campaigns.rows, c.totalRecipients = (s.db.recipientsOf c.id).length
  counted : ∀ c ∈ s.db.campaigns.rows, c.storedCounts = s.db.endCounts c.id ∨
    ∃ (j : ℕ) (w : Worker), s.workers[j]? = some w ∧ w.Owes s.db c.id

/-- At the start there is nothing to count. -/
theorem Tallied.start (clock : Time) : Tallied (start clock) where
  swept := Swept.start clock
  coherent := Coherent.start clock
  totals := by simp [CampaignSystem.start, Db.empty]
  counted := by simp [CampaignSystem.start, Db.empty]

variable {env : CampaignEnv} {s s' : CampaignSystem} {a : Act}

/-- A new campaign has no recipients. -/
theorem Lawful.recipientsOf_new (hs : Lawful s) (h : s.step env a = some s') {c : Campaign}
    (hwrite : written env s a = some (.insert c)) (hnew : ∀ c₀ ∈ s.db.campaigns.rows, c₀.id ≠ c.id) :
    s'.db.recipientsOf c.id = [] := by
  have hnone : s.db.recipientsOf c.id = [] := by
    refine List.filter_eq_nil_iff.mpr fun r hr hcampaign => ?_
    obtain ⟨c₀, hc₀, hid, -⟩ := hs.launched r hr
    exact hnew c₀ hc₀ (hid.trans (of_decide_eq_true hcampaign))
  rcases recipientsOf_step h c.id with ⟨_, _, _, hlaunch⟩ | hrecipients
  · rw [hwrite] at hlaunch
    cases hlaunch
  · rw [hrecipients, hnone]
    rfl

/-- The rows that are inserted are those of `create`. -/
theorem drafted_of_written {c : Campaign} (hwrite : written env s a = some (.insert c)) :
    c.totalRecipients = 0 ∧ c.storedCounts = (0, 0, 0, 0) := by
  rcases writes_step hwrite with ⟨_, _, _, _, _, _, _, _, -, hinsert⟩ |
    ⟨_, _, _, _, -, -, -, -, hwrites⟩
  · cases hinsert
    exact ⟨rfl, rfl⟩
  · cases hwrites

/-- Only `launch` sets the total. -/
theorem totalRecipients_campaignAfter (c : Campaign) :
    (campaignAfter env s a c).totalRecipients = c.totalRecipients ∨
      ∃ contactIds rowIds now, written env s a = some (.launch c.id contactIds rowIds now) := by
  unfold campaignAfter
  rcases hwrite : written env s a with _ | write
  · exact .inl rfl
  · simp only [Option.elim_some, CampaignWrite.campaign]
    split_ifs with htargets
    · cases write with
      | launch id contactIds rowIds now =>
          have hid : c.id = id := by simpa [CampaignWrite.targets] using htargets
          exact .inr ⟨contactIds, rowIds, now, by rw [hid]⟩
      | _ => exact .inl rfl
    · exact .inl rfl

/-- The total is the number of recipients. -/
theorem Tallied.totals_step (hs : Tallied s) (h : s.step env a = some s') :
    ∀ c ∈ s'.db.campaigns.rows, c.totalRecipients = (s'.db.recipientsOf c.id).length := by
  have hlawful := hs.swept.lawful
  intro c' hc'
  rcases (campaigns_step h).2 c' hc' with ⟨c, hc, rfl⟩ | ⟨hwrite, hnew⟩
  · rw [id_campaignAfter]
    by_cases hlaunch : ∃ contactIds rowIds now,
        written env s a = some (.launch c.id contactIds rowIds now)
    · obtain ⟨contactIds, rowIds, now, hwrite⟩ := hlaunch
      obtain ⟨hafter, hlength, -⟩ := hlawful.recipientsOf_launch h hwrite
      rw [hafter, List.length_reverse, hlength]
      simp [campaignAfter, hwrite, CampaignWrite.campaign, CampaignWrite.targets, CampaignWrite.set]
    · rw [(recipientsOf_step h c.id).resolve_left hlaunch, List.length_map, ← hs.totals c hc]
      exact (totalRecipients_campaignAfter c).resolve_right hlaunch
  · rw [hlawful.recipientsOf_new h hwrite hnew, (drafted_of_written hwrite).1]
    rfl

/-- What another worker has yet to count is still so after the step. -/
theorem OtherCounts.kept {i : ℕ} {act : WorkerAct} {id : Uuid} (hother : s.OtherCounts i id)
    (h : s.step env (.worker i act) = some s') :
    ∃ (j : ℕ) (w : Worker), s'.workers[j]? = some w ∧ w.Owes s'.db id := by
  obtain ⟨j, w, hne, hj, hcount⟩ := hother
  exact ⟨j, w, worker_kept h hj (by simp [Ne.symm hne]), .inl hcount⟩

/-- Counts that are current stay so as long as no recipient is done. -/
theorem owes_congr {id : Uuid} {w : Worker} (howes : w.Owes s.db id)
    (hcounts : s'.db.endCounts id = s.db.endCounts id) : w.Owes s'.db id := by
  rcases howes with hcount | ⟨counts, hrefresh, hends⟩
  · exact .inl hcount
  · exact .inr ⟨counts, hrefresh, hends.trans hcounts.symm⟩

/-- Another worker goes on owing the count. -/
theorem OtherOwes.kept {i : ℕ} {act : WorkerAct} {id : Uuid} (hother : s.OtherOwes i id)
    (h : s.step env (.worker i act) = some s')
    (hcounts : s'.db.endCounts id = s.db.endCounts id) :
    ∃ (j : ℕ) (w : Worker), s'.workers[j]? = some w ∧ w.Owes s'.db id := by
  obtain ⟨j, w, hne, hj, howes⟩ := hother
  exact ⟨j, w, worker_kept h hj (by simp [Ne.symm hne]), owes_congr howes hcounts⟩

/-- A pass that ends a recipient counts the campaign later, or another worker does. -/
theorem Tallied.counts_of_pass (hs : Tallied s) {i : ℕ} {act : WorkerAct}
    (hguard : RefreshesAll env s (.worker i act)) (h : s.step env (.worker i act) = some s')
    {p : Pass} (hi : s.workers[i]? = some (.pass p)) {claim : CampaignRecipient}
    (hclaim : p.stage.claim? = some claim) {write : CampaignWrite}
    (hwrite : written env s (.worker i act) = some write)
    (hmoving : write.movesRecipients = true) :
    ∃ (j : ℕ) (w : Worker), s'.workers[j]? = some w ∧ w.Owes s'.db claim.campaignId := by
  have hcoherent := hs.coherent i p hi
  have hcount : (Worker.pass p).WillCount claim.campaignId := by
    rw [Worker.willCount_of_claim hclaim]
    exact List.mem_append_left _ (hcoherent.claim claim hclaim).2
  by_cases habandons : (Worker.pass p).abandons act = true
  · rcases hguard i act claim.campaignId rfl ⟨_, hi, habandons, .inl (.inl hcount)⟩ with
      ⟨counts, hstore⟩ | hother | ⟨hquiet, -⟩
    · rw [hwrite] at hstore
      cases hstore
      cases hmoving
    · exact hother.kept h
    · rw [hwrite, Option.all_some, hmoving] at hquiet
      cases hquiet
  · obtain ⟨result, hresult, hmoved, -, -⟩ := worker_moved h hi
    obtain ⟨p', hp', hmoves⟩ := Worker.pass_moves hresult
    rw [hp'] at hmoved
    rcases hmoves.willCount hcoherent (by simpa using habandons) hcount with hcount |
      ⟨⟨rest, hstage⟩, -⟩
    · exact ⟨i, _, hmoved, .inl hcount⟩
    · rw [hstage] at hclaim
      cases hclaim

/-- `cancel` counts the campaign later, or another worker does. -/
theorem counts_of_cancel {i : ℕ} {act : WorkerAct}
    (hguard : RefreshesAll env s (.worker i act)) (h : s.step env (.worker i act) = some s')
    {o : Operator} (hi : s.workers[i]? = some (.operator o)) {cancelledAt : Time}
    {pending : List Uuid} (hstage : o.stage = .cancelling cancelledAt pending)
    (hwrite : written env s (.worker i act) = some (.cancel o.tenantId o.id cancelledAt pending)) :
    ∃ (j : ℕ) (w : Worker), s'.workers[j]? = some w ∧ w.Owes s'.db o.id := by
  by_cases habandons : (Worker.operator o).abandons act = true
  · rcases hguard i act o.id rfl ⟨_, hi, habandons, .inr ⟨_, _, _, hwrite⟩⟩ with
      ⟨counts, hstore⟩ | hother | ⟨hquiet, -⟩
    · rw [hwrite] at hstore
      cases hstore
    · exact hother.kept h
    · rw [hwrite] at hquiet
      cases hquiet
  · obtain ⟨result, hresult, hmoved, -, -⟩ := worker_moved h hi
    obtain ⟨o', ho', hmoves⟩ := Worker.operator_moves hresult
    rw [ho'] at hmoved
    refine ⟨i, _, hmoved, .inl ?_⟩
    generalize result.write = write at hmoves
    cases hmoves with
    | ended _ _ _ hact => exact absurd hact habandons
    | returned now ids _ stage _ hmoves =>
        obtain ⟨tenantId, id, stage⟩ := o
        cases hstage
        cases hmoves with
        | cancelled cancelledAt pending hstage => exact ⟨rfl, rfl⟩
        | quiet _ hstage _ | paused _ hstage _ | resumed _ _ _ hstage _ => cases hstage
        | launching _ hstage _ | launched _ hstage _ _ _ | resuming _ _ hstage _ => cases hstage
        | cancelling _ _ hstage _ _ | refreshed _ hstage => cases hstage

/-- A worker that owes current counts and stops leaves them in order. -/
theorem counted_of_abandoned {i : ℕ} {act : WorkerAct} {c : Campaign}
    (hguard : RefreshesAll env s (.worker i act)) (h : s.step env (.worker i act) = some s')
    (hc : c ∈ s.db.campaigns.rows) (hcounts : s'.db.endCounts c.id = s.db.endCounts c.id)
    (hstore : ¬∃ counts, written env s (.worker i act) = some (.storeCounts c.id counts))
    (habandons : s.Abandons env i act c.id) :
    c.storedCounts = s'.db.endCounts c.id ∨
      ∃ (j : ℕ) (w : Worker), s'.workers[j]? = some w ∧ w.Owes s'.db c.id := by
  rcases hguard i act c.id rfl habandons with hstored | hother | ⟨-, hcurrent | hother⟩
  · exact absurd hstored hstore
  · exact .inr (hother.kept h)
  · rw [hcounts]
    exact .inl (hcurrent c hc rfl)
  · exact .inr (hother.kept h hcounts)

/-- Counts that are stored stay in order. -/
theorem counted_of_store {c : Campaign} (hguard : StoresInOrder env s a)
    (h : s.step env a = some s') (hcounts : s'.db.endCounts c.id = s.db.endCounts c.id)
    {counts : RecipientCounts} (hwrite : written env s a = some (.storeCounts c.id counts)) :
    (campaignAfter env s a c).storedCounts = s'.db.endCounts c.id ∨
      ∃ (j : ℕ) (w : Worker), s'.workers[j]? = some w ∧ w.Owes s'.db c.id := by
  have hstored : (campaignAfter env s a c).storedCounts = counts.ends := by
    simp [campaignAfter, hwrite, CampaignWrite.campaign, CampaignWrite.targets, CampaignWrite.set,
      Campaign.storedCounts, RecipientCounts.ends]
  rcases writes_step hwrite with ⟨_, _, _, _, _, _, _, _, -, hinsert⟩ | ⟨i, act, _, _, rfl, -⟩
  · cases hinsert
  · rcases hguard i act c.id counts rfl hwrite with hcurrent | hother
    · rw [hstored, hcounts]
      exact .inl hcurrent
    · exact .inr (hother.kept h hcounts)

/-- A worker that owes current counts goes on to owe them, or stops and leaves them in order. -/
theorem Tallied.counted_of_owes (hs : Tallied s) (hguard : RefreshesAll env s a)
    (h : s.step env a = some s') {c : Campaign} (hc : c ∈ s.db.campaigns.rows)
    (hcounts : s'.db.endCounts c.id = s.db.endCounts c.id)
    (hstore : ¬∃ counts, written env s a = some (.storeCounts c.id counts)) {j : ℕ} {w : Worker}
    (hj : s.workers[j]? = some w) (howes : w.Owes s.db c.id) :
    c.storedCounts = s'.db.endCounts c.id ∨
      ∃ (j : ℕ) (w : Worker), s'.workers[j]? = some w ∧ w.Owes s'.db c.id := by
  by_cases hother : ∀ act, a ≠ .worker j act
  · exact .inr ⟨j, w, worker_kept h hj hother, owes_congr howes hcounts⟩
  · push Not at hother
    obtain ⟨act, rfl⟩ := hother
    by_cases habandons : w.abandons act = true
    · exact counted_of_abandoned hguard h hc hcounts hstore ⟨w, hj, habandons, .inl howes⟩
    · obtain ⟨result, hresult, hmoved, hwritten, -⟩ := worker_moved h hj
      have hcoherent : ∀ p, w = .pass p → p.Coherent s.db := by
        rintro p rfl
        exact hs.coherent j p hj
      rcases Worker.owes_step hresult hcoherent (by simpa using habandons) howes with howes |
        ⟨counts, hwrite⟩
      · exact .inr ⟨j, _, hmoved, owes_congr howes hcounts⟩
      · exact absurd ⟨counts, hwritten.trans hwrite⟩ hstore

/-- A step keeps the counts, or someone owes them. -/
theorem Tallied.counted_step (hs : Tallied s) (hguard : Refreshes env s a)
    (h : s.step env a = some s') :
    ∀ c ∈ s'.db.campaigns.rows, c.storedCounts = s'.db.endCounts c.id ∨
      ∃ (j : ℕ) (w : Worker), s'.workers[j]? = some w ∧ w.Owes s'.db c.id := by
  have hlawful := hs.swept.lawful
  intro c' hc'
  rcases (campaigns_step h).2 c' hc' with ⟨c, hc, rfl⟩ | ⟨hwrite, hnew⟩
  · rw [id_campaignAfter]
    rcases hlawful.endCounts_step h c.id with hcounts | ⟨claim, result, hwrite, r, hr, hheld, hid⟩ |
      ⟨tenantId, cancelledAt, pending, hwrite⟩ | ⟨reason, pending, hwrite⟩
    · by_cases hstore : ∃ counts, written env s a = some (.storeCounts c.id counts)
      · obtain ⟨counts, hwrite⟩ := hstore
        exact counted_of_store hguard.stores h hcounts hwrite
      · have hsame : (campaignAfter env s a c).storedCounts = c.storedCounts := by
          rcases storedCounts_step c with hsame | ⟨counts, hwrite, -⟩
          · exact hsame
          · exact absurd ⟨counts, hwrite⟩ hstore
        rw [hsame]
        rcases hs.counted c hc with hcurrent | ⟨j, w, hj, howes⟩
        · exact .inl (hcurrent.trans hcounts.symm)
        · exact hs.counted_of_owes hguard.refreshes h hc hcounts hstore hj howes
    · -- a claim of the campaign is completed
      right
      rcases writes_step hwrite with ⟨_, _, _, _, _, _, _, _, -, hinsert⟩ |
        ⟨i, act, w, _, rfl, hi, -, -, hwrites⟩
      · cases hinsert
      · cases hwrites with
        | completeClaim p _ _ site hstage =>
            have hclaim : p.stage.claim? = some claim := by rw [hstage]; rfl
            have hrid : r.id = claim.id := by
              simp only [CampaignWrite.isHeld, Bool.and_eq_true, decide_eq_true_eq] at hheld
              exact hheld.1.1
            have hmatches := ((hs.coherent i p hi).claim claim hclaim).1
            have howed := hs.counts_of_pass hguard.refreshes h hi hclaim hwrite rfl
            rwa [← (hmatches.row hr hrid).1, hid] at howed
    · right
      rcases writes_step hwrite with ⟨_, _, _, _, _, _, _, _, -, hinsert⟩ |
        ⟨i, act, w, _, rfl, hi, -, -, hwrites⟩
      · cases hinsert
      · generalize hid : c.id = id at hwrites hwrite
        cases hwrites with
        | cancel o _ _ hstage => exact counts_of_cancel hguard.refreshes h hi hstage hwrite
    · right
      rcases writes_step hwrite with ⟨_, _, _, _, _, _, _, _, -, hinsert⟩ |
        ⟨i, act, w, _, rfl, hi, -, -, hwrites⟩
      · cases hinsert
      · cases hwrites with
        | failCampaign p claim _ _ _ hstage =>
            have hclaim : p.stage.claim? = some claim := by rw [hstage]; rfl
            have hbelongs := (hs.coherent i p hi).belongs
            rw [hstage] at hbelongs
            rw [show c.id = claim.campaignId from hbelongs]
            exact hs.counts_of_pass hguard.refreshes h hi hclaim hwrite rfl
  · left
    rw [(drafted_of_written hwrite).2]
    simp [Db.endCounts, RecipientCounts.ends, Db.recipientCounts, Db.countRecipients_eq,
      hlawful.recipientsOf_new h hwrite hnew]

/-- **One step keeps the invariant.** -/
theorem Tallied.step (hs : Tallied s) (hguard : Refreshes env s a) (h : s.step env a = some s') :
    Tallied s' where
  swept := hs.swept.step hguard.givesBack h
  coherent := hs.coherent.step h
  totals := hs.totals_step h
  counted := hs.counted_step hguard h

/-- The invariant holds in every state that is reached. -/
theorem tallied_of_reaches {clock : Time}
    (h : Reaches (CampaignSystem.step env) (Refreshes env) (start clock) s) : Tallied s :=
  Reaches.invariant h (Tallied.start clock) fun _ _ _ hx hguard hstep => hx.step hguard hstep

/-- A worker that owes a campaign counts is in `refreshStats` for it or has yet to call it. -/
theorem mem_campaigns_of_owes {w : Worker} {id : Uuid} {db : Db} (h : w.Owes db id) :
    id ∈ w.campaigns := by
  rcases h with hcount | ⟨counts, hrefresh, -⟩
  · cases w with
    | pass p =>
        obtain ⟨queue, touched, stage⟩ := p
        cases stage with
        | refresh refresh rest =>
            rcases hcount with ⟨rfl, -⟩ | hrest
            · exact List.mem_cons_self
            · exact List.mem_cons_of_mem _ hrest
        | finished | crashed => exact hcount.elim
        | _ => exact hcount
    | operator o =>
        obtain ⟨tenantId, oid, stage⟩ := o
        cases stage with
        | refresh refresh =>
            obtain ⟨rfl, -⟩ := hcount
            exact List.mem_cons_self
        | _ => exact hcount.elim
    | api call => exact hcount.elim
  · exact Worker.campaignId_of_refresh hrefresh

/-- An ended campaign without a recipient that is being processed has none that is open. -/
theorem Swept.open_of_terminal (hs : Swept s) {c : Campaign} (hc : c ∈ s.db.campaigns.rows)
    (hterminal : c.status.isTerminal = true) :
    ∀ r ∈ s.db.recipientsOf c.id, r.status ≠ .pending := by
  intro r hr
  obtain ⟨hmem, hcampaign⟩ := List.mem_filter.mp hr
  have hcampaign := of_decide_eq_true hcampaign
  by_cases hcompleted : c.status = .completed
  · intro hpending
    have hdone := (hs.lawful.completed c hc hcompleted).2 r hmem hcampaign
    rw [hpending] at hdone
    cases hdone
  · have hended : c.status.isEnded = true := by
      cases hstatus : c.status <;> simp [hstatus, CampaignStatus.isTerminal] at hterminal hcompleted ⊢
      all_goals rfl
    exact hs.ended c hc hended r hmem hcampaign

/-- **Convergence of the counters.** In every run that meets `Refreshes`, the counters of a campaign
that is `COMPLETED`, `CANCELLED` or `FAILED`, of which no recipient is being processed and for which
nobody is in `refreshStats` or about to call it, are the numbers of its recipients in each status, and
sum to its total. -/
theorem counters_converge {clock : Time}
    (h : Reaches (CampaignSystem.step env) (Refreshes env) (start clock) s) {c : Campaign}
    (hc : c ∈ s.db.campaigns.rows)
    (hstatus : c.status = .completed ∨ c.status = .cancelled ∨ c.status = .failed)
    (hprocessing : s.db.countRecipients c.id .processing = 0)
    (hrefresh : ∀ w ∈ s.workers, c.id ∉ w.campaigns) :
    c.queuedRecipients = s.db.countRecipients c.id .queued ∧
      c.skippedRecipients = s.db.countRecipients c.id .skipped ∧
      c.failedRecipients = s.db.countRecipients c.id .failed ∧
      c.cancelledRecipients = s.db.countRecipients c.id .cancelled ∧
      c.queuedRecipients + c.skippedRecipients + c.failedRecipients + c.cancelledRecipients =
        c.totalRecipients := by
  have hs := tallied_of_reaches h
  have hcounts : c.storedCounts = s.db.endCounts c.id := by
    rcases hs.counted c hc with hcurrent | ⟨j, w, hj, howes⟩
    · exact hcurrent
    · exact absurd (mem_campaigns_of_owes howes) (hrefresh w (List.mem_of_getElem? hj))
  have hterminal : c.status.isTerminal = true := by
    rcases hstatus with hstatus | hstatus | hstatus <;> rw [hstatus] <;> rfl
  have hpending : s.db.countRecipients c.id .pending = 0 := by
    rw [Db.countRecipients_eq, List.countP_eq_zero]
    intro r hr
    simpa using hs.swept.open_of_terminal hc hterminal r hr
  simp only [Campaign.storedCounts, Db.endCounts, RecipientCounts.ends, Db.recipientCounts,
    Prod.mk.injEq] at hcounts
  obtain ⟨hqueued, hskipped, hfailed, hcancelled⟩ := hcounts
  refine ⟨hqueued, hskipped, hfailed, hcancelled, ?_⟩
  have htotal := length_eq_sum_countP (s.db.recipientsOf c.id)
  simp only [← Db.countRecipients_eq] at htotal
  rw [hs.totals c hc, htotal, hqueued, hskipped, hfailed, hcancelled]
  omega

/-- The statement stores no counts that updates have overtaken. -/
def storesCurrent (env : CampaignEnv) (s : CampaignSystem) (a : Act) : Bool :=
  (written env s a).all fun
    | .storeCounts id counts => counts.ends = s.db.endCounts id
    | _ => true

/-- The act ends no worker early. -/
def keepsGoing (s : CampaignSystem) : Act → Bool
  | .worker i act => s.workers[i]?.all fun w => !w.abandons act
  | _ => true

/-- A step that stores what is current keeps the condition. -/
theorem refreshes_of_all (hback : (written env s a).all (fun write => !write.givesBack) = true)
    (hstores : storesCurrent env s a = true) (hgoing : s.keepsGoing a = true) :
    Refreshes env s a where
  givesBack := givesBackInTime_of_all hback
  stores := by
    intro i act id counts ha hwrite
    simp only [storesCurrent, hwrite, Option.all_some, decide_eq_true_eq] at hstores
    exact .inl hstores
  refreshes := by
    rintro i act id rfl ⟨w, hi, habandons, -⟩
    simp [keepsGoing, hi, habandons] at hgoing

/-- A pass sends the only message of a campaign, and its `refreshStats` completes the campaign. -/
theorem counters_converge_completed : ∃ s c,
    Reaches (CampaignSystem.step sampleCampaignEnv) (Refreshes sampleCampaignEnv) (start 0) s ∧
      c ∈ s.db.campaigns.rows ∧ c.status = .completed ∧
      c.queuedRecipients = s.db.countRecipients c.id .queued ∧
      c.skippedRecipients = s.db.countRecipients c.id .skipped ∧
      c.failedRecipients = s.db.countRecipients c.id .failed ∧
      c.cancelledRecipients = s.db.countRecipients c.id .cancelled ∧
      c.queuedRecipients + c.skippedRecipients + c.failedRecipients + c.cancelledRecipients =
        c.totalRecipients := by
  have hrun : ((exec (CampaignSystem.step sampleCampaignEnv) (start 0)
      (sampleLaunch ++ sampleClaim 1 ++ sampleCreate 1 ++ sampleFinish 1)).any fun s =>
        s.db.campaigns.rows.any fun c => c.status = .completed &&
          (s.db.countRecipients c.id .processing = 0) &&
          s.workers.all fun w => c.id ∉ w.campaigns) = true := by
    decide
  have hguard : ∀ x ∈ trace (CampaignSystem.step sampleCampaignEnv) (start 0)
      (sampleLaunch ++ sampleClaim 1 ++ sampleCreate 1 ++ sampleFinish 1),
      ((written sampleCampaignEnv x.1 x.2.1).all (fun write => !write.givesBack) &&
        storesCurrent sampleCampaignEnv x.1 x.2.1 && x.1.keepsGoing x.2.1) = true := by
    decide
  obtain ⟨s, hs, hstate⟩ := (Option.any_eq_true _ _).mp hrun
  obtain ⟨c, hc, hstate⟩ := List.any_eq_true.mp hstate
  simp only [Bool.and_eq_true, decide_eq_true_eq, List.all_eq_true] at hstate
  obtain ⟨⟨hcompleted, hprocessing⟩, hrefresh⟩ := hstate
  have hreach : Reaches (CampaignSystem.step sampleCampaignEnv) (Refreshes sampleCampaignEnv)
      (start 0) s := by
    refine Reaches.of_exec hs fun x hx => ?_
    have hx := hguard x hx
    simp only [Bool.and_eq_true] at hx
    exact refreshes_of_all hx.1.1 hx.1.2 hx.2
  exact ⟨s, c, hreach, hc, hcompleted,
    counters_converge hreach hc (.inl hcompleted) hprocessing hrefresh⟩

/-- An operator cancels the campaign and counts its recipients while a pass is about to complete its
claim. The pass completes it, counts and stores, and only then the operator stores what it counted. -/
def sampleOvertaken : List Act :=
  sampleLaunch ++ sampleClaim 1 ++ sampleCreate 1 ++
    [.beginOperator 1 20 .cancel, .returns 2 [], .returns 2 [], .returns 2 [], .returns 2 []] ++
    sampleFinish 1 ++ [.returns 2 []]

/-- **An overtaken count** is stored over the one that overtook it, and nobody corrects it. -/
theorem overtaken_count : ¬∀ s, Reachable (CampaignSystem.step sampleCampaignEnv) (start 0) s →
    ∀ c ∈ s.db.campaigns.rows, c.status = .completed ∨ c.status = .cancelled ∨ c.status = .failed →
      s.db.countRecipients c.id .processing = 0 → (∀ w ∈ s.workers, c.id ∉ w.campaigns) →
        c.queuedRecipients = s.db.countRecipients c.id .queued ∧
          c.skippedRecipients = s.db.countRecipients c.id .skipped ∧
          c.failedRecipients = s.db.countRecipients c.id .failed ∧
          c.cancelledRecipients = s.db.countRecipients c.id .cancelled ∧
          c.queuedRecipients + c.skippedRecipients + c.failedRecipients + c.cancelledRecipients =
            c.totalRecipients := by
  intro hall
  have hrun : ((exec (CampaignSystem.step sampleCampaignEnv) (start 0) sampleOvertaken).any fun s =>
      s.db.campaigns.rows.any fun c => c.status = .cancelled &&
        (s.db.countRecipients c.id .processing = 0) && (s.workers.all fun w => c.id ∉ w.campaigns) &&
        c.queuedRecipients ≠ s.db.countRecipients c.id .queued) = true := by
    decide
  obtain ⟨s, hs, hstate⟩ := (Option.any_eq_true _ _).mp hrun
  obtain ⟨c, hc, hstate⟩ := List.any_eq_true.mp hstate
  simp only [Bool.and_eq_true, decide_eq_true_eq, List.all_eq_true] at hstate
  obtain ⟨⟨⟨hcancelled, hprocessing⟩, hrefresh⟩, hqueued⟩ := hstate
  exact hqueued
    (hall s (Reachable.of_exec hs) c hc (.inr (.inl hcancelled)) hprocessing hrefresh).1

end CampaignSystem

end ApiWhatsApp
