import ApiWhatsApp.Campaigns.Claims

/-!
# What a pass carries

A pass works from what it has read: the claims of its queue, the recipient with its campaign, the
identifiers that it hands on to `failCampaign` and `refreshStats`.

* `Db.Matches` — a claim stands for a recipient of the table.
* `Pass.Coherent` — all that a pass carries belongs to its claim, and the campaign of the claim is one
  that the pass refreshes.
* **`coherent_of_reachable`** holds for every pass in every state.
-/

namespace ApiWhatsApp

open Library

/-- What `processRecipient` has loaded. -/
theorem Db.loadRecipient_spec {db : Db} {id : Uuid} {loaded : LoadedRecipient}
    (h : db.loadRecipient id = some loaded) :
    (loaded.recipient ∈ db.recipients.rows ∧ loaded.recipient.id = id) ∧
      (loaded.contact ∈ db.contacts.rows ∧ loaded.contact.id = loaded.recipient.contactId) ∧
      (loaded.campaign ∈ db.campaigns.rows ∧
        loaded.campaign.id = loaded.recipient.campaignId) ∧
      loaded.template ∈ db.templates.rows ∧ loaded.template.id = loaded.campaign.templateId := by
  unfold Db.loadRecipient at h
  obtain ⟨recipient, hrecipient, h⟩ := Option.bind_eq_some_iff.mp h
  obtain ⟨contact, hcontact, h⟩ := Option.bind_eq_some_iff.mp h
  obtain ⟨campaign, hcampaign, h⟩ := Option.bind_eq_some_iff.mp h
  obtain ⟨sender, -, h⟩ := Option.bind_eq_some_iff.mp h
  obtain ⟨template, htemplate, h⟩ := Option.bind_eq_some_iff.mp h
  cases h
  obtain ⟨hr, hrid⟩ := (db.recipients.find_eq_some_iff).mp hrecipient
  obtain ⟨hc, hcid⟩ := (db.contacts.find_eq_some_iff).mp hcontact
  obtain ⟨hm, hmid⟩ := (db.campaigns.find_eq_some_iff).mp hcampaign
  obtain ⟨ht, htid⟩ := (db.templates.find_eq_some_iff).mp htemplate
  refine ⟨⟨hr, mem_keys_recipient_id.mp hrid⟩, ⟨hc, ?_⟩, ⟨hm, ?_⟩, ht, ?_⟩
  · simpa [Keyed.keys, eq_comm] using hcid
  · exact (List.mem_singleton.mp hmid).symm
  · simpa [Keyed.keys, eq_comm] using htid

/-- A claim stands for a recipient of the table. -/
def Db.Matches (db : Db) (claim : CampaignRecipient) : Prop :=
  ∃ r ∈ db.recipients.rows, r.id = claim.id ∧ r.campaignId = claim.campaignId ∧
    r.contactId = claim.contactId

/-- The row of a claim. -/
theorem Db.Matches.row {db : Db} {claim r : CampaignRecipient} (h : db.Matches claim)
    (hr : r ∈ db.recipients.rows) (hid : r.id = claim.id) :
    r.campaignId = claim.campaignId ∧ r.contactId = claim.contactId := by
  obtain ⟨r₀, hr₀, hid₀, hcampaign, hcontact⟩ := h
  obtain rfl := Db.eq_of_recipient_id hr hr₀ (hid.trans hid₀.symm)
  exact ⟨hcampaign, hcontact⟩

/-- What a stage carries besides its claim belongs to it. -/
def PassStage.Belongs : PassStage → Prop
  | .lookup r loaded | .create r loaded _ =>
      loaded.campaign.id = r.campaignId ∧ loaded.recipient.contactId = r.contactId
  | .fail r campaignId _ | .failing r campaignId _ _ | .current r campaignId _ =>
      campaignId = r.campaignId
  | _ => True

/-- What a pass carries. -/
structure Pass.Coherent (db : Db) (p : Pass) : Prop where
  queue : ∀ claim ∈ p.queue, db.Matches claim
  claim : ∀ claim, p.stage.claim? = some claim →
    db.Matches claim ∧ claim.campaignId ∈ p.touched
  belongs : p.stage.Belongs
  /-- Before it has claimed anything a pass carries nothing. -/
  empty : p.stage = .promote ∨ p.stage = .claim → p.queue = [] ∧ p.touched = []

namespace Worker

variable {env : CampaignEnv} {db : Db} {clock : Time} {act : WorkerAct} {p p' : Pass}

/-- Who follows a claim stays with its rows. -/
theorem belongs_follows {now : Time} {claim : CampaignRecipient} {stage stage' : PassStage}
    (h : Pass.Follows env db now claim stage stage') (hmatches : db.Matches claim)
    (hbelongs : stage.Belongs) : stage'.Belongs := by
  cases h with
  | loaded loaded h =>
      obtain ⟨⟨hr, hid⟩, -, ⟨-, hcampaign⟩, -⟩ := Db.loadRecipient_spec h
      obtain ⟨hcampaign', hcontact⟩ := hmatches.row hr hid
      exact ⟨hcampaign.trans hcampaign', hcontact⟩
  | creating _ _ | failing _ _ _ _ _ | current _ _ => exact hbelongs
  | misconfigured _ _ | rejected _ _ _ => exact hbelongs.1
  | found _ _ _ | created _ _ _ _ | ended _ _ _ _ _ | dropped _ _ => trivial

/-- Who refreshes holds no row. -/
theorem belongs_refreshing (rest : List Uuid) : (PassStage.refreshing rest).Belongs := by
  cases rest <;> trivial

/-- A pass keeps what it carries in order. -/
theorem coherent_moves (h : PassMoves env db clock act p p') (hp : p.Coherent db) :
    p'.Coherent db := by
  refine ⟨?_, ?_, ?_, ?_⟩
  · intro claim hclaim
    cases h with
    | claimed now ids hstage hact =>
        obtain ⟨r, hr, -, rfl⟩ := mem_claimedQueue hclaim
        exact ⟨r, hr, rfl, rfl, rfl⟩
    | began claim' queue hstage hqueue =>
        exact hp.queue claim (by rw [hqueue]; exact List.mem_cons_of_mem _ hclaim)
    | _ => exact hp.queue claim hclaim
  · intro claim hclaim
    rcases h.claim_cases hclaim with ⟨-, hqueue, htouched, -⟩ | ⟨-, htouched, hfollows⟩
    · exact ⟨hp.queue claim (by rw [hqueue]; exact List.mem_cons_self), htouched⟩
    · rw [htouched]
      refine hp.claim claim ?_
      rcases hfollows with ⟨now, hfollows⟩ | ⟨_, _, _, _, _, hstage, -⟩
      · exact hfollows.claim_before
      · rw [hstage]
        rfl
  · cases h with
    | follows now claim stage hfollows =>
        exact belongs_follows hfollows (hp.claim claim hfollows.claim_before).1 hp.belongs
    | created claim loaded call call' create db' hstage hact hstep =>
        have hbelongs := hp.belongs
        rw [hstage] at hbelongs
        exact hbelongs
    | refreshing hstage hqueue => exact belongs_refreshing p.touched
    | refreshed now refresh rest hstage =>
        simp only
        split
        · trivial
        · exact belongs_refreshing rest
    | ended stage hstage hact => rcases hstage with rfl | rfl <;> trivial
    | promoted _ | claimed _ _ _ _ | began _ _ _ _ => trivial
  · intro hstage'
    cases h with
    | promoted hstage => exact hp.empty (.inl hstage)
    | follows now claim stage hfollows =>
        exfalso
        rcases hfollows.claim_after with rfl | hclaim
        · rcases hstage' with hstage' | hstage' <;> cases hstage'
        · rcases hstage' with hstage' | hstage'
          all_goals
            rw [show stage = _ from hstage'] at hclaim
            cases hclaim
    | refreshing _ _ | refreshed _ _ _ _ =>
        exfalso
        simp only [PassStage.refreshing] at hstage'
        repeat' split at hstage'
        all_goals rcases hstage' with hstage' | hstage' <;> cases hstage'
    | ended stage hstage hact =>
        rcases hstage with rfl | rfl <;> rcases hstage' with hstage' | hstage' <;> cases hstage'
    | claimed _ _ _ _ | began _ _ _ _ | created _ _ _ _ _ _ _ _ _ =>
        rcases hstage' with hstage' | hstage' <;> cases hstage'

end Worker

namespace CampaignSystem

variable {env : CampaignEnv} {s s' : CampaignSystem} {a : Act}

/-- A claim goes on matching its row. -/
theorem matches_step (h : s.step env a = some s') {claim : CampaignRecipient}
    (hmatches : s.db.Matches claim) : s'.db.Matches claim := by
  obtain ⟨r, hr, hid, hcampaign, hcontact⟩ := hmatches
  refine ⟨_, (recipients_step h).1 r hr, ?_, ?_, ?_⟩
  · rw [(identity_recipientAfter r).1, hid]
  · rw [(identity_recipientAfter r).2.1, hcampaign]
  · rw [(identity_recipientAfter r).2.2, hcontact]

/-- A pass stays coherent. -/
theorem coherent_mono (h : s.step env a = some s') {p : Pass} (hp : p.Coherent s.db) :
    p.Coherent s'.db where
  queue := fun claim hclaim => matches_step h (hp.queue claim hclaim)
  claim := fun claim hclaim => (hp.claim claim hclaim).imp_left (matches_step h)
  belongs := hp.belongs
  empty := hp.empty

/-- All passes carry what belongs together. -/
def Coherent (s : CampaignSystem) : Prop :=
  ∀ (j : ℕ) (p : Pass), s.workers[j]? = some (.pass p) → p.Coherent s.db

/-- At the start there is no pass. -/
theorem Coherent.start (clock : Time) : Coherent (start clock) := by
  simp [Coherent, CampaignSystem.start]

/-- A step keeps the passes coherent. -/
theorem Coherent.step (hs : Coherent s) (h : s.step env a = some s') : Coherent s' := by
  intro j p' hj
  rcases pass_step h hj with ⟨hj, -⟩ | rfl | ⟨act, p, result, -, hw, -, hmoves, -⟩
  · exact coherent_mono h (hs j p' hj)
  · exact ⟨by simp [Pass.begin], by simp [Pass.begin, PassStage.claim?], trivial,
      fun _ => ⟨rfl, rfl⟩⟩
  · exact coherent_mono h (Worker.coherent_moves hmoves (hs j p hw))

/-- **Coherence of all passes**, in every state. -/
theorem coherent_of_reachable {clock : Time} (h : Reachable (step env) (start clock) s) :
    Coherent s :=
  Reaches.invariant h (Coherent.start clock) fun _ _ _ hx _ hstep => hx.step hstep

end CampaignSystem

end ApiWhatsApp
