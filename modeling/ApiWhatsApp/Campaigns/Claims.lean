import ApiWhatsApp.Campaigns.Statuses
import Mathlib.Data.List.Nodup

/-!
# Claims on recipients

A claim is fenced by the deadline of its lease: `completeClaim` matches the deadline that the claiming
statement has written. `CampaignSystem.granted` and `completed` record the claims, the last one first.

* `FreshLeases` is the guard: no deadline is given twice for one recipient.
* `Fenced` is the invariant: a recipient in `PROCESSING` carries the deadline of its latest claim, and
  that claim is not completed.
* **`Fenced.not_isHeld`** — a claim that was granted again is void. `written_of_claim` lists what a
  pass writes while it works on a claim.
-/

namespace ApiWhatsApp

open Library

/-- The id is a key of its row only. -/
@[simp] theorem mem_keys_recipient_id {r : CampaignRecipient} {i : Uuid} :
    RecipientKey.id i ∈ Keyed.keys r ↔ r.id = i := by
  simp [Keyed.keys]
  exact eq_comm

/-- Recipients are told apart by their id. -/
theorem Db.eq_of_recipient_id {db : Db} {r r' : CampaignRecipient} (hr : r ∈ db.recipients.rows)
    (hr' : r' ∈ db.recipients.rows) (h : r.id = r'.id) : r = r' :=
  db.recipients.eq_of_mem_keys hr hr' (mem_keys_recipient_id.mpr rfl)
    (mem_keys_recipient_id.mpr h.symm)

/-- Among the rows with the id of a row is the row only. -/
theorem Db.filter_recipient {db : Db} {r : CampaignRecipient} (hr : r ∈ db.recipients.rows)
    (p : CampaignRecipient → Bool) :
    db.recipients.rows.filter (fun a => p a && decide (a.id = r.id)) = if p r then [r] else [] := by
  have h := db.recipients.filter_of_mem (k := .id r.id) hr (mem_keys_recipient_id.mpr rfl) p
  simpa only [mem_keys_recipient_id] using h

/-! ## What a statement grants and completes -/

namespace CampaignWrite

variable {db db' : Db} {clock : Time} {w : CampaignWrite}

/-- What the claiming statement grants for one recipient. -/
theorem grants_claimRecipients {r : CampaignRecipient} (hr : r ∈ db.recipients.rows)
    (leaseUntil : Time) (ids : List Uuid) :
    ((claimRecipients leaseUntil ids).grants db clock).filter (fun g => g.1 = r.id) =
      if claims db clock ids r then [(r.id, leaseUntil)] else [] := by
  simp only [grants, List.filter_map, List.filter_filter, Function.comp_def]
  have h := Db.filter_recipient hr (claims db clock ids)
  simp only [Bool.and_comm (claims db clock ids _)] at h
  rw [h]
  split_ifs <;> rfl

/-- What `completeClaim` completes. -/
theorem mem_completions {g : Uuid × Time} (h : g ∈ w.completions db) :
    ∃ claim result, w = .completeClaim claim result ∧
      ∃ r ∈ db.recipients.rows, isHeld claim r = true ∧ g.1 = r.id ∧
        r.processingLeaseUntil = some g.2 := by
  cases w with
  | completeClaim claim result =>
      refine ⟨claim, result, rfl, ?_⟩
      obtain ⟨r, hr, hg⟩ := List.mem_filterMap.mp h
      obtain ⟨hmem, hheld⟩ := List.mem_filter.mp hr
      obtain ⟨leaseUntil, hlease, rfl⟩ := Option.map_eq_some_iff.mp hg
      exact ⟨r, hmem, hheld, rfl, hlease⟩
  | _ => cases h

/-- A statement completes at most one claim. -/
theorem length_completions : (w.completions db).length ≤ 1 := by
  cases w with
  | completeClaim claim result =>
      refine (List.length_filterMap_le _ _).trans ?_
      refine db.recipients.length_filter_le_one _ (.id claim.id) fun r hr => ?_
      simp only [isHeld, Bool.and_eq_true, decide_eq_true_eq] at hr
      exact mem_keys_recipient_id.mpr hr.1.1
  | _ => exact Nat.zero_le 1

/-- A claim is granted on a row of the table. -/
theorem mem_grants {g : Uuid × Time} (h : g ∈ w.grants db clock) :
    ∃ r ∈ db.recipients.rows, r.id = g.1 := by
  cases w with
  | claimRecipients leaseUntil ids =>
      obtain ⟨r, hr, rfl⟩ := List.mem_map.mp h
      exact ⟨r, (List.mem_filter.mp hr).1, rfl⟩
  | _ => cases h

/-- A statement grants each claim at most once. -/
theorem nodup_grants : (w.grants db clock).Nodup := by
  cases w with
  | claimRecipients leaseUntil ids =>
      refine List.Nodup.of_map Prod.fst ?_
      rw [grants, List.map_map]
      refine List.Nodup.sublist (List.filter_sublist.map _) ?_
      exact db.recipients.nodup_map _ fun a b hab =>
        ⟨.id a.id, mem_keys_recipient_id.mpr rfl, mem_keys_recipient_id.mpr hab.symm⟩
  | _ => exact List.nodup_nil

end CampaignWrite

/-! ## The invariant -/

namespace CampaignSystem

/-- The claims that a step grants. -/
def newGrants (env : CampaignEnv) (s : CampaignSystem) (a : Act) : List (Uuid × Time) :=
  ((written env s a).map (CampaignWrite.grants s.db s.clock)).getD []

/-- No deadline is given twice for one recipient. -/
def FreshLeases (env : CampaignEnv) (s : CampaignSystem) (a : Act) : Prop :=
  ∀ g ∈ newGrants env s a, g ∉ s.granted

/-- The guard can be evaluated. -/
instance (env : CampaignEnv) (s : CampaignSystem) (a : Act) : Decidable (FreshLeases env s a) :=
  inferInstanceAs (Decidable (∀ g ∈ newGrants env s a, g ∉ s.granted))

/-- The claims of a recipient, the last one first. -/
def grantsOf (s : CampaignSystem) (id : Uuid) : List (Uuid × Time) :=
  s.granted.filter fun g => g.1 = id

/-- A claim of the recipient was granted after this one. -/
def Superseded (s : CampaignSystem) (id : Uuid) (leaseUntil : Time) : Prop :=
  ∃ newer older later, s.granted = newer ++ (id, leaseUntil) :: older ∧ (id, later) ∈ newer

/-- No pass completes a claim by leaving its recipient in `PROCESSING`. -/
def EndsClaims (s : CampaignSystem) : Prop :=
  ∀ w ∈ s.workers, ∀ p, w = .pass p → ∀ claim result site,
    p.stage = .complete claim result site → result.status ≠ .processing

/-- At the start no claim is ending. -/
theorem EndsClaims.start (clock : Time) : EndsClaims (start clock) := by
  simp [EndsClaims, CampaignSystem.start]

section

variable {env : CampaignEnv} {s s' : CampaignSystem} {a : Act}

/-- A step keeps what the claims end with. -/
theorem EndsClaims.step (hs : EndsClaims s) (h : s.step env a = some s') : EndsClaims s' := by
  rintro w' hw' p' rfl claim res site hstage'
  obtain ⟨j, hj⟩ := List.getElem?_of_mem hw'
  rcases pass_step h hj with ⟨hj, -⟩ | rfl | ⟨act, p, result, -, -, -, hmoves, -⟩
  · exact hs _ (List.mem_of_getElem? hj) p' rfl claim res site hstage'
  · cases hstage'
  · have hclaim : p'.stage.claim? = some claim := by rw [hstage']; rfl
    rcases hmoves.claim_cases hclaim with ⟨hload, -⟩ |
      ⟨-, -, ⟨now, hfollows⟩ | ⟨_, _, _, _, _, -, hcreate, -, -⟩⟩
    · rw [hload] at hstage'
      cases hstage'
    · rw [hstage'] at hfollows
      generalize p.stage = stage at hfollows
      cases hfollows with
      | found _ _ _ | created _ _ _ _ => simp [ClaimResult.queued]
      | ended _ _ _ _ hunlinked =>
          simp only [ClaimResult.isUnlinked, Bool.and_eq_true, decide_eq_true_eq] at hunlinked
          exact hunlinked.2
    · rw [hcreate] at hstage'
      cases hstage'

/-- A claim does not end with a claim. -/
theorem EndsClaims.written (hs : EndsClaims s) {claim : CampaignRecipient} {result : ClaimResult}
    (hwrite : written env s a = some (.completeClaim claim result)) :
    result.status ≠ .processing := by
  rcases writes_step hwrite with ⟨_, _, _, _, _, _, _, _, -, hinsert⟩ |
    ⟨i, act, w, _, -, hw, -, -, hwrites⟩
  · cases hinsert
  · cases hwrites with
    | completeClaim p _ _ site hstage =>
        exact hs _ (List.mem_of_getElem? hw) p rfl claim result site hstage

end

/-- What holds in every state. -/
structure Fenced (s : CampaignSystem) : Prop where
  /-- A recipient that is being processed carries its latest claim, which is not completed. -/
  leased : ∀ r ∈ s.db.recipients.rows, r.status = .processing →
    ∃ leaseUntil, r.processingLeaseUntil = some leaseUntil ∧
      (s.grantsOf r.id).head? = some (r.id, leaseUntil) ∧ (r.id, leaseUntil) ∉ s.completed
  counted : ∀ r ∈ s.db.recipients.rows, r.attemptCount = (s.grantsOf r.id).length
  known : ∀ g ∈ s.granted, ∃ r ∈ s.db.recipients.rows, r.id = g.1
  completed_granted : ∀ g ∈ s.completed, g ∈ s.granted
  nodup_completed : s.completed.Nodup
  nodup_granted : s.granted.Nodup
  endsClaims : EndsClaims s

/-- At the start nothing was granted. -/
theorem Fenced.start (clock : Time) : Fenced (start clock) where
  leased := by simp [CampaignSystem.start, Db.empty]
  counted := by simp [CampaignSystem.start, Db.empty]
  known := by simp [CampaignSystem.start]
  completed_granted := by simp [CampaignSystem.start]
  nodup_completed := by simp [CampaignSystem.start]
  nodup_granted := by simp [CampaignSystem.start]
  endsClaims := EndsClaims.start clock

variable {env : CampaignEnv} {s s' : CampaignSystem} {a : Act}

/-- A step grants its own claims on top of those before. -/
theorem grantsOf_step (h : s.step env a = some s') (id : Uuid) :
    s'.grantsOf id = (newGrants env s a).filter (fun g => g.1 = id) ++ s.grantsOf id := by
  rw [grantsOf, (step_history h).1, List.filter_append]
  rfl

/-- The claims of a recipient after a step: those before, and a new one if it was claimed. -/
theorem grantsOf_row (h : s.step env a = some s') {r : CampaignRecipient}
    (hr : r ∈ s.db.recipients.rows) :
    (∃ leaseUntil ids, written env s a = some (.claimRecipients leaseUntil ids) ∧
        CampaignWrite.claims s.db s.clock ids r = true ∧
        s'.grantsOf r.id = (r.id, leaseUntil) :: s.grantsOf r.id) ∨
      (s'.grantsOf r.id = s.grantsOf r.id ∧
        ∀ leaseUntil ids, written env s a = some (.claimRecipients leaseUntil ids) →
          CampaignWrite.claims s.db s.clock ids r = false) := by
  rw [grantsOf_step h, newGrants]
  rcases hwrite : written env s a with _ | write
  · exact .inr ⟨rfl, by simp⟩
  · cases write with
    | claimRecipients leaseUntil ids =>
        simp only [Option.map_some, Option.getD_some]
        rw [CampaignWrite.grants_claimRecipients hr]
        by_cases hclaims : CampaignWrite.claims s.db s.clock ids r = true
        · exact .inl ⟨leaseUntil, ids, rfl, hclaims, by simp [hclaims]⟩
        · refine .inr ⟨by simp [hclaims], ?_⟩
          rintro _ _ ⟨⟩
          simpa using hclaims
    | _ => exact .inr ⟨rfl, by simp⟩

/-- A new recipient was never claimed. -/
theorem Fenced.grantsOf_launched (hs : Fenced s) (h : s.step env a = some s')
    {id : Uuid} {contactIds rowIds : List Uuid} {now : Time}
    (hwrite : written env s a = some (.launch id contactIds rowIds now)) {r : CampaignRecipient}
    (hr : r ∈ CampaignWrite.launched id contactIds rowIds s.clock) : s'.grantsOf r.id = [] := by
  have hnone : s.grantsOf r.id = [] := by
    refine List.filter_eq_nil_iff.mpr fun g hg hid => ?_
    obtain ⟨r₀, hr₀, hid₀⟩ := hs.known g hg
    rcases writes_step hwrite with ⟨_, _, _, _, _, _, _, _, -, hinsert⟩ |
      ⟨i, act, w, result, -, -, -, -, hwrites⟩
    · cases hinsert
    · cases hwrites with
      | launch o _ _ _ _ _ _ hfresh =>
          obtain ⟨_, -, rowId, hrowId, rfl⟩ := CampaignWrite.eq_of_mem_launched hr
          have hfind := hfresh rowId hrowId
          refine s.db.recipients.find_eq_none_iff.mp hfind r₀ hr₀ ?_
          rw [mem_keys_recipient_id, hid₀]
          exact of_decide_eq_true hid
  rw [grantsOf_step h, newGrants, hwrite, hnone]
  rfl

/-- What is completed was completed before, or is by this step. -/
theorem mem_completed_step (h : s.step env a = some s') {g : Uuid × Time} (hg : g ∈ s'.completed) :
    g ∈ s.completed ∨ ∃ claim result, written env s a = some (.completeClaim claim result) ∧
      ∃ r ∈ s.db.recipients.rows, CampaignWrite.isHeld claim r = true ∧ g.1 = r.id ∧
        r.processingLeaseUntil = some g.2 := by
  rw [(step_history h).2] at hg
  rcases List.mem_append.mp hg with hg | hg
  · right
    rcases hwrite : written env s a with _ | write
    · rw [hwrite] at hg
      cases hg
    · rw [hwrite] at hg
      obtain ⟨claim, result, rfl, hr⟩ := CampaignWrite.mem_completions hg
      exact ⟨claim, result, rfl, hr⟩
  · exact .inl hg

/-- What is completed is held, so what is held and stays so is not completed. -/
theorem Fenced.not_completed (hs : Fenced s) (h : s.step env a = some s') {r : CampaignRecipient}
    (hr : r ∈ s.db.recipients.rows) {leaseUntil : Time} (hopen : (r.id, leaseUntil) ∉ s.completed)
    (hprocessing : (recipientAfter env s a r).status = .processing) :
    (r.id, leaseUntil) ∉ s'.completed := by
  intro hmem
  rcases mem_completed_step h hmem with hmem | ⟨claim, result, hwrite, r₂, hr₂, hheld, hid, -⟩
  · exact hopen hmem
  · obtain rfl : r = r₂ := Db.eq_of_recipient_id hr hr₂ hid
    refine hs.endsClaims.written hwrite ?_
    simpa [recipientAfter, hwrite, CampaignWrite.recipient, hheld, ClaimResult.apply]
      using hprocessing

/-- A recipient that is being processed after a step was so before, or has been claimed. -/
theorem Fenced.leased_step (hs : Fenced s) (hfresh : FreshLeases env s a)
    (h : s.step env a = some s') :
    ∀ r ∈ s'.db.recipients.rows, r.status = .processing →
      ∃ leaseUntil, r.processingLeaseUntil = some leaseUntil ∧
        (s'.grantsOf r.id).head? = some (r.id, leaseUntil) ∧ (r.id, leaseUntil) ∉ s'.completed := by
  intro r' hr' hprocessing
  rcases (recipients_step h).2 r' hr' with ⟨r, hr, rfl⟩ | ⟨id, contactIds, rowIds, now, -, hr'⟩
  · rw [(identity_recipientAfter r).1]
    rcases grantsOf_row h hr with ⟨leaseUntil, ids, hwrite, hclaims, hgrants⟩ | ⟨hgrants, hnot⟩
    · have hafter : recipientAfter env s a r = CampaignWrite.claimed leaseUntil r := by
        simp [recipientAfter, hwrite, CampaignWrite.recipient, hclaims]
      have hgranted : (r.id, leaseUntil) ∈ newGrants env s a := by
        rw [newGrants, hwrite]
        exact List.mem_map.mpr ⟨r, List.mem_filter.mpr ⟨hr, hclaims⟩, rfl⟩
      have hopen : (r.id, leaseUntil) ∉ s.completed := fun hmem =>
        hfresh _ hgranted (hs.completed_granted _ hmem)
      refine ⟨leaseUntil, by rw [hafter]; rfl, by rw [hgrants]; rfl, ?_⟩
      exact hs.not_completed h hr hopen hprocessing
    · have hsame : recipientAfter env s a r = r := by
        rcases recipientAfter_changes r with hsame | ⟨write, hwrite, hchanges⟩
        · exact hsame
        · exfalso
          generalize hafter : recipientAfter env s a r = r' at hchanges hprocessing
          cases hchanges with
          | claimed leaseUntil ids hclaims =>
              rw [hnot leaseUntil ids hwrite] at hclaims
              cases hclaims
          | completed claim result hheld => exact hs.endsClaims.written hwrite hprocessing
          | cancelled _ _ _ _ _ _ | failed _ _ _ _ => cases hprocessing
      have hprocessing₀ : r.status = .processing := by rwa [hsame] at hprocessing
      obtain ⟨leaseUntil, hlease, hlatest, hopen⟩ := hs.leased r hr hprocessing₀
      refine ⟨leaseUntil, by rwa [hsame], by rwa [hgrants], ?_⟩
      exact hs.not_completed h hr hopen hprocessing
  · obtain ⟨_, -, _, -, rfl⟩ := CampaignWrite.eq_of_mem_launched hr'
    cases hprocessing

/-- Every row counts the claims on it. -/
theorem Fenced.counted_step (hs : Fenced s) (h : s.step env a = some s') :
    ∀ r ∈ s'.db.recipients.rows, r.attemptCount = (s'.grantsOf r.id).length := by
  intro r' hr'
  rcases (recipients_step h).2 r' hr' with ⟨r, hr, rfl⟩ | ⟨id, contactIds, rowIds, now, hwrite, hr'⟩
  · rw [(identity_recipientAfter r).1]
    rcases grantsOf_row h hr with ⟨leaseUntil, ids, hwrite, hclaims, hgrants⟩ | ⟨hgrants, hnot⟩
    · rw [hgrants, List.length_cons, ← hs.counted r hr]
      simp [recipientAfter, hwrite, CampaignWrite.recipient, hclaims, CampaignWrite.claimed]
    · rw [hgrants, ← hs.counted r hr]
      rcases recipientAfter_changes r with hsame | ⟨write, hwrite, hchanges⟩
      · rw [hsame]
      · generalize recipientAfter env s a r = r' at hchanges
        cases hchanges with
        | claimed leaseUntil ids hclaims =>
            rw [hnot leaseUntil ids hwrite] at hclaims
            cases hclaims
        | completed _ _ _ | cancelled _ _ _ _ _ _ | failed _ _ _ _ => rfl
  · rw [hs.grantsOf_launched h hwrite hr']
    obtain ⟨_, -, _, -, rfl⟩ := CampaignWrite.eq_of_mem_launched hr'
    rfl

/-- Claims are on rows of the table. -/
theorem Fenced.known_step (hs : Fenced s) (h : s.step env a = some s') :
    ∀ g ∈ s'.granted, ∃ r ∈ s'.db.recipients.rows, r.id = g.1 := by
  intro g hg
  have hrow : ∃ r ∈ s.db.recipients.rows, r.id = g.1 := by
    rw [(step_history h).1] at hg
    rcases List.mem_append.mp hg with hg | hg
    · rcases hwrite : written env s a with _ | write
      · rw [hwrite] at hg
        cases hg
      · rw [hwrite] at hg
        exact CampaignWrite.mem_grants hg
    · exact hs.known g hg
  obtain ⟨r, hr, hid⟩ := hrow
  exact ⟨_, (recipients_step h).1 r hr, (identity_recipientAfter r).1.trans hid⟩

/-- Only claims that were granted are completed. -/
theorem Fenced.completed_granted_step (hs : Fenced s) (h : s.step env a = some s') :
    ∀ g ∈ s'.completed, g ∈ s'.granted := by
  intro g hg
  have hold : g ∈ s.granted := by
    rcases mem_completed_step h hg with hg | ⟨claim, result, -, r, hr, hheld, hid, hlease⟩
    · exact hs.completed_granted g hg
    · simp only [CampaignWrite.isHeld, Bool.and_eq_true, decide_eq_true_eq] at hheld
      obtain ⟨leaseUntil, hlease', hlatest, -⟩ := hs.leased r hr hheld.1.2
      rw [hlease] at hlease'
      cases hlease'
      have hmem := List.mem_of_mem_head? hlatest
      rw [← hid] at hmem
      exact (List.mem_filter.mp hmem).1
  rw [(step_history h).1]
  exact List.mem_append_right _ hold

/-- No claim is completed twice. -/
theorem Fenced.nodup_completed_step (hs : Fenced s) (h : s.step env a = some s') :
    s'.completed.Nodup := by
  rw [(step_history h).2]
  rcases hwrite : written env s a with _ | write
  · exact hs.nodup_completed
  · simp only [Option.map_some, Option.getD_some]
    have hlength : (write.completions s.db).length ≤ 1 := CampaignWrite.length_completions
    rcases hlist : write.completions s.db with _ | ⟨g, _ | ⟨g₂, rest⟩⟩
    · exact hs.nodup_completed
    · refine List.nodup_cons.mpr ⟨fun hg => ?_, hs.nodup_completed⟩
      have hmem : g ∈ write.completions s.db := by simp [hlist]
      obtain ⟨claim, result, -, r, hr, hheld, hid, hlease⟩ := CampaignWrite.mem_completions hmem
      simp only [CampaignWrite.isHeld, Bool.and_eq_true, decide_eq_true_eq] at hheld
      obtain ⟨leaseUntil, hlease', -, hopen⟩ := hs.leased r hr hheld.1.2
      rw [hlease] at hlease'
      cases hlease'
      exact hopen (by rwa [← hid])
    · simp [hlist] at hlength

/-- No claim is granted twice. -/
theorem Fenced.nodup_granted_step (hs : Fenced s) (hfresh : FreshLeases env s a)
    (h : s.step env a = some s') : s'.granted.Nodup := by
  have hnew : (newGrants env s a).Nodup := by
    unfold newGrants
    cases written env s a with
    | none => exact List.nodup_nil
    | some write => exact CampaignWrite.nodup_grants
  rw [(step_history h).1]
  exact List.nodup_append.mpr ⟨hnew, hs.nodup_granted,
    fun g hg g' hg' heq => hfresh g hg (heq ▸ hg')⟩

/-- **One step keeps the fence.** -/
theorem Fenced.step (hs : Fenced s) (hfresh : FreshLeases env s a) (h : s.step env a = some s') :
    Fenced s' where
  leased := hs.leased_step hfresh h
  counted := hs.counted_step h
  known := hs.known_step h
  completed_granted := hs.completed_granted_step h
  nodup_completed := hs.nodup_completed_step h
  nodup_granted := hs.nodup_granted_step hfresh h
  endsClaims := hs.endsClaims.step h

/-- Nobody is being processed under a claim that was granted again. -/
theorem Fenced.not_isHeld (hs : Fenced s) {claim r : CampaignRecipient} {leaseUntil : Time}
    (hr : r ∈ s.db.recipients.rows) (hlease : claim.processingLeaseUntil = some leaseUntil)
    (hsuperseded : s.Superseded claim.id leaseUntil) : CampaignWrite.isHeld claim r = false := by
  by_contra hheld
  rw [Bool.not_eq_false] at hheld
  simp only [CampaignWrite.isHeld, Bool.and_eq_true, decide_eq_true_eq] at hheld
  obtain ⟨⟨hid, hprocessing⟩, hsame⟩ := hheld
  obtain ⟨leaseUntil', hlease', hlatest, -⟩ := hs.leased r hr hprocessing
  rw [hsame, hlease] at hlease'
  cases hlease'
  -- the latest claim comes before the newer one, so it would be granted twice
  obtain ⟨newer, older, later, hgranted, hlater⟩ := hsuperseded
  have hnodup := hs.nodup_granted
  rw [hgranted] at hnodup
  have hlast : (r.id, leaseUntil) ∈ newer := by
    rw [grantsOf, List.head?_filter, hgranted, List.find?_append] at hlatest
    rcases hfind : newer.find? fun g => g.1 = r.id with _ | g
    · have hnone := List.find?_eq_none.mp hfind (claim.id, later) hlater
      simp [hid] at hnone
    · rw [hfind] at hlatest
      cases hlatest
      exact List.mem_of_find?_eq_some hfind
  rw [← hid] at hnodup
  exact (List.nodup_append.mp hnodup).2.2 _ hlast _ List.mem_cons_self rfl

/-- A statement that may change a recipient of a pass while it works on a claim is the completion of
that claim, or the end of the whole campaign. -/
theorem written_of_claim {i : ℕ} {act : WorkerAct} {p : Pass} {claim : CampaignRecipient}
    (hw : s.workers[i]? = some (.pass p)) (hclaim : p.stage.claim? = some claim)
    {write : CampaignWrite} (hwrite : written env s (.worker i act) = some write) :
    (∃ result, write = .completeClaim claim result) ∨
      ∃ campaignId reason pending, write = .failCampaign campaignId reason pending := by
  rcases writes_step hwrite with ⟨_, _, _, _, _, _, _, _, hact, -⟩ |
    ⟨i', act', w, result, hact, hw', hresult, -, hwrites⟩
  · cases hact
  · cases hact
    rw [hw] at hw'
    cases hw'
    obtain ⟨queue, touched, stage⟩ := p
    cases hwrites with
    | completeClaim _ claim' result site hstage =>
        cases hstage
        cases hclaim
        exact .inl ⟨result, rfl⟩
    | failCampaign _ _ campaignId reason pending hstage =>
        exact .inr ⟨campaignId, _, pending, rfl⟩
    | promote _ _ hstage | claim _ _ _ hstage _ =>
        cases hstage
        cases hclaim
    | storeCounts _ _ _ hrefresh | complete _ _ _ hrefresh =>
        rw [(Worker.facts_of_claim hclaim).2] at hrefresh
        cases hrefresh

end CampaignSystem

end ApiWhatsApp
