import ApiWhatsApp.Campaigns.Passes

/-!
# The messages of a campaign

A pass finds the message of a recipient by its idempotency key, and `messages.create` creates no second
one under it. The keys of campaigns and those that API clients choose share one index.

* `recipientIdempotencyKey_inj` — different recipients have different keys.
* `Db.Fits` — the message is what the campaign sends to the contact.
* `Linked` is the invariant: a message under the key of a recipient fits it, and so does the message of
  every pass that is about to complete a claim as `QUEUED`.
* **`campaign_messages`** — each campaign creates at most one message for each contact, and the message
  of every recipient that is `QUEUED` fits, provided that no API client creates another message under
  the key of a recipient (`KeepsKeys`).
* **`taken_key`** — a client takes the key of a recipient, and the campaign reports its text message as
  the one it has sent.
-/

namespace ApiWhatsApp

open Library

/-! ## Keys -/

/-- The text of an id tells it apart. -/
theorem Uuid.text_inj {id id' : Uuid} (h : id.text.toList = id'.text.toList) : id = id' :=
  toString_nat_inj h

/-- What stands before the first separator of a text. -/
theorem Uuid.takeWhile_text (id : Uuid) (rest : List Char) :
    (id.text.toList ++ ':' :: rest).takeWhile (fun c => c ≠ ':') = id.text.toList :=
  takeWhile_toString_nat rfl id rest

/-- The key of a recipient names its campaign and its contact. -/
theorem recipientIdempotencyKey_inj {campaignId contactId campaignId' contactId' : Uuid}
    (h : recipientIdempotencyKey campaignId contactId =
      recipientIdempotencyKey campaignId' contactId') :
    campaignId = campaignId' ∧ contactId = contactId' := by
  have hlist : campaignId.text.toList ++ ':' :: ("contact:".toList ++ contactId.text.toList) =
      campaignId'.text.toList ++ ':' :: ("contact:".toList ++ contactId'.text.toList) := by
    have htext := congrArg String.toList h
    simpa [recipientIdempotencyKey] using htext
  have hcampaign : campaignId.text.toList = campaignId'.text.toList := by
    have hbefore := congrArg (List.takeWhile fun c => c ≠ ':') hlist
    rwa [Uuid.takeWhile_text, Uuid.takeWhile_text] at hbefore
  have hcontact : contactId.text.toList = contactId'.text.toList := by
    rw [hcampaign] at hlist
    exact List.append_cancel_left (List.cons.inj (List.append_cancel_left hlist)).2
  exact ⟨Uuid.text_inj hcampaign, Uuid.text_inj hcontact⟩

/-! ## The message of a recipient -/

/-- The message is the one that the campaign sends to the contact: a template message to its number,
from the sender of the campaign, with the name and the language of its template. -/
structure Db.Fits (db : Db) (campaignId contactId : Uuid) (m : MessageOrigin) : Prop where
  type : m.type = .template
  contact : ∃ c ∈ db.contacts.rows, c.id = contactId ∧ m.to_ = some c.phone
  campaign : ∃ c ∈ db.campaigns.rows, c.id = campaignId ∧ m.tenantId = some c.tenantId ∧
    m.senderId = some c.senderId ∧ ∃ t ∈ db.templates.rows, t.id = c.templateId ∧
      m.payload.get? "name" = some (.str t.name) ∧
      m.payload.get? "language" = some (.str t.language)

/-- The message is stored under the key of the recipient. -/
def Message.IsUnder (tenantId campaignId contactId : Uuid) (m : Message) : Prop :=
  m.tenantId = some tenantId ∧
    m.idempotencyKey = some (recipientIdempotencyKey campaignId contactId)

/-- What a pass has loaded is still so, apart from statuses. -/
structure Db.Knows (db : Db) (loaded : LoadedRecipient) : Prop where
  contact : ∃ c ∈ db.contacts.rows, c.id = loaded.recipient.contactId ∧
    c.phone = loaded.contact.phone
  number : normalizePhoneNumber loaded.contact.phone = .ok loaded.contact.phone
  campaign : ∃ c ∈ db.campaigns.rows, c.id = loaded.campaign.id ∧
    c.tenantId = loaded.campaign.tenantId ∧ c.senderId = loaded.campaign.senderId ∧
    ∃ t ∈ db.templates.rows, t.id = c.templateId ∧ t.name = loaded.template.name ∧
      t.language = loaded.template.language

/-- A call of `messages.create` for a recipient. -/
structure LoadedRecipient.Calls (loaded : LoadedRecipient) (db : Db) (call : CreateCall) : Prop where
  tenantId : call.tenantId = loaded.campaign.tenantId
  dto : ∃ components, call.dto = loaded.dto components
  faithful : call.Faithful
  returned : ∀ m, call.stage = .returned m → ∃ m' ∈ db.messages.rows, m'.id = m.id ∧
    m'.IsUnder loaded.campaign.tenantId loaded.campaign.id loaded.recipient.contactId

/-- What a stage of a pass knows about the message of its claim. -/
def PassStage.Linked (db : Db) : PassStage → Prop
  | .lookup _ loaded => db.Knows loaded
  | .create _ loaded call => db.Knows loaded ∧ loaded.Calls db call
  | .complete r result _ => result.status = .queued →
      ∃ m ∈ db.messages.rows, result.messageId = some m.id ∧
        db.Fits r.campaignId r.contactId m.origin
  | _ => True

/-- The call has the key of the recipient. -/
theorem LoadedRecipient.Calls.key {loaded : LoadedRecipient} {db : Db} {call : CreateCall}
    (h : loaded.Calls db call) : call.dto.idempotencyKey =
      some (recipientIdempotencyKey loaded.campaign.id loaded.recipient.contactId) := by
  obtain ⟨components, hdto⟩ := h.dto
  rw [hdto]
  rfl

/-- **The message of a pass** fits its recipient. -/
theorem LoadedRecipient.Calls.fits {loaded : LoadedRecipient} {db : Db} {call : CreateCall}
    (h : loaded.Calls db call) (hknows : db.Knows loaded) {draft : MessageDraft}
    (hstage : call.stage = .transact draft) (ids : CreateIds) (conversationId : Option Uuid) :
    db.Fits loaded.campaign.id loaded.recipient.contactId
      (draft.message ids call.tenantId call.dto.idempotencyKey conversationId).origin := by
  obtain ⟨components, hdto⟩ := h.dto
  have hdraft := h.faithful.draft draft hstage
  have hto : draft.to_ = loaded.contact.phone := by
    have hnumber := h.faithful.number draft.to_ (by simp [CreateCall.settled, hstage])
    rw [hdto] at hnumber
    exact Except.ok.inj (hnumber.symm.trans hknows.number)
  have hpayload : draft.payload = (loaded.dto components).payload := by
    rw [← hdto]
    exact hdraft.payload (by rw [hdto]; rfl)
  have hsender : draft.senderId = loaded.campaign.senderId :=
    hdraft.sender loaded.campaign.senderId (by rw [hdto]; rfl)
  obtain ⟨c, hc, hid, htenant, hcsender, t, ht, htid, hname, hlanguage⟩ := hknows.campaign
  obtain ⟨contact, hcontact, hcid, hphone⟩ := hknows.contact
  refine ⟨?_, ⟨contact, hcontact, hcid, ?_⟩, c, hc, hid, ?_, ?_, t, ht, htid, ?_, ?_⟩
  · show draft.type = .template
    rw [hdraft.type, hdto]
    rfl
  · show some draft.to_ = _
    rw [hto, hphone]
  · show some call.tenantId = _
    rw [h.tenantId, htenant]
  · show some draft.senderId = _
    rw [hsender, hcsender]
  · show draft.payload.get? "name" = _
    rw [hpayload, hname]
    simp [LoadedRecipient.dto, Json.get?]
  · show draft.payload.get? "language" = _
    rw [hpayload, hlanguage]
    simp [LoadedRecipient.dto, Json.get?, List.lookup_cons]

namespace CampaignSystem

/-! ## The condition -/

/-- No API client takes the key of a recipient for a message that does not fit it: neither while there
is such a recipient, nor before the campaign is launched for it. -/
structure KeepsKeys (env : CampaignEnv) (s : CampaignSystem) (a : Act) : Prop where
  creates : ∀ i act call draft ids, a = .worker i act → s.workers[i]? = some (.api call) →
    (Worker.api call).commits act = some (call, draft, ids) →
    ∀ r ∈ s.db.recipients.rows, ∀ c ∈ s.db.campaigns.rows, c.id = r.campaignId →
      c.tenantId = call.tenantId →
      call.dto.idempotencyKey = some (recipientIdempotencyKey r.campaignId r.contactId) →
      s.db.Fits r.campaignId r.contactId
        (draft.message ids call.tenantId call.dto.idempotencyKey none).origin
  launches : ∀ id contactIds rowIds now, written env s a = some (.launch id contactIds rowIds now) →
    ∀ contactId ∈ contactIds, ∀ c ∈ s.db.campaigns.rows, c.id = id →
      ∀ m ∈ s.db.messages.rows, m.IsUnder c.tenantId id contactId →
        s.db.Fits id contactId m.origin

/-! ## What stays true of a message -/

variable {env : CampaignEnv} {s s' : CampaignSystem} {a : Act}

/-- Messages stay what they are. -/
theorem messages_kept (h : s.step env a = some s') :
    ∀ m ∈ s.db.messages.rows, ∃ m' ∈ s'.db.messages.rows, m'.origin = m.origin := by
  rcases messages_step h with ⟨-, hkept, -⟩ | ⟨call, draft, ids, m, -, hcommit⟩
  · exact hkept
  · intro m₀ hm₀
    obtain ⟨-, hmessages, -⟩ := Db.commitCreate_spec hcommit
    rw [Table.rows_of_insert? hmessages]
    exact ⟨m₀, List.mem_cons_of_mem _ hm₀, rfl⟩

/-- Who a campaign belongs to, what it sends and from where stays. -/
theorem campaign_kept (h : s.step env a = some s') {c : Campaign} (hc : c ∈ s.db.campaigns.rows) :
    ∃ c' ∈ s'.db.campaigns.rows, c'.id = c.id ∧ c'.tenantId = c.tenantId ∧
      c'.senderId = c.senderId ∧ c'.templateId = c.templateId :=
  ⟨campaignAfter env s a c, (campaigns_step h).1 c hc, identity_campaignAfter c⟩

/-- A message goes on fitting the recipient. -/
theorem fits_step (h : s.step env a = some s') {campaignId contactId : Uuid} {m : MessageOrigin}
    (hfits : s.db.Fits campaignId contactId m) : s'.db.Fits campaignId contactId m := by
  refine ⟨hfits.type, ?_, ?_⟩
  · obtain ⟨c, hc, hid, hto⟩ := hfits.contact
    obtain ⟨c', hc', hid', hphone⟩ := (contacts_step h).1 c hc
    exact ⟨c', hc', hid'.trans hid, by rw [hto, hphone]⟩
  · obtain ⟨c, hc, hid, htenant, hsender, t, ht, htid, hname, hlanguage⟩ := hfits.campaign
    obtain ⟨t', ht', htid', hname', hlanguage'⟩ := templates_step h t ht
    obtain ⟨c', hc', hid₁, htenant₁, hsender₁, htemplate₁⟩ := campaign_kept h hc
    refine ⟨c', hc', hid₁.trans hid, ?_, ?_, t', ht', ?_, ?_, ?_⟩
    · rw [htenant, htenant₁]
    · rw [hsender, hsender₁]
    · rw [htid', htid, htemplate₁]
    · rw [hname, hname']
    · rw [hlanguage, hlanguage']

/-- What was loaded goes on being known. -/
theorem knows_step (h : s.step env a = some s') {loaded : LoadedRecipient}
    (hknows : s.db.Knows loaded) : s'.db.Knows loaded := by
  refine ⟨?_, hknows.number, ?_⟩
  · obtain ⟨c, hc, hid, hphone⟩ := hknows.contact
    obtain ⟨c', hc', hid', hphone'⟩ := (contacts_step h).1 c hc
    exact ⟨c', hc', hid'.trans hid, hphone'.trans hphone⟩
  · obtain ⟨c, hc, hid, htenant, hsender, t, ht, htid, hname, hlanguage⟩ := hknows.campaign
    obtain ⟨t', ht', htid', hname', hlanguage'⟩ := templates_step h t ht
    obtain ⟨c', hc', hid₁, htenant₁, hsender₁, htemplate₁⟩ := campaign_kept h hc
    exact ⟨c', hc', hid₁.trans hid, htenant₁.trans htenant, hsender₁.trans hsender, t', ht',
      by rw [htid', htid, htemplate₁], hname'.trans hname, hlanguage'.trans hlanguage⟩

/-- What a stage knows stays true. -/
theorem linked_mono (h : s.step env a = some s') {stage : PassStage} (hstage : stage.Linked s.db) :
    stage.Linked s'.db := by
  have hkept := messages_kept h
  cases stage with
  | lookup r loaded => exact knows_step h hstage
  | create r loaded call =>
      obtain ⟨hknows, hcalls⟩ := hstage
      refine ⟨knows_step h hknows, hcalls.tenantId, hcalls.dto, hcalls.faithful, ?_⟩
      intro m hm
      obtain ⟨m₀, hm₀, hid, hunder⟩ := hcalls.returned m hm
      obtain ⟨m', hm', horigin⟩ := hkept m₀ hm₀
      simp only [Message.origin, MessageOrigin.mk.injEq] at horigin
      refine ⟨m', hm', horigin.1.trans hid, horigin.2.1.trans hunder.1, ?_⟩
      exact horigin.2.2.2.2.2.2.1.trans hunder.2
  | complete r result site =>
      intro hqueued
      obtain ⟨m₀, hm₀, hid, hfits⟩ := hstage hqueued
      obtain ⟨m', hm', horigin⟩ := hkept m₀ hm₀
      refine ⟨m', hm', ?_, ?_⟩
      · have hids : m'.id = m₀.id := congrArg MessageOrigin.id horigin
        rw [hid, hids]
      · rw [horigin]
        exact fits_step h hfits
  | _ => trivial

/-- What holds in every state. -/
structure Linked (s : CampaignSystem) : Prop where
  lawful : Lawful s
  coherent : Coherent s
  numbers : ∀ c ∈ s.db.contacts.rows, normalizePhoneNumber c.phone = .ok c.phone
  stages : ∀ (j : ℕ) (p : Pass), s.workers[j]? = some (.pass p) → p.stage.Linked s.db
  /-- The message under the key of a recipient. -/
  keyed : ∀ r ∈ s.db.recipients.rows, ∀ c ∈ s.db.campaigns.rows, c.id = r.campaignId →
    ∀ m ∈ s.db.messages.rows, m.IsUnder c.tenantId r.campaignId r.contactId →
      s.db.Fits r.campaignId r.contactId m.origin
  queued : ∀ r ∈ s.db.recipients.rows, r.status = .queued →
    ∃ m ∈ s.db.messages.rows, r.messageId = some m.id ∧
      s.db.Fits r.campaignId r.contactId m.origin
  /-- A campaign that has sent a message has one under the key. -/
  sent : ∀ x ∈ s.sent, ∃ c ∈ s.db.campaigns.rows, c.id = x.1 ∧
    ∃ m ∈ s.db.messages.rows, m.IsUnder c.tenantId x.1 x.2
  once : s.sent.Nodup

/-- At the start nothing is linked. -/
theorem Linked.start (clock : Time) : Linked (start clock) where
  lawful := Lawful.start clock
  coherent := Coherent.start clock
  numbers := by simp [CampaignSystem.start, Db.empty]
  stages := by simp [CampaignSystem.start]
  keyed := by simp [CampaignSystem.start, Db.empty]
  queued := by simp [CampaignSystem.start, Db.empty]
  sent := by simp [CampaignSystem.start]
  once := List.nodup_nil

/-! ## Stages -/

/-- The message that a pass finds for its claim. -/
theorem Linked.fits_of_claim (hs : Linked s) {j : ℕ} {p : Pass}
    (hj : s.workers[j]? = some (.pass p)) {claim : CampaignRecipient}
    (hclaim : p.stage.claim? = some claim) {loaded : LoadedRecipient} (hknows : s.db.Knows loaded)
    (hbelongs : loaded.campaign.id = claim.campaignId ∧
      loaded.recipient.contactId = claim.contactId) {m : Message} (hm : m ∈ s.db.messages.rows)
    (hunder : m.IsUnder loaded.campaign.tenantId loaded.campaign.id loaded.recipient.contactId) :
    s.db.Fits claim.campaignId claim.contactId m.origin := by
  obtain ⟨⟨r, hr, -, hcampaign, hcontact⟩, -⟩ := (hs.coherent j p hj).claim claim hclaim
  obtain ⟨c, hc, hid, htenant, -⟩ := hknows.campaign
  rw [hbelongs.1, hbelongs.2, ← htenant] at hunder
  have hfits := hs.keyed r hr c hc (by rw [hid, hbelongs.1, hcampaign]) m hm
  rw [hcampaign, hcontact] at hfits
  exact hfits hunder

/-- A pass that goes on with its claim. -/
theorem Linked.follows (hs : Linked s) {j : ℕ} {p : Pass} (hj : s.workers[j]? = some (.pass p))
    {now : Time} {claim : CampaignRecipient} {stage : PassStage}
    (h : Pass.Follows env s.db now claim p.stage stage) : stage.Linked s.db := by
  have hbelongs := (hs.coherent j p hj).belongs
  have hlinked := hs.stages j p hj
  have hclaim := h.claim_before
  generalize p.stage = stage₀ at h hbelongs hlinked
  cases h with
  | loaded loaded hload =>
      obtain ⟨-, ⟨hcontact, hcid⟩, ⟨hcampaign, -⟩, htemplate, htid⟩ := Db.loadRecipient_spec hload
      exact ⟨⟨_, hcontact, hcid, rfl⟩, hs.numbers _ hcontact,
        ⟨_, hcampaign, rfl, rfl, rfl, _, htemplate, htid, rfl, rfl⟩⟩
  | found loaded message hfound =>
      intro _
      obtain ⟨hm, hkey⟩ := s.db.messages.find_eq_some_iff.mp hfound
      exact ⟨message, hm, rfl,
        hs.fits_of_claim hj hclaim hlinked hbelongs hm (mem_keys_idempotencyKey.mp hkey)⟩
  | creating loaded components =>
      refine ⟨hlinked, rfl, ⟨components, rfl⟩, CreateCall.faithful_begin _ _, ?_⟩
      intro m hm
      simp only [CreateCall.begin] at hm
      split_ifs at hm
  | created loaded call message hreturned =>
      intro _
      obtain ⟨m, hm, hid, hunder⟩ := hlinked.2.returned message hreturned
      exact ⟨m, hm, congrArg some hid.symm,
        hs.fits_of_claim hj hclaim hlinked.1 hbelongs hm hunder⟩
  | ended stage result site hclaim hunlinked =>
      intro hqueued
      simp [ClaimResult.isUnlinked, hqueued] at hunlinked
  | misconfigured _ _ | rejected _ _ _ | failing _ _ _ _ _ | current _ _ | dropped _ _ => trivial

/-- A call of `messages.create` goes on. -/
theorem calls_step {loaded : LoadedRecipient} {call call' : CreateCall} {db db' : Db} {clock : Time}
    {normalizeMediaPayload : OutboundMessageType → Json → Except String Json} {create : CreateAct}
    (hcalls : loaded.Calls db call)
    (h : call.step normalizeMediaPayload db clock create = some (db', call')) :
    loaded.Calls db' call' := by
  obtain ⟨⟨htenant, hdto⟩, hcase⟩ := CreateCall.step_db h
  refine ⟨htenant.trans hcalls.tenantId, by rw [hdto]; exact hcalls.dto, hcalls.faithful.step h, ?_⟩
  intro m hm
  rcases hcase with ⟨-, rfl, hreturned, -⟩ | ⟨draft, ids, m', -, hcommit, -, -, hreturned⟩
  · have hexisting := hreturned m hm
    obtain ⟨key, hkey, hfound⟩ := Option.bind_eq_some_iff.mp hexisting
    obtain ⟨hmem, hkeys⟩ := db'.messages.find_eq_some_iff.mp hfound
    obtain ⟨ht, hk⟩ := mem_keys_idempotencyKey.mp hkeys
    have hgiven := (CreateMessageDto.givenKey_eq_some_iff.mp hkey).1
    rw [hcalls.key] at hgiven
    exact ⟨m, hmem, rfl, by rw [ht, hcalls.tenantId], by rw [hk, ← hgiven]⟩
  · obtain rfl := hreturned m hm
    obtain ⟨⟨conversationId, rfl⟩, hmessages, -⟩ := Db.commitCreate_spec hcommit
    refine ⟨_, ?_, rfl, congrArg some hcalls.tenantId, hcalls.key⟩
    rw [Table.rows_of_insert? hmessages]
    exact List.mem_cons_self

/-- Who refreshes holds nothing. -/
theorem linked_refreshing (db : Db) (rest : List Uuid) : (PassStage.refreshing rest).Linked db := by
  cases rest <;> trivial

/-- A step keeps what the passes hold. -/
theorem Linked.stages_step (hs : Linked s) (h : s.step env a = some s') :
    ∀ (j : ℕ) (p : Pass), s'.workers[j]? = some (.pass p) → p.stage.Linked s'.db := by
  intro j p' hj
  rcases pass_step h hj with ⟨hj, -⟩ | rfl | ⟨act, p, result, -, hw, hresult, hmoves, -, hdb⟩
  · exact linked_mono h (hs.stages j p' hj)
  · trivial
  · cases hmoves with
    | follows now claim stage hfollows => exact linked_mono h (hs.follows hw hfollows)
    | created claim loaded call call' create db' hstage hact hstep =>
        obtain ⟨queue, touched, stage⟩ := p
        cases hstage
        subst hact
        obtain ⟨⟨db₁, call₁⟩, hstep₁, rfl⟩ := Option.map_eq_some_iff.mp hresult
        rw [hstep] at hstep₁
        cases hstep₁
        obtain ⟨hknows, hcalls⟩ := hs.stages j _ hw
        refine ⟨knows_step h hknows, ?_⟩
        rw [hdb]
        exact calls_step hcalls hstep
    | refreshing hstage hqueue => exact linked_refreshing _ p.touched
    | refreshed now refresh rest hstage =>
        simp only
        split
        · trivial
        · exact linked_refreshing _ rest
    | ended stage hstage hact => rcases hstage with rfl | rfl <;> trivial
    | promoted _ | claimed _ _ _ _ | began _ _ _ _ => trivial

/-! ## Messages and recipients -/

variable (env) in
/-- Who commits a message: an API call, or the pass whose claim it is for. -/
theorem committed_cases {call : CreateCall} {draft : MessageDraft} {ids : CreateIds}
    (hcommitted : committed s a = some (call, draft, ids)) :
    call.stage = .transact draft ∧ written env s a = none ∧ ∃ i act, a = .worker i act ∧
      ((s.workers[i]? = some (.api call) ∧
          (Worker.api call).commits act = some (call, draft, ids)) ∨
        ∃ p claim loaded, s.workers[i]? = some (.pass p) ∧ p.stage = .create claim loaded call ∧
          (Worker.pass p).sends act = some (loaded.campaign.id, loaded.recipient.contactId)) := by
  obtain ⟨i, create, w, rfl, hw, hcall, hcommits⟩ := committed_call hcommitted
  refine ⟨CreateCall.stage_of_commits hcommits, ?_, i, _, rfl, ?_⟩
  · simp only [written, hw, Option.bind_some]
    rcases hresult : w.step env s.db s.clock (s.locks i) (.create create) with _ | result
    · rfl
    · rcases Worker.step_cases hresult with ⟨_, _, _, hact, -⟩ | ⟨_, _, _, _, hact, -⟩ |
        ⟨_, -, hcreates⟩ | ⟨hact, -⟩
      · cases hact
      · cases hact
      · exact hcreates.tables.1
      · cases hact
  · cases w with
    | pass p =>
        right
        obtain ⟨queue, touched, stage⟩ := p
        cases stage with
        | create claim loaded call₂ =>
            cases hcall
            exact ⟨_, claim, loaded, hw, rfl, by simp [Worker.sends, hcommits]⟩
        | _ => cases hcall
    | operator o => cases hcall
    | api call₂ =>
        cases hcall
        exact .inl ⟨hw, by simp [Worker.commits, Worker.call?, hcommits]⟩

/-- The transaction of a call says nothing about the conversation of its message. -/
theorem origin_message (draft : MessageDraft) (ids : CreateIds) (tenantId : Uuid)
    (key : Option String) (conversationId conversationId' : Option Uuid) :
    (draft.message ids tenantId key conversationId).origin =
      (draft.message ids tenantId key conversationId').origin := rfl

/-- A message that is created under the key of a recipient fits it. -/
theorem Linked.fits_of_committed (hs : Linked s) (hguard : KeepsKeys env s a) {call : CreateCall}
    {draft : MessageDraft} {ids : CreateIds} (hcommitted : committed s a = some (call, draft, ids))
    {r : CampaignRecipient} (hr : r ∈ s.db.recipients.rows) {c : Campaign}
    (hc : c ∈ s.db.campaigns.rows) (hid : c.id = r.campaignId) (htenant : c.tenantId = call.tenantId)
    (hkey : call.dto.idempotencyKey = some (recipientIdempotencyKey r.campaignId r.contactId))
    (conversationId : Option Uuid) :
    s.db.Fits r.campaignId r.contactId
      (draft.message ids call.tenantId call.dto.idempotencyKey conversationId).origin := by
  obtain ⟨hstage, -, i, act, rfl, ⟨hi, hcommits⟩ | ⟨p, claim, loaded, hi, hpass, -⟩⟩ :=
    committed_cases env hcommitted
  · rw [origin_message draft ids call.tenantId call.dto.idempotencyKey conversationId none]
    exact hguard.creates i act call draft ids rfl hi hcommits r hr c hc hid htenant hkey
  · have hlinked := hs.stages i p hi
    rw [hpass] at hlinked
    obtain ⟨hknows, hcalls⟩ := hlinked
    obtain ⟨hcampaign, hcontact⟩ :=
      recipientIdempotencyKey_inj (Option.some.inj (hcalls.key.symm.trans hkey))
    rw [← hcampaign, ← hcontact]
    exact hcalls.fits hknows hstage ids conversationId

/-- A step that keeps the keys keeps the messages under them. -/
theorem Linked.keyed_step (hs : Linked s) (hguard : KeepsKeys env s a) (h : s.step env a = some s') :
    ∀ r ∈ s'.db.recipients.rows, ∀ c ∈ s'.db.campaigns.rows, c.id = r.campaignId →
      ∀ m ∈ s'.db.messages.rows, m.IsUnder c.tenantId r.campaignId r.contactId →
        s'.db.Fits r.campaignId r.contactId m.origin := by
  intro r' hr' c' hc' hid m' hm' hunder
  rcases messages_step h with ⟨-, -, hback⟩ | ⟨call, draft, ids, m, hcommitted, hcommit⟩
  · obtain ⟨m, hm, horigin⟩ : ∃ m ∈ s.db.messages.rows, m'.origin = m.origin := by
      rcases hback m' hm' with hold | ⟨-, hnone⟩
      · exact hold
      · rw [hunder.2] at hnone
        cases hnone
    have hunder₀ : m.IsUnder c'.tenantId r'.campaignId r'.contactId := by
      simp only [Message.origin, MessageOrigin.mk.injEq] at horigin
      exact ⟨horigin.2.1.symm.trans hunder.1, horigin.2.2.2.2.2.2.1.symm.trans hunder.2⟩
    rw [horigin]
    apply fits_step h
    rcases (recipients_step h).2 r' hr' with ⟨r, hr, rfl⟩ |
      ⟨id, contactIds, rowIds, now, hlaunch, hlaunched⟩
    · obtain ⟨-, hcampaign, hcontact⟩ := identity_recipientAfter (a := a) r
      rw [hcampaign] at hid
      rw [hcampaign, hcontact] at hunder₀ ⊢
      rcases (campaigns_step h).2 c' hc' with ⟨c, hc, rfl⟩ | ⟨-, hnew⟩
      · rw [id_campaignAfter] at hid
        rw [(identity_campaignAfter c).2.1] at hunder₀
        exact hs.keyed r hr c hc hid m hm hunder₀
      · obtain ⟨c, hc, hcid, -⟩ := hs.lawful.launched r hr
        exact absurd (hcid.trans hid.symm) (hnew c hc)
    · obtain ⟨contactId, hcontact, rowId, -, rfl⟩ := CampaignWrite.eq_of_mem_launched hlaunched
      rcases (campaigns_step h).2 c' hc' with ⟨c, hc, rfl⟩ | ⟨hinsert, -⟩
      · rw [id_campaignAfter] at hid
        rw [(identity_campaignAfter c).2.1] at hunder₀
        exact hguard.launches id contactIds rowIds now hlaunch contactId hcontact c hc hid m hm
          hunder₀
      · rw [hlaunch] at hinsert
        cases hinsert
  · obtain ⟨-, hwritten, -⟩ := committed_cases env hcommitted
    obtain ⟨hcampaigns, hrecipients⟩ : s'.db.campaigns = s.db.campaigns ∧
        s'.db.recipients = s.db.recipients := by
      rcases step_tables h with ⟨-, htables⟩ | ⟨write, hwrite, -⟩
      · exact htables
      · rw [hwritten] at hwrite
        cases hwrite
    rw [hrecipients] at hr'
    rw [hcampaigns] at hc'
    apply fits_step h
    obtain ⟨⟨conversationId, rfl⟩, hmessages, -⟩ := Db.commitCreate_spec hcommit
    rw [Table.rows_of_insert? hmessages] at hm'
    rcases List.mem_cons.mp hm' with rfl | hm'
    · exact hs.fits_of_committed hguard hcommitted hr' hc' hid (Option.some.inj hunder.1).symm
        hunder.2 conversationId
    · exact hs.keyed r' hr' c' hc' hid m' hm' hunder

/-- What is queued has its message. -/
theorem Linked.queued_step (hs : Linked s) (h : s.step env a = some s') :
    ∀ r ∈ s'.db.recipients.rows, r.status = .queued →
      ∃ m ∈ s'.db.messages.rows, r.messageId = some m.id ∧
        s'.db.Fits r.campaignId r.contactId m.origin := by
  have hkept : ∀ {campaignId contactId : Uuid} {messageId : Option Uuid},
      (∃ m ∈ s.db.messages.rows, messageId = some m.id ∧
        s.db.Fits campaignId contactId m.origin) →
      ∃ m ∈ s'.db.messages.rows, messageId = some m.id ∧
        s'.db.Fits campaignId contactId m.origin := by
    rintro campaignId contactId messageId ⟨m, hm, hid, hfits⟩
    obtain ⟨m', hm', horigin⟩ := messages_kept h m hm
    have hids : m'.id = m.id := congrArg MessageOrigin.id horigin
    exact ⟨m', hm', by rw [hid, hids], by rw [horigin]; exact fits_step h hfits⟩
  intro r' hr' hqueued
  rcases (recipients_step h).2 r' hr' with ⟨r, hr, rfl⟩ | ⟨id, contactIds, rowIds, now, -, hlaunched⟩
  · rcases recipientAfter_changes r with hsame | ⟨write, hwrite, hchanges⟩
    · rw [hsame] at hqueued ⊢
      exact hkept (hs.queued r hr hqueued)
    · generalize recipientAfter env s a r = r' at hchanges hqueued
      cases hchanges with
      | claimed _ _ _ | cancelled _ _ _ _ _ _ | failed _ _ _ _ => cases hqueued
      | completed claim result hheld =>
          rcases writes_step hwrite with ⟨_, _, _, _, _, _, _, _, -, hinsert⟩ |
            ⟨i, act, w, _, rfl, hi, -, -, hwrites⟩
          · cases hinsert
          · cases hwrites with
            | completeClaim p _ _ site hstage =>
                have hlinked := hs.stages i p hi
                rw [hstage] at hlinked
                have hclaim : p.stage.claim? = some claim := by rw [hstage]; rfl
                have hrid : r.id = claim.id := by
                  simp only [CampaignWrite.isHeld, Bool.and_eq_true, decide_eq_true_eq] at hheld
                  exact hheld.1.1
                obtain ⟨hcampaign, hcontact⟩ :=
                  ((hs.coherent i p hi).claim claim hclaim).1.row hr hrid
                obtain ⟨m, hm, hmid, hfits⟩ := hlinked hqueued
                refine hkept ⟨m, hm, ?_, ?_⟩
                · simp [ClaimResult.apply, hmid]
                · rw [show (result.apply r).campaignId = claim.campaignId from hcampaign,
                    show (result.apply r).contactId = claim.contactId from hcontact]
                  exact hfits
  · obtain ⟨_, -, _, -, rfl⟩ := CampaignWrite.eq_of_mem_launched hlaunched
    cases hqueued

/-! ## At most one message -/

/-- What a step adds to the history. -/
theorem sent_cases (h : s.step env a = some s') :
    s'.sent = s.sent ∨ ∃ (call : CreateCall) (draft : MessageDraft) (ids : CreateIds)
        (claim : CampaignRecipient) (loaded : LoadedRecipient) (i : ℕ) (p : Pass),
      committed s a = some (call, draft, ids) ∧ s.workers[i]? = some (.pass p) ∧
        p.stage = .create claim loaded call ∧
        s'.sent = (loaded.campaign.id, loaded.recipient.contactId) :: s.sent := by
  cases a with
  | worker i act =>
      obtain ⟨w, result, hw, hresult, -, rfl⟩ := worker_step h
      show (w.sends act).toList ++ s.sent = s.sent ∨ _
      rcases hsends : w.sends act with _ | x
      · exact .inl rfl
      · right
        unfold Worker.sends at hsends
        split at hsends
        · rename_i claim loaded call create
          obtain ⟨⟨draft, ids⟩, hcommits, rfl⟩ := Option.map_eq_some_iff.mp hsends
          refine ⟨call, draft, ids, claim, loaded, i, _, ?_, hw, rfl, ?_⟩
          · simp [committed, hw, Worker.commits, Worker.call?, hcommits]
          · rfl
        · cases hsends
  | tick _ | other _ | beginPass | beginOperator _ _ _ | beginApi _ _ =>
      cases h
      exact .inl rfl
  | recordConsent _ _ _ _ _ | createCampaign _ _ _ _ _ _ _ _ =>
      obtain ⟨db, -, rfl⟩ := Option.map_eq_some_iff.mp h
      exact .inl rfl

/-- The message that a pass creates, and that there was none under its key. -/
theorem Linked.sent_new (hs : Linked s) (h : s.step env a = some s') {call : CreateCall}
    {draft : MessageDraft} {ids : CreateIds} (hcommitted : committed s a = some (call, draft, ids))
    {i : ℕ} {p : Pass} {claim : CampaignRecipient} {loaded : LoadedRecipient}
    (hi : s.workers[i]? = some (.pass p)) (hstage : p.stage = .create claim loaded call) :
    (∃ c ∈ s.db.campaigns.rows, c.id = loaded.campaign.id ∧
      (∀ m ∈ s.db.messages.rows,
        ¬m.IsUnder c.tenantId loaded.campaign.id loaded.recipient.contactId) ∧
      ∃ m ∈ s'.db.messages.rows,
        m.IsUnder c.tenantId loaded.campaign.id loaded.recipient.contactId) := by
  have hlinked := hs.stages i p hi
  rw [hstage] at hlinked
  obtain ⟨hknows, hcalls⟩ := hlinked
  obtain ⟨c, hc, hid, htenant, -⟩ := hknows.campaign
  refine ⟨c, hc, hid, ?_⟩
  rcases messages_step h with ⟨hnone, -⟩ | ⟨call₁, draft₁, ids₁, m, hsome, hcommit⟩
  · rw [hnone] at hcommitted
    cases hcommitted
  · rw [hsome] at hcommitted
    cases hcommitted
    obtain ⟨⟨conversationId, rfl⟩, hmessages, -⟩ := Db.commitCreate_spec hcommit
    have hunder : (draft.message ids call.tenantId call.dto.idempotencyKey conversationId).IsUnder
        c.tenantId loaded.campaign.id loaded.recipient.contactId :=
      ⟨by rw [htenant, ← hcalls.tenantId]; rfl, hcalls.key⟩
    refine ⟨fun m hm hm' => ?_, _, ?_, hunder⟩
    · have hfree := Table.find_eq_none_of_insert? hmessages (mem_keys_idempotencyKey.mpr hunder)
      exact s.db.messages.find_eq_none_iff.mp hfree m hm (mem_keys_idempotencyKey.mpr hm')
    · rw [Table.rows_of_insert? hmessages]
      exact List.mem_cons_self

/-- What was sent has its message. -/
theorem Linked.sent_step (hs : Linked s) (h : s.step env a = some s') :
    ∀ x ∈ s'.sent, ∃ c ∈ s'.db.campaigns.rows, c.id = x.1 ∧
      ∃ m ∈ s'.db.messages.rows, m.IsUnder c.tenantId x.1 x.2 := by
  have hkept : ∀ x ∈ s.sent, ∃ c ∈ s'.db.campaigns.rows, c.id = x.1 ∧
      ∃ m ∈ s'.db.messages.rows, m.IsUnder c.tenantId x.1 x.2 := by
    intro x hx
    obtain ⟨c, hc, hid, m, hm, hunder⟩ := hs.sent x hx
    obtain ⟨c', hc', hid', htenant', -⟩ := campaign_kept h hc
    obtain ⟨m', hm', horigin⟩ := messages_kept h m hm
    simp only [Message.origin, MessageOrigin.mk.injEq] at horigin
    refine ⟨c', hc', hid'.trans hid, m', hm', ?_, horigin.2.2.2.2.2.2.1.trans hunder.2⟩
    rw [htenant']
    exact horigin.2.1.trans hunder.1
  rcases sent_cases h with hsame |
    ⟨call, draft, ids, claim, loaded, i, p, hcommitted, hi, hstage, hsent⟩
  · rw [hsame]
    exact hkept
  · rw [hsent]
    intro x hx
    rcases List.mem_cons.mp hx with rfl | hx
    · obtain ⟨c, hc, hid, -, m, hm, hunder⟩ := hs.sent_new h hcommitted hi hstage
      obtain ⟨c', hc', hid', htenant', -⟩ := campaign_kept h hc
      exact ⟨c', hc', hid'.trans hid, m, hm, by rw [htenant']; exact hunder⟩
    · exact hkept x hx

/-- Nothing is sent twice. -/
theorem Linked.once_step (hs : Linked s) (h : s.step env a = some s') : s'.sent.Nodup := by
  rcases sent_cases h with hsame |
    ⟨call, draft, ids, claim, loaded, i, p, hcommitted, hi, hstage, hsent⟩
  · rw [hsame]
    exact hs.once
  · rw [hsent]
    refine List.nodup_cons.mpr ⟨fun hmem => ?_, hs.once⟩
    obtain ⟨c, hc, hid, hfree, -⟩ := hs.sent_new h hcommitted hi hstage
    obtain ⟨c₀, hc₀, hid₀, m, hm, hunder⟩ := hs.sent _ hmem
    obtain rfl := Db.eq_of_campaign_id hc hc₀ (hid.trans hid₀.symm)
    exact hfree m hm hunder

/-- The numbers of the contacts are normalised. -/
theorem Linked.numbers_step (hs : Linked s) (h : s.step env a = some s') :
    ∀ c ∈ s'.db.contacts.rows, normalizePhoneNumber c.phone = .ok c.phone := by
  intro c' hc'
  rcases (contacts_step h).2 c' hc' with ⟨c, hc, hstanding⟩ | ⟨-, hnumber⟩ |
    ⟨c, hc, _, _, _, _, -, rfl⟩
  · simp only [Contact.standing, Prod.mk.injEq] at hstanding
    rw [hstanding.2.2.1]
    exact hs.numbers c hc
  · exact hnumber
  · exact hs.numbers c hc

/-- **One step keeps the invariant.** -/
theorem Linked.step (hs : Linked s) (hguard : KeepsKeys env s a) (h : s.step env a = some s') :
    Linked s' where
  lawful := hs.lawful.step h
  coherent := hs.coherent.step h
  numbers := hs.numbers_step h
  stages := hs.stages_step h
  keyed := hs.keyed_step hguard h
  queued := hs.queued_step h
  sent := hs.sent_step h
  once := hs.once_step h

/-- The invariant holds in every state that is reached. -/
theorem linked_of_reaches {clock : Time}
    (h : Reaches (CampaignSystem.step env) (KeepsKeys env) (start clock) s) : Linked s :=
  Reaches.invariant h (Linked.start clock) fun _ _ _ hx hguard hstep => hx.step hguard hstep

/-- **The messages of campaigns.** In every run in which API clients keep off the keys of recipients,
passes have created at most one message for each campaign and contact, and every recipient that is
`QUEUED` refers to a template message to its contact's number, from the campaign's sender, with the
name and the language of the campaign's template. -/
theorem campaign_messages {clock : Time}
    (h : Reaches (CampaignSystem.step env) (KeepsKeys env) (start clock) s) :
    s.sent.Nodup ∧ ∀ r ∈ s.db.recipients.rows, r.status = .queued →
      ∃ m ∈ s.db.messages.rows, r.messageId = some m.id ∧
        s.db.Fits r.campaignId r.contactId m.origin := by
  have hs := linked_of_reaches h
  exact ⟨hs.once, hs.queued⟩

/-- The act commits no message of an API call. -/
def isSilent (s : CampaignSystem) : Act → Bool
  | .worker i act => s.workers[i]?.all fun
      | .api call => ((Worker.api call).commits act).isNone
      | _ => true
  | _ => true

/-- A silent step keeps the keys. -/
theorem keepsKeys_of_isSilent (hsilent : s.isSilent a = true)
    (hlaunch : (written env s a).all (fun
      | .launch _ _ _ _ => s.db.messages.rows.isEmpty
      | _ => true) = true) : KeepsKeys env s a where
  creates := by
    rintro i act call draft ids rfl hi hcommits
    simp [isSilent, hi, hcommits] at hsilent
  launches := by
    intro id contactIds rowIds now hwrite contactId hcontact c hc hid m hm
    simp only [hwrite, Option.all_some, List.isEmpty_iff] at hlaunch
    rw [hlaunch] at hm
    cases hm

/-- A pass sends the only message of a campaign. -/
theorem campaign_messages_sent : ∃ s r,
    Reaches (CampaignSystem.step sampleCampaignEnv) (KeepsKeys sampleCampaignEnv) (start 0) s ∧
      s.sent = [(20, 8)] ∧ s.sent.Nodup ∧ r ∈ s.db.recipients.rows ∧ r.status = .queued ∧
      ∃ m ∈ s.db.messages.rows, r.messageId = some m.id ∧
        s.db.Fits r.campaignId r.contactId m.origin := by
  have hrun : ((exec (CampaignSystem.step sampleCampaignEnv) (start 0)
      (sampleLaunch ++ sampleClaim 1 ++ sampleCreate 1 ++ sampleFinish 1)).any fun s =>
        (s.sent = [(20, 8)]) && s.db.recipients.rows.any fun r => r.status = .queued) = true := by
    decide
  have hguard : ∀ x ∈ trace (CampaignSystem.step sampleCampaignEnv) (start 0)
      (sampleLaunch ++ sampleClaim 1 ++ sampleCreate 1 ++ sampleFinish 1),
      (x.1.isSilent x.2.1 && (written sampleCampaignEnv x.1 x.2.1).all (fun
        | .launch _ _ _ _ => x.1.db.messages.rows.isEmpty
        | _ => true)) = true := by
    decide
  obtain ⟨s, hs, hstate⟩ := (Option.any_eq_true _ _).mp hrun
  simp only [Bool.and_eq_true, decide_eq_true_eq, List.any_eq_true] at hstate
  obtain ⟨hsent, r, hr, hqueued⟩ := hstate
  have hreach : Reaches (CampaignSystem.step sampleCampaignEnv) (KeepsKeys sampleCampaignEnv)
      (start 0) s := by
    refine Reaches.of_exec hs fun x hx => ?_
    obtain ⟨hsilent, hlaunch⟩ := Bool.and_eq_true_iff.mp (hguard x hx)
    exact keepsKeys_of_isSilent hsilent hlaunch
  obtain ⟨honce, hlinked⟩ := campaign_messages hreach
  exact ⟨s, r, hreach, hsent, honce, hr, hqueued, hlinked r hr hqueued⟩

/-- A client of the tenant sends a text message under the key of the recipient, which is known to
everyone who can read the campaign. -/
def sampleTakenKey : List Act :=
  sampleLaunch ++ [.beginApi 1 { sampleDto with idempotencyKey := some "campaign:20:contact:8" }] ++
    List.replicate 4 (.worker 1 (.create (.call .returned sampleIds))) ++ sampleClaim 2 ++
    [.returns 2 []]

/-- **A taken key.** The recipient is `QUEUED` with a text message that the campaign has not sent. -/
theorem taken_key : ¬∀ s, Reachable (CampaignSystem.step sampleCampaignEnv) (start 0) s →
    s.sent.Nodup ∧ ∀ r ∈ s.db.recipients.rows, r.status = .queued →
      ∃ m ∈ s.db.messages.rows, r.messageId = some m.id ∧
        s.db.Fits r.campaignId r.contactId m.origin := by
  intro hall
  have hrun : ((exec (CampaignSystem.step sampleCampaignEnv) (start 0) sampleTakenKey).any fun s =>
      (s.db.recipients.rows.any fun r => r.status = .queued) &&
        s.db.messages.rows.all fun m => m.type = .text) = true := by
    decide
  obtain ⟨s, hs, hstate⟩ := (Option.any_eq_true _ _).mp hrun
  simp only [Bool.and_eq_true, decide_eq_true_eq, List.any_eq_true, List.all_eq_true] at hstate
  obtain ⟨⟨r, hr, hqueued⟩, htext⟩ := hstate
  obtain ⟨m, hm, -, hfits⟩ := (hall s (Reachable.of_exec hs)).2 r hr hqueued
  have htype : m.type = .template := hfits.type
  rw [htext m hm] at htype
  cases htype

end CampaignSystem

end ApiWhatsApp
