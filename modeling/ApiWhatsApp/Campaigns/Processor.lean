import ApiWhatsApp.Campaigns.Lifecycle

/-!
# The campaign processor

`campaigns/campaign-processor.service.ts`: one `processPending`, stopped at every `await`.

* `Pass` promotes, claims, runs `processRecipient` for each claim, and then `refreshStats` for each
  campaign it touched. Its `catch` clauses are the `threw` of its calls: an error in
  `processRecipient` leads to `retryOrFail`, an error of that ends the pass.
* `Refresh` is `refreshStats`.
* **`Pass.returned_cases`**, `threw_cases` and `run_cases` say how a pass can go on.

Every `new Date()` is chosen by the environment, so the clocks of replicas may differ in any way.
`renderCampaignComponents` and `normalizeMediaPayload` are parameters.
-/

namespace ApiWhatsApp

open Library

/-! ## What `processRecipient` reads and decides -/

/-- Source: `campaign-personalization.util.ts`. -/
inductive PersonalizationError where
  | value (message : String)
  | template (message : String)

/-- Settings, and the two functions that the model leaves open. -/
structure CampaignEnv where
  config : CampaignConfig
  normalizeMediaPayload : OutboundMessageType → Json → Except String Json
  renderCampaignComponents : Json → Contact → Except PersonalizationError Json

/-- The recipient with the rows it refers to. -/
structure LoadedRecipient where
  recipient : CampaignRecipient
  contact : Contact
  campaign : Campaign
  sender : WhatsAppPhoneNumber
  template : MessageTemplate

/-- The `findUnique` of `processRecipient`; foreign keys guarantee all rows but the first. -/
def Db.loadRecipient (db : Db) (id : Uuid) : Option LoadedRecipient := do
  let recipient ← db.recipients.find (.id id)
  let contact ← db.contacts.find (.id recipient.contactId)
  let campaign ← db.campaigns.find recipient.campaignId
  let sender ← db.phoneNumbers.find (.id campaign.senderId)
  let template ← db.templates.find (.id campaign.templateId)
  some { recipient := recipient, contact := contact, campaign := campaign, sender := sender,
         template := template }

/-- Source: `recipientIdempotencyKey`. -/
def recipientIdempotencyKey (campaignId contactId : Uuid) : String :=
  "campaign:" ++ campaignId.text ++ ":contact:" ++ contactId.text

/-- Source: `configurationError`. -/
def configurationError (sender : WhatsAppPhoneNumber) (template : MessageTemplate) :
    Option String :=
  if !sender.active || (sender.wabaId.filter fun wabaId => wabaId ≠ "").isNone then
    some "Campaign sender is inactive or missing its WABA ID"
  else if some template.wabaId ≠ sender.wabaId then
    some "Campaign template no longer belongs to the sender WABA"
  else if toUpperCase template.status ≠ "APPROVED" then
    some s!"Campaign template is no longer APPROVED ({template.status})"
  else if template.category.map toUpperCase ≠ some "MARKETING" then
    some "Campaign template is no longer categorized as MARKETING"
  else none

/-- The components of the message, `none` when the campaign has no list of them.
Source: `renderComponents` and the code that calls it. -/
def CampaignEnv.components (env : CampaignEnv) (loaded : LoadedRecipient) :
    Except PersonalizationError (Option Json) :=
  match loaded.campaign.components with
  | some (.arr items) =>
      if loaded.campaign.personalizationEnabled then
        match env.renderCampaignComponents (.arr items) loaded.contact with
        | .ok (.arr rendered) => .ok (some (.arr rendered))
        | .ok _ => .error (.template "Campaign components must render to an array")
        | .error error => .error error
      else .ok (some (.arr items))
  | _ => .ok none

/-- What `processRecipient` passes to `messages.create`. -/
def LoadedRecipient.dto (loaded : LoadedRecipient) (components : Option Json) :
    CreateMessageDto where
  to_ := loaded.contact.phone
  type := .template
  senderId := some loaded.campaign.senderId
  payload := .obj ([("name", .str loaded.template.name),
    ("language", .str loaded.template.language)] ++
      (components.map fun items => ("components", items)).toList)
  idempotencyKey :=
    some (recipientIdempotencyKey loaded.campaign.id loaded.recipient.contactId)

namespace ClaimResult

/-- Source: `completeAsQueued`. -/
def queued (messageId : Uuid) (now : Time) : ClaimResult where
  status := .queued
  nextAttemptAt := none
  lastError := none
  messageId := some messageId
  queuedAt := some now

/-- A claim that ends without a message. -/
def ended (status : CampaignRecipientStatus) (lastError : String) : ClaimResult where
  status := status
  nextAttemptAt := none
  lastError := some lastError
  messageId := none
  queuedAt := none

/-- A claim that is given back. -/
def requeued (nextAttemptAt : Time) (lastError : Option String) : ClaimResult where
  status := .pending
  nextAttemptAt := some nextAttemptAt
  lastError := lastError
  messageId := none
  queuedAt := none

/-- Source: `completeForCampaignState`. -/
def forCampaignState (status : CampaignStatus) (failureReason : Option String) (now : Time) :
    ClaimResult :=
  match status with
  | .cancelled => ended .cancelled "Campaign cancelled while recipient was in flight"
  | .failed => ended .failed (failureReason.getD "Campaign failed while recipient was in flight")
  | .paused | .scheduled => requeued now none
  | .completed => ended .cancelled "Campaign completed before this recipient claim could finish"
  | .draft | .running => requeued now none

/-- Source: `retryOrFail`. -/
def retryOrFail (config : CampaignConfig) (claim : CampaignRecipient) (message : String)
    (now : Time) : ClaimResult :=
  if config.maxAttempts ≤ claim.attemptCount then ended .failed (slice message 2000)
  else requeued (now + min 60000 (1000 * 2 ^ min (claim.attemptCount - 1) 6))
    (some (slice message 2000))

/-- A result that ends the claim, without a message. -/
def isUnlinked (result : ClaimResult) : Bool :=
  result.messageId.isNone && result.status ≠ .queued && result.status ≠ .processing

end ClaimResult

/-! ## `refreshStats` -/

/-- Where `refreshStats` stands. -/
inductive RefreshStage where
  | aggregate
  | store (counts : RecipientCounts)
  | complete

/-- One call of `refreshStats`. -/
structure Refresh where
  campaignId : Uuid
  stage : RefreshStage

/-- A pending call: what it writes, and how its caller goes on. -/
structure PendingCall (α : Type) where
  write : Option CampaignWrite
  returned : α
  threw : String → α

/-- How the caller goes on after an outcome. -/
def PendingCall.next {α : Type} (call : PendingCall α) : CallOutcome → α
  | .returned => call.returned
  | .interrupted error | .failed error => call.threw error

/-- A call goes on with what it returns, or fails. -/
theorem PendingCall.next_cases {α : Type} (call : PendingCall α) (outcome : CallOutcome) :
    (outcome = .returned ∧ call.next outcome = call.returned) ∨
      (outcome ≠ .returned ∧ ∃ e, call.next outcome = call.threw e) := by
  cases outcome with
  | returned => exact .inl ⟨rfl, rfl⟩
  | interrupted e => exact .inr ⟨by simp, e, rfl⟩
  | failed e => exact .inr ⟨by simp, e, rfl⟩

/-- The pending statement of `refreshStats`; `none` after it means that the call has returned. -/
def Refresh.pending (db : Db) (now : Time) (r : Refresh) :
    Option CampaignWrite × Option Refresh :=
  match r.stage with
  | .aggregate => (none, some { r with stage := .store (db.recipientCounts r.campaignId) })
  | .store counts =>
      (some (.storeCounts r.campaignId counts),
        if (db.campaigns.find r.campaignId).isSome && counts.pending = 0 && counts.processing = 0
        then some { r with stage := .complete } else none)
  | .complete => (some (.complete r.campaignId now), none)

/-- A refresh stays with its campaign. -/
theorem Refresh.campaignId_of_pending {db : Db} {now : Time} {r r' : Refresh}
    (h : (r.pending db now).2 = some r') : r'.campaignId = r.campaignId := by
  unfold Refresh.pending at h
  split at h
  · cases h
    rfl
  · simp only at h
    split_ifs at h
    cases h
    rfl
  · cases h

/-! ## One pass -/

/-- Where a `completeClaim` stands, for what its error leads to: inside the `try` of
`processRecipient`, elsewhere in it, or in the `catch` of `processPending`. -/
inductive CompletionSite where
  | tried
  | processing
  | recovering

/-- Where a pass stands. -/
inductive PassStage where
  | promote
  | claim
  | next
  | load (claim : CampaignRecipient)
  | lookup (claim : CampaignRecipient) (loaded : LoadedRecipient)
  | create (claim : CampaignRecipient) (loaded : LoadedRecipient) (call : CreateCall)
  | fail (claim : CampaignRecipient) (campaignId : Uuid) (reason : String)
  /-- The transaction of `failCampaign` has run its statements. -/
  | failing (claim : CampaignRecipient) (campaignId : Uuid) (reason : String)
      (pending : List Uuid)
  | current (claim : CampaignRecipient) (campaignId : Uuid) (reason : String)
  | complete (claim : CampaignRecipient) (result : ClaimResult) (site : CompletionSite)
  | refresh (refresh : Refresh) (rest : List Uuid)
  | finished
  | crashed

/-- The claim that a pass is working on. -/
def PassStage.claim? : PassStage → Option CampaignRecipient
  | .load r | .lookup r _ | .create r _ _ | .fail r _ _ | .failing r _ _ _ | .current r _ _
  | .complete r _ _ => some r
  | .promote | .claim | .next | .refresh _ _ | .finished | .crashed => none

/-- The stages in which an error of the pending call ends the pass. -/
def PassStage.stopsAtError : PassStage → Bool
  | .promote | .claim | .refresh _ _ | .complete _ _ .recovering => true
  | _ => false

/-- One `processPending`: the claims that it has not begun, the campaigns it has touched, and where
it stands. -/
structure Pass where
  queue : List CampaignRecipient
  touched : List Uuid
  stage : PassStage

/-- The recipients of a campaign that are pending. -/
def Db.pendingRecipients (db : Db) (campaignId : Uuid) : List Uuid :=
  (db.recipients.rows.filter fun r => r.campaignId = campaignId && r.status = .pending).map
    CampaignRecipient.id

/-- The next `refreshStats` of a pass. -/
def PassStage.refreshing : List Uuid → PassStage
  | [] => .finished
  | campaignId :: rest => .refresh { campaignId := campaignId, stage := .aggregate } rest

namespace Pass

variable (env : CampaignEnv)

/-- A new pass. -/
def begin : Pass where
  queue := []
  touched := []
  stage := .promote

/-- `retryOrFail`, up to its update. -/
def retryOrFail (p : Pass) (claim : CampaignRecipient) (now : Time) (site : CompletionSite)
    (message : String) : Pass :=
  { p with stage := .complete claim (.retryOrFail env.config claim message now) site }

/-- What `processRecipient` does once no message is found under the key. -/
def process (claim : CampaignRecipient) (loaded : LoadedRecipient) (now : Time) : PassStage :=
  if loaded.campaign.status ≠ .running then
    .complete claim
      (.forCampaignState loaded.campaign.status loaded.campaign.failureReason now) .processing
  else match configurationError loaded.sender loaded.template with
    | some error => .fail claim loaded.campaign.id error
    | none =>
        match env.components loaded with
        | .ok components =>
            .create claim loaded (.begin loaded.campaign.tenantId (loaded.dto components))
        | .error (.value message) =>
            .complete claim (.ended .skipped (slice message 2000)) .processing
        | .error (.template message) => .fail claim loaded.campaign.id (slice message 2000)

/-- The statements of `failCampaign`: without a campaign to update it returns `false`. -/
def failing (db : Db) (claim : CampaignRecipient) (campaignId : Uuid) (reason : String) :
    PassStage :=
  if (db.campaigns.find campaignId).any (CampaignWrite.failCampaign campaignId reason []).targets then
    .failing claim campaignId reason (db.pendingRecipients campaignId)
  else .current claim campaignId reason

/-- The code between two calls. -/
def run (now : Time) (p : Pass) : Option Pass :=
  match p.stage, p.queue with
  | .next, [] => some { p with stage := .refreshing p.touched }
  | .next, claim :: queue =>
      let touched :=
        if claim.campaignId ∈ p.touched then p.touched else p.touched ++ [claim.campaignId]
      some { queue := queue, touched := touched, stage := .load claim }
  | .create claim loaded call, _ =>
      match call.stage with
      | .returned message =>
          some { p with stage := .complete claim (.queued message.id now) .tried }
      | .thrown (.forbidden message) =>
          some { p with stage := .complete claim (.ended .skipped (slice message 2000)) .processing }
      | .thrown (.unprocessable message) =>
          some { p with stage := .fail claim loaded.campaign.id (slice message 2000) }
      | .thrown error => some (p.retryOrFail env claim now .processing error.message)
      | _ => none
  | _, _ => none

/-- The rows that the claiming statement returns. -/
def claimedQueue (db : Db) (clock leaseUntil : Time) (ids : List Uuid) : List CampaignRecipient :=
  ids.filterMap fun id =>
    ((db.recipients.find (.id id)).filter (CampaignWrite.claims db clock ids)).map
      (CampaignWrite.claimed leaseUntil)

/-- The pending call of a pass, other than those of `messages.create`. -/
def pending (db : Db) (clock now : Time) (ids : List Uuid) (p : Pass) :
    Option (PendingCall Pass) :=
  match p.stage with
  | .promote => some
      { write := some (.promoteScheduledCampaigns now)
        returned := { p with stage := .claim }
        threw := fun _ => { p with stage := .finished } }
  | .claim =>
      if ids.length ≤ env.config.batchSize && ids.Nodup then some
        { write := some (.claimRecipients (now + env.config.leaseMs) ids)
          returned :=
            { p with
              queue := claimedQueue db clock (now + env.config.leaseMs) ids
              stage := .next }
          threw := fun _ => { p with stage := .finished } }
      else none
  | .load claim => some
      { write := none
        returned := { p with stage := match db.loadRecipient claim.id with
          | none => .next
          | some loaded => .lookup claim loaded }
        threw := p.retryOrFail env claim now .recovering }
  | .lookup claim loaded =>
      let key := recipientIdempotencyKey loaded.campaign.id loaded.recipient.contactId
      some
        { write := none
          returned := { p with stage :=
            match db.messages.find (.idempotencyKey loaded.campaign.tenantId key) with
            | some message => .complete claim (.queued message.id now) .processing
            | none => process env claim loaded now }
          threw := p.retryOrFail env claim now .recovering }
  | .fail claim campaignId reason => some
      { write := none
        returned := { p with stage := failing db claim campaignId reason }
        threw := p.retryOrFail env claim now .recovering }
  | .failing claim campaignId reason pending => some
      { write := some (.failCampaign campaignId (slice reason 2000) pending)
        returned := { p with stage := .complete claim (.ended .failed reason) .processing }
        threw := p.retryOrFail env claim now .recovering }
  | .current claim campaignId reason => some
      { write := none
        returned := { p with stage := match db.campaigns.find campaignId with
          | none => .next
          | some c => .complete claim
              (.forCampaignState c.status (some (c.failureReason.getD reason)) now) .processing }
        threw := p.retryOrFail env claim now .recovering }
  | .complete claim result site => some
      { write := some (.completeClaim claim result)
        returned := { p with stage := .next }
        threw := fun message => match site with
          | .tried => p.retryOrFail env claim now .processing message
          | .processing => p.retryOrFail env claim now .recovering message
          | .recovering => { p with stage := .finished } }
  | .refresh refresh rest =>
      let (write, next) := refresh.pending db now
      some
        { write := write
          returned := { p with stage := match next with
            | some refresh => .refresh refresh rest
            | none => .refreshing rest }
          threw := fun _ => { p with stage := .finished } }
  | .next | .create _ _ _ | .finished | .crashed => none

/-! ## What a pass can do next -/

/-- How a pass goes on with a claim: after a call that returned or threw, or after
`messages.create`. A claim ends without a message in every way but two. -/
inductive Follows (env : CampaignEnv) (db : Db) (now : Time) (claim : CampaignRecipient) :
    PassStage → PassStage → Prop where
  | loaded (loaded : LoadedRecipient) (h : db.loadRecipient claim.id = some loaded) :
      Follows env db now claim (.load claim) (.lookup claim loaded)
  | found (loaded : LoadedRecipient) (message : Message)
      (h : db.messages.find (.idempotencyKey loaded.campaign.tenantId
        (recipientIdempotencyKey loaded.campaign.id loaded.recipient.contactId)) = some message) :
      Follows env db now claim (.lookup claim loaded)
        (.complete claim (.queued message.id now) .processing)
  | creating (loaded : LoadedRecipient) (components : Option Json) :
      Follows env db now claim (.lookup claim loaded)
        (.create claim loaded (.begin loaded.campaign.tenantId (loaded.dto components)))
  | created (loaded : LoadedRecipient) (call : CreateCall) (message : Message)
      (h : call.stage = .returned message) :
      Follows env db now claim (.create claim loaded call)
        (.complete claim (.queued message.id now) .tried)
  | misconfigured (loaded : LoadedRecipient) (reason : String) :
      Follows env db now claim (.lookup claim loaded) (.fail claim loaded.campaign.id reason)
  | rejected (loaded : LoadedRecipient) (call : CreateCall) (reason : String) :
      Follows env db now claim (.create claim loaded call) (.fail claim loaded.campaign.id reason)
  | failing (campaignId : Uuid) (reason : String) (c : Campaign)
      (hc : db.campaigns.find campaignId = some c)
      (h : (CampaignWrite.failCampaign campaignId reason []).targets c = true) :
      Follows env db now claim (.fail claim campaignId reason)
        (.failing claim campaignId reason (db.pendingRecipients campaignId))
  | current (campaignId : Uuid) (reason : String) :
      Follows env db now claim (.fail claim campaignId reason) (.current claim campaignId reason)
  | ended (stage : PassStage) (result : ClaimResult) (site : CompletionSite)
      (hclaim : stage.claim? = some claim) (h : result.isUnlinked = true) :
      Follows env db now claim stage (.complete claim result site)
  | dropped (stage : PassStage) (hclaim : stage.claim? = some claim) :
      Follows env db now claim stage .next

variable {env} {db : Db} {clock now : Time} {ids : List Uuid} {p p' : Pass}
  {call : PendingCall Pass} {claim : CampaignRecipient} {stage stage' : PassStage}

/-- Who follows a claim holds it before. -/
theorem Follows.claim_before (h : Follows env db now claim stage stage') :
    stage.claim? = some claim := by
  cases h <;> first | rfl | assumption

/-- Who follows a claim holds it afterwards, or goes on. -/
theorem Follows.claim_after (h : Follows env db now claim stage stage') :
    stage' = .next ∨ stage'.claim? = some claim := by
  cases h with
  | dropped _ _ => exact .inl rfl
  | _ => exact .inr rfl

/-- A retry has no message. -/
theorem isUnlinked_retryOrFail (claim : CampaignRecipient) (message : String) (now : Time) :
    (ClaimResult.retryOrFail env.config claim message now).isUnlinked = true := by
  unfold ClaimResult.retryOrFail
  split_ifs <;> rfl

/-- What the state of the campaign decides has no message. -/
theorem isUnlinked_forCampaignState (status : CampaignStatus) (reason : Option String)
    (now : Time) : (ClaimResult.forCampaignState status reason now).isUnlinked = true := by
  cases status <;> rfl

/-- A pass follows its claim. -/
theorem follows_process (claim : CampaignRecipient) (loaded : LoadedRecipient) (now : Time) :
    Follows env db now claim (.lookup claim loaded) (process env claim loaded now) := by
  unfold process
  split_ifs
  · exact .ended _ _ _ rfl (isUnlinked_forCampaignState _ _ _)
  · split
    · exact .misconfigured loaded _
    · split
      · exact .creating loaded _
      · exact .ended _ _ _ rfl rfl
      · exact .misconfigured loaded _

/-- After an error a pass ends, or it tries to give its claim back. -/
theorem threw_cases (h : p.pending env db clock now ids = some call) (e : String) :
    (p.stage.stopsAtError = true ∧ call.threw e = { p with stage := .finished }) ∨
      ∃ claim result site, p.stage.claim? = some claim ∧ result.isUnlinked = true ∧
        call.threw e = { p with stage := .complete claim result site } := by
  have hretry : ∀ {claim : CampaignRecipient} {site : CompletionSite},
      call.threw e = p.retryOrFail env claim now site e → p.stage.claim? = some claim →
      ∃ claim result site, p.stage.claim? = some claim ∧ result.isUnlinked = true ∧
        call.threw e = { p with stage := .complete claim result site } := by
    intro claim site hthrew hclaim
    exact ⟨claim, _, site, hclaim, isUnlinked_retryOrFail claim e now, hthrew⟩
  unfold Pass.pending at h
  split at h
  case h_1 hstage =>
    cases h
    exact .inl ⟨by rw [hstage]; rfl, rfl⟩
  case h_2 hstage =>
    split_ifs at h
    cases h
    exact .inl ⟨by rw [hstage]; rfl, rfl⟩
  case h_8 claim result site hstage =>
    cases h
    cases site with
    | recovering => exact .inl ⟨by rw [hstage]; rfl, rfl⟩
    | tried | processing => exact .inr (hretry rfl (by rw [hstage]; rfl))
  case h_9 refresh rest hstage =>
    cases h
    exact .inl ⟨by rw [hstage]; rfl, rfl⟩
  all_goals cases h
  all_goals rename_i hstage
  all_goals exact .inr (hretry rfl (by rw [hstage]; rfl))

/-- What a pass does after a call that returned. -/
theorem returned_cases (h : p.pending env db clock now ids = some call) :
    (p.stage = .promote ∧ call.returned = { p with stage := .claim }) ∨
      (p.stage = .claim ∧ call.returned =
        { p with queue := claimedQueue db clock (now + env.config.leaseMs) ids, stage := .next }) ∨
      (∃ claim stage, Follows env db now claim p.stage stage ∧
        call.returned = { p with stage := stage }) ∨
      ∃ refresh rest, p.stage = .refresh refresh rest ∧ call.returned = { p with stage :=
        match (refresh.pending db now).2 with
        | some refresh => .refresh refresh rest
        | none => .refreshing rest } := by
  unfold Pass.pending at h
  split at h
  case h_1 hstage =>
    cases h
    exact .inl ⟨hstage, rfl⟩
  case h_2 hstage =>
    split_ifs at h
    cases h
    exact .inr (.inl ⟨hstage, rfl⟩)
  case h_3 claim hstage =>
    cases h
    refine .inr (.inr (.inl ⟨claim, _, ?_, rfl⟩))
    rw [hstage]
    split
    · exact .dropped _ rfl
    · exact .loaded _ ‹_›
  case h_4 claim loaded hstage =>
    cases h
    refine .inr (.inr (.inl ⟨claim, _, ?_, rfl⟩))
    rw [hstage]
    split
    · exact .found loaded _ ‹_›
    · exact follows_process claim loaded now
  case h_5 claim campaignId reason hstage =>
    cases h
    refine .inr (.inr (.inl ⟨claim, _, ?_, rfl⟩))
    rw [hstage]
    unfold Pass.failing
    split_ifs with htargets
    · obtain ⟨c, hc, ht⟩ := (Option.any_eq_true _ _).mp htargets
      exact .failing campaignId reason c hc ht
    · exact .current campaignId reason
  case h_6 claim campaignId reason pending hstage =>
    cases h
    refine .inr (.inr (.inl ⟨claim, _, ?_, rfl⟩))
    rw [hstage]
    exact .ended _ _ _ rfl rfl
  case h_7 claim campaignId reason hstage =>
    cases h
    refine .inr (.inr (.inl ⟨claim, _, ?_, rfl⟩))
    rw [hstage]
    split
    · exact .dropped _ rfl
    · exact .ended _ _ _ rfl (isUnlinked_forCampaignState _ _ _)
  case h_8 claim result site hstage =>
    cases h
    exact .inr (.inr (.inl ⟨claim, _, .dropped _ (by rw [hstage]; rfl), rfl⟩))
  case h_9 refresh rest hstage =>
    cases h
    exact .inr (.inr (.inr ⟨refresh, rest, hstage, rfl⟩))
  all_goals cases h

/-- What the code between two calls does. -/
theorem run_cases (db : Db) (h : p.run env now = some p') :
    (p.stage = .next ∧ p.queue = [] ∧ p' = { p with stage := .refreshing p.touched }) ∨
      (∃ claim, p.stage = .next ∧ p.queue = claim :: p'.queue ∧ p'.stage = .load claim ∧
        p'.touched =
          if claim.campaignId ∈ p.touched then p.touched else p.touched ++ [claim.campaignId]) ∨
      ∃ claim loaded call stage, p.stage = .create claim loaded call ∧
        Follows env db now claim p.stage stage ∧ p' = { p with stage := stage } := by
  unfold Pass.run at h
  split at h
  · rename_i hstage hqueue
    cases h
    exact .inl ⟨hstage, hqueue, rfl⟩
  · rename_i claim queue hstage hqueue
    cases h
    exact .inr (.inl ⟨claim, hstage, hqueue, rfl, rfl⟩)
  · rename_i claim loaded call hstage
    refine .inr (.inr ⟨claim, loaded, call, ?_⟩)
    rw [hstage]
    split at h
    · cases h
      exact ⟨_, rfl, .created loaded call _ ‹_›, rfl⟩
    · cases h
      exact ⟨_, rfl, .ended _ _ _ rfl rfl, rfl⟩
    · cases h
      exact ⟨_, rfl, .rejected loaded call _, rfl⟩
    · cases h
      exact ⟨_, rfl, .ended _ _ _ rfl (isUnlinked_retryOrFail _ _ _), rfl⟩
    · cases h
  · cases h

end Pass

end ApiWhatsApp
