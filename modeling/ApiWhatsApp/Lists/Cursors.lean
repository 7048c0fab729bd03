import ApiWhatsApp.Library.Machine
import ApiWhatsApp.Library.Paging
import ApiWhatsApp.Messages.Create

/-!
# Lists with a cursor row

`MessagesService.list`, `CampaignsService.listRecipients`, `InboxService.listConversations` and
`TemplatesService.list` end in the same query: the rows that match, from the row of the cursor on, less
one. The database looks that row up when it reads the page, and by then another request may have
changed it. A row that no longer matches is not there to be skipped, and the next one is; a row that
has moved up takes the page back to rows that were returned already.

* `listMessages`, `listRecipients`, `listConversations` and `listTemplates` — the filters and orders.
* `ListRun.step` is one walk among other requests, which may do anything to the table.
* **`cursor_lists`** — a walk loses and repeats nothing as long as every page is read from a row that
  is `Anchored`. `lost_and_repeated` has walks that go wrong.

Campaigns are never deleted, so the lookup of the campaign before a list of its recipients is left out.
-/

namespace ApiWhatsApp

open Library

/-! ## The lists -/

/-- The order of a list: by a time and then by the id. -/
abbrev Ascending := Time ×ₗ Uuid

/-- The same with both turned round. -/
abbrev Descending := Timeᵒᵈ ×ₗ Uuidᵒᵈ

/-- A place in an ascending list. -/
def ascending (time : Time) (id : Uuid) : Ascending := toLex (time, id)

/-- A place in a descending list. -/
def descending (time : Time) (id : Uuid) : Descending :=
  toLex (OrderDual.toDual time, OrderDual.toDual id)

/-- A condition of a `where` clause that is there when the query has a value for it. -/
def whenGiven {β : Type} [DecidableEq β] (given : Option β) (column : Option β) : Bool :=
  given.all fun value => column = some value

/-- A value that is there and not the empty string. -/
def truthyText (text : Option String) : Option String := text.filter fun text => text ≠ ""

/-- A message with the column that its list is ordered by. -/
structure ListedMessage where
  message : Message
  createdAt : Time

/-- Source: `ListMessagesQueryDto`. -/
structure ListMessagesQueryDto where
  direction : Option MessageDirection := none
  status : Option MessageStatus := none
  trafficClass : Option MessageTrafficClass := none
  phone : Option String := none
  senderId : Option Uuid := none

/-- The number that a list of messages is filtered by, if any; `none` is a text that is no number. -/
def ListMessagesQueryDto.filteredPhone (query : ListMessagesQueryDto) : Option (Option String) :=
  match truthyText query.phone with
  | none => some none
  | some phone => (normalizePhoneNumber phone).toOption.map some

/-- Source: `list` in `messages.service.ts`; `none` is a request that fails by its phone number. -/
def listMessages (tenantId : Uuid) (query : ListMessagesQueryDto) :
    Option (Listing ListedMessage Uuid Descending) :=
  query.filteredPhone.map fun phone => {
    id := fun r => r.message.id
    owned := fun r => r.message.tenantId = some tenantId
    matched := fun r => r.message.tenantId = some tenantId &&
      whenGiven query.direction (some r.message.direction) &&
      whenGiven query.status (some r.message.status) &&
      whenGiven query.trafficClass (some r.message.trafficClass) &&
      whenGiven query.senderId r.message.senderId &&
      (whenGiven phone r.message.to_ || whenGiven phone r.message.from_)
    pos := fun r => descending r.createdAt r.message.id }

/-- A recipient with the tenant of its campaign. -/
structure ListedRecipient where
  recipient : CampaignRecipient
  tenantId : Uuid
  createdAt : Time

/-- Source: `listRecipients` in `campaigns.service.ts`. -/
def listRecipients (tenantId campaignId : Uuid) (status : Option CampaignRecipientStatus) :
    Listing ListedRecipient Uuid Ascending where
  id r := r.recipient.id
  owned r := r.recipient.campaignId = campaignId && r.tenantId = tenantId
  matched r := r.recipient.campaignId = campaignId && r.tenantId = tenantId &&
    whenGiven status (some r.recipient.status)
  pos r := ascending r.createdAt r.recipient.id

/-- Source: `model ConversationTeamAssignment`. -/
structure TeamAssignment where
  tenantId : Uuid
  teamId : Uuid

/-- A conversation with its team. -/
structure ListedConversation where
  conversation : Conversation
  teamAssignment : Option TeamAssignment

/-- Source: `ListConversationsQueryDto`. -/
structure ListConversationsQueryDto where
  status : Option ConversationStatus := none
  priority : Option ConversationPriority := none
  assignedAgentId : Option Uuid := none
  unassigned : Bool := false
  assignedTeamId : Option Uuid := none
  unassignedTeam : Bool := false
  senderId : Option Uuid := none
  contactId : Option Uuid := none

/-- Source: `listConversations` in `inbox.service.ts`; `none` when the query contradicts itself. -/
def listConversations (tenantId : Uuid) (query : ListConversationsQueryDto) :
    Option (Listing ListedConversation Uuid Descending) :=
  if query.unassigned && query.assignedAgentId.isSome then none
  else if query.unassignedTeam && query.assignedTeamId.isSome then none
  else some {
    id := fun r => r.conversation.id
    owned := fun r => r.conversation.tenantId = tenantId
    matched := fun r => r.conversation.tenantId = tenantId &&
      whenGiven query.status (some r.conversation.status) &&
      whenGiven query.priority (some r.conversation.priority) &&
      whenGiven query.assignedAgentId r.conversation.assignedAgentId &&
      (!query.unassigned || r.conversation.assignedAgentId.isNone) &&
      (query.assignedTeamId.all fun teamId => r.teamAssignment.any fun team =>
        team.tenantId = tenantId && team.teamId = teamId) &&
      (!query.unassignedTeam || r.teamAssignment.isNone) &&
      whenGiven query.senderId (some r.conversation.senderId) &&
      whenGiven query.contactId (some r.conversation.contactId)
    pos := fun r => descending r.conversation.lastMessageAt r.conversation.id }

/-- A template with the column that its list is ordered by. -/
structure ListedTemplate where
  template : MessageTemplate
  updatedAt : Time

/-- Source: `ListTemplatesQueryDto`. -/
structure ListTemplatesQueryDto where
  wabaId : Option String := none
  status : Option String := none
  category : Option String := none
  language : Option String := none
  name : Option String := none

/-- Source: `list` in `templates.service.ts`. What the database takes for a name that contains
another one, `contains` says. -/
def listTemplates (contains : String → String → Bool) (tenantId : Uuid)
    (query : ListTemplatesQueryDto) : Listing ListedTemplate Uuid Descending where
  id r := r.template.id
  owned r := r.template.tenantId = tenantId
  matched r := r.template.tenantId = tenantId &&
    whenGiven (truthyText query.wabaId) (some r.template.wabaId) &&
    whenGiven ((truthyText query.status).map toUpperCase) (some r.template.status) &&
    whenGiven ((truthyText query.category).map toUpperCase) r.template.category &&
    whenGiven (truthyText query.language) (some r.template.language) &&
    (truthyText query.name).all fun name => contains r.template.name name
  pos r := descending r.updatedAt r.template.id

/-- A place tells the id. -/
theorem eq_of_ascending {time time' : Time} {id id' : Uuid}
    (h : ascending time id = ascending time' id') : id = id' :=
  (Prod.mk.inj h).2

/-- A place tells the id, in a descending list too. -/
theorem eq_of_descending {time time' : Time} {id id' : Uuid}
    (h : descending time id = descending time' id') : id = id' :=
  (Prod.mk.inj h).2

/-! ## Walks among other requests -/

/-- What happens to a walk: it goes on, or another request has changed the table. -/
inductive ListAct (Row : Type) where
  | next
  | change (rows : List Row)

namespace ListRun

variable {Row α : Type} [LinearOrder α] {l : Listing Row Uuid α} {limit : ℕ}

/-- One step. -/
def step (l : Listing Row Uuid α) (limit : ℕ) (w : Walk Row Uuid) :
    ListAct Row → Option (Walk Row Uuid)
  | .next => w.next l l.fromCursor limit
  | .change rows => if (rows.map l.id).Nodup then some (w.change l rows) else none

/-- The condition on a step: a page is read from a row that is where it was. -/
def Reads (l : Listing Row Uuid α) (w : Walk Row Uuid) : ListAct Row → Prop
  | .next => ∀ anchor, w.stage = .reading anchor → l.Anchored w.rows w.last
  | .change _ => True

/-- A walk whose last row is there may read on. -/
theorem reads_of_anchored {w : Walk Row Uuid} (h : l.Anchored w.rows w.last) : Reads l w .next :=
  fun _ _ => h

/-- The rows may change at any time. -/
theorem reads_change {w : Walk Row Uuid} {rows : List Row} : Reads l w (.change rows) :=
  True.intro

/-- A walk that is asking may read on. -/
theorem reads_of_asking {w : Walk Row Uuid} {cursor : Option Uuid} (h : w.stage = .asking cursor) :
    Reads l w .next := by
  intro anchor hstage
  rw [h] at hstage
  cases hstage

/-- A list that loses and repeats nothing: in every state of every walk whose pages are read so, a row
that has not moved was returned at most once, and at the end exactly once if it was there at the start
and matched. -/
def Complete (l : Listing Row Uuid α) : Prop :=
  ∀ limit rows w, 0 < limit → (rows.map l.id).Nodup →
    Reaches (step l limit) (Reads l) (Walk.start rows) w →
      (∀ i, ¬w.moved i → w.count l i ≤ 1) ∧
      (w.stage = .finished → ∀ r ∈ rows, l.matched r = true → ¬w.moved (l.id r) →
        w.count l (l.id r) = 1)

/-- A step keeps what the walk has to visit. -/
theorem sound_step (hpos : l.Separates) (hlimit : 0 < limit) {rows : List Row}
    {w w' : Walk Row Uuid} {act : ListAct Row} (h : w.Sound l rows) (hreads : Reads l w act)
    (hstep : step l limit w act = some w') : w'.Sound l rows := by
  cases act with
  | next =>
      cases hstage : w.stage with
      | asking cursor => exact (h.lookup hstage hstep).1
      | reading anchor =>
          refine h.read hlimit hstage ?_ hstep
          exact Listing.follows_fromCursor hpos h.nodup (h.reading anchor hstage)
            (hreads anchor hstage)
      | finished => simp [step, Walk.next, hstage] at hstep
      | refused => simp [step, Walk.next, hstage] at hstep
  | change rows' =>
      simp only [step] at hstep
      split_ifs at hstep with hnodup
      cases hstep
      exact h.change hnodup

/-- A list whose places differ is gone through completely. -/
theorem complete_of_separates (hpos : l.Separates) : Complete l := by
  intro limit rows w hlimit hnodup hrun
  have hsound : w.Sound l rows :=
    hrun.invariant (Walk.sound_start hnodup) fun x act y hx hreads hy =>
      sound_step hpos hlimit hx hreads hy
  exact ⟨fun i hmoved => hsound.count_le_one hmoved, fun hstage r hr hmatched hmoved =>
    hsound.count_eq_one hstage hr hmatched hmoved⟩

/-- **The four lists** lose and repeat nothing in walks whose pages are all read from a row that is
where it was. -/
theorem cursor_lists (tenantId campaignId : Uuid) (messages : ListMessagesQueryDto)
    (recipientStatus : Option CampaignRecipientStatus) (conversations : ListConversationsQueryDto)
    (contains : String → String → Bool) (templates : ListTemplatesQueryDto) :
    (∀ l ∈ listMessages tenantId messages, Complete l) ∧
      Complete (listRecipients tenantId campaignId recipientStatus) ∧
      (∀ l ∈ listConversations tenantId conversations, Complete l) ∧
      Complete (listTemplates contains tenantId templates) := by
  refine ⟨fun l hl => ?_, ?_, fun l hl => ?_, ?_⟩
  · obtain ⟨phone, -, rfl⟩ := Option.map_eq_some_iff.mp hl
    exact complete_of_separates fun a b heq => eq_of_descending heq
  · exact complete_of_separates fun a b heq => eq_of_ascending heq
  · unfold listConversations at hl
    split_ifs at hl
    · cases hl
    · cases hl
    · cases hl
      exact complete_of_separates fun a b heq => eq_of_descending heq
  · exact complete_of_separates fun a b heq => eq_of_descending heq

/-- A recipient of a campaign of tenant 1 that was added at this time. -/
def recipientAt (createdAt : Time) (status : CampaignRecipientStatus) : ListedRecipient where
  recipient :=
    { id := createdAt
      campaignId := 5
      contactId := createdAt
      messageId := none
      status := status
      attemptCount := 0
      nextAttemptAt := 0
      processingLeaseUntil := none
      lastError := none
      queuedAt := none }
  tenantId := 1
  createdAt := createdAt

/-- Both recipients are queued while the list of all is read. -/
theorem cursor_lists_all_recipients :
    ∃ w, Reaches (step (listRecipients 1 5 none) 1) (Reads (listRecipients 1 5 none))
        (Walk.start [recipientAt 1 .pending, recipientAt 2 .pending]) w ∧
      w.stage = .finished ∧ w.count (listRecipients 1 5 none) 2 = 1 := by
  have hstart : Reaches (step (listRecipients 1 5 none) 1) (Reads (listRecipients 1 5 none))
      (Walk.start [recipientAt 1 .pending, recipientAt 2 .pending])
      (Walk.start [recipientAt 1 .pending, recipientAt 2 .pending]) := Reaches.refl
  have hpage := hstart.tail (a := .next) (reads_of_asking rfl) rfl
  have hfirst := hpage.tail (a := .next) (reads_of_anchored nofun) rfl
  have hqueued := hfirst.tail (a := .change [recipientAt 1 .queued, recipientAt 2 .queued])
    reads_change rfl
  have hlookup := hqueued.tail (a := .next) (reads_of_asking rfl) rfl
  have hrun := hlookup.tail (a := .next) (reads_of_anchored fun a₀ ha₀ => by
    cases ha₀
    exact .inl ⟨recipientAt 1 .queued, List.mem_cons_self, rfl, rfl, by decide⟩) rfl
  refine ⟨_, hrun, rfl, ?_⟩
  have hcomplete := (cursor_lists 1 5 {} none {} (fun _ _ => true) {}).2.1 1 _ _ Nat.one_pos
    (by decide) hrun
  have hsecond : recipientAt 2 .pending ∈ [recipientAt 1 .pending, recipientAt 2 .pending] :=
    List.mem_cons_of_mem _ List.mem_cons_self
  refine hcomplete.2 rfl (recipientAt 2 .pending) hsecond rfl ?_
  exact Walk.not_moved_change (by decide) hsecond id
    ⟨recipientAt 2 .queued, List.mem_cons_of_mem _ List.mem_cons_self, rfl, rfl, rfl⟩

/-! ## Walks that go wrong -/

/-- A message of tenant 1 that was created at this time. -/
def messageAt (createdAt : Time) (status : MessageStatus) : ListedMessage where
  message :=
    { id := createdAt
      tenantId := some 1
      senderId := none
      conversationId := none
      direction := .outbound
      trafficClass := .transactional
      type := .text
      status := status
      to_ := some "5511999999999"
      from_ := none
      providerMessageId := none
      providerTimestamp := none
      idempotencyKey := none
      payload := .null
      providerResponse := none
      errorCode := none
      errorMessage := none
      attemptCount := 0
      lastAttemptAt := none
      processingLeaseUntil := none
      submittedAt := none
      sentAt := none
      deliveredAt := none
      readAt := none
      failedAt := none }
  createdAt := createdAt

/-- A conversation of tenant 1 with its last message at this time. -/
def conversationAt (id : Uuid) (lastMessageAt : Time) : ListedConversation where
  conversation :=
    { id := id
      tenantId := 1
      contactId := id
      senderId := 7
      assignedAgentId := none
      status := .open
      priority := .normal
      unreadCount := 0
      lastMessageAt := lastMessageAt
      lastInboundAt := none
      lastOutboundAt := none
      resolvedAt := none
      responseSlaStartedAt := none
      responseSlaDueAt := none
      responseSlaRespondedAt := none
      responseSlaEscalatedAt := none }
  teamAssignment := none

/-- A row of a list that was there at the start, matched and has not moved, and was not returned, or
one that was returned twice. -/
def Fails (l : Listing Row Uuid α) : Prop :=
  ∃ limit rows w, 0 < limit ∧ (rows.map l.id).Nodup ∧ Reachable (step l limit) (Walk.start rows) w ∧
    ∃ r ∈ rows, l.matched r = true ∧ ¬w.moved (l.id r) ∧
      (1 < w.count l (l.id r) ∨ w.stage = .finished ∧ w.count l (l.id r) = 0)

/-- The first page, a change, and the second page. -/
def twoPages {Row : Type} (rows : List Row) : List (ListAct Row) :=
  [.next, .next, .change rows, .next, .next]

/-- A walk over two pages goes wrong with a row that the change between them has left alone. -/
theorem fails_of_twoPages (limit : ℕ) (rows rows' : List Row) (r : Row) {w : Walk Row Uuid}
    (hlimit : 0 < limit) (hnodup : (rows.map l.id).Nodup)
    (hrun : exec (step l limit) (Walk.start rows) (twoPages rows') = some w)
    (hmoved : w.moved = ((Walk.start rows).change l rows').moved) (hr : r ∈ rows) (hr' : r ∈ rows')
    (hmatched : l.matched r = true)
    (hwrong : 1 < w.count l (l.id r) ∨ w.stage = .finished ∧ w.count l (l.id r) = 0) : Fails l := by
  refine ⟨limit, rows, w, hlimit, hnodup, Reachable.of_exec hrun, r, hr, hmatched, ?_, hwrong⟩
  rw [hmoved]
  exact Walk.not_moved_change hnodup hr id ⟨r, hr', rfl, rfl, rfl⟩

/-- **Walks that lose a row or repeat one.** Messages 3, 2 and 1 are queued and are read one by one;
message 3 is processed after the first page, and the second page skips message 2. So does a list of
pending recipients. Of conversations 3, 2 and 1 the first page has two; conversation 2 receives a
message, and the second page starts behind it with conversation 3. -/
theorem lost_and_repeated :
    (∃ l ∈ listMessages 1 { status := some .queued }, Fails l) ∧
      Fails (listRecipients 1 5 (some .pending)) ∧
      ∃ l ∈ listConversations 1 {}, Fails l := by
  refine ⟨⟨_, rfl, ?messages⟩, ?recipients, ⟨_, rfl, ?conversations⟩⟩
  case messages =>
    exact fails_of_twoPages 1
      [messageAt 1 .queued, messageAt 2 .queued, messageAt 3 .queued]
      [messageAt 1 .queued, messageAt 2 .queued, messageAt 3 .processing]
      (messageAt 2 .queued) Nat.one_pos (by decide) rfl rfl (by simp) (by simp) rfl
      (.inr ⟨rfl, rfl⟩)
  case recipients =>
    exact fails_of_twoPages 1
      [recipientAt 1 .pending, recipientAt 2 .pending, recipientAt 3 .pending]
      [recipientAt 1 .queued, recipientAt 2 .pending, recipientAt 3 .pending]
      (recipientAt 2 .pending) Nat.one_pos (by decide) rfl rfl (by simp) (by simp) rfl
      (.inr ⟨rfl, rfl⟩)
  case conversations =>
    exact fails_of_twoPages 2
      [conversationAt 1 1, conversationAt 2 2, conversationAt 3 3]
      [conversationAt 1 1, conversationAt 2 4, conversationAt 3 3]
      (conversationAt 3 3) Nat.two_pos (by decide) rfl rfl (by simp) (by simp) rfl
      (.inl (by decide))

end ListRun

end ApiWhatsApp
