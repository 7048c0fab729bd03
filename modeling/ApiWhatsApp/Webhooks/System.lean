import ApiWhatsApp.Outbound.Dispatch
import ApiWhatsApp.Webhooks.Processor

/-!
# All processors

`WebhookSystem` runs any number of polls beside all other writers of messages and conversations:
`create`, the dispatcher, `markRead` and the other inbox services. Its history variables record
which received messages were in a conversation when it was last marked as read, and which reports
were applied.

* **`step_moves`** says what a step can do to the messages and the unread counters, and
  **`step_events`** what it can do to the webhook events: an event is marked as processed only by a
  poll that has nothing left to do for it.
* `Copies` — a poll holds the payload that the table has.
-/

namespace ApiWhatsApp

open Library

/-- A write of another service to other tables. -/
structure UnrelatedToInbox where
  run : Db → Db
  messages_run : ∀ db, (run db).messages = db.messages
  conversations_run : ∀ db, (run db).conversations = db.conversations
  webhookEvents_run : ∀ db, (run db).webhookEvents = db.webhookEvents

/-- An update of a conversation by the inbox services other than `markRead`. -/
structure ConversationEdit where
  run : Conversation → Conversation
  keys_run : ∀ c, Keyed.keys (run c) = Keyed.keys c
  unreadCount_run : ∀ c, (run c).unreadCount = c.unreadCount

/-- The database, all polls and the history. -/
structure WebhookSystem where
  db : Db
  clock : Time
  processors : List Processor
  /-- History: the received messages that were in a conversation when it was marked as read. -/
  read : List Uuid
  /-- History: the reports that were applied and when, the last one first. -/
  applied : List (Time × MetaMessageStatus)

namespace WebhookSystem

/-- One move. -/
inductive Act where
  | tick (elapsed : Time)
  | other (write : UnrelatedToInbox)
  /-- The controller stores a webhook. -/
  | receive (id : Uuid) (payload : Json)
  /-- A poll claims its batch under a lease computed at `readAt`. -/
  | poll (readAt : Time) (ids : List Uuid)
  | processor (i : ℕ) (act : ProcessorAct)
  | markRead (tenantId id : Uuid)
  | editConversation (id : Uuid) (edit : ConversationEdit)
  /-- A `create` call commits. -/
  | create (tenantId : Uuid) (idempotencyKey : Option String) (draft : MessageDraft)
      (ids : CreateIds)
  /-- The dispatcher updates the row of its message. -/
  | dispatch (id : Uuid) (write : RowWrite)

/-- Nothing is being processed yet. -/
def start (db : Db) (clock : Time) : WebhookSystem where
  db := db
  clock := clock
  processors := []
  read := []
  applied := []

/-- The received messages of a conversation. -/
def receivedIn (db : Db) (conversationId : Uuid) : List Message :=
  db.messages.rows.filter fun m =>
    m.direction = .inbound && m.conversationId = some conversationId

/-- One step. -/
def step (config : WebhookConfig) (s : WebhookSystem) : Act → Option WebhookSystem
  | .tick elapsed => some { s with clock := s.clock + elapsed }
  | .other write => some { s with db := write.run s.db }
  | .receive id payload =>
      (s.db.webhookEvents.insert? (.received id payload s.clock)).map fun events =>
        { s with db := { s.db with webhookEvents := events } }
  | .poll readAt ids =>
      if readAt ≤ s.clock ∧ ids.length ≤ config.batch then
        let (db, events) := s.db.claimWebhookEvents s.clock (readAt + config.lease) ids
        some { s with
          db := db
          processors := s.processors ++ [{ batch := events, stage := .next }] }
      else none
  | .processor i act =>
      s.processors[i]?.bind fun p =>
        (p.step s.db s.clock act).map fun (db, p') =>
          { s with
            db := db
            processors := s.processors.set i p'
            applied := ((p.reports act).map fun report => (s.clock, report)).toList ++ s.applied }
  | .markRead tenantId id =>
      (s.db.markRead tenantId id).map fun db =>
        { s with db := db, read := (receivedIn s.db id).map Message.id ++ s.read }
  | .editConversation id edit =>
      some { s with db := s.db.updateConversation id edit.run edit.keys_run }
  | .create tenantId idempotencyKey draft ids =>
      (s.db.commitCreate s.clock tenantId idempotencyKey draft ids).map fun (db, _) =>
        { s with db := db }
  | .dispatch id write =>
      -- Its jobs come from the outbox, so they are for messages that `create` made.
      if (s.db.message id).any fun m => m.direction = .outbound then
        (s.db.messages.update? (.id id) write.apply).map fun messages =>
          let event : MessageStatusEvent :=
            { messageId := id, status := write.status, createdAt := s.clock }
          { s with db := { s.db with
              messages := messages
              statusEvents :=
                if write.isCompleting then event :: s.db.statusEvents else s.db.statusEvents } }
      else none

/-! ## What a step does to messages and counters -/

/-- A change of rows that keeps what an inbox shows: where a message belongs, and the provider id of
a received one. -/
structure KeepsPlace (a : Act) (rows : List Message) (f : Message → Message) : Prop where
  id : ∀ m, (f m).id = m.id
  direction : ∀ m, (f m).direction = m.direction
  conversationId : ∀ m, (f m).conversationId = m.conversationId
  received : ∀ m ∈ rows, m.direction = .inbound → (f m).providerMessageId = m.providerMessageId
  submitted : ∀ m, (f m).providerMessageId = m.providerMessageId ∨
    ∃ id now q response, a = .dispatch id (.submit now q response) ∧
      (f m).providerMessageId = some q

/-- Standing still keeps the place. -/
theorem KeepsPlace.refl (a : Act) (rows : List Message) : KeepsPlace a rows fun m => m :=
  ⟨fun _ => rfl, fun _ => rfl, fun _ => rfl, fun _ _ _ => rfl, fun _ => .inl rfl⟩

/-- What a step can do to the messages, the unread counters and the history of marks. -/
inductive Moves (s s' : WebhookSystem) (a : Act) : Prop where
  | same (hmessages : s'.db.messages = s.db.messages)
      (hcounts : ∀ j, s'.db.unreadCount j = s.db.unreadCount j) (hread : s'.read = s.read)
  /-- A received message is stored. -/
  | received (m : Message) (c : Uuid) (hdirection : m.direction = .inbound)
      (hprovider : m.providerMessageId.isSome = true)
      (hconversation : m.conversationId = some c)
      (hinsert : s.db.messages.insert? m = some s'.db.messages)
      (hcounts : ∀ j, s'.db.unreadCount j =
        if j = c then some ((s.db.unreadCount c).getD 0 + 1) else s.db.unreadCount j)
      (hread : s'.read = s.read)
  /-- A message is created, in a conversation or in none. -/
  | created (m : Message) (hdirection : m.direction = .outbound)
      (hprovider : m.providerMessageId = none)
      (hconversation : ∀ c, m.conversationId = some c → (s'.db.unreadCount c).isSome = true)
      (hinsert : s.db.messages.insert? m = some s'.db.messages)
      (hcounts : ∀ j, s'.db.unreadCount j = s.db.unreadCount j ∨
        (s.db.unreadCount j = none ∧ s'.db.unreadCount j = some 0))
      (hread : s'.read = s.read)
  /-- Rows change in place, by a report or by the dispatcher. -/
  | updated (f : Message → Message) (hrows : s'.db.messages.rows = s.db.messages.rows.map f)
      (hf : KeepsPlace a s.db.messages.rows f)
      (hact : (∃ i act, a = .processor i act) ∨ ∃ id w, a = .dispatch id w)
      (hcounts : ∀ j, s'.db.unreadCount j = s.db.unreadCount j)
      (hread : s'.read = s.read)
  /-- A conversation is marked as read. -/
  | marked (c : Uuid) (hmessages : s'.db.messages = s.db.messages)
      (hcounts : ∀ j, s'.db.unreadCount j =
        (s.db.unreadCount j).map fun n => if j = c then 0 else n)
      (hread : s'.read = (receivedIn s.db c).map Message.id ++ s.read)

/-- A report changes rows in place. -/
theorem updated_of_applyStatus {db db' : Db} {now : Time} {report : MetaMessageStatus} (a : Act)
    (h : db.applyStatus now report = some db') :
    (∃ f, db'.messages.rows = db.messages.rows.map f ∧ KeepsPlace a db.messages.rows f) ∧
      db'.conversations = db.conversations ∧ db'.webhookEvents = db.webhookEvents := by
  unfold Db.applyStatus at h
  split at h
  · cases h
    exact ⟨⟨fun m => m, by simp, .refl a _⟩, rfl, rfl⟩
  split at h
  · cases h
    exact ⟨⟨fun m => m, by simp, .refl a _⟩, rfl, rfl⟩
  rename_i target _ _ message _
  obtain ⟨at_, -, rfl⟩ := Option.map_eq_some_iff.mp h
  refine ⟨?_, rfl, rfl⟩
  by_cases happly : shouldApplyStatus message.status target = true
  · let stamp := Message.stamp target at_ (extractError report.errors)
    refine ⟨fun m => if m.id = message.id then stamp m else m, by simp [happly, stamp], ?_⟩
    have hstamp : ∀ m, (stamp m).id = m.id ∧ (stamp m).direction = m.direction ∧
        (stamp m).conversationId = m.conversationId ∧
        (stamp m).providerMessageId = m.providerMessageId := by
      intro m
      cases target <;> exact ⟨rfl, rfl, rfl, rfl⟩
    refine ⟨fun m => ?_, fun m => ?_, fun m => ?_, fun m _ _ => ?_, fun m => .inl ?_⟩ <;>
      split_ifs <;> simp [hstamp]
  · exact ⟨fun m => m, by simp [happly], .refl a _⟩

/-- The dispatcher changes its row in place. -/
theorem updated_of_dispatch {db : Db} {id : Uuid} {w : RowWrite} {messages : Table Message}
    (hout : (db.message id).any (fun m => m.direction = .outbound) = true)
    (h : db.messages.update? (.id id) w.apply = some messages) :
    ∃ f, messages.rows = db.messages.rows.map f ∧
      KeepsPlace (.dispatch id w) db.messages.rows f := by
  refine ⟨_, Table.rows_of_update? h, fun m => ?_, fun m => ?_, fun m => ?_, fun m hm hin => ?_,
    fun m => ?_⟩
  · split_ifs
    · exact w.id_apply m
    · rfl
  · split_ifs
    · cases w <;> rfl
    · rfl
  · split_ifs
    · cases w <;> rfl
    · rfl
  · split_ifs with hk
    · -- The row at this id is an outbound one.
      have hfind : db.message id = some m := db.messages.find_eq_some_iff.mpr ⟨hm, hk⟩
      rw [hfind] at hout
      simp [hin] at hout
    · rfl
  · split_ifs
    · cases w with
      | submit now q response => exact .inr ⟨id, now, q, response, rfl, rfl⟩
      | claim _ _ | markRetryableFailure _ _ | markFailed _ _ _ _ => exact .inl rfl
    · exact .inl rfl

/-- A committed `create` changes no unread counter. -/
theorem unreadCount_of_commitCreate {db db' : Db} {now : Time} {tenantId : Uuid}
    {key : Option String} {draft : MessageDraft} {ids : CreateIds} {m : Message}
    (h : db.commitCreate now tenantId key draft ids = some (db', m)) :
    (∀ j, db'.unreadCount j = db.unreadCount j ∨
        (db.unreadCount j = none ∧ db'.unreadCount j = some 0)) ∧
      ∀ c, m.conversationId = some c → (db'.unreadCount c).isSome = true := by
  unfold Db.commitCreate at h
  obtain ⟨⟨db₁, c⟩, hconv, h⟩ := Option.bind_eq_some_iff.mp h
  obtain ⟨messages, -, h⟩ := Option.bind_eq_some_iff.mp h
  obtain ⟨events, -, h⟩ := Option.bind_eq_some_iff.mp h
  obtain ⟨hcounts, hconversation⟩ := Db.unreadCount_recordOutbound hconv
  cases h
  exact ⟨hcounts, hconversation⟩

/-- **Every step is one of these.** -/
theorem step_moves {config : WebhookConfig} {s s' : WebhookSystem} {a : Act}
    (h : s.step config a = some s') : Moves s s' a := by
  cases a with
  | tick elapsed =>
      cases h
      exact .same rfl (fun _ => rfl) rfl
  | other write =>
      cases h
      refine .same (write.messages_run s.db) (fun j => ?_) rfl
      simp [Db.unreadCount, write.conversations_run]
  | receive id payload =>
      obtain ⟨events, -, rfl⟩ := Option.map_eq_some_iff.mp h
      exact .same rfl (fun _ => rfl) rfl
  | poll readAt ids =>
      simp only [step] at h
      split_ifs at h
      cases h
      exact .same rfl (fun _ => rfl) rfl
  | processor i act =>
      obtain ⟨p, -, h⟩ := Option.bind_eq_some_iff.mp h
      obtain ⟨⟨db, p'⟩, hstep, rfl⟩ := Option.map_eq_some_iff.mp h
      cases Processor.step_writes hstep with
      | nothing h _ =>
          subst h
          exact .same rfl (fun _ => rfl) rfl
      | stored event work incoming ids inboundAt m _ hpersist _ =>
          obtain ⟨c, rfl, hinsert, -, hcounts⟩ := Db.persistInbound_spec hpersist
          exact .received _ c rfl rfl rfl hinsert hcounts rfl
      | applied report _ happlied =>
          obtain ⟨⟨f, hrows, hf⟩, hconversations, -⟩ :=
            updated_of_applyStatus (.processor i act) happlied
          refine .updated f hrows hf (.inl ⟨i, act, rfl⟩) (fun j => ?_) rfl
          simp [Db.unreadCount, hconversations]
      | event event f hf h _ _ _ =>
          subst h
          exact .same rfl (fun _ => rfl) rfl
  | markRead tenantId id =>
      obtain ⟨db, hmark, rfl⟩ := Option.map_eq_some_iff.mp h
      refine .marked id ?_ (Db.unreadCount_markRead hmark) rfl
      unfold Db.markRead at hmark
      split at hmark
      · cases hmark
      · split_ifs at hmark
        cases hmark
        rfl
  | editConversation id edit =>
      cases h
      refine .same rfl (fun j => ?_) rfl
      have hcount := s.db.unreadCount_updateConversation id edit.run edit.keys_run (fun n => n)
        edit.unreadCount_run j
      rw [hcount]
      simp
  | create tenantId idempotencyKey draft ids =>
      obtain ⟨⟨db, m⟩, hcommit, rfl⟩ := Option.map_eq_some_iff.mp h
      obtain ⟨hcounts, hconversation⟩ := unreadCount_of_commitCreate hcommit
      obtain ⟨⟨c, rfl⟩, hinsert, -⟩ := Db.commitCreate_spec hcommit
      exact .created _ rfl rfl hconversation hinsert hcounts rfl
  | dispatch id w =>
      obtain ⟨hout, h⟩ := Option.ite_none_right_eq_some.mp h
      obtain ⟨messages, hupdate, rfl⟩ := Option.map_eq_some_iff.mp h
      obtain ⟨f, hrows, hf⟩ := updated_of_dispatch hout hupdate
      exact .updated f hrows hf (.inr ⟨id, w, rfl⟩) (fun _ => rfl) rfl

/-! ## What a step does to the webhook events -/

/-- The step is one of a poll that has done everything for the event `id`. -/
def Finishes (s : WebhookSystem) (a : Act) (id : Uuid) : Prop :=
  ∃ i act p event, a = .processor i act ∧ s.processors[i]? = some p ∧
    p.stage.working = some event ∧ event.id = id ∧ p.stage.owed = [] ∧ p.stage.unreported = []

/-- A step changes the events by `f`, and it may store a new one. -/
structure MovesEvents (s s' : WebhookSystem) (a : Act) (f : WebhookEvent → WebhookEvent) : Prop where
  rows : s'.db.webhookEvents.rows = s.db.webhookEvents.rows.map f ∨
    ∃ e, e.processed = false ∧ s'.db.webhookEvents.rows = e :: s.db.webhookEvents.rows.map f
  id : ∀ e, (f e).id = e.id
  payload : ∀ e, (f e).payload = e.payload
  processed : ∀ e, (f e).processed = true → e.processed = true ∨ Finishes s a e.id

variable {config : WebhookConfig} {s s' : WebhookSystem} {a : Act}

/-- The step leaves the events alone. -/
theorem movesEvents_of_eq (h : s'.db.webhookEvents = s.db.webhookEvents) :
    MovesEvents s s' a fun e => e where
  rows := .inl (by rw [h, List.map_id'])
  id _ := rfl
  payload _ := rfl
  processed _ he := .inl he

/-- The step claims events, or updates one of them. -/
theorem movesEvents_updateWhere {sel : WebhookEvent → Bool} {f : WebhookEvent → WebhookEvent}
    (hf : ∀ e, Keyed.keys (f e) = Keyed.keys e)
    (h : s'.db.webhookEvents = s.db.webhookEvents.updateWhere sel f hf)
    (hpayload : ∀ e, (f e).payload = e.payload)
    (hprocessed : ∀ e, sel e = true → (f e).processed = true → e.processed = true ∨
      Finishes s a e.id) :
    MovesEvents s s' a fun e => if sel e then f e else e := by
  refine ⟨.inl (by rw [h]; rfl), fun e => ?_, fun e => ?_, fun e he => ?_⟩
  · split_ifs
    · simpa [Keyed.keys] using hf e
    · rfl
  · split_ifs
    · exact hpayload e
    · rfl
  · split_ifs at he with hsel
    · exact hprocessed e hsel he
    · exact .inl he

/-- **Every step** keeps the events and their payloads, and marks one as processed only when a poll
has done everything for it. -/
theorem step_events (h : s.step config a = some s') : ∃ f, MovesEvents s s' a f := by
  cases a with
  | tick elapsed =>
      cases h
      exact ⟨_, movesEvents_of_eq rfl⟩
  | other write =>
      cases h
      exact ⟨_, movesEvents_of_eq (write.webhookEvents_run s.db)⟩
  | receive id payload =>
      obtain ⟨events, hinsert, rfl⟩ := Option.map_eq_some_iff.mp h
      have hrows := Table.rows_of_insert? hinsert
      refine ⟨fun e => e, .inr ⟨_, rfl, by rw [List.map_id']; exact hrows⟩, fun _ => rfl,
        fun _ => rfl, fun _ he => .inl he⟩
  | poll readAt ids =>
      simp only [step] at h
      split_ifs at h
      cases h
      exact ⟨_, movesEvents_updateWhere (f := WebhookEvent.claim _) (fun _ => rfl) rfl
        (fun _ => rfl) fun _ _ he => .inl he⟩
  | processor i act =>
      obtain ⟨p, hp, h⟩ := Option.bind_eq_some_iff.mp h
      obtain ⟨⟨db, p'⟩, hstep, rfl⟩ := Option.map_eq_some_iff.mp h
      cases Processor.step_writes hstep with
      | nothing h _ => exact ⟨_, movesEvents_of_eq (by rw [h])⟩
      | stored event work incoming ids inboundAt m _ hpersist _ =>
          obtain ⟨c, -, -, hevents, -⟩ := Db.persistInbound_spec hpersist
          exact ⟨_, movesEvents_of_eq hevents⟩
      | applied report _ happlied =>
          exact ⟨_, movesEvents_of_eq (updated_of_applyStatus (.processor i act) happlied).2.2⟩
      | event event f hf h hpayload hprocessed _ =>
          subst h
          refine ⟨_, movesEvents_updateWhere hf rfl hpayload fun e hid he => ?_⟩
          rcases hprocessed e he with he | ⟨hworking, howed, hunreported⟩
          · exact .inl he
          · have hid : event.id = e.id := by simpa [eq_comm] using hid
            exact .inr ⟨i, act, p, event, rfl, hp, hworking, hid, howed, hunreported⟩
  | markRead tenantId id =>
      obtain ⟨db, hmark, rfl⟩ := Option.map_eq_some_iff.mp h
      refine ⟨_, movesEvents_of_eq ?_⟩
      unfold Db.markRead at hmark
      split at hmark
      · cases hmark
      · split_ifs at hmark
        cases hmark
        rfl
  | editConversation id edit =>
      cases h
      exact ⟨_, movesEvents_of_eq rfl⟩
  | create tenantId idempotencyKey draft ids =>
      obtain ⟨⟨db, m⟩, hcommit, rfl⟩ := Option.map_eq_some_iff.mp h
      obtain ⟨_, _, _, _, rfl⟩ := Db.commitCreate_frame hcommit
      exact ⟨_, movesEvents_of_eq rfl⟩
  | dispatch id w =>
      obtain ⟨-, h⟩ := Option.ite_none_right_eq_some.mp h
      obtain ⟨messages, -, rfl⟩ := Option.map_eq_some_iff.mp h
      exact ⟨_, movesEvents_of_eq rfl⟩

/-- An event is kept while it moves. -/
theorem MovesEvents.kept {f : WebhookEvent → WebhookEvent} (h : MovesEvents s s' a f)
    {r : WebhookEvent} (hr : r ∈ s.db.webhookEvents.rows) : f r ∈ s'.db.webhookEvents.rows := by
  have hmem : f r ∈ s.db.webhookEvents.rows.map f := List.mem_map_of_mem hr
  rcases h.rows with hrows | ⟨e, -, hrows⟩
  · rw [hrows]
    exact hmem
  · rw [hrows]
    exact List.mem_cons_of_mem _ hmem

/-- A processed event was processed before, or its poll has just done everything for it. -/
theorem MovesEvents.processed_cases {f : WebhookEvent → WebhookEvent} (h : MovesEvents s s' a f)
    {r' : WebhookEvent} (hr' : r' ∈ s'.db.webhookEvents.rows) (hprocessed : r'.processed = true) :
    ∃ r ∈ s.db.webhookEvents.rows, r.id = r'.id ∧ r.payload = r'.payload ∧
      (r.processed = true ∨ Finishes s a r.id) := by
  have hold : r' ∈ s.db.webhookEvents.rows.map f := by
    rcases h.rows with hrows | ⟨e, he, hrows⟩
    · rwa [hrows] at hr'
    · rw [hrows] at hr'
      rcases List.mem_cons.mp hr' with rfl | hr'
      · rw [he] at hprocessed
        cases hprocessed
      · exact hr'
  obtain ⟨r, hr, rfl⟩ := List.mem_map.mp hold
  exact ⟨r, hr, (h.id r).symm, (h.payload r).symm, h.processed r hprocessed⟩

/-! ## What the polls hold -/

/-- The events that a poll holds in memory. -/
def held (p : Processor) : List WebhookEvent := p.batch ++ p.stage.working.toList

/-- Every event that a poll holds is in the table with the same payload. -/
def Copies (s : WebhookSystem) : Prop :=
  ∀ p ∈ s.processors, ∀ e ∈ held p,
    ∃ r ∈ s.db.webhookEvents.rows, r.id = e.id ∧ r.payload = e.payload

/-- At the start every event is a copy of its row. -/
theorem copies_start (db : Db) (clock : Time) : Copies (start db clock) := by
  intro p hp
  cases hp

/-- A poll takes up no event but those it holds. -/
theorem held_step {db db' : Db} {clock : Time} {p p' : Processor} {act : ProcessorAct}
    (h : p.step db clock act = some (db', p')) : ∀ e ∈ held p', e ∈ held p := by
  intro e he
  rcases List.mem_append.mp he with he | he
  · exact List.mem_append_left _ (Processor.batch_step h e he)
  · rw [Option.mem_toList] at he
    rcases Processor.step_progress h he with ⟨hbatch, -⟩ | hadvances
    · exact List.mem_append_left _ hbatch
    · exact List.mem_append_right _ (by rw [hadvances.working]; simp)

/-- The polls after a step: those there were, one that has moved, or a new one that has claimed its
batch. -/
theorem mem_processors_step (h : s.step config a = some s') {p' : Processor}
    (hp' : p' ∈ s'.processors) :
    p' ∈ s.processors ∨
      (∃ i act p, a = .processor i act ∧ s.processors[i]? = some p ∧
        p.step s.db s.clock act = some (s'.db, p')) ∨
      (p'.stage = .next ∧ ∀ e ∈ p'.batch, ∃ r ∈ s.db.webhookEvents.rows,
        r.id = e.id ∧ r.payload = e.payload) := by
  cases a with
  | tick elapsed =>
      cases h
      exact .inl hp'
  | other write =>
      cases h
      exact .inl hp'
  | receive id payload =>
      obtain ⟨events, -, rfl⟩ := Option.map_eq_some_iff.mp h
      exact .inl hp'
  | poll readAt ids =>
      simp only [step] at h
      split_ifs at h
      cases h
      rcases List.mem_append.mp hp' with hp' | hp'
      · exact .inl hp'
      · rw [List.mem_singleton] at hp'
        subst hp'
        refine .inr (.inr ⟨rfl, fun e he => ?_⟩)
        obtain ⟨r, hr, rfl⟩ := List.mem_map.mp he
        exact ⟨r, List.mem_of_mem_filter hr, rfl, rfl⟩
  | processor i act =>
      obtain ⟨p, hp, h⟩ := Option.bind_eq_some_iff.mp h
      obtain ⟨⟨db, q⟩, hstep, rfl⟩ := Option.map_eq_some_iff.mp h
      rcases List.mem_or_eq_of_mem_set hp' with hp' | rfl
      · exact .inl hp'
      · exact .inr (.inl ⟨i, act, p, rfl, hp, hstep⟩)
  | markRead tenantId id =>
      obtain ⟨db, -, rfl⟩ := Option.map_eq_some_iff.mp h
      exact .inl hp'
  | editConversation id edit =>
      cases h
      exact .inl hp'
  | create tenantId idempotencyKey draft ids =>
      obtain ⟨⟨db, m⟩, -, rfl⟩ := Option.map_eq_some_iff.mp h
      exact .inl hp'
  | dispatch id w =>
      obtain ⟨-, h⟩ := Option.ite_none_right_eq_some.mp h
      obtain ⟨messages, -, rfl⟩ := Option.map_eq_some_iff.mp h
      exact .inl hp'

/-- A step keeps the copies. -/
theorem copies_step (hs : Copies s) (h : s.step config a = some s') : Copies s' := by
  obtain ⟨f, hevents⟩ := step_events h
  -- What stood in the table stands there under `f`.
  have hlift : ∀ e : WebhookEvent,
      (∃ r ∈ s.db.webhookEvents.rows, r.id = e.id ∧ r.payload = e.payload) →
        ∃ r ∈ s'.db.webhookEvents.rows, r.id = e.id ∧ r.payload = e.payload := by
    rintro e ⟨r, hr, hid, hpayload⟩
    exact ⟨f r, hevents.kept hr, (hevents.id r).trans hid, (hevents.payload r).trans hpayload⟩
  intro p' hp' e he
  apply hlift
  rcases mem_processors_step h hp' with hp | ⟨i, act, p, -, hp, hstep⟩ | ⟨hstage, hbatch⟩
  · exact hs p' hp e he
  · exact hs p (List.mem_of_getElem? hp) e (held_step hstep e he)
  · rw [held, hstage] at he
    exact hbatch e (by simpa [ProcessorStage.working] using he)

/-- A poll that has done everything for an event has done it for the payload in the table. -/
theorem Finishes.exists_poll (hs : Copies s) {r : WebhookEvent}
    (hr : r ∈ s.db.webhookEvents.rows) (h : Finishes s a r.id) :
    ∃ p ∈ s.processors, ∃ event, p.stage.working = some event ∧ event.id = r.id ∧
      event.payload = r.payload ∧ p.stage.owed = [] ∧ p.stage.unreported = [] := by
  obtain ⟨i, act, p, event, -, hp, hworking, hid, howed, hunreported⟩ := h
  have hmem : p ∈ s.processors := List.mem_of_getElem? hp
  have hheld : event ∈ held p := by simp [held, hworking]
  obtain ⟨r₀, hr₀, hid₀, hpayload₀⟩ := hs p hmem event hheld
  have heq : r₀ = r := s.db.webhookEvents.eq_of_mem_keys hr₀ hr (List.mem_singleton.mpr rfl)
    (List.mem_singleton.mpr (by rw [hid₀, hid]))
  exact ⟨p, hmem, event, hworking, hid, by rw [← hpayload₀, heq], howed, hunreported⟩

/-- The settings, all left to their defaults. -/
def sampleConfig : WebhookConfig where
  leaseMs := none
  batchSize := none

end WebhookSystem

end ApiWhatsApp
