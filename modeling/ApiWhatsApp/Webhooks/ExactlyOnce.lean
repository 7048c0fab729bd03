import ApiWhatsApp.Webhooks.System
import Mathlib.Data.List.Dedup

/-!
# Received messages, exactly once

A payload may be delivered many times, by any number of polls at the same time, and a poll may stop
between two transactions. What a conversation shows must not depend on that.

* `Counted` — every unread counter is the number of received messages that were not yet in the
  conversation when it was last marked as read. It is an invariant of every step, through
  `step_moves` alone: only a transaction that stores a row raises a counter.
* `Accounted q` — a message that a processed event mentions is stored, and one that an event in work
  mentions is stored or still owed. This needs that the dispatcher never gets `q` from the provider
  for a message of its own: otherwise the row could be overwritten.
* **`inbound_exactly_once`** puts the two together for every run.
-/

namespace ApiWhatsApp.WebhookSystem

open Library

variable {config : WebhookConfig} {s s' : WebhookSystem} {a : Act}

/-! ## Unread counters -/

/-- The received messages of a conversation that came after it was last marked as read. -/
def unread (s : WebhookSystem) (conversationId : Uuid) : List Message :=
  (receivedIn s.db conversationId).filter fun m => m.id ∉ s.read

/-- Every counter counts the unread messages. -/
structure Counted (s : WebhookSystem) : Prop where
  /-- A message refers to a conversation that exists. -/
  refers : ∀ m ∈ s.db.messages.rows, ∀ c, m.conversationId = some c →
    (s.db.unreadCount c).isSome = true
  counts : ∀ c n, s.db.unreadCount c = some n → n = (unread s c).length
  known : ∀ id ∈ s.read, ∃ m ∈ s.db.messages.rows, m.id = id
  provided : ∀ m ∈ s.db.messages.rows, m.direction = .inbound → m.providerMessageId.isSome = true

/-- The inbound messages of a conversation. -/
theorem mem_receivedIn {db : Db} {m : Message} {c : Uuid} :
    m ∈ receivedIn db c ↔
      m ∈ db.messages.rows ∧ m.direction = .inbound ∧ m.conversationId = some c := by
  simp [receivedIn]

/-- Messages with the same id are the same message. -/
theorem eq_of_id_eq {db : Db} {m m' : Message} (hm : m ∈ db.messages.rows)
    (hm' : m' ∈ db.messages.rows) (h : m.id = m'.id) : m = m' :=
  db.messages.eq_of_mem_keys hm hm' (mem_keys_id.mpr h) (mem_keys_id.mpr rfl)

/-- The id of a new message is taken by no message. -/
theorem id_ne_of_insert {db : Db} {m : Message} {messages : Table Message}
    (h : db.messages.insert? m = some messages) : ∀ m' ∈ db.messages.rows, m'.id ≠ m.id := by
  intro m' hm' hid
  have hnone := Table.find_eq_none_of_insert? h (mem_keys_id.mpr rfl)
  exact db.messages.find_eq_none_iff.mp hnone m' hm' (mem_keys_id.mpr hid)

/-- A conversation that does not exist has nothing unread. -/
theorem Counted.unread_eq_nil (hs : Counted s) {c : Uuid} (hc : s.db.unreadCount c = none) :
    unread s c = [] := by
  apply List.eq_nil_iff_forall_not_mem.mpr
  intro m hm
  obtain ⟨hrow, -, hconversation⟩ := mem_receivedIn.mp (List.mem_of_mem_filter hm)
  have hsome := hs.refers m hrow c hconversation
  rw [hc] at hsome
  cases hsome

/-- A stored message adds itself to what is unread in its conversation. -/
theorem unread_of_received {m : Message} {c : Uuid} (hdirection : m.direction = .inbound)
    (hconversation : m.conversationId = some c)
    (hinsert : s.db.messages.insert? m = some s'.db.messages) (hread : s'.read = s.read)
    (hnew : m.id ∉ s.read) (j : Uuid) :
    unread s' j = if j = c then m :: unread s j else unread s j := by
  rw [unread, receivedIn, Table.rows_of_insert? hinsert, hread]
  by_cases hj : j = c
  · subst hj
    simp [unread, receivedIn, hdirection, hconversation, hnew]
  · have hne : c ≠ j := fun h => hj h.symm
    simp [unread, receivedIn, hdirection, hconversation, hj, hne]

/-- What is unread changes in place with its rows. -/
theorem unread_of_updated {f : Message → Message}
    (hrows : s'.db.messages.rows = s.db.messages.rows.map f)
    (hf : KeepsPlace a s.db.messages.rows f) (hread : s'.read = s.read) (j : Uuid) :
    unread s' j = (unread s j).map f := by
  rw [unread, unread, receivedIn, receivedIn, hrows, hread, List.filter_map, List.filter_map]
  have hplace : (fun m => (m.direction = .inbound && m.conversationId = some j : Bool)) ∘ f =
      fun m => (m.direction = .inbound && m.conversationId = some j : Bool) := by
    funext m
    simp only [Function.comp_apply, hf.direction, hf.conversationId]
  have hunread : (fun m => decide (m.id ∉ s.read)) ∘ f = fun m => decide (m.id ∉ s.read) := by
    funext m
    simp only [Function.comp_apply, hf.id]
  rw [hplace, hunread]

/-- Marking a conversation as read leaves nothing unread in it, and all others alone. -/
theorem unread_of_marked {c : Uuid} (hmessages : s'.db.messages = s.db.messages)
    (hread : s'.read = (receivedIn s.db c).map Message.id ++ s.read) (j : Uuid) :
    unread s' j = if j = c then [] else unread s j := by
  rw [unread, receivedIn, hmessages, hread]
  change (receivedIn s.db j).filter _ = _
  split_ifs with hj
  · subst hj
    apply List.filter_eq_nil_iff.mpr
    intro m hm
    have hmarked : m.id ∈ (receivedIn s.db j).map Message.id := List.mem_map_of_mem hm
    simp [List.mem_append_left _ hmarked]
  · apply List.filter_congr
    intro m hm
    have hother : m.id ∉ (receivedIn s.db c).map Message.id := by
      intro hid
      obtain ⟨m', hm', hid⟩ := List.mem_map.mp hid
      obtain ⟨hrow', -, hc'⟩ := mem_receivedIn.mp hm'
      obtain ⟨hrow, -, hc⟩ := mem_receivedIn.mp hm
      rw [eq_of_id_eq hrow' hrow hid, hc] at hc'
      exact hj (Option.some.inj hc')
    simp [List.mem_append, hother]

/-- A new message leaves known what was known. -/
theorem Counted.known_of_insert (hs : Counted s) {m : Message}
    (hinsert : s.db.messages.insert? m = some s'.db.messages) (hread : s'.read = s.read) :
    ∀ id ∈ s'.read, ∃ m ∈ s'.db.messages.rows, m.id = id := by
  rw [Table.rows_of_insert? hinsert, hread]
  intro id hid
  obtain ⟨m', hm', hid'⟩ := hs.known id hid
  exact ⟨m', List.mem_cons_of_mem _ hm', hid'⟩

/-- Storing a message and counting it happen together. -/
theorem counted_of_received (hs : Counted s) {m : Message} {c : Uuid}
    (hdirection : m.direction = .inbound) (hprovider : m.providerMessageId.isSome = true)
    (hconversation : m.conversationId = some c)
    (hinsert : s.db.messages.insert? m = some s'.db.messages)
    (hcounts : ∀ j, s'.db.unreadCount j =
      if j = c then some ((s.db.unreadCount c).getD 0 + 1) else s.db.unreadCount j)
    (hread : s'.read = s.read) : Counted s' := by
  have hrows := Table.rows_of_insert? hinsert
  have hnew : m.id ∉ s.read := by
    intro hid
    obtain ⟨m', hm', hid'⟩ := hs.known _ hid
    exact id_ne_of_insert hinsert m' hm' hid'
  have hunread := unread_of_received hdirection hconversation hinsert hread hnew
  refine ⟨?_, fun j n hn => ?_, hs.known_of_insert hinsert hread, ?_⟩
  · rw [hrows]
    intro m' hm' j hj
    rw [hcounts]
    split_ifs with hjc
    · rfl
    · rcases List.mem_cons.mp hm' with rfl | hm'
      · rw [hconversation] at hj
        exact absurd (Option.some.inj hj).symm hjc
      · exact hs.refers m' hm' j hj
  · rw [hcounts] at hn
    rw [hunread]
    split_ifs at hn ⊢ with hjc
    · subst hjc
      cases hn
      rcases hcount : s.db.unreadCount j with _ | k
      · simp [hs.unread_eq_nil hcount]
      · simp [hs.counts j k hcount]
    · exact hs.counts j n hn
  · rw [hrows]
    intro m' hm' hin
    rcases List.mem_cons.mp hm' with rfl | hm'
    · exact hprovider
    · exact hs.provided m' hm' hin

/-- A message that is created counts for no one. -/
theorem counted_of_created (hs : Counted s) {m : Message} (hdirection : m.direction = .outbound)
    (hconversation : ∀ c, m.conversationId = some c → (s'.db.unreadCount c).isSome = true)
    (hinsert : s.db.messages.insert? m = some s'.db.messages)
    (hcounts : ∀ j, s'.db.unreadCount j = s.db.unreadCount j ∨
      (s.db.unreadCount j = none ∧ s'.db.unreadCount j = some 0))
    (hread : s'.read = s.read) : Counted s' := by
  have hrows := Table.rows_of_insert? hinsert
  have hunread : ∀ j, unread s' j = unread s j := by
    intro j
    rw [unread, unread, receivedIn, receivedIn, hrows, hread]
    simp [hdirection]
  refine ⟨?_, fun j n hn => ?_, hs.known_of_insert hinsert hread, ?_⟩
  · rw [hrows]
    intro m' hm' j hj
    rcases List.mem_cons.mp hm' with rfl | hm'
    · exact hconversation j hj
    · rcases hcounts j with hsame | ⟨-, hnew⟩
      · rw [hsame]
        exact hs.refers m' hm' j hj
      · rw [hnew]
        rfl
  · rw [hunread]
    rcases hcounts j with hsame | ⟨hnone, hnew⟩
    · exact hs.counts j n (hsame ▸ hn)
    · rw [hnew] at hn
      cases hn
      simp [hs.unread_eq_nil hnone]
  · rw [hrows]
    intro m' hm' hin
    rcases List.mem_cons.mp hm' with rfl | hm'
    · rw [hdirection] at hin
      cases hin
    · exact hs.provided m' hm' hin

/-- A change that keeps messages in their place keeps the count. -/
theorem counted_of_updated (hs : Counted s) {f : Message → Message}
    (hrows : s'.db.messages.rows = s.db.messages.rows.map f)
    (hf : KeepsPlace a s.db.messages.rows f)
    (hcounts : ∀ j, s'.db.unreadCount j = s.db.unreadCount j) (hread : s'.read = s.read) :
    Counted s' := by
  refine ⟨?_, fun j n hn => ?_, ?_, ?_⟩
  · rw [hrows]
    intro m' hm' j hj
    obtain ⟨m, hm, rfl⟩ := List.mem_map.mp hm'
    rw [hcounts]
    exact hs.refers m hm j (hf.conversationId m ▸ hj)
  · rw [hcounts] at hn
    rw [unread_of_updated hrows hf hread, List.length_map]
    exact hs.counts j n hn
  · rw [hrows, hread]
    intro id hid
    obtain ⟨m, hm, hid'⟩ := hs.known id hid
    exact ⟨f m, List.mem_map_of_mem hm, (hf.id m).trans hid'⟩
  · rw [hrows]
    intro m' hm' hin
    obtain ⟨m, hm, rfl⟩ := List.mem_map.mp hm'
    rw [hf.direction] at hin
    rw [hf.received m hm hin]
    exact hs.provided m hm hin

/-- Reading sets the count of one conversation. -/
theorem counted_of_marked (hs : Counted s) {c : Uuid} (hmessages : s'.db.messages = s.db.messages)
    (hcounts : ∀ j, s'.db.unreadCount j =
      (s.db.unreadCount j).map fun n => if j = c then 0 else n)
    (hread : s'.read = (receivedIn s.db c).map Message.id ++ s.read) : Counted s' := by
  refine ⟨?_, fun j n hn => ?_, ?_, by rw [hmessages]; exact hs.provided⟩
  · rw [hmessages]
    intro m hm j hj
    rw [hcounts, Option.isSome_map]
    exact hs.refers m hm j hj
  · rw [hcounts] at hn
    obtain ⟨k, hk, rfl⟩ := Option.map_eq_some_iff.mp hn
    rw [unread_of_marked hmessages hread]
    split_ifs
    · rfl
    · exact hs.counts j k hk
  · rw [hmessages, hread]
    intro id hid
    rcases List.mem_append.mp hid with hid | hid
    · obtain ⟨m, hm, rfl⟩ := List.mem_map.mp hid
      exact ⟨m, (mem_receivedIn.mp hm).1, rfl⟩
    · exact hs.known id hid

/-- **A step keeps the counters right.** -/
theorem counted_step (hs : Counted s) (h : s.step config a = some s') : Counted s' := by
  cases step_moves h with
  | same hmessages hcounts hread =>
      exact counted_of_updated hs (by simp [hmessages]) (.refl a _) hcounts hread
  | received m c hdirection hprovider hconversation hinsert hcounts hread =>
      exact counted_of_received hs hdirection hprovider hconversation hinsert hcounts hread
  | created m hdirection _ hconversation hinsert hcounts hread =>
      exact counted_of_created hs hdirection hconversation hinsert hcounts hread
  | updated f hrows hf _ hcounts hread => exact counted_of_updated hs hrows hf hcounts hread
  | marked c hmessages hcounts hread => exact counted_of_marked hs hmessages hcounts hread

/-- Unread messages have different provider ids, so counting rows is counting messages. -/
theorem Counted.nodup_unread (hs : Counted s) (c : Uuid) :
    ((unread s c).map Message.providerMessageId).Nodup := by
  have hunique : (unread s c).Pairwise fun m m' => ∀ k ∈ Keyed.keys m, k ∉ Keyed.keys m' :=
    (s.db.messages.unique.filter _).filter _
  refine List.pairwise_map.mpr (hunique.imp_of_mem ?_)
  intro m m' hm hm' hne heq
  obtain ⟨hrow, hin, -⟩ := mem_receivedIn.mp (List.mem_of_mem_filter hm)
  obtain ⟨q, hq⟩ := Option.isSome_iff_exists.mp (hs.provided m hrow hin)
  exact hne (.providerMessageId q) (mem_keys_providerMessageId.mpr hq)
    (mem_keys_providerMessageId.mpr (heq ▸ hq))

/-! ## Stored messages -/

/-- The dispatcher stores `q` as the provider id of a message that it sent. -/
def Act.Submits (q : String) : Act → Prop
  | .dispatch _ (.submit _ q' _) => q' = q
  | _ => False

/-- It can be checked what a step submits. -/
instance (q : String) : DecidablePred (Act.Submits q) := fun a => by
  unfold Act.Submits
  split <;> infer_instance

/-- What the events say about the received message `q` is, or will be, in the table. -/
structure Accounted (q : String) (s : WebhookSystem) : Prop where
  inbound : ∀ m ∈ s.db.messages.rows, m.providerMessageId = some q → m.direction = .inbound
  owed : ∀ p ∈ s.processors, ∀ event, p.stage.working = some event → Mentions event.payload q →
    q ∈ p.stage.owed ∨ s.db.Stored q
  stored : ∀ r ∈ s.db.webhookEvents.rows, r.processed = true → Mentions r.payload q →
    s.db.Stored q

/-- A message is stored just when a row has its id. -/
theorem stored_iff {db : Db} {q : String} :
    db.Stored q ↔ ∃ m ∈ db.messages.rows, m.providerMessageId = some q := by
  rw [Db.Stored, Option.isSome_iff_exists]
  simp only [Table.find_eq_some_iff, mem_keys_providerMessageId]

/-- A row with this provider id is a received one, and it stays. -/
theorem inbound_step {q : String} (h : s.step config a = some s') (ha : ¬ a.Submits q)
    (hs : ∀ m ∈ s.db.messages.rows, m.providerMessageId = some q → m.direction = .inbound) :
    (∀ m ∈ s'.db.messages.rows, m.providerMessageId = some q → m.direction = .inbound) ∧
      (s.db.Stored q → s'.db.Stored q) := by
  rw [stored_iff, stored_iff]
  cases step_moves h with
  | same hmessages _ _ | marked c hmessages _ _ =>
      rw [hmessages]
      exact ⟨hs, fun h => h⟩
  | received m c hdirection _ _ hinsert _ _ =>
      rw [Table.rows_of_insert? hinsert]
      constructor
      · intro m' hm' hq
        rcases List.mem_cons.mp hm' with rfl | hm'
        · exact hdirection
        · exact hs m' hm' hq
      · rintro ⟨m', hm', hq⟩
        exact ⟨m', List.mem_cons_of_mem _ hm', hq⟩
  | created m _ hprovider _ hinsert _ _ =>
      rw [Table.rows_of_insert? hinsert]
      constructor
      · intro m' hm' hq
        rcases List.mem_cons.mp hm' with rfl | hm'
        · rw [hprovider] at hq
          cases hq
        · exact hs m' hm' hq
      · rintro ⟨m', hm', hq⟩
        exact ⟨m', List.mem_cons_of_mem _ hm', hq⟩
  | updated f hrows hf _ _ _ =>
      rw [hrows]
      constructor
      · intro m' hm' hq
        obtain ⟨m, hm, rfl⟩ := List.mem_map.mp hm'
        rw [hf.direction]
        rcases hf.submitted m with hsame | ⟨id, now, q', response, rfl, hq'⟩
        · exact hs m hm (hsame ▸ hq)
        · rw [hq'] at hq
          exact absurd (Option.some.inj hq) ha
      · rintro ⟨m, hm, hq⟩
        exact ⟨f m, List.mem_map_of_mem hm, by rw [hf.received m hm (hs m hm hq), hq]⟩

/-- **A step loses no received message.** -/
theorem accounted_step {q : String} (hs : Accounted q s) (hcopies : Copies s)
    (h : s.step config a = some s') (ha : ¬ a.Submits q) : Accounted q s' := by
  obtain ⟨hinbound, hstays⟩ := inbound_step h ha hs.inbound
  refine ⟨hinbound, fun p' hp' event hworking hmentions => ?_, fun r' hr' hprocessed hmentions => ?_⟩
  · rcases mem_processors_step h hp' with hp | ⟨i, act, p, -, hp, hstep⟩ | ⟨hstage, -⟩
    · exact (hs.owed p' hp event hworking hmentions).imp_right hstays
    · rcases Processor.step_progress hstep hworking with ⟨-, hstage⟩ | hadvances
      · rw [hstage]
        exact .inl (mem_idsOfChanges.mpr hmentions)
      · rcases hs.owed p (List.mem_of_getElem? hp) event hadvances.working hmentions with hq | hq
        · exact hadvances.stored q hq
        · exact .inr (hstays hq)
    · rw [hstage] at hworking
      cases hworking
  · obtain ⟨f, hevents⟩ := step_events h
    obtain ⟨r, hr, -, hpayload, hcase⟩ := hevents.processed_cases hr' hprocessed
    rw [← hpayload] at hmentions
    rcases hcase with hprocessed | hfinishes
    · exact hstays (hs.stored r hr hprocessed hmentions)
    · obtain ⟨p, hp, event, hworking, -, hsame, howed, -⟩ := hfinishes.exists_poll hcopies hr
      rw [← hsame] at hmentions
      rcases hs.owed p hp event hworking hmentions with hq | hq
      · rw [howed] at hq
        cases hq
      · exact hstays hq

/-! ## Whole runs -/

/-- An inbox before its first message. -/
structure FreshInbox (db : Db) : Prop where
  messages : db.messages.rows = []
  conversations : db.conversations.rows = []
  webhookEvents : db.webhookEvents.rows = []

/-- At the start the counts are right. -/
theorem counted_start {db : Db} (hdb : FreshInbox db) (clock : Time) : Counted (start db clock) := by
  refine ⟨?_, fun c n hn => ?_, fun _ hid => absurd hid List.not_mem_nil, ?_⟩
  · intro m hm
    rw [start, hdb.messages] at hm
    cases hm
  · rw [Db.unreadCount, Table.find, start, hdb.conversations] at hn
    cases hn
  · intro m hm
    rw [start, hdb.messages] at hm
    cases hm

/-- At the start everything is accounted for. -/
theorem accounted_start {db : Db} (hdb : FreshInbox db) (clock : Time) (q : String) :
    Accounted q (start db clock) := by
  refine ⟨fun m hm => ?_, fun p hp => absurd hp List.not_mem_nil, fun r hr => ?_⟩
  · rw [start, hdb.messages] at hm
    cases hm
  · rw [start, hdb.webhookEvents] at hr
    cases hr

/-- **Exactly once.** In every run, with any number of polls, crashes and repeated payloads: a
provider id that a processed event mentions, and that the dispatcher never gets for a message of its
own, is the id of exactly one message; and the unread counter of every conversation is the number of
different messages that it received since it was last marked as read. -/
theorem inbound_exactly_once {db : Db} {clock : Time} {acts : List Act} (hdb : FreshInbox db)
    (hrun : exec (step config) (start db clock) acts = some s) :
    (∀ q, (∀ a ∈ acts, ¬ a.Submits q) → ∀ event ∈ s.db.webhookEvents.rows,
      event.processed = true → Mentions event.payload q →
        (s.db.messages.rows.filter fun m => m.providerMessageId = some q).length = 1) ∧
      ∀ c ∈ s.db.conversations.rows,
        c.unreadCount = ((unread s c.id).map Message.providerMessageId).dedup.length := by
  constructor
  · intro q hq event hevent hprocessed hmentions
    have hreach : Reaches (step config) (fun _ a => ¬ a.Submits q) (start db clock) s :=
      Reaches.of_exec hrun fun x hx => hq _ (label_mem_of_mem_trace hx)
    have hinv : Copies s ∧ Accounted q s := by
      refine hreach.invariant (P := fun x => Copies x ∧ Accounted q x)
        ⟨copies_start db clock, accounted_start hdb clock q⟩ ?_
      intro x a y hx ha hstep
      exact ⟨copies_step hx.1 hstep, accounted_step hx.2 hx.1 hstep ha⟩
    obtain ⟨m, hm, hmq⟩ := stored_iff.mp (hinv.2.stored event hevent hprocessed hmentions)
    apply le_antisymm
    · refine s.db.messages.length_filter_le_one _ (.providerMessageId q) fun r hr => ?_
      exact mem_keys_providerMessageId.mpr (by simpa using hr)
    · apply List.length_pos_of_mem
      exact List.mem_filter.mpr ⟨hm, by simpa using hmq⟩
  · intro c hc
    have hcounted : Counted s := by
      refine (Reachable.of_exec hrun).invariant (counted_start hdb clock) ?_
      intro x a y hx _ hstep
      exact counted_step hx hstep
    have hfind : s.db.conversations.find (.id c.id) = some c :=
      s.db.conversations.find_eq_some_iff.mpr ⟨hc, mem_keys_conversation_id.mpr rfl⟩
    rw [List.dedup_eq_self.mpr (hcounted.nodup_unread c.id), List.length_map]
    exact hcounted.counts c.id c.unreadCount (by rw [Db.unreadCount, hfind]; rfl)

/-- A webhook with one received message. -/
def samplePayload : Json :=
  let message : Json := .obj [("id", .str "wamid.in"), ("from", .str "5511999999999"),
    ("timestamp", .str "1700000000"), ("type", .str "text")]
  let value : Json := .obj [("metadata", .obj [("phone_number_id", .str "p")]),
    ("messages", .arr [message])]
  .obj [("entry", .arr [.obj [("changes", .arr [.obj [("value", value)]])]])]

/-- The webhook arrives twice; both polls pass the duplicate check, poll 0 commits, poll 1 breaks
the unique index and reads the message of poll 0. -/
def receivedTwice : List Act :=
  let ids : InboundIds := { contactId := 60, conversationId := 61, messageId := 62 }
  let call (i : ℕ) : Act := .processor i (.call .returned ids false)
  let run (i : ℕ) : Act := .processor i .run
  let begun (i : ℕ) : List Act := [run i, run i, call i, run i, call i]
  [.receive 50 samplePayload, .receive 51 samplePayload, .poll 0 [50], .poll 0 [51]] ++
    begun 0 ++ begun 1 ++
    [call 0, .processor 1 (.call (.failed "P2002") ids true), call 1] ++
    [run 1, run 1, call 1, run 1, call 1]

/-- The message is stored once and counted once. -/
theorem inbound_exactly_once_receivedTwice :
    ∃ s, exec (step sampleConfig) (start sampleDb 0) receivedTwice = some s ∧
      (s.db.messages.rows.filter fun m => m.providerMessageId = some "wamid.in").length = 1 ∧
      s.db.conversations.rows.map Conversation.unreadCount = [1] ∧
      ∀ c ∈ s.db.conversations.rows,
        c.unreadCount = ((unread s c.id).map Message.providerMessageId).dedup.length := by
  have hend : ∃ s ∈ exec (step sampleConfig) (start sampleDb 0) receivedTwice,
      (∃ event ∈ s.db.webhookEvents.rows, event.processed = true ∧
        Mentions event.payload "wamid.in") ∧
      s.db.conversations.rows.map Conversation.unreadCount = [1] := by decide +kernel
  obtain ⟨s, hs, ⟨event, hevent, hprocessed, hmentions⟩, hcount⟩ := hend
  obtain ⟨hstored, hunread⟩ := inbound_exactly_once ⟨rfl, rfl, rfl⟩ hs
  exact ⟨s, hs, hstored "wamid.in" (by decide) event hevent hprocessed hmentions, hcount,
    hunread⟩

end ApiWhatsApp.WebhookSystem
