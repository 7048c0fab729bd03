import ApiWhatsApp.Outbound.Leases

/-!
# Carriers

A message that waits for its dispatch is *carried*: by an outbox event that is not published, by a
job in a main or retry queue, or by a delivery that the broker waits for. Without a carrier nothing
in the system ever looks at the message again.

* `HasCarrier` — the property, and `IsCarried`, the stronger one that is inductive: an outbox event
  that a flush is about to mark, and a delivery that is about to be acknowledged, carry nothing.
* `Delivery.abandons` — the three branches of the source that let a message go although it is not
  done: `dispatch` acknowledges a job whose row was put back to `QUEUED` between the failed claim
  and the read; `markRetryExhausted` returns when somebody holds a lease; and
  `markRetryableFailure` reopens a row that was done.
* **`carried_of_run`** — in every run that takes none of them, every message that `create` committed
  is carried as long as it is `QUEUED` or `PROCESSING`. `stranded_by_acknowledgement` is a run that
  takes the first.

The proof follows the job: `release_cases` says when a delivery starts to let go of its job, and
`IsCarried` is then shown for each kind of step.
-/

namespace ApiWhatsApp

open Library

/-! ## Letting go of a job -/

namespace Delivery

variable {config : OutboundConfig} {clock : Time} {row : Option Message} {d d' : Delivery}
  {act : DeliveryAct} {effect : Effect}

/-- Whether a step lets go of a message that is not done, or reopens one that is. -/
def abandons (clock : Time) (m : Message) (d : Delivery) : DeliveryAct → Bool
  | .call outcome =>
      match d.stage with
      -- The last `ack` of `dispatch` after a failed claim.
      | .reload false => outcome = .returned && m.providerMessageId.isNone &&
          !isTerminalOrSubmitted m.status && m.status ≠ .processing
      -- The second early return of `markRetryExhausted`.
      | .exhausted _ => outcome = .returned && m.status = .processing &&
          m.processingLeaseUntil.any (clock < ·)
      -- `markRetryableFailure` asks for no status.
      | .markRetryable _ _ => outcome.tookEffect && isTerminalOrSubmitted m.status
      | _ => false
  | _ => false

/-- The end of a call: it returned with its effect, or it threw, with or without. -/
theorem stage_endCall {p : Pending} {outcome : CallOutcome}
    (h : d.endCall row p outcome = some (d', effect)) :
    (outcome = .returned ∧ d'.stage = p.returned ∧ effect = p.effect) ∨
      ∃ error, d'.stage = p.threw error ∧ (effect = p.effect ∨ effect = .none) := by
  cases outcome with
  | failed error =>
      cases h
      exact .inr ⟨error, rfl, .inr rfl⟩
  | returned =>
      simp only [endCall] at h
      split_ifs at h
      cases h
      exact .inl ⟨rfl, rfl, rfl⟩
  | interrupted error =>
      simp only [endCall] at h
      split_ifs at h
      cases h
      exact .inr ⟨error, rfl, .inl rfl⟩

/-- `dispatch` lets go after a failed claim only by an `ack`. -/
theorem eq_ack_of_releasing {job : OutboundQueueJob}
    (h : (afterHandler config job (notClaimed row)).phase = .releasing) :
    notClaimed row = .ack := by
  rcases row with _ | m
  · rfl
  · simp only [notClaimed] at h ⊢
    split_ifs at h ⊢
    · rfl
    · cases h
    · rfl

/-- `markRetryExhausted` lets go by returning early. -/
theorem eq_deadLetter_of_releasing {reason : String}
    (h : (afterExhausted clock row reason).phase = .releasing) :
    afterExhausted clock row reason = .deadLetter reason := by
  rcases row with _ | m
  · rfl
  · simp only [afterExhausted] at h ⊢
    split_ifs at h ⊢
    · rfl
    · rfl
    · cases h

/-- A claimed message is not let go when it is read back. -/
theorem phase_afterReload_true (config : OutboundConfig) (clock : Time) (row : Option Message)
    (job : OutboundQueueJob) : (afterReload config clock row job true).phase ≠ .releasing := by
  have hflow := phase_afterReload config clock row job true
  intro h
  rw [h] at hflow
  cases hflow

/-- How a delivery comes to let go of its job: it was published again, the message is done, or the
code has decided so from the row it read. -/
theorem release_cases (h : d.step config clock row act = some (d', effect))
    (hbefore : d.stage.phase ≠ .releasing) (hafter : d'.stage.phase = .releasing) :
    (∃ publication, effect = .publishRetry publication) ∨
      (∃ w, effect = .write w ∧ isTerminalOrSubmitted w.status = true) ∨
      (act = .call .returned ∧ d.stage = .reload false ∧ notClaimed row = .ack) ∨
      ∃ reason, act = .call .returned ∧ d.stage = .exhausted reason ∧
        afterExhausted clock row reason = .deadLetter reason := by
  cases act with
  | call outcome =>
      obtain ⟨p, hp, h⟩ := Option.bind_eq_some_iff.mp h
      have hnext := stage_endCall h
      unfold pending at hp
      split at hp <;> cases hp <;> rename_i hs <;> rw [hs] at hbefore
      case h_2 claimed =>
        rcases hnext with ⟨rfl, hs', -⟩ | ⟨e, hs', -⟩ <;> rw [hs'] at hafter
        · cases claimed with
          | true => exact absurd hafter (phase_afterReload_true config clock row d.job)
          | false =>
              change (afterHandler config d.job (notClaimed row)).phase = .releasing at hafter
              exact .inr (.inr (.inl ⟨rfl, hs, eq_ack_of_releasing hafter⟩))
        · cases hafter
      case h_8 reason =>
        rcases hnext with ⟨rfl, hs', -⟩ | ⟨e, hs', -⟩ <;> rw [hs'] at hafter
        · exact .inr (.inr (.inr ⟨reason, rfl, hs, eq_deadLetter_of_releasing hafter⟩))
        · cases hafter
      case h_4 | h_6 | h_9 =>
        -- The message is submitted or failed, if the call returns.
        rcases hnext with ⟨-, -, rfl⟩ | ⟨e, hs', -⟩
        · exact .inr (.inl ⟨_, rfl, rfl⟩)
        · rw [hs'] at hafter
          cases hafter
      case h_5 =>
        rcases hnext with ⟨-, hs', -⟩ | ⟨e, hs', -⟩ <;> rw [hs'] at hafter
        · rw [phase_afterHandler_retry] at hafter
          cases hafter
        · cases hafter
      case h_7 =>
        rcases hnext with ⟨-, -, rfl⟩ | ⟨e, hs', -⟩
        · exact .inl ⟨_, rfl⟩
        · rw [hs'] at hafter
          cases hafter
      case h_1 now =>
        rcases hnext with ⟨-, hs', -⟩ | ⟨e, hs', -⟩ <;> rw [hs'] at hafter
        · cases hc : claimed row now <;> simp [hc, Stage.phase] at hafter
        · cases hafter
      case h_10 | h_11 => exact absurd rfl hbefore
      all_goals rcases hnext with ⟨-, hs', -⟩ | ⟨e, hs', -⟩ <;> rw [hs'] at hafter <;> cases hafter
  | sent outcome =>
      simp only [step] at h
      split at h <;> cases h
      change (afterSend clock outcome).phase = .releasing at hafter
      have hflow := phase_afterSend clock outcome
      rw [hafter] at hflow
      cases hflow
  | run =>
      simp only [step] at h
      split at h
      · cases h; cases hafter
      · cases h; cases hafter
      · split_ifs at h; cases h; cases hafter
      · cases h
  | sender outcome | slot outcome | crash =>
      simp only [step] at h
      split at h <;> cases h <;> cases hafter

end Delivery

/-! ## Flushes -/

namespace Publisher

/-- The event that a flush works on. -/
def current (p : Publisher) : Option OutboxEvent :=
  match p.stage with
  | .lookup event | .publish event _ | .markPublished event _ | .recordError event _ _ => some event
  | .next | .finished | .crashed => none

/-- The event that a flush is about to mark as published. -/
def marks (p : Publisher) : Option Uuid :=
  match p.stage with
  | .markPublished event _ => some event.id
  | _ => none

/-- What is marked is the event at hand. -/
theorem exists_of_marks {p : Publisher} {id : Uuid} (h : p.marks = some id) :
    ∃ event, p.current = some event ∧ event.id = id := by
  unfold marks at h
  split at h
  · rename_i event now hs
    exact ⟨event, by simp [current, hs], by simpa using h⟩
  · cases h

/-- The events of a flush are in the table, and a job that it publishes is for the message of its
event. -/
structure Matches (db : Db) (p : Publisher) : Prop where
  rows : ∀ e, e ∈ p.batch ∨ p.current = some e →
    ∃ r ∈ db.outboxEvents.rows, r.id = e.id ∧ messageId r = messageId e
  job : ∀ event job, p.stage = .publish event job → job.messageId = messageId event

variable {clock : Time} {row : Uuid → Option Message} {p p' : Publisher} {act : PublisherAct}
  {effect : PublisherEffect}

/-- The job is about the message of the event. -/
theorem messageId_of_afterLookup {m : Option Message} {event event' : OutboxEvent}
    {job : OutboundQueueJob} (h : afterLookup clock m event = .publish event' job) :
    job.messageId = messageId event' := by
  unfold afterLookup at h
  simp only at h
  split at h
  · cases h
  · cases h
    rfl
  · split_ifs at h
    cases h
    rfl

/-- The event is still at hand after the lookup. -/
theorem current_afterLookup (clock : Time) (m : Option Message) (event : OutboxEvent)
    (batch : List OutboxEvent) :
    (Publisher.mk batch (afterLookup clock m event)).current = some event ∧
      (Publisher.mk batch (afterLookup clock m event)).marks = none := by
  unfold afterLookup
  simp only
  split
  · exact ⟨rfl, rfl⟩
  · exact ⟨rfl, rfl⟩
  · split_ifs <;> exact ⟨rfl, rfl⟩

/-- What a step of a flush can do: it drops events but takes none, publishes before it marks, and
marks what it was about to mark. -/
theorem step_cases (h : p.step clock row act = some (p', effect)) :
    (∀ e, e ∈ p'.batch ∨ p'.current = some e → e ∈ p.batch ∨ p.current = some e) ∧
      (∀ event job, p'.stage = .publish event job → job.messageId = messageId event) ∧
      (∀ id, p'.marks = some id →
        ∃ event job, event.id = id ∧ p.stage = .publish event job ∧ effect = .enqueue job) ∧
      ∀ id now, effect = .markPublished id now → p.marks = some id := by
  cases act with
  | run =>
      obtain ⟨batch, stage⟩ := p
      simp only [step] at h
      split at h
      · cases h
        simp_all [current, marks]
      · split_ifs at h <;> cases h <;> simp_all [current, marks] <;>
          exact fun e he => he.elim .inr fun heq => .inl heq.symm
      · cases h
  | crash =>
      obtain ⟨batch, stage⟩ := p
      simp only [step] at h
      split at h
      · cases h
      · cases h
      · cases h
        simp_all [current, marks]
  | call outcome =>
      obtain ⟨batch, stage⟩ := p
      obtain ⟨⟨e, returned, threw⟩, hp, h⟩ := Option.map_eq_some_iff.mp h
      simp only [pending] at hp
      split at hp <;> cases hp
      case h_1 event _ =>
        cases outcome with
        | returned =>
            cases h
            have hlookup := current_afterLookup clock (row (messageId event)) event batch
            refine ⟨fun e he => ?_, fun _ _ hs => messageId_of_afterLookup hs, fun id hid => ?_,
              fun _ _ he => by cases he⟩
            · rw [hlookup.1] at he
              exact he
            · rw [hlookup.2] at hid
              cases hid
        | failed error | interrupted error =>
            cases h
            simp_all [current, marks]
      all_goals cases outcome <;> cases h <;> simp_all [current, marks]

end Publisher

/-- The rows of the outbox stay, for the same messages; only a marked one becomes published. -/
def Db.OutboxKept (marked : Option Uuid) (db db' : Db) : Prop :=
  ∀ r ∈ db.outboxEvents.rows, ∃ r' ∈ db'.outboxEvents.rows, r'.id = r.id ∧
    Publisher.messageId r' = Publisher.messageId r ∧
    (marked ≠ some r.id → r'.publishedAt = r.publishedAt)

/-- Where the outbox is untouched, its events are kept. -/
theorem Db.OutboxKept.of_eq {marked : Option Uuid} {db db' : Db}
    (h : db'.outboxEvents = db.outboxEvents) : db.OutboxKept marked db' := by
  intro r hr
  exact ⟨r, by rw [h]; exact hr, rfl, rfl, fun _ => rfl⟩

/-- An update of outbox rows that keeps their messages. -/
theorem Db.OutboxKept.updateWhere {marked : Option Uuid} {db db' : Db} {q : OutboxEvent → Bool}
    {f : OutboxEvent → OutboxEvent} (hf : ∀ e, Keyed.keys (f e) = Keyed.keys e)
    (h : db'.outboxEvents = db.outboxEvents.updateWhere q f hf) (hid : ∀ e, (f e).id = e.id)
    (hmessage : ∀ e, Publisher.messageId (f e) = Publisher.messageId e)
    (hpublished : ∀ e, q e = true → marked ≠ some e.id → (f e).publishedAt = e.publishedAt) :
    db.OutboxKept marked db' := by
  intro r hr
  refine ⟨if q r then f r else r, ?_, ?_⟩
  · rw [h, Table.rows_updateWhere]
    exact List.mem_map_of_mem hr
  · split_ifs with hq
    · exact ⟨hid r, hmessage r, hpublished r hq⟩
    · exact ⟨rfl, rfl, fun _ => rfl⟩

/-- A new event keeps the others. -/
theorem Db.OutboxKept.insert? {marked : Option Uuid} {db db' : Db} {e : OutboxEvent}
    (h : db.outboxEvents.insert? e = some db'.outboxEvents) : db.OutboxKept marked db' := by
  intro r hr
  exact ⟨r, by rw [Table.rows_of_insert? h]; exact List.mem_cons_of_mem _ hr, rfl, rfl,
    fun _ => rfl⟩

/-- A publisher still matches where its events are kept. -/
theorem Publisher.Matches.mono {marked : Option Uuid} {db db' : Db} {p : Publisher}
    (h : p.Matches db) (hkept : db.OutboxKept marked db') : p.Matches db' where
  rows e he := by
    obtain ⟨r, hr, hid, hmessage⟩ := h.rows e he
    obtain ⟨r', hr', hid', hmessage', -⟩ := hkept r hr
    exact ⟨r', hr', hid'.trans hid, hmessage'.trans hmessage⟩
  job := h.job

/-! ## Carriers -/

namespace Pipeline

variable {env : PipelineEnv} {s s' : Pipeline} {a : Act} {id : Uuid}

/-- Something in the system still leads to the message: an outbox event that is not published, a
job in a main or retry queue, or a delivery that the broker waits for. -/
def HasCarrier (id : Uuid) (s : Pipeline) : Prop :=
  (∃ e ∈ s.db.outboxEvents.rows, Publisher.messageId e = id ∧ e.publishedAt = none) ∨
    (∃ job ∈ s.main, job.messageId = id) ∨
    (∃ entry ∈ s.retry, entry.publication.job.messageId = id) ∨
    ∃ d ∈ s.deliveries, d.job.messageId = id ∧ d.unacked = true

/-- The carriers can be looked for. -/
instance (id : Uuid) (s : Pipeline) : Decidable (HasCarrier id s) :=
  inferInstanceAs (Decidable (_ ∨ _ ∨ _ ∨ _))

/-- A carrier that is not about to be dropped. -/
inductive IsCarried (id : Uuid) (s : Pipeline) : Prop where
  | event (e : OutboxEvent) (he : e ∈ s.db.outboxEvents.rows) (hid : Publisher.messageId e = id)
      (hunpublished : e.publishedAt = none) (hmarks : ∀ p ∈ s.publishers, p.marks ≠ some e.id)
  | main (job : OutboundQueueJob) (hjob : job ∈ s.main) (hid : job.messageId = id)
  | retry (entry : RetryEntry) (hentry : entry ∈ s.retry)
      (hid : entry.publication.job.messageId = id)
  | delivery (i : ℕ) (d : Delivery) (hd : s.deliveries[i]? = some d) (hid : d.job.messageId = id)
      (hunacked : d.unacked = true) (hphase : d.stage.phase ≠ .releasing)

/-- What is carried has a carrier. -/
theorem IsCarried.hasCarrier (h : IsCarried id s) : HasCarrier id s := by
  cases h with
  | event e he hid hunpublished _ => exact .inl ⟨e, he, hid, hunpublished⟩
  | main job hjob hid => exact .inr (.inl ⟨job, hjob, hid⟩)
  | retry entry hentry hid => exact .inr (.inr (.inl ⟨entry, hentry, hid⟩))
  | delivery i d hd hid hunacked _ =>
      exact .inr (.inr (.inr ⟨d, List.mem_of_getElem? hd, hid, hunacked⟩))

/-- What is carried stays carried when nothing is taken away. -/
theorem IsCarried.mono (h : IsCarried id s) (hkept : s.db.OutboxKept none s'.db)
    (hmarks : ∀ p' ∈ s'.publishers, p'.marks = none ∨ ∃ p ∈ s.publishers, p'.marks = p.marks)
    (hmain : ∀ job ∈ s.main, job.messageId = id → IsCarried id s')
    (hretry : ∀ entry ∈ s.retry, entry.publication.job.messageId = id → IsCarried id s')
    (hdelivery : ∀ (i : ℕ) (d : Delivery), s.deliveries[i]? = some d → d.job.messageId = id → d.unacked = true →
      d.stage.phase ≠ .releasing → IsCarried id s') : IsCarried id s' := by
  cases h with
  | event e he hid hunpublished hfree =>
      obtain ⟨e', he', hid', hmessage, hpublished⟩ := hkept e he
      refine .event e' he' (hmessage.trans hid) ?_ fun p' hp' => ?_
      · rw [hpublished (by simp), hunpublished]
      · rw [hid']
        rcases hmarks p' hp' with hnone | ⟨p, hp, heq⟩
        · simp [hnone]
        · rw [heq]
          exact hfree p hp
  | main job hjob hid => exact hmain job hjob hid
  | retry entry hentry hid => exact hretry entry hentry hid
  | delivery i d hd hid hunacked hphase => exact hdelivery i d hd hid hunacked hphase

/-- What is carried stays carried when flushes, queues and deliveries are left alone. -/
theorem IsCarried.frame (h : IsCarried id s) (hkept : s.db.OutboxKept none s'.db)
    (hpublishers : s'.publishers = s.publishers) (hmain : s'.main = s.main)
    (hretry : s'.retry = s.retry) (hdeliveries : s'.deliveries = s.deliveries) :
    IsCarried id s' := by
  refine h.mono hkept (fun p hp => .inr ⟨p, hpublishers ▸ hp, rfl⟩) ?_ ?_ ?_
  · exact fun job hjob hid => .main job (hmain ▸ hjob) hid
  · exact fun entry hentry hid => .retry entry (hretry ▸ hentry) hid
  · exact fun i d hd hid hunacked hphase => .delivery i d (hdeliveries ▸ hd) hid hunacked hphase

/-- A step lets go of no waiting message, and reopens none. -/
def AbandonsNone (id : Uuid) (s : Pipeline) (a : Act) : Prop :=
  ∀ x ∈ a.moved, ∀ d ∈ s.deliveries[x.1]?, d.job.messageId = id → ∀ m ∈ s.db.message id,
    d.abandons s.clock m x.2 = false

/-- The condition can be checked. -/
instance (id : Uuid) (s : Pipeline) (a : Act) : Decidable (AbandonsNone id s a) :=
  inferInstanceAs (Decidable (∀ x ∈ a.moved, ∀ d ∈ s.deliveries[x.1]?, d.job.messageId = id →
    ∀ m ∈ s.db.message id, d.abandons s.clock m x.2 = false))

/-- The row of a message with a provider id is done. -/
def DoneIfSubmitted (id : Uuid) (s : Pipeline) : Prop :=
  ∀ m ∈ s.db.message id, m.providerMessageId.isSome = true →
    isTerminalOrSubmitted m.status = true

/-- The row of the message waits for a dispatch. -/
def IsWaiting (id : Uuid) (s : Pipeline) : Prop :=
  ∃ m ∈ s.db.message id, isTerminalOrSubmitted m.status = false

/-- The write of a step that abandons nothing makes a done row neither waiting nor, when it has a
provider id, anything but done. -/
theorem done_of_write {i : ℕ} {act : DeliveryAct} {d d' : Delivery} {w : RowWrite} {m : Message}
    (hdone : DoneIfSubmitted id s) (hg : AbandonsNone id s (.delivery i act))
    (hd : s.deliveries[i]? = some d) (hid : d.job.messageId = id)
    (hstep : d.step env.config s.clock (s.db.message d.job.messageId) act = some (d', .write w))
    (hm : s.db.message id = some m) :
    ((w.apply m).providerMessageId.isSome = true →
        isTerminalOrSubmitted (w.apply m).status = true) ∧
      (isTerminalOrSubmitted (w.apply m).status = false →
        isTerminalOrSubmitted m.status = false) := by
  rcases Delivery.write_cases hstep with ⟨now, m₁, -, hm₁, hclaimable, rfl, -⟩ | ⟨hw, -⟩
  · rw [hid, hm] at hm₁
    cases hm₁
    have hopen : ¬ m.IsClosed := fun hclosed => by
      rw [Message.not_claimable_of_isClosed hclosed now] at hclaimable
      cases hclaimable
    unfold Message.IsClosed at hopen
    push Not at hopen
    exact ⟨fun hsome => absurd hsome hopen.1, fun _ => by simpa using hopen.2⟩
  · cases w with
    | claim => cases Stage.isCompleting_of_completing hw
    | submit | markFailed => exact ⟨fun _ => rfl, fun hfalse => by cases hfalse⟩
    | markRetryableFailure code message =>
        have hs := Stage.eq_markRetryable_of_completing hw
        obtain ⟨outcome, rfl, htook⟩ := Delivery.exists_call_of_write hstep
        have hopen : isTerminalOrSubmitted m.status = false := by
          have hnot := hg _ rfl d hd hid m hm
          simpa [Delivery.abandons, hs, htook] using hnot
        refine ⟨fun hsome => ?_, fun _ => hopen⟩
        rw [hdone m hm hsome] at hopen
        cases hopen

/-- A step that abandons nothing keeps submitted rows done, and only a new row starts to wait. -/
theorem waiting_of_moves (hdone : DoneIfSubmitted id s) (hg : AbandonsNone id s a)
    (h : Moves env s s' a) :
    DoneIfSubmitted id s' ∧
      (IsWaiting id s' →
        IsWaiting id s ∨ (s.db.message id = none ∧ ∃ i act, a = .create i act)) := by
  suffices hrow : ∀ m' ∈ s'.db.message id,
      (m'.providerMessageId.isSome = true → isTerminalOrSubmitted m'.status = true) ∧
      (isTerminalOrSubmitted m'.status = false →
        IsWaiting id s ∨ (s.db.message id = none ∧ ∃ i act, a = .create i act)) by
    refine ⟨fun m' hm' => (hrow m' hm').1, ?_⟩
    rintro ⟨m', hm', hopen⟩
    exact (hrow m' hm').2 hopen
  intro m' hm'
  have hsame : s.db.message id = some m' →
      (m'.providerMessageId.isSome = true → isTerminalOrSubmitted m'.status = true) ∧
      (isTerminalOrSubmitted m'.status = false →
        IsWaiting id s ∨ (s.db.message id = none ∧ ∃ i act, a = .create i act)) :=
    fun hm => ⟨hdone m' hm, fun hopen => .inl ⟨m', hm, hopen⟩⟩
  cases h with
  | quiet _ hrows | consumed _ _ hrows | redelivered _ _ _ hrows =>
      rw [hrows] at hm'
      exact hsame hm'
  | created i act m₀ hnone hfresh hrows =>
      rw [hrows] at hm'
      split_ifs at hm' with hid
      · cases hm'
        refine ⟨fun hsome => ?_, fun _ => .inr ⟨hid ▸ hnone, i, act, rfl⟩⟩
        rw [hfresh.2.1] at hsome
        cases hsome
      · exact hsame hm'
  | reported report m₀ target at_ error _ _ htarget _ hrows =>
      rw [hrows] at hm'
      split_ifs at hm' with hid
      · cases hm'
        have hterminal : isTerminalOrSubmitted (m₀.stamp target at_ error).status = true := by
          rcases htarget with rfl | rfl | rfl | rfl <;> rfl
        exact ⟨fun _ => hterminal, fun hopen => by rw [hterminal] at hopen; cases hopen⟩
      · exact hsame hm'
  | delivered i act d d' effect hd hstep _ hrows =>
      rw [hrows] at hm'
      obtain ⟨m, hm, rfl⟩ := Option.map_eq_some_iff.mp hm'
      by_cases hid : id = d.job.messageId
      · rw [if_pos hid]
        cases effect with
        | write w =>
            obtain ⟨hprovider, hopen⟩ := done_of_write hdone hg hd hid.symm hstep hm
            exact ⟨hprovider, fun h => .inl ⟨m, hm, hopen h⟩⟩
        | none | ack | nack | recordEvent _ | publishRetry _ | publishDead _ =>
            exact ⟨hdone m hm, fun hopen => .inl ⟨m, hm, hopen⟩⟩
      · rw [if_neg hid]
        exact ⟨hdone m hm, fun hopen => .inl ⟨m, hm, hopen⟩⟩

/-- A status report leaves the outbox. -/
theorem outboxEvents_of_applyStatus {db db' : Db} {now : Time} {report : MetaMessageStatus}
    (h : db.applyStatus now report = some db') : db'.outboxEvents = db.outboxEvents := by
  unfold Db.applyStatus at h
  split at h
  · cases h; rfl
  split at h
  · cases h; rfl
  obtain ⟨at_, -, rfl⟩ := Option.map_eq_some_iff.mp h
  rfl

/-- A waiting message is carried; with what that needs. -/
structure Followed (id : Uuid) (s : Pipeline) : Prop where
  done : DoneIfSubmitted id s
  carried : IsWaiting id s → IsCarried id s
  publishers : ∀ p ∈ s.publishers, p.Matches s.db
  publications : ∀ d ∈ s.deliveries, ∀ publication, d.stage = .publish publication →
    publication.job.messageId = d.job.messageId

/-- What carrying out an effect adds to the queues. -/
theorem perform_queues {job : OutboundQueueJob} {effect : Effect}
    (h : s.perform job effect = some s') :
    s'.db.outboxEvents = s.db.outboxEvents ∧ s'.publishers = s.publishers ∧
      (∀ j ∈ s.main, j ∈ s'.main) ∧ (∀ e ∈ s.retry, e ∈ s'.retry) ∧
      (effect = .nack → job ∈ s'.main) ∧
      ∀ publication, effect = .publishRetry publication →
        ∃ due, ⟨due, publication⟩ ∈ s'.retry := by
  cases effect with
  | write w =>
      obtain ⟨messages, -, rfl⟩ := Option.map_eq_some_iff.mp h
      exact ⟨rfl, rfl, fun _ hj => hj, fun _ he => he, by simp, by simp⟩
  | nack =>
      cases h
      exact ⟨rfl, rfl, fun _ hj => List.mem_cons_of_mem _ hj, fun _ he => he,
        fun _ => List.mem_cons_self, by simp⟩
  | publishRetry publication =>
      cases h
      refine ⟨rfl, rfl, fun _ hj => hj, fun _ he => List.mem_cons_of_mem _ he, by simp, ?_⟩
      rintro _ ⟨⟩
      exact ⟨_, List.mem_cons_self⟩
  | none | ack | recordEvent _ | publishDead _ =>
      cases h
      exact ⟨rfl, rfl, fun _ hj => hj, fun _ he => he, by simp, by simp⟩

/-- A delivery that starts to let go of a waiting message has put it back, unless it abandons it. -/
theorem retry_of_release {i : ℕ} {act : DeliveryAct} {d d' : Delivery} {effect : Effect}
    (hinv : Followed id s) (hg : AbandonsNone id s (.delivery i act))
    (hd : s.deliveries[i]? = some d) (hid : d.job.messageId = id)
    (hstep : d.step env.config s.clock (s.db.message d.job.messageId) act = some (d', effect))
    (hbefore : d.stage.phase ≠ .releasing) (hafter : d'.stage.phase = .releasing)
    {m : Message} (hm : s.db.message id = some m) (hopen : isTerminalOrSubmitted m.status = false)
    (hopen' : isTerminalOrSubmitted (onRow effect m).status = false) :
    ∃ publication, effect = .publishRetry publication := by
  have hprovider : m.providerMessageId = none := by
    by_contra hne
    rw [hinv.done m hm (Option.isSome_iff_ne_none.mpr hne)] at hopen
    cases hopen
  rw [hid, hm] at hstep
  rcases Delivery.release_cases hstep hbefore hafter with h | ⟨w, rfl, hw⟩ | ⟨rfl, hs, hack⟩ |
    ⟨reason, rfl, hs, hdead⟩
  · exact h
  · rw [onRow, RowWrite.status_apply, hw] at hopen'
    cases hopen'
  · -- The row is neither done nor under a lease, so this is the last `ack`.
    exfalso
    have habandons := hg _ rfl d hd hid m hm
    have hstatus : m.status ≠ .processing := by
      intro hp
      simp [Delivery.notClaimed, hprovider, hp, isTerminalOrSubmitted] at hack
    simp [Delivery.abandons, hs, hprovider, hopen, hstatus] at habandons
  · exfalso
    have habandons := hg _ rfl d hd hid m hm
    simp only [Delivery.afterExhausted, hopen, Bool.false_eq_true, if_false] at hdead
    split_ifs at hdead with hlease
    simp [Delivery.abandons, hs] at habandons
    simp only [Bool.and_eq_true, decide_eq_true_eq] at hlease
    rw [habandons hlease.1] at hlease
    cases hlease.2

/-- The step of a delivery keeps a waiting message carried. -/
theorem carried_of_delivery {i : ℕ} {act : DeliveryAct} (hinv : Followed id s)
    (hg : AbandonsNone id s (.delivery i act)) (hstep : s.step env (.delivery i act) = some s')
    (hwaiting : IsWaiting id s) (hwaiting' : IsWaiting id s') : IsCarried id s' := by
  obtain ⟨d, hd, hstep⟩ := Option.bind_eq_some_iff.mp hstep
  obtain ⟨⟨d', effect⟩, hlocal, hstep⟩ := Option.bind_eq_some_iff.mp hstep
  obtain ⟨s₁, hperform, rfl⟩ := Option.map_eq_some_iff.mp hstep
  obtain ⟨hevents, hpublishers, hmain, hretry, hnack, hpublish⟩ := perform_queues hperform
  obtain ⟨hrows, -⟩ := perform_spec hperform
  have hlen : i < s.deliveries.length := (List.getElem?_eq_some_iff.mp hd).1
  refine (hinv.carried hwaiting).mono (.of_eq hevents) ?_ ?_ ?_ ?_
  · intro p hp
    exact .inr ⟨p, hpublishers ▸ hp, rfl⟩
  · exact fun job hjob hid => .main job (hmain job hjob) hid
  · exact fun entry hentry hid => .retry entry (hretry entry hentry) hid
  · intro j e hj hid hunacked hphase
    by_cases hji : j = i
    · subst hji
      rw [hd] at hj
      cases hj
      by_cases hrelease : d'.stage.phase = .releasing
      · obtain ⟨m, hm, hopen⟩ := hwaiting
        obtain ⟨m', hm', hopen'⟩ := hwaiting'
        change s₁.db.message id = some m' at hm'
        rw [hrows, hm, Option.map_some, if_pos hid.symm] at hm'
        cases hm'
        obtain ⟨publication, rfl⟩ :=
          retry_of_release hinv hg hd hid hlocal hphase hrelease hm hopen hopen'
        obtain ⟨due, hdue⟩ := hpublish publication rfl
        refine .retry _ hdue ?_
        rw [← hid]
        exact hinv.publications d (List.mem_of_getElem? hd) publication
          (Delivery.stage_of_publishRetry hlocal)
      · rcases Delivery.unacked_step hlocal with heq | ⟨-, hs⟩ | rfl
        · refine .delivery j d' ?_ (by rw [Delivery.job_step hlocal, hid]) (heq ▸ hunacked) hrelease
          exact List.getElem?_set_self hlen
        · exact absurd (by rw [hs]; rfl) hphase
        · exact .main d.job (hnack rfl) hid
    · refine .delivery j e ?_ hid hunacked hphase
      change (s.deliveries.set i d')[j]? = some e
      rw [List.getElem?_set_ne (Ne.symm hji), hj]

/-- A claim of events keeps them. -/
theorem outboxKept_claimEvents (db : Db) (now leaseUntil : Time) (ids : List Uuid) :
    db.OutboxKept none (db.claimEvents now leaseUntil ids).1 :=
  .updateWhere (f := OutboxEvent.claim leaseUntil) (fun _ => rfl) rfl (fun _ => rfl) (fun _ => rfl)
    fun _ _ _ => rfl

/-- What the effect of a flush does to the outbox and the main queues. -/
theorem publish_spec (s : Pipeline) (effect : PublisherEffect) :
    (∀ marked, (∀ id now, effect = .markPublished id now → marked = some id) →
        s.db.OutboxKept marked (s.publish effect).db) ∧
      (∀ j ∈ s.main, j ∈ (s.publish effect).main) ∧
      (∀ job, effect = .enqueue job → job ∈ (s.publish effect).main) ∧
      (s.publish effect).retry = s.retry ∧ (s.publish effect).deliveries = s.deliveries := by
  cases effect with
  | none => exact ⟨fun _ _ => .of_eq rfl, fun _ hj => hj, by simp, rfl, rfl⟩
  | enqueue job =>
      refine ⟨fun _ _ => .of_eq rfl, fun _ hj => List.mem_cons_of_mem _ hj, ?_, rfl, rfl⟩
      rintro _ ⟨⟩
      exact List.mem_cons_self
  | markPublished id now =>
      refine ⟨fun marked hmarked => ?_, fun _ hj => hj, by simp, rfl, rfl⟩
      refine .updateWhere (f := OutboxEvent.markPublished now) (fun _ => rfl) rfl (fun _ => rfl)
        (fun _ => rfl) fun e he hne => ?_
      simp only [decide_eq_true_eq] at he
      rw [hmarked id now rfl, he] at hne
      exact absurd rfl hne
  | recordError id nextAttemptAt error =>
      refine ⟨fun _ _ => ?_, fun _ hj => hj, by simp, rfl, rfl⟩
      exact .updateWhere (f := OutboxEvent.recordError nextAttemptAt error) (fun _ => rfl) rfl
        (fun _ => rfl) (fun _ => rfl) fun _ _ _ => rfl

/-- The step of a flush keeps the events of every flush in the table. -/
theorem matches_of_publisher {i : ℕ} {act : PublisherAct}
    (hmatches : ∀ p ∈ s.publishers, p.Matches s.db)
    (hstep : s.step env (.publisher i act) = some s') : ∀ p ∈ s'.publishers, p.Matches s'.db := by
  obtain ⟨p, hp, hstep⟩ := Option.bind_eq_some_iff.mp hstep
  obtain ⟨⟨p', effect⟩, hlocal, rfl⟩ := Option.map_eq_some_iff.mp hstep
  obtain ⟨hdrop, hjob, -, hmark⟩ := Publisher.step_cases hlocal
  have hkept := (publish_spec s effect).1 p.marks hmark
  intro q hq
  rcases List.mem_or_eq_of_mem_set hq with hq | rfl
  · exact (hmatches q hq).mono hkept
  · have hold := (hmatches p (List.mem_of_getElem? hp)).mono hkept
    exact ⟨fun e he => hold.rows e (hdrop e he), hjob⟩

/-- The step of a flush keeps a waiting message carried: it publishes before it marks. -/
theorem carried_of_publisher {i : ℕ} {act : PublisherAct} (hinv : Followed id s)
    (hstep : s.step env (.publisher i act) = some s') (hwaiting : IsWaiting id s) :
    IsCarried id s' := by
  obtain ⟨p, hp, hstep⟩ := Option.bind_eq_some_iff.mp hstep
  obtain ⟨⟨p', effect⟩, hlocal, rfl⟩ := Option.map_eq_some_iff.mp hstep
  obtain ⟨-, -, hmarks, hmark⟩ := Publisher.step_cases hlocal
  obtain ⟨hkept, hmain, henqueue, hretry, hdeliveries⟩ := publish_spec s effect
  have hpmem := List.mem_of_getElem? hp
  cases hinv.carried hwaiting with
  | event e he hid hunpublished hfree =>
      by_cases hnew : p'.marks = some e.id
      · -- The flush has just published the job of this event.
        obtain ⟨event, job, hevent, hs, rfl⟩ := hmarks e.id hnew
        have hmatches := hinv.publishers p hpmem
        obtain ⟨r, hr, hrid, hmessage⟩ := hmatches.rows event (.inr (by simp [Publisher.current, hs]))
        have hre : r = e := s.db.outboxEvents.eq_of_mem_keys (k := e.id) hr he
          (by simp [Keyed.keys, hrid, hevent]) (by simp [Keyed.keys])
        refine .main job (henqueue job rfl) ?_
        rw [hmatches.job event job hs, ← hmessage, hre, hid]
      · obtain ⟨e', he', hid', hmessage, hpublished⟩ := hkept p.marks hmark e he
        refine .event e' he' (hmessage.trans hid) ?_ fun q hq => ?_
        · rw [hpublished (hfree p hpmem), hunpublished]
        · rw [hid']
          rcases List.mem_or_eq_of_mem_set hq with hq | rfl
          · exact hfree q hq
          · exact hnew
  | main job hjob hid => exact .main job (hmain job hjob) hid
  | retry entry hentry hid => exact .retry entry (hretry ▸ hentry) hid
  | delivery j d hd hid hunacked hphase => exact .delivery j d (hdeliveries ▸ hd) hid hunacked hphase

/-- A committed `create` carries its message by a new outbox event, and leaves the others. -/
theorem followed_of_create {i : ℕ} {act : CreateAct} (hinv : Followed id s)
    (hstep : s.step env (.create i act) = some s') :
    (∀ p ∈ s'.publishers, p.Matches s'.db) ∧
      (IsWaiting id s ∨ (s.db.message id = none ∧ IsWaiting id s') → IsCarried id s') := by
  obtain ⟨call, -, h⟩ := Option.bind_eq_some_iff.mp hstep
  obtain ⟨⟨db, call'⟩, hcall, rfl⟩ := Option.map_eq_some_iff.mp h
  obtain ⟨-, ⟨-, rfl, -⟩ | ⟨draft, ids, m, -, hcommit, -⟩⟩ := CreateCall.step_db hcall
  · refine ⟨hinv.publishers, ?_⟩
    rintro (hw | ⟨hnone, m, hm, -⟩)
    · exact (hinv.carried hw).frame (.of_eq rfl) rfl rfl rfl rfl
    · change s.db.message id = some m at hm
      rw [hnone] at hm
      cases hm
  · obtain ⟨-, hmessages, hevents⟩ := Db.commitCreate_spec hcommit
    obtain ⟨-, hrows⟩ := message_of_commitCreate hcommit
    have hkept : s.db.OutboxKept none db := .insert? hevents
    refine ⟨fun p hp => (hinv.publishers p hp).mono hkept, ?_⟩
    rintro (hw | ⟨hnone, m', hm', -⟩)
    · exact (hinv.carried hw).frame hkept rfl rfl rfl rfl
    · -- The new row is the one that waits.
      change db.message id = some m' at hm'
      rw [hrows] at hm'
      split_ifs at hm' with hid
      · have hnew : draft.outboxEvent ids s.clock ∈ db.outboxEvents.rows := by
          rw [Table.rows_of_insert? hevents]
          exact List.mem_cons_self
        refine .event _ hnew hid.symm rfl fun p hp hmark => ?_
        have hfree := Table.find_eq_none_of_insert? hevents (k := (draft.outboxEvent ids s.clock).id)
          (by simp [Keyed.keys])
        obtain ⟨event, hcurrent, heq⟩ := Publisher.exists_of_marks hmark
        obtain ⟨r, hr, hrid, -⟩ := (hinv.publishers p hp).rows event (.inr hcurrent)
        exact (Table.find_eq_none_iff _).mp hfree r hr (by simp [Keyed.keys, hrid, heq])
      · rw [hnone] at hm'
        cases hm'

/-- A flush takes its events from the table. -/
theorem matches_of_flush {readAt : Time} {ids : List Uuid}
    (hmatches : ∀ p ∈ s.publishers, p.Matches s.db)
    (hstep : s.step env (.flush readAt ids) = some s') : ∀ p ∈ s'.publishers, p.Matches s'.db := by
  simp only [step] at hstep
  split_ifs at hstep
  cases hstep
  have hkept := outboxKept_claimEvents s.db s.clock (readAt + env.config.outboxLease) ids
  intro p hp
  rcases List.mem_append.mp hp with hp | hp
  · exact (hmatches p hp).mono hkept
  · have heq := List.mem_singleton.mp hp
    have hold : Publisher.Matches s.db p := by
      rw [heq]
      refine ⟨?_, by simp⟩
      rintro e (he | he)
      · obtain ⟨r, hr, rfl⟩ := List.mem_map.mp he
        exact ⟨r, (List.mem_filter.mp hr).1, rfl, rfl⟩
      · cases he
    exact hold.mono hkept

/-- A flush carries the message on. -/
theorem carried_of_flush {readAt : Time} {ids : List Uuid} (hcarried : IsCarried id s)
    (hstep : s.step env (.flush readAt ids) = some s') : IsCarried id s' := by
  simp only [step] at hstep
  split_ifs at hstep
  cases hstep
  have hkept := outboxKept_claimEvents s.db s.clock (readAt + env.config.outboxLease) ids
  refine hcarried.mono hkept (fun p hp => ?_) (fun job hjob hid => .main job hjob hid)
    (fun entry he hid => .retry entry he hid)
    fun j d hd hid hunacked hphase => .delivery j d hd hid hunacked hphase
  rcases List.mem_append.mp hp with hp | hp
  · exact .inr ⟨p, hp, rfl⟩
  · rw [List.mem_singleton.mp hp]
    exact .inl rfl

/-- A consumed job goes from the queue to its delivery. -/
theorem carried_of_consume {n : ℕ} (hcarried : IsCarried id s)
    (hstep : s.step env (.consume n) = some s') : IsCarried id s' := by
  obtain ⟨job, hjob, rfl⟩ := Option.map_eq_some_iff.mp hstep
  refine hcarried.mono (.of_eq rfl) (fun p hp => .inr ⟨p, hp, rfl⟩) (fun j hj hid => ?_)
    (fun entry he hid => .retry entry he hid) fun i d hd hid hunacked hphase => ?_
  · obtain ⟨k, hk⟩ := List.getElem?_of_mem hj
    by_cases hkn : k = n
    · rw [hkn, hjob] at hk
      cases hk
      exact .delivery s.deliveries.length (.begin job) (by simp) hid rfl
        (by simp [Delivery.begin, Stage.phase])
    · exact .main j (List.mem_eraseIdx_iff_getElem?.mpr ⟨k, hkn, hk⟩) hid
  · refine .delivery i d ?_ hid hunacked hphase
    exact List.getElem?_append_left (List.getElem?_eq_some_iff.mp hd).1 ▸ hd

/-- A job whose delay is over goes from the retry queue to the main queue. -/
theorem carried_of_expire {n : ℕ} (hcarried : IsCarried id s)
    (hstep : s.step env (.expire n) = some s') : IsCarried id s' := by
  obtain ⟨entry, hentry, hstep⟩ := Option.bind_eq_some_iff.mp hstep
  split_ifs at hstep
  cases hstep
  refine hcarried.mono (.of_eq rfl) (fun p hp => .inr ⟨p, hp, rfl⟩)
    (fun j hj hid => .main j (List.mem_cons_of_mem _ hj) hid) (fun e he hid => ?_)
    fun i d hd hid hunacked hphase => .delivery i d hd hid hunacked hphase
  obtain ⟨k, hk⟩ := List.getElem?_of_mem he
  by_cases hkn : k = n
  · rw [hkn, hentry] at hk
    cases hk
    exact .main _ List.mem_cons_self hid
  · exact .retry e (List.mem_eraseIdx_iff_getElem?.mpr ⟨k, hkn, hk⟩) hid

/-- A delivery that loses its channel goes back to the queue. -/
theorem carried_of_redeliver {i : ℕ} (hcarried : IsCarried id s)
    (hstep : s.step env (.redeliver i) = some s') : IsCarried id s' := by
  obtain ⟨d, hd, hstep⟩ := Option.bind_eq_some_iff.mp hstep
  split_ifs at hstep
  cases hstep
  refine hcarried.mono (.of_eq rfl) (fun p hp => .inr ⟨p, hp, rfl⟩)
    (fun j hj hid => .main j (List.mem_cons_of_mem _ hj) hid)
    (fun e he hid => .retry e he hid) fun j e hj hid hunacked hphase => ?_
  by_cases hji : j = i
  · rw [hji, hd] at hj
    cases hj
    exact .main _ List.mem_cons_self hid
  · refine .delivery j e ?_ hid hunacked hphase
    change (s.deliveries.set i _)[j]? = some e
    rw [List.getElem?_set_ne (Ne.symm hji), hj]

/-- At the start the message is not there. -/
theorem Followed.start {db : Db} (clock : Time) (hnew : db.message id = none) :
    Followed id (start db clock) where
  done m hm := by
    change db.message id = some m at hm
    rw [hnew] at hm
    cases hm
  carried := by
    rintro ⟨m, hm, -⟩
    change db.message id = some m at hm
    rw [hnew] at hm
    cases hm
  publishers p hp := by cases hp
  publications d hd := by cases hd

/-- **Every step that abandons nothing keeps a waiting message carried.** -/
theorem Followed.step (hinv : Followed id s) (hg : AbandonsNone id s a)
    (hstep : s.step env a = some s') : Followed id s' := by
  obtain ⟨hdone, hwait⟩ := waiting_of_moves hinv.done hg (step_moves hstep)
  have hpublications := (step_moves hstep).forall_deliveries hinv.publications
    (fun _ _ hs => by cases hs) (fun _ hd => hd)
    fun _ _ _ _ _ _ hlocal _ hs => Delivery.messageId_of_publish hlocal hs
  suffices h : (∀ p ∈ s'.publishers, p.Matches s'.db) ∧ (IsWaiting id s' → IsCarried id s') from
    ⟨hdone, h.2, h.1, hpublications⟩
  -- Every step but a `create` leaves the message waiting that waits after it.
  have hbefore (hcreate : ∀ i act, a ≠ .create i act) (hw' : IsWaiting id s') : IsWaiting id s := by
    rcases hwait hw' with hw | ⟨-, i, act, ha⟩
    · exact hw
    · exact absurd ha (hcreate i act)
  have hframe (hkept : s.db.OutboxKept none s'.db) (hpublishers : s'.publishers = s.publishers) :
      ∀ p ∈ s'.publishers, p.Matches s'.db :=
    fun p hp => (hinv.publishers p (hpublishers ▸ hp)).mono hkept
  cases a with
  | tick elapsed | beginCreate tenantId dto =>
      cases hstep
      exact ⟨hinv.publishers,
        fun hw' => (hinv.carried (hbefore (by simp) hw')).frame (.of_eq rfl) rfl rfl rfl rfl⟩
  | other write =>
      cases hstep
      have hkept : s.db.OutboxKept none (write.run s.db) := .of_eq (write.outboxEvents_run s.db)
      exact ⟨hframe hkept rfl,
        fun hw' => (hinv.carried (hbefore (by simp) hw')).frame hkept rfl rfl rfl rfl⟩
  | report status =>
      obtain ⟨db, hdb, rfl⟩ := Option.map_eq_some_iff.mp hstep
      have hkept : s.db.OutboxKept none db := .of_eq (outboxEvents_of_applyStatus hdb)
      exact ⟨hframe hkept rfl,
        fun hw' => (hinv.carried (hbefore (by simp) hw')).frame hkept rfl rfl rfl rfl⟩
  | create i act =>
      obtain ⟨hmatches, hcarried⟩ := followed_of_create hinv hstep
      refine ⟨hmatches, fun hw' => hcarried ?_⟩
      rcases hwait hw' with hw | ⟨hnone, -⟩
      · exact .inl hw
      · exact .inr ⟨hnone, hw'⟩
  | flush readAt ids =>
      exact ⟨matches_of_flush hinv.publishers hstep,
        fun hw' => carried_of_flush (hinv.carried (hbefore (by simp) hw')) hstep⟩
  | publisher i act =>
      exact ⟨matches_of_publisher hinv.publishers hstep,
        fun hw' => carried_of_publisher hinv hstep (hbefore (by simp) hw')⟩
  | consume n =>
      obtain ⟨job, -, rfl⟩ := Option.map_eq_some_iff.mp hstep
      exact ⟨hinv.publishers,
        fun hw' => carried_of_consume (hinv.carried (hbefore (by simp) hw')) hstep⟩
  | expire n =>
      refine ⟨?_, fun hw' => carried_of_expire (hinv.carried (hbefore (by simp) hw')) hstep⟩
      obtain ⟨entry, -, hstep⟩ := Option.bind_eq_some_iff.mp hstep
      split_ifs at hstep
      cases hstep
      exact hinv.publishers
  | redeliver i =>
      refine ⟨?_, fun hw' => carried_of_redeliver (hinv.carried (hbefore (by simp) hw')) hstep⟩
      obtain ⟨d, -, hstep⟩ := Option.bind_eq_some_iff.mp hstep
      split_ifs at hstep
      cases hstep
      exact hinv.publishers
  | delivery i act =>
      refine ⟨?_, fun hw' => carried_of_delivery hinv hg hstep (hbefore (by simp) hw') hw'⟩
      obtain ⟨d, -, hstep⟩ := Option.bind_eq_some_iff.mp hstep
      obtain ⟨⟨d', effect⟩, -, hstep⟩ := Option.bind_eq_some_iff.mp hstep
      obtain ⟨s₁, hperform, rfl⟩ := Option.map_eq_some_iff.mp hstep
      obtain ⟨hevents, hpublishers, -⟩ := perform_queues hperform
      exact hframe (.of_eq hevents) hpublishers

/-- **No stranded message.** In every run that abandons none of its deliveries' messages, a message
that was created in it has a carrier as long as it is `QUEUED` or `PROCESSING`. -/
theorem carried_of_run (env : PipelineEnv) (id : Uuid) (db : Db) (clock : Time)
    (hnew : db.message id = none) (acts : List Act) (s : Pipeline)
    (hrun : exec (step env) (start db clock) acts = some s)
    (hkeep : ∀ x ∈ trace (step env) (start db clock) acts, AbandonsNone id x.1 x.2.1) :
    ∀ m ∈ s.db.message id, m.status = .queued ∨ m.status = .processing → HasCarrier id s := by
  intro m hm hstatus
  have hinv : Followed id s := by
    refine (Reaches.of_exec (G := AbandonsNone id) hrun hkeep).invariant (P := Followed id)
      (Followed.start clock hnew) ?_
    exact fun _ _ _ hinv hg hstep => hinv.step hg hstep
  refine (hinv.carried ⟨m, hm, ?_⟩).hasCarrier
  rcases hstatus with h | h <;> rw [h] <;> rfl

/-- Delivery 0 claims the message, and the rate limiter fails it. -/
def limited : List Act :=
  sampleDelivered ++ sampleClaimed 0 ++ [.delivery 0 (.slot (.failed "Connection is closed."))]

/-- A run in which the job goes on to the retry queue. -/
theorem carried_of_run_retried :
    ∃ s, exec (step sampleEnv) (start sampleDb 0)
        (limited ++ [.delivery 0 (.call .returned), .delivery 0 (.call .returned),
          .delivery 0 (.call .returned)]) = some s ∧
      ∃ m ∈ s.db.message 100, m.status = .queued ∧ HasCarrier 100 s := by
  have hend : ∃ s ∈ exec (step sampleEnv) (start sampleDb 0)
      (limited ++ [.delivery 0 (.call .returned), .delivery 0 (.call .returned),
        .delivery 0 (.call .returned)]), ∃ m ∈ s.db.message 100, m.status = .queued := by
    decide +kernel
  obtain ⟨s, hs, m, hm, hstatus⟩ := hend
  exact ⟨s, hs, m, hm, hstatus, carried_of_run sampleEnv 100 sampleDb 0 (by decide) _ s hs
    (by decide +kernel) m hm (.inl hstatus)⟩

/-- Delivery 0 claims the message and loses its channel; the claim of delivery 1, the redelivery,
fails, then delivery 0 puts the message back to `QUEUED`. Delivery 1 reads that and acknowledges
its job, and delivery 0 cannot publish on its closed channel. -/
def strandingRun : List Act :=
  let returned (i : ℕ) : Act := .delivery i (.call .returned)
  let refused : Act := .delivery 0 (.call (.failed "Channel closed"))
  sampleDelivered ++ sampleClaimed 0 ++
    [.redeliver 0, .consume 0, .delivery 1 .run, returned 1,
      .delivery 0 (.slot (.failed "Connection is closed.")), returned 0, returned 1, returned 1,
      refused, refused]

/-- The message is then `QUEUED` without a carrier. -/
theorem stranded_by_acknowledgement :
    ¬ ∀ s ∈ exec (step sampleEnv) (start sampleDb 0) strandingRun,
      ∀ m ∈ s.db.message 100, m.status = .queued ∨ m.status = .processing →
        HasCarrier 100 s := by
  decide +kernel

end Pipeline

end ApiWhatsApp
