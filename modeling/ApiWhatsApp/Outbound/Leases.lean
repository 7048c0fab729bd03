import ApiWhatsApp.Outbound.Pipeline

/-!
# Processing leases

What the lease of a claim buys. A delivery *holds* its message from its claim on until one of its
completing writes takes effect, as long as its code still runs or its send was accepted.

* `Delivery.Coherent` — the history of one delivery agrees with its stage; kept by every step.
* `Pipeline.Numbered` — the claims of a message have different numbers, none above the attempt
  count of the row; kept by every step.
* `Pipeline.Exclusive` — a holder whose lease has not run out is the last to have claimed the row,
  and the row is either under its lease or closed to claims. It survives every step, except a
  `markRetryableFailure` of a worker whose claim has been superseded (`RequeuesOwnClaim`): the
  completing writes are keyed by the message id alone.
* **`sends_under_live_lease`** — where slots are granted within a lease of the claim and no
  superseded worker requeues, every call of `sendMessage` is made under a live lease that nobody
  has taken over. `sends_after_lease` is a run in which neither holds.
-/

namespace ApiWhatsApp

open Library

/-! ## One delivery -/

/-- The parts between a claim and the completing write. -/
def Phase.isActive : Phase → Bool
  | .unsent | .requeueing | .submitting | .failing => true
  | .entering | .missed | .returning | .releasing | .over => false

/-- The parts in which the provider has accepted nothing and nothing has been completed. -/
def Phase.isUnaccepted : Phase → Bool
  | .entering | .missed | .unsent | .requeueing => true
  | .submitting | .failing | .returning | .releasing | .over => false

/-- Who is active was so before. -/
theorem Phase.isActive_of_leadsTo {p q : Phase} (h : p.leadsTo q = true)
    (hq : q.isActive = true) (hp : p = .entering → q ≠ .unsent) : p.isActive = true := by
  revert h hq hp
  cases p <;> cases q <;> decide

/-- Who has not been accepted had not been so before. -/
theorem Phase.isUnaccepted_of_leadsTo {p q : Phase} (h : p.leadsTo q = true)
    (hq : q.isUnaccepted = true) : p.isUnaccepted = true := by
  revert h hq
  cases p <;> cases q <;> decide

namespace Delivery

variable {config : OutboundConfig} {clock clock' : Time} {row : Option Message}
  {d d' : Delivery} {act : DeliveryAct} {effect : Effect}

/-- The history of a delivery agrees with its stage and with the clock. -/
structure Coherent (config : OutboundConfig) (clock : Time) (d : Delivery) : Prop where
  claimed_of_active : d.stage.phase.isActive = true → d.claim.isSome = true
  unaccepted : d.stage.phase.isUnaccepted = true → d.accepted = none ∧ d.settled = false
  claimed_of_accepted : d.accepted.isSome = true → d.claim.isSome = true
  read_le : ∀ now, d.stage = .claim now → now ≤ clock
  lease : ∀ c, d.claim = some c →
    c.leaseUntil = c.claimedAt + config.leaseMs ∧ c.claimedAt ≤ clock

/-- A new delivery is coherent. -/
theorem Coherent.begin (job : OutboundQueueJob) : Coherent config clock (Delivery.begin job) where
  claimed_of_active h := by cases h
  unaccepted _ := ⟨rfl, rfl⟩
  claimed_of_accepted h := by cases h
  read_le now h := by cases h
  lease c h := by cases h

/-- A delivery stays coherent as time goes on. -/
theorem Coherent.mono (h : d.Coherent config clock) (hle : clock ≤ clock') :
    d.Coherent config clock' where
  claimed_of_active := h.claimed_of_active
  unaccepted := h.unaccepted
  claimed_of_accepted := h.claimed_of_accepted
  read_le now hs := (h.read_le now hs).trans hle
  lease c hc := ⟨(h.lease c hc).1, (h.lease c hc).2.trans hle⟩

/-- Losing the channel is no matter of the history. -/
theorem Coherent.unacked (h : d.Coherent config clock) (b : Bool) :
    ({ d with unacked := b } : Delivery).Coherent config clock :=
  ⟨h.claimed_of_active, h.unaccepted, h.claimed_of_accepted, h.read_le, h.lease⟩

/-- The instant of a claim is the clock's when it is read. -/
theorem eq_clock_of_claim {now : Time} (h : d.step config clock row act = some (d', effect))
    (hs' : d'.stage = .claim now) : now = clock := by
  have hflow := phase_step h
  rw [hs'] at hflow
  change d.stage.phase.leadsTo .entering = true at hflow
  have hentering : d.stage.phase = .entering := by
    revert hflow
    cases d.stage.phase <;> decide
  cases hs : d.stage with
  | start => cases act <;> simp [step, pending, hs] at h <;> obtain ⟨rfl, -⟩ := h <;> cases hs'; rfl
  | claim now' =>
      exfalso
      by_cases hact : ∃ outcome, act = .call outcome
      · obtain ⟨outcome, rfl⟩ := hact
        obtain ⟨p, hp, hcase⟩ := call_cases h
        simp only [pending, hs, Option.some.injEq] at hp
        subst hp
        rcases hcase with ⟨-, e, rfl⟩ | ⟨-, -, stage, rfl | ⟨e, rfl⟩, rfl⟩ <;> cases hs'
      · cases act <;> simp [step, hs] at h hact; obtain ⟨rfl, -⟩ := h; cases hs'
  | reload c => rw [hs] at hentering; cases c <;> cases hentering
  | _ => rw [hs] at hentering; cases hentering

/-- A completing write comes from an active part, or from the end of the retries. -/
theorem phase_of_completing {stage : Stage} {w : RowWrite} (h : stage.completing = some w) :
    stage.phase = .submitting ∨ stage.phase = .requeueing ∨ stage.phase = .failing ∨
      stage.phase = .returning := by
  unfold Stage.completing at h
  split at h <;> cases h <;> simp [Stage.phase]

/-- **Every step keeps a delivery coherent.** -/
theorem Coherent.step (hc : d.Coherent config clock)
    (h : d.step config clock row act = some (d', effect)) : d'.Coherent config clock := by
  have hflow := phase_step h
  have hread : ∀ now, d'.stage = .claim now → now ≤ clock :=
    fun now hs => (eq_clock_of_claim h hs).le
  by_cases hw : ∃ w, effect = .write w
  · obtain ⟨w, rfl⟩ := hw
    rcases write_cases h with ⟨now, m, hs, -, -, -, hs', hd'⟩ | ⟨hcompletes, hd'⟩
    · rw [hd'] at hread ⊢
      refine ⟨fun _ => rfl, fun _ => ?_, fun _ => rfl, hread, fun c hcl => ?_⟩
      · exact hc.unaccepted (by rw [hs]; rfl)
      · cases hcl
        exact ⟨rfl, hc.read_le now hs⟩
    · rw [hd'] at hread ⊢
      have hphase := phase_of_completing hcompletes
      refine ⟨fun hactive => ?_, fun hun => ?_, hc.claimed_of_accepted, hread, hc.lease⟩
      · refine hc.claimed_of_active (Phase.isActive_of_leadsTo hflow hactive fun he => ?_)
        rcases hphase with hp | hp | hp | hp <;> rw [he] at hp <;> cases hp
      · exfalso
        revert hflow hun
        rcases hphase with hp | hp | hp | hp <;> rw [hp] <;> cases d'.stage.phase <;> decide
  · push Not at hw
    obtain ⟨hclaim, hsettled, haccepted⟩ := no_write_cases h hw
    have hentering : d.stage.phase = .entering → d'.stage.phase ≠ .unsent := by
      intro he hu
      obtain ⟨now, leaseUntil, heff⟩ := unsent_of_entering h hu he
      exact hw _ heff
    refine ⟨fun hactive => ?_, fun hun => ?_, fun hacc => ?_, hread, fun c hcl => ?_⟩
    · rw [hclaim]
      exact hc.claimed_of_active (Phase.isActive_of_leadsTo hflow hactive hentering)
    · obtain ⟨hnone, hfalse⟩ := hc.unaccepted (Phase.isUnaccepted_of_leadsTo hflow hun)
      refine ⟨?_, hsettled.trans hfalse⟩
      rcases haccepted with heq | ⟨outcome, -, -, heq, hs'⟩
      · rw [heq, hnone]
      · rw [heq]
        cases outcome with
        | accepted p r => rw [hs'] at hun; cases hun
        | metaApiError e => rfl
        | otherError r => rfl
    · rw [hclaim]
      rcases haccepted with heq | ⟨outcome, -, hs, -⟩
      · exact hc.claimed_of_accepted (heq ▸ hacc)
      · exact hc.claimed_of_active (by rw [hs]; rfl)
    · exact hc.lease c (hclaim ▸ hcl)

/-- A delivery holds its message: claimed, nothing completed, and still running or accepted. -/
def Holds (d : Delivery) : Prop :=
  d.claim.isSome = true ∧ d.settled = false ∧
    (d.stage.phase.isActive = true ∨ d.accepted.isSome = true)

/-- The lease can be checked. -/
instance (d : Delivery) : Decidable d.Holds := inferInstanceAs (Decidable (_ ∧ _ ∧ (_ ∨ _)))

/-- Only a claim makes a holder. -/
theorem Holds.of_step
    (h : d.step config clock row act = some (d', effect)) (hh : d'.Holds)
    (hclaim : ∀ now leaseUntil, effect ≠ .write (.claim now leaseUntil)) :
    d.Holds ∧ d'.claim = d.claim := by
  obtain ⟨hsome, hunsettled, hlive⟩ := hh
  have hflow := phase_step h
  by_cases hw : ∃ w, effect = .write w
  · -- A completing write settles the dispatch.
    obtain ⟨w, rfl⟩ := hw
    rcases write_cases h with ⟨now, m, -, -, -, rfl, -⟩ | ⟨-, hd'⟩
    · exact absurd rfl (hclaim _ _)
    · rw [hd'] at hunsettled
      cases hunsettled
  · push Not at hw
    obtain ⟨heq, hsettled, haccepted⟩ := no_write_cases h hw
    refine ⟨⟨heq ▸ hsome, hsettled ▸ hunsettled, ?_⟩, heq⟩
    rcases hlive with hactive | hacc
    · refine .inl (Phase.isActive_of_leadsTo hflow hactive fun he hu => ?_)
      obtain ⟨now, leaseUntil, heff⟩ := unsent_of_entering h hu he
      exact hw _ heff
    · rcases haccepted with heq' | ⟨outcome, -, hs, -⟩
      · exact .inr (heq' ▸ hacc)
      · exact .inl (by rw [hs]; rfl)

end Delivery

/-! ## All deliveries -/

/-- No claim matches the row: it has a provider id, or a terminal or submitted status. -/
def Message.IsClosed (m : Message) : Prop :=
  m.providerMessageId.isSome = true ∨ isTerminalOrSubmitted m.status = true

/-- A closed message is not claimed. -/
theorem Message.not_claimable_of_isClosed {m : Message} (h : m.IsClosed) (now : Time) :
    m.claimable now = false := by
  unfold Message.claimable
  rcases h with h | h
  · simp [Option.isNone_eq_false_iff.mpr h]
  · revert h
    cases m.status <;> simp [isTerminalOrSubmitted]

/-- A row under a lease is not claimable before the lease is over. -/
theorem Message.not_claimable_of_leased {m : Message} {now leaseUntil : Time}
    (hstatus : m.status = .processing) (hlease : m.processingLeaseUntil = some leaseUntil)
    (hnow : now < leaseUntil) : m.claimable now = false := by
  simp [Message.claimable, hstatus, hlease, Nat.not_le.mpr hnow]

/-- A completing write other than the requeue closes the row. -/
theorem Message.isClosed_apply {m : Message} {w : RowWrite}
    (hclaim : w.isCompleting = true) (hw : ∀ c e, w ≠ .markRetryableFailure c e) :
    (w.apply m).IsClosed := by
  cases w with
  | claim => cases hclaim
  | submit => exact .inl rfl
  | markRetryableFailure c e => exact absurd rfl (hw c e)
  | markFailed => exact .inr rfl

namespace Pipeline

variable {env : PipelineEnv} {s s' : Pipeline} {a : Act} {id : Uuid}

/-- The claims of a message are numbered: no number above the attempt count, none twice. -/
structure Numbered (env : PipelineEnv) (s : Pipeline) : Prop where
  coherent : ∀ d ∈ s.deliveries, d.Coherent env.config s.clock
  counted : ∀ d ∈ s.deliveries, ∀ c, d.claim = some c →
    ∃ m, s.db.message d.job.messageId = some m ∧ c.number ≤ m.attemptCount
  distinct : ∀ (i j : ℕ) (d e : Delivery) (c c' : Claim),
    s.deliveries[i]? = some d → s.deliveries[j]? = some e → i ≠ j →
    d.job.messageId = e.job.messageId → d.claim = some c → e.claim = some c' →
    c.number ≠ c'.number

/-- A live holder of the message is the last claimant of its row, which is under its lease or
closed. -/
def Exclusive (id : Uuid) (s : Pipeline) : Prop :=
  ∀ d ∈ s.deliveries, d.job.messageId = id → ∀ c m, d.Holds → d.claim = some c →
    s.clock < c.leaseUntil → s.db.message id = some m →
    m.attemptCount = c.number ∧
      (m.IsClosed ∨ (m.status = .processing ∧ m.processingLeaseUntil = some c.leaseUntil))

/-- The delivery whose pending call takes effect. -/
def Act.effective : Act → Option ℕ
  | .delivery i (.call outcome) => if outcome.tookEffect then some i else none
  | _ => none

/-- A worker that puts the message back to `QUEUED` is the last to have claimed it. -/
def RequeuesOwnClaim (id : Uuid) (s : Pipeline) (a : Act) : Prop :=
  ∀ i ∈ a.effective, ∀ d ∈ s.deliveries[i]?, d.job.messageId = id →
    d.stage.phase = .requeueing → ∀ c ∈ d.claim, ∀ m ∈ s.db.message id, m.attemptCount = c.number

/-- The condition can be checked. -/
instance (id : Uuid) (s : Pipeline) (a : Act) : Decidable (RequeuesOwnClaim id s a) :=
  inferInstanceAs (Decidable (∀ i ∈ a.effective, ∀ d ∈ s.deliveries[i]?, d.job.messageId = id →
    d.stage.phase = .requeueing → ∀ c ∈ d.claim, ∀ m ∈ s.db.message id, m.attemptCount = c.number))

/-- At the start no claim is numbered. -/
theorem Numbered.start (db : Db) (clock : Time) : Numbered env (start db clock) where
  coherent d hd := by cases hd
  counted d hd := by cases hd
  distinct i j d e c c' hi := by simp [Pipeline.start] at hi

/-- At the start no one sends. -/
theorem Exclusive.start (id : Uuid) (db : Db) (clock : Time) : Exclusive id (start db clock) :=
  fun d hd => by cases hd

/-- The attempt count of a row never falls, and the row stays. -/
theorem attemptCount_le_of_moves (h : Moves env s s' a) {id : Uuid} {m : Message}
    (hm : s.db.message id = some m) :
    ∃ m', s'.db.message id = some m' ∧ m.attemptCount ≤ m'.attemptCount := by
  cases h with
  | quiet _ hrows | consumed _ _ hrows | redelivered _ _ _ hrows =>
      exact ⟨m, by rw [hrows, hm], le_rfl⟩
  | created i act m₀ hnone _ hrows =>
      refine ⟨m, ?_, le_rfl⟩
      rw [hrows, if_neg, hm]
      rintro rfl
      rw [hnone] at hm
      cases hm
  | reported report m₀ target at_ error hm₀ _ _ _ hrows =>
      rw [hrows]
      split_ifs with hid
      · subst hid
        rw [hm₀] at hm
        cases hm
        exact ⟨_, rfl, by cases target <;> exact le_rfl⟩
      · exact ⟨m, hm, le_rfl⟩
  | delivered i act d d' effect _ _ _ hrows =>
      rw [hrows, hm]
      refine ⟨_, rfl, ?_⟩
      split_ifs
      · cases effect with
        | write w =>
            rw [onRow, w.attemptCount_apply]
            split_ifs <;> omega
        | none | ack | nack | recordEvent _ | publishRetry _ | publishDead _ => exact le_rfl
      · exact le_rfl

/-- **Every step keeps the claims numbered.** -/
theorem Numbered.moves (hn : Numbered env s) (h : Moves env s s' a) : Numbered env s' := by
  have hcounted : ∀ d ∈ s.deliveries, ∀ c, d.claim = some c →
      ∃ m, s'.db.message d.job.messageId = some m ∧ c.number ≤ m.attemptCount := by
    intro d hd c hc
    obtain ⟨m, hm, hle⟩ := hn.counted d hd c hc
    obtain ⟨m', hm', hle'⟩ := attemptCount_le_of_moves h hm
    exact ⟨m', hm', hle.trans hle'⟩
  cases h with
  | quiet _ _ hds _ hclock =>
      refine ⟨?_, ?_, ?_⟩ <;> rw [hds]
      · exact fun d hd => (hn.coherent d hd).mono hclock
      · exact hcounted
      · exact hn.distinct
  | created _ _ _ _ _ _ hds _ hclock | reported _ _ _ _ _ _ _ _ _ _ hds _ hclock =>
      refine ⟨?_, ?_, ?_⟩ <;> rw [hds]
      · rw [hclock]; exact hn.coherent
      · exact hcounted
      · exact hn.distinct
  | consumed n job _ hds _ hclock =>
      refine ⟨?_, ?_, ?_⟩ <;> rw [hds]
      · intro d hd
        rw [hclock]
        rcases List.mem_append.mp hd with hd | hd
        · exact hn.coherent d hd
        · rw [List.mem_singleton.mp hd]; exact Delivery.Coherent.begin job
      · intro d hd c hc
        rcases List.mem_append.mp hd with hd | hd
        · exact hcounted d hd c hc
        · rw [List.mem_singleton.mp hd] at hc; cases hc
      · intro i j d e c c' hi hj hij hid hc hc'
        rcases getElem?_append_cases hi with ⟨-, rfl⟩ | hi
        · cases hc
        · rcases getElem?_append_cases hj with ⟨-, rfl⟩ | hj
          · cases hc'
          · exact hn.distinct i j d e c c' hi hj hij hid hc hc'
  | redelivered i₀ d₀ hd₀ _ hds _ hclock =>
      have hmem₀ := List.mem_of_getElem? hd₀
      refine ⟨?_, ?_, ?_⟩ <;> rw [hds]
      · intro d hd
        rw [hclock]
        rcases List.mem_or_eq_of_mem_set hd with hd | rfl
        · exact hn.coherent d hd
        · exact (hn.coherent d₀ hmem₀).unacked false
      · intro d hd c hc
        rcases List.mem_or_eq_of_mem_set hd with hd | rfl
        · exact hcounted d hd c hc
        · exact hcounted d₀ hmem₀ c hc
      · intro i j d e c c' hi hj hij hid hc hc'
        rcases getElem?_set_cases hi with ⟨rfl, rfl⟩ | ⟨hi₀, hi'⟩ <;>
          rcases getElem?_set_cases hj with ⟨rfl, rfl⟩ | ⟨hj₀, hj'⟩
        · exact absurd rfl hij
        · exact hn.distinct i j d₀ e c c' hd₀ hj' hij hid hc hc'
        · exact hn.distinct i j d d₀ c c' hi' hd₀ hij hid hc hc'
        · exact hn.distinct i j d e c c' hi' hj' hij hid hc hc'
  | delivered i₀ act d₀ d' effect hd₀ hstep hwrite hrows hds _ hclock =>
      have hmem₀ := List.mem_of_getElem? hd₀
      have hjob := Delivery.job_step hstep
      -- A new claim has a number above all others; otherwise the claim is the old one.
      have hclaim : ∀ c, d'.claim = some c → d₀.claim = some c ∨
          ∃ m, s.db.message d₀.job.messageId = some m ∧ c.number = m.attemptCount + 1 ∧
            s'.db.message d₀.job.messageId = some (onRow effect m) ∧
            (onRow effect m).attemptCount = c.number := by
        intro c hc
        by_cases hw : ∃ w, effect = .write w
        · obtain ⟨w, rfl⟩ := hw
          rcases Delivery.write_cases hstep with ⟨now, m, -, hm, -, rfl, -, hd'⟩ | ⟨-, hd'⟩
          · rw [hd'] at hc
            cases hc
            exact .inr ⟨m, hm, rfl, by rw [hrows, hm]; simp, rfl⟩
          · rw [hd'] at hc
            exact .inl hc
        · push Not at hw
          exact .inl ((Delivery.no_write_cases hstep hw).1 ▸ hc)
      have hfresh : ∀ j e c c', s.deliveries[j]? = some e → j ≠ i₀ →
          d₀.job.messageId = e.job.messageId → d'.claim = some c → e.claim = some c' →
          c.number ≠ c'.number := by
        intro j e c c' hj hji hid hc hc'
        rcases hclaim c hc with hold | ⟨m, hm, hnum, -⟩
        · exact hn.distinct i₀ j d₀ e c c' hd₀ hj (Ne.symm hji) hid hold hc'
        · obtain ⟨m', hm', hle⟩ := hn.counted e (List.mem_of_getElem? hj) c' hc'
          rw [← hid, hm] at hm'
          cases hm'
          omega
      refine ⟨?_, ?_, ?_⟩ <;> rw [hds]
      · intro d hd
        rw [hclock]
        rcases List.mem_or_eq_of_mem_set hd with hd | rfl
        · exact hn.coherent d hd
        · exact (hn.coherent d₀ hmem₀).step hstep
      · intro d hd c hc
        rcases List.mem_or_eq_of_mem_set hd with hd | rfl
        · exact hcounted d hd c hc
        · rcases hclaim c hc with hold | ⟨m, -, -, hm', hnum⟩
          · rw [hjob]; exact hcounted d₀ hmem₀ c hold
          · rw [hjob]; exact ⟨_, hm', hnum.ge⟩
      · intro i j d e c c' hi hj hij hid hc hc'
        rcases getElem?_set_cases hi with ⟨rfl, rfl⟩ | ⟨hi₀, hi'⟩ <;>
          rcases getElem?_set_cases hj with ⟨rfl, rfl⟩ | ⟨hj₀, hj'⟩
        · exact absurd rfl hij
        · exact hfresh j e c c' hj' hj₀ (hjob ▸ hid) hc hc'
        · exact (hfresh i d c' c hi' hi₀ (hjob ▸ hid.symm) hc' hc).symm
        · exact hn.distinct i j d e c c' hi' hj' hij hid hc hc'

/-- A row that a live holder keeps is not claimable. -/
theorem not_claimable_of_exclusive {m : Message} {c : Claim} {now : Time}
    (hrow : m.IsClosed ∨ (m.status = .processing ∧ m.processingLeaseUntil = some c.leaseUntil))
    (hnow : now < c.leaseUntil) : m.claimable now = false := by
  rcases hrow with hclosed | ⟨hstatus, hlease⟩
  · exact Message.not_claimable_of_isClosed hclosed now
  · exact Message.not_claimable_of_leased hstatus hlease hnow

/-- The worker about to requeue holds the message. -/
theorem holds_of_requeueing {d : Delivery} (hc : d.Coherent env.config s.clock)
    (hphase : d.stage.phase = .requeueing) : d.Holds :=
  ⟨hc.claimed_of_active (by rw [hphase]; rfl), (hc.unaccepted (by rw [hphase]; rfl)).2,
    .inl (by rw [hphase]; rfl)⟩

/-- Another delivery's step leaves a live holder's row as `Exclusive` wants it. -/
theorem Exclusive.other {i j : ℕ} {d e d' : Delivery} {c : Claim} {act : DeliveryAct}
    {effect : Effect} {m : Message} (hn : Numbered env s) (he : Exclusive id s)
    (hg : RequeuesOwnClaim id s (.delivery i act)) (hd : s.deliveries[i]? = some d)
    (hstep : d.step env.config s.clock (s.db.message d.job.messageId) act = some (d', effect))
    (hid : d.job.messageId = id) (hej : s.deliveries[j]? = some e) (hij : j ≠ i)
    (hid' : e.job.messageId = id) (hholds : e.Holds) (hc : e.claim = some c)
    (hlive : s.clock < c.leaseUntil) (hm : s.db.message id = some m) :
    (onRow effect m).attemptCount = c.number ∧ ((onRow effect m).IsClosed ∨
      ((onRow effect m).status = .processing ∧
        (onRow effect m).processingLeaseUntil = some c.leaseUntil)) := by
  have hdmem := List.mem_of_getElem? hd
  obtain ⟨hcount, hrow⟩ := he e (List.mem_of_getElem? hej) hid' c m hholds hc hlive hm
  cases effect with
  | none | ack | nack | recordEvent _ | publishRetry _ | publishDead _ => exact ⟨hcount, hrow⟩
  | write w =>
      rcases Delivery.write_cases hstep with ⟨now, m', hs, hm', hclaimable, -⟩ | ⟨hcompletes, -⟩
      · -- The row is not claimable: it is closed, or under a lease that has not run out.
        exfalso
        rw [hid, hm] at hm'
        cases hm'
        have hnow : now ≤ s.clock := (hn.coherent d hdmem).read_le now hs
        rw [not_claimable_of_exclusive hrow (hnow.trans_lt hlive)] at hclaimable
        cases hclaimable
      · have hcompleting := Stage.isCompleting_of_completing hcompletes
        refine ⟨by rw [onRow, w.attemptCount_apply, if_pos hcompleting, hcount], .inl ?_⟩
        refine Message.isClosed_apply hcompleting fun code message hw => ?_
        -- The last claimant requeues; but that is the live holder.
        subst hw
        have hphase : d.stage.phase = .requeueing := by
          rw [Stage.eq_markRetryable_of_completing hcompletes]
          rfl
        obtain ⟨outcome, rfl, htook⟩ := Delivery.exists_call_of_write hstep
        have hcoh := hn.coherent d hdmem
        obtain ⟨c₀, hc₀⟩ := Option.isSome_iff_exists.mp (holds_of_requeueing hcoh hphase).1
        have hcount₀ := hg i (if_pos htook) d hd hid hphase c₀ hc₀ m hm
        exact hn.distinct i j d e c₀ c hd hej (Ne.symm hij) (hid.trans hid'.symm) hc₀ hc
          (hcount₀.symm.trans hcount)

/-- **Every step that requeues no superseded claim keeps the leases exclusive.** -/
theorem Exclusive.moves (hn : Numbered env s) (he : Exclusive id s) (h : Moves env s s' a)
    (hg : RequeuesOwnClaim id s a) : Exclusive id s' := by
  intro d hd hid c m hholds hc hlive hm
  cases h with
  | quiet _ hrows hds _ hclock =>
      rw [hds] at hd
      rw [hrows] at hm
      exact he d hd hid c m hholds hc (hclock.trans_lt hlive) hm
  | created _ _ m₀ hnone _ hrows hds _ hclock =>
      rw [hds] at hd
      rw [hclock] at hlive
      obtain ⟨m₁, hm₁, -⟩ := hn.counted d hd c hc
      have hne : id ≠ m₀.id := fun heq => by rw [hid, heq, hnone] at hm₁; cases hm₁
      rw [hrows, if_neg hne] at hm
      exact he d hd hid c m hholds hc hlive hm
  | reported report m₀ target at_ error hm₀ hprovider _ _ hrows hds _ hclock =>
      rw [hds] at hd
      rw [hclock] at hlive
      rw [hrows] at hm
      split_ifs at hm with hid₀
      · cases hm
        obtain ⟨hcount, -⟩ := he d hd hid c m₀ hholds hc hlive (hid₀ ▸ hm₀)
        refine ⟨?_, .inl (.inl ?_)⟩
        · cases target <;> exact hcount
        · have hsome : m₀.providerMessageId.isSome = true := by rw [hprovider]; rfl
          cases target <;> exact hsome
      · exact he d hd hid c m hholds hc hlive hm
  | consumed n job hrows hds _ hclock =>
      rw [hds] at hd
      rw [hclock] at hlive
      rw [hrows] at hm
      rcases List.mem_append.mp hd with hd | hd
      · exact he d hd hid c m hholds hc hlive hm
      · rw [List.mem_singleton.mp hd] at hc
        cases hc
  | redelivered i₀ d₀ hd₀ hrows hds _ hclock =>
      rw [hds] at hd
      rw [hclock] at hlive
      rw [hrows] at hm
      rcases List.mem_or_eq_of_mem_set hd with hd | rfl
      · exact he d hd hid c m hholds hc hlive hm
      · exact he d₀ (List.mem_of_getElem? hd₀) hid c m hholds hc hlive hm
  | delivered i₀ act d₀ d' effect hd₀ hstep hwrite hrows hds _ hclock =>
      rw [hclock] at hlive
      obtain ⟨j, hj⟩ := List.getElem?_of_mem hd
      rw [hds] at hj
      rw [hrows] at hm
      obtain ⟨m₁, hm₁, heq⟩ := Option.map_eq_some_iff.mp hm
      rcases getElem?_set_cases hj with ⟨rfl, rfl⟩ | ⟨hji, hj'⟩
      · have hid₀ : d₀.job.messageId = id := by rw [← Delivery.job_step hstep, hid]
        rw [if_pos hid₀.symm] at heq
        subst heq
        by_cases hclaim : ∃ now leaseUntil, effect = .write (.claim now leaseUntil)
        · obtain ⟨now, leaseUntil, rfl⟩ := hclaim
          rcases Delivery.write_cases hstep with ⟨now', m', -, hm', -, hw, -, hd'⟩ | ⟨hfalse, -⟩
          · rw [hid₀, hm₁] at hm'
            cases hm'
            cases hw
            rw [hd'] at hc
            cases hc
            exact ⟨rfl, .inr ⟨rfl, rfl⟩⟩
          · cases Stage.isCompleting_of_completing hfalse
        · push Not at hclaim
          obtain ⟨hholds₀, hsame⟩ := hholds.of_step hstep hclaim
          have hnowrite : ∀ w, effect ≠ .write w := by
            rintro w rfl
            rcases Delivery.write_cases hstep with ⟨_, _, -, -, -, rfl, -⟩ | ⟨-, hd'⟩
            · exact hclaim _ _ rfl
            · have hunsettled := hholds.2.1
              rw [hd'] at hunsettled
              cases hunsettled
          have hsameRow : onRow effect m₁ = m₁ := by
            cases effect with
            | write w => exact absurd rfl (hnowrite w)
            | none | ack | nack | recordEvent _ | publishRetry _ | publishDead _ => rfl
          rw [hsameRow]
          exact he d₀ (List.mem_of_getElem? hd₀) hid₀ c m₁ hholds₀ (hsame ▸ hc) hlive hm₁
      · by_cases hid₀ : id = d₀.job.messageId
        · rw [if_pos hid₀] at heq
          subst heq
          exact he.other hn hg hd₀ hstep hid₀.symm hj' hji hid hholds hc hlive hm₁
        · rw [if_neg hid₀] at heq
          subst heq
          exact he d (List.mem_of_getElem? hj') hid c m₁ hholds hc hlive hm₁

/-! ## The call of `sendMessage` -/

/-- The delivery that is granted a slot, and calls `sendMessage`. -/
def Act.granted : Act → Option ℕ
  | .delivery i (.slot .granted) => some i
  | _ => none

/-- The slot of the message is granted less than a lease after the clock was read for the claim. -/
def GrantsInTime (env : PipelineEnv) (id : Uuid) (s : Pipeline) (a : Act) : Prop :=
  ∀ i ∈ a.granted, ∀ d ∈ s.deliveries[i]?, d.job.messageId = id → ∀ c ∈ d.claim,
    s.clock - c.claimedAt < env.config.leaseMs

/-- The condition on leases can be checked. -/
instance (env : PipelineEnv) (id : Uuid) (s : Pipeline) (a : Act) :
    Decidable (GrantsInTime env id s a) :=
  inferInstanceAs (Decidable (∀ i ∈ a.granted, ∀ d ∈ s.deliveries[i]?, d.job.messageId = id →
    ∀ c ∈ d.claim, s.clock - c.claimedAt < env.config.leaseMs))

/-- The worker of a granted slot calls `sendMessage` under its lease, and no other worker has
claimed the row since. -/
def SendsUnderLease (id : Uuid) (s : Pipeline) (a : Act) : Prop :=
  ∀ i ∈ a.granted, ∀ d ∈ s.deliveries[i]?, d.job.messageId = id →
    ∃ c ∈ d.claim, s.clock < c.leaseUntil ∧ ∃ m ∈ s.db.message id, m.attemptCount = c.number

/-- The condition on sends can be checked. -/
instance (id : Uuid) (s : Pipeline) (a : Act) : Decidable (SendsUnderLease id s a) :=
  inferInstanceAs (Decidable (∀ i ∈ a.granted, ∀ d ∈ s.deliveries[i]?, d.job.messageId = id →
    ∃ c ∈ d.claim, s.clock < c.leaseUntil ∧ ∃ m ∈ s.db.message id, m.attemptCount = c.number))

/-- A slot that is granted in time is granted to the last claimant. -/
theorem SendsUnderLease.of_exclusive (hn : Numbered env s) (he : Exclusive id s)
    (hg : GrantsInTime env id s a) (hstep : s.step env a = some s') : SendsUnderLease id s a := by
  intro i hi d hd hid
  obtain rfl : a = .delivery i (.slot .granted) := by
    unfold Act.granted at hi
    split at hi <;> cases hi
    rfl
  obtain ⟨d₁, hd₁, hstep⟩ := Option.bind_eq_some_iff.mp hstep
  rw [hd] at hd₁
  cases hd₁
  obtain ⟨⟨d', effect⟩, hlocal, -⟩ := Option.bind_eq_some_iff.mp hstep
  -- The delivery was reserving its slot, so it holds the message.
  obtain ⟨now, hstage⟩ : ∃ now, d.stage = .reserveSlot now := by
    simp only [Delivery.step] at hlocal
    split at hlocal <;> simp_all
  have hmem := List.mem_of_getElem? hd
  have hcoh := hn.coherent d hmem
  have hclaimed := hcoh.claimed_of_active (by rw [hstage]; rfl)
  have hholds : d.Holds :=
    ⟨hclaimed, (hcoh.unaccepted (by rw [hstage]; rfl)).2, .inl (by rw [hstage]; rfl)⟩
  obtain ⟨c, hc⟩ := Option.isSome_iff_exists.mp hclaimed
  have hlive : s.clock < c.leaseUntil := by
    have hgrant : s.clock - c.claimedAt < env.config.leaseMs := hg i hi d hd hid c hc
    rw [(hcoh.lease c hc).1]
    exact lt_add_of_tsub_lt_left hgrant
  obtain ⟨m, hm, -⟩ := hn.counted d hmem c hc
  rw [hid] at hm
  exact ⟨c, hc, hlive, m, hm, (he d hmem hid c m hholds hc hlive hm).1⟩

/-- **Meta is called under a live lease.** In every run in which the slots of a message are granted
less than a lease after the clock was read for the claim, and in which no superseded worker puts
it back to `QUEUED`, every call of `sendMessage` for it is made under a live lease of the last
claimant. -/
theorem sends_under_live_lease (env : PipelineEnv) (id : Uuid) (db : Db) (clock : Time)
    (acts : List Act)
    (hrun : ∀ x ∈ trace (step env) (start db clock) acts,
      GrantsInTime env id x.1 x.2.1 ∧ RequeuesOwnClaim id x.1 x.2.1) :
    ∀ x ∈ trace (step env) (start db clock) acts, SendsUnderLease id x.1 x.2.1 := by
  intro x hx
  obtain ⟨hreach, hstep⟩ := reaches_of_mem_trace
    (G := fun s a => GrantsInTime env id s a ∧ RequeuesOwnClaim id s a) hx hrun
  obtain ⟨hn, he⟩ : Numbered env x.1 ∧ Exclusive id x.1 := by
    refine hreach.invariant (P := fun s => Numbered env s ∧ Exclusive id s)
      ⟨Numbered.start db clock, Exclusive.start id db clock⟩ ?_
    intro s b t hinv hg hst
    exact ⟨hinv.1.moves (step_moves hst), hinv.2.moves hinv.1 (step_moves hst) hg.2⟩
  exact .of_exclusive hn he (hrun x hx).1 hstep

/-- Delivery 0 claims the message, loses its channel and is refused a slot; when it tries again its
lease is over and delivery 1, the redelivery, has claimed the message. -/
def lateGrant : List Act :=
  sampleDelivered ++ sampleClaimed 0 ++
    [.redeliver 0, .consume 0, .delivery 0 (.slot .refused), .tick 5000, .delivery 1 .run,
      .delivery 1 (.call .returned), .delivery 0 .run, .delivery 0 .run]

/-- The slot is then granted, and `sendMessage` is called without a lease. -/
theorem sends_after_lease :
    ¬ ∀ x ∈ trace (step sampleEnv) (start sampleDb 0)
        (lateGrant ++ [.delivery 0 (.slot .granted)]),
      SendsUnderLease 100 x.1 x.2.1 := by
  decide

/-- The slot is granted at once. -/
def promptGrant : List Act :=
  sampleDelivered ++ sampleClaimed 0 ++ [.delivery 0 (.slot .granted)]

/-- That run makes one call, and makes it under the lease. -/
theorem sends_under_live_lease_prompt :
    ((trace (step sampleEnv) (start sampleDb 0) promptGrant).filter fun x =>
      x.2.1.granted.isSome).length = 1 ∧
    ∀ x ∈ trace (step sampleEnv) (start sampleDb 0) promptGrant, SendsUnderLease 100 x.1 x.2.1 :=
  ⟨by decide, sends_under_live_lease sampleEnv 100 sampleDb 0 _ (by decide)⟩

end Pipeline

end ApiWhatsApp
