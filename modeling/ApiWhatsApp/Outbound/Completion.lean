import ApiWhatsApp.Outbound.Leases

/-!
# Completing writes

The SUBMITTED update, `markRetryableFailure` and `markFailed` name the row by its id alone: neither
the lease of the worker nor what the row already holds is asked for. Two things follow, each
settled for every run of the pipeline.

* `Superseded` — the lease of a claim is over, and the row has been claimed since.
  **`superseded_writes_fenced`**: superseded workers leave status and provider id of a submitted
  message alone where nobody claims it before the workers that claimed it earlier are done with it
  (`ReclaimsAfterDone`). `requeued_after_submission` is a run in which a submitted message is put
  back to `QUEUED`.
* One `try` block covers the send and the update that records it.
  **`acceptance_recorded_iff`**: every dispatch whose send was accepted records that, and nothing
  else, in a run exactly if no `markFailed` takes effect after the send was accepted.
  `failed_after_acceptance` is a run in which one does.
-/

namespace ApiWhatsApp

open Library

/-- The lease of the claim is over, and the row has been claimed since. -/
def Superseded (clock : Time) (c : Claim) (m : Message) : Prop :=
  c.leaseUntil ≤ clock ∧ c.number < m.attemptCount

/-- It can be checked whether a claim is superseded. -/
instance (clock : Time) (c : Claim) (m : Message) : Decidable (Superseded clock c m) :=
  inferInstanceAs (Decidable (_ ∧ _))

/-- The failing part is the call of `markFailed`. -/
theorem Stage.eq_markFailed_of_failing {stage : Stage} (h : stage.phase = .failing) :
    ∃ now errorCode errorMessage response,
      stage = .markFailed now errorCode errorMessage response := by
  cases stage with
  | markFailed now errorCode errorMessage response =>
      exact ⟨now, errorCode, errorMessage, response, rfl⟩
  | reload claimed => cases claimed <;> cases h
  | _ => cases h

/-- The instant from which a claim that is about to be made computes its lease. -/
def Stage.claiming : Stage → Option Time
  | .claim now => some now
  | _ => none

/-- Nothing is left that writes the row: the retry or the dead letter is on its way, or less. -/
def Stage.isDone : Stage → Bool
  | .publish _ | .deadLetter _ | .ack | .nack | .finished | .crashed => true
  | _ => false

/-- A stage that is done writes nothing more. -/
theorem Stage.completing_of_isDone {stage : Stage} (h : stage.isDone = true) :
    stage.completing = none ∧ stage.claiming = none := by
  cases stage <;> first | exact ⟨rfl, rfl⟩ | cases h

/-- What is past its answer to the broker is done. -/
theorem Stage.isDone_of_phase {stage : Stage}
    (h : stage.phase = .releasing ∨ stage.phase = .over) : stage.isDone = true := by
  cases stage with
  | reload claimed => cases claimed <;> simp [Stage.phase] at h
  | _ => first | rfl | simp [Stage.phase] at h

namespace Delivery

variable {config : OutboundConfig} {clock : Time} {row : Option Message} {d d' : Delivery}
  {act : DeliveryAct} {effect : Effect}

/-- **Who is done stays done.** -/
theorem isDone_step (h : d.step config clock row act = some (d', effect))
    (hdone : d.stage.isDone = true) : d'.stage.isDone = true := by
  have hflow := phase_step h
  by_cases hpublish : ∃ publication, d.stage = .publish publication
  · obtain ⟨publication, hs⟩ := hpublish
    cases act with
    | call outcome =>
        obtain ⟨p, hp, hcase⟩ := call_cases h
        simp only [pending, hs, Option.some.injEq] at hp
        subst hp
        rcases hcase with ⟨-, e, rfl⟩ | ⟨-, -, stage, rfl | ⟨e, rfl⟩, rfl⟩ <;> rfl
    | crash =>
        simp only [step, hs, Option.some.injEq] at h
        cases h
        rfl
    | run | sender outcome | slot outcome | sent outcome => simp [step, hs] at h
  · refine Stage.isDone_of_phase ?_
    have hphase : d.stage.phase = .releasing ∨ d.stage.phase = .over := by
      cases hs : d.stage with
      | publish publication => exact absurd ⟨publication, hs⟩ hpublish
      | deadLetter _ | ack => exact .inl rfl
      | nack | finished | crashed => exact .inr rfl
      | _ =>
          rw [hs] at hdone
          cases hdone
    revert hflow
    rcases hphase with hphase | hphase <;> rw [hphase] <;> cases d'.stage.phase <;> decide

/-- The pending call is a claim that finds the row. -/
def claims (row : Option Message) (d : Delivery) : Bool := d.stage.claiming.any (claimed row)

/-- A step changes the claim only by making one. -/
theorem claim_step (h : d.step config clock row act = some (d', effect)) :
    (d'.claim = d.claim ∧ ∀ now leaseUntil, effect ≠ .write (.claim now leaseUntil)) ∨
      ∃ now m, d.claims row = true ∧ row = some m ∧
        effect = .write (.claim now (now + config.leaseMs)) ∧
        d'.claim = some ⟨now, now + config.leaseMs, m.attemptCount + 1⟩ := by
  by_cases hw : ∃ w, effect = .write w
  · obtain ⟨w, rfl⟩ := hw
    rcases write_cases h with ⟨now, m, hs, hm, hclaimable, rfl, -, hd'⟩ | ⟨hw, hd'⟩
    · have hclaims : d.claims row = true := by
        rw [claims, hs, hm]
        exact hclaimable
      exact .inr ⟨now, m, hclaims, hm, rfl, by rw [hd']⟩
    · refine .inl ⟨by rw [hd'], fun now leaseUntil heq => ?_⟩
      cases heq
      cases Stage.isCompleting_of_completing hw
  · push Not at hw
    exact .inl ⟨(no_write_cases h hw).1, fun now leaseUntil => hw _⟩

/-- A completing call that takes effect makes its write. -/
theorem effect_of_completing {outcome : CallOutcome} {w : RowWrite}
    (h : d.step config clock row (.call outcome) = some (d', effect))
    (htook : outcome.tookEffect = true) (hw : d.stage.completing = some w) :
    effect = .write w := by
  obtain ⟨p, hp, h⟩ := Option.bind_eq_some_iff.mp h
  have hpending : p.effect = .write w := by
    unfold Stage.completing at hw
    split at hw <;> cases hw <;> rename_i hs <;>
      (simp only [pending, hs, Option.some.injEq] at hp; subst hp; rfl)
  cases outcome with
  | failed e => cases htook
  | returned | interrupted e =>
      simp only [endCall, hpending, Effect.usesChannel, Bool.false_and, Bool.false_eq_true,
        if_false] at h
      cases h
      rfl

end Delivery

namespace Pipeline

variable {env : PipelineEnv} {s s' : Pipeline} {a : Act} {id : Uuid}

/-! ## Superseded workers -/

/-- The message has been submitted, and another worker has claimed it after the lease of this
delivery was over. -/
def IsLate (clock : Time) (m : Message) (d : Delivery) : Prop :=
  m.providerMessageId.isSome = true ∧ ∃ c ∈ d.claim, Superseded clock c m

/-- It can be checked whether a delivery is late. -/
instance (clock : Time) (m : Message) (d : Delivery) : Decidable (IsLate clock m d) :=
  inferInstanceAs (Decidable (_ ∧ ∃ c ∈ d.claim, Superseded clock c m))

/-- A late worker leaves the status and the provider id of its message. -/
def FencesSuperseded (id : Uuid) (s : Pipeline) (a : Act) (s' : Pipeline) : Prop :=
  ∀ x ∈ a.moved, ∀ d ∈ s.deliveries[x.1]?, d.job.messageId = id → ∀ m ∈ s.db.message id,
    IsLate s.clock m d → ∀ m' ∈ s'.db.message id,
      m'.status = m.status ∧ m'.providerMessageId = m.providerMessageId

/-- The statement about a step can be checked. -/
instance (id : Uuid) (s : Pipeline) (a : Act) (s' : Pipeline) :
    Decidable (FencesSuperseded id s a s') :=
  inferInstanceAs (Decidable (∀ x ∈ a.moved, ∀ d ∈ s.deliveries[x.1]?, d.job.messageId = id →
    ∀ m ∈ s.db.message id, IsLate s.clock m d → ∀ m' ∈ s'.db.message id,
      m'.status = m.status ∧ m'.providerMessageId = m.providerMessageId))

/-- When the message is about to be claimed, every worker that has claimed it before is done with
it. -/
def ReclaimsAfterDone (id : Uuid) (s : Pipeline) (a : Act) : Prop :=
  ∀ i ∈ a.effective, ∀ d ∈ s.deliveries[i]?, d.job.messageId = id →
    d.claims (s.db.message id) = true →
      ∀ e ∈ s.deliveries, e.job.messageId = id → e.claim.isSome = true → e.stage.isDone = true

/-- The condition on a step can be checked. -/
instance (id : Uuid) (s : Pipeline) (a : Act) : Decidable (ReclaimsAfterDone id s a) :=
  inferInstanceAs (Decidable (∀ i ∈ a.effective, ∀ d ∈ s.deliveries[i]?, d.job.messageId = id →
    d.claims (s.db.message id) = true →
      ∀ e ∈ s.deliveries, e.job.messageId = id → e.claim.isSome = true → e.stage.isDone = true))

/-- Who is not the last to have claimed the message is done with it. -/
def DoneBeforeReclaim (id : Uuid) (s : Pipeline) : Prop :=
  ∀ d ∈ s.deliveries, d.job.messageId = id → ∀ c, d.claim = some c →
    ∀ m, s.db.message id = some m → c.number < m.attemptCount → d.stage.isDone = true

/-- What has an effect is a call that took effect. -/
theorem Act.eq_of_effective {i : ℕ} (h : i ∈ a.effective) :
    ∃ outcome : CallOutcome, a = .delivery i (.call outcome) ∧ outcome.tookEffect = true := by
  unfold Act.effective at h
  split at h
  · split_ifs at h with htook <;> cases h
    exact ⟨_, rfl, htook⟩
  · cases h

/-- What moves a delivery is a step of it. -/
theorem Act.eq_of_moved {x : ℕ × DeliveryAct} (h : x ∈ a.moved) : a = .delivery x.1 x.2 := by
  unfold Act.moved at h
  split at h <;> cases h
  rfl

/-- The step of a delivery, in one piece. -/
theorem delivery_step {i : ℕ} {act : DeliveryAct} {d : Delivery}
    (hstep : s.step env (.delivery i act) = some s') (hd : s.deliveries[i]? = some d) :
    ∃ d' effect,
      d.step env.config s.clock (s.db.message d.job.messageId) act = some (d', effect) ∧
      s'.deliveries = s.deliveries.set i d' ∧
      (∀ j, s'.db.message j =
        (s.db.message j).map fun m => if j = d.job.messageId then onRow effect m else m) ∧
      ∀ w, effect = .write w → ∃ m, s.db.message d.job.messageId = some m := by
  obtain ⟨d₁, hd₁, hstep⟩ := Option.bind_eq_some_iff.mp hstep
  rw [hd] at hd₁
  cases hd₁
  obtain ⟨⟨d', effect⟩, hlocal, hstep⟩ := Option.bind_eq_some_iff.mp hstep
  obtain ⟨s₁, hperform, rfl⟩ := Option.map_eq_some_iff.mp hstep
  obtain ⟨hrows, -, -, -, hwrite⟩ := perform_spec hperform
  exact ⟨d', effect, hlocal, rfl, hrows, hwrite⟩

/-- A step of a delivery that claims nothing leaves the attempt count. -/
theorem attemptCount_onRow {effect : Effect} {m : Message}
    (h : ∀ now leaseUntil, effect ≠ .write (.claim now leaseUntil)) :
    (onRow effect m).attemptCount = m.attemptCount := by
  cases effect with
  | write w =>
      cases w with
      | claim now leaseUntil => exact absurd rfl (h now leaseUntil)
      | submit _ _ _ | markRetryableFailure _ _ | markFailed _ _ _ _ => rfl
  | none | ack | nack | recordEvent _ | publishRetry _ | publishDead _ => rfl

/-- **Every step that reclaims after everybody is done keeps `DoneBeforeReclaim`.** -/
theorem DoneBeforeReclaim.moves (hn : Numbered env s) (hdone : DoneBeforeReclaim id s)
    (hg : ReclaimsAfterDone id s a) (h : Moves env s s' a) : DoneBeforeReclaim id s' := by
  intro d hd hid c hc m hm hlt
  cases h with
  | quiet _ hrows hds =>
      rw [hds] at hd
      exact hdone d hd hid c hc m (hrows id ▸ hm) hlt
  | created _ _ m₀ hnone _ hrows hds =>
      rw [hds] at hd
      obtain ⟨m₁, hm₁, -⟩ := hn.counted d hd c hc
      have hne : id ≠ m₀.id := fun heq => by rw [hid, heq, hnone] at hm₁; cases hm₁
      rw [hrows, if_neg hne] at hm
      exact hdone d hd hid c hc m hm hlt
  | reported report m₀ target at_ error hm₀ _ _ _ hrows hds =>
      rw [hds] at hd
      rw [hrows] at hm
      split_ifs at hm with hid₀
      · cases hm
        refine hdone d hd hid c hc m₀ (hid₀ ▸ hm₀) ?_
        cases target <;> exact hlt
      · exact hdone d hd hid c hc m hm hlt
  | consumed n job hrows hds =>
      rw [hds] at hd
      rcases List.mem_append.mp hd with hd | hd
      · exact hdone d hd hid c hc m (hrows id ▸ hm) hlt
      · rw [List.mem_singleton.mp hd] at hc
        cases hc
  | redelivered i d₀ hd₀ hrows hds =>
      rw [hds] at hd
      rcases List.mem_or_eq_of_mem_set hd with hd | rfl
      · exact hdone d hd hid c hc m (hrows id ▸ hm) hlt
      · exact hdone d₀ (List.mem_of_getElem? hd₀) hid c hc m (hrows id ▸ hm) hlt
  | delivered i act d₀ d' effect hd₀ hstep _ hrows hds =>
      obtain ⟨m₁, hm₁, rfl⟩ := Option.map_eq_some_iff.mp (hrows id ▸ hm)
      rw [hds] at hd
      have hjob := Delivery.job_step hstep
      rcases Delivery.claim_step hstep with ⟨hsame, hnoclaim⟩ | ⟨now, m₂, hclaims, hm₂, rfl, hclaim⟩
      · -- Nobody claims, so the count is the old one.
        have hcount : (if id = d₀.job.messageId then onRow effect m₁ else m₁).attemptCount =
            m₁.attemptCount := by
          split_ifs
          · exact attemptCount_onRow hnoclaim
          · rfl
        rw [hcount] at hlt
        rcases List.mem_or_eq_of_mem_set hd with hd | rfl
        · exact hdone d hd hid c hc m₁ hm₁ hlt
        · exact Delivery.isDone_step hstep
            (hdone d₀ (List.mem_of_getElem? hd₀) (hjob ▸ hid) c (hsame ▸ hc) m₁ hm₁ hlt)
      · by_cases hid₀ : id = d₀.job.messageId
        · rw [if_pos hid₀] at hlt
          subst hid₀
          rcases List.mem_or_eq_of_mem_set hd with hd | rfl
          · obtain ⟨outcome, rfl, htook⟩ := Delivery.exists_call_of_write hstep
            exact hg i (if_pos htook) d₀ hd₀ rfl hclaims d hd hid (by rw [hc]; rfl)
          · -- The new claimant has the number of the row.
            rw [hclaim] at hc
            rw [hm₁] at hm₂
            cases hc
            cases hm₂
            exact absurd hlt (lt_irrefl _)
        · rw [if_neg hid₀] at hlt
          rcases List.mem_or_eq_of_mem_set hd with hd | rfl
          · exact hdone d hd hid c hc m₁ hm₁ hlt
          · exact absurd (hid.symm.trans (congrArg OutboundQueueJob.messageId hjob)) hid₀

/-- One step: a worker that is done writes no row. -/
theorem FencesSuperseded.of_done (hdone : DoneBeforeReclaim id s) (hstep : s.step env a = some s') :
    FencesSuperseded id s a s' := by
  rintro x hx d hd hid m hm ⟨-, c, hc, hlate⟩ m' hm'
  obtain rfl := Act.eq_of_moved hx
  obtain ⟨d', effect, hlocal, -, hrows, -⟩ := delivery_step hstep hd
  obtain ⟨hcompleting, hclaiming⟩ := Stage.completing_of_isDone
    (hdone d (List.mem_of_getElem? hd) hid c hc m hm hlate.2)
  rw [hrows, hm, Option.map_some, if_pos hid.symm] at hm'
  cases hm'
  cases effect with
  | none | ack | nack | recordEvent _ | publishRetry _ | publishDead _ => exact ⟨rfl, rfl⟩
  | write w =>
      rcases Delivery.write_cases hlocal with ⟨now, _, hs, -⟩ | ⟨hw, -⟩
      · rw [hs] at hclaiming
        cases hclaiming
      · rw [hw] at hcompleting
        cases hcompleting

/-- **Lease fencing.** In every run in which the message is claimed only when the workers that have
claimed it before are done with it, superseded workers leave the status and the provider id of the
submitted message. -/
theorem superseded_writes_fenced (env : PipelineEnv) (id : Uuid) (db : Db) (clock : Time)
    (acts : List Act)
    (hrun : ∀ x ∈ trace (step env) (start db clock) acts, ReclaimsAfterDone id x.1 x.2.1) :
    ∀ x ∈ trace (step env) (start db clock) acts, FencesSuperseded id x.1 x.2.1 x.2.2 := by
  intro x hx
  obtain ⟨hreach, hstep⟩ := reaches_of_mem_trace hx hrun
  obtain ⟨-, hdone⟩ : Numbered env x.1 ∧ DoneBeforeReclaim id x.1 := by
    refine hreach.invariant (P := fun s => Numbered env s ∧ DoneBeforeReclaim id s)
      ⟨Numbered.start db clock, fun d hd => by cases hd⟩ ?_
    intro s b t hinv hg hst
    exact ⟨hinv.1.moves (step_moves hst), hinv.2.moves hinv.1 hg (step_moves hst)⟩
  exact .of_done hdone hstep

/-- Delivery 0 claims the message, puts it back to `QUEUED` and loses its channel; its lease is over
when delivery 1, the redelivery, claims the message, sends it and records the submission. -/
def redelivered : List Act :=
  sampleDelivered ++ sampleClaimed 0 ++
    [.delivery 0 (.slot (.failed "Connection is closed.")),
      .delivery 0 (.call (.interrupted "Connection lost")), .tick 5000, .redeliver 0, .consume 0] ++
    sampleClaimed 1 ++
    [.delivery 1 (.slot .granted), .delivery 1 (.sent (.accepted "wamid.1" .null)),
      .delivery 1 (.call .returned)]

/-- All that delivery 0 does then is to fail on its channel, which leaves the submitted message. -/
theorem superseded_writes_fenced_redelivered :
    let acts := redelivered ++ [.delivery 0 (.call (.failed "Channel closed"))]
    ((trace (step sampleEnv) (start sampleDb 0) acts).filter fun x =>
      x.2.1.moved.any fun y => x.1.deliveries[y.1]?.any fun d =>
        (x.1.db.message 100).any fun m => IsLate x.1.clock m d).length = 1 ∧
    ∀ x ∈ trace (step sampleEnv) (start sampleDb 0) acts, FencesSuperseded 100 x.1 x.2.1 x.2.2 :=
  ⟨by decide, superseded_writes_fenced sampleEnv 100 sampleDb 0 _ (by decide)⟩

/-- Delivery 0 claims the message, waits for a slot past its lease and loses its channel; delivery 1,
the redelivery, claims the message, sends it and records the submission. -/
def overtaken : List Act :=
  sampleDelivered ++ sampleClaimed 0 ++ [.redeliver 0, .consume 0, .tick 5000] ++
    sampleClaimed 1 ++
    [.delivery 1 (.slot .granted), .delivery 1 (.sent (.accepted "wamid.1" .null)),
      .delivery 1 (.call .returned)]

/-- The rate limiter of delivery 0 then fails, and the submitted message is `QUEUED` again. -/
theorem requeued_after_submission :
    ¬ ∀ x ∈ trace (step sampleEnv) (start sampleDb 0)
        (overtaken ++ [.delivery 0 (.slot (.failed "Connection is closed.")),
          .delivery 0 (.call .returned)]),
      FencesSuperseded 100 x.1 x.2.1 x.2.2 := by
  decide

/-! ## Accepted sends -/

end Pipeline

namespace Delivery

variable {config : OutboundConfig} {clock : Time} {row : Option Message} {d d' : Delivery}
  {act : DeliveryAct} {effect : Effect}

/-- A delivery whose send was accepted is about to record the id it was given, or to record a
failure, or has nothing more to record. -/
def RecordsOwnSend (d : Delivery) : Prop :=
  ∀ p, d.accepted = some p →
    (∃ now response, d.stage = .submit now p response) ∨
      d.stage.phase ∈ [Phase.failing, .releasing, .over]

/-- **Every step keeps `RecordsOwnSend`.** -/
theorem RecordsOwnSend.step (hd : d.RecordsOwnSend)
    (h : d.step config clock row act = some (d', effect)) : d'.RecordsOwnSend := by
  intro p hp
  have hflow := phase_step h
  -- The acceptance is an old one, or the answer of this step.
  have haccepted : d.accepted = some p ∨ ∃ now response, d'.stage = .submit now p response := by
    by_cases hw : ∃ w, effect = .write w
    · obtain ⟨w, rfl⟩ := hw
      rcases write_cases h with ⟨_, _, -, -, -, -, -, hd'⟩ | ⟨-, hd'⟩ <;>
        (rw [hd'] at hp; exact .inl hp)
    · push Not at hw
      obtain ⟨-, -, heq | ⟨outcome, -, -, heq, hs'⟩⟩ := no_write_cases h hw
      · exact .inl (heq ▸ hp)
      · rw [heq] at hp
        cases outcome with
        | accepted q r =>
            cases hp
            exact .inr ⟨clock, r, hs'⟩
        | metaApiError _ | otherError _ => cases hp
  rcases haccepted with hold | hnew
  · right
    rcases hd p hold with ⟨now, response, hs⟩ | hphase
    · rw [hs] at hflow
      change Phase.submitting.leadsTo d'.stage.phase = true at hflow
      revert hflow
      cases d'.stage.phase <;> decide
    · revert hflow hphase
      cases d.stage.phase <;> cases d'.stage.phase <;> decide
  · exact .inl hnew

end Delivery

namespace Pipeline

variable {env : PipelineEnv} {s s' : Pipeline} {a : Act} {id : Uuid}

/-- The update of a message row that an effect is. -/
def rowWrite : Effect → Option RowWrite
  | .write write => some write
  | .none | .recordEvent _ | .publishRetry _ | .publishDead _ | .ack | .nack => none

/-- The update of a message row that a step commits. -/
def written (env : PipelineEnv) (s : Pipeline) (a : Act) : Option RowWrite :=
  a.moved.bind fun x => s.deliveries[x.1]?.bind fun d =>
    (d.step env.config s.clock (s.db.message d.job.messageId) x.2).bind fun y => rowWrite y.2

/-- The row carries the accepted id and is neither `FAILED` nor `QUEUED`. -/
def Carries (p : String) (m : Message) : Prop :=
  m.status ≠ .failed ∧ m.status ≠ .queued ∧ m.providerMessageId = some p

/-- It can be checked whether the row carries the message. -/
instance (p : String) (m : Message) : Decidable (Carries p m) :=
  inferInstanceAs (Decidable (_ ∧ _ ∧ _))

/-- When a delivery of the message whose send was accepted commits a write, the row carries the
accepted id. -/
def RecordsAcceptance (env : PipelineEnv) (id : Uuid) (s : Pipeline) (a : Act) (s' : Pipeline) :
    Prop :=
  ∀ x ∈ a.moved, ∀ d ∈ s.deliveries[x.1]?, d.job.messageId = id → ∀ p ∈ d.accepted,
    (s.written env a).isSome = true → ∀ m' ∈ s'.db.message id, Carries p m'

/-- The statement about the record can be checked. -/
instance (env : PipelineEnv) (id : Uuid) (s : Pipeline) (a : Act) (s' : Pipeline) :
    Decidable (RecordsAcceptance env id s a s') :=
  inferInstanceAs (Decidable (∀ x ∈ a.moved, ∀ d ∈ s.deliveries[x.1]?, d.job.messageId = id →
    ∀ p ∈ d.accepted, (s.written env a).isSome = true → ∀ m' ∈ s'.db.message id, Carries p m'))

/-- No `markFailed` of a delivery whose send was accepted takes effect. -/
def NoFailureAfterAcceptance (id : Uuid) (s : Pipeline) (a : Act) : Prop :=
  ∀ i ∈ a.effective, ∀ d ∈ s.deliveries[i]?, d.job.messageId = id → d.accepted.isSome = true →
    d.stage.phase ≠ .failing

/-- One step records an acceptance exactly if it is no such `markFailed`. -/
theorem recordsAcceptance_iff (hown : ∀ d ∈ s.deliveries, d.RecordsOwnSend)
    (hstep : s.step env a = some s') :
    RecordsAcceptance env id s a s' ↔ NoFailureAfterAcceptance id s a := by
  constructor
  · intro hr i hi d hd hid hacc hphase
    obtain ⟨outcome, rfl, htook⟩ := Act.eq_of_effective hi
    obtain ⟨d', effect, hlocal, -, hrows, hwrite⟩ := delivery_step hstep hd
    obtain ⟨p, hp⟩ := Option.isSome_iff_exists.mp hacc
    obtain ⟨now, code, message, response, hs⟩ := Stage.eq_markFailed_of_failing hphase
    obtain rfl := Delivery.effect_of_completing hlocal htook (by rw [hs]; rfl)
    obtain ⟨m, hm⟩ := hwrite _ rfl
    have hwritten : (s.written env (.delivery i (.call outcome))).isSome = true := by
      rw [Option.mem_def] at hd
      simp [written, Act.moved, hd, hlocal, rowWrite]
    have hrow : s'.db.message id = some ((RowWrite.markFailed now code message response).apply m) := by
      rw [hrows, ← hid, hm, Option.map_some, if_pos rfl]
      rfl
    exact (hr _ rfl d hd hid p hp hwritten _ hrow).1 rfl
  · intro hg x hx d hd hid p hp hwritten m' hm'
    obtain rfl := Act.eq_of_moved hx
    obtain ⟨d', effect, hlocal, -, hrows, hwrite⟩ := delivery_step hstep hd
    obtain ⟨w, rfl⟩ : ∃ w, effect = .write w := by
      rw [Option.mem_def] at hd
      simp only [written, Act.moved, Option.bind_some, hd, hlocal] at hwritten
      cases effect with
      | write w => exact ⟨w, rfl⟩
      | none | ack | nack | recordEvent _ | publishRetry _ | publishDead _ => cases hwritten
    obtain ⟨m, hm⟩ := hwrite w rfl
    rw [hrows, ← hid, hm, Option.map_some, if_pos rfl] at hm'
    cases hm'
    obtain ⟨outcome, hact, htook⟩ := Delivery.exists_call_of_write hlocal
    have hnotfailing : d.stage.phase ≠ .failing := by
      refine hg x.1 ?_ d hd hid (by rw [hp]; rfl)
      rw [hact]
      exact if_pos htook
    rcases hown d (List.mem_of_getElem? hd) p hp with ⟨now, response, hs⟩ | hphase
    · -- The pending call is the update to `SUBMITTED`.
      have heffect := Delivery.effect_of_completing (hact ▸ hlocal) htook
        (w := .submit now p response) (by rw [hs]; rfl)
      cases heffect
      exact ⟨by simp [onRow, RowWrite.apply], by simp [onRow, RowWrite.apply], rfl⟩
    · exfalso
      rcases Delivery.write_cases hlocal with ⟨now, _, hs, -⟩ | ⟨hw, -⟩
      · rw [hs] at hphase
        simp [Stage.phase] at hphase
      · rcases Delivery.phase_of_completing hw with h | h | h | h <;> simp_all

/-- **Accepted sends.** In every run, a dispatch of the message whose send was accepted commits
nothing but the acceptance exactly if no `markFailed` of such a dispatch takes effect. -/
theorem acceptance_recorded_iff (env : PipelineEnv) (id : Uuid) (db : Db) (clock : Time)
    (acts : List Act) :
    (∀ x ∈ trace (step env) (start db clock) acts, RecordsAcceptance env id x.1 x.2.1 x.2.2) ↔
      ∀ x ∈ trace (step env) (start db clock) acts, NoFailureAfterAcceptance id x.1 x.2.1 := by
  refine forall₂_congr fun x hx => ?_
  obtain ⟨hreach, hstep⟩ :=
    reaches_of_mem_trace (G := fun _ _ => True) hx fun _ _ => trivial
  refine recordsAcceptance_iff ?_ hstep
  refine hreach.invariant (P := fun s => ∀ d ∈ s.deliveries, d.RecordsOwnSend)
    (fun d hd => by cases hd) ?_
  intro s b t hinv _ hst
  exact (step_moves hst).forall_deliveries hinv (fun _ p hp => by cases hp) (fun _ hd => hd)
    fun _ _ _ _ _ hd hlocal => hd.step hlocal

/-- The send of delivery 0 is accepted, and the update that records it fails. -/
def unrecorded : List Act :=
  sampleDelivered ++ sampleClaimed 0 ++
    [.delivery 0 (.slot .granted), .delivery 0 (.sent (.accepted "wamid.1" .null)),
      .delivery 0 (.call (.failed "Timed out fetching a new connection"))]

/-- The catch clause then marks the message as failed. -/
theorem failed_after_acceptance :
    ¬ ∀ x ∈ trace (step sampleEnv) (start sampleDb 0)
        (unrecorded ++ [.delivery 0 (.call .returned)]),
      RecordsAcceptance sampleEnv 100 x.1 x.2.1 x.2.2 := by
  decide

end Pipeline

end ApiWhatsApp
