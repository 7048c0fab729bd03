import ApiWhatsApp.Outbound.Pipeline

/-!
# Dead letters

`dispatch` and `markRetryExhausted` write `FAILED` to the row before `processDelivery` publishes the
dead letter. A delivery that is cut off in between leaves a row that is done: the next delivery of
the job finds nothing to claim and acknowledges it.

* `Pipeline.marks` is the message that a step marks as `FAILED`, `markedIn` those of a whole run.
* `Outstanding` — a job of the message is in a queue, or the broker waits for a delivery of it.
* `Delivery.losesLetter` names the ways to be cut off: the write of `FAILED` takes effect but its call
  throws, or the channel is already lost; and once the message is settled, before the dead letter is
  with the broker, the process dies, the channel closes or the publication fails.
* **`failed_has_dead_letter`** — in every run without these, every message that the dispatcher has
  marked has a dead letter once it is not outstanding. `lost_dead_letter` is a run in which the
  worker dies between the two.
-/

namespace ApiWhatsApp

open Library

namespace Delivery

/-- The delivery has settled its message, by the write of `FAILED` or of the requeue whose retry budget
turned out to be spent, and is about to publish the dead letter. -/
def owesLetter (d : Delivery) : Bool :=
  d.settled && match d.stage with
    | .deadLetter _ => true
    | _ => false

/-- Whether a step cuts a delivery off between the write that settles its message and its dead
letter. -/
def losesLetter (d : Delivery) : DeliveryAct → Bool
  | .call outcome =>
      match d.stage with
      | .markFailed _ _ _ _ | .markExhausted _ _ =>
          outcome.tookEffect && !(outcome = .returned && d.unacked)
      | .deadLetter _ => d.settled && !outcome.tookEffect
      | _ => false
  | .crash => d.owesLetter
  | .run | .sender _ | .slot _ | .sent _ => false

variable {config : OutboundConfig} {clock : Time} {row : Option Message} {d d' : Delivery}
  {act : DeliveryAct} {effect : Effect}

/-- A letter is owed by a delivery that has settled and is about to write it. -/
theorem owesLetter_iff :
    d.owesLetter = true ↔ d.settled = true ∧ ∃ reason, d.stage = .deadLetter reason := by
  unfold owesLetter
  rcases d with ⟨job, stage, unacked, claim, accepted, settled⟩
  cases stage <;> simp

/-- A delivery that writes `FAILED` owes the dead letter, unless it is cut off. -/
theorem owesLetter_of_write {now : Time} {errorCode errorMessage : String} {response : Option Json}
    (h : d.step config clock row act =
      some (d', .write (.markFailed now errorCode errorMessage response)))
    (hkeeps : d.losesLetter act = false) :
    d'.job = d.job ∧ d'.owesLetter = true ∧ d'.unacked = true := by
  obtain ⟨outcome, rfl, heffect⟩ := exists_call_of_write h
  obtain ⟨_, _, _, _, _, hclaim, _⟩ | ⟨hcompleting, -⟩ := write_cases h
  · cases hclaim
  obtain ⟨p, hp, hend⟩ := Option.bind_eq_some_iff.mp h
  -- Two stages write `FAILED`; both go on to the dead letter when the call returns.
  have hstage : (outcome = .returned ∧ d.unacked = true) ∧
      (∃ reason, p.returned = .deadLetter reason) ∧ ∃ write, p.effect = .write write := by
    unfold Stage.completing at hcompleting
    unfold losesLetter at hkeeps
    unfold pending at hp
    split at hcompleting <;> cases hcompleting
    all_goals
      rename_i hs
      rw [hs] at hkeeps hp
      cases hp
      simp only [heffect, Bool.true_and, Bool.not_eq_false', Bool.and_eq_true,
        decide_eq_true_eq] at hkeeps
      exact ⟨hkeeps, ⟨_, rfl⟩, _, rfl⟩
  obtain ⟨⟨rfl, hunacked⟩, ⟨reason, hreturned⟩, write, hwrite⟩ := hstage
  simp only [endCall, hwrite, Effect.usesChannel, Bool.false_and, Bool.false_eq_true, if_false]
    at hend
  cases hend
  exact ⟨rfl, owesLetter_iff.mpr ⟨rfl, reason, hreturned⟩, hunacked⟩

/-- A delivery that owes a dead letter publishes it with its next step, unless it is cut off. -/
theorem publishes_of_owesLetter (h : d.step config clock row act = some (d', effect))
    (howes : d.owesLetter = true) (hkeeps : d.losesLetter act = false) :
    ∃ letter, effect = .publishDead letter ∧ letter.messageId = d.job.messageId := by
  obtain ⟨hsettled, reason, hstage⟩ := owesLetter_iff.mp howes
  cases act with
  | call outcome =>
      obtain ⟨p, hp, hend⟩ := Option.bind_eq_some_iff.mp h
      simp only [pending, hstage, Option.some.injEq] at hp
      subst hp
      simp only [losesLetter, hstage, hsettled, Bool.true_and, Bool.not_eq_false'] at hkeeps
      cases outcome with
      | failed error => cases hkeeps
      | returned | interrupted error =>
          simp only [endCall] at hend
          split_ifs at hend
          cases hend
          exact ⟨_, rfl, rfl⟩
  | crash =>
      rw [losesLetter, howes] at hkeeps
      cases hkeeps
  | run | sender outcome | slot outcome | sent outcome => simp [step, hstage] at h

end Delivery

namespace Pipeline

/-- The message that a step marks as `FAILED`. -/
def marks (env : PipelineEnv) (s : Pipeline) : Act → Option Uuid
  | .delivery i act =>
      s.deliveries[i]?.bind fun d =>
        (d.step env.config s.clock (s.db.message d.job.messageId) act).bind fun (_, effect) =>
          match effect with
          | .write (.markFailed _ _ _ _) => some d.job.messageId
          | _ => none
  | _ => none

/-- The messages that the dispatcher marks as `FAILED` in a run. -/
def markedIn (env : PipelineEnv) (s : Pipeline) (acts : List Act) : List Uuid :=
  (trace (step env) s acts).filterMap fun x => marks env x.1 x.2.1

/-- A job of the message is in a queue, or the broker waits for a delivery of it. -/
def Outstanding (s : Pipeline) (id : Uuid) : Prop :=
  (∃ job ∈ s.main, job.messageId = id) ∨
    (∃ entry ∈ s.retry, entry.publication.job.messageId = id) ∨
    ∃ d ∈ s.deliveries, d.job.messageId = id ∧ d.unacked = true

/-- It can be checked whether a delivery is outstanding. -/
instance (s : Pipeline) (id : Uuid) : Decidable (s.Outstanding id) :=
  inferInstanceAs (Decidable (_ ∨ _ ∨ _))

/-- A dead letter of the message was published. -/
def HasDeadLetter (s : Pipeline) (id : Uuid) : Prop := ∃ letter ∈ s.dead, letter.messageId = id

/-- It can be checked whether there is a letter. -/
instance (s : Pipeline) (id : Uuid) : Decidable (s.HasDeadLetter id) :=
  inferInstanceAs (Decidable (∃ letter ∈ _, _))

/-- The step cuts no delivery off between the write that settles its message and its dead letter. -/
def keepsLetters (s : Pipeline) : Act → Bool
  | .delivery i act => s.deliveries[i]?.all fun d => !d.losesLetter act
  | .redeliver i => s.deliveries[i]?.all fun d => !d.owesLetter
  | _ => true

/-- A delivery is about to publish the dead letter of the message. -/
def Owed (s : Pipeline) (id : Uuid) : Prop :=
  ∃ d ∈ s.deliveries, d.job.messageId = id ∧ d.owesLetter = true ∧ d.unacked = true

/-! ## Steps -/

variable {env : PipelineEnv} {s s' : Pipeline} {a : Act} {id : Uuid}

/-- Dead letters stay, and a publication adds one. -/
theorem dead_perform {job : OutboundQueueJob} {effect : Effect}
    (h : s.perform job effect = some s') :
    (∀ letter ∈ s.dead, letter ∈ s'.dead) ∧
      ∀ letter, effect = .publishDead letter → letter ∈ s'.dead := by
  cases effect with
  | write w =>
      obtain ⟨messages, -, rfl⟩ := Option.map_eq_some_iff.mp h
      exact ⟨fun _ hl => hl, by simp⟩
  | publishDead letter =>
      cases h
      refine ⟨fun _ hl => List.mem_cons_of_mem _ hl, ?_⟩
      rintro _ ⟨⟩
      exact List.mem_cons_self
  | none | ack | nack | recordEvent _ | publishRetry _ =>
      cases h
      exact ⟨fun _ hl => hl, by simp⟩

/-- No letter is lost. -/
theorem dead_step (h : s.step env a = some s') : ∀ letter ∈ s.dead, letter ∈ s'.dead := by
  cases a with
  | tick _ | other _ | beginCreate _ _ =>
      cases h
      exact fun _ hl => hl
  | report status =>
      obtain ⟨db, -, rfl⟩ := Option.map_eq_some_iff.mp h
      exact fun _ hl => hl
  | create i act =>
      obtain ⟨call, -, h⟩ := Option.bind_eq_some_iff.mp h
      obtain ⟨_, -, rfl⟩ := Option.map_eq_some_iff.mp h
      exact fun _ hl => hl
  | flush readAt ids =>
      obtain ⟨-, h⟩ := Option.ite_none_right_eq_some.mp h
      cases h
      exact fun _ hl => hl
  | publisher i act =>
      obtain ⟨p, -, h⟩ := Option.bind_eq_some_iff.mp h
      obtain ⟨⟨p', effect⟩, -, rfl⟩ := Option.map_eq_some_iff.mp h
      cases effect <;> exact fun _ hl => hl
  | consume n =>
      obtain ⟨job, -, rfl⟩ := Option.map_eq_some_iff.mp h
      exact fun _ hl => hl
  | expire n | redeliver n =>
      obtain ⟨_, -, h⟩ := Option.bind_eq_some_iff.mp h
      obtain ⟨-, h⟩ := Option.ite_none_right_eq_some.mp h
      cases h
      exact fun _ hl => hl
  | delivery i act =>
      obtain ⟨d, -, h⟩ := Option.bind_eq_some_iff.mp h
      obtain ⟨⟨d', effect⟩, -, h⟩ := Option.bind_eq_some_iff.mp h
      obtain ⟨s₁, hperform, rfl⟩ := Option.map_eq_some_iff.mp h
      exact (dead_perform hperform).1

/-- What a step of a delivery does to the deliveries and the dead letters. -/
theorem deliveries_step {i : ℕ} {act : DeliveryAct} (h : s.step env (.delivery i act) = some s') :
    ∃ d d' effect, s.deliveries[i]? = some d ∧
      d.step env.config s.clock (s.db.message d.job.messageId) act = some (d', effect) ∧
      s'.deliveries = s.deliveries.set i d' ∧
      ∀ letter, effect = .publishDead letter → letter ∈ s'.dead := by
  obtain ⟨d, hd, h⟩ := Option.bind_eq_some_iff.mp h
  obtain ⟨⟨d', effect⟩, hstep, h⟩ := Option.bind_eq_some_iff.mp h
  obtain ⟨s₁, hperform, rfl⟩ := Option.map_eq_some_iff.mp h
  exact ⟨d, d', effect, hd, hstep, rfl, (dead_perform hperform).2⟩

/-- **A dead letter that is owed is kept or published.** -/
theorem owed_step (hkeeps : s.keepsLetters a = true) (h : s.step env a = some s')
    (howed : s.Owed id) : s'.HasDeadLetter id ∨ s'.Owed id := by
  obtain ⟨d, hmem, hid, howes, hunacked⟩ := howed
  -- A delivery that the step does not touch still owes it.
  have hkept : d ∈ s'.deliveries → s'.HasDeadLetter id ∨ s'.Owed id := fun hd =>
    .inr ⟨d, hd, hid, howes, hunacked⟩
  obtain ⟨j, hj⟩ := List.getElem?_of_mem hmem
  cases step_moves h with
  | quiet _ _ hds | created _ _ _ _ _ _ hds | reported _ _ _ _ _ _ _ _ _ _ hds =>
      exact hkept (by rw [hds]; exact hmem)
  | consumed n job _ hds =>
      exact hkept (by rw [hds]; exact List.mem_append_left _ hmem)
  | redelivered i d₀ hd₀ _ hds =>
      have hne : i ≠ j := by
        rintro rfl
        obtain rfl := Option.some.inj (hj.symm.trans hd₀)
        simp [keepsLetters, hd₀, howes] at hkeeps
      refine hkept (List.mem_of_getElem? (i := j) ?_)
      rw [hds, List.getElem?_set_ne hne, hj]
  | delivered i act d₀ d' effect hd₀ hlocal _ _ hds =>
      by_cases hij : i = j
      · subst hij
        obtain rfl := Option.some.inj (hj.symm.trans hd₀)
        have hloses : d.losesLetter act = false := by
          simpa [keepsLetters, hd₀] using hkeeps
        obtain ⟨letter, rfl, hletter⟩ := Delivery.publishes_of_owesLetter hlocal howes hloses
        obtain ⟨d₁, d₁', effect, hd₁, hstep₁, -, hdead⟩ := deliveries_step h
        obtain rfl := Option.some.inj (hd₀.symm.trans hd₁)
        obtain ⟨-, rfl⟩ := Prod.mk.inj (Option.some.inj (hlocal.symm.trans hstep₁))
        exact .inl ⟨letter, hdead letter rfl, hletter.trans hid⟩
      · refine hkept (List.mem_of_getElem? (i := j) ?_)
        rw [hds, List.getElem?_set_ne hij, hj]

/-- **A message that is marked is owed its dead letter.** -/
theorem owed_of_marks (hkeeps : s.keepsLetters a = true) (h : s.step env a = some s')
    (hmarks : s.marks env a = some id) : s'.Owed id := by
  cases a with
  | delivery i act =>
      obtain ⟨d, d', effect, hd, hstep, hds, -⟩ := deliveries_step h
      simp only [marks, hd, hstep, Option.bind_some] at hmarks
      split at hmarks
      · rename_i now errorCode errorMessage response
        obtain rfl := Option.some.inj hmarks
        have hloses : d.losesLetter act = false := by simpa [keepsLetters, hd] using hkeeps
        obtain ⟨hjob, howes, hunacked⟩ := Delivery.owesLetter_of_write hstep hloses
        have hlt : i < s.deliveries.length := (List.getElem?_eq_some_iff.mp hd).1
        refine ⟨d', ?_, by rw [hjob], howes, hunacked⟩
        rw [hds]
        exact List.mem_of_getElem? (List.getElem?_set_self hlt)
      · cases hmarks
  | _ => cases hmarks

/-- What was marked before a run, or is marked in it, has its dead letter or is owed it. -/
theorem letters_of_run {acts : List Act} {t : Pipeline} (hrun : exec (step env) s acts = some t)
    (hkeeps : ∀ x ∈ trace (step env) s acts, x.1.keepsLetters x.2.1 = true)
    (hid : s.HasDeadLetter id ∨ s.Owed id ∨ id ∈ markedIn env s acts) :
    t.HasDeadLetter id ∨ t.Owed id := by
  induction acts generalizing s with
  | nil =>
      cases hrun
      rcases hid with hletter | howed | hmarked
      · exact .inl hletter
      · exact .inr howed
      · simp [markedIn, trace] at hmarked
  | cons a acts ih =>
      obtain ⟨s₁, hstep, hrest⟩ := exec_cons.mp hrun
      rw [trace, hstep] at hkeeps
      have hhead := hkeeps _ List.mem_cons_self
      refine ih hrest (fun x hx => hkeeps x (List.mem_cons_of_mem _ hx)) ?_
      have hnext : s₁.HasDeadLetter id ∨ s₁.Owed id → s₁.HasDeadLetter id ∨ s₁.Owed id ∨
          id ∈ markedIn env s₁ acts := fun h => h.imp_right .inl
      rcases hid with ⟨letter, hletter, hmessage⟩ | howed | hmarked
      · exact .inl ⟨letter, dead_step hstep letter hletter, hmessage⟩
      · exact hnext (owed_step hhead hstep howed)
      · simp only [markedIn, trace, hstep, List.filterMap_cons] at hmarked
        split at hmarked
        · exact .inr (.inr hmarked)
        · rename_i marked hmarks
          rcases List.mem_cons.mp hmarked with rfl | hmarked
          · exact .inr (.inl (owed_of_marks hhead hstep hmarks))
          · exact .inr (.inr hmarked)

/-- **Every failed message has a dead letter**, in every run that cuts no delivery off between the
write of `FAILED` and the dead letter. -/
theorem failed_has_dead_letter (env : PipelineEnv) (db : Db) (clock : Time) {acts : List Act}
    {s : Pipeline} (hrun : exec (step env) (start db clock) acts = some s)
    (hkeeps : ∀ x ∈ trace (step env) (start db clock) acts, x.1.keepsLetters x.2.1 = true)
    {id : Uuid} (hmarked : id ∈ markedIn env (start db clock) acts) (hdone : ¬s.Outstanding id) :
    s.HasDeadLetter id := by
  rcases letters_of_run hrun hkeeps (.inr (.inr hmarked)) with hletter | ⟨d, hd, hid, -, hunacked⟩
  · exact hletter
  · exact absurd (.inr (.inr ⟨d, hd, hid, hunacked⟩)) hdone

/-! ## A message that the provider rejects -/

/-- The provider rejects message 100 for good, and delivery 0 writes `FAILED`. -/
def rejected : List Act :=
  sampleDelivered ++ sampleClaimed 0 ++
    [.delivery 0 (.slot .granted),
      .delivery 0 (.sent (.metaApiError
        { message := "rejected", httpStatus := some 400, code := none, subcode := none,
          retryable := false, response := none })),
      .delivery 0 (.call .returned)]

/-- It publishes the dead letter and acknowledges the job. -/
def letterPublished : List Act :=
  rejected ++ [.delivery 0 (.call .returned), .delivery 0 (.call .returned)]

/-- The worker dies instead; the job is delivered again, and acknowledged. -/
def letterLost : List Act :=
  rejected ++ [.delivery 0 .crash, .redeliver 0, .consume 0, .delivery 1 .run,
    .delivery 1 (.call .returned), .delivery 1 (.call .returned), .delivery 1 (.call .returned)]

/-- The rejected message has its dead letter. -/
theorem failed_has_dead_letter_published : ∃ s,
    exec (step sampleEnv) (start sampleDb 0) letterPublished = some s ∧
      100 ∈ markedIn sampleEnv (start sampleDb 0) letterPublished ∧ ¬s.Outstanding 100 ∧
      s.HasDeadLetter 100 := by
  have hdone : (exec (step sampleEnv) (start sampleDb 0) letterPublished).map
      (fun s => decide (s.Outstanding 100)) = some false := by decide
  obtain ⟨s, hrun, hdone⟩ := Option.map_eq_some_iff.mp hdone
  have hmarked : 100 ∈ markedIn sampleEnv (start sampleDb 0) letterPublished := by decide
  have hnot : ¬s.Outstanding 100 := of_decide_eq_false hdone
  exact ⟨s, hrun, hmarked, hnot,
    failed_has_dead_letter sampleEnv sampleDb 0 hrun (by decide) hmarked hnot⟩

/-- The worker dies between the write of `FAILED` and the dead letter: the message is marked and no
longer outstanding, and there is no dead letter. -/
theorem lost_dead_letter :
    ¬∀ (env : PipelineEnv) (db : Db) (clock : Time) (acts : List Act) (s : Pipeline) (id : Uuid),
      exec (step env) (start db clock) acts = some s →
      id ∈ markedIn env (start db clock) acts → ¬s.Outstanding id → s.HasDeadLetter id := by
  intro hall
  have hdone : (exec (step sampleEnv) (start sampleDb 0) letterLost).map
      (fun s => (decide (s.Outstanding 100), decide (s.HasDeadLetter 100))) =
        some (false, false) := by decide
  obtain ⟨s, hrun, hdone⟩ := Option.map_eq_some_iff.mp hdone
  obtain ⟨hnot, hnone⟩ := Prod.mk.inj hdone
  have hletter := hall sampleEnv sampleDb 0 letterLost s 100 hrun (by decide)
    (of_decide_eq_false hnot)
  exact of_decide_eq_false hnone hletter

end Pipeline

end ApiWhatsApp
