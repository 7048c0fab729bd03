import ApiWhatsApp.Outbound.Leases

/-!
# At most one accepted send

When every dispatch completes before its own lease is over, a message is sent at most once, however
often its job is delivered, deferred, retried or published again and wherever processes die.

* `CompletesInTime` — the premise, on every step of the run: a dispatch has its send accepted and
  makes its completing write within its lease. One that dies before its send is under no duty.
* `OneSend` — the invariant: besides a delivery whose send was accepted nobody holds the message
  under a live lease and nobody else was accepted, and once that delivery has completed the row is
  closed to claims.
* **`at_most_one_send`** assembles both with `Exclusive`, and adds what a delivery does that finds
  the message under another lease: it claims nothing, and puts back the job it was given.
-/

namespace ApiWhatsApp

open Library

namespace Delivery

/-- The lease of the delivery's claim has not run out. -/
def LiveAt (clock : Time) (d : Delivery) : Prop := ∀ c ∈ d.claim, clock < c.leaseUntil

/-- It can be checked whether a lease is alive. -/
instance (clock : Time) (d : Delivery) : Decidable (d.LiveAt clock) :=
  inferInstanceAs (Decidable (∀ c ∈ d.claim, clock < c.leaseUntil))

/-- Whether a step is the completing write of a dispatch, or has its send accepted. -/
def decides (d : Delivery) : DeliveryAct → Bool
  | .call outcome => outcome.tookEffect && d.stage.phase ∈ [.requeueing, .submitting, .failing]
  | .sent (.accepted _ _) => true
  | _ => false

end Delivery

namespace Pipeline

variable {env : PipelineEnv} {s s' : Pipeline} {a : Act} {id : Uuid}

/-- A step by which a dispatch of the message decides its fate is taken within its lease, and a
dispatch whose send was accepted stays within its lease until its completing write. -/
def CompletesInTime (id : Uuid) (s : Pipeline) (a : Act) : Prop :=
  (∀ d ∈ s.deliveries, d.job.messageId = id → d.accepted.isSome = true → d.settled = false →
    d.LiveAt s.clock) ∧
  ∀ x ∈ a.moved, ∀ d ∈ s.deliveries[x.1]?, d.job.messageId = id → d.decides x.2 = true →
    d.LiveAt s.clock

/-- The condition can be checked. -/
instance (id : Uuid) (s : Pipeline) (a : Act) : Decidable (CompletesInTime id s a) :=
  inferInstanceAs (Decidable (_ ∧ ∀ x ∈ a.moved, ∀ d ∈ s.deliveries[x.1]?,
    d.job.messageId = id → d.decides x.2 = true → d.LiveAt s.clock))

/-- An accepted delivery is alone with its message. -/
structure OneSend (id : Uuid) (s : Pipeline) : Prop where
  alone : ∀ (i j : ℕ) (d e : Delivery), s.deliveries[i]? = some d → s.deliveries[j]? = some e →
    i ≠ j → d.job.messageId = id → e.job.messageId = id → d.accepted.isSome = true →
    ¬ (e.Holds ∧ e.LiveAt s.clock) ∧ e.accepted = none
  closed : ∀ d ∈ s.deliveries, d.job.messageId = id → d.accepted.isSome = true →
    d.settled = true → ∀ m ∈ s.db.message id, m.IsClosed
  counted : s.sends.count id ≤ 1 ∧ (0 < s.sends.count id →
    ∃ d ∈ s.deliveries, d.job.messageId = id ∧ d.accepted.isSome = true)

/-- At the start nothing was sent. -/
theorem OneSend.start (id : Uuid) (db : Db) (clock : Time) : OneSend id (start db clock) where
  alone i j d e hi := by simp [Pipeline.start] at hi
  closed d hd := by cases hd
  counted := ⟨Nat.zero_le _, fun h => absurd h (lt_irrefl 0)⟩

/-- Live holders of one message are the same delivery. -/
theorem eq_of_holders_live {i j : ℕ} {d e : Delivery} (hn : Numbered env s) (he : Exclusive id s)
    (hi : s.deliveries[i]? = some d) (hj : s.deliveries[j]? = some e)
    (hid : d.job.messageId = id) (hid' : e.job.messageId = id)
    (hd : d.Holds ∧ d.LiveAt s.clock) (hh : e.Holds ∧ e.LiveAt s.clock) : i = j := by
  by_contra hij
  obtain ⟨c, hc⟩ := Option.isSome_iff_exists.mp hd.1.1
  obtain ⟨c', hc'⟩ := Option.isSome_iff_exists.mp hh.1.1
  have hdmem := List.mem_of_getElem? hi
  obtain ⟨m, hm, -⟩ := hn.counted d hdmem c hc
  rw [hid] at hm
  obtain ⟨hcount, -⟩ := he d hdmem hid c m hd.1 hc (hd.2 c hc) hm
  obtain ⟨hcount', -⟩ := he e (List.mem_of_getElem? hj) hid' c' m hh.1 hc' (hh.2 c' hc') hm
  exact hn.distinct i j d e c c' hi hj hij (hid.trans hid'.symm) hc hc'
    (hcount.symm.trans hcount')

/-- A delivery whose send is being answered holds the message, and was not accepted before. -/
theorem holds_of_send {d : Delivery} (hc : d.Coherent env.config s.clock)
    (hs : d.stage = .send) : d.Holds ∧ d.accepted = none :=
  ⟨⟨hc.claimed_of_active (by rw [hs]; rfl), (hc.unaccepted (by rw [hs]; rfl)).2,
    .inl (by rw [hs]; rfl)⟩, (hc.unaccepted (by rw [hs]; rfl)).1⟩

/-- The row of an accepted delivery cannot be claimed. -/
theorem OneSend.not_claimable {j : ℕ} {e : Delivery} {m : Message} {now : Time}
    (hone : OneSend id s) (hn : Numbered env s) (he : Exclusive id s)
    (hg : CompletesInTime id s a) (hj : s.deliveries[j]? = some e) (hid : e.job.messageId = id)
    (hacc : e.accepted.isSome = true) (hm : s.db.message id = some m) (hnow : now ≤ s.clock) :
    m.claimable now = false := by
  have hmem := List.mem_of_getElem? hj
  by_cases hsettled : e.settled = true
  · exact Message.not_claimable_of_isClosed (hone.closed e hmem hid hacc hsettled m hm) now
  · have hclaimed := (hn.coherent e hmem).claimed_of_accepted hacc
    have hholds : e.Holds := ⟨hclaimed, by simpa using hsettled, .inr hacc⟩
    obtain ⟨c, hc⟩ := Option.isSome_iff_exists.mp hclaimed
    have hl := hg.1 e hmem hid hacc (by simpa using hsettled) c hc
    exact not_claimable_of_exclusive (he e hmem hid c m hholds hc hl hm).2 (hnow.trans_lt hl)

/-- Under the premise every requeue is by the last claimant. -/
theorem RequeuesOwnClaim.of_inTime (hn : Numbered env s) (he : Exclusive id s)
    (hg : CompletesInTime id s a) : RequeuesOwnClaim id s a := by
  intro i hi d hd hid hphase c hc m hm
  have hmem := List.mem_of_getElem? hd
  have hholds := holds_of_requeueing (hn.coherent d hmem) hphase
  have hlive : d.LiveAt s.clock := by
    unfold Act.effective at hi
    split at hi
    · split_ifs at hi with htook <;> cases hi
      exact hg.2 _ rfl d hd hid (by simp [Delivery.decides, htook, hphase])
    · cases hi
  exact (he d hmem hid c m hholds hc (hlive c hc) hm).1

/-- A step either leaves the acceptance of a delivery alone, or is the answer that accepts its
send. -/
theorem accepted_cases {config : OutboundConfig} {clock : Time} {row : Option Message}
    {d d' : Delivery} {act : DeliveryAct} {effect : Effect} (hc : d.Coherent config clock)
    (h : d.step config clock row act = some (d', effect)) :
    (d'.accepted = d.accepted ∧ newSends d act = []) ∨
      (d.stage = .send ∧ d'.accepted.isSome = true ∧ d.decides act = true ∧
        newSends d act = [d.job.messageId]) := by
  cases act with
  | call outcome =>
      obtain ⟨p, -, ⟨-, e, rfl⟩ | ⟨-, -, stage, -, rfl⟩⟩ := Delivery.call_cases h
      · exact .inl ⟨rfl, rfl⟩
      · refine .inl ⟨?_, rfl⟩
        unfold Delivery.note
        split <;> rfl
  | sent outcome =>
      simp only [Delivery.step] at h
      split at h <;> cases h
      rename_i hs
      have hnone := (hc.unaccepted (by rw [hs]; rfl)).1
      cases outcome with
      | accepted p r => exact .inr ⟨hs, rfl, rfl, rfl⟩
      | metaApiError _ | otherError _ => exact .inl ⟨hnone.symm, rfl⟩
  | run | sender _ | slot _ | crash =>
      obtain ⟨-, ⟨stage, rfl⟩ | ⟨outcome, hsent, -⟩⟩ := Delivery.idle_cases h (by simp)
      · exact .inl ⟨rfl, rfl⟩
      · cases hsent

/-- The step of one delivery keeps an accepted delivery alone. -/
theorem OneSend.alone_step {i₀ : ℕ} {d₀ d' : Delivery} {act : DeliveryAct} {effect : Effect}
    (hone : OneSend id s) (hn : Numbered env s) (he : Exclusive id s)
    (hg : CompletesInTime id s (.delivery i₀ act)) (hd₀ : s.deliveries[i₀]? = some d₀)
    (hstep : d₀.step env.config s.clock (s.db.message d₀.job.messageId) act = some (d', effect))
    (hid₀ : d₀.job.messageId = id) {j : ℕ} {e : Delivery} (hj : s.deliveries[j]? = some e)
    (hji : j ≠ i₀) (hid : e.job.messageId = id) :
    (d'.accepted.isSome = true → ¬ (e.Holds ∧ e.LiveAt s.clock) ∧ e.accepted = none) ∧
      (e.accepted.isSome = true → ¬ (d'.Holds ∧ d'.LiveAt s.clock) ∧ d'.accepted = none) := by
  have hcoh := hn.coherent d₀ (List.mem_of_getElem? hd₀)
  have hcases := accepted_cases hcoh hstep
  constructor
  · intro hacc
    rcases hcases with ⟨heq, -⟩ | ⟨hs, -, hdec, -⟩
    · exact hone.alone i₀ j d₀ e hd₀ hj (Ne.symm hji) hid₀ hid (heq ▸ hacc)
    · -- Newly accepted: the delivery was the only live holder, so no other was accepted either.
      have hheld : d₀.Holds ∧ d₀.LiveAt s.clock :=
        ⟨(holds_of_send hcoh hs).1, hg.2 _ rfl d₀ hd₀ hid₀ hdec⟩
      refine ⟨fun hh => hji (eq_of_holders_live hn he hj hd₀ hid hid₀ hh hheld), ?_⟩
      by_contra hne
      have hsome := Option.isSome_iff_ne_none.mpr hne
      exact (hone.alone j i₀ e d₀ hj hd₀ hji hid hid₀ hsome).1 hheld
  · intro hacc
    obtain ⟨hnot, hnone⟩ := hone.alone j i₀ e d₀ hj hd₀ hji hid hid₀ hacc
    constructor
    · rintro ⟨hh, hlive⟩
      by_cases hclaim : ∃ now leaseUntil, effect = .write (.claim now leaseUntil)
      · obtain ⟨now, leaseUntil, rfl⟩ := hclaim
        rcases Delivery.write_cases hstep with ⟨now', m, hs, hm, hclaimable, -⟩ | ⟨hfalse, -⟩
        · rw [hid₀] at hm
          rw [hone.not_claimable hn he hg hj hid hacc hm (hcoh.read_le now' hs)] at hclaimable
          cases hclaimable
        · cases Stage.isCompleting_of_completing hfalse
      · push Not at hclaim
        obtain ⟨hholds, hsame⟩ := hh.of_step hstep hclaim
        exact hnot ⟨hholds, fun c hc => hlive c (hsame ▸ hc)⟩
    · rcases hcases with ⟨heq, -⟩ | ⟨hs, -, hdec, -⟩
      · rw [heq, hnone]
      · exact absurd ⟨(holds_of_send hcoh hs).1, hg.2 _ rfl d₀ hd₀ hid₀ hdec⟩ hnot

/-- The step of one delivery keeps the row of an accepted and completed delivery closed. -/
theorem OneSend.closed_step {i₀ : ℕ} {d₀ d' : Delivery} {act : DeliveryAct} {effect : Effect}
    (hone : OneSend id s) (hn : Numbered env s) (he : Exclusive id s)
    (hg : CompletesInTime id s (.delivery i₀ act)) (hd₀ : s.deliveries[i₀]? = some d₀)
    (hstep : d₀.step env.config s.clock (s.db.message d₀.job.messageId) act = some (d', effect))
    (hid₀ : d₀.job.messageId = id) {j : ℕ} {d : Delivery}
    (hj : (s.deliveries.set i₀ d')[j]? = some d) (hid : d.job.messageId = id)
    (hacc : d.accepted.isSome = true) (hsettled : d.settled = true) {m : Message}
    (hm : s.db.message id = some m) : (onRow effect m).IsClosed := by
  have hmem₀ := List.mem_of_getElem? hd₀
  have hcoh := hn.coherent d₀ hmem₀
  -- Neither a claim nor a requeue is possible; every other write closes the row.
  have hwrite : ∀ w, effect = .write w → (onRow effect m).IsClosed := by
    rintro w rfl
    rcases Delivery.write_cases hstep with ⟨now, m', hs, hm', hclaimable, -, -, hd'⟩ | ⟨hcomp, hd'⟩
    · exfalso
      rcases getElem?_set_cases hj with ⟨-, rfl⟩ | ⟨hji, hj'⟩
      · rw [hd'] at hacc
        rw [(hcoh.unaccepted (by rw [hs]; rfl)).1] at hacc
        cases hacc
      · rw [hid₀, hm] at hm'
        cases hm'
        rw [hone.not_claimable hn he hg hj' hid hacc hm (hcoh.read_le now hs)] at hclaimable
        cases hclaimable
    · refine Message.isClosed_apply (Stage.isCompleting_of_completing hcomp) fun code message hw => ?_
      · subst hw
        have hphase : d₀.stage.phase = .requeueing := by
          rw [Stage.eq_markRetryable_of_completing hcomp]
          rfl
        rcases getElem?_set_cases hj with ⟨-, rfl⟩ | ⟨hji, hj'⟩
        · rw [hd'] at hacc
          rw [(hcoh.unaccepted (by rw [hphase]; rfl)).1] at hacc
          cases hacc
        · obtain ⟨outcome, rfl, htook⟩ := Delivery.exists_call_of_write hstep
          refine (hone.alone j i₀ d d₀ hj' hd₀ hji hid hid₀ hacc).1
            ⟨holds_of_requeueing hcoh hphase, hg.2 _ rfl d₀ hd₀ hid₀ ?_⟩
          simp [Delivery.decides, htook, hphase]
  by_cases hw : ∃ w, effect = .write w
  · obtain ⟨w, hw⟩ := hw
    exact hwrite w hw
  · push Not at hw
    have hsame : onRow effect m = m := by
      cases effect with
      | write w => exact absurd rfl (hw w)
      | none | ack | nack | recordEvent _ | publishRetry _ | publishDead _ => rfl
    rw [hsame]
    rcases getElem?_set_cases hj with ⟨-, rfl⟩ | ⟨hji, hj'⟩
    · rw [(Delivery.no_write_cases hstep hw).2.1] at hsettled
      rcases accepted_cases hcoh hstep with ⟨heq, -⟩ | ⟨hs, -⟩
      · exact hone.closed d₀ hmem₀ hid₀ (heq ▸ hacc) hsettled m hm
      · rw [(holds_of_send hcoh hs).1.2.1] at hsettled
        cases hsettled
    · exact hone.closed d (List.mem_of_getElem? hj') hid hacc hsettled m hm

/-- The step of one delivery adds a send only when there was none. -/
theorem OneSend.counted_step {i₀ : ℕ} {d₀ d' : Delivery} {act : DeliveryAct} {effect : Effect}
    (hone : OneSend id s) (hn : Numbered env s) (hg : CompletesInTime id s (.delivery i₀ act))
    (hd₀ : s.deliveries[i₀]? = some d₀)
    (hstep : d₀.step env.config s.clock (s.db.message d₀.job.messageId) act = some (d', effect)) :
    (newSends d₀ act ++ s.sends).count id ≤ 1 ∧
      (0 < (newSends d₀ act ++ s.sends).count id →
        ∃ d ∈ s.deliveries.set i₀ d', d.job.messageId = id ∧ d.accepted.isSome = true) := by
  have hcoh := hn.coherent d₀ (List.mem_of_getElem? hd₀)
  have hlen : i₀ < s.deliveries.length := (List.getElem?_eq_some_iff.mp hd₀).1
  have hmem' : d' ∈ s.deliveries.set i₀ d' := List.mem_set hlen d'
  have hjob := Delivery.job_step hstep
  rcases accepted_cases hcoh hstep with ⟨heq, hnil⟩ | ⟨hs, hacc, hdec, hcons⟩
  · rw [hnil, List.nil_append]
    refine ⟨hone.counted.1, fun hpos => ?_⟩
    obtain ⟨e, hemem, hid, hacc⟩ := hone.counted.2 hpos
    obtain ⟨j, hj⟩ := List.getElem?_of_mem hemem
    by_cases hji : j = i₀
    · rw [hji, hd₀] at hj
      cases hj
      exact ⟨d', hmem', by rw [hjob, hid], by rw [heq, hacc]⟩
    · refine ⟨e, List.mem_of_getElem? (i := j) ?_, hid, hacc⟩
      rw [List.getElem?_set_ne (Ne.symm hji), hj]
  · rw [hcons]
    by_cases hid₀ : d₀.job.messageId = id
    · -- An earlier send would have left this delivery without the message.
      have hzero : s.sends.count id = 0 := by
        by_contra hne
        obtain ⟨e, hemem, hid, hacc'⟩ := hone.counted.2 (Nat.pos_of_ne_zero hne)
        obtain ⟨j, hj⟩ := List.getElem?_of_mem hemem
        obtain ⟨hholds, hnone⟩ := holds_of_send hcoh hs
        by_cases hji : j = i₀
        · rw [hji, hd₀] at hj
          cases hj
          rw [hnone] at hacc'
          cases hacc'
        · exact (hone.alone j i₀ e d₀ hj hd₀ hji hid hid₀ hacc').1
            ⟨hholds, hg.2 _ rfl d₀ hd₀ hid₀ hdec⟩
      refine ⟨by simp [hid₀, hzero], fun _ => ⟨d', hmem', by rw [hjob, hid₀], hacc⟩⟩
    · have hcount : ([d₀.job.messageId] ++ s.sends).count id = s.sends.count id := by
        simp [hid₀]
      rw [hcount]
      refine ⟨hone.counted.1, fun hpos => ?_⟩
      obtain ⟨e, hemem, hid, hacc'⟩ := hone.counted.2 hpos
      obtain ⟨j, hj⟩ := List.getElem?_of_mem hemem
      have hji : j ≠ i₀ := fun hji => by
        rw [hji, hd₀] at hj
        cases hj
        exact hid₀ hid
      refine ⟨e, List.mem_of_getElem? (i := j) ?_, hid, hacc'⟩
      rw [List.getElem?_set_ne (Ne.symm hji), hj]

/-- **Every step in time keeps `OneSend`.** -/
theorem OneSend.moves (hone : OneSend id s) (hn : Numbered env s) (he : Exclusive id s)
    (hg : CompletesInTime id s a) (h : Moves env s s' a) : OneSend id s' := by
  cases h with
  | quiet _ hrows hds hsends hclock =>
      refine ⟨?_, ?_, by rw [hds, hsends]; exact hone.counted⟩ <;> rw [hds]
      · intro i j d e hi hj hij hid hid' hacc
        obtain ⟨hnot, hnone⟩ := hone.alone i j d e hi hj hij hid hid' hacc
        exact ⟨fun hh => hnot ⟨hh.1, fun c hc => hclock.trans_lt (hh.2 c hc)⟩, hnone⟩
      · rw [hrows]
        exact hone.closed
  | created _ _ m₀ hnone _ hrows hds hsends hclock =>
      refine ⟨by rw [hds, hclock]; exact hone.alone, ?_, by rw [hds, hsends]; exact hone.counted⟩
      rw [hds]
      intro d hd hid hacc hsettled m hm
      -- An accepted delivery has a row already, so this row is not the new one.
      obtain ⟨c, hc⟩ := Option.isSome_iff_exists.mp ((hn.coherent d hd).claimed_of_accepted hacc)
      obtain ⟨m₁, hm₁, -⟩ := hn.counted d hd c hc
      have hne : id ≠ m₀.id := fun heq => by rw [hid, heq, hnone] at hm₁; cases hm₁
      rw [hrows, if_neg hne] at hm
      exact hone.closed d hd hid hacc hsettled m hm
  | reported report m₀ target at_ error hm₀ hprovider _ _ hrows hds hsends hclock =>
      refine ⟨by rw [hds, hclock]; exact hone.alone, ?_, by rw [hds, hsends]; exact hone.counted⟩
      rw [hds]
      intro d hd hid hacc hsettled m hm
      rw [hrows] at hm
      split_ifs at hm
      · cases hm
        have hsome : m₀.providerMessageId.isSome = true := by rw [hprovider]; rfl
        exact .inl (by cases target <;> exact hsome)
      · exact hone.closed d hd hid hacc hsettled m hm
  | consumed n job hrows hds hsends hclock =>
      have hbegin : ¬ ((Delivery.begin job).Holds ∧ (Delivery.begin job).LiveAt s.clock) ∧
          (Delivery.begin job).accepted = none :=
        ⟨fun hh => Bool.false_ne_true hh.1.1, rfl⟩
      refine ⟨?_, ?_, ?_⟩
      · rw [hds, hclock]
        intro i j d e hi hj hij hid hid' hacc
        rcases getElem?_append_cases hi with ⟨-, rfl⟩ | hi
        · cases hacc
        · rcases getElem?_append_cases hj with ⟨-, rfl⟩ | hj
          · exact hbegin
          · exact hone.alone i j d e hi hj hij hid hid' hacc
      · rw [hds, hrows]
        intro d hd hid hacc
        rcases List.mem_append.mp hd with hd | hd
        · exact hone.closed d hd hid hacc
        · rw [List.mem_singleton.mp hd] at hacc
          cases hacc
      · rw [hsends]
        refine ⟨hone.counted.1, fun hpos => ?_⟩
        obtain ⟨d, hd, hrest⟩ := hone.counted.2 hpos
        exact ⟨d, by rw [hds]; exact List.mem_append_left _ hd, hrest⟩
  | redelivered i₀ d₀ hd₀ hrows hds hsends hclock =>
      have hmem₀ := List.mem_of_getElem? hd₀
      refine ⟨?_, ?_, ?_⟩
      · rw [hds, hclock]
        intro i j d e hi hj hij hid hid' hacc
        rcases getElem?_set_cases hi with ⟨rfl, rfl⟩ | ⟨hi₀, hi'⟩ <;>
          rcases getElem?_set_cases hj with ⟨rfl, rfl⟩ | ⟨hj₀, hj'⟩
        · exact absurd rfl hij
        · exact hone.alone i j d₀ e hd₀ hj' hij hid hid' hacc
        · exact hone.alone i j d d₀ hi' hd₀ hij hid hid' hacc
        · exact hone.alone i j d e hi' hj' hij hid hid' hacc
      · rw [hds, hrows]
        intro d hd hid hacc
        rcases List.mem_or_eq_of_mem_set hd with hd | rfl
        · exact hone.closed d hd hid hacc
        · exact hone.closed d₀ hmem₀ hid hacc
      · rw [hsends, hds]
        refine ⟨hone.counted.1, fun hpos => ?_⟩
        obtain ⟨d, hd, hid, hacc⟩ := hone.counted.2 hpos
        obtain ⟨j, hj⟩ := List.getElem?_of_mem hd
        by_cases hji : j = i₀
        · rw [hji, hd₀] at hj
          cases hj
          exact ⟨_, List.mem_set (List.getElem?_eq_some_iff.mp hd₀).1 _, hid, hacc⟩
        · refine ⟨d, List.mem_of_getElem? (i := j) ?_, hid, hacc⟩
          rw [List.getElem?_set_ne (Ne.symm hji), hj]
  | delivered i₀ act d₀ d' effect hd₀ hstep hwrite hrows hds hsends hclock =>
      refine ⟨?_, ?_, by rw [hds, hsends]; exact hone.counted_step hn hg hd₀ hstep⟩
      · rw [hds, hclock]
        intro i j d e hi hj hij hid hid' hacc
        rcases getElem?_set_cases hi with ⟨rfl, rfl⟩ | ⟨hi₀, hi'⟩ <;>
          rcases getElem?_set_cases hj with ⟨rfl, rfl⟩ | ⟨hj₀, hj'⟩
        · exact absurd rfl hij
        · have hid₀ : d₀.job.messageId = id := by rw [← Delivery.job_step hstep, hid]
          exact (hone.alone_step hn he hg hd₀ hstep hid₀ hj' hj₀ hid').1 hacc
        · have hid₀ : d₀.job.messageId = id := by rw [← Delivery.job_step hstep, hid']
          exact (hone.alone_step hn he hg hd₀ hstep hid₀ hi' hi₀ hid).2 hacc
        · exact hone.alone i j d e hi' hj' hij hid hid' hacc
      · rw [hds]
        intro d hd hid hacc hsettled m hm
        obtain ⟨j, hj⟩ := List.getElem?_of_mem hd
        rw [hrows] at hm
        obtain ⟨m₁, hm₁, heq⟩ := Option.map_eq_some_iff.mp hm
        by_cases hid₀ : id = d₀.job.messageId
        · rw [if_pos hid₀] at heq
          subst heq
          exact hone.closed_step hn he hg hd₀ hstep hid₀.symm hj hid hacc hsettled hm₁
        · rw [if_neg hid₀] at heq
          subst heq
          rcases getElem?_set_cases hj with ⟨-, rfl⟩ | ⟨-, hj'⟩
          · exact absurd ((Delivery.job_step hstep) ▸ hid).symm hid₀
          · exact hone.closed d (List.mem_of_getElem? hj') hid hacc hsettled m₁ hm₁

/-! ## A delivery that finds the message leased -/

/-- A step of the claim of a row under another live lease: the row keeps its attempt count, the
delivery claims nothing. -/
theorem claim_of_leased {i : ℕ} {act : DeliveryAct} {d : Delivery} {now leaseUntil : Time}
    {m : Message} (hn : Numbered env s) (hstep : s.step env (.delivery i act) = some s')
    (hd : s.deliveries[i]? = some d) (hs : d.stage = .claim now)
    (hm : s.db.message d.job.messageId = some m) (hstatus : m.status = .processing)
    (hlease : m.processingLeaseUntil = some leaseUntil) (hlive : s.clock < leaseUntil) :
    s'.db.message d.job.messageId = some m ∧
      ∃ d', s'.deliveries[i]? = some d' ∧ d'.claim = d.claim := by
  cases step_moves hstep with
  | quiet _ hrows hds _ _ => exact ⟨by rw [hrows, hm], d, by rw [hds, hd], rfl⟩
  | delivered _ _ d₁ d' effect hd₁ hlocal hwrite hrows hds _ _ =>
      rw [hd] at hd₁
      cases hd₁
      have hnow : now ≤ s.clock := (hn.coherent d (List.mem_of_getElem? hd)).read_le now hs
      have hnot := Message.not_claimable_of_leased hstatus hlease (hnow.trans_lt hlive)
      have hnowrite : ∀ w, effect ≠ .write w := by
        rintro w rfl
        rcases Delivery.write_cases hlocal with ⟨now', m', hs', hm', hc, -⟩ | ⟨hcomp, -⟩
        · rw [hs] at hs'
          cases hs'
          rw [hm] at hm'
          cases hm'
          rw [hnot] at hc
          cases hc
        · have hphase := Delivery.phase_of_completing hcomp
          rw [hs] at hphase
          simp [Stage.phase] at hphase
      refine ⟨?_, d', ?_, (Delivery.no_write_cases hlocal hnowrite).1⟩
      · rw [hrows, hm]
        cases effect with
        | write w => exact absurd rfl (hnowrite w)
        | none | ack | nack | recordEvent _ | publishRetry _ | publishDead _ => simp [onRow]
      · rw [hds, List.getElem?_set_self (List.getElem?_eq_some_iff.mp hd).1]

end Pipeline

namespace Delivery

variable {config : OutboundConfig} {clock : Time} {row : Option Message} {d d' : Delivery}
  {act : DeliveryAct} {effect : Effect}

/-- A delivery that has claimed nothing publishes its own job, under its own retry count. -/
def DefersOwnJob (d : Delivery) : Prop :=
  d.claim = none → ∀ publication, d.stage = .publish publication → publication.job = d.job

/-- What is put back when the claim failed is the job itself. -/
theorem job_of_notClaimed {job : OutboundQueueJob} {publication : RetryPublication}
    (h : afterHandler config job (notClaimed row) = .publish publication) :
    publication.job = job := by
  rcases hr : notClaimed row with _ | reason | reason | reason <;> rw [hr] at h
  · cases h
  · -- `notClaimed` never asks for a retry.
    unfold notClaimed at hr
    split at hr
    · cases hr
    · split_ifs at hr
  · cases h
    rfl
  · cases h

/-- A claim is never forgotten. -/
theorem isSome_claim_step (h : d.step config clock row act = some (d', effect))
    (hsome : d.claim.isSome = true) : d'.claim.isSome = true := by
  by_cases hw : ∃ w, effect = .write w
  · obtain ⟨w, rfl⟩ := hw
    rcases write_cases h with ⟨now, m, -, -, -, -, -, hd'⟩ | ⟨-, hd'⟩ <;> rw [hd']
    · rfl
    · exact hsome
  · push Not at hw
    rw [(no_write_cases h hw).1, hsome]

/-- A step of a coherent delivery leaves a deferral of its own job. -/
theorem DefersOwnJob.of_step (hc : d.Coherent config clock)
    (h : d.step config clock row act = some (d', effect)) : d'.DefersOwnJob := by
  intro hnone publication hs'
  have hunclaimed : ¬ d.stage.phase.isActive = true := by
    intro hactive
    have hsome := isSome_claim_step h (hc.claimed_of_active hactive)
    rw [hnone] at hsome
    cases hsome
  rw [job_step h]
  rcases publish_cases h hs' with ⟨claimed, hs, hstage⟩ | ⟨code, message, hs, -⟩
  · cases claimed with
    | false => exact job_of_notClaimed hstage
    | true => exact absurd (by rw [hs]; rfl) hunclaimed
  · exact absurd (by rw [hs]; rfl) hunclaimed

end Delivery

namespace Pipeline

variable {env : PipelineEnv} {s s' : Pipeline} {a : Act} {id : Uuid}

/-- A claim statement that finds the row under another live lease leaves the row as it is: no
attempt is counted. -/
def LeavesLeased (id : Uuid) (s : Pipeline) (a : Act) (s' : Pipeline) : Prop :=
  ∀ i act d now m leaseUntil, a = .delivery i act → s.deliveries[i]? = some d →
    d.job.messageId = id → d.stage = .claim now → s.db.message id = some m →
    m.status = .processing → m.processingLeaseUntil = some leaseUntil → s.clock < leaseUntil →
    s'.db.message id = some m ∧ ∀ d', s'.deliveries[i]? = some d' → d'.claim = d.claim

/-- A delivery that has claimed nothing puts back the job it was given, retry count included. -/
def DefersOwnJob (id : Uuid) (s : Pipeline) (a : Act) (s' : Pipeline) : Prop :=
  ∀ i act d, a = .delivery i act → s.deliveries[i]? = some d → d.job.messageId = id →
    d.claim = none →
    s'.retry = s.retry ∨
      ∃ due publication, s'.retry = ⟨due, publication⟩ :: s.retry ∧ publication.job = d.job

/-- All that is known of a run whose dispatches complete in time. -/
structure Orderly (env : PipelineEnv) (id : Uuid) (s : Pipeline) : Prop where
  numbered : Numbered env s
  exclusive : Exclusive id s
  oneSend : OneSend id s
  defers : ∀ d ∈ s.deliveries, d.DefersOwnJob

/-- At the start everything is in order. -/
theorem Orderly.start (env : PipelineEnv) (id : Uuid) (db : Db) (clock : Time) :
    Orderly env id (start db clock) where
  numbered := Numbered.start db clock
  exclusive := Exclusive.start id db clock
  oneSend := OneSend.start id db clock
  defers d hd := by cases hd

/-- Every step in time keeps the run orderly. -/
theorem Orderly.moves (ho : Orderly env id s) (hg : CompletesInTime id s a)
    (h : Moves env s s' a) : Orderly env id s' where
  numbered := ho.numbered.moves h
  exclusive := ho.exclusive.moves ho.numbered h
    (.of_inTime ho.numbered ho.exclusive hg)
  oneSend := ho.oneSend.moves ho.numbered ho.exclusive hg h
  defers := h.forall_deliveries ho.defers (fun _ _ publication hs => by cases hs)
    (fun _ hd => hd) fun d hd _ _ _ _ hlocal => .of_step (ho.numbered.coherent d hd) hlocal

/-- A step leaves a leased message leased. -/
theorem LeavesLeased.of_step (hn : Numbered env s) (hstep : s.step env a = some s') :
    LeavesLeased id s a s' := by
  rintro i act d now m leaseUntil rfl hd hid hs hm hstatus hlease hlive
  subst hid
  obtain ⟨hrow, d', hd', hclaim⟩ := claim_of_leased hn hstep hd hs hm hstatus hlease hlive
  refine ⟨hrow, fun e he => ?_⟩
  rw [hd'] at he
  cases he
  exact hclaim

/-- A step defers the job of its own delivery. -/
theorem DefersOwnJob.of_step (hdefers : ∀ d ∈ s.deliveries, d.DefersOwnJob)
    (hstep : s.step env a = some s') : DefersOwnJob id s a s' := by
  rintro i act d rfl hd - hnone
  obtain ⟨d₁, hd₁, hstep⟩ := Option.bind_eq_some_iff.mp hstep
  rw [hd] at hd₁
  cases hd₁
  obtain ⟨⟨d', effect⟩, hlocal, hstep⟩ := Option.bind_eq_some_iff.mp hstep
  obtain ⟨s₁, hperform, rfl⟩ := Option.map_eq_some_iff.mp hstep
  cases effect with
  | publishRetry publication =>
      cases hperform
      refine .inr ⟨_, publication, rfl, hdefers d (List.mem_of_getElem? hd) hnone publication ?_⟩
      exact Delivery.stage_of_publishRetry hlocal
  | write w =>
      obtain ⟨messages, -, rfl⟩ := Option.map_eq_some_iff.mp hperform
      exact .inl rfl
  | none | ack | nack | recordEvent _ | publishDead _ =>
      cases hperform
      exact .inl rfl

/-- **At most one accepted send.** In every run in which each dispatch that claimed the message
completes within its lease, at most one `sendMessage` call for it returns success; a delivery that
finds the row under another live lease counts no attempt, and one that has claimed nothing puts its
job back under the same retry count. -/
theorem at_most_one_send (env : PipelineEnv) (id : Uuid) (db : Db) (clock : Time)
    (acts : List Act) (s : Pipeline) (hrun : exec (step env) (start db clock) acts = some s)
    (hintime : ∀ x ∈ trace (step env) (start db clock) acts, CompletesInTime id x.1 x.2.1) :
    s.sends.count id ≤ 1 ∧
      ∀ x ∈ trace (step env) (start db clock) acts,
        LeavesLeased id x.1 x.2.1 x.2.2 ∧ DefersOwnJob id x.1 x.2.1 x.2.2 := by
  have horderly : ∀ t, Reaches (step env) (CompletesInTime id) (start db clock) t →
      Orderly env id t := by
    intro t ht
    refine ht.invariant (P := Orderly env id) (Orderly.start env id db clock) ?_
    intro x b y ho hg hstep
    exact ho.moves hg (step_moves hstep)
  refine ⟨(horderly s (Reaches.of_exec hrun hintime)).oneSend.counted.1, fun x hx => ?_⟩
  obtain ⟨hreach, hstep⟩ := reaches_of_mem_trace (G := CompletesInTime id) hx hintime
  have ho := horderly x.1 hreach
  exact ⟨.of_step ho.numbered hstep, .of_step ho.defers hstep⟩

/-- Delivery 0 sends while delivery 1, the redelivery of its job, finds the lease and defers; the
deferred job is delivered as delivery 2 after the send is recorded. -/
def duplicates : List Act :=
  let returned (i : ℕ) : Act := .delivery i (.call .returned)
  sampleDelivered ++ sampleClaimed 0 ++
    [.redeliver 0, .consume 0, .delivery 1 .run, returned 1, returned 1, returned 1, returned 1,
      .delivery 0 (.slot .granted), .delivery 0 (.sent (.accepted "wamid.1" .null)), returned 0,
      .tick 5000, .expire 0, .consume 0, .delivery 2 .run, returned 2, returned 2, returned 2]

/-- The message is sent once in this run. -/
theorem at_most_one_send_duplicates :
    ∃ s, exec (step sampleEnv) (start sampleDb 0) duplicates = some s ∧ 0 < s.sends.count 100 ∧
      s.sends.count 100 ≤ 1 ∧
      ∀ x ∈ trace (step sampleEnv) (start sampleDb 0) duplicates,
        LeavesLeased 100 x.1 x.2.1 x.2.2 ∧ DefersOwnJob 100 x.1 x.2.1 x.2.2 := by
  have hend : ∃ s ∈ exec (step sampleEnv) (start sampleDb 0) duplicates,
      0 < s.sends.count 100 := by decide +kernel
  obtain ⟨s, hs, hpos⟩ := hend
  exact ⟨s, hs, hpos, at_most_one_send sampleEnv 100 sampleDb 0 duplicates s hs (by decide +kernel)⟩

end Pipeline

end ApiWhatsApp
