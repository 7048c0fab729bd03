import ApiWhatsApp.Observability.SpanExporter

/-!
# Every span is handed out

* `Safe` is what holds of the exporter in every state reached.
* `FairRun` is an infinite run in which every export comes to an end, by its timeout at the latest,
  and every callback is run that the event loop owes.
* **`span_exporter_queue`** — with any environment: the bounds, no span lost and none sent twice, one
  batch at a time; in a fair run every span is handed out, and every shutdown comes to its end.
-/

namespace ApiWhatsApp

open Library

namespace SpanExporter

/-- The batches whose exports are under way. -/
def inFlight (s : SpanExporter) : List (List QueuedSpan) :=
  s.operations.filterMap fun operation =>
    match operation.stage with
    | .exporting batch _ => some batch
    | .finished => none

/-- What holds of every state that the exporter gets into. -/
structure Safe (configuration : Option OtlpExporterConfiguration) (s : SpanExporter) : Prop where
  bounded : ∀ config ∈ configuration, s.queue.length ≤ config.maxQueueSize
  /-- Every span that was accepted is in one batch, or in the queue, in the order of acceptance. -/
  once : s.accepted = s.batches.flatten ++ s.queue
  sizes : ∀ config ∈ configuration, ∀ batch ∈ s.batches,
    1 ≤ batch.length ∧ batch.length ≤ config.maxBatchSize
  off : configuration = none → s.accepted = []
  single : s.inFlight.length ≤ 1
  drained : .returned ∈ s.shutdowns → s.queue = []

/-- A run without an end. -/
structure FairRun (configuration : Option OtlpExporterConfiguration) where
  state : ℕ → SpanExporter
  event : ℕ → ExporterEvent
  start : state 0 = init configuration
  next : ∀ n, (state n).step configuration (event n) = some (state (n + 1))
  /-- An export succeeds, fails or is aborted. -/
  exports : ∀ {n operation batch remaining}, operation ∈ (state n).operations →
    operation.stage = .exporting batch remaining →
    ∃ m i failed, n ≤ m ∧ event m = .exported i failed ∧
      (state m).operations[i]?.map Operation.id = some operation.id
  callbacks : ∀ {n operation}, operation ∈ (state n).operations → operation.stage = .finished →
    ∃ m i, n ≤ m ∧ event m = .finallyCallback i ∧
      (state m).operations[i]?.map Operation.id = some operation.id
  timers : ∀ {n}, (state n).flushTimer = true →
    ∃ m, n ≤ m ∧ (event m = .timer ∨ (state m).flushTimer = false)
  continuations : ∀ {n i promise}, (state n).shutdowns[i]? = some (.waiting promise) →
    (state n).settled promise = true → ∃ m, n ≤ m ∧ event m = .resume i

variable {configuration : Option OtlpExporterConfiguration}

/-- A sound state is safe. -/
theorem Sound.safe {s : SpanExporter} (h : Sound configuration s) : Safe configuration s where
  bounded config hconfig := by
    rw [Option.mem_def.mp hconfig] at h
    exact h.bounded
  once := h.once
  sizes config hconfig batch hbatch := by
    rw [Option.mem_def.mp hconfig] at h
    exact h.sizes batch hbatch
  off hnone := by
    subst hnone
    have hqueue : s.queue = [] := List.eq_nil_of_length_eq_zero (Nat.le_zero.mp h.bounded)
    have hbatches : s.batches = [] := by
      refine List.eq_nil_iff_forall_not_mem.mpr fun batch hbatch => ?_
      have hsizes := h.sizes batch hbatch
      exact absurd (hsizes.1.trans hsizes.2) (by decide)
    rw [h.once, hqueue, hbatches]
    rfl
  single := by
    refine (List.length_filterMap_le _ _).trans ?_
    rcases h.flight with ⟨hnil, -⟩ | ⟨operation, hone, -⟩
    · rw [hnil]
      exact Nat.zero_le 1
    · rw [hone]
      exact le_rfl
  drained := h.drained

/-- Every state that is reached is sound. -/
theorem Sound.of_reachable (hbounded : ∀ config ∈ configuration, config.Bounded) {s : SpanExporter}
    (h : Reachable (SpanExporter.step configuration) (SpanExporter.init configuration) s) :
    Sound configuration s :=
  h.invariant (Sound.init configuration) fun _ _ _ hs _ ht => hs.step hbounded ht

namespace FairRun

variable (run : FairRun configuration) (hbounded : ∀ config ∈ configuration, config.Bounded)

include hbounded

/-- Every state of a fair run is sound. -/
theorem sound (n : ℕ) : Sound configuration (run.state n) := by
  induction n with
  | zero =>
      rw [run.start]
      exact Sound.init configuration
  | succ n ih => exact ih.step hbounded (run.next n)

/-- Every step of a fair run is a turn. -/
theorem turn (n : ℕ) : Turn (run.state n) (run.state (n + 1)) :=
  (run.sound hbounded n).turn hbounded (run.next n)

/-- Who shuts down has been called. -/
theorem asked (n : ℕ) :
    (run.state n).shuttingDown = true → (run.state n).shutdowns ≠ [] := by
  induction n with
  | zero =>
      rw [run.start]
      rintro ⟨⟩
  | succ n ih => exact (run.turn hbounded n).asked ih

/-- What was accepted stays accepted. -/
theorem accepted_prefix {n m : ℕ} (h : n ≤ m) :
    (run.state n).accepted <+: (run.state m).accepted := by
  induction h with
  | refl => exact List.prefix_rfl
  | @step m _ ih => exact ih.trans (run.turn hbounded m).accepted

/-- What was handed out stays handed out. -/
theorem handed_mono {n m : ℕ} (h : n ≤ m) : (run.state n).handed ≤ (run.state m).handed := by
  induction h with
  | refl => exact le_rfl
  | @step m _ ih => exact ih.trans (run.turn hbounded m).handed

/-- What is not handed out is queued. -/
theorem queue_length (n : ℕ) :
    (run.state n).accepted.length = (run.state n).handed + (run.state n).queue.length := by
  rw [(run.sound hbounded n).once, List.length_append, handed]

omit hbounded in
/-- The rank hangs on the batches and the operations. -/
theorem rank_eq {s t : SpanExporter} (hbatches : t.batches = s.batches)
    (hoperations : t.operations = s.operations) (goal : ℕ) : t.rank goal = s.rank goal := by
  rw [rank, rank, handed, handed, phase, phase, hbatches, hoperations]

/-- Up to a later turn the operations are as they were, or the goal has come nearer. -/
theorem stays_or_rank_lt {n m goal : ℕ} (h : n ≤ m) (hgoal : (run.state n).handed < goal) :
    ((run.state m).batches = (run.state n).batches ∧
      (run.state m).operations = (run.state n).operations) ∨
    ∃ k, n ≤ k ∧ (run.state k).rank goal < (run.state n).rank goal := by
  induction h with
  | refl => exact .inl ⟨rfl, rfl⟩
  | @step m hle ih =>
      rcases ih with ⟨hbatches, hoperations⟩ | hlt
      · rcases (run.turn hbounded m).moves with ⟨hbatches', hoperations'⟩ | hmoves
        · exact .inl ⟨hbatches'.trans hbatches, hoperations'.trans hoperations⟩
        · have hhanded : (run.state m).handed < goal := by
            rw [handed, hbatches]
            exact hgoal
          refine .inr ⟨m + 1, Nat.le_succ_of_le hle, ?_⟩
          rw [← rank_eq hbatches hoperations]
          exact hmoves goal hhanded
      · exact .inr hlt

/-- A turn to come brings the goal nearer, if it does so from a state with the same operations. -/
theorem rank_lt_of_next {n m goal : ℕ} (h : n ≤ m) (hgoal : (run.state n).handed < goal)
    (hnext : (run.state m).batches = (run.state n).batches →
      (run.state m).operations = (run.state n).operations →
      (run.state (m + 1)).rank goal < (run.state m).rank goal) :
    ∃ k, n ≤ k ∧ (run.state k).rank goal < (run.state n).rank goal := by
  rcases run.stays_or_rank_lt hbounded h hgoal with ⟨hbatches, hoperations⟩ | hlt
  · refine ⟨m + 1, by omega, ?_⟩
    rw [← rank_eq hbatches hoperations]
    exact hnext hbatches hoperations
  · exact hlt

/-- An operation gets on. -/
theorem rank_lt_of_operation {n goal : ℕ} (hgoal : (run.state n).handed < goal)
    (hoperations : (run.state n).operations ≠ []) :
    ∃ k, n ≤ k ∧ (run.state k).rank goal < (run.state n).rank goal := by
  obtain ⟨operation, hmem⟩ := List.exists_mem_of_ne_nil _ hoperations
  cases hstage : operation.stage with
  | exporting batch remaining =>
      obtain ⟨m, i, failed, hle, hevent, -⟩ := run.exports hmem hstage
      refine run.rank_lt_of_next hbounded hle hgoal fun hbatches _ => ?_
      have hstep := run.next m
      rw [hevent] at hstep
      refine Moves.exported hbounded (run.sound hbounded m) hstep ?_
      rw [handed, hbatches]
      exact hgoal
  | finished =>
      obtain ⟨m, i, hle, hevent, -⟩ := run.callbacks hmem hstage
      refine run.rank_lt_of_next hbounded hle hgoal fun _ _ => ?_
      have hstep := run.next m
      rw [hevent] at hstep
      exact Moves.finallyCallback (run.sound hbounded m) hstep goal

omit run in
/-- An exporter that has something in its queue and no operation starts one. -/
theorem rank_flush_lt {s t : SpanExporter} (hs : Sound configuration s) {goal : ℕ}
    (hgoal : s.handed < goal) (hoperations : s.operations = []) (hqueue : s.queue ≠ [])
    (hconfiguration : configuration ≠ none)
    (hbatches : t.batches = (s.flush configuration).1.batches)
    (hafter : t.operations = (s.flush configuration).1.operations) :
    t.rank goal < s.rank goal := by
  rw [rank_eq hbatches hafter]
  rcases flush_cases hbounded s with ⟨hnone | hnil, -⟩ | ⟨promise, hflight, -⟩ |
    ⟨config, k, -, -, hpos, -, hk, heq⟩
  · exact absurd hnone hconfiguration
  · exact absurd hnil hqueue
  · rcases hs.flight with ⟨-, hnone⟩ | ⟨operation, hone, -⟩
    · rw [hnone] at hflight
      cases hflight
    · rw [hoperations] at hone
      cases hone
  · rw [heq]
    exact rank_start_lt hoperations hpos hk hgoal

/-- What was accepted and is not handed out yet brings something about. -/
theorem exists_rank_lt {n goal : ℕ} (hgoal : (run.state n).handed < goal)
    (haccepted : goal ≤ (run.state n).accepted.length) :
    ∃ k, n ≤ k ∧ (run.state k).rank goal < (run.state n).rank goal := by
  by_cases hoperations : (run.state n).operations = []
  swap
  · exact run.rank_lt_of_operation hbounded hgoal hoperations
  have hconfiguration : configuration ≠ none := by
    intro hnone
    have hempty := (run.sound hbounded n).safe.off hnone
    rw [hempty, List.length_nil] at haccepted
    omega
  -- While the operations are as they are, there is something in the queue.
  have hqueue : ∀ m, n ≤ m → (run.state m).batches = (run.state n).batches →
      (run.state m).queue ≠ [] := by
    intro m hle hbatches hnil
    have hlength := run.queue_length hbounded m
    have hprefix := (run.accepted_prefix hbounded hle).length_le
    rw [hnil, List.length_nil, handed, hbatches, ← handed] at hlength
    omega
  have hhanded : ∀ m, (run.state m).batches = (run.state n).batches →
      (run.state m).handed < goal := by
    intro m hbatches
    rw [handed, hbatches]
    exact hgoal
  -- The timer fires, or a shutdown has taken its place.
  have hshutdown : ∀ m, n ≤ m → (run.state m).flushTimer = false →
      ∃ k, n ≤ k ∧ (run.state k).rank goal < (run.state n).rank goal := by
    intro m hle htimer
    rcases run.stays_or_rank_lt hbounded hle hgoal with ⟨hbatches, hsame⟩ | hlt
    swap
    · exact hlt
    have hsound := run.sound hbounded m
    have hshutting : (run.state m).shuttingDown = true := by
      have hflag := hsound.timer
      rw [htimer, Option.isSome_iff_ne_none.mpr hconfiguration] at hflag
      simpa using hflag.symm
    obtain ⟨stage, hmem⟩ := List.exists_mem_of_ne_nil _ (run.asked hbounded m hshutting)
    cases stage with
    | returned => exact absurd (hsound.drained hmem) (hqueue m hle hbatches)
    | waiting promise =>
        obtain ⟨i, hi⟩ := List.mem_iff_getElem?.mp hmem
        have hsettled : (run.state m).settled promise = true := by
          rw [settled, hsame, hoperations]
          rfl
        obtain ⟨m', hle', hevent⟩ := run.continuations hi hsettled
        refine run.rank_lt_of_next hbounded (hle.trans hle') hgoal fun hbatches' hsame' => ?_
        have hstep := run.next m'
        rw [hevent] at hstep
        obtain ⟨promise', -, -, hafter⟩ := resume_cases hstep
        have hne := hqueue m' (hle.trans hle') hbatches'
        rcases shutdownLoop_cases configuration (run.state m') with ⟨hnil, -⟩ | ⟨-, hloop⟩
        · exact absurd hnil hne
        · rw [hloop] at hafter
          exact rank_flush_lt hbounded (run.sound hbounded m') (hhanded m' hbatches')
            (hsame'.trans hoperations) hne hconfiguration (by rw [hafter]) (by rw [hafter])
  cases htimer : (run.state n).flushTimer with
  | false => exact hshutdown n le_rfl htimer
  | true =>
      obtain ⟨m, hle, hevent | hoff⟩ := run.timers htimer
      · refine run.rank_lt_of_next hbounded hle hgoal fun hbatches hsame => ?_
        have hstep := run.next m
        rw [hevent, SpanExporter.step] at hstep
        split at hstep
        · have hafter := (Option.some.inj hstep).symm
          exact rank_flush_lt hbounded (run.sound hbounded m) (hhanded m hbatches)
            (hsame.trans hoperations) (hqueue m hle hbatches) hconfiguration (by rw [hafter])
            (by rw [hafter])
        · cases hstep
      · exact hshutdown m hle hoff

/-- **Everything that was accepted is handed out.** -/
theorem eventually_handed (n : ℕ) :
    ∃ m, n ≤ m ∧ (run.state n).accepted <+: (run.state m).batches.flatten := by
  suffices h : ∀ r k, n ≤ k → (run.state k).rank (run.state n).accepted.length = r →
      ∃ m, n ≤ m ∧ (run.state n).accepted.length ≤ (run.state m).handed by
    obtain ⟨m, hle, hhanded⟩ := h _ n le_rfl rfl
    refine ⟨m, hle, List.prefix_of_prefix_length_le (run.accepted_prefix hbounded hle) ?_ hhanded⟩
    rw [(run.sound hbounded m).once]
    exact List.prefix_append _ _
  intro r
  induction r using Nat.strong_induction_on with
  | _ r ih =>
      intro k hle hrank
      by_cases hgoal : (run.state n).accepted.length ≤ (run.state k).handed
      · exact ⟨k, hle, hgoal⟩
      · obtain ⟨k', hle', hlt⟩ := run.exists_rank_lt hbounded (Nat.lt_of_not_le hgoal)
          (run.accepted_prefix hbounded hle).length_le
        exact ih _ (hrank ▸ hlt) k' (hle.trans hle') rfl

/-- After a call of `onModuleDestroy` nothing is accepted any more. -/
theorem closed {n m : ℕ} (h : n ≤ m) (hshutting : (run.state n).shuttingDown = true) :
    (run.state m).shuttingDown = true ∧ (run.state m).accepted = (run.state n).accepted := by
  induction h with
  | refl => exact ⟨hshutting, rfl⟩
  | @step m _ ih =>
      obtain ⟨hflag, haccepted⟩ := (run.turn hbounded m).closed ih.1
      exact ⟨hflag, haccepted.trans ih.2⟩

/-- The calls stay. -/
theorem calls_mono {n m : ℕ} (h : n ≤ m) :
    (run.state n).shutdowns.length ≤ (run.state m).shutdowns.length := by
  induction h with
  | refl => exact le_rfl
  | @step m _ ih => exact ih.trans (run.turn hbounded m).calls

/-- From some turn on nothing is queued. -/
theorem eventually_empty {n : ℕ} (hshutting : (run.state n).shuttingDown = true) :
    ∃ m, n ≤ m ∧ ∀ k, m ≤ k → (run.state k).queue = [] := by
  obtain ⟨m, hle, hprefix⟩ := run.eventually_handed hbounded n
  refine ⟨m, hle, fun k hk => List.eq_nil_of_length_eq_zero ?_⟩
  have hlength := run.queue_length hbounded k
  have hhanded := run.handed_mono hbounded hk
  have hall := hprefix.length_le
  rw [(run.closed hbounded (hle.trans hk) hshutting).2] at hlength
  change _ ≤ (run.state m).handed at hall
  omega

/-- From some turn on there is no operation either. -/
theorem eventually_quiet {n : ℕ} (hshutting : (run.state n).shuttingDown = true) :
    ∃ m, n ≤ m ∧ ∀ k, m ≤ k → (run.state k).queue = [] ∧ (run.state k).operations = [] := by
  obtain ⟨m, hle, hempty⟩ := run.eventually_empty hbounded hshutting
  have hhanded : ∀ k, m ≤ k → (run.state k).handed = (run.state m).handed := by
    intro k hk
    have hsame := (run.closed hbounded hk (run.closed hbounded hle hshutting).1).2
    have hlength := run.queue_length hbounded k
    have hlength' := run.queue_length hbounded m
    rw [hempty k hk, hsame] at hlength
    rw [hempty m le_rfl] at hlength'
    exact Nat.add_right_cancel (hlength.symm.trans hlength')
  have hgoal : ∀ k, m ≤ k → (run.state k).handed < (run.state m).handed + 1 :=
    fun k hk => Nat.lt_succ_of_le (hhanded k hk).le
  -- The operation that is left gets on until it is over.
  have hover : ∀ r k, m ≤ k → (run.state k).rank ((run.state m).handed + 1) = r →
      ∃ k', m ≤ k' ∧ (run.state k').operations = [] := by
    intro r
    induction r using Nat.strong_induction_on with
    | _ r ih =>
        intro k hk hrank
        by_cases hoperations : (run.state k).operations = []
        · exact ⟨k, hk, hoperations⟩
        · obtain ⟨k', hk', hlt⟩ := run.rank_lt_of_operation hbounded (hgoal k hk) hoperations
          exact ih _ (hrank ▸ hlt) k' (hk.trans hk') rfl
  obtain ⟨m', hm', hoperations⟩ := hover _ m le_rfl rfl
  refine ⟨m', hle.trans hm', fun k hk => ⟨hempty k (hm'.trans hk), ?_⟩⟩
  rcases run.stays_or_rank_lt hbounded hk (hgoal m' hm') with ⟨-, hsame⟩ | ⟨k', hk', hlt⟩
  · exact hsame.trans hoperations
  · have hphase : (run.state m').phase = 0 := by
      rw [phase, hoperations]
      rfl
    rw [rank, rank, hphase, hhanded k' (hm'.trans hk'), hhanded m' hm'] at hlt
    omega

/-- **Every shutdown comes to its end**, with nothing left in the queue. -/
theorem eventually_returned {n i : ℕ} (hi : i < (run.state n).shutdowns.length) :
    ∃ m, n ≤ m ∧ (run.state m).shutdowns[i]? = some .returned ∧ (run.state m).queue = [] := by
  have hshutting := (run.sound hbounded n).called (List.ne_nil_of_length_pos (by omega))
  obtain ⟨m, hle, hquiet⟩ := run.eventually_quiet hbounded hshutting
  have hi' := hi.trans_le (run.calls_mono hbounded hle)
  cases hstage : (run.state m).shutdowns[i] with
  | returned =>
      exact ⟨m, hle, by rw [List.getElem?_eq_getElem hi', hstage], (hquiet m le_rfl).1⟩
  | waiting promise =>
      have hwaiting : (run.state m).shutdowns[i]? = some (.waiting promise) := by
        rw [List.getElem?_eq_getElem hi', hstage]
      have hsettled : (run.state m).settled promise = true := by
        rw [settled, (hquiet m le_rfl).2]
        rfl
      obtain ⟨k, hk, hevent⟩ := run.continuations hwaiting hsettled
      have hstep := run.next k
      rw [hevent] at hstep
      obtain ⟨promise', hpromise, -, hafter⟩ := resume_cases hstep
      refine ⟨k + 1, by omega, ?_, (hquiet (k + 1) (by omega)).1⟩
      rcases shutdownLoop_cases configuration (run.state k) with ⟨-, hloop⟩ | ⟨hne, -⟩
      · rw [hafter, hloop]
        obtain ⟨hlt, -⟩ := List.getElem?_eq_some_iff.mp hpromise
        exact List.getElem?_set_self hlt
      · exact absurd (hquiet k hk).1 hne

end FairRun

/-! ## A run that is fair -/

/-- A queue of a few spans. -/
def sampleConfiguration : OtlpExporterConfiguration where
  endpoint := ⟨"https:", "", "", "/v1/traces", "", ""⟩
  headers := []
  timeoutMs := 10000
  maxQueueSize := 2048
  maxBatchSize := 512
  scheduleDelayMs := 5000
  serviceName := "apiWhatsApp"

/-- A span that is sampled. -/
def sampleInput : OtlpSpanInput where
  context := ⟨"request", "4bf92f3577b34da6a3ce929d0e0e4736", "00f067aa0ba902b7", none, "01"⟩
  name := "worker"
  kind := ⟨5, by omega⟩
  startTimeUnixNano := 10
  endTimeUnixNano := 20
  attributes := none
  statusCode := none

/-- A span is recorded, the module is destroyed, the export succeeds and the shutdown goes on. -/
def sampleEvent : ℕ → ExporterEvent
  | 0 => .recordSpan sampleInput
  | 1 => .onModuleDestroy
  | 2 => .exported 0 false
  | 3 => .finallyCallback 0
  | 4 => .resume 0
  | _ => .flush

/-- The states of the sample run, one after another. -/
def sampleStates : List SpanExporter :=
  let start := init (some sampleConfiguration)
  let recorded := { start with queue := [sampleInput.queued], accepted := [sampleInput.queued] }
  let exporting :=
    { recorded.start 1 with
      shuttingDown := true, flushTimer := false, shutdowns := [.waiting (some 0)] }
  let finished := { exporting with operations := [⟨0, .finished⟩] }
  let settled := { finished with operations := [], flushInFlight := none }
  [start, recorded, exporting, finished, settled, { settled with shutdowns := [.returned] }]

/-- The state after a number of steps. -/
def sampleState (n : ℕ) : SpanExporter :=
  sampleStates.getD (min n 5) (init (some sampleConfiguration))

/-- The sample span is sampled. -/
theorem isSampled_sampleInput : isSampled sampleInput.context.traceFlags = true := by
  decide +kernel

/-- In the end nothing changes. -/
theorem sampleState_last {n : ℕ} (h : 5 ≤ n) : sampleState n = sampleState 5 := by
  rw [sampleState, Nat.min_eq_right h]
  rfl

/-- The sample events lead from state to state. -/
theorem step_sampleState (n : ℕ) :
    (sampleState n).step (some sampleConfiguration) (sampleEvent n) = some (sampleState (n + 1)) := by
  match n with
  | 0 =>
      have hgoes : ((sampleState 0).shuttingDown ||
          !isSampled sampleInput.context.traceFlags) = false := by
        rw [isSampled_sampleInput]
        rfl
      simp only [sampleEvent, SpanExporter.step, SpanExporter.recordSpan, hgoes]
      rfl
  | 1 => rfl
  | 2 => rfl
  | 3 => rfl
  | 4 => rfl
  | n + 5 =>
      rw [sampleState_last (Nat.le_add_left 5 n), sampleState_last (Nat.le_add_left 5 (n + 1))]
      rfl

/-- A run as it is asked for. -/
def FairRun.sample : FairRun (some sampleConfiguration) where
  state := sampleState
  event := sampleEvent
  start := rfl
  next := step_sampleState
  exports {n operation batch remaining} hmem hstage := by
    match n with
    | 0 => cases hmem
    | 1 => cases hmem
    | 2 => exact ⟨2, 0, false, le_rfl, rfl, by rw [List.mem_singleton.mp hmem]; rfl⟩
    | 3 =>
        rw [List.mem_singleton.mp hmem] at hstage
        cases hstage
    | 4 => cases hmem
    | n + 5 =>
        rw [sampleState_last (Nat.le_add_left 5 n)] at hmem
        cases hmem
  callbacks {n operation} hmem hstage := by
    match n with
    | 0 => cases hmem
    | 1 => cases hmem
    | 2 =>
        rw [List.mem_singleton.mp hmem] at hstage
        cases hstage
    | 3 => exact ⟨3, 0, le_rfl, rfl, by rw [List.mem_singleton.mp hmem]; rfl⟩
    | 4 => cases hmem
    | n + 5 =>
        rw [sampleState_last (Nat.le_add_left 5 n)] at hmem
        cases hmem
  timers {n} _ :=
    ⟨n + 5, Nat.le_add_right n 5, .inr (by rw [sampleState_last (Nat.le_add_left 5 n)]; rfl)⟩
  continuations {n i promise} hwaiting _ := by
    -- Only shutdown `0` waits, and it goes on at the fourth event.
    have hone : ∀ stage : ShutdownStage, [stage][i]? = some (.waiting promise) → i = 0 := by
      intro stage hstage
      obtain ⟨hlt, -⟩ := List.getElem?_eq_some_iff.mp hstage
      simpa using hlt
    match n with
    | 0 => cases hwaiting
    | 1 => cases hwaiting
    | 2 => exact ⟨4, by decide, by rw [hone _ hwaiting]; rfl⟩
    | 3 => exact ⟨4, by decide, by rw [hone _ hwaiting]; rfl⟩
    | 4 => exact ⟨4, le_rfl, by rw [hone _ hwaiting]; rfl⟩
    | n + 5 =>
        rw [sampleState_last (Nat.le_add_left 5 n)] at hwaiting
        obtain rfl := hone _ hwaiting
        cases hwaiting

/-! ## The exporter -/

open OtlpExporterConfiguration

/-- **The queue of the exporter.** With every environment: in every state the queue is within its
limit, what was accepted is what was handed out, in that order and each span once, and then what is
queued, the batches have the sizes they may have, and at most one of them is under way. In every fair
run each span that was accepted is handed out, and every shutdown returns with an empty queue. -/
theorem span_exporter_queue (host : Host) (env : EnvironmentConfig) :
    (∀ s, Reachable (step (exporterConfiguration host env)) (init (exporterConfiguration host env)) s →
      Safe (exporterConfiguration host env) s) ∧
    ∀ run : FairRun (exporterConfiguration host env),
      (∀ n, ∃ m, n ≤ m ∧ (run.state n).accepted <+: (run.state m).batches.flatten) ∧
      ∀ n i, i < (run.state n).shutdowns.length →
        ∃ m, n ≤ m ∧ (run.state m).shutdowns[i]? = some .returned ∧ (run.state m).queue = [] := by
  have hbounded : ∀ config ∈ exporterConfiguration host env, config.Bounded :=
    fun config hconfig => bounded_of_exporterConfiguration hconfig
  refine ⟨fun s hs => (Sound.of_reachable hbounded hs).safe, fun run => ⟨?_, ?_⟩⟩
  · exact run.eventually_handed hbounded
  · exact fun n i hi => run.eventually_returned hbounded hi

/-- A host that parses one endpoint. -/
def traceHost : Host where
  newUrl := fun _ => some sampleConfiguration.endpoint
  isAbsolute := fun _ => true
  resolve := id
  sep := "/"

/-- An environment that sets the endpoint only. -/
def traceEnvironment : EnvironmentConfig := fun name =>
  if name = "OTEL_EXPORTER_OTLP_TRACES_ENDPOINT" then some "https://collector/v1/traces" else none

/-- The environment gives the sample configuration. -/
theorem exporterConfiguration_traceEnvironment :
    exporterConfiguration traceHost traceEnvironment = some sampleConfiguration := by
  rfl

/-- The exporter is destroyed while a span is queued: the shutdown returns with an empty queue. -/
theorem span_exporter_queue_shutdown :
    ∃ run : FairRun (exporterConfiguration traceHost traceEnvironment),
      run.event 1 = .onModuleDestroy ∧ (run.state 1).queue.length = 1 ∧
      ∃ m, 2 ≤ m ∧ (run.state m).shutdowns[0]? = some .returned ∧ (run.state m).queue = [] := by
  obtain ⟨run, hevent, hqueue, hshutdown⟩ :
      ∃ run : FairRun (exporterConfiguration traceHost traceEnvironment),
        run.event 1 = .onModuleDestroy ∧ (run.state 1).queue.length = 1 ∧
          0 < (run.state 2).shutdowns.length := by
    rw [exporterConfiguration_traceEnvironment]
    exact ⟨.sample, rfl, rfl, by decide⟩
  exact ⟨run, hevent, hqueue,
    (span_exporter_queue traceHost traceEnvironment).2 run |>.2 2 0 hshutdown⟩

end SpanExporter

end ApiWhatsApp
