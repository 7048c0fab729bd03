import ApiWhatsApp.Webhooks.System

/-!
# Reports and the dispatcher

The provider may report on a message before the dispatcher has stored the id under which it reports.
`applyStatus` ignores a report for an id that no row carries, and the event is then marked as
processed: `ignored_before_submission` is such a run. From the dispatcher's write on, nothing is
lost.

* `applies` is the report that a step applies; `row_step` says what it does to the row of a message.
* `foldStatus_eq_failed_iff` and `rankOrBelow_le_of_mem` are the laws of the fold that starts at
  `SUBMITTED`: failure wins exactly when it comes before a delivery, and otherwise the status is at
  least every status that was applied.
* `Follows` carries both the row and the events along a run.
* **`late_reports_kept`** is the result, for every interleaving after the write.
-/

namespace ApiWhatsApp

open Library

/-! ## Folding from `SUBMITTED` -/

/-- Among the applied reports a failure comes before every delivery. -/
def FailsFirst (entries : List (Time × MetaMessageStatus)) : Prop :=
  ∃ before e after, entries = before ++ e :: after ∧ mapStatus e.2.status = some .failed ∧
    ∀ x ∈ before, mapStatus x.2.status ≠ some .delivered ∧ mapStatus x.2.status ≠ some .read

/-- The transaction of the report does not throw. -/
def Commits (e : Time × MetaMessageStatus) : Prop :=
  (mapStatus e.2.status).isSome = true → (timestampOrNow e.1 e.2.timestamp).isSome = true

/-- A report that does not throw moves the status as `nextStatus` says. -/
theorem Message.status_applyStatus {m : Message} {e : Time × MetaMessageStatus}
    {target : MessageStatus} (he : Commits e) (hmap : mapStatus e.2.status = some target) :
    ((m.applyStatus e.1 e.2).getD m).status = nextStatus m.status target := by
  obtain ⟨at_, hat⟩ := Option.isSome_iff_exists.mp (he (by rw [hmap]; rfl))
  unfold Message.applyStatus nextStatus
  simp only [hmap, hat, Option.map_some, Option.getD_some]
  split_ifs
  · exact Message.status_stamp _ _ _ _
  · rfl

/-- A report that is not known leaves the row. -/
theorem Message.applyStatus_of_unknown {m : Message} {e : Time × MetaMessageStatus}
    (hmap : mapStatus e.2.status = none) : (m.applyStatus e.1 e.2).getD m = m := by
  simp [Message.applyStatus, hmap]

/-- A report that changes a row is known. -/
theorem commits_of_applyStatus {m m' : Message} {e : Time × MetaMessageStatus}
    (h : m.applyStatus e.1 e.2 = some m') : Commits e := by
  intro hsome
  obtain ⟨target, hmap⟩ := Option.isSome_iff_exists.mp hsome
  simp only [Message.applyStatus, hmap] at h
  obtain ⟨at_, hat, -⟩ := Option.map_eq_some_iff.mp h
  rw [hat]
  rfl

/-- The first report that is known decides. -/
theorem failsFirst_cons {e : Time × MetaMessageStatus} {rest : List (Time × MetaMessageStatus)} :
    FailsFirst (e :: rest) ↔ mapStatus e.2.status = some .failed ∨
      (mapStatus e.2.status ≠ some .delivered ∧ mapStatus e.2.status ≠ some .read) ∧
        FailsFirst rest := by
  constructor
  · rintro ⟨_ | ⟨x, before⟩, y, after, heq, hy, hbefore⟩
    · cases heq
      exact .inl hy
    · cases heq
      refine .inr ⟨hbefore e List.mem_cons_self, before, y, after, rfl, hy, fun z hz => ?_⟩
      exact hbefore z (List.mem_cons_of_mem _ hz)
  · rintro (he | ⟨he, before, y, after, rfl, hy, hbefore⟩)
    · exact ⟨[], e, rest, rfl, he, by simp⟩
    · refine ⟨e :: before, y, after, rfl, hy, fun z hz => ?_⟩
      rcases List.mem_cons.mp hz with rfl | hz
      · exact he
      · exact hbefore z hz

/-- Failure wins exactly when it comes first. -/
theorem foldStatus_eq_failed_iff {entries : List (Time × MetaMessageStatus)} {m : Message}
    (hm : m.status = .submitted ∨ m.status = .sent) (hvalid : ∀ e ∈ entries, Commits e) :
    (m.foldStatus entries).status = .failed ↔ FailsFirst entries := by
  induction entries generalizing m with
  | nil =>
      have hne : m.status ≠ .failed := by rcases hm with hm | hm <;> simp [hm]
      simp [Message.foldStatus, FailsFirst, hne]
  | cons e rest ih =>
      have hrest : ∀ x ∈ rest, Commits x := fun x hx => hvalid x (List.mem_cons_of_mem _ hx)
      rw [Message.foldStatus, failsFirst_cons]
      rcases hmap : mapStatus e.2.status with _ | target
      · rw [Message.applyStatus_of_unknown hmap, ih hm hrest]
        simp
      have hstatus := Message.status_applyStatus (m := m) (hvalid e List.mem_cons_self) hmap
      -- A delivery is never replaced by a failure.
      have hkept : nextStatus m.status target = .delivered ∨ nextStatus m.status target = .read →
          (((m.applyStatus e.1 e.2).getD m).foldStatus rest).status ≠ .failed := by
        intro hnext h
        rcases Message.foldStatus_delivered_or_read rest (hstatus ▸ hnext) with h' | h' <;>
          rw [h] at h' <;> cases h'
      rcases isReported_of_mapStatus hmap with rfl | rfl | rfl | rfl
      · have hsent : nextStatus m.status .sent = .sent := by
          rcases hm with hm | hm <;> rw [hm] <;> decide
        rw [ih (.inr (hstatus.trans hsent)) hrest]
        simp
      · have hnext : nextStatus m.status .delivered = .delivered := by
          rcases hm with hm | hm <;> rw [hm] <;> decide
        simp [hkept (.inl hnext)]
      · have hnext : nextStatus m.status .read = .read := by
          rcases hm with hm | hm <;> rw [hm] <;> decide
        simp [hkept (.inr hnext)]
      · have hfailed : nextStatus m.status .failed = .failed := by
          rcases hm with hm | hm <;> rw [hm] <;> decide
        simp [Message.foldStatus_failed (hstatus.trans hfailed) rest]

/-- From an open status only a failure leads out of the ranks. -/
theorem foldStatus_ranked {entries : List (Time × MetaMessageStatus)} {m : Message}
    (hm : ¬ IsClosed m.status) :
    (m.foldStatus entries).status = .failed ∨ ¬ IsClosed (m.foldStatus entries).status := by
  refine Message.foldStatus_induction
    (P := fun x => x.status = .failed ∨ ¬ IsClosed x.status) entries (.inr hm) ?_
  intro x now report target at_ _ _ hmap _ _
  rw [Message.status_stamp]
  rcases isReported_of_mapStatus hmap with rfl | rfl | rfl | rfl <;> decide

/-- Unless it is `FAILED`, the status is at least every status that was applied. -/
theorem rankOrBelow_le_of_mem {entries : List (Time × MetaMessageStatus)} {m : Message}
    (hm : ¬ IsClosed m.status) (hvalid : ∀ e ∈ entries, Commits e)
    (hstatus : (m.foldStatus entries).status ≠ .failed) {e : Time × MetaMessageStatus}
    (he : e ∈ entries) {target : MessageStatus} (hmap : mapStatus e.2.status = some target) :
    rankOrBelow target ≤ rankOrBelow (m.foldStatus entries).status := by
  have hopen : ¬ IsClosed (m.foldStatus entries).status :=
    (foldStatus_ranked hm).resolve_left hstatus
  have hat : timestampOrNow e.1 e.2.timestamp ≠ none := by
    intro hnone
    have hsome := hvalid e he (by rw [hmap]; rfl)
    rw [hnone] at hsome
    cases hsome
  by_cases happly : shouldApplyStatus (m.foldStatus entries).status target = true
  · rw [Message.eq_of_shouldApplyStatus_replay he hmap hat happly]
  · revert hopen happly
    rcases isReported_of_mapStatus hmap with rfl | rfl | rfl | rfl <;>
      cases (m.foldStatus entries).status <;> decide

namespace WebhookSystem

variable {config : WebhookConfig} {s s' : WebhookSystem} {a : Act}

/-! ## What a step does to one row -/

/-- The report that a step applies. -/
def applies (s : WebhookSystem) : Act → Option (Time × MetaMessageStatus)
  | .processor i act =>
      s.processors[i]?.bind fun p => (p.reports act).map fun report => (s.clock, report)
  | _ => none

/-- The reports that a step applies. -/
theorem applied_step (h : s.step config a = some s') :
    s'.applied = (applies s a).toList ++ s.applied := by
  cases a with
  | tick elapsed =>
      cases h
      rfl
  | other write =>
      cases h
      rfl
  | receive id payload =>
      obtain ⟨events, -, rfl⟩ := Option.map_eq_some_iff.mp h
      rfl
  | poll readAt ids =>
      obtain ⟨-, h⟩ := Option.ite_none_right_eq_some.mp h
      cases h
      rfl
  | processor i act =>
      obtain ⟨p, hp, h⟩ := Option.bind_eq_some_iff.mp h
      obtain ⟨⟨db, q⟩, -, rfl⟩ := Option.map_eq_some_iff.mp h
      simp [applies, hp]
  | markRead tenantId id =>
      obtain ⟨db, -, rfl⟩ := Option.map_eq_some_iff.mp h
      rfl
  | editConversation id edit =>
      cases h
      rfl
  | create tenantId idempotencyKey draft ids =>
      obtain ⟨⟨db, m⟩, -, rfl⟩ := Option.map_eq_some_iff.mp h
      rfl
  | dispatch id w =>
      obtain ⟨-, h⟩ := Option.ite_none_right_eq_some.mp h
      obtain ⟨messages, -, rfl⟩ := Option.map_eq_some_iff.mp h
      rfl

/-- A report moves the row that carries its id and no other. -/
theorem row_of_applyStatus {db db' : Db} {now : Time} {report : MetaMessageStatus} {m : Message}
    {p : String} (h : db.applyStatus now report = some db') (hm : m ∈ db.messages.rows)
    (hp : m.providerMessageId = some p) :
    (report.id = p → ∃ m', m.applyStatus now report = some m' ∧ m' ∈ db'.messages.rows) ∧
      (report.id ≠ p → m ∈ db'.messages.rows) := by
  have hfind : db.messages.find (.providerMessageId p) = some m :=
    db.messages.find_eq_some_iff.mpr ⟨hm, mem_keys_providerMessageId.mpr hp⟩
  constructor
  · rintro rfl
    have hrow : ((db.applyStatus now report).getD db).messages.find (.providerMessageId report.id) =
        some ((m.applyStatus now report).getD m) := Db.find_applyStatus hfind rfl
    rw [h, Option.getD_some] at hrow
    have hsome : ∃ m', m.applyStatus now report = some m' := by
      unfold Db.applyStatus at h
      unfold Message.applyStatus
      rcases hmap : mapStatus report.status with _ | target
      · exact ⟨m, rfl⟩
      · simp only [hmap, hfind] at h
        obtain ⟨at_, hat, -⟩ := Option.map_eq_some_iff.mp h
        simp [hat]
    obtain ⟨m', hm'⟩ := hsome
    rw [hm', Option.getD_some] at hrow
    exact ⟨m', hm', (db'.messages.find_eq_some_iff.mp hrow).1⟩
  · intro hne
    unfold Db.applyStatus at h
    split at h
    · cases h
      exact hm
    split at h
    · cases h
      exact hm
    rename_i target _ _ message hmessage
    obtain ⟨at_, -, rfl⟩ := Option.map_eq_some_iff.mp h
    obtain ⟨hrow, hkey⟩ := db.messages.find_eq_some_iff.mp hmessage
    -- The report is about another row.
    have hid : m.id ≠ message.id := by
      intro hid
      have heq := db.messages.eq_of_mem_keys hm hrow (mem_keys_id.mpr hid) (mem_keys_id.mpr rfl)
      rw [← heq, mem_keys_providerMessageId, hp] at hkey
      exact hne (Option.some.inj hkey).symm
    simp only
    split_ifs
    · rw [Table.rows_updateWhere]
      exact List.mem_map.mpr ⟨m, hm, by simp [hid]⟩
    · exact hm

/-- Among the steps that are not the dispatcher's on this message, only a report for it changes its
row. -/
theorem row_step (h : s.step config a = some s') {m : Message} {p : String}
    (hm : m ∈ s.db.messages.rows) (hp : m.providerMessageId = some p)
    (ha : ∀ w, a ≠ .dispatch m.id w) :
    (∀ e ∈ applies s a, e.2.id = p → ∃ m', m.applyStatus e.1 e.2 = some m' ∧
        m' ∈ s'.db.messages.rows) ∧
      ((∀ e ∈ applies s a, e.2.id ≠ p) → m ∈ s'.db.messages.rows) := by
  by_cases hact : ∃ i act, a = .processor i act
  · obtain ⟨i, act, rfl⟩ := hact
    obtain ⟨q, hq, h⟩ := Option.bind_eq_some_iff.mp h
    obtain ⟨⟨db, q'⟩, hstep, rfl⟩ := Option.map_eq_some_iff.mp h
    cases Processor.step_writes hstep with
    | nothing h hreports =>
        subst h
        exact ⟨by simp [applies, hq, hreports], fun _ => hm⟩
    | stored event work incoming ids inboundAt m' _ hpersist hreports =>
        obtain ⟨c, -, hinsert, -, -⟩ := Db.persistInbound_spec hpersist
        refine ⟨by simp [applies, hq, hreports], fun _ => ?_⟩
        rw [Table.rows_of_insert? hinsert]
        exact List.mem_cons_of_mem _ hm
    | applied report hreports happlied =>
        obtain ⟨hmoved, hkept⟩ := row_of_applyStatus happlied hm hp
        have heq : applies s (.processor i act) = some (s.clock, report) := by
          simp [applies, hq, hreports]
        rw [heq]
        constructor
        · rintro e ⟨⟩ he
          exact hmoved he
        · intro hne
          exact hkept (hne _ rfl)
    | event event f hf h _ _ hreports =>
        subst h
        exact ⟨by simp [applies, hq, hreports], fun _ => hm⟩
  · have hnone : applies s a = none := by
      cases a with
      | processor i act => exact absurd ⟨i, act, rfl⟩ hact
      | _ => rfl
    rw [hnone]
    refine ⟨by simp, fun _ => ?_⟩
    by_cases hdispatch : ∃ id w, a = .dispatch id w
    · obtain ⟨id, w, rfl⟩ := hdispatch
      obtain ⟨-, h⟩ := Option.ite_none_right_eq_some.mp h
      obtain ⟨messages, hupdate, rfl⟩ := Option.map_eq_some_iff.mp h
      rw [Table.rows_of_update? hupdate]
      have hid : m.id ≠ id := fun hid => ha w (by rw [hid])
      exact List.mem_map.mpr ⟨m, hm, by simp [hid]⟩
    · cases step_moves h with
      | same hmessages _ _ | marked _ hmessages _ _ =>
          rw [hmessages]
          exact hm
      | received m' _ _ _ _ hinsert _ _ | created m' _ _ _ hinsert _ _ =>
          rw [Table.rows_of_insert? hinsert]
          exact List.mem_cons_of_mem _ hm
      | updated f _ _ hupdates _ _ => exact absurd hupdates (not_or.mpr ⟨hact, hdispatch⟩)

/-! ## After the dispatcher's write -/

/-- The reports for one provider id, in the order in which they were applied. -/
def reportsFor (p : String) (applied : List (Time × MetaMessageStatus)) :
    List (Time × MetaMessageStatus) :=
  (applied.filter fun e => e.2.id = p).reverse

/-- The reports for a message, old ones first. -/
theorem reportsFor_append (p : String) (new old : List (Time × MetaMessageStatus)) :
    reportsFor p (new ++ old) = reportsFor p old ++ reportsFor p new := by
  simp [reportsFor]

/-- Everything that the event `id` reports about `p` has still to be applied: the event is not
processed, and no poll that works on it has got past such a report. -/
def Awaits (s : WebhookSystem) (p : String) (id : Uuid) : Prop :=
  (∀ r ∈ s.db.webhookEvents.rows, r.id = id → r.processed = false) ∧
    ∀ poll ∈ s.processors, ∀ event, poll.stage.working = some event → event.id = id →
      ∀ report ∈ extractStatuses event.payload, report.id = p → report ∈ poll.stage.unreported

/-- The row that carries `p` is what the reports of `since` for `p` make of `m`. -/
structure Follows (p : String) (m : Message) (since : List (Time × MetaMessageStatus))
    (s : WebhookSystem) : Prop where
  row : m.foldStatus (reportsFor p since) ∈ s.db.messages.rows
  commits : ∀ e ∈ reportsFor p since, Commits e

/-- The reports of the event `id` about `p` are in `since`, or a poll has still to apply them. -/
structure Catches (p : String) (id : Uuid) (since : List (Time × MetaMessageStatus))
    (s : WebhookSystem) : Prop where
  working : ∀ poll ∈ s.processors, ∀ event, poll.stage.working = some event → event.id = id →
    ∀ report ∈ extractStatuses event.payload, report.id = p →
      report ∈ poll.stage.unreported ∨ ∃ t, (t, report) ∈ since
  processed : ∀ r ∈ s.db.webhookEvents.rows, r.id = id → r.processed = true →
    ∀ report ∈ extractStatuses r.payload, report.id = p → ∃ t, (t, report) ∈ since

/-- A report changes neither the id nor the provider id of a row. -/
theorem identity_foldStatus (m : Message) (entries : List (Time × MetaMessageStatus)) :
    (m.foldStatus entries).id = m.id ∧
      (m.foldStatus entries).providerMessageId = m.providerMessageId := by
  refine Message.foldStatus_induction (P := fun x => x.id = m.id ∧
    x.providerMessageId = m.providerMessageId) entries ⟨rfl, rfl⟩ ?_
  intro x now report target at_ _ hx _ _ _
  cases target <;> exact hx

/-- A step follows the reports. -/
theorem follows_step {p : String} {m : Message} {since : List (Time × MetaMessageStatus)}
    (hs : Follows p m since s) (hp : m.providerMessageId = some p)
    (ha : ∀ w, a ≠ .dispatch m.id w) (h : s.step config a = some s') :
    Follows p m ((applies s a).toList ++ since) s' := by
  obtain ⟨hid, hprovider⟩ := identity_foldStatus m (reportsFor p since)
  obtain ⟨hmoved, hkept⟩ := row_step h hs.row (hprovider.trans hp) (by rw [hid]; exact ha)
  rcases happlies : applies s a with _ | e
  · rw [happlies] at hkept
    exact ⟨hkept (by simp), hs.commits⟩
  rw [happlies] at hmoved hkept
  by_cases he : e.2.id = p
  · obtain ⟨m', hm', hrow⟩ := hmoved e rfl he
    have hnew : reportsFor p [e] = [e] := by simp [reportsFor, he]
    refine ⟨?_, fun x hx => ?_⟩
    · rw [Option.toList_some, reportsFor_append, Message.foldStatus_append, hnew]
      simpa [Message.foldStatus, hm'] using hrow
    · rw [Option.toList_some, reportsFor_append, hnew] at hx
      rcases List.mem_append.mp hx with hx | hx
      · exact hs.commits x hx
      · rw [List.mem_singleton] at hx
        subst hx
        exact commits_of_applyStatus hm'
  · have hnew : reportsFor p [e] = [] := by simp [reportsFor, he]
    have hsame : reportsFor p ((some e).toList ++ since) = reportsFor p since := by
      rw [Option.toList_some, reportsFor_append, hnew, List.append_nil]
    refine ⟨?_, ?_⟩
    · rw [hsame]
      apply hkept
      rintro x ⟨⟩
      exact he
    · rw [hsame]
      exact hs.commits

/-- A step catches up with the reports. -/
theorem catches_step {p : String} {id : Uuid} {since : List (Time × MetaMessageStatus)}
    (hs : Catches p id since s) (hcopies : Copies s) (h : s.step config a = some s') :
    Catches p id ((applies s a).toList ++ since) s' := by
  have hold : ∀ {report : MetaMessageStatus}, (∃ t, (t, report) ∈ since) →
      ∃ t, (t, report) ∈ (applies s a).toList ++ since := by
    rintro report ⟨t, ht⟩
    exact ⟨t, List.mem_append_right _ ht⟩
  constructor
  · intro poll' hpoll' event hworking hevent report hreport hp
    rcases mem_processors_step h hpoll' with hpoll | ⟨i, act, poll, rfl, hpoll, hstep⟩ | ⟨hstage, -⟩
    · exact (hs.working poll' hpoll event hworking hevent report hreport hp).imp_right hold
    · rcases Processor.step_progress hstep hworking with ⟨-, hstage⟩ | hadvances
      · rw [hstage]
        exact .inl hreport
      · rcases hs.working poll (List.mem_of_getElem? hpoll) event hadvances.working hevent report
          hreport hp with hleft | hdone
        · apply (hadvances.applied report hleft).imp_right
          intro happlied
          exact ⟨s.clock, by simp [applies, hpoll, happlied]⟩
        · exact .inr (hold hdone)
    · rw [hstage] at hworking
      cases hworking
  · intro r' hr' hid hprocessed report hreport hp
    obtain ⟨f, hevents⟩ := step_events h
    obtain ⟨r, hr, hrid, hpayload, hcase⟩ := hevents.processed_cases hr' hprocessed
    rw [← hpayload] at hreport
    apply hold
    rcases hcase with hdone | hfinishes
    · exact hs.processed r hr (hrid.trans hid) hdone report hreport hp
    · obtain ⟨poll, hpoll, event, hworking, hevent, hsame, -, hunreported⟩ :=
        hfinishes.exists_poll hcopies hr
      rw [← hsame] at hreport
      rcases hs.working poll hpoll event hworking (hevent.trans (hrid.trans hid)) report hreport hp
        with hleft | hdone
      · rw [hunreported] at hleft
        cases hleft
      · exact hdone

/-- What holds of every state that follows the dispatcher's write. -/
theorem followed_of_reaches {p : String} {m : Message} {s₀ : WebhookSystem}
    (hm : m ∈ s₀.db.messages.rows) (hp : m.providerMessageId = some p) (hcopies : Copies s₀)
    (hrun : Reaches (step config) (fun _ a => ∀ w, a ≠ .dispatch m.id w) s₀ s) :
    ∃ since, s.applied = since ++ s₀.applied ∧ Follows p m since s ∧
      ∀ id, Awaits s₀ p id → Catches p id since s := by
  have hinv : Copies s ∧ ∃ since, s.applied = since ++ s₀.applied ∧ Follows p m since s ∧
      ∀ id, Awaits s₀ p id → Catches p id since s := by
    refine hrun.invariant (P := fun x => Copies x ∧ ∃ since, x.applied = since ++ s₀.applied ∧
      Follows p m since x ∧ ∀ id, Awaits s₀ p id → Catches p id since x) ?_ ?_
    · refine ⟨hcopies, [], rfl, ⟨hm, by simp [reportsFor]⟩, fun id hid => ⟨?_, ?_⟩⟩
      · intro poll hpoll event hworking hevent report hreport hrp
        exact .inl (hid.2 poll hpoll event hworking hevent report hreport hrp)
      · intro r hr hrid hprocessed
        rw [hid.1 r hr hrid] at hprocessed
        cases hprocessed
    · rintro x a y ⟨hx, since, happlied, hfollows, hcatches⟩ ha hstep
      refine ⟨copies_step hx hstep, _, ?_, follows_step hfollows hp ha hstep,
        fun id hid => catches_step (hcatches id hid) hx hstep⟩
      rw [applied_step hstep, happlied, List.append_assoc]
  exact hinv.2

/-- **No report is lost after the dispatcher's write.** From the commit of the `SUBMITTED` update
for `p` on, in every interleaving in which the dispatcher does not write that row again: the message
is `FAILED` exactly when a failure was applied before every delivery, it is otherwise at least as
advanced as every status applied since, and every report of an event that is now processed, and of
which nothing had been applied at the time of the write, was applied. -/
theorem late_reports_kept {db : Db} {clock now : Time} {id : Uuid} {p : String} {response : Json}
    {s₁ : WebhookSystem} (hreach : Reachable (step config) (start db clock) s)
    (hsubmit : s.step config (.dispatch id (.submit now p response)) = some s₁)
    (hrun : Reaches (step config) (fun _ a => ∀ w, a ≠ .dispatch id w) s₁ s') :
    ∃ since, s'.applied = since ++ s₁.applied ∧
      (∃ m ∈ s'.db.messages.rows, m.id = id ∧ m.providerMessageId = some p ∧
        (m.status = .failed ↔ FailsFirst (reportsFor p since)) ∧
        (m.status ≠ .failed → ∀ e ∈ reportsFor p since, ∀ target,
          mapStatus e.2.status = some target → rankOrBelow target ≤ rankOrBelow m.status)) ∧
      ∀ event ∈ s'.db.webhookEvents.rows, event.processed = true → Awaits s₁ p event.id →
        ∀ report ∈ extractStatuses event.payload, report.id = p → ∃ t, (t, report) ∈ since := by
  have hcopies : Copies s₁ := by
    refine copies_step ?_ hsubmit
    refine hreach.invariant (copies_start db clock) ?_
    intro x b y hx _ hstep
    exact copies_step hx hstep
  -- The row as the write leaves it.
  have hrow : ∃ m ∈ s₁.db.messages.rows, m.id = id ∧ m.providerMessageId = some p ∧
      m.status = .submitted := by
    obtain ⟨-, hsubmit⟩ := Option.ite_none_right_eq_some.mp hsubmit
    obtain ⟨messages, hupdate, rfl⟩ := Option.map_eq_some_iff.mp hsubmit
    obtain ⟨m₀, hfind⟩ := Table.exists_find_of_update? hupdate
    obtain ⟨hm₀, hkey⟩ := s.db.messages.find_eq_some_iff.mp hfind
    have hid : m₀.id = id := mem_keys_id.mp hkey
    refine ⟨(RowWrite.submit now p response).apply m₀, ?_, hid, rfl, rfl⟩
    rw [Table.rows_of_update? hupdate]
    exact List.mem_map.mpr ⟨m₀, hm₀, if_pos hkey⟩
  obtain ⟨m, hm, hid, hp, hstatus⟩ := hrow
  obtain ⟨since, happlied, hfollows, hcatches⟩ :=
    followed_of_reaches hm hp hcopies (by rw [hid]; exact hrun)
  obtain ⟨hid', hp'⟩ := identity_foldStatus m (reportsFor p since)
  have hopen : ¬ IsClosed m.status := by
    rw [hstatus]
    decide
  refine ⟨since, happlied, ⟨_, hfollows.row, hid'.trans hid, hp'.trans hp, ?_, ?_⟩, ?_⟩
  · exact foldStatus_eq_failed_iff (.inl hstatus) hfollows.commits
  · intro hne e he target hmap
    exact rankOrBelow_le_of_mem hopen hfollows.commits hne he hmap
  · intro event hevent hprocessed hawaits
    exact (hcatches event.id hawaits).processed event hevent rfl hprocessed

/-! ## Two orders -/

/-- A webhook that reports a delivery. -/
def deliveredPayload : Json :=
  let status : Json := .obj [("id", .str "wamid.1"), ("status", .str "delivered"),
    ("timestamp", .str "1700000000")]
  let value : Json := .obj [("statuses", .arr [status])]
  .obj [("entry", .arr [.obj [("changes", .arr [.obj [("value", value)]])]])]

/-- Message 100 is created and claimed. -/
def claimedAtDispatcher : List Act :=
  let draft : MessageDraft :=
    { senderId := 7, to_ := "5511999999999", type := .text, trafficClass := .transactional,
      payload := .null, acceptedAt := 0 }
  [.create 1 none draft sampleIds, .dispatch 100 (.claim 0 5000)]

/-- A poll receives the report and processes it. -/
def deliveryReported : List Act :=
  let ids : InboundIds := { contactId := 60, conversationId := 61, messageId := 62 }
  let call : Act := .processor 0 (.call .returned ids false)
  let run : Act := .processor 0 .run
  [.receive 50 deliveredPayload, .poll 0 [50], run, run, call, call, run, call]

/-- The dispatcher's write. -/
def submission : Act := .dispatch 100 (.submit 0 "wamid.1" .null)

/-- A report before the write is lost: its event is processed, the write has committed, and the
message is less advanced than reported. -/
theorem ignored_before_submission :
    ∃ s ∈ exec (step sampleConfig) (start sampleDb 0)
        (claimedAtDispatcher ++ deliveryReported ++ [submission]),
      (∀ event ∈ s.db.webhookEvents.rows, event.processed = true) ∧
      (∃ event ∈ s.db.webhookEvents.rows, ∃ report ∈ extractStatuses event.payload,
        report.id = "wamid.1" ∧ mapStatus report.status = some .delivered) ∧
      ∃ m ∈ s.db.messages.rows, m.providerMessageId = some "wamid.1" ∧ m.status ≠ .failed ∧
        ¬ rankOrBelow .delivered ≤ rankOrBelow m.status := by
  decide

/-- The same report after the write is kept. -/
theorem late_reports_kept_delivered :
    ∃ s s₁ s', exec (step sampleConfig) (start sampleDb 0) claimedAtDispatcher = some s ∧
      s.step sampleConfig submission = some s₁ ∧
      exec (step sampleConfig) s₁ deliveryReported = some s' ∧
      ∃ since, s'.applied = since ++ s₁.applied ∧ (reportsFor "wamid.1" since).length = 1 ∧
        ∃ m ∈ s'.db.messages.rows, m.id = 100 ∧ (m.status = .failed ↔
            FailsFirst (reportsFor "wamid.1" since)) ∧
          (m.status ≠ .failed → ∀ e ∈ reportsFor "wamid.1" since, ∀ target,
            mapStatus e.2.status = some target → rankOrBelow target ≤ rankOrBelow m.status) := by
  have hend : ∃ s ∈ exec (step sampleConfig) (start sampleDb 0) claimedAtDispatcher,
      ∃ s₁ ∈ s.step sampleConfig submission,
      ∃ s' ∈ exec (step sampleConfig) s₁ deliveryReported,
        (reportsFor "wamid.1" s'.applied).length = 1 ∧ s₁.applied = [] := by decide +kernel
  obtain ⟨s, hs, s₁, hs₁, s', hs', hone, hnone⟩ := hend
  have hrun : Reaches (step sampleConfig) (fun _ a => ∀ w, a ≠ .dispatch 100 w) s₁ s' := by
    refine Reaches.of_exec hs' fun x hx w heq => ?_
    have hmem := label_mem_of_mem_trace hx
    rw [heq] at hmem
    simp [deliveryReported] at hmem
  obtain ⟨since, happlied, ⟨m, hm, hid, -, hfailed, hrank⟩, -⟩ :=
    late_reports_kept (Reachable.of_exec hs) hs₁ hrun
  refine ⟨s, s₁, s', hs, hs₁, hs', since, happlied, ?_, m, hm, hid, hfailed, hrank⟩
  rwa [happlied, hnone, List.append_nil] at hone

end WebhookSystem

end ApiWhatsApp
