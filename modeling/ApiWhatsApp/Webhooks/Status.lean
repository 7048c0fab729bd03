import ApiWhatsApp.Schema
import Mathlib.Data.List.Perm.Basic

/-!
# Provider statuses

`webhooks/webhook-status.service.ts`: what a webhook payload reports about sent messages, and how
one report moves a message.

* `extractStatuses`, `mapStatus`, `parseTimestamp` and `extractError` read the payload.
* `shouldApplyStatus` with `statusRank` is the rule of progress. Failure is neither top nor bottom
  of it: it beats `SENT` and loses to `DELIVERED`.
* `Db.applyStatus` is the transaction; `Message.applyStatus` is its effect on the row of the
  message, and `Db.foldStatus_row` says that a sequence of reports for one provider id folds the
  row.
* **`status_fold`** — the laws of that fold, for every sequence of reports: progress is monotone,
  failure and delivery are kept, a replayed report changes nothing, and without failures the
  final status is the maximum.

The laws rest on finitely many facts about `nextStatus`, the status that a report leads to; each is
checked once over all statuses and then carried along the sequence by induction.
-/

namespace ApiWhatsApp

open Library

/-- One reported status. Source: `interface MetaMessageStatus`. -/
structure MetaMessageStatus where
  id : String
  status : String
  timestamp : Option String
  errors : Option (List Json)

/-- Source: `STATUS_RANK`. -/
def statusRank : MessageStatus → Option ℕ
  | .created => some 0
  | .queued => some 1
  | .processing => some 2
  | .submitted => some 3
  | .sent => some 4
  | .delivered => some 5
  | .read => some 6
  | .received | .failed | .cancelled | .expired => none

/-- `STATUS_RANK[status] ?? -1`. -/
def rankOrBelow (status : MessageStatus) : ℤ := (statusRank status).elim (-1) fun rank => rank

/-- Source: `mapStatus`. -/
def mapStatus (status : String) : Option MessageStatus :=
  if toLowerCase status = "sent" then some .sent
  else if toLowerCase status = "delivered" then some .delivered
  else if toLowerCase status = "read" then some .read
  else if toLowerCase status = "failed" then some .failed
  else none

/-- Source: `shouldApplyStatus`. -/
def shouldApplyStatus (current target : MessageStatus) : Bool :=
  if target = .failed then current ≠ .read && current ≠ .delivered
  else if current = .failed || current = .cancelled || current = .expired then false
  else rankOrBelow current ≤ rankOrBelow target

/-- What `parseTimestamp` returns: nothing, an `Invalid Date`, or an instant. -/
inductive ParsedDate where
  | undefined
  | invalid
  | valid (at_ : Time)
  deriving DecidableEq, Repr

/-- Source: `parseTimestamp`, the same in `webhook-status.service.ts` and
`inbound-message.service.ts`. -/
def parseTimestamp (timestamp : Option String) : ParsedDate :=
  match timestamp.filter fun text => text ≠ "" with
  | none => .undefined
  | some text =>
      match doubleOf text with
      | none => .undefined
      | some seconds =>
          if seconds ≤ 0 then .undefined
          else match date seconds with
            | some instant => .valid instant
            | none => .invalid

/-- `parseTimestamp(timestamp) ?? new Date()`; `none` is an `Invalid Date`. -/
def timestampOrNow (now : Time) (timestamp : Option String) : Option Time :=
  match parseTimestamp timestamp with
  | .undefined => some now
  | .invalid => none
  | .valid instant => some instant

/-- A string value with at least one character. -/
def nonEmptyString? (value : Option Json) : Option String :=
  (value.bind Json.string?).filter fun text => text ≠ ""

/-- `String(value)` for a string or a number. -/
def codeText : Json → Option String
  | .str text => some text
  | .num mantissa exponent => some (Json.numberText mantissa exponent)
  | _ => none

/-- The code and message of the first reported error. Source: `extractError`. -/
def extractError (errors : Option (List Json)) : Option String × Option String :=
  match errors.bind List.head? with
  | none => (none, none)
  | some first =>
      let details := (first.get? "error_data").bind fun data => data.get? "details"
      let message := (nonEmptyString? (first.get? "title")).or
        ((nonEmptyString? (first.get? "message")).or (nonEmptyString? details))
      ((first.get? "code").bind codeText, message.map fun text => slice text 2000)

/-- The items under a key, when it holds an array. -/
def arrayAt (value : Json) (key : String) : List Json :=
  ((value.get? key).bind Json.array?).getD []

/-- One item of `statuses`, when it has an id and a status. -/
def readStatus (candidate : Json) : Option MetaMessageStatus := do
  let id ← (candidate.get? "id").bind Json.string?
  let status ← (candidate.get? "status").bind Json.string?
  some { id := id, status := status,
         timestamp := (candidate.get? "timestamp").bind Json.string?,
         errors := (candidate.get? "errors").bind Json.array? }

/-- Source: `extractStatuses`. -/
def extractStatuses (payload : Json) : List MetaMessageStatus :=
  (arrayAt payload "entry").flatMap fun entry =>
    (arrayAt entry "changes").flatMap fun change =>
      match change.get? "value" with
      | none => []
      | some value => (arrayAt value "statuses").filterMap readStatus

/-! ## One report -/

/-- The `data` of the update: the status, the time of that status, and for a failure its error. -/
def Message.stamp (target : MessageStatus) (at_ : Time) (error : Option String × Option String)
    (m : Message) : Message :=
  match target with
  | .sent => { m with status := .sent, sentAt := some at_ }
  | .delivered => { m with status := .delivered, deliveredAt := some at_ }
  | .read => { m with status := .read, readAt := some at_ }
  | .failed =>
      { m with
        status := .failed
        failedAt := some at_
        errorCode := error.1
        errorMessage := error.2 }
  | other => { m with status := other }

/-- A stamp leaves the keys. -/
@[simp] theorem Message.keys_stamp (target : MessageStatus) (at_ : Time)
    (error : Option String × Option String) (m : Message) :
    Keyed.keys (m.stamp target at_ error) = Keyed.keys m := by
  cases target <;> rfl

/-- A stamp sets the status. -/
@[simp] theorem Message.status_stamp (target : MessageStatus) (at_ : Time)
    (error : Option String × Option String) (m : Message) :
    (m.stamp target at_ error).status = target := by
  cases target <;> rfl

/-- Stamping twice is stamping once. -/
theorem Message.stamp_stamp (target : MessageStatus) (at_ : Time)
    (error : Option String × Option String) (m : Message) :
    (m.stamp target at_ error).stamp target at_ error = m.stamp target at_ error := by
  cases target <;> rfl

/-- The row of the message after one report; `none` when the transaction throws, because the
report's timestamp is an `Invalid Date`. -/
def Message.applyStatus (now : Time) (report : MetaMessageStatus) (m : Message) :
    Option Message :=
  match mapStatus report.status with
  | none => some m
  | some target =>
      (timestampOrNow now report.timestamp).map fun at_ =>
        if shouldApplyStatus m.status target then m.stamp target at_ (extractError report.errors)
        else m

/-- The transaction of one report; `none` when it throws. A report for an id that no message
carries is ignored. Source: `applyStatus`. -/
def Db.applyStatus (db : Db) (now : Time) (report : MetaMessageStatus) : Option Db :=
  match mapStatus report.status with
  | none => some db
  | some target =>
      match db.messages.find (.providerMessageId report.id) with
      | none => some db
      | some message =>
          (timestampOrNow now report.timestamp).map fun at_ =>
            let error := extractError report.errors
            let event : MessageStatusEvent :=
              { messageId := message.id, status := target, createdAt := at_ }
            { db with
              statusEvents := event :: db.statusEvents
              messages :=
                if shouldApplyStatus message.status target then
                  db.messages.updateWhere (fun r => r.id = message.id)
                    (Message.stamp target at_ error) (Message.keys_stamp target at_ error)
                else db.messages }

/-- A sequence of reports, each at the time it is processed; one that throws is rolled back. -/
def Db.foldStatus (db : Db) : List (Time × MetaMessageStatus) → Db
  | [] => db
  | (now, report) :: rest => ((db.applyStatus now report).getD db).foldStatus rest

/-- The same sequence on the row alone. -/
def Message.foldStatus (m : Message) : List (Time × MetaMessageStatus) → Message
  | [] => m
  | (now, report) :: rest => ((m.applyStatus now report).getD m).foldStatus rest

/-! ## The rule of progress -/

/-- The statuses a provider can report. -/
def IsReported (target : MessageStatus) : Prop :=
  target = .sent ∨ target = .delivered ∨ target = .read ∨ target = .failed

/-- Only four statuses are reported. -/
theorem isReported_of_mapStatus {text : String} {target : MessageStatus}
    (h : mapStatus text = some target) : IsReported target := by
  unfold mapStatus at h
  split_ifs at h <;> cases h <;> simp [IsReported]

/-- The status that a report leads to. -/
def nextStatus (current target : MessageStatus) : MessageStatus :=
  if shouldApplyStatus current target then target else current

/-- The statuses that only a failure report, or nothing at all, can leave. -/
def IsClosed (status : MessageStatus) : Prop :=
  status = .failed ∨ status = .cancelled ∨ status = .expired

/-- It can be checked whether a status is closed. -/
instance : DecidablePred IsClosed := fun _ => inferInstanceAs (Decidable (_ ∨ _ ∨ _))

/-- A status goes no step back. -/
theorem rank_le_rank_nextStatus {current target : MessageStatus} {r r' : ℕ}
    (hr : statusRank current = some r) (hr' : statusRank (nextStatus current target) = some r') :
    r ≤ r' := by
  unfold nextStatus at hr'
  split_ifs at hr' with happly
  · unfold shouldApplyStatus at happly
    split_ifs at happly with hfailed hclosed
    · rw [hfailed] at hr'; cases hr'
    · simpa [rankOrBelow, hr, hr'] using happly
  · rw [hr] at hr'
    cases hr'
    exact le_rfl

/-- What has failed stays failed. -/
theorem nextStatus_failed (target : MessageStatus) : nextStatus .failed target = .failed := by
  cases target <;> rfl

/-- What is closed stays so, but for a failure. -/
theorem nextStatus_of_isClosed {current target : MessageStatus} (h : IsClosed current)
    (ht : target ≠ .failed) : nextStatus current target = current := by
  rcases h with rfl | rfl | rfl <;> simp [nextStatus, shouldApplyStatus, ht]

/-- After a delivery there is a delivery or a read. -/
theorem nextStatus_delivered_or_read {current target : MessageStatus}
    (h : current = .delivered ∨ current = .read) (ht : IsReported target) :
    nextStatus current target = .delivered ∨ nextStatus current target = .read := by
  rcases h with rfl | rfl <;> rcases ht with rfl | rfl | rfl | rfl <;> decide

/-- Outside the closed statuses a report other than a failure takes the maximum. -/
theorem rankOrBelow_nextStatus {current target : MessageStatus} (hc : ¬ IsClosed current)
    (ht : IsReported target) (hf : target ≠ .failed) :
    ¬ IsClosed (nextStatus current target) ∧
      rankOrBelow (nextStatus current target) = max (rankOrBelow current) (rankOrBelow target) := by
  rcases ht with rfl | rfl | rfl | rfl
  all_goals revert hc hf; cases current <;> decide

/-- Outside the closed statuses the rank determines the status. -/
theorem eq_of_rankOrBelow_eq {a b : MessageStatus} (ha : ¬ IsClosed a) (hb : ¬ IsClosed b)
    (h : rankOrBelow a = rankOrBelow b) : a = b := by
  revert ha hb h
  cases a <;> cases b <;> decide

/-- Once a report has no further effect it has none after any other report either. -/
theorem shouldApplyStatus_stable {current target other : MessageStatus}
    (ht : IsReported target) (ho : IsReported other) (hne : other ≠ target)
    (h : shouldApplyStatus current target = true → current = target)
    (happly : shouldApplyStatus current other = true) :
    shouldApplyStatus other target = false := by
  revert hne h happly
  rcases ht with rfl | rfl | rfl | rfl <;> rcases ho with rfl | rfl | rfl | rfl <;>
    cases current <;> decide

/-! ## The fold -/

variable {m : Message} {now : Time} {report : MetaMessageStatus}

/-- What one report does to the row, a rolled-back one included: nothing, or the stamp. -/
theorem Message.applyStatus_getD (m : Message) (now : Time) (report : MetaMessageStatus) :
    (m.applyStatus now report).getD m = m ∨
      ∃ target at_, mapStatus report.status = some target ∧
        timestampOrNow now report.timestamp = some at_ ∧
        shouldApplyStatus m.status target = true ∧
        (m.applyStatus now report).getD m = m.stamp target at_ (extractError report.errors) := by
  unfold applyStatus
  rcases hmap : mapStatus report.status with _ | target
  · exact .inl rfl
  · rcases hat : timestampOrNow now report.timestamp with _ | at_
    · exact .inl rfl
    · by_cases happly : shouldApplyStatus m.status target = true
      · exact .inr ⟨target, at_, rfl, rfl, happly, by simp [happly]⟩
      · exact .inl (by simp [happly])

/-- A property of the row that every effective report keeps is kept by every sequence. -/
theorem Message.foldStatus_induction {P : Message → Prop} (entries : List (Time × MetaMessageStatus))
    (h0 : P m) (hstep : ∀ x now report target at_, (now, report) ∈ entries → P x →
      mapStatus report.status = some target → timestampOrNow now report.timestamp = some at_ →
      shouldApplyStatus x.status target = true →
      P (x.stamp target at_ (extractError report.errors))) : P (m.foldStatus entries) := by
  induction entries generalizing m with
  | nil => exact h0
  | cons entry rest ih =>
      obtain ⟨now, report⟩ := entry
      refine ih ?_ fun x n r target at_ hmem => hstep x n r target at_ (List.mem_cons_of_mem _ hmem)
      rcases m.applyStatus_getD now report with heq | ⟨target, at_, hmap, hat, happly, heq⟩
      · rw [heq]; exact h0
      · rw [heq]; exact hstep m now report target at_ List.mem_cons_self h0 hmap hat happly

/-- Reports are taken one after another. -/
theorem Message.foldStatus_append (m : Message) (entries later : List (Time × MetaMessageStatus)) :
    m.foldStatus (entries ++ later) = (m.foldStatus entries).foldStatus later := by
  induction entries generalizing m with
  | nil => rfl
  | cons entry rest ih => exact ih _

/-- A report for the id of a message moves that message's row and no key. -/
theorem Db.find_applyStatus {db : Db} {pid : String}
    (hm : db.messages.find (.providerMessageId pid) = some m) (hid : report.id = pid) :
    ((db.applyStatus now report).getD db).messages.find (.providerMessageId pid) =
      some ((m.applyStatus now report).getD m) := by
  subst hid
  unfold Db.applyStatus Message.applyStatus
  rcases hmap : mapStatus report.status with _ | target
  · exact hm
  · simp only [hm]
    rcases timestampOrNow now report.timestamp with _ | at_
    · exact hm
    · by_cases happly : shouldApplyStatus m.status target = true
      · simp [happly, Table.find_updateWhere, hm]
      · simp [happly, hm]

/-- A sequence of reports for one provider id folds the row of its message. -/
theorem Db.foldStatus_row {db : Db} {pid : String} {entries : List (Time × MetaMessageStatus)}
    (hm : db.messages.find (.providerMessageId pid) = some m)
    (hid : ∀ e ∈ entries, e.2.id = pid) :
    (db.foldStatus entries).messages.find (.providerMessageId pid) =
      some (m.foldStatus entries) := by
  induction entries generalizing db m with
  | nil => exact hm
  | cons entry rest ih =>
      obtain ⟨now, report⟩ := entry
      exact ih (Db.find_applyStatus hm (hid _ List.mem_cons_self)) fun e he => hid e (List.mem_cons_of_mem _ he)

/-! ## The laws of the fold -/

namespace Message

variable {entries : List (Time × MetaMessageStatus)}

/-- Failure is never left. -/
theorem foldStatus_failed (h : m.status = .failed) (entries : List (Time × MetaMessageStatus)) :
    (m.foldStatus entries).status = .failed := by
  refine foldStatus_induction (P := fun x => x.status = .failed) entries h ?_
  intro x now report target at_ _ hx _ _ happly
  have hnext := nextStatus_failed target
  rw [← hx, nextStatus, if_pos happly] at hnext
  rw [status_stamp, hnext, hx]

/-- Progress among the ranked statuses is monotone. -/
theorem rank_le_rank_foldStatus {r r' : ℕ} (hr : statusRank m.status = some r)
    (hr' : statusRank (m.foldStatus entries).status = some r') : r ≤ r' := by
  have hinv : (m.foldStatus entries).status = .failed ∨
      ∃ r₁, statusRank (m.foldStatus entries).status = some r₁ ∧ r ≤ r₁ := by
    refine foldStatus_induction (P := fun x => x.status = .failed ∨
      ∃ r₁, statusRank x.status = some r₁ ∧ r ≤ r₁) entries (.inr ⟨r, hr, le_rfl⟩) ?_
    intro x now report target at_ _ hx hmap _ happly
    rcases hx with hfailed | ⟨r₁, hr₁, hle⟩
    · have hnext := nextStatus_failed target
      rw [← hfailed, nextStatus, if_pos happly] at hnext
      exact .inl (by rw [status_stamp, hnext, hfailed])
    · rw [status_stamp]
      rcases ht : statusRank target with _ | r₂
      · -- A reported status without a rank is `FAILED`.
        rcases isReported_of_mapStatus hmap with rfl | rfl | rfl | rfl
        · cases ht
        · cases ht
        · cases ht
        · exact .inl rfl
      · have hnext : statusRank (nextStatus x.status target) = some r₂ := by
          rw [nextStatus, if_pos happly, ht]
        exact .inr ⟨r₂, rfl, hle.trans (rank_le_rank_nextStatus hr₁ hnext)⟩
  rcases hinv with hfailed | ⟨r₁, hr₁, hle⟩
  · rw [hfailed] at hr'; cases hr'
  · rw [hr₁] at hr'
    cases hr'
    exact hle

/-- A closed status is left only by a failure report. -/
theorem foldStatus_of_isClosed (h : IsClosed m.status)
    (hf : ∀ e ∈ entries, mapStatus e.2.status ≠ some .failed) :
    (m.foldStatus entries).status = m.status := by
  refine foldStatus_induction (P := fun x => x.status = m.status) entries rfl ?_
  intro x now report target at_ hmem hx hmap _ happly
  have htarget : target ≠ .failed := fun ht => hf _ hmem (by rw [hmap, ht])
  have hnext := nextStatus_of_isClosed (hx ▸ h) htarget
  rw [nextStatus, if_pos happly] at hnext
  rw [status_stamp, hnext, hx]

/-- A delivered or read message stays delivered or read. -/
theorem foldStatus_delivered_or_read (entries : List (Time × MetaMessageStatus))
    (h : m.status = .delivered ∨ m.status = .read) :
    (m.foldStatus entries).status = .delivered ∨ (m.foldStatus entries).status = .read := by
  refine foldStatus_induction
    (P := fun x => x.status = .delivered ∨ x.status = .read) entries h ?_
  intro x now report target at_ _ hx hmap _ happly
  have hnext := nextStatus_delivered_or_read hx (isReported_of_mapStatus hmap)
  rw [nextStatus, if_pos happly] at hnext
  rwa [status_stamp]

/-- After a report has been processed, it applies again only to its own status. -/
theorem eq_of_shouldApplyStatus_replay {target : MessageStatus} (hmem : (now, report) ∈ entries)
    (hmap : mapStatus report.status = some target)
    (hvalid : timestampOrNow now report.timestamp ≠ none)
    (happly : shouldApplyStatus (m.foldStatus entries).status target = true) :
    (m.foldStatus entries).status = target := by
  obtain ⟨before, after, rfl⟩ := List.mem_iff_append.mp hmem
  rw [foldStatus_append, foldStatus] at happly ⊢
  revert happly
  refine foldStatus_induction
    (P := fun x => shouldApplyStatus x.status target = true → x.status = target) after ?_ ?_
  · obtain ⟨at_, hat⟩ := Option.ne_none_iff_exists'.mp hvalid
    unfold applyStatus
    simp only [hmap, hat, Option.map_some, Option.getD_some]
    split_ifs with hdo
    · simp
    · exact fun h => absurd h hdo
  · intro x n r other at_ _ hx hother _ hdo
    rw [status_stamp]
    intro hagain
    by_contra hne
    have hstable := shouldApplyStatus_stable (isReported_of_mapStatus hmap)
      (isReported_of_mapStatus hother) hne hx hdo
    rw [hstable] at hagain
    cases hagain

/-- A replayed report leaves the status unchanged. -/
theorem status_replay (hmem : (now, report) ∈ entries) (now' : Time) :
    (((m.foldStatus entries).applyStatus now' report).getD (m.foldStatus entries)).status =
      (m.foldStatus entries).status := by
  rcases (m.foldStatus entries).applyStatus_getD now' report with
    heq | ⟨target, at_, hmap, hat, happly, heq⟩
  · rw [heq]
  · have hvalid : timestampOrNow now report.timestamp ≠ none := by
      unfold timestampOrNow at hat ⊢
      split at hat <;> simp_all
    rw [heq, status_stamp, eq_of_shouldApplyStatus_replay hmem hmap hvalid happly]

/-- A replayed report leaves the whole row unchanged, when its timestamp is one that
`parseTimestamp` accepts and all reports of its status carry the same timestamp and errors. -/
theorem applyStatus_replay (hmem : (now, report) ∈ entries)
    (htime : parseTimestamp report.timestamp ≠ .undefined)
    (hsame : ∀ e ∈ entries, mapStatus e.2.status = mapStatus report.status →
      e.2.timestamp = report.timestamp ∧ e.2.errors = report.errors) (now' : Time) :
    ((m.foldStatus entries).applyStatus now' report).getD (m.foldStatus entries) =
      m.foldStatus entries := by
  rcases (m.foldStatus entries).applyStatus_getD now' report with
    heq | ⟨target, at_, hmap, hat, happly, heq⟩
  · exact heq
  -- The instant does not depend on when the report is processed.
  have hat' : ∀ n, timestampOrNow n report.timestamp = some at_ := fun n => by
    unfold timestampOrNow at hat ⊢
    split at hat <;> simp_all
  rw [heq]
  obtain ⟨before, after, rfl⟩ := List.mem_iff_append.mp hmem
  rw [foldStatus_append, foldStatus] at happly ⊢
  revert happly
  refine foldStatus_induction (P := fun x => shouldApplyStatus x.status target = true →
    x.stamp target at_ (extractError report.errors) = x) after ?_ ?_
  · unfold applyStatus
    simp only [hmap, hat', Option.map_some, Option.getD_some]
    split_ifs with hdo
    · exact fun _ => stamp_stamp _ _ _ _
    · exact fun h => absurd h hdo
  · intro x n r other at' hr hx hother hother' hdo
    rw [status_stamp]
    intro hagain
    by_cases hne : other = target
    · obtain ⟨hts, herr⟩ := hsame (n, r)
        (List.mem_append_right _ (List.mem_cons_of_mem _ hr)) (by rw [hother, hne, hmap])
      rw [hts, hat'] at hother'
      cases hother'
      rw [hne, herr]
      exact stamp_stamp _ _ _ _
    · have hstable := shouldApplyStatus_stable (isReported_of_mapStatus hmap)
        (isReported_of_mapStatus hother) hne
        (fun h => by rw [← hx h, status_stamp]) hdo
      rw [hstable] at hagain
      cases hagain

/-- The known targets of a sequence, without the reports whose transaction throws. -/
def reported (entries : List (Time × MetaMessageStatus)) : List MessageStatus :=
  entries.filterMap fun e =>
    if parseTimestamp e.2.timestamp = .invalid then none else mapStatus e.2.status

/-- Without failures the final status is the maximum of the start and the known targets. -/
theorem rankOrBelow_foldStatus (hm : ¬ IsClosed m.status)
    (hf : ∀ e ∈ entries, mapStatus e.2.status ≠ some .failed) :
    ¬ IsClosed (m.foldStatus entries).status ∧ rankOrBelow (m.foldStatus entries).status =
      (reported entries).foldl (fun r target => max r (rankOrBelow target))
        (rankOrBelow m.status) := by
  induction entries generalizing m with
  | nil => exact ⟨hm, rfl⟩
  | cons entry rest ih =>
      obtain ⟨now, report⟩ := entry
      have hrest : ∀ e ∈ rest, mapStatus e.2.status ≠ some .failed :=
        fun e he => hf e (List.mem_cons_of_mem _ he)
      have hhead : mapStatus report.status ≠ some .failed :=
        hf (now, report) List.mem_cons_self
      simp only [foldStatus, reported, List.filterMap_cons]
      rcases hmap : mapStatus report.status with _ | target
      · have heq : (m.applyStatus now report).getD m = m := by simp [applyStatus, hmap]
        rw [heq]
        simpa [reported] using ih hm hrest
      · have htarget : target ≠ .failed := fun ht => hhead (by rw [hmap, ht])
        obtain ⟨hopen, hmax⟩ :=
          rankOrBelow_nextStatus hm (isReported_of_mapStatus hmap) htarget
        by_cases hinvalid : parseTimestamp report.timestamp = .invalid
        · have heq : (m.applyStatus now report).getD m = m := by
            simp [applyStatus, hmap, timestampOrNow, hinvalid]
          rw [heq]
          simpa [reported, hinvalid] using ih hm hrest
        · have heq : ((m.applyStatus now report).getD m).status = nextStatus m.status target := by
            obtain ⟨at_, hat⟩ : ∃ at_, timestampOrNow now report.timestamp = some at_ := by
              unfold timestampOrNow
              split <;> simp_all
            unfold applyStatus nextStatus
            simp only [hmap, hat, Option.map_some, Option.getD_some]
            split_ifs <;> simp
          rw [← heq] at hopen hmax
          obtain ⟨h₁, h₂⟩ := ih hopen hrest
          refine ⟨h₁, ?_⟩
          rw [h₂, hmax]
          simp [reported, hinvalid]

/-- Without failures the order of the reports does not matter. -/
theorem status_foldStatus_perm {entries' : List (Time × MetaMessageStatus)}
    (hperm : entries.Perm entries') (hm : ¬ IsClosed m.status)
    (hf : ∀ e ∈ entries, mapStatus e.2.status ≠ some .failed) :
    (m.foldStatus entries').status = (m.foldStatus entries).status := by
  obtain ⟨h₁, hmax⟩ := rankOrBelow_foldStatus hm hf
  have hf' : ∀ e ∈ entries', mapStatus e.2.status ≠ some .failed :=
    fun e he => hf e (hperm.mem_iff.mpr he)
  obtain ⟨h₂, hmax'⟩ := rankOrBelow_foldStatus hm hf'
  refine eq_of_rankOrBelow_eq h₂ h₁ ?_
  rw [hmax, hmax']
  have hcomm : RightCommutative fun (r : ℤ) target => max r (rankOrBelow target) :=
    ⟨fun r a b => max_right_comm r _ _⟩
  exact (hperm.symm.filterMap _).foldl_eq _

end Message

/-- **The laws of the status fold.** For the message that carries a provider id, every sequence of
reports for that id (`entries`) and every continuation of it (`later`):

* the database fold moves the row as `Message.foldStatus` does;
* the rank of the status never falls, `FAILED` is never left, `CANCELLED` and `EXPIRED` are left
  only by a failure report, and `DELIVERED` and `READ` are never replaced by `FAILED`;
* a report processed before leaves the status unchanged whenever it is replayed, and the whole row
  when its timestamp is one that `parseTimestamp` accepts and every report of the same mapped
  status carries that timestamp and those errors;
* from a status other than `FAILED`, `CANCELLED` and `EXPIRED`, a sequence without failures ends
  at the maximum of the start and the known targets (reports that throw left aside), in any
  order. -/
theorem status_fold {db : Db} {pid : String}
    (hm : db.messages.find (.providerMessageId pid) = some m)
    (entries later : List (Time × MetaMessageStatus))
    (hid : ∀ e ∈ entries ++ later, e.2.id = pid) :
    ((db.foldStatus entries).messages.find (.providerMessageId pid) =
        some (m.foldStatus entries) ∧
      (db.foldStatus (entries ++ later)).messages.find (.providerMessageId pid) =
        some (m.foldStatus (entries ++ later))) ∧
    (∀ r r', statusRank (m.foldStatus entries).status = some r →
      statusRank (m.foldStatus (entries ++ later)).status = some r' → r ≤ r') ∧
    ((m.foldStatus entries).status = .failed →
      (m.foldStatus (entries ++ later)).status = .failed) ∧
    ((m.foldStatus entries).status = .cancelled ∨ (m.foldStatus entries).status = .expired →
      (∀ e ∈ later, mapStatus e.2.status ≠ some .failed) →
      (m.foldStatus (entries ++ later)).status = (m.foldStatus entries).status) ∧
    ((m.foldStatus entries).status = .delivered ∨ (m.foldStatus entries).status = .read →
      (m.foldStatus (entries ++ later)).status ≠ .failed) ∧
    (∀ now report now', (now, report) ∈ entries →
      (((m.foldStatus entries).applyStatus now' report).getD (m.foldStatus entries)).status =
          (m.foldStatus entries).status ∧
        (parseTimestamp report.timestamp ≠ .undefined →
          (∀ e ∈ entries, mapStatus e.2.status = mapStatus report.status →
            e.2.timestamp = report.timestamp ∧ e.2.errors = report.errors) →
          ((m.foldStatus entries).applyStatus now' report).getD (m.foldStatus entries) =
            m.foldStatus entries)) ∧
    (¬ IsClosed m.status → (∀ e ∈ entries, mapStatus e.2.status ≠ some .failed) →
      rankOrBelow (m.foldStatus entries).status =
          (Message.reported entries).foldl (fun r target => max r (rankOrBelow target))
            (rankOrBelow m.status) ∧
        ∀ entries', entries.Perm entries' →
          (m.foldStatus entries').status = (m.foldStatus entries).status) := by
  refine ⟨⟨?_, Db.foldStatus_row hm hid⟩, ?_, ?_, ?_, ?_, ?_, ?_⟩
  · exact Db.foldStatus_row hm fun e he => hid e (List.mem_append_left _ he)
  · intro r r' hr hr'
    rw [Message.foldStatus_append] at hr'
    exact Message.rank_le_rank_foldStatus hr hr'
  · intro h
    rw [Message.foldStatus_append]
    exact Message.foldStatus_failed h later
  · intro h hf
    rw [Message.foldStatus_append]
    exact Message.foldStatus_of_isClosed (.inr h) hf
  · intro h hfailed
    rw [Message.foldStatus_append] at hfailed
    rcases Message.foldStatus_delivered_or_read later h with h' | h' <;>
      rw [hfailed] at h' <;> cases h'
  · intro now report now' hmem
    exact ⟨Message.status_replay hmem now',
      fun htime hsame => Message.applyStatus_replay hmem htime hsame now'⟩
  · intro hopen hf
    exact ⟨(Message.rankOrBelow_foldStatus hopen hf).2,
      fun entries' hperm => Message.status_foldStatus_perm hperm hopen hf⟩

/-! ## A submitted message -/

/-- An outbound message that the provider has accepted. -/
def submittedMessage : Message where
  id := 1
  tenantId := some 1
  senderId := some 7
  conversationId := none
  direction := .outbound
  trafficClass := .transactional
  type := .text
  status := .submitted
  to_ := some "5511999999999"
  from_ := none
  providerMessageId := some "wamid.1"
  providerTimestamp := none
  idempotencyKey := none
  payload := .null
  providerResponse := none
  errorCode := none
  errorMessage := none
  attemptCount := 1
  lastAttemptAt := some 0
  processingLeaseUntil := none
  submittedAt := some 0
  sentAt := none
  deliveredAt := none
  readAt := none
  failedAt := none

/-- A report for it. -/
def reportFor (status : String) (timestamp : Option String) : MetaMessageStatus where
  id := "wamid.1"
  status := status
  timestamp := timestamp
  errors := none

/-- The laws at a message that is read, then reported as sent again. -/
theorem status_fold_delayed_sent :
    (submittedMessage.foldStatus
      [(5, reportFor "read" (some "20")), (6, reportFor "sent" (some "10"))]).status = .read ∧
    (((submittedMessage.foldStatus
        [(5, reportFor "read" (some "20")), (6, reportFor "sent" (some "10"))]).applyStatus 9
          (reportFor "read" (some "20"))).map Message.readAt) = some (some 20000) ∧
    rankOrBelow (submittedMessage.foldStatus
      [(5, reportFor "read" (some "20")), (6, reportFor "sent" (some "10"))]).status = 6 := by
  have hfind : ({ Db.empty with
      messages := ⟨[submittedMessage], List.pairwise_singleton _ _⟩ } : Db).messages.find
        (.providerMessageId "wamid.1") = some submittedMessage := by rfl
  obtain ⟨-, -, -, -, -, -, hmax⟩ := status_fold hfind
    [(5, reportFor "read" (some "20")), (6, reportFor "sent" (some "10"))] [] (by simp [reportFor])
  obtain ⟨hrank, -⟩ := hmax (by decide) (by decide)
  refine ⟨by decide +kernel, by decide +kernel, hrank.trans (by decide +kernel)⟩

/-- Where the laws stop: a failed message keeps its status when a delivery is reported, and so does
one whose delivery is reported at an unrepresentable time; without a timestamp a replay moves
`sentAt`, and so it does between two spellings of one status that carry different times. -/
theorem status_fold_limits :
    ¬ rankOrBelow ((({ submittedMessage with status := .failed } : Message).foldStatus
        [(1, reportFor "delivered" (some "10"))]).status) =
      max (rankOrBelow .failed) (rankOrBelow .delivered) ∧
    ¬ rankOrBelow ((submittedMessage.foldStatus
        [(1, reportFor "delivered" (some "1e30"))]).status) =
      max (rankOrBelow .submitted) (rankOrBelow .delivered) ∧
    ¬ (((submittedMessage.foldStatus [(1, reportFor "sent" none)]).applyStatus 2
        (reportFor "sent" none)).map Message.sentAt) =
      some (submittedMessage.foldStatus [(1, reportFor "sent" none)]).sentAt ∧
    ¬ (((submittedMessage.foldStatus [(1, reportFor "sent" (some "10")),
          (2, reportFor "SENT" (some "20"))]).applyStatus 3
        (reportFor "sent" (some "10"))).map Message.sentAt) =
      some (submittedMessage.foldStatus [(1, reportFor "sent" (some "10")),
        (2, reportFor "SENT" (some "20"))]).sentAt := by
  refine ⟨?_, ?_, ?_, ?_⟩ <;> decide +kernel

end ApiWhatsApp
