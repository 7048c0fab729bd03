import ApiWhatsApp.Messages.Create
import Mathlib.Data.List.Nodup

/-!
# Concurrent `create` calls under one idempotency key

The system of all `create` calls, of every tenant and under every key, interleaved step by step
with each other, with the clock and with the writes of the other services. The state carries a
history variable: the `log` of all writes that took effect, newest first.

* `OtherWrite` — what any other service may do to the database: anything that neither makes
  outbound messages or messages under a key, nor changes their identity, nor makes outbox events.
* `replay db log` runs the log again from the first database. Since an entry `Write.create` is one
  whole transaction of `create`, `replay db₀ s.log = some s.db` says that nothing but the logged
  transactions ever touched the database.
* **`idempotent_create`** — at most one logged transaction carries a given key, its message has
  exactly one outbox event, every other call under the key has written nothing at all, and every
  call that returns returns that message.

The invariant (`CreateSystem.Inv`) is that the messages made by `create` and the outbox events are,
as lists, exactly those of the log, and that a call which can still commit is not in the log.
-/

namespace ApiWhatsApp

open Library

/-- The rows that only `create` inserts: outbound, or stored under an idempotency key. -/
def Message.fromCreate (m : Message) : Bool := m.direction = .outbound || m.idempotencyKey.isSome

/-- What identifies a message made by `create`. -/
def Message.identity (m : Message) : Uuid × Option Uuid × Option String :=
  (m.id, m.tenantId, m.idempotencyKey)

/-- The messages made by `create`, newest first. -/
def Db.created (db : Db) : List (Uuid × Option Uuid × Option String) :=
  (db.messages.rows.filter Message.fromCreate).map Message.identity

/-- The messages that outbox events ask to send, newest first. -/
def Db.requested (db : Db) : List Uuid := db.outboxEvents.rows.map OutboxEvent.aggregateId

/-- A write of another service: it makes no message of `create`'s kind and no outbox event. -/
structure OtherWrite where
  run : Db → Db
  created_run : ∀ db, (run db).created = db.created
  requested_run : ∀ db, (run db).requested = db.requested

/-- One write to the database, by a `create` call or by another service. -/
inductive Write where
  | create (call : ℕ) (now : Time) (tenantId : Uuid) (key : Option String) (draft : MessageDraft)
      (ids : CreateIds)
  | other (write : OtherWrite)

namespace Write

/-- Run one write; a `create` entry is its whole transaction. -/
def apply (db : Db) : Write → Option Db
  | create _ now tenantId key draft ids =>
      (db.commitCreate now tenantId key draft ids).map Prod.fst
  | other write => some (write.run db)

/-- The call that wrote. -/
def author : Write → Option ℕ
  | create call _ _ _ _ _ => some call
  | other _ => none

/-- The identity of the message that the write made. -/
def identity : Write → Option (Uuid × Option Uuid × Option String)
  | create _ _ tenantId key _ ids => some (ids.messageId, some tenantId, key)
  | other _ => none

/-- Whether the write made a message of the tenant under the key. -/
def isUnder (tenantId : Uuid) (key : String) : Write → Bool
  | create _ _ tenantId' key' _ _ => tenantId' = tenantId && key' = some key
  | other _ => false

variable {i : ℕ} {now : Time} {t : Uuid} {k : Option String} {d : MessageDraft} {x : CreateIds}

/-- A creation has its call as the author. -/
@[simp] theorem author_create : (create i now t k d x).author = some i := rfl

/-- Other writes have no author. -/
@[simp] theorem author_other (w : OtherWrite) : (other w).author = none := rfl

/-- A creation has its message and its key. -/
@[simp] theorem identity_create :
    (create i now t k d x).identity = some (x.messageId, some t, k) := rfl

/-- Other writes have no key. -/
@[simp] theorem identity_other (w : OtherWrite) : (other w).identity = none := rfl

end Write

/-- Run a log of writes, newest first, from a database. -/
def replay (db : Db) : List Write → Option Db
  | [] => some db
  | w :: log => (replay db log).bind fun db' => w.apply db'

/-- The database, the clock, the calls made so far and the history of writes. -/
structure CreateSystem where
  db : Db
  clock : Time
  calls : ℕ → Option CreateCall
  log : List Write

namespace CreateSystem

/-- One move of the system. -/
inductive Act where
  | tick (elapsed : Time)
  | begin (call : ℕ) (tenantId : Uuid) (dto : CreateMessageDto)
  | call (call : ℕ) (act : CreateAct)
  | other (write : OtherWrite)

/-- No call has been made. -/
def start (db : Db) (clock : Time) : CreateSystem where
  db := db
  clock := clock
  calls := fun _ => none
  log := []

/-- The log entry of a step of call `i`: its transaction, when the step commits one. -/
def logged (i : ℕ) (now : Time) (call : CreateCall) (act : CreateAct) : List Write :=
  match call.commits act with
  | some (draft, ids) => [.create i now call.tenantId call.dto.idempotencyKey draft ids]
  | none => []

/-- One step of the whole system. -/
def step (normalizeMediaPayload : OutboundMessageType → Json → Except String Json)
    (s : CreateSystem) : Act → Option CreateSystem
  | .tick elapsed => some { s with clock := s.clock + elapsed }
  | .begin i tenantId dto =>
      match s.calls i with
      | some _ => none
      | none =>
          some { s with calls := Function.update s.calls i (some (.begin tenantId dto)) }
  | .call i act =>
      match s.calls i with
      | none => none
      | some call =>
          (call.step normalizeMediaPayload s.db s.clock act).map fun (db, call') =>
            { s with
              db := db
              calls := Function.update s.calls i (some call')
              log := logged i s.clock call act ++ s.log }
  | .other write => some { s with db := write.run s.db, log := .other write :: s.log }

/-! ## The invariant -/

/-- The messages of `create` and the outbox events are those of the log; the author of a log entry
is a call that can no longer commit; a returned message is one of the log. -/
structure Inv (db₀ : Db) (s : CreateSystem) : Prop where
  replayed : replay db₀ s.log = some s.db
  created : s.db.created = s.log.filterMap Write.identity
  requested : s.db.requested = (s.log.filterMap Write.identity).map Prod.fst
  authors : (s.log.filterMap Write.author).Nodup
  owned : ∀ i now t k draft ids, Write.create i now t k draft ids ∈ s.log →
    ∃ call, s.calls i = some call ∧ call.stage.isOpen = false ∧ call.tenantId = t ∧
      call.dto.idempotencyKey = k
  returned : ∀ i call m k, s.calls i = some call → call.stage = .returned m →
    call.dto.givenKey = some k →
      (m.id, some call.tenantId, some k) ∈ s.log.filterMap Write.identity

/-- What is found under an idempotency key was made by `create`. -/
theorem mem_created_of_find {db : Db} {t : Uuid} {k : String} {m : Message}
    (h : db.messages.find (.idempotencyKey t k) = some m) :
    (m.id, some t, some k) ∈ db.created := by
  obtain ⟨hm, hkey⟩ := db.messages.find_eq_some_iff.mp h
  obtain ⟨ht, hk⟩ := mem_keys_idempotencyKey.mp hkey
  refine List.mem_map.mpr ⟨m, List.mem_filter.mpr ⟨hm, ?_⟩, ?_⟩
  · simp [Message.fromCreate, hk]
  · simp [Message.identity, ht, hk]

/-- A committed transaction adds its message to the front of `created` and asks to send it. -/
theorem created_commitCreate {db db' : Db} {now : Time} {t : Uuid} {key : Option String}
    {draft : MessageDraft} {ids : CreateIds} {m : Message}
    (h : db.commitCreate now t key draft ids = some (db', m)) :
    m.id = ids.messageId ∧ db'.created = (ids.messageId, some t, key) :: db.created ∧
      db'.requested = ids.messageId :: db.requested := by
  obtain ⟨⟨c, rfl⟩, hmessages, hevents⟩ := Db.commitCreate_spec h
  refine ⟨rfl, ?_, ?_⟩
  · rw [Db.created, Table.rows_of_insert? hmessages]
    simp [Message.fromCreate, MessageDraft.message, Message.identity, Db.created]
  · rw [Db.requested, Table.rows_of_insert? hevents]
    rfl

variable {normalizeMediaPayload : OutboundMessageType → Json → Except String Json} {db₀ : Db}
  {s s' : CreateSystem}

/-- A step of one call keeps the invariant. -/
theorem Inv.call {i : ℕ} {call call' : CreateCall} {act : CreateAct} {db' : Db} (hinv : Inv db₀ s)
    (hi : s.calls i = some call)
    (h : call.step normalizeMediaPayload s.db s.clock act = some (db', call')) :
    Inv db₀ { s with
      db := db'
      calls := Function.update s.calls i (some call')
      log := logged i s.clock call act ++ s.log } := by
  obtain ⟨⟨htenant, hdto⟩, hcase⟩ := CreateCall.step_db h
  rcases hcase with ⟨hnone, rfl, hret, hopen⟩ | ⟨draft, ids, m, hsome, hcommit, hopen, hclosed, hret⟩
  · have hlog : logged i s.clock call act = [] := by simp only [logged, hnone]
    rw [hlog]
    refine ⟨hinv.replayed, hinv.created, hinv.requested, hinv.authors, ?_, ?_⟩
    · intro j now t k draft ids hj
      obtain ⟨c, hc, hcopen, ht, hk⟩ := hinv.owned j now t k draft ids hj
      by_cases hji : j = i
      · subst hji
        rw [hi] at hc
        cases hc
        refine ⟨call', by simp, ?_, by rw [htenant, ht], by rw [hdto, hk]⟩
        rw [← Bool.not_eq_true] at hcopen ⊢
        exact fun hc' => hcopen (hopen hc')
      · exact ⟨c, by simp [Function.update_of_ne hji, hc], hcopen, ht, hk⟩
    · intro j c m k hj hm hk
      by_cases hji : j = i
      · subst hji
        cases (Function.update_self _ _ _).symm.trans hj
        have hex := hret m hm
        rw [hdto] at hk
        rw [CreateCall.existing, hk, Option.bind_some] at hex
        rw [htenant]
        have hmem := mem_created_of_find hex
        rw [hinv.created] at hmem
        exact hmem
      · replace hj := (Function.update_of_ne hji _ _).symm.trans hj
        exact hinv.returned j c m k hj hm hk
  · have hlog : logged i s.clock call act =
        [.create i s.clock call.tenantId call.dto.idempotencyKey draft ids] := by
      simp only [logged, hsome]
    obtain ⟨hid, hcreated, hrequested⟩ := created_commitCreate hcommit
    -- The call was open, so it has no entry in the log yet.
    have hfresh : i ∉ s.log.filterMap Write.author := by
      intro hmem
      obtain ⟨w, hw, hauthor⟩ := List.mem_filterMap.mp hmem
      cases w with
      | other w => cases hauthor
      | create j now t k d x =>
          cases hauthor
          obtain ⟨c, hc, hcopen, -⟩ := hinv.owned _ _ _ _ _ _ hw
          rw [hi] at hc
          cases hc
          rw [hopen] at hcopen
          cases hcopen
    rw [hlog]
    refine ⟨?_, ?_, ?_, ?_, ?_, ?_⟩
    · simp [replay, hinv.replayed, Write.apply, hcommit]
    · simp [hcreated, hinv.created]
    · simp [hrequested, hinv.requested]
    · exact List.nodup_cons.mpr ⟨hfresh, hinv.authors⟩
    · intro j now t k d x hj
      rcases List.mem_cons.mp hj with heq | hj
      · cases heq
        exact ⟨call', by simp, hclosed, htenant, by rw [hdto]⟩
      · obtain ⟨c, hc, hcopen, ht, hk⟩ := hinv.owned j now t k d x hj
        have hji : j ≠ i := fun hji => hfresh (List.mem_filterMap.mpr ⟨_, hj, by simp [hji]⟩)
        exact ⟨c, by simp [Function.update_of_ne hji, hc], hcopen, ht, hk⟩
    · intro j c m' k hj hm' hk
      by_cases hji : j = i
      · subst hji
        cases (Function.update_self _ _ _).symm.trans hj
        have hkey := (CreateMessageDto.givenKey_eq_some_iff.mp hk).1
        rw [hdto] at hkey
        rw [hret m' hm', hid, htenant]
        simp [hkey]
      · replace hj := (Function.update_of_ne hji _ _).symm.trans hj
        exact List.mem_cons_of_mem _ (hinv.returned j c m' k hj hm' hk)

/-- The invariant holds before the first call, when there are no messages yet. -/
theorem Inv.start {clock : Time} (hmessages : db₀.messages.rows = [])
    (hevents : db₀.outboxEvents.rows = []) : Inv db₀ (start db₀ clock) where
  replayed := rfl
  created := by simp [CreateSystem.start, Db.created, hmessages]
  requested := by simp [CreateSystem.start, Db.requested, hevents]
  authors := List.nodup_nil
  owned := fun _ _ _ _ _ _ h => absurd h List.not_mem_nil
  returned := fun _ _ _ _ h => by cases h

/-- **Every step keeps the invariant.** -/
theorem Inv.step {a : Act} (hinv : Inv db₀ s) (h : s.step normalizeMediaPayload a = some s') :
    Inv db₀ s' := by
  cases a with
  | tick elapsed =>
      cases h
      exact ⟨hinv.replayed, hinv.created, hinv.requested, hinv.authors, hinv.owned, hinv.returned⟩
  | begin i tenantId dto =>
      simp only [CreateSystem.step] at h
      split at h <;> cases h
      rename_i hnone
      refine ⟨hinv.replayed, hinv.created, hinv.requested, hinv.authors, ?_, ?_⟩
      · intro j now t k draft ids hj
        obtain ⟨c, hc, hrest⟩ := hinv.owned j now t k draft ids hj
        have hji : j ≠ i := fun hji => by rw [hji, hnone] at hc; cases hc
        exact ⟨c, by simp [Function.update_of_ne hji, hc], hrest⟩
      · intro j c m k hj hm hk
        by_cases hji : j = i
        · subst hji
          cases (Function.update_self _ _ _).symm.trans hj
          unfold CreateCall.begin at hm
          split_ifs at hm
        · replace hj := (Function.update_of_ne hji _ _).symm.trans hj
          exact hinv.returned j c m k hj hm hk
  | call i act =>
      simp only [CreateSystem.step] at h
      split at h
      · cases h
      · obtain ⟨⟨db', call'⟩, hstep, heq⟩ := Option.map_eq_some_iff.mp h
        cases heq
        exact hinv.call ‹_› hstep
  | other write =>
      cases h
      refine ⟨?_, ?_, ?_, ?_, ?_, ?_⟩
      · simp [replay, hinv.replayed, Write.apply]
      · simp [write.created_run, hinv.created, List.filterMap_cons]
      · simp [write.requested_run, hinv.requested, List.filterMap_cons]
      · simpa [List.filterMap_cons] using hinv.authors
      · intro j now t k draft ids hj
        exact hinv.owned j now t k draft ids (by simpa using hj)
      · intro j c m k hj hm hk
        simpa using hinv.returned j c m k hj hm hk

/-! ## At most one message for each key -/

/-- The rows under one idempotency key are at most one. -/
theorem length_under_le_one (db : Db) (t : Uuid) (k : String) :
    (db.messages.rows.filter fun m => m.tenantId = some t ∧ m.idempotencyKey = some k).length ≤
      1 :=
  db.messages.length_filter_le_one _ (.idempotencyKey t k) fun r hr => by simpa using hr

/-- The log has at most one transaction under a key, because the table has at most one row. -/
theorem Inv.length_log_under_le_one (hinv : Inv db₀ s) (t : Uuid) (k : String) :
    (s.log.filter (Write.isUnder t k)).length ≤ 1 := by
  let under : Uuid × Option Uuid × Option String → Bool := fun x => x.2 = (some t, some k)
  calc (s.log.filter (Write.isUnder t k)).length
      = s.log.countP (fun w => (w.identity.map under).getD false) := by
        rw [← List.countP_eq_length_filter]
        refine List.countP_congr fun w _ => ?_
        cases w <;> simp [Write.isUnder, under]
    _ = s.db.created.countP under := by rw [hinv.created, List.countP_filterMap]
    _ ≤ s.db.messages.rows.countP fun m => m.tenantId = some t ∧ m.idempotencyKey = some k := by
        rw [Db.created, List.countP_map, List.countP_filter]
        refine List.countP_mono_left fun m _ hm => ?_
        simpa [under, Message.identity] using (Bool.and_eq_true_iff.mp hm).1
    _ ≤ 1 := by
        rw [List.countP_eq_length_filter]
        exact length_under_le_one s.db t k

/-- The messages that outbox events ask to send are distinct. -/
theorem Inv.nodup_requested (hinv : Inv db₀ s) : s.db.requested.Nodup := by
  have hids : (s.db.messages.rows.map Message.id).Nodup :=
    s.db.messages.nodup_map _ fun a b hab => ⟨.id a.id, by simp, by simp [hab]⟩
  have heq : s.db.requested = (s.db.messages.rows.filter Message.fromCreate).map Message.id := by
    rw [hinv.requested, ← hinv.created, Db.created, List.map_map]
    rfl
  rw [heq]
  exact hids.sublist (List.filter_sublist.map _)

/-- An entry under a key is written by a call of that tenant under that key, and the other way
round. -/
theorem Inv.isUnder_of_author (hinv : Inv db₀ s) {w : Write} {i : ℕ} {call : CreateCall} {k : String}
    (hw : w ∈ s.log) (hauthor : w.author = some i) (hi : s.calls i = some call)
    (hk : call.dto.idempotencyKey = some k) : w.isUnder call.tenantId k = true := by
  cases w with
  | other w => cases hauthor
  | create j now t key draft ids =>
      cases hauthor
      obtain ⟨c, hc, -, ht, hkey⟩ := hinv.owned _ _ _ _ _ _ hw
      rw [hi] at hc
      cases hc
      simp [Write.isUnder, ht, ← hkey, hk]

/-- **Idempotent create.** From a database without messages, in every state that any interleaving
of `create` calls and other services reaches:

* the database is exactly what the logged writes make of the first one, each `create` entry being
  one whole transaction (one `recordOutbound`, one message, one outbox event), and no call has two
  entries;
* for every tenant and key, at most one row and at most one logged transaction carry the key, and
  the row has exactly one outbox event;
* once one call under the key has written, no other call under it has written anything;
* every call that returned a message under the key returned that row. -/
theorem idempotent_create {clock : Time} (hmessages : db₀.messages.rows = [])
    (hevents : db₀.outboxEvents.rows = [])
    (h : Reachable (step normalizeMediaPayload) (start db₀ clock) s) :
    (replay db₀ s.log = some s.db ∧ (s.log.filterMap Write.author).Nodup) ∧
      ∀ (t : Uuid) (k : String), k ≠ "" →
        (s.db.messages.rows.filter
            fun m => m.tenantId = some t ∧ m.idempotencyKey = some k).length ≤ 1 ∧
        (s.log.filter (Write.isUnder t k)).length ≤ 1 ∧
        (∀ m ∈ s.db.messages.rows, m.tenantId = some t → m.idempotencyKey = some k →
          s.db.requested.count m.id = 1) ∧
        (∀ i j call call', s.calls i = some call → s.calls j = some call' → i ≠ j →
          call.tenantId = t → call.dto.idempotencyKey = some k →
          call'.tenantId = t → call'.dto.idempotencyKey = some k →
          (∃ w ∈ s.log, w.author = some i) → ∀ w ∈ s.log, w.author ≠ some j) ∧
        ∀ i call m, s.calls i = some call → call.tenantId = t →
          call.dto.idempotencyKey = some k → call.stage = .returned m →
          ∃ row ∈ s.db.messages.rows, row.id = m.id ∧ row.tenantId = some t ∧
            row.idempotencyKey = some k := by
  have hinv : Inv db₀ s :=
    h.invariant (Inv.start hmessages hevents) fun x b y hx _ hstep => hx.step hstep
  refine ⟨⟨hinv.replayed, hinv.authors⟩, fun t k hk => ⟨length_under_le_one s.db t k,
    hinv.length_log_under_le_one t k, ?_, ?_, ?_⟩⟩
  · intro m hm _ hkey
    refine List.count_eq_one_of_mem hinv.nodup_requested ?_
    rw [hinv.requested, ← hinv.created]
    have hcreated : m.identity ∈ s.db.created :=
      List.mem_map_of_mem (List.mem_filter.mpr ⟨hm, by simp [Message.fromCreate, hkey]⟩)
    exact List.mem_map_of_mem hcreated
  · rintro i j call call' hi hj hij rfl hkey ht' hkey' ⟨w, hw, hwi⟩ w' hw' hwj
    -- Both entries are under the key, so they are the same entry.
    have hu := hinv.isUnder_of_author hw hwi hi hkey
    have hu' := hinv.isUnder_of_author hw' hwj hj hkey'
    rw [ht'] at hu'
    have heq : w = w' := by
      have hmem := List.mem_filter.mpr ⟨hw, hu⟩
      have hmem' := List.mem_filter.mpr ⟨hw', hu'⟩
      have hle := hinv.length_log_under_le_one call.tenantId k
      rcases hlist : s.log.filter (Write.isUnder call.tenantId k) with _ | ⟨x, _ | ⟨y, rest⟩⟩
      · rw [hlist] at hmem; cases hmem
      · rw [hlist, List.mem_singleton] at hmem hmem'
        rw [hmem, hmem']
      · rw [hlist] at hle; simp at hle
    rw [heq, hwj] at hwi
    cases hwi
    exact hij rfl
  · rintro i call m hi rfl hkey hm
    have hgiven := CreateMessageDto.givenKey_eq_some_iff.mpr ⟨hkey, hk⟩
    have hmem := hinv.returned i call m k hi hm hgiven
    rw [← hinv.created] at hmem
    obtain ⟨row, hrow, heq⟩ := List.mem_map.mp hmem
    simp only [Message.identity, Prod.mk.injEq] at heq
    exact ⟨row, (List.mem_filter.mp hrow).1, heq⟩

/-! ## Two racing calls -/

/-- Both calls pass the pre-check; call 0 commits; call 1 loses and re-reads. -/
def race : List Act :=
  let go (i : ℕ) : Act := .call i (.call .returned sampleIds)
  [.begin 0 1 sampleDto, .begin 1 1 sampleDto, go 0, go 1, go 0, go 1, go 0, go 1, go 0,
    .call 1 (.call (.failed "P2002") sampleIds), go 1]

/-- The state in which the race ends. -/
def raceEnd : CreateSystem :=
  (exec (step fun _ payload => .ok payload) (start sampleDb 0) race).get (by decide)

/-- The race ends with call 0 as the only author, and the theorem speaks about that state. -/
theorem idempotent_create_race :
    Reachable (step fun _ payload => .ok payload) (start sampleDb 0) raceEnd ∧
      raceEnd.log.filterMap Write.author = [0] ∧ raceEnd.db.created.map Prod.fst = [100] ∧
      replay sampleDb raceEnd.log = some raceEnd.db ∧
      (raceEnd.log.filter (Write.isUnder 1 "k")).length ≤ 1 := by
  have hreach : Reachable (step fun _ payload => .ok payload) (start sampleDb 0) raceEnd :=
    Reachable.of_exec (Option.some_get _).symm
  obtain ⟨⟨hreplay, -⟩, hkey⟩ := idempotent_create (by rfl) (by rfl) hreach
  exact ⟨hreach, by decide, by decide, hreplay, (hkey 1 "k" (by decide)).2.1⟩

end CreateSystem

end ApiWhatsApp
