import ApiWhatsApp.Config.ProductionConfig
import ApiWhatsApp.Library.Machine
import ApiWhatsApp.Library.Utf16

/-!
# The resources of the event streams

`stream` of `inbox-events/inbox-events.controller.ts` over the connections, closers and listeners of
`inbox-events/inbox-realtime.service.ts`. One API process, any number of requests; a handler runs up
to its `await`, and what follows the `await` is a step of its own.

* `Realtime` is the state. The `Set` objects are numbered, because a handler keeps the one that its
  listener is in after the map has forgotten it.
* `close` and `write` are the closures of a handler, `Act` what may happen in between: a client that
  goes away, a tick of the heartbeat, an event for a tenant, the shutdown of the module.
* `Realtime.Sound` is the invariant, `Sound.update` what every change of one stream keeps of it.
* **`stream_resources`** — the count and the slots are right in every run, and every stream is cleaned
  up unless the first frame of an open stream met backpressure: `close` then runs before the heartbeat
  is there to be cleared, and the handler starts it.
-/

namespace ApiWhatsApp

open Library

/-! ## Configuration -/

/-- Source: `boundedInteger`. -/
def boundedInteger (raw : Option String) (fallback minimum maximum : ℕ) : ℕ :=
  match raw with
  | none => fallback
  | some text =>
      match (doubleOf text).filter (isIntegerBetween minimum maximum) with
      | some value => ⌊value⌋₊
      | none => fallback

/-- The environment variables that the service reads. -/
structure RealtimeConfig where
  /-- `INBOX_SSE_MAX_CONNECTIONS`. -/
  connections : Option String
  /-- `INBOX_SSE_HEARTBEAT_MS`. -/
  heartbeat : Option String

namespace RealtimeConfig

variable (config : RealtimeConfig)

/-- Source: `maxConnections`. -/
def maxConnections : ℕ := boundedInteger config.connections 500 1 100000

/-- Source: `heartbeatMs`. -/
def heartbeatMs : ℕ := boundedInteger config.heartbeat 15000 5000 60000

end RealtimeConfig

/-- A setting is within its bounds, whatever it was read from. -/
theorem boundedInteger_mem {raw : Option String} {fallback minimum maximum : ℕ}
    (h : minimum ≤ fallback ∧ fallback ≤ maximum) :
    minimum ≤ boundedInteger raw fallback minimum maximum ∧
      boundedInteger raw fallback minimum maximum ≤ maximum := by
  unfold boundedInteger
  split
  · exact h
  · split
    · next value hvalue =>
        obtain ⟨-, hbetween⟩ := Option.filter_eq_some_iff.mp hvalue
        simp only [isIntegerBetween, Bool.and_eq_true, decide_eq_true_eq] at hbetween
        exact ⟨Nat.le_floor hbetween.1.2, Nat.floor_le_of_le hbetween.2⟩
    · exact h

/-! ## State -/

/-- How far a handler has got. One that has thrown has `returned` too. -/
inductive HandlerStage where
  /-- Before the `await` of `subscribe` is over. -/
  | subscribing
  /-- `subscribe` has put the listener into a set; the handler has not gone on. -/
  | subscribed (set : ℕ)
  | returned
  deriving DecidableEq

/-- The variable `heartbeat`. -/
inductive Heartbeat where
  | unset
  | running (ms : ℕ)
  | cleared
  deriving DecidableEq

namespace Heartbeat

/-- `clearInterval`, unless the variable is not set. -/
def clear : Heartbeat → Heartbeat
  | unset => unset
  | running _ => cleared
  | cleared => cleared

/-- The interval goes on. -/
def isRunning : Heartbeat → Bool
  | running _ => true
  | _ => false

/-- A heartbeat that is cleared does not run. -/
@[simp] theorem isRunning_clear (h : Heartbeat) : h.clear.isRunning = false := by cases h <;> rfl

end Heartbeat

/-- The variables of a handler, and its response. -/
structure Stream where
  tenantId : JsString
  stage : HandlerStage
  closed : Bool
  /-- The set that `unsubscribe` deletes the listener from, once it is bound. -/
  unsubscribe : Option ℕ
  heartbeat : Heartbeat
  /-- `response.writableEnded`. -/
  ended : Bool
  /-- How often `releaseConnection` was called. -/
  released : ℕ

/-- The service with the streams of its process. A stream is known by its position. -/
structure Realtime where
  streams : List Stream
  /-- The `Set` objects, those that the map has forgotten too. -/
  sets : List (List ℕ)
  listeners : JsString → Option ℕ
  connectionClosers : List ℕ
  activeConnections : ℕ

namespace Realtime

/-- A service that has just been constructed. -/
def start : Realtime where
  streams := []
  sets := []
  listeners _ := none
  connectionClosers := []
  activeConnections := 0

/-- The function that `subscribe` returns. -/
def removeListener (s : Realtime) (i : ℕ) (tenantId : JsString) (k : ℕ) : Realtime :=
  let tenantListeners := (s.sets.getD k []).filter fun j => j ≠ i
  { s with
    sets := s.sets.set k tenantListeners,
    listeners :=
      if tenantListeners = [] then fun id => if id = tenantId then none else s.listeners id
      else s.listeners }

/-- What `close` makes of the variables of an open stream. -/
def closing (x : Stream) : Stream :=
  { x with
    closed := true, heartbeat := x.heartbeat.clear, ended := true, released := x.released + 1 }

/-- Source: `close` of a handler. `n - 1` is `Math.max(0, n - 1)` of `releaseConnection`. -/
def close (s : Realtime) (i : ℕ) : Realtime :=
  match s.streams[i]? with
  | none => s
  | some x =>
      if x.closed then s
      else
        let s := { s with streams := s.streams.set i (closing x) }
        let s := match x.unsubscribe with
          | some k => s.removeListener i x.tenantId k
          | none => s
        { s with
          connectionClosers := s.connectionClosers.filter fun j => j ≠ i,
          activeConnections := s.activeConnections - 1 }

/-- Source: `write` of a handler; `accepted` is what `response.write` returns. -/
def write (s : Realtime) (i : ℕ) (accepted : Bool) : Realtime :=
  match s.streams[i]? with
  | none => s
  | some x => if x.closed || x.ended || !accepted then s.close i else s

/-- The part of `subscribe` that follows its `await`. -/
def addListener (s : Realtime) (i : ℕ) (x : Stream) : Realtime :=
  match s.listeners x.tenantId with
  | some k =>
      { s with
        sets := s.sets.set k (s.sets.getD k [] ++ [i]),
        streams := s.streams.set i { x with stage := .subscribed k } }
  | none =>
      { s with
        sets := s.sets ++ [[i]],
        listeners := fun id => if id = x.tenantId then some s.sets.length else s.listeners id,
        streams := s.streams.set i { x with stage := .subscribed s.sets.length } }

/-- `setInterval` of a handler. -/
def startHeartbeat (s : Realtime) (i : ℕ) (ms : ℕ) : Realtime :=
  match s.streams[i]? with
  | none => s
  | some x => { s with streams := s.streams.set i { x with heartbeat := .running ms } }

/-- What the response makes of the header and the first frame. -/
inductive FirstFrame where
  | accepted
  | refused
  /-- A call on the response throws. -/
  | threw
  deriving DecidableEq

/-- The stream whose handler has gone on. -/
def bound (x : Stream) (k : ℕ) : Stream := { x with stage := .returned, unsubscribe := some k }

/-- The part of a handler that follows its `await`, once `subscribe` has returned. -/
def resume (config : RealtimeConfig) (s : Realtime) (i : ℕ) (x : Stream) (k : ℕ)
    (frame : FirstFrame) : Realtime :=
  let s := { s with streams := s.streams.set i (bound x k) }
  if x.closed then s.removeListener i x.tenantId k
  else match frame with
    | .threw => s.close i
    | _ =>
        let s := s.write i (frame = .accepted)
        -- The interval is started whether or not the frame was written.
        s.startHeartbeat i config.heartbeatMs

/-- `[...(this.listeners.get(tenantId) ?? [])]`. -/
def listenersOf (s : Realtime) (tenantId : JsString) : List ℕ :=
  match s.listeners tenantId with
  | none => []
  | some k => s.sets.getD k []

/-- What may happen. -/
inductive Act where
  /-- A request for the events of a tenant; the handler runs up to its `await`. -/
  | stream (tenantId : JsString)
  | subscribe (i : ℕ)
  | subscribeFails (i : ℕ)
  | resume (i : ℕ) (frame : FirstFrame)
  | clientCloses (i : ℕ)
  | heartbeat (i : ℕ) (accepted : Bool)
  /-- An event of a tenant; `refusing` are the responses that report backpressure. -/
  | dispatch (tenantId : JsString) (refusing : List ℕ)
  | onModuleDestroy

/-- One step; `none` when the act is not possible. -/
def step (config : RealtimeConfig) (s : Realtime) : Act → Option Realtime
  | .stream tenantId =>
      if config.maxConnections ≤ s.activeConnections then some s
      else
        some { s with
          activeConnections := s.activeConnections + 1,
          connectionClosers := s.connectionClosers ++ [s.streams.length],
          streams := s.streams ++
            [{ tenantId, stage := .subscribing, closed := false, unsubscribe := none,
               heartbeat := .unset, ended := false, released := 0 }] }
  | .subscribe i => do
      let x ← s.streams[i]?
      if x.stage = .subscribing then some (s.addListener i x) else none
  | .subscribeFails i => do
      let x ← s.streams[i]?
      if x.stage = .subscribing then
        some (({ s with streams := s.streams.set i { x with stage := .returned } }).close i)
      else none
  | .resume i frame => do
      let x ← s.streams[i]?
      match x.stage with
      | .subscribed k => some (s.resume config i x k frame)
      | _ => none
  | .clientCloses i => some (s.close i)
  | .heartbeat i accepted => do
      let x ← s.streams[i]?
      if x.heartbeat.isRunning then some (s.write i accepted) else none
  | .dispatch tenantId refusing =>
      some ((s.listenersOf tenantId).foldl (fun s i => s.write i (i ∉ refusing)) s)
  | .onModuleDestroy =>
      let s := s.connectionClosers.foldl close s
      some { s with connectionClosers := [], listeners := fun _ => none }

/-! ## Invariants -/

/-- The clauses that speak of one stream. -/
structure StreamSound (x : Stream) : Prop where
  released : x.released = if x.closed then 1 else 0
  ended : x.ended = x.closed
  /-- Before the handler goes on, neither variable is set. -/
  unset : x.stage ≠ .returned → x.unsubscribe = none ∧ x.heartbeat = .unset

/-- A stream whose listener may be in the set `k`: its handler has yet to bind `unsubscribe`, or the
stream is open and `unsubscribe` deletes from that set. -/
def Listens (x : Stream) (k : ℕ) : Prop :=
  x.stage = .subscribed k ∨ (x.stage = .returned ∧ x.closed = false ∧ x.unsubscribe = some k)

/-- What holds of every state but for the heartbeats. -/
structure Sound (limit : ℕ) (s : Realtime) : Prop where
  streams : ∀ x ∈ s.streams, StreamSound x
  closers : ∀ i, i ∈ s.connectionClosers ↔ ∃ x, s.streams[i]? = some x ∧ x.closed = false
  listeners : ∀ k members, s.sets[k]? = some members → ∀ i ∈ members,
    ∃ x, s.streams[i]? = some x ∧ Listens x k
  active : s.activeConnections = s.streams.countP fun x => !x.closed
  limit : s.activeConnections ≤ limit

variable {limit : ℕ} {s t : Realtime} {i : ℕ} {x y : Stream}

/-- At the start nothing is open. -/
theorem Sound.start : Sound limit start where
  streams := fun x hx => by cases hx
  closers i := by simp [Realtime.start]
  listeners k members h := by simp [Realtime.start] at h
  active := rfl
  limit := Nat.zero_le _

/-- **A change of one stream** keeps the invariant when the listeners and the closer of that stream go
with it, and those of the others stay. -/
theorem Sound.update (h : Sound limit s) (hx : s.streams[i]? = some x)
    (hstreams : t.streams = s.streams.set i y) (hy : StreamSound y)
    (hsets : ∀ k members, t.sets[k]? = some members → ∀ j ∈ members,
      (j = i ∧ Listens y k) ∨ (j ≠ i ∧ ∃ members', s.sets[k]? = some members' ∧ j ∈ members'))
    (hclosers : ∀ j, j ∈ t.connectionClosers ↔
      (j = i ∧ y.closed = false) ∨ (j ≠ i ∧ j ∈ s.connectionClosers))
    (hactive : t.activeConnections + (if x.closed then 0 else 1) =
      s.activeConnections + (if y.closed then 0 else 1))
    (hle : t.activeConnections ≤ s.activeConnections) : Sound limit t := by
  have hlt : i < s.streams.length := (List.getElem?_eq_some_iff.mp hx).1
  have hself : t.streams[i]? = some y := by
    rw [hstreams, List.getElem?_set_self hlt]
  have hother : ∀ {j}, j ≠ i → t.streams[j]? = s.streams[j]? := fun hj => by
    rw [hstreams, List.getElem?_set_ne (Ne.symm hj)]
  refine ⟨?_, fun j => ?_, fun k members hmembers j hj => ?_, ?_, hle.trans h.limit⟩
  · intro z hz
    rw [hstreams] at hz
    rcases List.mem_or_eq_of_mem_set hz with hz | rfl
    · exact h.streams z hz
    · exact hy
  · rw [hclosers j]
    by_cases hj : j = i
    · subst hj
      simp [hself]
    · simp only [hj, false_and, false_or, ne_eq, not_false_iff, true_and]
      rw [h.closers j, hother hj]
  · rcases hsets k members hmembers j hj with ⟨rfl, hlistens⟩ | ⟨hne, members', hmembers', hj'⟩
    · exact ⟨y, hself, hlistens⟩
    · obtain ⟨z, hz, hlistens⟩ := h.listeners k members' hmembers' j hj'
      exact ⟨z, (hother hne).trans hz, hlistens⟩
  · have hget : s.streams[i] = x := (List.getElem?_eq_some_iff.mp hx).2
    have hcount := h.active
    rw [hstreams, List.countP_set hlt, hget, ← hcount]
    cases hxc : x.closed with
    | true => cases hyc : y.closed <;> simp [hxc, hyc] at hactive ⊢ <;> omega
    | false =>
        have hpos : 0 < s.activeConnections := by
          rw [hcount]
          exact List.countP_pos_iff.mpr ⟨x, List.mem_of_getElem? hx, by simp [hxc]⟩
        cases hyc : y.closed <;> simp [hxc, hyc] at hactive ⊢ <;> omega

/-! ## What the steps keep -/

/-- What is in a set after `unsubscribe` was in it before, and the listener is not. -/
theorem mem_removeListener {tenantId : JsString} {k k' j : ℕ} {members : List ℕ}
    (h : (s.removeListener i tenantId k).sets[k']? = some members) (hj : j ∈ members) :
    (∃ members', s.sets[k']? = some members' ∧ j ∈ members') ∧ (k' = k → j ≠ i) := by
  rcases getElem?_set_cases h with ⟨rfl, rfl⟩ | ⟨hne, hmembers⟩
  · obtain ⟨hj, hji⟩ := List.mem_filter.mp hj
    refine ⟨⟨_, ?_, hj⟩, fun _ => by simpa using hji⟩
    cases hset : s.sets[k']? with
    | none =>
        rw [List.getD_eq_getElem?_getD, hset] at hj
        cases hj
    | some members' => rw [List.getD_eq_getElem?_getD, hset, Option.getD_some]
  · exact ⟨⟨members, hmembers, hj⟩, fun heq => absurd heq hne⟩

/-- A stream is closed once. -/
theorem close_of_closed (hx : s.streams[i]? = some x) (hclosed : x.closed = true) :
    s.close i = s := by
  simp [close, hx, hclosed]

/-- What `close` does for an open stream. -/
theorem close_spec (hx : s.streams[i]? = some x) (hopen : x.closed = false) :
    (s.close i).streams = s.streams.set i (closing x) ∧
      (s.close i).connectionClosers = s.connectionClosers.filter (fun j => j ≠ i) ∧
      (s.close i).activeConnections = s.activeConnections - 1 ∧
      ∀ k members, (s.close i).sets[k]? = some members → ∀ j ∈ members,
        (∃ members', s.sets[k]? = some members' ∧ j ∈ members') ∧
          (j = i → x.unsubscribe ≠ some k) := by
  simp only [close, hx, hopen, Bool.false_eq_true, if_false]
  cases hbound : x.unsubscribe with
  | none =>
      refine ⟨rfl, rfl, rfl, fun k members hmembers j hj => ?_⟩
      exact ⟨⟨members, hmembers, hj⟩, fun _ h => by cases h⟩
  | some k =>
      refine ⟨rfl, rfl, rfl, fun k' members hmembers j hj => ?_⟩
      obtain ⟨hbefore, hne⟩ := mem_removeListener hmembers hj
      refine ⟨hbefore, fun hji h => ?_⟩
      cases h
      exact hne rfl hji

/-- A stream that closes has given everything back. -/
theorem StreamSound.closing (h : StreamSound x) (hopen : x.closed = false) :
    StreamSound (closing x) where
  released := by
    have hreleased := h.released
    rw [hopen] at hreleased
    simp [Realtime.closing, hreleased]
  ended := rfl
  unset hstage := by
    obtain ⟨hbound, hheartbeat⟩ := h.unset hstage
    exact ⟨hbound, by rw [Realtime.closing, hheartbeat]; rfl⟩

/-- Closing keeps the invariant. -/
theorem Sound.close (h : Sound limit s) (i : ℕ) : Sound limit (s.close i) := by
  rcases hx : s.streams[i]? with _ | x
  · rw [Realtime.close, hx]
    exact h
  cases hopen : x.closed with
  | true => rwa [close_of_closed hx hopen]
  | false =>
      obtain ⟨hstreams, hclosers, hactive, hsets⟩ := close_spec hx hopen
      have hsound := h.streams x (List.mem_of_getElem? hx)
      have hpos : 0 < s.activeConnections := by
        rw [h.active]
        exact List.countP_pos_iff.mpr ⟨x, List.mem_of_getElem? hx, by simp [hopen]⟩
      refine h.update hx hstreams (hsound.closing hopen) (fun k members hmembers j hj => ?_)
        (fun j => ?_) ?_ (by omega)
      · obtain ⟨⟨members', hmembers', hj'⟩, hbound⟩ := hsets k members hmembers j hj
        by_cases hji : j = i
        · -- The listener is still in a set when `unsubscribe` was not bound to it.
          subst hji
          obtain ⟨z, hz, hlistens⟩ := h.listeners k members' hmembers' j hj'
          obtain rfl := Option.some.inj (hx.symm.trans hz)
          rcases hlistens with hstage | ⟨-, -, hset⟩
          · exact .inl ⟨rfl, .inl hstage⟩
          · exact absurd hset (hbound rfl)
        · exact .inr ⟨hji, members', hmembers', hj'⟩
      · simp [hclosers, closing, and_comm]
      · rw [hactive, hopen]
        simp only [closing, Bool.false_eq_true, if_false, if_true]
        omega

/-- Writing keeps the invariant. -/
theorem Sound.write (h : Sound limit s) (i : ℕ) (accepted : Bool) :
    Sound limit (s.write i accepted) := by
  unfold Realtime.write
  split
  · exact h
  · split
    · exact h.close i
    · exact h

/-- A closer that has been called is no longer registered. -/
theorem Sound.connectionClosers_close (h : Sound limit s) (i : ℕ) :
    (s.close i).connectionClosers = s.connectionClosers.filter fun j => j ≠ i := by
  by_cases hi : i ∈ s.connectionClosers
  · obtain ⟨x, hx, hopen⟩ := (h.closers i).mp hi
    exact (close_spec hx hopen).2.1
  · have hsame : s.close i = s := by
      rcases hx : s.streams[i]? with _ | x
      · rw [Realtime.close, hx]
      · cases hopen : x.closed with
        | true => exact close_of_closed hx hopen
        | false => exact absurd ((h.closers i).mpr ⟨x, hx, hopen⟩) hi
    rw [hsame, List.filter_eq_self.mpr]
    exact fun j hj => decide_eq_true fun hji => hi (hji ▸ hj)

/-- The shutdown: the invariant holds again, and `clear` finds no closer. -/
theorem Sound.foldl_close (h : Sound limit s) (l : List ℕ) :
    Sound limit (l.foldl Realtime.close s) ∧
      (l.foldl Realtime.close s).connectionClosers = s.connectionClosers.filter fun j => j ∉ l := by
  induction l generalizing s with
  | nil => exact ⟨h, by simp⟩
  | cons i l ih =>
      obtain ⟨hsound, hclosers⟩ := ih (h.close i)
      refine ⟨hsound, ?_⟩
      rw [List.foldl_cons, hclosers, h.connectionClosers_close, List.filter_filter]
      refine List.filter_congr fun j _ => Bool.eq_iff_iff.mpr ?_
      simp [and_comm]

/-- A write to an open stream closes it or does nothing. -/
theorem write_of_open {accepted : Bool} (hx : s.streams[i]? = some x) (hopen : x.closed = false)
    (hended : x.ended = false) :
    s.write i accepted = if accepted then s else s.close i := by
  cases accepted <;> simp [Realtime.write, hx, hopen, hended]

/-- The closers that are registered when a stream is neither opened nor closed. -/
theorem Sound.closers_of (h : Sound limit s) (hx : s.streams[i]? = some x)
    (hclosed : y.closed = x.closed) (j : ℕ) :
    j ∈ s.connectionClosers ↔ (j = i ∧ y.closed = false) ∨ (j ≠ i ∧ j ∈ s.connectionClosers) := by
  by_cases hji : j = i
  · subst hji
    have hcloser := h.closers j
    simp only [hx, Option.some.injEq, exists_eq_left'] at hcloser
    simpa [hclosed] using hcloser
  · simp [hji]

/-- A change that neither closes the stream nor forgets its listener. -/
theorem Sound.rewrite (h : Sound limit s) (hx : s.streams[i]? = some x) (hy : StreamSound y)
    (hclosed : y.closed = x.closed) (hlistens : ∀ k, Listens x k → Listens y k) :
    Sound limit { s with streams := s.streams.set i y } := by
  refine h.update hx rfl hy (fun k members hmembers j hj => ?_) (h.closers_of hx hclosed)
    (by rw [hclosed]) le_rfl
  · by_cases hji : j = i
    · subst hji
      obtain ⟨z, hz, hbefore⟩ := h.listeners k members hmembers j hj
      obtain rfl := Option.some.inj (hx.symm.trans hz)
      exact .inl ⟨rfl, hlistens k hbefore⟩
    · exact .inr ⟨hji, members, hmembers, hj⟩

/-- Starting the heartbeat keeps the invariant. -/
theorem Sound.startHeartbeat (h : Sound limit s) (hx : s.streams[i]? = some x)
    (hstage : x.stage = .returned) (ms : ℕ) : Sound limit (s.startHeartbeat i ms) := by
  have hsound := h.streams x (List.mem_of_getElem? hx)
  rw [Realtime.startHeartbeat, hx]
  refine h.rewrite hx ⟨hsound.released, hsound.ended, fun hne => absurd hstage hne⟩ rfl ?_
  exact fun k hlistens => hlistens

/-- A stream may be bound to its listener. -/
theorem StreamSound.bound (h : StreamSound x) (k : ℕ) : StreamSound (bound x k) :=
  ⟨h.released, h.ended, fun hne => absurd rfl hne⟩

/-- Before its `await` is over, no set has the listener of a stream. -/
theorem Sound.not_mem_of_subscribing (h : Sound limit s) (hx : s.streams[i]? = some x)
    (hstage : x.stage = .subscribing) {k : ℕ} {members : List ℕ}
    (hmembers : s.sets[k]? = some members) : i ∉ members := by
  intro hi
  obtain ⟨z, hz, hlistens⟩ := h.listeners k members hmembers i hi
  obtain rfl := Option.some.inj (hx.symm.trans hz)
  rcases hlistens with hstage' | ⟨hstage', -⟩
  · rw [hstage] at hstage'
    cases hstage'
  · rw [hstage] at hstage'
    cases hstage'

/-- Adding a listener keeps the invariant. -/
theorem Sound.addListener (h : Sound limit s) (hx : s.streams[i]? = some x)
    (hstage : x.stage = .subscribing) : Sound limit (s.addListener i x) := by
  have hsound := h.streams x (List.mem_of_getElem? hx)
  have hunset : x.unsubscribe = none ∧ x.heartbeat = .unset :=
    hsound.unset fun hreturned => by rw [hstage] at hreturned; cases hreturned
  have hnew : ∀ k, StreamSound { x with stage := .subscribed k } := fun k =>
    ⟨hsound.released, hsound.ended, fun _ => hunset⟩
  unfold Realtime.addListener
  split
  · next k _ =>
      refine h.update hx rfl (hnew k) (fun k' members hmembers j hj => ?_) (h.closers_of hx rfl) rfl
        le_rfl
      by_cases hji : j = i
      · subst hji
        rcases getElem?_set_cases hmembers with ⟨rfl, -⟩ | ⟨-, hbefore⟩
        · exact .inl ⟨rfl, .inl rfl⟩
        · exact absurd hj (h.not_mem_of_subscribing hx hstage hbefore)
      · refine .inr ⟨hji, ?_⟩
        rcases getElem?_set_cases hmembers with ⟨rfl, rfl⟩ | ⟨-, hbefore⟩
        · have hmem : j ∈ s.sets.getD k' [] := by simpa [hji] using hj
          cases hset : s.sets[k']? with
          | none =>
              rw [List.getD_eq_getElem?_getD, hset] at hmem
              cases hmem
          | some members' =>
              rw [List.getD_eq_getElem?_getD, hset] at hmem
              exact ⟨members', rfl, hmem⟩
        · exact ⟨members, hbefore, hj⟩
  · refine h.update hx rfl (hnew _) (fun k' members hmembers j hj => ?_) (h.closers_of hx rfl) rfl
      le_rfl
    rcases getElem?_append_cases hmembers with ⟨rfl, rfl⟩ | hbefore
    · exact .inl ⟨List.mem_singleton.mp hj, .inl rfl⟩
    · refine .inr ⟨fun hji => ?_, members, hbefore, hj⟩
      subst hji
      exact h.not_mem_of_subscribing hx hstage hbefore hj

/-- The part after the `await` of a stream that was closed in the meantime. -/
theorem Sound.resume_closed (h : Sound limit s) (hx : s.streams[i]? = some x) {k : ℕ}
    (hstage : x.stage = .subscribed k) :
    Sound limit
      ({ s with streams := s.streams.set i (Realtime.bound x k) }.removeListener i x.tenantId k) := by
  have hsound := h.streams x (List.mem_of_getElem? hx)
  refine h.update hx rfl (hsound.bound k) (fun k' members hmembers j hj => ?_)
    (h.closers_of hx rfl) rfl le_rfl
  · obtain ⟨⟨members', hmembers', hj'⟩, hne⟩ := mem_removeListener hmembers hj
    refine .inr ⟨fun hji => ?_, members', hmembers', hj'⟩
    subst hji
    obtain ⟨z, hz, hlistens⟩ := h.listeners k' members' hmembers' j hj'
    obtain rfl := Option.some.inj (hx.symm.trans hz)
    rcases hlistens with hstage' | ⟨hstage', -⟩
    · rw [hstage] at hstage'
      exact hne (HandlerStage.subscribed.inj hstage').symm rfl
    · rw [hstage] at hstage'
      cases hstage'

/-- The part after the `await`, for an open stream, up to the first frame. -/
theorem Sound.resume_open (h : Sound limit s) (hx : s.streams[i]? = some x) {k : ℕ}
    (hstage : x.stage = .subscribed k) (hopen : x.closed = false) :
    Sound limit { s with streams := s.streams.set i (Realtime.bound x k) } := by
  have hsound := h.streams x (List.mem_of_getElem? hx)
  refine h.rewrite hx (hsound.bound k) rfl fun k' hlistens => ?_
  rcases hlistens with hstage' | ⟨hstage', -⟩
  · rw [hstage] at hstage'
    cases hstage'
    exact .inr ⟨rfl, hopen, rfl⟩
  · rw [hstage] at hstage'
    cases hstage'

/-- A refused write closes the stream. -/
theorem getElem?_write {accepted : Bool} (hx : s.streams[i]? = some x) (hopen : x.closed = false)
    (hended : x.ended = false) :
    (s.write i accepted).streams[i]? = some (if accepted then x else closing x) := by
  rw [write_of_open hx hopen hended]
  cases accepted with
  | true => exact hx
  | false =>
      rw [if_neg Bool.false_ne_true, if_neg Bool.false_ne_true, (close_spec hx hopen).1,
        List.getElem?_set_self (List.getElem?_eq_some_iff.mp hx).1]

/-- Going on after the subscription keeps the invariant. -/
theorem Sound.resume (h : Sound limit s) (config : RealtimeConfig) (hx : s.streams[i]? = some x)
    {k : ℕ} (hstage : x.stage = .subscribed k) (frame : FirstFrame) :
    Sound limit (s.resume config i x k frame) := by
  unfold Realtime.resume
  cases hopen : x.closed with
  | true => exact h.resume_closed hx hstage
  | false =>
      have hopened := h.resume_open hx hstage hopen
      have hself : (s.streams.set i (Realtime.bound x k))[i]? = some (Realtime.bound x k) :=
        List.getElem?_set_self (List.getElem?_eq_some_iff.mp hx).1
      have hended : x.ended = false :=
        ((h.streams x (List.mem_of_getElem? hx)).ended).trans hopen
      have hwrite : ∀ accepted : Bool,
          Sound limit (({ s with streams := s.streams.set i (Realtime.bound x k) }.write i
            accepted).startHeartbeat i config.heartbeatMs) := by
        intro accepted
        refine (hopened.write i accepted).startHeartbeat (getElem?_write hself hopen hended) ?_ _
        cases accepted <;> rfl
      cases frame with
      | accepted => exact hwrite true
      | refused => exact hwrite false
      | threw => exact hopened.close i

/-- What each act does, from a state that it is possible in. -/
def Does (config : RealtimeConfig) (s t : Realtime) : Act → Prop
  | .stream _ =>
      t = s ∨ (s.activeConnections < config.maxConnections ∧ ∃ x : Stream,
        t = { s with
          activeConnections := s.activeConnections + 1,
          connectionClosers := s.connectionClosers ++ [s.streams.length],
          streams := s.streams ++ [x] } ∧
        StreamSound x ∧ x.stage = .subscribing ∧ x.closed = false)
  | .subscribe i => ∃ x, s.streams[i]? = some x ∧ x.stage = .subscribing ∧ t = s.addListener i x
  | .subscribeFails i => ∃ x, s.streams[i]? = some x ∧ x.stage = .subscribing ∧
      t = ({ s with streams := s.streams.set i { x with stage := .returned } } : Realtime).close i
  | .resume i frame => ∃ x k, s.streams[i]? = some x ∧ x.stage = .subscribed k ∧
      t = s.resume config i x k frame
  | .clientCloses i => t = s.close i
  | .heartbeat i accepted => t = s.write i accepted
  | .dispatch _ refusing =>
      ∃ l : List ℕ, t = l.foldl (fun s i => s.write i (i ∉ refusing)) s
  | .onModuleDestroy =>
      t = { s.connectionClosers.foldl close s with
        connectionClosers := [], listeners := fun _ => none }

/-- A step does one of the things listed. -/
theorem does_of_step {config : RealtimeConfig} {a : Act} (h : step config s a = some t) :
    Does config s t a := by
  cases a with
  | stream tenantId =>
      rw [step] at h
      by_cases hfull : config.maxConnections ≤ s.activeConnections
      · rw [if_pos hfull] at h
        exact .inl (Option.some.inj h).symm
      · rw [if_neg hfull] at h
        exact .inr ⟨not_le.mp hfull, _, (Option.some.inj h).symm,
          ⟨rfl, rfl, fun _ => ⟨rfl, rfl⟩⟩, rfl, rfl⟩
  | subscribe i =>
      obtain ⟨x, hx, h⟩ := Option.bind_eq_some_iff.mp h
      split_ifs at h with hstage
      exact ⟨x, hx, hstage, (Option.some.inj h).symm⟩
  | subscribeFails i =>
      obtain ⟨x, hx, h⟩ := Option.bind_eq_some_iff.mp h
      split_ifs at h with hstage
      exact ⟨x, hx, hstage, (Option.some.inj h).symm⟩
  | resume i frame =>
      obtain ⟨x, hx, h⟩ := Option.bind_eq_some_iff.mp h
      cases hstage : x.stage with
      | subscribed k =>
          simp only [hstage] at h
          exact ⟨x, k, hx, hstage, (Option.some.inj h).symm⟩
      | subscribing => simp [hstage] at h
      | returned => simp [hstage] at h
  | clientCloses i => exact (Option.some.inj h).symm
  | heartbeat i accepted =>
      obtain ⟨x, -, h⟩ := Option.bind_eq_some_iff.mp h
      split_ifs at h
      exact (Option.some.inj h).symm
  | dispatch tenantId refusing => exact ⟨_, (Option.some.inj h).symm⟩
  | onModuleDestroy => exact (Option.some.inj h).symm

/-- A request that is accepted. -/
theorem Sound.accept (h : Sound limit s) (hfree : s.activeConnections < limit) (hx : StreamSound x)
    (hopen : x.closed = false) :
    Sound limit { s with
      activeConnections := s.activeConnections + 1,
      connectionClosers := s.connectionClosers ++ [s.streams.length],
      streams := s.streams ++ [x] } := by
  have hold : ∀ {j z}, s.streams[j]? = some z → (s.streams ++ [x])[j]? = some z := fun hz => by
    rw [List.getElem?_append_left (List.getElem?_eq_some_iff.mp hz).1, hz]
  refine ⟨fun z hz => ?_, fun j => ?_, fun k members hmembers j hj => ?_, ?_, hfree⟩
  · rcases List.mem_append.mp hz with hz | hz
    · exact h.streams z hz
    · rwa [List.mem_singleton.mp hz]
  · rw [List.mem_append, List.mem_singleton, h.closers j]
    constructor
    · rintro (⟨z, hz, hzopen⟩ | rfl)
      · exact ⟨z, hold hz, hzopen⟩
      · exact ⟨x, by simp, hopen⟩
    · rintro ⟨z, hz, hzopen⟩
      rcases getElem?_append_cases hz with ⟨hj, -⟩ | hz
      · exact .inr hj
      · exact .inl ⟨z, hz, hzopen⟩
  · obtain ⟨z, hz, hlistens⟩ := h.listeners k members hmembers j hj
    exact ⟨z, hold hz, hlistens⟩
  · simp [h.active, hopen]

/-- Writing to several streams keeps the invariant. -/
theorem Sound.foldl_write (h : Sound limit s) (refusing l : List ℕ) :
    Sound limit (l.foldl (fun s i => s.write i (i ∉ refusing)) s) := by
  induction l generalizing s with
  | nil => exact h
  | cons i l ih => exact ih (h.write i _)

/-- **One step keeps the invariant.** -/
theorem Sound.step {config : RealtimeConfig} {a : Act} (h : Sound config.maxConnections s)
    (hstep : step config s a = some t) : Sound config.maxConnections t := by
  have hdoes := does_of_step hstep
  cases a with
  | stream tenantId =>
      rcases hdoes with rfl | ⟨hfree, x, rfl, hx, -, hopen⟩
      · exact h
      · exact h.accept hfree hx hopen
  | subscribe i =>
      obtain ⟨x, hx, hstage, rfl⟩ := hdoes
      exact h.addListener hx hstage
  | subscribeFails i =>
      obtain ⟨x, hx, hstage, rfl⟩ := hdoes
      have hsound := h.streams x (List.mem_of_getElem? hx)
      have hfailed : Sound config.maxConnections
          { s with streams := s.streams.set i { x with stage := .returned } } := by
        refine h.rewrite hx ?_ rfl fun k hlistens => ?_
        · exact ⟨hsound.released, hsound.ended, fun hne => absurd rfl hne⟩
        · simp [Listens, hstage] at hlistens
      exact hfailed.close i
  | resume i frame =>
      obtain ⟨x, k, hx, hstage, rfl⟩ := hdoes
      exact h.resume config hx hstage frame
  | clientCloses i =>
      obtain rfl := hdoes
      exact h.close i
  | heartbeat i accepted =>
      obtain rfl := hdoes
      exact h.write i accepted
  | dispatch tenantId refusing =>
      obtain ⟨l, rfl⟩ := hdoes
      exact h.foldl_write refusing l
  | onModuleDestroy =>
      obtain rfl := hdoes
      obtain ⟨hsound, hclosers⟩ := h.foldl_close s.connectionClosers
      -- Every closer has been called, so there is none left to clear.
      have hnone : (s.connectionClosers.foldl Realtime.close s).connectionClosers = [] := by
        rw [hclosers, List.filter_eq_nil_iff]
        simp
      refine ⟨hsound.streams, ?_, hsound.listeners, hsound.active, hsound.limit⟩
      rw [← hnone]
      exact hsound.closers

/-! ## The heartbeats -/

/-- No interval outlives its stream. -/
def HeartbeatsOwned (s : Realtime) : Prop :=
  ∀ x ∈ s.streams, x.heartbeat.isRunning = true → x.closed = false

/-- The first frame of a stream that is still open meets backpressure. -/
def FirstFrameRefused (s : Realtime) (a : Act) : Prop :=
  ∃ i x k, a = .resume i .refused ∧ s.streams[i]? = some x ∧ x.stage = .subscribed k ∧
    x.closed = false

/-- A stream may be rewritten if a running heartbeat stays open. -/
theorem HeartbeatsOwned.set (h : HeartbeatsOwned s)
    (hy : y.heartbeat.isRunning = true → y.closed = false) :
    HeartbeatsOwned { s with streams := s.streams.set i y } := by
  intro z hz
  rcases List.mem_or_eq_of_mem_set hz with hz | rfl
  · exact h z hz
  · exact hy

/-- Closing leaves no heartbeat behind. -/
theorem HeartbeatsOwned.close (h : HeartbeatsOwned s) (i : ℕ) : HeartbeatsOwned (s.close i) := by
  rcases hx : s.streams[i]? with _ | x
  · rw [Realtime.close, hx]
    exact h
  cases hopen : x.closed with
  | true => rwa [close_of_closed hx hopen]
  | false =>
      intro z hz
      rw [(close_spec hx hopen).1] at hz
      refine h.set (y := closing x) (fun hrunning => ?_) z hz
      simp [closing] at hrunning

/-- Writing leaves no heartbeat behind. -/
theorem HeartbeatsOwned.write (h : HeartbeatsOwned s) (i : ℕ) (accepted : Bool) :
    HeartbeatsOwned (s.write i accepted) := by
  unfold Realtime.write
  split
  · exact h
  · split
    · exact h.close i
    · exact h

/-- Several streams in turn leave none behind. -/
theorem HeartbeatsOwned.foldl {f : Realtime → ℕ → Realtime}
    (hf : ∀ {s}, HeartbeatsOwned s → ∀ i, HeartbeatsOwned (f s i)) (h : HeartbeatsOwned s)
    (l : List ℕ) : HeartbeatsOwned (l.foldl f s) := by
  induction l generalizing s with
  | nil => exact h
  | cons i l ih => exact ih (hf h i)

/-- Going on leaves none behind, unless the first frame was refused. -/
theorem HeartbeatsOwned.resume (h : HeartbeatsOwned s) (hsound : Sound limit s)
    (config : RealtimeConfig) (hx : s.streams[i]? = some x) {k : ℕ} (hstage : x.stage = .subscribed k)
    {frame : FirstFrame} (hframe : frame = .refused → x.closed = true) :
    HeartbeatsOwned (s.resume config i x k frame) := by
  have hx' := hsound.streams x (List.mem_of_getElem? hx)
  have hunset : x.heartbeat = .unset := (hx'.unset (by simp [hstage])).2
  have hbound : HeartbeatsOwned { s with streams := s.streams.set i (bound x k) } :=
    h.set fun hrunning => by
      rw [bound, hunset] at hrunning
      cases hrunning
  unfold Realtime.resume
  cases hopen : x.closed with
  | true => exact hbound
  | false =>
      cases frame with
      | refused =>
          rw [hframe rfl] at hopen
          cases hopen
      | threw => exact hbound.close i
      | accepted =>
          have hself : (s.streams.set i (bound x k))[i]? = some (bound x k) :=
            List.getElem?_set_self (List.getElem?_eq_some_iff.mp hx).1
          have hwrite : ({ s with streams := s.streams.set i (bound x k) } : Realtime).write i true =
              { s with streams := s.streams.set i (bound x k) } :=
            write_of_open hself hopen (hx'.ended.trans hopen)
          simp only [Bool.false_eq_true, if_false, decide_true, hwrite, startHeartbeat, hself]
          exact hbound.set fun _ => hopen

/-- A step keeps the heartbeats owned unless it is the defect. -/
theorem HeartbeatsOwned.step {config : RealtimeConfig} {a : Act} (h : HeartbeatsOwned s)
    (hsound : Sound limit s) (hframe : ¬ FirstFrameRefused s a) (hstep : step config s a = some t) :
    HeartbeatsOwned t := by
  have hdoes := does_of_step hstep
  cases a with
  | stream tenantId =>
      rcases hdoes with rfl | ⟨-, x, rfl, -, -, hopen⟩
      · exact h
      · intro z hz hrunning
        rcases List.mem_append.mp hz with hz | hz
        · exact h z hz hrunning
        · rwa [List.mem_singleton.mp hz]
  | subscribe i =>
      obtain ⟨x, hx, -, rfl⟩ := hdoes
      have hrunning := h x (List.mem_of_getElem? hx)
      unfold Realtime.addListener
      split
      · exact h.set hrunning
      · exact h.set hrunning
  | subscribeFails i =>
      obtain ⟨x, hx, -, rfl⟩ := hdoes
      have hfailed : HeartbeatsOwned
          { s with streams := s.streams.set i { x with stage := .returned } } :=
        h.set (h x (List.mem_of_getElem? hx))
      exact hfailed.close i
  | resume i frame =>
      obtain ⟨x, k, hx, hstage, rfl⟩ := hdoes
      refine h.resume hsound config hx hstage fun hrefused => ?_
      by_contra hopen
      exact hframe ⟨i, x, k, by rw [hrefused], hx, hstage, by simpa using hopen⟩
  | clientCloses i =>
      obtain rfl := hdoes
      exact h.close i
  | heartbeat i accepted =>
      obtain rfl := hdoes
      exact h.write i accepted
  | dispatch tenantId refusing =>
      obtain ⟨l, rfl⟩ := hdoes
      exact HeartbeatsOwned.foldl (fun hs i => hs.write i _) h l
  | onModuleDestroy =>
      obtain rfl := hdoes
      exact HeartbeatsOwned.foldl (fun hs i => hs.close i) h s.connectionClosers

/-- After the defect, the interval of a closed stream runs. -/
theorem resume_refused (config : RealtimeConfig) (hx : s.streams[i]? = some x)
    (hopen : x.closed = false) (hended : x.ended = false) (k : ℕ) :
    (s.resume config i x k .refused).streams[i]? =
      some { closing (bound x k) with heartbeat := .running config.heartbeatMs } := by
  have hself : (s.streams.set i (bound x k))[i]? = some (bound x k) :=
    List.getElem?_set_self (List.getElem?_eq_some_iff.mp hx).1
  have hwritten : (({ s with streams := s.streams.set i (bound x k) } : Realtime).write i
      false).streams[i]? = some (closing (bound x k)) := getElem?_write hself hopen hended
  have hlt := (List.getElem?_eq_some_iff.mp hwritten).1
  have hrefused : decide (FirstFrame.refused = .accepted) = false := rfl
  simp only [resume, hopen, Bool.false_eq_true, if_false, hrefused, startHeartbeat, hwritten]
  exact List.getElem?_set_self hlt

/-! ## Every run -/

/-- The count is right and within the limit, and a slot is released once, when its stream closes. -/
def Accounted (limit : ℕ) (s : Realtime) : Prop :=
  s.activeConnections = s.streams.countP (fun x => !x.closed) ∧ s.activeConnections ≤ limit ∧
    ∀ x ∈ s.streams, x.released = if x.closed then 1 else 0

/-- The stream is closed and its handler has returned. -/
def IsOver (x : Stream) : Prop := x.closed = true ∧ x.stage = .returned

/-- No set has the listener of the stream, and its closer is not registered. -/
def Forgotten (s : Realtime) (i : ℕ) : Prop :=
  (∀ members ∈ s.sets, i ∉ members) ∧ i ∉ s.connectionClosers

/-- Every stream that is over is forgotten, and its heartbeat does not run. -/
def CleanedUp (s : Realtime) : Prop :=
  ∀ i x, s.streams[i]? = some x → IsOver x → Forgotten s i ∧ x.heartbeat.isRunning = false

/-- What is open is counted. -/
theorem Sound.accounted (h : Sound limit s) : Accounted limit s :=
  ⟨h.active, h.limit, fun x hx => (h.streams x hx).released⟩

/-- A stream that is over is in no list. -/
theorem Sound.forgotten (h : Sound limit s) (hx : s.streams[i]? = some x) (hover : IsOver x) :
    Forgotten s i := by
  constructor
  · intro members hmembers hi
    obtain ⟨k, hk⟩ := List.mem_iff_getElem?.mp hmembers
    obtain ⟨z, hz, hlistens⟩ := h.listeners k members hk i hi
    obtain rfl := Option.some.inj (hx.symm.trans hz)
    rcases hlistens with hstage | ⟨-, hopen, -⟩
    · rw [hover.2] at hstage
      cases hstage
    · rw [hover.1] at hopen
      cases hopen
  · intro hi
    obtain ⟨z, hz, hopen⟩ := (h.closers i).mp hi
    obtain rfl := Option.some.inj (hx.symm.trans hz)
    rw [hover.1] at hopen
    cases hopen

/-- Nothing is left of the streams that are over. -/
theorem Sound.cleanedUp (h : Sound limit s) (hheartbeats : HeartbeatsOwned s) : CleanedUp s := by
  intro i x hx hover
  refine ⟨h.forgotten hx hover, ?_⟩
  by_contra hrunning
  have hopen := hheartbeats x (List.mem_of_getElem? hx) (by simpa using hrunning)
  rw [hover.1] at hopen
  cases hopen

/-- The defect leaves a heartbeat behind. -/
theorem not_cleanedUp {config : RealtimeConfig} {a : Act} (h : Sound limit s)
    (hframe : FirstFrameRefused s a) (hstep : step config s a = some t) : ¬ CleanedUp t := by
  obtain ⟨i, x, k, rfl, hx, hstage, hopen⟩ := hframe
  obtain ⟨y, k', hy, hstage', rfl⟩ := does_of_step hstep
  obtain rfl := Option.some.inj (hx.symm.trans hy)
  have hended := (h.streams x (List.mem_of_getElem? hx)).ended.trans hopen
  intro hclean
  have hrunning := (hclean i _ (resume_refused config hx hopen hended k') ⟨rfl, rfl⟩).2
  cases hrunning

/-- The invariant holds in every state that is reached. -/
theorem sound_of_reaches {config : RealtimeConfig} {G : Realtime → Act → Prop}
    (h : Reaches (step config) G start s) : Sound config.maxConnections s :=
  h.invariant Sound.start fun _ _ _ hs _ hstep => hs.step hstep

/-- No heartbeat is left behind where no first frame is refused. -/
theorem heartbeatsOwned_of_reaches {config : RealtimeConfig}
    (h : Reaches (step config) (fun s a => ¬ FirstFrameRefused s a) start s) : HeartbeatsOwned s := by
  have hboth : Sound config.maxConnections s ∧ HeartbeatsOwned s :=
    h.invariant (P := fun s => Sound config.maxConnections s ∧ HeartbeatsOwned s)
      ⟨Sound.start, fun x hx => by cases hx⟩
      fun _ _ _ hs hframe hstep => ⟨hs.1.step hstep, hs.2.step hs.1 hframe hstep⟩
  exact hboth.2

/-- **The resources of the event streams.** In every run the connections are counted and released as
they should be, and a stream that is over has no listener and no closer; it has no heartbeat either in
exactly the runs in which no open stream meets backpressure at its first frame. -/
theorem stream_resources (config : RealtimeConfig) (acts : List Act) :
    (∀ m ∈ trace (step config) start acts, Accounted config.maxConnections m.2.2 ∧
      ∀ i x, m.2.2.streams[i]? = some x → IsOver x → Forgotten m.2.2 i) ∧
    ((∀ m ∈ trace (step config) start acts,
        Accounted config.maxConnections m.2.2 ∧ CleanedUp m.2.2) ↔
      ∀ m ∈ trace (step config) start acts, ¬ FirstFrameRefused m.1 m.2.1) := by
  have hsound : ∀ m ∈ trace (step config) start acts, Sound config.maxConnections m.1 ∧
      step config m.1 m.2.1 = some m.2.2 := fun m hm => by
    obtain ⟨hreach, hstep⟩ := reaches_of_mem_trace (G := fun _ _ => True) hm fun _ _ => trivial
    exact ⟨sound_of_reaches hreach, hstep⟩
  refine ⟨fun m hm => ?_, fun h m hm hframe => ?_, fun h m hm => ?_⟩
  · obtain ⟨hm, hstep⟩ := hsound m hm
    exact ⟨(hm.step hstep).accounted, fun i x hx hover => (hm.step hstep).forgotten hx hover⟩
  · obtain ⟨hsound, hstep⟩ := hsound m hm
    exact not_cleanedUp hsound hframe hstep (h m hm).2
  · obtain ⟨hreach, hstep⟩ :=
      reaches_of_mem_trace (G := fun s a => ¬ FirstFrameRefused s a) hm h
    have hm' := sound_of_reaches hreach
    have hheartbeats := (heartbeatsOwned_of_reaches hreach).step hm' (h m hm) hstep
    exact ⟨(hm'.step hstep).accounted, (hm'.step hstep).cleanedUp hheartbeats⟩

/-- A stream whose handler is about to go on. -/
def waiting : Stream where
  tenantId := []
  stage := .subscribed 0
  closed := false
  unsubscribe := none
  heartbeat := .unset
  ended := false
  released := 0

/-- The first frame of the only stream meets backpressure. -/
theorem heartbeat_left_behind :
    ¬ ∀ config acts, ∀ m ∈ trace (step config) start acts,
      Accounted config.maxConnections m.2.2 ∧ CleanedUp m.2.2 := by
  intro h
  have hmem := h ⟨none, none⟩ [.stream [], .subscribe 0, .resume 0 .refused] _
    (List.mem_of_getElem? (i := 2) rfl)
  have hrunning :=
    (hmem.2 0 _ (resume_refused ⟨none, none⟩ (x := waiting) rfl rfl rfl 0) ⟨rfl, rfl⟩).2
  cases hrunning

end Realtime

end ApiWhatsApp
