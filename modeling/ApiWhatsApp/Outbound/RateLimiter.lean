import ApiWhatsApp.Library.KeyStore
import ApiWhatsApp.Library.Machine
import ApiWhatsApp.Outbound.Queue

/-!
# The distributed rate limiter

`worker/distributed-rate-limiter.service.ts`: any number of `waitForOutboundSlot` loops for one phone
number, on any workers, against one Redis.

* `reserveSlot` is the Lua script, command by command; `totalKey` and `classKey` are its keys.
* `RateLimiter` is the machine. A loop reads the clock, and its script runs later, atomically, but
  less than a second after that (the guard of `Act.script`); its reply may be lost and the command
  may be sent again. The history `ran` records every script that has run.
* A script for the window `w` runs before `deadline w`, so the two seconds of a key's life, which
  begin with the window at the earliest, outlast it. `Tallied` is the invariant: until then the
  counters of the window hold what was accepted.
* **`rate_limit`** — the result, for every second and every interleaving.
-/

namespace ApiWhatsApp

open Library

/-! ## Limits -/

/-- The environment variables that the limiter reads, for limits computed in `ar`. -/
structure RateLimitConfig (ar : Arithmetic) where
  /-- `DEFAULT_OUTBOUND_RATE_LIMIT_PER_SECOND`. -/
  defaultLimit : Option String
  /-- `OUTBOUND_PRIORITY_RESERVATION_WINDOW_MS`. -/
  reservationWindow : Option String
  /-- `OUTBOUND_TRANSACTIONAL_MAX_SHARE`. -/
  transactionalShare : Option String
  /-- `OUTBOUND_MARKETING_MAX_SHARE`. -/
  marketingShare : Option String

/-- `Number(this.config.get(name) ?? fallback)`; `none` when it is not finite. -/
def configNumber (ar : Arithmetic) (raw : Option String) (fallback : ℚ) : Option ℚ :=
  match raw with
  | some text => ar.number text
  | none => some (ar.round fallback)

namespace RateLimitConfig

variable {ar : Arithmetic}

/-- The limit of a sender. -/
def limit (config : RateLimitConfig ar) (configuredLimit : Option ℚ) : ℕ :=
  match configuredLimit.or (configNumber ar config.defaultLimit 75) with
  | some candidate => if 0 < candidate then max 1 ⌊candidate⌋₊ else 75
  | none => 75

/-- Source: `reservationWindowMs`. -/
def reservationWindowMs (config : RateLimitConfig ar) : ℕ :=
  match configNumber ar config.reservationWindow 700 with
  | some value => if 0 ≤ value ∧ value ≤ 950 then ⌊value⌋₊ else 700
  | none => 700

/-- Source: `share`. -/
def share (ar : Arithmetic) (raw : Option String) (fallback : ℚ) : ℚ :=
  match configNumber ar raw fallback with
  | some value => if 0 < value ∧ value ≤ 1 then value else ar.round fallback
  | none => ar.round fallback

/-- Source: `reservationShares`: transactional and marketing. -/
def reservationShares (config : RateLimitConfig ar) : ℚ × ℚ :=
  let transactional := share ar config.transactionalShare (6 / 10)
  let marketing := share ar config.marketingShare (2 / 10)
  -- At least a tenth is left for one-time passwords.
  if ar.round (9 / 10) < ar.round (transactional + marketing) then
    (ar.round (6 / 10), ar.round (2 / 10))
  else (transactional, marketing)

/-- Source: `reservedClassLimit`. -/
def reservedClassLimit (config : RateLimitConfig ar) (limit : ℕ) : MessageTrafficClass → ℕ
  | .otp => limit
  | .transactional => max 1 ⌊ar.round (limit * config.reservationShares.1)⌋₊
  | .marketing => max 1 ⌊ar.round (limit * config.reservationShares.2)⌋₊

end RateLimitConfig

/-! ## The script -/

/-- `trafficClass.toLowerCase()`. -/
def classSuffix : MessageTrafficClass → String
  | .otp => "otp"
  | .transactional => "transactional"
  | .marketing => "marketing"

/-- What the keys of a phone number begin with. -/
def phoneKey (phoneNumberId : String) : String := "rate:whatsapp:outbound:" ++ phoneNumberId ++ ":"

/-- The key of a window's total. -/
def totalKey (phoneNumberId : String) (window : ℕ) : String :=
  phoneKey phoneNumberId ++ toString window

/-- The key of a window's traffic class. -/
def classKey (phoneNumberId : String) (window : ℕ) (trafficClass : MessageTrafficClass) : String :=
  phoneKey phoneNumberId ++ toString window ++ ":" ++ classSuffix trafficClass

/-- Source: `RESERVE_SLOT_LUA`. -/
def reserveSlot (redis : KeyStore String) (now : Time) (key₁ key₂ : String)
    (totalLimit classLimit ttl : ℕ) : KeyStore String × Bool :=
  let total := redis.get now key₁
  let classCurrent := redis.get now key₂
  if totalLimit ≤ total ∨ classLimit ≤ classCurrent then (redis, false)
  else
    let (redis, newTotal) := redis.incr now key₁
    let (redis, newClass) := redis.incr now key₂
    let redis := redis.expireNew now key₁ ttl newTotal
    let redis := redis.expireNew now key₂ ttl newClass
    (redis, true)

/-- What an accepted script leaves: both counters one higher, every other key as it was. -/
theorem reserveSlot_accepted {redis redis' : KeyStore String} {now : Time} {key₁ key₂ : String}
    {totalLimit classLimit ttl : ℕ} (hne : key₁ ≠ key₂)
    (h : reserveSlot redis now key₁ key₂ totalLimit classLimit ttl = (redis', true)) :
    redis.get now key₁ < totalLimit ∧ redis.get now key₂ < classLimit ∧
      redis' key₁ = some (redis.counted now key₁ ttl) ∧
      redis' key₂ = some (redis.counted now key₂ ttl) ∧
      ∀ key, key ≠ key₁ → key ≠ key₂ → redis' key = redis key := by
  unfold reserveSlot at h
  dsimp only [KeyStore.incr] at h
  split_ifs at h with hfull
  · cases h
  obtain ⟨htotal, hclass⟩ := not_or.mp hfull
  obtain rfl := (Prod.mk.inj h).1
  -- The two counters after the increments, before any expiry is set.
  set redis₁ : KeyStore String := Function.update redis key₁ (some (redis.incremented now key₁)) with hredis₁
  set redis₂ : KeyStore String := Function.update redis₁ key₂ (some (redis₁.incremented now key₂)) with hredis₂
  have hsame : redis₁ key₂ = redis key₂ := Function.update_of_ne hne.symm ..
  have hone : redis₂ key₁ = some (redis.incremented now key₁) := by
    rw [hredis₂, Function.update_of_ne hne, hredis₁, Function.update_self]
  have htwo : redis₂ key₂ = some (redis.incremented now key₂) := by
    rw [hredis₂, Function.update_self, KeyStore.incremented_congr hsame]
  rw [KeyStore.get_congr hsame]
  refine ⟨Nat.lt_of_not_le htotal, Nat.lt_of_not_le hclass, ?_, ?_, ?_⟩
  · rw [KeyStore.expireNew_of_ne hne]
    exact KeyStore.expireNew_self hone
  · refine KeyStore.expireNew_self ?_
    rw [KeyStore.expireNew_of_ne hne.symm, htwo]
  · intro key h₁ h₂
    rw [KeyStore.expireNew_of_ne h₂, KeyStore.expireNew_of_ne h₁, hredis₂,
      Function.update_of_ne h₂, hredis₁, Function.update_of_ne h₁]

/-- A refused script leaves the store as it is. -/
theorem reserveSlot_refused {redis redis' : KeyStore String} {now : Time} {key₁ key₂ : String}
    {totalLimit classLimit ttl : ℕ}
    (h : reserveSlot redis now key₁ key₂ totalLimit classLimit ttl = (redis', false)) :
    redis' = redis := by
  unfold reserveSlot at h
  dsimp only at h
  split_ifs at h with hfull
  · exact (Prod.mk.inj h).1.symm
  · cases h

/-! ### Keys -/

/-- A total has its own key in every window. -/
theorem totalKey_inj {phoneNumberId : String} {w w' : ℕ}
    (h : totalKey phoneNumberId w = totalKey phoneNumberId w') : w = w' := by
  have hlist := congrArg String.toList h
  simp only [totalKey, String.toList_append, List.append_cancel_left_eq] at hlist
  exact toString_nat_inj hlist

/-- A total never shares a key with a class. -/
theorem totalKey_ne_classKey (phoneNumberId : String) (w w' : ℕ) (c : MessageTrafficClass) :
    totalKey phoneNumberId w ≠ classKey phoneNumberId w' c := by
  intro h
  have hlist := congrArg String.toList h
  simp only [totalKey, classKey, String.toList_append, List.append_assoc,
    List.append_cancel_left_eq] at hlist
  have hcolon : ':' ∈ (toString w).toList := by
    rw [hlist]
    simp
  exact notMem_toString_nat rfl w hcolon

/-- A class has its own key in every window. -/
theorem classKey_inj {phoneNumberId : String} {w w' : ℕ} {c c' : MessageTrafficClass}
    (h : classKey phoneNumberId w c = classKey phoneNumberId w' c') : w = w' ∧ c = c' := by
  have hlist : (toString w).toList ++ ':' :: (classSuffix c).toList =
      (toString w').toList ++ ':' :: (classSuffix c').toList := by
    have htext := congrArg String.toList h
    simpa [classKey] using htext
  have hwindow : (toString w).toList = (toString w').toList := by
    have hbefore := congrArg (List.takeWhile fun c => c ≠ ':') hlist
    rwa [takeWhile_toString_nat rfl, takeWhile_toString_nat rfl] at hbefore
  rw [hwindow] at hlist
  have hsuffix := (List.cons.inj (List.append_cancel_left hlist)).2
  refine ⟨toString_nat_inj hwindow, ?_⟩
  revert hsuffix
  cases c <;> cases c' <;> decide

/-! ## The loops -/

/-- What all loops have in common: one phone number under one limit. -/
structure RateEnv (ar : Arithmetic) where
  config : RateLimitConfig ar
  phoneNumberId : String
  configuredLimit : Option ℚ

namespace RateEnv

variable {ar : Arithmetic}

/-- The limit of the phone number. -/
def limit (env : RateEnv ar) : ℕ := env.config.limit env.configuredLimit

/-- The limit of a class in the reservation phase. -/
def reserved (env : RateEnv ar) (trafficClass : MessageTrafficClass) : ℕ :=
  env.config.reservedClassLimit env.limit trafficClass

/-- Whether a loop that read the clock at this time may borrow from the other classes. -/
def canBorrow (env : RateEnv ar) (now : Time) : Bool := env.config.reservationWindowMs ≤ now % 1000

/-- The limit that its script is given for its class. -/
def classLimit (env : RateEnv ar) (now : Time) (trafficClass : MessageTrafficClass) : ℕ :=
  if env.canBorrow now then env.limit else env.reserved trafficClass

/-- How long it waits when it is refused. -/
def delayMs (env : RateEnv ar) (now : Time) : ℕ :=
  let elapsed := now % 1000
  let reservationWindowMs := env.config.reservationWindowMs
  if elapsed < reservationWindowMs then max 25 (reservationWindowMs - elapsed + 5)
  else max 25 (1000 - elapsed + 5)

end RateEnv

/-- Where a loop stands. -/
inductive SlotStage where
  /-- At `ensureConnected`. -/
  | connecting
  /-- The script is on its way, with the clock as it was read. -/
  | evaluating (now : Time)
  | sleeping (due : Time)
  | returned
  | thrown

/-- A call of `waitForOutboundSlot`. -/
structure SlotCall where
  trafficClass : MessageTrafficClass
  stage : SlotStage

/-- A script that has run. -/
structure Reservation where
  window : ℕ
  trafficClass : MessageTrafficClass
  canBorrow : Bool
  accepted : Bool
  deriving DecidableEq

/-- What becomes of the reply of a script. -/
inductive Reply where
  | delivered
  /-- The call throws. -/
  | lost
  /-- The client sends the command again. -/
  | resent

/-- Redis, the clock and all loops. -/
structure RateLimiter where
  redis : KeyStore String
  clock : Time
  calls : List SlotCall
  /-- History: the scripts that have run, the last one first. -/
  ran : List Reservation

namespace RateLimiter

/-- One move. -/
inductive Act where
  | tick (elapsed : Time)
  | begin (trafficClass : MessageTrafficClass)
  /-- `ensureConnected` returns and the clock is read. -/
  | read (i : ℕ)
  /-- The script of a loop runs. -/
  | script (i : ℕ) (reply : Reply)
  /-- Redis is not reached: `ensureConnected` or the command throws. -/
  | fail (i : ℕ)
  /-- The timer of a refused loop fires. -/
  | wake (i : ℕ)

/-- An empty Redis and no loop. -/
def start (clock : Time) : RateLimiter where
  redis := fun _ => none
  clock := clock
  calls := []
  ran := []

/-- Where a loop goes with the answer of its script. -/
def afterScript (env : RateEnv ar) (clock now : Time) (accepted : Bool) : Reply → SlotStage
  | .delivered => if accepted then .returned else .sleeping (clock + env.delayMs now)
  | .lost => .thrown
  | .resent => .evaluating now

/-- The script of a loop that read the clock at `now`, run at the time of the state. -/
def runScript (env : RateEnv ar) (s : RateLimiter) (now : Time) (trafficClass : MessageTrafficClass) :
    KeyStore String × Bool :=
  reserveSlot s.redis s.clock (totalKey env.phoneNumberId (now / 1000))
    (classKey env.phoneNumberId (now / 1000) trafficClass) env.limit
    (env.classLimit now trafficClass) 2000

/-- One step. A script runs less than a second after the clock was read. -/
def step (env : RateEnv ar) (s : RateLimiter) : Act → Option RateLimiter
  | .tick elapsed => some { s with clock := s.clock + elapsed }
  | .begin trafficClass =>
      some { s with calls := s.calls ++ [{ trafficClass := trafficClass, stage := .connecting }] }
  | .read i =>
      s.calls[i]?.bind fun call =>
        match call.stage with
        | .connecting =>
            some { s with calls := s.calls.set i { call with stage := .evaluating s.clock } }
        | _ => none
  | .script i reply =>
      s.calls[i]?.bind fun call =>
        match call.stage with
        | .evaluating now =>
            if s.clock < now + 1000 then
              let (redis, accepted) := s.runScript env now call.trafficClass
              let call' := { call with stage := afterScript env s.clock now accepted reply }
              let reservation : Reservation :=
                { window := now / 1000, trafficClass := call.trafficClass,
                  canBorrow := env.canBorrow now, accepted := accepted }
              some { s with
                redis := redis
                calls := s.calls.set i call'
                ran := reservation :: s.ran }
            else none
        | _ => none
  | .fail i =>
      s.calls[i]?.bind fun call =>
        match call.stage with
        | .connecting | .evaluating _ =>
            some { s with calls := s.calls.set i { call with stage := .thrown } }
        | _ => none
  | .wake i =>
      s.calls[i]?.bind fun call =>
        match call.stage with
        | .sleeping due =>
            if due ≤ s.clock then
              some { s with calls := s.calls.set i { call with stage := .connecting } }
            else none
        | _ => none

/-! ## What has been accepted -/

/-- The reservations accepted for a window. -/
def accepted (s : RateLimiter) (window : ℕ) : ℕ :=
  s.ran.countP fun r => r.accepted && r.window = window

/-- Those of a traffic class. -/
def acceptedOf (s : RateLimiter) (window : ℕ) (trafficClass : MessageTrafficClass) : ℕ :=
  s.ran.countP fun r => r.accepted && r.window = window && r.trafficClass = trafficClass

/-- Those of a traffic class whose loop was in the reservation phase. -/
def acceptedReserved (s : RateLimiter) (window : ℕ) (trafficClass : MessageTrafficClass) : ℕ :=
  s.ran.countP fun r =>
    (r.accepted && r.window = window && r.trafficClass = trafficClass) && !r.canBorrow

/-- Every reservation is of one of the three classes. -/
theorem accepted_eq_sum (s : RateLimiter) (window : ℕ) :
    s.accepted window = s.acceptedOf window .otp + s.acceptedOf window .transactional +
      s.acceptedOf window .marketing := by
  unfold accepted acceptedOf
  induction s.ran with
  | nil => rfl
  | cons r ran ih =>
      simp only [List.countP_cons, ih]
      obtain ⟨w, c, b, a⟩ := r
      cases c <;> simp <;> split_ifs <;> omega

/-- A script for the window can still run: some loop may have read the clock in that second. -/
def CanRun (s : RateLimiter) (window : ℕ) : Prop :=
  ∃ readAt : Time, readAt / 1000 = window ∧ s.clock < readAt + 1000

/-- No script for the window runs from here on. -/
def deadline (window : ℕ) : Time := 1000 * window + 1999

/-- What runs in a window runs before its deadline. -/
theorem CanRun.lt_deadline {s : RateLimiter} {window : ℕ} (h : s.CanRun window) :
    s.clock < deadline window := by
  obtain ⟨readAt, rfl, hclock⟩ := h
  have hsecond : ∀ n : ℕ, n + 1000 ≤ 1000 * (n / 1000) + 1999 := fun n => by omega
  exact lt_of_lt_of_le hclock (hsecond readAt)

/-- The counters of a window hold what was accepted, and do so until no script for it can run. -/
structure Tallied (env : RateEnv ar) (s : RateLimiter) (window : ℕ) : Prop where
  total : s.redis.Counts (totalKey env.phoneNumberId window) (deadline window) (s.accepted window)
  classes : ∀ trafficClass, s.redis.Counts (classKey env.phoneNumberId window trafficClass)
    (deadline window) (s.acceptedOf window trafficClass)

/-- The invariant. -/
structure Inv (env : RateEnv ar) (s : RateLimiter) : Prop where
  read : ∀ (i : ℕ) (call : SlotCall) (now : Time), s.calls[i]? = some call → call.stage = .evaluating now → now ≤ s.clock
  tallied : ∀ window, s.clock < deadline window → s.Tallied env window
  total : ∀ window, s.accepted window ≤ env.limit
  reserved : ∀ window trafficClass,
    s.acceptedReserved window trafficClass ≤ env.reserved trafficClass

/-- At the start nothing is counted. -/
theorem inv_start (env : RateEnv ar) (clock : Time) : Inv env (start clock) where
  read := fun i call now h _ => by simp [start] at h
  tallied := fun window _ => ⟨.inl ⟨rfl, rfl⟩, fun _ => .inl ⟨rfl, rfl⟩⟩
  total := fun window => Nat.zero_le _
  reserved := fun window trafficClass => Nat.zero_le _

/-! ## Steps -/

variable {env : RateEnv ar} {s s' : RateLimiter} {a : Act}

/-- **What a step can do**: run the script of a loop, or leave Redis and the history alone. -/
theorem step_moves (h : s.step env a = some s') :
    (s'.redis = s.redis ∧ s'.ran = s.ran ∧ s.clock ≤ s'.clock) ∨
      ∃ (i : ℕ) (call : SlotCall) (now : Time), s.calls[i]? = some call ∧ call.stage = .evaluating now ∧
        s.clock < now + 1000 ∧
        s'.clock = s.clock ∧ s'.redis = (s.runScript env now call.trafficClass).1 ∧
        s'.ran = { window := now / 1000, trafficClass := call.trafficClass,
                   canBorrow := env.canBorrow now,
                   accepted := (s.runScript env now call.trafficClass).2 } :: s.ran := by
  cases a with
  | tick elapsed =>
      cases h
      exact .inl ⟨rfl, rfl, Nat.le_add_right _ _⟩
  | begin trafficClass =>
      cases h
      exact .inl ⟨rfl, rfl, le_rfl⟩
  | read i | fail i =>
      obtain ⟨call, -, h⟩ := Option.bind_eq_some_iff.mp h
      split at h <;> cases h <;> exact .inl ⟨rfl, rfl, le_rfl⟩
  | wake i =>
      obtain ⟨call, -, h⟩ := Option.bind_eq_some_iff.mp h
      split at h
      · obtain ⟨-, h⟩ := Option.ite_none_right_eq_some.mp h
        cases h
        exact .inl ⟨rfl, rfl, le_rfl⟩
      · cases h
  | script i reply =>
      obtain ⟨call, hcall, h⟩ := Option.bind_eq_some_iff.mp h
      split at h
      · rename_i now hstage
        obtain ⟨hclock, h⟩ := Option.ite_none_right_eq_some.mp h
        cases h
        exact .inr ⟨i, call, now, hcall, hstage, hclock, rfl, rfl, rfl⟩
      · cases h

/-- A loop that waits for its script has just read the clock, or was there before. -/
theorem evaluating_step (h : s.step env a = some s') {j : ℕ} {call' : SlotCall} {now : Time}
    (hcall' : s'.calls[j]? = some call') (hstage' : call'.stage = .evaluating now) :
    s.clock ≤ s'.clock ∧
      (now = s.clock ∨ ∃ (i : ℕ) (call : SlotCall),
        s.calls[i]? = some call ∧ call.stage = .evaluating now) := by
  cases a with
  | tick elapsed =>
      cases h
      exact ⟨Nat.le_add_right _ _, .inr ⟨j, call', hcall', hstage'⟩⟩
  | begin trafficClass =>
      cases h
      refine ⟨le_rfl, .inr ?_⟩
      rcases getElem?_append_cases hcall' with ⟨-, rfl⟩ | hcall
      · cases hstage'
      · exact ⟨j, call', hcall, hstage'⟩
  | read i =>
      obtain ⟨call, -, h⟩ := Option.bind_eq_some_iff.mp h
      split at h <;> cases h
      refine ⟨le_rfl, ?_⟩
      rcases getElem?_set_cases hcall' with ⟨-, rfl⟩ | ⟨-, hcall⟩
      · exact .inl (SlotStage.evaluating.inj hstage').symm
      · exact .inr ⟨j, call', hcall, hstage'⟩
  | fail i =>
      obtain ⟨call, -, h⟩ := Option.bind_eq_some_iff.mp h
      split at h <;> cases h <;> refine ⟨le_rfl, .inr ?_⟩ <;>
        rcases getElem?_set_cases hcall' with ⟨-, rfl⟩ | ⟨-, hcall⟩
      all_goals first
        | exact ⟨j, call', hcall, hstage'⟩
        | cases hstage'
  | wake i =>
      obtain ⟨call, -, h⟩ := Option.bind_eq_some_iff.mp h
      split at h
      · obtain ⟨-, h⟩ := Option.ite_none_right_eq_some.mp h
        cases h
        refine ⟨le_rfl, .inr ?_⟩
        rcases getElem?_set_cases hcall' with ⟨-, rfl⟩ | ⟨-, hcall⟩
        · cases hstage'
        · exact ⟨j, call', hcall, hstage'⟩
      · cases h
  | script i reply =>
      obtain ⟨call, hcall, h⟩ := Option.bind_eq_some_iff.mp h
      split at h
      · rename_i readAt hstage
        obtain ⟨-, h⟩ := Option.ite_none_right_eq_some.mp h
        cases h
        refine ⟨le_rfl, .inr ?_⟩
        rcases getElem?_set_cases hcall' with ⟨-, rfl⟩ | ⟨-, hother⟩
        · -- A command that is sent again keeps the clock it was sent with.
          refine ⟨i, call, hcall, ?_⟩
          rw [← hstage', hstage]
          cases reply with
          | resent => rfl
          | lost => cases hstage'
          | delivered =>
              dsimp only [afterScript] at hstage'
              split_ifs at hstage'
        · exact ⟨j, call', hother, hstage'⟩
      · cases h

/-- The counts after a script. -/
theorem accepted_cons {r : Reservation} (hran : s'.ran = r :: s.ran) (window : ℕ) :
    s'.accepted window = s.accepted window + if r.accepted && r.window = window then 1 else 0 := by
  unfold accepted
  rw [hran, List.countP_cons]

/-- One more reservation of the class. -/
theorem acceptedOf_cons {r : Reservation} (hran : s'.ran = r :: s.ran) (window : ℕ)
    (trafficClass : MessageTrafficClass) :
    s'.acceptedOf window trafficClass = s.acceptedOf window trafficClass +
      if r.accepted && r.window = window && r.trafficClass = trafficClass then 1 else 0 := by
  unfold acceptedOf
  rw [hran, List.countP_cons]

/-- One more reservation of the class in the reservation phase. -/
theorem acceptedReserved_cons {r : Reservation} (hran : s'.ran = r :: s.ran) (window : ℕ)
    (trafficClass : MessageTrafficClass) :
    s'.acceptedReserved window trafficClass = s.acceptedReserved window trafficClass +
      if (r.accepted && r.window = window && r.trafficClass = trafficClass) && !r.canBorrow then 1
      else 0 := by
  unfold acceptedReserved
  rw [hran, List.countP_cons]

/-- What is accepted in the reservation phase is accepted. -/
theorem acceptedReserved_le (s : RateLimiter) (window : ℕ) (trafficClass : MessageTrafficClass) :
    s.acceptedReserved window trafficClass ≤ s.acceptedOf window trafficClass :=
  List.countP_mono_left fun _ _ h => (Bool.and_eq_true_iff.mp h).1

/-- A script runs in its window or the second after it. -/
theorem window_of_script {clock now : Time} (hread : now ≤ clock) (hclock : clock < now + 1000) :
    1000 * (now / 1000) ≤ clock ∧ clock < deadline (now / 1000) := by
  have hsecond : ∀ n m : ℕ, n ≤ m → m < n + 1000 →
      1000 * (n / 1000) ≤ m ∧ m < 1000 * (n / 1000) + 1999 := fun n m h₁ h₂ => by omega
  exact hsecond now clock hread hclock

/-- **A script keeps the counters.** -/
theorem Tallied.script {env : RateEnv ar} {s s' : RateLimiter} {now : Time}
    {trafficClass : MessageTrafficClass} {window : ℕ} (hs : s.Tallied env window)
    (hread : now ≤ s.clock) (hclock : s.clock < now + 1000)
    (hredis : s'.redis = (s.runScript env now trafficClass).1)
    (hran : s'.ran = { window := now / 1000, trafficClass := trafficClass,
                       canBorrow := env.canBorrow now,
                       accepted := (s.runScript env now trafficClass).2 } :: s.ran) :
    s'.Tallied env window := by
  obtain ⟨hlow, hhigh⟩ := window_of_script hread hclock
  rcases hrun : s.runScript env now trafficClass with ⟨redis, accepted⟩
  rw [hrun] at hredis hran
  dsimp only at hredis hran
  cases accepted with
  | false =>
      have hsame := reserveSlot_refused hrun
      refine ⟨?_, fun c => ?_⟩
      · rw [accepted_cons hran, hredis, hsame]
        simpa using hs.total
      · rw [acceptedOf_cons hran, hredis, hsame]
        simpa using hs.classes c
  | true =>
      obtain ⟨-, -, htotal, hclass, hother⟩ :=
        reserveSlot_accepted (totalKey_ne_classKey _ _ _ _) hrun
      have httl : deadline (now / 1000) ≤ s.clock + 2000 := Nat.add_le_add hlow (by decide)
      refine ⟨?_, fun c => ?_⟩
      · rw [accepted_cons hran, hredis]
        by_cases hw : now / 1000 = window
        · subst hw
          simpa using hs.total.incr hhigh.le httl htotal
        · simp only [hw, decide_false, Bool.and_false, Bool.false_eq_true, if_false, Nat.add_zero]
          refine hs.total.congr (hother _ ?_ (totalKey_ne_classKey _ _ _ _))
          exact fun heq => hw (totalKey_inj heq).symm
      · rw [acceptedOf_cons hran, hredis]
        by_cases hw : now / 1000 = window ∧ trafficClass = c
        · obtain ⟨rfl, rfl⟩ := hw
          simpa using (hs.classes trafficClass).incr hhigh.le httl hclass
        · have hnot : (decide (now / 1000 = window) && decide (trafficClass = c)) = false := by
            simpa using hw
          rw [Bool.and_assoc, hnot, Bool.and_false, if_neg Bool.false_ne_true, Nat.add_zero]
          refine (hs.classes c).congr (hother _ (totalKey_ne_classKey _ _ _ _).symm ?_)
          exact fun heq => hw ⟨(classKey_inj heq).1.symm, (classKey_inj heq).2.symm⟩

/-- An accepted script has found room in its window and its class. -/
theorem Tallied.room {env : RateEnv ar} {s : RateLimiter} {now : Time}
    {trafficClass : MessageTrafficClass} (hs : s.Tallied env (now / 1000)) (hread : now ≤ s.clock)
    (hclock : s.clock < now + 1000) (haccepted : (s.runScript env now trafficClass).2 = true) :
    s.accepted (now / 1000) < env.limit ∧
      s.acceptedOf (now / 1000) trafficClass < env.classLimit now trafficClass := by
  have hhigh := (window_of_script hread hclock).2
  have hrun : s.runScript env now trafficClass =
      ((s.runScript env now trafficClass).1, true) := by rw [← haccepted]
  obtain ⟨htotal, hclass, -⟩ := reserveSlot_accepted (totalKey_ne_classKey _ _ _ _) hrun
  rw [hs.total.get hhigh.le] at htotal
  rw [(hs.classes trafficClass).get hhigh.le] at hclass
  exact ⟨htotal, hclass⟩

/-- **Every step keeps the invariant.** -/
theorem Inv.step (hs : Inv env s) (h : s.step env a = some s') : Inv env s' := by
  have hread : ∀ (j : ℕ) (call' : SlotCall) (now : Time), s'.calls[j]? = some call' →
      call'.stage = .evaluating now → now ≤ s'.clock := by
    intro j call' now hcall' hstage'
    obtain ⟨hle, rfl | ⟨i, call, hcall, hstage⟩⟩ := evaluating_step h hcall' hstage'
    · exact hle
    · exact (hs.read i call now hcall hstage).trans hle
  rcases step_moves h with ⟨hredis, hran, hclock⟩ |
    ⟨i, call, now, hcall, hstage, hlate, hclock, hredis, hran⟩
  · have hsame : ∀ window, s.Tallied env window → s'.Tallied env window := fun window ht => by
      refine ⟨?_, fun c => ?_⟩
      · rw [hredis, accepted, hran]
        exact ht.total
      · rw [hredis, acceptedOf, hran]
        exact ht.classes c
    refine ⟨hread, fun window hw => hsame window (hs.tallied window (hclock.trans_lt hw)), ?_, ?_⟩
    · intro window
      rw [accepted, hran]
      exact hs.total window
    · intro window c
      rw [acceptedReserved, hran]
      exact hs.reserved window c
  · have hpast := hs.read i call now hcall hstage
    have htallied := hs.tallied (now / 1000) (window_of_script hpast hlate).2
    refine ⟨hread, fun window hw => ?_, fun window => ?_, fun window c => ?_⟩
    · rw [hclock] at hw
      exact (hs.tallied window hw).script hpast hlate hredis hran
    · rw [accepted_cons hran]
      split_ifs with hnew
      · obtain ⟨haccepted, hwindow⟩ := Bool.and_eq_true_iff.mp hnew
        obtain rfl := of_decide_eq_true hwindow
        exact (htallied.room hpast hlate haccepted).1
      · exact hs.total window
    · rw [acceptedReserved_cons hran]
      split_ifs with hnew
      · simp only [Bool.and_eq_true, decide_eq_true_eq, Bool.not_eq_true'] at hnew
        obtain ⟨⟨⟨haccepted, rfl⟩, rfl⟩, hborrow⟩ := hnew
        have hroom := (htallied.room hpast hlate haccepted).2
        rw [RateEnv.classLimit, hborrow, if_neg Bool.false_ne_true] at hroom
        exact (Nat.succ_le_succ (s.acceptedReserved_le _ _)).trans hroom
      · exact hs.reserved window c

/-! ## The limit -/

/-- What holds of one second. -/
structure Limited (env : RateEnv ar) (s : RateLimiter) (window : ℕ) : Prop where
  /-- No more reservations than the limit. -/
  total : s.accepted window ≤ env.limit
  /-- In the reservation phase no class has more than its share. -/
  phase : ∀ trafficClass, s.acceptedReserved window trafficClass ≤ env.reserved trafficClass
  /-- So while every caller of a class has been in that phase, the class has no more than that. -/
  reserved : ∀ trafficClass,
    (∀ r ∈ s.ran, r.window = window → r.trafficClass = trafficClass → r.canBorrow = false) →
    s.acceptedOf window trafficClass ≤ env.reserved trafficClass
  /-- The counters of a window that can still be used have not been reset. -/
  counters : s.CanRun window →
    s.redis.get s.clock (totalKey env.phoneNumberId window) = s.accepted window ∧
      s.redis.get s.clock (totalKey env.phoneNumberId window) =
        s.redis.get s.clock (classKey env.phoneNumberId window .otp) +
          s.redis.get s.clock (classKey env.phoneNumberId window .transactional) +
          s.redis.get s.clock (classKey env.phoneNumberId window .marketing)

/-- Without borrowing everything was accepted in the reservation phase. -/
theorem acceptedOf_eq_acceptedReserved {window : ℕ} {trafficClass : MessageTrafficClass}
    (h : ∀ r ∈ s.ran, r.window = window → r.trafficClass = trafficClass → r.canBorrow = false) :
    s.acceptedOf window trafficClass = s.acceptedReserved window trafficClass := by
  refine List.countP_congr fun r hr => ?_
  simp only [Bool.and_eq_true, decide_eq_true_eq, Bool.not_eq_true']
  constructor
  · rintro ⟨⟨haccepted, hwindow⟩, hclass⟩
    exact ⟨⟨⟨haccepted, hwindow⟩, hclass⟩, h r hr hwindow hclass⟩
  · exact fun hnew => hnew.1

/-- **The rate limit.** For every interleaving of the loops of one phone number and every second. -/
theorem rate_limit {env : RateEnv .double} {clock : Time} {s : RateLimiter}
    (h : Reachable (step env) (start clock) s) (window : ℕ) : s.Limited env window := by
  have hinv : Inv env s := h.invariant (inv_start env clock) fun _ _ _ hs _ hstep => hs.step hstep
  refine ⟨hinv.total window, hinv.reserved window, ?_, ?_⟩
  · intro trafficClass hphase
    rw [acceptedOf_eq_acceptedReserved hphase]
    exact hinv.reserved window trafficClass
  · intro hcan
    have hbefore := hcan.lt_deadline
    have htallied := hinv.tallied window hbefore
    rw [htallied.total.get hbefore.le, (htallied.classes .otp).get hbefore.le,
      (htallied.classes .transactional).get hbefore.le, (htallied.classes .marketing).get hbefore.le]
    exact ⟨rfl, s.accepted_eq_sum window⟩

/-- A sender that may send two messages a second. -/
def sampleEnv (ar : Arithmetic) : RateEnv ar where
  config :=
    { defaultLimit := none, reservationWindow := none, transactionalShare := none,
      marketingShare := none }
  phoneNumberId := "p"
  configuredLimit := some 2

/-- Two marketing messages in the reservation phase, and a one-time password after it. -/
def sampleActs : List Act :=
  [.begin .marketing, .begin .marketing, .begin .otp, .read 0, .read 1, .script 0 .delivered,
    .script 1 .delivered, .tick 600, .read 2, .script 2 .delivered]

/-- The second marketing message is refused, the password is not. -/
theorem rate_limit_sample : ∃ s, exec (step (sampleEnv .double)) (start 100) sampleActs = some s ∧
    s.accepted 0 = 2 ∧ s.acceptedOf 0 .marketing = 1 ∧ s.ran.length = 3 ∧ s.Limited (sampleEnv .double) 0 := by
  have hcounts : (exec (step (sampleEnv .double)) (start 100) sampleActs).map
      (fun s => (s.accepted 0, s.acceptedOf 0 .marketing, s.ran.length)) = some (2, 1, 3) := by
    decide +kernel
  obtain ⟨s, hrun, hcounts⟩ := Option.map_eq_some_iff.mp hcounts
  simp only [Prod.mk.injEq] at hcounts
  exact ⟨s, hrun, hcounts.1, hcounts.2.1, hcounts.2.2, rate_limit (Reachable.of_exec hrun) 0⟩

end RateLimiter

end ApiWhatsApp
