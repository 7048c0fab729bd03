import ApiWhatsApp.Outbound.RateLimiter
import Mathlib.Tactic.Linarith

/-!
# Headroom for one-time passwords

`worker/distributed-rate-limiter.service.ts` caps the two other classes in the reservation phase, so
that at least a tenth of each second is left for one-time passwords. The shares add up to nine tenths
at most, but each class has at least one slot whatever its share is.

* `reservationShares_spec` and `headroom_arith` — when the two class limits leave a tenth of the
  limit, in exact arithmetic.
* `exists_accepting` — the loops can fill both classes in the reservation phase of a second, one slot
  after another, as long as the limit allows.
* `RateEnv.KeepsHeadroom` is the condition on limit and shares; **`otp_headroom`**: the headroom is
  kept in every run exactly under this condition. `otp_headroom_two` — it is not kept for a sender
  with two messages a second.
-/

namespace ApiWhatsApp

open Library

/-! ## Limits and shares -/

variable {ar : Arithmetic}

theorem RateLimitConfig.one_le_limit (config : RateLimitConfig ar) (configuredLimit : Option ℚ) :
    1 ≤ config.limit configuredLimit := by
  unfold RateLimitConfig.limit
  split
  · split_ifs
    · exact le_max_left _ _
    · decide
  · decide

theorem RateLimitConfig.share_pos {fallback : ℚ} (hfallback : 0 < fallback) (raw : Option String) :
    0 < share .exact raw fallback := by
  unfold RateLimitConfig.share
  split
  · split_ifs with hvalue
    · exact hvalue.1
    · exact hfallback
  · exact hfallback

/-- The effective shares are positive and leave a tenth. -/
theorem RateLimitConfig.reservationShares_spec (config : RateLimitConfig .exact) :
    0 < config.reservationShares.1 ∧ 0 < config.reservationShares.2 ∧
      config.reservationShares.1 + config.reservationShares.2 ≤ 9 / 10 := by
  unfold RateLimitConfig.reservationShares
  dsimp only
  split_ifs with hsum
  · norm_num
  · exact ⟨share_pos (by norm_num) _, share_pos (by norm_num) _, not_lt.mp hsum⟩

/-- The two class limits, cut at the limit, leave a tenth of it. -/
theorem headroom_arith {limit : ℕ} {t m : ℚ} (hlimit : 1 ≤ limit) (ht : 0 < t) (hm : 0 < m)
    (hsum : t + m ≤ 9 / 10) :
    10 * min limit (max 1 ⌊limit * t⌋₊ + max 1 ⌊limit * m⌋₊) ≤ 9 * limit ↔
      3 ≤ limit ∧ (1 ≤ limit * m ∨ limit * t < (9 * limit / 10 : ℕ)) ∧
        (1 ≤ limit * t ∨ limit * m < (9 * limit / 10 : ℕ)) := by
  have hpos : (0 : ℚ) < limit := by exact_mod_cast hlimit
  have ht0 : (0 : ℚ) ≤ limit * t := (mul_pos hpos ht).le
  have hm0 : (0 : ℚ) ≤ limit * m := (mul_pos hpos hm).le
  have hfloors : 10 * (⌊limit * t⌋₊ + ⌊limit * m⌋₊) ≤ 9 * limit := by
    have hparts : ((⌊limit * t⌋₊ + ⌊limit * m⌋₊ : ℕ) : ℚ) ≤ limit * (9 / 10) := by
      calc ((⌊limit * t⌋₊ + ⌊limit * m⌋₊ : ℕ) : ℚ)
          = ⌊limit * t⌋₊ + ⌊limit * m⌋₊ := Nat.cast_add _ _
        _ ≤ limit * t + limit * m := add_le_add (Nat.floor_le ht0) (Nat.floor_le hm0)
        _ = limit * (t + m) := (mul_add _ _ _).symm
        _ ≤ limit * (9 / 10) := mul_le_mul_of_nonneg_left hsum hpos.le
    have hscaled : ((10 * (⌊limit * t⌋₊ + ⌊limit * m⌋₊) : ℕ) : ℚ) ≤ (9 * limit : ℕ) := by
      push_cast at hparts ⊢
      linarith
    exact_mod_cast hscaled
  have hone : ∀ {x : ℚ}, 1 ≤ x ↔ 1 ≤ ⌊x⌋₊ := fun {x} => (Nat.one_le_floor_iff x).symm
  rw [hone, hone, ← Nat.floor_lt ht0, ← Nat.floor_lt hm0]
  omega

/-- When the class limits of the reservation phase leave a tenth of the limit: there is no such
phase, or the limit is at least three and a class with less than one slot by its share finds the
other one below nine tenths. -/
def RateEnv.KeepsHeadroom (env : RateEnv .exact) : Prop :=
  env.config.reservationWindowMs = 0 ∨
    3 ≤ env.limit ∧
    (1 ≤ env.limit * env.config.reservationShares.2 ∨
      env.limit * env.config.reservationShares.1 < (9 * env.limit / 10 : ℕ)) ∧
    (1 ≤ env.limit * env.config.reservationShares.1 ∨
      env.limit * env.config.reservationShares.2 < (9 * env.limit / 10 : ℕ))

namespace RateLimiter

variable {env : RateEnv ar} {s s' : RateLimiter}

/-! ## Filling the classes -/

/-- A script is accepted when both counters are below their limits. -/
theorem accepted_of_room {redis : KeyStore String} {now : Time} {key₁ key₂ : String}
    {totalLimit classLimit ttl : ℕ} (htotal : redis.get now key₁ < totalLimit)
    (hclass : redis.get now key₂ < classLimit) :
    (reserveSlot redis now key₁ key₂ totalLimit classLimit ttl).2 = true := by
  unfold reserveSlot
  dsimp only
  rw [if_neg]
  exact not_or.mpr ⟨Nat.not_le.mpr htotal, Nat.not_le.mpr hclass⟩

/-- A reservation that was accepted in the reservation phase of the first second. -/
def reservedSlot (trafficClass : MessageTrafficClass) : Reservation where
  window := 0
  trafficClass := trafficClass
  canBorrow := false
  accepted := true

/-- A new loop takes a slot of its class, in the reservation phase of the first second. -/
theorem reachable_reservation (hinv : Inv env s) (hclock : s.clock = 0)
    (hwindow : 0 < env.config.reservationWindowMs) (c : MessageTrafficClass)
    (htotal : s.accepted 0 < env.limit) (hclass : s.acceptedOf 0 c < env.reserved c) :
    ∃ s', Reachable (step env) s s' ∧ s'.clock = 0 ∧ s'.ran = reservedSlot c :: s.ran := by
  have hborrow : env.canBorrow 0 = false := by
    simpa [RateEnv.canBorrow] using hwindow.ne'
  have htallied := hinv.tallied 0 (by rw [hclock]; decide)
  have haccepted : (s.runScript env 0 c).2 = true := by
    unfold runScript
    refine accepted_of_room ?_ ?_
    · rw [htallied.total.get (by rw [hclock]; decide)]
      exact htotal
    · rw [(htallied.classes c).get (by rw [hclock]; decide), RateEnv.classLimit, hborrow]
      exact hclass
  have hbegin : step env s (.begin c) =
      some { s with calls := s.calls ++ [⟨c, .connecting⟩] } := rfl
  have hread : step env { s with calls := s.calls ++ [⟨c, .connecting⟩] } (.read s.calls.length) =
      some { s with calls := s.calls ++ [⟨c, .evaluating 0⟩] } := by
    simp [step, hclock]
  have hscript : step env { s with calls := s.calls ++ [⟨c, .evaluating 0⟩] }
      (.script s.calls.length .delivered) = some { s with
        redis := (s.runScript env 0 c).1
        calls := s.calls ++ [⟨c, .returned⟩]
        ran := reservedSlot c :: s.ran } := by
    have hrun : runScript env { s with calls := s.calls ++ [⟨c, .evaluating 0⟩] } 0 c =
        ((s.runScript env 0 c).1, true) := by
      rw [← haccepted]
      rfl
    rw [hclock] at hrun
    simp [step, hclock, hrun, afterScript, reservedSlot, hborrow]
  have hreach : Reachable (step env) s _ :=
    ((Reaches.refl.tail trivial hbegin).tail trivial hread).tail trivial hscript
  exact ⟨_, hreach, hclock, rfl⟩

theorem inv_of_reachable {clock : Time} (h : Reachable (step env) (start clock) s) : Inv env s :=
  h.invariant (inv_start env clock) fun _ _ _ hs _ hstep => hs.step hstep

/-- The counts of a state in which only reservation-phase slots were taken. -/
theorem counts_of_ran {i j : ℕ}
    (h : s.ran = List.replicate j (reservedSlot .marketing) ++
      List.replicate i (reservedSlot .transactional)) :
    s.accepted 0 = i + j ∧ s.acceptedOf 0 .transactional = i ∧ s.acceptedOf 0 .marketing = j ∧
      s.acceptedReserved 0 .transactional = i ∧ s.acceptedReserved 0 .marketing = j := by
  unfold accepted acceptedOf acceptedReserved
  rw [h]
  simp [List.countP_append, List.countP_replicate, reservedSlot, Nat.add_comm]

/-- **Filling both classes**: any numbers within the class limits and the limit are reached. -/
theorem exists_accepting (hwindow : 0 < env.config.reservationWindowMs) {i j : ℕ}
    (hi : i ≤ env.reserved .transactional) (hj : j ≤ env.reserved .marketing)
    (htotal : i + j ≤ env.limit) :
    ∃ s, Reachable (step env) (start 0) s ∧ s.clock = 0 ∧
      s.ran = List.replicate j (reservedSlot .marketing) ++
        List.replicate i (reservedSlot .transactional) := by
  induction j with
  | zero =>
      induction i with
      | zero => exact ⟨start 0, Reaches.refl, rfl, rfl⟩
      | succ i ih =>
          obtain ⟨s, hreach, hclock, hran⟩ := ih (by omega) (by omega)
          obtain ⟨haccepted, htransactional, -⟩ := counts_of_ran hran
          obtain ⟨s', hreach', hclock', hran'⟩ := reachable_reservation (inv_of_reachable hreach)
            hclock hwindow .transactional (by omega) (by omega)
          refine ⟨s', Relation.ReflTransGen.trans hreach hreach', hclock', ?_⟩
          rw [hran', hran]
          rfl
  | succ j ih =>
      obtain ⟨s, hreach, hclock, hran⟩ := ih (by omega) (by omega)
      obtain ⟨haccepted, -, hmarketing, -⟩ := counts_of_ran hran
      obtain ⟨s', hreach', hclock', hran'⟩ := reachable_reservation (inv_of_reachable hreach)
        hclock hwindow .marketing (by omega) (by omega)
      refine ⟨s', Relation.ReflTransGen.trans hreach hreach', hclock', ?_⟩
      rw [hran', hran]
      rfl

/-! ## The headroom -/

/-- Without a reservation phase every script may borrow. -/
theorem canBorrow_of_ran (hwindow : env.config.reservationWindowMs = 0) {clock : Time}
    (h : Reachable (step env) (start clock) s) : ∀ r ∈ s.ran, r.canBorrow = true := by
  refine h.invariant (P := fun s => ∀ r ∈ s.ran, r.canBorrow = true) nofun ?_
  intro s a s' hs _ hstep
  rcases step_moves hstep with ⟨-, hran, -⟩ | ⟨i, call, now, -, -, -, -, -, hran⟩
  · rw [hran]
    exact hs
  · rw [hran]
    refine List.forall_mem_cons.mpr ⟨?_, hs⟩
    simp [RateEnv.canBorrow, hwindow]

/-- What is accepted of the two classes in the reservation phase stays within the limit. -/
theorem reserved_sum_le (hinv : Inv env s) (window : ℕ) :
    s.acceptedReserved window .transactional + s.acceptedReserved window .marketing ≤
      min env.limit (env.reserved .transactional + env.reserved .marketing) := by
  have htotal := hinv.total window
  rw [accepted_eq_sum] at htotal
  have ht := s.acceptedReserved_le window .transactional
  have hm := s.acceptedReserved_le window .marketing
  have ht' := hinv.reserved window .transactional
  have hm' := hinv.reserved window .marketing
  exact le_min (by omega) (by omega)

/-- **Headroom for one-time passwords.** In every run of the loops of a sender, the other two
classes take at most nine tenths of the limit in the reservation phase of each second, exactly when
limit and shares meet the condition. -/
theorem otp_headroom (env : RateEnv .exact) :
    (∀ clock s, Reachable (step env) (start clock) s → ∀ window,
      10 * (s.acceptedReserved window .transactional + s.acceptedReserved window .marketing) ≤
        9 * env.limit) ↔ env.KeepsHeadroom := by
  obtain ⟨ht, hm, hsum⟩ := env.config.reservationShares_spec
  have hlimit : 1 ≤ env.limit := env.config.one_le_limit env.configuredLimit
  have harith := headroom_arith hlimit ht hm hsum
  have hlimits : min env.limit (env.reserved .transactional + env.reserved .marketing) =
      min env.limit (max 1 ⌊env.limit * env.config.reservationShares.1⌋₊ +
        max 1 ⌊env.limit * env.config.reservationShares.2⌋₊) := rfl
  constructor
  · intro hkept
    by_cases hwindow : env.config.reservationWindowMs = 0
    · exact .inl hwindow
    · refine .inr (harith.mp ?_)
      -- Fill the transactional class first, then marketing, up to the limit.
      obtain ⟨s, hreach, -, hran⟩ := exists_accepting (Nat.pos_of_ne_zero hwindow)
        (i := min env.limit (env.reserved .transactional))
        (j := min (env.limit - min env.limit (env.reserved .transactional))
          (env.reserved .marketing))
        (min_le_right _ _) (min_le_right _ _) (by omega)
      obtain ⟨-, -, -, htransactional, hmarketing⟩ := counts_of_ran hran
      have hbound := hkept 0 s hreach 0
      rw [htransactional, hmarketing] at hbound
      rw [← hlimits]
      omega
  · rintro (hwindow | hcondition) clock s hreach window
    · have hnone : ∀ c, s.acceptedReserved window c = 0 := by
        intro c
        refine List.countP_eq_zero.mpr fun r hr => ?_
        simp [canBorrow_of_ran hwindow hreach r hr]
      rw [hnone, hnone]
      exact Nat.zero_le _
    · have hleaves := harith.mpr hcondition
      rw [← hlimits] at hleaves
      have hsumLe := reserved_sum_le (inv_of_reachable hreach) window
      omega

/-- A transactional and a marketing message at the start of a second. -/
def sampleBoth : List Act :=
  [.begin .transactional, .begin .marketing, .read 0, .read 1, .script 0 .delivered,
    .script 1 .delivered]

/-- A sender with two messages a second has no headroom: one message of each class takes both. -/
theorem otp_headroom_two : ¬ ∀ clock s, Reachable (step (sampleEnv .exact)) (start clock) s → ∀ window,
    10 * (s.acceptedReserved window .transactional + s.acceptedReserved window .marketing) ≤
      9 * (sampleEnv .exact).limit := by
  have hcounts : (exec (step (sampleEnv .exact)) (start 0) sampleBoth).map (fun s =>
      (s.acceptedReserved 0 .transactional, s.acceptedReserved 0 .marketing)) = some (1, 1) := by
    decide +kernel
  obtain ⟨s, hrun, hcounts⟩ := Option.map_eq_some_iff.mp hcounts
  obtain ⟨htransactional, hmarketing⟩ := Prod.ext_iff.mp hcounts
  have hlimit : (sampleEnv .exact).limit = 2 := by decide
  intro hkept
  have hbound := hkept 0 s (Reachable.of_exec hrun) 0
  dsimp only at htransactional hmarketing
  rw [htransactional, hmarketing, hlimit] at hbound
  omega

end RateLimiter

end ApiWhatsApp
