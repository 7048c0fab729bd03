import ApiWhatsApp.Library.JavaScript
import ApiWhatsApp.Library.Utf16
import Mathlib.Data.Nat.Digits.Lemmas

/-!
# Doubles and their decimal texts

The finite doubles as rationals that `toDouble` leaves as they are; `-0` is the same number as `0`.

* **`toDouble_toDouble`** — rounding once is enough, so that `Double.ofRat?` gives a double.
* **`toDouble_le_natCast`** — rounding does not pass a number up to `2 ^ 53`.
* `numberText` is `String(value)` for a double, `numberValue` the value of a JSON number.
  **`numberValue_numberText`**: the value of the text rounds to the double.
* `shortest` is the choice that `Number::toString` makes: the decimal with the fewest digits that
  rounds to the double. **`shortest_spec`**: there is one for every positive double.
-/

namespace ApiWhatsApp.Library

/-! ## Rounding -/

/-- Integers are not rounded. -/
@[simp] theorem roundEven_intCast (n : ℤ) : roundEven n = n := by
  simp [roundEven]

/-- The result is one of the two integers around the number. -/
theorem roundEven_cases (q : ℚ) : roundEven q = ⌊q⌋ ∨ roundEven q = ⌊q⌋ + 1 := by
  unfold roundEven
  dsimp only
  split_ifs
  · exact .inl rfl
  · exact .inr rfl
  · exact .inl rfl
  · exact .inr rfl

/-- Rounding stays within a bound that is an integer. -/
theorem abs_roundEven_le {q : ℚ} {n : ℕ} (h : |q| < n) : |roundEven q| ≤ n := by
  obtain ⟨hlower, hupper⟩ := abs_lt.mp h
  have hfloor : -(n : ℤ) ≤ ⌊q⌋ := Int.le_floor.mpr (by push_cast; exact hlower.le)
  have hlt : ⌊q⌋ < n := Int.floor_lt.mpr (by exact_mod_cast hupper)
  rcases roundEven_cases q with heq | heq
  · rw [heq, abs_le]
    omega
  · rw [heq, abs_le]
    omega

/-- Rounding is symmetric. -/
theorem roundEven_neg (q : ℚ) : roundEven (-q) = -roundEven q := by
  rcases eq_or_ne q ⌊q⌋ with hint | hint
  · rw [hint, ← Int.cast_neg, roundEven_intCast, roundEven_intCast]
  · have hfloor : ⌊-q⌋ = -⌊q⌋ - 1 := by
      have hlt : (⌊q⌋ : ℚ) < q := lt_of_le_of_ne (Int.floor_le q) (Ne.symm hint)
      have hnext := Int.lt_floor_add_one q
      rw [Int.floor_eq_iff]
      push_cast
      constructor
      · linarith
      · linarith
    have hparity : (-⌊q⌋ - 1) % 2 = 0 ↔ ¬ ⌊q⌋ % 2 = 0 := by omega
    unfold roundEven
    simp only [hfloor, hparity]
    push_cast
    split_ifs <;> first | omega | linarith

/-- The exponent of the unit in the last place. -/
def unitExponent (q : ℚ) : ℤ := max (Int.log 2 |q| - 52) (-1074)

/-- Rounding is in multiples of the unit. -/
theorem toDouble_eq (q : ℚ) :
    toDouble q = roundEven (q / 2 ^ unitExponent q) * 2 ^ unitExponent q := rfl

/-- Rounding to a double is symmetric. -/
theorem toDouble_neg (q : ℚ) : toDouble (-q) = -toDouble q := by
  have hunit : unitExponent (-q) = unitExponent q := by rw [unitExponent, abs_neg, unitExponent]
  rw [toDouble_eq, toDouble_eq, hunit, neg_div, roundEven_neg, Int.cast_neg, neg_mul]

/-- A rational that is a whole number of its units stays as it is. -/
theorem toDouble_of_unit {q : ℚ} {n : ℤ} (h : q / 2 ^ unitExponent q = n) : toDouble q = q := by
  have hunit : (2 : ℚ) ^ unitExponent q ≠ 0 := zpow_ne_zero _ two_ne_zero
  rw [toDouble_eq, h, roundEven_intCast, ← h, div_mul_cancel₀ q hunit]

/-- A mantissa of 53 bits is kept, and the power of two after the largest one. -/
theorem toDouble_scaled {q : ℚ} {n e : ℤ} (hq : q = n * 2 ^ e) (hn : |n| ≤ 2 ^ 53) (he : -1074 ≤ e) :
    toDouble q = q := by
  rcases eq_or_ne n 0 with rfl | hn0
  · exact toDouble_of_unit (n := 0) (by simp [hq])
  have hpower : ∀ k : ℤ, (0 : ℚ) < 2 ^ k := fun k => zpow_pos two_pos k
  have habs : |q| = |n| * 2 ^ e := by
    rw [hq, abs_mul, abs_of_pos (hpower e), Int.cast_abs]
  have hpos : 0 < |q| := by
    rw [habs]
    exact mul_pos (by exact_mod_cast abs_pos.mpr hn0) (hpower e)
  rcases le_or_gt (unitExponent q) e with hle | hgt
  · -- The unit divides `2 ^ e`.
    obtain ⟨d, hd⟩ := Int.eq_ofNat_of_zero_le (sub_nonneg.mpr hle)
    have hsplit : (2 : ℚ) ^ e = 2 ^ unitExponent q * 2 ^ d := by
      rw [← zpow_natCast, ← zpow_add₀ two_ne_zero, ← hd, add_sub_cancel]
    refine toDouble_of_unit (n := n * 2 ^ d) ?_
    rw [div_eq_iff (hpower _).ne']
    refine hq.trans ?_
    rw [hsplit]
    push_cast
    ring
  · -- The mantissa is `2 ^ 53`, and the unit twice `2 ^ e`.
    have hlog : e + 53 ≤ Int.log 2 |q| := by
      unfold unitExponent at hgt
      omega
    have hlower : (2 : ℚ) ^ (e + 53) ≤ |q| :=
      (zpow_le_zpow_right₀ one_le_two hlog).trans (Int.zpow_log_le_self one_lt_two hpos)
    have hmantissa : |n| = 2 ^ 53 := by
      refine le_antisymm hn ?_
      rw [habs, zpow_add₀ two_ne_zero, mul_comm] at hlower
      have hle := le_of_mul_le_mul_right hlower (hpower e)
      exact_mod_cast hle
    have hexponent : unitExponent q = e + 1 := by
      have hvalue : |q| = ((2 : ℕ) : ℚ) ^ (e + 53) := by
        rw [habs, hmantissa, zpow_add₀ (by norm_num), mul_comm]
        norm_num
      rw [unitExponent, hvalue, Int.log_zpow one_lt_two]
      omega
    have hsplit : (2 : ℚ) ^ (e + 1) = 2 ^ e * 2 := zpow_add_one₀ two_ne_zero e
    rcases abs_eq (by norm_num) |>.mp hmantissa with rfl | rfl
    · refine toDouble_of_unit (n := 2 ^ 52) ?_
      rw [div_eq_iff (hpower _).ne', hexponent, hsplit, hq]
      push_cast
      ring
    · refine toDouble_of_unit (n := -2 ^ 52) ?_
      rw [div_eq_iff (hpower _).ne', hexponent, hsplit, hq]
      push_cast
      ring

/-- Rounding does not pass an integer. -/
theorem roundEven_le {q : ℚ} {n : ℤ} (h : q ≤ n) : roundEven q ≤ n := by
  rcases eq_or_lt_of_le h with rfl | hlt
  · rw [roundEven_intCast]
  · have hfloor : ⌊q⌋ < n := Int.floor_lt.mpr hlt
    rcases roundEven_cases q with heq | heq <;> omega

/-- Rounding keeps the sign. -/
theorem roundEven_nonneg {q : ℚ} (h : 0 ≤ q) : 0 ≤ roundEven q := by
  have hfloor : 0 ≤ ⌊q⌋ := Int.floor_nonneg.mpr h
  rcases roundEven_cases q with heq | heq <;> omega

/-- Rounding to a double keeps the sign. -/
theorem toDouble_nonneg {q : ℚ} (h : 0 ≤ q) : 0 ≤ toDouble q := by
  have hunit : (0 : ℚ) < 2 ^ unitExponent q := zpow_pos two_pos _
  rw [toDouble_eq]
  exact mul_nonneg (by exact_mod_cast roundEven_nonneg (div_nonneg h hunit.le)) hunit.le

/-- Rounding does not pass a number that a double has exactly. -/
theorem toDouble_le_natCast {q : ℚ} {n : ℕ} (hq : 0 ≤ q) (h : q ≤ n) (hn : n ≤ 2 ^ 53) :
    toDouble q ≤ n := by
  have hunit : (0 : ℚ) < 2 ^ unitExponent q := zpow_pos two_pos _
  rcases le_or_gt (unitExponent q) 0 with hsmall | hlarge
  · -- The number is a whole number of the units of `q`.
    obtain ⟨d, hd⟩ := Int.eq_ofNat_of_zero_le (neg_nonneg.mpr hsmall)
    have hscale : (2 : ℚ) ^ unitExponent q * 2 ^ d = 1 := by
      rw [← zpow_natCast, ← zpow_add₀ two_ne_zero, ← hd, add_neg_cancel, zpow_zero]
    have hwhole : (n : ℚ) = ((n * 2 ^ d : ℤ) : ℚ) * 2 ^ unitExponent q := by
      push_cast
      rw [mul_assoc, mul_comm (2 ^ d : ℚ), hscale, mul_one]
    have hround : roundEven (q / 2 ^ unitExponent q) ≤ (n * 2 ^ d : ℤ) := by
      refine roundEven_le ?_
      rw [div_le_iff₀ hunit, ← hwhole]
      exact h
    rw [toDouble_eq, hwhole]
    exact mul_le_mul_of_nonneg_right (by exact_mod_cast hround) hunit.le
  · -- A unit above one makes both `2 ^ 53`.
    have hlog : 53 ≤ Int.log 2 |q| := by
      unfold unitExponent at hlarge
      omega
    have hpos : 0 < |q| := by
      rw [abs_pos]
      rintro rfl
      simp at hlog
    have hlower : (2 : ℚ) ^ (53 : ℤ) ≤ |q| :=
      (zpow_le_zpow_right₀ one_le_two hlog).trans (Int.zpow_log_le_self one_lt_two hpos)
    rw [abs_of_nonneg hq] at hlower
    have hcast : (n : ℚ) ≤ 2 ^ (53 : ℤ) := by exact_mod_cast hn
    have hvalue : q = ((2 ^ 53 : ℤ) : ℚ) * 2 ^ (0 : ℤ) := by
      rw [le_antisymm (h.trans hcast) hlower]
      norm_num
    rw [toDouble_scaled hvalue (by norm_num) (by norm_num)]
    exact h
/-- The mantissa and the exponent of what rounding gives. -/
theorem exists_scaled (q : ℚ) :
    ∃ n e : ℤ, toDouble q = n * 2 ^ e ∧ |n| ≤ 2 ^ 53 ∧ -1074 ≤ e := by
  refine ⟨roundEven (q / 2 ^ unitExponent q), unitExponent q, toDouble_eq q, ?_, le_max_right _ _⟩
  have hunit : (0 : ℚ) < 2 ^ unitExponent q := zpow_pos two_pos _
  have hbound : |q / 2 ^ unitExponent q| < ((2 ^ 53 : ℕ) : ℚ) := by
    rw [abs_div, abs_of_pos hunit, div_lt_iff₀ hunit]
    have hlog : Int.log 2 |q| + 1 ≤ 53 + unitExponent q := by
      unfold unitExponent
      omega
    calc |q| < ((2 : ℕ) : ℚ) ^ (Int.log 2 |q| + 1) := Int.lt_zpow_succ_log_self one_lt_two _
      _ ≤ ((2 : ℕ) : ℚ) ^ (53 + unitExponent q) := zpow_le_zpow_right₀ (by norm_num) hlog
      _ = ((2 ^ 53 : ℕ) : ℚ) * 2 ^ unitExponent q := by
        rw [zpow_add₀ (by norm_num)]
        norm_num
  exact_mod_cast abs_roundEven_le hbound

/-- **Rounding once is enough.** -/
theorem toDouble_toDouble (q : ℚ) : toDouble (toDouble q) = toDouble q := by
  obtain ⟨n, e, hq, hn, he⟩ := exists_scaled q
  exact toDouble_scaled hq hn he

/-- A finite double; `-0` and `0` are one. -/
structure Double where
  value : ℚ
  rounded : toDouble value = value
  finite : |value| < 2 ^ 1024
  deriving DecidableEq

namespace Double

/-- The negative of a double. -/
def neg (x : Double) : Double where
  value := -x.value
  rounded := by rw [toDouble_neg, x.rounded]
  finite := by rw [abs_neg]; exact x.finite

/-- The double nearest to a rational, unless it is infinite. -/
def ofRat? (q : ℚ) : Option Double :=
  if h : |toDouble q| < 2 ^ 1024 then some ⟨toDouble q, toDouble_toDouble q, h⟩ else none

/-- A number that rounds to a double is read as it. -/
theorem ofRat?_eq {q : ℚ} {x : Double} (h : toDouble q = x.value) : ofRat? q = some x := by
  obtain ⟨value, rounded, finite⟩ := x
  obtain rfl : toDouble q = value := h
  rw [ofRat?, dif_pos finite]

/-- The smallest positive double is `2 ^ -1074`. -/
def smallest : ℕ := 1074

/-- Every double is a whole number of the smallest ones. -/
theorem exists_int_mul (x : Double) : ∃ n : ℤ, x.value * 2 ^ smallest = n := by
  obtain ⟨n, e, hq, -, he⟩ := exists_scaled x.value
  obtain ⟨d, hd⟩ := Int.eq_ofNat_of_zero_le (neg_le_iff_add_nonneg.mp he)
  refine ⟨n * 2 ^ d, ?_⟩
  have hpower : (2 : ℚ) ^ e * 2 ^ smallest = 2 ^ d := by
    rw [← zpow_natCast, ← zpow_natCast, ← zpow_add₀ two_ne_zero]
    congr 1
  rw [← x.rounded, hq, mul_assoc, hpower]
  push_cast
  ring

end Double

/-! ## The shortest decimal -/

/-- The decimal `s * 10 ^ z` rounds to `p`. -/
def roundsTo (p : ℚ) (z : ℤ) (s : ℕ) : Bool := 0 < s && toDouble (s * 10 ^ z) = p

/-- A decimal with the exponent `z` that rounds to `p`, the closer one of two. -/
def decimalAt (p : ℚ) (z : ℤ) : Option ℕ :=
  let below := ⌊p / 10 ^ z⌋₊
  let candidates := if p / 10 ^ z - below ≤ 1 / 2 then [below, below + 1] else [below + 1, below]
  candidates.find? (roundsTo p z)

/-- The exponents of the decimals that are tried for a double, the shortest decimals first. -/
def decimalExponents (p : ℚ) : List ℤ :=
  let top := Int.log 10 p + 1
  (List.range (top + Double.smallest + 1).toNat).map fun i : ℕ => top - (i : ℤ)

/-- The digits and the exponent that `Number::toString` chooses for a positive double. -/
def shortest (p : ℚ) : Option (ℕ × ℤ) :=
  (decimalExponents p).findSome? fun z => (decimalAt p z).map fun s => (s, z)

/-- A decimal that is found rounds to the number. -/
theorem roundsTo_of_decimalAt {p : ℚ} {z : ℤ} {s : ℕ} (h : decimalAt p z = some s) :
    roundsTo p z s = true := List.find?_some h

/-- The shortest decimal rounds to the number. -/
theorem roundsTo_of_shortest {p : ℚ} {z : ℤ} {s : ℕ} (h : shortest p = some (s, z)) :
    roundsTo p z s = true := by
  obtain ⟨z', -, hz⟩ := List.exists_of_findSome?_eq_some h
  obtain ⟨s', hs, heq⟩ := Option.map_eq_some_iff.mp hz
  cases heq
  exact roundsTo_of_decimalAt hs

/-- At the last exponent there is always one: the double itself. -/
theorem exists_decimalAt_last {x : Double} (hpos : 0 < x.value) :
    ∃ s, decimalAt x.value (-Double.smallest) = some s := by
  obtain ⟨n, hn⟩ := x.exists_int_mul
  have hscale : x.value / 10 ^ (-Double.smallest : ℤ) = ((n * 5 ^ Double.smallest : ℤ) : ℚ) := by
    have hten : (10 : ℚ) = 2 * 5 := by norm_num
    rw [zpow_neg, div_inv_eq_mul, zpow_natCast, hten, mul_pow, ← mul_assoc, hn]
    push_cast
    rfl
  have hquotient : (0 : ℚ) < x.value / 10 ^ (-Double.smallest : ℤ) :=
    div_pos hpos (zpow_pos (by norm_num) _)
  obtain ⟨m, hm⟩ : ∃ m : ℕ, x.value / 10 ^ (-Double.smallest : ℤ) = m := by
    rw [hscale] at hquotient ⊢
    obtain ⟨m, hm⟩ := Int.eq_ofNat_of_zero_le (Int.cast_pos.mp hquotient).le
    exact ⟨m, by rw [hm]; rfl⟩
  have hexact : (m : ℚ) * 10 ^ (-Double.smallest : ℤ) = x.value := by
    rw [← hm, div_mul_cancel₀ _ (zpow_ne_zero _ (by norm_num))]
  have hreads : roundsTo x.value (-Double.smallest) m = true := by
    rw [hm, Nat.cast_pos] at hquotient
    rw [roundsTo, hexact, x.rounded, decide_eq_true rfl, Bool.and_true, decide_eq_true hquotient]
  refine Option.isSome_iff_exists.mp (List.find?_isSome.mpr ⟨m, ?_, hreads⟩)
  rw [hm, Nat.floor_natCast]
  split_ifs
  · exact List.mem_cons_self
  · exact List.mem_cons_of_mem _ List.mem_cons_self

/-- The last exponent that is tried is that of the smallest double. -/
theorem last_mem_decimalExponents {x : Double} (hpos : 0 < x.value) :
    (-Double.smallest : ℤ) ∈ decimalExponents x.value := by
  have hlog : (-Double.smallest : ℤ) ≤ Int.log 10 x.value := by
    obtain ⟨n, hn⟩ := x.exists_int_mul
    have htwo : (0 : ℚ) < 2 ^ Double.smallest := pow_pos two_pos _
    have hone : (1 : ℚ) ≤ x.value * 2 ^ Double.smallest := by
      have hprod : (0 : ℚ) < x.value * 2 ^ Double.smallest := mul_pos hpos htwo
      rw [hn] at hprod ⊢
      exact_mod_cast Int.cast_pos.mp hprod
    have hbase : ((2 : ℚ) ^ Double.smallest) ≤ 10 ^ Double.smallest :=
      pow_le_pow_left₀ two_pos.le (by norm_num) _
    have hle : ((10 : ℕ) : ℚ) ^ (-Double.smallest : ℤ) ≤ x.value := by
      rw [zpow_neg, zpow_natCast, inv_le_iff_one_le_mul₀ (by positivity)]
      exact hone.trans (mul_le_mul_of_nonneg_left hbase hpos.le)
    calc (-Double.smallest : ℤ) = Int.log 10 (((10 : ℕ) : ℚ) ^ (-Double.smallest : ℤ)) :=
          (Int.log_zpow (by norm_num) _).symm
      _ ≤ Int.log 10 x.value := Int.log_mono_right (zpow_pos (by norm_num) _) hle
  refine List.mem_map.mpr ⟨(Int.log 10 x.value + 1 + Double.smallest).toNat, ?_, ?_⟩
  · rw [List.mem_range]
    omega
  · omega

/-- **Every positive double has a shortest decimal, and it rounds to the double.** -/
theorem shortest_spec {x : Double} (hpos : 0 < x.value) :
    ∃ s z, shortest x.value = some (s, z) ∧ 0 < s ∧ toDouble (s * 10 ^ z) = x.value := by
  have hsome : (shortest x.value).isSome := by
    obtain ⟨s, hs⟩ := exists_decimalAt_last hpos
    refine List.findSome?_isSome_iff.mpr ⟨_, last_mem_decimalExponents hpos, ?_⟩
    rw [hs]
    rfl
  obtain ⟨⟨s, z⟩, hs⟩ := Option.isSome_iff_exists.mp hsome
  have hreads := roundsTo_of_shortest hs
  rw [roundsTo, Bool.and_eq_true, decide_eq_true_eq, decide_eq_true_eq] at hreads
  exact ⟨s, z, hs, hreads⟩

/-! ## Numerals -/

namespace JsString

/-- The unit of an ASCII character. -/
def unit (c : Char) : UInt16 := UInt16.ofNat c.toNat

/-- `[0-9]`. -/
def isDigit (u : UInt16) : Bool := 0x30 ≤ u.toNat && u.toNat ≤ 0x39

/-- The unit of a digit. -/
def digitUnit (d : ℕ) : UInt16 := UInt16.ofNat (0x30 + d)

/-- A natural number in decimal; the empty text for zero. -/
def decimal (n : ℕ) : JsString := (Nat.digits 10 n).reverse.map digitUnit

/-- The value of a text of digits. -/
def decimalValue (digits : JsString) : ℕ :=
  Nat.ofDigits 10 (digits.reverse.map fun u => u.toNat - 0x30)

/-- The unit of a digit, as a number. -/
theorem toNat_digitUnit {d : ℕ} (h : d < 10) : (digitUnit d).toNat = 0x30 + d := by
  rw [digitUnit, UInt16.toNat_ofNat']
  omega

/-- A numeral is made of digits. -/
theorem isDigit_of_mem_decimal {n : ℕ} {u : UInt16} (h : u ∈ decimal n) : isDigit u = true := by
  obtain ⟨d, hd, rfl⟩ := List.mem_map.mp h
  have hlt := Nat.digits_lt_base (by norm_num) (List.mem_reverse.mp hd)
  simp only [isDigit, toNat_digitUnit hlt, Bool.and_eq_true, decide_eq_true_eq]
  omega

/-- A numeral is read back. -/
@[simp] theorem decimalValue_decimal (n : ℕ) : decimalValue (decimal n) = n := by
  rw [decimalValue, decimal, ← List.map_reverse, List.reverse_reverse, List.map_map]
  conv_rhs => rw [← Nat.ofDigits_digits 10 n]
  refine congrArg (Nat.ofDigits 10) ?_
  conv_rhs => rw [← List.map_id (Nat.digits 10 n)]
  refine List.map_congr_left fun d hd => ?_
  rw [Function.comp_apply, toNat_digitUnit (Nat.digits_lt_base (by norm_num) hd)]
  exact Nat.add_sub_cancel_left 0x30 d

/-- Digits in front count as many tens. -/
theorem decimalValue_append (a b : JsString) :
    decimalValue (a ++ b) = decimalValue a * 10 ^ b.length + decimalValue b := by
  rw [decimalValue, List.reverse_append, List.map_append, Nat.ofDigits_append, List.length_map,
    List.length_reverse, decimalValue, decimalValue]
  ring

/-- Zeros count nothing. -/
@[simp] theorem decimalValue_zeros (k : ℕ) : decimalValue (List.replicate k (unit '0')) = 0 := by
  induction k with
  | zero => rfl
  | succ k ih =>
      rw [List.replicate_succ', decimalValue_append, ih]
      rfl

/-- The first digit of a positive number is not zero. -/
theorem decimal_ne_zero {n : ℕ} (h : 0 < n) :
    ∃ u rest, decimal n = u :: rest ∧ u ≠ unit '0' := by
  have hne : Nat.digits 10 n ≠ [] := Nat.digits_ne_nil_iff_ne_zero.mpr h.ne'
  have hlast := Nat.getLast_digit_ne_zero 10 h.ne'
  have hlt := Nat.digits_lt_base (by norm_num) (List.getLast_mem hne)
  refine ⟨digitUnit ((Nat.digits 10 n).getLast hne), (Nat.digits 10 n).dropLast.reverse.map digitUnit,
    ?_, fun heq => hlast ?_⟩
  · conv_lhs => rw [decimal, ← List.dropLast_append_getLast hne]
    rw [List.reverse_append]
    rfl
  · have hvalue := congrArg UInt16.toNat heq
    rw [toNat_digitUnit hlt] at hvalue
    have hzero : (unit '0').toNat = 0x30 := rfl
    omega

/-! ## Number texts -/

/-- The fraction of a number, with its point. -/
def fractionText (fraction : JsString) : JsString :=
  if fraction = [] then [] else unit '.' :: fraction

/-- The exponent of a number, with its sign. -/
def exponentText : Option ℤ → JsString
  | none => []
  | some e => unit 'e' :: unit (if e < 0 then '-' else '+') :: decimal e.natAbs

/-- The text of a number. -/
def numeral (whole fraction : JsString) (exponent : Option ℤ) : JsString :=
  whole ++ (fractionText fraction ++ exponentText exponent)

/-- Source: `Number::toString` for a positive double, with its digits and its exponent. -/
def positiveText (s : ℕ) (z : ℤ) : JsString :=
  let digits := decimal s
  let n := digits.length + z
  if 0 ≤ z ∧ n ≤ 21 then numeral (digits ++ List.replicate z.toNat (unit '0')) [] none
  else if 0 < n ∧ n ≤ 21 then numeral (digits.take n.toNat) (digits.drop n.toNat) none
  else if -6 < n ∧ n ≤ 0 then
    numeral [unit '0'] (List.replicate (-n).toNat (unit '0') ++ digits) none
  else numeral (digits.take 1) (digits.drop 1) (some (n - 1))

/-- The text of a positive double. -/
def magnitudeText (p : ℚ) : JsString :=
  match shortest p with
  | some (s, z) => positiveText s z
  | none => []

/-- `String(value)` for a finite number. -/
def numberText (x : Double) : JsString :=
  if x.value = 0 then [unit '0']
  else if x.value < 0 then unit '-' :: magnitudeText (-x.value)
  else magnitudeText x.value

/-- The fraction of a JSON number and what follows it. -/
def readFraction : JsString → Option (JsString × JsString)
  | [] => some ([], [])
  | u :: rest =>
      if u = unit '.' then
        if rest.takeWhile isDigit = [] then none
        else some (rest.takeWhile isDigit, rest.dropWhile isDigit)
      else some ([], u :: rest)

/-- The exponent of a JSON number, which ends it. -/
def readExponent : JsString → Option ℤ
  | [] => some 0
  | u :: rest =>
      if u = unit 'e' ∨ u = unit 'E' then
        let digits := match rest with
          | [] => []
          | v :: ds => if v = unit '+' ∨ v = unit '-' then ds else v :: ds
        if digits ≠ [] ∧ digits.all isDigit then
          some (if rest.head? = some (unit '-') then -decimalValue digits else decimalValue digits)
        else none
      else none

/-- The value of a JSON number without a sign. -/
def unsignedValue (text : JsString) : Option ℚ :=
  let whole := text.takeWhile isDigit
  if whole = [] ∨ (whole.head? = some (unit '0') ∧ whole.length ≠ 1) then none
  else do
    let (fraction, rest) ← readFraction (text.dropWhile isDigit)
    let exponent ← readExponent rest
    some (decimalValue (whole ++ fraction) * 10 ^ (exponent - fraction.length))

/-- The value of a JSON number; `none` when the text is not one. -/
def numberValue : JsString → Option ℚ
  | [] => none
  | u :: rest =>
      if u = unit '-' then (unsignedValue rest).map fun q => -q else unsignedValue (u :: rest)

/-- Where digits end. -/
theorem takeWhile_append_digits {digits rest : JsString} (h : ∀ u ∈ digits, isDigit u = true)
    (hrest : ∀ u ∈ rest.head?, isDigit u = false) :
    (digits ++ rest).takeWhile isDigit = digits ∧ (digits ++ rest).dropWhile isDigit = rest := by
  rw [List.takeWhile_append_of_pos h, List.dropWhile_append_of_pos h]
  cases rest with
  | nil => simp
  | cons u rest => simp [hrest u rfl]

/-- An exponent does not begin with a digit. -/
theorem isDigit_head_exponentText (exponent : Option ℤ) :
    ∀ u ∈ (exponentText exponent).head?, isDigit u = false := by
  cases exponent with
  | none => simp [exponentText]
  | some e => simp [exponentText]; decide

/-- A fraction is read up to the exponent. -/
theorem readFraction_numeral {fraction : JsString} {exponent : Option ℤ}
    (hfraction : ∀ u ∈ fraction, isDigit u = true) :
    readFraction (fractionText fraction ++ exponentText exponent) =
      some (fraction, exponentText exponent) := by
  obtain ⟨htake, hdrop⟩ :=
    takeWhile_append_digits hfraction (isDigit_head_exponentText exponent)
  unfold fractionText
  split_ifs with hempty
  · subst hempty
    cases exponent with
    | none => rfl
    | some e =>
        have hpoint : unit 'e' ≠ unit '.' := by decide
        rw [List.nil_append, exponentText, readFraction, if_neg hpoint]
  · rw [List.cons_append, readFraction, if_pos rfl, htake, hdrop, if_neg hempty]

/-- An exponent is read back. -/
theorem readExponent_numeral {exponent : Option ℤ} (hexponent : ∀ e ∈ exponent, e ≠ 0) :
    readExponent (exponentText exponent) = some (exponent.getD 0) := by
  cases exponent with
  | none => rfl
  | some e =>
      have hne : decimal e.natAbs ≠ [] := by
        obtain ⟨u, rest, hu, -⟩ := decimal_ne_zero (Int.natAbs_pos.mpr (hexponent e rfl))
        simp [hu]
      have hall : (decimal e.natAbs).all isDigit = true :=
        List.all_eq_true.mpr fun u hu => isDigit_of_mem_decimal hu
      by_cases hneg : e < 0
      · simp [exponentText, readExponent, hneg, hne, hall, abs_of_neg hneg]
      · have hsign : unit '+' ≠ unit '-' := by decide
        simp [exponentText, readExponent, hneg, hne, hall, hsign, abs_of_nonneg (not_lt.mp hneg)]

/-- **A numeral is read part by part.** -/
theorem unsignedValue_numeral {w f : JsString} {e : Option ℤ}
    (hwhole : ∀ u ∈ w, isDigit u = true) (hfraction : ∀ u ∈ f, isDigit u = true)
    (hfirst : w = [unit '0'] ∨ ∃ u rest, w = u :: rest ∧ u ≠ unit '0')
    (hexponent : ∀ k ∈ e, k ≠ 0) :
    unsignedValue (numeral w f e) =
      some ((decimalValue (w ++ f) : ℚ) * 10 ^ (e.getD 0 - f.length)) := by
  have hrest : ∀ u ∈ (fractionText f ++ exponentText e).head?, isDigit u = false := by
    unfold fractionText
    split_ifs
    · exact isDigit_head_exponentText e
    · intro u hu
      obtain rfl := Option.some.inj hu
      decide
  obtain ⟨htake, hdrop⟩ := takeWhile_append_digits hwhole hrest
  have hvalid : ¬ (w = [] ∨ (w.head? = some (unit '0') ∧ w.length ≠ 1)) := by
    rcases hfirst with rfl | ⟨u, rest, rfl, hu⟩
    · simp
    · simp [hu]
  unfold unsignedValue numeral
  rw [htake, hdrop, if_neg hvalid, readFraction_numeral hfraction]
  simp only [Option.bind_eq_bind, Option.bind_some, readExponent_numeral hexponent]

/-- A positive decimal is read back. -/
theorem unsignedValue_positiveText {s : ℕ} (hs : 0 < s) (z : ℤ) :
    unsignedValue (positiveText s z) = some ((s : ℚ) * 10 ^ z) := by
  obtain ⟨first, others, hdigits, hfirst⟩ := decimal_ne_zero hs
  have hall : ∀ u ∈ decimal s, isDigit u = true := fun u hu => isDigit_of_mem_decimal hu
  have hzeros : ∀ k, ∀ u ∈ List.replicate k (unit '0'), isDigit u = true := fun k u hu => by
    rw [List.eq_of_mem_replicate hu]
    decide
  have hlength : (decimal s).length = others.length + 1 := by rw [hdigits, List.length_cons]
  unfold positiveText
  dsimp only
  split_ifs with hwhole hpoint hsmall
  · -- The zeros stand for the exponent.
    obtain ⟨k, rfl⟩ := Int.eq_ofNat_of_zero_le hwhole.1
    have hdigit : ∀ u ∈ decimal s ++ List.replicate (k : ℤ).toNat (unit '0'), isDigit u = true :=
      fun u hu => (List.mem_append.mp hu).elim (hall u) (hzeros _ u)
    have hhead : ∃ u rest, decimal s ++ List.replicate (k : ℤ).toNat (unit '0') = u :: rest ∧
        u ≠ unit '0' := ⟨first, _, by rw [hdigits, List.cons_append], hfirst⟩
    rw [unsignedValue_numeral hdigit (by simp) (.inr hhead) (by simp), List.append_nil,
      decimalValue_append, decimalValue_decimal, decimalValue_zeros]
    simp
  · -- The point is among the digits.
    rw [unsignedValue_numeral (fun u hu => hall u (List.mem_of_mem_take hu))
      (fun u hu => hall u (List.mem_of_mem_drop hu)) ?_ (by simp)]
    · rw [List.take_append_drop, decimalValue_decimal, List.length_drop]
      congr 3
      simp only [Option.getD_none]
      omega
    · obtain ⟨n, hn⟩ := Int.eq_succ_of_zero_lt hpoint.1
      rw [hn, hdigits]
      exact .inr ⟨first, _, rfl, hfirst⟩
  · -- The zeros follow the point.
    rw [unsignedValue_numeral (by simp [isDigit]; decide) (fun u hu => ?_) (.inl rfl) (by simp)]
    · have hlead : decimalValue [unit '0'] = 0 := rfl
      rw [decimalValue_append, hlead, decimalValue_append, decimalValue_zeros, decimalValue_decimal,
        List.length_append, List.length_replicate]
      simp only [zero_mul, zero_add, Option.getD_none]
      congr 3
      push_cast
      omega
    · exact (List.mem_append.mp hu).elim (hzeros _ u) (hall u)
  · -- One digit is before the point, and the exponent is given.
    rw [unsignedValue_numeral (fun u hu => hall u (List.mem_of_mem_take hu))
      (fun u hu => hall u (List.mem_of_mem_drop hu)) ?_ ?_]
    · rw [List.take_append_drop, decimalValue_decimal, List.length_drop]
      congr 3
      simp only [Option.getD_some]
      omega
    · rw [hdigits]
      exact .inr ⟨first, _, rfl, hfirst⟩
    · intro e he
      obtain rfl := Option.some.inj he
      omega

/-- A number without a sign begins with a digit. -/
theorem exists_digit_of_unsignedValue {text : JsString} {q : ℚ} (h : unsignedValue text = some q) :
    ∃ u rest, text = u :: rest ∧ isDigit u = true := by
  cases text with
  | nil => cases h
  | cons u rest =>
      refine ⟨u, rest, rfl, ?_⟩
      by_contra hdigit
      rw [unsignedValue, List.takeWhile_cons_of_neg hdigit] at h
      cases h

/-- A text without a sign is a number. -/
theorem numberValue_of_unsignedValue {text : JsString} {q : ℚ} (h : unsignedValue text = some q) :
    numberValue text = some q := by
  obtain ⟨u, rest, rfl, hdigit⟩ := exists_digit_of_unsignedValue h
  have hsign : u ≠ unit '-' := by
    rintro rfl
    cases hdigit
  rw [numberValue, if_neg hsign, h]

/-- The text of a positive double is read as a number that rounds to it. -/
theorem exists_unsignedValue_magnitudeText {x : Double} (hpos : 0 < x.value) :
    ∃ q, unsignedValue (magnitudeText x.value) = some q ∧ toDouble q = x.value := by
  obtain ⟨s, z, hshortest, hs, hrounds⟩ := shortest_spec hpos
  refine ⟨_, ?_, hrounds⟩
  rw [magnitudeText, hshortest]
  exact unsignedValue_positiveText hs z

/-- **The text of a double is read back**: its value rounds to the double. -/
theorem numberValue_numberText (x : Double) :
    ∃ q, numberValue (numberText x) = some q ∧ toDouble q = x.value := by
  unfold numberText
  rcases lt_trichotomy x.value 0 with hneg | hzero | hpos
  · obtain ⟨q, hvalue, hrounds⟩ := exists_unsignedValue_magnitudeText (x := x.neg) (neg_pos.mpr hneg)
    refine ⟨-q, ?_, ?_⟩
    · have hmagnitude : unsignedValue (magnitudeText (-x.value)) = some q := hvalue
      rw [if_neg hneg.ne, if_pos hneg, numberValue, if_pos rfl, hmagnitude]
      rfl
    · rw [toDouble_neg, hrounds]
      exact neg_neg _
  · have hdigit : ∀ u ∈ [unit '0'], isDigit u = true := List.all_eq_true.mp (by decide)
    have hvalue : unsignedValue [unit '0'] = some (((0 : ℕ) : ℚ) * 10 ^ (0 : ℤ)) :=
      unsignedValue_numeral (f := []) (e := none) hdigit (by simp) (.inl rfl) (by simp)
    refine ⟨0, ?_, ?_⟩
    · rw [if_pos hzero, numberValue_of_unsignedValue hvalue, Nat.cast_zero, zero_mul]
    · rw [← hzero]
      exact x.rounded
  · obtain ⟨q, hvalue, hrounds⟩ := exists_unsignedValue_magnitudeText hpos
    refine ⟨q, ?_, hrounds⟩
    rw [if_neg hpos.ne', if_neg hpos.not_gt]
    exact numberValue_of_unsignedValue hvalue

end JsString

end ApiWhatsApp.Library
