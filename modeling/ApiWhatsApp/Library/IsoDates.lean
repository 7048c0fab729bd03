import ApiWhatsApp.Library.Doubles
import ApiWhatsApp.Library.Utf8

/-!
# Dates that `Date.parse` reads

`Date.parse` reads the format that `toISOString` writes; what it makes of other texts is left to the
implementation.

* `isDateTimeText` is that format, with a year of four digits or of six and a sign, for an instant
  within 100,000,000 days of the beginning of 1970.
* **`isDateTimeText_toISOString`** — `Date.parse` reads what `toISOString` writes.
-/

namespace ApiWhatsApp.Library

open JsString

/-! ## The calendar -/

/-- The day of the year, counted from March, in a cycle of 400 years. -/
theorem dayOfYear_le {day g e f n y b c : ℕ} (hday : day < 146097) (hg : g = day / 1460)
    (he : e = day / 36524) (hf : f = day / 146096) (hn : n = day - g + e - f) (hy : y = n / 365)
    (hb : b = y / 4) (hc : c = y / 100) : day - (365 * y + b - c) ≤ 365 := by
  by_contra hlt
  have hsum : n + f = day - g + e := by omega
  -- There are as many leap days before the year as the division by 1460 counts.
  have hleap : g ≤ b + 1 := by
    have hscaled : 1459 * g < 1460 * (b + 1) + f := by omega
    omega
  have hcentury : e + 1 ≤ c + f := by omega
  rcases (by omega : f = 0 ∨ f = 1 ∧ e = 4) with hf' | ⟨hf', he'⟩
  · have hyears : 36500 * (e + 1) ≤ n := by omega
    have hcycles : 25 * (e + 1) ≤ g := by omega
    omega
  · omega

/-- A date is a month and a day of it. -/
theorem civilDate_spec (days : ℕ) :
    ((1 ≤ (civilDate days).2.1 ∧ (civilDate days).2.1 ≤ 12) ∧
      1 ≤ (civilDate days).2.2 ∧ (civilDate days).2.2 ≤ 31) := by
  have hdayOfYear := dayOfYear_le (Nat.mod_lt (days + 719468) (by norm_num : 0 < 146097)) rfl rfl rfl
    rfl rfl rfl rfl
  unfold civilDate
  dsimp only
  generalize (days + 719468) % 146097 - _ = dayOfYear at hdayOfYear ⊢
  have hmonth : (5 * dayOfYear + 2) / 153 ≤ 11 := by omega
  refine ⟨?_, ?_, ?_⟩
  · split_ifs <;> omega
  · omega
  · omega

/-- The place of an instant among all: its date, then the milliseconds of its day. -/
def datePlace (year : ℤ) (month day ms : ℕ) : ℤ := ((year * 13 + month) * 32 + day) * 86400000 + ms

/-- The days before the last one have dates before its date. -/
theorem civilDate_before {days : ℕ} (h : days < maxDate / 86400000) :
    (civilDate days).1 < 275760 ∨ ((civilDate days).1 = 275760 ∧ ((civilDate days).2.1 < 9 ∨
      ((civilDate days).2.1 = 9 ∧ (civilDate days).2.2 < 13))) := by
  have hdays : days < 100000000 := h
  unfold civilDate
  dsimp only
  have hcycle : (days + 719468) / 146097 ≤ 688 ∨
      ((days + 719468) / 146097 = 689 ∧ (days + 719468) % 146097 ≤ 58634) := by omega
  have hday : (days + 719468) % 146097 < 146097 := Nat.mod_lt _ (by norm_num)
  generalize (days + 719468) / 146097 = cycle at hcycle ⊢
  generalize (days + 719468) % 146097 = day at hcycle hday ⊢
  generalize hyear : (day - day / 1460 + day / 36524 - day / 146096) / 365 = year
  rcases hcycle with hcycle | ⟨hcycle, hlast⟩
  · have hshort : year < 400 := by omega
    left
    split_ifs <;> omega
  · have hshort : year ≤ 160 := by omega
    rcases Nat.lt_or_eq_of_le hshort with hbefore | rfl
    · -- January and February end the year that began in March.
      generalize hmonth : (if (5 * (day - (365 * year + year / 4 - year / 100)) + 2) / 153 < 10 then
        _ else _) = month
      by_cases hend : month ≤ 2
      · rw [if_pos hend]
        omega
      · rw [if_neg hend]
        omega
    · have hdayOfYear : day - (365 * 160 + 160 / 4 - 160 / 100) ≤ 195 := by omega
      generalize day - (365 * 160 + 160 / 4 - 160 / 100) = dayOfYear at hdayOfYear ⊢
      have hmarch : (5 * dayOfYear + 2) / 153 ≤ 6 := by omega
      rw [if_pos (by omega : (5 * dayOfYear + 2) / 153 < 10), if_neg (by omega)]
      refine .inr ⟨by omega, ?_⟩
      omega

/-- What `Date` can represent: 100,000,000 days on both sides of the beginning of 1970. -/
def inDateRange (year : ℤ) (month day ms : ℕ) : Prop :=
  datePlace (-271821) 4 20 0 ≤ datePlace year month day ms ∧
    datePlace year month day ms ≤ datePlace 275760 9 13 0

/-- It can be checked whether a date is in range. -/
instance (year : ℤ) (month day ms : ℕ) : Decidable (inDateRange year month day ms) :=
  inferInstanceAs (Decidable (_ ∧ _))

/-- The dates of `toISOString` are in that range. -/
theorem inDateRange_civilDate {ms : ℕ} (h : ms ≤ maxDate) :
    inDateRange (civilDate (ms / 86400000)).1 (civilDate (ms / 86400000)).2.1
      (civilDate (ms / 86400000)).2.2 (ms % 86400000) := by
  obtain ⟨hmonth, hday⟩ := civilDate_spec (ms / 86400000)
  have hms : ms ≤ 8640000000000000 := h
  have htime : ms % 86400000 < 86400000 := Nat.mod_lt _ (by norm_num)
  rcases Nat.lt_or_eq_of_le (Nat.div_le_div_right (c := 86400000) h) with hlt | hlast
  · have hbefore := civilDate_before hlt
    simp only [inDateRange, datePlace]
    omega
  · have hstart : ms % 86400000 = 0 := by
      have hdays : ms / 86400000 = 100000000 := hlast
      omega
    have hdate : civilDate (maxDate / 86400000) = (275760, 9, 13) := by decide
    rw [hlast, hdate, hstart]
    decide

/-! ## The format -/

namespace JsString

/-- The number in the first `width` units, and what follows them. -/
def takeDigits (width : ℕ) (text : JsString) : Option (ℕ × JsString) :=
  if (text.take width).length = width ∧ (text.take width).all isDigit then
    some (decimalValue (text.take width), text.drop width)
  else none

/-- What follows a unit. -/
def expect (u : UInt16) : JsString → Option JsString
  | [] => none
  | v :: text => if v = u then some text else none

/-- `±YYYYYY` or `YYYY`, and what follows. -/
def readYear : JsString → Option (ℤ × JsString)
  | [] => none
  | u :: text =>
      if u = unit '+' ∨ u = unit '-' then
        match takeDigits 6 text with
        | some (year, rest) =>
            if u = unit '+' then some (year, rest)
            else if year = 0 then none else some (-year, rest)
        | none => none
      else (takeDigits 4 (u :: text)).map fun (year, rest) => (year, rest)

/-- The format of `toISOString`, with every field in its range, for an instant that `Date` has. -/
def readDateTime (text : JsString) : Option Unit := do
  let (year, text) ← readYear text
  let (month, text) ← (expect (unit '-') text).bind (takeDigits 2)
  let (day, text) ← (expect (unit '-') text).bind (takeDigits 2)
  let (hour, text) ← (expect (unit 'T') text).bind (takeDigits 2)
  let (minute, text) ← (expect (unit ':') text).bind (takeDigits 2)
  let (second, text) ← (expect (unit ':') text).bind (takeDigits 2)
  let (milliseconds, text) ← (expect (unit '.') text).bind (takeDigits 3)
  let text ← expect (unit 'Z') text
  if text = [] ∧ (1 ≤ month ∧ month ≤ 12) ∧ (1 ≤ day ∧ day ≤ 31) ∧ hour < 24 ∧ minute < 60 ∧
      second < 60 ∧
      inDateRange year month day (((hour * 60 + minute) * 60 + second) * 1000 + milliseconds) then
    some ()
  else none

/-- The text is read as a date. -/
def isDateTimeText (text : JsString) : Bool := (readDateTime text).isSome

/-- A unit that is expected is skipped. -/
@[simp] theorem expect_cons (u : UInt16) (text : JsString) : expect u (u :: text) = some text :=
  if_pos rfl

/-- Digits in front are read. -/
theorem takeDigits_append {digits : JsString} {width : ℕ} (rest : JsString)
    (hlength : digits.length = width) (hdigits : ∀ u ∈ digits, isDigit u = true) :
    takeDigits width (digits ++ rest) = some (decimalValue digits, rest) := by
  subst hlength
  have hall : digits.all isDigit = true := List.all_eq_true.mpr hdigits
  rw [takeDigits, List.take_left, List.drop_left, if_pos ⟨rfl, hall⟩]

/-! ## What `toISOString` writes -/

/-- Two texts, one after the other. -/
@[simp] theorem ofText_append (a b : String) : ofText (a ++ b) = ofText a ++ ofText b := by
  rw [ofText, String.toList_append, List.flatMap_append]
  rfl

/-- The code of a digit. -/
theorem toNat_of_isDigit {c : Char} (h : c.isDigit = true) : 48 ≤ c.toNat ∧ c.toNat ≤ 57 := by
  simp only [Char.isDigit, Bool.and_eq_true, decide_eq_true_eq] at h
  exact ⟨h.1, h.2⟩

/-- The units of a text of digits. -/
theorem ofText_digits {cs : List Char} (h : ∀ c ∈ cs, c.isDigit = true) :
    ofText (String.ofList cs) = cs.map unit ∧ (∀ u ∈ cs.map unit, isDigit u = true) ∧
      decimalValue (cs.map unit) = Nat.ofDigitChars 10 cs 0 := by
  rw [ofText, String.toList_ofList]
  induction cs with
  | nil => exact ⟨rfl, by simp, rfl⟩
  | cons c cs ih =>
      obtain ⟨hunits, hdigits, hvalue⟩ := ih fun d hd => h d (List.mem_cons_of_mem _ hd)
      have hcode := toNat_of_isDigit (h c List.mem_cons_self)
      have hunit : (unit c).toNat = c.toNat := by
        rw [unit, UInt16.toNat_ofNat']
        omega
      refine ⟨?_, ?_, ?_⟩
      · have hpoint : ofCodePoint c.toNat = [unit c] := if_pos (by omega)
        rw [List.flatMap_cons, hunits, hpoint]
        rfl
      · intro u hu
        rcases List.mem_cons.mp hu with rfl | hu
        · rw [isDigit, hunit, decide_eq_true hcode.1, decide_eq_true hcode.2]
          rfl
        · exact hdigits u hu
      · have hhead : decimalValue [unit c] = c.toNat - 48 := by
          rw [← hunit]
          exact Nat.ofDigits_singleton
        have hzero : '0'.toNat = 48 := rfl
        rw [List.map_cons, ← List.singleton_append, decimalValue_append, hhead, hvalue,
          List.length_map, Nat.ofDigitChars_cons, hzero, mul_zero, zero_add, mul_comm]
        exact Nat.ofDigitChars_eq_ofDigitChars_zero.symm

/-- **A number with leading zeros is read back.** -/
theorem exists_ofText_padStart {width n : ℕ} (hwidth : 0 < width) (hn : n < 10 ^ width) :
    ∃ digits : JsString, ofText (padStart width n) = digits ∧ digits.length = width ∧
      (∀ u ∈ digits, isDigit u = true) ∧ decimalValue digits = n := by
  have hlength : (toString n).length ≤ width := (Nat.length_repr_le_iff hwidth).mpr hn
  have hchars : padStart width n = String.ofList
      (List.replicate (width - (toString n).length) '0' ++ Nat.toDigits 10 n) := by
    rw [padStart, String.ofList_append, ← Nat.toString_eq_ofList_toDigits]
  have hdigit : ∀ c ∈ List.replicate (width - (toString n).length) '0' ++ Nat.toDigits 10 n,
      c.isDigit = true := fun c hc => by
    rcases List.mem_append.mp hc with hc | hc
    · rw [List.eq_of_mem_replicate hc]
      rfl
    · exact Nat.isDigit_of_mem_toDigits (by norm_num) le_rfl hc
  obtain ⟨hunits, hdigits, hvalue⟩ := ofText_digits hdigit
  refine ⟨_, by rw [hchars, hunits], ?_, hdigits, ?_⟩
  · have htotal : (toString n).length = (Nat.toDigits 10 n).length := by
      rw [Nat.toString_eq_ofList_toDigits, String.length_ofList]
    rw [List.length_map, List.length_append, List.length_replicate]
    omega
  · rw [hvalue, Nat.ofDigitChars_append, Nat.ofDigitChars_replicate_zero, mul_zero,
      Nat.ofDigitChars_ten_toDigits]

/-- A number of a fixed width is read back. -/
theorem takeDigits_padStart {width n : ℕ} (hwidth : 0 < width) (hn : n < 10 ^ width)
    (rest : JsString) : takeDigits width (ofText (padStart width n) ++ rest) = some (n, rest) := by
  obtain ⟨digits, htext, hlength, hdigits, hvalue⟩ := exists_ofText_padStart hwidth hn
  rw [htext, takeDigits_append rest hlength hdigits, hvalue]

/-- A year is read back. -/
theorem readYear_append {year : ℕ} (hyear : year < 1000000) (rest : JsString) :
    readYear (ofText (if year < 10000 then padStart 4 year else "+" ++ padStart 6 year) ++ rest) =
      some ((year : ℤ), rest) := by
  split_ifs with hshort
  · obtain ⟨digits, htext, hlength, hdigits, hvalue⟩ :=
      exists_ofText_padStart (by norm_num : 0 < 4) (by omega : year < 10 ^ 4)
    have hread := takeDigits_append rest hlength hdigits
    rw [htext]
    cases digits with
    | nil => cases hlength
    | cons u us =>
        have hsign : ¬ (u = unit '+' ∨ u = unit '-') := by
          have hu := hdigits u List.mem_cons_self
          rintro (rfl | rfl) <;> cases hu
        rw [List.cons_append] at hread ⊢
        rw [readYear, if_neg hsign, hread, hvalue]
        rfl
  · have hplus : ofText "+" = [unit '+'] := rfl
    have hread := takeDigits_padStart (by norm_num : 0 < 6) (by omega : year < 10 ^ 6) rest
    rw [ofText_append, hplus, List.append_assoc, List.singleton_append, readYear, if_pos (.inl rfl),
      hread]
    exact if_pos rfl

/-- **`Date.parse` reads what `toISOString` writes.** -/
theorem isDateTimeText_toISOString {ms : ℕ} (h : ms ≤ maxDate) :
    isDateTimeText (ofText (toISOString ms)) = true := by
  have hdate := civilDate_spec (ms / 86400000)
  have hrange := inDateRange_civilDate h
  rcases hcivil : civilDate (ms / 86400000) with ⟨year, month, day⟩
  rw [hcivil] at hdate hrange
  dsimp only at hdate hrange
  have hyear : year < 1000000 := by
    have hlast := hrange.2
    simp only [datePlace] at hlast
    omega
  have htime : ((ms / 3600000 % 24 * 60 + ms / 60000 % 60) * 60 + ms / 1000 % 60) * 1000 +
      ms % 1000 = ms % 86400000 := by omega
  have hmarks : ofText "-" = [unit '-'] ∧ ofText "T" = [unit 'T'] ∧ ofText ":" = [unit ':'] ∧
      ofText "." = [unit '.'] ∧ ofText "Z" = [unit 'Z'] := ⟨rfl, rfl, rfl, rfl, rfl⟩
  obtain ⟨hdash, ht, hcolon, hpoint, hz⟩ := hmarks
  have htwo : ∀ {n : ℕ} (rest : JsString), n < 60 →
      takeDigits 2 (ofText (padStart 2 n) ++ rest) = some (n, rest) :=
    fun rest hn => takeDigits_padStart (by norm_num) (by omega) rest
  have hthree := takeDigits_padStart (by norm_num : 0 < 3) (by omega : ms % 1000 < 10 ^ 3)
  unfold isDateTimeText readDateTime toISOString
  rw [hcivil]
  simp only [ofText_append, List.append_assoc, readYear_append hyear, hdash, ht, hcolon, hpoint, hz,
    List.nil_append, List.cons_append, expect_cons, Option.bind_eq_bind, Option.bind_some,
    htwo _ (by omega : month < 60), htwo _ (by omega : day < 60),
    htwo _ (by omega : ms / 3600000 % 24 < 60), htwo _ (by omega : ms / 60000 % 60 < 60),
    htwo _ (by omega : ms / 1000 % 60 < 60), hthree]
  rw [if_pos ⟨trivial, hdate.1, hdate.2, by omega, by omega, by omega, by rwa [htime]⟩]
  rfl

end JsString

end ApiWhatsApp.Library
