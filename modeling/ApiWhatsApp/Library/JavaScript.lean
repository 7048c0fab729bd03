import ApiWhatsApp.Library.CaseMapping
import Mathlib.Algebra.Order.Floor.Semiring
import Mathlib.Data.Int.Log
import Mathlib.Data.List.Dedup
import Mathlib.Data.List.DropRight
import Mathlib.Data.List.Lex
import Mathlib.Data.List.Sort
import Mathlib.Data.Rat.Floor

/-!
# The JavaScript values that the services read

The parts of the language the modelled services rest on, as definitions that run.

* `Json` — the values of `JSON.parse`; `Json.get?` is property access on a value that may or may
  not be an object, `Json.string?`/`Json.bool?`/`Json.array?` are the `typeof` and
  `Array.isArray` tests.
* `trim`, `utf16Length`, `slice` — on strings, beside `toLowerCase` and `toUpperCase` of
  `CaseMapping`. `slice` counts UTF-16 units, as `String.prototype.slice` does, and drops a character of which only one half would
  remain.
* `newSet`, `sort` — `[...new Set(items)]`, and `texts.sort()` by UTF-16 units. **`sort_newSet_eq`**:
  a list that is sorted and has no duplicates stays as it is.
* `number` — `Number(text)` for a string, as an exact rational; `none` is `NaN` or an infinity.
  `doubleOf` rounds it to the nearest double (`toDouble`), as `Arithmetic.double` does with every
  result.
* `repeats` — a text against one character class of a regular expression.
* `date` — `new Date(seconds * 1000)` in milliseconds; `none` is an invalid date. `toISOString` is
  its text.
-/

namespace ApiWhatsApp.Library

/-- JSON values. Numbers are decimal: `num m e` is `m / 10 ^ e`. -/
inductive Json where
  | null
  | bool (b : Bool)
  | num (mantissa : ℤ) (exponent : ℕ)
  | str (s : String)
  | arr (items : List Json)
  | obj (fields : List (String × Json))

namespace Json

/-- `value[key]`, for a value of any shape: `undefined` unless it is an object with that key. -/
def get? : Json → String → Option Json
  | obj fields, key => fields.lookup key
  | _, _ => none

/-- The text of a string value. -/
def string? : Json → Option String
  | str s => some s
  | _ => none

/-- The items of an array value. -/
def array? : Json → Option (List Json)
  | arr items => some items
  | _ => none

/-- The truth value of a boolean. -/
def bool? : Json → Option Bool
  | bool b => some b
  | _ => none

/-- `String(value)` for a number that JavaScript prints without an exponent. -/
def numberText (mantissa : ℤ) (exponent : ℕ) : String :=
  if exponent = 0 then toString mantissa
  else
    let sign := if mantissa < 0 then "-" else ""
    let digits := (toString mantissa.natAbs).toList
    let padded := List.replicate (exponent + 1 - digits.length) '0' ++ digits
    let whole := padded.take (padded.length - exponent)
    let fraction := (padded.drop (padded.length - exponent)).rdropWhile (· == '0')
    sign ++ String.ofList whole ++
      (if fraction.isEmpty then "" else "." ++ String.ofList fraction)

/-- An object; a field is in it only when it has a value. -/
def object (fields : List (String × Option Json)) : Json :=
  obj (fields.filterMap fun field => field.2.map fun value => (field.1, value))

/-- A field of an object whose keys are distinct. -/
theorem get?_object {fields : List (String × Option Json)} (h : (fields.map Prod.fst).Nodup)
    (key : String) : (object fields).get? key = (fields.lookup key).join := by
  simp only [object, get?]
  induction fields with
  | nil => rfl
  | cons field rest ih =>
      obtain ⟨name, value⟩ := field
      rw [List.map_cons, List.nodup_cons] at h
      rw [List.filterMap_cons, List.lookup_cons]
      by_cases hkey : key = name
      · subst hkey
        have hrest : rest.lookup key = none := by
          rw [List.lookup_eq_none_iff]
          intro other hother
          have hmem : other.1 ∈ rest.map Prod.fst := List.mem_map_of_mem hother
          have hne : key ≠ other.1 := fun heq => h.1 (by rwa [heq])
          simpa using hne
        cases value with
        | none => simp [ih h.2, hrest]
        | some value => simp
      · have hne : (key == name) = false := by simpa using hkey
        cases value with
        | none => simp [ih h.2, hne]
        | some value => simp [ih h.2, hne, List.lookup_cons]

/-- An array of strings. -/
def strings (texts : List String) : Json := arr (texts.map str)

/-- What is read of an array of strings. -/
theorem filterMap_string_strings (texts : Option (List String)) :
    ((texts.map strings).bind array?).map (fun items => items.filterMap string?) = texts := by
  cases texts with
  | none => rfl
  | some texts =>
      refine congrArg some ?_
      induction texts with
      | nil => rfl
      | cons text rest ih => exact congrArg (text :: ·) ih

/-- What is read of a string. -/
theorem bind_string_str (text : Option String) : (text.map str).bind string? = text := by
  cases text <;> rfl

end Json

/-- Take characters while their UTF-16 units fit into the budget. -/
def takeUnits : ℕ → List Char → List Char
  | _, [] => []
  | budget, c :: cs =>
      let units := if 0x10000 ≤ c.toNat then 2 else 1
      if units ≤ budget then c :: takeUnits (budget - units) cs else []

/-- `text.length`: UTF-16 units. -/
def utf16Length (text : String) : ℕ :=
  (text.toList.map fun c => if 0x10000 ≤ c.toNat then 2 else 1).sum

/-- A text that is not empty has a unit. -/
theorem utf16Length_pos {text : String} (h : text ≠ "") : 0 < utf16Length text := by
  have hne : text.toList ≠ [] := fun hnil => h (String.toList_inj.mp (by rw [hnil]; rfl))
  obtain ⟨c, rest, htext⟩ := List.exists_cons_of_ne_nil hne
  rw [utf16Length, htext, List.map_cons, List.sum_cons]
  split_ifs <;> omega

/-- `text.slice(0, limit)`. -/
def slice (text : String) (limit : ℕ) : String := String.ofList (takeUnits limit text.toList)

/-- The white space and line terminators that `trim` and `Number` drop at both ends. -/
def isStrWhiteSpace (c : Char) : Bool :=
  c.toNat ∈ [9, 10, 11, 12, 13, 32, 0xA0, 0x1680, 0x2028, 0x2029, 0x202F, 0x205F, 0x3000, 0xFEFF] ||
    (0x2000 ≤ c.toNat && c.toNat ≤ 0x200A)

/-- `text.trim()`. -/
def trim (text : String) : String :=
  String.ofList ((text.toList.dropWhile isStrWhiteSpace).rdropWhile isStrWhiteSpace)

/-- What remains of a list without leading `p`s has none after the trailing ones go, too. -/
theorem dropWhile_rdropWhile_dropWhile {α : Type*} (p : α → Bool) (l : List α) :
    ((l.dropWhile p).rdropWhile p).dropWhile p = (l.dropWhile p).rdropWhile p := by
  rw [List.dropWhile_eq_self_iff]
  intro hpos
  have hinit := List.rdropWhile_prefix p (l.dropWhile p)
  have hlong : 0 < (l.dropWhile p).length := hpos.trans_le hinit.length_le
  have hhead := List.dropWhile_get_zero_not p l hlong
  rw [hinit.getElem hpos]
  simpa using hhead

/-- Trimming twice is trimming once. -/
@[simp] theorem trim_trim (text : String) : trim (trim text) = trim text := by
  simp only [trim, String.toList_ofList, dropWhile_rdropWhile_dropWhile, List.rdropWhile_idempotent]

/-- A text without white space stays as it is. -/
theorem trim_of_forall {text : String} (h : ∀ c ∈ text.toList, isStrWhiteSpace c = false) :
    trim text = text := by
  have hleft : text.toList.dropWhile isStrWhiteSpace = text.toList := by
    rw [List.dropWhile_eq_self_iff]
    intro hpos
    simpa using h _ (List.getElem_mem hpos)
  have hright : text.toList.rdropWhile isStrWhiteSpace = text.toList := by
    rw [List.rdropWhile_eq_self_iff]
    intro hne
    simpa using h _ (List.getLast_mem hne)
  rw [trim, hleft, hright, String.ofList_toList]

/-- The lower case of an ASCII letter. -/
theorem toNat_toLower (c : Char) :
    c.toLower.toNat = if 65 ≤ c.toNat ∧ c.toNat ≤ 90 then c.toNat + 32 else c.toNat := by
  have hiff : (c.val ≥ 'A'.val ∧ c.val ≤ 'Z'.val) ↔ (65 ≤ c.toNat ∧ c.toNat ≤ 90) := by
    simp only [ge_iff_le, UInt32.le_iff_toNat_le]
    exact Iff.rfl
  unfold Char.toLower
  split_ifs with hupper hnat hnat
  · have hval : c.val.toNat = c.toNat := rfl
    have hshift : (32 : UInt32).toNat = 32 := rfl
    change (c.val + 32).toNat = _
    rw [UInt32.toNat_add]
    omega
  · exact absurd (hiff.mp hupper) hnat
  · exact absurd (hiff.mpr hnat) hupper
  · rfl

/-- The code tells characters apart. -/
theorem char_eq_of_toNat {c d : Char} (h : c.toNat = d.toNat) : c = d :=
  Char.ext (UInt32.toNat.inj h)

/-! ## White space and case -/

/-- The codes of the white space. -/
def spaceCodes : List ℕ :=
  [9, 10, 11, 12, 13, 32, 0xA0, 0x1680, 0x2028, 0x2029, 0x202F, 0x205F, 0x3000, 0xFEFF] ++
    List.range' 0x2000 11

/-- White space is a matter of the code. -/
theorem isStrWhiteSpace_iff (c : Char) : isStrWhiteSpace c = true ↔ c.toNat ∈ spaceCodes := by
  rw [isStrWhiteSpace, spaceCodes, Bool.or_eq_true, Bool.and_eq_true, decide_eq_true_eq,
    decide_eq_true_eq, decide_eq_true_eq, List.mem_append, List.mem_range'_1]
  exact or_congr_right (and_congr_right fun _ => by omega)

/-- What holds of the white space, by its codes. -/
theorem isStrWhiteSpace_forall {P : Char → Prop} (h : ∀ code ∈ spaceCodes, P (Char.ofNat code))
    {c : Char} (hc : isStrWhiteSpace c = true) : P c := by
  have hcode := h c.toNat ((isStrWhiteSpace_iff c).mp hc)
  rwa [Char.ofNat_toNat] at hcode

/-- White space is its own lower case, and no letter. -/
theorem lowerTable_chars_of_isStrWhiteSpace {c : Char} (hc : isStrWhiteSpace c = true) :
    lowerTable.chars c = [c] ∧ inRanges casedRanges c = false :=
  isStrWhiteSpace_forall
    (P := fun c => lowerTable.chars c = [c] ∧ inRanges casedRanges c = false) (by decide +kernel) hc

/-- No image of the table of lower case is white space. -/
theorem images_apart_spaceCodes :
    (lowerTable.images.all fun run =>
      spaceCodes.all fun code => run.apart (.single code 0)) = true := by
  decide +kernel

/-- The lower case of what is not white space has none. -/
theorem isStrWhiteSpace_of_mem_lowerTable_chars {c d : Char} (hc : isStrWhiteSpace c = false)
    (h : d ∈ lowerTable.chars c) : isStrWhiteSpace d = false := by
  by_cases hlow : c.toNat < 128
  · rw [CaseTable.chars, if_pos hlow] at h
    rw [List.mem_singleton.mp h]
    revert hc
    exact forall_ascii (P := fun c => isStrWhiteSpace c = false → isStrWhiteSpace c.toLower = false)
      (by decide) c hlow
  · rcases CaseTable.mem_chars closed_lowerTable hlow h with ⟨rfl, -⟩ | ⟨run, hrun, i, hi, hcode⟩
    · exact hc
    · rw [← Bool.not_eq_true, isStrWhiteSpace_iff]
      intro hspace
      have hapart := List.all_eq_true.mp (List.all_eq_true.mp images_apart_spaceCodes run hrun) _ hspace
      have hnone := CaseRun.image?_eq_none_of_apart hapart hi
      rw [← hcode, CaseRun.single, CaseRun.image?, if_pos ⟨le_rfl, by simp, by simp⟩] at hnone
      cases hnone

/-- Every character has a lower case. -/
theorem lowerTable_chars_ne_nil (c : Char) : lowerTable.chars c ≠ [] := by
  unfold CaseTable.chars
  split_ifs
  · exact List.cons_ne_nil _ _
  · rw [ne_eq, List.map_eq_nil_iff]
    unfold CaseTable.map
    cases hsequence : lowerTable.sequences.lookup c.toNat with
    | none => exact List.cons_ne_nil _ _
    | some images =>
        obtain ⟨before, after, heq, -⟩ := List.lookup_eq_some_iff.mp hsequence
        have hmem : (c.toNat, images) ∈ lowerTable.sequences := by simp [heq]
        rw [(Prod.mk.inj (List.mem_singleton.mp hmem)).2]
        exact List.cons_ne_nil _ _

/-- White space stays in lower case; other characters become others, at least one. -/
theorem lowerChars_cases (before : List Char) (c : Char) (after : List Char) :
    (isStrWhiteSpace c = true ∧ lowerChars before c after = [c]) ∨
      (isStrWhiteSpace c = false ∧ lowerChars before c after ≠ [] ∧
        ∀ d ∈ lowerChars before c after, isStrWhiteSpace d = false) := by
  unfold lowerChars
  by_cases hsigma : c = 'Σ'
  · subst hsigma
    have hcapital : isStrWhiteSpace 'Σ' = false := rfl
    have hsmall : isStrWhiteSpace 'σ' = false := rfl
    have hfinal : isStrWhiteSpace 'ς' = false := rfl
    rw [if_pos rfl]
    split_ifs
    · exact .inr ⟨hcapital, List.cons_ne_nil _ _, List.forall_mem_singleton.mpr hfinal⟩
    · exact .inr ⟨hcapital, List.cons_ne_nil _ _, List.forall_mem_singleton.mpr hsmall⟩
  · rw [if_neg hsigma]
    cases hc : isStrWhiteSpace c with
    | true => exact .inl ⟨rfl, (lowerTable_chars_of_isStrWhiteSpace hc).1⟩
    | false =>
        exact .inr ⟨rfl, lowerTable_chars_ne_nil c,
          fun d hd => isStrWhiteSpace_of_mem_lowerTable_chars hc hd⟩

/-- White space at the end is nothing for what comes before it. -/
theorem startsCased_append_of_isStrWhiteSpace {spaces : List Char}
    (h : ∀ c ∈ spaces, isStrWhiteSpace c = true) (text : List Char) :
    startsCased (text ++ spaces) = startsCased text := by
  unfold startsCased
  rw [List.find?_append]
  cases hfirst : text.find? fun c => !inRanges caseIgnorableRanges c with
  | some c => rfl
  | none =>
      cases hspace : spaces.find? fun c => !inRanges caseIgnorableRanges c with
      | none => rfl
      | some c => exact (lowerTable_chars_of_isStrWhiteSpace (h c (List.mem_of_find?_eq_some hspace))).2

/-- Leading white space goes before the lower case as after it. -/
theorem dropWhile_lowerAfter (rest : List Char) {before : List Char}
    (h : ∀ c ∈ before, isStrWhiteSpace c = true) :
    (lowerAfter before rest).dropWhile isStrWhiteSpace =
      lowerAfter [] (rest.dropWhile isStrWhiteSpace) := by
  induction rest generalizing before with
  | nil => rfl
  | cons c rest ih =>
      rw [lowerAfter]
      rcases lowerChars_cases before c rest with ⟨hc, hsame⟩ | ⟨hc, hne, hnone⟩
      · have hbefore : ∀ d ∈ c :: before, isStrWhiteSpace d = true := by
          intro d hd
          rcases List.mem_cons.mp hd with rfl | hd
          · exact hc
          · exact h d hd
        rw [hsame, List.singleton_append, List.dropWhile_cons_of_pos hc,
          List.dropWhile_cons_of_pos hc, ih hbefore]
      · obtain ⟨d, images, heq⟩ := List.exists_cons_of_ne_nil hne
        have hd : ¬ isStrWhiteSpace d = true := by simp [hnone d (by simp [heq])]
        have hstart : startsCased before = startsCased [] :=
          startsCased_append_of_isStrWhiteSpace h []
        have hc' : ¬ isStrWhiteSpace c = true := by simp [hc]
        rw [List.dropWhile_cons_of_neg hc', ← lowerAfter_congr hstart (c :: rest), lowerAfter, heq,
          List.cons_append, List.dropWhile_cons_of_neg hd]

/-- The lower case of a last character comes last. -/
theorem lowerAfter_concat (rest before : List Char) (c : Char) :
    ∃ text, lowerAfter before (rest ++ [c]) = text ++ lowerChars (rest.reverse ++ before) c [] := by
  induction rest generalizing before with
  | nil => exact ⟨[], by simp [lowerAfter]⟩
  | cons d rest ih =>
      obtain ⟨text, htext⟩ := ih (d :: before)
      refine ⟨lowerChars before d (rest ++ [c]) ++ text, ?_⟩
      rw [List.cons_append, lowerAfter, htext, List.append_assoc, List.reverse_cons, List.append_assoc]
      rfl

/-- White space at the end stays there. -/
theorem lowerAfter_append_of_isStrWhiteSpace {c : Char} (hc : isStrWhiteSpace c = true)
    (rest before : List Char) : lowerAfter before (rest ++ [c]) = lowerAfter before rest ++ [c] := by
  induction rest generalizing before with
  | nil => exact lowerAfter_of_forall (by simpa using (lowerTable_chars_of_isStrWhiteSpace hc).1) _
  | cons d rest ih =>
      have hafter : lowerChars before d (rest ++ [c]) = lowerChars before d rest := by
        rw [lowerChars, startsCased_append_of_isStrWhiteSpace (by simpa using hc), lowerChars]
      rw [List.cons_append, lowerAfter, hafter, ih, lowerAfter, List.append_assoc]

/-- Trailing white space goes before the lower case as after it. -/
theorem rdropWhile_lowerAfter (rest before : List Char) :
    (lowerAfter before rest).rdropWhile isStrWhiteSpace =
      lowerAfter before (rest.rdropWhile isStrWhiteSpace) := by
  induction rest using List.reverseRecOn with
  | nil => rfl
  | append_singleton rest c ih =>
      rcases lowerChars_cases (rest.reverse ++ before) c [] with ⟨hc, -⟩ | ⟨hc, hne, hnone⟩
      · rw [lowerAfter_append_of_isStrWhiteSpace hc, List.rdropWhile_concat_pos _ _ _ hc, ih,
          List.rdropWhile_concat_pos _ _ _ hc]
      · obtain ⟨text, htext⟩ := lowerAfter_concat rest before c
        rw [List.rdropWhile_concat_neg _ _ _ (by simp [hc]), List.rdropWhile_eq_self_iff]
        intro hfull
        have hlast := hnone _ (List.getLast_mem hne)
        have heq : (lowerAfter before (rest ++ [c])).getLast hfull =
            (lowerChars (rest.reverse ++ before) c []).getLast hne := by
          simp only [htext]
          exact List.getLast_append_of_ne_nil _ hne
        rw [heq, hlast]
        decide

/-- Lower case and trimming do not disturb each other. -/
theorem trim_toLowerCase (text : String) : trim (toLowerCase text) = toLowerCase (trim text) := by
  simp only [trim, toLowerCase, String.toList_ofList]
  rw [dropWhile_lowerAfter _ (by simp), rdropWhile_lowerAfter]

/-! ## Sets and orders of strings -/

/-- `[...new Set(items)]`: the first of equal items stays. -/
def newSet {α : Type*} [DecidableEq α] (items : List α) : List α := items.reverse.dedup.reverse

section newSet

variable {α : Type*} [DecidableEq α] {items : List α}

/-- A set has the items of the list. -/
@[simp] theorem mem_newSet {a : α} : a ∈ newSet items ↔ a ∈ items := by
  simp [newSet]

/-- A set has every item once. -/
theorem nodup_newSet (items : List α) : (newSet items).Nodup :=
  List.nodup_reverse.mpr (List.nodup_dedup _)

/-- Different items are their own set. -/
theorem newSet_eq (h : items.Nodup) : newSet items = items := by
  rw [newSet, List.dedup_eq_self.mpr (List.nodup_reverse.mpr h), List.reverse_reverse]

/-- A set is no longer than the list. -/
theorem length_newSet_le (items : List α) : (newSet items).length ≤ items.length := by
  have hle := (List.dedup_sublist items.reverse).length_le
  rwa [List.length_reverse, ← List.length_reverse] at hle

end newSet

/-- The UTF-16 units of a string. -/
def utf16Units (text : String) : List ℕ :=
  text.toList.flatMap fun c =>
    if 0x10000 ≤ c.toNat then
      [0xD800 + (c.toNat - 0x10000) / 0x400, 0xDC00 + (c.toNat - 0x10000) % 0x400]
    else [c.toNat]

/-- The default order of `sort`. -/
def unitsLe (a b : String) : Prop := utf16Units a ≤ utf16Units b

/-- The order of the units. -/
instance : DecidableRel unitsLe := fun a b => inferInstanceAs (Decidable (utf16Units a ≤ utf16Units b))

/-- Two texts are in order one way or the other. -/
instance : Std.Total unitsLe := ⟨fun a b => le_total (utf16Units a) (utf16Units b)⟩

/-- The order is transitive. -/
instance : IsTrans String unitsLe := ⟨fun _ _ _ hab hbc => le_trans hab hbc⟩

/-- `texts.sort()`. -/
def sort (texts : List String) : List String := texts.insertionSort unitsLe

/-- Sorting keeps the texts. -/
@[simp] theorem mem_sort {texts : List String} {text : String} : text ∈ sort texts ↔ text ∈ texts :=
  List.mem_insertionSort unitsLe

/-- Sorting is a permutation. -/
theorem perm_sort (texts : List String) : (sort texts).Perm texts :=
  List.perm_insertionSort unitsLe texts

/-- What is sorted is in order. -/
theorem pairwise_sort (texts : List String) : (sort texts).Pairwise unitsLe :=
  List.pairwise_insertionSort unitsLe texts

/-- A sorted list without duplicates stays as it is. -/
theorem sort_newSet_eq {texts : List String} (hsorted : texts.Pairwise unitsLe)
    (hnodup : texts.Nodup) : sort (newSet texts) = texts := by
  rw [newSet_eq hnodup]
  exact hsorted.insertionSort_eq

/-! ## Checks in sequence -/

/-- What has succeeded goes on. -/
theorem ok_bind {ε : Type*} {α β : Type} (a : α) (f : α → Except ε β) : (.ok a >>= f) = f a := rfl

/-- A sequence of checks passes when each of them does. -/
theorem bind_eq_ok {ε : Type*} {α β : Type} {x : Except ε α} {f : α → Except ε β} {b : β} :
    x >>= f = .ok b ↔ ∃ a, x = .ok a ∧ f a = .ok b := by
  cases x with
  | error e => simp [bind, Except.bind]
  | ok a => simp [bind, Except.bind]

/-! ## Numbers in texts -/

/-- A natural number is printed in one way. -/
theorem toString_nat_inj {a b : ℕ} (h : (toString a).toList = (toString b).toList) : a = b := by
  simp only [Nat.toString_eq_ofList_toDigits, String.toList_ofList] at h
  rw [← Nat.ofDigitChars_ten_toDigits (n := a), h, Nat.ofDigitChars_ten_toDigits]

/-- The text of a natural number has no separator in it. -/
theorem notMem_toString_nat {c : Char} (hc : c.isDigit = false) (n : ℕ) :
    c ∉ (toString n).toList := by
  intro h
  have hdigit : c.isDigit = true := by
    apply Nat.isDigit_of_mem_toDigits (by decide) (le_refl 10)
    simpa [Nat.toString_eq_ofList_toDigits] using h
  rw [hc] at hdigit
  cases hdigit

/-- What stands before the first separator of a text that begins with a natural number. -/
theorem takeWhile_toString_nat {sep : Char} (hsep : sep.isDigit = false) (n : ℕ)
    (rest : List Char) :
    ((toString n).toList ++ sep :: rest).takeWhile (fun c => c ≠ sep) = (toString n).toList := by
  have hdigits : ∀ c ∈ (toString n).toList, decide (c ≠ sep) = true := by
    intro c hc
    refine decide_eq_true fun heq => ?_
    rw [heq] at hc
    exact notMem_toString_nat hsep n hc
  rw [List.takeWhile_append_of_pos hdigits]
  simp

/-- The text matches `^[p]{minimum,maximum}$`. -/
def repeats (p : Char → Bool) (minimum maximum : ℕ) (text : String) : Bool :=
  minimum ≤ text.toList.length && text.toList.length ≤ maximum && text.toList.all p

/-! ## `Number(text)` -/

/-- The value of a digit in a base up to sixteen. -/
def digitValue (c : Char) : ℕ :=
  if c.isDigit then c.toNat - 48 else c.toLower.toNat - 87

/-- The natural number written by a list of digits. -/
def digitsValue (base : ℕ) (cs : List Char) : ℕ := cs.foldl (fun n c => base * n + digitValue c) 0

/-- `StrUnsignedDecimalLiteral`, except `Infinity`. -/
def unsignedDecimal (cs : List Char) : Option ℚ :=
  let whole := cs.takeWhile Char.isDigit
  let afterWhole := cs.dropWhile Char.isDigit
  let fraction := match afterWhole with
    | '.' :: rest => rest.takeWhile Char.isDigit
    | _ => []
  let tail := match afterWhole with
    | '.' :: rest => rest.dropWhile Char.isDigit
    | _ => afterWhole
  let mantissa : ℚ := digitsValue 10 (whole ++ fraction) / 10 ^ fraction.length
  if whole.isEmpty && fraction.isEmpty then none
  else match tail with
    | [] => some mantissa
    | e :: rest =>
        let digits := match rest with
          | '+' :: ds => ds
          | '-' :: ds => ds
          | ds => ds
        if (e == 'e' || e == 'E') && !digits.isEmpty && digits.all Char.isDigit then
          match rest with
          | '-' :: ds => some (mantissa / 10 ^ digitsValue 10 ds)
          | _ => some (mantissa * 10 ^ digitsValue 10 digits)
        else none

/-- A literal in base 16, 8 or 2. -/
def nonDecimal (base : ℕ) (cs : List Char) : Option ℚ :=
  if !cs.isEmpty && cs.all fun c => c.isAlphanum && digitValue c < base then
    some (digitsValue base cs)
  else none

/-- The finite doubles lie strictly between `-2^1024` and `2^1024`. -/
def finite? (q : ℚ) : Option ℚ := if |q| < 2 ^ 1024 then some q else none

/-- `Number(text)` for a string, before it is rounded to a double: `none` when the result is not
finite. The empty and the blank string are `0`. -/
def number (text : String) : Option ℚ :=
  match (trim text).toList with
  | [] => some 0
  | '0' :: 'x' :: ds => (nonDecimal 16 ds).bind finite?
  | '0' :: 'X' :: ds => (nonDecimal 16 ds).bind finite?
  | '0' :: 'o' :: ds => (nonDecimal 8 ds).bind finite?
  | '0' :: 'O' :: ds => (nonDecimal 8 ds).bind finite?
  | '0' :: 'b' :: ds => (nonDecimal 2 ds).bind finite?
  | '0' :: 'B' :: ds => (nonDecimal 2 ds).bind finite?
  | '+' :: ds => (unsignedDecimal ds).bind finite?
  | '-' :: ds => ((unsignedDecimal ds).map fun q => -q).bind finite?
  | ds => (unsignedDecimal ds).bind finite?

/-- `Number` drops the white space at both ends itself. -/
@[simp] theorem number_trim (text : String) : number (trim text) = number text := by
  simp only [number, trim_trim]

/-- The nearest integer, the even one of two. -/
def roundEven (q : ℚ) : ℤ :=
  let below := ⌊q⌋
  if q - below < 1 / 2 then below
  else if 1 / 2 < q - below then below + 1
  else if below % 2 = 0 then below else below + 1

/-- The nearest double: a multiple of its unit in the last place, which is `2^-1074` at least. -/
def toDouble (q : ℚ) : ℚ :=
  let unit : ℚ := 2 ^ max (Int.log 2 |q| - 52) (-1074)
  roundEven (q / unit) * unit

/-- `Number(text)` for a string, as a double; `none` when it is not finite. -/
def doubleOf (text : String) : Option ℚ := (number text).bind fun q => finite? (toDouble q)

/-- White space around a number does not matter. -/
@[simp] theorem doubleOf_trim (text : String) : doubleOf (trim text) = doubleOf text := by
  rw [doubleOf, number_trim, doubleOf]

/-- How a computation treats its numbers. -/
structure Arithmetic where
  /-- `Number(text)`; `none` when it is not finite. -/
  number : String → Option ℚ
  /-- What becomes of the result of an operation, and of a decimal in the code. -/
  round : ℚ → ℚ

/-- The numbers of JavaScript. -/
def Arithmetic.double : Arithmetic := ⟨doubleOf, toDouble⟩

/-- Exact rational numbers. -/
def Arithmetic.exact : Arithmetic := ⟨Library.number, id⟩

/-- Exact arithmetic does not round. -/
@[simp] theorem Arithmetic.round_exact (q : ℚ) : Arithmetic.exact.round q = q := rfl

/-- The last representable instant, in milliseconds. -/
def maxDate : ℕ := 8640000000000000

/-- `new Date(seconds * 1000)` for a positive number of seconds; `none` is an invalid date. -/
def date (seconds : ℚ) : Option ℕ :=
  let ms := toDouble (seconds * 1000)
  if ms ≤ maxDate then some ⌊ms⌋₊ else none

/-- The date of a day since the beginning of 1970: year, month and day. -/
def civilDate (days : ℕ) : ℕ × ℕ × ℕ :=
  -- Years are counted from March, in cycles of 400, so that a leap day is the last of its year.
  let day := (days + 719468) % 146097
  let year := (day - day / 1460 + day / 36524 - day / 146096) / 365
  let dayOfYear := day - (365 * year + year / 4 - year / 100)
  let march := (5 * dayOfYear + 2) / 153
  let month := if march < 10 then march + 3 else march - 9
  (year + (days + 719468) / 146097 * 400 + (if month ≤ 2 then 1 else 0), month,
    dayOfYear - (153 * march + 2) / 5 + 1)

/-- A number with leading zeros. -/
def padStart (width n : ℕ) : String :=
  String.ofList (List.replicate (width - (toString n).length) '0') ++ toString n

/-- `date.toISOString()` for milliseconds since the beginning of 1970. -/
def toISOString (ms : ℕ) : String :=
  let (year, month, day) := civilDate (ms / 86400000)
  let years := if year < 10000 then padStart 4 year else "+" ++ padStart 6 year
  years ++ "-" ++ padStart 2 month ++ "-" ++ padStart 2 day ++ "T" ++
    padStart 2 (ms / 3600000 % 24) ++ ":" ++ padStart 2 (ms / 60000 % 60) ++ ":" ++
    padStart 2 (ms / 1000 % 60) ++ "." ++ padStart 3 (ms % 1000) ++ "Z"

example : toISOString 1709210096789 = "2024-02-29T12:34:56.789Z" := by decide

example : number " 1.5e1 " = some 15 := by decide +kernel

example : number "17x" = none := by decide

example : doubleOf "9007199254740993" = some 9007199254740992 := by decide +kernel

end ApiWhatsApp.Library
