import Mathlib.Data.List.DropRight

/-!
# JavaScript strings as UTF-16 units

A JavaScript string is a list of 16-bit units; a surrogate need not be paired.

* `codePoints` is `Array.from(text)`: a pair of surrogates is one item, an unpaired one stands for
  itself.
* `toText` is the text that a database stores. **`map_toNat_toText`**: it has the same code points,
  unless there is an unpaired surrogate.
-/

namespace ApiWhatsApp.Library

/-- A JavaScript string: its UTF-16 units. -/
abbrev JsString := List UInt16

namespace JsString

/-- A unit that opens a pair. -/
def isHighSurrogate (u : UInt16) : Bool := 0xD800 ≤ u && u ≤ 0xDBFF

/-- A unit that closes a pair. -/
def isLowSurrogate (u : UInt16) : Bool := 0xDC00 ≤ u && u ≤ 0xDFFF

/-- The code point of a pair. -/
def pair (high low : UInt16) : ℕ := 0x10000 + (high.toNat - 0xD800) * 0x400 + (low.toNat - 0xDC00)

/-- `Array.from(text)`, each item as a code point. -/
def codePoints : JsString → List ℕ
  | [] => []
  | [u] => [u.toNat]
  | u :: v :: rest =>
      if isHighSurrogate u && isLowSurrogate v then pair u v :: codePoints rest
      else u.toNat :: codePoints (v :: rest)

/-- White space and line terminators; all of them are single units. -/
def isWhiteSpace (u : UInt16) : Bool :=
  u.toNat ∈ [9, 10, 11, 12, 13, 32, 0xA0, 0x1680, 0x2028, 0x2029, 0x202F, 0x205F, 0x3000, 0xFEFF] ||
    (0x2000 ≤ u.toNat && u.toNat ≤ 0x200A)

/-- `text.trim()`. -/
def trim (text : JsString) : JsString := (text.dropWhile isWhiteSpace).rdropWhile isWhiteSpace

/-- The code point is a surrogate, one without its partner. -/
def isUnpaired (n : ℕ) : Bool := 0xD800 ≤ n && n ≤ 0xDFFF

/-- The text as a database stores it. -/
def toText (text : JsString) : String := String.ofList (text.codePoints.map Char.ofNat)

/-- A pair is a code point. -/
theorem pair_lt {u v : UInt16} (hu : isHighSurrogate u = true) (hv : isLowSurrogate v = true) :
    pair u v < 0x110000 := by
  simp only [isHighSurrogate, isLowSurrogate, Bool.and_eq_true, decide_eq_true_eq,
    UInt16.le_iff_toNat_le] at hu hv
  have hhigh : u.toNat ≤ 0xDBFF := hu.2
  have hlow : v.toNat ≤ 0xDFFF := hv.2
  unfold pair
  omega

/-- Every item is a code point. -/
theorem lt_of_mem_codePoints {text : JsString} {n : ℕ} (h : n ∈ text.codePoints) :
    n < 0x110000 := by
  have hunit (u : UInt16) : u.toNat < 0x110000 := by
    have hlt := u.toNat_lt
    omega
  fun_induction codePoints text with
  | case1 => simp at h
  | case2 u =>
      rw [List.mem_singleton.mp h]
      exact hunit u
  | case3 u v rest hpair ih =>
      rcases List.mem_cons.mp h with heq | h
      · rw [Bool.and_eq_true] at hpair
        rw [heq]
        exact pair_lt hpair.1 hpair.2
      · exact ih h
  | case4 u v rest hpair ih =>
      rcases List.mem_cons.mp h with rfl | h
      · exact hunit u
      · exact ih h

/-- A text of ASCII units has them as its code points. -/
theorem codePoints_of_ascii {text : JsString} (h : ∀ u ∈ text, u.toNat < 0x80) :
    text.codePoints = text.map UInt16.toNat := by
  fun_induction codePoints text with
  | case1 => rfl
  | case2 u => rfl
  | case3 u v rest hpair ih =>
      have hu : u.toNat < 0x80 := h u List.mem_cons_self
      simp only [isHighSurrogate, Bool.and_eq_true, decide_eq_true_eq, UInt16.le_iff_toNat_le] at hpair
      have hhigh : 0xD800 ≤ u.toNat := hpair.1.1
      omega
  | case4 u v rest hpair ih =>
      rw [ih fun w hw => h w (List.mem_cons_of_mem _ hw)]
      rfl

/-- The stored text has a character for every code point. -/
@[simp] theorem length_toText (text : JsString) : text.toText.toList.length = text.codePoints.length := by
  simp [toText]

/-- The code points of the stored text are those of the string, unless a surrogate is unpaired. -/
theorem map_toNat_toText {text : JsString} (h : ∀ n ∈ text.codePoints, isUnpaired n = false) :
    text.toText.toList.map Char.toNat = text.codePoints := by
  rw [toText, String.toList_ofList, List.map_map]
  conv_rhs => rw [← List.map_id text.codePoints]
  refine List.map_congr_left fun n hn => ?_
  have hlt := lt_of_mem_codePoints hn
  have hpaired := h n hn
  simp only [isUnpaired, Bool.and_eq_false_iff, decide_eq_false_iff_not] at hpaired
  have hvalid : n.isValidChar := by
    unfold Nat.isValidChar
    omega
  rw [Function.comp_apply, Char.ofNat, dif_pos hvalid]
  rfl

/-- White space at the end is trimmed. -/
theorem trim_concat {text : JsString} {u : UInt16} (h : isWhiteSpace u = true) :
    trim (text ++ [u]) = trim text := by
  rw [trim, trim, List.dropWhile_append]
  cases hrest : text.dropWhile isWhiteSpace with
  | nil => simp [h]
  | cons v rest =>
      rw [List.isEmpty_cons, if_neg Bool.false_ne_true, List.rdropWhile_concat_pos _ _ _ h]

/-- White space at the end does not matter. -/
theorem trim_append {text spaces : JsString} (h : ∀ u ∈ spaces, isWhiteSpace u = true) :
    trim (text ++ spaces) = trim text := by
  induction spaces generalizing text with
  | nil => rw [List.append_nil]
  | cons u rest ih =>
      rw [List.append_cons, ih fun v hv => h v (List.mem_cons_of_mem _ hv),
        trim_concat (h u List.mem_cons_self)]

/-- What is left of a text that ends with something else is a last part of it. -/
theorem trim_concat_suffix {text : JsString} {u : UInt16} (h : isWhiteSpace u = false) :
    trim (text ++ [u]) <:+ text ++ [u] := by
  rw [trim]
  have hlast : ((text ++ [u]).dropWhile isWhiteSpace).rdropWhile isWhiteSpace =
      (text ++ [u]).dropWhile isWhiteSpace := by
    rw [List.dropWhile_append]
    split_ifs
    · simp [h, List.rdropWhile_singleton]
    · exact List.rdropWhile_concat_neg _ _ _ (by simp [h])
  rw [hlast]
  exact List.dropWhile_suffix _

end JsString

end ApiWhatsApp.Library
