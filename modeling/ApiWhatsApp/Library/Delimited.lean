import ApiWhatsApp.Library.Codes
import ApiWhatsApp.Library.JavaScript

/-!
# Texts with separators

Parts that are joined by a separator are read back when no part has the separator in it, and a code
that keeps some characters and writes all other bytes in hexadecimal can make sure of that.

* `join_inj` — joined texts have the same parts; `append_separator_inj` splits at the first separator.
* `percentEncode keep text` — every byte of the UTF-8 form, as it is or as `%XX`.
  **`percentEncode_injective`**: no two texts have the same code, if `%` is not kept.
* `sort_eq_of_perm` — a sorted list does not depend on the order in which its texts came, since no two
  texts have the same UTF-16 units (**`utf16Units_injective`**).
-/

namespace ApiWhatsApp.Library

/-! ## Separators -/

/-- What stands before the first separator, and behind it. -/
theorem append_separator_inj {α : Type*} {sep : α} {a b a' b' : List α} (ha : sep ∉ a) (ha' : sep ∉ a')
    (h : a ++ sep :: b = a' ++ sep :: b') : a = a' ∧ b = b' := by
  induction a generalizing a' with
  | nil =>
      cases a' with
      | nil => exact ⟨rfl, (List.cons.inj h).2⟩
      | cons c a' => exact absurd (List.mem_cons.mpr (.inl (List.cons.inj h).1)) ha'
  | cons c a ih =>
      cases a' with
      | nil => exact absurd (List.mem_cons.mpr (.inl (List.cons.inj h).1.symm)) ha
      | cons c' a' =>
          obtain ⟨rfl, hrest⟩ := List.cons.inj h
          obtain ⟨rfl, rfl⟩ := ih (fun hmem => ha (List.mem_cons_of_mem _ hmem))
            (fun hmem => ha' (List.mem_cons_of_mem _ hmem)) hrest
          exact ⟨rfl, rfl⟩

/-- Lists are told apart by a function that tells their members apart. -/
theorem eq_of_map_eq {α β : Type*} {f : α → β} {l l' : List α}
    (hf : ∀ a ∈ l, ∀ b ∈ l', f a = f b → a = b) (h : l.map f = l'.map f) : l = l' := by
  induction l generalizing l' with
  | nil => exact (List.map_eq_nil_iff.mp h.symm).symm
  | cons a l ih =>
      cases l' with
      | nil => cases h
      | cons b l' =>
          obtain ⟨hhead, htail⟩ := List.cons.inj h
          rw [hf a List.mem_cons_self b List.mem_cons_self hhead, ih (fun x hx y hy =>
            hf x (List.mem_cons_of_mem _ hx) y (List.mem_cons_of_mem _ hy)) htail]

/-- Texts that are joined by a separator which none of them has. -/
theorem join_inj {sep : Char} {xs ys : List String} (hxs : ∀ x ∈ xs, sep ∉ x.toList)
    (hys : ∀ y ∈ ys, sep ∉ y.toList) (hx : xs ≠ []) (hy : ys ≠ [])
    (h : (String.singleton sep).intercalate xs = (String.singleton sep).intercalate ys) : xs = ys := by
  have hsplit : ∀ zs : List String, (∀ z ∈ zs, sep ∉ z.toList) → zs ≠ [] →
      ((String.singleton sep).intercalate zs).toList.splitOn sep = zs.map String.toList := by
    intro zs hzs hz
    rw [String.toList_intercalate, String.toList_singleton, List.splitOn_intercalate]
    · intro l hl
      obtain ⟨z, hmem, rfl⟩ := List.mem_map.mp hl
      exact hzs z hmem
    · rwa [Ne, List.map_eq_nil_iff]
  have hlists := hsplit xs hxs hx
  rw [h, hsplit ys hys hy] at hlists
  exact (List.map_injective_iff.mpr fun _ _ => String.toList_inj.mp) hlists.symm

/-- The same, where no text is empty: then there may be none. -/
theorem join_inj_of_ne {sep : Char} {xs ys : List String} (hxs : ∀ x ∈ xs, sep ∉ x.toList)
    (hys : ∀ y ∈ ys, sep ∉ y.toList) (hx : ∀ x ∈ xs, x ≠ "") (hy : ∀ y ∈ ys, y ≠ "")
    (h : (String.singleton sep).intercalate xs = (String.singleton sep).intercalate ys) : xs = ys := by
  have hempty : ∀ zs : List String, (∀ z ∈ zs, sep ∉ z.toList) → (∀ z ∈ zs, z ≠ "") →
      (String.singleton sep).intercalate [] = (String.singleton sep).intercalate zs → zs = [] := by
    intro zs hzs hz heq
    by_contra hne
    rw [String.intercalate_nil, ← String.intercalate_singleton (s := String.singleton sep) (t := "")]
      at heq
    have hzero : [""] = zs := join_inj (fun x hx => by simp [List.mem_singleton.mp hx]) hzs
      (List.cons_ne_nil _ _) hne heq
    exact hz "" (hzero ▸ List.mem_singleton_self _) rfl
  by_cases hnil : xs = []
  · subst hnil
    exact (hempty ys hys hy h).symm
  · by_cases hnil' : ys = []
    · subst hnil'
      exact hempty xs hxs hx h.symm
    · exact join_inj hxs hys hnil hnil' h

/-- A character of joined texts is a separator, or one of a text. -/
theorem mem_join {sep c : Char} {xs : List String}
    (h : c ∈ ((String.singleton sep).intercalate xs).toList) : c = sep ∨ ∃ x ∈ xs, c ∈ x.toList := by
  induction xs with
  | nil => simp at h
  | cons x xs ih =>
      by_cases hnil : xs = []
      · subst hnil
        rw [String.intercalate_singleton] at h
        exact .inr ⟨x, List.mem_cons_self, h⟩
      · rw [String.intercalate_cons_of_ne_nil hnil, String.toList_append, String.toList_append,
          String.toList_singleton, List.mem_append, List.mem_append, List.mem_singleton] at h
        rcases h with (hx | hsep) | hrest
        · exact .inr ⟨x, List.mem_cons_self, hx⟩
        · exact .inl hsep
        · refine (ih hrest).imp_right ?_
          rintro ⟨y, hy, hc⟩
          exact ⟨y, List.mem_cons_of_mem _ hy, hc⟩

/-! ## Percent encoding -/

/-- A digit of `toString(16).toUpperCase()`. -/
def upperHexDigit (n : ℕ) : Char := if n < 10 then Char.ofNat (48 + n) else Char.ofNat (55 + n)

/-- A byte, as it is or in hexadecimal. -/
def percentByte (keep : Char → Bool) (b : UInt8) : List Char :=
  let c := Char.ofNat b.toNat
  if keep c then [c] else ['%', upperHexDigit (b.toNat / 16), upperHexDigit (b.toNat % 16)]

/-- The bytes of a text, one after the other. -/
def percentEncode (keep : Char → Bool) (text : String) : String :=
  String.ofList (text.toUTF8.data.toList.flatMap (percentByte keep))

theorem toNat_ofNat_of_lt {n : ℕ} (h : n < 256) : (Char.ofNat n).toNat = n := by
  have hvalid : n.isValidChar := .inl (Nat.lt_trans h (by decide))
  rw [Char.ofNat, dif_pos hvalid]
  rfl

theorem upperHexDigit_inj {m n : ℕ} (hm : m < 16) (hn : n < 16)
    (h : upperHexDigit m = upperHexDigit n) : m = n := by
  have hdigit : ∀ k : ℕ, k < 16 → (upperHexDigit k).toNat = if k < 10 then 48 + k else 55 + k := by
    intro k hk
    unfold upperHexDigit
    split_ifs with hsmall
    · exact toNat_ofNat_of_lt (by omega)
    · exact toNat_ofNat_of_lt (by omega)
  have hnat := congrArg Char.toNat h
  rw [hdigit m hm, hdigit n hn] at hnat
  split_ifs at hnat <;> omega

variable {keep : Char → Bool}

/-- The codes of two bytes are told apart, and from what follows. -/
theorem prefixFree_percentByte (hpercent : keep '%' = false) :
    PrefixFree (fun _ : UInt8 => True) (percentByte keep) := by
  intro b d u v _ _ h
  have hb : b.toNat < 256 := b.toNat_lt
  have hd : d.toNat < 256 := d.toNat_lt
  unfold percentByte at h
  dsimp only at h
  split_ifs at h with hkeep hkeep' hkeep'
  · obtain ⟨hchar, rfl⟩ := List.cons.inj h
    have hnat := congrArg Char.toNat hchar
    rw [toNat_ofNat_of_lt hb, toNat_ofNat_of_lt hd] at hnat
    exact ⟨UInt8.toNat_inj.mp hnat, rfl⟩
  · rw [(List.cons.inj h).1, hpercent] at hkeep
    cases hkeep
  · rw [← (List.cons.inj h).1, hpercent] at hkeep'
    cases hkeep'
  · simp only [List.cons_append, List.nil_append, List.cons.injEq, true_and] at h
    have hhigh := upperHexDigit_inj (by omega) (by omega) h.1
    have hlow := upperHexDigit_inj (by omega) (by omega) h.2.1
    exact ⟨UInt8.toNat_inj.mp (by omega), h.2.2⟩

/-- **No two texts have the same code.** -/
theorem percentEncode_injective (hpercent : keep '%' = false) {s t : String}
    (h : percentEncode keep s = percentEncode keep t) : s = t := by
  have hlist := String.ofList_injective h
  rw [List.flatMap_def, List.flatMap_def] at hlist
  have hne : ∀ b : UInt8, percentByte keep b ≠ [] := by
    intro b
    unfold percentByte
    dsimp only
    split_ifs <;> exact List.cons_ne_nil _ _
  have hbytes := (prefixFree_percentByte hpercent).flatten_injective hne (fun _ _ => trivial)
    (fun _ _ => trivial) hlist
  exact String.toByteArray_inj.mp (ByteArray.ext (Array.toList_inj.mp hbytes))

/-- A code has only characters that are kept, and those of the hexadecimal form. -/
theorem mem_percentEncode {text : String} {c : Char} (h : c ∈ (percentEncode keep text).toList) :
    keep c = true ∨ c = '%' ∨ ∃ n < 16, c = upperHexDigit n := by
  rw [percentEncode, String.toList_ofList, List.mem_flatMap] at h
  obtain ⟨b, -, hc⟩ := h
  have hb : b.toNat < 256 := b.toNat_lt
  unfold percentByte at hc
  dsimp only at hc
  split_ifs at hc with hkeep
  · rw [List.mem_singleton.mp hc]
    exact .inl hkeep
  · simp only [List.mem_cons, List.not_mem_nil, or_false] at hc
    rcases hc with rfl | rfl | rfl
    · exact .inr (.inl rfl)
    · exact .inr (.inr ⟨_, by omega, rfl⟩)
    · exact .inr (.inr ⟨_, by omega, rfl⟩)

/-- A separator that is not kept occurs in no code. -/
theorem notMem_percentEncode {c : Char} (hhex : ∀ n < 16, keep (upperHexDigit n) = true)
    (hc : keep c = false) (hpercent : c ≠ '%') (text : String) : c ∉ (percentEncode keep text).toList := by
  intro hmem
  rcases mem_percentEncode hmem with hkeep | rfl | ⟨n, hn, rfl⟩
  · rw [hc] at hkeep
    cases hkeep
  · exact hpercent rfl
  · rw [hhex n hn] at hc
    cases hc

/-! ## Sorting -/

/-- The units of a character. -/
def charUnits (c : Char) : List ℕ :=
  if 0x10000 ≤ c.toNat then
    [0xD800 + (c.toNat - 0x10000) / 0x400, 0xDC00 + (c.toNat - 0x10000) % 0x400]
  else [c.toNat]

/-- Surrogates belong to no character of one unit. -/
theorem prefixFree_charUnits : PrefixFree (fun _ : Char => True) charUnits := by
  intro c d u v _ _ h
  have hvalid : ∀ c : Char, c.toNat < 0xD800 ∨ 0xDFFF < c.toNat ∧ c.toNat < 0x110000 := fun c => c.valid
  have hc := hvalid c
  have hd := hvalid d
  unfold charUnits at h
  split_ifs at h with hbig hbig' hbig' <;>
    simp only [List.cons_append, List.nil_append, List.cons.injEq] at h
  · exact ⟨char_eq_of_toNat (by omega), h.2.2⟩
  · omega
  · omega
  · exact ⟨char_eq_of_toNat h.1, h.2⟩

/-- **No two texts have the same units.** -/
theorem utf16Units_injective {s t : String} (h : utf16Units s = utf16Units t) : s = t := by
  have hne : ∀ c : Char, charUnits c ≠ [] := by
    intro c
    unfold charUnits
    split_ifs <;> exact List.cons_ne_nil _ _
  have hlist : (s.toList.map charUnits).flatten = (t.toList.map charUnits).flatten := by
    rw [← List.flatMap_def, ← List.flatMap_def]
    exact h
  exact String.toList_inj.mp (prefixFree_charUnits.flatten_injective hne (fun _ _ => trivial)
    (fun _ _ => trivial) hlist)

theorem unitsLe_antisymm {s t : String} (hst : unitsLe s t) (hts : unitsLe t s) : s = t :=
  utf16Units_injective (le_antisymm hst hts)

/-- The order in which texts come does not matter to `sort`. -/
theorem sort_eq_of_perm {xs ys : List String} (h : xs.Perm ys) : sort xs = sort ys :=
  (((perm_sort xs).trans h).trans (perm_sort ys).symm).eq_of_pairwise
    (fun _ _ _ _ hab hba => unitsLe_antisymm hab hba) (pairwise_sort xs) (pairwise_sort ys)

end ApiWhatsApp.Library
