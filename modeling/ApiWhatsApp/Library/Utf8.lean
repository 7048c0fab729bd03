import ApiWhatsApp.Library.Utf16

/-!
# Decoding UTF-8

`bytes.toString("utf8")` of JavaScript: what is no sequence becomes U+FFFD, one for each part of a
sequence that is broken off and one for each byte that opens none.

* `decodeFrom` reads on from the middle of a sequence, and `Utf8State.Bounded` bounds what can follow.
* **`zero_not_mem_decodeFrom`** — without the byte NUL there is no NUL in the text.
* **`decodeFrom_append`** — an ASCII byte ends whatever came before, so that the rest is read afresh.
* **`decodeUtf8_utf8Bytes`** — the bytes of a text are read as the text, and **`ofText_injective`**: no two
  texts are read as one.
-/

namespace ApiWhatsApp.Library

namespace JsString

/-- The units of a code point. -/
def ofCodePoint (n : ℕ) : JsString :=
  if n < 0x10000 then [UInt16.ofNat n]
  else [UInt16.ofNat (0xD800 + (n - 0x10000) / 0x400), UInt16.ofNat (0xDC00 + (n - 0x10000) % 0x400)]

/-- A text as JavaScript has it. -/
def ofText (text : String) : JsString := text.toList.flatMap fun c => ofCodePoint c.toNat

/-- What has been read of a sequence, and the bounds of its next byte. -/
structure Utf8State where
  codePoint : ℕ := 0
  needed : ℕ := 0
  lower : UInt8 := 0x80
  upper : UInt8 := 0xBF

/-- A byte that opens a sequence, or is one. -/
def lead (b : UInt8) : JsString × Utf8State :=
  if b ≤ 0x7F then ([b.toUInt16], {})
  else if 0xC2 ≤ b && b ≤ 0xDF then ([], { needed := 1, codePoint := b.toNat - 0xC0 })
  else if 0xE0 ≤ b && b ≤ 0xEF then
    ([], { needed := 2, codePoint := b.toNat - 0xE0, lower := if b = 0xE0 then 0xA0 else 0x80,
           upper := if b = 0xED then 0x9F else 0xBF })
  else if 0xF0 ≤ b && b ≤ 0xF4 then
    ([], { needed := 3, codePoint := b.toNat - 0xF0, lower := if b = 0xF0 then 0x90 else 0x80,
           upper := if b = 0xF4 then 0x8F else 0xBF })
  else ([0xFFFD], {})

/-- The text of some bytes, from the middle of a sequence on. -/
def decodeFrom : Utf8State → List UInt8 → JsString
  | state, [] => if state.needed = 0 then [] else [0xFFFD]
  | state, b :: rest =>
      if state.needed = 0 then (lead b).1 ++ decodeFrom (lead b).2 rest
      else if state.lower ≤ b && b ≤ state.upper then
        let codePoint := state.codePoint * 0x40 + (b.toNat - 0x80)
        if state.needed = 1 then ofCodePoint codePoint ++ decodeFrom {} rest
        else decodeFrom { codePoint := codePoint, needed := state.needed - 1 } rest
      -- The sequence is broken off, and the byte is read again.
      else 0xFFFD :: ((lead b).1 ++ decodeFrom (lead b).2 rest)

/-- `bytes.toString("utf8")`. -/
def decodeUtf8 (bytes : List UInt8) : JsString := decodeFrom {} bytes

/-! ## What comes out -/

/-- A code point but the first is not written with NUL. -/
theorem ofCodePoint_ne_zero {n : ℕ} (hpos : 0 < n) (hlt : n < 0x110000) : 0 ∉ ofCodePoint n := by
  have hne : ∀ m, 0 < m → m < 2 ^ 16 → (0 : UInt16) ≠ UInt16.ofNat m := by
    intro m hm hlt heq
    have hmod := congrArg UInt16.toNat heq
    rw [UInt16.toNat_ofNat_of_lt' hlt] at hmod
    exact hm.ne hmod
  unfold ofCodePoint
  split_ifs with hsmall
  · exact List.not_mem_cons_of_ne_of_not_mem (hne n hpos hsmall) List.not_mem_nil
  · refine List.not_mem_cons_of_ne_of_not_mem (hne _ (by omega) (by omega)) ?_
    exact List.not_mem_cons_of_ne_of_not_mem (hne _ (by omega) (by omega)) List.not_mem_nil

/-- The bounds on a sequence that is being read: what comes out is no NUL, and a code point. -/
def Utf8State.Bounded (state : Utf8State) : Prop :=
  0x80 ≤ state.lower.toNat ∧ state.upper.toNat ≤ 0xBF ∧
  (state.needed = 0 ∨
  (state.needed = 1 ∧ 2 ≤ state.codePoint ∧ state.codePoint < 0x4400) ∨
  (state.needed = 2 ∧ (1 ≤ state.codePoint ∨ 0xA0 ≤ state.lower.toNat) ∧ state.codePoint < 0x110) ∨
  (state.needed = 3 ∧ (1 ≤ state.codePoint ∨ 0x90 ≤ state.lower.toNat) ∧
    (state.codePoint < 4 ∨ state.codePoint = 4 ∧ state.upper.toNat ≤ 0x8F)))

/-- The start of a sequence is bounded. -/
theorem bounded_start : Utf8State.Bounded {} := ⟨Nat.le_refl 0x80, Nat.le_refl 0xBF, .inl rfl⟩

/-- The range of a byte. -/
theorem toNat_of_between {low high b : UInt8} (h : (decide (low ≤ b) && decide (b ≤ high)) = true) :
    low.toNat ≤ b.toNat ∧ b.toNat ≤ high.toNat := by
  rw [Bool.and_eq_true, decide_eq_true_eq, decide_eq_true_eq] at h
  exact h

/-- Different bytes have different numbers. -/
theorem toNat_ne {b c : UInt8} (h : b ≠ c) : b.toNat ≠ c.toNat := fun heq => h (UInt8.toNat_inj.mp heq)

/-- The lower bound is never below that of a byte that goes on. -/
theorem le_toNat_lower {c : Prop} [Decidable c] {u : UInt8} (h : 0x80 ≤ u.toNat) :
    0x80 ≤ (if c then u else 0x80 : UInt8).toNat := by
  split_ifs
  · exact h
  · exact Nat.le_refl 0x80

/-- The upper bound is never above it. -/
theorem toNat_upper_le {c : Prop} [Decidable c] {u : UInt8} (h : u.toNat ≤ 0xBF) :
    (if c then u else 0xBF : UInt8).toNat ≤ 0xBF := by
  split_ifs
  · exact h
  · exact Nat.le_refl 0xBF

/-- A byte that is not NUL writes none, and leaves a bounded state. -/
theorem lead_spec {b : UInt8} (hb : b ≠ 0) : 0 ∉ (lead b).1 ∧ (lead b).2.Bounded := by
  unfold lead
  by_cases hone : b ≤ 0x7F
  · rw [if_pos hone]
    refine ⟨fun h => hb ?_, bounded_start⟩
    have hzero : b.toUInt16.toNat = 0 := congrArg UInt16.toNat (List.mem_singleton.mp h).symm
    exact UInt8.toNat_inj.mp (by simpa using hzero)
  rw [if_neg hone]
  by_cases htwo : (decide (0xC2 ≤ b) && decide (b ≤ 0xDF)) = true
  · rw [if_pos htwo]
    obtain ⟨hlow, hhigh⟩ : 0xC2 ≤ b.toNat ∧ b.toNat ≤ 0xDF := toNat_of_between htwo
    have hlower : 2 ≤ b.toNat - 0xC0 := by omega
    have hupper : b.toNat - 0xC0 < 0x4400 := by omega
    exact ⟨List.not_mem_nil, Nat.le_refl 0x80, Nat.le_refl 0xBF, .inr (.inl ⟨rfl, hlower, hupper⟩)⟩
  rw [if_neg htwo]
  by_cases hthree : (decide (0xE0 ≤ b) && decide (b ≤ 0xEF)) = true
  · rw [if_pos hthree]
    obtain ⟨hlow, hhigh⟩ : 0xE0 ≤ b.toNat ∧ b.toNat ≤ 0xEF := toNat_of_between hthree
    have hupper : b.toNat - 0xE0 < 0x110 := by omega
    refine ⟨List.not_mem_nil, le_toNat_lower (by decide), toNat_upper_le (by decide),
      .inr (.inr (.inl ⟨rfl, ?_, hupper⟩))⟩
    by_cases hfirst : b = 0xE0
    · rw [if_pos hfirst]
      exact .inr (Nat.le_refl 0xA0)
    · have hne : b.toNat ≠ 0xE0 := toNat_ne hfirst
      have hlower : 1 ≤ b.toNat - 0xE0 := by omega
      exact .inl hlower
  rw [if_neg hthree]
  by_cases hfour : (decide (0xF0 ≤ b) && decide (b ≤ 0xF4)) = true
  · rw [if_pos hfour]
    obtain ⟨hlow, hhigh⟩ : 0xF0 ≤ b.toNat ∧ b.toNat ≤ 0xF4 := toNat_of_between hfour
    refine ⟨List.not_mem_nil, le_toNat_lower (by decide), toNat_upper_le (by decide),
      .inr (.inr (.inr ⟨rfl, ?_, ?_⟩))⟩
    · by_cases hfirst : b = 0xF0
      · rw [if_pos hfirst]
        exact .inr (Nat.le_refl 0x90)
      · have hne : b.toNat ≠ 0xF0 := toNat_ne hfirst
        have hlower : 1 ≤ b.toNat - 0xF0 := by omega
        exact .inl hlower
    · by_cases hlast : b = 0xF4
      · rw [if_pos hlast]
        refine .inr ⟨?_, Nat.le_refl 0x8F⟩
        rw [hlast]
        rfl
      · have hne : b.toNat ≠ 0xF4 := toNat_ne hlast
        have hupper : b.toNat - 0xF0 < 4 := by omega
        exact .inl hupper
  · rw [if_neg hfour]
    exact ⟨by decide, bounded_start⟩

/-- A byte that goes on. -/
theorem Utf8State.Bounded.next {state : Utf8State} {b : UInt8} (h : state.Bounded)
    (hneeded : state.needed ≠ 0) (hlow : state.lower.toNat ≤ b.toNat)
    (hhigh : b.toNat ≤ state.upper.toNat) :
    let codePoint := state.codePoint * 0x40 + (b.toNat - 0x80)
    (state.needed = 1 → 0 < codePoint ∧ codePoint < 0x110000) ∧
      (state.needed ≠ 1 → Utf8State.Bounded { codePoint := codePoint, needed := state.needed - 1 }) := by
  have hbyte := b.toNat_lt
  dsimp only
  obtain ⟨-, hbound, h⟩ := h
  rcases h with hnone | ⟨hone, hlower, hupper⟩ | ⟨htwo, hlower, hupper⟩ | ⟨hthree, hlower, hupper⟩
  · exact absurd hnone hneeded
  · exact ⟨fun _ => ⟨by omega, by omega⟩, fun hne => absurd hone hne⟩
  · refine ⟨fun hone => by omega, fun _ =>
      ⟨Nat.le_refl 0x80, Nat.le_refl 0xBF, .inr (.inl ⟨?_, ?_, ?_⟩)⟩⟩
    · rw [htwo]
    · show 2 ≤ state.codePoint * 0x40 + (b.toNat - 0x80)
      omega
    · show state.codePoint * 0x40 + (b.toNat - 0x80) < 0x4400
      omega
  · refine ⟨fun hone => by omega, fun _ =>
      ⟨Nat.le_refl 0x80, Nat.le_refl 0xBF, .inr (.inr (.inl ⟨?_, .inl ?_, ?_⟩))⟩⟩
    · rw [hthree]
    · show 1 ≤ state.codePoint * 0x40 + (b.toNat - 0x80)
      omega
    · show state.codePoint * 0x40 + (b.toNat - 0x80) < 0x110
      omega

/-- Without the byte NUL there is no NUL in the text. -/
theorem zero_not_mem_decodeFrom {state : Utf8State} {bytes : List UInt8} (hstate : state.Bounded)
    (hbytes : 0 ∉ bytes) : 0 ∉ decodeFrom state bytes := by
  induction bytes generalizing state with
  | nil =>
      unfold decodeFrom
      split_ifs
      · exact List.not_mem_nil
      · decide
  | cons b rest ih =>
      have hb : b ≠ 0 := fun h => hbytes (h ▸ List.mem_cons_self)
      have hrest : 0 ∉ rest := fun h => hbytes (List.mem_cons_of_mem _ h)
      have hlead : 0 ∉ (lead b).1 ++ decodeFrom (lead b).2 rest :=
        List.not_mem_append (lead_spec hb).1 (ih (lead_spec hb).2 hrest)
      unfold decodeFrom
      by_cases hnone : state.needed = 0
      · rw [if_pos hnone]
        exact hlead
      rw [if_neg hnone]
      by_cases hbounds : (decide (state.lower ≤ b) && decide (b ≤ state.upper)) = true
      · obtain ⟨hlow, hhigh⟩ := toNat_of_between hbounds
        obtain ⟨hlast, hmore⟩ := hstate.next hnone hlow hhigh
        rw [if_pos hbounds]
        dsimp only
        by_cases hone : state.needed = 1
        · rw [if_pos hone]
          obtain ⟨hpos, hlt⟩ := hlast hone
          exact List.not_mem_append (ofCodePoint_ne_zero hpos hlt) (ih bounded_start hrest)
        · rw [if_neg hone]
          exact ih (hmore hone) hrest
      · rw [if_neg hbounds]
        exact List.not_mem_cons_of_ne_of_not_mem (by decide) hlead


/-- Without the byte NUL there is no NUL to take out. -/
theorem filter_decodeUtf8 {bytes : List UInt8} (h : 0 ∉ bytes) :
    ((decodeUtf8 bytes).filter fun u => u ≠ 0) = decodeUtf8 bytes := by
  have hzero : 0 ∉ decodeUtf8 bytes := zero_not_mem_decodeFrom bounded_start h
  refine List.filter_eq_self.mpr fun u hu => decide_eq_true ?_
  rintro rfl
  exact hzero hu

/-! ## ASCII bytes -/

/-- An ASCII byte is read as it is. -/
theorem lead_of_ascii {b : UInt8} (hb : b ≤ 0x7F) : lead b = ([b.toUInt16], {}) := if_pos hb

/-- An ASCII byte does not go on with a sequence. -/
theorem not_continues {state : Utf8State} {b : UInt8} (hstate : state.Bounded) (hb : b ≤ 0x7F) :
    ¬(decide (state.lower ≤ b) && decide (b ≤ state.upper)) = true := by
  intro h
  have hlower : 0x80 ≤ state.lower.toNat := hstate.1
  have hbyte : b.toNat ≤ 0x7F := hb
  have hlow := (toNat_of_between h).1
  omega

/-- ASCII bytes are read one by one. -/
theorem decodeFrom_ascii {p q : List UInt8} (h : ∀ b ∈ p, b ≤ 0x7F) :
    decodeFrom {} (p ++ q) = p.map UInt8.toUInt16 ++ decodeFrom {} q := by
  induction p with
  | nil => rfl
  | cons b rest ih =>
      rw [List.cons_append, decodeFrom, if_pos rfl, lead_of_ascii (h b List.mem_cons_self),
        ih fun c hc => h c (List.mem_cons_of_mem _ hc)]
      rfl

/-- **An ASCII byte** ends what came before. -/
theorem decodeFrom_append {state : Utf8State} {p q : List UInt8} {b : UInt8} (hstate : state.Bounded)
    (hp : 0 ∉ p) (hb : b ≤ 0x7F) :
    decodeFrom state (p ++ b :: q) = decodeFrom state p ++ b.toUInt16 :: decodeFrom {} q := by
  induction p generalizing state with
  | nil =>
      rw [List.nil_append, decodeFrom, decodeFrom, if_neg (not_continues hstate hb),
        lead_of_ascii hb]
      split_ifs
      · rfl
      · rfl
  | cons a rest ih =>
      have ha : a ≠ 0 := fun h => hp (h ▸ List.mem_cons_self)
      have hrest : 0 ∉ rest := fun h => hp (List.mem_cons_of_mem _ h)
      have hlead := ih (lead_spec ha).2 hrest
      rw [List.cons_append, decodeFrom, decodeFrom]
      by_cases hnone : state.needed = 0
      · rw [if_pos hnone, if_pos hnone, hlead, List.append_assoc]
      rw [if_neg hnone, if_neg hnone]
      by_cases hbounds : (decide (state.lower ≤ a) && decide (a ≤ state.upper)) = true
      · obtain ⟨hlow, hhigh⟩ := toNat_of_between hbounds
        obtain ⟨-, hmore⟩ := hstate.next hnone hlow hhigh
        rw [if_pos hbounds, if_pos hbounds]
        dsimp only
        by_cases hone : state.needed = 1
        · rw [if_pos hone, if_pos hone, ih bounded_start hrest, List.append_assoc]
        · rw [if_neg hone, if_neg hone, ih (hmore hone) hrest]
      · rw [if_neg hbounds, if_neg hbounds, hlead, List.cons_append, List.append_assoc]

/-- The last byte of a text, if it is no ASCII byte, leaves U+FFFD. -/
theorem decodeFrom_singleton {b : UInt8} (hb : ¬b ≤ 0x7F) : decodeFrom {} [b] = [0xFFFD] := by
  rw [decodeFrom, if_pos rfl, lead, if_neg hb]
  by_cases htwo : (decide (0xC2 ≤ b) && decide (b ≤ 0xDF)) = true
  · rw [if_pos htwo]
    rfl
  rw [if_neg htwo]
  by_cases hthree : (decide (0xE0 ≤ b) && decide (b ≤ 0xEF)) = true
  · rw [if_pos hthree]
    rfl
  rw [if_neg hthree]
  by_cases hfour : (decide (0xF0 ≤ b) && decide (b ≤ 0xF4)) = true
  · rw [if_pos hfour]
    rfl
  · rw [if_neg hfour]
    rfl

/-! ## Texts -/

/-- `Buffer.from(text, "utf8")`: the bytes of a text. -/
def utf8Bytes (text : String) : List UInt8 := text.toList.flatMap String.utf8EncodeChar

/-- A byte that opens a sequence of two. -/
theorem lead_two {b : UInt8} (hlow : 0xC2 ≤ b.toNat) (hhigh : b.toNat ≤ 0xDF) :
    lead b = ([], { needed := 1, codePoint := b.toNat - 0xC0 }) := by
  have hone : ¬b ≤ 0x7F := by
    rw [UInt8.le_iff_toNat_le]
    exact Nat.not_le.mpr (Nat.lt_of_lt_of_le (by decide) hlow)
  have htwo : (decide (0xC2 ≤ b) && decide (b ≤ 0xDF)) = true := by
    rw [Bool.and_eq_true, decide_eq_true_eq, decide_eq_true_eq]
    exact ⟨hlow, hhigh⟩
  rw [lead, if_neg hone, if_pos htwo]

/-- A byte that opens a sequence of three. -/
theorem lead_three {b : UInt8} (hlow : 0xE0 ≤ b.toNat) (hhigh : b.toNat ≤ 0xEF) :
    lead b = ([], { needed := 2, codePoint := b.toNat - 0xE0, lower := if b = 0xE0 then 0xA0 else 0x80,
                    upper := if b = 0xED then 0x9F else 0xBF }) := by
  have hone : ¬b ≤ 0x7F := by
    rw [UInt8.le_iff_toNat_le]
    exact Nat.not_le.mpr (Nat.lt_of_lt_of_le (by decide) hlow)
  have htwo : ¬(decide (0xC2 ≤ b) && decide (b ≤ 0xDF)) = true := fun h =>
    absurd (toNat_of_between h).2 (Nat.not_le.mpr (Nat.lt_of_lt_of_le (by decide) hlow))
  have hthree : (decide (0xE0 ≤ b) && decide (b ≤ 0xEF)) = true := by
    rw [Bool.and_eq_true, decide_eq_true_eq, decide_eq_true_eq]
    exact ⟨hlow, hhigh⟩
  rw [lead, if_neg hone, if_neg htwo, if_pos hthree]

/-- A byte that opens a sequence of four. -/
theorem lead_four {b : UInt8} (hlow : 0xF0 ≤ b.toNat) (hhigh : b.toNat ≤ 0xF4) :
    lead b = ([], { needed := 3, codePoint := b.toNat - 0xF0, lower := if b = 0xF0 then 0x90 else 0x80,
                    upper := if b = 0xF4 then 0x8F else 0xBF }) := by
  have hone : ¬b ≤ 0x7F := by
    rw [UInt8.le_iff_toNat_le]
    exact Nat.not_le.mpr (Nat.lt_of_lt_of_le (by decide) hlow)
  have htwo : ¬(decide (0xC2 ≤ b) && decide (b ≤ 0xDF)) = true := fun h =>
    absurd (toNat_of_between h).2 (Nat.not_le.mpr (Nat.lt_of_lt_of_le (by decide) hlow))
  have hthree : ¬(decide (0xE0 ≤ b) && decide (b ≤ 0xEF)) = true := fun h =>
    absurd (toNat_of_between h).2 (Nat.not_le.mpr (Nat.lt_of_lt_of_le (by decide) hlow))
  have hfour : (decide (0xF0 ≤ b) && decide (b ≤ 0xF4)) = true := by
    rw [Bool.and_eq_true, decide_eq_true_eq, decide_eq_true_eq]
    exact ⟨hlow, hhigh⟩
  rw [lead, if_neg hone, if_neg htwo, if_neg hthree, if_pos hfour]

/-- The number of a byte that goes on with a sequence. -/
theorem toNat_tailByte (k : ℕ) : (UInt8.ofNat (k % 0x40 + 0x80)).toNat = k % 0x40 + 0x80 := by
  rw [UInt8.toNat_ofNat']
  omega

/-- A byte between the bounds goes on with a sequence, -/
theorem decodeFrom_more {codePoint needed k : ℕ} {lower upper : UInt8} {rest : List UInt8}
    (hlow : lower.toNat ≤ k % 0x40 + 0x80) (hhigh : k % 0x40 + 0x80 ≤ upper.toNat) :
    decodeFrom ⟨codePoint, needed + 2, lower, upper⟩ (UInt8.ofNat (k % 0x40 + 0x80) :: rest) =
      decodeFrom { codePoint := codePoint * 0x40 + k % 0x40, needed := needed + 1 } rest := by
  have hbounds : (decide (lower ≤ UInt8.ofNat (k % 0x40 + 0x80)) &&
      decide (UInt8.ofNat (k % 0x40 + 0x80) ≤ upper)) = true := by
    rw [Bool.and_eq_true, decide_eq_true_eq, decide_eq_true_eq, UInt8.le_iff_toNat_le,
      UInt8.le_iff_toNat_le, toNat_tailByte]
    exact ⟨hlow, hhigh⟩
  rw [decodeFrom]
  dsimp only
  rw [if_neg (Nat.succ_ne_zero _), if_pos hbounds, if_neg (by omega), toNat_tailByte, Nat.add_sub_cancel]
  rfl

/-- and one that is the last of a sequence ends it. -/
theorem decodeFrom_last {codePoint k : ℕ} {lower upper : UInt8} {rest : List UInt8}
    (hlow : lower.toNat ≤ k % 0x40 + 0x80) (hhigh : k % 0x40 + 0x80 ≤ upper.toNat) :
    decodeFrom ⟨codePoint, 1, lower, upper⟩ (UInt8.ofNat (k % 0x40 + 0x80) :: rest) =
      ofCodePoint (codePoint * 0x40 + k % 0x40) ++ decodeFrom {} rest := by
  have hbounds : (decide (lower ≤ UInt8.ofNat (k % 0x40 + 0x80)) &&
      decide (UInt8.ofNat (k % 0x40 + 0x80) ≤ upper)) = true := by
    rw [Bool.and_eq_true, decide_eq_true_eq, decide_eq_true_eq, UInt8.le_iff_toNat_le,
      UInt8.le_iff_toNat_le, toNat_tailByte]
    exact ⟨hlow, hhigh⟩
  rw [decodeFrom]
  dsimp only
  rw [if_neg Nat.one_ne_zero, if_pos hbounds, if_pos rfl, toNat_tailByte, Nat.add_sub_cancel]

/-- The bounds of a byte that nothing else bounds. -/
theorem tailByte_bounds (k : ℕ) : 0x80 ≤ k % 0x40 + 0x80 ∧ k % 0x40 + 0x80 ≤ 0xBF := by omega

/-- A byte at the start opens a sequence, or is one. -/
theorem decodeFrom_start (b : UInt8) (rest : List UInt8) :
    decodeFrom {} (b :: rest) = (lead b).1 ++ decodeFrom (lead b).2 rest := by
  rw [decodeFrom, if_pos rfl]

/-- A sequence of two bytes. -/
theorem decodeFrom_two {n : ℕ} {rest : List UInt8} (hlow : 0x7f < n) (hhigh : n ≤ 0x7ff) :
    decodeFrom {} (UInt8.ofNat (n / 64 % 0x20 + 0xc0) :: UInt8.ofNat (n % 0x40 + 0x80) :: rest) =
      ofCodePoint n ++ decodeFrom {} rest := by
  have hfirst : (UInt8.ofNat (n / 64 % 0x20 + 0xc0)).toNat = n / 64 + 0xC0 := by
    rw [UInt8.toNat_ofNat']
    omega
  have hvalue : (n / 64 + 0xC0 - 0xC0) * 0x40 + n % 0x40 = n := by omega
  rw [decodeFrom_start, lead_two (by rw [hfirst]; omega) (by rw [hfirst]; omega), List.nil_append,
    decodeFrom_last (tailByte_bounds n).1 (tailByte_bounds n).2, hfirst, hvalue]

/-- A sequence of three bytes: it is not too long, and no surrogate. -/
theorem decodeFrom_three {n : ℕ} {rest : List UInt8} (hlow : 0x7ff < n) (hhigh : n ≤ 0xffff)
    (hvalid : n < 0xD800 ∨ 0xDFFF < n) :
    decodeFrom {} (UInt8.ofNat (n / 4096 % 0x10 + 0xe0) :: UInt8.ofNat (n / 64 % 0x40 + 0x80) ::
      UInt8.ofNat (n % 0x40 + 0x80) :: rest) = ofCodePoint n ++ decodeFrom {} rest := by
  have hfirst : (UInt8.ofNat (n / 4096 % 0x10 + 0xe0)).toNat = n / 4096 + 0xE0 := by
    rw [UInt8.toNat_ofNat']
    omega
  have hvalue : ((n / 4096 + 0xE0 - 0xE0) * 0x40 + n / 64 % 0x40) * 0x40 + n % 0x40 = n := by omega
  have hlower : (if UInt8.ofNat (n / 4096 % 0x10 + 0xe0) = 0xE0 then 0xA0 else 0x80 : UInt8).toNat ≤
      n / 64 % 0x40 + 0x80 := by
    split_ifs with heq
    · have hzero : n / 4096 + 0xE0 = 0xE0 := hfirst ▸ congrArg UInt8.toNat heq
      have hbound : 0xA0 ≤ n / 64 % 0x40 + 0x80 := by omega
      exact hbound
    · exact (tailByte_bounds _).1
  have hupper : n / 64 % 0x40 + 0x80 ≤
      (if UInt8.ofNat (n / 4096 % 0x10 + 0xe0) = 0xED then 0x9F else 0xBF : UInt8).toNat := by
    split_ifs with heq
    · have hthirteen : n / 4096 + 0xE0 = 0xED := hfirst ▸ congrArg UInt8.toNat heq
      have hbound : n / 64 % 0x40 + 0x80 ≤ 0x9F := by omega
      exact hbound
    · exact (tailByte_bounds _).2
  rw [decodeFrom_start, lead_three (by rw [hfirst]; omega) (by rw [hfirst]; omega), List.nil_append,
    decodeFrom_more hlower hupper,
    decodeFrom_last (tailByte_bounds n).1 (tailByte_bounds n).2, hfirst, hvalue]

/-- A sequence of four bytes: it is not too long, and a code point. -/
theorem decodeFrom_four {n : ℕ} {rest : List UInt8} (hlow : 0xffff < n) (hhigh : n < 0x110000) :
    decodeFrom {} (UInt8.ofNat (n / 262144 % 0x08 + 0xf0) :: UInt8.ofNat (n / 4096 % 0x40 + 0x80) ::
      UInt8.ofNat (n / 64 % 0x40 + 0x80) :: UInt8.ofNat (n % 0x40 + 0x80) :: rest) =
      ofCodePoint n ++ decodeFrom {} rest := by
  have hfirst : (UInt8.ofNat (n / 262144 % 0x08 + 0xf0)).toNat = n / 262144 + 0xF0 := by
    rw [UInt8.toNat_ofNat']
    omega
  have hvalue : (((n / 262144 + 0xF0 - 0xF0) * 0x40 + n / 4096 % 0x40) * 0x40 + n / 64 % 0x40) * 0x40 +
      n % 0x40 = n := by omega
  have hlower : (if UInt8.ofNat (n / 262144 % 0x08 + 0xf0) = 0xF0 then 0x90 else 0x80 : UInt8).toNat ≤
      n / 4096 % 0x40 + 0x80 := by
    split_ifs with heq
    · have hzero : n / 262144 + 0xF0 = 0xF0 := hfirst ▸ congrArg UInt8.toNat heq
      have hbound : 0x90 ≤ n / 4096 % 0x40 + 0x80 := by omega
      exact hbound
    · exact (tailByte_bounds _).1
  have hupper : n / 4096 % 0x40 + 0x80 ≤
      (if UInt8.ofNat (n / 262144 % 0x08 + 0xf0) = 0xF4 then 0x8F else 0xBF : UInt8).toNat := by
    split_ifs with heq
    · have hfour : n / 262144 + 0xF0 = 0xF4 := hfirst ▸ congrArg UInt8.toNat heq
      have hbound : n / 4096 % 0x40 + 0x80 ≤ 0x8F := by omega
      exact hbound
    · exact (tailByte_bounds _).2
  rw [decodeFrom_start, lead_four (by rw [hfirst]; omega) (by rw [hfirst]; omega), List.nil_append,
    decodeFrom_more hlower hupper,
    decodeFrom_more (tailByte_bounds (n / 64)).1 (tailByte_bounds (n / 64)).2,
    decodeFrom_last (tailByte_bounds n).1 (tailByte_bounds n).2, hfirst, hvalue]

/-- The code point of a character is no surrogate. -/
theorem toNat_char (c : Char) : c.toNat < 0xD800 ∨ 0xDFFF < c.toNat ∧ c.toNat < 0x110000 := c.valid

/-- **The bytes of a character** are read as its code point. -/
theorem decodeFrom_utf8EncodeChar (c : Char) (rest : List UInt8) :
    decodeFrom {} (String.utf8EncodeChar c ++ rest) = ofCodePoint c.toNat ++ decodeFrom {} rest := by
  have hvalid := toNat_char c
  have hval : c.val.toNat = c.toNat := rfl
  unfold String.utf8EncodeChar
  dsimp only
  rw [hval]
  generalize c.toNat = n at hvalid ⊢
  split_ifs with hone htwo hthree
  · have hbyte : (UInt8.ofNat n).toNat = n := by
      rw [UInt8.toNat_ofNat']
      omega
    have hascii : UInt8.ofNat n ≤ 0x7F := by
      rw [UInt8.le_iff_toNat_le, hbyte]
      exact hone
    have hunit : (UInt8.ofNat n).toUInt16 = UInt16.ofNat n := by
      refine UInt16.toNat_inj.mp ?_
      rw [UInt8.toNat_toUInt16, hbyte, UInt16.toNat_ofNat']
      omega
    rw [List.singleton_append, decodeFrom_start, lead_of_ascii hascii, hunit, ofCodePoint,
      if_pos (by omega)]
  · exact decodeFrom_two (by omega) htwo
  · exact decodeFrom_three (by omega) hthree (by omega)
  · exact decodeFrom_four (by omega) (by omega)

/-- **The bytes of a text** are read as the text. -/
theorem decodeUtf8_utf8Bytes (text : String) : decodeUtf8 (utf8Bytes text) = ofText text := by
  rw [decodeUtf8, utf8Bytes, ofText]
  induction text.toList with
  | nil => rfl
  | cons c cs ih => rw [List.flatMap_cons, List.flatMap_cons, decodeFrom_utf8EncodeChar, ih]

/-- A unit that opens no pair is an item. -/
theorem codePoints_unit {u : UInt16} (h : isHighSurrogate u = false) (rest : JsString) :
    codePoints (u :: rest) = u.toNat :: codePoints rest := by
  cases rest with
  | nil => rfl
  | cons v rest => rw [codePoints, h, Bool.false_and, if_neg Bool.false_ne_true]

/-- Two units that are a pair are one item. -/
theorem codePoints_pair {u v : UInt16} (hu : isHighSurrogate u = true) (hv : isLowSurrogate v = true)
    (rest : JsString) : codePoints (u :: v :: rest) = pair u v :: codePoints rest := by
  rw [codePoints, hu, hv, Bool.and_self, if_pos rfl]

/-- The units of a code point are one item. -/
theorem codePoints_ofCodePoint {n : ℕ} (h : n < 0xD800 ∨ 0xDFFF < n ∧ n < 0x110000) (rest : JsString) :
    codePoints (ofCodePoint n ++ rest) = n :: codePoints rest := by
  unfold ofCodePoint
  split_ifs with hsmall
  · have hunit : (UInt16.ofNat n).toNat = n := UInt16.toNat_ofNat_of_lt' hsmall
    have hhigh : isHighSurrogate (UInt16.ofNat n) = false := by
      rw [isHighSurrogate, Bool.and_eq_false_iff, decide_eq_false_iff_not, decide_eq_false_iff_not,
        UInt16.le_iff_toNat_le, UInt16.le_iff_toNat_le, hunit]
      have hends : ¬0xD800 ≤ n ∨ ¬n ≤ 0xDBFF := by omega
      exact hends
    rw [List.singleton_append, codePoints_unit hhigh, hunit]
  · have hhigh : 0xD800 + (n - 0x10000) / 0x400 < 2 ^ 16 := by omega
    have hlow : 0xDC00 + (n - 0x10000) % 0x400 < 2 ^ 16 := by omega
    have hu := UInt16.toNat_ofNat_of_lt' hhigh
    have hv := UInt16.toNat_ofNat_of_lt' hlow
    generalize UInt16.ofNat (0xD800 + (n - 0x10000) / 0x400) = u at hu ⊢
    generalize UInt16.ofNat (0xDC00 + (n - 0x10000) % 0x400) = v at hv ⊢
    have hvalue : pair u v = n := by
      unfold pair
      omega
    rw [List.cons_append, List.singleton_append, codePoints_pair, hvalue]
    · rw [isHighSurrogate, Bool.and_eq_true, decide_eq_true_eq, decide_eq_true_eq,
        UInt16.le_iff_toNat_le, UInt16.le_iff_toNat_le, hu]
      have hbounds : 0xD800 ≤ 0xD800 + (n - 0x10000) / 0x400 ∧
          0xD800 + (n - 0x10000) / 0x400 ≤ 0xDBFF := by omega
      exact hbounds
    · rw [isLowSurrogate, Bool.and_eq_true, decide_eq_true_eq, decide_eq_true_eq,
        UInt16.le_iff_toNat_le, UInt16.le_iff_toNat_le, hv]
      have hbounds : 0xDC00 ≤ 0xDC00 + (n - 0x10000) % 0x400 ∧
          0xDC00 + (n - 0x10000) % 0x400 ≤ 0xDFFF := by omega
      exact hbounds

/-- The code points of a text are its characters. -/
theorem codePoints_ofText (text : String) : codePoints (ofText text) = text.toList.map Char.toNat := by
  rw [ofText]
  induction text.toList with
  | nil => rfl
  | cons c cs ih => rw [List.flatMap_cons, codePoints_ofCodePoint (toNat_char c), ih, List.map_cons]

/-- No two texts are one in JavaScript. -/
theorem ofText_injective : Function.Injective ofText := by
  intro text text' h
  have hcodes := congrArg codePoints h
  rw [codePoints_ofText, codePoints_ofText] at hcodes
  exact String.toList_injective (List.map_injective_iff.mpr (fun c d => Char.toNat_inj.mp) hcodes)

end JsString

end ApiWhatsApp.Library
