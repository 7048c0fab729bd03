import Mathlib.Data.List.Basic
import Mathlib.Order.Lattice
import Mathlib.Tactic.Common

/-!
# Walking over a file

A validator reads a file item by item: the length of an item follows from its own bytes, and so does
the position of the next one.

* `readExactly` reads a slice, or nothing when the file ends before it.
* `scan body size` is `while (offset < size && count < limit)` around a body that returns from the
  function (`.error result`) or goes on behind an item of some length with a new state.
* `visited` lists the offsets at which the loop looks.
* `Chain Item s items s'` — the items lead from one state to the other, each of them legal where it
  stands. **`scan_eq_ok_iff`** and **`scan_eq_error_true_iff`**: a scan goes through exactly over the
  concatenations of such items. In `ChainBefore` and **`scan_eq_ok_iff_before`** an item may depend on
  what follows it, as one does that runs to the end of the file.
* `searchBack` looks for the last offset at which there is a result.
-/

namespace ApiWhatsApp.Library

variable {α σ : Type*}

/-! ## Reading -/

/-- The first `length` items of a list, if it has as many. -/
def takeExactly (length : ℕ) (rest : List α) : Option (List α) :=
  if (rest.take length).length = length then some (rest.take length) else none

/-- Source: `readExactly(handle, length, position)`. -/
def readExactly (file : List α) (length position : ℕ) : Option (List α) :=
  takeExactly length (file.drop position)

/-- What is taken is the front, in the length asked for. -/
theorem takeExactly_eq_some {length : ℕ} {rest slice : List α} :
    takeExactly length rest = some slice ↔ slice.length = length ∧ ∃ after, rest = slice ++ after := by
  unfold takeExactly
  split_ifs with hlength
  · constructor
    · intro h
      cases h
      exact ⟨hlength, rest.drop length, (List.take_append_drop length rest).symm⟩
    · rintro ⟨rfl, after, rfl⟩
      rw [List.take_left]
  · refine iff_of_false (fun h => nomatch h) ?_
    rintro ⟨rfl, after, rfl⟩
    exact hlength (by rw [List.take_left])

/-- A front of that length is taken. -/
@[simp] theorem takeExactly_append {length : ℕ} {slice : List α} (h : slice.length = length)
    (after : List α) : takeExactly length (slice ++ after) = some slice :=
  takeExactly_eq_some.mpr ⟨h, after, rfl⟩

/-- Enough is taken where there is enough. -/
theorem takeExactly_of_le {length : ℕ} {rest : List α} (h : length ≤ rest.length) :
    takeExactly length rest = some (rest.take length) :=
  if_pos (List.length_take_of_le h)

/-- Nothing is taken where there is too little. -/
theorem takeExactly_eq_none {length : ℕ} {rest : List α} :
    takeExactly length rest = none ↔ rest.length < length := by
  unfold takeExactly
  rw [List.length_take]
  split_ifs with h
  · simp only [false_iff]
    omega
  · simp only [true_iff]
    omega

/-- A slice is read in two parts. -/
theorem readExactly_add (file : List α) (length length' position : ℕ) :
    readExactly file (length + length') position =
      (readExactly file length position).bind fun slice =>
        (readExactly file length' (position + length)).map fun slice' => slice ++ slice' := by
  unfold readExactly
  rw [← List.drop_drop]
  generalize file.drop position = rest
  rcases Nat.lt_or_ge rest.length length with hlt | hle
  · rw [takeExactly_eq_none.mpr hlt, takeExactly_eq_none.mpr (by omega), Option.bind_none]
  · rw [takeExactly_of_le hle, Option.bind_some]
    rcases Nat.lt_or_ge (rest.drop length).length length' with hlt' | hle'
    · rw [takeExactly_eq_none.mpr hlt', Option.map_none, takeExactly_eq_none]
      rw [List.length_drop] at hlt'
      omega
    · rw [takeExactly_of_le hle', Option.map_some, ← List.take_add]
      rw [List.length_drop] at hle'
      exact takeExactly_of_le (by omega)

/-- What is read is what stands at the position. -/
theorem readExactly_eq_some {length position : ℕ} {file slice : List α} :
    readExactly file length position = some slice ↔
      slice.length = length ∧ ∃ after, file.drop position = slice ++ after :=
  takeExactly_eq_some

/-- A slice that stands in the file is read. -/
theorem readExactly_of_drop {position : ℕ} {file slice after : List α}
    (h : file.drop position = slice ++ after) :
    readExactly file slice.length position = some slice :=
  readExactly_eq_some.mpr ⟨rfl, after, h⟩

/-- A slice of a given length, or what there is of it. -/
theorem readExactly_min (file : List α) (size position : ℕ) :
    readExactly file (min size (file.length - position)) position =
      some ((file.drop position).take size) := by
  unfold readExactly
  rw [takeExactly_of_le (by rw [List.length_drop]; exact Nat.min_le_right _ _),
    ← List.length_drop, ← List.take_eq_take_min]

/-- The head of a file. -/
theorem readExactly_start (file : List α) (size : ℕ) :
    readExactly file (min file.length size) 0 = some (file.take size) := by
  have h := readExactly_min file size 0
  rwa [Nat.sub_zero, Nat.min_comm, List.drop_zero] at h

/-- The end of a file. -/
theorem readExactly_end (file : List α) (size : ℕ) :
    readExactly file (min file.length size) (file.length - min file.length size) =
      some (file.drop (file.length - min file.length size)) := by
  unfold readExactly
  rw [takeExactly_of_le (by rw [List.length_drop]; omega), List.take_of_length_le]
  rw [List.length_drop]
  omega

/-- What stands in the head of a file stands in the file. -/
theorem drop_of_drop_take {file item after : List α} {size offset : ℕ}
    (h : (file.take size).drop offset = item ++ after) (hne : item ≠ []) :
    file.drop offset = item ++ (after ++ file.drop size) ∧ offset + item.length ≤ size := by
  have hpos := List.length_pos_iff.mpr hne
  have hsum := congrArg List.length h
  rw [List.length_drop, List.length_append, List.length_take] at hsum
  refine ⟨?_, by omega⟩
  conv_lhs => rw [← List.take_append_drop size file]
  rw [List.drop_append_of_le_length (by rw [List.length_take]; omega), h, List.append_assoc]

/-- What stands in a file before some offset stands in the head of the file. -/
theorem drop_take_of_drop {file item after : List α} {size offset : ℕ}
    (h : file.drop offset = item ++ after) (hle : offset + item.length ≤ size) :
    (file.take size).drop offset = item ++ after.take (size - offset - item.length) := by
  rw [List.drop_take, h, List.take_append, List.take_of_length_le (by omega)]

/-! ## Scanning -/

/-- The loop; it leaves the rest of the budget, the state and the offset. -/
def scan (body : σ → ℕ → Except Bool (ℕ × σ)) (size : ℕ) :
    ℕ → σ → ℕ → Except Bool (ℕ × σ × ℕ)
  | 0, s, offset => .ok (0, s, offset)
  | budget + 1, s, offset =>
      if offset < size then
        match body s offset with
        | .error result => .error result
        | .ok (length, s') => scan body size budget s' (offset + length)
      else .ok (budget + 1, s, offset)

/-- The offsets at which the loop runs its body. -/
def visited (body : σ → ℕ → Except Bool (ℕ × σ)) (size : ℕ) : ℕ → σ → ℕ → List ℕ
  | 0, _, _ => []
  | budget + 1, s, offset =>
      if offset < size then
        match body s offset with
        | .error _ => [offset]
        | .ok (length, s') => offset :: visited body size budget s' (offset + length)
      else []

/-- The items lead from one state to the other. -/
def Chain {β : Type*} (Item : σ → β → σ → Prop) : σ → List β → σ → Prop
  | s, [], s' => s' = s
  | s, item :: items, s' => ∃ t, Item s item t ∧ Chain Item t items s'

/-- The same, where what is legal depends on the items that follow. -/
def ChainBefore {β : Type*} (Item : σ → β → List β → σ → Prop) : σ → List β → σ → Prop
  | s, [], s' => s' = s
  | s, item :: items, s' => ∃ t, Item s item items t ∧ ChainBefore Item t items s'

section

variable {β : Type*} {Item : σ → β → σ → Prop} {s s' t : σ} {items : List β}

/-- No items lead nowhere. -/
@[simp] theorem chain_nil : Chain Item s [] s' ↔ s' = s := Iff.rfl

/-- The first item leads to where the others start. -/
theorem chain_cons {item : β} :
    Chain Item s (item :: items) s' ↔ ∃ t, Item s item t ∧ Chain Item t items s' := Iff.rfl

/-- The condition may be put in other words. -/
theorem chain_congr {Item' : σ → β → σ → Prop} (h : ∀ s item s', Item s item s' ↔ Item' s item s') :
    Chain Item s items s' ↔ Chain Item' s items s' := by
  have hsame : Item = Item' := funext fun s => funext fun item => funext fun s' => propext (h s item s')
  rw [hsame]

/-- What does not depend on the state holds of every item. -/
theorem chain_and {P : β → Prop} :
    Chain (fun s item s' => P item ∧ Item s item s') s items s' ↔
      (∀ item ∈ items, P item) ∧ Chain Item s items s' := by
  induction items generalizing s with
  | nil => simp
  | cons item items ih =>
      simp only [chain_cons, ih, List.forall_mem_cons]
      constructor
      · rintro ⟨t, ⟨hfirst, hitem⟩, hall, hrest⟩
        exact ⟨⟨hfirst, hall⟩, t, hitem, hrest⟩
      · rintro ⟨⟨hfirst, hall⟩, t, hitem, hrest⟩
        exact ⟨t, ⟨hfirst, hitem⟩, hall, hrest⟩

/-- A property of the state that every item keeps. -/
theorem Chain.invariant {P : σ → Prop} (h : Chain Item s items s') (hs : P s)
    (hkeep : ∀ s item s', P s → Item s item s' → P s') : P s' := by
  induction items generalizing s with
  | nil => exact chain_nil.mp h ▸ hs
  | cons item items ih =>
      obtain ⟨t, hitem, hrest⟩ := h
      exact ih hrest (hkeep s item t hs hitem)

/-- A condition that looks at no later items. -/
theorem chainBefore_iff_chain :
    ChainBefore (fun s item _ s' => Item s item s') s items s' ↔ Chain Item s items s' := by
  induction items generalizing s with
  | nil => exact Iff.rfl
  | cons item items ih =>
      rw [ChainBefore, chain_cons]
      exact exists_congr fun t => and_congr_right fun _ => ih

/-- Items that are codes are a list of codes. -/
theorem chainBefore_map {γ : Type*} {encode : γ → β} {P : σ → γ → List β → σ → Prop} :
    ChainBefore (fun s item items s' => ∃ c, item = encode c ∧ P s c items s') s items s' ↔
      ∃ codes, items = codes.map encode ∧
        ChainBefore (fun s c codes s' => P s c (codes.map encode) s') s codes s' := by
  constructor
  · intro h
    induction items generalizing s with
    | nil => exact ⟨[], rfl, h⟩
    | cons item items ih =>
        obtain ⟨t, ⟨c, rfl, hc⟩, hrest⟩ := h
        obtain ⟨codes, rfl, hcodes⟩ := ih hrest
        exact ⟨c :: codes, rfl, t, hc, hcodes⟩
  · rintro ⟨codes, rfl, h⟩
    induction codes generalizing s with
    | nil => exact h
    | cons c codes ih =>
        obtain ⟨t, hc, hrest⟩ := h
        exact ⟨t, ⟨c, rfl, hc⟩, ih hrest⟩

/-- A chain of codes. -/
theorem chain_map {γ : Type*} {encode : γ → β} {P : σ → γ → σ → Prop} :
    Chain (fun s item s' => ∃ c, item = encode c ∧ P s c s') s items s' ↔
      ∃ codes, items = codes.map encode ∧ Chain P s codes s' := by
  rw [← chainBefore_iff_chain, chainBefore_map]
  simp only [chainBefore_iff_chain]

/-- What holds of every item between those before and after it holds of the first one and of the
others. -/
theorem forall_split_cons {P : List β → β → List β → Prop} {item : β} :
    (∀ before item' after, item :: items = before ++ item' :: after → P before item' after) ↔
      P [] item items ∧
        ∀ before item' after, items = before ++ item' :: after → P (item :: before) item' after := by
  constructor
  · intro h
    exact ⟨h [] item items rfl, fun before item' after heq =>
      h (item :: before) item' after (congrArg _ heq)⟩
  · rintro ⟨hfirst, hrest⟩ before item' after heq
    cases before with
    | nil =>
        obtain ⟨rfl, rfl⟩ := List.cons.inj heq
        exact hfirst
    | cons first before =>
        obtain ⟨rfl, htail⟩ := List.cons.inj heq
        exact hrest before item' after htail

/-- What does not depend on the others holds of every item. -/
theorem forall_split_iff_forall_mem {P : β → Prop} :
    (∀ before item after, items = before ++ item :: after → P item) ↔ ∀ item ∈ items, P item := by
  constructor
  · intro h item hitem
    obtain ⟨before, after, heq⟩ := List.append_of_mem hitem
    exact h before item after heq
  · intro h before item after heq
    exact h item (heq ▸ List.mem_append_right _ List.mem_cons_self)

/-- It holds of two lists in a row if it does of each, before or behind the other. -/
theorem forall_split_append {P : List β → β → List β → Prop} {more : List β} :
    (∀ before item after, items ++ more = before ++ item :: after → P before item after) ↔
      (∀ before item after, items = before ++ item :: after → P before item (after ++ more)) ∧
        ∀ before item after, more = before ++ item :: after → P (items ++ before) item after := by
  induction items generalizing P with
  | nil => simp
  | cons item items ih =>
      rw [List.cons_append, forall_split_cons, ih, forall_split_cons, and_assoc]
      rfl

/-- Where an item is only admitted, and the state follows from it, the last state follows from the
items and each of them is admitted behind those before it. -/
theorem chainBefore_admits_iff {Admits : σ → β → List β → Prop} {update : σ → β → σ} :
    ChainBefore (fun s item items s' => Admits s item items ∧ s' = update s item) s items s' ↔
      s' = items.foldl update s ∧ ∀ before item after, items = before ++ item :: after →
        Admits (before.foldl update s) item after := by
  induction items generalizing s with
  | nil =>
      refine ⟨fun h => ⟨h, fun before item after heq => ?_⟩, And.left⟩
      exact absurd heq.symm (by simp)
  | cons item items ih =>
      rw [forall_split_cons]
      constructor
      · rintro ⟨t, ⟨hadmits, rfl⟩, hrest⟩
        obtain ⟨rfl, hall⟩ := ih.mp hrest
        exact ⟨rfl, hadmits, hall⟩
      · rintro ⟨rfl, hadmits, hall⟩
        exact ⟨_, ⟨hadmits, rfl⟩, ih.mpr ⟨rfl, hall⟩⟩

/-- A chain along a function is a fold. -/
theorem chain_admits_iff {Admits : σ → β → Prop} {update : σ → β → σ} :
    Chain (fun s item s' => Admits s item ∧ s' = update s item) s items s' ↔
      s' = items.foldl update s ∧
        ∀ before item after, items = before ++ item :: after → Admits (before.foldl update s) item := by
  rw [← chainBefore_iff_chain, chainBefore_admits_iff]

end

/-- The body reads the items of a file: where it goes on there is one, and where there is one it goes
on behind it. -/
structure Scans (body : σ → ℕ → Except Bool (ℕ × σ)) (file : List α)
    (Item : σ → List α → σ → Prop) : Prop where
  sound : ∀ {s offset length s'}, body s offset = .ok (length, s') →
    ∃ item after, file.drop offset = item ++ after ∧ item.length = length ∧ Item s item s'
  complete : ∀ {s offset item after s'}, file.drop offset = item ++ after → Item s item s' →
    body s offset = .ok (item.length, s')
  ne_nil : ∀ {s item s'}, Item s item s' → item ≠ []

/-- The same, where what is an item depends on the rest of the file. -/
structure ScansBefore (body : σ → ℕ → Except Bool (ℕ × σ)) (file : List α)
    (Item : σ → List α → List α → σ → Prop) : Prop where
  sound : ∀ {s offset length s'}, body s offset = .ok (length, s') →
    ∃ item after, file.drop offset = item ++ after ∧ item.length = length ∧ Item s item after s'
  complete : ∀ {s offset item after s'}, file.drop offset = item ++ after → Item s item after s' →
    body s offset = .ok (item.length, s')
  ne_nil : ∀ {s item after s'}, Item s item after s' → item ≠ []

/-- What looks at no later items may be given them. -/
theorem Scans.before {body : σ → ℕ → Except Bool (ℕ × σ)} {file : List α}
    {Item : σ → List α → σ → Prop} (hbody : Scans body file Item) :
    ScansBefore body file fun s item _ s' => Item s item s' where
  sound := hbody.sound
  complete := hbody.complete
  ne_nil := hbody.ne_nil

section

variable {body : σ → ℕ → Except Bool (ℕ × σ)} {file : List α} {Item : σ → List α → σ → Prop}
  {s s' : σ} {budget rest offset : ℕ}

/-- Items that fill nothing are none. -/
theorem Scans.items_eq_nil (hbody : Scans body file Item) {items : List (List α)}
    (h : Chain Item s items s') (hflatten : items.flatten = []) : items = [] := by
  cases items with
  | nil => rfl
  | cons item items =>
      obtain ⟨t, hitem, -⟩ := h
      exact absurd (List.append_eq_nil_iff.mp hflatten).1 (hbody.ne_nil hitem)

/-- **A scan goes through to the end** exactly over a concatenation of items. -/
theorem scan_eq_ok_iff_before {Item : σ → List α → List α → σ → Prop}
    (hbody : ScansBefore body file Item) (hoffset : offset ≤ file.length) :
    scan body file.length budget s offset = .ok (rest, s', file.length) ↔
      ∃ items, file.drop offset = items.flatten ∧
        ChainBefore (fun s item items s' => Item s item items.flatten s') s items s' ∧
        items.length + rest = budget := by
  induction budget generalizing s offset with
  | zero =>
      constructor
      · intro h
        cases h
        exact ⟨[], List.drop_length, rfl, rfl⟩
      · rintro ⟨items, hflatten, hchain, hlength⟩
        obtain ⟨hitems, rfl⟩ := Nat.add_eq_zero_iff.mp hlength
        obtain rfl := List.eq_nil_of_length_eq_zero hitems
        have hend := List.drop_eq_nil_iff.mp hflatten
        obtain rfl : s' = s := hchain
        rw [scan, Nat.le_antisymm hend hoffset]
  | succ budget ih =>
      rw [scan]
      split_ifs with hmore
      · constructor
        · intro h
          cases hstep : body s offset with
          | error result => rw [hstep] at h; cases h
          | ok next =>
              obtain ⟨length, t⟩ := next
              rw [hstep] at h
              obtain ⟨item, after, hdrop, hlength, hitem⟩ := hbody.sound hstep
              have hafter : file.drop (offset + length) = after := by
                rw [← List.drop_drop, hdrop, ← hlength, List.drop_left]
              have hle : offset + length ≤ file.length := by
                have hsum := congrArg List.length hdrop
                rw [List.length_drop, List.length_append] at hsum
                omega
              obtain ⟨items, hflatten, hchain, hcount⟩ := (ih hle).mp h
              rw [hafter] at hflatten
              rw [hflatten] at hitem
              refine ⟨item :: items, ?_, ⟨t, hitem, hchain⟩, ?_⟩
              · rw [List.flatten_cons, ← hflatten, hdrop]
              · rw [List.length_cons]
                omega
        · rintro ⟨items, hflatten, hchain, hcount⟩
          cases items with
          | nil =>
              have hend := List.drop_eq_nil_iff.mp hflatten
              omega
          | cons item items =>
              obtain ⟨t, hitem, hchain⟩ := hchain
              rw [List.flatten_cons] at hflatten
              rw [hbody.complete hflatten hitem]
              have hle : offset + item.length ≤ file.length := by
                have hsum := congrArg List.length hflatten
                rw [List.length_drop, List.length_append] at hsum
                omega
              refine (ih hle).mpr ⟨items, ?_, hchain, ?_⟩
              · rw [← List.drop_drop, hflatten, List.drop_left]
              · rw [List.length_cons] at hcount
                omega
      · have hend : offset = file.length := by omega
        subst hend
        constructor
        · intro h
          cases h
          exact ⟨[], List.drop_length, rfl, Nat.zero_add _⟩
        · rintro ⟨items, hflatten, hchain, hcount⟩
          rw [List.drop_length] at hflatten
          cases items with
          | nil =>
              obtain rfl : s' = s := hchain
              rw [← hcount, List.length_nil, Nat.zero_add]
          | cons item items =>
              obtain ⟨t, hitem, -⟩ := hchain
              exact absurd (List.append_eq_nil_iff.mp hflatten.symm).1 (hbody.ne_nil hitem)

/-- A scan ends at the end of the file just when items lead there. -/
theorem scan_eq_ok_iff (hbody : Scans body file Item) (hoffset : offset ≤ file.length) :
    scan body file.length budget s offset = .ok (rest, s', file.length) ↔
      ∃ items, file.drop offset = items.flatten ∧ Chain Item s items s' ∧
        items.length + rest = budget := by
  simp only [scan_eq_ok_iff_before hbody.before hoffset, chainBefore_iff_chain]

/-- **A scan returns `true`** where its body does, behind a concatenation of items that leaves some of
the budget. -/
theorem scan_eq_error_true_iff (hbody : Scans body file Item) (hoffset : offset ≤ file.length) :
    scan body file.length budget s offset = .error true ↔
      ∃ items t rest, file.drop offset = items.flatten ++ rest ∧ rest ≠ [] ∧ Chain Item s items t ∧
        items.length < budget ∧ body t (offset + items.flatten.length) = .error true := by
  induction budget generalizing s offset with
  | zero =>
      refine iff_of_false (fun h => nomatch h) ?_
      rintro ⟨items, t, rest, -, -, -, hlt, -⟩
      exact absurd hlt (Nat.not_lt_zero _)
  | succ budget ih =>
      rw [scan]
      split_ifs with hmore
      · constructor
        · intro h
          cases hstep : body s offset with
          | error result =>
              rw [hstep] at h
              cases h
              refine ⟨[], s, file.drop offset, rfl, ?_, rfl, Nat.succ_pos _, hstep⟩
              exact fun hnil => Nat.not_lt.mpr (List.drop_eq_nil_iff.mp hnil) hmore
          | ok next =>
              obtain ⟨length, t⟩ := next
              rw [hstep] at h
              obtain ⟨item, after, hdrop, hlength, hitem⟩ := hbody.sound hstep
              have hafter : file.drop (offset + length) = after := by
                rw [← List.drop_drop, hdrop, ← hlength, List.drop_left]
              have hle : offset + length ≤ file.length := by
                have hsum := congrArg List.length hdrop
                rw [List.length_drop, List.length_append] at hsum
                omega
              obtain ⟨items, u, rest, hflatten, hrest, hchain, hcount, htrue⟩ := (ih hle).mp h
              refine ⟨item :: items, u, rest, ?_, hrest, ⟨t, hitem, hchain⟩, ?_, ?_⟩
              · rw [List.flatten_cons, List.append_assoc, ← hflatten, hafter, hdrop]
              · exact Nat.succ_lt_succ hcount
              · rw [List.flatten_cons, List.length_append, hlength, ← Nat.add_assoc]
                exact htrue
        · rintro ⟨items, t, rest, hflatten, hrest, hchain, hcount, htrue⟩
          cases items with
          | nil =>
              rw [chain_nil.mp hchain] at htrue
              have hzero : offset + ([] : List (List α)).flatten.length = offset := rfl
              rw [hzero] at htrue
              rw [htrue]
          | cons item items =>
              obtain ⟨u, hitem, hchain⟩ := hchain
              rw [List.flatten_cons, List.append_assoc] at hflatten
              rw [hbody.complete hflatten hitem]
              have hle : offset + item.length ≤ file.length := by
                have hsum := congrArg List.length hflatten
                rw [List.length_drop, List.length_append] at hsum
                omega
              refine (ih hle).mpr ⟨items, t, rest, ?_, hrest, hchain, ?_, ?_⟩
              · rw [← List.drop_drop, hflatten, List.drop_left]
              · exact Nat.lt_of_succ_lt_succ hcount
              · rw [List.flatten_cons, List.length_append, ← Nat.add_assoc] at htrue
                exact htrue
      · refine iff_of_false (fun h => nomatch h) ?_
        rintro ⟨items, t, rest, hflatten, hrest, -, -, -⟩
        rw [List.drop_eq_nil_of_le (Nat.not_lt.mp hmore)] at hflatten
        exact hrest (List.append_eq_nil_iff.mp hflatten.symm).2

/-- Where a scan that goes through runs its body, an item stands. -/
theorem exists_item_of_mem_visited (hbody : Scans body file Item) {size visitedOffset : ℕ}
    (h : ∃ final, scan body size budget s offset = .ok final)
    (hmem : visitedOffset ∈ visited body size budget s offset) :
    ∃ t item t' after, file.drop visitedOffset = item ++ after ∧ Item t item t' := by
  induction budget generalizing s offset with
  | zero => cases hmem
  | succ budget ih =>
      obtain ⟨final, h⟩ := h
      rw [scan] at h
      rw [visited] at hmem
      split_ifs at h hmem with hmore
      · cases hstep : body s offset with
        | error result => rw [hstep] at h; cases h
        | ok next =>
            obtain ⟨length, t⟩ := next
            rw [hstep] at h hmem
            rcases List.mem_cons.mp hmem with rfl | hmem
            · obtain ⟨item, after, hdrop, -, hitem⟩ := hbody.sound hstep
              exact ⟨s, item, t, after, hdrop, hitem⟩
            · exact ih ⟨final, h⟩ hmem
      · cases hmem

/-- Where every item has some length, so have the steps. -/
theorem pairwise_visited {size least : ℕ}
    (hleast : ∀ {s offset length s'}, body s offset = .ok (length, s') → least ≤ length) :
    (visited body size budget s offset).Pairwise (fun earlier later => earlier + least ≤ later) ∧
      ∀ visitedOffset ∈ visited body size budget s offset, offset ≤ visitedOffset := by
  induction budget generalizing s offset with
  | zero => exact ⟨.nil, fun _ hmem => nomatch hmem⟩
  | succ budget ih =>
      rw [visited]
      split_ifs with hmore
      · cases hstep : body s offset with
        | error result => simp
        | ok next =>
            obtain ⟨length, t⟩ := next
            have hlength := hleast hstep
            obtain ⟨hpairwise, hbehind⟩ : _ ∧ ∀ later ∈ visited body size budget t (offset + length),
                offset + length ≤ later := ih
            refine ⟨List.pairwise_cons.mpr ⟨fun later hmem => ?_, hpairwise⟩, fun later hmem => ?_⟩
            · have hlater := hbehind later hmem
              omega
            · rcases List.mem_cons.mp hmem with rfl | hmem
              · exact Nat.le_refl _
              · exact Nat.le_of_add_right_le (hbehind later hmem)
      · exact ⟨.nil, fun _ hmem => nomatch hmem⟩

/-- A file is cut into items in one way. -/
theorem Scans.items_unique (hbody : Scans body file Item) {t : σ} {items items' : List (List α)}
    (hitems : file.drop offset = items.flatten) (hchain : Chain Item s items s')
    (hitems' : file.drop offset = items'.flatten) (hchain' : Chain Item s items' t) :
    items = items' := by
  induction items generalizing s offset items' with
  | nil => exact (hbody.items_eq_nil hchain' (hitems'.symm.trans hitems)).symm
  | cons item items ih =>
      cases items' with
      | nil => exact hbody.items_eq_nil hchain (hitems.symm.trans hitems')
      | cons item' items' =>
          obtain ⟨u, hitem, hchain⟩ := hchain
          obtain ⟨u', hitem', hchain'⟩ := hchain'
          rw [List.flatten_cons] at hitems hitems'
          have hstep := hbody.complete hitems hitem
          rw [hbody.complete hitems' hitem'] at hstep
          obtain ⟨hlength, rfl⟩ := Prod.mk.inj (Except.ok.inj hstep)
          obtain ⟨rfl, hflatten⟩ := List.append_inj (hitems.symm.trans hitems') hlength.symm
          have hdrop : file.drop (offset + item.length) = items.flatten := by
            rw [← List.drop_drop, hitems, List.drop_left]
          rw [ih hdrop hchain (hdrop.trans hflatten) hchain']

/-- `return offset === size && frames > 0 && frames < limit`, after the loop. -/
def scanAll (body : σ → ℕ → Except Bool (ℕ × σ)) (size limit : ℕ) (s : σ) (offset : ℕ) : Bool :=
  match scan body size limit s offset with
  | .error result => result
  | .ok (budget, _, offset) => offset = size && budget < limit && 0 < budget

/-- A loop that accepts goes through, if it never returns `true` from its body. -/
theorem exists_final_of_scanAll {size limit : ℕ}
    (hnever : scan body size limit s offset ≠ .error true)
    (h : scanAll body size limit s offset = true) :
    ∃ final, scan body size limit s offset = .ok final := by
  unfold scanAll at h
  cases hscan : scan body size limit s offset with
  | ok final => exact ⟨final, rfl⟩
  | error result =>
      rw [hscan] at h
      exact absurd (h ▸ hscan) hnever

/-- A body that never succeeds by itself does not end the scan so. -/
theorem scan_ne_error_true {size : ℕ} (hnever : ∀ s offset, body s offset ≠ .error true) :
    scan body size budget s offset ≠ .error true := by
  induction budget generalizing s offset with
  | zero => exact fun h => nomatch h
  | succ budget ih =>
      rw [scan]
      split_ifs with hmore
      · cases hstep : body s offset with
        | error result =>
            cases result with
            | true => exact absurd hstep (hnever s offset)
            | false => exact fun h => nomatch h
        | ok next => exact ih
      · exact fun h => nomatch h

/-- **The loop accepts** the concatenations of at least one and fewer than `limit` items. -/
theorem scanAll_iff (hbody : Scans body file Item) (hnever : ∀ s offset, body s offset ≠ .error true)
    {limit : ℕ} (hoffset : offset ≤ file.length) :
    scanAll body file.length limit s offset = true ↔
      ∃ items s', file.drop offset = items.flatten ∧ Chain Item s items s' ∧
        1 ≤ items.length ∧ items.length < limit := by
  have hok : scanAll body file.length limit s offset = true ↔
      ∃ rest s', scan body file.length limit s offset = .ok (rest, s', file.length) ∧
        rest < limit ∧ 0 < rest := by
    unfold scanAll
    cases hscan : scan body file.length limit s offset with
    | error result =>
        cases result with
        | true => exact absurd hscan (scan_ne_error_true hnever)
        | false => exact iff_of_false (fun h => nomatch h) (fun ⟨_, _, h, _⟩ => nomatch h)
    | ok final =>
        obtain ⟨rest, s', last⟩ := final
        simp only [Bool.and_eq_true, decide_eq_true_eq]
        constructor
        · rintro ⟨⟨rfl, hlt⟩, hpos⟩
          exact ⟨rest, s', rfl, hlt, hpos⟩
        · rintro ⟨rest', t, heq, hlt, hpos⟩
          cases heq
          exact ⟨⟨rfl, hlt⟩, hpos⟩
  rw [hok]
  constructor
  · rintro ⟨rest, s', hscan, hlt, hpos⟩
    obtain ⟨items, hflatten, hchain, hcount⟩ := (scan_eq_ok_iff hbody hoffset).mp hscan
    exact ⟨items, s', hflatten, hchain, by omega, by omega⟩
  · rintro ⟨items, s', hflatten, hchain, hpos, hlt⟩
    exact ⟨limit - items.length, s', (scan_eq_ok_iff hbody hoffset).mpr
      ⟨items, hflatten, hchain, by omega⟩, by omega, by omega⟩

end

/-- Without a state, a chain is a list of legal items. -/
theorem chain_unit {P : List α → Prop} {items : List (List α)} {u v : Unit} :
    Chain (fun _ item _ => P item) u items v ↔ ∀ item ∈ items, P item := by
  induction items with
  | nil => exact iff_of_true rfl (by simp)
  | cons item items ih =>
      rw [chain_cons, List.forall_mem_cons]
      exact ⟨fun ⟨_, hitem, hrest⟩ => ⟨hitem, ih.mp hrest⟩,
        fun ⟨hitem, hrest⟩ => ⟨(), hitem, ih.mpr hrest⟩⟩

/-- Items that are all encoded are a list of codes. -/
theorem forall_mem_exists_iff {β : Type*} {encode : β → List α} {items : List (List α)} :
    (∀ item ∈ items, ∃ b, item = encode b) ↔ ∃ bs : List β, items = bs.map encode := by
  constructor
  · intro h
    induction items with
    | nil => exact ⟨[], rfl⟩
    | cons item items ih =>
        obtain ⟨⟨b, rfl⟩, hrest⟩ := List.forall_mem_cons.mp h
        obtain ⟨bs, rfl⟩ := ih hrest
        exact ⟨b :: bs, rfl⟩
  · rintro ⟨bs, rfl⟩ item hitem
    obtain ⟨b, -, rfl⟩ := List.mem_map.mp hitem
    exact ⟨b, rfl⟩

/-- **The loop accepts lists of codes**, when its items are codes. -/
theorem scanAll_encode_iff {β : Type*} {encode : β → List α} {body : Unit → ℕ → Except Bool (ℕ × Unit)}
    {file : List α} {limit offset : ℕ} (hbody : Scans body file fun _ item _ => ∃ b, item = encode b)
    (hnever : ∀ s offset, body s offset ≠ .error true) (hoffset : offset ≤ file.length) :
    scanAll body file.length limit () offset = true ↔
      ∃ bs : List β, file.drop offset = (bs.map encode).flatten ∧ 1 ≤ bs.length ∧
        bs.length < limit := by
  rw [scanAll_iff hbody hnever hoffset]
  constructor
  · rintro ⟨items, _, hflatten, hchain, hcount⟩
    obtain ⟨bs, rfl⟩ := forall_mem_exists_iff.mp (chain_unit.mp hchain)
    rw [List.length_map] at hcount
    exact ⟨bs, hflatten, hcount⟩
  · rintro ⟨bs, hflatten, hcount⟩
    refine ⟨bs.map encode, (), hflatten, ?_, ?_⟩
    · exact chain_unit.mpr (forall_mem_exists_iff.mpr ⟨bs, rfl⟩)
    · rwa [List.length_map]

/-! ## Searching from the end -/

/-- The last result below a bound. -/
def searchBack {β : Type*} (f : ℕ → Option β) : ℕ → Option β
  | 0 => none
  | n + 1 =>
      match f n with
      | some result => some result
      | none => searchBack f n

/-- The search finds the last place. -/
theorem searchBack_eq_some {β : Type*} {f : ℕ → Option β} {n : ℕ} {result : β} :
    searchBack f n = some result ↔
      ∃ i < n, f i = some result ∧ ∀ j, i < j → j < n → f j = none := by
  induction n with
  | zero => exact iff_of_false (fun h => nomatch h) fun ⟨i, hi, _⟩ => absurd hi (Nat.not_lt_zero i)
  | succ n ih =>
      rw [searchBack]
      cases hn : f n with
      | some last =>
          constructor
          · rintro ⟨⟩
            exact ⟨n, Nat.lt_succ_self n, hn, fun j hj hlt => absurd hj (by omega)⟩
          · rintro ⟨i, hi, hfound, hlater⟩
            rcases Nat.lt_or_ge i n with hlt | hge
            · exact absurd (hn.symm.trans (hlater n hlt (Nat.lt_succ_self n))) (Option.some_ne_none last)
            · obtain rfl : i = n := by omega
              exact hn.symm.trans hfound
      | none =>
          rw [ih]
          constructor
          · rintro ⟨i, hi, hfound, hlater⟩
            refine ⟨i, Nat.lt_succ_of_lt hi, hfound, fun j hij hj => ?_⟩
            rcases Nat.lt_or_ge j n with hlt | hge
            · exact hlater j hij hlt
            · obtain rfl : j = n := by omega
              exact hn
          · rintro ⟨i, hi, hfound, hlater⟩
            rcases Nat.lt_or_ge i n with hlt | hge
            · exact ⟨i, hlt, hfound, fun j hij hj => hlater j hij (Nat.lt_succ_of_lt hj)⟩
            · obtain rfl : i = n := by omega
              exact absurd (hn.symm.trans hfound) (Option.some_ne_none result).symm

end ApiWhatsApp.Library
