import Mathlib.Data.List.Pairwise
import Mathlib.Data.List.Basic
import Mathlib.Tactic.Common

/-!
# Tables with unique indexes

A database table is a list of rows together with the proof that its unique indexes hold. The
indexes of a row type are given by `Keyed.keys`: the list of index entries a row occupies (its
primary key, and one entry for each unique index whose columns are not null). Two rows of a
`Table` never share an entry, so a table that violates an index cannot be built.

* `Table.find k` is the row that occupies the entry `k` (`findUnique`); **`find_eq_some_iff`**
  reads it as membership.
* `Table.insert? r` is `INSERT`: it fails when the new row takes an entry that is already taken.
* `Table.updateWhere p f hf` is an `UPDATE … WHERE p` that leaves every index column alone, so it
  never fails; `Table.update? k f` is an `UPDATE` of the row at `k` that may change index columns, so it fails
  when the result breaks an index, and so is `Table.mapRows? f` for all rows.
* `Table.insertAll rows` is `INSERT … ON CONFLICT DO NOTHING`, `Table.deleteWhere p` is
  `DELETE … WHERE p`.
-/

namespace ApiWhatsApp.Library

/-- The unique index entries that a row occupies. -/
class Keyed (Row : Type*) (Key : outParam Type*) where
  /-- The entries: primary key first, then the non-null unique columns. -/
  keys : Row → List Key

/-- Rows under unique indexes: no index entry is occupied by two rows. -/
structure Table (Row : Type*) {Key : Type*} [Keyed Row Key] where
  /-- The stored rows. -/
  rows : List Row
  /-- The unique indexes hold. -/
  unique : rows.Pairwise fun a b => ∀ k ∈ Keyed.keys a, k ∉ Keyed.keys b

namespace Table

variable {Row Key : Type*} [Keyed Row Key]

/-- The table without rows. -/
def empty : Table Row where
  rows := []
  unique := List.Pairwise.nil

/-- The empty table has no rows. -/
@[simp] theorem rows_empty : (empty : Table Row).rows = [] := rfl

/-- A table is its rows. -/
theorem eq_of_rows {t t' : Table Row} (h : t.rows = t'.rows) : t = t' := by
  cases t
  cases t'
  cases h
  rfl

/-- Two rows that share an index entry are the same row. -/
theorem eq_of_mem_keys (t : Table Row) {a b : Row} {k : Key} (ha : a ∈ t.rows) (hb : b ∈ t.rows)
    (hka : k ∈ Keyed.keys a) (hkb : k ∈ Keyed.keys b) : a = b := by
  by_contra hne
  have hsymm : Std.Symm fun x y : Row => ∀ k ∈ Keyed.keys x, k ∉ Keyed.keys y :=
    ⟨fun x y h k hky hkx => h k hkx hky⟩
  exact t.unique.forall ha hb hne k hka hkb

/-- At most one row satisfies a condition that pins down an index entry. -/
theorem length_filter_le_one (t : Table Row) (p : Row → Bool) (k : Key)
    (hp : ∀ r, p r = true → k ∈ Keyed.keys r) : (t.rows.filter p).length ≤ 1 := by
  have hpair := t.unique.filter p
  rcases hrows : t.rows.filter p with _ | ⟨a, _ | ⟨b, rest⟩⟩
  · simp
  · simp
  · have ha : a ∈ t.rows.filter p := by simp [hrows]
    have hb : b ∈ t.rows.filter p := by simp [hrows]
    rw [hrows] at hpair
    have hka := hp a (List.mem_filter.mp ha).2
    have hkb := hp b (List.mem_filter.mp hb).2
    exact absurd hkb (List.rel_of_pairwise_cons hpair List.mem_cons_self k hka)

/-- A value that pins down an index entry occurs once. -/
theorem nodup_map {β : Type*} (t : Table Row) (f : Row → β)
    (hf : ∀ a b, f a = f b → ∃ k ∈ Keyed.keys a, k ∈ Keyed.keys b) : (t.rows.map f).Nodup := by
  refine List.pairwise_map.mpr (t.unique.imp ?_)
  intro a b hab heq
  obtain ⟨k, hka, hkb⟩ := hf a b heq
  exact hab k hka hkb

variable [DecidableEq Key]

/-- The row that occupies an index entry. -/
def find (t : Table Row) (k : Key) : Option Row :=
  t.rows.find? fun r => k ∈ Keyed.keys r

/-- `find` is membership: the row found is the only row at that entry. -/
theorem find_eq_some_iff (t : Table Row) {k : Key} {r : Row} :
    t.find k = some r ↔ r ∈ t.rows ∧ k ∈ Keyed.keys r := by
  constructor
  · intro h
    exact ⟨List.mem_of_find?_eq_some h, by simpa using List.find?_some h⟩
  · rintro ⟨hr, hk⟩
    rcases h : t.find k with _ | r'
    · rw [find, List.find?_eq_none] at h
      exact absurd hk (by simpa using h r hr)
    · have hr' : r' ∈ t.rows := List.mem_of_find?_eq_some h
      have hk' : k ∈ Keyed.keys r' := by simpa using List.find?_some h
      rw [t.eq_of_mem_keys hr hr' hk hk']

/-- The rows that an index entry selects, among those that satisfy a condition: at most the one at
that entry. -/
theorem filter_of_mem (t : Table Row) {r : Row} {k : Key} (hr : r ∈ t.rows)
    (hk : k ∈ Keyed.keys r) (p : Row → Bool) :
    t.rows.filter (fun a => p a && decide (k ∈ Keyed.keys a)) = if p r then [r] else [] := by
  have hsame : ∀ a ∈ t.rows, k ∈ Keyed.keys a → a = r := fun a ha hka =>
    t.eq_of_mem_keys ha hr hka hk
  have hlength := t.length_filter_le_one (fun a => p a && decide (k ∈ Keyed.keys a)) k
    fun a ha => by simpa using (Bool.and_eq_true_iff.mp ha).2
  split_ifs with hp
  · have hmem : r ∈ t.rows.filter fun a => p a && decide (k ∈ Keyed.keys a) := by
      simp [List.mem_filter, hr, hp, hk]
    obtain ⟨a, ha⟩ := List.length_eq_one_iff.mp
      (Nat.le_antisymm hlength (List.length_pos_of_mem hmem))
    rw [ha] at hmem ⊢
    rw [List.mem_singleton.mp hmem]
  · refine List.filter_eq_nil_iff.mpr fun a ha hpa => ?_
    simp only [Bool.and_eq_true, decide_eq_true_eq] at hpa
    rw [hsame a ha hpa.2] at hpa
    exact hp hpa.1

/-- No row is found just when none has the key. -/
theorem find_eq_none_iff (t : Table Row) {k : Key} :
    t.find k = none ↔ ∀ r ∈ t.rows, k ∉ Keyed.keys r := by
  simp [find, List.find?_eq_none]

/-- `INSERT`: fails with a unique violation when an entry of the new row is already taken. -/
def insert? (t : Table Row) (r : Row) : Option (Table Row) :=
  if h : ∀ a ∈ t.rows, ∀ k ∈ Keyed.keys r, k ∉ Keyed.keys a then
    some ⟨r :: t.rows, List.Pairwise.cons h t.unique⟩
  else none

/-- An insertion puts the row in front. -/
theorem rows_of_insert? {t t' : Table Row} {r : Row} (h : t.insert? r = some t') :
    t'.rows = r :: t.rows := by
  unfold insert? at h
  split_ifs at h
  cases h
  rfl

/-- An insertion fails just when a key is taken. -/
theorem insert?_eq_none_iff (t : Table Row) {r : Row} :
    t.insert? r = none ↔ ∃ k ∈ Keyed.keys r, t.find k ≠ none := by
  unfold insert?
  split_ifs with h
  · simp only [false_iff, not_exists, not_and, not_not]
    intro k hk
    exact t.find_eq_none_iff.mpr fun a ha hka => h a ha k hk hka
  · simp only [true_iff]
    push Not at h
    obtain ⟨a, ha, k, hk, hka⟩ := h
    refine ⟨k, hk, ?_⟩
    rw [t.find_eq_some_iff.mpr ⟨ha, hka⟩]
    exact Option.some_ne_none a

/-- The entries of the new row lead to it, all others to what they led to before. -/
theorem find_of_insert? {t t' : Table Row} {r : Row} (h : t.insert? r = some t') (k : Key) :
    t'.find k = if k ∈ Keyed.keys r then some r else t.find k := by
  rw [find, rows_of_insert? h, List.find?_cons]
  by_cases hk : k ∈ Keyed.keys r <;> simp [hk, find]

/-- Before an insertion the entries of the new row are free. -/
theorem find_eq_none_of_insert? {t t' : Table Row} {r : Row} {k : Key}
    (h : t.insert? r = some t') (hk : k ∈ Keyed.keys r) : t.find k = none := by
  by_contra hne
  have hnone := t.insert?_eq_none_iff.mpr ⟨k, hk, hne⟩
  rw [h] at hnone
  cases hnone

/-- A row whose entries are free can be inserted. -/
theorem exists_insert? (t : Table Row) {r : Row} (h : ∀ k ∈ Keyed.keys r, t.find k = none) :
    ∃ t', t.insert? r = some t' := by
  refine Option.ne_none_iff_exists'.mp fun hnone => ?_
  obtain ⟨k, hk, hfound⟩ := t.insert?_eq_none_iff.mp hnone
  exact hfound (h k hk)

/-- `UPDATE` that changes no index column: never a unique violation. -/
def mapRows (t : Table Row) (f : Row → Row) (hf : ∀ r, Keyed.keys (f r) = Keyed.keys r) :
    Table Row where
  rows := t.rows.map f
  unique := by
    rw [List.pairwise_map]
    exact t.unique.imp fun h k hk => by rw [hf] at hk ⊢; exact h k hk

omit [DecidableEq Key] in
/-- A change of all rows. -/
@[simp] theorem rows_mapRows (t : Table Row) (f : Row → Row)
    (hf : ∀ r, Keyed.keys (f r) = Keyed.keys r) : (t.mapRows f hf).rows = t.rows.map f := rfl

/-- An index-preserving update commutes with every lookup. -/
theorem find_mapRows (t : Table Row) (f : Row → Row)
    (hf : ∀ r, Keyed.keys (f r) = Keyed.keys r) (k : Key) :
    (t.mapRows f hf).find k = (t.find k).map f := by
  simp only [find, rows_mapRows, List.find?_map]
  congr 2
  funext r
  simp only [Function.comp_apply, hf]

/-- `UPDATE … WHERE p` that changes no index column. -/
def updateWhere (t : Table Row) (p : Row → Bool) (f : Row → Row)
    (hf : ∀ r, Keyed.keys (f r) = Keyed.keys r) : Table Row :=
  t.mapRows (fun r => if p r then f r else r) fun r => by split_ifs; exacts [hf r, rfl]

omit [DecidableEq Key] in
/-- A change of the rows that are selected. -/
@[simp] theorem rows_updateWhere (t : Table Row) (p : Row → Bool) (f : Row → Row)
    (hf : ∀ r, Keyed.keys (f r) = Keyed.keys r) :
    (t.updateWhere p f hf).rows = t.rows.map fun r => if p r then f r else r := rfl

/-- A change of rows does not change where they are found. -/
theorem find_updateWhere (t : Table Row) (p : Row → Bool) (f : Row → Row)
    (hf : ∀ r, Keyed.keys (f r) = Keyed.keys r) (k : Key) :
    (t.updateWhere p f hf).find k = (t.find k).map fun r => if p r then f r else r :=
  t.find_mapRows _ _ k

/-- `UPDATE` of the row at an index entry; fails when there is no such row or when the new row
breaks a unique index. -/
def update? (t : Table Row) (k : Key) (f : Row → Row) : Option (Table Row) :=
  match t.find k with
  | none => none
  | some _ =>
      let rows := t.rows.map fun a => if k ∈ Keyed.keys a then f a else a
      if h : rows.Pairwise fun a b => ∀ j ∈ Keyed.keys a, j ∉ Keyed.keys b then some ⟨rows, h⟩
      else none

/-- An update changes the rows with the key. -/
theorem rows_of_update? {t t' : Table Row} {k : Key} {f : Row → Row}
    (h : t.update? k f = some t') :
    t'.rows = t.rows.map fun a => if k ∈ Keyed.keys a then f a else a := by
  unfold update? at h
  split at h
  · cases h
  · simp only at h
    split_ifs at h
    cases h
    rfl

/-- An update that succeeds had a row to work on. -/
theorem exists_find_of_update? {t t' : Table Row} {k : Key} {f : Row → Row}
    (h : t.update? k f = some t') : ∃ r, t.find k = some r := by
  unfold update? at h
  split at h
  · cases h
  · exact ⟨_, ‹_›⟩

/-- The rows after an update: the new one, and the old ones but one. -/
theorem mem_update?_iff {t t' : Table Row} {k : Key} {f : Row → Row} {r a : Row}
    (h : t.update? k f = some t') (hr : t.find k = some r) :
    a ∈ t'.rows ↔ a = f r ∨ a ∈ t.rows ∧ a ≠ r := by
  obtain ⟨hmem, hkey⟩ := t.find_eq_some_iff.mp hr
  rw [rows_of_update? h, List.mem_map]
  constructor
  · rintro ⟨b, hb, rfl⟩
    by_cases hkb : k ∈ Keyed.keys b
    · rw [if_pos hkb, t.eq_of_mem_keys hb hmem hkb hkey]
      exact .inl rfl
    · rw [if_neg hkb]
      exact .inr ⟨hb, fun heq => hkb (heq ▸ hkey)⟩
  · rintro (rfl | ⟨ha, hne⟩)
    · exact ⟨r, hmem, if_pos hkey⟩
    · exact ⟨a, ha, if_neg fun hka => hne (t.eq_of_mem_keys ha hmem hka hkey)⟩

/-- An update of the row at an entry succeeds when the new row meets no other row of the table. -/
theorem isSome_update?_iff (t : Table Row) {k : Key} {f : Row → Row} {r : Row}
    (hr : t.find k = some r) :
    (t.update? k f).isSome = true ↔
      ∀ a ∈ t.rows, k ∉ Keyed.keys a → ∀ j ∈ Keyed.keys (f r), j ∉ Keyed.keys a := by
  obtain ⟨hmem, hkey⟩ := t.find_eq_some_iff.mp hr
  have honly : ∀ a ∈ t.rows, k ∈ Keyed.keys a → a = r := fun a ha hka =>
    t.eq_of_mem_keys ha hmem hka hkey
  have hcheck : (t.update? k f).isSome = true ↔
      t.rows.Pairwise fun a b => ∀ j ∈ Keyed.keys (if k ∈ Keyed.keys a then f a else a),
        j ∉ Keyed.keys (if k ∈ Keyed.keys b then f b else b) := by
    rw [← List.pairwise_map (R := fun a b => ∀ j ∈ Keyed.keys a, j ∉ Keyed.keys b)]
    simp only [update?, hr]
    split_ifs with hpair
    · exact ⟨fun _ => hpair, fun _ => rfl⟩
    · exact ⟨fun h => absurd h Bool.false_ne_true, fun h => absurd h hpair⟩
  rw [hcheck]
  constructor
  · intro hpair a ha hka j hj hja
    have hsymm : Std.Symm fun a b : Row =>
        ∀ j ∈ Keyed.keys (if k ∈ Keyed.keys a then f a else a),
          j ∉ Keyed.keys (if k ∈ Keyed.keys b then f b else b) :=
      ⟨fun x y h j hy hx => h j hx hy⟩
    have hne : a ≠ r := fun heq => hka (heq ▸ hkey)
    have hrel := hpair.forall ha hmem hne j
    rw [if_neg hka, if_pos hkey] at hrel
    exact hrel hja hj
  · intro h
    refine t.unique.imp_of_mem fun {a b} ha hb hab => ?_
    intro j hja hjb
    by_cases hka : k ∈ Keyed.keys a
    · have hkb : k ∉ Keyed.keys b := hab k hka
      rw [if_pos hka, honly a ha hka] at hja
      rw [if_neg hkb] at hjb
      exact h b hb hkb j hja hjb
    · rw [if_neg hka] at hja
      by_cases hkb : k ∈ Keyed.keys b
      · rw [if_pos hkb, honly b hb hkb] at hjb
        exact h a ha hka j hjb hja
      · rw [if_neg hkb] at hjb
        exact hab j hja hjb

/-- An update commutes with the lookup of every entry that it leaves alone. -/
theorem find_of_update? {t t' : Table Row} {k j : Key} {f : Row → Row}
    (h : t.update? k f = some t')
    (hkeep : ∀ r, k ∈ Keyed.keys r → (j ∈ Keyed.keys (f r) ↔ j ∈ Keyed.keys r)) :
    t'.find j = (t.find j).map fun r => if k ∈ Keyed.keys r then f r else r := by
  simp only [find, rows_of_update? h, List.find?_map]
  congr 2
  funext r
  by_cases hk : k ∈ Keyed.keys r
  · simp [hk, hkeep r hk]
  · simp [hk]

/-- `UPDATE` of all rows by a function that may change index columns; fails when the result breaks a
unique index. -/
def mapRows? (t : Table Row) (f : Row → Row) : Option (Table Row) :=
  if h : (t.rows.map f).Pairwise fun a b => ∀ k ∈ Keyed.keys a, k ∉ Keyed.keys b then
    some ⟨t.rows.map f, h⟩
  else none

/-- A change of all rows that keeps the keys apart. -/
theorem rows_of_mapRows? {t t' : Table Row} {f : Row → Row} (h : t.mapRows? f = some t') :
    t'.rows = t.rows.map f := by
  unfold mapRows? at h
  split_ifs at h
  cases h
  rfl

/-- `DELETE … WHERE p`. -/
def deleteWhere (t : Table Row) (p : Row → Bool) : Table Row where
  rows := t.rows.filter fun r => !p r
  unique := t.unique.filter _

/-- A deletion leaves what an entry leads to, or nothing. -/
theorem find_deleteWhere (t : Table Row) (p : Row → Bool) (k : Key) :
    (t.deleteWhere p).find k = (t.find k).filter fun r => !p r := by
  refine Option.ext fun r => ?_
  rw [find_eq_some_iff, Option.filter_eq_some_iff, find_eq_some_iff, deleteWhere, List.mem_filter]
  exact and_right_comm

/-- `INSERT … ON CONFLICT DO NOTHING`: a row that takes an entry that is already taken is skipped. -/
def insertAll (t : Table Row) (rows : List Row) : Table Row :=
  rows.foldl (fun t r => (t.insert? r).getD t) t

/-- Every row was there before or is one of the new ones, and none is lost. -/
theorem mem_insertAll (t : Table Row) (rows : List Row) :
    (∀ r ∈ (t.insertAll rows).rows, r ∈ t.rows ∨ r ∈ rows) ∧
      ∀ r ∈ t.rows, r ∈ (t.insertAll rows).rows := by
  induction rows generalizing t with
  | nil => exact ⟨fun r hr => .inl hr, fun r hr => hr⟩
  | cons a rest ih =>
      obtain ⟨hback, hkept⟩ := ih ((t.insert? a).getD t)
      rw [insertAll, List.foldl_cons]
      rcases hinsert : t.insert? a with _ | t'
      · rw [hinsert] at hback hkept
        refine ⟨fun r hr => ?_, hkept⟩
        exact (hback r hr).imp_right (List.mem_cons_of_mem _)
      · rw [hinsert, Option.getD_some, rows_of_insert? hinsert] at hback hkept
        constructor
        · intro r hr
          rcases hback r hr with hr | hr
          · rcases List.mem_cons.mp hr with rfl | hr
            · exact .inr List.mem_cons_self
            · exact .inl hr
          · exact .inr (List.mem_cons_of_mem _ hr)
        · intro r hr
          exact hkept r (List.mem_cons_of_mem _ hr)

/-- A condition that no new row satisfies selects the same rows. -/
theorem filter_insertAll (t : Table Row) {rows : List Row} {p : Row → Bool}
    (hp : ∀ r ∈ rows, p r = false) : (t.insertAll rows).rows.filter p = t.rows.filter p := by
  induction rows generalizing t with
  | nil => rfl
  | cons r rest ih =>
      rw [insertAll, List.foldl_cons]
      refine (ih _ fun a ha => hp a (List.mem_cons_of_mem _ ha)).trans ?_
      rcases hinsert : t.insert? r with _ | t'
      · rfl
      · rw [Option.getD_some, rows_of_insert? hinsert, List.filter_cons_of_neg]
        simp [hp r List.mem_cons_self]

/-- Rows that take only free entries, each its own, are all inserted. -/
theorem rows_insertAll {t : Table Row} {rows : List Row}
    (hfree : ∀ r ∈ rows, ∀ k ∈ Keyed.keys r, ∀ a ∈ t.rows, k ∉ Keyed.keys a)
    (hown : rows.Pairwise fun a b => ∀ k ∈ Keyed.keys a, k ∉ Keyed.keys b) :
    (t.insertAll rows).rows = rows.reverse ++ t.rows := by
  induction rows generalizing t with
  | nil => rfl
  | cons r rest ih =>
      obtain ⟨hr, hrest⟩ := List.pairwise_cons.mp hown
      have hnew : ∀ a ∈ t.rows, ∀ k ∈ Keyed.keys r, k ∉ Keyed.keys a :=
        fun a ha k hk => hfree r List.mem_cons_self k hk a ha
      have hinsert : t.insert? r = some ⟨r :: t.rows, List.Pairwise.cons hnew t.unique⟩ :=
        dif_pos hnew
      rw [insertAll, List.foldl_cons, hinsert, Option.getD_some]
      refine (ih ?_ hrest).trans (by simp)
      intro b hb k hk a ha
      rcases List.mem_cons.mp ha with rfl | ha
      · exact fun hka => hr b hb k hka hk
      · exact hfree b (List.mem_cons_of_mem _ hb) k hk a ha

end Table

end ApiWhatsApp.Library
