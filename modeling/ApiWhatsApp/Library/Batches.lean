import Mathlib.Data.List.Sort
import Mathlib.Data.Prod.Lex
import Mathlib.Order.Lattice
import Mathlib.Tactic.Common
import ApiWhatsApp.Library.Machine

/-!
# Passes over the oldest rows

A job takes the first rows of a table that are due, in some order, up to a number; it handles each of
them, and comes again. Some rows stay as they are when they are handled, and keep their place.

* `Sweep` is such a job; `Sweep.step` is one pass, and its label says in what order the database gives
  rows that compare equal.
* `Sweep.blocking r` counts the rows that stay and may come before `r`, `Sweep.waiting r` the other
  rows that may.
* **`Sweep.drained`** — where fewer rows block `r` than a pass takes, every long enough run handles it:
  `waiting` is the measure. **`Sweep.starved`** — otherwise some run of any length does not.
-/

set_option linter.unusedSectionVars false

namespace ApiWhatsApp.Library

/-! ## Counting -/

section count

variable {Row : Type*} {p : Row → Bool} {f : Row → Option Row} {rows : List Row}

/-- A change that makes nothing count leaves no more to count. -/
theorem countP_filterMap_le (h : ∀ r ∈ rows, ∀ r' ∈ f r, p r' = true → p r = true) :
    (rows.filterMap f).countP p ≤ rows.countP p := by
  rw [List.countP_filterMap]
  refine List.countP_mono_left fun r hr hcount => ?_
  cases hf : f r with
  | none => simp [hf] at hcount
  | some r' =>
      rw [hf] at hcount
      exact h r hr r' hf hcount

/-- A counted row of which nothing counted is left. -/
theorem countP_filterMap_lt (h : ∀ r ∈ rows, ∀ r' ∈ f r, p r' = true → p r = true) {u : Row}
    (hu : u ∈ rows) (hcounted : p u = true) (hleft : ∀ u' ∈ f u, p u' = false) :
    (rows.filterMap f).countP p < rows.countP p := by
  obtain ⟨before, after, rfl⟩ := List.append_of_mem hu
  have hbefore : (before.filterMap f).countP p ≤ before.countP p :=
    countP_filterMap_le fun r hr => h r (List.mem_append_left _ hr)
  have hafter : (after.filterMap f).countP p ≤ after.countP p :=
    countP_filterMap_le fun r hr => h r (List.mem_append_right _ (List.mem_cons_of_mem _ hr))
  have hnone : ((u :: after).filterMap f).countP p ≤ (after.filterMap f).countP p := by
    cases hf : f u with
    | none => rw [List.filterMap_cons_none hf]
    | some u' => rw [List.filterMap_cons_some hf, List.countP_cons_of_neg (by simp [hleft u' hf])]
  rw [List.filterMap_append, List.countP_append, List.countP_append, List.countP_cons_of_pos hcounted]
  omega

/-- What stays goes on counting. -/
theorem le_countP_filterMap (h : ∀ r ∈ rows, p r = true → f r = some r) :
    rows.countP p ≤ (rows.filterMap f).countP p := by
  rw [List.countP_filterMap]
  refine List.countP_mono_left fun r hr hcount => ?_
  rw [h r hr hcount]
  exact hcount

end count

/-! ## Passes -/

/-- A job over the rows of a table. -/
structure Sweep (J Row Id α : Type*) where
  id : Row → Id
  /-- The order of the query. -/
  key : Row → α
  /-- The condition of the query. -/
  due : J → Row → Bool
  /-- What becomes of a row. -/
  handle : J → Row → Option Row
  /-- The rows that a pass leaves as they are. -/
  stays : Row → Bool
  id_handle : ∀ {j r r'}, handle j r = some r' → id r' = id r
  handle_of_stays : ∀ {j r}, due j r = true → stays r = true → handle j r = some r

namespace Sweep

variable {J Row Id α : Type*} [DecidableEq Row] [LinearOrder α]

section defs

variable (s : Sweep J Row Id α)

/-- An order in which the database may give the rows that are due. -/
def Orders (j : J) (rows order : List Row) : Prop :=
  order.Perm (rows.filter (s.due j)) ∧ order.Pairwise fun a b => s.key a ≤ s.key b

/-- The order can be checked. -/
instance (j : J) (rows order : List Row) : Decidable (s.Orders j rows order) :=
  inferInstanceAs (Decidable (_ ∧ _))

/-- What a pass makes of a row. -/
def after (j : J) (batch : List Row) (r : Row) : Option Row :=
  if r ∈ batch then s.handle j r else some r

/-- One pass over a batch. -/
def pass (j : J) (batch rows : List Row) : List Row := rows.filterMap (s.after j batch)

/-- One step: a pass over the first `size` rows. -/
def step (size : ℕ) (rows : List Row) (a : J × List Row) : Option (List Row) :=
  if s.Orders a.1 rows a.2 then some (s.pass a.1 (a.2.take size) rows) else none

/-- The rows that stay and may come before `r`. -/
def blocking (j : J) (r : Row) (rows : List Row) : ℕ :=
  rows.countP fun u => s.due j u && s.stays u && decide (s.key u ≤ s.key r)

/-- The rows that do not stay and may come before `r`. -/
def waiting (r : Row) (rows : List Row) : ℕ :=
  rows.countP fun u => !s.stays u && decide (s.key u ≤ s.key r)

/-- A row that is always due and does not stay, and behind which every row goes that does not stay. -/
structure Target (G : J → Prop) (r : Row) : Prop where
  due : ∀ j, G j → s.due j r = true
  moves : s.stays r = false
  behind : ∀ j, G j → ∀ u u', s.due j u = true → s.stays u = false → s.handle j u = some u' →
    s.key r < s.key u'

end defs

variable {s : Sweep J Row Id α} {size : ℕ} {j : J} {G : J → Prop} {r : Row}
  {rows rows' order batch : List Row}

/-- What is taken is due. -/
theorem Orders.mem (h : s.Orders j rows order) {u : Row} (hu : u ∈ order.take size) :
    u ∈ rows ∧ s.due j u = true :=
  List.mem_filter.mp (h.1.mem_iff.mp (List.mem_of_mem_take hu))

/-- A pass keeps the ids apart. -/
theorem nodup_pass (hnodup : (rows.map s.id).Nodup) :
    ((s.pass j batch rows).map s.id).Nodup := by
  refine hnodup.sublist ?_
  rw [pass]
  clear hnodup
  induction rows with
  | nil => exact List.Sublist.slnil
  | cons r rest ih =>
      cases hafter : s.after j batch r with
      | none =>
          rw [List.filterMap_cons_none hafter, List.map_cons]
          exact ih.cons _
      | some r' =>
          have hid : s.id r' = s.id r := by
            unfold after at hafter
            split_ifs at hafter
            · exact s.id_handle hafter
            · rw [Option.some.inj hafter]
          rw [List.filterMap_cons_some hafter, List.map_cons, List.map_cons, hid]
          exact ih.cons_cons _

/-- No row is taken twice. -/
theorem Orders.nodup_take (h : s.Orders j rows order) (hnodup : (rows.map s.id).Nodup) :
    (order.take size).Nodup :=
  (h.1.nodup_iff.mpr ((hnodup.of_map _).filter _)).sublist (List.take_sublist _ _)

/-- A row that is passed over stands behind a whole batch. -/
theorem Orders.le_of_skipped (h : s.Orders j rows order) (hr : r ∈ rows) (hdue : s.due j r = true)
    (hskipped : r ∉ order.take size) :
    (order.take size).length = size ∧ ∀ u ∈ order.take size, s.key u ≤ s.key r := by
  have hmem : r ∈ order := h.1.mem_iff.mpr (List.mem_filter.mpr ⟨hr, hdue⟩)
  rw [← List.take_append_drop size order] at hmem
  have hlater : r ∈ order.drop size := (List.mem_append.mp hmem).resolve_left hskipped
  have hlength := List.length_pos_of_mem hlater
  rw [List.length_drop] at hlength
  have hsorted := h.2
  rw [← List.take_append_drop size order] at hsorted
  refine ⟨?_, fun u hu => (List.pairwise_append.mp hsorted).2.2 u hu r hlater⟩
  rw [List.length_take]
  omega

/-- Where few rows block it, something in that batch moves. -/
theorem exists_moving (hnodup : (rows.map s.id).Nodup) (h : s.Orders j rows order) (hr : r ∈ rows)
    (hdue : s.due j r = true) (hskipped : r ∉ order.take size)
    (hblocking : s.blocking j r rows < size) :
    ∃ u ∈ order.take size, s.stays u = false ∧ s.key u ≤ s.key r := by
  obtain ⟨hlength, hle⟩ := h.le_of_skipped hr hdue hskipped
  by_contra hnone
  have hsubset : order.take size ⊆
      rows.filter fun u => s.due j u && s.stays u && decide (s.key u ≤ s.key r) := by
    intro u hu
    obtain ⟨hrow, hdueu⟩ := h.mem hu
    have hstays : s.stays u = true := by
      by_contra hmoves
      exact hnone ⟨u, hu, by simpa using hmoves, hle u hu⟩
    exact List.mem_filter.mpr ⟨hrow, by simp [hdueu, hstays, hle u hu]⟩
  have hcount := (List.subperm_of_subset (h.nodup_take hnodup) hsubset).length_le
  rw [hlength, ← List.countP_eq_length_filter] at hcount
  exact absurd hblocking (not_lt.mpr hcount)

/-! ## Runs -/

/-- What is left of a row that is handled. -/
theorem Target.cases_after (ht : s.Target G r) (hG : G j) (hdue : ∀ u ∈ batch, s.due j u = true)
    {u u' : Row} (h : s.after j batch u = some u') :
    u' = u ∧ (u ∈ batch → s.stays u = true) ∨ s.key r < s.key u' := by
  unfold after at h
  split_ifs at h with hbatch
  · cases hstays : s.stays u with
    | true =>
        rw [s.handle_of_stays (hdue u hbatch) hstays] at h
        exact .inl ⟨(Option.some.inj h).symm, fun _ => rfl⟩
    | false => exact .inr (ht.behind j hG u u' (hdue u hbatch) hstays h)
  · exact .inl ⟨(Option.some.inj h).symm, fun h => absurd h hbatch⟩

/-- A row that was handled does not come back. -/
theorem Target.not_mem_pass (ht : s.Target G r) (hG : G j) (hdue : ∀ u ∈ batch, s.due j u = true)
    (h : r ∉ rows ∨ r ∈ batch) : r ∉ s.pass j batch rows := by
  intro hmem
  obtain ⟨u, hu, hafter⟩ := List.mem_filterMap.mp hmem
  rcases ht.cases_after hG hdue hafter with ⟨rfl, hstays⟩ | hlt
  · rcases h with h | h
    · exact h hu
    · rw [ht.moves] at hstays
      exact absurd (hstays h) Bool.false_ne_true
  · exact lt_irrefl _ hlt

/-- A pass puts no more rows in the way. -/
theorem Target.blocking_pass_le (ht : s.Target G r) (hG : G j) {i : J}
    (hdue : ∀ u ∈ batch, s.due j u = true) :
    s.blocking i r (s.pass j batch rows) ≤ s.blocking i r rows := by
  refine countP_filterMap_le fun u hu u' hafter hcount => ?_
  rcases ht.cases_after hG hdue hafter with ⟨rfl, -⟩ | hlt
  · exact hcount
  · simp only [Bool.and_eq_true, decide_eq_true_eq] at hcount
    exact absurd hlt (not_lt.mpr hcount.2)

/-- A pass that skips `r` brings it nearer. -/
theorem Target.waiting_pass_lt (ht : s.Target G r) (hG : G j) (hnodup : (rows.map s.id).Nodup)
    (h : s.Orders j rows order) (hr : r ∈ rows) (hskipped : r ∉ order.take size)
    (hblocking : s.blocking j r rows < size) :
    s.waiting r (s.pass j (order.take size) rows) < s.waiting r rows := by
  have hdue : ∀ u ∈ order.take size, s.due j u = true := fun u hu => (h.mem hu).2
  obtain ⟨u, hu, hmoves, hle⟩ :=
    exists_moving hnodup h hr (ht.due j hG) hskipped hblocking
  refine countP_filterMap_lt (fun v hv v' hafter hcount => ?_) (h.mem hu).1
    (by simp [hmoves, hle]) fun u' hafter => ?_
  · rcases ht.cases_after hG hdue hafter with ⟨rfl, -⟩ | hlt
    · exact hcount
    · simp only [Bool.and_eq_true, decide_eq_true_eq] at hcount
      exact absurd hlt (not_lt.mpr hcount.2)
  · rcases ht.cases_after hG hdue hafter with ⟨rfl, hstays⟩ | hlt
    · rw [hmoves] at hstays
      exact absurd (hstays hu) Bool.false_ne_true
    · simp [hlt]

/-- A step takes a batch in order and passes over it. -/
theorem step_eq_some {a : J × List Row} :
    s.step size rows a = some rows' ↔
      s.Orders a.1 rows a.2 ∧ s.pass a.1 (a.2.take size) rows = rows' := by
  unfold step
  split_ifs with h
  · simp [h]
  · simp [h]

/-- A row that is gone does not come back. -/
theorem Target.not_mem_of_exec (ht : s.Target G r) {acts : List (J × List Row)}
    (hG : ∀ a ∈ acts, G a.1) (hr : r ∉ rows) (hrun : exec (s.step size) rows acts = some rows') :
    r ∉ rows' := by
  induction acts generalizing rows with
  | nil =>
      cases hrun
      exact hr
  | cons a rest ih =>
      obtain ⟨x, hx, hrest⟩ := exec_cons.mp hrun
      obtain ⟨horder, rfl⟩ := step_eq_some.mp hx
      refine ih (fun b hb => hG b (List.mem_cons_of_mem _ hb)) ?_ hrest
      exact ht.not_mem_pass (hG a List.mem_cons_self) (fun u hu => (horder.mem hu).2) (.inl hr)

/-- **Long enough runs** handle a row that few rows block. -/
theorem drained (ht : s.Target G r) {acts : List (J × List Row)}
    (hG : ∀ a ∈ acts, G a.1) (hnodup : (rows.map s.id).Nodup)
    (hblocking : ∀ j, G j → s.blocking j r rows < size) (hlong : s.waiting r rows ≤ acts.length)
    (hrun : exec (s.step size) rows acts = some rows') : r ∉ rows' := by
  induction acts generalizing rows with
  | nil =>
      cases hrun
      intro hr
      have hcount : 0 < s.waiting r rows' := List.countP_pos_iff.mpr ⟨r, hr, by simp [ht.moves]⟩
      rw [List.length_nil] at hlong
      omega
  | cons a rest ih =>
      obtain ⟨x, hx, hrest⟩ := exec_cons.mp hrun
      obtain ⟨horder, rfl⟩ := step_eq_some.mp hx
      have hGa := hG a List.mem_cons_self
      have hGrest : ∀ b ∈ rest, G b.1 := fun b hb => hG b (List.mem_cons_of_mem _ hb)
      have hdue : ∀ u ∈ a.2.take size, s.due a.1 u = true := fun u hu => (horder.mem hu).2
      by_cases hr : r ∈ rows ∧ r ∉ a.2.take size
      · have hlt := ht.waiting_pass_lt hGa hnodup horder hr.1 hr.2 (hblocking a.1 hGa)
        rw [List.length_cons] at hlong
        refine ih hGrest (nodup_pass hnodup) (fun i hi => ?_) (by omega) hrest
        exact (ht.blocking_pass_le hGa hdue).trans_lt (hblocking i hi)
      · refine ht.not_mem_of_exec hGrest (ht.not_mem_pass hGa hdue ?_) hrest
        by_cases hrow : r ∈ rows
        · exact .inr (not_not.mp fun hskipped => hr ⟨hrow, hskipped⟩)
        · exact .inl hrow

/-! ## Starvation -/

/-- The order of the query, with the rows that stay first among equals. -/
def rank (s : Sweep J Row Id α) (r : Row) : α ×ₗ Bool := toLex (s.key r, !s.stays r)

/-- The order in which `r` comes last. -/
def worst (s : Sweep J Row Id α) (j : J) (rows : List Row) : List Row :=
  (rows.filter (s.due j)).insertionSort fun a b => s.rank a ≤ s.rank b

/-- The worst order puts the rows that stay in front. -/
theorem pairwise_worst :
    (s.worst j rows).Pairwise fun a b => s.rank a ≤ s.rank b :=
  List.pairwise_insertionSort (fun a b => s.rank a ≤ s.rank b) _

/-- The worst order is one of the orders. -/
theorem orders_worst : s.Orders j rows (s.worst j rows) := by
  refine ⟨List.perm_insertionSort _ _, pairwise_worst.imp fun {a b} hle => ?_⟩
  rcases Prod.Lex.le_iff.mp hle with hlt | heq
  · exact hlt.le
  · exact heq.1.le

/-- A row that stays comes before one that moves, if it is as old. -/
theorem rank_lt_rank {u : Row} (hstays : s.stays u = true) (hmoves : s.stays r = false)
    (hle : s.key u ≤ s.key r) : s.rank u < s.rank r := by
  rw [rank, rank, Prod.Lex.toLex_lt_toLex, hstays, hmoves]
  rcases hle.lt_or_eq with hlt | heq
  · exact .inl hlt
  · exact .inr ⟨heq, Bool.false_lt_true⟩

/-- In the worst order, enough rows in the way keep a row out. -/
theorem not_mem_take_worst (hmoves : s.stays r = false) (hblocking : size ≤ s.blocking j r rows) :
    r ∉ (s.worst j rows).take size := by
  intro hr
  obtain ⟨before, later, htake⟩ := List.append_of_mem hr
  have hsorted : (s.worst j rows).Pairwise fun a b => s.rank a ≤ s.rank b := pairwise_worst
  have hsplit : s.worst j rows = before ++ r :: (later ++ (s.worst j rows).drop size) := by
    rw [← List.cons_append, ← List.append_assoc, ← htake, List.take_append_drop]
  -- What comes before `r` in rank is in front of it.
  have hbehind : ∀ u ∈ r :: (later ++ (s.worst j rows).drop size), s.rank r ≤ s.rank u := by
    rw [hsplit] at hsorted
    have htail := (List.pairwise_append.mp hsorted).2.1
    intro u hu
    rcases List.mem_cons.mp hu with rfl | hu
    · exact le_rfl
    · exact List.rel_of_pairwise_cons htail hu
  have hcount : s.blocking j r rows ≤ before.length := by
    have hfilter : s.blocking j r rows =
        (s.worst j rows).countP fun u => s.stays u && decide (s.key u ≤ s.key r) := by
      rw [worst, (List.perm_insertionSort _ _).countP_eq, List.countP_filter]
      exact List.countP_congr fun u _ => by simp [and_comm, and_left_comm]
    rw [hfilter, hsplit, List.countP_append]
    have hzero : (r :: (later ++ (s.worst j rows).drop size)).countP
        (fun u => s.stays u && decide (s.key u ≤ s.key r)) = 0 := by
      refine List.countP_eq_zero.mpr fun u hu hboth => ?_
      obtain ⟨hstays, hle⟩ := Bool.and_eq_true_iff.mp hboth
      exact absurd (hbehind u hu) (not_le.mpr (rank_lt_rank hstays hmoves (of_decide_eq_true hle)))
    rw [hzero]
    exact List.countP_le_length
  have hlength := congrArg List.length htake
  rw [List.length_append, List.length_cons] at hlength
  have htaken := List.length_take_le size (s.worst j rows)
  omega

/-- **Runs that never come to `r`**, of any length. -/
theorem starved (hmoves : s.stays r = false) (hr : r ∈ rows)
    (hblocking : size ≤ s.blocking j r rows) (n : ℕ) :
    ∃ acts rows', acts.length = n ∧ (∀ a ∈ acts, a.1 = j) ∧
      exec (s.step size) rows acts = some rows' ∧ r ∈ rows' := by
  induction n generalizing rows with
  | zero => exact ⟨[], rows, rfl, nofun, rfl, hr⟩
  | succ n ih =>
      have hskipped := not_mem_take_worst hmoves hblocking
      have hkept : r ∈ s.pass j ((s.worst j rows).take size) rows :=
        List.mem_filterMap.mpr ⟨r, hr, if_neg hskipped⟩
      have hstill : size ≤ s.blocking j r (s.pass j ((s.worst j rows).take size) rows) := by
        refine hblocking.trans (le_countP_filterMap fun u hu hcount => ?_)
        simp only [Bool.and_eq_true] at hcount
        rw [after, s.handle_of_stays hcount.1.1 hcount.1.2, ite_self]
      obtain ⟨acts, rows', hlength, hj, hrun, hlast⟩ := ih hkept hstill
      refine ⟨(j, s.worst j rows) :: acts, rows', by rw [List.length_cons, hlength], ?_,
        exec_cons.mpr ⟨_, step_eq_some.mpr ⟨orders_worst, rfl⟩, hrun⟩, hlast⟩
      intro a ha
      rcases List.mem_cons.mp ha with rfl | ha
      · rfl
      · exact hj a ha

/-- Long enough runs handle all of these rows. -/
def Drains (s : Sweep J Row Id α) (size : ℕ) (G : J → Prop) (rows : List Row) (R : Row → Prop) :
    Prop :=
  ∃ n, ∀ acts rows', (∀ a ∈ acts, G a.1) → n ≤ acts.length →
    exec (s.step size) rows acts = some rows' → ∀ r ∈ rows, R r → r ∉ rows'

/-- **When a job makes progress.** -/
theorem drains_iff {R : Row → Prop} (hR : ∀ r ∈ rows, R r → s.Target G r)
    (hnodup : (rows.map s.id).Nodup) :
    s.Drains size G rows R ↔ ∀ r ∈ rows, R r → ∀ j, G j → s.blocking j r rows < size := by
  constructor
  · rintro ⟨n, hdrains⟩ r hr htarget j hG
    by_contra hblocking
    obtain ⟨acts, rows', hlength, hj, hrun, hleft⟩ :=
      starved (hR r hr htarget).moves hr (not_lt.mp hblocking) n
    have hacts : ∀ a ∈ acts, G a.1 := fun a ha => (hj a ha).symm ▸ hG
    exact hdrains acts rows' hacts hlength.ge hrun r hr htarget hleft
  · intro hblocking
    refine ⟨rows.length, fun acts rows' hG hlong hrun r hr htarget => ?_⟩
    exact drained (hR r hr htarget) hG hnodup (hblocking r hr htarget)
      (List.countP_le_length.trans hlong) hrun

/-! ## Loops -/

/-- A loop that handles the rows of a batch one after the other is a pass. -/
theorem foldl_eq_pass (one : List Row → Row → List Row)
    (hone : ∀ rows a, (rows.map s.id).Nodup → a ∈ rows → s.due j a = true →
      one rows a = s.pass j [a] rows)
    (hnodup : (rows.map s.id).Nodup) (hbatch : batch.Nodup)
    (hmem : ∀ a ∈ batch, a ∈ rows ∧ s.due j a = true) :
    batch.foldl one rows = s.pass j batch rows := by
  induction batch generalizing rows with
  | nil =>
      have hafter : s.after j [] = some := funext fun r => if_neg List.not_mem_nil
      rw [List.foldl_nil, pass, hafter, List.filterMap_some]
  | cons a rest ih =>
      obtain ⟨hnotin, hrest⟩ := List.nodup_cons.mp hbatch
      obtain ⟨ha, hdue⟩ := hmem a List.mem_cons_self
      have hkept : ∀ b ∈ rest, b ∈ s.pass j [a] rows ∧ s.due j b = true := by
        intro b hb
        obtain ⟨hbrow, hbdue⟩ := hmem b (List.mem_cons_of_mem _ hb)
        refine ⟨List.mem_filterMap.mpr ⟨b, hbrow, if_neg fun h => hnotin ?_⟩, hbdue⟩
        rwa [← List.mem_singleton.mp h]
      rw [List.foldl_cons, hone rows a hnodup ha hdue, ih (nodup_pass hnodup) hrest hkept, pass, pass,
        pass, List.filterMap_filterMap]
      refine List.filterMap_congr fun r hr => ?_
      by_cases hra : r = a
      · subst hra
        rw [after, after, if_pos List.mem_cons_self, if_pos List.mem_cons_self]
        cases hhandle : s.handle j r with
        | none => rfl
        | some r' =>
            refine if_neg fun hr' => hnotin ?_
            have hsame := List.inj_on_of_nodup_map hnodup
              (hmem r' (List.mem_cons_of_mem _ hr')).1 hr (s.id_handle hhandle)
            rwa [hsame] at hr'
      · rw [after, if_neg fun h => hra (List.mem_singleton.mp h), Option.bind_some, after, after]
        refine if_congr ?_ rfl rfl
        rw [List.mem_cons]
        exact ⟨.inr, fun h => h.resolve_left hra⟩

end Sweep

/-- Two machines that agree on every state of a kind have the same runs from such a state. -/
theorem exec_congr {σ α : Type*} {step step' : σ → α → Option σ} {P : σ → Prop} {s : σ}
    (hP : P s) (hagree : ∀ x a, P x → step x a = step' x a)
    (hkeep : ∀ x a y, P x → step' x a = some y → P y) (as : List α) :
    exec step s as = exec step' s as := by
  induction as generalizing s with
  | nil => rfl
  | cons a rest ih =>
      rw [exec, exec, hagree s a hP]
      cases hnext : step' s a with
      | none => rfl
      | some y => exact ih (hkeep s a y hP hnext)

end ApiWhatsApp.Library
