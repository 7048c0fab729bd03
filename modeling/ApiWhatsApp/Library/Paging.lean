import Mathlib.Data.List.Sort
import Mathlib.Data.Prod.Lex
import Mathlib.Order.Lattice
import Mathlib.Tactic.Common

/-!
# Walks over a table, page by page

A client reads a list in pages: every answer names the last row that it holds, and the next request
starts from there. In between, other requests change the table.

* `Listing` is what such a list reads of a row: its id, whether it matches, and where it stands.
  `Walk` is one walk, stopped before every query.
* `Listing.Follows` says what a query has to find: the matching rows after the last row that was
  returned. The row with the id of that row is left open: it may have moved.
* **`Listing.follows_after`** — a query that compares places finds them. **`follows_fromCursor`** — a
  query that starts at a row and skips one does, as long as the row is `Anchored`.
* **`Walk.Sound.next`** — with such a query, a page loses and repeats nothing; `Walk.Sound.change` is
  the same for a change of the table. `Walk.Sound.count_le_one` and `Walk.Sound.count_eq_one` read the
  invariant.
-/

set_option linter.unusedSectionVars false

namespace ApiWhatsApp.Library

variable {Row Id α : Type*} [LinearOrder α]

/-- What a list reads of a row. -/
structure Listing (Row Id α : Type*) where
  id : Row → Id
  /-- The condition on the row that a cursor names. -/
  owned : Row → Bool
  /-- The filter. -/
  matched : Row → Bool
  /-- Where the row stands in the order of the list. -/
  pos : Row → α

/-- Where a walk stands: before the lookup of its cursor, or before the query of a page, with the row
that the lookup has found. -/
inductive WalkStage (Row Id : Type*) where
  | asking (cursor : Option Id)
  | reading (anchor : Option Row)
  | finished
  | refused

/-- One walk. -/
structure Walk (Row Id : Type*) where
  rows : List Row
  stage : WalkStage Row Id
  /-- The rows that were returned, as they were at that time. -/
  returned : List Row
  /-- The ids of rows that have left their place, or the filter, or have come to match it. -/
  moved : Id → Prop

namespace Listing

variable (l : Listing Row Id α)

/-- The matching rows in order. -/
def matching (rows : List Row) : List Row :=
  (rows.filter l.matched).insertionSort fun a b => l.pos a ≤ l.pos b

/-- A row that is changed, but as the list sees it is where it was. -/
def Alike (r r' : Row) : Prop := l.id r' = l.id r ∧ l.pos r' = l.pos r ∧ l.matched r' = l.matched r

/-- What a query that starts after the row `last` has to find. -/
structure Follows (rows : List Row) (last : Option Row) (found : List Row) : Prop where
  sorted : found.Pairwise fun a b => l.pos a < l.pos b
  sound : ∀ b ∈ found, b ∈ rows ∧ l.matched b = true ∧ ∀ a ∈ last, l.pos a < l.pos b
  complete : ∀ b ∈ rows, l.matched b = true →
    (∀ a ∈ last, l.pos a < l.pos b ∧ l.id b ≠ l.id a) → b ∈ found

variable {l}

/-- The rows that match. -/
theorem mem_matching {rows : List Row} {b : Row} :
    b ∈ l.matching rows ↔ b ∈ rows ∧ l.matched b = true := by
  rw [matching, List.mem_insertionSort, List.mem_filter]

/-- Different rows stand at different places. -/
def Separates (l : Listing Row Id α) : Prop := ∀ a b, l.pos a = l.pos b → l.id a = l.id b

/-- The rows that match, in the order of their places. -/
theorem pairwise_matching (hpos : l.Separates) {rows : List Row} (hnodup : (rows.map l.id).Nodup) :
    (l.matching rows).Pairwise fun a b => l.pos a < l.pos b := by
  have hsorted : (l.matching rows).Pairwise fun a b => l.pos a ≤ l.pos b :=
    List.pairwise_insertionSort (fun a b => l.pos a ≤ l.pos b) _
  have hids : (l.matching rows).Pairwise fun a b => l.id a ≠ l.id b := by
    have hperm := List.perm_insertionSort (fun a b => l.pos a ≤ l.pos b) (rows.filter l.matched)
    have hfilter : ((rows.filter l.matched).map l.id).Nodup :=
      hnodup.sublist (List.filter_sublist.map l.id)
    exact List.pairwise_map.mp ((hperm.map l.id).nodup_iff.mpr hfilter)
  refine hsorted.imp₂ (fun a b hle hne => ?_) hids
  exact lt_of_le_of_ne hle fun heq => hne (hpos a b heq)

end Listing

/-! ## Two queries -/

namespace Listing

variable (l : Listing Row Id α)

/-- The query with one more condition: the row stands behind the anchor. -/
def after (behind : Row → Row → Bool) (rows : List Row) : Option Row → List Row
  | none => l.matching rows
  | some anchor => { l with matched := fun r => l.matched r && behind anchor r }.matching rows

variable [DecidableEq Id]

/-- The query with a cursor: the matching rows from the present place of the anchor on, less the
first, which is the anchor if that matches. Without the row there are none. -/
def fromCursor (rows : List Row) : Option Row → List Row
  | none => l.matching rows
  | some anchor =>
      match rows.find? fun r => l.id r = l.id anchor with
      | none => []
      | some a => ((l.matching rows).filter fun b => l.pos a ≤ l.pos b).drop 1

/-- The last row that was returned is still there and matches, and no other matching row stands
between its old place and the present one. Or no matching row stands behind either place. -/
def Anchored (rows : List Row) (last : Option Row) : Prop :=
  ∀ a₀ ∈ last,
    (∃ a ∈ rows, l.id a = l.id a₀ ∧ l.matched a = true ∧
      ∀ b ∈ rows, l.matched b = true → l.id b ≠ l.id a₀ →
        (l.pos a₀ < l.pos b ↔ l.pos a < l.pos b)) ∨
    ∀ b ∈ rows, l.matched b = true → ¬l.pos a₀ < l.pos b ∧
      ∀ a ∈ rows, l.id a = l.id a₀ → ¬l.pos a < l.pos b

variable {l} {rows : List Row} {last anchor : Option Row}

/-- Without a cursor all the rows that match follow. -/
theorem follows_matching (hpos : l.Separates) (hnodup : (rows.map l.id).Nodup) :
    l.Follows rows none (l.matching rows) where
  sorted := pairwise_matching hpos hnodup
  sound _ hb := ⟨(mem_matching.mp hb).1, (mem_matching.mp hb).2, nofun⟩
  complete _ hb hmatched _ := mem_matching.mpr ⟨hb, hmatched⟩

/-- A place does not change when the filter does, so nothing more is needed here. -/
theorem follows_after {behind : Row → Row → Bool}
    (hbehind : ∀ a b, behind a b = true ↔ l.pos a < l.pos b) (hpos : l.Separates)
    (hnodup : (rows.map l.id).Nodup) (hanchor : anchor.map l.pos = last.map l.pos) :
    l.Follows rows last (l.after behind rows anchor) := by
  rcases anchor with _ | anchor
  · rw [Option.map_eq_none_iff.mp hanchor.symm]
    exact follows_matching hpos hnodup
  obtain ⟨a₀, rfl, hsame⟩ := Option.map_eq_some_iff.mp hanchor.symm
  have hsorted := pairwise_matching (l := { l with matched := fun r => l.matched r && behind anchor r })
    hpos hnodup
  refine ⟨hsorted, fun b hb => ?_, fun b hb hmatched hlast => ?_⟩
  · obtain ⟨hrow, hboth⟩ := mem_matching.mp hb
    obtain ⟨hmatched, hlt⟩ := Bool.and_eq_true_iff.mp hboth
    refine ⟨hrow, hmatched, fun a ha => ?_⟩
    cases ha
    rw [hsame]
    exact (hbehind anchor b).mp hlt
  · refine mem_matching.mpr ⟨hb, Bool.and_eq_true_iff.mpr ⟨hmatched, (hbehind anchor b).mpr ?_⟩⟩
    rw [← hsame]
    exact (hlast a₀ rfl).1

/-- In a list in order, the elements from `a` on are `a` and the elements behind it. -/
theorem filter_le_eq_cons {rows : List Row} {a : Row}
    (h : rows.Pairwise fun a b => l.pos a < l.pos b) (ha : a ∈ rows) :
    (rows.filter fun b => l.pos a ≤ l.pos b) = a :: rows.filter fun b => l.pos a < l.pos b := by
  induction rows with
  | nil => cases ha
  | cons x rest ih =>
      obtain ⟨hx, hrest⟩ := List.pairwise_cons.mp h
      rcases List.mem_cons.mp ha with rfl | ha
      · rw [List.filter_cons_of_pos (by simp), List.filter_cons_of_neg (by simp)]
        congr 1
        refine List.filter_congr fun b hb => ?_
        simp [(hx b hb).le, hx b hb]
      · have hlt := hx a ha
        rw [List.filter_cons_of_neg (by simpa using hlt),
          List.filter_cons_of_neg (by simpa using hlt.le), ih hrest ha]

/-- Behind a cursor the rows behind it follow. -/
theorem follows_fromCursor (hpos : l.Separates) (hnodup : (rows.map l.id).Nodup)
    (hanchor : anchor.map l.id = last.map l.id) (h : l.Anchored rows last) :
    l.Follows rows last (l.fromCursor rows anchor) := by
  have hsorted := pairwise_matching hpos hnodup
  rcases anchor with _ | anchor
  · rw [Option.map_eq_none_iff.mp hanchor.symm]
    exact follows_matching hpos hnodup
  obtain ⟨a₀, rfl, hid⟩ := Option.map_eq_some_iff.mp hanchor.symm
  unfold fromCursor
  dsimp only
  rcases hfind : rows.find? fun r => l.id r = l.id anchor with _ | a
  · refine ⟨List.Pairwise.nil, nofun, fun b hb hmatched hbehind => ?_⟩
    rcases h a₀ rfl with ⟨a, ha, hida, -⟩ | hnone
    · have hnot := List.find?_eq_none.mp hfind a ha
      exact absurd (decide_eq_true (hida.trans hid)) hnot
    · exact absurd (hbehind a₀ rfl).1 (hnone b hb hmatched).1
  have ha : a ∈ rows := List.mem_of_find?_eq_some hfind
  have hfound : l.id a = l.id anchor := by simpa using List.find?_some hfind
  have hida : l.id a = l.id a₀ := hfound.trans hid.symm
  dsimp only
  rcases h a₀ rfl with ⟨a', ha', hida', hmatched, hbetween⟩ | hnone
  · obtain rfl : a' = a := List.inj_on_of_nodup_map hnodup ha' ha (hida'.trans hida.symm)
    rw [filter_le_eq_cons hsorted (mem_matching.mpr ⟨ha, hmatched⟩), List.drop_one, List.tail_cons]
    refine ⟨hsorted.filter _, fun b hb => ?_, fun b hb hb' hbehind => ?_⟩
    · obtain ⟨hmem, hlt⟩ := List.mem_filter.mp hb
      obtain ⟨hrow, hb'⟩ := mem_matching.mp hmem
      have hlt := of_decide_eq_true hlt
      refine ⟨hrow, hb', fun x hx => ?_⟩
      cases hx
      refine (hbetween b hrow hb' fun heq => ?_).mpr hlt
      rw [List.inj_on_of_nodup_map hnodup hrow ha (heq.trans hida.symm)] at hlt
      exact lt_irrefl _ hlt
    · obtain ⟨hlt, hne⟩ := hbehind a₀ rfl
      exact List.mem_filter.mpr ⟨mem_matching.mpr ⟨hb, hb'⟩,
        decide_eq_true ((hbetween b hb hb' hne).mp hlt)⟩
  · have hempty : ((l.matching rows).filter fun b => l.pos a ≤ l.pos b).drop 1 = [] := by
      rcases hlist : (l.matching rows).filter fun b => l.pos a ≤ l.pos b with _ | ⟨x, _ | ⟨y, rest⟩⟩
      · rfl
      · rfl
      -- The second one would stand behind the first, and so behind the anchor.
      have hpair := hsorted.filter fun b => l.pos a ≤ l.pos b
      rw [hlist] at hpair
      have hx : x ∈ (l.matching rows).filter fun b => l.pos a ≤ l.pos b := by simp [hlist]
      have hy : y ∈ (l.matching rows).filter fun b => l.pos a ≤ l.pos b := by simp [hlist]
      have hle := of_decide_eq_true (List.mem_filter.mp hx).2
      obtain ⟨hrow, hmatched⟩ := mem_matching.mp (List.mem_filter.mp hy).1
      have hlt := List.rel_of_pairwise_cons hpair List.mem_cons_self
      exact absurd (hle.trans_lt hlt) ((hnone y hrow hmatched).2 a ha hida)
    rw [hempty]
    refine ⟨List.Pairwise.nil, nofun, fun b hb hmatched hbehind => ?_⟩
    exact absurd (hbehind a₀ rfl).1 (hnone b hb hmatched).1

end Listing

/-! ## One page -/

/-- The answer to a request. -/
structure Page (Row Id : Type*) where
  items : List Row
  nextCursor : Option Id

/-- The end of a list: a page has at most `limit` of the rows that were found, of which at most
`limit + 1` were read. -/
def Listing.page (l : Listing Row Id α) (limit : ℕ) (found : List Row) : Page Row Id :=
  let rows := found.take (limit + 1)
  let hasMore := decide (limit < rows.length)
  let items := if hasMore then rows.take limit else rows
  { items := items, nextCursor := if hasMore then items.getLast?.map l.id else none }

variable {l : Listing Row Id α} {limit : ℕ} {found : List Row}

/-- A page has the rows that were found, up to the limit. -/
theorem Listing.items_page : (l.page limit found).items = found.take limit := by
  unfold page
  dsimp only
  rw [List.length_take]
  by_cases hmore : limit < min (limit + 1) found.length
  · rw [if_pos (decide_eq_true hmore), List.take_take]
    congr 1
    omega
  · rw [if_neg (by simpa using hmore), List.take_of_length_le (by omega),
      List.take_of_length_le (by omega)]

/-- A page names its last row exactly when there are more. -/
theorem Listing.nextCursor_page :
    (l.page limit found).nextCursor =
      if limit < found.length then (found.take limit).getLast?.map l.id else none := by
  have hitems : (l.page limit found).items = found.take limit := l.items_page
  unfold page at hitems ⊢
  dsimp only at hitems ⊢
  rw [hitems, List.length_take]
  by_cases hmore : limit < found.length
  · rw [if_pos (decide_eq_true (by omega)), if_pos hmore]
  · rw [if_neg (by simp; omega), if_neg hmore]

/-! ## Walks -/

namespace Walk

variable [DecidableEq Id]

/-- The start of a walk over these rows. -/
def start (rows : List Row) : Walk Row Id where
  rows := rows
  stage := .asking none
  returned := []
  moved _ := False

/-- Other requests change the table. -/
def change (l : Listing Row Id α) (w : Walk Row Id) (rows : List Row) : Walk Row Id :=
  { w with
    rows := rows
    moved := fun i => w.moved i ∨ ∃ r ∈ w.rows, l.id r = i ∧ ∀ r' ∈ rows, ¬l.Alike r r' }

/-- The walk goes on: it looks for the row of its cursor, or reads a page. What comes after that row,
`rest` says. -/
def next (l : Listing Row Id α) (rest : List Row → Option Row → List Row) (limit : ℕ)
    (w : Walk Row Id) : Option (Walk Row Id) :=
  match w.stage with
  | .asking none => some { w with stage := .reading none }
  | .asking (some cursor) =>
      match w.rows.find? fun r => l.id r = cursor && l.owned r with
      | none => some { w with stage := .refused }
      | some anchor => some { w with stage := .reading (some anchor) }
  | .reading anchor =>
      let page := l.page limit (rest w.rows anchor)
      some { w with
        returned := w.returned ++ page.items
        stage := match page.nextCursor with
          | none => .finished
          | some cursor => .asking (some cursor) }
  | .finished | .refused => none

/-- The row that the next page starts from. -/
def last (w : Walk Row Id) : Option Row := w.returned.getLast?

/-- The number of times that a row was returned. -/
def count (l : Listing Row Id α) (w : Walk Row Id) (i : Id) : ℕ := (w.returned.map l.id).count i

/-- **The invariant** of a walk that has started with `rows₀`. -/
structure Sound (l : Listing Row Id α) (rows₀ : List Row) (w : Walk Row Id) : Prop where
  nodup : (w.rows.map l.id).Nodup
  sorted : w.returned.Pairwise fun a b => l.pos a < l.pos b
  /-- A returned row is still there. -/
  kept : ∀ r ∈ w.returned, ¬w.moved (l.id r) → ∃ r' ∈ w.rows, l.Alike r r'
  /-- So is a row of the start. -/
  base : ∀ r ∈ rows₀, ¬w.moved (l.id r) → ∃ r' ∈ w.rows, l.Alike r r'
  /-- A row of the start that has not been returned is still to come. -/
  front : ∀ r ∈ rows₀, l.matched r = true → ¬w.moved (l.id r) → l.id r ∉ w.returned.map l.id →
    ∀ a ∈ w.last, l.pos a < l.pos r
  asking : ∀ cursor, w.stage = .asking cursor → cursor = w.last.map l.id
  reading : ∀ anchor, w.stage = .reading anchor → anchor.map l.id = w.last.map l.id
  finished : w.stage = .finished → ∀ r ∈ rows₀, l.matched r = true → ¬w.moved (l.id r) →
    l.id r ∈ w.returned.map l.id

variable {rows rows₀ : List Row} {w w' : Walk Row Id} {rest : List Row → Option Row → List Row}

/-- At the start nothing was visited. -/
theorem sound_start (h : (rows.map l.id).Nodup) : (start rows : Walk Row Id).Sound l rows where
  nodup := h
  sorted := List.Pairwise.nil
  kept _ hr := absurd hr List.not_mem_nil
  base r hr _ := ⟨r, hr, rfl, rfl, rfl⟩
  front _ _ _ _ _ a ha := by cases ha
  asking cursor hstage := by
    cases hstage
    rfl
  reading _ hstage := by cases hstage
  finished hstage := by cases hstage

/-- What was there and has not moved is still there. -/
theorem alike_of_not_moved {r : Row} (hr : ∃ r' ∈ w.rows, l.Alike r r')
    (hmoved : ¬(w.change l rows).moved (l.id r)) : ∃ r' ∈ rows, l.Alike r r' := by
  obtain ⟨b, hb, hid, hpos, hmatched⟩ := hr
  by_contra hgone
  refine hmoved (.inr ⟨b, hb, hid, fun c hc hsame => hgone ⟨c, hc, ?_⟩⟩)
  exact ⟨hsame.1.trans hid, hsame.2.1.trans hpos, hsame.2.2.trans hmatched⟩

/-- A change of rows keeps what the walk has visited. -/
theorem Sound.change (h : w.Sound l rows₀) (hnodup : (rows.map l.id).Nodup) :
    (w.change l rows).Sound l rows₀ where
  nodup := hnodup
  sorted := h.sorted
  kept r hr hmoved := alike_of_not_moved (h.kept r hr fun hold => hmoved (.inl hold)) hmoved
  base r hr hmoved := alike_of_not_moved (h.base r hr fun hold => hmoved (.inl hold)) hmoved
  front r hr hmatched hmoved := h.front r hr hmatched fun hold => hmoved (.inl hold)
  asking := h.asking
  reading := h.reading
  finished hstage r hr hmatched hmoved := h.finished hstage r hr hmatched fun hold =>
    hmoved (.inl hold)

/-- A row that is as it was after a change has not moved. -/
theorem not_moved_change (hnodup : (w.rows.map l.id).Nodup) {r : Row} (hr : r ∈ w.rows)
    (hmoved : ¬w.moved (l.id r)) (halike : ∃ r' ∈ rows, l.Alike r r') :
    ¬(w.change l rows).moved (l.id r) := by
  rintro (hold | ⟨b, hb, hid, hnot⟩)
  · exact hmoved hold
  · obtain ⟨r', hr', hsame⟩ := halike
    rw [List.inj_on_of_nodup_map hnodup hb hr hid] at hnot
    exact hnot r' hr' hsame

/-- The lookup of a cursor. -/
theorem Sound.lookup (h : w.Sound l rows₀) {cursor : Option Id} (hstage : w.stage = .asking cursor)
    (hnext : w.next l rest limit = some w') :
    w'.Sound l rows₀ ∧ w'.rows = w.rows ∧ w'.returned = w.returned ∧ w'.moved = w.moved ∧
      ((w'.stage = .refused ∧ ∃ i ∈ cursor, ∀ r ∈ w.rows, l.id r = i → l.owned r ≠ true) ∨
        ∃ anchor, w'.stage = .reading anchor ∧ ∀ a ∈ anchor, a ∈ w.rows ∧ l.owned a = true) := by
  have hcursor := h.asking cursor hstage
  unfold next at hnext
  rw [hstage] at hnext
  rcases cursor with _ | cursor
  · cases hnext
    refine ⟨⟨h.nodup, h.sorted, h.kept, h.base, h.front, nofun, fun anchor hanchor => ?_, nofun⟩,
      rfl, rfl, rfl, .inr ⟨none, rfl, nofun⟩⟩
    cases hanchor
    exact hcursor
  · dsimp only at hnext
    rcases hfind : w.rows.find? fun r => l.id r = cursor && l.owned r with _ | anchor
    · rw [hfind] at hnext
      cases hnext
      refine ⟨⟨h.nodup, h.sorted, h.kept, h.base, h.front, nofun, nofun, nofun⟩, rfl, rfl, rfl,
        .inl ⟨rfl, cursor, rfl, fun r hr hid howned => ?_⟩⟩
      exact List.find?_eq_none.mp hfind r hr (Bool.and_eq_true_iff.mpr ⟨decide_eq_true hid, howned⟩)
    · rw [hfind] at hnext
      cases hnext
      have hfound := List.find?_some hfind
      simp only [Bool.and_eq_true, decide_eq_true_eq] at hfound
      refine ⟨⟨h.nodup, h.sorted, h.kept, h.base, h.front, nofun, fun a ha => ?_, nofun⟩,
        rfl, rfl, rfl, .inr ⟨some anchor, rfl, fun a ha => ?_⟩⟩
      · cases ha
        exact (congrArg some hfound.1).trans hcursor
      · cases ha
        exact ⟨List.mem_of_find?_eq_some hfind, hfound.2⟩

/-- A walk that goes on leaves the table alone. -/
theorem frame_next (hnext : w.next l rest limit = some w') :
    w'.rows = w.rows ∧ w'.moved = w.moved := by
  unfold next at hnext
  split at hnext
  · cases hnext
    exact ⟨rfl, rfl⟩
  · split at hnext
    · cases hnext
      exact ⟨rfl, rfl⟩
    · cases hnext
      exact ⟨rfl, rfl⟩
  · cases hnext
    exact ⟨rfl, rfl⟩
  · cases hnext
  · cases hnext

/-- What a page changes. -/
theorem next_of_reading {anchor : Option Row} (hstage : w.stage = .reading anchor)
    (hnext : w.next l rest limit = some w') :
    w'.rows = w.rows ∧ w'.moved = w.moved ∧
      w'.returned = w.returned ++ (rest w.rows anchor).take limit ∧
      (w'.stage = .finished ∨ ∃ cursor, w'.stage = .asking cursor) := by
  unfold next at hnext
  rw [hstage] at hnext
  dsimp only at hnext
  rw [Listing.items_page] at hnext
  cases hnext
  refine ⟨rfl, rfl, rfl, ?_⟩
  cases (l.page limit (rest w.rows anchor)).nextCursor with
  | none => exact .inl rfl
  | some cursor => exact .inr ⟨_, rfl⟩

/-- **A page.** When the query finds what it has to find, nothing is lost and nothing repeated. -/
theorem Sound.read (h : w.Sound l rows₀) {anchor : Option Row} (hlimit : 0 < limit)
    (hstage : w.stage = .reading anchor) (hfollows : l.Follows w.rows w.last (rest w.rows anchor))
    (hnext : w.next l rest limit = some w') : w'.Sound l rows₀ := by
  unfold next at hnext
  rw [hstage] at hnext
  dsimp only at hnext
  rw [Listing.items_page, Listing.nextCursor_page] at hnext
  obtain ⟨hsorted, hsound, hcomplete⟩ := hfollows
  generalize rest w.rows anchor = found at hnext hsorted hsound hcomplete
  have hitems : ∀ b ∈ found.take limit, b ∈ w.rows ∧ l.matched b = true ∧
      ∀ a ∈ w.last, l.pos a < l.pos b := fun b hb => hsound b (List.mem_of_mem_take hb)
  have hreturned : (w.returned ++ found.take limit).Pairwise fun a b => l.pos a < l.pos b := by
    refine List.pairwise_append.mpr ⟨h.sorted, hsorted.sublist (List.take_sublist _ _), ?_⟩
    intro a ha b hb
    -- The last row stands behind all returned ones.
    have hne : w.returned ≠ [] := List.ne_nil_of_mem ha
    have hlast := (hitems b hb).2.2 (w.returned.getLast hne) (List.getLast?_eq_some_getLast hne)
    rw [← List.dropLast_append_getLast hne] at ha
    rcases List.mem_append.mp ha with ha | ha
    · have hsplit := h.sorted
      rw [← List.dropLast_append_getLast hne] at hsplit
      have hbefore := (List.pairwise_append.mp hsplit).2.2 a ha _ List.mem_cons_self
      exact hbefore.trans hlast
    · rw [List.mem_singleton.mp ha]
      exact hlast
  -- A row of the start that is still to come stands among those that were found, but not on the page.
  have hcoming : ∀ r ∈ rows₀, l.matched r = true → ¬w.moved (l.id r) →
      l.id r ∉ (w.returned ++ found.take limit).map l.id →
      ∃ r' ∈ found.drop limit, l.pos r' = l.pos r := by
    intro r hr hmatched hmoved hnot
    rw [List.map_append, List.mem_append, not_or] at hnot
    obtain ⟨r', hr', hid, hpos, hsame⟩ := h.base r hr hmoved
    have hfound : r' ∈ found := by
      refine hcomplete r' hr' (hsame.trans hmatched) fun a ha => ⟨?_, fun heq => hnot.1 ?_⟩
      · rw [hpos]
        exact h.front r hr hmatched hmoved hnot.1 a ha
      · rw [← hid, heq]
        exact List.mem_map_of_mem (List.mem_of_getLast? ha)
    rw [← List.take_append_drop limit found] at hfound
    rcases List.mem_append.mp hfound with hitem | hlater
    · exact absurd (hid ▸ List.mem_map_of_mem hitem) hnot.2
    · exact ⟨r', hlater, hpos⟩
  have hkept : ∀ r ∈ w.returned ++ found.take limit, ¬w.moved (l.id r) →
      ∃ r' ∈ w.rows, l.Alike r r' := by
    intro r hr hmoved
    rcases List.mem_append.mp hr with hold | hitem
    · exact h.kept r hold hmoved
    · exact ⟨r, (hitems r hitem).1, rfl, rfl, rfl⟩
  have hfront : ∀ r ∈ rows₀, l.matched r = true → ¬w.moved (l.id r) →
      l.id r ∉ (w.returned ++ found.take limit).map l.id →
      ∀ a ∈ (w.returned ++ found.take limit).getLast?, l.pos a < l.pos r := by
    intro r hr hmatched hmoved hnot a ha
    obtain ⟨r', hlater, hpos⟩ := hcoming r hr hmatched hmoved hnot
    rw [← hpos]
    have hsplit := hsorted
    rw [← List.take_append_drop limit found] at hsplit
    have hne : found.take limit ≠ [] := by
      have hfound := List.length_pos_of_mem (List.mem_of_mem_drop hlater)
      intro hnil
      have hlength := congrArg List.length hnil
      rw [List.length_take, List.length_nil] at hlength
      omega
    rw [List.getLast?_append_of_ne_nil _ hne] at ha
    exact (List.pairwise_append.mp hsplit).2.2 a (List.mem_of_getLast? ha) r' hlater
  by_cases hmore : limit < found.length
  · rw [if_pos hmore] at hnext
    obtain ⟨b, hb⟩ : ∃ b, (found.take limit).getLast? = some b := by
      refine Option.ne_none_iff_exists'.mp fun hnone => ?_
      have hlength := congrArg List.length (List.getLast?_eq_none_iff.mp hnone)
      rw [List.length_take, List.length_nil] at hlength
      omega
    rw [hb] at hnext
    cases hnext
    refine ⟨h.nodup, hreturned, hkept, h.base, hfront, fun cursor hcursor => ?_, nofun, nofun⟩
    cases hcursor
    rw [last, List.getLast?_append, hb]
    rfl
  · rw [if_neg hmore] at hnext
    cases hnext
    refine ⟨h.nodup, hreturned, hkept, h.base, hfront, nofun, nofun, fun _ r hr hmatched hmoved => ?_⟩
    by_contra hnot
    obtain ⟨r', hlater, -⟩ := hcoming r hr hmatched hmoved hnot
    rw [List.drop_eq_nil_of_le (by omega)] at hlater
    exact List.not_mem_nil hlater

/-- A row that has not moved is returned at most once. -/
theorem Sound.count_le_one (h : w.Sound l rows₀) {i : Id} (hmoved : ¬w.moved i) :
    w.count l i ≤ 1 := by
  have hcount : w.count l i = (w.returned.filter fun r => l.id r = i).length := by
    rw [count, List.count_eq_countP, List.countP_map, List.countP_eq_length_filter]
    rfl
  have hmem : ∀ r, r ∈ w.returned.filter (fun r => l.id r = i) → r ∈ w.returned ∧ l.id r = i := by
    intro r hr
    simpa using List.mem_filter.mp hr
  have hpair := h.sorted.filter fun r => l.id r = i
  rw [hcount]
  rcases hrows : w.returned.filter fun r => l.id r = i with _ | ⟨a, _ | ⟨b, rest⟩⟩
  · simp
  · simp
  -- Two rows that were returned stand at different places, but the row of the table at one.
  obtain ⟨ha, hida⟩ := hmem a (hrows ▸ List.mem_cons_self)
  obtain ⟨hb, hidb⟩ := hmem b (hrows ▸ List.mem_cons_of_mem _ List.mem_cons_self)
  obtain ⟨a', ha', hsamea, hposa, -⟩ := h.kept a ha (hida ▸ hmoved)
  obtain ⟨b', hb', hsameb, hposb, -⟩ := h.kept b hb (hidb ▸ hmoved)
  have hsame : a' = b' :=
    List.inj_on_of_nodup_map h.nodup ha' hb' (by rw [hsamea, hsameb, hida, hidb])
  rw [hrows] at hpair
  have hlt := List.rel_of_pairwise_cons hpair List.mem_cons_self
  rw [← hposa, ← hposb, hsame] at hlt
  exact absurd hlt (lt_irrefl _)

/-- **At the end of a walk** every row of the start that matches and has not moved was returned
exactly once. -/
theorem Sound.count_eq_one (h : w.Sound l rows₀) (hstage : w.stage = .finished) {r : Row}
    (hr : r ∈ rows₀) (hmatched : l.matched r = true) (hmoved : ¬w.moved (l.id r)) :
    w.count l (l.id r) = 1 := by
  refine le_antisymm (h.count_le_one hmoved) ?_
  exact List.one_le_count_iff.mpr (h.finished hstage r hr hmatched hmoved)

end Walk

end ApiWhatsApp.Library
