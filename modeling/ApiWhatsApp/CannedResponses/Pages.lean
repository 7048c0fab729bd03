import ApiWhatsApp.CannedResponses.Updates
import ApiWhatsApp.Lists.Cursors

/-!
# The list of canned responses

`CannedResponsesService.list` looks up where the row of its cursor stands and asks for the rows behind
that place. Creation times and ids never change, so it does not matter what else becomes of the row.

* `listCannedResponses` — the checks, the filter and the order; `behind` is the extra condition.
* `CannedPages.step` is one walk among creations and edits.
* `CannedPages.Placed` — a row that was returned is still there, at the same place. With `Walk.Sound`
  this is the invariant.
* **`canned_response_pages`** — the result.
-/

set_option linter.unusedSectionVars false

namespace ApiWhatsApp

open Library CannedPolicy

/-- Source: `ListCannedResponsesQueryDto`, without the cursor. -/
structure ListCannedResponsesQueryDto where
  status : String := "active"
  shortcut : CannedField := .undefined
  /-- `none` is not finite. -/
  limit : Option ℚ := some 50

/-- The condition on `active`. -/
def activeMatches (status : String) (active : Bool) : Bool :=
  status = "all" || active = (status = "active")

/-- The rows and the order of the query. -/
def cannedListing (tenantId : Uuid) (status : String) (shortcut : Option JsString) :
    Listing InboxCannedResponse Uuid Descending where
  id r := r.id
  owned r := r.tenantId = tenantId
  matched r := r.tenantId = tenantId && activeMatches status r.active &&
    shortcut.all fun shortcut => r.shortcut = shortcut.toText
  pos r := descending r.createdAt r.id

/-- The page size and the query of `list` in `canned-responses.service.ts`. -/
def listCannedResponses (toLowerCase : JsString → JsString) (tenantId : Uuid)
    (query : ListCannedResponsesQueryDto) :
    Except String (ℕ × Listing InboxCannedResponse Uuid Descending) :=
  if !(query.limit.any fun limit => limit.isInt && 1 ≤ limit && limit ≤ 100) ||
      query.status ∉ ["active", "inactive", "all"] then
    .error "Invalid canned response page parameters"
  else do
    let shortcut ← optional (normalizeShortcut toLowerCase) query.shortcut
    .ok ((query.limit.getD 0).num.toNat, cannedListing tenantId query.status shortcut)

/-- A page has at least one row. -/
theorem of_listCannedResponses {toLowerCase : JsString → JsString} {tenantId : Uuid}
    {query : ListCannedResponsesQueryDto} {limit : ℕ}
    {l : Listing InboxCannedResponse Uuid Descending}
    (h : listCannedResponses toLowerCase tenantId query = .ok (limit, l)) :
    0 < limit ∧ ∃ shortcut, l = cannedListing tenantId query.status shortcut := by
  unfold listCannedResponses at h
  split_ifs at h with hbad
  obtain ⟨shortcut, -, hpage⟩ := bind_eq_ok.mp h
  cases hpage
  refine ⟨?_, shortcut, rfl⟩
  rw [Bool.or_eq_true, not_or, Bool.not_eq_true', Bool.not_eq_false, Option.any_eq_true] at hbad
  obtain ⟨⟨value, hvalue, hbounds⟩, -⟩ := hbad
  simp only [Bool.and_eq_true, decide_eq_true_eq] at hbounds
  obtain ⟨⟨-, hone⟩, -⟩ := hbounds
  rw [hvalue, Option.getD_some]
  have hpos : 0 < value.num := Rat.num_pos.mpr (by linarith)
  omega

/-- Source: `position`, for a captured anchor. -/
def behind (anchor r : InboxCannedResponse) : Bool :=
  r.createdAt < anchor.createdAt || (r.createdAt = anchor.createdAt && r.id < anchor.id)

/-- What stands behind a row in the list. -/
theorem behind_iff (anchor r : InboxCannedResponse) :
    behind anchor r = true ↔ descending anchor.createdAt anchor.id < descending r.createdAt r.id := by
  rw [descending, descending, Prod.Lex.toLex_lt_toLex, OrderDual.toDual_lt_toDual,
    OrderDual.toDual_lt_toDual, EmbeddingLike.apply_eq_iff_eq, eq_comm (a := anchor.createdAt)]
  simp [behind]

/-! ## Walks among other requests -/

/-- What happens to a walk: it goes on, or another request has created a row or edited one. -/
inductive CannedPageAct where
  | next
  | insert (row : InboxCannedResponse)
  | edit (id : Uuid) (changes : CannedResponseChanges) (now : Time)

namespace CannedPages

variable {l : Listing InboxCannedResponse Uuid Descending} {limit : ℕ} {tenantId : Uuid}
  {status : String} {shortcut : Option JsString}
  {w w' : Walk InboxCannedResponse Uuid} {act : CannedPageAct} {rows : List InboxCannedResponse}

/-- The rows after an edit. -/
def edited (id : Uuid) (changes : CannedResponseChanges) (now : Time)
    (rows : List InboxCannedResponse) : List InboxCannedResponse :=
  rows.map fun r => if r.id = id then r.patched changes now else r

/-- One step. -/
def step (l : Listing InboxCannedResponse Uuid Descending) (limit : ℕ)
    (w : Walk InboxCannedResponse Uuid) : CannedPageAct → Option (Walk InboxCannedResponse Uuid)
  | .next => w.next l (l.after behind) limit
  | .insert row => if row.id ∈ w.rows.map (·.id) then none else some (w.change l (row :: w.rows))
  | .edit id changes now => some (w.change l (edited id changes now w.rows))

/-- The same response, edited or not. -/
def Same (r r' : InboxCannedResponse) : Prop :=
  r'.id = r.id ∧ r'.createdAt = r.createdAt ∧ r'.tenantId = r.tenantId

/-- What an edit does to the rows. -/
structure Grown (rows rows' : List InboxCannedResponse) : Prop where
  nodup : (rows.map (·.id)).Nodup → (rows'.map (·.id)).Nodup
  same : ∀ r ∈ rows, ∃ r' ∈ rows', Same r r'

/-- A new row is growth. -/
theorem grown_insert {row : InboxCannedResponse} (h : row.id ∉ rows.map (·.id)) :
    Grown rows (row :: rows) where
  nodup hnodup := List.nodup_cons.mpr ⟨h, hnodup⟩
  same r hr := ⟨r, List.mem_cons_of_mem _ hr, rfl, rfl, rfl⟩

/-- An edit is growth. -/
theorem grown_edited (id : Uuid) (changes : CannedResponseChanges) (now : Time) :
    Grown rows (edited id changes now rows) := by
  have hsame : ∀ r : InboxCannedResponse, Same r (if r.id = id then r.patched changes now else r) := by
    intro r
    split_ifs
    · exact ⟨rfl, rfl, rfl⟩
    · exact ⟨rfl, rfl, rfl⟩
  refine ⟨fun hnodup => ?_, fun r hr => ⟨_, List.mem_map_of_mem hr, hsame r⟩⟩
  have hids : (edited id changes now rows).map (·.id) = rows.map (·.id) := by
    rw [edited, List.map_map]
    exact List.map_congr_left fun r _ => (hsame r).1
  rwa [hids]

/-- Every step goes on or lets the table grow. -/
theorem step_cases (h : step l limit w act = some w') :
    (act = .next ∧ w.next l (l.after behind) limit = some w') ∨
      ∃ rows', Grown w.rows rows' ∧ w' = w.change l rows' := by
  cases act with
  | next => exact .inl ⟨rfl, h⟩
  | insert row =>
      simp only [step] at h
      split_ifs at h with hold
      cases h
      exact .inr ⟨_, grown_insert hold, rfl⟩
  | edit id changes now =>
      cases h
      exact .inr ⟨_, grown_edited id changes now, rfl⟩

/-- No two rows have one place. -/
theorem separates_cannedListing : (cannedListing tenantId status shortcut).Separates :=
  fun _ _ heq => eq_of_descending heq

/-- Only rows of the tenant are listed. -/
theorem owned_of_matched {r : InboxCannedResponse}
    (h : (cannedListing tenantId status shortcut).matched r = true) : r.tenantId = tenantId := by
  simp only [cannedListing, Bool.and_eq_true, decide_eq_true_eq] at h
  exact h.1.1

/-- Being one row is transitive. -/
theorem Same.trans {a b c : InboxCannedResponse} (hab : Same a b) (hbc : Same b c) : Same a c :=
  ⟨hbc.1.trans hab.1, hbc.2.1.trans hab.2.1, hbc.2.2.trans hab.2.2⟩

/-- A row that was returned is still there, and the place of a cursor is where it was. -/
structure Placed (tenantId : Uuid) (w : Walk InboxCannedResponse Uuid) : Prop where
  kept : ∀ r ∈ w.returned, r.tenantId = tenantId ∧ ∃ r' ∈ w.rows, Same r r'
  anchor : ∀ anchor, w.stage = .reading anchor →
    anchor.map (fun r => descending r.createdAt r.id) =
      w.last.map fun r => descending r.createdAt r.id
  asked : w.stage ≠ .refused

/-- A change of rows leaves the walk in its place. -/
theorem Placed.change (h : Placed tenantId w) {rows' : List InboxCannedResponse}
    (hgrown : Grown w.rows rows') : Placed tenantId (w.change l rows') where
  kept r hr := by
    obtain ⟨howner, r', hr', hsame⟩ := h.kept r hr
    obtain ⟨r'', hr'', hsame'⟩ := hgrown.same r' hr'
    exact ⟨howner, r'', hr'', hsame.trans hsame'⟩
  anchor := h.anchor
  asked := h.asked

/-- The walk goes on. -/
theorem Placed.next {rows₀ : List InboxCannedResponse} (hlimit : 0 < limit)
    (hs : w.Sound (cannedListing tenantId status shortcut) rows₀) (h : Placed tenantId w)
    (hnext : w.next (cannedListing tenantId status shortcut)
      ((cannedListing tenantId status shortcut).after behind) limit = some w') :
    w'.Sound (cannedListing tenantId status shortcut) rows₀ ∧ Placed tenantId w' := by
  cases hstage : w.stage with
  | asking cursor =>
      obtain ⟨hs', hrows, hreturned, -, hlookup⟩ := hs.lookup hstage hnext
      have hlast : w'.last = w.last := congrArg List.getLast? hreturned
      refine ⟨hs', fun r hr => ?_, fun anchor hanchor => ?_, fun hrefused => ?_⟩
      · rw [hreturned] at hr
        rw [hrows]
        exact h.kept r hr
      · rcases hlookup with ⟨hrefused, -⟩ | ⟨anchor', hreading, hfound⟩
        · rw [hrefused] at hanchor
          cases hanchor
        rw [hreading] at hanchor
        cases hanchor
        have hids := hs'.reading _ hreading
        rw [hlast] at hids ⊢
        rcases anchor with _ | a
        · rw [Option.map_eq_none_iff.mp hids.symm]
        obtain ⟨a₀, hlast₀, hid⟩ := Option.map_eq_some_iff.mp hids.symm
        obtain ⟨-, r', hr', hsame⟩ := h.kept a₀ (List.mem_of_getLast? hlast₀)
        -- The row that was found is the one that was returned.
        have heq : r' = a :=
          List.inj_on_of_nodup_map hs.nodup hr' (hfound a rfl).1 (hsame.1.trans hid)
        subst heq
        rw [hlast₀, Option.map_some, Option.map_some, hsame.1, hsame.2.1]
      · rcases hlookup with ⟨-, i, hi, hnone⟩ | ⟨anchor, hreading, -⟩
        · have hcursor := hs.asking _ hstage
          rw [hcursor] at hi
          obtain ⟨a₀, hlast₀, hid⟩ := Option.map_eq_some_iff.mp hi
          obtain ⟨howner, r', hr', hsame⟩ := h.kept a₀ (List.mem_of_getLast? hlast₀)
          exact hnone r' hr' (hsame.1.trans hid) (decide_eq_true (hsame.2.2.trans howner))
        · rw [hreading] at hrefused
          cases hrefused
  | reading anchor =>
      have hfollows := Listing.follows_after behind_iff separates_cannedListing hs.nodup
        (h.anchor anchor hstage)
      obtain ⟨hrows, -, hreturned, hstage'⟩ := Walk.next_of_reading hstage hnext
      refine ⟨hs.read hlimit hstage hfollows hnext, fun r hr => ?_, fun anchor' hanchor => ?_,
        fun hrefused => ?_⟩
      · rw [hrows]
        rw [hreturned] at hr
        rcases List.mem_append.mp hr with hr | hr
        · exact h.kept r hr
        · obtain ⟨hrow, hmatched, -⟩ := hfollows.sound r (List.mem_of_mem_take hr)
          exact ⟨owned_of_matched hmatched, r, hrow, rfl, rfl, rfl⟩
      · rcases hstage' with hfinished | ⟨cursor, hasking⟩
        · rw [hfinished] at hanchor
          cases hanchor
        · rw [hasking] at hanchor
          cases hanchor
      · rcases hstage' with hfinished | ⟨cursor, hasking⟩
        · rw [hfinished] at hrefused
          cases hrefused
        · rw [hasking] at hrefused
          cases hrefused
  | finished => simp [Walk.next, hstage] at hnext
  | refused => exact absurd hstage h.asked

/-- The invariant of a walk. -/
theorem sound_step {rows₀ : List InboxCannedResponse} (hlimit : 0 < limit)
    (h : w.Sound (cannedListing tenantId status shortcut) rows₀ ∧ Placed tenantId w)
    (hstep : step (cannedListing tenantId status shortcut) limit w act = some w') :
    w'.Sound (cannedListing tenantId status shortcut) rows₀ ∧ Placed tenantId w' := by
  rcases step_cases hstep with ⟨-, hnext⟩ | ⟨rows', hgrown, rfl⟩
  · exact h.2.next hlimit h.1 hnext
  · exact ⟨h.1.change (hgrown.nodup h.1.nodup), h.2.change hgrown⟩

/-- No row is returned twice, whatever has become of it. -/
theorem nodup_returned {rows₀ : List InboxCannedResponse}
    (hs : w.Sound (cannedListing tenantId status shortcut) rows₀) (h : Placed tenantId w) :
    (w.returned.map (·.id)).Nodup := by
  refine List.pairwise_map.mpr (hs.sorted.imp_of_mem fun {a b} ha hb hlt hid => ?_)
  obtain ⟨-, a', ha', hsamea⟩ := h.kept a ha
  obtain ⟨-, b', hb', hsameb⟩ := h.kept b hb
  have hids : a'.id = b'.id := hsamea.1.trans (hid.trans hsameb.1.symm)
  have hrow : a' = b' := List.inj_on_of_nodup_map hs.nodup ha' hb' hids
  have htime : a.createdAt = b.createdAt := by rw [← hsamea.2.1, ← hsameb.2.1, hrow]
  refine absurd hlt ?_
  simp only [cannedListing]
  rw [htime, hid]
  exact lt_irrefl _

/-- The condition on a step: the row with this id matches after it. -/
def Matches (l : Listing InboxCannedResponse Uuid Descending) (limit : ℕ) (id : Uuid)
    (w : Walk InboxCannedResponse Uuid) (act : CannedPageAct) : Prop :=
  ∀ w' ∈ step l limit w act, ∃ r ∈ w'.rows, r.id = id ∧ l.matched r = true

/-- A row that matches throughout has not moved. -/
theorem not_moved_of_matches {rows : List InboxCannedResponse} {r : InboxCannedResponse}
    (hnodup : (rows.map (·.id)).Nodup) (hr : r ∈ rows)
    (hmatched : (cannedListing tenantId status shortcut).matched r = true)
    (hrun : Reaches (step (cannedListing tenantId status shortcut) limit)
      (Matches (cannedListing tenantId status shortcut) limit r.id) (Walk.start rows) w) :
    ¬w.moved r.id := by
  have hinv : (w.rows.map (·.id)).Nodup ∧ ¬w.moved r.id ∧ ∃ r' ∈ w.rows, r'.id = r.id ∧
      (cannedListing tenantId status shortcut).matched r' = true := by
    refine hrun.invariant (P := fun x => (x.rows.map (·.id)).Nodup ∧ ¬x.moved r.id ∧
      ∃ r' ∈ x.rows, r'.id = r.id ∧ (cannedListing tenantId status shortcut).matched r' = true)
      ⟨hnodup, id, r, hr, rfl, hmatched⟩ fun x act y hx hmatches hstep => ?_
    obtain ⟨hnodup, hmoved, a, ha, hida, hmatcheda⟩ := hx
    have hb := hmatches y hstep
    rcases step_cases hstep with ⟨-, hnext⟩ | ⟨rows', hgrown, rfl⟩
    · obtain ⟨hrows, hsame⟩ := Walk.frame_next hnext
      rw [hrows, hsame]
      exact ⟨hnodup, hmoved, a, ha, hida, hmatcheda⟩
    · obtain ⟨b, hb, hidb, hmatchedb⟩ := hb
      refine ⟨hgrown.nodup hnodup, ?_, b, hb, hidb, hmatchedb⟩
      obtain ⟨c, hc, hsame⟩ := hgrown.same a ha
      have hcb : c = b := List.inj_on_of_nodup_map (hgrown.nodup hnodup) hc hb
        (hsame.1.trans (hida.trans hidb.symm))
      subst hcb
      rw [← hida] at hmoved ⊢
      refine Walk.not_moved_change hnodup ha hmoved ⟨c, hc, hsame.1, ?_, ?_⟩
      · simp only [cannedListing]
        rw [hsame.1, hsame.2.1]
      · rw [hmatcheda, hmatchedb]
  exact hinv.2.1

/-- **The list of canned responses.** In every walk over pages of an accepted size, among any creations
and edits: no cursor is refused, no row is returned twice, the rows come in descending order of
creation time and id, and at the end every row of the start that matched throughout was returned
exactly once. -/
theorem canned_response_pages (toLowerCase : JsString → JsString) (tenantId : Uuid)
    (query : ListCannedResponsesQueryDto) (limit : ℕ)
    (l : Listing InboxCannedResponse Uuid Descending)
    (hquery : listCannedResponses toLowerCase tenantId query = .ok (limit, l))
    (rows : List InboxCannedResponse) (hnodup : (rows.map (·.id)).Nodup)
    (w : Walk InboxCannedResponse Uuid) (hrun : Reachable (step l limit) (Walk.start rows) w) :
    w.stage ≠ .refused ∧ (w.returned.map (·.id)).Nodup ∧
      (w.returned.Pairwise fun a b =>
        b.createdAt < a.createdAt ∨ b.createdAt = a.createdAt ∧ b.id < a.id) ∧
      (w.stage = .finished → ∀ r ∈ rows, l.matched r = true →
        Reaches (step l limit) (Matches l limit r.id) (Walk.start rows) w →
          (w.returned.map (·.id)).count r.id = 1) := by
  obtain ⟨hlimit, shortcut, rfl⟩ := of_listCannedResponses hquery
  obtain ⟨hs, h⟩ : w.Sound (cannedListing tenantId query.status shortcut) rows ∧
      Placed tenantId w :=
    Reaches.invariant
      (P := fun x => x.Sound (cannedListing tenantId query.status shortcut) rows ∧ Placed tenantId x)
      hrun ⟨Walk.sound_start hnodup, nofun, nofun, nofun⟩ fun x act y hx _ hstep =>
        sound_step hlimit hx hstep
  refine ⟨h.asked, nodup_returned hs h, hs.sorted.imp fun {a b} hlt => ?_,
    fun hstage r hr hmatched hkeeps => ?_⟩
  · have hbehind := (behind_iff a b).mpr hlt
    simpa [behind] using hbehind
  · have hmoved := not_moved_of_matches hnodup hr hmatched hkeeps
    exact hs.count_eq_one hstage hr hmatched hmoved

/-- An active response of tenant 1. -/
def responseAt (id : Uuid) (createdAt : Time) : InboxCannedResponse where
  id := id
  tenantId := 1
  shortcut := "hello"
  title := "Hello"
  body := "Hello"
  active := true
  revision := 1
  createdAt := createdAt
  updatedAt := createdAt

/-- The change that deactivates a response. -/
def deactivation : CannedResponseChanges where
  shortcut := none
  title := none
  body := none
  active := some false

/-- Responses 2 and 1 have the same creation time; the first page is response 2, which is deactivated
before the second page. -/
theorem canned_response_pages_deactivated :
    ∃ l w, listCannedResponses id 1 { limit := some 1 } = .ok (1, l) ∧
      Reachable (step l 1) (Walk.start [responseAt 1 5, responseAt 2 5]) w ∧ w.stage = .finished ∧
      (w.returned.map (·.id)).count 1 = 1 := by
  have hquery : listCannedResponses id 1 { limit := some 1 } =
      .ok (1, cannedListing 1 "active" none) := by rfl
  have hkeeps : ∀ {w act w'}, step (cannedListing 1 "active" none) 1 w act = some w' →
      responseAt 1 5 ∈ w'.rows → Matches (cannedListing 1 "active" none) 1 1 w act := by
    intro w act w' hstep hrow x hx
    rw [Option.mem_def, hstep] at hx
    cases hx
    exact ⟨_, hrow, rfl, by decide⟩
  have hstart : Reaches (step (cannedListing 1 "active" none) 1)
      (Matches (cannedListing 1 "active" none) 1 1) (Walk.start [responseAt 1 5, responseAt 2 5])
      (Walk.start [responseAt 1 5, responseAt 2 5]) := Reaches.refl
  have hpage := hstart.tail (a := .next) (hkeeps rfl List.mem_cons_self) rfl
  have hfirst := hpage.tail (a := .next) (hkeeps rfl List.mem_cons_self) rfl
  have hedited := hfirst.tail (a := .edit 2 deactivation 9) (hkeeps rfl List.mem_cons_self) rfl
  have hlookup := hedited.tail (a := .next) (hkeeps rfl List.mem_cons_self) rfl
  have hrun := hlookup.tail (a := .next) (hkeeps rfl List.mem_cons_self) rfl
  have hreach := hrun.invariant (P := fun x => Reachable (step (cannedListing 1 "active" none) 1)
    (Walk.start [responseAt 1 5, responseAt 2 5]) x) Reaches.refl
    fun x act y hx _ hstep => Reachable.tail hx hstep
  refine ⟨_, _, hquery, hreach, rfl, ?_⟩
  obtain ⟨-, -, -, hcount⟩ := canned_response_pages id 1 { limit := some 1 } 1 _ hquery
    [responseAt 1 5, responseAt 2 5] (by decide) _ hreach
  exact hcount rfl (responseAt 1 5) List.mem_cons_self (by decide) hrun

end CannedPages

end ApiWhatsApp
