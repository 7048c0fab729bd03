import Mathlib.Data.List.Basic
import Mathlib.Data.List.Forall2
import Mathlib.Tactic.Common

/-!
# Patterns without choices

A regular expression whose parts are a class of items, or as many items of a class as there are. Where
no class meets the one behind it, there is one way to match, whatever the strategy of the engine is.

* `matchPrefix` matches at the start of a text, and **`matchPrefix_eq_some`** says that it finds the runs
  that fit.
* `Describes` are the texts of a pattern, with a rule for each part.
* `firstWith` is the first place of a part of a text.
* `matches_` are the matches of a global search: the leftmost first, and the next one behind it. Where no
  match can begin within another, **`mem_matches`** says that all places are found.
-/

namespace ApiWhatsApp.Library

variable {α : Type*}

/-- A part of a pattern. -/
inductive Piece (α : Type*) where
  /-- One item of a class. -/
  | one (p : α → Bool)
  /-- Some items of a class. -/
  | many (p : α → Bool)

namespace Piece

/-- The class of a part. -/
def holds : Piece α → α → Bool
  | one p | many p => p

/-- A run fits a part. -/
def Run : Piece α → List α → Prop
  | one p, run => ∃ a, run = [a] ∧ p a = true
  | many p, run => run ≠ [] ∧ ∀ a ∈ run, p a = true

/-- The run at the start of a text, as long as it can be, and the rest. -/
def read : Piece α → List α → Option (List α × List α)
  | one _, [] => none
  | one p, a :: rest => if p a then some ([a], rest) else none
  | many p, text => if text.takeWhile p = [] then none else some (text.takeWhile p, text.dropWhile p)

/-- A piece takes something. -/
theorem Run.ne_nil {piece : Piece α} {run : List α} (h : piece.Run run) : run ≠ [] := by
  cases piece with
  | one p =>
      obtain ⟨a, rfl, -⟩ := h
      exact List.cons_ne_nil _ _
  | many p => exact h.1

/-- What a piece takes, it allows. -/
theorem Run.holds {piece : Piece α} {run : List α} (h : piece.Run run) {a : α} (ha : a ∈ run) :
    piece.holds a = true := by
  cases piece with
  | one p =>
      obtain ⟨b, rfl, hb⟩ := h
      exact List.mem_singleton.mp ha ▸ hb
  | many p => exact h.2 a ha

end Piece

/-- The pattern of a text. -/
def literal [DecidableEq α] (text : List α) : List (Piece α) := text.map fun c => .one fun a => a = c

/-- The runs fit the parts one by one. -/
def Fits (pattern : List (Piece α)) (runs : List (List α)) : Prop := List.Forall₂ Piece.Run pattern runs

/-- No class meets the one behind it, and the pattern does not end with a repetition. -/
def Deterministic : List (Piece α) → Prop
  | [] => True
  | .one _ :: pattern => Deterministic pattern
  | [.many _] => False
  | .many p :: piece :: pattern => (∀ a, p a = true → piece.holds a = false) ∧
      Deterministic (piece :: pattern)

/-- Match at the start of a text: the runs, and the rest. -/
def matchPrefix : List (Piece α) → List α → Option (List (List α) × List α)
  | [], text => some ([], text)
  | piece :: pattern, text => do
      let (run, rest) ← piece.read text
      let (runs, rest) ← matchPrefix pattern rest
      return (run :: runs, rest)

/-- The first piece takes the first run. -/
theorem fits_cons {piece : Piece α} {pattern : List (Piece α)} {runs : List (List α)} :
    Fits (piece :: pattern) runs ↔ ∃ run runs', runs = run :: runs' ∧ piece.Run run ∧ Fits pattern runs' := by
  constructor
  · rintro (_ | ⟨hrun, hfits⟩)
    exact ⟨_, _, rfl, hrun, hfits⟩
  · rintro ⟨run, runs', rfl, hrun, hfits⟩
    exact .cons hrun hfits

/-- A literal takes its text, unit by unit. -/
theorem fits_literal_append [DecidableEq α] {text : List α} {pattern : List (Piece α)}
    {runs : List (List α)} : Fits (literal text ++ pattern) runs ↔
      ∃ runs', runs = text.map (fun c => [c]) ++ runs' ∧ Fits pattern runs' := by
  induction text generalizing runs with
  | nil =>
      refine ⟨fun h => ⟨runs, rfl, h⟩, ?_⟩
      rintro ⟨_, rfl, h⟩
      exact h
  | cons c text ih =>
      have hcons : literal (c :: text) ++ pattern = .one (fun a => a = c) :: (literal text ++ pattern) := rfl
      rw [hcons, fits_cons]
      constructor
      · rintro ⟨run, runs', rfl, ⟨a, rfl, ha⟩, hfits⟩
        obtain ⟨runs'', rfl, hrest⟩ := ih.mp hfits
        exact ⟨runs'', by rw [of_decide_eq_true ha]; rfl, hrest⟩
      · rintro ⟨runs'', rfl, hrest⟩
        exact ⟨[c], text.map (fun c => [c]) ++ runs'', rfl, ⟨c, rfl, decide_eq_true rfl⟩,
          ih.mpr ⟨runs'', rfl, hrest⟩⟩

/-- No pieces take nothing. -/
theorem fits_nil {runs : List (List α)} : Fits [] runs ↔ runs = [] :=
  ⟨fun h => by cases h; rfl, fun h => h ▸ .nil⟩

/-- Some items of a class. -/
structure RunOf (p : α → Bool) where
  items : List α
  ne_nil : items ≠ []
  holds : ∀ a ∈ items, p a = true

/-- A single piece takes one item. -/
theorem fits_one {p : α → Bool} {pattern : List (Piece α)} {runs : List (List α)} :
    Fits (.one p :: pattern) runs ↔
      ∃ a runs', p a = true ∧ runs = [a] :: runs' ∧ Fits pattern runs' := by
  rw [fits_cons]
  constructor
  · rintro ⟨run, runs', rfl, ⟨a, rfl, ha⟩, hfits⟩
    exact ⟨a, runs', ha, rfl, hfits⟩
  · rintro ⟨a, runs', ha, rfl, hfits⟩
    exact ⟨[a], runs', rfl, ⟨a, rfl, ha⟩, hfits⟩

/-- A repeated piece takes a run of items. -/
theorem fits_many {p : α → Bool} {pattern : List (Piece α)} {runs : List (List α)} :
    Fits (.many p :: pattern) runs ↔
      ∃ (run : RunOf p) (runs' : List (List α)), runs = run.items :: runs' ∧ Fits pattern runs' := by
  rw [fits_cons]
  constructor
  · rintro ⟨run, runs', rfl, ⟨hne, hholds⟩, hfits⟩
    exact ⟨⟨run, hne, hholds⟩, runs', rfl, hfits⟩
  · rintro ⟨run, runs', rfl, hfits⟩
    exact ⟨run.items, runs', rfl, ⟨run.ne_nil, run.holds⟩, hfits⟩

/-- A literal takes its text. -/
theorem fits_literal [DecidableEq α] {text : List α} {runs : List (List α)} :
    Fits (literal text) runs ↔ runs = text.map fun c => [c] := by
  have h : Fits (literal text ++ []) runs ↔ _ := fits_literal_append
  rw [List.append_nil] at h
  rw [h]
  constructor
  · rintro ⟨runs', rfl, hnil⟩
    rw [fits_nil.mp hnil, List.append_nil]
  · rintro rfl
    exact ⟨[], (List.append_nil _).symm, fits_nil.mpr rfl⟩

/-- A literal can be read in one way. -/
theorem deterministic_literal [DecidableEq α] (text : List α) : Deterministic (literal text) := by
  induction text with
  | nil => trivial
  | cons c text ih => exact ih

/-- A literal in front changes nothing about that. -/
theorem deterministic_literal_append [DecidableEq α] {text : List α} {pattern : List (Piece α)} :
    Deterministic (literal text ++ pattern) ↔ Deterministic pattern := by
  induction text with
  | nil => exact Iff.rfl
  | cons c text ih => exact ih

/-- A text is put together from its units. -/
@[simp] theorem flatten_map_singleton (text : List α) : (text.map fun c => [c]).flatten = text := by
  induction text with
  | nil => rfl
  | cons c text ih => rw [List.map_cons, List.flatten_cons, ih, List.singleton_append]

/-- A run ends where its items do. -/
theorem takeWhile_append_of {p : α → Bool} {run rest : List α} (hrun : ∀ a ∈ run, p a = true)
    (hrest : ∀ a ∈ rest.head?, p a = false) :
    (run ++ rest).takeWhile p = run ∧ (run ++ rest).dropWhile p = rest := by
  rw [List.takeWhile_append_of_pos hrun, List.dropWhile_append_of_pos hrun]
  cases rest with
  | nil => exact ⟨List.append_nil _, rfl⟩
  | cons a rest =>
      have ha := hrest a rfl
      rw [List.takeWhile_cons_of_neg (by rw [ha]; exact Bool.false_ne_true),
        List.dropWhile_cons_of_neg (by rw [ha]; exact Bool.false_ne_true), List.append_nil]
      exact ⟨rfl, rfl⟩

/-- **A match at the start of a text** is made of the runs that fit. -/
theorem matchPrefix_eq_some {pattern : List (Piece α)} (h : Deterministic pattern) {text rest : List α}
    {runs : List (List α)} :
    matchPrefix pattern text = some (runs, rest) ↔ Fits pattern runs ∧ text = runs.flatten ++ rest := by
  induction pattern generalizing text rest runs with
  | nil =>
      rw [matchPrefix]
      constructor
      · rintro ⟨⟩
        exact ⟨.nil, rfl⟩
      · rintro ⟨⟨⟩, rfl⟩
        rfl
  | cons piece pattern ih =>
      have hrun : matchPrefix (piece :: pattern) text = (piece.read text).bind fun first =>
          (matchPrefix pattern first.2).bind fun others => some (first.1 :: others.1, others.2) := rfl
      have htail : Deterministic pattern := by
        cases piece with
        | one p => exact h
        | many p =>
            cases pattern with
            | nil => exact absurd h not_false
            | cons piece' pattern => exact h.2
      rw [hrun, Option.bind_eq_some_iff]
      constructor
      · rintro ⟨⟨run, rest₁⟩, hread, hothers⟩
        obtain ⟨⟨runs', rest₂⟩, hmatch, heq⟩ := Option.bind_eq_some_iff.mp hothers
        cases heq
        obtain ⟨hfits, hrest⟩ := (ih htail).mp hmatch
        have hfirst : piece.Run run ∧ text = run ++ rest₁ := by
          cases piece with
          | one p =>
              cases text with
              | nil => cases hread
              | cons a text =>
                  rw [Piece.read] at hread
                  split_ifs at hread with ha
                  cases hread
                  exact ⟨⟨a, rfl, ha⟩, rfl⟩
          | many p =>
              rw [Piece.read] at hread
              split_ifs at hread with hnone
              cases hread
              exact ⟨⟨hnone, List.all_eq_true.mp List.all_takeWhile⟩, (List.takeWhile_append_dropWhile).symm⟩
        refine ⟨fits_cons.mpr ⟨run, runs', rfl, hfirst.1, hfits⟩, ?_⟩
        dsimp only at hrest ⊢
        rw [hfirst.2, hrest, List.flatten_cons, List.append_assoc]
      · rintro ⟨hfits, rfl⟩
        obtain ⟨run, runs', rfl, hfirst, hothers⟩ := fits_cons.mp hfits
        rw [List.flatten_cons, List.append_assoc]
        refine ⟨(run, runs'.flatten ++ rest), ?_, Option.bind_eq_some_iff.mpr
          ⟨(runs', rest), (ih htail).mpr ⟨hothers, rfl⟩, rfl⟩⟩
        cases piece with
        | one p =>
            obtain ⟨a, rfl, ha⟩ := hfirst
            rw [List.singleton_append, Piece.read, if_pos ha]
        | many p =>
            cases pattern with
            | nil => exact absurd h not_false
            | cons piece' pattern =>
                -- The next run begins with an item of another class.
                obtain ⟨run', runs'', rfl, hnext, -⟩ := fits_cons.mp hothers
                have hhead : ∀ a ∈ ((run' :: runs'').flatten ++ rest).head?, p a = false := by
                  intro a ha
                  obtain ⟨b, tail, rfl⟩ := List.exists_cons_of_ne_nil hnext.ne_nil
                  obtain rfl : b = a := Option.some.inj ha
                  by_contra hpos
                  have hholds := h.1 b (eq_true_of_ne_false hpos)
                  rw [hnext.holds List.mem_cons_self] at hholds
                  cases hholds
                obtain ⟨htake, hdrop⟩ := takeWhile_append_of hfirst.2 hhead
                rw [Piece.read, htake, hdrop, if_neg hfirst.1]

/-- A text that a pattern describes. -/
def Describes (pattern : List (Piece α)) (text : List α) : Prop :=
  ∃ runs, Fits pattern runs ∧ text = runs.flatten

/-- A pattern is found at the front just when a line of it is there. -/
theorem isSome_matchPrefix {pattern : List (Piece α)} (h : Deterministic pattern) {text : List α} :
    (matchPrefix pattern text).isSome = true ↔ ∃ line after, Describes pattern line ∧ text = line ++ after := by
  rw [Option.isSome_iff_exists]
  constructor
  · rintro ⟨⟨runs, rest⟩, hmatch⟩
    obtain ⟨hfits, heq⟩ := (matchPrefix_eq_some h).mp hmatch
    exact ⟨runs.flatten, rest, ⟨runs, hfits, rfl⟩, heq⟩
  · rintro ⟨line, after, ⟨runs, hfits, rfl⟩, heq⟩
    exact ⟨(runs, after), (matchPrefix_eq_some h).mpr ⟨hfits, heq⟩⟩

/-- No pieces describe the empty text. -/
theorem describes_nil {text : List α} : Describes [] text ↔ text = [] := by
  constructor
  · rintro ⟨runs, hfits, rfl⟩
    rw [fits_nil.mp hfits, List.flatten_nil]
  · rintro rfl
    exact ⟨[], fits_nil.mpr rfl, rfl⟩

/-- A single piece describes one item. -/
theorem describes_one {p : α → Bool} {pattern : List (Piece α)} {text : List α} :
    Describes (.one p :: pattern) text ↔ ∃ a rest, p a = true ∧ text = a :: rest ∧ Describes pattern rest := by
  constructor
  · rintro ⟨runs, hfits, rfl⟩
    obtain ⟨a, runs', ha, rfl, hrest⟩ := fits_one.mp hfits
    exact ⟨a, runs'.flatten, ha, rfl, runs', hrest, rfl⟩
  · rintro ⟨a, rest, ha, rfl, runs, hfits, rfl⟩
    exact ⟨[a] :: runs, fits_one.mpr ⟨a, runs, ha, rfl, hfits⟩, rfl⟩

/-- A repeated piece describes a run. -/
theorem describes_many {p : α → Bool} {pattern : List (Piece α)} {text : List α} :
    Describes (.many p :: pattern) text ↔
      ∃ (run : RunOf p) (rest : List α), text = run.items ++ rest ∧ Describes pattern rest := by
  constructor
  · rintro ⟨runs, hfits, rfl⟩
    obtain ⟨run, runs', rfl, hrest⟩ := fits_many.mp hfits
    exact ⟨run, runs'.flatten, List.flatten_cons, runs', hrest, rfl⟩
  · rintro ⟨run, rest, rfl, runs, hfits, rfl⟩
    exact ⟨run.items :: runs, fits_many.mpr ⟨run, runs, rfl, hfits⟩, List.flatten_cons.symm⟩

/-- A literal describes its text. -/
theorem describes_literal_append [DecidableEq α] {text line : List α} {pattern : List (Piece α)} :
    Describes (literal text ++ pattern) line ↔ ∃ rest, line = text ++ rest ∧ Describes pattern rest := by
  constructor
  · rintro ⟨runs, hfits, rfl⟩
    obtain ⟨runs', rfl, hrest⟩ := fits_literal_append.mp hfits
    exact ⟨runs'.flatten, by rw [List.flatten_append, flatten_map_singleton], runs', hrest, rfl⟩
  · rintro ⟨rest, rfl, runs, hfits, rfl⟩
    refine ⟨text.map (fun c => [c]) ++ runs, fits_literal_append.mpr ⟨runs, rfl, hfits⟩, ?_⟩
    rw [List.flatten_append, flatten_map_singleton]

/-- A literal describes nothing else. -/
theorem describes_literal [DecidableEq α] {text line : List α} :
    Describes (literal text) line ↔ line = text := by
  have h : Describes (literal text ++ []) line ↔ _ := describes_literal_append
  rw [List.append_nil] at h
  rw [h]
  constructor
  · rintro ⟨rest, rfl, hrest⟩
    rw [describes_nil.mp hrest, List.append_nil]
  · rintro rfl
    exact ⟨[], (List.append_nil _).symm, describes_nil.mpr rfl⟩

/-! ## The first place of a text -/

/-- The rest of a text from the first place on where a part of it stands. -/
def firstWith [DecidableEq α] (part : List α) : List α → Option (List α)
  | [] => if part = [] then some [] else none
  | a :: text => if part.isPrefixOf (a :: text) then some (a :: text) else firstWith part text

/-- The first place is the one that no other comes before. -/
theorem firstWith_eq_some [DecidableEq α] {part text found : List α} :
    firstWith part text = some found ↔ part <+: found ∧ ∃ front, text = front ++ found ∧
      ∀ front' after', text = front' ++ (part ++ after') → front.length ≤ front'.length := by
  induction text with
  | nil =>
      rw [firstWith]
      split_ifs with hpart
      · constructor
        · rintro ⟨⟩
          exact ⟨hpart ▸ List.nil_prefix, [], rfl, fun _ _ _ => Nat.zero_le _⟩
        · rintro ⟨-, front, heq, -⟩
          rw [(List.append_eq_nil_iff.mp heq.symm).2]
      · refine iff_of_false (by rintro ⟨⟩) ?_
        rintro ⟨hstarts, front, heq, -⟩
        rw [(List.append_eq_nil_iff.mp heq.symm).2] at hstarts
        exact hpart (List.prefix_nil.mp hstarts)
  | cons a text ih =>
      rw [firstWith]
      split_ifs with hstarts
      · obtain ⟨after, hafter⟩ := List.isPrefixOf_iff_prefix.mp hstarts
        constructor
        · rintro ⟨⟩
          exact ⟨⟨after, hafter⟩, [], rfl, fun _ _ _ => Nat.zero_le _⟩
        · rintro ⟨-, front, heq, hfirst⟩
          have hnil := List.length_eq_zero_iff.mp (Nat.le_zero.mp (hfirst [] after hafter.symm))
          rw [hnil] at heq
          exact congrArg some heq
      · rw [ih]
        refine and_congr_right fun hfound => ⟨?_, ?_⟩
        · rintro ⟨front, rfl, hfirst⟩
          refine ⟨a :: front, rfl, ?_⟩
          rintro (_ | ⟨b, front'⟩) after' heq
          · exact absurd (List.isPrefixOf_iff_prefix.mpr ⟨after', heq.symm⟩) hstarts
          · exact Nat.succ_le_succ (hfirst front' after' (List.cons.inj heq).2)
        · rintro ⟨_ | ⟨b, front⟩, heq, hfirst⟩
          · obtain ⟨after, rfl⟩ := hfound
            exact absurd (List.isPrefixOf_iff_prefix.mpr ⟨after, heq.symm⟩) hstarts
          · refine ⟨front, (List.cons.inj heq).2, fun front' after' hat => ?_⟩
            exact Nat.le_of_succ_le_succ (hfirst (a :: front') after' (congrArg _ hat))

/-! ## Global search -/

/-- The matches of a text, with what follows them. The first items are skipped that belong to the match
before. -/
def matchesFrom (pattern : List (Piece α)) : List α → ℕ → List (List (List α) × List α)
  | [], _ => []
  | _ :: text, skip + 1 => matchesFrom pattern text skip
  | a :: text, 0 =>
      match matchPrefix pattern (a :: text) with
      | some (runs, rest) => (runs, rest) :: matchesFrom pattern text (runs.flatten.length - 1)
      | none => matchesFrom pattern text 0

/-- The matches of a global search. -/
def matches_ (pattern : List (Piece α)) (text : List α) : List (List (List α) × List α) :=
  matchesFrom pattern text 0

/-- **All places are found** where the pattern matches, if the class at its start meets no other. -/
theorem mem_matches {p : α → Bool} {pattern : List (Piece α)} (h : Deterministic (.one p :: pattern))
    (hstart : ∀ a, p a = true → ∀ piece ∈ pattern, piece.holds a = false) {text rest : List α}
    {runs : List (List α)} :
    (runs, rest) ∈ matches_ (.one p :: pattern) text ↔
      Fits (.one p :: pattern) runs ∧ ∃ front, text = front ++ (runs.flatten ++ rest) := by
  have hclass : ∀ {pattern : List (Piece α)} {runs : List (List α)}, Fits pattern runs →
      ∀ a ∈ runs.flatten, ∃ piece ∈ pattern, piece.holds a = true := by
    intro pattern runs hfits
    induction hfits with
    | nil => exact fun a ha => absurd ha List.not_mem_nil
    | cons hrun _ ih =>
        intro a ha
        rw [List.flatten_cons] at ha
        rcases List.mem_append.mp ha with hfirst | hrest
        · exact ⟨_, List.mem_cons_self, hrun.holds hfirst⟩
        · obtain ⟨piece, hmem, hholds⟩ := ih a hrest
          exact ⟨piece, List.mem_cons_of_mem _ hmem, hholds⟩
  have hall : ∀ text skip, (∀ a ∈ text.take skip, p a = false) →
      ((runs, rest) ∈ matchesFrom (.one p :: pattern) text skip ↔
        Fits (.one p :: pattern) runs ∧ ∃ front, text = front ++ (runs.flatten ++ rest)) := by
    intro text
    induction text with
    | nil =>
        intro skip _
        refine iff_of_false List.not_mem_nil ?_
        rintro ⟨hfits, front, heq⟩
        obtain ⟨run, runs', rfl, hrun, -⟩ := fits_cons.mp hfits
        have hnil := (List.append_eq_nil_iff.mp (List.append_eq_nil_iff.mp heq.symm).2).1
        exact hrun.ne_nil (List.append_eq_nil_iff.mp hnil).1
    | cons a text ih =>
        have hlater : ∀ skip, (∀ b ∈ text.take skip, p b = false) →
            ((runs, rest) ∈ matchesFrom (.one p :: pattern) text skip ↔
              Fits (.one p :: pattern) runs ∧ ∃ b front, a :: text = b :: front ++ (runs.flatten ++ rest)) := by
          intro skip hskip
          rw [ih skip hskip]
          refine and_congr_right fun _ => ⟨?_, ?_⟩
          · rintro ⟨front, heq⟩
            exact ⟨a, front, congrArg _ heq⟩
          · rintro ⟨b, front, heq⟩
            exact ⟨front, (List.cons.inj heq).2⟩
        intro skip hskip
        cases skip with
        | succ skip =>
            rw [List.take_succ_cons, List.forall_mem_cons] at hskip
            rw [matchesFrom, hlater skip hskip.2]
            refine and_congr_right fun hfits => ⟨?_, ?_⟩
            · rintro ⟨b, front, heq⟩
              exact ⟨b :: front, heq⟩
            rintro ⟨_ | ⟨b, front⟩, heq⟩
            · -- A match begins with an item that none of the skipped ones is.
              obtain ⟨run, runs', rfl, ⟨c, rfl, hc⟩, -⟩ := fits_cons.mp hfits
              obtain rfl : a = c := (List.cons.inj heq).1
              exact absurd (hc.symm.trans hskip.1) (by decide)
            · exact ⟨b, front, heq⟩
        | zero =>
            rw [matchesFrom]
            cases hmatch : matchPrefix (.one p :: pattern) (a :: text) with
            | none =>
                rw [hlater 0 (by simp)]
                refine and_congr_right fun hfits => ⟨?_, ?_⟩
                · rintro ⟨b, front, heq⟩
                  exact ⟨b :: front, heq⟩
                rintro ⟨_ | ⟨b, front⟩, heq⟩
                · rw [(matchPrefix_eq_some h).mpr ⟨hfits, heq⟩] at hmatch
                  cases hmatch
                · exact ⟨b, front, heq⟩
            | some found =>
                obtain ⟨runs₀, rest₀⟩ := found
                obtain ⟨hfits₀, heq₀⟩ := (matchPrefix_eq_some h).mp hmatch
                obtain ⟨run, runs', rfl, ⟨c, rfl, hc⟩, hothers⟩ := fits_cons.mp hfits₀
                have htext : text = runs'.flatten ++ rest₀ := (List.cons.inj heq₀).2
                have hskip' : ∀ b ∈ text.take (([c] :: runs').flatten.length - 1), p b = false := by
                  intro b hb
                  rw [htext, List.flatten_cons, List.singleton_append, List.length_cons,
                    Nat.add_sub_cancel, List.take_left] at hb
                  obtain ⟨piece, hmem, hholds⟩ := hclass hothers b hb
                  by_contra hpos
                  have hnot := hstart b (eq_true_of_ne_false hpos) piece hmem
                  exact absurd (hholds.symm.trans hnot) (by decide)
                rw [List.mem_cons, hlater _ hskip']
                constructor
                · rintro (heq | ⟨hfits, b, front, heq⟩)
                  · cases heq
                    exact ⟨hfits₀, [], heq₀⟩
                  · exact ⟨hfits, b :: front, heq⟩
                · rintro ⟨hfits, _ | ⟨b, front⟩, heq⟩
                  · left
                    exact Option.some.inj (((matchPrefix_eq_some h).mpr ⟨hfits, heq⟩).symm.trans hmatch)
                  · exact .inr ⟨hfits, b, front, heq⟩
  exact hall text 0 (by simp)

end ApiWhatsApp.Library
