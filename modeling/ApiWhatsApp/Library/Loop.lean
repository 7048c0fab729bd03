import ApiWhatsApp.Library.Machine
import Mathlib.Data.List.Basic
import Mathlib.Tactic.Common

/-!
# Loops that an exception ends

`forEach f s items` is `for (const x of items) await f(x)`: a state goes through the loop, and an
exception of one round ends it. What was done before the exception stays.

* `forEach_append` and **`forEach_flatMap`** — two loops after another, and one loop inside another.
* **`forEach_iff`** — the rule: when one round goes through exactly under a condition on the items
  before it, the loop does exactly when all of them meet the condition.
* `forEach_congr` — two loops side by side.
* **`reachable_forEach`** — a machine that takes the rounds one by one takes the loop.
-/

namespace ApiWhatsApp.Library

variable {σ α β ε : Type*}

/-- The loop: the state that it leaves, and the exception. -/
def forEach (f : σ → α → σ × Option ε) : σ → List α → σ × Option ε
  | s, [] => (s, none)
  | s, x :: rest =>
      match f s x with
      | (s', none) => forEach f s' rest
      | (s', some error) => (s', some error)

variable {f : σ → α → σ × Option ε} {s s' : σ} {x : α} {items rest : List α}

theorem forEach_cons_of_none (h : (f s x).2 = none) :
    forEach f s (x :: rest) = forEach f (f s x).1 rest := by
  rw [forEach]
  split
  · next s' heq => rw [heq]
  · next s' error heq =>
      rw [heq] at h
      cases h

theorem forEach_cons_of_some (h : (f s x).2 ≠ none) : forEach f s (x :: rest) = f s x := by
  rw [forEach]
  split
  · next s' heq =>
      rw [heq] at h
      exact absurd rfl h
  · next s' error heq => rw [heq]

/-- The second part of a loop runs when the first one has gone through. -/
theorem forEach_append :
    forEach f s (items ++ rest) =
      if (forEach f s items).2 = none then forEach f (forEach f s items).1 rest
      else forEach f s items := by
  induction items generalizing s with
  | nil => rfl
  | cons x items ih =>
      by_cases hx : (f s x).2 = none
      · rw [List.cons_append, forEach_cons_of_none hx, forEach_cons_of_none hx, ih]
      · rw [List.cons_append, forEach_cons_of_some hx, forEach_cons_of_some hx, if_neg hx]

/-- What every round keeps, the loop keeps, whether an exception ends it or not. -/
theorem forEach_invariant {P : σ → Prop} (h : P s)
    (hstep : ∀ s, ∀ x ∈ items, P s → P (f s x).1) : P (forEach f s items).1 := by
  induction items generalizing s with
  | nil => exact h
  | cons x items ih =>
      have hx := hstep s x List.mem_cons_self h
      by_cases hnone : (f s x).2 = none
      · rw [forEach_cons_of_none hnone]
        exact ih hx fun s y hy => hstep s y (List.mem_cons_of_mem _ hy)
      · rw [forEach_cons_of_some hnone]
        exact hx

/-- **A loop in a loop** is one loop over the items of all rounds, as long as the states keep `P`. -/
theorem forEach_flatMap {P : σ → Prop} {f : σ → β → σ × Option ε} {g : σ → α → σ × Option ε}
    {h : β → List α} {items : List β} (hs : P s) (hg : ∀ s x, P s → P (g s x).1)
    (hf : ∀ s, ∀ y ∈ items, P s → f s y = forEach g s (h y)) :
    forEach f s items = forEach g s (items.flatMap h) := by
  induction items generalizing s with
  | nil => rfl
  | cons y items ih =>
      have hy := hf s y List.mem_cons_self hs
      have hP : P (f s y).1 := by
        rw [hy]
        exact forEach_invariant hs fun s x _ => hg s x
      rw [List.flatMap_cons, forEach_append, ← hy]
      by_cases hnone : (f s y).2 = none
      · rw [forEach_cons_of_none hnone, if_pos hnone,
          ih hP fun s z hz => hf s z (List.mem_cons_of_mem _ hz)]
      · rw [forEach_cons_of_some hnone, if_neg hnone]

/-- **The rule.** `R` says what the rounds before have made of the state, and a round goes through
exactly under the condition `C`. -/
theorem forEach_iff {R : List α → σ → Prop} {C : List α → α → Prop} {before : List α}
    (hs : R before s)
    (hstep : ∀ before s x, R before s → ((f s x).2 = none ↔ C before x) ∧
      ((f s x).2 = none → R (before ++ [x]) (f s x).1)) :
    ((forEach f s items).2 = none ↔
        ∀ first x rest, items = first ++ x :: rest → C (before ++ first) x) ∧
      ((forEach f s items).2 = none → R (before ++ items) (forEach f s items).1) := by
  induction items generalizing s before with
  | nil =>
      refine ⟨⟨fun _ first x rest heq => absurd heq (by simp), fun _ => rfl⟩, fun _ => ?_⟩
      rw [List.append_nil]
      exact hs
  | cons y items ih =>
      obtain ⟨hiff, hnext⟩ := hstep before s y hs
      by_cases hnone : (f s y).2 = none
      · obtain ⟨ihiff, ihnext⟩ := ih (hnext hnone)
        rw [forEach_cons_of_none hnone]
        refine ⟨ihiff.trans ⟨fun h first x rest heq => ?_, fun h first x rest heq => ?_⟩,
          fun h => ?_⟩
        · rcases first with _ | ⟨z, first⟩
          · obtain ⟨rfl, -⟩ := List.cons.inj heq
            rw [List.append_nil]
            exact hiff.mp hnone
          · obtain ⟨rfl, hrest⟩ := List.cons.inj heq
            have hx := h first x rest hrest
            rw [List.append_assoc] at hx
            exact hx
        · have hx := h (y :: first) x rest (by rw [heq]; rfl)
          rw [List.append_assoc]
          exact hx
        · have hrest := ihnext h
          rw [List.append_assoc] at hrest
          exact hrest
      · rw [forEach_cons_of_some hnone]
        refine ⟨⟨fun h => absurd h hnone, fun h => ?_⟩, fun h => absurd h hnone⟩
        have hy := h [] y items rfl
        rw [List.append_nil] at hy
        exact hiff.mpr hy

/-- Two loops that start in related states end in related states, and with the same exception. -/
theorem forEach_congr {R : σ → σ → Prop} (hs : R s s')
    (hstep : ∀ s s' x, R s s' → (f s x).2 = (f s' x).2 ∧ R (f s x).1 (f s' x).1) :
    (forEach f s items).2 = (forEach f s' items).2 ∧
      R (forEach f s items).1 (forEach f s' items).1 := by
  induction items generalizing s s' with
  | nil => exact ⟨rfl, hs⟩
  | cons x items ih =>
      obtain ⟨herror, hR⟩ := hstep s s' x hs
      by_cases hnone : (f s x).2 = none
      · rw [forEach_cons_of_none hnone, forEach_cons_of_none (herror ▸ hnone)]
        exact ih hR
      · rw [forEach_cons_of_some hnone, forEach_cons_of_some (herror ▸ hnone)]
        exact ⟨herror, hR⟩

theorem forEach_map {g : β → α} {items : List β} :
    forEach f s (items.map g) = forEach (fun s y => f s (g y)) s items := by
  induction items generalizing s with
  | nil => rfl
  | cons y items ih => simp only [List.map_cons, forEach, ih]

/-- **A loop in small steps.** A machine that comes from one round to the next, or to the exception of
the round, comes to the end of the loop, or to its exception. -/
theorem reachable_forEach {τ Label : Type*} {step : σ × τ → Label → Option (σ × τ)}
    (stage : List α → τ) (failed : ε → τ)
    (hround : ∀ s x rest, Reachable step (s, stage (x :: rest))
      ((f s x).1, (f s x).2.elim (stage rest) failed)) :
    Reachable step (s, stage items)
      ((forEach f s items).1, (forEach f s items).2.elim (stage []) failed) := by
  induction items generalizing s with
  | nil => exact Reaches.refl
  | cons x items ih =>
      have hx := hround s x items
      by_cases hnone : (f s x).2 = none
      · rw [hnone] at hx
        rw [forEach_cons_of_none hnone]
        exact Relation.ReflTransGen.trans hx ih
      · rw [forEach_cons_of_some hnone]
        -- The stage after the exception does not depend on the rest of the loop.
        obtain ⟨error, herror⟩ := Option.ne_none_iff_exists'.mp hnone
        rw [herror] at hx ⊢
        exact hx

end ApiWhatsApp.Library
