import Mathlib.Algebra.Ring.Nat
import Mathlib.Data.List.SplitLengths
import Mathlib.Tactic.Common

/-!
# Codes

What is written one after the other and read back.

* `PrefixFree P encode` — codes of things that satisfy `P` end where they end: what follows them does
  not matter. **`PrefixFree.flatten`**: so do as many of them, one after the other.
* **`exists_pieces`**: a list is cut into pieces of given lengths, in one way (`flatten_inj_of_length`).
-/

namespace ApiWhatsApp.Library

variable {α γ : Type*}

/-- The codes are told apart, and from what follows them. -/
def PrefixFree (P : γ → Prop) (encode : γ → List α) : Prop :=
  ∀ c d u v, P c → P d → encode c ++ u = encode d ++ v → c = d ∧ u = v

theorem PrefixFree.flatten {P : γ → Prop} {encode : γ → List α} (h : PrefixFree P encode)
    {cs ds : List γ} {u v : List α} (hcs : ∀ c ∈ cs, P c) (hds : ∀ d ∈ ds, P d)
    (hlength : cs.length = ds.length)
    (heq : (cs.map encode).flatten ++ u = (ds.map encode).flatten ++ v) : cs = ds ∧ u = v := by
  induction cs generalizing ds with
  | nil =>
      obtain rfl := List.eq_nil_of_length_eq_zero hlength.symm
      exact ⟨rfl, heq⟩
  | cons c cs ih =>
      cases ds with
      | nil => cases hlength
      | cons d ds =>
          obtain ⟨hc, hcs'⟩ := List.forall_mem_cons.mp hcs
          obtain ⟨hd, hds'⟩ := List.forall_mem_cons.mp hds
          simp only [List.map_cons, List.flatten_cons, List.append_assoc] at heq
          obtain ⟨rfl, hrest⟩ := h c d _ _ hc hd heq
          obtain ⟨rfl, huv⟩ := ih hcs' hds' (Nat.add_right_cancel hlength) hrest
          exact ⟨rfl, huv⟩

/-- Codes that are not empty are told apart in any number. -/
theorem PrefixFree.flatten_injective {P : γ → Prop} {encode : γ → List α} (h : PrefixFree P encode)
    (hne : ∀ c, encode c ≠ []) {cs ds : List γ} (hcs : ∀ c ∈ cs, P c) (hds : ∀ d ∈ ds, P d)
    (heq : (cs.map encode).flatten = (ds.map encode).flatten) : cs = ds := by
  induction cs generalizing ds with
  | nil =>
      cases ds with
      | nil => rfl
      | cons d ds => exact absurd (List.append_eq_nil_iff.mp heq.symm).1 (hne d)
  | cons c cs ih =>
      cases ds with
      | nil => exact absurd (List.append_eq_nil_iff.mp heq).1 (hne c)
      | cons d ds =>
          obtain ⟨hc, hcs'⟩ := List.forall_mem_cons.mp hcs
          obtain ⟨hd, hds'⟩ := List.forall_mem_cons.mp hds
          obtain ⟨rfl, hrest⟩ := h c d _ _ hc hd heq
          rw [ih hcs' hds' hrest]

/-- Any list is cut into pieces of given lengths. -/
theorem exists_pieces {l : List α} {lengths : List ℕ} (h : lengths.sum = l.length) :
    ∃ pieces : List (List α), pieces.flatten = l ∧ pieces.map List.length = lengths := by
  refine ⟨lengths.splitLengths l, List.flatten_splitLengths _ _ (Nat.le_of_eq h.symm), ?_⟩
  exact List.map_splitLengths_length _ _ (Nat.le_of_eq h)

theorem flatten_inj_of_length {pieces pieces' : List (List α)}
    (hflatten : pieces.flatten = pieces'.flatten)
    (hlength : pieces.map List.length = pieces'.map List.length) : pieces = pieces' :=
  List.eq_iff_flatten_eq.mpr ⟨hflatten, hlength⟩

end ApiWhatsApp.Library
