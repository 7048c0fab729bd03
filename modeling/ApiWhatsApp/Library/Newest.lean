import Mathlib.Data.List.Induction
import Mathlib.Data.List.Nodup
import Mathlib.Order.Lattice

/-!
# The newest entry of a history

Entries with a key, in the order in which they were appended. The newest entry is the one with the
greatest key, and of those the one that was appended last.

* `IsNewest key l e` says so; `exists_isNewest` and **`IsNewest.unique`**: a history that is not
  empty has exactly one.
* `isNewest_append_of_forall_le` and `IsNewest.append_of_lt` — what another entry makes of it.
* **`IsNewest.eq_of_perm`** — with all keys different, the order of the history does not matter.
-/

namespace ApiWhatsApp.Library

variable {α τ : Type*} [LinearOrder τ] {key : α → τ} {l l' : List α} {e e' : α}

/-- Nothing before the entry has a greater key, and all that comes after it has a smaller one. -/
def IsNewest (key : α → τ) (l : List α) (e : α) : Prop :=
  ∃ before after, l = before ++ e :: after ∧ (∀ x ∈ before, key x ≤ key e) ∧
    ∀ x ∈ after, key x < key e

theorem IsNewest.mem (h : IsNewest key l e) : e ∈ l := by
  obtain ⟨before, after, rfl, -, -⟩ := h
  simp

/-- No key is greater. -/
theorem IsNewest.le (h : IsNewest key l e) {x : α} (hx : x ∈ l) : key x ≤ key e := by
  obtain ⟨before, after, rfl, hbefore, hafter⟩ := h
  rcases List.mem_append.mp hx with hx | hx
  · exact hbefore x hx
  · rcases List.mem_cons.mp hx with rfl | hx
    · exact le_rfl
    · exact (hafter x hx).le

/-- An entry that no entry before it exceeds is the newest. -/
theorem isNewest_append_of_forall_le (h : ∀ x ∈ l, key x ≤ key e) : IsNewest key (l ++ [e]) e :=
  ⟨l, [], rfl, h, nofun⟩

/-- An entry that an entry before it exceeds changes nothing. -/
theorem IsNewest.append_of_lt (h : IsNewest key l e) (hlt : key e' < key e) :
    IsNewest key (l ++ [e']) e := by
  obtain ⟨before, after, rfl, hbefore, hafter⟩ := h
  refine ⟨before, after ++ [e'], by simp, hbefore, fun x hx => ?_⟩
  rcases List.mem_append.mp hx with hx | hx
  · exact hafter x hx
  · rw [List.mem_singleton.mp hx]
    exact hlt

theorem exists_isNewest (h : l ≠ []) : ∃ e, IsNewest key l e := by
  induction l using List.reverseRecOn with
  | nil => exact absurd rfl h
  | append_singleton rest last ih =>
      by_cases hrest : rest = []
      · subst hrest
        exact ⟨last, isNewest_append_of_forall_le nofun⟩
      · obtain ⟨e, he⟩ := ih hrest
        rcases lt_or_ge (key last) (key e) with hlt | hge
        · exact ⟨e, he.append_of_lt hlt⟩
        · exact ⟨last, isNewest_append_of_forall_le fun x hx => (he.le hx).trans hge⟩

/-- A history has one newest entry. -/
theorem IsNewest.unique (h : IsNewest key l e) (h' : IsNewest key l e') : e = e' := by
  have hle := h.le h'.mem
  have hge := h'.le h.mem
  obtain ⟨before, after, rfl, hbefore, hafter⟩ := h
  obtain ⟨before', after', heq, hbefore', hafter'⟩ := h'
  -- The entry that stands first has a smaller key than the other one, unless they are the same.
  rcases List.append_eq_append_iff.mp heq with ⟨mid, -, hmid⟩ | ⟨mid, -, hmid⟩
  · rcases mid with _ | ⟨x, mid⟩
    · exact (List.cons.inj hmid).1
    · obtain ⟨-, hrest⟩ := List.cons.inj hmid
      have hlt := hafter e' (by rw [hrest]; simp)
      exact absurd hlt (not_lt.mpr hge)
  · rcases mid with _ | ⟨x, mid⟩
    · exact (List.cons.inj hmid).1.symm
    · obtain ⟨-, hrest⟩ := List.cons.inj hmid
      have hlt := hafter' e (by rw [hrest]; simp)
      exact absurd hlt (not_lt.mpr hle)

/-- **The order does not matter** when all keys are different. -/
theorem IsNewest.eq_of_perm (h : IsNewest key l e) (h' : IsNewest key l' e') (hperm : l.Perm l')
    (hkeys : (l.map key).Nodup) : e = e' := by
  have hmem' : e' ∈ l := hperm.mem_iff.mpr h'.mem
  have hle : key e' ≤ key e := h.le hmem'
  have hge : key e ≤ key e' := h'.le (hperm.mem_iff.mp h.mem)
  exact List.inj_on_of_nodup_map hkeys h.mem hmem' (le_antisymm hge hle)

end ApiWhatsApp.Library
