import Mathlib.Logic.Relation
import Mathlib.Data.List.Basic

/-!
# Executable machines: runs, traces and invariants

A *machine* is a partial step function `step : σ → α → Option σ`: the label `α` names who moves
and carries every choice the environment makes, `none` means that the label is not enabled.

* `exec step s as` runs a list of labels; `trace step s as` is the list of the transitions
  `(pre-state, label, post-state)` that the run takes.
* `Reaches step G s t` — `t` is reached from `s` by steps whose pre-state and label satisfy the
  guard `G`. `fun _ _ => True` is the unguarded case (`Reachable`).
* **`Reaches.invariant`** is the induction rule: a property that holds at the start and that every
  guarded step keeps holds in every state reached. `Reaches.of_exec` brings a concrete run into
  this form.
* `eq_of_exec` and **`length_changes_of_exec`** speak of a value along a run: one that every transition
  keeps, and one that is written only while it is unset.

Machines keep their threads in lists; the last section says what an update or an addition does to
the thread at a position.
-/

namespace ApiWhatsApp.Library

variable {σ α : Type*}

/-- Run a list of labels, failing at the first label that is not enabled. -/
def exec (step : σ → α → Option σ) : σ → List α → Option σ
  | s, [] => some s
  | s, a :: as => (step s a).bind fun t => exec step t as

/-- The transitions taken by the run of a list of labels, in order. -/
def trace (step : σ → α → Option σ) : σ → List α → List (σ × α × σ)
  | _, [] => []
  | s, a :: as =>
      match step s a with
      | some t => (s, a, t) :: trace step t as
      | none => []

/-- `t` is reached from `s` by steps that are all taken under the guard `G`. -/
def Reaches (step : σ → α → Option σ) (G : σ → α → Prop) : σ → σ → Prop :=
  Relation.ReflTransGen fun s t => ∃ a, G s a ∧ step s a = some t

/-- `t` is reached from `s` by any steps. -/
def Reachable (step : σ → α → Option σ) : σ → σ → Prop :=
  Reaches step fun _ _ => True

section rules

variable {step : σ → α → Option σ} {G : σ → α → Prop} {s t u : σ} {a : α}

/-- No steps lead nowhere. -/
@[simp] theorem exec_nil : exec step s [] = some s := rfl

/-- The first step, and the others. -/
theorem exec_cons {as : List α} :
    exec step s (a :: as) = some u ↔ ∃ t, step s a = some t ∧ exec step t as = some u := by
  simp only [exec, Option.bind_eq_some_iff]

/-- The start is reached. -/
theorem Reaches.refl : Reaches step G s s := Relation.ReflTransGen.refl

/-- One more step under the condition. -/
theorem Reaches.tail (h : Reaches step G s t) (hG : G t a) (ht : step t a = some u) :
    Reaches step G s u :=
  Relation.ReflTransGen.tail h ⟨a, hG, ht⟩

/-- One more step. -/
theorem Reachable.tail (h : Reachable step s t) (ht : step t a = some u) : Reachable step s u :=
  Reaches.tail h trivial ht

/-- **The invariant rule.** What holds at the start and is kept by every guarded step holds in
every state reached. -/
theorem Reaches.invariant {P : σ → Prop} (h : Reaches step G s t) (h0 : P s)
    (hstep : ∀ x b y, P x → G x b → step x b = some y → P y) : P t := by
  induction h with
  | refl => exact h0
  | tail _ hlast ih =>
      obtain ⟨b, hG, hb⟩ := hlast
      exact hstep _ _ _ ih hG hb

/-- A concrete run whose every transition is taken under the guard reaches its last state. -/
theorem Reaches.of_exec {as : List α} (h : exec step s as = some t)
    (hG : ∀ x ∈ trace step s as, G x.1 x.2.1) : Reaches step G s t := by
  induction as generalizing s with
  | nil => cases h; exact Reaches.refl
  | cons b as ih =>
      obtain ⟨x, hx, hrest⟩ := exec_cons.mp h
      rw [trace, hx] at hG
      have hhead : Reaches step G s x := Reaches.refl.tail (hG _ List.mem_cons_self) hx
      have htail : Reaches step G x t :=
        ih hrest fun y hy => hG y (List.mem_cons_of_mem _ hy)
      exact Relation.ReflTransGen.trans hhead htail

/-- What a run leads to is reached. -/
theorem Reachable.of_exec {as : List α} (h : exec step s as = some t) : Reachable step s t :=
  Reaches.of_exec h fun _ _ => trivial

/-- The labels of the transitions of a run are labels of the run. -/
theorem label_mem_of_mem_trace {as : List α} {x : σ × α × σ} (hx : x ∈ trace step s as) :
    x.2.1 ∈ as := by
  induction as generalizing s with
  | nil => cases hx
  | cons b as ih =>
      rw [trace] at hx
      split at hx
      · rcases List.mem_cons.mp hx with rfl | hx
        · exact List.mem_cons_self
        · exact List.mem_cons_of_mem _ (ih hx)
      · cases hx

/-- Every transition of a run starts in a state that the transitions before it reach. -/
theorem reaches_of_mem_trace {as : List α} {x : σ × α × σ} (hx : x ∈ trace step s as)
    (hG : ∀ y ∈ trace step s as, G y.1 y.2.1) :
    Reaches step G s x.1 ∧ step x.1 x.2.1 = some x.2.2 := by
  induction as generalizing s with
  | nil => cases hx
  | cons b as ih =>
      rw [trace] at hx hG
      rcases hb : step s b with _ | y
      · rw [hb] at hx; cases hx
      · rw [hb] at hx hG
        rcases List.mem_cons.mp hx with rfl | hx'
        · exact ⟨Reaches.refl, hb⟩
        · obtain ⟨hr, hs⟩ := ih hx' fun z hz => hG z (List.mem_cons_of_mem _ hz)
          have hhead : Reaches step G s y := Reaches.refl.tail (hG _ List.mem_cons_self) hb
          exact ⟨Relation.ReflTransGen.trans hhead hr, hs⟩

/-- What every transition of a run keeps, the run keeps. -/
theorem eq_of_exec {β : Type*} {f : σ → β} {as : List α} (h : exec step s as = some t)
    (hkeep : ∀ x ∈ trace step s as, f x.2.2 = f x.1) : f t = f s := by
  induction as generalizing s with
  | nil => cases h; rfl
  | cons b as ih =>
      obtain ⟨x, hx, hrest⟩ := exec_cons.mp h
      rw [trace, hx] at hkeep
      rw [ih hrest fun y hy => hkeep y (List.mem_cons_of_mem _ hy)]
      exact hkeep _ List.mem_cons_self

/-- **The write-once rule.** A value that every transition of a run either keeps or finds unset is
changed by at most one of them, and by none once it is set. -/
theorem length_changes_of_exec {β : Type*} [DecidableEq β] {f : σ → Option β} {as : List α}
    (h : exec step s as = some t)
    (hwrite : ∀ x ∈ trace step s as, f x.2.2 = f x.1 ∨ f x.1 = none) :
    ((trace step s as).filter fun x => f x.2.2 ≠ f x.1).length ≤ 1 ∧
      ((f s).isSome → f t = f s ∧ (trace step s as).filter (fun x => f x.2.2 ≠ f x.1) = []) := by
  induction as generalizing s with
  | nil => cases h; simp [trace]
  | cons b as ih =>
      obtain ⟨x, hx, hrest⟩ := exec_cons.mp h
      rw [trace, hx] at hwrite ⊢
      obtain ⟨hle, hset⟩ := ih hrest fun y hy => hwrite y (List.mem_cons_of_mem _ hy)
      by_cases hchange : f x = f s
      · rw [List.filter_cons_of_neg (by simp [hchange])]
        refine ⟨hle, fun hsome => ?_⟩
        rw [← hchange] at hsome ⊢
        exact hset hsome
      · -- The change finds the value unset and sets it, so the rest of the run keeps it.
        have hnone : f s = none := (hwrite _ List.mem_cons_self).resolve_left hchange
        have hsome : (f x).isSome = true := by
          rw [hnone] at hchange
          exact Option.isSome_iff_ne_none.mpr hchange
        rw [List.filter_cons_of_pos (by simp [hchange]), (hset hsome).2]
        exact ⟨by simp, fun h => by simp [hnone] at h⟩

end rules

/-! ## Threads in a list -/

section threads

variable {ι : Type*} {l : List ι} {i j : ℕ} {a x : ι}

/-- After an update of thread `i`, thread `j` is the new one or the one it was. -/
theorem getElem?_set_cases (h : (l.set i a)[j]? = some x) :
    (j = i ∧ x = a) ∨ (j ≠ i ∧ l[j]? = some x) := by
  rw [List.getElem?_set] at h
  by_cases hij : i = j
  · rw [if_pos hij] at h
    split_ifs at h
    cases h
    exact .inl ⟨hij.symm, rfl⟩
  · rw [if_neg hij] at h
    exact .inr ⟨fun hji => hij hji.symm, h⟩

/-- After a thread is added, thread `j` is the new one or the one it was. -/
theorem getElem?_append_cases (h : (l ++ [a])[j]? = some x) :
    (j = l.length ∧ x = a) ∨ l[j]? = some x := by
  rcases Nat.lt_trichotomy j l.length with hlt | heq | hgt
  · rw [List.getElem?_append_left hlt] at h
    exact .inr h
  · subst heq
    simp at h
    exact .inl ⟨rfl, h.symm⟩
  · rw [List.getElem?_append_right (Nat.le_of_lt hgt), List.getElem?_singleton] at h
    split_ifs at h
    omega

/-- A thread is the one that is updated, or it stays. -/
theorem eq_or_mem_set {b : ι} (h : l[i]? = some a) (hx : x ∈ l) : x = a ∨ x ∈ l.set i b := by
  obtain ⟨j, hj⟩ := List.mem_iff_getElem?.mp hx
  by_cases hij : i = j
  · subst hij
    exact .inl (Option.some.inj (hj.symm.trans h))
  · exact .inr (List.mem_of_getElem? ((List.getElem?_set_ne hij).trans hj))

/-- An update that changes nothing. -/
theorem set_of_getElem? (h : l[i]? = some a) : l.set i a = l := by
  obtain ⟨hlt, rfl⟩ := List.getElem?_eq_some_iff.mp h
  exact List.set_getElem_self hlt

/-- What an update of a thread keeps is kept for all of them. -/
theorem map_set_of_eq {β : Type*} {f : ι → β} {b : ι} (h : l[i]? = some a) (hf : f b = f a) :
    (l.set i b).map f = l.map f := by
  rw [List.map_set, hf]
  exact set_of_getElem? (by rw [List.getElem?_map, h]; rfl)

/-- An update of a thread takes it out of a count, and counts the new one. -/
theorem countP_set_add {b : ι} (h : l[i]? = some a) (p : ι → Bool) :
    (l.set i b).countP p + (p a).toNat = l.countP p + (p b).toNat := by
  have hcons : ∀ (y : ι) (ys : List ι), (y :: ys).countP p = ys.countP p + (p y).toNat := by
    intro y ys
    rw [List.countP_cons]
    cases p y <;> rfl
  induction l generalizing i with
  | nil => cases h
  | cons y ys ih =>
      cases i with
      | zero =>
          cases h
          rw [List.set_cons_zero, hcons, hcons]
          omega
      | succ i =>
          have hrest := ih (List.getElem?_cons_succ ▸ h)
          rw [List.set_cons_succ, hcons, hcons]
          omega

end threads

end ApiWhatsApp.Library
