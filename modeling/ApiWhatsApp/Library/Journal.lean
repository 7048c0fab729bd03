import Mathlib.Data.List.Basic
import Mathlib.Tactic.Common

/-!
# Journals

A store of values by key, and a log with an entry for every change of it. An entry is about a key, says
what its value is from then on, and says whether it opens the key or found it there.

* `Journal.replay` reads the value of a key out of a log.
* `Journal.Records before after entries` — the log leads from one store to the other, and every entry
  that opens a key found nothing there, every other one something.
* **`Records.other`** and **`Records.entry`** are the rules: a log grows by entries about something
  else, or by one entry with the change that it is about.
-/

namespace ApiWhatsApp.Library

/-- How the entries of a log are read. -/
structure Journal (ε κ ν : Type*) where
  about : ε → κ → Bool
  /-- The value that an entry leaves. -/
  value : ε → Option ν
  opens : ε → Bool

namespace Journal

variable {ε κ ν : Type*} (j : Journal ε κ ν)

/-- The value of a key after some entries. -/
def replay (entries : List ε) (k : κ) (v : Option ν) : Option ν :=
  entries.foldl (fun v e => if j.about e k then j.value e else v) v

/-- The log tells how a store came from another. -/
structure Records (before after : κ → Option ν) (entries : List ε) : Prop where
  replay : ∀ k, after k = j.replay entries k (before k)
  opens : ∀ earlier e later k, entries = earlier ++ e :: later → j.about e k = true →
    (j.opens e = true ↔ j.replay earlier k (before k) = none)

variable {j} {before after : κ → Option ν} {entries : List ε}

/-- No entries change nothing. -/
@[simp] theorem replay_nil (k : κ) (v : Option ν) : j.replay [] k v = v := rfl

/-- Entries are replayed one after another. -/
theorem replay_append (earlier later : List ε) (k : κ) (v : Option ν) :
    j.replay (earlier ++ later) k v = j.replay later k (j.replay earlier k v) :=
  List.foldl_append

/-- One entry sets the value that it is about. -/
theorem replay_singleton (e : ε) (k : κ) (v : Option ν) :
    j.replay [e] k v = if j.about e k then j.value e else v := rfl

/-- Entries about something else do not count. -/
theorem replay_of_forall {k : κ} (h : ∀ e ∈ entries, j.about e k = false) (v : Option ν) :
    j.replay entries k v = v := by
  induction entries with
  | nil => rfl
  | cons e entries ih =>
      rw [List.forall_mem_cons] at h
      have hcons : j.replay (e :: entries) k v = j.replay entries k (j.replay [e] k v) :=
        replay_append [e] entries k v
      rw [hcons, replay_singleton, h.1, if_neg Bool.false_ne_true, ih h.2]

/-- Without entries nothing has changed. -/
theorem Records.nil : j.Records before before [] where
  replay _ := rfl
  opens earlier e later k heq := by
    cases earlier <;> cases heq

/-- What an entry of a longer log found depends on the log before it only. -/
theorem opens_append {more : List ε} (h : ∀ earlier e later k, entries = earlier ++ e :: later →
      j.about e k = true → (j.opens e = true ↔ j.replay earlier k (before k) = none))
    (hmore : ∀ earlier e later k, more = earlier ++ e :: later → j.about e k = true →
      (j.opens e = true ↔ j.replay (entries ++ earlier) k (before k) = none)) :
    ∀ earlier e later k, entries ++ more = earlier ++ e :: later → j.about e k = true →
      (j.opens e = true ↔ j.replay earlier k (before k) = none) := by
  intro earlier e later k heq habout
  rcases List.append_eq_append_iff.mp heq with ⟨between, rfl, hrest⟩ | ⟨between, rfl, hrest⟩
  · exact hmore between e later k hrest habout
  · cases between with
    | nil =>
        have hnone := hmore [] e later k hrest.symm habout
        rwa [List.append_nil, List.append_nil] at hnone
    | cons first between =>
        obtain ⟨rfl, rfl⟩ := List.cons.inj hrest
        exact h earlier e between k rfl habout

/-- The store stays, and what is logged is about something else. -/
theorem Records.other (h : j.Records before after entries) {more : List ε}
    (hmore : ∀ e ∈ more, ∀ k, j.about e k = false) : j.Records before after (entries ++ more) where
  replay k := by
    rw [replay_append, replay_of_forall fun e he => hmore e he k]
    exact h.replay k
  opens := by
    refine opens_append h.opens fun earlier e later k heq habout => ?_
    have hmem : e ∈ more := heq ▸ List.mem_append_right _ List.mem_cons_self
    rw [hmore e hmem k] at habout
    cases habout

/-- A change is logged. -/
theorem Records.entry (h : j.Records before after entries) {after' : κ → Option ν} {e : ε}
    (hafter : ∀ k, after' k = if j.about e k then j.value e else after k)
    (hopens : ∀ k, j.about e k = true → (j.opens e = true ↔ after k = none)) :
    j.Records before after' (entries ++ [e]) where
  replay k := by
    rw [replay_append, replay_singleton, hafter k, h.replay k]
  opens := by
    refine opens_append h.opens fun earlier e' later k heq habout => ?_
    cases earlier with
    | nil =>
        obtain ⟨rfl, -⟩ := List.cons.inj heq
        rw [List.append_nil, ← h.replay k]
        exact hopens k habout
    | cons first earlier =>
        have hnil := (List.cons.inj heq).2
        cases earlier <;> cases hnil

end Journal

end ApiWhatsApp.Library
