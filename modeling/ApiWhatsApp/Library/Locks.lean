import ApiWhatsApp.Library.Machine

/-!
# Exclusive locks held by threads

A machine keeps its threads in a list, and each thread names the locks it holds. A lock statement of
thread `i` is enabled when the lock is free for `i`: no other thread holds it.

* `freeFor held threads i l` is that test.
* `Exclusive held threads` — no lock is held by two threads.
* **`Exclusive.set`** — it survives every move of a thread that takes only free locks, and
  `Exclusive.append` the arrival of a thread that holds none.
-/

namespace ApiWhatsApp.Library

variable {ι L : Type*} (held : ι → List L)

/-- No lock is held by two threads. -/
def Exclusive (threads : List ι) : Prop :=
  ∀ (i j : ℕ) t u l, threads[i]? = some t → threads[j]? = some u → l ∈ held t → l ∈ held u → i = j

variable {held} {threads : List ι} {i : ℕ} {t t' : ι}

theorem Exclusive.nil : Exclusive held [] := by
  intro i j t u l ht
  simp at ht

/-- A new thread that holds nothing. -/
theorem Exclusive.append (h : Exclusive held threads) (hnew : held t' = []) :
    Exclusive held (threads ++ [t']) := by
  have hold : ∀ {j : ℕ} {u l}, (threads ++ [t'])[j]? = some u → l ∈ held u →
      threads[j]? = some u := by
    intro j u l hu hl
    rcases getElem?_append_cases hu with ⟨-, rfl⟩ | hu
    · rw [hnew] at hl
      cases hl
    · exact hu
  intro j k u v l hu hv hlu hlv
  exact h j k u v l (hold hu hlu) (hold hv hlv) hlu hlv

variable [DecidableEq L]

variable (held threads i) in
/-- No thread but `i` holds the lock. -/
def freeFor (l : L) : Bool :=
  threads.zipIdx.all fun x => x.2 = i || l ∉ held x.1

theorem not_mem_of_freeFor {l : L} {j : ℕ} {u : ι} (h : freeFor held threads i l = true)
    (hu : threads[j]? = some u) (hne : j ≠ i) : l ∉ held u := by
  have hx := List.all_eq_true.mp h (u, j) (List.mem_zipIdx_iff_getElem?.mpr hu)
  simpa [hne] using hx

/-- A move of thread `i` that takes only locks that are free for it. -/
theorem Exclusive.set (h : Exclusive held threads) (ht : threads[i]? = some t)
    (htakes : ∀ l ∈ held t', l ∈ held t ∨ freeFor held threads i l = true) :
    Exclusive held (threads.set i t') := by
  -- Another thread holds no lock that the mover holds afterwards.
  have hother : ∀ {j u l}, j ≠ i → threads[j]? = some u → l ∈ held t' → l ∉ held u := by
    intro j u l hne hu hl hlu
    rcases htakes l hl with hheld | hfree
    · exact hne (h j i u t l hu ht hlu hheld)
    · exact not_mem_of_freeFor hfree hu hne hlu
  intro j k u v l hu hv hlu hlv
  rcases getElem?_set_cases hu with ⟨hj, rfl⟩ | ⟨hj, hu'⟩
  · rcases getElem?_set_cases hv with ⟨hk, -⟩ | ⟨hk, hv'⟩
    · exact hj.trans hk.symm
    · exact absurd hlv (hother hk hv' hlu)
  · rcases getElem?_set_cases hv with ⟨hk, rfl⟩ | ⟨hk, hv'⟩
    · exact absurd hlu (hother hj hu' hlv)
    · exact h j k u v l hu' hv' hlu hlv

end ApiWhatsApp.Library
