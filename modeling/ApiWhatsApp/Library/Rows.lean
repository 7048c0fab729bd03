import Mathlib.Data.List.Basic

/-!
# A row under READ COMMITTED

A row has the version that is committed and, while a transaction that has written it is open, that
transaction's own version, which nobody else sees. A second writer waits: its statement is not
enabled.

* `version` is the uncommitted version of a transaction, `seenBy` what its statements find.
* `write`, `commit` and `rollback` are the operations; one lemma for each says what becomes of every
  version.
-/

namespace ApiWhatsApp.Library

/-- A row that may not exist yet, with the version of the transaction that holds its lock. -/
structure RowCell (ρ : Type*) where
  committed : Option ρ
  pending : Option (ℕ × ρ)

namespace RowCell

variable {ρ : Type*}

/-- A row that no transaction has written. -/
def settled (committed : Option ρ) : RowCell ρ where
  committed := committed
  pending := none

/-- The uncommitted version of a transaction. -/
def version (cell : RowCell ρ) (i : ℕ) : Option ρ :=
  cell.pending.bind fun (j, r) => if j = i then some r else none

/-- What a statement of a transaction finds. -/
def seenBy (cell : RowCell ρ) (i : ℕ) : Option ρ := (cell.version i).or cell.committed

/-- Insert or update the row; not enabled while another transaction holds it. -/
def write (cell : RowCell ρ) (i : ℕ) (r : ρ) : Option (RowCell ρ) :=
  if cell.pending.all fun (j, _) => j = i then some { cell with pending := some (i, r) } else none

/-- The end of a transaction that commits. -/
def commit (cell : RowCell ρ) (i : ℕ) : RowCell ρ where
  committed := (cell.version i).or cell.committed
  pending := cell.pending.filter fun (j, _) => j ≠ i

/-- The end of a transaction that does not. -/
def rollback (cell : RowCell ρ) (i : ℕ) : RowCell ρ :=
  { cell with pending := cell.pending.filter fun (j, _) => j ≠ i }

variable {cell cell' : RowCell ρ} {i j : ℕ} {r : ρ}

/-- In a settled cell no transaction has a version. -/
@[simp] theorem version_settled (committed : Option ρ) (i : ℕ) :
    (settled committed).version i = none := rfl

/-- A row has one uncommitted version at most. -/
theorem version_eq_none_of_ne (h : cell.version i = some r) (hne : j ≠ i) :
    cell.version j = none := by
  unfold version at h ⊢
  rcases hp : cell.pending with _ | ⟨k, r'⟩
  · rfl
  · simp only [hp, Option.bind_some, Option.ite_none_right_eq_some] at h ⊢
    rw [if_neg (fun hk => hne (hk.symm.trans h.1))]

/-- Who has a version sees it. -/
theorem seenBy_of_version (h : cell.version i = some r) : cell.seenBy i = some r := by
  rw [seenBy, h]
  rfl

/-- Who has none sees what is committed. -/
theorem seenBy_of_none (h : cell.version i = none) : cell.seenBy i = cell.committed := by
  rw [seenBy, h]
  rfl

/-- A write commits nothing. -/
theorem committed_of_write (h : cell.write i r = some cell') : cell'.committed = cell.committed := by
  obtain ⟨-, h⟩ := Option.ite_none_right_eq_some.mp h
  cases h
  rfl

/-- A write makes the version of its transaction and leaves the others, which are none. -/
theorem version_of_write (h : cell.write i r = some cell') :
    cell'.version j = if j = i then some r else cell.version j := by
  obtain ⟨hfree, h⟩ := Option.ite_none_right_eq_some.mp h
  cases h
  by_cases hj : j = i
  · simp [version, hj]
  · have hi : ¬i = j := fun hi => hj hi.symm
    rcases hp : cell.pending with _ | ⟨k, r'⟩
    · simp [version, hp, hj, hi]
    · simp only [hp, Option.all_some, decide_eq_true_eq] at hfree
      simp [version, hp, hfree, hj, hi]

/-- A commit makes the version of the transaction what all see. -/
@[simp] theorem committed_commit (cell : RowCell ρ) (i : ℕ) :
    (cell.commit i).committed = cell.seenBy i := rfl

/-- A rollback leaves what is committed. -/
@[simp] theorem committed_rollback (cell : RowCell ρ) (i : ℕ) :
    (cell.rollback i).committed = cell.committed := rfl

/-- The pending version, without that of one transaction. -/
theorem bind_filter_ne (pending : Option (ℕ × ρ)) (i j : ℕ) :
    ((pending.filter fun (k, _) => k ≠ i).bind fun (k, r) => if k = j then some r else none) =
      if j = i then none else pending.bind fun (k, r) => if k = j then some r else none := by
  rcases pending with _ | ⟨k, r⟩
  · simp
  · by_cases hk : k = i
    · by_cases hj : j = i
      · simp [Option.filter, hk, hj]
      · have hi : ¬i = j := fun hi => hj hi.symm
        simp [Option.filter, hk, hj, hi]
    · by_cases hj : j = i
      · simp [Option.filter, hk, hj]
      · simp [Option.filter, hk, hj]

/-- A commit leaves the versions of the others. -/
theorem version_commit (cell : RowCell ρ) (i j : ℕ) :
    (cell.commit i).version j = if j = i then none else cell.version j :=
  bind_filter_ne cell.pending i j

/-- A rollback leaves the versions of the others. -/
theorem version_rollback (cell : RowCell ρ) (i j : ℕ) :
    (cell.rollback i).version j = if j = i then none else cell.version j :=
  bind_filter_ne cell.pending i j

end RowCell

end ApiWhatsApp.Library
