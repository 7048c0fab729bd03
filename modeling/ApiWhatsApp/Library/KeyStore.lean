import Mathlib.Data.Nat.Notation
import Mathlib.Logic.Function.Basic
import Mathlib.Tactic.SplitIfs

/-!
# Counters that expire

A key-value store whose entries may carry the instant at which they expire, with the commands that a
counter needs. Time is in milliseconds; an entry is dead strictly after its instant.

* `get`, `incr`, `pexpire` — the commands. A dead entry is the same as none.
* `Counts store key deadline n` — the key holds `n` and will do so until the deadline, whatever the
  time is by then. **`Counts.get`** reads it, and **`Counts.incr`** is the step of a counter whose
  first increment sets an expiry after the deadline.
-/

namespace ApiWhatsApp.Library

/-- A counter and the instant at which it expires, if any. -/
structure StoreEntry where
  value : ℕ
  expiresAt : Option ℕ

namespace StoreEntry

/-- Whether the entry is still there. -/
def isLive (now : ℕ) (entry : StoreEntry) : Bool := entry.expiresAt.all fun at_ => now ≤ at_

end StoreEntry

/-- The entries of a store. -/
abbrev KeyStore (κ : Type*) := κ → Option StoreEntry

namespace KeyStore

variable {κ : Type*}

/-- The entry under a key, unless it has expired. -/
def peek (store : KeyStore κ) (now : ℕ) (key : κ) : Option StoreEntry :=
  (store key).filter (StoreEntry.isLive now)

/-- `tonumber(GET key or '0')`. -/
def get (store : KeyStore κ) (now : ℕ) (key : κ) : ℕ :=
  ((store.peek now key).map StoreEntry.value).getD 0

/-- The entry that `INCR key` leaves: an expiry is kept, a new entry has none. -/
def incremented (store : KeyStore κ) (now : ℕ) (key : κ) : StoreEntry where
  value := store.get now key + 1
  expiresAt := (store.peek now key).bind StoreEntry.expiresAt

variable [DecidableEq κ]

/-- `INCR key`. -/
def incr (store : KeyStore κ) (now : ℕ) (key : κ) : KeyStore κ × ℕ :=
  (Function.update store key (some (store.incremented now key)), store.get now key + 1)

/-- `PEXPIRE key ttl`. -/
def pexpire (store : KeyStore κ) (now : ℕ) (key : κ) (ttl : ℕ) : KeyStore κ :=
  Function.update store key
    ((store.peek now key).map fun entry => { entry with expiresAt := some (now + ttl) })

/-- `if count == 1 then PEXPIRE key ttl end`. -/
def expireNew (store : KeyStore κ) (now : ℕ) (key : κ) (ttl count : ℕ) : KeyStore κ :=
  if count = 1 then store.pexpire now key ttl else store

variable {store : KeyStore κ} {now ttl deadline n : ℕ} {key other : κ}

/-- An expiry leaves the other keys. -/
theorem expireNew_of_ne (h : other ≠ key) (count : ℕ) :
    store.expireNew now key ttl count other = store other := by
  unfold expireNew
  split_ifs
  · exact Function.update_of_ne h ..
  · rfl

omit [DecidableEq κ] in
/-- What is read hangs on the key only. -/
theorem get_congr {store' : KeyStore κ} (h : store' key = store key) :
    store'.get now key = store.get now key := by
  rw [get, get, peek, peek, h]

omit [DecidableEq κ] in
/-- What is incremented hangs on the key only. -/
theorem incremented_congr {store' : KeyStore κ} (h : store' key = store key) :
    store'.incremented now key = store.incremented now key := by
  rw [incremented, incremented, get_congr h, peek, peek, h]

omit [DecidableEq κ] in
/-- An increment leaves a live entry. -/
theorem isLive_incremented : (store.incremented now key).isLive now = true := by
  rw [incremented, StoreEntry.isLive]
  rcases hpeek : store.peek now key with _ | entry
  · rfl
  · exact (Option.filter_eq_some_iff.mp hpeek).2

/-- The entry after an increment, with the expiry set when the counter is new. -/
def counted (store : KeyStore κ) (now : ℕ) (key : κ) (ttl : ℕ) : StoreEntry :=
  if store.get now key + 1 = 1 then ⟨1, some (now + ttl)⟩ else store.incremented now key

/-- `INCR` and, when its result is one, `PEXPIRE`; other keys may be written in between. -/
theorem expireNew_self {store' : KeyStore κ} (h : store' key = some (store.incremented now key)) :
    store'.expireNew now key ttl (store.get now key + 1) key =
      some (store.counted now key ttl) := by
  unfold expireNew counted
  split_ifs with hone
  · have hpeek : store'.peek now key = some (store.incremented now key) := by
      rw [peek, h, Option.filter_some, if_pos isLive_incremented]
    rw [pexpire, Function.update_self, hpeek, incremented, hone]
    rfl
  · exact h

/-! ## Counting up to a deadline -/

/-- The key holds `n` until the deadline. -/
def Counts (store : KeyStore κ) (key : κ) (deadline n : ℕ) : Prop :=
  (n = 0 ∧ store key = none) ∨
    ∃ at_, 0 < n ∧ store key = some ⟨n, some at_⟩ ∧ deadline ≤ at_

omit [DecidableEq κ] in
/-- A count hangs on the key only. -/
theorem Counts.congr {store' : KeyStore κ} (h : Counts store key deadline n)
    (hsame : store' key = store key) : Counts store' key deadline n := by
  unfold Counts
  rw [hsame]
  exact h

omit [DecidableEq κ] in
/-- A count is there up to its deadline. -/
theorem Counts.peek (h : Counts store key deadline n) (hnow : now ≤ deadline) :
    store.peek now key = store key := by
  rcases h with ⟨-, hnone⟩ | ⟨at_, -, hsome, hat⟩
  · rw [KeyStore.peek, hnone, Option.filter_none]
  · rw [KeyStore.peek, hsome]
    simp [Option.filter, StoreEntry.isLive, Nat.le_trans hnow hat]

omit [DecidableEq κ] in
/-- What a counter holds before its deadline. -/
theorem Counts.get (h : Counts store key deadline n) (hnow : now ≤ deadline) :
    store.get now key = n := by
  rw [KeyStore.get, h.peek hnow]
  rcases h with ⟨rfl, hnone⟩ | ⟨at_, -, hsome, -⟩
  · rw [hnone]
    rfl
  · rw [hsome]
    rfl

omit [DecidableEq κ] in
/-- **Counting.** A counter whose first increment sets an expiry after the deadline counts one more. -/
theorem Counts.incr (h : Counts store key deadline n) (hnow : now ≤ deadline)
    (hdeadline : deadline ≤ now + ttl) {store' : KeyStore κ}
    (hstore : store' key = some (store.counted now key ttl)) :
    Counts store' key deadline (n + 1) := by
  have hget := h.get hnow
  have hpeek := h.peek hnow
  rw [counted, incremented, hget, hpeek] at hstore
  rcases h with ⟨rfl, hnone⟩ | ⟨at_, hpos, hsome, hat⟩
  · exact .inr ⟨now + ttl, Nat.one_pos, by simpa using hstore, hdeadline⟩
  · refine .inr ⟨at_, Nat.succ_pos n, ?_, hat⟩
    have hne : n + 1 ≠ 1 := by omega
    rw [hstore, if_neg hne, hsome]
    rfl

end KeyStore

end ApiWhatsApp.Library
