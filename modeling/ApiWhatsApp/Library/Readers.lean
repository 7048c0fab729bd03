import ApiWhatsApp.Library.Scan

/-!
# Readers

A reader goes over a stream from an offset: it reads a value and stops behind it, or it reads nothing.

* `Reads stream p Form` — the reader `p` reads just the runs of items that have the form `Form`; the form
  may depend on the offset, as padding does.
* `Reads.stop_le` and `Reads.append`: nothing is read behind the stream.
* **`Reads.pure`**, **`Reads.bind`**, **`Reads.require`**, **`Reads.when_`**, **`Reads.times`** give the form
  that a reader has from those of its parts.
-/

namespace ApiWhatsApp.Library

variable {ι : Type*} {α β : Type}

/-- A reader: the state is the offset. -/
abbrev Reader (α : Type) := StateT ℕ Option α

namespace Reader

/-- Read something if a condition holds. -/
def when_ (c : Prop) [Decidable c] (p : Reader Unit) : Reader Unit := if c then p else pure ()

/-- Fail unless a condition holds. -/
def require (c : Prop) [Decidable c] : Reader Unit := fun offset => if c then some ((), offset) else none

/-- Read something a number of times. -/
def times : ℕ → Reader Unit → Reader Unit
  | 0, _ => pure ()
  | n + 1, p => do p; times n p

end Reader

/-- From every offset, `p` reads the runs of items that have the form, and stops behind them. -/
def Reads (stream : List ι) (p : Reader α) (Form : ℕ → List ι → α → Prop) : Prop :=
  ∀ offset ≤ stream.length, ∀ a offset', p offset = some (a, offset') ↔
    ∃ items after, stream.drop offset = items ++ after ∧ offset' = offset + items.length ∧
      Form offset items a

section

variable {stream : List ι} {p : Reader α} {Form Form' : ℕ → List ι → α → Prop}

/-- A run of items ends within the stream. -/
theorem length_le_of_drop {offset : ℕ} {items after : List ι} (hle : offset ≤ stream.length)
    (h : stream.drop offset = items ++ after) : offset + items.length ≤ stream.length := by
  have hsum := congrArg List.length h
  rw [List.length_drop, List.length_append] at hsum
  omega

/-- The form may be put in other words. -/
theorem Reads.congr (h : Reads stream p Form)
    (hform : ∀ offset items a, Form offset items a ↔ Form' offset items a) : Reads stream p Form' := by
  intro offset hle a offset'
  rw [h offset hle a offset']
  simp only [hform]

/-- A reader stops within the stream. -/
theorem Reads.stop_le (h : Reads stream p Form) {offset stop : ℕ} {a : α} (hle : offset ≤ stream.length)
    (hread : p offset = some (a, stop)) : stop ≤ stream.length := by
  obtain ⟨items, after, hdrop, rfl, -⟩ := (h offset hle a stop).mp hread
  exact length_le_of_drop hle hdrop

/-- What stands behind the stream does not change what is read. -/
theorem Reads.append {more : List ι} {q : Reader α} (h : Reads stream p Form)
    (h' : Reads (stream ++ more) q Form) {offset stop : ℕ} {a : α} (hle : offset ≤ stream.length)
    (hread : p offset = some (a, stop)) : q offset = some (a, stop) := by
  obtain ⟨items, after, hdrop, rfl, hform⟩ := (h offset hle a stop).mp hread
  have hle' : offset ≤ (stream ++ more).length := by
    rw [List.length_append]
    exact Nat.le_add_right_of_le hle
  refine (h' offset hle' a _).mpr ⟨items, after ++ more, ?_, rfl, hform⟩
  rw [List.drop_append_of_le_length hle, hdrop, List.append_assoc]

/-- Reading nothing. -/
theorem Reads.pure (a : α) :
    Reads stream (Pure.pure a : Reader α) fun _ items b => items = [] ∧ b = a := by
  intro offset hle b offset'
  constructor
  · intro h
    cases h
    exact ⟨[], _, rfl, rfl, rfl, rfl⟩
  · rintro ⟨items, after, -, rfl, rfl, rfl⟩
    rfl

/-- **Two readers in a row** read two runs in a row. -/
theorem Reads.bind {f : α → Reader β} {FormOf : α → ℕ → List ι → β → Prop} (hp : Reads stream p Form)
    (hf : ∀ a, Reads stream (f a) (FormOf a)) :
    Reads stream (p >>= f) fun offset items b => ∃ a items₁ items₂, items = items₁ ++ items₂ ∧
      Form offset items₁ a ∧ FormOf a (offset + items₁.length) items₂ b := by
  intro offset hle b offset'
  have hrun : (p >>= f) offset = (p offset).bind fun read => f read.1 read.2 := rfl
  rw [hrun, Option.bind_eq_some_iff]
  constructor
  · rintro ⟨⟨a, middle⟩, hread, hrest⟩
    obtain ⟨items₁, after₁, hdrop₁, rfl, hform₁⟩ := (hp offset hle a middle).mp hread
    have hle' := length_le_of_drop hle hdrop₁
    obtain ⟨items₂, after₂, hdrop₂, rfl, hform₂⟩ := (hf a _ hle' b offset').mp hrest
    rw [← List.drop_drop, hdrop₁, List.drop_left] at hdrop₂
    refine ⟨items₁ ++ items₂, after₂, ?_, ?_, a, items₁, items₂, rfl, hform₁, hform₂⟩
    · rw [hdrop₁, hdrop₂, List.append_assoc]
    · rw [List.length_append, Nat.add_assoc]
  · rintro ⟨items, after, hdrop, rfl, a, items₁, items₂, rfl, hform₁, hform₂⟩
    rw [List.append_assoc] at hdrop
    refine ⟨(a, offset + items₁.length), (hp offset hle a _).mpr ⟨_, _, hdrop, rfl, hform₁⟩, ?_⟩
    refine (hf a _ (length_le_of_drop hle hdrop) b _).mpr ⟨items₂, after, ?_, ?_, hform₂⟩
    · rw [← List.drop_drop, hdrop, List.drop_left]
    · rw [List.length_append, Nat.add_assoc]

/-- Failing where a condition does not hold. -/
theorem Reads.require (c : Prop) [Decidable c] :
    Reads stream (Reader.require c) fun _ items _ => items = [] ∧ c := by
  intro offset hle b offset'
  unfold Reader.require
  split_ifs with hc
  · constructor
    · intro h
      cases h
      exact ⟨[], _, rfl, rfl, rfl, hc⟩
    · rintro ⟨items, after, -, rfl, rfl, -⟩
      rfl
  · refine iff_of_false (by rintro ⟨⟩) ?_
    rintro ⟨items, after, -, -, -, hc'⟩
    exact hc hc'

/-- Reading where a condition holds. -/
theorem Reads.when_ (c : Prop) [Decidable c] {p : Reader Unit} {Form : ℕ → List ι → Unit → Prop}
    (hp : Reads stream p Form) :
    Reads stream (Reader.when_ c p) fun offset items u => if c then Form offset items u else items = [] := by
  unfold Reader.when_
  split_ifs with hc
  · exact hp
  · exact (Reads.pure ()).congr fun offset items u => and_iff_left rfl

/-- A reader that is run a number of times reads as many runs. -/
theorem Reads.times {p : Reader Unit} {Form : ℕ → List ι → Unit → Prop} (hp : Reads stream p Form)
    (n : ℕ) :
    Reads stream (Reader.times n p) fun offset items _ => ∃ pieces : List (List ι),
      pieces.length = n ∧ items = pieces.flatten ∧
      Chain (fun start piece stop => Form start piece () ∧ stop = start + piece.length) offset pieces
        (offset + items.length) := by
  induction n with
  | zero =>
      refine (Reads.pure ()).congr fun offset items u => ?_
      constructor
      · rintro ⟨rfl, -⟩
        exact ⟨[], rfl, rfl, rfl⟩
      · rintro ⟨pieces, hlength, rfl, -⟩
        exact ⟨by rw [List.eq_nil_of_length_eq_zero hlength]; rfl, rfl⟩
  | succ n ih =>
      refine (hp.bind fun _ => ih).congr fun offset items u => ?_
      constructor
      · rintro ⟨_, items₁, items₂, rfl, hform, pieces, rfl, rfl, hchain⟩
        refine ⟨items₁ :: pieces, rfl, rfl, _, ⟨hform, rfl⟩, ?_⟩
        rwa [List.length_append, ← Nat.add_assoc]
      · rintro ⟨pieces, hlength, rfl, hchain⟩
        cases pieces with
        | nil => cases hlength
        | cons piece pieces =>
            obtain ⟨middle, ⟨hform, rfl⟩, hrest⟩ := hchain
            refine ⟨(), piece, pieces.flatten, rfl, hform, pieces, Nat.succ.inj hlength, rfl, ?_⟩
            rwa [List.flatten_cons, List.length_append, ← Nat.add_assoc] at hrest

/-- Where the form does not depend on the offset, the runs are those of a list of values. -/
theorem Reads.times_encode {γ : Type*} {encode : γ → List ι} {p : Reader Unit}
    (hp : Reads stream p fun _ items _ => ∃ c, items = encode c) (n : ℕ) :
    Reads stream (Reader.times n p) fun _ items _ => ∃ codes : List γ,
      codes.length = n ∧ items = (codes.map encode).flatten := by
  induction n with
  | zero =>
      refine (Reads.pure ()).congr fun offset items u => ?_
      constructor
      · rintro ⟨rfl, -⟩
        exact ⟨[], rfl, rfl⟩
      · rintro ⟨codes, hlength, rfl⟩
        exact ⟨by rw [List.eq_nil_of_length_eq_zero hlength]; rfl, rfl⟩
  | succ n ih =>
      refine (hp.bind fun _ => ih).congr fun offset items u => ?_
      constructor
      · rintro ⟨-, items₁, items₂, rfl, ⟨c, rfl⟩, codes, rfl, rfl⟩
        exact ⟨c :: codes, rfl, rfl⟩
      · rintro ⟨codes, hlength, rfl⟩
        cases codes with
        | nil => cases hlength
        | cons c codes => exact ⟨(), _, _, rfl, ⟨c, rfl⟩, codes, Nat.succ.inj hlength, rfl⟩

end

end ApiWhatsApp.Library
