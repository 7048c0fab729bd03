import ApiWhatsApp.Library.JsonText

/-!
# Reading and rebuilding objects

* `entries` is `Object.entries(value)`: array indices first, in their order, then the other keys in
  the order in which they were set. `fromEntries` sets the keys of a new object one by one.
* `member` is `value[key]`, which finds what `Object.prototype` has as well.
* `JsValue.at` follows a path of positions and keys into a value.
* `mapM` over a list, whose first error is the error of the whole.
-/

namespace ApiWhatsApp.Library

open JsString

/-! ## The order of the keys -/

/-- The text is that of an index of an array. -/
def isArrayIndex (key : JsString) : Bool :=
  key.all isDigit && (key = [unit '0'] || (key ≠ [] && key.head? ≠ some (unit '0'))) &&
    decimalValue key < 2 ^ 32 - 1

/-- The order of array indices. -/
def indexLe (a b : JsString) : Prop := decimalValue a ≤ decimalValue b

/-- The order of array indices. -/
instance : DecidableRel indexLe :=
  fun a b => inferInstanceAs (Decidable (decimalValue a ≤ decimalValue b))

/-- Two indices are in order one way or the other. -/
instance : Std.Total indexLe := ⟨fun a b => le_total (decimalValue a) (decimalValue b)⟩

/-- The order is transitive. -/
instance : IsTrans JsString indexLe := ⟨fun _ _ _ hab hbc => le_trans hab hbc⟩

/-- Source: `OrdinaryOwnPropertyKeys`, of keys in the order in which they were set. -/
def ownKeys (keys : List JsString) : List JsString :=
  (keys.filter isArrayIndex).insertionSort indexLe ++ keys.filter fun key => !isArrayIndex key

/-- The keys are put in another order. -/
theorem perm_ownKeys (keys : List JsString) : (ownKeys keys).Perm keys :=
  ((List.perm_insertionSort indexLe _).append_right _).trans
    (List.filter_append_perm isArrayIndex keys)

/-- No key is lost. -/
@[simp] theorem mem_ownKeys {keys : List JsString} {key : JsString} :
    key ∈ ownKeys keys ↔ key ∈ keys :=
  (perm_ownKeys keys).mem_iff

/-- Keys that are set in the order in which they are read keep it. -/
theorem ownKeys_append {indices others : List JsString}
    (hindices : ∀ key ∈ indices, isArrayIndex key = true) (hsorted : indices.Pairwise indexLe)
    (hothers : ∀ key ∈ others, isArrayIndex key = false) :
    ownKeys (indices ++ others) = indices ++ others := by
  have hfirst : (indices ++ others).filter isArrayIndex = indices := by
    rw [List.filter_append, List.filter_eq_self.mpr hindices,
      List.filter_eq_nil_iff.mpr fun key hkey => by simp [hothers key hkey], List.append_nil]
  have hrest : ((indices ++ others).filter fun key => !isArrayIndex key) = others := by
    rw [List.filter_append, List.filter_eq_nil_iff.mpr fun key hkey => by simp [hindices key hkey],
      List.filter_eq_self.mpr fun key hkey => by simp [hothers key hkey], List.nil_append]
  rw [ownKeys, hfirst, hrest, hsorted.insertionSort_eq]

/-- The order is put right once. -/
@[simp] theorem ownKeys_ownKeys (keys : List JsString) : ownKeys (ownKeys keys) = ownKeys keys := by
  refine ownKeys_append (fun key hkey => ?_) (List.pairwise_insertionSort indexLe _)
    fun key hkey => by simpa using (List.mem_filter.mp hkey).2
  exact (List.mem_filter.mp ((List.mem_insertionSort indexLe).mp hkey)).2

/-! ## Entries -/

namespace JsValue

/-- `Object.entries(value)`. -/
def entries (fields : List (JsString × JsValue)) : List (JsString × JsValue) :=
  (ownKeys (fields.map Prod.fst)).map fun key => (key, (object fields).get key)

/-- `Object.fromEntries(entries)`. -/
def fromEntries (entries : List (JsString × JsValue)) : List (JsString × JsValue) :=
  entries.foldl (fun fields entry => setField entry.1 entry.2 fields) []

/-- The entries have the keys in their order. -/
@[simp] theorem map_fst_entries (fields : List (JsString × JsValue)) :
    (entries fields).map Prod.fst = ownKeys (fields.map Prod.fst) := by
  rw [entries, List.map_map]
  exact List.map_id _

/-- A value that is found is a field. -/
theorem mem_of_lookup {fields : List (JsString × JsValue)} {key : JsString} {value : JsValue}
    (h : fields.lookup key = some value) : (key, value) ∈ fields := by
  obtain ⟨before, after, rfl, -⟩ := List.lookup_eq_some_iff.mp h
  simp

/-- A field is found if its key comes once. -/
theorem lookup_of_mem {fields : List (JsString × JsValue)} (h : (fields.map Prod.fst).Nodup)
    {key : JsString} {value : JsValue} (hmem : (key, value) ∈ fields) :
    fields.lookup key = some value := by
  obtain ⟨before, after, rfl⟩ := List.append_of_mem hmem
  refine List.lookup_eq_some_iff.mpr ⟨before, after, rfl, fun field hfield => ?_⟩
  rw [List.map_append, List.nodup_append] at h
  simpa using Ne.symm (h.2.2 _ (List.mem_map_of_mem hfield) key (by simp))

/-- The entries are the fields that are found. -/
theorem mem_entries {fields : List (JsString × JsValue)} {key : JsString} {value : JsValue} :
    (key, value) ∈ entries fields ↔ fields.lookup key = some value := by
  cases hlookup : fields.lookup key with
  | none =>
      have hkey : key ∉ fields.map Prod.fst := by
        rw [List.lookup_eq_none_iff] at hlookup
        intro hmem
        obtain ⟨field, hfield, rfl⟩ := List.mem_map.mp hmem
        simpa using hlookup field hfield
      refine iff_of_false (fun hmem => hkey ?_) (by simp)
      simpa using List.mem_map_of_mem (f := Prod.fst) hmem
  | some found =>
      have hkey : key ∈ fields.map Prod.fst :=
        List.mem_map_of_mem (f := Prod.fst) (mem_of_lookup hlookup)
      have hget : (object fields).get key = found := by rw [get, hlookup, Option.getD_some]
      rw [entries, List.mem_map]
      constructor
      · rintro ⟨other, -, heq⟩
        cases heq
        rw [hget]
      · intro heq
        cases heq
        exact ⟨key, mem_ownKeys.mpr hkey, by rw [hget]⟩

/-- Fields with new keys go to the end. -/
theorem fromEntries_append {fields rest : List (JsString × JsValue)}
    (h : ((fields ++ rest).map Prod.fst).Nodup) :
    rest.foldl (fun fields entry => setField entry.1 entry.2 fields) fields = fields ++ rest := by
  induction rest generalizing fields with
  | nil => simp
  | cons entry rest ih =>
      have hnew : entry.1 ∉ fields.map Prod.fst := by
        rw [List.map_append, List.nodup_append] at h
        exact fun hmem => h.2.2 _ hmem _ (by simp) rfl
      rw [List.foldl_cons, setField_of_notMem _ hnew, ih (by simpa using h)]
      simp

/-- Entries with distinct keys are the fields of the object. -/
theorem fromEntries_of_nodup {entries : List (JsString × JsValue)}
    (h : (entries.map Prod.fst).Nodup) : fromEntries entries = entries :=
  have hnil : (([] ++ entries : List (JsString × JsValue)).map Prod.fst).Nodup := h
  fromEntries_append hnil

/-- What `Object.prototype` has; `true` for its functions. -/
def prototypeFunctions : List JsString :=
  ["constructor", "__defineGetter__", "__defineSetter__", "hasOwnProperty", "__lookupGetter__",
    "__lookupSetter__", "isPrototypeOf", "propertyIsEnumerable", "toLocaleString", "toString",
    "valueOf"].map ofText

/-- `value[key]` for an object: a field of its own, or one of `Object.prototype`. -/
def member (fields : List (JsString × JsValue)) (key : JsString) : JsValue :=
  match fields.lookup key with
  | some value => value
  | none =>
      if key = ofText "__proto__" then object []
      else if prototypeFunctions.contains key then other else undefined

/-! ## Paths -/

end JsValue

/-- A step into an array or an object. -/
inductive JsStep where
  | index (n : ℕ)
  | key (key : JsString)

namespace JsValue

/-- The value has other values in it. -/
def isContainer : JsValue → Bool
  | array _ => true
  | object _ => true
  | _ => false

/-- What a step leads to. -/
def child : JsValue → JsStep → Option JsValue
  | array items, .index n => items[n]?
  | object fields, .key key => fields.lookup key
  | _, _ => none

/-- What is at the end of a path. -/
def valueAt : JsValue → List JsStep → Option JsValue
  | value, [] => some value
  | value, step :: path => (value.child step).bind fun nested => nested.valueAt path

/-- No steps lead to the value itself. -/
@[simp] theorem valueAt_nil (value : JsValue) : value.valueAt [] = some value := rfl

/-- Steps are taken one after another. -/
theorem valueAt_cons (value : JsValue) (step : JsStep) (path : List JsStep) :
    value.valueAt (step :: path) = (value.child step).bind fun nested => nested.valueAt path := rfl

/-- What JSON has, it has all the way down. -/
theorem IsJson.child {value nested : JsValue} {step : JsStep} (h : value.IsJson)
    (hchild : value.child step = some nested) : nested.IsJson := by
  cases h with
  | array hitems =>
      cases step with
      | index n => exact hitems _ (List.mem_of_getElem? hchild)
      | key key => cases hchild
  | object hfields hkeys =>
      cases step with
      | index n => cases hchild
      | key key => exact hfields _ (mem_of_lookup hchild)
  | _ => cases hchild

end JsValue

/-! ## Checks of a list -/

section MapM

variable {ε α β : Type} {f : α → Except ε β} {items : List α}

/-- A traversal succeeds item by item. -/
theorem mapM_eq_ok {results : List β} :
    items.mapM f = .ok results ↔ List.Forall₂ (fun a b => f a = .ok b) items results := by
  induction items generalizing results with
  | nil => cases results <;> simp [pure, Except.pure]
  | cons item items ih =>
      rw [List.mapM_cons, bind_eq_ok, List.forall₂_cons_left_iff]
      constructor
      · rintro ⟨b, hb, hbind⟩
        obtain ⟨rest, hrest, heq⟩ := bind_eq_ok.mp hbind
        cases heq
        exact ⟨b, rest, hb, ih.mp hrest, rfl⟩
      · rintro ⟨b, rest, hb, hrest, rfl⟩
        exact ⟨b, hb, bind_eq_ok.mpr ⟨rest, ih.mpr hrest, rfl⟩⟩

/-- The error of the first part is that of the whole. -/
theorem error_of_bind_ok {α β : Type} {x : Except ε α} {g : α → β} {e : ε}
    (h : (x >>= fun a => .ok (g a)) = .error e) : x = .error e := by
  cases x with
  | error e' => cases h; rfl
  | ok a => cases h

/-- An error is that of an item. -/
theorem mapM_eq_error {e : ε} (h : items.mapM f = .error e) : ∃ a ∈ items, f a = .error e := by
  induction items with
  | nil => cases h
  | cons item items ih =>
      rw [List.mapM_cons] at h
      cases hitem : f item with
      | error e' =>
          rw [hitem] at h
          cases h
          exact ⟨item, List.mem_cons_self, hitem⟩
      | ok b =>
          rw [hitem, ok_bind] at h
          cases hrest : items.mapM f with
          | error e' =>
              rw [hrest] at h
              cases h
              obtain ⟨a, ha, hf⟩ := ih hrest
              exact ⟨a, List.mem_cons_of_mem item ha, hf⟩
          | ok rest =>
              rw [hrest] at h
              cases h

/-- The result that stands where the item does. -/
theorem exists_getElem?_of_forall₂ {R : α → β → Prop} {results : List β}
    (h : List.Forall₂ R items results) {n : ℕ} {a : α} (ha : items[n]? = some a) :
    ∃ b, results[n]? = some b ∧ R a b := by
  induction h generalizing n with
  | nil => simp at ha
  | @cons item result items results hfirst hrest ih =>
      cases n with
      | zero =>
          obtain rfl : item = a := by simpa using ha
          exact ⟨result, rfl, hfirst⟩
      | succ n => exact ih ha

end MapM

/-- What a fold accepts, it accepts item by item. -/
theorem foldlM_eq_ok {ε α σ : Type} {f : σ → α → Except ε σ} {items : List α} {s t : σ}
    (h : items.foldlM f s = .ok t) {a : α} (ha : a ∈ items) : ∃ u v, f u a = .ok v := by
  induction items generalizing s with
  | nil => cases ha
  | cons item items ih =>
      rw [List.foldlM_cons, bind_eq_ok] at h
      obtain ⟨u, hu, hrest⟩ := h
      rcases List.mem_cons.mp ha with rfl | ha
      · exact ⟨s, u, hu⟩
      · exact ih hrest ha

end ApiWhatsApp.Library
