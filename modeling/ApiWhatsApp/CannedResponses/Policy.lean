import ApiWhatsApp.Library.Utf16
import ApiWhatsApp.Library.JavaScript

/-!
# What a canned response may contain

`canned-responses/canned-response.policy.ts`, and the columns of `InboxCannedResponse` in
`prisma/migrations/20260911143000_inbox_canned_responses/migration.sql`.

* `CannedField` is a field of a request as `typeof` tells its values apart. Texts are UTF-16 units, so
  that unpaired surrogates are among them.
* `text`, `normalizeShortcut`, `prepareCannedResponseCreate` and `prepareCannedResponsePatch` are the
  policy. The case mapping of Unicode is a parameter, about which nothing is assumed.
* `CannedText.shortcutOk`, `titleOk` and `bodyOk` are the `CHECK` constraints and column types, on
  the text that the database stores: it counts characters, where JavaScript has units.
* **`create_fits_columns`** and **`patch_fits_columns`** — what the policy accepts fits the columns.
-/

namespace ApiWhatsApp

open Library

/-- A field of a request. `other` is `null`, an array or an object. -/
inductive CannedField where
  | undefined
  | boolean (value : Bool)
  /-- `none` is not finite. -/
  | number (value : Option ℚ)
  | string (value : JsString)
  | other

/-- A request: the fields of an object, or `none` when it is no object. -/
abbrev CannedInput := Option (List (String × CannedField))

/-- Source: `interface CannedResponseContent`. -/
structure CannedResponseContent where
  shortcut : JsString
  title : JsString
  body : JsString

/-- Source: `changes` of `interface CannedResponsePatch`. -/
structure CannedResponseChanges where
  shortcut : Option JsString
  title : Option JsString
  body : Option JsString
  active : Option Bool

/-- Source: `interface CannedResponsePatch`. -/
structure CannedResponsePatch where
  expectedRevision : ℕ
  changes : CannedResponseChanges

/-- Source: `MAX_REVISION`. -/
def maxRevision : ℕ := 2147483646

/-! ## The policy -/

namespace CannedPolicy

/-- `input[name]`. -/
def fieldOf (input : List (String × CannedField)) (name : String) : CannedField :=
  (input.lookup name).getD .undefined

/-- Source: `record`. -/
def record (value : CannedInput) (allowed : List String) :
    Except String (List (String × CannedField)) :=
  match value with
  | none => .error "A canned response object is required"
  | some input =>
      if input.any fun field => field.1 ∉ allowed then .error "Unknown canned response field"
      else .ok input

/-- Source: `text`. -/
def text (value : CannedField) (label : String) (maximum : ℕ) : Except String JsString :=
  match value with
  | .string value =>
      let normalized := value.trim
      let characters := normalized.codePoints
      if characters.isEmpty || maximum < characters.length then
        .error s!"{label} must contain 1-{maximum} characters"
      -- PostgreSQL stores no NUL, and an unpaired surrogate has no encoding.
      else if characters.any fun character => character = 0 || JsString.isUnpaired character then
        .error s!"{label} contains unsupported characters"
      else .ok normalized
  | _ => .error s!"{label} must be text"

/-- `[a-z]`. -/
def isLowerUnit (u : UInt16) : Bool := 97 ≤ u.toNat && u.toNat ≤ 122

/-- `[a-z0-9_-]`. -/
def isShortcutUnit (u : UInt16) : Bool :=
  isLowerUnit u || (48 ≤ u.toNat && u.toNat ≤ 57) || u.toNat = 95 || u.toNat = 45

/-- Source: `SHORTCUT_PATTERN`. -/
def shortcutPattern : JsString → Bool
  | [] => false
  | first :: rest => isLowerUnit first && rest.length ≤ 31 && rest.all isShortcutUnit

section

variable (toLowerCase : JsString → JsString)

/-- Source: `normalizeShortcut`. -/
def normalizeShortcut (value : CannedField) : Except String JsString := do
  let shortcut := toLowerCase (← text value "Shortcut" 32)
  if !shortcutPattern shortcut then
    .error "Shortcut must start with a letter and contain only a-z, 0-9, _ or -"
  else .ok shortcut

/-- Source: `prepareCannedResponseCreate`. -/
def prepareCannedResponseCreate (value : CannedInput) : Except String CannedResponseContent := do
  let input ← record value ["shortcut", "title", "body"]
  let shortcut ← normalizeShortcut toLowerCase (fieldOf input "shortcut")
  let title ← text (fieldOf input "title") "Title" 100
  let body ← text (fieldOf input "body") "Body" 4096
  .ok { shortcut := shortcut, title := title, body := body }

/-- Read a field that may be left out. -/
def optional {α : Type} (read : CannedField → Except String α) :
    CannedField → Except String (Option α)
  | .undefined => .ok none
  | value => (read value).map some

/-- The revision that a patch expects. -/
def readRevision : CannedField → Except String ℕ
  | .number (some value) =>
      if value.isInt && 1 ≤ value && value ≤ maxRevision then .ok value.num.toNat
      else .error "expectedRevision must be a positive supported integer"
  | _ => .error "expectedRevision must be a positive supported integer"

def readActive : CannedField → Except String Bool
  | .boolean value => .ok value
  | _ => .error "active must be a boolean"

/-- Source: `prepareCannedResponsePatch`. -/
def prepareCannedResponsePatch (value : CannedInput) : Except String CannedResponsePatch := do
  let input ← record value ["shortcut", "title", "body", "active", "expectedRevision"]
  let expectedRevision ← readRevision (fieldOf input "expectedRevision")
  let shortcut ← optional (normalizeShortcut toLowerCase) (fieldOf input "shortcut")
  let title ← optional (text · "Title" 100) (fieldOf input "title")
  let body ← optional (text · "Body" 4096) (fieldOf input "body")
  let active ← optional readActive (fieldOf input "active")
  if shortcut.isNone && title.isNone && body.isNone && active.isNone then
    .error "At least one mutable field is required"
  else
    .ok { expectedRevision := expectedRevision,
          changes := { shortcut := shortcut, title := title, body := body, active := active } }

end

end CannedPolicy

/-! ## The columns -/

namespace CannedText

/-- PostgreSQL's `char_length`. -/
def charLength (text : String) : ℕ := text.toList.length

/-- A value that PostgreSQL stores as text. -/
def storable (text : String) : Bool := text.toList.all (· ≠ '\x00')

/-- `[a-z]`. -/
def isLowerChar (c : Char) : Bool := 'a' ≤ c && c ≤ 'z'

/-- `[a-z0-9_-]`. -/
def isShortcutChar (c : Char) : Bool :=
  isLowerChar c || ('0' ≤ c && c ≤ '9') || c = '_' || c = '-'

/-- `shortcut ~ '^[a-z][a-z0-9_-]{0,31}$'`, as `VARCHAR(32)`. -/
def shortcutOk (text : String) : Bool :=
  storable text && charLength text ≤ 32 &&
    match text.toList with
    | [] => false
    | first :: rest => isLowerChar first && rest.length ≤ 31 && rest.all isShortcutChar

/-- `char_length(title) BETWEEN 1 AND 100`, as `VARCHAR(100)`. -/
def titleOk (text : String) : Bool := storable text && 1 ≤ charLength text && charLength text ≤ 100

/-- `char_length(body) BETWEEN 1 AND 4096`. -/
def bodyOk (text : String) : Bool := storable text && 1 ≤ charLength text && charLength text ≤ 4096

end CannedText

/-! ## What is accepted fits -/

namespace CannedPolicy

/-- What `text` accepts. -/
theorem of_text {value : CannedField} {label : String} {maximum : ℕ} {accepted : JsString}
    (h : text value label maximum = .ok accepted) :
    1 ≤ accepted.codePoints.length ∧ accepted.codePoints.length ≤ maximum ∧
      ∀ n ∈ accepted.codePoints, n ≠ 0 ∧ JsString.isUnpaired n = false := by
  unfold text at h
  split at h
  · next value =>
      simp only at h
      split_ifs at h with hlength hcharacters
      cases h
      simp only [Bool.or_eq_true, List.isEmpty_iff, decide_eq_true_eq, not_or, not_lt] at hlength
      refine ⟨List.length_pos_of_ne_nil hlength.1, hlength.2, fun n hn => ?_⟩
      simpa using fun hbad => hcharacters (List.any_eq_true.mpr ⟨n, hn, hbad⟩)
  · cases h

/-- An accepted text is stored, with as many characters as were counted. -/
theorem storable_of_text {value : CannedField} {label : String} {maximum : ℕ} {accepted : JsString}
    (h : text value label maximum = .ok accepted) :
    CannedText.storable accepted.toText = true ∧ 1 ≤ CannedText.charLength accepted.toText ∧
      CannedText.charLength accepted.toText ≤ maximum := by
  obtain ⟨hpos, hmax, hall⟩ := of_text h
  refine ⟨?_, by rwa [CannedText.charLength, JsString.length_toText],
    by rwa [CannedText.charLength, JsString.length_toText]⟩
  refine List.all_eq_true.mpr fun c hc => decide_eq_true ?_
  rintro rfl
  have hmem : (0 : ℕ) ∈ accepted.codePoints := by
    rw [← JsString.map_toNat_toText fun n hn => (hall n hn).2]
    exact List.mem_map.mpr ⟨_, hc, rfl⟩
  exact (hall 0 hmem).1 rfl

theorem char_le_iff (a b : Char) : a ≤ b ↔ a.toNat ≤ b.toNat := UInt32.le_iff_toNat_le

/-- The character of a unit of a shortcut. -/
theorem toNat_ofNat_of_isShortcutUnit {u : UInt16} (h : isShortcutUnit u = true) :
    u.toNat < 0x80 ∧ (Char.ofNat u.toNat).toNat = u.toNat := by
  simp only [isShortcutUnit, isLowerUnit, Bool.or_eq_true, Bool.and_eq_true, decide_eq_true_eq] at h
  have hvalid : u.toNat.isValidChar := by
    unfold Nat.isValidChar
    omega
  refine ⟨by omega, ?_⟩
  rw [Char.ofNat, dif_pos hvalid]
  rfl

/-- A character that is one of JavaScript's pattern is one of PostgreSQL's. -/
theorem isShortcutChar_of_isShortcutUnit {u : UInt16} (h : isShortcutUnit u = true) :
    CannedText.isShortcutChar (Char.ofNat u.toNat) = true ∧ Char.ofNat u.toNat ≠ '\x00' ∧
      (isLowerUnit u = true → CannedText.isLowerChar (Char.ofNat u.toNat) = true) := by
  obtain ⟨-, hnat⟩ := toNat_ofNat_of_isShortcutUnit h
  have hchar : ∀ c : Char, Char.ofNat u.toNat = c ↔ u.toNat = c.toNat := by
    intro c
    constructor
    · intro heq
      rw [← heq, hnat]
    · intro heq
      exact char_eq_of_toNat (hnat.trans heq)
  have hle : ∀ c : Char, (c ≤ Char.ofNat u.toNat ↔ c.toNat ≤ u.toNat) ∧
      (Char.ofNat u.toNat ≤ c ↔ u.toNat ≤ c.toNat) := by
    intro c
    rw [char_le_iff, char_le_iff, hnat]
    exact ⟨Iff.rfl, Iff.rfl⟩
  simp only [isShortcutUnit, isLowerUnit, Bool.or_eq_true, Bool.and_eq_true, decide_eq_true_eq] at h ⊢
  simp only [CannedText.isShortcutChar, CannedText.isLowerChar, Bool.or_eq_true, Bool.and_eq_true,
    decide_eq_true_eq, (hle _).1, (hle _).2, hchar, ne_eq]
  have hletters : 'a'.toNat = 97 ∧ 'z'.toNat = 122 ∧ '0'.toNat = 48 ∧ '9'.toNat = 57 ∧
      '_'.toNat = 95 ∧ '-'.toNat = 45 ∧ '\x00'.toNat = 0 := by decide
  omega

/-- A shortcut that passes the pattern of JavaScript passes that of PostgreSQL. -/
theorem shortcutOk_of_shortcutPattern {s : JsString} (h : shortcutPattern s = true) :
    CannedText.shortcutOk s.toText = true := by
  cases s with
  | nil => cases h
  | cons first rest =>
      simp only [shortcutPattern, Bool.and_eq_true, decide_eq_true_eq, List.all_eq_true] at h
      obtain ⟨⟨hfirst, hlength⟩, hrest⟩ := h
      have hunits : ∀ u ∈ first :: rest, isShortcutUnit u = true := by
        intro u hu
        rcases List.mem_cons.mp hu with rfl | hu
        · simp [isShortcutUnit, hfirst]
        · exact hrest u hu
      have hchars : (JsString.toText (first :: rest)).toList =
          (first :: rest).map fun u => Char.ofNat u.toNat := by
        rw [JsString.toText, String.toList_ofList, JsString.codePoints_of_ascii fun u hu =>
          (toNat_ofNat_of_isShortcutUnit (hunits u hu)).1, List.map_map]
        rfl
      have hstorable : CannedText.storable (JsString.toText (first :: rest)) = true := by
        rw [CannedText.storable, hchars, List.all_map]
        exact List.all_eq_true.mpr fun u hu =>
          decide_eq_true (isShortcutChar_of_isShortcutUnit (hunits u hu)).2.1
      rw [CannedText.shortcutOk, hstorable, CannedText.charLength, hchars]
      simp only [List.map_cons, List.length_cons, List.length_map, Bool.true_and, Bool.and_eq_true,
        decide_eq_true_eq, List.all_map, List.all_eq_true, Function.comp_apply]
      exact ⟨by omega, ⟨(isShortcutChar_of_isShortcutUnit (hunits first List.mem_cons_self)).2.2 hfirst,
        hlength⟩, fun u hu =>
          (isShortcutChar_of_isShortcutUnit (hunits u (List.mem_cons_of_mem _ hu))).1⟩

variable {toLowerCase : JsString → JsString}

theorem shortcutOk_of_normalizeShortcut {value : CannedField} {shortcut : JsString}
    (h : normalizeShortcut toLowerCase value = .ok shortcut) :
    CannedText.shortcutOk shortcut.toText = true := by
  obtain ⟨accepted, -, h⟩ := bind_eq_ok.mp h
  dsimp only at h
  split_ifs at h with hpattern
  cases h
  exact shortcutOk_of_shortcutPattern (by simpa using hpattern)

/-- The revisions that a patch may expect. -/
theorem of_readRevision {value : CannedField} {n : ℕ} (h : readRevision value = .ok n) :
    1 ≤ n ∧ n ≤ maxRevision := by
  unfold readRevision at h
  split at h
  · next value =>
      split_ifs at h with hvalue
      cases h
      simp only [Rat.isInt, Bool.and_eq_true, beq_iff_eq, decide_eq_true_eq] at hvalue
      obtain ⟨⟨hint, hpos⟩, hmax⟩ := hvalue
      rw [← Rat.coe_int_num_of_den_eq_one hint] at hpos hmax
      norm_cast at hpos hmax
      omega
  · cases h

/-- What a field that may be left out is read as, it is read as by its reader. -/
theorem of_optional {α : Type} {read : CannedField → Except String α} {value : CannedField} {a : α}
    (h : optional read value = .ok (some a)) : read value = .ok a := by
  have hread : (read value).map some = .ok (some a) := by
    cases value <;> first | exact h | cases h
  cases hvalue : read value with
  | error e =>
      rw [hvalue] at hread
      cases hread
  | ok b =>
      rw [hvalue] at hread
      cases hread
      rfl

end CannedPolicy

open CannedPolicy

/-- **Creation.** What the policy accepts fits the columns, whatever the request. -/
theorem create_fits_columns {toLowerCase : JsString → JsString} {value : CannedInput}
    {content : CannedResponseContent}
    (h : prepareCannedResponseCreate toLowerCase value = .ok content) :
    CannedText.shortcutOk content.shortcut.toText = true ∧
      CannedText.titleOk content.title.toText = true ∧
      CannedText.bodyOk content.body.toText = true := by
  obtain ⟨input, -, h⟩ := bind_eq_ok.mp h
  obtain ⟨shortcut, hshortcut, h⟩ := bind_eq_ok.mp h
  obtain ⟨title, htitle, h⟩ := bind_eq_ok.mp h
  obtain ⟨body, hbody, h⟩ := bind_eq_ok.mp h
  cases h
  refine ⟨shortcutOk_of_normalizeShortcut hshortcut, ?_, ?_⟩
  · obtain ⟨hstorable, hpos, hmax⟩ := storable_of_text htitle
    simp [CannedText.titleOk, hstorable, hpos, hmax]
  · obtain ⟨hstorable, hpos, hmax⟩ := storable_of_text hbody
    simp [CannedText.bodyOk, hstorable, hpos, hmax]

/-- **Patches.** What the policy accepts fits the columns, and the revision after it still fits an
`INTEGER`. -/
theorem patch_fits_columns {toLowerCase : JsString → JsString} {value : CannedInput}
    {patch : CannedResponsePatch}
    (h : prepareCannedResponsePatch toLowerCase value = .ok patch) :
    (∀ shortcut ∈ patch.changes.shortcut, CannedText.shortcutOk shortcut.toText = true) ∧
      (∀ title ∈ patch.changes.title, CannedText.titleOk title.toText = true) ∧
      (∀ body ∈ patch.changes.body, CannedText.bodyOk body.toText = true) ∧
      1 ≤ patch.expectedRevision ∧ patch.expectedRevision + 1 < 2 ^ 31 := by
  obtain ⟨input, -, h⟩ := bind_eq_ok.mp h
  obtain ⟨expectedRevision, hrevision, h⟩ := bind_eq_ok.mp h
  obtain ⟨shortcut, hshortcut, h⟩ := bind_eq_ok.mp h
  obtain ⟨title, htitle, h⟩ := bind_eq_ok.mp h
  obtain ⟨body, hbody, h⟩ := bind_eq_ok.mp h
  obtain ⟨active, -, h⟩ := bind_eq_ok.mp h
  split_ifs at h
  cases h
  refine ⟨?_, ?_, ?_, ?_⟩
  · rintro s rfl
    exact shortcutOk_of_normalizeShortcut (of_optional hshortcut)
  · rintro t rfl
    obtain ⟨hstorable, hpos, hmax⟩ := storable_of_text (of_optional htitle)
    simp [CannedText.titleOk, hstorable, hpos, hmax]
  · rintro b rfl
    obtain ⟨hstorable, hpos, hmax⟩ := storable_of_text (of_optional hbody)
    simp [CannedText.bodyOk, hstorable, hpos, hmax]
  · obtain ⟨hpos, hmax⟩ := of_readRevision hrevision
    unfold maxRevision at hmax
    dsimp only
    exact ⟨hpos, by omega⟩

end ApiWhatsApp
