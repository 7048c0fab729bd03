import ApiWhatsApp.Library.Doubles
import ApiWhatsApp.Library.Utf8

/-!
# `JSON.stringify` and `JSON.parse`

* `JsValue` is a JavaScript value of any shape, as far as a program can tell by `typeof`, `===` and
  reading fields.
* `stringify` writes a value. `parse` reads any text: `lex` goes over its units once, and `parseStep`
  over the tokens, with a stack for the arrays and objects that are open.
* **`parse_stringify`** — a value that JSON has is read back as it was written.

The keys of an object are kept in the order in which they were set.
-/

namespace ApiWhatsApp.Library

open JsString

/-! ## Values -/

/-- A JavaScript value. -/
inductive JsValue where
  | undefined
  | null
  | bool (b : Bool)
  /-- A number; `none` is `NaN` or an infinity. -/
  | number (x : Option Double)
  | string (text : JsString)
  | array (items : List JsValue)
  | object (fields : List (JsString × JsValue))
  /-- A function, a symbol or a bigint. -/
  | other

namespace JsValue

/-- The value is `undefined`. -/
def isUndefined : JsValue → Bool
  | undefined => true
  | _ => false

/-- Only `undefined` is it. -/
theorem eq_undefined {v : JsValue} (h : v.isUndefined = true) : v = undefined := by
  cases v <;> first | rfl | cases h

/-- `value[key]`, for a value of any shape: `undefined` unless it is an object with that key. -/
def get : JsValue → JsString → JsValue
  | object fields, key => (fields.lookup key).getD undefined
  | _, _ => undefined

/-- `{ ...(v === undefined ? {} : { key: v }), ... }`: the entries that have a value. -/
def present (entries : List (JsString × JsValue)) : List (JsString × JsValue) :=
  entries.filter fun entry => !entry.2.isUndefined

/-- A field of an object that was built from entries with distinct keys. -/
theorem get_present {entries : List (JsString × JsValue)} (h : (entries.map Prod.fst).Nodup)
    {key : JsString} {value : JsValue} (hentry : (key, value) ∈ entries) :
    (object (present entries)).get key = value := by
  rw [get, present]
  induction entries with
  | nil => cases hentry
  | cons head rest ih =>
      obtain ⟨key', value'⟩ := head
      rw [List.map_cons, List.nodup_cons] at h
      rcases List.mem_cons.mp hentry with heq | hrest
      · cases heq
        cases hvalue : value.isUndefined with
        | false => rw [List.filter_cons_of_pos (by simp [hvalue]), List.lookup_cons_self]; rfl
        | true =>
            -- No other entry has the key.
            have hnone : (rest.filter fun e => !e.2.isUndefined).lookup key = none := by
              rw [List.lookup_eq_none_iff]
              intro other hother
              have hmem : other.1 ∈ rest.map Prod.fst :=
                List.mem_map_of_mem (List.mem_of_mem_filter hother)
              simpa using fun heq : key = other.1 => h.1 (heq ▸ hmem)
            rw [List.filter_cons_of_neg (by simp [hvalue]), hnone, eq_undefined hvalue]
            rfl
      · have hmem : key ∈ rest.map Prod.fst := List.mem_map_of_mem (f := Prod.fst) hrest
        have hne : (key == key') = false := by
          simpa using fun heq : key = key' => h.1 (heq ▸ hmem)
        have hlookup := ih h.2 hrest
        cases hvalue : value'.isUndefined with
        | false => rwa [List.filter_cons_of_pos (by simp [hvalue]), List.lookup_cons, hne]
        | true => rwa [List.filter_cons_of_neg (by simp [hvalue])]

/-- Set a field of an object. -/
def setField (key : JsString) (value : JsValue) :
    List (JsString × JsValue) → List (JsString × JsValue)
  | [] => [(key, value)]
  | field :: fields =>
      if field.1 = key then (key, value) :: fields else field :: setField key value fields

/-- The values that JSON has. -/
inductive IsJson : JsValue → Prop
  | null : IsJson null
  | bool (b : Bool) : IsJson (bool b)
  | number (x : Double) : IsJson (number (some x))
  | string (text : JsString) : IsJson (string text)
  | array {items : List JsValue} (hitems : ∀ v ∈ items, IsJson v) : IsJson (array items)
  | object {fields : List (JsString × JsValue)} (hfields : ∀ f ∈ fields, IsJson f.2)
      (hkeys : (fields.map Prod.fst).Nodup) : IsJson (object fields)

end JsValue

/-! ## Tokens -/

/-- The tokens of a JSON text. -/
inductive JsonToken where
  | openArray
  | closeArray
  | openObject
  | closeObject
  | comma
  | colon
  | null
  | bool (b : Bool)
  | number (x : Option Double)
  | string (text : JsString)

namespace JsonToken

/-! ## Writing -/

/-- A digit of a hexadecimal number, in lower case. -/
def hexUnit (d : ℕ) : UInt16 := if d < 10 then digitUnit d else UInt16.ofNat (0x57 + d)

/-- Source: `UnicodeEscape`. -/
def unicodeEscape (u : UInt16) : JsString :=
  [unit '\\', unit 'u', hexUnit (u.toNat / 4096), hexUnit (u.toNat / 256 % 16),
    hexUnit (u.toNat / 16 % 16), hexUnit (u.toNat % 16)]

/-- The escapes of one letter: the unit and the letter. -/
def escapes : List (UInt16 × UInt16) :=
  [(0x08, unit 'b'), (0x09, unit 't'), (0x0A, unit 'n'), (0x0C, unit 'f'), (0x0D, unit 'r'),
    (unit '"', unit '"'), (unit '\\', unit '\\')]

/-- A unit of a string that is not part of a pair. -/
def quoteUnit (u : UInt16) : JsString :=
  match escapes.lookup u with
  | some letter => [unit '\\', letter]
  | none => if u.toNat < 0x20 || isHighSurrogate u || isLowSurrogate u then unicodeEscape u else [u]

/-- Source: `QuoteJSONString`, without the quotes. -/
def quoteUnits : JsString → JsString
  | [] => []
  | [u] => quoteUnit u
  | u :: v :: rest =>
      if isHighSurrogate u && isLowSurrogate v then u :: v :: quoteUnits rest
      else quoteUnit u ++ quoteUnits (v :: rest)

/-- The text of a token. -/
def text : JsonToken → JsString
  | openArray => [unit '[']
  | closeArray => [unit ']']
  | openObject => [unit '\x7b']
  | closeObject => [unit '\x7d']
  | comma => [unit ',']
  | colon => [unit ':']
  | null => ofText "null"
  | bool b => if b then ofText "true" else ofText "false"
  | number (some x) => numberText x
  | number none => ofText "null"
  | string s => unit '"' :: (quoteUnits s ++ [unit '"'])

/-- The text of a list of tokens. -/
def render (tokens : List JsonToken) : JsString := tokens.flatMap text

end JsonToken

/-- The parts of an array or an object, with commas between them. -/
def JsonToken.commas : List (List JsonToken) → List JsonToken
  | [] => []
  | [part] => part
  | part :: next :: parts => part ++ .comma :: commas (next :: parts)

namespace JsValue

mutual

/-- Source: `SerializeJSONProperty`; `none` is `undefined`. -/
def serialize : JsValue → Option (List JsonToken)
  | undefined => none
  | other => none
  | null => some [.null]
  | bool b => some [.bool b]
  | number (some x) => some [.number (some x)]
  | number none => some [.null]
  | string text => some [.string text]
  | array items =>
      some (.openArray :: (JsonToken.commas (serializeItems items) ++ [.closeArray]))
  | object fields =>
      some (.openObject :: (JsonToken.commas (serializeFields fields) ++ [.closeObject]))

/-- The items of an array; `undefined` is written as `null`. -/
def serializeItems : List JsValue → List (List JsonToken)
  | [] => []
  | v :: vs => (serialize v).getD [.null] :: serializeItems vs

/-- The fields of an object; one that is `undefined` is left out. -/
def serializeFields : List (JsString × JsValue) → List (List JsonToken)
  | [] => []
  | (key, v) :: fields =>
      match serialize v with
      | some tokens => (.string key :: .colon :: tokens) :: serializeFields fields
      | none => serializeFields fields

end

/-- `JSON.stringify(value)`; `none` is `undefined`. -/
def stringify (value : JsValue) : Option JsString := value.serialize.map JsonToken.render

end JsValue

/-! ## Reading: tokens -/

/-- Where the reader of the units is. -/
inductive LexMode where
  | start
  /-- In a string; its units so far, the last first. -/
  | string (units : JsString)
  | escape (units : JsString)
  /-- In a `\\u` escape: its value so far, and how many digits are left. -/
  | unicode (units : JsString) (value left : ℕ)
  /-- In a number or a literal. -/
  | word (units : JsString)

namespace JsonToken

/-- The units of numbers and literals. -/
def isWordUnit (u : UInt16) : Bool :=
  isDigit u || u = unit '+' || u = unit '-' || u = unit '.' ||
    (0x61 ≤ u.toNat && u.toNat ≤ 0x7A) || (0x41 ≤ u.toNat && u.toNat ≤ 0x5A)

/-- A token of one unit. -/
def punctuation? (u : UInt16) : Option JsonToken :=
  if u = unit '[' then some openArray
  else if u = unit ']' then some closeArray
  else if u = unit '\x7b' then some openObject
  else if u = unit '\x7d' then some closeObject
  else if u = unit ',' then some comma
  else if u = unit ':' then some colon
  else none

/-- The unit that a letter stands for after a backslash. -/
def unescape? (u : UInt16) : Option UInt16 :=
  if u = unit '/' then some u else (escapes.find? fun e => e.2 = u).map Prod.fst

/-- The value of a hexadecimal digit. -/
def hexValue? (u : UInt16) : Option ℕ :=
  if isDigit u then some (u.toNat - 0x30)
  else if 0x61 ≤ u.toNat && u.toNat ≤ 0x66 then some (u.toNat - 0x57)
  else if 0x41 ≤ u.toNat && u.toNat ≤ 0x46 then some (u.toNat - 0x37)
  else none

/-- The token of a number or a literal. -/
def wordToken? (word : JsString) : Option JsonToken :=
  if word = ofText "null" then some null
  else if word = ofText "true" then some (bool true)
  else if word = ofText "false" then some (bool false)
  else (numberValue word).map fun q => number (Double.ofRat? q)

/-- A unit between tokens: the token that it is, if it is one, and where it leads. -/
def enter (u : UInt16) : Option (List JsonToken × LexMode) :=
  if u ∈ [0x20, 0x09, 0x0A, 0x0D] then some ([], .start)
  else if u = unit '"' then some ([], .string [])
  else if isWordUnit u then some ([], .word [u])
  else (punctuation? u).map fun t => ([t], .start)

/-- The tokens of a text. -/
def lex : LexMode → JsString → Option (List JsonToken)
  | .start, [] => some []
  | .word units, [] => (wordToken? units.reverse).map fun t => [t]
  | _, [] => none
  | .start, u :: us => do
      let (tokens, mode) ← enter u
      let rest ← lex mode us
      some (tokens ++ rest)
  | .word units, u :: us =>
      if isWordUnit u then lex (.word (u :: units)) us
      else do
        let token ← wordToken? units.reverse
        let (tokens, mode) ← enter u
        let rest ← lex mode us
        some (token :: (tokens ++ rest))
  | .string units, u :: us =>
      if u = unit '"' then (lex .start us).map fun rest => .string units.reverse :: rest
      else if u = unit '\\' then lex (.escape units) us
      else if u.toNat < 0x20 then none
      else lex (.string (u :: units)) us
  | .escape units, u :: us =>
      if u = unit 'u' then lex (.unicode units 0 4) us
      else do
        let v ← unescape? u
        lex (.string (v :: units)) us
  | .unicode units value left, u :: us => do
      let d ← hexValue? u
      if left ≤ 1 then lex (.string (UInt16.ofNat (16 * value + d) :: units)) us
      else lex (.unicode units (16 * value + d) (left - 1)) us

end JsonToken

/-! ## Reading: values -/

/-- An array or an object that is open. -/
inductive JsonFrame where
  /-- The items so far, the last first. -/
  | array (items : List JsValue)
  /-- The fields so far, and the key whose value comes next. -/
  | object (fields : List (JsString × JsValue)) (key : JsString)

/-- What the reader of the tokens expects. -/
inductive ParseMode where
  | value
  /-- After `[`: a value or the end of the array. -/
  | firstItem
  /-- After `{`: a key or the end of the object. -/
  | firstKey
  | key (fields : List (JsString × JsValue))
  | colon (fields : List (JsString × JsValue)) (key : JsString)
  /-- What follows a value. -/
  | after (value : JsValue)

namespace JsonToken

/-- The first token of a value. -/
def begin (stack : List JsonFrame) : JsonToken → Option (List JsonFrame × ParseMode)
  | null => some (stack, .after .null)
  | bool b => some (stack, .after (.bool b))
  | number x => some (stack, .after (.number x))
  | string text => some (stack, .after (.string text))
  | openArray => some (.array [] :: stack, .firstItem)
  | openObject => some (stack, .firstKey)
  | _ => none

/-- The token that follows a value. -/
def follow (value : JsValue) :
    List JsonFrame → JsonToken → Option (List JsonFrame × ParseMode)
  | .array items :: stack, comma => some (.array (value :: items) :: stack, .value)
  | .array items :: stack, closeArray => some (stack, .after (.array (value :: items).reverse))
  | .object fields key :: stack, comma => some (stack, .key (JsValue.setField key value fields))
  | .object fields key :: stack, closeObject =>
      some (stack, .after (.object (JsValue.setField key value fields)))
  | _, _ => none

/-- One token. -/
def parseStep (state : List JsonFrame × ParseMode) (token : JsonToken) :
    Option (List JsonFrame × ParseMode) :=
  match state.2 with
  | .value => begin state.1 token
  | .firstItem =>
      match token with
      | closeArray => some (state.1.tail, .after (.array []))
      | _ => begin state.1 token
  | .firstKey =>
      match token with
      | closeObject => some (state.1, .after (.object []))
      | string key => some (state.1, .colon [] key)
      | _ => none
  | .key fields =>
      match token with
      | string key => some (state.1, .colon fields key)
      | _ => none
  | .colon fields key =>
      match token with
      | colon => some (.object fields key :: state.1, .value)
      | _ => none
  | .after value => follow value state.1 token

/-- The value of a list of tokens. -/
def parseTokens (tokens : List JsonToken) : Option JsValue :=
  match tokens.foldlM parseStep ([], .value) with
  | some ([], .after value) => some value
  | _ => none

end JsonToken

/-- `JSON.parse(text)`; `none` is a `SyntaxError`. -/
def JsValue.parse (text : JsString) : Option JsValue :=
  (JsonToken.lex .start text).bind JsonToken.parseTokens

/-! ## Tokens are read back -/

namespace JsonToken

/-- A digit is read back. -/
theorem hexValue?_hexUnit {d : ℕ} (h : d < 16) : hexValue? (hexUnit d) = some d := by
  have hall : ∀ k : Fin 16, hexValue? (hexUnit k) = some (k : ℕ) := by decide
  exact hall ⟨d, h⟩

/-- The digits of a unit are its value. -/
theorem lex_unicodeEscape (units rest : JsString) (u : UInt16) :
    lex (.string units) (unicodeEscape u ++ rest) = lex (.string (u :: units)) rest := by
  have hlt := u.toNat_lt
  have hdigit : ∀ k : ℕ, hexValue? (hexUnit (u.toNat / k % 16)) = some (u.toNat / k % 16) :=
    fun k => hexValue?_hexUnit (Nat.mod_lt _ (by norm_num))
  have hfirst : hexValue? (hexUnit (u.toNat / 4096)) = some (u.toNat / 4096) :=
    hexValue?_hexUnit (by omega)
  have hlast : hexValue? (hexUnit (u.toNat % 16)) = some (u.toNat % 16) :=
    hexValue?_hexUnit (Nat.mod_lt _ (by norm_num))
  have hvalue : 16 * (16 * (16 * (16 * 0 + u.toNat / 4096) + u.toNat / 256 % 16) +
      u.toNat / 16 % 16) + u.toNat % 16 = u.toNat := by omega
  have hquote : unit '\\' ≠ unit '"' := by decide
  simp only [unicodeEscape, List.cons_append, List.nil_append, lex, if_neg hquote, if_pos, hfirst,
    hdigit, hlast, hvalue, Option.bind_eq_bind, Option.bind_some, UInt16.ofNat_toNat]
  rfl

/-- A unit that stands for itself. -/
theorem lex_plainUnit (units rest : JsString) {u : UInt16} (hquote : u ≠ unit '"')
    (hbackslash : u ≠ unit '\\') (hcontrol : ¬ u.toNat < 0x20) :
    lex (.string units) (u :: rest) = lex (.string (u :: units)) rest := by
  rw [lex, if_neg hquote, if_neg hbackslash, if_neg hcontrol]

/-- **A unit of a string is read back.** -/
theorem lex_quoteUnit (units rest : JsString) (u : UInt16) :
    lex (.string units) (quoteUnit u ++ rest) = lex (.string (u :: units)) rest := by
  unfold quoteUnit
  cases hletter : escapes.lookup u with
  | some letter =>
      obtain ⟨before, after, hsplit, -⟩ := List.lookup_eq_some_iff.mp hletter
      have hmem : (u, letter) ∈ escapes := by rw [hsplit]; simp
      have hescape : ∀ e ∈ escapes, decide (e.2 ≠ unit 'u' ∧ unescape? e.2 = some e.1) = true :=
        List.all_eq_true.mp (by decide)
      obtain ⟨hne, hback⟩ := of_decide_eq_true (hescape _ hmem)
      have hquote : unit '\\' ≠ unit '"' := by decide
      simp only [List.cons_append, List.nil_append, lex, if_neg hquote, if_pos, if_neg hne, hback,
        Option.bind_eq_bind, Option.bind_some]
  | none =>
      have hplain : ∀ e ∈ escapes, u ≠ e.1 := fun e he => by
        simpa using List.lookup_eq_none_iff.mp hletter e he
      dsimp only
      split_ifs with hcontrol
      · exact lex_unicodeEscape units rest u
      · simp only [Bool.or_eq_true, decide_eq_true_eq, not_or] at hcontrol
        exact lex_plainUnit units rest (hplain (unit '"', unit '"') (by decide))
          (hplain (unit '\\', unit '\\') (by decide)) hcontrol.1.1

/-- **The text of a string is read back.** -/
theorem lex_quoteUnits (units rest text : JsString) :
    lex (.string units) (quoteUnits text ++ (unit '"' :: rest)) =
      (lex .start rest).map fun tokens => .string (units.reverse ++ text) :: tokens := by
  fun_induction quoteUnits text generalizing units with
  | case1 => rw [List.nil_append, lex, if_pos rfl, List.append_nil]
  | case2 u => rw [lex_quoteUnit, lex, if_pos rfl, List.reverse_cons]
  | case3 u v rest' hpair ih =>
      -- The units of a pair are no control units.
      simp only [Bool.and_eq_true, isHighSurrogate, isLowSurrogate, decide_eq_true_eq,
        UInt16.le_iff_toNat_le] at hpair
      have hu : 0xD800 ≤ u.toNat := hpair.1.1
      have hv : 0xDC00 ≤ v.toNat := hpair.2.1
      have hne : ∀ {w c : UInt16}, 0xD800 ≤ w.toNat → c.toNat < 0xD800 → w ≠ c := by
        rintro w c hw hc rfl
        omega
      rw [List.cons_append, List.cons_append,
        lex_plainUnit _ _ (hne hu (by decide)) (hne hu (by decide)) (by omega),
        lex_plainUnit _ _ (hne (by omega) (by decide)) (hne (by omega) (by decide)) (by omega), ih]
      simp
  | case4 u v rest' hpair ih =>
      rw [List.append_assoc, lex_quoteUnit, ih, List.reverse_cons, List.append_assoc]
      rfl

/-- No number or literal goes on in the text that follows. -/
def EndsWord (rest : JsString) : Prop := ∀ u ∈ rest.head?, isWordUnit u = false

/-- A unit of a word opens a word. -/
theorem enter_of_isWordUnit {u : UInt16} (h : isWordUnit u = true) :
    enter u = some ([], .word [u]) := by
  have hother : ∀ v ∈ [unit '"', 0x20, 0x09, 0x0A, 0x0D], (!isWordUnit v) = true :=
    List.all_eq_true.mp (by decide)
  have hne : u ∉ [unit '"', 0x20, 0x09, 0x0A, 0x0D] := fun hmem => by
    have hnot := hother u hmem
    rw [h] at hnot
    cases hnot
  rw [List.mem_cons, not_or] at hne
  rw [enter, if_neg hne.2, if_neg hne.1, if_pos h]

/-- A word is read up to what ends it. -/
theorem lex_wordUnits (units : JsString) {word rest : JsString}
    (hword : ∀ u ∈ word, isWordUnit u = true) (hrest : EndsWord rest) :
    lex (.word units) (word ++ rest) =
      (wordToken? (units.reverse ++ word)).bind fun t => (lex .start rest).map fun ts => t :: ts := by
  induction word generalizing units with
  | nil =>
      rw [List.nil_append, List.append_nil]
      cases rest with
      | nil => cases htoken : wordToken? units.reverse <;> simp [lex, htoken]
      | cons u rest =>
          have hend : ¬ isWordUnit u = true := by simp [hrest u rfl]
          simp only [lex, if_neg hend]
          cases wordToken? units.reverse with
          | none => rfl
          | some token =>
              cases enter u with
              | none => rfl
              | some entered => cases hmode : lex entered.2 rest <;> simp [hmode]
  | cons u word ih =>
      rw [List.cons_append, lex, if_pos (hword u List.mem_cons_self),
        ih _ fun v hv => hword v (List.mem_cons_of_mem _ hv), List.reverse_cons, List.append_assoc]
      rfl

/-- The tokens are read back from their text. -/
def ReadBack (tokens : List JsonToken) : Prop :=
  ∀ rest, EndsWord rest →
    lex .start (render tokens ++ rest) = (lex .start rest).map fun ts => tokens ++ ts

/-- No tokens are read back from an empty text. -/
theorem readBack_nil : ReadBack [] := fun rest _ => by
  simp [render]

/-- A token that is written as a word is read back. -/
theorem readBack_word {t : JsonToken} {u : UInt16} {us : JsString} (htext : t.text = u :: us)
    (hword : ∀ v ∈ t.text, isWordUnit v = true) (hback : wordToken? t.text = some t) :
    ReadBack [t] := by
  intro rest hrest
  rw [htext] at hword
  have hrender : render [t] = u :: us := by simp [render, htext]
  have henter := enter_of_isWordUnit (hword u List.mem_cons_self)
  have hlex := lex_wordUnits [u] (fun v hv => hword v (List.mem_cons_of_mem _ hv)) hrest
  rw [List.reverse_singleton, List.singleton_append, ← htext, hback] at hlex
  rw [hrender, List.cons_append, lex, henter]
  simp [hlex]

/-- The tokens of one unit. -/
def isPunctuation : JsonToken → Bool
  | openArray | closeArray | openObject | closeObject | comma | colon => true
  | _ => false

/-- Punctuation is a token by itself. -/
theorem punctuation_spec {t : JsonToken} (h : isPunctuation t = true) :
    ∃ u, t.text = [u] ∧ enter u = some ([t], .start) ∧ isWordUnit u = false := by
  cases t with
  | openArray => exact ⟨_, rfl, rfl, by decide⟩
  | closeArray => exact ⟨_, rfl, rfl, by decide⟩
  | openObject => exact ⟨_, rfl, rfl, by decide⟩
  | closeObject => exact ⟨_, rfl, rfl, by decide⟩
  | comma => exact ⟨_, rfl, rfl, by decide⟩
  | colon => exact ⟨_, rfl, rfl, by decide⟩
  | null => cases h
  | bool b => cases h
  | number x => cases h
  | string s => cases h

/-- A mark needs nothing of what follows, and it ends what comes before. -/
theorem lex_punctuation {t : JsonToken} (h : isPunctuation t = true) (rest : JsString) :
    lex .start (t.text ++ rest) = (lex .start rest).map (fun ts => t :: ts) ∧
      EndsWord (t.text ++ rest) := by
  obtain ⟨u, htext, henter, hword⟩ := punctuation_spec h
  rw [htext]
  constructor
  · rw [List.singleton_append, lex, henter]
    cases hrest : lex .start rest <;> simp [hrest]
  · intro v hv
    obtain rfl := Option.some.inj hv
    exact hword

/-- A string is read back. -/
theorem lex_string (text rest : JsString) :
    lex .start ((string text).text ++ rest) = (lex .start rest).map fun ts => string text :: ts := by
  have henter : enter (unit '"') = some ([], .string []) := rfl
  have hquoted := lex_quoteUnits [] rest text
  rw [List.reverse_nil, List.nil_append] at hquoted
  rw [JsonToken.text, List.cons_append, List.append_assoc, List.singleton_append, lex, henter]
  simp [hquoted]

/-- Punctuation in front is read back. -/
theorem ReadBack.cons_punctuation {t : JsonToken} {ts : List JsonToken}
    (ht : isPunctuation t = true) (h : ReadBack ts) : ReadBack (t :: ts) := by
  intro rest hrest
  rw [render, List.flatMap_cons, List.append_assoc, (lex_punctuation ht _).1, ← render, h rest hrest,
    Option.map_map]
  rfl

/-- A string in front is read back. -/
theorem ReadBack.cons_string {text : JsString} {ts : List JsonToken} (h : ReadBack ts) :
    ReadBack (string text :: ts) := by
  intro rest hrest
  rw [render, List.flatMap_cons, List.append_assoc, lex_string, ← render, h rest hrest,
    Option.map_map]
  rfl

/-- What a mark separates is read back part by part. -/
theorem ReadBack.append {a b : List JsonToken} {t : JsonToken} (ha : ReadBack a)
    (ht : isPunctuation t = true) (hb : ReadBack b) : ReadBack (a ++ t :: b) := by
  intro rest hrest
  have hends : EndsWord (render (t :: b) ++ rest) := by
    rw [render, List.flatMap_cons, List.append_assoc]
    exact (lex_punctuation ht _).2
  rw [render, List.flatMap_append, ← render, ← render, List.append_assoc, ha _ hends,
    hb.cons_punctuation ht rest hrest, Option.map_map]
  simp [Function.comp_def]

/-! ## Numbers are read back -/

/-- Digits are units of words. -/
theorem isWordUnit_of_isDigit {u : UInt16} (h : isDigit u = true) : isWordUnit u = true := by
  simp [isWordUnit, h]

/-- The units of a numeral are those of a word. -/
theorem isWordUnit_of_mem_numeral {whole fraction : JsString} {exponent : Option ℤ}
    (hwhole : ∀ u ∈ whole, isDigit u = true) (hfraction : ∀ u ∈ fraction, isDigit u = true)
    {u : UInt16} (hu : u ∈ numeral whole fraction exponent) : isWordUnit u = true := by
  rcases List.mem_append.mp hu with hu | hu
  · exact isWordUnit_of_isDigit (hwhole u hu)
  rcases List.mem_append.mp hu with hu | hu
  · unfold fractionText at hu
    split_ifs at hu
    · cases hu
    · rcases List.mem_cons.mp hu with rfl | hu
      · decide
      · exact isWordUnit_of_isDigit (hfraction u hu)
  · cases exponent with
    | none => cases hu
    | some e =>
        rcases List.mem_cons.mp hu with rfl | hu
        · decide
        · rcases List.mem_cons.mp hu with rfl | hu
          · split_ifs <;> decide
          · exact isWordUnit_of_isDigit (isDigit_of_mem_decimal hu)

/-- So are those of a positive number. -/
theorem isWordUnit_of_mem_positiveText {s : ℕ} {z : ℤ} {u : UInt16} (hu : u ∈ positiveText s z) :
    isWordUnit u = true := by
  have hall : ∀ v ∈ decimal s, isDigit v = true := fun v hv => isDigit_of_mem_decimal hv
  have hzeros : ∀ k, ∀ v ∈ List.replicate k (unit '0'), isDigit v = true := fun k v hv => by
    rw [List.eq_of_mem_replicate hv]
    decide
  unfold positiveText at hu
  dsimp only at hu
  split_ifs at hu
  · refine isWordUnit_of_mem_numeral (fun v hv => ?_) (by simp) hu
    exact (List.mem_append.mp hv).elim (hall v) (hzeros _ v)
  · exact isWordUnit_of_mem_numeral (fun v hv => hall v (List.mem_of_mem_take hv))
      (fun v hv => hall v (List.mem_of_mem_drop hv)) hu
  · refine isWordUnit_of_mem_numeral (List.all_eq_true.mp (by decide)) (fun v hv => ?_) hu
    exact (List.mem_append.mp hv).elim (hzeros _ v) (hall v)
  · exact isWordUnit_of_mem_numeral (fun v hv => hall v (List.mem_of_mem_take hv))
      (fun v hv => hall v (List.mem_of_mem_drop hv)) hu

/-- those of a magnitude. -/
theorem isWordUnit_of_mem_magnitudeText {p : ℚ} {u : UInt16} (hu : u ∈ magnitudeText p) :
    isWordUnit u = true := by
  unfold magnitudeText at hu
  split at hu
  · exact isWordUnit_of_mem_positiveText hu
  · cases hu

/-- and those of any number. -/
theorem isWordUnit_of_mem_numberText {x : Double} {u : UInt16} (hu : u ∈ numberText x) :
    isWordUnit u = true := by
  unfold numberText at hu
  split_ifs at hu
  · rw [List.mem_singleton.mp hu]
    decide
  · rcases List.mem_cons.mp hu with rfl | hu
    · decide
    · exact isWordUnit_of_mem_magnitudeText hu
  · exact isWordUnit_of_mem_magnitudeText hu

/-- A number is read back. -/
theorem readBack_number (x : Double) : ReadBack [number (some x)] := by
  obtain ⟨q, hvalue, hrounds⟩ := numberValue_numberText x
  have hliteral : ∀ {literal : JsString}, numberValue literal = none → numberText x ≠ literal := by
    rintro literal hnone rfl
    rw [hnone] at hvalue
    cases hvalue
  have hback : wordToken? (numberText x) = some (number (some x)) := by
    rw [wordToken?, if_neg (hliteral rfl), if_neg (hliteral rfl), if_neg (hliteral rfl), hvalue,
      Option.map_some, Double.ofRat?_eq hrounds]
  cases htext : numberText x with
  | nil =>
      rw [htext] at hvalue
      cases hvalue
  | cons u us => exact readBack_word htext (fun v hv => isWordUnit_of_mem_numberText hv) hback

/-- The word `null` is read back. -/
theorem readBack_null : ReadBack [null] := readBack_word rfl (List.all_eq_true.mp (by decide)) rfl

/-- A boolean is read back. -/
theorem readBack_bool (b : Bool) : ReadBack [bool b] := by
  cases b with
  | true => exact readBack_word rfl (List.all_eq_true.mp (by decide)) rfl
  | false => exact readBack_word rfl (List.all_eq_true.mp (by decide)) rfl

end JsonToken

/-! ## Values are read back -/

namespace JsValue

open JsonToken

/-- Parts between commas are read back. -/
theorem readBack_commas {parts : List (List JsonToken)} {close : JsonToken}
    (hclose : isPunctuation close = true) (h : ∀ part ∈ parts, ReadBack part) :
    ReadBack (commas parts ++ [close]) := by
  have hlast : ∀ {part : List JsonToken}, ReadBack part → ReadBack (part ++ [close]) :=
    fun hpart => hpart.append hclose readBack_nil
  fun_induction commas parts with
  | case1 => exact hlast readBack_nil
  | case2 part => exact hlast (h part List.mem_cons_self)
  | case3 part next parts ih =>
      rw [List.append_assoc, List.cons_append]
      exact (h part List.mem_cons_self).append rfl
        (ih fun other hother => h other (List.mem_cons_of_mem _ hother))

/-- The tokens of a value take the reader from where a value may begin to what follows it. -/
def Parses (tokens : List JsonToken) (value : JsValue) : Prop :=
  ∀ stack mode, mode = .value ∨ mode = .firstItem →
    tokens.foldlM parseStep (stack, mode) = some (stack, .after value)

/-- A token that is a value by itself. -/
theorem parses_single {t : JsonToken} {value : JsValue}
    (h : ∀ stack, begin stack t = some (stack, .after value)) (ht : t ≠ closeArray) :
    Parses [t] value := by
  rintro stack mode (rfl | rfl)
  · simp [parseStep, h]
  · cases t <;> first | exact absurd rfl ht | simp [parseStep, h]

/-- **Items are read one after the other.** -/
theorem parses_items {tokens : JsValue → List JsonToken} {items : List JsValue}
    (hne : items ≠ []) (h : ∀ v ∈ items, Parses (tokens v) v) (before : List JsValue)
    (stack : List JsonFrame) {mode : ParseMode} (hmode : mode = .value ∨ mode = .firstItem) :
    (commas (items.map tokens) ++ [closeArray]).foldlM parseStep (.array before :: stack, mode) =
      some (stack, .after (.array (before.reverse ++ items))) := by
  induction items generalizing before mode with
  | nil => exact absurd rfl hne
  | cons v items ih =>
      have hv := h v List.mem_cons_self (.array before :: stack) mode hmode
      cases items with
      | nil =>
          rw [List.map_singleton, commas, List.foldlM_append, hv]
          simp [parseStep, follow]
      | cons w items =>
          have hrest := ih (List.cons_ne_nil _ _) (fun u hu => h u (List.mem_cons_of_mem _ hu))
            (v :: before) (.inl rfl)
          rw [List.map_cons, List.map_cons, commas, List.append_assoc, List.foldlM_append, hv]
          rw [List.map_cons, List.reverse_cons, List.append_assoc] at hrest
          exact hrest

/-- A new key goes to the end. -/
theorem setField_of_notMem {fields : List (JsString × JsValue)} {key : JsString} (value : JsValue)
    (h : key ∉ fields.map Prod.fst) : setField key value fields = fields ++ [(key, value)] := by
  induction fields with
  | nil => rfl
  | cons field fields ih =>
      rw [List.map_cons, List.mem_cons, not_or] at h
      rw [setField, if_neg (Ne.symm h.1), ih h.2, List.cons_append]

/-- **Fields are read one after the other.** -/
theorem parses_fields {tokens : JsString × JsValue → List JsonToken}
    {fields : List (JsString × JsValue)} (hne : fields ≠ [])
    (h : ∀ f ∈ fields, Parses (tokens f) f.2)
    (before : List (JsString × JsValue)) (hkeys : ((before ++ fields).map Prod.fst).Nodup)
    (stack : List JsonFrame) {mode : ParseMode}
    (hmode : mode = .key before ∨ (mode = .firstKey ∧ before = [])) :
    (commas (fields.map fun f => .string f.1 :: .colon :: tokens f) ++ [closeObject]).foldlM
      parseStep (stack, mode) = some (stack, .after (.object (before ++ fields))) := by
  induction fields generalizing before mode with
  | nil => exact absurd rfl hne
  | cons f fields ih =>
      have hkey : (JsonToken.string f.1 :: .colon :: tokens f).foldlM parseStep (stack, mode) =
          some (.object before f.1 :: stack, .after f.2) := by
        have hvalue := h f List.mem_cons_self (.object before f.1 :: stack) .value (.inl rfl)
        rcases hmode with rfl | ⟨rfl, rfl⟩
        · exact hvalue
        · exact hvalue
      have hfield : setField f.1 f.2 before = before ++ [f] := by
        refine setField_of_notMem f.2 fun hmem => ?_
        rw [List.map_append, List.map_cons] at hkeys
        exact List.disjoint_of_nodup_append hkeys hmem List.mem_cons_self
      cases fields with
      | nil =>
          rw [List.map_singleton, commas, List.foldlM_append, hkey]
          simp [parseStep, follow, hfield]
      | cons g fields =>
          have hrest := ih (List.cons_ne_nil _ _) (fun f hf => h f (List.mem_cons_of_mem _ hf))
            (before ++ [f]) (by simpa using hkeys) (.inl rfl)
          rw [List.map_cons, List.map_cons, commas, List.append_assoc, List.foldlM_append, hkey]
          rw [List.map_cons, List.append_assoc, ← hfield] at hrest
          exact hrest

/-- The items of an array, one by one. -/
theorem serializeItems_eq (items : List JsValue) :
    serializeItems items = items.map fun v => (serialize v).getD [.null] := by
  induction items with
  | nil => rfl
  | cons v items ih => rw [serializeItems, ih, List.map_cons]

/-- The fields of an object, one by one. -/
theorem serializeFields_eq {fields : List (JsString × JsValue)}
    (h : ∀ f ∈ fields, ∃ tokens, serialize f.2 = some tokens) :
    serializeFields fields =
      fields.map fun f => .string f.1 :: .colon :: (serialize f.2).getD [.null] := by
  induction fields with
  | nil => rfl
  | cons f fields ih =>
      obtain ⟨tokens, htokens⟩ := h f List.mem_cons_self
      rw [serializeFields, htokens, List.map_cons, htokens,
        ih fun g hg => h g (List.mem_cons_of_mem _ hg)]
      rfl

/-- **The tokens of a value** are read back from their text, and they are read as the value. -/
theorem IsJson.serialize_spec {v : JsValue} (h : IsJson v) :
    ∃ tokens, serialize v = some tokens ∧ ReadBack tokens ∧ Parses tokens v := by
  induction h with
  | null => exact ⟨_, rfl, readBack_null, parses_single (fun _ => rfl) (by simp)⟩
  | bool b => exact ⟨_, rfl, readBack_bool b, parses_single (fun _ => rfl) (by simp)⟩
  | number x => exact ⟨_, rfl, readBack_number x, parses_single (fun _ => rfl) (by simp)⟩
  | string text =>
      exact ⟨_, rfl, readBack_nil.cons_string, parses_single (fun _ => rfl) (by simp)⟩
  | @array items _ ih =>
      have htokens : ∀ v ∈ items, ReadBack ((serialize v).getD [.null]) ∧
          Parses ((serialize v).getD [.null]) v := fun v hv => by
        obtain ⟨tokens, htokens, hread, hparse⟩ := ih v hv
        rw [htokens]
        exact ⟨hread, hparse⟩
      refine ⟨_, rfl, ?_, ?_⟩
      · refine ReadBack.cons_punctuation rfl (readBack_commas rfl fun part hpart => ?_)
        rw [serializeItems_eq] at hpart
        obtain ⟨v, hv, rfl⟩ := List.mem_map.mp hpart
        exact (htokens v hv).1
      · rw [serializeItems_eq]
        rintro stack mode hmode
        have hopen : parseStep (stack, mode) .openArray =
            some (JsonFrame.array [] :: stack, .firstItem) := by
          rcases hmode with rfl | rfl <;> rfl
        rw [List.foldlM_cons, hopen]
        rcases eq_or_ne items [] with rfl | hne
        · rfl
        · exact parses_items hne (fun v hv => (htokens v hv).2) [] stack (.inr rfl)
  | @object fields _ hkeys ih =>
      have htokens : ∀ f ∈ fields, ReadBack ((serialize f.2).getD [.null]) ∧
          Parses ((serialize f.2).getD [.null]) f.2 := fun f hf => by
        obtain ⟨tokens, htokens, hread, hparse⟩ := ih f hf
        rw [htokens]
        exact ⟨hread, hparse⟩
      have hfields := serializeFields_eq fun f hf => (ih f hf).imp fun _ h => h.1
      refine ⟨_, rfl, ?_, ?_⟩
      · refine ReadBack.cons_punctuation rfl (readBack_commas rfl fun part hpart => ?_)
        rw [hfields] at hpart
        obtain ⟨f, hf, rfl⟩ := List.mem_map.mp hpart
        exact ((htokens f hf).1.cons_punctuation rfl).cons_string
      · rw [hfields]
        rintro stack mode hmode
        have hopen : parseStep (stack, mode) .openObject = some (stack, .firstKey) := by
          rcases hmode with rfl | rfl <;> rfl
        rw [List.foldlM_cons, hopen]
        rcases eq_or_ne fields [] with rfl | hne
        · rfl
        · exact parses_fields hne (fun f hf => (htokens f hf).2) [] hkeys stack (.inr ⟨rfl, rfl⟩)

/-- **What JSON has is read back as it was written.** -/
theorem parse_stringify {v : JsValue} (h : IsJson v) :
    ∃ text, stringify v = some text ∧ parse text = some v := by
  obtain ⟨tokens, htokens, hread, hparse⟩ := h.serialize_spec
  refine ⟨render tokens, by rw [stringify, htokens]; rfl, ?_⟩
  have hlex : lex .start (render tokens) = some tokens := by
    have hread' := hread [] (by simp [EndsWord])
    rw [List.append_nil] at hread'
    simpa [lex] using hread'
  rw [parse, hlex, Option.bind_some, parseTokens, hparse [] .value (.inl rfl)]

end JsValue

end ApiWhatsApp.Library
