import ApiWhatsApp.Library.Delimited
import ApiWhatsApp.Media.Configuration

/-!
# Signed requests to the S3 storage

`media/media-s3-signature.ts` and the requests of `media/media-s3-storage.service.ts`. A request is
signed by way of two texts: the canonical request, and the string to sign, which has its hash.

* `createS3SignedHeaders` is the signature, with the hashes as parameters; `S3Operation.request` is
  what the storage signs to put, delete or look for something.
* **`stringToSign_eq_iff`** — the string to sign is that of one request, up to the order of its query
  and of its headers, and the white space in their values.
* **`s3_operation_signed`** — so a signature of the storage is good for one operation: nobody can put
  another content, or delete, with the signature of a request that puts an object.

`Object.entries` has array indices first; they are the same in lower case, so that their place does not
matter.
-/

namespace ApiWhatsApp

open Library

/-! ## Records of strings -/

/-- A `Record<string, string>`: its properties in the order in which they were set. -/
structure StringRecord where
  entries : List (String × String)
  nodup : (entries.map Prod.fst).Nodup

namespace StringRecord

/-- `{}`. -/
def empty : StringRecord where
  entries := []
  nodup := List.nodup_nil

/-- `record[name]`. -/
def get? (record : StringRecord) (name : String) : Option String :=
  (record.entries.find? fun e => e.1 = name).map Prod.snd

/-- `Object.keys(record)`. -/
def names (record : StringRecord) : List String := record.entries.map Prod.fst

/-- A property with another value, if it is this one. -/
def renew (name value : String) (e : String × String) : String × String :=
  if e.1 = name then (name, value) else e

/-- The name of an entry stays. -/
@[simp] theorem fst_renew (name value : String) (e : String × String) : (renew name value e).1 = e.1 := by
  unfold renew
  split_ifs with h
  · exact h.symm
  · rfl

/-- `{ ...record, name: value }`: a property that is there keeps its place. -/
def set (record : StringRecord) (name value : String) : StringRecord where
  entries :=
    if name ∈ record.names then record.entries.map (renew name value)
    else record.entries ++ [(name, value)]
  nodup := by
    split_ifs with h
    · rw [List.map_map]
      exact (List.map_congr_left fun e _ => fst_renew name value e) ▸ record.nodup
    · rw [List.map_append]
      exact List.nodup_append_comm.mp (List.nodup_cons.mpr ⟨h, record.nodup⟩)

/-- `record[name] = value`, which `Object.prototype` takes for the name `__proto__`. -/
def assign (record : StringRecord) (name value : String) : StringRecord :=
  if name = "__proto__" then record else record.set name value

variable {record record' : StringRecord} {name other value value' : String}

/-- Nothing is set in the empty record. -/
@[simp] theorem get?_empty : empty.get? name = none := rfl

/-- A name is listed just when it has a value. -/
theorem mem_names : name ∈ record.names ↔ ∃ value, record.get? name = some value := by
  simp only [names, get?, List.mem_map, Option.map_eq_some_iff]
  constructor
  · rintro ⟨e, he, rfl⟩
    obtain ⟨e', he'⟩ := Option.isSome_iff_exists.mp
      (List.find?_isSome.mpr ⟨e, he, decide_eq_true rfl⟩ :
        (record.entries.find? fun e' => e'.1 = e.1).isSome)
    exact ⟨e'.2, e', he', rfl⟩
  · rintro ⟨value, e, he, -⟩
    exact ⟨e, List.mem_of_find?_eq_some he, by simpa using List.find?_some he⟩

/-- A value that is set is read, and the others stay. -/
theorem get?_set : (record.set name value).get? other =
    if other = name then some value else record.get? other := by
  unfold get? set
  dsimp only
  by_cases hmem : name ∈ record.names
  · rw [if_pos hmem, List.find?_map, Option.map_map]
    have hp : ((fun e : String × String => decide (e.1 = other)) ∘ renew name value) =
        fun e => decide (e.1 = other) := by
      funext e
      rw [Function.comp_apply, fst_renew]
    rw [hp]
    cases hfind : record.entries.find? fun e => decide (e.1 = other) with
    | none =>
        rw [if_neg]
        · rfl
        · rintro rfl
          obtain ⟨value', hvalue⟩ := mem_names.mp hmem
          rw [get?, hfind] at hvalue
          cases hvalue
    | some e =>
        have he : e.1 = other := by simpa using List.find?_some hfind
        rw [Option.map_some, Option.map_some, Function.comp_apply, renew, he]
        split_ifs <;> rfl
  · rw [if_neg hmem, List.find?_append]
    by_cases heq : other = name
    · have hnone : (record.entries.find? fun e => e.1 = other) = none := by
        refine List.find?_eq_none.mpr fun e he hsame => hmem ?_
        rw [← heq, ← of_decide_eq_true hsame]
        exact List.mem_map_of_mem he
      rw [hnone, if_pos heq, heq]
      simp
    · rw [if_neg heq, List.find?_singleton, if_neg (by simpa using fun h => heq h.symm), Option.or_none]

/-- After an assignment there is the new value or the old one. -/
theorem get?_assign_cases (h : (record.assign name value).get? other = some value') :
    value' = value ∨ record.get? other = some value' := by
  unfold assign at h
  by_cases hproto : name = "__proto__"
  · rw [if_pos hproto] at h
    exact .inr h
  · rw [if_neg hproto, get?_set] at h
    by_cases hother : other = name
    · rw [if_pos hother] at h
      exact .inl (Option.some.inj h).symm
    · rw [if_neg hother] at h
      exact .inr h

/-- Other names than `__proto__` are assigned as they are set. -/
theorem get?_assign (h : name ≠ "__proto__") : (record.assign name value).get? other =
    if other = name then some value else record.get? other := by
  rw [assign, if_neg h, get?_set]

/-- Only the name that is set is new. -/
theorem mem_names_set : other ∈ (record.set name value).names ↔ other = name ∨ other ∈ record.names := by
  rw [mem_names, mem_names, get?_set]
  split_ifs with h
  · exact iff_of_true ⟨value, rfl⟩ (.inl h)
  · exact (or_iff_right h).symm

/-- Records with the same values have the same names. -/
theorem perm_names (h : ∀ name, record.get? name = record'.get? name) :
    record.names.Perm record'.names := by
  refine (List.perm_ext_iff_of_nodup record.nodup record'.nodup).mpr fun name => ?_
  rw [← names, ← names, mem_names, mem_names, h]

end StringRecord

/-! ## The signature -/

/-- What a signature reads of a `URL`. -/
structure S3Url where
  host : String
  pathname : String
  searchParams : List (String × String)

/-- Source: `interface S3SignatureInput`. -/
structure S3SignatureInput where
  method : String
  url : S3Url
  region : String
  accessKeyId : String
  secretAccessKey : String
  payloadHash : String
  date : Time
  headers : Option StringRecord
  sessionToken : Option String

/-- The functions of `node:crypto` that sign. -/
structure S3Hashing where
  sha256Hex : String → String
  /-- Source: `hashFile`, of the content of a file. -/
  hashFile : List UInt8 → String
  hmac : ByteArray → String → ByteArray
  hmacHex : ByteArray → String → String

/-- Source: `interface S3SignedHeaders`. -/
structure S3SignedHeaders where
  headers : StringRecord
  authorization : String

/-- The matches of `[:-]` and `\.\d{3}` are dropped; `skip` characters are left of such a match. -/
def dropPunctuation : ℕ → List Char → List Char
  | _, [] => []
  | skip + 1, _ :: cs => dropPunctuation skip cs
  | 0, c :: cs =>
      if c = ':' || c = '-' then dropPunctuation 0 cs
      else if c = '.' && (cs.take 3).length = 3 && (cs.take 3).all Char.isDigit then
        dropPunctuation 3 cs
      else c :: dropPunctuation 0 cs

/-- Source: `formatAmzDate`. -/
def formatAmzDate (date : Time) : String := String.ofList (dropPunctuation 0 (toISOString date).toList)

example : formatAmzDate 1709210096789 = "20240229T123456Z" := by decide

/-- `/^[A-Za-z0-9._~-]$/`. -/
def isUnreserved (c : Char) : Bool := c.isAlphanum || c = '.' || c = '_' || c = '~' || c = '-'

/-- Source: `awsUriEncode`. -/
def awsUriEncode (value : String) : String := percentEncode isUnreserved value

/-- The comparison of `canonicalQuery`: by names, then by values. -/
def queryLe (a b : String × String) : Prop :=
  if a.1 ≠ b.1 then unitsLe a.1 b.1 else unitsLe a.2 b.2

/-- Names are compared first, then values. -/
instance : DecidableRel queryLe := fun a b =>
  inferInstanceAs (Decidable (if a.1 ≠ b.1 then unitsLe a.1 b.1 else unitsLe a.2 b.2))

/-- Source: `canonicalQuery`. -/
def canonicalQuery (url : S3Url) : String :=
  "&".intercalate
    (((url.searchParams.map fun p => (awsUriEncode p.1, awsUriEncode p.2)).insertionSort queryLe).map
      fun p => p.1 ++ "=" ++ p.2)

/-- `.replace(/\s+/g, " ")`; whether the white space has begun before. -/
def collapseSpace : Bool → List Char → List Char
  | _, [] => []
  | inside, c :: cs =>
      if isStrWhiteSpace c then
        if inside then collapseSpace true cs else ' ' :: collapseSpace true cs
      else c :: collapseSpace false cs

/-- The value of a header, as it is signed. -/
def normalizeValue (value : String) : String := String.ofList (collapseSpace false (trim value).toList)

/-- Source: `normalizeHeaders`. -/
def normalizeHeaders (headers : StringRecord) : StringRecord :=
  headers.entries.foldl (fun normalized e => normalized.assign (toLowerCase e.1) (normalizeValue e.2))
    .empty

namespace S3SignatureInput

variable (input : S3SignatureInput)

/-- The date as the requests have it. -/
def amzDate : String := formatAmzDate input.date

/-- The headers that are given, with those of the signature. -/
def allHeaders : StringRecord :=
  let headers := (((input.headers.getD .empty).set "host" input.url.host).set "x-amz-content-sha256"
    input.payloadHash).set "x-amz-date" input.amzDate
  match input.sessionToken with
  | none => headers
  | some token => if token = "" then headers else headers.set "x-amz-security-token" token

/-- The headers that are signed. -/
def signed : StringRecord := normalizeHeaders input.allHeaders

/-- The names of the headers that are signed, in order. -/
def signedHeaderNames : List String := sort input.signed.names

/-- A line of the canonical headers, without its end. -/
def headerLine (name : String) : String := name ++ ":" ++ (input.signed.get? name).getD "undefined"

/-- A line for each header that is signed. -/
def canonicalHeaders : String :=
  String.join (input.signedHeaderNames.map fun name => input.headerLine name ++ "\n")

/-- Source: `signedHeaders`. -/
def signedHeaders : String := ";".intercalate input.signedHeaderNames

/-- The canonical request, line by line. -/
def canonicalRequest : String :=
  "\n".intercalate [toUpperCase input.method, orDefault input.url.pathname "/",
    canonicalQuery input.url, input.canonicalHeaders, input.signedHeaders, input.payloadHash]

/-- The day, the region and the service. -/
def scope : String := slice input.amzDate 8 ++ "/" ++ input.region ++ "/s3/aws4_request"

/-- What the signature is of. -/
def stringToSign (hashing : S3Hashing) : String :=
  "\n".intercalate ["AWS4-HMAC-SHA256", input.amzDate, input.scope,
    hashing.sha256Hex input.canonicalRequest]

/-- The key of the day, the region and the service. -/
def signingKey (hashing : S3Hashing) : ByteArray :=
  let dateKey := hashing.hmac ("AWS4" ++ input.secretAccessKey).toUTF8 (slice input.amzDate 8)
  let regionKey := hashing.hmac dateKey input.region
  let serviceKey := hashing.hmac regionKey "s3"
  hashing.hmac serviceKey "aws4_request"

end S3SignatureInput

/-- Source: `createS3SignedHeaders`. -/
def createS3SignedHeaders (hashing : S3Hashing) (input : S3SignatureInput) : S3SignedHeaders where
  headers := input.signed
  authorization := s!"AWS4-HMAC-SHA256 Credential={input.accessKeyId}/{input.scope}," ++
    s!"SignedHeaders={input.signedHeaders}," ++
    s!"Signature={hashing.hmacHex (input.signingKey hashing) (input.stringToSign hashing)}"

/-! ## What the texts are made of -/

/-- A reserved character is not in what is encoded, but for the percent sign. -/
theorem notMem_awsUriEncode {c : Char} (hc : isUnreserved c = false) (hpercent : c ≠ '%')
    (value : String) : c ∉ (awsUriEncode value).toList :=
  notMem_percentEncode (by decide) hc hpercent value

/-- Different texts are encoded differently. -/
theorem awsUriEncode_injective {s t : String} (h : awsUriEncode s = awsUriEncode t) : s = t :=
  percentEncode_injective (by decide) h

/-- White space is collapsed into spaces. -/
theorem isStrWhiteSpace_of_mem_collapseSpace {inside : Bool} {cs : List Char} {c : Char}
    (h : c ∈ collapseSpace inside cs) : c = ' ' ∨ isStrWhiteSpace c = false := by
  induction cs generalizing inside with
  | nil => exact absurd h List.not_mem_nil
  | cons d cs ih =>
      unfold collapseSpace at h
      split_ifs at h with hspace hinside
      · exact ih h
      · rcases List.mem_cons.mp h with rfl | hrest
        · exact .inl rfl
        · exact ih hrest
      · rcases List.mem_cons.mp h with rfl | hrest
        · exact .inr (Bool.eq_false_iff.mpr hspace)
        · exact ih hrest

/-- A header value has no line feed. -/
theorem newline_notMem_normalizeValue (value : String) : '\n' ∉ (normalizeValue value).toList := by
  intro h
  rw [normalizeValue, String.toList_ofList] at h
  rcases isStrWhiteSpace_of_mem_collapseSpace h with hspace | hno
  · exact absurd hspace (by decide)
  · exact absurd hno (by decide)

/-- What is left was there before. -/
theorem mem_of_mem_dropPunctuation {skip : ℕ} {cs : List Char} {c : Char}
    (h : c ∈ dropPunctuation skip cs) : c ∈ cs := by
  induction cs generalizing skip with
  | nil =>
      rw [dropPunctuation] at h
      exact absurd h List.not_mem_nil
  | cons d cs ih =>
      cases skip with
      | succ skip => exact List.mem_cons_of_mem _ (ih h)
      | zero =>
          unfold dropPunctuation at h
          split_ifs at h
          · exact List.mem_cons_of_mem _ (ih h)
          · exact List.mem_cons_of_mem _ (ih h)
          · rcases List.mem_cons.mp h with rfl | hrest
            · exact List.mem_cons_self
            · exact List.mem_cons_of_mem _ (ih hrest)

/-- A number has no line feed. -/
theorem newline_notMem_padStart (width n : ℕ) : '\n' ∉ (padStart width n).toList := by
  rw [padStart, String.toList_append, String.toList_ofList, List.mem_append, not_or]
  refine ⟨fun h => ?_, notMem_toString_nat rfl n⟩
  cases (List.mem_replicate.mp h).2

/-- A date has no line feed. -/
theorem newline_notMem_toISOString (date : Time) : '\n' ∉ (toISOString date).toList := by
  unfold toISOString
  generalize civilDate (date / 86400000) = civil
  obtain ⟨year, month, day⟩ := civil
  generalize date / 3600000 % 24 = hours
  generalize date / 60000 % 60 = minutes
  generalize date / 1000 % 60 = seconds
  generalize date % 1000 = milliseconds
  dsimp only
  split_ifs <;> simp [String.toList_append, newline_notMem_padStart]

/-- A request date has no line feed. -/
theorem newline_notMem_formatAmzDate (date : Time) : '\n' ∉ (formatAmzDate date).toList := by
  intro h
  rw [formatAmzDate, String.toList_ofList] at h
  exact newline_notMem_toISOString date (mem_of_mem_dropPunctuation h)

/-- What is taken was there before. -/
theorem mem_of_mem_takeUnits {budget : ℕ} {cs : List Char} {c : Char} (h : c ∈ takeUnits budget cs) :
    c ∈ cs := by
  induction cs generalizing budget with
  | nil =>
      rw [takeUnits] at h
      exact absurd h List.not_mem_nil
  | cons d cs ih =>
      unfold takeUnits at h
      dsimp only at h
      split_ifs at h
      · rcases List.mem_cons.mp h with rfl | hrest
        · exact List.mem_cons_self
        · exact List.mem_cons_of_mem _ (ih hrest)
      · exact absurd h List.not_mem_nil
      · rcases List.mem_cons.mp h with rfl | hrest
        · exact List.mem_cons_self
        · exact List.mem_cons_of_mem _ (ih hrest)
      · exact absurd h List.not_mem_nil

/-! ## The query -/

/-- Two query parameters are in order one way or the other. -/
instance : Std.Total queryLe where
  total a b := by
    unfold queryLe
    by_cases h : a.1 = b.1
    · rw [if_neg (not_not.mpr h), if_neg (not_not.mpr h.symm)]
      exact total_of unitsLe a.2 b.2
    · rw [if_pos h, if_pos (Ne.symm h)]
      exact total_of unitsLe a.1 b.1

/-- The order of the query is transitive. -/
instance : IsTrans (String × String) queryLe where
  trans a b c hab hbc := by
    unfold queryLe at hab hbc ⊢
    by_cases h : a.1 = b.1
    · rw [if_neg (not_not.mpr h)] at hab
      by_cases h' : b.1 = c.1
      · rw [if_neg (not_not.mpr h')] at hbc
        rw [if_neg (not_not.mpr (h.trans h'))]
        exact trans_of unitsLe hab hbc
      · rw [if_pos h'] at hbc
        rwa [h, if_pos h']
    · rw [if_pos h] at hab
      by_cases h' : b.1 = c.1
      · rwa [← h', if_pos h]
      · rw [if_pos h'] at hbc
        by_cases hac : a.1 = c.1
        · exact absurd (unitsLe_antisymm hab (hac ▸ hbc)) h
        · rw [if_pos hac]
          exact trans_of unitsLe hab hbc

/-- Parameters that are in order both ways are one. -/
theorem queryLe_antisymm {a b : String × String} (hab : queryLe a b) (hba : queryLe b a) : a = b := by
  unfold queryLe at hab hba
  by_cases h : a.1 = b.1
  · rw [if_neg (not_not.mpr h)] at hab
    rw [if_neg (not_not.mpr h.symm)] at hba
    exact Prod.ext h (unitsLe_antisymm hab hba)
  · rw [if_pos h] at hab
    rw [if_pos (Ne.symm h)] at hba
    exact absurd (unitsLe_antisymm hab hba) h

/-- A parameter, as it is written. -/
def queryPart (p : String × String) : String := p.1 ++ "=" ++ p.2

/-- The codes of a parameter. -/
def queryCodes (p : String × String) : String × String := (awsUriEncode p.1, awsUriEncode p.2)

/-- A parameter is determined by its codes. -/
theorem queryCodes_injective : Function.Injective queryCodes := by
  intro p q h
  exact Prod.ext (awsUriEncode_injective (congrArg Prod.fst h))
    (awsUriEncode_injective (congrArg Prod.snd h))

/-- A parameter is its name, an equals sign and its value. -/
theorem toList_queryPart (p : String × String) :
    (queryPart p).toList = p.1.toList ++ '=' :: p.2.toList := by
  simp [queryPart, String.toList_append]

/-- **The query** is that of the parameters, in any order. -/
theorem canonicalQuery_eq_iff {a b : S3Url} :
    canonicalQuery a = canonicalQuery b ↔ a.searchParams.Perm b.searchParams := by
  have hcodes : ∀ url : S3Url, ∀ e ∈ (url.searchParams.map queryCodes).insertionSort queryLe,
      ∃ p, e = queryCodes p := by
    intro url e he
    obtain ⟨p, -, rfl⟩ := List.mem_map.mp ((List.mem_insertionSort queryLe).mp he)
    exact ⟨p, rfl⟩
  constructor
  · intro h
    have hparts : ∀ url : S3Url,
        ∀ x ∈ ((url.searchParams.map queryCodes).insertionSort queryLe).map queryPart,
          '&' ∉ x.toList ∧ x ≠ "" := by
      intro url x hx
      obtain ⟨e, he, rfl⟩ := List.mem_map.mp hx
      obtain ⟨p, rfl⟩ := hcodes url e he
      constructor
      · rw [toList_queryPart, List.mem_append, List.mem_cons]
        rintro (hname | heq | hvalue)
        · exact notMem_awsUriEncode (by decide) (by decide) _ hname
        · exact absurd heq (by decide)
        · exact notMem_awsUriEncode (by decide) (by decide) _ hvalue
      · intro hempty
        have hlist := congrArg String.toList hempty
        rw [toList_queryPart] at hlist
        exact List.append_ne_nil_of_right_ne_nil _ (List.cons_ne_nil _ _) hlist
    have hlists := @join_inj_of_ne '&' _ _ (fun x hx => (hparts a x hx).1)
      (fun x hx => (hparts b x hx).1) (fun x hx => (hparts a x hx).2) (fun x hx => (hparts b x hx).2) h
    have hsorted : (a.searchParams.map queryCodes).insertionSort queryLe =
        (b.searchParams.map queryCodes).insertionSort queryLe := by
      refine eq_of_map_eq ?_ hlists
      intro e he e' he' heq
      obtain ⟨p, rfl⟩ := hcodes a e he
      obtain ⟨q, rfl⟩ := hcodes b e' he'
      have hlist := congrArg String.toList heq
      rw [toList_queryPart, toList_queryPart] at hlist
      obtain ⟨hname, hvalue⟩ := append_separator_inj
        (notMem_awsUriEncode (by decide) (by decide) _) (notMem_awsUriEncode (by decide) (by decide) _) hlist
      exact Prod.ext (String.toList_inj.mp hname) (String.toList_inj.mp hvalue)
    have hperm := ((List.perm_insertionSort queryLe _).symm.trans (List.Perm.of_eq hsorted)).trans
      (List.perm_insertionSort queryLe _)
    exact (List.map_perm_map_iff queryCodes_injective).mp hperm
  · intro h
    have hsorted : (a.searchParams.map queryCodes).insertionSort queryLe =
        (b.searchParams.map queryCodes).insertionSort queryLe := by
      refine List.Perm.eq_of_pairwise (fun _ _ _ _ hab hba => queryLe_antisymm hab hba)
        (List.pairwise_insertionSort queryLe _) (List.pairwise_insertionSort queryLe _) ?_
      exact ((List.perm_insertionSort queryLe _).trans (h.map _)).trans
        (List.perm_insertionSort queryLe _).symm
    exact congrArg (fun codes => "&".intercalate (codes.map queryPart)) hsorted

/-! ## The canonical request -/

namespace S3SignatureInput

/-- What the `URL` class, the names of methods and headers, and a digest promise. -/
structure WellFormed (input : S3SignatureInput) : Prop where
  method : '\n' ∉ (toUpperCase input.method).toList
  pathname : '\n' ∉ input.url.pathname.toList
  region : '\n' ∉ input.region.toList
  payloadHash : '\n' ∉ input.payloadHash.toList
  names : ∀ name ∈ input.signed.names, ':' ∉ name.toList ∧ '\n' ∉ name.toList

/-- Two inputs are about the same request. -/
structure SameRequest (a b : S3SignatureInput) : Prop where
  method : toUpperCase a.method = toUpperCase b.method
  pathname : orDefault a.url.pathname "/" = orDefault b.url.pathname "/"
  query : a.url.searchParams.Perm b.url.searchParams
  headers : ∀ name, a.signed.get? name = b.signed.get? name
  payloadHash : a.payloadHash = b.payloadHash
  amzDate : a.amzDate = b.amzDate
  region : a.region = b.region

variable {input a b : S3SignatureInput}

/-- The lines of the canonical request. -/
def lines (input : S3SignatureInput) : List String :=
  [toUpperCase input.method, orDefault input.url.pathname "/", canonicalQuery input.url] ++
    (input.signedHeaderNames.map input.headerLine ++ ["", input.signedHeaders, input.payloadHash])

/-- Lines that end where they end are lines that are joined, with an empty one behind them. -/
theorem intercalate_join (lines : List String) {rest : List String} (hrest : rest ≠ []) :
    "\n".intercalate (String.join (lines.map fun line => line ++ "\n") :: rest) =
      "\n".intercalate (lines ++ "" :: rest) := by
  rw [String.intercalate_cons_of_ne_nil hrest]
  induction lines with
  | nil => rw [List.map_nil, String.join_nil, List.nil_append, String.intercalate_cons_of_ne_nil hrest]
  | cons line lines ih =>
      rw [List.map_cons, String.join_cons, List.cons_append, String.intercalate_cons_of_ne_nil (by simp),
        ← ih]
      simp only [String.append_assoc]

/-- The canonical request is made up of its lines. -/
theorem canonicalRequest_eq (input : S3SignatureInput) :
    input.canonicalRequest = "\n".intercalate input.lines := by
  have hcons : ∀ (line : String) (l l' : List String), l ≠ [] → l' ≠ [] →
      "\n".intercalate l = "\n".intercalate l' →
      "\n".intercalate (line :: l) = "\n".intercalate (line :: l') := by
    intro line l l' hl hl' h
    rw [String.intercalate_cons_of_ne_nil hl, String.intercalate_cons_of_ne_nil hl', h]
  have hheaders : input.canonicalHeaders =
      String.join ((input.signedHeaderNames.map input.headerLine).map fun line => line ++ "\n") := by
    rw [canonicalHeaders, List.map_map]
    rfl
  have hjoin := @intercalate_join (input.signedHeaderNames.map input.headerLine)
    [input.signedHeaders, input.payloadHash] (List.cons_ne_nil _ _)
  rw [← hheaders] at hjoin
  exact hcons _ _ _ (by simp) (by simp) (hcons _ _ _ (by simp) (by simp)
    (hcons _ _ _ (by simp) (by simp) hjoin))

/-- A header line is the name, a colon and the value. -/
theorem toList_headerLine (input : S3SignatureInput) (name : String) : (input.headerLine name).toList =
    name.toList ++ ':' :: ((input.signed.get? name).getD "undefined").toList := by
  simp [headerLine, String.toList_append]

/-- What is signed has been normalized. -/
theorem newline_notMem_of_signed {name value : String} (h : input.signed.get? name = some value) :
    '\n' ∉ value.toList := by
  have hfold : ∀ (entries : List (String × String)) (record : StringRecord),
      (∀ name value, record.get? name = some value → '\n' ∉ value.toList) →
      ∀ name value, (entries.foldl (fun normalized e =>
        normalized.assign (toLowerCase e.1) (normalizeValue e.2)) record).get? name = some value →
        '\n' ∉ value.toList := by
    intro entries
    induction entries with
    | nil => exact fun record hrecord => hrecord
    | cons e entries ih =>
        intro record hrecord
        rw [List.foldl_cons]
        refine ih _ fun name value hvalue => ?_
        rcases StringRecord.get?_assign_cases hvalue with rfl | hold
        · exact newline_notMem_normalizeValue e.2
        · exact hrecord name value hold
  exact hfold _ _ (fun _ _ hnone => by cases hnone) name value h

/-- The names that are listed are those of the signed headers. -/
theorem mem_signedHeaderNames {name : String} :
    name ∈ input.signedHeaderNames ↔ name ∈ input.signed.names :=
  mem_sort

/-- No line of the canonical request goes on behind its end. -/
theorem WellFormed.notMem_lines (h : input.WellFormed) : ∀ line ∈ input.lines, '\n' ∉ line.toList := by
  have hquery : '\n' ∉ (canonicalQuery input.url).toList := by
    intro hmem
    rcases @mem_join '&' _ _ hmem with heq | ⟨part, hpart, hmem⟩
    · exact absurd heq (by decide)
    · obtain ⟨e, he, rfl⟩ := List.mem_map.mp hpart
      obtain ⟨p, -, rfl⟩ := List.mem_map.mp ((List.mem_insertionSort queryLe).mp he)
      rw [← queryPart, toList_queryPart, List.mem_append, List.mem_cons] at hmem
      rcases hmem with hname | heq | hvalue
      · exact notMem_awsUriEncode (by decide) (by decide) _ hname
      · exact absurd heq (by decide)
      · exact notMem_awsUriEncode (by decide) (by decide) _ hvalue
  have hpath : '\n' ∉ (orDefault input.url.pathname "/").toList := by
    unfold orDefault
    split_ifs
    · decide
    · exact h.pathname
  have hheader : ∀ name ∈ input.signedHeaderNames, '\n' ∉ (input.headerLine name).toList := by
    intro name hname
    have hmem := mem_signedHeaderNames.mp hname
    obtain ⟨value, hvalue⟩ := StringRecord.mem_names.mp hmem
    rw [toList_headerLine, hvalue, Option.getD_some, List.mem_append, List.mem_cons]
    rintro (hin | heq | hin)
    · exact (h.names name hmem).2 hin
    · exact absurd heq (by decide)
    · exact newline_notMem_of_signed hvalue hin
  have hnames : '\n' ∉ input.signedHeaders.toList := by
    intro hmem
    rcases @mem_join ';' _ _ hmem with heq | ⟨name, hname, hmem⟩
    · exact absurd heq (by decide)
    · exact (h.names name (mem_signedHeaderNames.mp hname)).2 hmem
  intro line hline
  simp only [lines, List.mem_append, List.mem_cons, List.not_mem_nil, or_false] at hline
  rcases hline with (rfl | rfl | rfl) | hline | rfl | rfl | rfl
  · exact h.method
  · exact hpath
  · exact hquery
  · obtain ⟨name, hname, rfl⟩ := List.mem_map.mp hline
    exact hheader name hname
  · exact List.not_mem_nil
  · exact hnames
  · exact h.payloadHash

/-- The lines of the headers tell what is signed. -/
theorem get?_eq_of_headerLines (ha : a.WellFormed) (hb : b.WellFormed)
    (h : a.signedHeaderNames.map a.headerLine = b.signedHeaderNames.map b.headerLine) (name : String) :
    a.signed.get? name = b.signed.get? name := by
  have hsub : ∀ {a b : S3SignatureInput}, a.WellFormed → b.WellFormed →
      a.signedHeaderNames.map a.headerLine = b.signedHeaderNames.map b.headerLine →
      ∀ {name value}, a.signed.get? name = some value → b.signed.get? name = some value := by
    intro a b ha hb h name value hvalue
    have hname := StringRecord.mem_names.mpr ⟨value, hvalue⟩
    have hline : a.headerLine name ∈ b.signedHeaderNames.map b.headerLine :=
      h ▸ List.mem_map_of_mem (mem_signedHeaderNames.mpr hname)
    obtain ⟨name', hname', heq⟩ := List.mem_map.mp hline
    have hmem' := mem_signedHeaderNames.mp hname'
    obtain ⟨value', hvalue'⟩ := StringRecord.mem_names.mp hmem'
    have hlist := congrArg String.toList heq
    rw [toList_headerLine, toList_headerLine, hvalue, hvalue', Option.getD_some, Option.getD_some] at hlist
    obtain ⟨hsame, hrest⟩ := append_separator_inj (hb.names name' hmem').1 (ha.names name hname).1 hlist
    rw [← String.toList_inj.mp hsame, hvalue', String.toList_inj.mp hrest]
  refine Option.ext fun value => ⟨hsub ha hb h, hsub hb ha h.symm⟩

/-- **The canonical request** is that of one request. -/
theorem canonicalRequest_eq_iff (ha : a.WellFormed) (hb : b.WellFormed) :
    a.canonicalRequest = b.canonicalRequest ↔
      toUpperCase a.method = toUpperCase b.method ∧
      orDefault a.url.pathname "/" = orDefault b.url.pathname "/" ∧
      a.url.searchParams.Perm b.url.searchParams ∧
      (∀ name, a.signed.get? name = b.signed.get? name) ∧ a.payloadHash = b.payloadHash := by
  constructor
  · intro h
    rw [canonicalRequest_eq, canonicalRequest_eq] at h
    have hlines := @join_inj '\n' _ _ ha.notMem_lines hb.notMem_lines (List.cons_ne_nil _ _)
      (List.cons_ne_nil _ _) h
    simp only [lines, List.cons_append, List.nil_append, List.cons.injEq] at hlines
    obtain ⟨hmethod, hpath, hquery, hrest⟩ := hlines
    obtain ⟨hheaders, hlast⟩ :=
      List.append_inj' hrest (by simp only [List.length_cons, List.length_nil])
    simp only [List.cons.injEq, true_and, and_true] at hlast
    exact ⟨hmethod, hpath, canonicalQuery_eq_iff.mp hquery, get?_eq_of_headerLines ha hb hheaders, hlast.2⟩
  · rintro ⟨hmethod, hpath, hquery, hheaders, hhash⟩
    have hnames : a.signedHeaderNames = b.signedHeaderNames :=
      sort_eq_of_perm (StringRecord.perm_names hheaders)
    have hline : a.headerLine = b.headerLine := by
      funext name
      rw [headerLine, headerLine, hheaders name]
    rw [canonicalRequest, canonicalRequest, hmethod, hpath, canonicalQuery_eq_iff.mpr hquery, hhash,
      canonicalHeaders, canonicalHeaders, signedHeaders, signedHeaders, hnames, hline]

/-- **What is signed.** If the hash does not confuse the two canonical requests, two inputs have the
same string to sign just when they are about the same request: the order of the query, the order and
case of the headers, and the white space in their values do not count, and all else does. -/
theorem stringToSign_eq_iff {hashing : S3Hashing} (ha : a.WellFormed) (hb : b.WellFormed)
    (hcollision : hashing.sha256Hex a.canonicalRequest = hashing.sha256Hex b.canonicalRequest →
      a.canonicalRequest = b.canonicalRequest) :
    a.stringToSign hashing = b.stringToSign hashing ↔ SameRequest a b := by
  have hscope : ∀ input : S3SignatureInput, input.WellFormed → '\n' ∉ input.scope.toList := by
    intro input hinput hmem
    simp only [scope, String.toList_append, List.mem_append] at hmem
    rcases hmem with ((hdate | hslash) | hregion) | hend
    · rw [slice, String.toList_ofList] at hdate
      exact newline_notMem_formatAmzDate _ (mem_of_mem_takeUnits hdate)
    · exact absurd hslash (by decide)
    · exact hinput.region hregion
    · exact absurd hend (by decide)
  constructor
  · intro h
    have hfirst : ∀ input : S3SignatureInput, (input.stringToSign hashing).toList =
        "AWS4-HMAC-SHA256\n".toList ++ (input.amzDate.toList ++ '\n' ::
          (input.scope.toList ++ '\n' :: (hashing.sha256Hex input.canonicalRequest).toList)) := by
      intro input
      simp [stringToSign, String.intercalate_cons_cons, String.toList_append]
    have hlist := congrArg String.toList h
    rw [hfirst, hfirst] at hlist
    obtain ⟨hdate, hlist⟩ := append_separator_inj (newline_notMem_formatAmzDate _)
      (newline_notMem_formatAmzDate _) (List.append_cancel_left hlist)
    obtain ⟨hscopes, hhash⟩ := append_separator_inj (hscope a ha) (hscope b hb) hlist
    have hdate : a.amzDate = b.amzDate := String.toList_inj.mp hdate
    have hregion : a.region = b.region := by
      simp only [scope, hdate, String.toList_append] at hscopes
      exact String.toList_inj.mp (List.append_cancel_left (List.append_cancel_right hscopes))
    obtain ⟨hmethod, hpath, hquery, hheaders, hpayload⟩ :=
      (canonicalRequest_eq_iff ha hb).mp (hcollision (String.toList_inj.mp hhash))
    exact ⟨hmethod, hpath, hquery, hheaders, hpayload, hdate, hregion⟩
  · intro h
    have hrequest := (canonicalRequest_eq_iff ha hb).mpr
      ⟨h.method, h.pathname, h.query, h.headers, h.payloadHash⟩
    rw [stringToSign, stringToSign, hrequest, scope, scope, h.amzDate, h.region]

/-- The digest of the empty text. -/
def emptyDigest : String := "e3b0c44298fc1c149afbf4c8996fb92427ae41e4649b934ca495991b7852b855"

/-- A part of a bucket is listed. -/
def sampleListing (headers : StringRecord) (query : List (String × String)) : S3SignatureInput where
  method := "GET"
  url := ⟨"s3.example.com", "/media-bucket", query⟩
  region := "eu-west-1"
  accessKeyId := "AKIDEXAMPLE"
  secretAccessKey := "a-secret"
  payloadHash := emptyDigest
  date := 1709210096789
  headers := some headers
  sessionToken := none

/-- A hash with the digest of one canonical request. -/
def sampleHashing (canonicalRequest digest : String) : S3Hashing where
  sha256Hex text := if text = canonicalRequest then digest else emptyDigest
  hashFile content :=
    if content = "hello".toUTF8.data.toList then
      "2cf24dba5fb0a30e26e83b2ac5b9e29e1b161e5c1fa7425e73043362938b9824"
    else emptyDigest
  hmac key _ := key
  hmacHex _ _ := ""

/-- A request for the first bytes of an object. -/
def sampleRange : S3SignatureInput :=
  sampleListing (.set .empty "Range" "bytes=0-9") [("prefix", "a b"), ("list-type", "2")]

/-- The same with another range. -/
def sampleRange' : S3SignatureInput :=
  sampleListing (.set .empty "range" " bytes=0-9 ") [("list-type", "2"), ("prefix", "a b")]

/-- The order of a query, the case of a name and the white space of a value do not count. -/
theorem stringToSign_eq_iff_range : SameRequest sampleRange sampleRange' := by
  have hwell : ∀ headers query, (∀ name ∈ (sampleListing headers query).signed.names,
      ':' ∉ name.toList ∧ '\n' ∉ name.toList) → (sampleListing headers query).WellFormed :=
    fun _ _ hnames =>
      { method := (by decide : '\n' ∉ (toUpperCase "GET").toList)
        pathname := (by decide : '\n' ∉ "/media-bucket".toList)
        region := (by decide : '\n' ∉ "eu-west-1".toList)
        payloadHash := (by decide : '\n' ∉ emptyDigest.toList)
        names := hnames }
  have hrange := hwell (.set .empty "Range" "bytes=0-9") [("prefix", "a b"), ("list-type", "2")]
    (by decide)
  have hrange' := hwell (.set .empty "range" " bytes=0-9 ") [("list-type", "2"), ("prefix", "a b")]
    (by decide)
  -- The two differ in the first header only.
  have hentries : sampleRange.allHeaders.entries =
      ("Range", "bytes=0-9") :: sampleRange'.allHeaders.entries.tail := by
    simp [sampleRange, sampleRange', sampleListing, allHeaders, amzDate, StringRecord.set,
      StringRecord.names, StringRecord.empty]
  have hentries' : sampleRange'.allHeaders.entries =
      ("range", " bytes=0-9 ") :: sampleRange'.allHeaders.entries.tail := by
    simp [sampleRange', sampleListing, allHeaders, amzDate, StringRecord.set, StringRecord.names,
      StringRecord.empty]
  have hname : toLowerCase "Range" = toLowerCase "range" := by decide
  have hvalue : normalizeValue "bytes=0-9" = normalizeValue " bytes=0-9 " := by decide
  have hheaders : ∀ name, sampleRange.signed.get? name = sampleRange'.signed.get? name := by
    intro name
    rw [signed, signed, normalizeHeaders, normalizeHeaders, hentries, hentries', List.foldl_cons,
      List.foldl_cons, hname, hvalue, List.tail_cons]
  have hcanonical : sampleRange.canonicalRequest = sampleRange'.canonicalRequest :=
    (canonicalRequest_eq_iff hrange hrange').mpr ⟨rfl, rfl, .swap _ _ _, hheaders, rfl⟩
  have hsame : ∀ hashing, sampleRange.stringToSign hashing = sampleRange'.stringToSign hashing := by
    intro hashing
    rw [stringToSign, stringToSign, hcanonical]
    rfl
  exact (@stringToSign_eq_iff _ _ (sampleHashing sampleRange.canonicalRequest
    "3b2b444bbc869bb0d80e662e3bf8549c5afc95225bee3f8033bb024e6b381265") hrange hrange'
    (fun _ => hcanonical)).mp (hsame _)

end S3SignatureInput

/-! ## The headers of a request that is given none -/

/-- The names that a signature adds. -/
def ownHeaderNames : List String := ["host", "x-amz-content-sha256", "x-amz-date", "x-amz-security-token"]

/-- The service's own header names are in lower case and break no line. -/
theorem ownHeaderNames_lower : ∀ name ∈ ownHeaderNames, toLowerCase name = name ∧
    ':' ∉ name.toList ∧ '\n' ∉ name.toList := by
  decide

/-- Header names are turned to lower case. -/
theorem mem_names_normalizeHeaders {headers : StringRecord} {name : String}
    (h : name ∈ (normalizeHeaders headers).names) : ∃ e ∈ headers.entries, name = toLowerCase e.1 := by
  have hfold : ∀ (entries : List (String × String)) (record : StringRecord),
      name ∈ (entries.foldl (fun normalized e =>
        normalized.assign (toLowerCase e.1) (normalizeValue e.2)) record).names →
      name ∈ record.names ∨ ∃ e ∈ entries, name = toLowerCase e.1 := by
    intro entries
    induction entries with
    | nil => exact fun record hmem => .inl hmem
    | cons e entries ih =>
        intro record hmem
        rw [List.foldl_cons] at hmem
        rw [List.exists_mem_cons_iff]
        rcases ih _ hmem with hrecord | hentries
        · unfold StringRecord.assign at hrecord
          split_ifs at hrecord
          · exact .inl hrecord
          · rcases StringRecord.mem_names_set.mp hrecord with heq | hold
            · exact .inr (.inl heq)
            · exact .inl hold
        · exact .inr (.inr hentries)
  rcases hfold _ _ h with hnone | hentries
  · exact absurd hnone List.not_mem_nil
  · exact hentries

namespace S3SignatureInput

variable {input : S3SignatureInput}

/-- Without further headers there are only the service's own. -/
theorem mem_names_allHeaders (hheaders : input.headers = none) {name : String}
    (h : name ∈ input.allHeaders.names) : name ∈ ownHeaderNames := by
  have hempty : ∀ name, name ∉ StringRecord.empty.names := fun name => List.not_mem_nil
  unfold allHeaders at h
  rw [hheaders, Option.getD_none] at h
  dsimp only at h
  split at h
  · simp only [StringRecord.mem_names_set, hempty, or_false] at h
    simp only [ownHeaderNames, List.mem_cons, List.not_mem_nil, or_false]
    tauto
  · split_ifs at h <;>
      simp only [StringRecord.mem_names_set, hempty, or_false] at h <;>
      simp only [ownHeaderNames, List.mem_cons, List.not_mem_nil, or_false] <;>
      tauto

/-- Without further headers only the service's own are signed. -/
theorem mem_names_signed (hheaders : input.headers = none) {name : String}
    (h : name ∈ input.signed.names) : name ∈ ownHeaderNames := by
  obtain ⟨e, he, rfl⟩ := mem_names_normalizeHeaders h
  have hown := mem_names_allHeaders hheaders (List.mem_map_of_mem he)
  rwa [(ownHeaderNames_lower _ hown).1]

/-- The values of the headers that a signature adds. -/
theorem get?_signed (hheaders : input.headers = none) (htoken : input.sessionToken ≠ some "") :
    input.signed.get? "host" = some (normalizeValue input.url.host) ∧
      input.signed.get? "x-amz-security-token" = input.sessionToken.map normalizeValue := by
  have hlower := fun name hname => (ownHeaderNames_lower name hname).1
  simp only [ownHeaderNames, List.forall_mem_cons] at hlower
  have hentries : input.allHeaders.entries = [("host", input.url.host),
      ("x-amz-content-sha256", input.payloadHash), ("x-amz-date", input.amzDate)] ++
      (input.sessionToken.map fun token => ("x-amz-security-token", token)).toList := by
    unfold allHeaders
    rw [hheaders]
    cases htoken' : input.sessionToken with
    | none => simp [StringRecord.set, StringRecord.names, StringRecord.empty]
    | some token =>
        have hne : token ≠ "" := fun hempty => htoken (by rw [htoken', hempty])
        simp [StringRecord.set, StringRecord.names, StringRecord.empty, hne]
  unfold signed normalizeHeaders
  rw [hentries, List.foldl_append]
  simp only [List.foldl_cons, List.foldl_nil, hlower]
  cases input.sessionToken with
  | none =>
      rw [Option.map_none, Option.toList_none, List.foldl_nil]
      simp [StringRecord.get?_assign]
  | some token =>
      rw [Option.map_some, Option.toList_some, List.foldl_cons, List.foldl_nil]
      simp [StringRecord.get?_assign, hlower]

end S3SignatureInput

/-! ## The requests of the storage -/

/-- What the storage asks for. -/
inductive S3Operation where
  | putObject (key : String) (content : List UInt8)
  | deleteObject (key : String)
  | diagnostics

/-- A character that `encodeURIComponent` keeps. -/
def isUriComponent (c : Char) : Bool := c.isAlphanum || "-_.!~*'()".toList.contains c

/-- `encodeURIComponent(text)`. -/
def encodeURIComponent (text : String) : String := percentEncode isUriComponent text

/-- The path of a key. -/
def keyPath (bucket : String) (segments : List (List Char)) : String :=
  "/" ++ encodeURIComponent bucket ++ "/" ++
    "/".intercalate (segments.map fun segment => encodeURIComponent (String.ofList segment))

namespace S3Operation

/-- The method of the request. -/
def method : S3Operation → String
  | putObject _ _ => "PUT"
  | deleteObject _ => "DELETE"
  | diagnostics => "HEAD"

/-- The hash of its body. -/
def payloadHash (hashing : S3Hashing) : S3Operation → String
  | putObject _ content => hashing.hashFile content
  | _ => hashing.sha256Hex ""

/-- The path of the request. -/
def path (bucket : String) : S3Operation → String
  | putObject key _ => keyPath bucket (key.toList.splitOn '/')
  | deleteObject key => keyPath bucket (key.toList.splitOn '/')
  | diagnostics => "/" ++ encodeURIComponent bucket

/-- Two operations that have the same effect, as far as the hash of a content tells. -/
inductive Same (hashing : S3Hashing) : S3Operation → S3Operation → Prop
  | putObject {key : String} {content content' : List UInt8}
      (h : hashing.hashFile content = hashing.hashFile content') :
      Same hashing (.putObject key content) (.putObject key content')
  | deleteObject (key : String) : Same hashing (.deleteObject key) (.deleteObject key)
  | diagnostics : Same hashing .diagnostics .diagnostics

end S3Operation

/-- A configured storage. -/
structure S3Storage where
  config : EnvironmentConfig.MediaS3Configuration
  /-- `config.endpoint.host`. -/
  host : String

/-- `/^[0-9a-f-]{36}$/i`. -/
def isKeySegment (segment : List Char) : Bool :=
  segment.length = 36 &&
    segment.all fun c => c.isDigit || ('a' ≤ c.toLower && c.toLower ≤ 'f') || c = '-'

namespace S3Storage

variable (storage : S3Storage) (hashing : S3Hashing)

/-- Source: `bucketUrl`. -/
def bucketUrl : S3Url where
  host := storage.host
  pathname := "/" ++ encodeURIComponent storage.config.bucket
  searchParams := []

/-- Source: `objectUrl`. -/
def objectUrl (key : String) : Except String S3Url :=
  let segments := key.toList.splitOn '/'
  if segments.length = 2 && segments.all isKeySegment then
    let encodedKey := "/".intercalate (segments.map fun segment => encodeURIComponent (String.ofList segment))
    .ok ⟨storage.host, "/" ++ encodeURIComponent storage.config.bucket ++ "/" ++ encodedKey, []⟩
  else .error "Invalid server-generated media S3 storage key"

/-- Source: `EMPTY_SHA256`. -/
def emptySha256 : String := hashing.sha256Hex ""

/-- What `signedRequest` signs. -/
def signatureInput (method : String) (url : S3Url) (payloadHash : String) (date : Time) :
    S3SignatureInput where
  method := method
  url := url
  region := storage.config.region
  accessKeyId := storage.config.accessKeyId
  secretAccessKey := storage.config.secretAccessKey
  payloadHash := payloadHash
  date := date
  headers := none
  sessionToken := storage.config.sessionToken

/-- Source: `putObject`, `deleteObject` and `diagnostics`, up to the signature of their request. -/
def request (date : Time) : S3Operation → Except String S3SignatureInput
  | .putObject key content =>
      (storage.objectUrl key).map fun url =>
        storage.signatureInput "PUT" url (hashing.hashFile content) date
  | .deleteObject key =>
      (storage.objectUrl key).map fun url =>
        storage.signatureInput "DELETE" url (emptySha256 hashing) date
  | .diagnostics => .ok (storage.signatureInput "HEAD" storage.bucketUrl (emptySha256 hashing) date)

/-- The configuration is one that the service reads. -/
def Configured : Prop := ∃ host env, EnvironmentConfig.s3Configuration host env = .ok storage.config

variable {storage} {s s' : S3Storage} {hashing}

/-- What is read of the environment. -/
theorem s3Configuration_eq_ok {host : Host} {env : EnvironmentConfig}
    {config : EnvironmentConfig.MediaS3Configuration}
    (h : EnvironmentConfig.s3Configuration host env = .ok config) :
    s3Region config.region = true ∧ config.sessionToken ≠ some "" := by
  unfold EnvironmentConfig.s3Configuration at h
  dsimp only at h
  split at h
  · cases h
  · split at h
    · cases h
    · split_ifs at h with hcredentials hpath hprotocol hbucket hregion hkeys htoken <;>
        cases hread : EnvironmentConfig.readS3Timeout env with
        | error error =>
            rw [hread] at h
            cases h
        | ok timeoutMs =>
            rw [hread] at h
            cases h
            refine ⟨by simpa using hregion, ?_⟩
            first
              | exact fun hnone => by cases hnone
              | exact fun hsome => htoken (Option.some.inj hsome)

/-- A separator of paths and of lines occurs in no code. -/
theorem notMem_encodeURIComponent {c : Char} (hc : isUriComponent c = false) (hpercent : c ≠ '%')
    (text : String) : c ∉ (encodeURIComponent text).toList :=
  notMem_percentEncode (by decide) hc hpercent text

/-- Different texts are encoded as different components. -/
theorem encodeURIComponent_injective {a b : String} (h : encodeURIComponent a = encodeURIComponent b) :
    a = b :=
  percentEncode_injective (by decide) h

/-- The URL of an object is on the host, under the bucket. -/
theorem objectUrl_eq_ok {key : String} {url : S3Url} (h : storage.objectUrl key = .ok url) :
    url = ⟨storage.host, keyPath storage.config.bucket (key.toList.splitOn '/'), []⟩ := by
  unfold objectUrl at h
  dsimp only at h
  split_ifs at h
  cases h
  rfl

/-- A path belongs to one bucket and one key. -/
theorem keyPath_inj {bucket bucket' key key' : String}
    (h : keyPath bucket (key.toList.splitOn '/') = keyPath bucket' (key'.toList.splitOn '/')) :
    bucket = bucket' ∧ key = key' := by
  have hslash : ∀ text, '/' ∉ (encodeURIComponent text).toList :=
    notMem_encodeURIComponent (by decide) (by decide)
  have htext : ∀ (bucket : String) (segments : List (List Char)), (keyPath bucket segments).toList =
      '/' :: ((encodeURIComponent bucket).toList ++ '/' :: ("/".intercalate (segments.map fun segment =>
        encodeURIComponent (String.ofList segment))).toList) := by
    intro bucket segments
    simp [keyPath, String.toList_append]
  have hlist := congrArg String.toList h
  rw [htext, htext] at hlist
  obtain ⟨hbucket, hrest⟩ := append_separator_inj (hslash _) (hslash _) (List.cons.inj hlist).2
  have hmem : ∀ segments : List (List Char), ∀ x ∈ segments.map fun segment =>
      encodeURIComponent (String.ofList segment), '/' ∉ x.toList := by
    intro segments x hx
    obtain ⟨segment, -, rfl⟩ := List.mem_map.mp hx
    exact hslash _
  have hne : ∀ text : String, ((text.toList.splitOn '/').map fun segment =>
      encodeURIComponent (String.ofList segment)) ≠ [] := by
    intro text hnil
    exact List.splitOn_ne_nil _ _ (List.map_eq_nil_iff.mp hnil)
  have hsegments := @join_inj '/' _ _ (hmem _) (hmem _) (hne key) (hne key')
    (String.toList_inj.mp hrest)
  have hsame : key.toList.splitOn '/' = key'.toList.splitOn '/' := by
    refine eq_of_map_eq (fun a _ b _ hab => ?_) hsegments
    exact String.ofList_injective (encodeURIComponent_injective hab)
  refine ⟨encodeURIComponent_injective (String.toList_inj.mp hbucket), String.toList_inj.mp ?_⟩
  calc key.toList = ['/'].intercalate (key.toList.splitOn '/') := (List.intercalate_splitOn '/').symm
    _ = ['/'].intercalate (key'.toList.splitOn '/') := by rw [hsame]
    _ = key'.toList := List.intercalate_splitOn '/'

/-- A path has no line feed. -/
theorem newline_notMem_keyPath (bucket : String) (segments : List (List Char)) :
    '\n' ∉ (keyPath bucket segments).toList := by
  have hnewline : ∀ text, '\n' ∉ (encodeURIComponent text).toList :=
    notMem_encodeURIComponent (by decide) (by decide)
  simp only [keyPath, String.toList_append, List.mem_append, not_or]
  refine ⟨⟨⟨by decide, hnewline bucket⟩, by decide⟩, fun hmem => ?_⟩
  rcases @mem_join '/' _ _ hmem with heq | ⟨x, hx, hmem⟩
  · exact absurd heq (by decide)
  · obtain ⟨segment, -, rfl⟩ := List.mem_map.mp hx
    exact hnewline _ hmem

/-- What the storage signs keeps the promises. -/
theorem wellFormed_signatureInput (hs : storage.Configured) {method payloadHash : String} {url : S3Url}
    {date : Time} (hmethod : '\n' ∉ (toUpperCase method).toList) (hpath : '\n' ∉ url.pathname.toList)
    (hhash : '\n' ∉ payloadHash.toList) :
    (storage.signatureInput method url payloadHash date).WellFormed where
  method := hmethod
  pathname := hpath
  region := by
    obtain ⟨host, env, hconfig⟩ := hs
    have hregion := (s3Configuration_eq_ok hconfig).1
    simp only [s3Region, repeats, Bool.and_eq_true, List.all_eq_true] at hregion
    intro hmem
    exact absurd (hregion.2 _ hmem) (by decide)
  payloadHash := hhash
  names name hname := (ownHeaderNames_lower name (S3SignatureInput.mem_names_signed rfl hname)).2

/-- What a request of the storage signs. -/
theorem request_eq_ok {op : S3Operation} {date : Time} {input : S3SignatureInput}
    (h : storage.request hashing date op = .ok input) :
    ∃ url, input = storage.signatureInput op.method url (op.payloadHash hashing) date ∧
      url.host = storage.host ∧ url.pathname = op.path storage.config.bucket := by
  cases op with
  | putObject key content =>
      cases hurl : storage.objectUrl key with
      | error error =>
          rw [request, hurl] at h
          cases h
      | ok url =>
          rw [request, hurl] at h
          cases h
          exact ⟨url, rfl, by rw [objectUrl_eq_ok hurl], by rw [objectUrl_eq_ok hurl]; rfl⟩
  | deleteObject key =>
      cases hurl : storage.objectUrl key with
      | error error =>
          rw [request, hurl] at h
          cases h
      | ok url =>
          rw [request, hurl] at h
          cases h
          exact ⟨url, rfl, by rw [objectUrl_eq_ok hurl], by rw [objectUrl_eq_ok hurl]; rfl⟩
  | diagnostics =>
      cases h
      exact ⟨_, rfl, rfl, rfl⟩

/-- The path of an operation has no line end. -/
theorem newline_notMem_path (op : S3Operation) (bucket : String) :
    '\n' ∉ (op.path bucket).toList := by
  have hbucket : '\n' ∉ ("/" ++ encodeURIComponent bucket).toList := by
    rw [String.toList_append, List.mem_append, not_or]
    exact ⟨by decide, notMem_encodeURIComponent (by decide) (by decide) _⟩
  cases op with
  | putObject key content => exact newline_notMem_keyPath _ _
  | deleteObject key => exact newline_notMem_keyPath _ _
  | diagnostics => exact hbucket

/-- No path is empty. -/
theorem path_ne_empty (op : S3Operation) (bucket : String) : op.path bucket ≠ "" := by
  have hslash : ∀ text : String, "/" ++ text ≠ "" := by
    intro text h
    have hlist := congrArg String.toList h
    rw [String.toList_append] at hlist
    cases hlist
  cases op with
  | putObject key content =>
      rw [S3Operation.path, keyPath, String.append_assoc, String.append_assoc]
      exact hslash _
  | deleteObject key =>
      rw [S3Operation.path, keyPath, String.append_assoc, String.append_assoc]
      exact hslash _
  | diagnostics => exact hslash _

/-- The methods tell the kinds of operations apart. -/
theorem same_of_method {op op' : S3Operation} {bucket bucket' : String}
    (hmethod : toUpperCase op.method = toUpperCase op'.method)
    (hpath : op.path bucket = op'.path bucket')
    (hpayload : op.payloadHash hashing = op'.payloadHash hashing) :
    S3Operation.Same hashing op op' ∧ bucket = bucket' := by
  have hput : toUpperCase "PUT" = "PUT" := by decide
  have hdelete : toUpperCase "DELETE" = "DELETE" := by decide
  have hhead : toUpperCase "HEAD" = "HEAD" := by decide
  cases op <;> cases op' <;>
    simp only [S3Operation.method, hput, hdelete, hhead] at hmethod <;>
    first
      | exact absurd hmethod (by decide)
      | skip
  case putObject.putObject key content key' content' =>
    obtain ⟨hbucket, rfl⟩ := keyPath_inj hpath
    exact ⟨.putObject hpayload, hbucket⟩
  case deleteObject.deleteObject key key' =>
    obtain ⟨hbucket, rfl⟩ := keyPath_inj hpath
    exact ⟨.deleteObject key, hbucket⟩
  case diagnostics.diagnostics =>
    refine ⟨.diagnostics, encodeURIComponent_injective (String.toList_inj.mp ?_)⟩
    have hlist := congrArg String.toList hpath
    simp only [S3Operation.path, String.toList_append] at hlist
    exact List.append_cancel_left hlist

/-- What an operation signs is well formed, if digests have no line end. -/
theorem wellFormed_request (hs : storage.Configured) (hempty : '\n' ∉ (hashing.sha256Hex "").toList)
    (hfile : ∀ content, '\n' ∉ (hashing.hashFile content).toList) {op : S3Operation} {date : Time}
    {input : S3SignatureInput} (h : storage.request hashing date op = .ok input) : input.WellFormed := by
  obtain ⟨url, rfl, -, hpath⟩ := request_eq_ok h
  have hmethod : ∀ method ∈ ["PUT", "DELETE", "HEAD"], '\n' ∉ (toUpperCase method).toList := by
    decide
  refine wellFormed_signatureInput hs (hmethod _ ?_) (hpath ▸ newline_notMem_path op _) ?_
  · cases op <;> simp [S3Operation.method]
  · cases op with
    | putObject key content => exact hfile content
    | deleteObject key => exact hempty
    | diagnostics => exact hempty

/-- The host and the session are signed. -/
theorem get?_signatureInput (hs : storage.Configured) (method : String) (url : S3Url)
    (payloadHash : String) (date : Time) :
    (storage.signatureInput method url payloadHash date).signed.get? "host" =
        some (normalizeValue url.host) ∧
      (storage.signatureInput method url payloadHash date).signed.get? "x-amz-security-token" =
        storage.config.sessionToken.map normalizeValue := by
  obtain ⟨host, env, hconfig⟩ := hs
  have htoken : (storage.signatureInput method url payloadHash date).sessionToken ≠ some "" :=
    (s3Configuration_eq_ok hconfig).2
  exact S3SignatureInput.get?_signed rfl htoken

/-- What is signed tells the second only. -/
theorem canonicalRequest_signatureInput {date date' : Time}
    (h : formatAmzDate date = formatAmzDate date') (method : String) (url : S3Url)
    (payloadHash : String) :
    (storage.signatureInput method url payloadHash date).canonicalRequest =
      (storage.signatureInput method url payloadHash date').canonicalRequest := by
  have hheaders : (storage.signatureInput method url payloadHash date).allHeaders =
      (storage.signatureInput method url payloadHash date').allHeaders := by
    unfold S3SignatureInput.allHeaders S3SignatureInput.amzDate signatureInput
    rw [h]
  have hsigned : (storage.signatureInput method url payloadHash date).signed =
      (storage.signatureInput method url payloadHash date').signed :=
    congrArg normalizeHeaders hheaders
  unfold S3SignatureInput.canonicalRequest S3SignatureInput.canonicalHeaders
    S3SignatureInput.signedHeaders S3SignatureInput.signedHeaderNames S3SignatureInput.headerLine
  rw [hsigned]
  rfl

end S3Storage

/-- **A signature is good for one operation.** Two requests of the storage, of any two configurations,
operations and times, have the same string to sign only if they ask for the same operation on the same
key of the same bucket, with content of the same hash, at the same second and region, and up to the
white space that `normalizeValue` drops at the same host and in the same session. The hash is one that
tells the two canonical requests apart. -/
theorem s3_operation_signed {hashing : S3Hashing} {s s' : S3Storage} {op op' : S3Operation}
    {date date' : Time} {input input' : S3SignatureInput} (hs : s.Configured) (hs' : s'.Configured)
    (hempty : '\n' ∉ (hashing.sha256Hex "").toList)
    (hfile : ∀ content, '\n' ∉ (hashing.hashFile content).toList)
    (hrequest : s.request hashing date op = .ok input)
    (hrequest' : s'.request hashing date' op' = .ok input')
    (hcollision : hashing.sha256Hex input.canonicalRequest = hashing.sha256Hex input'.canonicalRequest →
      input.canonicalRequest = input'.canonicalRequest)
    (hsame : input.stringToSign hashing = input'.stringToSign hashing) :
    S3Operation.Same hashing op op' ∧ s.config.bucket = s'.config.bucket ∧
      s.config.region = s'.config.region ∧ normalizeValue s.host = normalizeValue s'.host ∧
      s.config.sessionToken.map normalizeValue = s'.config.sessionToken.map normalizeValue ∧
      formatAmzDate date = formatAmzDate date' := by
  have hwell := S3Storage.wellFormed_request hs hempty hfile hrequest
  have hwell' := S3Storage.wellFormed_request hs' hempty hfile hrequest'
  have hrequests := (S3SignatureInput.stringToSign_eq_iff hwell hwell' hcollision).mp hsame
  obtain ⟨url, rfl, hhost, hpath⟩ := S3Storage.request_eq_ok hrequest
  obtain ⟨url', rfl, hhost', hpath'⟩ := S3Storage.request_eq_ok hrequest'
  have hpaths : op.path s.config.bucket = op'.path s'.config.bucket := by
    have hpathname := hrequests.pathname
    simp only [S3Storage.signatureInput, orDefault, hpath, hpath', if_neg (S3Storage.path_ne_empty _ _)]
      at hpathname
    exact hpathname
  obtain ⟨hop, hbucket⟩ := S3Storage.same_of_method hrequests.method hpaths hrequests.payloadHash
  have hsigned := S3Storage.get?_signatureInput hs op.method url (op.payloadHash hashing) date
  have hsigned' := S3Storage.get?_signatureInput hs' op'.method url' (op'.payloadHash hashing) date'
  refine ⟨hop, hbucket, hrequests.region, ?_, ?_, hrequests.amzDate⟩
  · have hheader := hrequests.headers "host"
    rw [hsigned.1, hsigned'.1] at hheader
    rw [← hhost, ← hhost']
    exact Option.some.inj hheader
  · have hheader := hrequests.headers "x-amz-security-token"
    rw [hsigned.2, hsigned'.2] at hheader
    exact hheader

/-- An environment that sets the storage up. -/
def sampleS3Config : EnvironmentConfig := fun name =>
  [("MEDIA_S3_ENDPOINT", "https://s3.example.com"), ("MEDIA_S3_BUCKET", "media-bucket"),
    ("MEDIA_S3_REGION", "eu-west-1"), ("MEDIA_S3_ACCESS_KEY_ID", "AKIDEXAMPLE"),
    ("MEDIA_S3_SECRET_ACCESS_KEY", "a-secret"), ("MEDIA_S3_SESSION_TOKEN", "a-session")].lookup name

/-- An endpoint without a path. -/
def sampleS3Endpoint : ParsedUrl :=
  { protocol := "https:", username := "", password := "", pathname := "/", search := "", hash := "" }

/-- A host on which that endpoint is parsed. -/
def sampleS3Host : Host where
  newUrl text := if text = "https://s3.example.com" then some sampleS3Endpoint else none
  isAbsolute path := path.toList.head? = some '/'
  resolve path := path
  sep := "/"

/-- A storage at that endpoint. -/
def sampleS3Storage : S3Storage where
  config :=
    { endpoint := sampleS3Endpoint, bucket := "media-bucket", region := "eu-west-1",
      accessKeyId := "AKIDEXAMPLE", secretAccessKey := "a-secret", sessionToken := some "a-session",
      timeoutMs := 30000 }
  host := "s3.example.com"

/-- The sample storage is configured. -/
theorem configured_sampleS3Storage : sampleS3Storage.Configured :=
  ⟨sampleS3Host, sampleS3Config, rfl⟩

/-- An object is put. -/
def samplePut (date : Time) : S3SignatureInput :=
  sampleS3Storage.signatureInput "PUT"
    ⟨"s3.example.com",
      "/media-bucket/123e4567-e89b-12d3-a456-426614174000/00000000-0000-4000-8000-000000000001", []⟩
    "2cf24dba5fb0a30e26e83b2ac5b9e29e1b161e5c1fa7425e73043362938b9824" date

/-- A hashing under which the sample body has a hash. -/
def samplePutHashing : S3Hashing :=
  S3SignatureInput.sampleHashing (samplePut 1709210096789).canonicalRequest
    "c34b938c2efdf8e0e23772875c150a192db52a0439588a60106c1bf74109b1ef"

/-- The upload of a small object. -/
def samplePutOperation : S3Operation :=
  .putObject "123e4567-e89b-12d3-a456-426614174000/00000000-0000-4000-8000-000000000001"
    "hello".toUTF8.data.toList

/-- Two signatures of one second are the same. -/
theorem s3_operation_signed_sample :
    S3Operation.Same samplePutHashing samplePutOperation samplePutOperation ∧
      formatAmzDate 1709210096789 = formatAmzDate 1709210096001 := by
  have hfile : ∀ content, '\n' ∉ (samplePutHashing.hashFile content).toList := by
    intro content
    unfold samplePutHashing S3SignatureInput.sampleHashing
    dsimp only
    split_ifs <;> decide
  have hpath : keyPath "media-bucket"
      ("123e4567-e89b-12d3-a456-426614174000/00000000-0000-4000-8000-000000000001".toList.splitOn '/') =
      "/media-bucket/123e4567-e89b-12d3-a456-426614174000/00000000-0000-4000-8000-000000000001" := by
    decide
  have hurl : sampleS3Storage.objectUrl
      "123e4567-e89b-12d3-a456-426614174000/00000000-0000-4000-8000-000000000001" =
      .ok ⟨"s3.example.com",
        "/media-bucket/123e4567-e89b-12d3-a456-426614174000/00000000-0000-4000-8000-000000000001", []⟩ := by
    rw [← hpath, S3Storage.objectUrl]
    dsimp only
    rw [if_pos (by decide)]
    rfl
  have hhash : samplePutHashing.hashFile "hello".toUTF8.data.toList =
      "2cf24dba5fb0a30e26e83b2ac5b9e29e1b161e5c1fa7425e73043362938b9824" := by
    rw [samplePutHashing, S3SignatureInput.sampleHashing]
    dsimp only
    exact if_pos rfl
  have hrequest : ∀ date, sampleS3Storage.request samplePutHashing date samplePutOperation =
      .ok (samplePut date) := by
    intro date
    rw [samplePutOperation, S3Storage.request, hurl, hhash]
    rfl
  have hempty : '\n' ∉ (samplePutHashing.sha256Hex "").toList := by
    unfold samplePutHashing S3SignatureInput.sampleHashing
    dsimp only
    split_ifs <;> decide
  have hdate : formatAmzDate 1709210096789 = formatAmzDate 1709210096001 := by decide
  have hcanonical : (samplePut 1709210096789).canonicalRequest =
      (samplePut 1709210096001).canonicalRequest :=
    S3Storage.canonicalRequest_signatureInput hdate _ _ _
  have hsame : (samplePut 1709210096789).stringToSign samplePutHashing =
      (samplePut 1709210096001).stringToSign samplePutHashing := by
    have hamzDate : (samplePut 1709210096789).amzDate = (samplePut 1709210096001).amzDate := hdate
    rw [S3SignatureInput.stringToSign, S3SignatureInput.stringToSign, hcanonical,
      S3SignatureInput.scope, S3SignatureInput.scope, hamzDate]
    rfl
  have hsigned := s3_operation_signed configured_sampleS3Storage configured_sampleS3Storage
    hempty hfile (hrequest 1709210096789) (hrequest 1709210096001) (fun _ => hcanonical) hsame
  exact ⟨hsigned.1, hsigned.2.2.2.2.2⟩

end ApiWhatsApp
