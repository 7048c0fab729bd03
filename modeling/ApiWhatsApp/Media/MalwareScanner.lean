import ApiWhatsApp.Library.Utf8

/-!
# The reply of the malware scanner

`scanWithClamAv` of `media/media-malware-scanner.service.ts`, from the first byte of the reply to the
end of the connection. The reply comes in chunks, and each chunk may decide the scan: from the first
NUL or line feed on, whatever has arrived is evaluated. A NUL ends the text; a line feed does not, so
what is evaluated after a line feed depends on how far the chunk goes.

* `endsWithOk` and `foundSignature` are the two patterns.
* `finishFromResponse` is the verdict on a text, `evaluateResponse` what a prefix of the reply decides,
  and `scan` the whole exchange.
* `scan_cases` and `scan_take` — a scan comes to what some prefix decides, and any prefix that decides
  may be that one. So all of them have to agree (`Steady`).
* **`scan_independent_iff`** — the result, for every reply. `Plain` says what `Steady` comes to: one
  more byte after a line is no part of an OK or a report (`verdict_of_more`).

Timeouts and errors of the socket end a scan whatever the reply is, so they are left out.
-/

namespace ApiWhatsApp

open Library JsString

/-! ## Texts -/

namespace MalwareScanner

/-- `[A-Za-z0-9_]`. -/
def isWordUnit (u : UInt16) : Bool :=
  (65 ≤ u && u ≤ 90) || (97 ≤ u && u ≤ 122) || (48 ≤ u && u ≤ 57) || u = 95

/-- A letter of a pattern without regard to case; only ASCII letters match one. -/
def lowerUnit (u : UInt16) : UInt16 := if 65 ≤ u && u ≤ 90 then u + 32 else u

/-- The end of a text, without regard to case. -/
def endsWith (text : JsString) (word : String) : Bool :=
  (text.drop (text.length - word.length)).map lowerUnit = ofText word

/-- `/\bOK$/i`. -/
def endsWithOk (text : JsString) : Bool :=
  endsWith text "ok" && !((text.take (text.length - 2)).getLast?.any isWordUnit)

/-- What `.` does not match. -/
def isLineTerminator (u : UInt16) : Bool := u.toNat ∈ [10, 13, 0x2028, 0x2029]

/-- `^\s*(.+)\s+$` and its group: as many spaces as possible come first, then as much as possible. -/
def signature (body : JsString) : Option JsString :=
  let spaces := (body.takeWhile JsString.isWhiteSpace).length
  (List.range (spaces + 1)).reverse.findSome? fun k =>
    let rest := body.drop k
    let length := min (rest.takeWhile fun u => !isLineTerminator u).length (rest.length - 1)
    if 0 < length && (rest.drop length).all JsString.isWhiteSpace then some (rest.take length)
    else none

/-- The first colon from which on the pattern matches. -/
def signatureFrom : JsString → Option JsString
  | [] => none
  | u :: rest => if u = 58 then (signature rest).or (signatureFrom rest) else signatureFrom rest

/-- `/:\s*(.+)\s+FOUND$/i` and its group. -/
def foundSignature (text : JsString) : Option JsString :=
  if endsWith text "found" then signatureFrom (text.take (text.length - 5)) else none

/-! ## Verdicts -/

/-- Source: `MediaMalwareScanErrorReason`. -/
inductive MediaMalwareScanErrorReason where
  | malwareDetected
  | scannerUnavailable
  | scannerError
  | invalidConfiguration
  deriving DecidableEq, Repr

/-- Source: `class MediaMalwareScanError`. -/
structure MediaMalwareScanError where
  reason : MediaMalwareScanErrorReason
  message : JsString
  deriving DecidableEq

/-- Source: `finishFromResponse`. -/
def finishFromResponse (text : JsString) : Except MediaMalwareScanError Unit :=
  if endsWithOk text then .ok ()
  else
    match foundSignature text with
    | some found =>
        .error ⟨.malwareDetected, ofText "Media malware scanner detected prohibited content: " ++ found⟩
    | none =>
        .error ⟨.scannerError,
          if text = [] then ofText "Empty malware scanner response"
          else ofText "Media malware scanner returned an error: " ++ text⟩

/-- Source: `MAX_RESPONSE_BYTES`. -/
def maxResponseBytes : ℕ := 8192

/-- The reply up to its first NUL. -/
def upToNul (response : List UInt8) : List UInt8 := response.takeWhile fun b => b ≠ 0

/-- The text of a reply. -/
def responseText (response : List UInt8) : JsString := (decodeUtf8 (upToNul response)).trim

/-- There is something to evaluate. -/
def isTerminated (response : List UInt8) : Bool := response.any fun b => b = 0 || b = 10

/-- What the reply decides when it has come as far as this; `none` when more has to come.
Source: the handler of `data`, with `evaluateResponse`. -/
def evaluateResponse (response : List UInt8) : Option (Except MediaMalwareScanError Unit) :=
  if maxResponseBytes < response.length then
    some (.error ⟨.scannerError, ofText "Media malware scanner response is too large"⟩)
  else if !isTerminated response then none
  else some (finishFromResponse (responseText response))

/-- Source: the handler of `end`. -/
def finishAtEnd (response : List UInt8) : Except MediaMalwareScanError Unit :=
  let text := JsString.trim ((decodeUtf8 response).filter fun u => u ≠ 0)
  if text = [] then
    .error ⟨.scannerUnavailable,
      ofText "Media malware scanner closed the connection without a response"⟩
  else finishFromResponse text

/-- The exchange, after `response` has come. -/
def scanFrom (response : List UInt8) : List (List UInt8) → Except MediaMalwareScanError Unit
  | [] => finishAtEnd response
  | chunk :: rest =>
      match evaluateResponse (response ++ chunk) with
      | some result => result
      | none => scanFrom (response ++ chunk) rest

/-- Source: `scanWithClamAv`, for a reply in these chunks. -/
def scan (chunks : List (List UInt8)) : Except MediaMalwareScanError Unit := scanFrom [] chunks

/-- The outcome without the message. -/
def outcome (result : Except MediaMalwareScanError Unit) : Except MediaMalwareScanErrorReason Unit :=
  result.mapError MediaMalwareScanError.reason

/-! ## Chunks -/

/-- An end mark stays when more arrives. -/
theorem isTerminated_append {p q : List UInt8} (h : isTerminated p = true) :
    isTerminated (p ++ q) = true := by
  rw [isTerminated, List.any_append, Bool.or_eq_true]
  exact .inl h

/-- An end mark that has arrived stays. -/
theorem isTerminated_take {reply : List UInt8} {m n : ℕ} (hle : m ≤ n)
    (h : isTerminated (reply.take m) = true) : isTerminated (reply.take n) = true := by
  obtain ⟨rest, hrest⟩ := List.take_prefix_take_left hle (l := reply)
  rw [← hrest]
  exact isTerminated_append h

/-- A reply that is too long is an error. -/
theorem evaluateResponse_of_large {response : List UInt8} (h : maxResponseBytes < response.length) :
    (evaluateResponse response).map outcome = some (.error .scannerError) := by
  rw [evaluateResponse, if_pos h]
  rfl

/-- A terminated reply is evaluated. -/
theorem evaluateResponse_of_le {response : List UInt8} (h : response.length ≤ maxResponseBytes)
    (hterminated : isTerminated response = true) :
    evaluateResponse response = some (finishFromResponse (responseText response)) := by
  rw [evaluateResponse, if_neg (not_lt.mpr h), if_neg (by simp [hterminated])]

/-- A prefix that decides nothing is short and has no end. -/
theorem evaluateResponse_eq_none {response : List UInt8} :
    evaluateResponse response = none ↔
      response.length ≤ maxResponseBytes ∧ isTerminated response = false := by
  unfold evaluateResponse
  split_ifs with hlarge hopen
  · simp [not_le.mpr hlarge]
  · simpa [not_lt.mp hlarge] using hopen
  · simpa using fun _ => hopen

/-- A reply that is not over was not over before. -/
theorem evaluateResponse_append {p q : List UInt8} (h : evaluateResponse (p ++ q) = none) :
    evaluateResponse p = none := by
  rw [evaluateResponse_eq_none] at h ⊢
  obtain ⟨hlength, hopen⟩ := h
  rw [List.length_append] at hlength
  refine ⟨by omega, ?_⟩
  by_contra hterminated
  rw [isTerminated_append (by simpa using hterminated)] at hopen
  exact absurd hopen (by decide)

/-- What a scan can come to. -/
theorem scanFrom_cases (chunks : List (List UInt8)) {response : List UInt8}
    (h : evaluateResponse response = none) :
    (evaluateResponse (response ++ chunks.flatten) = none ∧
        scanFrom response chunks = finishAtEnd (response ++ chunks.flatten)) ∨
      ∃ n, evaluateResponse ((response ++ chunks.flatten).take n) = some (scanFrom response chunks) := by
  induction chunks generalizing response with
  | nil =>
      rw [List.flatten_nil, List.append_nil]
      exact .inl ⟨h, rfl⟩
  | cons chunk rest ih =>
      rw [List.flatten_cons, ← List.append_assoc]
      unfold scanFrom
      cases hchunk : evaluateResponse (response ++ chunk) with
      | none => exact ih hchunk
      | some result =>
          refine .inr ⟨(response ++ chunk).length, ?_⟩
          rw [List.take_left, hchunk]

/-- Nothing is evaluated before anything arrives. -/
theorem evaluateResponse_nil : evaluateResponse [] = none := rfl

/-- **The outcome of a scan** is that of the whole reply, when no prefix decides, or of a prefix. -/
theorem scan_cases {chunks : List (List UInt8)} {reply : List UInt8} (h : chunks.flatten = reply) :
    (evaluateResponse reply = none ∧ scan chunks = finishAtEnd reply) ∨
      ∃ n, evaluateResponse (reply.take n) = some (scan chunks) := by
  have hcases := scanFrom_cases chunks evaluateResponse_nil
  rwa [List.nil_append, h] at hcases

/-- Any prefix that decides may be the first chunk. -/
theorem scan_take {reply : List UInt8} {n : ℕ} {result : Except MediaMalwareScanError Unit}
    (h : evaluateResponse (reply.take n) = some result) :
    ∃ chunks, chunks.flatten = reply ∧ scan chunks = result := by
  refine ⟨[reply.take n, reply.drop n], by simp, ?_⟩
  rw [scan, scanFrom, List.nil_append, h]

/-! ## Independence -/

/-- The verdict on what has come of a reply. -/
def verdict (response : List UInt8) : Except MediaMalwareScanErrorReason Unit :=
  outcome (finishFromResponse (responseText response))

/-- All cuts of the reply come to the same outcome. -/
def Independent (reply : List UInt8) : Prop :=
  ∀ chunks chunks', chunks.flatten = reply → chunks'.flatten = reply →
    outcome (scan chunks) = outcome (scan chunks')

/-- A scan that comes out clean has a reply that ends with OK. -/
def CleanOnlyOk (reply : List UInt8) : Prop :=
  ∀ chunks, chunks.flatten = reply → outcome (scan chunks) = .ok () →
    endsWithOk (responseText reply) = true

/-- The condition: of the first 8192 bytes, all parts that may be evaluated have the same verdict, and
when there are more bytes, that of an error of the scanner. -/
def Steady (reply : List UInt8) : Prop :=
  (∀ n ≤ maxResponseBytes, isTerminated (reply.take n) = true →
    verdict (reply.take n) = verdict (reply.take maxResponseBytes)) ∧
  (maxResponseBytes < reply.length → isTerminated (reply.take maxResponseBytes) = true →
    verdict (reply.take maxResponseBytes) = .error .scannerError)

/-- A part that arrives in time is not too long. -/
theorem length_take_max (reply : List UInt8) {n : ℕ} (h : n ≤ maxResponseBytes) :
    (reply.take n).length ≤ maxResponseBytes := (List.length_take_le n reply).trans h

/-- A reply on which chunks make no difference is steady. -/
theorem steady_of_independent {reply : List UInt8} (h : Independent reply) : Steady reply := by
  have hdecides : ∀ n ≤ maxResponseBytes, isTerminated (reply.take n) = true →
      ∃ chunks, chunks.flatten = reply ∧ outcome (scan chunks) = verdict (reply.take n) := by
    intro n hn hterminated
    obtain ⟨chunks, hchunks, hscan⟩ :=
      scan_take (evaluateResponse_of_le (length_take_max reply hn) hterminated)
    exact ⟨chunks, hchunks, congrArg outcome hscan⟩
  refine ⟨fun n hn hterminated => ?_, fun hlarge hterminated => ?_⟩
  · obtain ⟨chunks, hchunks, hscan⟩ := hdecides n hn hterminated
    obtain ⟨chunks', hchunks', hscan'⟩ := hdecides _ le_rfl (isTerminated_take hn hterminated)
    rw [← hscan, ← hscan']
    exact h chunks chunks' hchunks hchunks'
  · obtain ⟨chunks, hchunks, hscan⟩ := hdecides _ le_rfl hterminated
    obtain ⟨result, hresult, herror⟩ := Option.map_eq_some_iff.mp (evaluateResponse_of_large hlarge)
    rw [← List.take_length (l := reply)] at hresult
    obtain ⟨chunks', hchunks', hscan'⟩ := scan_take hresult
    rw [← hscan, ← herror, ← hscan']
    exact h chunks chunks' hchunks hchunks'

/-- Where the verdicts agree, every deciding prefix comes to the outcome of the whole reply. -/
theorem Steady.outcome_eq {reply : List UInt8} (h : Steady reply) {n : ℕ}
    {result result' : Except MediaMalwareScanError Unit}
    (htaken : evaluateResponse (reply.take n) = some result)
    (hwhole : evaluateResponse reply = some result') : outcome result = outcome result' := by
  obtain ⟨hsame, herror⟩ := h
  have hlarge : ∀ {response : List UInt8} {x : Except MediaMalwareScanError Unit},
      evaluateResponse response = some x → maxResponseBytes < response.length →
        outcome x = .error .scannerError := by
    intro response x hx hlength
    have houtcome := evaluateResponse_of_large hlength
    rw [hx] at houtcome
    exact Option.some.inj houtcome
  by_cases htakenLarge : maxResponseBytes < (reply.take n).length
  · have hreply : maxResponseBytes < reply.length := by
      rw [List.length_take] at htakenLarge
      omega
    rw [hlarge htaken htakenLarge, hlarge hwhole hreply]
  have hle := not_lt.mp htakenLarge
  have hterminated : isTerminated (reply.take n) = true := by
    by_contra hopen
    rw [evaluateResponse_eq_none.mpr ⟨hle, by simpa using hopen⟩] at htaken
    cases htaken
  -- As a part of the first 8192 bytes.
  have hshort : reply.take n = reply.take (min n maxResponseBytes) := by
    rw [List.take_eq_take_iff]
    rw [List.length_take] at hle
    omega
  have hverdict : outcome result = verdict (reply.take maxResponseBytes) := by
    rw [evaluateResponse_of_le hle hterminated] at htaken
    rw [← Option.some.inj htaken, ← hsame _ (min_le_right n _) (hshort ▸ hterminated), ← hshort]
    rfl
  have hmax : isTerminated (reply.take maxResponseBytes) = true :=
    isTerminated_take (min_le_right n _) (hshort ▸ hterminated)
  rw [hverdict]
  by_cases hreply : maxResponseBytes < reply.length
  · rw [hlarge hwhole hreply, herror hreply hmax]
  · rw [List.take_of_length_le (not_lt.mp hreply)] at hmax ⊢
    rw [evaluateResponse_of_le (not_lt.mp hreply) hmax] at hwhole
    rw [← Option.some.inj hwhole]
    rfl

/-- A steady reply is one on which chunks make no difference. -/
theorem independent_of_steady {reply : List UInt8} (h : Steady reply) : Independent reply := by
  have hall : ∀ chunks : List (List UInt8), chunks.flatten = reply →
      outcome (scan chunks) = outcome ((evaluateResponse reply).getD (finishAtEnd reply)) := by
    intro chunks hchunks
    cases hwhole : evaluateResponse reply with
    | none =>
        rcases scan_cases hchunks with ⟨-, hscan⟩ | ⟨n, htaken⟩
        · rw [hscan]
          rfl
        · rw [← List.take_append_drop n reply] at hwhole
          rw [evaluateResponse_append hwhole] at htaken
          cases htaken
    | some result =>
        rcases scan_cases hchunks with ⟨hnone, -⟩ | ⟨n, htaken⟩
        · rw [hnone] at hwhole
          cases hwhole
        · exact h.outcome_eq htaken hwhole
  intro chunks chunks' hchunks hchunks'
  rw [hall chunks hchunks, hall chunks' hchunks']

/-- Only an OK comes out clean. -/
theorem endsWithOk_of_finishFromResponse {text : JsString}
    (h : outcome (finishFromResponse text) = .ok ()) : endsWithOk text = true := by
  unfold finishFromResponse at h
  by_cases hok : endsWithOk text = true
  · exact hok
  rw [if_neg hok] at h
  cases hfound : foundSignature text with
  | none =>
      rw [hfound] at h
      cases h
  | some found =>
      rw [hfound] at h
      cases h

/-- What the end of the connection finds is the text of the reply. -/
theorem finishAtEnd_text {reply : List UInt8} (h : isTerminated reply = false) :
    JsString.trim ((decodeUtf8 reply).filter fun u => u ≠ 0) = responseText reply := by
  have hzero : ∀ b ∈ reply, b ≠ 0 := by
    rintro b hb rfl
    have hterminated : isTerminated reply = true := List.any_eq_true.mpr ⟨0, hb, rfl⟩
    rw [h] at hterminated
    cases hterminated
  have hwhole : upToNul reply = reply :=
    List.takeWhile_eq_self_iff.mpr fun b hb => decide_eq_true (hzero b hb)
  rw [filter_decodeUtf8 fun hmem => hzero 0 hmem rfl, responseText, hwhole]

/-- A reply in one chunk. -/
theorem scan_whole (reply : List UInt8) :
    scan [reply] = (evaluateResponse reply).getD (finishAtEnd reply) := by
  rw [scan, scanFrom, List.nil_append]
  cases evaluateResponse reply with
  | none => rfl
  | some result => rfl

/-- Where chunks make no difference, only `OK` is clean. -/
theorem cleanOnlyOk_of_independent {reply : List UInt8} (h : Independent reply) :
    CleanOnlyOk reply := by
  intro chunks hchunks hclean
  rw [h chunks [reply] hchunks (by simp), scan_whole] at hclean
  cases hwhole : evaluateResponse reply with
  | none =>
      obtain ⟨-, hopen⟩ := evaluateResponse_eq_none.mp hwhole
      rw [hwhole, Option.getD_none, finishAtEnd] at hclean
      rw [finishAtEnd_text hopen] at hclean
      split_ifs at hclean
      · cases hclean
      · exact endsWithOk_of_finishFromResponse hclean
  | some result =>
      have hle : reply.length ≤ maxResponseBytes := by
        by_contra hlarge
        have houtcome := evaluateResponse_of_large (not_le.mp hlarge)
        rw [hwhole] at hclean houtcome
        rw [Option.getD_some, Option.some.inj houtcome] at hclean
        cases hclean
      have hterminated : isTerminated reply = true := by
        by_contra hopen
        rw [evaluateResponse_eq_none.mpr ⟨hle, by simpa using hopen⟩] at hwhole
        cases hwhole
      rw [evaluateResponse_of_le hle hterminated, Option.getD_some] at hclean
      exact endsWithOk_of_finishFromResponse hclean

/-! ## When the verdicts agree -/

/-- White space that is one byte. -/
def isAsciiSpace (b : UInt8) : Bool := b ≤ 0x7F && isWhiteSpace b.toUInt16

/-- What follows the first line feed, up to the first NUL. -/
def afterLineFeed (reply : List UInt8) : List UInt8 :=
  ((upToNul reply).dropWhile fun b => b ≠ 10).drop 1

/-- The condition on a reply: no part of its first 8192 bytes that may be evaluated is an OK or a
report; or it has no more bytes, and only white space between its first line feed and its first NUL. -/
def Plain (reply : List UInt8) : Prop :=
  (∀ n ≤ maxResponseBytes, isTerminated (reply.take n) = true →
    verdict (reply.take n) = .error .scannerError) ∨
  reply.length ≤ maxResponseBytes ∧ (afterLineFeed reply).all isAsciiSpace = true

/-- White space has no case. -/
theorem lowerUnit_of_isWhiteSpace {u : UInt16} (h : isWhiteSpace u = true) : lowerUnit u = u := by
  refine if_neg fun hupper => ?_
  simp only [Bool.and_eq_true, decide_eq_true_eq, UInt16.le_iff_toNat_le] at hupper
  have hlow : 65 ≤ u.toNat := hupper.1
  have hhigh : u.toNat ≤ 90 := hupper.2
  simp only [isWhiteSpace, Bool.or_eq_true, Bool.and_eq_true, decide_eq_true_eq, List.mem_cons,
    List.not_mem_nil, or_false] at h
  omega

/-- The last two units of a text that ends with a word. -/
theorem of_endsWith {text : JsString} {word : String} {init : JsString} {x y : UInt16}
    (hword : ofText word = init ++ [x, y]) (h : endsWith text word = true) :
    ∃ rest a b, text = rest ++ [a, b] ∧ lowerUnit a = x := by
  have hmap := of_decide_eq_true h
  rw [hword] at hmap
  obtain ⟨first, last, hdrop, -, hlast⟩ := List.map_eq_append_iff.mp hmap
  obtain ⟨a, tail, rfl, ha, htail⟩ := List.map_eq_cons_iff.mp hlast
  obtain ⟨b, rest, rfl, -, hrest⟩ := List.map_eq_cons_iff.mp htail
  rw [List.map_eq_nil_iff.mp hrest] at hdrop
  refine ⟨text.take (text.length - word.length) ++ first, a, b, ?_, ha⟩
  rw [List.append_assoc, ← hdrop, List.take_append_drop]

/-- A text with one more unit after white space ends with no word. -/
theorem not_endsWith {text before : JsString} {w u : UInt16} {word : String} (init : JsString)
    {x y : UInt16} (hsuffix : text <:+ before ++ [w] ++ [u]) (hw : isWhiteSpace w = true)
    (hword : ofText word = init ++ [x, y]) (hx : isWhiteSpace x = false) :
    endsWith text word = false := by
  by_contra h
  obtain ⟨rest, a, b, rfl, ha⟩ := of_endsWith hword (by simpa using h)
  obtain ⟨front, hfront⟩ := hsuffix
  have hsplit : (front ++ rest ++ [a]) ++ [b] = (before ++ [w]) ++ [u] := by
    rw [← hfront]
    simp
  have hlast := (List.append_inj' (List.append_inj' hsplit rfl).1 rfl).2
  rw [List.singleton_inj.mp hlast, lowerUnit_of_isWhiteSpace hw] at ha
  rw [ha, hx] at hw
  cases hw

/-- ASCII white space is white space. -/
theorem le_of_isAsciiSpace {b : UInt8} (h : isAsciiSpace b = true) :
    b ≤ 0x7F ∧ isWhiteSpace b.toUInt16 = true := by
  rw [isAsciiSpace, Bool.and_eq_true, decide_eq_true_eq] at h
  exact h

/-- A line and white space after it. -/
theorem decodeUtf8_line {line spaces : List UInt8} (hline : 0 ∉ line)
    (hspaces : ∀ b ∈ spaces, isAsciiSpace b = true) (rest : List UInt8) :
    decodeUtf8 (line ++ 10 :: (spaces ++ rest)) =
      decodeUtf8 line ++ 10 :: (spaces.map UInt8.toUInt16) ++ decodeUtf8 rest := by
  rw [decodeUtf8, decodeFrom_append bounded_start hline (by decide),
    decodeFrom_ascii fun b hb => (le_of_isAsciiSpace (hspaces b hb)).1, List.append_assoc]
  rfl

/-- A line feed and spaces are white space. -/
theorem isWhiteSpace_of_mem {spaces : List UInt8} (hspaces : ∀ b ∈ spaces, isAsciiSpace b = true) :
    ∀ u ∈ (10 : UInt16) :: spaces.map UInt8.toUInt16, isWhiteSpace u = true := by
  intro u hu
  rcases List.mem_cons.mp hu with rfl | hu
  · decide
  · obtain ⟨b, hb, rfl⟩ := List.mem_map.mp hu
    exact (le_of_isAsciiSpace (hspaces b hb)).2

/-- White space after a line changes nothing. -/
theorem trim_line {line spaces : List UInt8} (hline : 0 ∉ line)
    (hspaces : ∀ b ∈ spaces, isAsciiSpace b = true) :
    (decodeUtf8 (line ++ 10 :: spaces)).trim = (decodeUtf8 line).trim := by
  have hdecode := decodeUtf8_line hline hspaces []
  rw [List.append_nil] at hdecode
  rw [hdecode]
  refine (congrArg JsString.trim (List.append_nil _)).trans ?_
  exact trim_append (isWhiteSpace_of_mem hspaces)

/-- One more byte makes it an error. -/
theorem verdict_of_more {line spaces : List UInt8} {c : UInt8} (hline : 0 ∉ line)
    (hspaces : ∀ b ∈ spaces, isAsciiSpace b = true) (hc : isAsciiSpace c = false) :
    outcome (finishFromResponse (decodeUtf8 (line ++ 10 :: (spaces ++ [c]))).trim) =
      .error .scannerError := by
  obtain ⟨u, hdecode, hu⟩ : ∃ u, decodeUtf8 [c] = [u] ∧ isWhiteSpace u = false := by
    by_cases hascii : c ≤ 0x7F
    · refine ⟨c.toUInt16, ?_, ?_⟩
      · rw [decodeUtf8, decodeFrom, if_pos rfl, lead_of_ascii hascii]
        rfl
      · simpa [isAsciiSpace, hascii] using hc
    · exact ⟨0xFFFD, decodeFrom_singleton hascii, by decide⟩
  obtain ⟨before, w, hbefore⟩ : ∃ before w, (10 : UInt16) :: spaces.map UInt8.toUInt16 =
      before ++ [w] := ⟨_, _, (List.dropLast_append_getLast (List.cons_ne_nil _ _)).symm⟩
  have hw : isWhiteSpace w = true :=
    isWhiteSpace_of_mem hspaces w (hbefore ▸ List.mem_append_right _ List.mem_cons_self)
  rw [decodeUtf8_line hline hspaces [c], hdecode, hbefore, ← List.append_assoc]
  have hsuffix : trim (decodeUtf8 line ++ before ++ [w] ++ [u]) <:+
      decodeUtf8 line ++ before ++ [w] ++ [u] := trim_concat_suffix hu
  have hok : endsWith (trim (decodeUtf8 line ++ before ++ [w] ++ [u])) "ok" = false :=
    not_endsWith [] hsuffix hw rfl (by decide)
  have hfound : endsWith (trim (decodeUtf8 line ++ before ++ [w] ++ [u])) "found" = false :=
    not_endsWith (ofText "fou") hsuffix hw rfl (by decide)
  rw [finishFromResponse, endsWithOk, hok, foundSignature, hfound]
  rfl

/-- What there is to evaluate of the first bytes. -/
theorem responseText_take (reply : List UInt8) (n : ℕ) :
    responseText (reply.take n) = (decodeUtf8 ((upToNul reply).take n)).trim := by
  rw [responseText, upToNul, upToNul, List.take_takeWhile]

/-- What comes before the NUL has none. -/
theorem zero_not_mem_upToNul (reply : List UInt8) : 0 ∉ upToNul reply := by
  intro h
  have hne := List.mem_takeWhile_imp h
  simp at hne

/-- What comes before the NUL has arrived. -/
theorem mem_of_mem_upToNul {reply : List UInt8} {n : ℕ} {b : UInt8}
    (h : b ∈ (upToNul reply).take n) : b ∈ reply.take n := by
  rw [upToNul, List.take_takeWhile] at h
  exact (List.takeWhile_prefix _).subset h

/-- The first bytes hold a line feed of the text, or all of the text. -/
theorem of_isTerminated_take {reply : List UInt8} {n : ℕ} (h : isTerminated (reply.take n) = true) :
    10 ∈ (upToNul reply).take n ∨ (upToNul reply).take n = upToNul reply := by
  obtain ⟨b, hb, hend⟩ := List.any_eq_true.mp h
  have hsplit : upToNul reply ++ reply.dropWhile (fun b => b ≠ 0) = reply :=
    List.takeWhile_append_dropWhile
  rw [← hsplit, List.take_append] at hb
  rcases List.mem_append.mp hb with hb | hb
  · have hne : b ≠ 0 := fun hzero =>
      zero_not_mem_upToNul reply (hzero ▸ List.mem_of_mem_take hb)
    have hfeed : b = 10 := by simpa [hne] using hend
    exact .inl (hfeed ▸ hb)
  · refine .inr (List.take_of_length_le ?_)
    have hlength := List.length_pos_of_mem hb
    rw [List.length_take] at hlength
    omega

/-- A list from the first place on where a condition fails. -/
theorem dropWhile_eq_cons {p : UInt8 → Bool} {l rest : List UInt8} {b : UInt8}
    (h : l.dropWhile p = b :: rest) : p b = false := by
  have hhead := List.head?_dropWhile_not p l
  rwa [h] at hhead

/-- The reply with a line feed in its text. -/
theorem exists_line {reply : List UInt8} (h : 10 ∈ upToNul reply) :
    ∃ line, 10 ∉ line ∧ 0 ∉ line ∧ upToNul reply = line ++ 10 :: afterLineFeed reply := by
  have hsplit : (upToNul reply).takeWhile (fun b => b ≠ 10) ++
      (upToNul reply).dropWhile (fun b => b ≠ 10) = upToNul reply := List.takeWhile_append_dropWhile
  have hfirst : 10 ∉ (upToNul reply).takeWhile fun b => b ≠ 10 := by
    intro hmem
    have hne := List.mem_takeWhile_imp hmem
    simp at hne
  refine ⟨_, hfirst, fun hzero => zero_not_mem_upToNul reply ?_, ?_⟩
  · exact (List.takeWhile_prefix _).subset hzero
  · cases hdrop : (upToNul reply).dropWhile fun b => b ≠ 10 with
    | nil =>
        rw [hdrop, List.append_nil] at hsplit
        rw [hsplit] at hfirst
        exact absurd h hfirst
    | cons b rest =>
        have hb : b = 10 := by simpa using dropWhile_eq_cons hdrop
        rw [afterLineFeed, hdrop, List.drop_one, List.tail_cons]
        rw [hdrop, hb] at hsplit
        exact hsplit.symm

/-- A plain reply is steady. -/
theorem steady_of_plain {reply : List UInt8} (h : Plain reply) : Steady reply := by
  rcases h with herror | ⟨hlength, hspaces⟩
  · refine ⟨fun n hn hterminated => ?_, fun _ => herror _ le_rfl⟩
    rw [herror n hn hterminated, herror _ le_rfl (isTerminated_take hn hterminated)]
  refine ⟨fun n _ hterminated => ?_, fun hlarge => absurd hlength (not_le.mpr hlarge)⟩
  rw [List.take_of_length_le hlength, verdict, verdict, responseText_take, responseText]
  rcases of_isTerminated_take hterminated with hfeed | hwhole
  · obtain ⟨line, hten, hzero, hline⟩ := exists_line (List.mem_of_mem_take hfeed)
    rw [hline] at hfeed ⊢
    obtain ⟨m, hm⟩ : ∃ m, n - line.length = m + 1 := by
      refine Nat.exists_eq_succ_of_ne_zero fun hshort => hten ?_
      rw [List.take_append, hshort, List.take_zero, List.append_nil] at hfeed
      exact List.mem_of_mem_take hfeed
    have hall : ∀ b ∈ afterLineFeed reply, isAsciiSpace b = true := List.all_eq_true.mp hspaces
    rw [List.take_append, List.take_of_length_le (by omega), hm, List.take_succ_cons,
      trim_line hzero hall, trim_line hzero fun b hb => hall b (List.mem_of_mem_take hb)]
  · rw [hwhole]

/-- The first byte after the line that is no white space makes a part that is an error. -/
theorem exists_error {reply : List UInt8} (h : (afterLineFeed reply).all isAsciiSpace = false) :
    ∃ n ≤ reply.length, isTerminated (reply.take n) = true ∧
      verdict (reply.take n) = .error .scannerError := by
  have hfeed : 10 ∈ upToNul reply := by
    by_contra hnone
    have hdrop : (upToNul reply).dropWhile (fun b => b ≠ 10) = [] :=
      List.dropWhile_eq_nil_iff.mpr fun b hb => decide_eq_true fun hb' => hnone (hb' ▸ hb)
    rw [afterLineFeed, hdrop] at h
    cases h
  obtain ⟨line, -, hzero, hline⟩ := exists_line hfeed
  have hsplit : (afterLineFeed reply).takeWhile isAsciiSpace ++
      (afterLineFeed reply).dropWhile isAsciiSpace = afterLineFeed reply :=
    List.takeWhile_append_dropWhile
  cases hdrop : (afterLineFeed reply).dropWhile isAsciiSpace with
  | nil =>
      rw [List.all_eq_true.mpr (List.dropWhile_eq_nil_iff.mp hdrop)] at h
      cases h
  | cons c rest =>
      have hc : isAsciiSpace c = false := dropWhile_eq_cons hdrop
      have hspaces : ∀ b ∈ (afterLineFeed reply).takeWhile isAsciiSpace, isAsciiSpace b = true :=
        fun b hb => List.mem_takeWhile_imp hb
      rw [hdrop] at hsplit
      generalize (afterLineFeed reply).takeWhile isAsciiSpace = spaces at hsplit hspaces
      have htext : upToNul reply = (line ++ 10 :: (spaces ++ [c])) ++ rest := by
        rw [hline, ← hsplit]
        simp
      have htake : (upToNul reply).take (line ++ 10 :: (spaces ++ [c])).length =
          line ++ 10 :: (spaces ++ [c]) := by
        rw [htext, List.take_left]
      refine ⟨(line ++ 10 :: (spaces ++ [c])).length, ?_, ?_, ?_⟩
      · have hle := (List.takeWhile_prefix (l := reply) fun b : UInt8 => b ≠ 0).length_le
        have hlength := congrArg List.length htext
        rw [List.length_append] at hlength
        rw [upToNul] at hlength
        omega
      · refine List.any_eq_true.mpr ⟨10, mem_of_mem_upToNul ?_, rfl⟩
        rw [htake]
        exact List.mem_append_right _ List.mem_cons_self
      · rw [verdict, responseText_take, htake]
        exact verdict_of_more hzero hspaces hc

/-- A steady reply is plain. -/
theorem plain_of_steady {reply : List UInt8} (h : Steady reply) : Plain reply := by
  obtain ⟨hsame, hlarge⟩ := h
  by_cases hdecides : ∀ n ≤ maxResponseBytes, isTerminated (reply.take n) = true →
      verdict (reply.take n) = .error .scannerError
  · exact .inl hdecides
  push Not at hdecides
  obtain ⟨n, hn, hterminated, hverdict⟩ := hdecides
  rw [hsame n hn hterminated] at hverdict
  have hlength : reply.length ≤ maxResponseBytes := by
    by_contra hlong
    exact hverdict (hlarge (not_le.mp hlong) (isTerminated_take hn hterminated))
  refine .inr ⟨hlength, ?_⟩
  by_contra hspaces
  obtain ⟨m, hm, hpart, herror⟩ := exists_error (by simpa using hspaces)
  rw [hsame m (hm.trans hlength) hpart] at herror
  exact hverdict herror

/-- **The verdict of the scanner.** For every reply: all cuts into chunks come to the same outcome, and
a scan comes out clean only where the reply ends with OK, if and only if the reply is plain. -/
theorem scan_independent_iff (reply : List UInt8) :
    Independent reply ∧ CleanOnlyOk reply ↔ Plain reply :=
  ⟨fun h => plain_of_steady (steady_of_independent h.1), fun h =>
    ⟨independent_of_steady (steady_of_plain h),
      cleanOnlyOk_of_independent (independent_of_steady (steady_of_plain h))⟩⟩

/-- The bytes of an ASCII text. -/
def bytesOf (text : String) : List UInt8 := text.toList.map fun c => UInt8.ofNat c.toNat

/-- **A reply that is clean in two chunks and malware in one.** -/
theorem scan_depends_on_chunks :
    outcome (scan [bytesOf "stream: OK\n", bytesOf "stream: Eicar FOUND\x00"]) = .ok () ∧
      outcome (scan [bytesOf "stream: OK\nstream: Eicar FOUND\x00"]) = .error .malwareDetected ∧
      ¬(Independent (bytesOf "stream: OK\nstream: Eicar FOUND\x00") ∧
        CleanOnlyOk (bytesOf "stream: OK\nstream: Eicar FOUND\x00")) := by
  have htwo : outcome (scan [bytesOf "stream: OK\n", bytesOf "stream: Eicar FOUND\x00"]) = .ok () := by
    decide
  have hone : outcome (scan [bytesOf "stream: OK\nstream: Eicar FOUND\x00"]) =
      .error .malwareDetected := by
    decide
  refine ⟨htwo, hone, fun h => ?_⟩
  have hsame := h.1 [bytesOf "stream: OK\n", bytesOf "stream: Eicar FOUND\x00"]
    [bytesOf "stream: OK\nstream: Eicar FOUND\x00"] (by decide) (by decide)
  rw [htwo, hone] at hsame
  cases hsame

end MalwareScanner

end ApiWhatsApp
