import ApiWhatsApp.Library.Bytes
import ApiWhatsApp.Library.Patterns

/-!
# PDF files

`matchesPdfStructure` of `media/media-pdf-structure.ts`: a version at the first header, a final section
behind which there is only white space, and a cross-reference section where the final section says.

The texts that the source searches are Latin-1, so that a unit of a text is a byte. Its regular
expressions are patterns without choices, one for each alternative.

* `FirstHeader`, `PdfFinalSection` and `IsXref` are what an accepted file is made of.
* **`pdf_structure`** — the files that are accepted, in these terms.
-/

namespace ApiWhatsApp

open Library

/-! ## The validator -/

/-- Source: `PDF_HEADER_SEARCH_BYTES`. -/
def pdfHeaderSearchBytes : ℕ := 1024

/-- Source: `PDF_TAIL_SEARCH_BYTES`. -/
def pdfTailSearchBytes : ℕ := 64 * 1024

/-- Source: `PDF_XREF_TARGET_BYTES`. -/
def pdfXrefTargetBytes : ℕ := 128

/-- `\s` of a regular expression, among the units of Latin-1. -/
def isRegexSpace (b : UInt8) : Bool := (0x09 ≤ b && b ≤ 0x0d) || b = 0x20 || b = 0xa0

/-- `[0-9]`. -/
def isDecimalDigit (b : UInt8) : Bool := 0x30 ≤ b && b ≤ 0x39

/-- Source: `PDF_WHITESPACE_BYTES`. -/
def pdfWhitespaceBytes : Bytes := [0x00, 0x09, 0x0a, 0x0c, 0x0d, 0x20]

/-- Source: `isPdfWhitespace`. -/
def isPdfWhitespace (bytes : Bytes) : Bool := bytes.all pdfWhitespaceBytes.contains

/-- The versions of `PDF_VERSION_HEADER`. -/
def pdfVersionPatterns : List (List (Piece UInt8)) :=
  [literal (asciiBytes "1.") ++ [.one isDecimalDigit], literal (asciiBytes "2.0")]

/-- The ends of the line in `PDF_VERSION_HEADER`. -/
def pdfLineEnds : List Bytes := [[0x0d, 0x0a], [0x0d], [0x0a]]

/-- Source: `PDF_VERSION_HEADER`. -/
def pdfVersionHeader : List (List (Piece UInt8)) :=
  pdfVersionPatterns.flatMap fun version => pdfLineEnds.map fun lineEnd =>
    literal (asciiBytes "%PDF-") ++ (version ++ literal lineEnd)

/-- Source: `PDF_FINAL_SECTION`, between its letters. -/
def pdfFinalSectionPattern : List (Piece UInt8) :=
  literal (asciiBytes "startxref") ++
    (.many isRegexSpace :: .many isDecimalDigit :: .many isRegexSpace :: literal (asciiBytes "%%EOF"))

/-- Source: `PDF_XREF_TABLE`. -/
def pdfXrefTable : List (Piece UInt8) := literal (asciiBytes "xref") ++ [.one isRegexSpace]

/-- Source: `PDF_XREF_STREAM_OBJECT`. -/
def pdfXrefStreamObject : List (Piece UInt8) :=
  .many isDecimalDigit :: .many isRegexSpace :: .many isDecimalDigit :: .many isRegexSpace ::
    (literal (asciiBytes "obj") ++ [.one fun b => isRegexSpace b || b = 0x3c])

/-- `text.replaceAll("\u0000", " ")`. -/
def blanked (text : Bytes) : Bytes := text.map fun b => if b = 0x00 then 0x20 else b

/-- Source: `hasVersionedHeader`. `firstWith` is `text.indexOf`, with what stands there and behind. -/
def hasVersionedHeader (start : Bytes) : Bool :=
  match firstWith (asciiBytes "%PDF-") start with
  | none => false
  | some text => pdfVersionHeader.any fun pattern => (matchPrefix pattern text).isSome

/-- The value of some decimal digits. -/
def parseDecimal (digits : Bytes) : ℕ := digits.foldl (fun n b => n * 10 + (b.toNat - 0x30)) 0

/-- Source: `findFinalSection`. The group of the pattern is the run of digits. -/
def findFinalSection (tail : Bytes) : Option ℕ :=
  let text := blanked tail
  (matches_ pdfFinalSectionPattern text).foldl (fun accepted found =>
    let trailing := tail.drop (tail.length - found.2.length)
    if !isPdfWhitespace trailing then accepted
    else
      match found.1[10]? with
      | none => accepted
      | some xrefOffsetText => some (parseDecimal xrefOffsetText)) none

/-- Source: `matchesPdfStructure`. Above `Number.MAX_SAFE_INTEGER` the source has a rounded offset, which
is no safe one either. -/
def matchesPdfStructure (file : Bytes) : Bool :=
  if file.length < 20 then false
  else
    match readExactly file (min file.length pdfHeaderSearchBytes) 0 with
    | none => false
    | some start =>
        if !hasVersionedHeader start then false
        else
          let tailLength := min file.length pdfTailSearchBytes
          match readExactly file tailLength (file.length - tailLength) with
          | none => false
          | some tail =>
              match findFinalSection tail with
              | none => false
              | some xrefOffset =>
                  if xrefOffset > 2 ^ 53 - 1 ∨ xrefOffset ≥ file.length then false
                  else
                    match readExactly file (min pdfXrefTargetBytes (file.length - xrefOffset))
                        xrefOffset with
                    | none => false
                    | some xrefTarget =>
                        let targetText := blanked xrefTarget
                        (matchPrefix pdfXrefTable targetText).isSome ||
                          (matchPrefix pdfXrefStreamObject targetText).isSome

/-! ## Parts of a file -/

/-- One digit, a point and one digit. -/
def IsPdfVersion (version : Bytes) : Prop :=
  (∃ digit, isDecimalDigit digit = true ∧ version = asciiBytes "1." ++ [digit]) ∨ version = asciiBytes "2.0"

/-- The line of the header. -/
def IsPdfHeader (line : Bytes) : Prop :=
  ∃ version lineEnd, IsPdfVersion version ∧ lineEnd ∈ pdfLineEnds ∧
    line = asciiBytes "%PDF-" ++ (version ++ lineEnd)

/-- The final section: it says where the cross-references are. -/
structure PdfFinalSection where
  space : RunOf isRegexSpace
  digits : RunOf isDecimalDigit
  space' : RunOf isRegexSpace

namespace PdfFinalSection

/-- The bytes of the section. -/
def encode (ending : PdfFinalSection) : Bytes :=
  asciiBytes "startxref" ++ (ending.space.items ++ (ending.digits.items ++
    (ending.space'.items ++ asciiBytes "%%EOF")))

/-- The offset that the section says. -/
def xrefOffset (ending : PdfFinalSection) : ℕ := parseDecimal ending.digits.items

end PdfFinalSection

/-- A table of cross-references begins there, or an object that is a stream of them. -/
def IsXref (target : Bytes) : Prop :=
  (∃ space after, isRegexSpace space = true ∧ target = asciiBytes "xref" ++ (space :: after)) ∨
    ∃ (number generation : RunOf isDecimalDigit) (space space' : RunOf isRegexSpace) (last : UInt8)
      (after : Bytes), (isRegexSpace last || last = 0x3c) = true ∧
      target = number.items ++ (space.items ++ (generation.items ++ (space'.items ++
        (asciiBytes "obj" ++ (last :: after)))))

/-! ## The patterns -/

/-- White space is no digit. -/
theorem isDecimalDigit_of_space : ∀ b, isRegexSpace b = true → isDecimalDigit b = false := by
  have hall : ∀ n < 256, isRegexSpace (UInt8.ofNat n) = true → isDecimalDigit (UInt8.ofNat n) = false := by
    decide +kernel
  intro b hb
  have h := hall b.toNat b.toNat_lt
  rw [UInt8.ofNat_toNat] at h
  exact h hb

/-- A digit is no white space. -/
theorem isRegexSpace_of_digit (b : UInt8) (h : isDecimalDigit b = true) : isRegexSpace b = false := by
  by_contra hspace
  rw [isDecimalDigit_of_space b (eq_true_of_ne_false hspace)] at h
  cases h

/-- White space is none of the other bytes. -/
theorem ne_of_space {c : UInt8} (hc : isRegexSpace c = false) (b : UInt8) (h : isRegexSpace b = true) :
    decide (b = c) = false :=
  decide_eq_false fun heq => Bool.false_ne_true (hc.symm.trans (heq ▸ h))

/-- The final section can be read in one way. -/
theorem deterministic_finalSection : Deterministic pdfFinalSectionPattern := by
  refine deterministic_literal_append.mpr ⟨isDecimalDigit_of_space, isRegexSpace_of_digit, ?_, ?_⟩
  · exact ne_of_space (by decide)
  · exact deterministic_literal _

/-- The table can be read in one way. -/
theorem deterministic_xrefTable : Deterministic pdfXrefTable :=
  deterministic_literal_append.mpr trivial

/-- The stream object can be read in one way. -/
theorem deterministic_xrefStreamObject : Deterministic pdfXrefStreamObject := by
  refine ⟨isRegexSpace_of_digit, isDecimalDigit_of_space, isRegexSpace_of_digit, ?_, ?_⟩
  · exact ne_of_space (by decide)
  · exact deterministic_literal_append.mpr trivial

/-- The runs of a final section. -/
theorem fits_finalSection {runs : List Bytes} :
    Fits pdfFinalSectionPattern runs ↔ ∃ ending : PdfFinalSection,
      runs = (asciiBytes "startxref").map (fun c => [c]) ++ (ending.space.items :: ending.digits.items ::
        ending.space'.items :: (asciiBytes "%%EOF").map fun c => [c]) := by
  rw [pdfFinalSectionPattern, fits_literal_append]
  simp only [fits_many, fits_literal]
  constructor
  · rintro ⟨_, rfl, space, _, rfl, digits, _, rfl, space', _, rfl, rfl⟩
    exact ⟨⟨space, digits, space'⟩, rfl⟩
  · rintro ⟨⟨space, digits, space'⟩, rfl⟩
    exact ⟨_, rfl, space, _, rfl, digits, _, rfl, space', _, rfl, rfl⟩

/-! ## The final section -/

/-- Blanks are white space where there was white space. -/
theorem isPdfWhitespace_blanked (bytes : Bytes) :
    isPdfWhitespace (blanked bytes) = isPdfWhitespace bytes := by
  rw [isPdfWhitespace, blanked, List.all_map]
  refine congrArg (List.all bytes) (funext fun b => ?_)
  rw [Function.comp_apply]
  split_ifs with hb
  · rw [hb]
    rfl
  · rfl

/-- Blanking keeps the length. -/
theorem length_blanked (bytes : Bytes) : (blanked bytes).length = bytes.length := List.length_map ..

/-- A pattern matches where its first letter is the last of its kind. -/
theorem append_cons_inj {a : UInt8} {front front' rest rest' : Bytes} (hrest : a ∉ rest)
    (hrest' : a ∉ rest') (h : front ++ a :: rest = front' ++ a :: rest') :
    front = front' ∧ rest = rest' := by
  rcases List.append_eq_append_iff.mp h with ⟨between, rfl, heq⟩ | ⟨between, rfl, heq⟩
  · cases between with
    | nil => exact ⟨(List.append_nil _).symm, (List.cons.inj heq).2⟩
    | cons b between =>
        refine absurd ?_ hrest
        rw [(List.cons.inj heq).2]
        exact List.mem_append_right _ List.mem_cons_self
  · cases between with
    | nil => exact ⟨List.append_nil _, (List.cons.inj heq).2.symm⟩
    | cons b between =>
        refine absurd ?_ hrest'
        rw [(List.cons.inj heq).2]
        exact List.mem_append_right _ List.mem_cons_self

namespace PdfFinalSection

/-- The letters behind the first one. -/
def rest (ending : PdfFinalSection) : Bytes :=
  asciiBytes "tartxref" ++ (ending.space.items ++ (ending.digits.items ++
    (ending.space'.items ++ asciiBytes "%%EOF")))

/-- The section begins with the letter s. -/
theorem encode_eq (ending : PdfFinalSection) : ending.encode = 0x73 :: ending.rest := rfl

/-- The runs of its pattern. -/
def runs (ending : PdfFinalSection) : List Bytes :=
  (asciiBytes "startxref").map (fun c => [c]) ++ (ending.space.items :: ending.digits.items ::
    ending.space'.items :: (asciiBytes "%%EOF").map fun c => [c])

/-- The section is put together from its runs. -/
theorem flatten_runs (ending : PdfFinalSection) : ending.runs.flatten = ending.encode := by
  rw [runs, List.flatten_append, flatten_map_singleton, List.flatten_cons, List.flatten_cons,
    List.flatten_cons, flatten_map_singleton]
  rfl

/-- The letter s does not come again. -/
theorem not_mem_rest (ending : PdfFinalSection) : 0x73 ∉ ending.rest := by
  have hspace : ∀ run : RunOf isRegexSpace, 0x73 ∉ run.items := fun run hmem =>
    absurd (run.holds _ hmem) (by decide)
  have hdigits : 0x73 ∉ ending.digits.items := fun hmem =>
    absurd (ending.digits.holds _ hmem) (by decide)
  rw [rest, List.mem_append, List.mem_append, List.mem_append, List.mem_append]
  rintro (h | h | h | h | h)
  · exact absurd h (by decide)
  · exact hspace _ h
  · exact hdigits h
  · exact hspace _ h
  · exact absurd h (by decide)

/-- Only one final section stands at the end of a text. -/
theorem xrefOffset_unique {ending ending' : PdfFinalSection} {front front' trailing trailing' : Bytes}
    (htrailing : isPdfWhitespace trailing = true) (htrailing' : isPdfWhitespace trailing' = true)
    (h : front ++ (ending.encode ++ trailing) = front' ++ (ending'.encode ++ trailing')) :
    ending.xrefOffset = ending'.xrefOffset := by
  have hnot : ∀ (ending : PdfFinalSection) {trailing : Bytes}, isPdfWhitespace trailing = true →
      0x73 ∉ ending.rest ++ trailing := by
    intro ending trailing hwhite hmem
    rcases List.mem_append.mp hmem with hrest | htrailing
    · exact ending.not_mem_rest hrest
    · exact absurd (List.all_eq_true.mp hwhite _ htrailing) (by decide)
  rw [encode_eq, encode_eq, List.cons_append, List.cons_append] at h
  have hrest := (append_cons_inj (hnot ending htrailing) (hnot ending' htrailing') h).2
  have hmatch : ∀ (ending : PdfFinalSection) (trailing : Bytes),
      matchPrefix pdfFinalSectionPattern (0x73 :: (ending.rest ++ trailing)) =
        some (ending.runs, trailing) := fun ending trailing =>
    (matchPrefix_eq_some deterministic_finalSection).mpr
      ⟨fits_finalSection.mpr ⟨ending, rfl⟩, by rw [flatten_runs]; rfl⟩
  have hsame := hmatch ending trailing
  rw [hrest, hmatch] at hsame
  have hruns := (Prod.mk.inj (Option.some.inj hsame)).1
  have hten : ∀ ending : PdfFinalSection, ending.runs[10]? = some ending.digits.items := fun _ => rfl
  have hdigits := hten ending
  rw [← hruns, hten] at hdigits
  rw [xrefOffset, xrefOffset, Option.some.inj hdigits]

end PdfFinalSection

/-- A loop that keeps the last of some results. -/
theorem foldl_eq_some {β : Type*} {update : Option ℕ → β → Option ℕ} {results : β → Option ℕ}
    (hupdate : ∀ accepted found, update accepted found = (results found).or accepted) {l : List β}
    {n : ℕ} (hunique : ∀ found ∈ l, ∀ m, results found = some m → ∀ found' ∈ l, ∀ m',
      results found' = some m' → m = m') :
    l.foldl update none = some n ↔ ∃ found ∈ l, results found = some n := by
  have hsound : ∀ (l : List β) accepted n, l.foldl update accepted = some n →
      accepted = some n ∨ ∃ found ∈ l, results found = some n := by
    intro l
    induction l with
    | nil => exact fun accepted n h => .inl h
    | cons found l ih =>
        intro accepted n h
        rcases ih _ n h with hupdated | ⟨found', hmem, hfound⟩
        · rw [hupdate] at hupdated
          rcases Option.or_eq_some_iff.mp hupdated with hfound | ⟨-, haccepted⟩
          · exact .inr ⟨found, List.mem_cons_self, hfound⟩
          · exact .inl haccepted
        · exact .inr ⟨found', List.mem_cons_of_mem _ hmem, hfound⟩
  have hkept : ∀ (l : List β) accepted, accepted.isSome → (l.foldl update accepted).isSome := by
    intro l
    induction l with
    | nil => exact fun accepted h => h
    | cons found l ih =>
        intro accepted h
        refine ih _ ?_
        rw [hupdate]
        cases results found with
        | none => exact h
        | some m => rfl
  constructor
  · intro h
    exact (hsound l none n h).resolve_left (by rintro ⟨⟩)
  · rintro ⟨found, hmem, hfound⟩
    obtain ⟨before, after, rfl⟩ := List.append_of_mem hmem
    have hsome : ((before ++ found :: after).foldl update none).isSome := by
      rw [List.foldl_append, List.foldl_cons]
      refine hkept _ _ ?_
      rw [hupdate, hfound]
      rfl
    obtain ⟨m, hm⟩ := Option.isSome_iff_exists.mp hsome
    rcases hsound _ none m hm with hnone | ⟨found', hmem', hfound'⟩
    · cases hnone
    · rw [hm, hunique found' hmem' m hfound' found hmem n hfound]

/-- The matches are the sections of the text. -/
theorem mem_matches_finalSection {text : Bytes} {found : List Bytes × Bytes} :
    found ∈ matches_ pdfFinalSectionPattern text ↔ ∃ (ending : PdfFinalSection) (front : Bytes),
      found.1 = ending.runs ∧ text = front ++ (ending.encode ++ found.2) := by
  have hpattern : pdfFinalSectionPattern = .one (fun a => a = 0x73) ::
      (literal (asciiBytes "tartxref") ++ (.many isRegexSpace :: .many isDecimalDigit ::
        .many isRegexSpace :: literal (asciiBytes "%%EOF"))) := rfl
  have hstart : ∀ a : UInt8, decide (a = 0x73) = true → ∀ piece ∈
      literal (asciiBytes "tartxref") ++ (.many isRegexSpace :: .many isDecimalDigit ::
        .many isRegexSpace :: literal (asciiBytes "%%EOF")), piece.holds a = false := by
    intro a ha
    obtain rfl := of_decide_eq_true ha
    decide
  obtain ⟨runs, rest⟩ := found
  have hdeterministic := deterministic_finalSection
  rw [hpattern] at hdeterministic ⊢
  rw [mem_matches hdeterministic hstart, ← hpattern, fits_finalSection]
  constructor
  · rintro ⟨⟨ending, rfl⟩, front, rfl⟩
    exact ⟨ending, front, rfl, by rw [← ending.flatten_runs]; rfl⟩
  · rintro ⟨ending, front, rfl, rfl⟩
    exact ⟨⟨ending, rfl⟩, front, by rw [ending.flatten_runs]⟩

/-- **The final section** is found when one stands at the end, in front of white space. -/
theorem findFinalSection_eq_some {tail : Bytes} {n : ℕ} :
    findFinalSection tail = some n ↔ ∃ (ending : PdfFinalSection) (front trailing : Bytes),
      blanked tail = front ++ (ending.encode ++ trailing) ∧ isPdfWhitespace trailing = true ∧
        ending.xrefOffset = n := by
  let results : List Bytes × Bytes → Option ℕ := fun found =>
    if isPdfWhitespace (tail.drop (tail.length - found.2.length)) then
      found.1[10]?.map parseDecimal
    else none
  have hresults : ∀ (ending : PdfFinalSection) (front rest : Bytes) (m : ℕ),
      blanked tail = front ++ (ending.encode ++ rest) →
        (results (ending.runs, rest) = some m ↔ isPdfWhitespace rest = true ∧ ending.xrefOffset = m) := by
    intro ending front rest m htail
    have hlength := congrArg List.length htail
    rw [length_blanked, ← List.append_assoc, List.length_append] at hlength
    have hrest : blanked (tail.drop (tail.length - rest.length)) = rest := by
      rw [hlength, Nat.add_sub_cancel, blanked, List.map_drop, ← blanked, htail, ← List.append_assoc,
        List.drop_left]
    have hwhite : isPdfWhitespace (tail.drop (tail.length - rest.length)) = isPdfWhitespace rest := by
      rw [← isPdfWhitespace_blanked, hrest]
    have hdigits : ending.runs[10]? = some ending.digits.items := rfl
    dsimp only [results]
    rw [hwhite, hdigits]
    split_ifs with h
    · simp only [h, true_and, Option.map_some, Option.some.injEq]
      rfl
    · exact iff_of_false (by rintro ⟨⟩) fun h' => h h'.1
  have hfind : findFinalSection tail =
      (matches_ pdfFinalSectionPattern (blanked tail)).foldl
        (fun accepted found => (results found).or accepted) none := by
    unfold findFinalSection
    dsimp only
    refine congrArg (fun update => List.foldl update none _) (funext fun accepted => funext fun found => ?_)
    dsimp only [results]
    cases isPdfWhitespace (tail.drop (tail.length - found.2.length)) with
    | false => rfl
    | true => cases found.1[10]? <;> rfl
  rw [hfind, foldl_eq_some (fun _ _ => rfl)]
  · constructor
    · rintro ⟨⟨runs, rest⟩, hmem, hfound⟩
      obtain ⟨ending, front, rfl, htail⟩ := mem_matches_finalSection.mp hmem
      obtain ⟨hwhite, hoffset⟩ := (hresults ending front rest n htail).mp hfound
      exact ⟨ending, front, rest, htail, hwhite, hoffset⟩
    · rintro ⟨ending, front, trailing, htail, hwhite, hoffset⟩
      exact ⟨(ending.runs, trailing), mem_matches_finalSection.mpr ⟨ending, front, rfl, htail⟩,
        (hresults ending front trailing n htail).mpr ⟨hwhite, hoffset⟩⟩
  · rintro ⟨runs, rest⟩ hmem m hm ⟨runs', rest'⟩ hmem' m' hm'
    obtain ⟨ending, front, rfl, htail⟩ := mem_matches_finalSection.mp hmem
    obtain ⟨ending', front', rfl, htail'⟩ := mem_matches_finalSection.mp hmem'
    obtain ⟨hwhite, rfl⟩ := (hresults ending front rest m htail).mp hm
    obtain ⟨hwhite', rfl⟩ := (hresults ending' front' rest' m' htail').mp hm'
    exact PdfFinalSection.xrefOffset_unique hwhite hwhite' (htail.symm.trans htail')

/-! ## The header -/

/-- The header patterns describe the headers. -/
theorem describes_pdfVersionHeader {line : Bytes} :
    (∃ pattern ∈ pdfVersionHeader, Describes pattern line) ↔ IsPdfHeader line := by
  have hversion : ∀ {rest : List (Piece UInt8)} {line : Bytes},
      (∃ version ∈ pdfVersionPatterns, Describes (version ++ rest) line) ↔
        ∃ version after, IsPdfVersion version ∧ line = version ++ after ∧ Describes rest after := by
    intro rest line
    rw [pdfVersionPatterns]
    simp only [List.mem_cons, List.not_mem_nil, or_false, exists_eq_or_imp, exists_eq_left]
    rw [List.append_assoc, List.singleton_append, describes_literal_append, describes_literal_append]
    simp only [describes_one]
    constructor
    · rintro (⟨_, rfl, digit, after, hdigit, rfl, hafter⟩ | ⟨after, rfl, hafter⟩)
      · exact ⟨asciiBytes "1." ++ [digit], after, .inl ⟨digit, hdigit, rfl⟩, rfl, hafter⟩
      · exact ⟨asciiBytes "2.0", after, .inr rfl, rfl, hafter⟩
    · rintro ⟨version, after, ⟨digit, hdigit, rfl⟩ | rfl, rfl, hafter⟩
      · exact .inl ⟨digit :: after, rfl, digit, after, hdigit, rfl, hafter⟩
      · exact .inr ⟨after, rfl, hafter⟩
  rw [pdfVersionHeader, IsPdfHeader]
  simp only [List.mem_flatMap, List.mem_map]
  constructor
  · rintro ⟨_, ⟨pattern, hpattern, lineEnd, hlineEnd, rfl⟩, hline⟩
    obtain ⟨rest, rfl, hrest⟩ := describes_literal_append.mp hline
    obtain ⟨version, after, hversion', rfl, hafter⟩ := hversion.mp ⟨pattern, hpattern, hrest⟩
    rw [describes_literal.mp hafter]
    exact ⟨version, lineEnd, hversion', hlineEnd, rfl⟩
  · rintro ⟨version, lineEnd, hversion', hlineEnd, rfl⟩
    obtain ⟨pattern, hpattern, hrest⟩ :=
      hversion.mpr ⟨version, lineEnd, hversion', rfl, describes_literal.mpr rfl⟩
    exact ⟨_, ⟨pattern, hpattern, lineEnd, hlineEnd, rfl⟩,
      describes_literal_append.mpr ⟨_, rfl, hrest⟩⟩

/-- The header patterns can be read in one way. -/
theorem deterministic_pdfVersionHeader :
    ∀ pattern ∈ pdfVersionHeader, Deterministic pattern := by
  intro pattern hpattern
  simp only [pdfVersionHeader, pdfVersionPatterns, List.mem_flatMap, List.mem_map, List.mem_cons,
    List.not_mem_nil, or_false] at hpattern
  obtain ⟨version, rfl | rfl, lineEnd, -, rfl⟩ := hpattern
  · refine deterministic_literal_append.mpr ?_
    rw [List.append_assoc]
    exact deterministic_literal_append.mpr (deterministic_literal _)
  · exact deterministic_literal_append.mpr (deterministic_literal_append.mpr (deterministic_literal _))

/-- A part of a file that starts like a header, and no place before it does. -/
def FirstHeader (start : Bytes) : Prop :=
  ∃ front line after, start = front ++ (line ++ after) ∧ IsPdfHeader line ∧
    ∀ front' after', start = front' ++ (asciiBytes "%PDF-" ++ after') → front.length ≤ front'.length

/-- The header is the first one that has a version. -/
theorem hasVersionedHeader_iff {start : Bytes} :
    hasVersionedHeader start = true ↔ FirstHeader start := by
  have hany : ∀ text, (pdfVersionHeader.any fun pattern => (matchPrefix pattern text).isSome) = true ↔
      ∃ line after, IsPdfHeader line ∧ text = line ++ after := by
    intro text
    simp only [List.any_eq_true, ← describes_pdfVersionHeader]
    constructor
    · rintro ⟨pattern, hpattern, hmatch⟩
      obtain ⟨line, after, hline, heq⟩ :=
        (isSome_matchPrefix (deterministic_pdfVersionHeader pattern hpattern)).mp hmatch
      exact ⟨line, after, ⟨pattern, hpattern, hline⟩, heq⟩
    · rintro ⟨line, after, ⟨pattern, hpattern, hline⟩, heq⟩
      exact ⟨pattern, hpattern,
        (isSome_matchPrefix (deterministic_pdfVersionHeader pattern hpattern)).mpr ⟨line, after, hline, heq⟩⟩
  unfold hasVersionedHeader FirstHeader
  constructor
  · intro h
    cases hfirst : firstWith (asciiBytes "%PDF-") start with
    | none =>
        rw [hfirst] at h
        cases h
    | some text =>
        rw [hfirst] at h
        obtain ⟨line, after, hline, rfl⟩ := (hany text).mp h
        obtain ⟨-, front, heq, hearliest⟩ := firstWith_eq_some.mp hfirst
        exact ⟨front, line, after, heq, hline, hearliest⟩
  · rintro ⟨front, line, after, heq, hline, hearliest⟩
    have hfirst : firstWith (asciiBytes "%PDF-") start = some (line ++ after) := by
      refine firstWith_eq_some.mpr ⟨?_, front, heq, hearliest⟩
      obtain ⟨version, lineEnd, -, -, rfl⟩ := hline
      exact ⟨version ++ lineEnd ++ after, by simp only [List.append_assoc]⟩
    rw [hfirst]
    exact (hany _).mpr ⟨line, after, hline, rfl⟩

/-! ## The cross-references -/

/-- The target is a table or a stream object. -/
theorem isXref_iff {target : Bytes} :
    ((matchPrefix pdfXrefTable target).isSome || (matchPrefix pdfXrefStreamObject target).isSome) = true ↔
      IsXref target := by
  rw [Bool.or_eq_true, isSome_matchPrefix deterministic_xrefTable,
    isSome_matchPrefix deterministic_xrefStreamObject, IsXref, pdfXrefTable, pdfXrefStreamObject]
  simp only [describes_literal_append, describes_many, describes_one, describes_nil]
  refine or_congr ⟨?_, ?_⟩ ⟨?_, ?_⟩
  · rintro ⟨_, after, ⟨_, rfl, space, _, hspace, rfl, rfl⟩, rfl⟩
    exact ⟨space, after, hspace, rfl⟩
  · rintro ⟨space, after, hspace, rfl⟩
    exact ⟨_, after, ⟨[space], rfl, space, [], hspace, rfl, rfl⟩, rfl⟩
  · rintro ⟨_, after, ⟨number, _, rfl, space, _, rfl, generation, _, rfl, space', _, rfl, _, rfl, last, _,
      hlast, rfl, rfl⟩, rfl⟩
    refine ⟨number, generation, space, space', last, after, hlast, ?_⟩
    simp only [List.append_assoc, List.singleton_append]
  · rintro ⟨number, generation, space, space', last, after, hlast, rfl⟩
    refine ⟨_, after, ⟨number, _, rfl, space, _, rfl, generation, _, rfl, space', _, rfl, _, rfl, last, _,
      hlast, rfl, rfl⟩, ?_⟩
    simp only [List.append_assoc, List.singleton_append]

/-! ## The file -/

/-- At the end of the file there is a final section, in front of white space. -/
theorem findFinalSection_end {file : Bytes} {n : ℕ} :
    findFinalSection (file.drop (file.length - min file.length pdfTailSearchBytes)) = some n ↔
      ∃ (ending : PdfFinalSection) (front trailing : Bytes),
        blanked file = front ++ (ending.encode ++ trailing) ∧ isPdfWhitespace trailing = true ∧
          ending.encode.length + trailing.length ≤ pdfTailSearchBytes ∧ ending.xrefOffset = n := by
  generalize hsize : file.length - min file.length pdfTailSearchBytes = size
  have hdrop : blanked (file.drop size) = (blanked file).drop size := List.map_drop
  rw [findFinalSection_eq_some, hdrop]
  constructor
  · rintro ⟨ending, front, trailing, htail, hwhite, hoffset⟩
    have hlength := congrArg List.length htail
    rw [List.length_drop, length_blanked, List.length_append, List.length_append] at hlength
    refine ⟨ending, (blanked file).take size ++ front, trailing, ?_, hwhite, by omega, hoffset⟩
    rw [List.append_assoc, ← htail, List.take_append_drop]
  · rintro ⟨ending, front, trailing, hfile, hwhite, hfits, hoffset⟩
    have hlength := congrArg List.length hfile
    rw [length_blanked, List.length_append, List.length_append] at hlength
    refine ⟨ending, front.drop size, trailing, ?_, hwhite, hoffset⟩
    rw [hfile, List.drop_append_of_le_length (by omega)]

/-- **The files that are accepted**: at the first `%PDF-` of the head there is the line of a version, at the
end there is a final section within reach, and where it points there are cross-references. -/
theorem pdf_structure (file : Bytes) :
    matchesPdfStructure file = true ↔
      20 ≤ file.length ∧ FirstHeader (file.take pdfHeaderSearchBytes) ∧
        ∃ (ending : PdfFinalSection) (front trailing : Bytes),
          blanked file = front ++ (ending.encode ++ trailing) ∧ isPdfWhitespace trailing = true ∧
            ending.encode.length + trailing.length ≤ pdfTailSearchBytes ∧
            ending.xrefOffset ≤ 2 ^ 53 - 1 ∧ ending.xrefOffset < file.length ∧
            IsXref (blanked ((file.drop ending.xrefOffset).take pdfXrefTargetBytes)) := by
  unfold matchesPdfStructure
  rw [readExactly_start]
  dsimp only
  rw [readExactly_end]
  simp only [readExactly_min]
  by_cases hlength : file.length < 20
  · rw [if_pos hlength]
    exact iff_of_false Bool.false_ne_true fun h => absurd h.1 (Nat.not_le.mpr hlength)
  rw [if_neg hlength, and_iff_right (Nat.not_lt.mp hlength), ← hasVersionedHeader_iff]
  by_cases hheader : hasVersionedHeader (file.take pdfHeaderSearchBytes) = true
  swap
  · rw [Bool.eq_false_iff.mpr hheader]
    exact iff_of_false Bool.false_ne_true fun h => Bool.false_ne_true h.1
  rw [hheader, Bool.not_true, if_neg Bool.false_ne_true, and_iff_right rfl]
  constructor
  · intro h
    cases hending : findFinalSection (file.drop (file.length - min file.length pdfTailSearchBytes)) with
    | none =>
        rw [hending] at h
        cases h
    | some n =>
        rw [hending] at h
        dsimp only at h
        split_ifs at h with hrange
        obtain ⟨ending, front, trailing, hfile, hwhite, hfits, rfl⟩ := findFinalSection_end.mp hending
        exact ⟨ending, front, trailing, hfile, hwhite, hfits, by omega, by omega, isXref_iff.mp h⟩
  · rintro ⟨ending, front, trailing, hfile, hwhite, hfits, hsafe, hlt, hxref⟩
    rw [findFinalSection_end.mpr ⟨ending, front, trailing, hfile, hwhite, hfits, rfl⟩]
    dsimp only
    rw [if_neg (by omega)]
    exact isXref_iff.mpr hxref

end ApiWhatsApp
