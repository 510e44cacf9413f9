import Mathlib.Data.List.TakeWhile
import TypedPipeline.Metrics.Exposition
import TypedPipeline.Proofs.Json.Number
import TypedPipeline.Proofs.Text.Lines

/-!
# Reading an exposition

An exposition is read line by line. A line is a comment that introduces a family, or a sample: a
name, labels in braces, and a value. Inside the quotes of a label value a backslash begins one of
three escapes, and anything else that stands behind a backslash is a fault.

The reader is strict. It has one blank where blanks may be repeated, and does not know of times
behind a value, of empty braces or of other comments, all of which an exposition may have. Whatever
it accepts is read in the same way by readers that accept more.

Each piece is first read in front of a text that goes on, since nothing says beforehand where it
ends. That whole documents are read piece by piece is then one equation for a line (`lines?_line`).

## Implementation notes

The reader is defined here and not taken from the writer, and follows the rules of the format: what
a name may be, which escapes there are, and what a value looks like. It works on lists of characters
and gives back what it has not read, except for whole lines.

A label value is read to the first quote that is not escaped. Since every quote and every backslash
of a value is escaped, that is the quote which the writer has put at its end. Line feeds are escaped
too, so a value does not end a line; this is what makes it possible to cut a document into lines
first.

`Reads` is stated with whatever comes behind, so that it composes: texts one after the other are
read as the lists of their lines one after the other. Families, samples and whole documents are put
together by it.

## Main definitions

* `Scrape.Sample`, `Scrape.Line` — what a line says
* `Scrape.name?`, `Scrape.quoted?`, `Scrape.labels?`, `Scrape.isValue` — the parts of a line
* `Scrape.line?`, `Scrape.lines?` — a line, and a whole text
* `Scrape.Reads` — a text is read as certain lines, whatever comes behind it

## Main results

* `Scrape.quoted?_escape` — a label value is read back
* `Scrape.lines?_line` — the first line of a text is read by itself
* `Scrape.reads_sample`, `Scrape.reads_family` — what is written as a sample or a family is read so
-/

namespace TypedPipeline

namespace Scrape

/-! ### What is read

Lines are kept as they stand in the document. A value stays a text, since its meaning as a number is
of no use here. -/

/-- A sample. -/
structure Sample where
  name : String
  labels : List (String × String)
  value : String
deriving DecidableEq

/-- A line. -/
inductive Line where
  | help (name text : String)
  | type (name kind : String)
  | sample (s : Sample)
deriving DecidableEq

/-! ### Names -/

/-- Letters, digits and underscores; the names of families may have colons, too. -/
def isNameChar (colon : Bool) (c : Char) : Bool := c.isAlphanum || c == '_' || (colon && c == ':')

/-- Whether a text is a name, which has characters and does not begin with a digit. -/
def isName (colon : Bool) (name : String) : Bool :=
  match name.toList with
  | [] => false
  | c :: cs => !c.isDigit && (c :: cs).all (isNameChar colon)

/-- Reads a name. -/
def name? (colon : Bool) (cs : List Char) : Option (String × List Char) :=
  let name := String.ofList (cs.takeWhile (isNameChar colon))
  if isName colon name then some (name, cs.dropWhile (isNameChar colon)) else none

/-! ### Labels -/

/-- The character for which a character behind a backslash stands. -/
def unescape? : Char → Option Char
  | '\\' => some '\\'
  | '"' => some '"'
  | 'n' => some '\n'
  | _ => none

/-- Reads a label value and the quote behind it. -/
def quoted? : List Char → Option (List Char × List Char)
  | [] => none
  | '"' :: rest => some ([], rest)
  | '\\' :: [] => none
  | '\\' :: e :: rest => do
    let c ← unescape? e
    let (value, rest) ← quoted? rest
    some (c :: value, rest)
  | c :: rest => do
    let (value, rest) ← quoted? rest
    some (c :: value, rest)

theorem length_of_quoted? {cs value rest : List Char} (h : quoted? cs = some (value, rest)) :
    rest.length < cs.length := by
  induction cs using quoted?.induct generalizing value rest with
  | case1 => cases h
  | case2 rest' =>
    cases h
    exact Nat.lt_succ_self _
  | case3 => cases h
  | case4 e rest' ih =>
    simp only [quoted?, Option.bind_eq_bind, Option.bind_eq_some_iff] at h
    obtain ⟨c, -, ⟨v, r⟩, hr, heq⟩ := h
    cases heq
    have := ih hr
    simp only [List.length_cons]
    omega
  | case5 c rest' _ _ _ ih =>
    simp only [quoted?, Option.bind_eq_bind, Option.bind_eq_some_iff] at h
    obtain ⟨⟨v, r⟩, hr, heq⟩ := h
    cases heq
    have := ih hr
    simp only [List.length_cons]
    omega

/-- Reads a label: a name, and a value in quotes. -/
def label? (cs : List Char) : Option ((String × String) × List Char) :=
  match name? false cs with
  | some (name, '=' :: '"' :: rest) => do
    let (value, rest) ← quoted? rest
    some ((name, String.ofList value), rest)
  | _ => none

theorem length_of_label? {cs rest : List Char} {l : String × String}
    (h : label? cs = some (l, rest)) : rest.length < cs.length := by
  rw [label?] at h
  split at h
  · rename_i name rest' hname
    simp only [Option.bind_eq_bind, Option.bind_eq_some_iff] at h
    obtain ⟨⟨value, r⟩, hvalue, heq⟩ := h
    cases heq
    have hquoted : r.length < rest'.length := length_of_quoted? hvalue
    have hdropped : ('=' :: '"' :: rest').length ≤ cs.length := by
      rw [name?] at hname
      split at hname
      · rw [Option.some.injEq, Prod.mk.injEq] at hname
        rw [← hname.2]
        exact (List.dropWhile_sublist _).length_le
      · cases hname
    simp only [List.length_cons] at hdropped
    show r.length < cs.length
    omega
  · cases h

/-- Reads labels up to the closing brace. There is at least one. -/
def labels? (cs : List Char) : Option (List (String × String) × List Char) :=
  match _h : label? cs with
  | some (label, ',' :: rest) => do
    let (others, rest) ← labels? rest
    some (label :: others, rest)
  | some (label, '}' :: rest) => some ([label], rest)
  | _ => none
termination_by cs.length
decreasing_by
  have := length_of_label? _h
  rw [List.length_cons] at this
  omega

/-! ### Lines -/

/-- Whether a text is digits, and perhaps a point and more digits. -/
def isDecimal (cs : List Char) : Bool :=
  !(cs.takeWhile Char.isDigit).isEmpty &&
    match cs.dropWhile Char.isDigit with
    | [] => true
    | '.' :: places => !places.isEmpty && places.all Char.isDigit
    | _ => false

/-- Whether a text is a value: a number, an infinity, or what is no number. -/
def isValue (value : String) : Bool :=
  match value.toList with
  | '-' :: cs => isDecimal cs || cs == "inf".toList
  | cs => isDecimal cs || cs == "inf".toList || cs == "NaN".toList

/-- Reads a sample. -/
def sample? (cs : List Char) : Option Sample := do
  let (name, rest) ← name? true cs
  let (labels, rest) ←
    match rest with
    | '{' :: rest => labels? rest
    | rest => some ([], rest)
  match rest with
  | ' ' :: value =>
    if isValue (String.ofList value) then some ⟨name, labels, String.ofList value⟩ else none
  | _ => none

/-- The kinds of families. -/
def kinds : List String := ["counter", "gauge", "histogram", "summary", "untyped"]

/-- Reads a comment behind its hash. -/
def comment? : List Char → Option Line
  | ' ' :: 'H' :: 'E' :: 'L' :: 'P' :: ' ' :: rest => do
    match ← name? true rest with
    | (name, ' ' :: text) => some (.help name (String.ofList text))
    | _ => none
  | ' ' :: 'T' :: 'Y' :: 'P' :: 'E' :: ' ' :: rest => do
    match ← name? true rest with
    | (name, ' ' :: kind) =>
      if kinds.contains (String.ofList kind) then some (.type name (String.ofList kind)) else none
    | _ => none
  | _ => none

/-- Reads a line without its end. -/
def line? : List Char → Option Line
  | '#' :: rest => comment? rest
  | cs => (sample? cs).map .sample

/-- Reads a text that is cut at its line feeds. The last line has one, too. -/
def lines? (cs : List Char) : Option (List Line) :=
  (Text.linesWithEnds cs).mapM fun line =>
    if line.getLast? = some '\n' then line? line.dropLast else none

/-! ### Parts are read back -/

variable {rest : List Char}

theorem isNameChar_of_mem {colon : Bool} {name : String} (h : isName colon name = true) :
    ∀ c ∈ name.toList, isNameChar colon c = true := by
  intro c hc
  rw [isName] at h
  split at h
  · cases h
  · rename_i d ds hname
    rw [Bool.and_eq_true, List.all_eq_true] at h
    exact h.2 c (hname ▸ hc)

theorem name?_append {colon : Bool} {name : String} (h : isName colon name = true)
    (hrest : ∀ c ∈ rest.head?, isNameChar colon c = false) :
    name? colon (name.toList ++ rest) = some (name, rest) := by
  have hchars := isNameChar_of_mem h
  have hends : rest.takeWhile (isNameChar colon) = [] ∧
      rest.dropWhile (isNameChar colon) = rest := by
    cases rest with
    | nil => exact ⟨rfl, rfl⟩
    | cons c rest =>
      have hc := hrest c rfl
      exact ⟨by simp [hc], by simp [hc]⟩
  rw [name?, List.takeWhile_append_of_pos hchars, List.dropWhile_append_of_pos hchars, hends.1,
    hends.2, List.append_nil, String.ofList_toList, if_pos h]

/-- A character is read as the one that was written. -/
theorem quoted?_escapeChar (c : Char) (cs : List Char) :
    quoted? (Exposition.escapeChar c ++ cs) = (quoted? cs).map fun r => (c :: r.1, r.2) := by
  unfold Exposition.escapeChar
  split
  case h_4 hslash hquote _ =>
    rw [List.singleton_append, quoted?]
    · cases quoted? cs <;> rfl
    · exact hquote
    · exact fun h => absurd h hslash
    · exact fun _ _ h => absurd h hslash
  all_goals
    simp only [List.cons_append, List.nil_append, quoted?, unescape?]
    cases quoted? cs <;> rfl

/-- A label value is read as it was before it was written. This holds for any text, and nothing is
asked of what follows the quote. -/
theorem quoted?_escape (s : String) (rest : List Char) :
    quoted? ((Exposition.escape s).toList ++ '"' :: rest) = some (s.toList, rest) := by
  rw [Exposition.escape, String.toList_ofList]
  generalize s.toList = cs
  induction cs with
  | nil => rfl
  | cons c cs ih => rw [List.flatMap_cons, List.append_assoc, quoted?_escapeChar, ih]; rfl

theorem label?_label {name : String} (hname : isName false name = true) (value : String)
    (rest : List Char) :
    label? ((Exposition.label name value).toList ++ rest) = some ((name, value), rest) := by
  have hlabel : (Exposition.label name value).toList ++ rest =
      name.toList ++ '=' :: '"' :: ((Exposition.escape value).toList ++ '"' :: rest) := by
    simp [Exposition.label]
  have hends : ∀ c ∈ ('=' :: '"' :: ((Exposition.escape value).toList ++ '"' :: rest)).head?,
      isNameChar false c = false := by
    intro c hc
    cases hc
    rfl
  rw [hlabel, label?, name?_append hname hends]
  simp [quoted?_escape]

/-- Labels with commas between them are read up to the brace. -/
theorem labels?_append {ls : List (String × String)} (hne : ls ≠ [])
    (hnames : ∀ l ∈ ls, isName false l.1 = true) (rest : List Char) :
    labels? ((",".intercalate (ls.map fun l => Exposition.label l.1 l.2)).toList ++ '}' :: rest) =
      some (ls, rest) := by
  rw [String.toList_intercalate]
  induction ls with
  | nil => exact absurd rfl hne
  | cons l others ih =>
    rw [List.forall_mem_cons] at hnames
    cases others with
    | nil =>
      rw [List.map_singleton, List.map_singleton, List.intercalate_singleton, labels?,
        label?_label hnames.1]
      rfl
    | cons m others =>
      have hothers := ih (List.cons_ne_nil m others) hnames.2
      simp only [List.map_cons] at hothers ⊢
      rw [List.intercalate_cons_cons, List.append_assoc, List.append_assoc, labels?,
        label?_label hnames.1]
      exact congrArg (fun x => x.bind fun r => some (l :: r.1, r.2)) hothers

/-! ### Values

Only two kinds of values are written: naturals, and numbers with a fixed count of places, which may
be infinite or no number. -/

section Values

open JsonNumber (IsDigits)

variable {whole places cs : List Char}

theorem isDecimal_of_isDigits (h : IsDigits whole) : isDecimal whole = true := by
  have htake : whole.takeWhile Char.isDigit = whole := List.takeWhile_eq_self_iff.mpr h.2
  have hdrop : whole.dropWhile Char.isDigit = [] := List.dropWhile_eq_nil_iff.mpr h.2
  rw [isDecimal, htake, hdrop]
  simp [h.1]

theorem isDecimal_append (hwhole : IsDigits whole) (hplaces : IsDigits places) :
    isDecimal (whole ++ '.' :: places) = true := by
  have hpoint : Char.isDigit '.' = false := rfl
  rw [isDecimal, List.takeWhile_append_of_pos hwhole.2, List.dropWhile_append_of_pos hwhole.2]
  simpa [hpoint, hwhole.1, hplaces.1] using hplaces.2

theorem feed_not_mem_of_isDecimal (h : isDecimal cs = true) : '\n' ∉ cs := by
  have hfeed : Char.isDigit '\n' = false := rfl
  rw [isDecimal, Bool.and_eq_true] at h
  rw [← List.takeWhile_append_dropWhile (p := Char.isDigit) (l := cs), List.mem_append, not_or]
  constructor
  · intro hmem
    exact absurd (List.mem_takeWhile_imp hmem) (by decide)
  · obtain ⟨-, h⟩ := h
    split at h
    · rename_i hdrop
      simp [hdrop]
    · rename_i places hdrop
      rw [Bool.and_eq_true, List.all_eq_true] at h
      rw [hdrop, List.mem_cons, not_or]
      exact ⟨by decide, fun hmem => absurd (h.2 _ hmem) (by decide)⟩
    · cases h

theorem feed_not_mem_of_isValue {value : String} (h : isValue value = true) :
    '\n' ∉ value.toList := by
  rw [isValue] at h
  split at h
  · rename_i cs hcs
    rw [hcs, List.mem_cons, not_or]
    refine ⟨by decide, ?_⟩
    rw [Bool.or_eq_true, beq_iff_eq] at h
    rcases h with h | rfl
    · exact feed_not_mem_of_isDecimal h
    · decide
  · rw [Bool.or_eq_true, Bool.or_eq_true, beq_iff_eq, beq_iff_eq] at h
    rcases h with (h | h) | h
    · exact feed_not_mem_of_isDecimal h
    · rw [h]
      decide
    · rw [h]
      decide

theorem isValue_of_isDecimal (h : isDecimal cs = true) (negative : Bool) :
    isValue (String.ofList (if negative then '-' :: cs else cs)) = true := by
  rw [isValue, String.toList_ofList]
  cases negative with
  | true => simp [h]
  | false =>
    rw [if_neg Bool.false_ne_true]
    split
    · cases h
    · simp [h]

theorem isValue_toString (n : Nat) : isValue (toString n) = true := by
  have h := isValue_of_isDecimal (isDecimal_of_isDigits (Decimal.isDigits_digitChars n)) false
  rwa [if_neg Bool.false_ne_true, Decimal.digitChars, String.ofList_toList] at h

/-- A number with places has digits in front of the point and behind it. -/
theorem isDecimal_positional (n : Nat) {count : Nat} (hcount : 0 < count) :
    isDecimal (Decimal.positional false ⟨n, -(count : Int)⟩) = true := by
  have hdigits := Decimal.isDigits_digitChars n
  have hlength := List.length_pos_iff.mpr hdigits.1
  have hneg : ¬ 0 ≤ -(count : Int) := by omega
  have hplaces : (- -(count : Int)).toNat = count := by omega
  rw [Decimal.positional, Decimal.placed]
  dsimp only
  rw [if_neg hneg, hplaces]
  generalize hpadded : List.replicate (count + 1 - (Decimal.digitChars n).length) '0' ++
    Decimal.digitChars n = padded
  have hall : ∀ c ∈ padded, c.isDigit = true :=
    JsonNumber.isDigit_of_zeros hdigits.2 (.inl hpadded.symm)
  have hlong : count + 1 ≤ padded.length := by
    simp only [← hpadded, List.length_append, List.length_replicate]
    omega
  have htake : padded.take (padded.length - count) ≠ [] := by
    rw [← List.length_pos_iff, List.length_take]
    omega
  have hdrop : padded.drop (padded.length - count) ≠ [] := by
    rw [← List.length_pos_iff, List.length_drop]
    omega
  split
  · rename_i heq
    exact absurd (Prod.mk.inj heq).2 hdrop
  · rename_i heq
    obtain ⟨rfl, rfl⟩ := Prod.mk.inj heq
    exact isDecimal_append (JsonNumber.isDigits_take hall htake)
      (JsonNumber.isDigits_drop hall hdrop)

theorem isValue_seconds (ms : Binary64) : isValue (Exposition.seconds ms) = true := by
  have hnan : isValue Decimal.plainStyle.nan = true := by decide
  have hinfinity : ∀ negative : Bool, isValue (String.ofList (
      if negative then '-' :: Decimal.plainStyle.infinity.toList
      else Decimal.plainStyle.infinity.toList)) = true := by decide
  rw [Exposition.seconds, Decimal.renderFixed]
  generalize ms / Binary64.ofNat 1000 = x
  by_cases hx : x.isNaN
  · rw [if_pos hx, hnan]
  · rw [if_neg hx]
    dsimp only
    by_cases hinfinite : x.isInfinite
    · rw [if_pos hinfinite, hinfinity]
    · rw [if_neg hinfinite]
      generalize Binary64.roundQuotient .toEven (x.ratio.1 * 10 ^ 6) x.ratio.2 = n
      exact isValue_of_isDecimal (isDecimal_positional n (Nat.succ_pos 5)) x.negative

end Values

/-! ### Lines are read back

For each kind of line there is a lemma that it is read as what was written, and one that there is no
line feed in it. -/

section Lines

variable {name value : String} {ls : List (String × String)}

/-- A line that is written for a sample, without its end. -/
def sampleChars (name : String) (ls : List (String × String)) (value : String) : List Char :=
  name.toList ++
    ((if ls.isEmpty then []
      else '{' :: (",".intercalate (ls.map fun l => Exposition.label l.1 l.2)).toList ++ ['}']) ++
      ' ' :: value.toList)

theorem toList_sample (name : String) (ls : List (String × String)) (value : String) :
    (Exposition.sample name ls value).toList = sampleChars name ls value ++ ['\n'] := by
  rw [Exposition.sample, sampleChars]
  cases ls.isEmpty <;> simp

theorem sample?_sampleChars (hname : isName true name = true)
    (hlabels : ∀ l ∈ ls, isName false l.1 = true) (hvalue : isValue value = true) :
    sample? (sampleChars name ls value) = some ⟨name, ls, value⟩ := by
  rw [sampleChars]
  cases ls with
  | nil =>
    rw [sample?, name?_append hname (by simp; decide)]
    simp [hvalue]
  | cons l others =>
    have hread := labels?_append (List.cons_ne_nil l others) hlabels (' ' :: value.toList)
    generalize (",".intercalate ((l :: others).map fun l => Exposition.label l.1 l.2)).toList = text
      at hread ⊢
    rw [sample?, name?_append hname (by simp; decide)]
    simp [hread, hvalue]

theorem exists_cons_of_isName {colon : Bool} (h : isName colon name = true) :
    ∃ c cs, name.toList = c :: cs := by
  rw [isName] at h
  split at h
  · cases h
  · rename_i c cs hname
    exact ⟨c, cs, hname⟩

theorem not_mem_of_isName {colon : Bool} (h : isName colon name = true) {c : Char}
    (hc : isNameChar colon c = false) : c ∉ name.toList := by
  intro hmem
  rw [isNameChar_of_mem h c hmem] at hc
  cases hc

theorem feed_not_mem_escape (s : String) : '\n' ∉ (Exposition.escape s).toList := by
  rw [Exposition.escape, String.toList_ofList, List.mem_flatMap]
  rintro ⟨c, -, hc⟩
  unfold Exposition.escapeChar at hc
  split at hc
  case h_4 _ _ hfeed =>
    exact hfeed (List.mem_singleton.mp hc).symm
  all_goals simp at hc

theorem not_mem_intercalate {c : Char} {sep : List Char} {l : List (List Char)} (hsep : c ∉ sep)
    (h : ∀ cs ∈ l, c ∉ cs) : c ∉ sep.intercalate l := by
  induction l with
  | nil => exact List.not_mem_nil
  | cons cs rest ih =>
    rw [List.forall_mem_cons] at h
    cases rest with
    | nil => simpa using h.1
    | cons ds rest =>
      rw [List.intercalate_cons_cons]
      simp [h.1, hsep, ih h.2]

theorem feed_not_mem_sampleChars (hname : isName true name = true)
    (hlabels : ∀ l ∈ ls, isName false l.1 = true) (hvalue : isValue value = true) :
    '\n' ∉ sampleChars name ls value := by
  have hlabel : ∀ l ∈ ls, '\n' ∉ (Exposition.label l.1 l.2).toList := by
    intro l hl
    have hfirst := not_mem_of_isName (hlabels l hl) (c := '\n') (by decide)
    have hsecond := feed_not_mem_escape l.2
    simp [Exposition.label, hfirst, hsecond]
  have hjoined : '\n' ∉ (",".intercalate (ls.map fun l => Exposition.label l.1 l.2)).toList := by
    rw [String.toList_intercalate]
    refine not_mem_intercalate (by decide) fun cs hcs => ?_
    rw [List.map_map, List.mem_map] at hcs
    obtain ⟨l, hl, rfl⟩ := hcs
    exact hlabel l hl
  have hfirst := not_mem_of_isName hname (c := '\n') (by decide)
  have hlast := feed_not_mem_of_isValue hvalue
  rw [sampleChars]
  cases ls.isEmpty <;> simp [hfirst, hlast, -String.toList_intercalate, hjoined]

theorem line?_sampleChars (hname : isName true name = true)
    (hlabels : ∀ l ∈ ls, isName false l.1 = true) (hvalue : isValue value = true) :
    line? (sampleChars name ls value) = some (.sample ⟨name, ls, value⟩) := by
  have hread := sample?_sampleChars hname hlabels hvalue
  have hhash := not_mem_of_isName hname (c := '#') (by decide)
  unfold line?
  split
  · rename_i rest heq
    obtain ⟨c, cs, hcs⟩ := exists_cons_of_isName hname
    rw [sampleChars, hcs, List.cons_append] at heq
    rw [hcs, (List.cons.inj heq).1] at hhash
    exact absurd List.mem_cons_self hhash
  · rw [hread]
    rfl

/-- A comment that is written for a family, without its end. -/
def commentChars (word name text : String) : List Char :=
  '#' :: ' ' :: (word.toList ++ ' ' :: (name.toList ++ ' ' :: text.toList))

theorem line?_help (hname : isName true name = true) (help : String) :
    line? (commentChars "HELP" name help) = some (.help name help) := by
  have hchars : commentChars "HELP" name help =
      '#' :: ' ' :: 'H' :: 'E' :: 'L' :: 'P' :: ' ' :: (name.toList ++ ' ' :: help.toList) := rfl
  rw [hchars, line?, comment?, name?_append hname (by simp; decide)]
  simp

theorem line?_type (hname : isName true name = true) {kind : String} (hkind : kind ∈ kinds) :
    line? (commentChars "TYPE" name kind) = some (.type name kind) := by
  have hchars : commentChars "TYPE" name kind =
      '#' :: ' ' :: 'T' :: 'Y' :: 'P' :: 'E' :: ' ' :: (name.toList ++ ' ' :: kind.toList) := rfl
  rw [hchars, line?, comment?, name?_append hname (by simp; decide)]
  simp [hkind]

theorem feed_not_mem_commentChars {word text : String} (hword : '\n' ∉ word.toList)
    (hname : isName true name = true) (htext : '\n' ∉ text.toList) :
    '\n' ∉ commentChars word name text := by
  have hmiddle := not_mem_of_isName hname (c := '\n') (by decide)
  simp [commentChars, hword, hmiddle, htext]

end Lines

/-! ### Texts are read back -/

/-- The first line of a text is read by itself. What comes behind it is read as if it stood
alone. -/
theorem lines?_line {cs : List Char} (h : '\n' ∉ cs) (rest : List Char) :
    lines? (cs ++ '\n' :: rest) = (line? cs).bind fun l => (lines? rest).map (l :: ·) := by
  rw [lines?, Text.linesWithEnds_append_cons h, List.mapM_cons]
  simp only [List.getLast?_concat, List.dropLast_concat, if_true]
  cases line? cs with
  | none => rfl
  | some l =>
    cases hrest : lines? rest <;> rw [lines?] at hrest <;> simp [hrest]

/-- A text is read as these lines, whatever comes behind it. -/
def Reads (t : String) (ls : List Line) : Prop :=
  ∀ rest, lines? (t.toList ++ rest) = (lines? rest).map (ls ++ ·)

namespace Reads

variable {t u : String} {ls ms : List Line}

theorem lines?_eq (h : Reads t ls) : lines? t.toList = some ls := by
  have hnil : lines? [] = some [] := rfl
  have hread := h []
  rw [List.append_nil, hnil] at hread
  simpa using hread

theorem append (ht : Reads t ls) (hu : Reads u ms) : Reads (t ++ u) (ls ++ ms) := by
  intro rest
  rw [String.toList_append, List.append_assoc, ht, hu, Option.map_map]
  simp [Function.comp_def]

theorem of_line? {cs : List Char} {l : Line} (hcs : '\n' ∉ cs) (hl : line? cs = some l)
    (ht : t.toList = cs ++ ['\n']) : Reads t [l] := by
  intro rest
  rw [ht, List.append_assoc, List.singleton_append, lines?_line hcs, hl]
  rfl

/-- Texts one after the other. -/
theorem join {α : Type} {l : List α} {f : α → String} {g : α → List Line}
    (h : ∀ a ∈ l, Reads (f a) (g a)) : Reads (String.join (l.map f)) (l.flatMap g) := by
  induction l with
  | nil =>
    intro rest
    show lines? rest = (lines? rest).map ([] ++ ·)
    simp
  | cons a l ih =>
    rw [List.forall_mem_cons] at h
    have hcons : String.join ((a :: l).map f) = f a ++ String.join (l.map f) := by
      rw [← String.toList_inj, String.toList_append, String.toList_join, String.toList_join]
      rfl
    rw [hcons, List.flatMap_cons]
    exact h.1.append (ih h.2)

end Reads

theorem reads_sample {name value : String} {ls : List (String × String)}
    (hname : isName true name = true) (hlabels : ∀ l ∈ ls, isName false l.1 = true)
    (hvalue : isValue value = true) :
    Reads (Exposition.sample name ls value) [.sample ⟨name, ls, value⟩] :=
  .of_line? (feed_not_mem_sampleChars hname hlabels hvalue)
    (line?_sampleChars hname hlabels hvalue) (toList_sample name ls value)

theorem reads_family {name help kind : String} (hname : isName true name = true)
    (hhelp : '\n' ∉ help.toList) (hkind : kind ∈ kinds) :
    Reads (Exposition.family name help kind) [.help name help, .type name kind] := by
  have hkinds : ∀ k ∈ kinds, '\n' ∉ k.toList := by decide
  intro rest
  have htext : (Exposition.family name help kind).toList ++ rest =
      commentChars "HELP" name help ++ '\n' :: (commentChars "TYPE" name kind ++ '\n' :: rest) := by
    -- an equation for `family` would be slow to make: texts are compared byte by byte
    delta Exposition.family
    simp [commentChars]
  rw [htext, lines?_line (feed_not_mem_commentChars (by decide) hname hhelp),
    lines?_line (feed_not_mem_commentChars (by decide) hname (hkinds kind hkind)),
    line?_help hname, line?_type hname hkind]
  simp [Function.comp_def]

end Scrape

end TypedPipeline
