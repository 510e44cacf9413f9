import Mathlib.Algebra.Order.BigOperators.Group.List
import TypedPipeline.Proofs.Builtin
import TypedPipeline.Proofs.Json.Decode
import TypedPipeline.Proofs.Number.Monotone
import TypedPipeline.Proofs.Text.Words

/-!
# What the counted lines say

The figures of a text are made line by line, and the end of a line is left out before its words are
counted. What they say can be put without lines being taken apart: the lines are told by the line
feeds of the text, and the words are the words of the part of it that the considered lines make up.

On a machine that reads, makes directories and writes, `line_stats` ends well, and these figures are
what it has written. The report is a JSON text, so what it says is what a reader of JSON finds in
it: an object with the five figures under their names, and nothing else. A component that goes on
with the figures gets them back as they were counted, which needs them to fit into 64 bits. They do
for every text that a machine can hold: no count is greater than the number of bytes, and a rate of
at most one leads to no more sampled lines than the next power of two has.

## Implementation notes

The work is gone through step by step, and each step has a lemma for the case in which it ends well.
The hypotheses about the machine are about one action each, in the state in which it is made: what
is read, that the directory is made, that the file is written. So the machine may do anything else
between these actions, and nothing is said of other paths.

The written text is pretty-printed JSON, and what a reader finds in it is known of all data. What
has to be added for the report are two things, that the fields of an object are found again under
their names and that each of the five counts is small enough to be read. The bound on the number of
sampled lines is the least obvious one, because they are computed with floats: lines are counted up
to a power of two, rounding respects the order of numbers, and a rate is at most one.

## Main definitions

* `Builtin.LineStatistics.figures` — the figures with their names

## Main results

* `Builtin.LineStatistics.words_ofText` — the words of the considered lines
* `Builtin.LineStatistics.ofJson?_pretty` — a report is read back as its figures
* `Builtin.run_lineStats` — what is written
* `Builtin.lineStats_counts_words` — what it says of the text
-/

namespace TypedPipeline

variable {W α β : Type} {host : Host (StateM W)} {h : Work.Handed} {s s' : Store} {w w' : W}

/-! ### Steps that end well

Each lemma is about one step of the work, in any store and any state of the machine. A step that
reads leaves the store as it is, and only the last one changes it. -/

theorem Host.textOf?_toUTF8 (text : String) : textOf? text.toUTF8 = .ok text := by
  have hvalid : text.toUTF8.IsValidUTF8 := text.isValidUTF8
  rw [textOf?, String.fromUTF8?, dif_pos hvalid]
  rfl

namespace Builtin

theorem run_parameter {parameters : Parameters} {name : String} {a : α} {value? : Scalar → Option α}
    (ha : (parameters.find? name).bind value? = some a) (expected : ScalarType) (w : W) :
    (parameter parameters name expected value?).run host h s w = ((.ok a, s), w) := by
  rw [parameter, ha]
  rfl

/-- The only artifact of a field is found in its slot. Neither the store nor the machine is
asked. -/
theorem run_single (side : Side) {field : String} {a : Artifact}
    (ha : (h.side side).find? field = some [a]) (w : W) :
    (Work.single side ((h.side side).map fun _ l => l.map Artifact.type) field).run host h s w =
      ((.ok ⟨side, field, 0⟩, s), w) := by
  rw [Work.single, SortedMap.find?_map, ha]
  rfl

theorem run_inputPath {field path : String} {a : Artifact} (ha : h.inputs.find? field = some [a])
    (hpath : (s.artifact a).uri = some path) (w : W) :
    (inputPath h.offer field).run host h s w = ((.ok path, s), w) := by
  refine (Work.run_bind_of_done (run_single .input ha w) _).trans ?_
  rw [Work.requireUri, Work.run_look, Work.Handed.artifact?_of_find? .input ha]
  simp only [Option.map_some, Option.bind_some, hpath]
  rfl

theorem run_readText {path text : String} (hread : host (.read path) w = (.ok text.toUTF8, w')) :
    (readText path).run host h s w = ((.ok text, s), w') := by
  have hbytes : (readBytes path).run host h s w = ((.ok text.toUTF8, s), w') := by
    rw [readBytes, Work.run_bind, Work.request, Work.run_ask, hread]
    rfl
  rw [readText, Work.run_bind_of_done hbytes, Host.textOf?_toUTF8]
  rfl

theorem run_stagingDirectory {field dir : String} {a : Artifact}
    (ha : h.outputs.find? field = some [a]) (hdir : a.staging = some dir)
    (hmade : host (.createDirectories dir) w = (.ok (), w')) :
    (stagingDirectory ⟨.output, field, 0⟩).run host h s w = ((.ok dir, s), w') := by
  rw [stagingDirectory, Work.run_look, Work.Handed.artifact?_of_find? .output ha]
  simp only [Option.map_some, hdir]
  rw [Work.run_bind, Work.request, Work.run_ask, hmade]
  rfl

theorem run_writeText {path text : String}
    (hwritten : host (.write path text.toUTF8) w = (.ok (), w')) :
    (writeText path text).run host h s w = ((.ok (), s), w') := by
  rw [writeText, Work.run_bind, Work.request, Work.run_ask, hwritten]
  rfl

/-- An output without location is written: its directory is made, then come its file, a property and
the location. -/
theorem run_written {field dir name text property : String} {a : Artifact} {value : Scalar}
    {w'' : W} (ha : h.outputs.find? field = some [a]) (hdir : a.staging = some dir)
    (hblank : (s.artifact a).uri = none) (hmade : host (.createDirectories dir) w = (.ok (), w'))
    (hwritten : host (.write (Path.join dir name) text.toUTF8) w' = (.ok (), w'')) :
    ∃ s', (do
        let output ← h.offer.output field
        let destination := Path.join (← stagingDirectory output) name
        writeText destination text
        Work.apply output (.setProperty property value)
        Work.apply output (.setUri destination)).run host h s w = ((.ok (), s'), w'') ∧
      s.Locates a (Path.join dir name) s' := by
  have hslot := Work.Handed.artifact?_of_find? .output ha
  have hoffer : (h.offer.output field).run host h s w = ((.ok ⟨.output, field, 0⟩, s), w) :=
    run_single .output ha w
  obtain ⟨s', hseal, hlocates⟩ := ((Work.Seals.setUri hslot (Path.join dir name)).setProperty
    hslot property value).ok s w'' hblank
  refine ⟨s', ?_, hlocates⟩
  rw [Work.run_bind_of_done hoffer, Work.run_bind_of_done (run_stagingDirectory ha hdir hmade),
    Work.run_bind_of_done (run_writeText hwritten)]
  exact hseal

/-! ### Figures

The words of single lines are counted and added up. A word does not go on over the end of a line, so
the sum is the number of words of all the lines together. -/

namespace LineStatistics

variable (text : String) (m : Nat) (rate : Binary64)

theorem lines_ofText : (ofText text m rate).lines = Text.lineCount text.toList := by
  rw [ofText, Text.lines, List.length_map, Text.length_linesWithEnds]

theorem consideredLines_ofText :
    (ofText text m rate).consideredLines = min (ofText text m rate).lines m := by
  rw [ofText, List.length_take, Nat.min_comm]

theorem words_ofText :
    (ofText text m rate).words = Text.wordCount (Text.firstLines m text.toList) :=
  Text.sum_wordCount_lines m text.toList

end LineStatistics

/-- The more lines are considered, the more words there are. The rate plays no part in this, since
it only decides how many lines are said to be sampled. -/
theorem LineStatistics.words_mono (text : String) (rate : Binary64) {m n : Nat} (hmn : m ≤ n) :
    (ofText text m rate).words ≤ (ofText text n rate).words :=
  ((List.take_prefix_take_left hmn).sublist.map Text.wordCount).sum_le_sum fun _ _ => Nat.zero_le _

/-! ### Figures as JSON

A figure is written as a JSON integer. It is read back as a number of 64 bits, so a greater one
would be refused by the reader, though it is in the text. -/

/-- A count is read back if it has at most 64 bits. A greater one would be read as a float and
refused. -/
theorem natural64?_ofInt {n : Nat} (hn : n < 2 ^ 64) :
    JsonTree.natural64? (.number (.ofInt n)) = some n := by
  have hvalue := JsonNumber.value?_ofInt (n := n) (by omega) (by exact_mod_cast hn)
  rw [JsonTree.natural64?, hvalue]
  simp

/-- A rate is at most one. Of a number below zero, and of what is no number, it is not true that
zero is below it. -/
theorem code_le_of_isRate {x : Binary64} (h : isRate x = true) :
    x.code ≤ (Binary64.ofNat 1).code := by
  obtain ⟨hzero, hone⟩ := Bool.and_eq_true_iff.mp h
  have hnumber : (Binary64.ofNat 1).isNaN = false := by decide
  have hsigns : (Binary64.zero false).negative = false ∧ (Binary64.ofNat 1).negative = false := by
    decide
  cases hx : x.isZero with
  | true =>
    have hcode : x.code = 0 := by simpa [Binary64.isZero] using hx
    omega
  | false =>
    cases hnan : x.isNaN with
    | true => simp [Binary64.le, hnan] at hone
    | false =>
      cases hsign : x.negative with
      | true => simp [Binary64.le, hx, hnan, hsign, hsigns] at hzero
      | false => simpa [Binary64.le, hx, hnan, hsign, hsigns, hnumber] using hone

namespace LineStatistics

/-- The figures with their names, in the order in which they are written. -/
def figures (s : LineStatistics) : List (String × Nat) :=
  [("lines", s.lines), ("words", s.words), ("bytes", s.bytes),
    ("considered_lines", s.consideredLines), ("sampled_lines", s.sampledLines)]

variable {s : LineStatistics}

/-- In the JSON text of the figures there is an object with every figure under its name. -/
theorem ofText?_pretty : JsonTree.ofText? (Json.pretty s.datum) =
    some (.object (s.figures.map fun f => (some f.1, .number (.ofInt f.2)))) :=
  JsonTree.ofText?_pretty s.datum

/-- The figures are read back, if each of them has at most 64 bits. -/
theorem ofJson?_pretty (h : ∀ f ∈ s.figures, f.2 < 2 ^ 64) :
    ofJson? (Json.pretty s.datum) = some s := by
  have hrecord : (JsonTree.object (s.figures.map fun f => (some f.1, .number (.ofInt f.2)))).record?
      names = some ((s.figures.map Prod.snd).map fun n => some (.number (.ofInt n))) := rfl
  have hread : ((s.figures.map Prod.snd).map fun n : Nat =>
      some (JsonTree.number (.ofInt n))).mapM (fun f => f.bind JsonTree.natural64?) =
        some (s.figures.map Prod.snd) := by
    rw [List.mapM_map, mapM_eq_self_iff]
    intro n hn
    obtain ⟨f, hf, rfl⟩ := List.mem_map.mp hn
    exact natural64?_ofInt (h f hf)
  rw [ofJson?, ofText?_pretty]
  simp only [Option.bind_eq_bind, Option.bind_some, hrecord, hread]
  rfl

/-- The figures of a text have at most 64 bits, if the bytes of the text can be counted with 63. -/
theorem figures_ofText_lt {text : String} (m : Nat) {rate : Binary64} (hrate : isRate rate = true)
    (hsize : text.utf8ByteSize < 2 ^ 63) : ∀ f ∈ (ofText text m rate).figures, f.2 < 2 ^ 64 := by
  have hlength := Text.length_le_utf8ByteSize text
  have hlines := lines_ofText text m rate
  have hconsidered := consideredLines_ofText text m rate
  have hwords := words_ofText text m rate
  have hcount := Text.lineCount_le text.toList
  have hpart := (Text.isPrefix_firstLines m text.toList).length_le
  have hstarts := Text.wordStarts_le false (Text.firstLines m text.toList)
  have hsampled : (ofText text m rate).sampledLines ≤ 2 ^ 63 := by
    have hexact : (Binary64.ofNat (1 * 2 ^ 63)).IsExact (1 * 2 ^ 63) :=
      Binary64.ofNat_isExact (by decide) (by decide)
    rw [Nat.one_mul] at hexact
    have hone : (Binary64.ofNat (1 * 2 ^ 0)).IsExact (1 * 2 ^ 0) :=
      Binary64.ofNat_isExact (by decide) (by decide)
    have hcode := code_le_of_isRate hrate
    have hfinite := Binary64.isFinite_of_code_lt (hcode.trans_lt (Binary64.code_lt hone.isFinite))
    refine Binary64.ceilNat_ofNat_mul_le (n := (ofText text m rate).consideredLines) hexact
      (by omega) hfinite ?_
    exact_mod_cast (Binary64.absValue_mono hcode).trans_eq hone.absValue
  have hbytes : (ofText text m rate).bytes = text.utf8ByteSize := rfl
  rw [Text.wordCount] at hwords
  intro f hf
  simp only [figures, List.mem_cons, List.not_mem_nil, or_false] at hf
  rcases hf with rfl | rfl | rfl | rfl | rfl <;> dsimp only <;> omega

end LineStatistics

/-! ### Reports

All hypotheses about parameters, artifacts and the machine are shared by the two results, so they
are given once here. What they ask of the machine is that one text can be read and one directory be
made. -/

section Report

variable {w₁ w₂ : W} {parameters : Parameters} {maxLines : Int64} {rate : Binary64}
  {source target : Artifact} {path dir text : String}
  (hmax : parameters.find? "max_lines" = some (.integer maxLines)) (hpositive : 1 ≤ maxLines.toInt)
  (hrate : parameters.find? "sample_rate" = some (.float rate)) (hvalid : isRate rate = true)
  (hsource : h.inputs.find? "data" = some [source]) (hpath : (s.artifact source).uri = some path)
  (htarget : h.outputs.find? "stats" = some [target]) (hdir : target.staging = some dir)
  (hblank : (s.artifact target).uri = none)
  (hread : host (.read path) w = (.ok text.toUTF8, w₁))
  (hmade : host (.createDirectories dir) w₁ = (.ok (), w₂))

include hmax hpositive hrate hvalid hsource hpath htarget hdir hblank hread hmade

/-- Where the data can be read and the output can be written, the figures of the data are written
into the directory of the output. -/
theorem run_lineStats (hwritten : host (.write (Path.join dir "stats.json")
      (Json.pretty (LineStatistics.ofText text maxLines.toInt.toNat rate).datum).toUTF8) w₂ =
        (.ok (), w')) :
    ∃ s', (lineStats h.offer parameters).run host h s w = ((.ok (), s'), w') ∧
      s.Locates target (Path.join dir "stats.json") s' := by
  have hlines : (parameter parameters "max_lines" .integer Scalar.integer?).run host h s w =
      ((.ok maxLines, s), w) := run_parameter (by rw [hmax]; rfl) _ w
  have hsampled : (parameter parameters "sample_rate" .float Scalar.float?).run host h s w =
      ((.ok rate, s), w) := run_parameter (by rw [hrate]; rfl) _ w
  rw [lineStats, Work.run_bind_of_done hlines, if_neg (by omega), Work.run_bind_of_done hsampled,
    if_neg (by simp [hvalid]), Work.run_bind_of_done (run_inputPath hsource hpath w),
    Work.run_bind_of_done (run_readText hread)]
  exact run_written htarget hdir hblank hmade hwritten

/-- Where at least one line is to be considered and the rate is valid, and the data can be read as a
text and the output can be written, `line_stats` ends well and writes figures. The file is a JSON
text with one object, in which each figure stands under its name and nothing else does. A text whose
bytes can be counted with 63 bits has figures that are read back from the file.

The figures say this of the text. The considered lines are all lines, or as many as were asked for.
The words are the words of the one part of the text that the considered lines make up. If more lines
are asked for, there are not fewer words, and they are the words of the whole text if all lines are
asked for. -/
theorem lineStats_counts_words
    (hwritable : ∀ bytes, ∃ w',
      host (.write (Path.join dir "stats.json") bytes) w₂ = (.ok (), w')) :
    let stats := LineStatistics.ofText text maxLines.toInt.toNat rate
    (∃ s' w', host (.write (Path.join dir "stats.json") (Json.pretty stats.datum).toUTF8) w₂ =
        (.ok (), w') ∧
      (lineStats h.offer parameters).run host h s w = ((.ok (), s'), w') ∧
      s.Locates target (Path.join dir "stats.json") s') ∧
    JsonTree.ofText? (Json.pretty stats.datum) = some (.object
      (stats.figures.map fun figure => (some figure.1, .number (.ofInt figure.2)))) ∧
    (text.utf8ByteSize < 2 ^ 63 → LineStatistics.ofJson? (Json.pretty stats.datum) = some stats) ∧
    stats.lines = Text.lineCount text.toList ∧
    stats.consideredLines = min stats.lines maxLines.toInt.toNat ∧
    (∃ part, (∀ p, Text.IsFirstLines stats.consideredLines text.toList p ↔ p = part) ∧
      (Text.words part).encard = stats.words) ∧
    (∀ n, maxLines.toInt.toNat ≤ n → stats.words ≤ (LineStatistics.ofText text n rate).words) ∧
    (stats.lines ≤ maxLines.toInt.toNat → (Text.words text.toList).encard = stats.words) := by
  intro stats
  have hlines : stats.lines = Text.lineCount text.toList := LineStatistics.lines_ofText ..
  have hconsidered : stats.consideredLines = min stats.lines maxLines.toInt.toNat :=
    LineStatistics.consideredLines_ofText ..
  have hwords : stats.words = Text.wordCount (Text.firstLines maxLines.toInt.toNat text.toList) :=
    LineStatistics.words_ofText ..
  refine ⟨?_, LineStatistics.ofText?_pretty, fun hsize => LineStatistics.ofJson?_pretty
      (LineStatistics.figures_ofText_lt _ hvalid hsize), hlines, hconsidered,
    ⟨Text.firstLines stats.consideredLines text.toList, fun p => ?_, ?_⟩,
    fun n hn => LineStatistics.words_mono text rate hn, fun hall => ?_⟩
  · obtain ⟨w', hwritten⟩ := hwritable (Json.pretty stats.datum).toUTF8
    obtain ⟨s', hrun, hlocates⟩ := run_lineStats hmax hpositive hrate hvalid hsource hpath htarget
      hdir hblank hread hmade hwritten
    exact ⟨s', w', hwritten, hrun, hlocates⟩
  · rw [Text.isFirstLines_iff, hconsidered, hlines]
    exact and_iff_right (Nat.min_le_left _ _)
  · rw [Text.encard_words, hwords, hconsidered, hlines, Text.firstLines_min]
  · rw [Text.encard_words, hwords, Text.firstLines_eq_self (by rwa [← hlines])]

end Report

namespace Sample

/-- Three lines with four words. The first line ends with a carriage return and a line feed, the
second one is empty, and the third one has no end but a carriage return in it. -/
def text : String := "a b\r\n\nc\rd"

/-- The lines, and where their figures are to go. -/
def source : Artifact := ⟨⟨1⟩, dataset, none⟩

def target : Artifact := ⟨⟨2⟩, statistics, some "out/count/stats/run"⟩

def handed : Work.Handed := ⟨.ofList [("data", [source])], .ofList [("stats", [target])]⟩

def store : Store := ({} : Store).setArtifact source ⟨some "in/sample.txt", .empty⟩

/-- Two lines are to be considered. -/
def parameters : Parameters :=
  .ofList [("max_lines", .integer 2), ("sample_rate", .float (.ofNat 1))]

/-- A disk on which every file has the text. It remembers what is written. -/
def disk : Host (StateM (List ByteArray))
  | .isFile _ => pure true
  | .isDirectory _ => pure true
  | .read _ => pure (.ok text.toUTF8)
  | .write _ bytes => fun l => (.ok (), bytes :: l)
  | .copy _ _ => pure (.ok 0)
  | .createDirectories _ => pure (.ok ())
  | .list _ => pure (.ok [])
  | .setting _ => pure none
  | .ticks => pure (0 : Nat)
  | .time => pure (0 : Nat)

end Sample

/-- Of the three lines two are considered, which have two of the four words, and the file says
so. -/
theorem lineStats_counts_words_sample :
    ∃ s' stats, (lineStats Sample.handed.offer Sample.parameters).run Sample.disk Sample.handed
        Sample.store [] = ((.ok (), s'), [(Json.pretty (LineStatistics.datum stats)).toUTF8]) ∧
      (s'.artifact Sample.target).uri = some (Path.join "out/count/stats/run" "stats.json") ∧
      stats.lines = 3 ∧ stats.consideredLines = 2 ∧ stats.words = 2 ∧
      LineStatistics.ofJson? (Json.pretty stats.datum) = some stats ∧
      (∃ part, Text.IsFirstLines 2 Sample.text.toList part ∧ (Text.words part).encard = 2) ∧
      ∀ n, 2 ≤ n → 2 ≤ (LineStatistics.ofText Sample.text n (.ofNat 1)).words := by
  have hmax : Sample.parameters.find? "max_lines" = some (.integer 2) := rfl
  have hrate : Sample.parameters.find? "sample_rate" = some (.float (.ofNat 1)) := rfl
  have hsource : Sample.handed.inputs.find? "data" = some [Sample.source] := rfl
  have hpath : (Sample.store.artifact Sample.source).uri = some "in/sample.txt" := rfl
  have htarget : Sample.handed.outputs.find? "stats" = some [Sample.target] := rfl
  have hread : Sample.disk (.read "in/sample.txt") [] = (.ok Sample.text.toUTF8, []) := rfl
  obtain ⟨⟨s', w', hwritten, hrun, hlocates⟩, -, hread, hlines, hconsidered, ⟨part, hpart, hencard⟩,
      hmono, -⟩ :=
    lineStats_counts_words hmax (by decide) hrate (by decide) hsource hpath htarget rfl rfl hread
      rfl fun bytes => ⟨_, rfl⟩
  have hthree : Text.lineCount Sample.text.toList = 3 := by decide
  have htwo : (LineStatistics.ofText Sample.text (2 : Int64).toInt.toNat (.ofNat 1)).words = 2 := by
    decide
  rw [hthree] at hlines
  rw [hlines] at hconsidered
  rw [htwo] at hencard hmono
  rw [hconsidered] at hpart
  cases hwritten
  exact ⟨s', _, hrun, hlocates.after, hlines, hconsidered, htwo, hread (by decide),
    ⟨part, (hpart part).mpr rfl, hencard⟩, hmono⟩

end Builtin

end TypedPipeline
