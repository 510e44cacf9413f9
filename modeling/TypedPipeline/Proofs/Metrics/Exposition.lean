import TypedPipeline.Proofs.Json.Decode
import TypedPipeline.Proofs.Metrics.Scrape

/-!
# Figures in an exposition

The figures of a run are laid out in five families. Names and kinds of components and the id of the
run may be any texts, so a value may look like the end of its label, like another sample or like a
line of its own. None of this shows: a document is read as the lines that were written, and from
these lines the figures are taken that it was written from.

Durations are rounded when they are written, and of the last outcome only success is told from the
rest. So this is not said of them.

## Implementation notes

The figures are taken from a document by names and labels alone (`Scrape.figures?`): the components
are those that have a sample of their last outcome, and their counts are looked up by component,
kind and status. The reader does not know in which order samples come, or how many there are.

A lookup by labels finds a sample if no other one of the family has the same labels. Names of
components are keys of a map and appear as the value of one label, so two components never have the
same labels, whatever their kinds are. That different label lists are not permutations of each other
is asked for as well, since a reader need not respect the order of labels.

The document is written text by text and described family by family. `exposition_eq` states that the
two are the same; from there on only families occur.

## Main definitions

* `Scrape.Figures`, `Scrape.figures?` — what is taken from the lines of a document
* `Scrape.Apart` — samples that nobody takes for the same
* `Scrape.Family`, `Scrape.Family.Sound` — a family, and what is asked of it to be read back
* `Snapshot.figures` — what is to be told of a run
* `Snapshot.families`, `Snapshot.lines` — how it is laid out

## Main results

* `Exposition.flatMap_escapeChar` — three replacements one after the other are one
* `Snapshot.reads_exposition` — the document is read as the lines that were written
* `Snapshot.apart_lines`, `Snapshot.figures?_lines` — no two samples are the same, and the figures
  are those of the run
* `Snapshot.exposition_tells` — all of this, and what it says of two documents
-/

namespace TypedPipeline

/-! ### Escapes

The writer replaces characters one by one. Replacing all occurrences of one character after the
other comes to the same only if backslashes go first, as otherwise the backslashes of the new
escapes would be escaped again. -/

namespace Exposition

/-- A text with another one in place of each occurrence of a character. -/
def replaceChar (c : Char) (text cs : List Char) : List Char :=
  cs.flatMap fun d => if d = c then text else [d]

/-- Escapes are what comes out if backslashes are replaced first, then quotes, then line feeds. -/
theorem flatMap_escapeChar (cs : List Char) :
    cs.flatMap escapeChar =
      replaceChar '\n' ['\\', 'n']
        (replaceChar '"' ['\\', '"'] (replaceChar '\\' ['\\', '\\'] cs)) := by
  simp only [replaceChar, List.flatMap_assoc]
  refine List.flatMap_congr fun c _ => ?_
  unfold escapeChar
  split
  case h_4 hslash hquote hfeed =>
    have hslash : c ≠ '\\' := hslash
    have hquote : c ≠ '"' := hquote
    have hfeed : c ≠ '\n' := hfeed
    simp [hslash, hquote, hfeed]
  all_goals decide

example : escape "a\"\\\n" = "a\\\"\\\\\\n" := by
  decide

end Exposition

/-! ### What is taken from lines -/

namespace Scrape

/-- What is told of a component. -/
structure ComponentFigures where
  component : String
  kind : String
  succeeded : Nat
  failed : Nat
  /-- Whether the last execution ended well. -/
  lastSucceeded : Bool
deriving DecidableEq

/-- What is told of a run. -/
structure Figures where
  components : List ComponentFigures
  runId : Option String
deriving DecidableEq

/-- The samples of a document. -/
def samples (ls : List Line) : List Sample :=
  ls.filterMap fun
    | .sample s => some s
    | _ => none

/-- The samples of a family, each with its labels and its value. -/
def family (name : String) (ls : List Line) : List (List (String × String) × String) :=
  (samples ls).filterMap fun s => if s.name = name then some (s.labels, s.value) else none

/-- The executions of a component that ended in one way. -/
def count? (ls : List Line) (component kind status : String) : Option Nat := do
  let value ← (family "stagewire_component_runs_total" ls).lookup
    [("component", component), ("kind", kind), ("status", status)]
  some (Decimal.digitsValue value.toList)

/-- The figures of the component in a sample of its last outcome. -/
def component? (ls : List Line) : List (String × String) × String → Option ComponentFigures
  | ([("component", component), ("kind", kind)], value) => do
    let succeeded ← count? ls component kind "succeeded"
    let failed ← count? ls component kind "failed"
    some ⟨component, kind, succeeded, failed, value = "1"⟩
  | _ => none

/-- The id of the run, if the run has one. -/
def run? (ls : List Line) : Option (Option String) :=
  match family "stagewire_pipeline_run_duration_seconds" ls with
  | [([], _)] => some none
  | [([("run_id", runId)], _)] => some (some runId)
  | _ => none

/-- The figures of a document, by the families of the last outcome and of the run. A document that
lacks one of the samples has none. -/
def figures? (ls : List Line) : Option Figures := do
  let components ← (family "stagewire_component_last_success" ls).mapM (component? ls)
  let runId ← run? ls
  some ⟨components, runId⟩

/-- Samples that differ in the name or in the labels, in whatever order the labels are. -/
def Apart (s t : Sample) : Prop := s.name = t.name → ¬ s.labels.Perm t.labels

/-! ### Families -/

/-- A family: its name, what is said of it, and its samples with their labels and values. -/
structure Family where
  name : String
  help : String
  kind : String
  samples : List (List (String × String) × String)

namespace Family

/-- The lines of a family. -/
def lines (f : Family) : List Line :=
  .help f.name f.help :: .type f.name f.kind :: f.samples.map fun p => .sample ⟨f.name, p.1, p.2⟩

/-- What is asked of a family that is written. The conditions are on names, help, kind and values;
label values may be any texts. -/
structure Sound (f : Family) : Prop where
  name : isName true f.name = true
  help : '\n' ∉ f.help.toList
  kind : f.kind ∈ kinds
  labels : ∀ p ∈ f.samples, ∀ l ∈ p.1, isName false l.1 = true
  values : ∀ p ∈ f.samples, isValue p.2 = true
  /-- No two samples have the same labels. -/
  apart : f.samples.Pairwise fun p q => ¬ p.1.Perm q.1

/-- A family as it is written. -/
def text (f : Family) : String :=
  Exposition.family f.name f.help f.kind ++
    String.join (f.samples.map fun p => Exposition.sample f.name p.1 p.2)

theorem Sound.reads {f : Family} (h : f.Sound) : Reads f.text f.lines := by
  have hsamples : ∀ p ∈ f.samples, Reads (Exposition.sample f.name p.1 p.2)
      [.sample ⟨f.name, p.1, p.2⟩] := fun p hp =>
    reads_sample h.name (h.labels p hp) (h.values p hp)
  have hread := (reads_family h.name h.help h.kind).append (Reads.join hsamples)
  rwa [← List.map_eq_flatMap] at hread

theorem samples_lines (f : Family) :
    Scrape.samples f.lines = f.samples.map fun p => ⟨f.name, p.1, p.2⟩ := by
  simp [Scrape.samples, lines, List.filterMap_map]

theorem family_lines (f : Family) (name : String) :
    family name f.lines = if f.name = name then f.samples else [] := by
  rw [family, samples_lines, List.filterMap_map]
  split <;> simp_all

/-- A sample is found by its labels. -/
theorem Sound.lookup {f : Family} (h : f.Sound) {ls : List (String × String)} {value : String}
    (hp : (ls, value) ∈ f.samples) : f.samples.lookup ls = some value := by
  obtain ⟨before, behind, heq⟩ := List.append_of_mem hp
  refine List.lookup_eq_some_iff.mpr ⟨before, behind, heq, fun q hq => ?_⟩
  have hapart := h.apart
  rw [heq, List.pairwise_append] at hapart
  have hne := hapart.2.2 q hq (ls, value) List.mem_cons_self
  rw [bne_iff_ne]
  rintro rfl
  exact hne (.refl _)

end Family

theorem samples_append (ls ms : List Line) : samples (ls ++ ms) = samples ls ++ samples ms :=
  List.filterMap_append ..

theorem family_append (name : String) (ls ms : List Line) :
    family name (ls ++ ms) = family name ls ++ family name ms := by
  rw [family, samples_append, List.filterMap_append, family, family]

theorem samples_flatMap (fs : List Family) :
    samples (fs.flatMap Family.lines) =
      fs.flatMap fun f => f.samples.map fun p => ⟨f.name, p.1, p.2⟩ := by
  induction fs with
  | nil => rfl
  | cons f fs ih => rw [List.flatMap_cons, samples_append, ih, f.samples_lines, List.flatMap_cons]

theorem family_flatMap (name : String) (fs : List Family) :
    family name (fs.flatMap Family.lines) =
      fs.flatMap fun f => if f.name = name then f.samples else [] := by
  induction fs with
  | nil => rfl
  | cons f fs ih => rw [List.flatMap_cons, family_append, ih, f.family_lines, List.flatMap_cons]

/-- The samples of a family are found by its name. -/
theorem family_of_mem {fs : List Family} (hnames : (fs.map Family.name).Nodup) {f : Family}
    (hf : f ∈ fs) : family f.name (fs.flatMap Family.lines) = f.samples := by
  rw [family_flatMap]
  induction fs with
  | nil => cases hf
  | cons g fs ih =>
    rw [List.map_cons, List.nodup_cons] at hnames
    rw [List.flatMap_cons]
    rcases List.mem_cons.mp hf with rfl | hf
    · have hothers : (fs.flatMap fun g => if g.name = f.name then g.samples else []) = [] := by
        refine List.flatMap_eq_nil_iff.mpr fun g hg => if_neg fun hname => ?_
        exact hnames.1 (hname ▸ List.mem_map_of_mem hg)
      rw [if_pos rfl, hothers, List.append_nil]
    · have hne : g.name ≠ f.name := fun hname => hnames.1 (hname ▸ List.mem_map_of_mem hf)
      rw [if_neg hne, List.nil_append, ih hnames.2 hf]

/-- No two samples of families with different names are the same. Within a family the labels have to
tell them apart. -/
theorem apart_flatMap {fs : List Family} (hsound : ∀ f ∈ fs, f.Sound)
    (hnames : (fs.map Family.name).Nodup) :
    (samples (fs.flatMap Family.lines)).Pairwise Apart := by
  rw [samples_flatMap, List.pairwise_flatMap]
  constructor
  · intro f hf
    refine List.pairwise_map.mpr ((hsound f hf).apart.imp ?_)
    intro p q hne _
    exact hne
  · refine (List.pairwise_map.mp hnames).imp fun {f g} hne p hp q hq hname => ?_
    obtain ⟨_, -, rfl⟩ := List.mem_map.mp hp
    obtain ⟨_, -, rfl⟩ := List.mem_map.mp hq
    exact absurd hname hne

end Scrape

/-! ### The document of a run -/

namespace Snapshot

open Exposition Scrape

/-- What an exposition is to tell of a run. -/
def figures (s : Snapshot) : Figures where
  components := s.components.entries.map fun e =>
    ⟨e.1, e.2.kind, e.2.succeeded, e.2.failed, e.2.last = some .succeeded⟩
  runId := s.runId

/-- Two samples for each component. -/
def runsOf (s : Snapshot) : Family where
  name := "stagewire_component_runs_total"
  help := "Component executions by outcome"
  kind := "counter"
  samples := s.components.entries.flatMap fun e =>
    [(labels e.1 e.2 ++ [("status", "succeeded")], toString e.2.succeeded),
      (labels e.1 e.2 ++ [("status", "failed")], toString e.2.failed)]

/-- One sample for each component. -/
def componentsOf (s : Snapshot) (name help kind : String) (value : ComponentMetrics → String) :
    Family where
  name
  help
  kind
  samples := s.components.entries.map fun e => (labels e.1 e.2, value e.2)

/-- One sample for each component, which tells success of the last outcome from the rest. -/
def lastOf (s : Snapshot) : Family :=
  s.componentsOf "stagewire_component_last_success"
    "1 when the latest execution of the component succeeded" "gauge"
    fun m => if m.last = some .succeeded then "1" else "0"

/-- One sample for the run. -/
def runOf (s : Snapshot) : Family where
  name := "stagewire_pipeline_run_duration_seconds"
  help := "Wall time of the latest pipeline run"
  kind := "gauge"
  samples :=
    [(match s.runId with
      | none => []
      | some runId => [("run_id", runId)], seconds s.totalMs)]

/-- The families of the document. -/
def families (s : Snapshot) : List Family :=
  [s.runsOf,
    s.componentsOf "stagewire_component_duration_seconds_total"
      "Accumulated component duration in seconds" "counter" fun m => seconds m.totalMs,
    s.componentsOf "stagewire_component_duration_seconds_max"
      "Longest single component execution in seconds" "gauge" fun m => seconds m.maxMs,
    s.lastOf,
    s.runOf]

/-- The lines of the document. -/
def lines (s : Snapshot) : List Line := s.families.flatMap Family.lines

/-! ### What is written is sound

What has to be checked of the families is finite, except for the labels: they hold any texts. -/

theorem isName_labels (component : String) (m : ComponentMetrics) :
    ∀ l ∈ labels component m, isName false l.1 = true := by
  have hcomponent : isName false "component" = true := by decide
  have hkind : isName false "kind" = true := by decide
  simp [labels, hcomponent, hkind]

/-- Different components have different labels, whatever their kinds are and what else is there. -/
theorem ne_of_perm_labels {e f : String × ComponentMetrics}
    (status status' : List (String × String)) (hstatus : ∀ l ∈ status', l.1 = "status")
    (h : (labels e.1 e.2 ++ status).Perm (labels f.1 f.2 ++ status')) : e.1 = f.1 := by
  have hmem : ("component", e.1) ∈ labels f.1 f.2 ++ status' :=
    h.mem_iff.mp (by simp [labels])
  rcases List.mem_append.mp hmem with hmem | hmem
  · simpa [labels] using hmem
  · have hname := hstatus _ hmem
    simp at hname

theorem sound_runsOf (s : Snapshot) : s.runsOf.Sound where
  name := by
    dsimp only [runsOf]
    decide
  help := by
    dsimp only [runsOf]
    decide
  kind := by
    dsimp only [runsOf]
    decide
  labels := by
    have hstatus : isName false "status" = true := by decide
    intro p hp
    obtain ⟨e, -, hp⟩ := List.mem_flatMap.mp hp
    simp only [List.mem_cons, List.not_mem_nil, or_false] at hp
    rcases hp with rfl | rfl <;>
    · rw [List.forall_mem_append]
      exact ⟨isName_labels e.1 e.2, by simp [hstatus]⟩
  values := by
    intro p hp
    obtain ⟨e, -, hp⟩ := List.mem_flatMap.mp hp
    simp only [List.mem_cons, List.not_mem_nil, or_false] at hp
    rcases hp with rfl | rfl
    · exact isValue_toString e.2.succeeded
    · exact isValue_toString e.2.failed
  apart := by
    rw [runsOf, List.pairwise_flatMap]
    constructor
    · intro e _
      rw [List.pairwise_pair]
      intro hperm
      have hmem := hperm.mem_iff (a := ("status", "succeeded"))
      simp [labels] at hmem
    · refine s.components.sorted.imp fun {e f} hlt p hp q hq hperm => ?_
      have hstatus : ∀ status : String, ∀ l ∈ [("status", status)], l.1 = "status" := by simp
      have hsame : e.1 = f.1 := by
        simp only [List.mem_cons, List.not_mem_nil, or_false] at hp hq
        rcases hp with rfl | rfl <;> rcases hq with rfl | rfl <;>
          exact ne_of_perm_labels _ _ (hstatus _) hperm
      exact KeyOrder.irrefl _ (hsame ▸ hlt)

theorem sound_componentsOf (s : Snapshot) {name help kind : String}
    {value : ComponentMetrics → String} (hname : isName true name = true)
    (hhelp : '\n' ∉ help.toList) (hkind : kind ∈ kinds) (hvalue : ∀ m, isValue (value m) = true) :
    (s.componentsOf name help kind value).Sound where
  name := hname
  help := hhelp
  kind := hkind
  labels := by
    intro p hp
    obtain ⟨e, -, rfl⟩ := List.mem_map.mp hp
    exact isName_labels e.1 e.2
  values := by
    intro p hp
    obtain ⟨e, -, rfl⟩ := List.mem_map.mp hp
    exact hvalue e.2
  apart := by
    rw [componentsOf, List.pairwise_map]
    refine s.components.sorted.imp fun {e f} hlt hperm => ?_
    have hsame : e.1 = f.1 := ne_of_perm_labels [] [] (by simp) (by simpa using hperm)
    exact KeyOrder.irrefl _ (hsame ▸ hlt)

theorem sound_runOf (s : Snapshot) : s.runOf.Sound where
  name := by
    dsimp only [runOf]
    decide
  help := by
    dsimp only [runOf]
    decide
  kind := by
    dsimp only [runOf]
    decide
  labels := by
    have hid : isName false "run_id" = true := by decide
    rw [runOf]
    cases s.runId <;> simp [hid]
  values := by simp [runOf, isValue_seconds]
  apart := List.pairwise_singleton _ _

theorem sound_families (s : Snapshot) : ∀ f ∈ s.families, f.Sound := by
  have hlast : ∀ m : ComponentMetrics,
      isValue (if m.last = some .succeeded then "1" else "0") = true := by
    intro m
    split <;> decide
  simp only [families, List.forall_mem_cons]
  exact ⟨sound_runsOf s,
    sound_componentsOf s (by decide) (by decide) (by decide) fun m => isValue_seconds m.totalMs,
    sound_componentsOf s (by decide) (by decide) (by decide) fun m => isValue_seconds m.maxMs,
    sound_componentsOf s (by decide) (by decide) (by decide) hlast,
    sound_runOf s, by simp⟩

/-! ### Reading the document -/

/-- The document is its families one after the other. -/
theorem exposition_eq (s : Snapshot) : s.exposition = String.join (s.families.map Family.text) := by
  have hruns : s.runsFamily = s.runsOf.text := by
    rw [← String.toList_inj]
    simp [runsFamily, Family.text, runsOf, String.toList_join, List.flatMap_map, List.flatMap_assoc]
  have hcomponents : ∀ (name help kind : String) (value : ComponentMetrics → String),
      s.componentFamily name help kind value = (s.componentsOf name help kind value).text := by
    intro name help kind value
    simp [componentFamily, Family.text, componentsOf, Function.comp_def]
  have hrun : s.runFamily = s.runOf.text := by
    rw [runFamily, Family.text, runOf]
    cases s.runId <;> simp
  rw [exposition, hruns, hcomponents, hcomponents, hcomponents, hrun, ← String.toList_inj]
  simp [families, lastOf]

/-- The document is read as the lines that were written. -/
theorem reads_exposition (s : Snapshot) : Reads s.exposition s.lines := by
  rw [exposition_eq, lines]
  exact Reads.join fun f hf => (sound_families s f hf).reads

theorem nodup_names (s : Snapshot) : (s.families.map Family.name).Nodup := by
  show ["stagewire_component_runs_total", "stagewire_component_duration_seconds_total",
    "stagewire_component_duration_seconds_max", "stagewire_component_last_success",
    "stagewire_pipeline_run_duration_seconds"].Nodup
  decide

/-- No two samples of the document are the same. -/
theorem apart_lines (s : Snapshot) : (samples s.lines).Pairwise Apart :=
  apart_flatMap (sound_families s) s.nodup_names

theorem family_runs (s : Snapshot) :
    family "stagewire_component_runs_total" s.lines = s.runsOf.samples :=
  family_of_mem s.nodup_names (f := s.runsOf) (by simp [families])

theorem family_last (s : Snapshot) :
    family "stagewire_component_last_success" s.lines = s.lastOf.samples :=
  family_of_mem s.nodup_names (f := s.lastOf) (by simp [families])

theorem family_run (s : Snapshot) :
    family "stagewire_pipeline_run_duration_seconds" s.lines = s.runOf.samples :=
  family_of_mem s.nodup_names (f := s.runOf) (by simp [families])

/-- The executions of a component are found by its name, its kind and the outcome. -/
theorem count?_lines (s : Snapshot) {e : String × ComponentMetrics}
    (he : e ∈ s.components.entries) :
    count? s.lines e.1 e.2.kind "succeeded" = some e.2.succeeded ∧
      count? s.lines e.1 e.2.kind "failed" = some e.2.failed := by
  have hfound : ∀ (status : String) (n : Nat),
      (labels e.1 e.2 ++ [("status", status)], toString n) ∈ s.runsOf.samples →
        count? s.lines e.1 e.2.kind status = some n := by
    intro status n hmem
    have hlookup := (sound_runsOf s).lookup hmem
    rw [count?, family_runs]
    show ((s.runsOf.samples.lookup (labels e.1 e.2 ++ [("status", status)])).bind fun value =>
      some (Decimal.digitsValue value.toList)) = some n
    rw [hlookup]
    exact congrArg some (Decimal.digitsValue_digitChars n)
  exact ⟨hfound _ _ (List.mem_flatMap.mpr ⟨e, he, by simp⟩),
    hfound _ _ (List.mem_flatMap.mpr ⟨e, he, by simp⟩)⟩

theorem run?_lines (s : Snapshot) : run? s.lines = some s.runId := by
  rw [run?, family_run, runOf]
  cases s.runId <;> rfl

/-- The figures that are taken from the document are those of the run. -/
theorem figures?_lines (s : Snapshot) : figures? s.lines = some s.figures := by
  have hcomponents : (family "stagewire_component_last_success" s.lines).mapM
      (component? s.lines) = some s.figures.components := by
    rw [family_last, lastOf, componentsOf, mapM_eq_some_iff, List.map_map, figures, List.map_map]
    refine List.map_congr_left fun e he => ?_
    obtain ⟨hsucceeded, hfailed⟩ := count?_lines s he
    by_cases hlast : e.2.last = some .succeeded <;>
      simp [labels, component?, hsucceeded, hfailed, hlast]
  rw [figures?, hcomponents, run?_lines]
  rfl

/-- The document of a run is made of comments and samples that can be read, no two samples are the
same, and the figures that are taken from it are those of the run. So runs with other figures have
other documents. -/
theorem exposition_tells (s : Snapshot) :
    ∃ ls, lines? s.exposition.toList = some ls ∧ (samples ls).Pairwise Apart ∧
      figures? ls = some s.figures ∧
      ∀ t : Snapshot, t.figures ≠ s.figures → t.exposition ≠ s.exposition := by
  refine ⟨s.lines, (reads_exposition s).lines?_eq, apart_lines s, figures?_lines s, ?_⟩
  intro t hne htext
  have hlines : t.lines = s.lines := by
    have hread := (reads_exposition t).lines?_eq
    rw [htext, (reads_exposition s).lines?_eq] at hread
    exact (Option.some.inj hread).symm
  have hfigures := figures?_lines t
  rw [hlines, figures?_lines s] at hfigures
  exact hne (Option.some.inj hfigures).symm

end Snapshot

end TypedPipeline
