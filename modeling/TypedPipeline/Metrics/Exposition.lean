import TypedPipeline.Metrics

/-!
# Metrics as an exposition

The figures as a text of samples: each family of samples is introduced by two comment lines, and
each sample has a name, labels in braces and a value. Label values are quoted, with escapes for
backslash, quote and line feed.

## Implementation notes

There are five families. The first has two samples for each component and the last has one for the
run; the others have one sample for each component, and differ in name, help and value only.

Escapes are made character by character. Braces, commas and equality signs need none, since a label
value ends at its quote and nowhere else. Numbers are written with a fixed count of places, so a
duration may be rounded; counts are written as they are.

## Main definitions

* `Exposition.escape` — a label value between its quotes
* `Snapshot.exposition` — the text
-/

namespace TypedPipeline

namespace Exposition

/-- A character of a label value. -/
def escapeChar (c : Char) : List Char :=
  match c with
  | '\\' => ['\\', '\\']
  | '"' => ['\\', '"']
  | '\n' => ['\\', 'n']
  | _ => [c]

/-- A label value between its quotes. -/
def escape (s : String) : String := String.ofList (s.toList.flatMap escapeChar)

/-- A label: its name and its value in quotes. -/
def label (name value : String) : String := name ++ "=\"" ++ escape value ++ "\""

/-- A sample: its name, its labels, if it has any, and its value. Without labels there are no
braces. -/
def sample (name : String) (labels : List (String × String)) (value : String) : String :=
  let braces :=
    if labels.isEmpty then ""
    else "\x7b" ++ ",".intercalate (labels.map fun l => label l.1 l.2) ++ "\x7d"
  name ++ braces ++ " " ++ value ++ "\n"

/-- The comment lines of a family. -/
def family (name help type : String) : String :=
  "# HELP " ++ name ++ " " ++ help ++ "\n# TYPE " ++ name ++ " " ++ type ++ "\n"

/-- A number of milliseconds in seconds, with six places. -/
def seconds (ms : Binary64) : String := Decimal.renderFixed 6 (ms / .ofNat 1000)

/-- The labels of a component. -/
def labels (component : String) (m : ComponentMetrics) : List (String × String) :=
  [("component", component), ("kind", m.kind)]

end Exposition

namespace Snapshot

open Exposition

/-- A family with one sample for each component. All values of a family are taken in the same
way. -/
def componentFamily (s : Snapshot) (name help type : String) (value : ComponentMetrics → String) :
    String :=
  family name help type ++ String.join (s.components.entries.map fun e =>
    sample name (labels e.1 e.2) (value e.2))

/-- The family of the executions, by outcome. -/
def runsFamily (s : Snapshot) : String :=
  let name := "stagewire_component_runs_total"
  family name "Component executions by outcome" "counter" ++
    String.join (s.components.entries.map fun e =>
      sample name (labels e.1 e.2 ++ [("status", "succeeded")]) (toString e.2.succeeded) ++
      sample name (labels e.1 e.2 ++ [("status", "failed")]) (toString e.2.failed))

/-- The family of the run. -/
def runFamily (s : Snapshot) : String :=
  let name := "stagewire_pipeline_run_duration_seconds"
  let labels :=
    match s.runId with
    | none => []
    | some runId => [("run_id", runId)]
  family name "Wall time of the latest pipeline run" "gauge" ++
    sample name labels (seconds s.totalMs)

/-- The figures as an exposition. -/
def exposition (s : Snapshot) : String :=
  s.runsFamily ++
  s.componentFamily "stagewire_component_duration_seconds_total"
    "Accumulated component duration in seconds" "counter" (fun m => seconds m.totalMs) ++
  s.componentFamily "stagewire_component_duration_seconds_max"
    "Longest single component execution in seconds" "gauge" (fun m => seconds m.maxMs) ++
  s.componentFamily "stagewire_component_last_success"
    "1 when the latest execution of the component succeeded" "gauge"
    (fun m => if m.last = some .succeeded then "1" else "0") ++
  s.runFamily

end Snapshot

end TypedPipeline
