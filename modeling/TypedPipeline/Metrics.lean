import TypedPipeline.Duration
import TypedPipeline.Event
import TypedPipeline.Datum

/-!
# Metrics

A collector counts how often each component of the current run ended well or failed, and how long it
took. Executions are measured by timers; a timer that is dropped before it is finished counts as a
failure.

## Implementation notes

Figures are kept for one run. Beginning a run replaces them by empty ones; nothing is kept of the
run before, and no figure names the run to which an execution belongs.

A timer is a value, and what counts is the snapshot that it is applied to. `finish` records and lets
go at once, and letting go of a timer that has been finished adds nothing. So a timer that is
finished is counted once, and a timer that is forgotten is counted as a failure.

Durations are sums and maxima of floats in milliseconds. Counters are naturals.

## Main definitions

* `Snapshot`, `ComponentMetrics` — the figures
* `Snapshot.begin`, `Timer.finish`, `Timer.drop` — how they change
* `Snapshot.events` — the figures as notes
* `Snapshot.datum` — the figures as plain data
-/

namespace TypedPipeline

/-- How an execution ended. -/
inductive Outcome where
  | succeeded
  | failed
deriving DecidableEq

/-- The name of an outcome. -/
def Outcome.name : Outcome → String
  | succeeded => "succeeded"
  | failed => "failed"

/-- The figures of one component. The kind is that of the first timer of the component that had
one. -/
structure ComponentMetrics where
  kind : String := ""
  succeeded : Nat := 0
  failed : Nat := 0
  last : Option Outcome := none
  totalMs : Binary64 := .zero false
  maxMs : Binary64 := .zero false

namespace ComponentMetrics

/-- The number of executions. -/
def runs (m : ComponentMetrics) : Nat := m.succeeded + m.failed

/-- The figures with one more execution. -/
def record (m : ComponentMetrics) (outcome : Outcome) (ms : Binary64) : ComponentMetrics :=
  { m with
    succeeded := m.succeeded + if outcome = .succeeded then 1 else 0
    failed := m.failed + if outcome = .failed then 1 else 0
    last := some outcome
    totalMs := m.totalMs + ms
    maxMs := m.maxMs.max ms }

/-- The figures with a kind, if they have none yet. A component that is timed under another kind
later keeps its first one. -/
def withKind (m : ComponentMetrics) (kind : String) : ComponentMetrics :=
  if m.kind.isEmpty then { m with kind } else m

end ComponentMetrics

/-- The figures of the latest run. -/
structure Snapshot where
  runId : Option String := none
  components : TextMap ComponentMetrics := .empty
  totalMs : Binary64 := .zero false

/-- The measurement of one execution. It names its component and no run. -/
structure Timer where
  component : String
  kind : String
  /-- When it began, in nanoseconds. -/
  started : Nat := 0
  /-- Whether the execution has been counted. -/
  finished : Bool := false

namespace Snapshot

/-- The figures at the beginning of a run: those of the run before are gone. -/
def begin (runId : String) : Snapshot := { runId := some runId }

/-- The figures with one more execution of a component. -/
def record (s : Snapshot) (component kind : String) (outcome : Outcome) (ms : Binary64) :
    Snapshot :=
  let m := ((s.components.find? component).getD {}).withKind kind
  { s with components := s.components.insert component (m.record outcome ms) }

/-- The figures at the end of a run. -/
def finishRun (s : Snapshot) (d : Duration) : Snapshot := { s with totalMs := d.milliseconds }

/-- The number of executions that ended in one way, over all components. -/
def count (s : Snapshot) (outcome : Outcome) : Nat :=
  (s.components.values.map fun m =>
    match outcome with
    | .succeeded => m.succeeded
    | .failed => m.failed).sum

/-! ### Figures as notes -/

/-- The note of one component: a warning if it has failed. -/
def componentEvent (component : String) (m : ComponentMetrics) : Event :=
  let status := (m.last.map Outcome.name).getD "-"
  let head := [("component", EventValue.quoted component), ("kind", .quoted m.kind),
    ("status", .quoted status)]
  if 0 < m.failed then {
    level := .warn
    origin := .metrics
    message := "Component metrics"
    fields := head ++ [("failed", .count m.failed), ("total_ms", .number m.totalMs)] }
  else {
    level := .info
    origin := .metrics
    message := "Component metrics"
    fields := head ++ [("runs", .count m.runs), ("total_ms", .number m.totalMs),
      ("max_ms", .number m.maxMs)] }

/-- The figures as notes: one for the run, and one for each component. -/
def events (s : Snapshot) : List Event :=
  let summary : Event := {
    level := .info
    origin := .metrics
    message := "Pipeline metrics summary"
    fields := [("run_id", .quoted (s.runId.getD "-")), ("total_duration_ms", .number s.totalMs),
      ("succeeded", .count (s.count .succeeded)), ("failed", .count (s.count .failed))] }
  summary :: s.components.entries.map fun e => componentEvent e.1 e.2

/-! ### Figures as plain data -/

/-- The figures of one component, as plain data. -/
def componentDatum (m : ComponentMetrics) : Datum :=
  .object [("kind", .string m.kind), ("succeeded", .integer m.succeeded),
    ("failed", .integer m.failed), ("last_outcome", .ofText? (m.last.map Outcome.name)),
    ("total_duration_ms", .float m.totalMs), ("max_duration_ms", .float m.maxMs)]

/-- The figures, as plain data. -/
def datum (s : Snapshot) : Datum :=
  .object [("run_id", .ofText? s.runId),
    ("components", .object (s.components.entries.map fun e => (e.1, componentDatum e.2))),
    ("total_duration_ms", .float s.totalMs)]

end Snapshot

namespace Timer

/-- A measurement that begins. -/
def start (component kind : String) (started : Nat) : Timer := { component, kind, started }

/-- Counts the execution. -/
def record (t : Timer) (outcome : Outcome) (d : Duration) (s : Snapshot) : Timer × Snapshot :=
  ({ t with finished := true }, s.record t.component t.kind outcome d.milliseconds)

/-- Lets go of the timer. If it was not finished, the execution has failed. -/
def drop (t : Timer) (d : Duration) (s : Snapshot) : Snapshot :=
  if t.finished then s else (t.record .failed d s).2

/-- Ends the measurement and lets go of the timer. By then the timer has been counted, so that
letting go of it does nothing. -/
def finish (t : Timer) (outcome : Outcome) (d : Duration) (s : Snapshot) : Snapshot :=
  let (t, s) := t.record outcome d s
  t.drop d s

end Timer

end TypedPipeline
