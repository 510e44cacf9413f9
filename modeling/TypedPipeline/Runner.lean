import TypedPipeline.ArtifactMap
import TypedPipeline.Metrics
import TypedPipeline.Pipeline
import TypedPipeline.Request

/-!
# Runs

The local runner goes through the components in the order of execution. Each is prepared, invoked
and published before the next one. The first failure ends the run. What a run binds to channels is
its own; the channels of the pipeline keep what they hold.

## Implementation notes

A run is a recursion over the components in the order of execution. It hands on the bindings, the
figures and the store, and ends with the first component that fails; components behind that one are
not prepared.

Every component is timed, from before it is prepared until after it is published, and the timer is
finished with the outcome. The figures are those of a fresh run, since a run begins with empty ones.
A run that is refused because of its mode is no run and leaves the figures alone.

What is published goes into the bindings. Neither the channels of the pipeline nor their artifacts
are touched by the runner itself, so a pipeline can be run again.

## Main definitions

* `Runner`, `RunReport`
* `Component.execute` — the three steps of one component
* `Runner.run` — a whole run
-/

namespace TypedPipeline

/-- The outputs of one component in a run. -/
structure ComponentRun where
  name : String
  kind : String
  outputs : TextMap (List ArtifactRecord)
  duration : Duration

/-- What a run has done. -/
structure RunReport where
  pipeline : String
  runId : String
  components : List ComponentRun

namespace ComponentRun

/-- The locations of an output, in the order of its artifacts. -/
def outputUris (r : ComponentRun) (output : String) : List String :=
  ((r.outputs.find? output).getD []).filterMap ArtifactRecord.uri

/-- The outputs of a component as plain data. -/
def datum (r : ComponentRun) : Datum :=
  .object [("name", .string r.name), ("kind", .string r.kind),
    ("outputs", .ofMap (fun l => .array (l.map ArtifactRecord.datum)) r.outputs),
    ("duration_ms", .float r.duration.milliseconds)]

end ComponentRun

/-- The report as plain data. -/
def RunReport.datum (r : RunReport) : Datum :=
  .object [("pipeline", .string r.pipeline), ("run_id", .string r.runId),
    ("components", .array (r.components.map ComponentRun.datum))]

/-- A runner: where its runs put their data, and the figures of the latest run. -/
structure Runner where
  stagingRoot : String
  metrics : Snapshot := {}

/-- The runner for a pipeline, with the root of its settings. -/
def Runner.forPipeline (p : Pipeline) : Runner := { stagingRoot := p.config.root }

section

variable {m : Type → Type} [Monad m] (host : Host m)

/-- Prepares, invokes and publishes one component. Gives the records of its outputs, or a failure
under a sentence that says which of the three steps failed. -/
def Component.execute (c : Component) (runId root : String) (b : Bindings) :
    StateT Store m (Except Fault (TextMap (List ArtifactRecord)) × Bindings) := do
  let failed (context : String) (e : ExecutionError) :
      Except Fault (TextMap (List ArtifactRecord)) :=
    .error ⟨[context], .execution e⟩
  match ← modifyGet (c.prepare runId root b).run.run with
  | .error e => pure (failed s!"Failed to resolve inputs for '{c.name}'" e, b)
  | .ok request =>
    match ← request.invoke host c.executor with
    | .error e => pure (failed s!"Component '{c.name}' failed" e, b)
    | .ok () =>
      match request.publish b with
      | (b, .error e) =>
        pure (failed s!"Failed to publish outputs of '{c.name}'" (.contract e), b)
      | (b, .ok ()) => do
        let s ← get
        pure (.ok (request.outputRecords s), b)

namespace Runner

/-- The nanoseconds that the surroundings count. -/
def ticks : StateT Store m Nat := fun s => do
  let n ← (host .ticks : m Nat)
  pure (n, s)

/-- The note of a component that is done. -/
def completed (c : Component) (outputs : Nat) : Event where
  level := .info
  origin := .runner
  message := "Component completed"
  fields := [("component", .quoted c.name), ("outputs", .count outputs)]

/-- Runs components one after the other. Gives what they have done, or the first failure, and the
figures. Clocks are asked twice for each component. -/
def runAll (runId root : String) :
    List Component → Bindings → Snapshot →
      StateT Store m (Except Fault (List ComponentRun) × Snapshot)
  | [], _, metrics => pure (.ok [], metrics)
  | c :: rest, b, metrics => do
    let started ← ticks host
    let timer := Timer.start c.name c.spec.kind started
    let (outcome, b) ← c.execute host runId root b
    let duration : Duration := ⟨(← ticks host) - started⟩
    match outcome with
    | .error f => pure (.error f, timer.finish .failed duration metrics)
    | .ok outputs => do
      modify fun s => s.note (completed c outputs.size)
      let (others, metrics) ←
        runAll runId root rest b (timer.finish .succeeded duration metrics)
      let done : ComponentRun := ⟨c.name, c.spec.kind, outputs, duration⟩
      pure (others.map (done :: ·), metrics)

/-- Runs a pipeline. A pipeline that is meant for another scheduler is refused, and the figures stay
as they were. -/
def run (r : Runner) (p : Pipeline) (runId : String) :
    StateT Store m (Except Fault RunReport × Runner) := do
  if p.config.mode = .external then
    pure (.error (.sentence (s!"Pipeline '{p.name}' is configured for external execution; " ++
      "export a plan instead")), r)
  else
    modify fun s => { s with scope := some ⟨runId, p.name⟩ }
    let started ← ticks host
    let bindings := (← get).seed p.inputs
    let (outcome, metrics) ←
      runAll host runId r.stagingRoot p.execution bindings (.begin runId)
    modify fun s => { s with scope := none }
    match outcome with
    | .error f => pure (.error f, { r with metrics })
    | .ok components => do
      let duration : Duration := ⟨(← ticks host) - started⟩
      pure (.ok ⟨p.name, runId, components⟩, { r with metrics := metrics.finishRun duration })

end Runner

end

end TypedPipeline
