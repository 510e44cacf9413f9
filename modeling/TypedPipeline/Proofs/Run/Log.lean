import TypedPipeline.Runner

/-!
# Runs that keep a log

A run tells at its end what it has done. What its executors were handed on the way is not told. The
runs here do the same and keep a log of the moments at which an executor is invoked. Without the log
they are the runs of the runner, so what is proved of the log is proved of those.

## Implementation notes

The definitions with a log are those of the runner with one more component in what they give. They
are written out, because a log cannot be had from outside: what an executor is handed is gone when
it has ended. That they are the same programs is an equation of programs, for any monad in which a
host may answer, and not only of their results for one host.

An entry of the log is made when a component has been prepared, before its executor is invoked. So a
component whose executor fails is in the log, and one that was not prepared is not.

## Main definitions

* `Invocation` — a component at the moment at which its executor is invoked
* `Component.executeLogged`, `Runner.runAllLogged`, `Runner.runLogged` — the same with a log

## Main results

* `Runner.fst_runLogged` — without the log, a run is a run
-/

namespace TypedPipeline

/-- A component at the moment at which its executor is invoked, with what the executor is handed and
the store that it finds. Whether an input is readable is a question about this store. -/
structure Invocation where
  component : Component
  request : Request
  store : Store

section

variable {m : Type → Type} [Monad m] (host : Host m)

namespace Component

/-- The steps after a component has been prepared: its executor is invoked, and the outputs are
published. -/
def perform (c : Component) (request : Request) (b : Bindings) :
    StateT Store m (Except Fault (TextMap (List ArtifactRecord)) × Bindings) := do
  match ← request.invoke host c.executor with
  | .error e => pure (.error ⟨[s!"Component '{c.name}' failed"], .execution e⟩, b)
  | .ok () =>
    match request.publish b with
    | (b, .error e) =>
      pure (.error ⟨[s!"Failed to publish outputs of '{c.name}'"], .execution (.contract e)⟩, b)
    | (b, .ok ()) => do
      let s ← get
      pure (.ok (request.outputRecords s), b)

/-- Executes a component. Gives also its invocation, if it comes to that. -/
def executeLogged (c : Component) (runId root : String) (b : Bindings) :
    StateT Store m
      ((Except Fault (TextMap (List ArtifactRecord)) × Bindings) × List Invocation) := do
  match ← modifyGet (c.prepare runId root b).run.run with
  | .error e =>
    pure ((.error ⟨[s!"Failed to resolve inputs for '{c.name}'"], .execution e⟩, b), [])
  | .ok request => do
    let s ← get
    let done ← c.perform host request b
    pure (done, [⟨c, request, s⟩])

end Component

namespace Runner

/-- Runs components one after the other. Gives also the invocations, the earliest first. -/
def runAllLogged (runId root : String) :
    List Component → Bindings → Snapshot →
      StateT Store m ((Except Fault (List ComponentRun) × Snapshot) × List Invocation)
  | [], _, metrics => pure ((.ok [], metrics), [])
  | c :: rest, b, metrics => do
    let started ← ticks host
    let timer := Timer.start c.name c.spec.kind started
    let ((outcome, b), log) ← c.executeLogged host runId root b
    let duration : Duration := ⟨(← ticks host) - started⟩
    match outcome with
    | .error f => pure ((.error f, timer.finish .failed duration metrics), log)
    | .ok outputs => do
      modify fun s => s.note (completed c outputs.size)
      let ((others, metrics), later) ←
        runAllLogged runId root rest b (timer.finish .succeeded duration metrics)
      let done : ComponentRun := ⟨c.name, c.spec.kind, outputs, duration⟩
      pure ((others.map (done :: ·), metrics), log ++ later)

/-- Runs a pipeline. Gives also the invocations, the earliest first. -/
def runLogged (r : Runner) (p : Pipeline) (runId : String) :
    StateT Store m ((Except Fault RunReport × Runner) × List Invocation) := do
  if p.config.mode = .external then
    pure ((.error (.sentence (s!"Pipeline '{p.name}' is configured for external execution; " ++
      "export a plan instead")), r), [])
  else
    modify fun s => { s with scope := some ⟨runId, p.name⟩ }
    let started ← ticks host
    let bindings := (← get).seed p.inputs
    let ((outcome, metrics), log) ←
      runAllLogged host runId r.stagingRoot p.execution bindings (.begin runId)
    modify fun s => { s with scope := none }
    match outcome with
    | .error f => pure ((.error f, { r with metrics }), log)
    | .ok components => do
      let duration : Duration := ⟨(← ticks host) - started⟩
      pure ((.ok ⟨p.name, runId, components⟩, { r with metrics := metrics.finishRun duration }),
        log)

end Runner

/-! ### Without the log

The recursion of both programs is the same, so the proof goes through the definitions side by side.
-/

/-- A component is executed in two parts. First it is prepared, and all that follows needs the
request. -/
theorem Component.execute_eq (c : Component) (runId root : String) (b : Bindings) :
    c.execute host runId root b = (do
      match ← modifyGet (c.prepare runId root b).run.run with
      | .error e =>
        pure (.error ⟨[s!"Failed to resolve inputs for '{c.name}'"], .execution e⟩, b)
      | .ok request => c.perform host request b) := rfl

variable [LawfulMonad m]

theorem Component.fst_executeLogged (c : Component) (runId root : String) (b : Bindings) :
    Prod.fst <$> c.executeLogged host runId root b = c.execute host runId root b := by
  rw [execute_eq, executeLogged, map_bind]
  congr 1
  funext prepared
  cases prepared with
  | error e => simp
  | ok request =>
    refine StateT.ext fun s => ?_
    simp

theorem Runner.fst_runAllLogged (runId root : String) (cs : List Component) (b : Bindings)
    (metrics : Snapshot) :
    Prod.fst <$> runAllLogged host runId root cs b metrics =
      runAll host runId root cs b metrics := by
  induction cs generalizing b metrics with
  | nil => simp [runAllLogged, runAll]
  | cons c rest ih =>
    rw [runAllLogged, runAll, ← Component.fst_executeLogged]
    simp only [map_bind, bind_map_left]
    congr 1
    funext started
    congr 1
    funext ⟨⟨outcome, b⟩, log⟩
    congr 1
    funext ended
    cases outcome with
    | error f => simp
    | ok outputs => simp [← ih]

/-- Without the log, a run is a run. -/
theorem Runner.fst_runLogged (r : Runner) (p : Pipeline) (runId : String) :
    Prod.fst <$> r.runLogged host p runId = r.run host p runId := by
  unfold runLogged run
  split
  · simp
  · simp only [map_bind, ← fst_runAllLogged, bind_map_left]
    congr 1
    funext _
    congr 1
    funext started
    congr 1
    funext s
    congr 1
    funext out
    obtain ⟨⟨outcome, metrics⟩, log⟩ := out
    congr 1
    funext _
    cases outcome with
    | error f => simp
    | ok components => simp

end

end TypedPipeline
