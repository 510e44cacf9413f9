import TypedPipeline.Proofs.Request
import TypedPipeline.Proofs.Run.Log

/-!
# What one component does in a run

The three steps of a component put together, and one component after another. All a run does to a
store is to let it grow. What a component leaves behind in the bindings depends on how it ends, so
the cases are kept apart: it was not prepared, or it was invoked and ended somehow.

A run is cut into moments, one for each component that is reached. A moment has all that the
component depends on, so whatever is asked about a component in a run is asked about its moment
alone. The log of a run is told from the moments too: each of its entries belongs to a moment that
the run reaches, and between being prepared and being published nothing happens at such a moment but
that the executor runs on the artifacts that it was handed.

The recursion over the components and the run around it are opened once each, by
`Runner.runAll_round` and `Runner.run_eq`. What runs do is proved from these two.

## Main definitions

* `Moment`, `Runner.Reaches` — a component that is about to be prepared in a run
* `Invocation.RunsAt` — an entry of the log belongs to a moment

## Main results

* `Component.executeLogged_cases` — how one component ends
* `Runner.runAll_round`, `Runner.runAllLogged_cases` — the first component and those behind it
* `Runner.run_eq` — a whole run
* `Runner.exists_moment_of_mem_log` — the log tells of moments
* `Runner.grows_run` — a run lets the store grow
-/

namespace TypedPipeline

variable {W : Type} (host : Host (StateM W))

namespace Component

/-- What is known of a component that was invoked on a store: `s` is the store that it found, `s'`
the one that it left, and `b` and `b'` the bindings before and after. -/
structure Performed (c : Component) (r : Request) (b b' : Bindings) (s s' : Store)
    (succeeded : Prop) : Prop where
  grows : s.Grows s'
  /-- Outputs have locations. -/
  populated : succeeded → ∀ e ∈ r.outputs.entries, ∀ a ∈ e.2, (s'.artifact a).populated = true
  /-- Outputs are published, if no two of them have one channel. -/
  published : succeeded → (c.outputs.entries.map fun e => e.2.id).Nodup →
    Bindings.Published r.outputs c.outputs.entries b b'

theorem perform_spec {c : Component} {runId root : String} {b : Bindings} {s₀ s : Store}
    {r : Request} (hr : c.Prepared runId root b s₀ s r) (w : W) :
    ∃ outcome b' s' w', c.perform host r b s w = (((outcome, b'), s'), w') ∧
      c.Performed r b b' s s' (∃ outputs, outcome = .ok outputs) := by
  obtain ⟨result, s', w', hinvoke, hgrows, hpopulated⟩ := r.invoke_spec host c.executor s w
  unfold perform
  rw [machine_bind_apply, hinvoke]
  cases result with
  | error e => exact ⟨_, b, s', w', rfl, hgrows, fun ⟨_, h⟩ => (nomatch h), fun ⟨_, h⟩ => nomatch h⟩
  | ok done =>
    dsimp only
    have hpublished : (c.outputs.entries.map fun e => e.2.id).Nodup →
        ∃ b', r.publish b = (b', .ok ()) ∧
          Bindings.Published r.outputs c.outputs.entries b b' := by
      intro hunshared
      rw [Request.publish, hr.targets]
      refine Request.publishAll_spec b hunshared fun e he => ?_
      obtain ⟨a, ha, hplaceholder⟩ := hr.outputs e he
      exact ⟨a, ha, hplaceholder.type⟩
    rcases hpublish : r.publish b with ⟨b', e | done'⟩
    · exact ⟨_, b', s', w', rfl, hgrows, fun ⟨_, h⟩ => (nomatch h), fun ⟨_, h⟩ => nomatch h⟩
    · refine ⟨_, b', s', w', rfl, hgrows, fun _ => hpopulated rfl, fun _ hunshared => ?_⟩
      obtain ⟨b'', hb'', hbound⟩ := hpublished hunshared
      rw [hpublish] at hb''
      cases hb''
      exact hbound

section

variable {c : Component} {runId root : String} {b : Bindings} {s s' : Store} {w : W}

theorem executeLogged_of_refused {e : ExecutionError}
    (h : c.prepare runId root b s = (.error e, s')) :
    c.executeLogged host runId root b s w =
      ((((.error ⟨[s!"Failed to resolve inputs for '{c.name}'"], .execution e⟩, b), []), s'),
        w) := by
  have hrun : (c.prepare runId root b).run.run s = (.error e, s') := h
  rw [executeLogged, machine_bind_apply, machine_modifyGet_apply, hrun]
  rfl

theorem executeLogged_of_prepared {r : Request} (h : c.prepare runId root b s = (.ok r, s')) :
    c.executeLogged host runId root b s w =
      ((((c.perform host r b s' w).1.1, [⟨c, r, s'⟩]), (c.perform host r b s' w).1.2),
        (c.perform host r b s' w).2) := by
  have hrun : (c.prepare runId root b).run.run s = (.ok r, s') := h
  rw [executeLogged, machine_bind_apply, machine_modifyGet_apply, hrun]
  rfl

/-- Without its log, an execution is an execution. Here this is said of its outcome on a machine. -/
theorem execute_apply : c.execute host runId root b s w =
    (((c.executeLogged host runId root b s w).1.1.1, (c.executeLogged host runId root b s w).1.2),
      (c.executeLogged host runId root b s w).2) := by
  rw [← fst_executeLogged]
  rfl

theorem execute_of_refused {e : ExecutionError} (h : c.prepare runId root b s = (.error e, s')) :
    c.execute host runId root b s w =
      (((.error ⟨[s!"Failed to resolve inputs for '{c.name}'"], .execution e⟩, b), s'), w) := by
  rw [execute_apply, executeLogged_of_refused host h]

theorem execute_of_prepared {r : Request} (h : c.prepare runId root b s = (.ok r, s')) :
    c.execute host runId root b s w = c.perform host r b s' w := by
  rw [execute_apply, executeLogged_of_prepared host h]
  rfl

/-- Publishing changes the bindings only, so the store and the machine are left as the executor has
left them. -/
theorem left_of_perform (c : Component) (r : Request) (b : Bindings) (s : Store) (w : W) :
    (c.perform host r b s w).1.2 =
        ((c.executor r.handed.offer r.parameters).run host r.handed s w).1.2 ∧
      (c.perform host r b s w).2 =
        ((c.executor r.handed.offer r.parameters).run host r.handed s w).2 := by
  rw [perform, machine_bind_apply, Request.invoke_apply]
  cases r.judge _ _ with
  | error e => exact ⟨rfl, rfl⟩
  | ok done =>
    dsimp only
    rcases r.publish b with ⟨b', e | done'⟩
    · exact ⟨rfl, rfl⟩
    · exact ⟨rfl, rfl⟩

end

/-- A component is not prepared and leaves the store as it was, or its executor is invoked once, on
the store that preparing has left. -/
theorem executeLogged_cases (c : Component) (runId root : String) (b : Bindings) (s : Store)
    (w : W) :
    (∃ f, c.executeLogged host runId root b s w = ((((.error f, b), []), s), w)) ∨
      ∃ r s₁ outcome b' s' w', c.Prepared runId root b s s₁ r ∧
        c.executeLogged host runId root b s w = ((((outcome, b'), [⟨c, r, s₁⟩]), s'), w') ∧
        c.Performed r b b' s₁ s' (∃ outputs, outcome = .ok outputs) := by
  rcases c.prepare_cases runId root b s with ⟨e, hprepare⟩ | ⟨r, s₁, hprepare, hr⟩
  · exact .inl ⟨_, executeLogged_of_refused host hprepare⟩
  · obtain ⟨outcome, b', s', w', hperform, hperformed⟩ := perform_spec host hr w
    have hlogged := executeLogged_of_prepared host (w := w) hprepare
    rw [hperform] at hlogged
    exact .inr ⟨r, s₁, outcome, b', s', w', hr, hlogged, hperformed⟩

theorem grows_executeLogged (c : Component) (runId root : String) (b : Bindings) (s : Store)
    (w : W) : s.Grows (c.executeLogged host runId root b s w).1.2 := by
  rcases c.executeLogged_cases host runId root b s w with
    ⟨f, h⟩ | ⟨r, s₁, outcome, b', s', w', hr, h, hperformed⟩
  · rw [h]
    exact .refl s
  · rw [h]
    exact hr.grows.trans hperformed.grows

end Component

/-! ### Moments

A moment has what is decisive for a component and nothing else. Figures are not part of it, because
they decide nothing. -/

/-- A component that is about to be prepared in a run: those that follow it, what is bound, and the
store and the machine. -/
structure Moment (W : Type) where
  component : Component
  rest : List Component
  bindings : Bindings
  store : Store
  machine : W

/-- An entry of the log belongs to a moment: the component is prepared there with the request and
the store of the entry. Then its executor runs on what the request hands out, which are its inputs
and its outputs, and the component leaves the store and the machine as the executor does. -/
structure Invocation.RunsAt (runId root : String) (inv : Invocation) (m : Moment W) : Prop where
  component : inv.component = m.component
  prepared : m.component.prepare runId root m.bindings m.store = (.ok inv.request, inv.store)
  handed : inv.request.handed = ⟨inv.request.inputs, inv.request.outputs⟩
  store : (m.component.execute host runId root m.bindings m.store m.machine).1.2 =
    ((m.component.executor inv.request.handed.offer inv.request.parameters).run host
      inv.request.handed inv.store m.machine).1.2
  machine : (m.component.execute host runId root m.bindings m.store m.machine).2 =
    ((m.component.executor inv.request.handed.offer inv.request.parameters).run host
      inv.request.handed inv.store m.machine).2

/-- Whatever is logged at a moment belongs to it. There is one entry at most. -/
theorem Moment.runsAt_of_mem {runId root : String} {m : Moment W} {inv : Invocation}
    (h : inv ∈ (m.component.executeLogged host runId root m.bindings m.store m.machine).1.1.2) :
    inv.RunsAt host runId root m := by
  rcases m.component.prepare_cases runId root m.bindings m.store with
    ⟨e, hprepare⟩ | ⟨r, s, hprepare, -⟩
  · rw [Component.executeLogged_of_refused host hprepare] at h
    cases h
  · rw [Component.executeLogged_of_prepared host hprepare] at h
    obtain rfl := List.mem_singleton.mp h
    obtain ⟨hstore, hmachine⟩ := m.component.left_of_perform host r m.bindings s m.machine
    refine ⟨rfl, hprepare, rfl, ?_, ?_⟩
    · rw [Component.execute_of_prepared host hprepare]
      exact hstore
    · rw [Component.execute_of_prepared host hprepare]
      exact hmachine

/-! ### One component after another

`Runner.Passes` follows the recursion of the run. It is a relation and not a list of moments, since
which moments there are depends on how executors end. -/

namespace Runner

/-- The components of a list are executed one after the other. One of them is reached if those
before it end well. -/
inductive Passes (runId root : String) :
    List Component → Bindings → Store → W → Moment W → Prop where
  | here (c : Component) (rest : List Component) (b : Bindings) (s : Store) (w : W) :
      Passes runId root (c :: rest) b s w ⟨c, rest, b, s, (host .ticks w).2⟩
  | later {c : Component} {rest : List Component} {b b' : Bindings} {s s' : Store} {w w' : W}
      {outputs : TextMap (List ArtifactRecord)} {m : Moment W}
      (hc : c.execute host runId root b s (host .ticks w).2 = (((.ok outputs, b'), s'), w'))
      (hm : Passes runId root rest b' (s'.note (completed c outputs.size)) (host .ticks w').2 m) :
      Passes runId root (c :: rest) b s w m

/-- A run that is not refused reaches a component. -/
def Reaches (r : Runner) (p : Pipeline) (runId : String) (s : Store) (w : W) (m : Moment W) :
    Prop :=
  p.config.mode ≠ .external ∧
    Passes host runId r.stagingRoot p.execution (s.seed p.inputs)
      { s with scope := some ⟨runId, p.name⟩ } (host .ticks w).2 m

theorem ticks_apply (s : Store) (w : W) :
    ticks host s w = (((host .ticks w).1, s), (host .ticks w).2) := rfl

/-- One round of a run: the component is executed and its figures are kept. If it fails, that is all
there is, and otherwise what it has made is put before the report of the others. -/
theorem runAll_round (runId root : String) (c : Component) (rest : List Component) (b : Bindings)
    (figures : Snapshot) (s : Store) (w : W) :
    ∃ outcome b' s' w' d, c.execute host runId root b s (host .ticks w).2 =
        (((outcome, b'), s'), w') ∧
      (runAll host runId root (c :: rest) b figures s w).1.1 =
        match outcome with
        | .error f => (.error f, figures.record c.name c.spec.kind .failed d.milliseconds)
        | .ok outputs =>
          let later := (runAll host runId root rest b'
            (figures.record c.name c.spec.kind .succeeded d.milliseconds)
            (s'.note (completed c outputs.size)) (host .ticks w').2).1.1
          (later.1.map (⟨c.name, c.spec.kind, outputs, d⟩ :: ·), later.2) := by
  rcases hout : c.execute host runId root b s (host .ticks w).2 with ⟨⟨⟨outcome, b'⟩, s'⟩, w'⟩
  refine ⟨outcome, b', s', w', ⟨(ticks host s' w').1.1 - (ticks host s w).1.1⟩, rfl, ?_⟩
  rw [runAll]
  simp only [machine_bind_apply, ticks_apply, hout]
  cases outcome <;> rfl

/-- The run ends with the first component if that fails, and goes on with the store, the bindings
and the machine that it leaves otherwise. -/
theorem runAllLogged_cases (runId root : String) (c : Component) (rest : List Component)
    (b : Bindings) (metrics : Snapshot) (s : Store) (w : W) :
    ∃ outcome b' log s₁ w₁, c.executeLogged host runId root b s (host .ticks w).2 =
        ((((outcome, b'), log), s₁), w₁) ∧
      ((∃ f metrics' w', outcome = .error f ∧
          runAllLogged host runId root (c :: rest) b metrics s w =
            ((((.error f, metrics'), log), s₁), w')) ∨
        ∃ outputs done metrics₁ others metrics' later s' w', outcome = .ok outputs ∧
          runAllLogged host runId root rest b' metrics₁
              (s₁.note (completed c outputs.size)) (host .ticks w₁).2 =
            ((((others, metrics'), later), s'), w') ∧
          runAllLogged host runId root (c :: rest) b metrics s w =
            ((((others.map (done :: ·), metrics'), log ++ later), s'), w')) := by
  rcases hout : c.executeLogged host runId root b s (host .ticks w).2 with
    ⟨⟨⟨⟨outcome, b'⟩, log⟩, s₁⟩, w₁⟩
  refine ⟨outcome, b', log, s₁, w₁, rfl, ?_⟩
  rw [runAllLogged]
  simp only [machine_bind_apply, ticks_apply, hout]
  cases outcome with
  | error f => exact .inl ⟨f, _, _, rfl, rfl⟩
  | ok outputs => exact .inr ⟨outputs, _, _, _, _, _, _, _, rfl, rfl, rfl⟩

/-- Every entry of the log belongs to a moment that is reached. The induction is on the components:
what is logged first belongs to the first one, and all else to those behind it. -/
theorem exists_moment_of_mem_log {runId root : String} {cs : List Component} {b : Bindings}
    {metrics : Snapshot} {s : Store} {w : W} {inv : Invocation}
    (h : inv ∈ (runAllLogged host runId root cs b metrics s w).1.1.2) :
    ∃ m, Passes host runId root cs b s w m ∧ inv.RunsAt host runId root m := by
  induction cs generalizing b metrics s w with
  | nil => cases h
  | cons c rest ih =>
    obtain ⟨outcome, b', log, s₁, w₁, hout, hrun⟩ :=
      runAllLogged_cases host runId root c rest b metrics s w
    have hfirst : inv ∈ log → ∃ m, Passes host runId root (c :: rest) b s w m ∧
        inv.RunsAt host runId root m := by
      intro hinv
      refine ⟨_, .here c rest b s w, Moment.runsAt_of_mem host ?_⟩
      rw [hout]
      exact hinv
    rcases hrun with ⟨f, metrics', w', -, hrun⟩ |
      ⟨outputs, done, metrics₁, others, metrics', later, s', w', rfl, hrest, hrun⟩
    · rw [hrun] at h
      exact hfirst h
    · rw [hrun] at h
      rcases List.mem_append.mp h with hinv | hinv
      · exact hfirst hinv
      · have hlater : inv ∈ (runAllLogged host runId root rest b' metrics₁
            (s₁.note (completed c outputs.size)) (host .ticks w₁).2).1.1.2 := by
          rw [hrest]
          exact hinv
        obtain ⟨m, hm, hruns⟩ := ih hlater
        refine ⟨m, .later ?_ hm, hruns⟩
        rw [Component.execute_apply, hout]

theorem grows_runAllLogged (runId root : String) (cs : List Component) (b : Bindings)
    (metrics : Snapshot) (s : Store) (w : W) :
    s.Grows (runAllLogged host runId root cs b metrics s w).1.2 := by
  induction cs generalizing b metrics s w with
  | nil => exact .refl s
  | cons c rest ih =>
    obtain ⟨outcome, b', log, s₁, w₁, hout, hrun⟩ :=
      runAllLogged_cases host runId root c rest b metrics s w
    have hgrows := c.grows_executeLogged host runId root b s (host .ticks w).2
    rw [hout] at hgrows
    rcases hrun with ⟨f, metrics', w', -, hrun⟩ |
      ⟨outputs, done, metrics₁, others, metrics', later, s', w', -, hrest, hrun⟩
    · rw [hrun]
      exact hgrows
    · have hlater := ih b' metrics₁ (s₁.note (completed c outputs.size)) (host .ticks w₁).2
      rw [hrest] at hlater
      rw [hrun]
      exact (hgrows.trans (Store.grows_note s₁ _)).trans hlater

/-! ### Whole runs

A run marks the notes of the store with its id while it goes on, and takes the mark off at its end.
So the components meet another store than the one that the run was given, with the same artifacts
and channels. -/

variable (r : Runner) (p : Pipeline) (runId : String) (s : Store) (w : W)

/-- What comes of the components of a run that is not refused: they begin with what the declared
inputs hold and with new figures, and notes are marked with the run. -/
def passed : ((Except Fault (List ComponentRun) × Snapshot) × Store) × W :=
  runAll host runId r.stagingRoot p.execution (s.seed p.inputs) (.begin runId)
    { s with scope := some ⟨runId, p.name⟩ } (host .ticks w).2

/-- What comes of a run. A refused one changes nothing. Any other run keeps the figures, ends its
marks and reports what its components have done, or gives the first failure. -/
theorem run_eq : r.run host p runId s w =
    if p.config.mode = .external then
      (((.error (.sentence (s!"Pipeline '{p.name}' is configured for external execution; " ++
        "export a plan instead")), r), s), w)
    else
      match r.passed host p runId s w with
      | (((.error f, figures), s'), w') =>
        (((.error f, { r with metrics := figures }), { s' with scope := none }), w')
      | (((.ok runs, figures), s'), w') =>
        let spent : Duration := ⟨(ticks host s' w').1.1 - (ticks host s w).1.1⟩
        (((.ok ⟨p.name, runId, runs⟩, { r with metrics := figures.finishRun spent }),
          { s' with scope := none }), (host .ticks w').2) := by
  have hseed : Store.seed { s with scope := some ⟨runId, p.name⟩ } p.inputs = s.seed p.inputs := rfl
  unfold run passed
  split
  · rfl
  · simp only [machine_bind_apply, machine_modify_apply, machine_get_apply, ticks_apply, hseed]
    rcases runAll host runId r.stagingRoot p.execution (s.seed p.inputs) (.begin runId)
      { s with scope := some ⟨runId, p.name⟩ } (host .ticks w).2 with
      ⟨⟨⟨f | runs, figures⟩, s'⟩, w'⟩ <;> rfl

/-- A run is refused and invokes nothing, or goes through the components in the order of execution,
with what the declared inputs hold. -/
theorem runLogged_cases :
    (p.config.mode = .external ∧
        ∃ f, r.runLogged host p runId s w = ((((.error f, r), []), s), w)) ∨
      p.config.mode ≠ .external ∧ ∃ outcome metrics' log s' w₁ result r' w',
        runAllLogged host runId r.stagingRoot p.execution (s.seed p.inputs) (.begin runId)
            { s with scope := some ⟨runId, p.name⟩ } (host .ticks w).2 =
          ((((outcome, metrics'), log), s'), w₁) ∧
        r.runLogged host p runId s w = ((((result, r'), log), { s' with scope := none }), w') ∧
        ∀ report, result = .ok report → ∃ runs, outcome = .ok runs := by
  unfold runLogged
  split
  · rename_i hmode
    exact .inl ⟨hmode, _, rfl⟩
  · rename_i hmode
    have hseed : Store.seed { s with scope := some ⟨runId, p.name⟩ } p.inputs = s.seed p.inputs :=
      rfl
    rcases hout : runAllLogged host runId r.stagingRoot p.execution (s.seed p.inputs)
      (.begin runId) { s with scope := some ⟨runId, p.name⟩ } (host .ticks w).2 with
      ⟨⟨⟨⟨outcome, metrics⟩, log⟩, s'⟩, w₁⟩
    simp only [machine_bind_apply, machine_modify_apply, machine_get_apply, ticks_apply, hseed,
      hout]
    cases outcome with
    | error f => exact .inr ⟨hmode, _, _, _, _, _, _, _, _, rfl, rfl, fun _ h => nomatch h⟩
    | ok runs => exact .inr ⟨hmode, _, _, _, _, _, _, _, _, rfl, rfl, fun _ _ => ⟨runs, rfl⟩⟩

/-- The invocations of a run, the earliest first. -/
def invocations : List Invocation := (r.runLogged host p runId s w).1.1.2

variable {r p runId s w}

/-- Every invocation of a run belongs to a moment that the run reaches. -/
theorem exists_moment_of_mem_invocations {inv : Invocation}
    (h : inv ∈ r.invocations host p runId s w) :
    ∃ m, r.Reaches host p runId s w m ∧ inv.RunsAt host runId r.stagingRoot m := by
  rw [invocations] at h
  rcases r.runLogged_cases host p runId s w with
    ⟨-, f, hrun⟩ | ⟨hmode, outcome, metrics, log, s', w₁, result, r', w', hall, hrun, -⟩
  · rw [hrun] at h
    cases h
  · rw [hrun] at h
    have hlog : inv ∈ (runAllLogged host runId r.stagingRoot p.execution (s.seed p.inputs)
        (.begin runId) { s with scope := some ⟨runId, p.name⟩ } (host .ticks w).2).1.1.2 := by
      rw [hall]
      exact h
    obtain ⟨m, hm, hruns⟩ := exists_moment_of_mem_log host hlog
    exact ⟨m, ⟨hmode, hm⟩, hruns⟩

/-- A run lets the store grow. -/
theorem grows_run (r : Runner) (p : Pipeline) (runId : String) (s : Store) (w : W) :
    s.Grows (r.run host p runId s w).1.2 := by
  have herase : (r.run host p runId s w).1.2 = (r.runLogged host p runId s w).1.2 := by
    rw [← fst_runLogged]
    rfl
  rw [herase]
  rcases r.runLogged_cases host p runId s w with
    ⟨-, f, h⟩ | ⟨-, outcome, metrics, log, s', w₁, result, r', w', hall, h, -⟩
  · rw [h]
    exact .refl s
  · have hscope : s.Grows { s with scope := some ⟨runId, p.name⟩ } :=
      Store.grows_of_eq rfl rfl rfl rfl
    have hrun := grows_runAllLogged host runId r.stagingRoot p.execution (s.seed p.inputs)
      (.begin runId) { s with scope := some ⟨runId, p.name⟩ } (host .ticks w).2
    rw [hall] at hrun
    rw [h]
    exact (hscope.trans hrun).trans (Store.grows_of_eq rfl rfl rfl rfl)

end Runner

end TypedPipeline
