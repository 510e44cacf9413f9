import TypedPipeline.Proofs.Run.Contents
import TypedPipeline.Proofs.Session.Typing

/-!
# Accounts of a run

A run is told of in three ways. The figures of the runner name the components that were attempted
and how each of them ended, the report lists what each of them has made, and the run itself ends
well or with a failure. The figures are kept while the run goes on, whatever becomes of it, and the
report is made up only at its end. They agree all the same: what is attempted is a first part of the
order of execution, all of it went well but perhaps the last component, and that one has failed
exactly if the run has.

Each component is attempted once, so the figures that it had before do not count. They are gone in
any case when a run begins.

## Implementation notes

`Runner.Attempts` is about a list of components and two properties of them, to be reached and to
fail. So it can be said of the components from any point of a run on, and the induction over the
recursion of `Runner.runAll` only has to put one component in front: either it fails, and nothing is
attempted behind it, or it ends well, and what is reached behind it is reached from what it has
left. `Runner.passes_iff_of_error` and `Runner.passes_iff_of_ok` say just this of the moments.

Figures are kept by names. That no two components of a pipeline have one name is what makes
`Snapshot.Accounts` true: a second component with the name would be counted with the first one, and
none of the two would have been executed once.

The figures are an accumulator, and the report is built from behind. So one half of the induction
carries along what has been told before, and the other half has nothing to carry.

## Main definitions

* `ComponentMetrics.Once`, `Snapshot.Accounts` — figures of components that were attempted once
* `Runner.Attempts` — which components of a list are attempted, and how they end
* `ComponentRun.Reports` — what a report says of a component

## Main results

* `Snapshot.Accounts.record` — one component more
* `Runner.runAll_attempts`, `Runner.runAll_reports` — components one after the other
* `Runner.run_attempts`, `Runner.run_reports` — the figures and the report of a run
* `Runner.run_accounts` — a whole run
-/

namespace TypedPipeline

/-! ### Figures

Times are left out. What is said is how often each component was executed, how it ended and of which
kind it is. -/

/-- The figures of a component that was executed once. One of the two counts is one, the other is
zero, and the last outcome is the only one. -/
structure ComponentMetrics.Once (m : ComponentMetrics) (kind : String) (outcome : Outcome) :
    Prop where
  kind : m.kind = kind
  succeeded : m.succeeded = if outcome = .succeeded then 1 else 0
  failed : m.failed = if outcome = .failed then 1 else 0
  last : m.last = some outcome

theorem ComponentMetrics.once_record (kind : String) (outcome : Outcome) (ms : Binary64) :
    ((({} : ComponentMetrics).withKind kind).record outcome ms).Once kind outcome := by
  refine ⟨?_, ?_, ?_, rfl⟩ <;> simp [withKind, record]

/-- The figures of a run in which components were attempted, each of them once. The list is in the
order of attempts, but the figures do not show the order: they are a map of names. -/
structure Snapshot.Accounts (figures : Snapshot) (runId : String)
    (attempted : List (Component × Outcome)) : Prop where
  runId : figures.runId = some runId
  once : ∀ e ∈ attempted, ∃ m, figures.components.find? e.1.name = some m ∧
    m.Once e.1.spec.kind e.2
  /-- Nothing is told of other components. -/
  listed : ∀ name m, figures.components.find? name = some m → ∃ e ∈ attempted, e.1.name = name

namespace Snapshot.Accounts

variable {figures : Snapshot} {runId : String} {attempted : List (Component × Outcome)}

/-- When a run begins, what was told before is gone. -/
theorem begin (runId : String) : (Snapshot.begin runId).Accounts runId [] where
  runId := rfl
  once := by simp
  listed name m h := by cases h

/-- The figures of one more component stand beside those that were there. Its name is a new one, so
no figures are added up. -/
theorem record (h : figures.Accounts runId attempted) {c : Component}
    (hnew : ∀ e ∈ attempted, e.1.name ≠ c.name) (outcome : Outcome) (ms : Binary64) :
    (figures.record c.name c.spec.kind outcome ms).Accounts runId
      (attempted ++ [(c, outcome)]) := by
  have hnone : figures.components.find? c.name = none := by
    refine Option.eq_none_iff_forall_ne_some.mpr fun m hm => ?_
    obtain ⟨e, he, hname⟩ := h.listed c.name m hm
    exact hnew e he hname
  have hfind : ∀ name, (figures.record c.name c.spec.kind outcome ms).components.find? name =
      if name = c.name then
        some ((({} : ComponentMetrics).withKind c.spec.kind).record outcome ms)
      else figures.components.find? name := by
    intro name
    rw [Snapshot.record, hnone]
    exact SortedMap.find?_insert ..
  refine ⟨h.runId, fun e he => ?_, fun name m hm => ?_⟩
  · rw [hfind]
    rcases List.mem_append.mp he with he | he
    · rw [if_neg (hnew e he)]
      exact h.once e he
    · cases List.mem_singleton.mp he
      exact ⟨_, if_pos rfl, ComponentMetrics.once_record ..⟩
  · rw [hfind] at hm
    split at hm
    · rename_i hname
      exact ⟨(c, outcome), by simp, hname.symm⟩
    · obtain ⟨e, he, hname⟩ := h.listed name m hm
      exact ⟨e, List.mem_append_left _ he, hname⟩

/-- The time of the whole run is told besides. It is not part of the figures of any component. -/
theorem finishRun (h : figures.Accounts runId attempted) (d : Duration) :
    (figures.finishRun d).Accounts runId attempted := ⟨h.runId, h.once, h.listed⟩

end Snapshot.Accounts

/-! ### Attempts

A list of attempts is not taken from the run but is determined by it. It is the beginning of the
components that is as long as components are reached, and only the last of them may have failed. -/

/-- What was attempted of the components `cs`: those that were `reached`, in this order. All ended
well except for the last one, if it `fails`. -/
structure Runner.Attempts (cs : List Component) (reached fails : Component → Prop)
    (attempted : List (Component × Outcome)) : Prop where
  initial : attempted.map Prod.fst <+: cs
  reached : ∀ k, k ∈ attempted.map Prod.fst ↔ reached k
  succeeded : ∀ e ∈ attempted.dropLast, e.2 = .succeeded
  failed : ∀ k, attempted.getLast? = some (k, .failed) ↔ fails k
  /-- Where none fails, all are attempted. -/
  complete : (∀ k, ¬ fails k) → attempted.map Prod.fst = cs

namespace Runner.Attempts

variable {c : Component} {rest : List Component} {reached fails : Component → Prop}

theorem nil (hreached : ∀ k, ¬ reached k) (hfails : ∀ k, ¬ fails k) :
    Attempts [] reached fails [] := by
  constructor <;> simp [hreached, hfails]

/-- Nothing is attempted behind a component that fails. It is the last one and the only one that
failed. -/
theorem stop (hreached : ∀ k, reached k ↔ k = c) (hfails : ∀ k, fails k ↔ k = c) :
    Attempts (c :: rest) reached fails [(c, .failed)] where
  initial := by simp
  reached k := by simp [hreached]
  succeeded := by simp
  failed k := by simp [hfails, eq_comm]
  complete h := absurd ((hfails c).mpr rfl) (h c)

/-- What is attempted behind a component that ends well. -/
theorem next {attempted : List (Component × Outcome)} {reached' : Component → Prop}
    (h : Attempts rest reached fails attempted) (hreached : ∀ k, reached' k ↔ k = c ∨ reached k) :
    Attempts (c :: rest) reached' fails ((c, .succeeded) :: attempted) where
  initial := by
    rw [List.map_cons]
    exact List.cons_prefix_cons.mpr ⟨rfl, h.initial⟩
  reached k := by rw [List.map_cons, List.mem_cons, h.reached, hreached]
  succeeded e he := by
    cases attempted with
    | nil => cases he
    | cons next later =>
      rw [List.dropLast_cons_of_ne_nil (List.cons_ne_nil _ _), List.mem_cons] at he
      rcases he with rfl | he
      · rfl
      · exact h.succeeded e he
  failed k := by
    rw [← h.failed]
    cases attempted with
    | nil => simp
    | cons next later => rw [List.getLast?_cons_cons]
  complete hnone := by rw [List.map_cons, h.complete hnone]

end Runner.Attempts

/-! ### Reports

A component that conforms to its contract is assumed here. Without this one could not say that the
outputs of the report are the declared ones, for a report lists what the request had. -/

/-- What a report says of a component. -/
structure ComponentRun.Reports (run : ComponentRun) (k : Component) : Prop where
  name : run.name = k.name
  kind : run.kind = k.spec.kind
  /-- The declared outputs are listed, and no others. -/
  outputNames : Spec.NamesAgree k.spec.outputs run.outputs
  /-- Each of them has one record, with a location and the declared type. -/
  outputs : ∀ f ∈ k.spec.outputs, ∃ record, run.outputs.find? f.1 = some [record] ∧
    record.uri ≠ none ∧ record.typeName = f.2.name

namespace Component

variable {W : Type} (host : Host (StateM W)) {k : Component} {runId root : String}
  {b b' : Bindings} {s s' : Store} {w w' : W}

/-- A request has one artifact for each output, of the type of its channel, and no others. -/
theorem types_of_prepare {r : Request} (h : k.prepare runId root b s = (.ok r, s'))
    (output : String) :
    (r.outputs.find? output).map (List.map Artifact.type) =
      (k.outputs.find? output).map fun d => [d.type] := by
  obtain ⟨-, rfl, -⟩ := prepare_eq_ok_iff.mp h
  have hsights := congrArg (Option.map (List.map Sight.type))
    (sights_placeholders root k.name runId s k.outputs.entries output)
  rw [Store.find?_sights, Option.map_map, Option.map_map] at hsights
  simp only [Function.comp_def, List.map_map, List.map_singleton, Store.sight] at hsights
  exact hsights

/-- The records of a component that was executed are those of its declared outputs. -/
theorem reports_of_execute (hk : k.Conforms) {outputs : TextMap (List ArtifactRecord)}
    (h : k.execute host runId root b s w = (((.ok outputs, b'), s'), w')) (d : Duration) :
    ComponentRun.Reports ⟨k.name, k.spec.kind, outputs, d⟩ k := by
  obtain ⟨r, s₁, hprepare, hinvoke, -, rfl⟩ := (execute_ok_iff host).mp h
  obtain ⟨-, hcomplete⟩ := (Request.invoke_ok_iff host).mp hinvoke
  have hfind : ∀ output, (r.outputRecords s').find? output =
      (r.outputs.find? output).map (List.map s'.record) := fun output =>
    SortedMap.find?_map ..
  refine ⟨rfl, rfl, fun output => ?_, fun f hf => ?_⟩
  · have hsome := congrArg Option.isSome (types_of_prepare hprepare output)
    rw [Option.isSome_map, Option.isSome_map] at hsome
    rw [← hk.outputs.names output, hfind, ← Option.isSome_iff_exists, ← Option.isSome_iff_exists,
      Option.isSome_map, hsome]
  · obtain ⟨d, hd⟩ := (hk.outputs.names f.1).mpr ⟨f.2, hf⟩
    have htypes := types_of_prepare hprepare f.1
    rw [hd] at htypes
    obtain ⟨l, hl, hmap⟩ := Option.map_eq_some_iff.mp htypes
    obtain ⟨a, rfl, htype⟩ := List.map_eq_singleton_iff.mp hmap
    have hpopulated := Request.incomplete?_eq_none_iff.mp hcomplete _
      (SortedMap.find?_eq_some_iff.mp hl) a (List.mem_singleton_self a)
    refine ⟨s'.record a, ?_, Option.isSome_iff_ne_none.mp hpopulated, ?_⟩
    · rw [hfind, hl]
      rfl
    · rw [← hk.outputs.types f hf d hd, ← htype]
      rfl

end Component

/-! ### One component after another

The recursion of the run is not opened again. What comes of the first component is said by
`Runner.runAll_round`, and all else by the induction hypothesis. -/

namespace Runner

variable {W : Type} (host : Host (StateM W)) {runId root : String} {c : Component}
  {rest cs : List Component} {b b' : Bindings} {s s' : Store} {w w' : W} {m : Moment W}

/-- Where the first component fails, only that one is reached. -/
theorem passes_iff_of_error {f : Fault}
    (h : c.execute host runId root b s (host .ticks w).2 = (((.error f, b'), s'), w')) :
    Passes host runId root (c :: rest) b s w m ↔ m = ⟨c, rest, b, s, (host .ticks w).2⟩ := by
  constructor
  · intro hm
    cases hm with
    | here => rfl
    | later hc => cases h.symm.trans hc
  · rintro rfl
    exact .here c rest b s w

/-- Where it ends well, those behind it are reached from what it leaves. -/
theorem passes_iff_of_ok {outputs : TextMap (List ArtifactRecord)}
    (h : c.execute host runId root b s (host .ticks w).2 = (((.ok outputs, b'), s'), w')) :
    Passes host runId root (c :: rest) b s w m ↔ m = ⟨c, rest, b, s, (host .ticks w).2⟩ ∨
      Passes host runId root rest b' (s'.note (completed c outputs.size)) (host .ticks w').2 m := by
  constructor
  · intro hm
    cases hm with
    | here => exact .inl rfl
    | later hc hm =>
      cases h.symm.trans hc
      exact .inr hm
  · rintro (rfl | hm)
    · exact .here c rest b s w
    · exact .later h hm

/-- A component is reached and fails. There is one such component at most, for none is reached
behind it. -/
def Stops (runId root : String) (cs : List Component) (b : Bindings) (s : Store) (w : W)
    (k : Component) : Prop :=
  ∃ m, Passes host runId root cs b s w m ∧ m.component = k ∧ ∃ f,
    (m.component.execute host runId root m.bindings m.store m.machine).1.1.1 = .error f

/-- The figures tell of the components that are reached, besides those of which they told before. -/
theorem runAll_attempts (root : String) (b : Bindings) (s : Store) (w : W)
    (hcs : (cs.map Component.name).Nodup) {figures : Snapshot}
    {before : List (Component × Outcome)} (hfigures : figures.Accounts runId before)
    (hnew : ∀ e ∈ before, ∀ k ∈ cs, e.1.name ≠ k.name) :
    ∃ attempted,
      (runAll host runId root cs b figures s w).1.1.2.Accounts runId (before ++ attempted) ∧
      Attempts cs (fun k => ∃ m, Passes host runId root cs b s w m ∧ m.component = k)
        (Stops host runId root cs b s w) attempted := by
  induction cs generalizing b figures before s w with
  | nil =>
    refine ⟨[], ?_, .nil ?_ ?_⟩
    · rw [List.append_nil]
      exact hfigures
    · rintro k ⟨m, hm, -⟩
      cases hm
    · rintro k ⟨m, hm, -⟩
      cases hm
  | cons c rest ih =>
    obtain ⟨hc, hrest⟩ := List.nodup_cons.mp hcs
    have hfirst : ∀ e ∈ before, e.1.name ≠ c.name := fun e he => hnew e he c List.mem_cons_self
    obtain ⟨outcome, b', s', w', d, hout, hround⟩ :=
      runAll_round host runId root c rest b figures s w
    rw [hround]
    cases outcome with
    | error f =>
      refine ⟨[(c, .failed)], hfigures.record hfirst .failed _, .stop (fun k => ?_) fun k => ?_⟩
      · simp [passes_iff_of_error host hout, eq_comm]
      · simp [Stops, passes_iff_of_error host hout, hout, eq_comm]
    | ok outputs =>
      have hlater : ∀ e ∈ before ++ [(c, Outcome.succeeded)], ∀ k ∈ rest, e.1.name ≠ k.name := by
        intro e he k hk
        rcases List.mem_append.mp he with he | he
        · exact hnew e he k (List.mem_cons_of_mem _ hk)
        · cases List.mem_singleton.mp he
          exact fun hname => hc (List.mem_map.mpr ⟨k, hk, hname.symm⟩)
      obtain ⟨attempted, haccounts, hattempts⟩ :=
        ih b' (s'.note (completed c outputs.size)) (host .ticks w').2 hrest
          (hfigures.record hfirst .succeeded d.milliseconds) hlater
      refine ⟨(c, .succeeded) :: attempted, ?_, ?_⟩
      · rw [List.append_cons]
        exact haccounts
      · -- The component itself does not fail, so those that do are found behind it.
        have hstops : Stops host runId root (c :: rest) b s w = Stops host runId root rest b'
            (s'.note (completed c outputs.size)) (host .ticks w').2 := by
          funext k
          simp [Stops, passes_iff_of_ok host hout, hout, or_and_right, exists_or]
        rw [hstops]
        refine hattempts.next fun k => ?_
        simp [passes_iff_of_ok host hout, or_and_right, exists_or, eq_comm]

/-- The report lists what the components have made, one after the other. -/
theorem runAll_reports (hcs : ∀ k ∈ cs, k.Conforms) {figures : Snapshot} {runs : List ComponentRun}
    (h : (runAll host runId root cs b figures s w).1.1.1 = .ok runs) :
    List.Forall₂ ComponentRun.Reports runs cs := by
  induction cs generalizing b figures s w runs with
  | nil =>
    cases h
    exact .nil
  | cons c rest ih =>
    rw [List.forall_mem_cons] at hcs
    obtain ⟨outcome, b', s', w', d, hout, hround⟩ :=
      runAll_round host runId root c rest b figures s w
    rw [hround] at h
    cases outcome with
    | error f => cases h
    | ok outputs =>
      dsimp only at h
      generalize hlater : runAll host runId root rest _ _ _ _ = later at h
      obtain ⟨⟨⟨f | others, figures'⟩, s''⟩, w''⟩ := later
      · cases h
      · cases h
        exact .cons (Component.reports_of_execute host hcs.1 hout d) (ih hcs.2 (by rw [hlater]))

/-! ### Whole runs

A run adds little to what its components do: it may be refused beforehand, it begins with new
figures, and in the end it adds the time that it took. -/

variable {p : Pipeline} {r : Runner}

/-- A pipeline that is meant for another scheduler is refused: nothing is invoked and nothing
changes. -/
theorem run_of_external (hmode : p.config.mode = .external) (r : Runner) (runId : String)
    (s : Store) (w : W) :
    (∃ f, r.run host p runId s w = (((.error f, r), s), w)) ∧
      r.invocations host p runId s w = [] := by
  refine ⟨⟨_, by rw [run_eq, if_pos hmode]⟩, List.eq_nil_iff_forall_not_mem.mpr fun inv hinv => ?_⟩
  obtain ⟨m, hm, -⟩ := exists_moment_of_mem_invocations host hinv
  exact hm.1 hmode

/-- The figures of a run that is not refused tell of the components that it reaches. -/
theorem run_attempts (hmode : p.config.mode ≠ .external) (r : Runner) (runId : String) (s : Store)
    (w : W) :
    ∃ attempted, (r.run host p runId s w).1.1.2.metrics.Accounts runId attempted ∧
      Attempts p.execution (fun k => ∃ m, r.Reaches host p runId s w m ∧ m.component = k)
        (fun k => ∃ m, r.Reaches host p runId s w m ∧ m.component = k ∧
          ∃ f, (m.component.execute host runId r.stagingRoot m.bindings m.store
            m.machine).1.1.1 = .error f) attempted := by
  obtain ⟨attempted, haccounts, hattempts⟩ := runAll_attempts host r.stagingRoot
    (s.seed p.inputs) { s with scope := some ⟨runId, p.name⟩ } (host .ticks w).2
    p.nodup_names_execution (.begin runId) (by simp)
  refine ⟨attempted, ?_, ?_⟩
  · rw [← passed] at haccounts
    rw [run_eq, if_neg hmode]
    generalize r.passed host p runId s w = all at haccounts ⊢
    obtain ⟨⟨⟨f | runs, figures⟩, s'⟩, w'⟩ := all
    · exact haccounts
    · exact haccounts.finishRun _
  · have hreaches : ∀ m, r.Reaches host p runId s w m ↔
        Passes host runId r.stagingRoot p.execution (s.seed p.inputs)
          { s with scope := some ⟨runId, p.name⟩ } (host .ticks w).2 m := by
      intro m
      simp [Reaches, hmode]
    simp only [hreaches]
    exact hattempts

/-- The report of a run lists what the components have made, in the order of execution. -/
theorem run_reports (hmode : p.config.mode ≠ .external) (hp : ∀ k ∈ p.execution, k.Conforms)
    {report : RunReport} (h : (r.run host p runId s w).1.1.1 = .ok report) :
    report.pipeline = p.name ∧ report.runId = runId ∧
      List.Forall₂ ComponentRun.Reports report.components p.execution := by
  rw [run_eq, if_neg hmode] at h
  rcases hpassed : r.passed host p runId s w with ⟨⟨⟨f | runs, figures⟩, s'⟩, w'⟩
  · rw [hpassed] at h
    cases h
  · rw [hpassed] at h
    cases h
    rw [passed] at hpassed
    exact ⟨rfl, rfl, runAll_reports host hp (by rw [hpassed])⟩

/-- A pipeline that is meant for another scheduler is refused, no executor is invoked, and the
figures stay. All other runs begin with new figures, whatever those before them were. Afterwards the
figures tell of this run: they list the components that were attempted, which are a first part of
the order of execution, each with its kind and with one execution. All of these ended well except
perhaps the last one, which has failed exactly if the run has, and with the same failure. If the run
ends well, the report lists all components in the order of execution, and for each its declared
outputs with one record each, which has a location and the declared type. -/
theorem run_accounts {session : Session} (hw : session.Reachable) {p : Pipeline}
    (hp : ∀ k ∈ p.components, k ∈ session.components) {W : Type} (host : Host (StateM W))
    (r : Runner) (runId : String) (machine : W) :
    (p.config.mode = .external →
      (∃ f, r.run host p runId session.store machine = (((.error f, r), session.store), machine)) ∧
      r.invocations host p runId session.store machine = []) ∧
    (p.config.mode ≠ .external →
      (∀ earlier, { r with metrics := earlier }.run host p runId = r.run host p runId) ∧
      ∃ attempted,
        (r.run host p runId session.store machine).1.1.2.metrics.Accounts runId attempted ∧
        Attempts p.execution
          (fun k => ∃ m, r.Reaches host p runId session.store machine m ∧ m.component = k)
          (fun k => ∃ m, r.Reaches host p runId session.store machine m ∧ m.component = k ∧
            ∃ f, (m.component.execute host runId r.stagingRoot m.bindings m.store
              m.machine).1.1.1 = .error f) attempted ∧
        ((∃ f, (r.run host p runId session.store machine).1.1.1 = .error f) ↔
          ∃ k, attempted.getLast? = some (k, .failed)) ∧
        (∀ f, (r.run host p runId session.store machine).1.1.1 = .error f →
          ∃ m, r.Reaches host p runId session.store machine m ∧
            attempted.getLast? = some (m.component, .failed) ∧
            (m.component.execute host runId r.stagingRoot m.bindings m.store
              m.machine).1.1.1 = .error f) ∧
        ∀ report, (r.run host p runId session.store machine).1.1.1 = .ok report →
          report.pipeline = p.name ∧ report.runId = runId ∧
          attempted.map Prod.fst = p.execution ∧ p.execution.Perm p.components.toList ∧
          List.Forall₂ ComponentRun.Reports report.components p.execution) := by
  refine ⟨fun hmode => run_of_external host hmode r runId _ machine, fun hmode => ⟨?_, ?_⟩⟩
  · intro earlier
    funext s w
    rw [run_eq, run_eq, if_neg hmode, if_neg hmode]
    rfl
  have herror : ∀ f, (r.run host p runId session.store machine).1.1.1 = .error f ↔
      ∃ m, r.Reaches host p runId session.store machine m ∧ (m.component.execute host runId
        r.stagingRoot m.bindings m.store m.machine).1.1.1 = .error f := by
    intro f
    rw [run_error_iff]
    exact or_iff_right fun h => hmode h.1
  obtain ⟨attempted, haccounts, hattempts⟩ :=
    run_attempts host hmode r runId session.store machine
  refine ⟨attempted, haccounts, hattempts, ⟨?_, ?_⟩, fun f hf => ?_, fun report hok => ?_⟩
  · rintro ⟨f, hf⟩
    obtain ⟨m, hm, hfails⟩ := (herror f).mp hf
    exact ⟨m.component, (hattempts.failed _).mpr ⟨m, hm, rfl, f, hfails⟩⟩
  · rintro ⟨k, hk⟩
    obtain ⟨m, hm, -, f, hfails⟩ := (hattempts.failed k).mp hk
    exact ⟨f, (herror f).mpr ⟨m, hm, hfails⟩⟩
  · obtain ⟨m, hm, hfails⟩ := (herror f).mp hf
    exact ⟨m, hm, (hattempts.failed _).mpr ⟨m, hm, rfl, f, hfails⟩, hfails⟩
  · obtain ⟨hname, hrunId, hreports⟩ := run_reports host hmode
      (fun k hk => hw.typed.conforms k (hp k (Pipeline.mem_execution.mp hk))) hok
    refine ⟨hname, hrunId, hattempts.complete ?_, p.execution_perm, hreports⟩
    rintro k ⟨m, hm, -, f, hfails⟩
    cases hok.symm.trans ((herror f).mpr ⟨m, hm, hfails⟩)

end Runner

namespace Relay

/-- A runner with the figures of an earlier run. -/
def used : Runner := { stagingRoot := "out", metrics := .begin "before" }

/-- A pipeline that is meant for another scheduler. -/
def exported : Pipeline := { unfedPipeline with config := { mode := .external } }

theorem mem_unfed : ∀ k ∈ unfedPipeline.components, k ∈ unfed.components := by
  simp [unfedPipeline, unfed]

theorem exists_report : ∃ report, (used.run clock pipeline "run" session.store 0).1.1.1 =
    .ok report := by
  have hok : (used.run clock pipeline "run" session.store 0).1.1.1.toBool = true := by
    decide +kernel
  cases hresult : (used.run clock pipeline "run" session.store 0).1.1.1 with
  | error f =>
    rw [hresult] at hok
    cases hok
  | ok report => exact ⟨report, rfl⟩

theorem exists_fault : ∃ f, (used.run clock unfedPipeline "run" unfed.store 0).1.1.1 =
    .error f := by
  have hfails : (used.run clock unfedPipeline "run" unfed.store 0).1.1.1.toBool = false := by
    decide +kernel
  cases hresult : (used.run clock unfedPipeline "run" unfed.store 0).1.1.1 with
  | error f => exact ⟨f, rfl⟩
  | ok report =>
    rw [hresult] at hfails
    cases hfails

end Relay

/-- Two components that go well are both reported, one that has nothing to read is listed as failed,
and one that is meant for another scheduler leaves the earlier figures. -/
theorem Runner.run_accounts_relay :
    Relay.session.Reachable ∧ (∀ k ∈ Relay.pipeline.components, k ∈ Relay.session.components) ∧
      Relay.unfed.Reachable ∧ (∀ k ∈ Relay.unfedPipeline.components, k ∈ Relay.unfed.components) ∧
      (∃ report, (Relay.used.run Relay.clock Relay.pipeline "run" Relay.session.store 0).1.1.1 =
          .ok report ∧
        List.Forall₂ ComponentRun.Reports report.components Relay.pipeline.execution) ∧
      (Relay.used.run Relay.clock Relay.unfedPipeline "run"
        Relay.unfed.store 0).1.1.2.metrics.Accounts "run"
          [(Relay.component "first" 1 1 2, .failed)] ∧
      (Relay.used.run Relay.clock Relay.exported "run" Relay.unfed.store 0).1.1.2.metrics.runId =
        some "before" := by
  refine ⟨Relay.reachable, Relay.mem_session, Relay.reachable_unfed, Relay.mem_unfed, ?_, ?_, ?_⟩
  · obtain ⟨-, hlocal⟩ := run_accounts Relay.reachable (p := Relay.pipeline) Relay.mem_session
      Relay.clock Relay.used "run" 0
    obtain ⟨-, attempted, -, -, -, -, hok⟩ := hlocal (by decide)
    obtain ⟨report, hreport⟩ := Relay.exists_report
    obtain ⟨-, -, -, -, hreports⟩ := hok report hreport
    exact ⟨report, hreport, hreports⟩
  · obtain ⟨-, hlocal⟩ := run_accounts Relay.reachable_unfed Relay.mem_unfed Relay.clock Relay.used
      "run" 0
    obtain ⟨-, attempted, haccounts, hattempts, hfailed, -⟩ := hlocal (by decide)
    obtain ⟨k, hk⟩ := hfailed.mp Relay.exists_fault
    have hinitial := hattempts.initial
    rw [Relay.execution_unfed] at hinitial
    obtain _ | ⟨⟨c, outcome⟩, rest⟩ := attempted
    · cases hk
    · obtain ⟨rfl, hrest⟩ := List.cons_prefix_cons.mp hinitial
      cases List.map_eq_nil_iff.mp (List.prefix_nil.mp hrest)
      cases hk
      exact haccounts
  · obtain ⟨hexternal, -⟩ := run_accounts Relay.reachable_unfed (p := Relay.exported)
      Relay.mem_unfed Relay.clock Relay.used "run" 0
    obtain ⟨⟨f, hrefused⟩, -⟩ := hexternal rfl
    rw [hrefused]
    rfl

end TypedPipeline
