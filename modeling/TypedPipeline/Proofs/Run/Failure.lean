import TypedPipeline.Proofs.Run.Resolution

/-!
# How a run fails

A run fails because it is refused, or at a component that it reaches: an executor fails or leaves an
output without location, or a declared input that no component writes has nothing to read. That is
all. What a component of the pipeline writes can always be read by those behind it, and what was
made for an output always fits its channel; so two branches of a run are never taken.

Whether a component fails is a question about its moment alone, and the invariant of
`Runner.Progress` holds at every moment that a run reaches. It is this invariant that rules out an
unreadable input behind a component that writes it, and no induction over the run is needed for the
failures themselves: a run fails with the failure of the one moment at which it stops.

## Implementation notes

There are three layers. Of one component it is known in which ways it fails, with the bindings and
the store that it meets. Of the components of a run it is known that the run fails where the first
of them does. And of the moments of a run it is known what the bindings and the store are. The last
theorem puts one on the other.

That outputs can be published rests on how they are made: the artifact of an output has the type of
its channel, so each comparison of types succeeds. That no two outputs of a component have one
channel is known of all components that were built, and what is bound afterwards depends on it.

## Main definitions

* `Moment.Starves`, `Moment.Invokes` — nothing to read; how an executor ends

## Main results

* `Component.execute_error_iff` — how one component fails
* `Runner.runAll_error_iff` — a run fails where one of its components does
* `Runner.run_fails_iff` — how a run fails
-/

namespace TypedPipeline

variable {W : Type} (host : Host (StateM W))

/-! ### One component

These lemmas are about any store and any bindings, and need no run around them. -/

/-- An invocation fails with the failure of the executor, or because an output of an executor that
is done has no location. -/
theorem Request.invoke_error_iff {r : Request} {executor : Executor} {s : Store} {w : W}
    {e : ExecutionError} :
    (r.invoke host executor s w).1.1 = .error e ↔
      ∃ result s' w', (executor r.handed.offer r.parameters).run host r.handed s w =
          ((result, s'), w') ∧
        (result = .error e ∨ result = .ok () ∧
          ∃ output, r.incomplete? s' = some output ∧ e = .incompleteOutput r.component output) := by
  rw [invoke_apply, judge_error_iff]
  rcases (executor r.handed.offer r.parameters).run host r.handed s w with ⟨⟨result, s'⟩, w'⟩
  constructor
  · intro h
    exact ⟨result, s', w', rfl, h⟩
  · rintro ⟨_, _, _, hrun, h⟩
    cases hrun
    exact h

theorem Request.mem_of_incomplete? {r : Request} {s : Store} {output : String}
    (h : r.incomplete? s = some output) :
    ∃ e ∈ r.outputs.entries, e.1 = output ∧ ∃ a ∈ e.2, (s.artifact a).uri = none := by
  obtain ⟨e, he, rfl⟩ := Option.map_eq_some_iff.mp h
  have hmissing := List.find?_some he
  exact ⟨e, List.mem_of_find?_eq_some he, rfl, by simpa [ArtifactState.populated] using hmissing⟩

/-- There is something to report exactly if some output has no location. Which output is reported is
left open: it is one of those. -/
theorem Request.exists_incomplete?_iff {r : Request} {s : Store} :
    (∃ output, r.incomplete? s = some output) ↔
      ∃ e ∈ r.outputs.entries, ∃ a ∈ e.2, (s.artifact a).uri = none := by
  rw [← Option.isSome_iff_exists]
  simp [incomplete?, ArtifactState.populated]

namespace Component

variable {c : Component} {runId root : String} {b : Bindings} {s : Store} {w : W}

theorem exists_of_unpopulated? {l : List (String × Channel)} {field : String}
    (h : unpopulated? s b l = some field) :
    ∃ e ∈ l, e.1 = field ∧ readable s (b.artifacts e.2) = false := by
  induction l with
  | nil => cases h
  | cons e rest ih =>
    rw [unpopulated?] at h
    split at h
    · obtain ⟨e', he', hfield, hread⟩ := ih h
      exact ⟨e', List.mem_cons_of_mem _ he', hfield, hread⟩
    · rename_i hread
      cases h
      exact ⟨e, List.mem_cons_self, rfl, by simpa using hread⟩

theorem unpopulatedInput_of_prepare {e : ExecutionError} {s' : Store}
    (h : c.prepare runId root b s = (.error e, s')) :
    ∃ input ∈ c.inputs.entries, e = .unpopulatedInput c.name input.1 ∧
      readable s (b.artifacts input.2) = false := by
  obtain ⟨field, hfield, rfl, -⟩ := prepare_eq_error_iff.mp h
  obtain ⟨input, hinput, rfl, hread⟩ := exists_of_unpopulated? hfield
  exact ⟨input, hinput, rfl, hread⟩

/-- A component is not prepared exactly if there is an input that cannot be read. The failure names
such an input, and the store stays as it was. -/
theorem prepare_error_iff :
    (∃ e s', c.prepare runId root b s = (.error e, s')) ↔
      ∃ e ∈ c.inputs.entries, readable s (b.artifacts e.2) = false := by
  constructor
  · rintro ⟨e, s', h⟩
    obtain ⟨input, hinput, -, hread⟩ := unpopulatedInput_of_prepare h
    exact ⟨input, hinput, hread⟩
  · rintro ⟨e, he, hread⟩
    rcases c.prepare_cases runId root b s with ⟨e', h⟩ | ⟨r, s', -, hr⟩
    · exact ⟨e', s, h⟩
    · have hreadable := readable_iff.mpr (hr.readable e he)
      rw [hread] at hreadable
      cases hreadable

/-- What was made for the outputs of a component fits their channels, so it can be published. This
does not depend on what has become of the artifacts. -/
theorem Prepared.publish_ok {s' : Store} {r : Request} (hr : c.Prepared runId root b s s' r)
    (b' : Bindings) (hunshared : (c.outputs.entries.map fun e => e.2.id).Nodup) :
    ∃ b'', r.publish b' = (b'', .ok ()) := by
  have hfit : ∀ e ∈ c.outputs.entries, ∃ a, r.outputs.find? e.1 = some [a] ∧ a.type = e.2.type := by
    intro e he
    obtain ⟨a, ha, hplaceholder⟩ := hr.outputs e he
    exact ⟨a, ha, hplaceholder.type⟩
  obtain ⟨b'', hpublish, -⟩ := Request.publishAll_spec b' hunshared hfit
  rw [← hr.targets] at hpublish
  exact ⟨b'', hpublish⟩

/-- A component fails because it is not prepared, or because its executor fails or leaves an output
without location. Its outputs can be published in any case. -/
theorem execute_error_iff (hunshared : (c.outputs.entries.map fun e => e.2.id).Nodup) {f : Fault} :
    (c.execute host runId root b s w).1.1.1 = .error f ↔
      (∃ e s', c.prepare runId root b s = (.error e, s') ∧
        f = ⟨[s!"Failed to resolve inputs for '{c.name}'"], .execution e⟩) ∨
      ∃ r s', c.prepare runId root b s = (.ok r, s') ∧
        ∃ e, (r.invoke host c.executor s' w).1.1 = .error e ∧
          f = ⟨[s!"Component '{c.name}' failed"], .execution e⟩ := by
  rcases c.prepare_cases runId root b s with ⟨e, hprepare⟩ | ⟨r, s', hprepare, hr⟩
  · rw [execute_of_refused host hprepare, hprepare]
    constructor
    · intro h
      cases h
      exact .inl ⟨e, s, rfl, rfl⟩
    · rintro (⟨e', s', h, rfl⟩ | ⟨r, s', h, -⟩)
      · cases h
        rfl
      · cases h
  · rw [execute_of_prepared host hprepare, hprepare, perform, machine_bind_apply]
    rcases hinvoke : r.invoke host c.executor s' w with ⟨⟨e | done, s''⟩, w'⟩
    · constructor
      · intro h
        cases h
        exact .inr ⟨r, s', rfl, e, by rw [hinvoke], rfl⟩
      · rintro (⟨e', t, h, -⟩ | ⟨r', t, h, e', hfails, rfl⟩)
        · cases h
        · cases h
          rw [hinvoke] at hfails
          cases hfails
          rfl
    · obtain ⟨b', hpublish⟩ := hr.publish_ok b hunshared
      dsimp only
      rw [hpublish]
      constructor
      · intro h
        cases h
      · rintro (⟨e', t, h, -⟩ | ⟨r', t, h, e', hfails, -⟩)
        · cases h
        · cases h
          rw [hinvoke] at hfails
          cases hfails

/-- No component is reported to have outputs that cannot be published. -/
theorem contexts_ne_of_execute (hunshared : (c.outputs.entries.map fun e => e.2.id).Nodup)
    {f : Fault} (h : (c.execute host runId root b s w).1.1.1 = .error f) (name : String) :
    f.contexts ≠ [s!"Failed to publish outputs of '{name}'"] := by
  rcases (execute_error_iff host hunshared).mp h with ⟨e, s', -, rfl⟩ | ⟨r, s', -, e, -, rfl⟩
  · intro hcontexts
    have hletter := congrArg (fun t => t.toList[10]?) (List.cons.inj hcontexts).1
    simp [toString] at hletter
  · intro hcontexts
    have hletter := congrArg (fun t => t.toList[0]?) (List.cons.inj hcontexts).1
    simp [toString] at hletter

end Component

/-! ### Moments

A moment is all that decides how a component fails, so the causes are said of moments. -/

namespace Moment

variable (m : Moment W)

/-- An input reads a declared channel that no component of the pipeline writes, and the channel
holds nothing, or something without location. The channel is looked at when the component is
reached, but no step of the run changes what it holds. -/
structure Starves (p : Pipeline) (e : String × Channel) : Prop where
  declared : ∃ d ∈ p.inputs, d.id = e.2.id
  unwritten : ∀ k ∈ p.components, ∀ o ∈ k.outputs.entries, o.2.id ≠ e.2.id
  unreadable : (m.store.channel e.2).held = [] ∨
    ∃ a ∈ (m.store.channel e.2).held, (m.store.artifact a).uri = none

/-- The component is prepared, and its executor is invoked and ends with a result. The result is
that of the executor alone; whether outputs are complete is asked afterwards. -/
def Invokes (runId root : String) (request : Request) (result : Except ExecutionError Unit)
    (s' : Store) : Prop :=
  ∃ s w', m.component.prepare runId root m.bindings m.store = (.ok request, s) ∧
    (m.component.executor request.handed.offer request.parameters).run host request.handed s
      m.machine = ((result, s'), w')

end Moment

namespace Runner

variable {p : Pipeline} {runId root : String} {start s : Store} {log : List Invocation}
  {b : Bindings} {w : W} {cs : List Component} {m : Moment W}

/-- Components that are executed one after the other fail where one of those that are reached fails.
There is only one such moment, because nothing is reached behind it. -/
theorem runAll_error_iff {metrics : Snapshot} {f : Fault} :
    (runAll host runId root cs b metrics s w).1.1.1 = .error f ↔
      ∃ m, Passes host runId root cs b s w m ∧
        (m.component.execute host runId root m.bindings m.store m.machine).1.1.1 = .error f := by
  induction cs generalizing b metrics s w with
  | nil =>
    constructor
    · intro h
      cases h
    · rintro ⟨m, hm, -⟩
      cases hm
  | cons c rest ih =>
    obtain ⟨outcome, b', s', w', d, hout, hround⟩ :=
      runAll_round host runId root c rest b metrics s w
    rw [hround]
    cases outcome with
    | error f' =>
      constructor
      · intro h
        cases h
        exact ⟨_, .here c rest b s w, by rw [hout]⟩
      · rintro ⟨m, hm, hf⟩
        cases hm with
        | here =>
          rw [hout] at hf
          cases hf
          rfl
        | later hc => cases hout.symm.trans hc
    | ok outputs =>
      have hmap : ∀ (done : ComponentRun) (x : Except Fault (List ComponentRun)),
          x.map (done :: ·) = .error f ↔ x = .error f := by
        intro done x
        cases x <;> simp [Except.map]
      dsimp only
      rw [hmap, ih]
      constructor
      · rintro ⟨m, hm, hf⟩
        exact ⟨m, .later hout hm, hf⟩
      · rintro ⟨m, hm, hf⟩
        cases hm with
        | here =>
          rw [hout] at hf
          cases hf
        | later hc hm =>
          cases hout.symm.trans hc
          exact ⟨m, hm, hf⟩

/-- A run fails because it is refused, or where one of the components that it reaches fails. The
failure of the component is passed on as it is. -/
theorem run_error_iff {r : Runner} {f : Fault} :
    (r.run host p runId s w).1.1.1 = .error f ↔
      (p.config.mode = .external ∧ f = .sentence
        (s!"Pipeline '{p.name}' is configured for external execution; " ++
          "export a plan instead")) ∨
      ∃ m, r.Reaches host p runId s w m ∧ (m.component.execute host runId r.stagingRoot m.bindings
        m.store m.machine).1.1.1 = .error f := by
  by_cases hmode : p.config.mode = .external
  · rw [run_eq, if_pos hmode]
    constructor
    · intro h
      cases h
      exact .inl ⟨hmode, rfl⟩
    · rintro (⟨-, rfl⟩ | ⟨m, hm, -⟩)
      · rfl
      · exact absurd hmode hm.1
  · have hpassed : (r.run host p runId s w).1.1.1 = .error f ↔
        (r.passed host p runId s w).1.1.1 = .error f := by
      rw [run_eq, if_neg hmode]
      rcases r.passed host p runId s w with ⟨⟨⟨f' | runs, figures⟩, s'⟩, w'⟩ <;> simp
    rw [hpassed, passed, runAll_error_iff, or_iff_right fun h => hmode h.1]
    exact exists_congr fun m => and_congr_left fun _ => ⟨fun h => ⟨hmode, h⟩, fun h => h.2⟩

/-! ### What is known at every moment

The invariant is the one that says what executors are handed. Here it is used for the inputs that
cannot be handed to anyone. -/

/-- When a component is reached, those before it in the order of execution have made their outputs,
and nothing else has happened. -/
theorem Passes.progress {session : Session} (hw : session.Sound)
    (hp : ∀ k ∈ p.components, k ∈ session.components) (hm : Passes host runId root cs b s w m)
    (h : Progress p runId root session.store log b s)
    (hlog : p.execution = log.map Invocation.component ++ cs) :
    ∃ before, Progress p runId root session.store before m.bindings m.store ∧
      p.execution = before.map Invocation.component ++ m.component :: m.rest := by
  induction hm generalizing log with
  | here c rest b s w => exact ⟨log, h, hlog⟩
  | @later c rest b b' s s' w w' outputs m hc hm ih =>
    rw [Component.execute_apply] at hc
    rcases c.executeLogged_cases host runId root b s (host .ticks w).2 with
      ⟨f, hnot⟩ | ⟨r, sr, outcome', b'', s'', w'', hr, hinvoked, hperformed⟩
    · rw [hnot] at hc
      cases hc
    · rw [hinvoked] at hc
      cases hc
      have hnext := (h.next hw hp hlog hr hperformed ⟨outputs, rfl⟩).grow
        (Store.grows_note s'' (completed c outputs.size))
      exact ih hnext (by rw [hlog]; simp)

/-- An input cannot be read exactly if it starves: what a component of the pipeline writes can be
read by those behind it. -/
theorem Progress.starves_iff {session : Session} (hw : session.Sound)
    (hp : ∀ k ∈ p.components, k ∈ session.components)
    (h : Progress p runId root session.store log m.bindings m.store)
    (hlog : p.execution = log.map Invocation.component ++ m.component :: m.rest)
    {e : String × Channel} (he : e ∈ m.component.inputs.entries) :
    m.Starves p e ↔ Component.readable m.store (m.bindings.artifacts e.2) = false := by
  have hheld : ∀ d : Channel, d.id = e.2.id →
      (session.store.channel d).held = (m.store.channel e.2).held := by
    intro d hid
    rw [Store.channel_of_id hid, Store.channel_congr h.grows.channels]
  have hunreadable : ∀ l, Component.readable m.store l = false ↔
      l = [] ∨ ∃ a ∈ l, (m.store.artifact a).uri = none := by
    intro l
    simp [Component.readable, ArtifactState.populated, or_iff_not_imp_left]
  constructor
  · rintro ⟨-, hunwritten, hnothing⟩
    obtain ⟨d, -, hid, hbound⟩ := h.seeded hlog he hunwritten
    rw [hbound, hheld d hid, hunreadable]
    exact hnothing
  · intro hread
    have hunwritten : ∀ k ∈ p.components, ∀ o ∈ k.outputs.entries, o.2.id ≠ e.2.id := by
      intro k hk o ho hid
      obtain ⟨-, -, -, a, -, -, hbound, hpopulated⟩ := h.produced hw hp hlog he hk ho hid
      rw [hbound, hunreadable] at hread
      rcases hread with hnil | ⟨a', ha', hnone⟩
      · cases hnil
      · cases List.mem_singleton.mp ha'
        rw [ArtifactState.populated, hnone] at hpopulated
        cases hpopulated
    obtain ⟨d, hd, hid, hbound⟩ := h.seeded hlog he hunwritten
    rw [hbound, hheld d hid, hunreadable] at hread
    exact ⟨⟨d, hd, hid⟩, hunwritten, hread⟩

/-! ### How a run fails

A failure of the run is compared with the three causes, first as an equivalence and then cause by
cause with what is reported. -/

/-- A run fails exactly if it is refused, or if it reaches a component whose executor fails or
leaves an output without location, or one that reads a declared channel that no component writes and
in which there is nothing to read. An input is reported to have nothing to read only if that is so
because no component writes it, and outputs can always be published.

The failure names its cause. Where there is nothing to read, the component and such an input are
named. Where an executor fails, its own failure is that of the run, and where it leaves outputs
without location, the component and such an output are named. -/
theorem run_fails_iff {session : Session} (hw : session.Reachable) {p : Pipeline}
    (hp : ∀ k ∈ p.components, k ∈ session.components) {W : Type} (host : Host (StateM W))
    (r : Runner) (runId : String) (machine : W) :
    ((∃ f, (r.run host p runId session.store machine).1.1.1 = .error f) ↔
      p.config.mode = .external ∨ ∃ m, r.Reaches host p runId session.store machine m ∧
        ((∃ e ∈ m.component.inputs.entries, m.Starves p e) ∨
          (∃ request e s, m.Invokes host runId r.stagingRoot request (.error e) s) ∨
          ∃ request s, m.Invokes host runId r.stagingRoot request (.ok ()) s ∧
            ∃ e ∈ request.outputs.entries, ∃ a ∈ e.2, (s.artifact a).uri = none)) ∧
      (∀ m, r.Reaches host p runId session.store machine m → ∀ e s,
        m.component.prepare runId r.stagingRoot m.bindings m.store = (.error e, s) →
          ∃ input ∈ m.component.inputs.entries,
            e = .unpopulatedInput m.component.name input.1 ∧ m.Starves p input ∧
              (r.run host p runId session.store machine).1.1.1 = .error
                ⟨[s!"Failed to resolve inputs for '{m.component.name}'"], .execution e⟩) ∧
      (∀ m, r.Reaches host p runId session.store machine m → ∀ request s,
        m.component.prepare runId r.stagingRoot m.bindings m.store = (.ok request, s) →
          ∀ b, (request.publish b).2 = .ok ()) ∧
      (∀ f, (r.run host p runId session.store machine).1.1.1 = .error f →
        ∀ name : String, f.contexts ≠ [s!"Failed to publish outputs of '{name}'"]) ∧
      (∀ m, r.Reaches host p runId session.store machine m → ∀ request e s,
        m.Invokes host runId r.stagingRoot request (.error e) s →
          (r.run host p runId session.store machine).1.1.1 =
            .error ⟨[s!"Component '{m.component.name}' failed"], .execution e⟩) ∧
      ∀ m, r.Reaches host p runId session.store machine m → ∀ request s,
        m.Invokes host runId r.stagingRoot request (.ok ()) s →
          (∃ e ∈ request.outputs.entries, ∃ a ∈ e.2, (s.artifact a).uri = none) →
            ∃ e ∈ request.outputs.entries, (∃ a ∈ e.2, (s.artifact a).uri = none) ∧
              (r.run host p runId session.store machine).1.1.1 =
                .error ⟨[s!"Component '{m.component.name}' failed"],
                  .execution (.incompleteOutput m.component.name e.1)⟩ := by
  have hprogress : ∀ m, r.Reaches host p runId session.store machine m →
      ∃ before, Progress p runId r.stagingRoot session.store before m.bindings m.store ∧
        p.execution = before.map Invocation.component ++ m.component :: m.rest := by
    intro m hm
    have hscope : session.store.Grows { session.store with scope := some ⟨runId, p.name⟩ } :=
      Store.grows_of_eq rfl rfl rfl rfl
    exact hm.2.progress host hw.sound hp (.begin p runId r.stagingRoot hscope) rfl
  have hunshared : ∀ m, r.Reaches host p runId session.store machine m →
      (m.component.outputs.entries.map fun e => e.2.id).Nodup := by
    intro m hm
    obtain ⟨before, -, hlog⟩ := hprogress m hm
    refine hw.sound.unshared (hp _ (Pipeline.mem_execution.mp ?_))
    rw [hlog]
    exact List.mem_append_right _ List.mem_cons_self
  have hfailed : ∀ m, r.Reaches host p runId session.store machine m → ∀ request s e,
      m.component.prepare runId r.stagingRoot m.bindings m.store = (.ok request, s) →
        (request.invoke host m.component.executor s m.machine).1.1 = .error e →
          (r.run host p runId session.store machine).1.1.1 =
            .error ⟨[s!"Component '{m.component.name}' failed"], .execution e⟩ := by
    intro m hm request s e hprepare hinvoke
    refine (run_error_iff host).mpr (.inr ⟨m, hm, ?_⟩)
    exact (Component.execute_error_iff host (hunshared m hm)).mpr
      (.inr ⟨request, s, hprepare, e, hinvoke, rfl⟩)
  refine ⟨?_, fun m hm e s he => ?_, fun m hm request s hok b => ?_, fun f hf name => ?_,
    fun m hm request e s' => ?_, fun m hm request s' => ?_⟩
  · constructor
    · rintro ⟨f, hf⟩
      rcases (run_error_iff host).mp hf with ⟨hmode, -⟩ | ⟨m, hm, hfails⟩
      · exact .inl hmode
      refine .inr ⟨m, hm, ?_⟩
      rcases (Component.execute_error_iff host (hunshared m hm)).mp hfails with
        ⟨e, s, hprepare, -⟩ | ⟨request, s, hprepare, e, hinvoke, -⟩
      · obtain ⟨before, hbefore, hlog⟩ := hprogress m hm
        obtain ⟨input, hinput, -, hread⟩ := Component.unpopulatedInput_of_prepare hprepare
        exact .inl ⟨input, hinput, (hbefore.starves_iff hw.sound hp hlog hinput).mpr hread⟩
      · obtain ⟨result, s', w', hrun, rfl | ⟨rfl, output, hincomplete, -⟩⟩ :=
          (Request.invoke_error_iff host).mp hinvoke
        · exact .inr (.inl ⟨request, e, s', s, w', hprepare, hrun⟩)
        · exact .inr (.inr ⟨request, s', ⟨s, w', hprepare, hrun⟩,
            Request.exists_incomplete?_iff.mp ⟨output, hincomplete⟩⟩)
    · rintro (hmode | ⟨m, hm, hcause⟩)
      · exact ⟨_, (run_error_iff host).mpr (.inl ⟨hmode, rfl⟩)⟩
      · suffices hfails : ∃ f, (m.component.execute host runId r.stagingRoot m.bindings m.store
            m.machine).1.1.1 = .error f by
          obtain ⟨f, hf⟩ := hfails
          exact ⟨f, (run_error_iff host).mpr (.inr ⟨m, hm, hf⟩)⟩
        simp only [Component.execute_error_iff host (hunshared m hm)]
        rcases hcause with ⟨input, hinput, hstarves⟩ | ⟨request, e, s', s, w', hprepare, hrun⟩ |
          ⟨request, s', ⟨s, w', hprepare, hrun⟩, hincomplete⟩
        · obtain ⟨before, hbefore, hlog⟩ := hprogress m hm
          obtain ⟨e, s, hprepare⟩ := Component.prepare_error_iff.mpr
            ⟨input, hinput, (hbefore.starves_iff hw.sound hp hlog hinput).mp hstarves⟩
          exact ⟨_, .inl ⟨e, s, hprepare, rfl⟩⟩
        · have hinvoke := (Request.invoke_error_iff host).mpr ⟨_, s', w', hrun, .inl rfl⟩
          exact ⟨_, .inr ⟨request, s, hprepare, e, hinvoke, rfl⟩⟩
        · obtain ⟨output, hout⟩ := Request.exists_incomplete?_iff.mpr hincomplete
          have hinvoke := (Request.invoke_error_iff host).mpr
            ⟨_, s', w', hrun, .inr ⟨rfl, output, hout, rfl⟩⟩
          exact ⟨_, .inr ⟨request, s, hprepare, _, hinvoke, rfl⟩⟩
  · obtain ⟨before, hbefore, hlog⟩ := hprogress m hm
    obtain ⟨input, hinput, rfl, hread⟩ := Component.unpopulatedInput_of_prepare he
    refine ⟨input, hinput, rfl, (hbefore.starves_iff hw.sound hp hlog hinput).mpr hread, ?_⟩
    refine (run_error_iff host).mpr (.inr ⟨m, hm, ?_⟩)
    exact (Component.execute_error_iff host (hunshared m hm)).mpr (.inl ⟨_, s, he, rfl⟩)
  · rcases m.component.prepare_cases runId r.stagingRoot m.bindings m.store with
      ⟨e, he⟩ | ⟨request', s', hprepare, hr⟩
    · cases he.symm.trans hok
    · cases hprepare.symm.trans hok
      obtain ⟨b', hb'⟩ := hr.publish_ok b (hunshared m hm)
      rw [hb']
  · rcases (run_error_iff host).mp hf with ⟨-, rfl⟩ | ⟨m, hm, hfails⟩
    · exact (List.cons_ne_nil _ _).symm
    · exact Component.contexts_ne_of_execute host (hunshared m hm) hfails name
  · rintro ⟨s, w', hprepare, hrun⟩
    exact hfailed m hm request s e hprepare
      ((Request.invoke_error_iff host).mpr ⟨_, s', w', hrun, .inl rfl⟩)
  · rintro ⟨s, w', hprepare, hrun⟩ hmissing
    obtain ⟨output, hout⟩ := Request.exists_incomplete?_iff.mpr hmissing
    obtain ⟨e, he, rfl, hnone⟩ := Request.mem_of_incomplete? hout
    refine ⟨e, he, hnone, ?_⟩
    have hname : request.component = m.component.name := by
      obtain ⟨-, rfl, -⟩ := Component.prepare_eq_ok_iff.mp hprepare
      rfl
    have hinvoke := (Request.invoke_error_iff host).mpr
      ⟨_, s', w', hrun, .inr ⟨rfl, e.1, hout, rfl⟩⟩
    rw [hname] at hinvoke
    exact hfailed m hm request s _ hprepare hinvoke

end Runner

namespace Relay

/-- A component that reads a channel in which there is nothing. -/
def unfed : Session where
  store := ((draft "first" 1 1).build (({} : Store).newChannel table).2).2
  channels := [channel 2, channel 1]
  components := [component "first" 1 1 2]

theorem reachable_unfed : unfed.Reachable := by
  refine .tail (.tail .refl (.newChannel _ table))
    (.build _ (d := draft "first" 1 1) (k := component "first" 1 1 2) ?_ ?_ rfl)
  all_goals decide

/-- The pipeline of that component. -/
def unfedPipeline : Pipeline where
  name := "unfed"
  config := {}
  inputs := [channel 1]
  components := #[component "first" 1 1 2]
  graph := Wiring.graph #[component "first" 1 1 2]
  order := (Wiring.graph #[component "first" 1 1 2]).order
  distinct := by decide
  resolved := by decide +kernel
  graph_eq := rfl
  acyclic := by cbv
  order_eq := rfl

theorem execution_unfed : unfedPipeline.execution = [component "first" 1 1 2] := by
  have horder : unfedPipeline.order = [⟨0, by decide⟩] := by cbv
  rw [Pipeline.execution, horder]
  rfl

end Relay

/-- The component is reached and has nothing to read. -/
theorem Runner.run_fails_unfed :
    Relay.unfed.Reachable ∧ (∀ k ∈ Relay.unfedPipeline.components, k ∈ Relay.unfed.components) ∧
      ∃ f, (Runner.run Relay.clock { stagingRoot := "out" } Relay.unfedPipeline "run"
        Relay.unfed.store 0).1.1.1 = .error f := by
  have hmem : ∀ k ∈ Relay.unfedPipeline.components, k ∈ Relay.unfed.components := by
    simp [Relay.unfedPipeline, Relay.unfed]
  refine ⟨Relay.reachable_unfed, hmem, (run_fails_iff Relay.reachable_unfed hmem Relay.clock
    { stagingRoot := "out" } "run" 0).1.mpr (.inr ⟨⟨Relay.component "first" 1 1 2, [],
      Relay.unfed.store.seed [Relay.channel 1],
      { Relay.unfed.store with scope := some ⟨"run", "unfed"⟩ }, 2⟩, ⟨by decide, ?_⟩,
    .inl ⟨("in", Relay.channel 1), by decide, ⟨?_, ?_, .inl rfl⟩⟩⟩)⟩
  · rw [Relay.execution_unfed]
    exact .here _ _ _ _ _
  · exact ⟨Relay.channel 1, List.mem_singleton_self _, rfl⟩
  · intro k hk
    cases List.mem_singleton.mp (hmem k hk)
    decide

end TypedPipeline
