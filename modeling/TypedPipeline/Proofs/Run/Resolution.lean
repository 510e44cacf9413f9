import TypedPipeline.Proofs.Pipeline.Execution

/-!
# What executors are handed

In a run each component reads what the components before it in the same run have made, and the
declared inputs where no component writes. This holds for any surroundings and any executors, since
an executor reaches artifacts only: it can neither bind a channel nor take a location away.

The invariant has a half for each kind of channel. Channels that were written in this run have the
one artifact that the run made for them; all other channels have what they were seeded with. The
second half is about channels that no invoked component writes, not about declared ones: a declared
channel that is also an output moves from the second half to the first.

## Implementation notes

The invariant is about the log so far. Each entry of it has made its outputs, and these are what is
bound to their channels. That no later component overwrites such a binding follows from outputs not
being shared, and that the one who reads comes later than the one who writes follows from the order
of execution. Both are facts about the pipeline, so one round of a run needs no more than the
invariant and them.

A component that fails ends the run, so there is nothing to be kept. This is why
`Runner.Progress.next` is about components that have ended well.

## Main definitions

* `Invocation.Reads` — what an executor finds in an input
* `Runner.Progress` — the invariant

## Main results

* `Runner.Progress.reads`, `Runner.Progress.next` — one component
* `Runner.runAllLogged_reads` — all components
* `Runner.run_resolves_inputs` — a run
-/

namespace TypedPipeline

/-! ### Seeds

What is bound in the beginning is a picture of the channels. If a channel is bound anew while the
run goes on, the run does not see it. -/

/-- A run begins with what declared channels hold, and with nothing for others. -/
theorem Store.find?_seed (s : Store) (declared : List Channel) (c : Channel) :
    (s.seed declared).find? c =
      if declared.any (fun d => d.id == c.id) then some (s.channel c).held else none := by
  suffices hgen : ∀ m : SortedMap ChannelId (List Artifact),
      ((declared.map fun d => (d.id, (s.channel d).held)).foldl
        (fun m e => m.insert e.1 e.2) m).find? c.id =
        if declared.any (fun d => d.id == c.id) then some (s.channel c).held else m.find? c.id by
    exact hgen .empty
  induction declared with
  | nil => simp
  | cons d rest ih =>
    intro m
    rw [List.map_cons, List.foldl_cons, ih, SortedMap.find?_insert, List.any_cons]
    by_cases hd : d.id = c.id
    · simp [hd, Store.channel_of_id hd]
    · simp [hd, Ne.symm hd]

/-! ### One component

Each input belongs to exactly one of two cases, and each half of the invariant settles one of them.
-/

/-- What the executor finds in the input `e` when it is invoked after the components `earlier` in a
run that began with the store `start`. -/
structure Invocation.Reads (p : Pipeline) (runId root : String) (start : Store)
    (earlier : List Invocation) (inv : Invocation) (e : String × Channel) : Prop where
  /-- If a component writes the channel, one artifact, which this run has made for that output. -/
  produced : ∀ k ∈ p.components, ∀ o ∈ k.outputs.entries, o.2.id = e.2.id →
    ∃ maker ∈ earlier, maker.component = k ∧
      ∃ a, maker.request.outputs.find? o.1 = some [a] ∧
        Component.Placeholder root k.name runId start inv.store o a ∧
        inv.request.inputs.find? e.1 = some [a] ∧ (inv.store.artifact a).populated = true
  /-- Otherwise what a declared channel held when the run began. -/
  declared : (∀ k ∈ p.components, ∀ o ∈ k.outputs.entries, o.2.id ≠ e.2.id) →
    ∃ d ∈ p.inputs, d.id = e.2.id ∧
      inv.request.inputs.find? e.1 = some (start.channel d).held ∧
      ∀ a ∈ (start.channel d).held, (inv.store.artifact a).populated = true

namespace Runner

variable {p : Pipeline} {runId root : String} {start s : Store} {log : List Invocation}
  {b : Bindings}

/-- How far a run has come that began with the store `start`. The two halves of the invariant are
`made` and `others`; that the store has grown is needed to compare it with the one at the
beginning. -/
structure Progress (p : Pipeline) (runId root : String) (start : Store) (log : List Invocation)
    (b : Bindings) (s : Store) : Prop where
  grows : start.Grows s
  /-- The outputs of invoked components have the one artifact that was made for them. -/
  made : ∀ maker ∈ log, ∀ o ∈ maker.component.outputs.entries,
    ∃ a, maker.request.outputs.find? o.1 = some [a] ∧
      Component.Placeholder root maker.component.name runId start s o a ∧
      b.find? o.2 = some [a] ∧ (s.artifact a).populated = true
  /-- All other channels have what the run began with. -/
  others : ∀ c : Channel,
    (∀ maker ∈ log, ∀ o ∈ maker.component.outputs.entries, o.2.id ≠ c.id) →
      b.find? c = (start.seed p.inputs).find? c

namespace Progress

/-- A run begins with what declared channels hold. No component has been invoked, so all channels
are among the others. -/
theorem begin (p : Pipeline) (runId root : String) {start s : Store} (h : start.Grows s) :
    Progress p runId root start [] (start.seed p.inputs) s :=
  ⟨h, by simp, fun _ _ => rfl⟩

theorem grow {s' : Store} (h : Progress p runId root start log b s) (hs : s.Grows s') :
    Progress p runId root start log b s' where
  grows := h.grows.trans hs
  made maker hmaker o ho := by
    obtain ⟨a, ha, hplaceholder, hbound, hpopulated⟩ := h.made maker hmaker o ho
    exact ⟨a, ha, hplaceholder.mono (Nat.le_refl _) hs.nextArtifact, hbound,
      hs.populated a hplaceholder.known hpopulated⟩
  others := h.others

variable {w : Session} {c : Component} {rest : List Component} {r : Request} {s₁ : Store}

/-- To an input that a component of the pipeline writes, the one artifact is bound that was made for
it. -/
theorem produced (hw : w.Sound) (hp : ∀ k ∈ p.components, k ∈ w.components)
    (h : Progress p runId root w.store log b s)
    (hlog : p.execution = log.map Invocation.component ++ c :: rest) {e o : String × Channel}
    (he : e ∈ c.inputs.entries) {k : Component} (hk : k ∈ p.components) (ho : o ∈ k.outputs.entries)
    (hid : o.2.id = e.2.id) :
    ∃ maker ∈ log, maker.component = k ∧ ∃ a, maker.request.outputs.find? o.1 = some [a] ∧
      Component.Placeholder root k.name runId w.store s o a ∧ b.artifacts e.2 = [a] ∧
      (s.artifact a).populated = true := by
  have hfeeds : k.Feeds c := ⟨o.2, SortedMap.mem_values.mpr ⟨o.1, ho⟩, e.2,
    SortedMap.mem_values.mpr ⟨e.1, he⟩, hid⟩
  have hexclusive := Wiring.exclusive_of_sound hw hp (Wiring.distinct_iff.mp p.distinct)
  obtain ⟨maker, hmaker, rfl⟩ := List.mem_map.mp (Pipeline.mem_of_feeds hexclusive hlog hk hfeeds)
  obtain ⟨a, ha, hplaceholder, hbound, hpopulated⟩ := h.made maker hmaker o ho
  refine ⟨maker, hmaker, rfl, a, ha, hplaceholder, ?_, hpopulated⟩
  rw [Bindings.artifacts, Bindings.find?, ← hid, ← Bindings.find?, hbound, Option.getD_some]

/-- To an input that no component of the pipeline writes, what a declared channel held when the run
began is bound. -/
theorem seeded (h : Progress p runId root start log b s)
    (hlog : p.execution = log.map Invocation.component ++ c :: rest) {e : String × Channel}
    (he : e ∈ c.inputs.entries)
    (hnone : ∀ k ∈ p.components, ∀ o ∈ k.outputs.entries, o.2.id ≠ e.2.id) :
    ∃ d ∈ p.inputs, d.id = e.2.id ∧ b.artifacts e.2 = (start.channel d).held := by
  have hc : c ∈ p.components := by
    rw [← Pipeline.mem_execution, hlog]
    exact List.mem_append_right _ List.mem_cons_self
  have hmakers : ∀ maker ∈ log, maker.component ∈ p.components := by
    intro maker hmaker
    rw [← Pipeline.mem_execution, hlog]
    exact List.mem_append_left _ (List.mem_map.mpr ⟨maker, hmaker, rfl⟩)
  have hresolved := Wiring.unresolved?_eq_none_iff.mp p.resolved c hc e.2
    (SortedMap.mem_values.mpr ⟨e.1, he⟩)
  obtain ⟨d, hd, hid⟩ : ∃ d ∈ p.inputs, d.id = e.2.id := by
    refine hresolved.resolve_right ?_
    rintro ⟨k, hk, o, ho, hid⟩
    obtain ⟨field, hfield⟩ := SortedMap.mem_values.mp ho
    exact hnone k hk (field, o) hfield hid
  refine ⟨d, hd, hid, ?_⟩
  rw [Bindings.artifacts, h.others e.2 fun maker hmaker => hnone _ (hmakers maker hmaker),
    Store.find?_seed, if_pos (List.any_eq_true.mpr ⟨d, hd, by simpa using hid⟩),
    Option.getD_some, Store.channel_of_id hid]

/-- A component that is invoked next reads what it should. What is bound to its inputs is known from
the invariant, and that it can be read from the component having been prepared. -/
theorem reads (hw : w.Sound) (hp : ∀ k ∈ p.components, k ∈ w.components)
    (h : Progress p runId root w.store log b s)
    (hlog : p.execution = log.map Invocation.component ++ c :: rest)
    (hr : c.Prepared runId root b s s₁ r) {e : String × Channel} (he : e ∈ c.inputs.entries) :
    Invocation.Reads p runId root w.store log ⟨c, r, s₁⟩ e := by
  have hinput : r.inputs.find? e.1 = some (b.artifacts e.2) := by
    rw [hr.inputs, SortedMap.find?_map, SortedMap.find?_eq_some_iff.mpr he, Option.map_some]
  refine ⟨fun k hk o ho hid => ?_, fun hnone => ?_⟩
  · obtain ⟨maker, hmaker, hcomponent, a, ha, hplaceholder, hbound, hpopulated⟩ :=
      h.produced hw hp hlog he hk ho hid
    exact ⟨maker, hmaker, hcomponent, a, ha,
      hplaceholder.mono (Nat.le_refl _) hr.grows.nextArtifact, hinput.trans (by rw [hbound]),
      hr.grows.populated a hplaceholder.known hpopulated⟩
  · obtain ⟨d, hd, hid, hbound⟩ := h.seeded hlog he hnone
    refine ⟨d, hd, hid, hinput.trans (by rw [hbound]), fun a ha => hr.grows.populated a ?_ ?_⟩
    · exact Nat.lt_of_lt_of_le (hw.artifact_lt a (hw.held d a ha)) h.grows.nextArtifact
    · exact (hr.readable e he).2 a (hbound ▸ ha)

/-- A component that has ended well is one more that has made its outputs. -/
theorem next (hw : w.Sound) (hp : ∀ k ∈ p.components, k ∈ w.components)
    (h : Progress p runId root w.store log b s)
    (hlog : p.execution = log.map Invocation.component ++ c :: rest)
    (hr : c.Prepared runId root b s s₁ r) {b' : Bindings} {s' : Store} {succeeded : Prop}
    (hc : c.Performed r b b' s₁ s' succeeded) (hsucceeded : succeeded) :
    Progress p runId root w.store (log ++ [⟨c, r, s₁⟩]) b' s' := by
  have hmem : ∀ k ∈ log.map Invocation.component ++ c :: rest, k ∈ w.components := by
    intro k hk
    exact hp k (Pipeline.mem_execution.mp (hlog ▸ hk))
  have hcw : c ∈ w.components := hmem c (List.mem_append_right _ List.mem_cons_self)
  have hpublished := hc.published hsucceeded (hw.unshared hcw)
  have hgrown := h.grow (hr.grows.trans hc.grows)
  refine ⟨hgrown.grows, fun maker hmaker o ho => ?_, fun d hd => ?_⟩
  · rcases List.mem_append.mp hmaker with hmaker | hmaker
    · have hmaker' : maker.component ∈ log.map Invocation.component :=
        List.mem_map.mpr ⟨maker, hmaker, rfl⟩
      have hmakerw := hmem maker.component (List.mem_append_left _ hmaker')
      have hother : ∀ f ∈ c.outputs.entries, f.2.id ≠ o.2.id := by
        intro f hf hid
        have hname := (hw.output_unique hmakerw hcw ho hf hid.symm).1
        exact Pipeline.name_ne_of_execution hlog hmaker' hname
      obtain ⟨a, ha, hplaceholder, hbound, hpopulated⟩ := hgrown.made maker hmaker o ho
      exact ⟨a, ha, hplaceholder, (hpublished.others o.2 hother).trans hbound, hpopulated⟩
    · cases List.mem_singleton.mp hmaker
      obtain ⟨a, ha, hplaceholder⟩ := hr.outputs o ho
      refine ⟨a, ha, hplaceholder.mono h.grows.nextArtifact hc.grows.nextArtifact,
        (hpublished.bound o ho).trans ha, ?_⟩
      exact hc.populated hsucceeded (o.1, [a]) (SortedMap.find?_eq_some_iff.mp ha) a
        List.mem_cons_self
  · rw [hpublished.others d (hd _ (List.mem_append_right _ List.mem_cons_self))]
    exact h.others d fun maker hmaker => hd maker (List.mem_append_left _ hmaker)

end Progress

/-! ### All components

The log is cut at every entry, since what an entry reads was made by those before it. -/

/-- Each invocation of a log reads what it should, given those before it and `earlier` ones. The log
may be the rest of a longer one. -/
def Resolved (p : Pipeline) (runId root : String) (start : Store) (earlier log : List Invocation) :
    Prop :=
  ∀ before inv after, log = before ++ inv :: after →
    ∀ e ∈ inv.component.inputs.entries, inv.Reads p runId root start (earlier ++ before) e

theorem Resolved.nil {earlier : List Invocation} : Resolved p runId root start earlier [] := by
  intro before inv after h
  simp at h

theorem Resolved.cons {earlier later : List Invocation} {inv : Invocation}
    (hinv : ∀ e ∈ inv.component.inputs.entries, inv.Reads p runId root start earlier e)
    (hlater : Resolved p runId root start (earlier ++ [inv]) later) :
    Resolved p runId root start earlier (inv :: later) := by
  intro before inv' after h
  cases before with
  | nil =>
    cases h
    rw [List.append_nil]
    exact hinv
  | cons first before =>
    obtain ⟨rfl, hrest⟩ := List.cons.inj h
    have := hlater before inv' after hrest
    rwa [List.append_assoc] at this

/-- From any point of a run on, components are invoked in order, and each reads what it should. If
all end well, all have been invoked. -/
theorem runAllLogged_reads {W : Type} (host : Host (StateM W)) {w : Session} (hw : w.Sound)
    (hp : ∀ k ∈ p.components, k ∈ w.components) {rest : List Component} (metrics : Snapshot)
    (machine : W) (h : Progress p runId root w.store log b s)
    (hlog : p.execution = log.map Invocation.component ++ rest) :
    ∃ outcome metrics' later s' machine',
      runAllLogged host runId root rest b metrics s machine =
          ((((outcome, metrics'), later), s'), machine') ∧
        later.map Invocation.component <+: rest ∧
        Resolved p runId root w.store log later ∧
        ((∃ runs, outcome = .ok runs) → later.map Invocation.component = rest) := by
  induction rest generalizing log b metrics s machine with
  | nil => exact ⟨_, _, _, _, _, rfl, List.prefix_refl _, .nil, fun _ => rfl⟩
  | cons c rest ih =>
    obtain ⟨outcome, b', invoked, s₁, m₁, hout, hrun⟩ :=
      runAllLogged_cases host runId root c rest b metrics s machine
    rcases c.executeLogged_cases host runId root b s (host .ticks machine).2 with
      ⟨f, hnot⟩ | ⟨r, sr, outcome', b'', s'', m'', hr, hinvoked, hperformed⟩
    · cases hout.symm.trans hnot
      rcases hrun with ⟨f', metrics', m', -, hrun⟩ | ⟨_, _, _, _, _, _, _, _, hok, -, -⟩
      · exact ⟨_, _, _, _, _, hrun, List.nil_prefix, .nil, fun ⟨_, h⟩ => nomatch h⟩
      · cases hok
    · cases hout.symm.trans hinvoked
      have hreads : ∀ e ∈ c.inputs.entries,
          Invocation.Reads p runId root w.store log ⟨c, r, sr⟩ e := by
        intro e he
        exact h.reads hw hp hlog hr he
      rcases hrun with ⟨f, metrics', m', rfl, hrun⟩ |
        ⟨outputs, done, metrics₁, others, metrics', later, s', m', rfl, hrest, hrun⟩
      · exact ⟨_, _, _, _, _, hrun, by simp, .cons hreads .nil, fun ⟨_, h⟩ => nomatch h⟩
      · have hnext := (h.next hw hp hlog hr hperformed ⟨outputs, rfl⟩).grow
          (Store.grows_note s₁ (completed c outputs.size))
        obtain ⟨others', metrics₂, later', s₂, m₄, hrest', hahead, hresolved, hall⟩ :=
          ih metrics₁ (host .ticks m₁).2 hnext (by rw [hlog]; simp)
        cases hrest.symm.trans hrest'
        refine ⟨_, _, _, _, _, hrun, ?_, .cons hreads hresolved, fun ⟨runs, hruns⟩ => ?_⟩
        · rw [List.singleton_append, List.map_cons]
          exact List.cons_prefix_cons.mpr ⟨rfl, hahead⟩
        · rw [List.singleton_append, List.map_cons, hall ?_]
          cases others with
          | error f => cases hruns
          | ok runs => exact ⟨runs, rfl⟩

/-! ### Runs

From the first component on, the invariant holds with an empty log, as all channels have what they
were seeded with. -/

/-- A run that keeps a log is a run. Its executors are invoked in the order of execution, each of
them at most once, and each finds in its inputs what the run itself has made, or else what the
declared inputs held when the run began. If the run ends well, all have been invoked.

What the log tells is what happens: each of its entries belongs to a moment of the run, at which the
executor of the component is run on the inputs and the outputs of the logged request. -/
theorem run_resolves_inputs {w : Session} (hw : w.Reachable) {p : Pipeline}
    (hp : ∀ k ∈ p.components, k ∈ w.components) {W : Type} (host : Host (StateM W)) (r : Runner)
    (runId : String) (machine : W) :
    Prod.fst <$> r.runLogged host p runId = r.run host p runId ∧
      (r.invocations host p runId w.store machine).map Invocation.component <+: p.execution ∧
      ((r.invocations host p runId w.store machine).map fun inv => inv.component.name).Nodup ∧
      Resolved p runId r.stagingRoot w.store [] (r.invocations host p runId w.store machine) ∧
      (∀ inv ∈ r.invocations host p runId w.store machine, ∃ m,
        r.Reaches host p runId w.store machine m ∧ inv.RunsAt host runId r.stagingRoot m) ∧
      ((∃ report, (r.run host p runId w.store machine).1.1.1 = .ok report) →
        (r.invocations host p runId w.store machine).map Invocation.component = p.execution) := by
  have hresult : (r.run host p runId w.store machine).1.1.1 =
      (r.runLogged host p runId w.store machine).1.1.1.1 := by
    rw [← fst_runLogged]
    rfl
  refine ⟨fst_runLogged host r p runId, ?_⟩
  have hmoments : ∀ inv ∈ r.invocations host p runId w.store machine, ∃ m,
      r.Reaches host p runId w.store machine m ∧ inv.RunsAt host runId r.stagingRoot m :=
    fun inv hinv => exists_moment_of_mem_invocations host hinv
  rw [invocations] at hmoments
  rw [hresult, invocations]
  rcases r.runLogged_cases host p runId w.store machine with
    ⟨-, f, h⟩ | ⟨-, outcome, metrics', log, s', m₂, result, r', m', hall, h, hok⟩
  · rw [h]
    refine ⟨List.nil_prefix, List.nodup_nil, .nil, by simp, ?_⟩
    rintro ⟨report, hreport⟩
    cases hreport
  · have hscope : w.store.Grows { w.store with scope := some ⟨runId, p.name⟩ } :=
      Store.grows_of_eq rfl rfl rfl rfl
    obtain ⟨_, _, _, _, _, hall', hahead, hresolved, hcomplete⟩ :=
      runAllLogged_reads host hw.sound hp (.begin runId) (host .ticks machine).2
        (.begin p runId r.stagingRoot hscope) rfl
    cases hall.symm.trans hall'
    rw [h] at hmoments ⊢
    refine ⟨hahead, ?_, hresolved, hmoments, ?_⟩
    · have hnames := (hahead.map Component.name).sublist.nodup p.nodup_names_execution
      rwa [List.map_map] at hnames
    · rintro ⟨report, hreport⟩
      exact hcomplete (hok report hreport)

end Runner

namespace Relay

/-- A pipeline that declares the output of one of its components as an input too. -/
def pipeline : Pipeline where
  name := "relay"
  config := {}
  inputs := [channel 1, channel 2]
  components := components
  graph := Wiring.graph components
  order := (Wiring.graph components).order
  distinct := by decide
  resolved := by decide +kernel
  graph_eq := rfl
  acyclic := findCycle?_components
  order_eq := rfl

/-- A machine that counts how often it is asked for the time, and has no files. -/
def clock : Host (StateM Nat)
  | .ticks => fun n => (n, n + 1)
  | .isFile _ | .isDirectory _ => pure false
  | .read _ | .write _ _ | .copy _ _ | .createDirectories _ | .list _ => pure (.error .notFound)
  | .setting _ => pure none
  | .time => pure (0 : Nat)

end Relay

/-- The second component reads what the first one has made, and not what the channel held, and its
executor is run on that. -/
theorem Runner.run_resolves_inputs_relay :
    Relay.session.Reachable ∧
      (∀ k ∈ Relay.pipeline.components, k ∈ Relay.session.components) ∧
      Resolved Relay.pipeline "run" "out" Relay.session.store []
        (Runner.invocations Relay.clock { stagingRoot := "out" } Relay.pipeline "run"
          Relay.session.store 0) ∧
      (∀ inv ∈ Runner.invocations Relay.clock { stagingRoot := "out" } Relay.pipeline "run"
          Relay.session.store 0, ∃ m, inv.RunsAt Relay.clock "run" "out" m) ∧
      (Runner.invocations Relay.clock { stagingRoot := "out" } Relay.pipeline "run"
        Relay.session.store 0).map Invocation.component = Relay.pipeline.execution := by
  obtain ⟨-, -, -, hresolved, hmoments, hcomplete⟩ := run_resolves_inputs Relay.reachable
    (p := Relay.pipeline) Relay.mem_session Relay.clock { stagingRoot := "out" } "run" 0
  refine ⟨Relay.reachable, Relay.mem_session, hresolved, fun inv hinv => ?_, hcomplete ?_⟩
  · obtain ⟨m, -, hm⟩ := hmoments inv hinv
    exact ⟨m, hm⟩
  have hok : (Runner.run Relay.clock { stagingRoot := "out" } Relay.pipeline "run"
    Relay.session.store 0).1.1.1.toBool = true := by decide +kernel
  cases hresult : (Runner.run Relay.clock { stagingRoot := "out" } Relay.pipeline "run"
    Relay.session.store 0).1.1.1 with
  | error f =>
    rw [hresult] at hok
    cases hok
  | ok report => exact ⟨report, rfl⟩

end TypedPipeline
