import TypedPipeline.Proofs.Graph.Layers
import TypedPipeline.Proofs.Run.Contents

/-!
# Components in any order

If executors are deterministic, what ends up in each channel does not depend on the order in which
components are executed, as long as each comes after those that feed it. A scheduler may therefore
choose another order than that of the runner.

No two components are exchanged in the argument. Components that were executed one after the other
have left certain contents in the channels, and all of them obey these. Conversely, if all
components obey some contents, then in whichever order they are executed, each finds them in the
channels that it reads and leaves them in those that it writes.

## Implementation notes

Contents of channels are known in the end only, when all components have been executed. But a
channel has its final contents as soon as its writer has ended, because there is only one writer and
nobody reads the channel before. `Component.Executable` is the condition for this: it is a property
of a list of components, and is kept when the first one is taken off.

The runner itself is not used, since it has only one order. `Runner.executeAll` executes components
in the order in which they are given and leaves out what has no influence on the outcome: clocks,
figures and notes.

What is compared between two orders are records, which have no numbers in them. That one list is a
permutation of the other is enough, because each record stands beside the name of its component.

## Main definitions

* `Runner.executeAll` — components one after the other
* `Component.Executable` — components of which each comes after those that feed it

## Main results

* `Runner.obeys_of_executeAll` — all components obey what was left
* `Runner.executeAll_of_obeys` — components leave what all of them obey
* `Runner.executes_in_any_order` — the order does not matter
-/

namespace TypedPipeline

/-- Executes components one after the other. Gives the records of the outputs of each by its name,
or the first failure, and what is bound in the end. -/
def Runner.executeAll {m : Type → Type} [Monad m] (host : Host m) (runId root : String) :
    List Component → Bindings →
      StateT Store m (Except Fault (List (String × TextMap (List ArtifactRecord))) × Bindings)
  | [], b => pure (.ok [], b)
  | c :: rest, b => do
    match ← c.execute host runId root b with
    | (.error f, b) => pure (.error f, b)
    | (.ok outputs, b) => do
      let (others, b) ← executeAll host runId root rest b
      pure (others.map ((c.name, outputs) :: ·), b)

variable {W : Type} (host : Host (StateM W))

/-! ### Orders in which components can be executed

Both kinds of orders, those that respect all edges and those that go layer after layer, are shown to
be of this kind. -/

/-- No component feeds itself or one before it, and no two outputs have one channel. Nothing is
asked of channels that no component of the list writes. -/
def Component.Executable : List Component → Prop
  | [] => True
  | c :: rest => (∀ k ∈ c :: rest, ¬ k.Feeds c) ∧ (∀ k ∈ rest, ∀ id, c.Writes id → ¬ k.Writes id) ∧
      (c.outputs.entries.map fun e => e.2.id).Nodup ∧ Executable rest

/-- Where each component comes after those that feed it, components can be executed. -/
theorem Pipeline.executable_of_respects {session : Session} (hw : session.Sound) {p : Pipeline}
    (hp : ∀ k ∈ p.components, k ∈ session.components) {order : List (Fin p.components.size)}
    (h : Respects p.components p.edges order) :
    Component.Executable (order.map p.componentAt) := by
  have hexclusive := Wiring.exclusive_of_sound hw hp (Wiring.distinct_iff.mp p.distinct)
  have horder := respects_iff.mp h
  suffices hgen : ∀ rest pre : List (Fin p.components.size), order = pre ++ rest →
      Component.Executable (rest.map p.componentAt) from hgen order [] rfl
  intro rest
  induction rest with
  | nil => exact fun _ _ => trivial
  | cons v rest ih =>
    intro pre hcut
    rw [hcut] at horder
    have hnodup := horder.nodup
    have hafter : ∀ u ∈ v :: rest, u ∉ pre := fun u hu hm =>
      List.disjoint_of_nodup_append hnodup hm hu
    have hnot : v ∉ rest := (List.nodup_cons.mp (List.nodup_append.mp hnodup).2.1).1
    rw [List.map_cons]
    refine ⟨fun k hk hfeeds => ?_, fun k hk id hv hu => ?_,
      hw.unshared (hp _ (Wiring.componentAt_mem v)), ih (pre ++ [v]) (by simp [hcut])⟩
    · rw [← List.map_cons] at hk
      obtain ⟨u, hu, rfl⟩ := List.mem_map.mp hk
      have hedge : p.graph.Edge u v := by
        rw [p.graph_eq]
        exact (Wiring.edge_graph_iff hexclusive).mpr hfeeds
      exact hafter u hu (horder.mem_of_edge hedge)
    · obtain ⟨u, hmem, rfl⟩ := List.mem_map.mp hk
      obtain ⟨d, hd, hid⟩ := hv
      obtain ⟨e, he, hid'⟩ := hu
      have huv : v = u := hexclusive v u d hd e he (hid.trans hid'.symm)
      exact hnot (huv ▸ hmem)

/-- Layer after layer, each component comes after those that feed it. -/
theorem Pipeline.respects_flatten_layers {p : Pipeline} {ls : List (List (Fin p.components.size))}
    (h : List.Forall₂ (fun l layer => (l.map p.nameAt).Perm layer.2) ls p.layers) :
    Respects p.components p.edges ls.flatten := by
  refine respects_iff.mpr (Graph.isOrder_flatten p.isOrder_order ?_)
  refine (List.forall₂_map_right_iff.mp h).imp fun l layer hl => ?_
  exact (List.map_perm_map_iff (Wiring.distinct_iff.mp p.distinct).name_injective).mp hl

/-! ### One after the other

The two lemmas are inductions over the same list. The first one goes forward and finds the contents
at the end, the second one has them from the beginning. -/

namespace Runner

variable {runId root : String} {cs : List Component} {b b' : Bindings} {s s' : Store} {w w' : W}
  {records : List (String × TextMap (List ArtifactRecord))}

theorem executeAll_of_executes {c : Component} {rest : List Component}
    {outputs : TextMap (List ArtifactRecord)}
    (h : c.execute host runId root b s w = (((.ok outputs, b'), s'), w')) :
    executeAll host runId root (c :: rest) b s w =
      (((((executeAll host runId root rest b' s' w').1.1.1).map ((c.name, outputs) :: ·),
        (executeAll host runId root rest b' s' w').1.1.2),
        (executeAll host runId root rest b' s' w').1.2),
        (executeAll host runId root rest b' s' w').2) := by
  rw [executeAll, machine_bind_apply, h]
  rfl

/-- The records of the outputs, if these are the contents of their channels. -/
def recordsOf (contents : ChannelId → List Sight) (c : Component) :
    String × TextMap (List ArtifactRecord) :=
  (c.name, c.outputs.map fun _ d => (contents d.id).map Sight.record)

/-- All components obey the contents of channels that are left in the end, and channels that none of
them writes have what they had. -/
theorem obeys_of_executeAll (hwrites : ∀ c ∈ cs, c.executor.WritesOnce)
    (hcs : Component.Executable cs) (hknown : b.Known s)
    (h : executeAll host runId root cs b s w = (((.ok records, b'), s'), w')) :
    (∀ c ∈ cs, c.Obeys host runId root (b'.contents s')) ∧
      records = cs.map (recordsOf (b'.contents s')) ∧
      ∀ d : Channel, (∀ c ∈ cs, ¬ c.Writes d.id) → b'.contents s' d.id = b.contents s d.id := by
  induction cs generalizing b s w records with
  | nil =>
    cases h
    simp
  | cons c rest ih =>
    obtain ⟨hself, hothers, hunshared, hrest⟩ := hcs
    rcases hout : c.execute host runId root b s w with ⟨⟨⟨f | outputs, b₁⟩, s₁⟩, w₁⟩
    · rw [executeAll, machine_bind_apply, hout] at h
      cases h
    rw [executeAll_of_executes host hout] at h
    rcases hlater : executeAll host runId root rest b₁ s₁ w₁ with ⟨⟨⟨f | later, b₂⟩, s₂⟩, w₂⟩
    · rw [hlater] at h
      cases h
    rw [hlater] at h
    cases h
    obtain ⟨r, sr, hexecutes, hrecords⟩ := Component.executes_of_execute host
      (hwrites c List.mem_cons_self) hunshared hknown hout
    obtain ⟨hobey, hrecordsLater, hkept⟩ := ih
      (fun k hk => hwrites k (List.mem_cons_of_mem _ hk)) hrest hexecutes.known hlater
    -- What the first component reads and writes is not written any more.
    have hread : ∀ d ∈ c.inputs.values, b₂.contents s₂ d.id = b₁.contents s₁ d.id := by
      intro d hd
      exact hkept d fun k hk ⟨e, he, hid⟩ =>
        hself k (List.mem_cons_of_mem _ hk) ⟨e, he, d, hd, hid⟩
    have hwritten : ∀ d ∈ c.outputs.values, b₂.contents s₂ d.id = b₁.contents s₁ d.id := by
      intro d hd
      exact hkept d fun k hk => hothers k hk d.id ⟨d, hd, rfl⟩
    have hfirst := (hexecutes.obeys host hknown (hself c List.mem_cons_self)).congr host hread
      hwritten
    refine ⟨List.forall_mem_cons.mpr ⟨hfirst, hobey⟩, ?_, fun d hd => ?_⟩
    · have hmade : outputs = (recordsOf (b₂.contents s₂) c).2 := by
        rw [← hrecords, Component.outputRecords_eq, hexecutes.sights_outputs host,
          SortedMap.map_map, recordsOf, SortedMap.map_eq_map_iff]
        intro e he
        rw [hwritten e.2 (SortedMap.mem_values.mpr ⟨e.1, he⟩)]
      rw [List.map_cons, ← hrecordsLater, hmade]
      rfl
    · obtain ⟨hc, hlater⟩ := List.forall_mem_cons.mp hd
      rw [hkept d hlater, hexecutes.contents_others host hknown hc]

/-- Where all components obey certain contents of channels, they are executed one after the other,
if channels that none of them writes have these. -/
theorem executeAll_of_obeys {contents : ChannelId → List Sight}
    (hdeterministic : ∀ c ∈ cs, c.executor.Deterministic host)
    (hwrites : ∀ c ∈ cs, c.executor.WritesOnce) (hcs : Component.Executable cs)
    (hknown : b.Known s) (hobey : ∀ c ∈ cs, c.Obeys host runId root contents)
    (hothers : ∀ d : Channel, (∀ c ∈ cs, ¬ c.Writes d.id) → b.contents s d.id = contents d.id)
    (w : W) :
    (executeAll host runId root cs b s w).1.1.1 = .ok (cs.map (recordsOf contents)) := by
  induction cs generalizing b s w with
  | nil => rfl
  | cons c rest ih =>
    obtain ⟨hself, hexclusive, hunshared, hrest⟩ := hcs
    have hinputs : ∀ d ∈ c.inputs.values, b.contents s d.id = contents d.id := by
      intro d hd
      exact hothers d fun k hk ⟨e, he, hid⟩ => hself k hk ⟨e, he, d, hd, hid⟩
    obtain ⟨r, sr, b₁, s₁, w₁, hexecutes, hout, hleft⟩ :=
      (hobey c List.mem_cons_self).execute host (hdeterministic c List.mem_cons_self)
        (hwrites c List.mem_cons_self) hunshared hknown hinputs w
    have hlater := ih (fun k hk => hdeterministic k (List.mem_cons_of_mem _ hk))
      (fun k hk => hwrites k (List.mem_cons_of_mem _ hk)) hrest hexecutes.known
      (fun k hk => hobey k (List.mem_cons_of_mem _ hk)) (fun d hd => ?_) w₁
    · rw [executeAll_of_executes host hout, hlater]
      rfl
    · by_cases hc : c.Writes d.id
      · obtain ⟨e, he, hid⟩ := hc
        rw [← hid, hleft e he]
      · rw [hexecutes.contents_others host hknown hc]
        exact hothers d (List.forall_mem_cons.mpr ⟨hc, hd⟩)

/-! ### In any order

What is known of one order is turned into a statement about contents, and this is turned into what
is wanted of another order. -/

/-- If all executors are deterministic and replace no location, and the components of a pipeline end
well in the order of execution, then so they do in all orders in which producers come before
consumers, and each has the same records. In particular they do so layer after layer, whatever comes
first within a layer. -/
theorem executes_in_any_order {session : Session} (hw : session.Reachable) {p : Pipeline}
    (hp : ∀ k ∈ p.components, k ∈ session.components) {W : Type} (host : Host (StateM W))
    (hdeterministic : ∀ k ∈ p.components, k.executor.Deterministic host)
    (hwrites : ∀ k ∈ p.components, k.executor.WritesOnce) (runId root : String) {machine : W}
    {records : List (String × TextMap (List ArtifactRecord))}
    (h : (executeAll host runId root p.execution (session.store.seed p.inputs) session.store
      machine).1.1.1 = .ok records) :
    records.map Prod.fst = p.execution.map Component.name ∧
      (∀ order, Pipeline.Respects p.components p.edges order → ∀ machine' : W,
        ∃ records', (executeAll host runId root (order.map p.componentAt)
            (session.store.seed p.inputs) session.store machine').1.1.1 = .ok records' ∧
          records'.Perm records) ∧
      ∀ ls : List (List (Fin p.components.size)),
        List.Forall₂ (fun l layer => (l.map p.nameAt).Perm layer.2) ls p.layers →
          ∀ machine' : W, ∃ records', (executeAll host runId root (ls.flatten.map p.componentAt)
              (session.store.seed p.inputs) session.store machine').1.1.1 = .ok records' ∧
            records'.Perm records := by
  have hmem : ∀ (order : List (Fin p.components.size)), ∀ k ∈ order.map p.componentAt,
      k ∈ p.components := by
    intro order k hk
    obtain ⟨v, -, rfl⟩ := List.mem_map.mp hk
    exact Wiring.componentAt_mem v
  have hknown : (session.store.seed p.inputs).Known session.store := by
    intro d a ha
    rw [Bindings.artifacts, Store.find?_seed] at ha
    split at ha
    · exact hw.sound.artifact_lt a (hw.sound.held d a ha)
    · cases ha
  rcases hrun : executeAll host runId root p.execution (session.store.seed p.inputs) session.store
    machine with ⟨⟨⟨outcome, b⟩, s⟩, w⟩
  rw [hrun] at h
  cases h
  have hrespects : Pipeline.Respects p.components p.edges p.order :=
    Pipeline.respects_iff.mpr p.isOrder_order
  obtain ⟨hobey, rfl, hothers⟩ := obeys_of_executeAll host
    (fun k hk => hwrites k (hmem p.order k hk))
    (Pipeline.executable_of_respects hw.sound hp hrespects) hknown hrun
  have hany : ∀ order, Pipeline.Respects p.components p.edges order → ∀ machine' : W,
      ∃ records', (executeAll host runId root (order.map p.componentAt)
          (session.store.seed p.inputs) session.store machine').1.1.1 = .ok records' ∧
        records'.Perm (p.execution.map (recordsOf (b.contents s))) := by
    intro order horder machine'
    have hperm : (order.map p.componentAt).Perm p.execution :=
      (horder.perm.trans hrespects.perm.symm).map p.componentAt
    refine ⟨_, executeAll_of_obeys host (fun k hk => hdeterministic k (hmem order k hk))
      (fun k hk => hwrites k (hmem order k hk))
      (Pipeline.executable_of_respects hw.sound hp horder) hknown
      (fun k hk => hobey k (hperm.mem_iff.mp hk)) (fun d hd => ?_) machine', hperm.map _⟩
    exact (hothers d fun k hk => hd k (hperm.mem_iff.mpr hk)).symm
  refine ⟨?_, hany, fun ls hls => hany _ (Pipeline.respects_flatten_layers hls)⟩
  rw [List.map_map]
  rfl

end Runner

namespace Relay

/-- A session with one more component, which reads the same channel as the first one. -/
def wider : Session where
  store := ((draft "third" 1 1).build session.store).2
  channels := channel 4 :: session.channels
  artifacts := session.artifacts
  components := component "third" 1 1 4 :: session.components

theorem reachable_wider : wider.Reachable := by
  refine reachable.tail (.build _ (d := draft "third" 1 1) (k := component "third" 1 1 4) ?_ ?_ rfl)
  all_goals decide

/-- A pipeline in which two components wait for none, and one for the first of them. -/
def branchingPipeline : Pipeline where
  name := "branching"
  config := {}
  inputs := [channel 1]
  components := branching
  graph := Wiring.graph branching
  order := (Wiring.graph branching).order
  distinct := by decide
  resolved := by decide +kernel
  graph_eq := rfl
  acyclic := by cbv
  order_eq := rfl

theorem mem_wider : ∀ k ∈ branchingPipeline.components, k ∈ wider.components := by
  simp [branchingPipeline, branching, wider, session]

theorem writesOnce (name : String) (main side : Nat) :
    (draft name main side).executor.WritesOnce := by
  intro offer parameters
  refine ⟨id, fun r => ?_⟩
  cases r <;> trivial

theorem deterministic (name : String) (main side : Nat) :
    (draft name main side).executor.Deterministic clock := by
  refine Executor.deterministic_of_blind clock (fun offer parameters r => ?_)
    (writesOnce name main side)
  cases r <;> trivial

theorem executor_branching {k : Component} (hk : k ∈ branchingPipeline.components) :
    ∃ name, k.executor = (draft name 1 1).executor := by
  simp only [branchingPipeline, branching] at hk
  rcases (by simpa using hk) with rfl | rfl | rfl
  · exact ⟨"second", rfl⟩
  · exact ⟨"first", rfl⟩
  · exact ⟨"third", rfl⟩

theorem deterministic_branching :
    ∀ k ∈ branchingPipeline.components, k.executor.Deterministic clock := by
  intro k hk
  obtain ⟨name, hexecutor⟩ := executor_branching hk
  rw [hexecutor]
  exact deterministic name 1 1

theorem writesOnce_branching : ∀ k ∈ branchingPipeline.components, k.executor.WritesOnce := by
  intro k hk
  obtain ⟨name, hexecutor⟩ := executor_branching hk
  rw [hexecutor]
  exact writesOnce name 1 1

end Relay

/-- Of the components that wait for none, the one for which another one waits may come last. -/
theorem Runner.executes_in_any_order_branching :
    Relay.wider.Reachable ∧
      (∀ k ∈ Relay.branchingPipeline.components, k ∈ Relay.wider.components) ∧
      (∀ k ∈ Relay.branchingPipeline.components, k.executor.Deterministic Relay.clock) ∧
      (∀ k ∈ Relay.branchingPipeline.components, k.executor.WritesOnce) ∧
      ∃ records, (executeAll Relay.clock "run" "out" Relay.branchingPipeline.execution
          (Relay.wider.store.seed [Relay.channel 1]) Relay.wider.store 0).1.1.1 = .ok records ∧
        ∃ records', (executeAll Relay.clock "run" "out"
            [Relay.component "third" 1 1 4, Relay.component "first" 1 1 2,
              Relay.component "second" 2 1 3]
            (Relay.wider.store.seed [Relay.channel 1]) Relay.wider.store 0).1.1.1 = .ok records' ∧
          records'.Perm records := by
  refine ⟨Relay.reachable_wider, Relay.mem_wider, Relay.deterministic_branching,
    Relay.writesOnce_branching, ?_⟩
  have hok : (executeAll Relay.clock "run" "out" Relay.branchingPipeline.execution
    (Relay.wider.store.seed [Relay.channel 1]) Relay.wider.store 0).1.1.1.toBool = true := by
    decide +kernel
  cases hrecords : (executeAll Relay.clock "run" "out" Relay.branchingPipeline.execution
    (Relay.wider.store.seed [Relay.channel 1]) Relay.wider.store 0).1.1.1 with
  | error f =>
    rw [hrecords] at hok
    cases hok
  | ok records =>
    obtain ⟨-, hany, -⟩ := executes_in_any_order Relay.reachable_wider Relay.mem_wider Relay.clock
      Relay.deterministic_branching Relay.writesOnce_branching "run" "out" hrecords
    refine ⟨records, rfl, hany [⟨2, by decide⟩, ⟨1, by decide⟩, ⟨0, by decide⟩] ⟨?_, ?_⟩ 0⟩
    · decide
    · decide +kernel

end TypedPipeline
