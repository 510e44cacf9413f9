import Mathlib.Data.Fin.Tuple.Take
import Mathlib.Data.List.Permutation
import TypedPipeline.Proofs.Wiring

/-!
# Assembling a pipeline

The checks of `Pipeline.assemble` decide whether components are well wired, and a pipeline that has
passed them lists exactly the dependencies of its components. The checks look at tables and at a
graph of numbers; here they are said of names and channels, which is how a caller knows them.

The edges are all dependencies only if no channel is the output of two components. Nothing that
`Pipeline.assemble` checks says so. It holds of components that were built, since a build claims its
output channels.

## Implementation notes

A pipeline carries with it that its checks have found nothing, so `Pipeline.assemble_cases` gives
the pipeline as a structure with these facts in it. `rfl` stands where a field is fixed by the
others: the graph is that of the components, and the order is the order of the graph.

Errors are said to exist without their details. Which name is reported twice, and which input is the
first one that nobody feeds, would be said by the checks and nothing else. A cycle is different: it
is a claim about the components, and `Pipeline.isSimpleCycle_of_assemble` says that it is true. This
needs no session at all, for the graph only has edges that are dependencies. That it has all of them
is what needs one.

## Main definitions

* `Wiring.NamesFeed` — the dependencies of components, as names

## Main results

* `Pipeline.assemble_cases` — how the checks end, and what they have found by then
* `Pipeline.assemble_decides_wiring` — when a pipeline is assembled, and what is reported otherwise
* `Pipeline.isSimpleCycle_of_assemble` — a cycle that is reported is one
-/

namespace TypedPipeline

/-- Components with these names are among `cs`, and the first one feeds the second one. -/
def Wiring.NamesFeed (cs : Array Component) (a b : String) : Prop :=
  ∃ k ∈ cs, ∃ l ∈ cs, k.name = a ∧ l.name = b ∧ k.Feeds l

instance {cs : Array Component} {a b : String} : Decidable (Wiring.NamesFeed cs a b) :=
  inferInstanceAs (Decidable (∃ k ∈ cs, ∃ l ∈ cs, k.name = a ∧ l.name = b ∧ k.Feeds l))

namespace Pipeline

variable {cs : Array Component} {inputs : List Channel}

/-! ### The checks

Each check ends with the first fault it meets, and the order of the three is fixed. So three
theorems are enough for the three failures, and each has the success of the checks before as its
hypotheses. -/

theorem unresolvedChannel_of_unresolvedIn? {known : ChannelId → Bool} {component : String}
    {l : List (String × Channel)} {e : DagError}
    (h : Wiring.unresolvedIn? known component l = some e) :
    ∃ field id type, e = .unresolvedChannel component field id type := by
  induction l with
  | nil => cases h
  | cons f rest ih =>
    rw [Wiring.unresolvedIn?] at h
    split at h
    · exact ih h
    · cases h
      exact ⟨_, _, _, rfl⟩

theorem unresolvedChannel_of_unresolved? {e : DagError}
    (h : Wiring.unresolved? cs inputs = some e) :
    ∃ component field id type, e = .unresolvedChannel component field id type := by
  obtain ⟨k, -, hk⟩ := List.exists_of_findSome?_eq_some h
  exact ⟨k.name, unresolvedChannel_of_unresolvedIn? hk⟩

/-- How the checks end: with the first of three failures, or with a pipeline. -/
theorem assemble_cases (name : String) (cs : Array Component) (inputs : List Channel)
    (config : PipelineConfig) :
    (¬ Wiring.Distinct cs ∧
        ∃ again, assemble name cs inputs config = .error (.duplicateName again)) ∨
      (Wiring.Distinct cs ∧ ¬ Wiring.Resolved cs inputs ∧
        ∃ component field id type, assemble name cs inputs config =
          .error (.unresolvedChannel component field id type)) ∨
      (Wiring.Distinct cs ∧ Wiring.Resolved cs inputs ∧
        ∃ cycle, (Wiring.graph cs).findCycle? = some cycle ∧ assemble name cs inputs config =
          .error (.cycle (cycle.map fun v => (Wiring.componentAt cs v).name))) ∨
      ∃ hd hr hc, assemble name cs inputs config =
        .ok ⟨name, config, inputs, cs, Wiring.graph cs, (Wiring.graph cs).order, hd, hr, rfl, hc,
          rfl⟩ := by
  unfold assemble
  split
  · rename_i again hd
    refine .inl ⟨fun h => ?_, again, rfl⟩
    rw [Wiring.distinct_iff.mpr h] at hd
    cases hd
  rename_i hd
  have hdistinct := Wiring.distinct_iff.mp hd
  split
  · rename_i e hr
    obtain ⟨component, field, id, type, rfl⟩ := unresolvedChannel_of_unresolved? hr
    refine .inr (.inl ⟨hdistinct, fun h => ?_, component, field, id, type, rfl⟩)
    rw [Wiring.unresolved?_eq_none_iff.mpr h] at hr
    cases hr
  rename_i hr
  have hresolved := Wiring.unresolved?_eq_none_iff.mp hr
  dsimp only
  split
  · rename_i cycle hc
    exact .inr (.inr (.inl ⟨hdistinct, hresolved, cycle, hc, rfl⟩))
  · rename_i hc
    exact .inr (.inr (.inr ⟨hd, hr, hc, rfl⟩))

/-- A pipeline that was assembled has the components from which it was assembled. Their order is
kept, and that of execution is kept beside it. -/
theorem components_of_assemble {name : String} {config : PipelineConfig} {p : Pipeline}
    (h : assemble name cs inputs config = .ok p) : p.components = cs ∧ p.inputs = inputs := by
  rcases assemble_cases name cs inputs config with
    ⟨-, again, he⟩ | ⟨-, -, _, _, _, _, he⟩ | ⟨-, -, cycle, -, he⟩ | ⟨hd, hr, hc, hp⟩
  · cases he.symm.trans h
  · cases he.symm.trans h
  · cases he.symm.trans h
  · cases hp.symm.trans h
    exact ⟨rfl, rfl⟩

/-- The pipeline that comes out if no check finds anything. Its order is that of its graph. -/
theorem assemble_of_none {name : String} {config : PipelineConfig}
    (hd : Wiring.duplicate? [] (cs.toList.map Component.name) = none)
    (hr : Wiring.unresolved? cs inputs = none) (hc : (Wiring.graph cs).findCycle? = none) :
    assemble name cs inputs config =
      .ok ⟨name, config, inputs, cs, Wiring.graph cs, (Wiring.graph cs).order, hd, hr, rfl, hc,
        rfl⟩ := by
  rcases assemble_cases name cs inputs config with
    ⟨hn, -⟩ | ⟨-, hn, -⟩ | ⟨-, -, cycle, hn, -⟩ | ⟨_, _, _, hp⟩
  · exact absurd (Wiring.distinct_iff.mp hd) hn
  · exact absurd (Wiring.unresolved?_eq_none_iff.mp hr) hn
  · cases hc.symm.trans hn
  · exact hp

/-- A pipeline is assembled exactly if all three checks find nothing. Here it does not matter in
which order they are made. -/
theorem exists_assemble_iff {name : String} {config : PipelineConfig} :
    (∃ p, assemble name cs inputs config = .ok p) ↔
      Wiring.Distinct cs ∧ Wiring.Resolved cs inputs ∧ (Wiring.graph cs).findCycle? = none := by
  constructor
  · rintro ⟨p, hp⟩
    rcases assemble_cases name cs inputs config with
      ⟨-, again, he⟩ | ⟨-, -, _, _, _, _, he⟩ | ⟨-, -, cycle, -, he⟩ | ⟨hd, hr, hc, -⟩
    · cases he.symm.trans hp
    · cases he.symm.trans hp
    · cases he.symm.trans hp
    · exact ⟨Wiring.distinct_iff.mp hd, Wiring.unresolved?_eq_none_iff.mp hr, hc⟩
  · rintro ⟨hd, hr, hc⟩
    exact ⟨_, assemble_of_none (Wiring.distinct_iff.mpr hd) (Wiring.unresolved?_eq_none_iff.mpr hr)
      hc⟩

/-- Names are checked before anything else. So the inputs may be wrong as well, and nothing is said
of it. -/
theorem assemble_of_not_distinct {name : String} {config : PipelineConfig}
    (hd : ¬ Wiring.Distinct cs) :
    ∃ again, assemble name cs inputs config = .error (.duplicateName again) := by
  rcases assemble_cases name cs inputs config with ⟨-, he⟩ | ⟨h, -⟩ | ⟨h, -⟩ | ⟨h, -⟩
  · exact he
  · exact absurd h hd
  · exact absurd h hd
  · exact absurd (Wiring.distinct_iff.mp h) hd

/-- The inputs are checked before cycles. Names are distinct at that time. -/
theorem assemble_of_not_resolved {name : String} {config : PipelineConfig}
    (hd : Wiring.Distinct cs) (hr : ¬ Wiring.Resolved cs inputs) :
    ∃ component field id type, assemble name cs inputs config =
      .error (.unresolvedChannel component field id type) := by
  rcases assemble_cases name cs inputs config with ⟨h, -⟩ | ⟨-, -, he⟩ | ⟨-, h, -⟩ | ⟨-, h, -⟩
  · exact absurd hd h
  · exact he
  · exact absurd h hr
  · exact absurd (Wiring.unresolved?_eq_none_iff.mp h) hr

/-- A cycle is what fails when nothing else does. It is reported by the names along it. -/
theorem assemble_of_findCycle? {name : String} {config : PipelineConfig}
    {cycle : List (Fin cs.size)} (hd : Wiring.Distinct cs) (hr : Wiring.Resolved cs inputs)
    (hc : (Wiring.graph cs).findCycle? = some cycle) :
    assemble name cs inputs config =
      .error (.cycle (cycle.map fun v => (Wiring.componentAt cs v).name)) := by
  rcases assemble_cases name cs inputs config with
    ⟨hn, -⟩ | ⟨-, hn, -⟩ | ⟨-, -, cycle', hc', he⟩ | ⟨-, -, hn, -⟩
  · exact absurd hd hn
  · exact absurd hr hn
  · cases hc.symm.trans hc'
    exact he
  · cases hc.symm.trans hn

/-! ### The edges

A pipeline lists its edges as pairs of names. Where names are distinct, this is the graph again, and
no pair comes up twice, even if two components are joined by several channels. -/

/-- The edges as names are the edges as places, because names are distinct. So nothing is lost when
a pipeline is spoken of by names. -/
theorem mem_edges {p : Pipeline} {u v : Fin p.components.size} :
    (p.nameAt u, p.nameAt v) ∈ p.edges ↔ p.graph.Edge u v := by
  have hinj := (Wiring.distinct_iff.mp p.distinct).name_injective
  rw [edges, List.mem_map]
  constructor
  · rintro ⟨⟨u', v'⟩, he, heq⟩
    have hu : u' = u := hinj (Prod.mk.inj heq).1
    have hv : v' = v := hinj (Prod.mk.inj heq).2
    subst hu hv
    exact Graph.mem_edges.mp he
  · intro h
    exact ⟨(u, v), Graph.mem_edges.mpr h, rfl⟩

/-- No pair of names is listed twice, even if several channels lead from one component to
another. -/
theorem nodup_edges (p : Pipeline) : p.edges.Nodup := by
  have hinj := (Wiring.distinct_iff.mp p.distinct).name_injective
  refine List.Nodup.map (fun e f h => ?_) (by rw [p.graph_eq]; exact Graph.nodup_edges_ofRelation)
  exact Prod.ext (hinj (Prod.mk.inj h).1) (hinj (Prod.mk.inj h).2)

/-- If no channel is the output of two components, the edges are all dependencies. Otherwise the
graph knows one writer of each channel only, and the dependency on the other one is missing. -/
theorem mem_edges_iff {p : Pipeline} (he : Wiring.Exclusive p.components) {a b : String} :
    (a, b) ∈ p.edges ↔ Wiring.NamesFeed p.components a b := by
  constructor
  · intro h
    obtain ⟨⟨u, v⟩, huv, heq⟩ := List.mem_map.mp h
    cases heq
    rw [Graph.mem_edges, p.graph_eq] at huv
    exact ⟨_, Wiring.componentAt_mem u, _, Wiring.componentAt_mem v, rfl, rfl,
      Wiring.feeds_of_edge huv⟩
  · rintro ⟨k, hk, l, hl, rfl, rfl, hfeeds⟩
    obtain ⟨u, rfl⟩ := Wiring.exists_componentAt hk
    obtain ⟨v, rfl⟩ := Wiring.exists_componentAt hl
    refine mem_edges.mpr ?_
    rw [p.graph_eq]
    exact (Wiring.edge_graph_iff he).mpr hfeeds

end Pipeline

/-! ### Components that pass tables on

These components come up again wherever a concrete pipeline is needed. They have one contract, with
two inputs and one output, and differ in the channels that they read. -/

namespace Relay

def table : ArtifactType := ⟨"Table", by decide⟩

def spec : Spec :=
  ⟨"relay", [.input "in" table, .input "side" table, .output "out" table], by decide +kernel⟩

def channel (n : Nat) : Channel := ⟨⟨n⟩, table⟩

def artifact (n : Nat) : Artifact := ⟨⟨n⟩, table, none⟩

/-- A component that is to read two channels. Its work gives its output a location. -/
def draft (name : String) (main side : Nat) : ComponentDraft where
  spec := spec
  executor := fun _ _ => .apply ⟨.output, "out", 0⟩ (.setUri ("mem:" ++ name))
  name := some name
  inputs := .ofList [("in", channel main), ("side", channel side)]

/-- The component of a draft, with the channel that it writes. -/
def component (name : String) (main side output : Nat) : Component where
  name
  spec
  executor := (draft name main side).executor
  inputs := (draft name main side).inputs
  outputs := .ofList [("out", channel output)]
  parameters := .empty

/-- Two artifacts in one channel, a component that reads it, and one that reads it as well as the
output of the other one. The channel of that output was bound by hand in between. -/
def session : Session where
  store :=
    let s := (({} : Store).newChannel table).2
    let s := (s.newArtifact table none ⟨some "mem:a", .empty⟩).2
    let s := (s.newArtifact table none ⟨some "mem:b", .empty⟩).2
    let s := s.setChannel (channel 1) { held := [artifact 2, artifact 1] }
    let s := ((draft "first" 1 1).build s).2
    let s := s.setChannel (channel 2) { s.channel (channel 2) with held := [artifact 1] }
    ((draft "second" 2 1).build s).2
  channels := [channel 3, channel 2, channel 1]
  artifacts := [artifact 2, artifact 1]
  components := [component "second" 2 1 3, component "first" 1 1 2]

theorem reachable : session.Reachable := by
  refine .tail (.tail (.tail (.tail (.tail (.tail (.tail .refl
    (.newChannel _ table))
    (.newArtifact _ table none ⟨some "mem:a", .empty⟩))
    (.newArtifact _ table none ⟨some "mem:b", .empty⟩))
    (.bind _ (c := channel 1) (l := [artifact 2, artifact 1]) ?_ ?_ rfl))
    (.build _ (d := draft "first" 1 1) (k := component "first" 1 1 2) ?_ ?_ rfl))
    (.bind _ (c := channel 2) (l := [artifact 1]) ?_ ?_ rfl))
    (.build _ (d := draft "second" 2 1) (k := component "second" 2 1 3) ?_ ?_ rfl)
  all_goals decide

/-- The components, readers first. -/
def components : Array Component := #[component "second" 2 1 3, component "first" 1 1 2]

/-- A component, the one that feeds it, and one that reads the same channel as that one. -/
def branching : Array Component :=
  #[component "second" 2 1 3, component "first" 1 1 2, component "third" 1 1 4]

/-- A component that leads into a cycle of two others. -/
def ring : Array Component :=
  #[component "entry" 1 1 2, component "left" 2 4 3, component "right" 3 3 4]

theorem mem_session : ∀ k ∈ components, k ∈ session.components := by
  simp [components, session]

theorem findCycle?_components : (Wiring.graph components).findCycle? = none := by cbv

theorem findCycle?_ring :
    (Wiring.graph ring).findCycle? = some [⟨1, by decide⟩, ⟨2, by decide⟩, ⟨1, by decide⟩] := by
  cbv

end Relay

/-! ### What assembling decides

The theorem is about components of a session, in any selection and any order. Components that were
built in a session are exclusive, so all that was said above applies to them. -/

namespace Pipeline

variable {cs : Array Component} {inputs : List Channel}

/-- Components that were built are assembled exactly if they are well wired. Otherwise the first
flaw is reported, of names, then of inputs, then of cycles. The edges of the pipeline are the pairs
of components that share a channel, each pair once. -/
theorem assemble_decides_wiring {w : Session} (hw : w.Reachable)
    (hcs : ∀ k ∈ cs, k ∈ w.components) (name : String) (inputs : List Channel)
    (config : PipelineConfig) :
    ((∃ p, assemble name cs inputs config = .ok p) ↔
        Wiring.Distinct cs ∧ Wiring.Resolved cs inputs ∧ Wiring.Acyclic cs) ∧
      (¬ Wiring.Distinct cs →
        ∃ again, assemble name cs inputs config = .error (.duplicateName again)) ∧
      (Wiring.Distinct cs → ¬ Wiring.Resolved cs inputs →
        ∃ component field id type, assemble name cs inputs config =
          .error (.unresolvedChannel component field id type)) ∧
      (Wiring.Distinct cs → Wiring.Resolved cs inputs → ¬ Wiring.Acyclic cs →
        ∃ cycle, assemble name cs inputs config = .error (.cycle cycle)) ∧
      ∀ p, assemble name cs inputs config = .ok p →
        p.edges.Nodup ∧ ∀ a b, (a, b) ∈ p.edges ↔ Wiring.NamesFeed cs a b := by
  have hexclusive := Wiring.exclusive_of_sound hw.sound hcs
  have hacyclic : Wiring.Distinct cs →
      ((Wiring.graph cs).findCycle? = none ↔ Wiring.Acyclic cs) := fun hd =>
    Graph.findCycle?_eq_none_iff.trans (Wiring.acyclic_graph_iff (hexclusive hd))
  refine ⟨?_, assemble_of_not_distinct, assemble_of_not_resolved, fun hd hr hc => ?_,
    fun p hp => ?_⟩
  · rw [exists_assemble_iff]
    exact and_congr_right fun hd => and_congr_right fun _ => hacyclic hd
  · obtain ⟨cycle, hcycle⟩ := Option.ne_none_iff_exists'.mp fun h => hc ((hacyclic hd).mp h)
    exact ⟨_, assemble_of_findCycle? hd hr hcycle⟩
  · obtain ⟨rfl, -⟩ := components_of_assemble hp
    exact ⟨nodup_edges p, fun a b => mem_edges_iff (hexclusive (Wiring.distinct_iff.mp p.distinct))⟩

/-- The reader of a table depends on its writer and not the other way round. -/
theorem assemble_relay :
    Relay.session.Reachable ∧ (∀ k ∈ Relay.components, k ∈ Relay.session.components) ∧
      Wiring.Acyclic Relay.components ∧
      ∃ p, assemble "relay" Relay.components [Relay.channel 1] {} = .ok p ∧
        ("first", "second") ∈ p.edges ∧ ("second", "first") ∉ p.edges := by
  obtain ⟨hiff, -, -, -, hedges⟩ := assemble_decides_wiring Relay.reachable Relay.mem_session
    "relay" [Relay.channel 1] {}
  have hresolved : Wiring.Resolved Relay.components [Relay.channel 1] := by decide +kernel
  obtain ⟨p, hp⟩ := exists_assemble_iff.mpr
    ⟨by decide, hresolved, Relay.findCycle?_components⟩
  refine ⟨Relay.reachable, Relay.mem_session, (hiff.mp ⟨p, hp⟩).2.2, p, hp, ?_, ?_⟩
  · rw [(hedges p hp).2]
    decide +kernel
  · rw [(hedges p hp).2]
    decide +kernel

/-- A cycle that is reported is a simple cycle of dependencies. The names are those of components,
and each stands for one component only. -/
theorem isSimpleCycle_of_assemble {name : String} {config : PipelineConfig} {cycle : List String}
    (h : assemble name cs inputs config = .error (.cycle cycle)) :
    IsSimpleCycle (Wiring.NamesFeed cs) cycle ∧ (∀ a ∈ cycle, ∃ k ∈ cs, k.name = a) ∧
      Wiring.Distinct cs := by
  rcases assemble_cases name cs inputs config with
    ⟨-, again, he⟩ | ⟨-, -, _, _, _, _, he⟩ | ⟨hd, -, found, hfound, he⟩ | ⟨_, _, _, hp⟩
  · cases he.symm.trans h
  · cases he.symm.trans h
  · cases he.symm.trans h
    refine ⟨?_, fun a ha => ?_, hd⟩
    · refine (Graph.isSimpleCycle_of_findCycle? hfound).map hd.name_injective fun u v huv => ?_
      exact ⟨_, Wiring.componentAt_mem u, _, Wiring.componentAt_mem v, rfl, rfl,
        Wiring.feeds_of_edge huv⟩
    · obtain ⟨v, -, rfl⟩ := List.mem_map.mp ha
      exact ⟨_, Wiring.componentAt_mem v, rfl⟩
  · cases hp.symm.trans h

/-- The component that leads into the cycle is not reported. -/
theorem isSimpleCycle_ring :
    assemble "ring" Relay.ring [Relay.channel 1] {} = .error (.cycle ["left", "right", "left"]) ∧
      IsSimpleCycle (Wiring.NamesFeed Relay.ring) ["left", "right", "left"] := by
  have hcycle : assemble "ring" Relay.ring [Relay.channel 1] {} =
      .error (.cycle ["left", "right", "left"]) :=
    assemble_of_findCycle? (by decide) (by decide +kernel) Relay.findCycle?_ring
  exact ⟨hcycle, (isSimpleCycle_of_assemble hcycle).1⟩

end Pipeline

end TypedPipeline
