import TypedPipeline.Proofs.Graph.Order
import TypedPipeline.Proofs.Pipeline.Assembly

/-!
# The order of execution

The order in which a pipeline is executed, compared with all orders in which it could be. An order
is a list of places of the supplied components, so that orders can be compared place by place.

## Why the least order

Where several components are ready, the one that was supplied first is executed first. So the order
is fixed by the list of components, and running a pipeline twice runs it in one order. It also is
the least order of all: two orders that differ are compared at the first place at which they do, and
there the smaller number of a component decides. To compare in this way makes sense only if an order
is a list of numbers, which is why `Pipeline.Respects` is about places and not about names.

## Implementation notes

All of this is proved of graphs, and is moved to pipelines here. What has to be added is that edges
between names are edges between places, and that the execution lists the components at the places of
the order. Runs use `Pipeline.execution_perm` and `Pipeline.mem_of_feeds`, which know nothing of the
order except what it is good for.

## Main definitions

* `Pipeline.Respects` — an order of all components, producers before consumers

## Main results

* `Pipeline.respects_iff` — these are the orders of the graph
* `Pipeline.execution_perm` — every component is executed once
* `Pipeline.mem_of_feeds` — producers are executed before consumers
* `Pipeline.execution_least` — the order of execution is the least order
-/

namespace TypedPipeline

namespace Pipeline

/-- Every place is listed once, and where an edge leads from one component to another, the place of
the first one is listed before that of the second one. -/
structure Respects (cs : Array Component) (edges : List (String × String))
    (l : List (Fin cs.size)) : Prop where
  /-- Every place is listed once. -/
  perm : l.Perm (List.finRange cs.size)
  /-- Producers are listed before consumers. -/
  before : ∀ u v, ((Wiring.componentAt cs u).name, (Wiring.componentAt cs v).name) ∈ edges →
    l.idxOf u < l.idxOf v

variable {p : Pipeline}

/-- The orders of the pipeline are the orders of its graph. Both sides list all places, and names of
places are edges exactly if the places are. -/
theorem respects_iff {l : List (Fin p.components.size)} :
    Respects p.components p.edges l ↔ p.graph.IsOrder l := by
  constructor
  · intro h
    exact ⟨h.perm, fun u v huv => h.before u v (mem_edges.mpr huv)⟩
  · intro h
    exact ⟨h.perm, fun u v huv => h.before u v (mem_edges.mp huv)⟩

/-- The order of a pipeline is one of its graph. It was computed when the pipeline was assembled,
and all nodes are listed because there was no cycle. -/
theorem isOrder_order (p : Pipeline) : p.graph.IsOrder p.order := by
  rw [p.order_eq]
  exact Graph.isOrder_order (Graph.findCycle?_eq_none_iff.mp p.acyclic)

/-- Every component is executed once. So the order of execution only rearranges what was
supplied. -/
theorem execution_perm (p : Pipeline) : p.execution.Perm p.components.toList := by
  rw [← Wiring.map_componentAt]
  exact p.isOrder_order.perm.map p.componentAt

theorem mem_execution {k : Component} : k ∈ p.execution ↔ k ∈ p.components := by
  rw [p.execution_perm.mem_iff, Array.mem_toList_iff]

theorem nodup_names_execution (p : Pipeline) : (p.execution.map Component.name).Nodup :=
  (p.execution_perm.map Component.name).nodup_iff.mpr (Wiring.distinct_iff.mp p.distinct)

/-- When a component is executed, those before it have other names. -/
theorem name_ne_of_execution {pre post : List Component} {a b : Component}
    (h : p.execution = pre ++ b :: post) (ha : a ∈ pre) : a.name ≠ b.name := by
  have hnodup := p.nodup_names_execution
  rw [h, List.map_append, List.map_cons] at hnodup
  intro hname
  exact List.disjoint_of_nodup_append hnodup (List.mem_map.mpr ⟨a, ha, hname⟩) List.mem_cons_self

/-- When a component is executed, those that feed it have been. The one that feeds it has to be
among the components: a channel may also come from outside, and then nothing is executed for it. -/
theorem mem_of_feeds (he : Wiring.Exclusive p.components) {pre post : List Component}
    {a b : Component} (h : p.execution = pre ++ b :: post) (ha : a ∈ p.components)
    (hfeeds : a.Feeds b) : a ∈ pre := by
  obtain ⟨before, rest, horder, rfl, hrest⟩ := List.map_eq_append_iff.mp h
  obtain ⟨v, after, rfl, rfl, -⟩ := List.map_eq_cons_iff.mp hrest
  obtain ⟨u, rfl⟩ := Wiring.exists_componentAt ha
  have hedge : p.graph.Edge u v := by
    rw [p.graph_eq]
    exact (Wiring.edge_graph_iff he).mpr hfeeds
  have hcut := p.isOrder_order
  rw [horder] at hcut
  exact List.mem_map.mpr ⟨u, hcut.mem_of_edge hedge, rfl⟩

/-- The order of execution of a pipeline respects all edges, and among the orders that do it is the
least one, compared place by place. -/
theorem execution_least {name : String} {cs : Array Component} {inputs : List Channel}
    {config : PipelineConfig} (h : assemble name cs inputs config = .ok p) :
    p.execution.Perm cs.toList ∧
      ∃ order : List (Fin cs.size), p.execution = order.map (Wiring.componentAt cs) ∧
        Respects cs p.edges order ∧
        ∀ l, Respects cs p.edges l → order = l ∨ List.Lex (· < ·) order l := by
  obtain ⟨rfl, -⟩ := components_of_assemble h
  refine ⟨p.execution_perm, p.order, rfl, respects_iff.mpr p.isOrder_order, fun l hl => ?_⟩
  have hleast := Graph.order_least (respects_iff.mp hl)
  rwa [← p.order_eq] at hleast

/-- The order by which the reader comes last is no better than the one that is taken. -/
theorem execution_least_branching :
    ∃ p, assemble "branching" Relay.branching [Relay.channel 1] {} = .ok p ∧
      p.execution.Perm Relay.branching.toList ∧
      ∃ order : List (Fin Relay.branching.size),
        p.execution = order.map (Wiring.componentAt Relay.branching) ∧
        Respects Relay.branching p.edges order ∧
        (order = [⟨1, by decide⟩, ⟨2, by decide⟩, ⟨0, by decide⟩] ∨
          List.Lex (· < ·) order [⟨1, by decide⟩, ⟨2, by decide⟩, ⟨0, by decide⟩]) := by
  have hp : assemble "branching" Relay.branching [Relay.channel 1] {} = .ok _ :=
    assemble_of_none (by decide) (by decide +kernel) (by cbv)
  obtain ⟨hperm, order, hexecution, hrespects, hleast⟩ := execution_least hp
  refine ⟨_, hp, hperm, order, hexecution, hrespects, hleast _ ⟨?_, ?_⟩⟩
  · decide
  · decide +kernel

end Pipeline

end TypedPipeline
