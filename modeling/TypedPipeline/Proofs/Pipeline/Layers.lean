import TypedPipeline.Plan
import TypedPipeline.Proofs.Graph.Depth
import TypedPipeline.Proofs.Pipeline.Execution

/-!
# The layers of a pipeline

What a plan says about components that may run side by side: each component is in one layer, and the
number of its layer is the length of the longest chain of dependencies that ends in it. Layers are
computed on places of components and listed as names; since names are distinct, chains of names are
chains of places.

## Implementation notes

The number of a layer is the depth of its components in the graph, and that depth is the length of a
longest walk. Both are known of graphs. The layers of a pipeline are these with names in place of
numbers, so the chains of dependencies are moved over to names, step by step, in
`Pipeline.endsWalk_iff`. Every name that occurs in an edge is the name of a component, so no chain
of names leads out of the components.

A component does not depend on itself, for no pipeline with a cycle is assembled. Where two
components of one layer depended on each other, one would have a chain that is longer by one, and
the layer would be another one.

## Main definitions

* `Pipeline.Leads` — a dependency, by the names of the components

## Main results

* `Pipeline.endsWalk_iff`, `Pipeline.not_transGen_of_mem_layer` — chains of names are chains of
  places
* `Pipeline.layers_isGreatest` — the layers
-/

namespace TypedPipeline.Pipeline

variable {p : Pipeline}

/-- The second component reads from the first one. -/
def Leads (p : Pipeline) (a b : String) : Prop := (a, b) ∈ p.edges

theorem nameAt_injective (p : Pipeline) : Function.Injective p.nameAt :=
  (Wiring.distinct_iff.mp p.distinct).name_injective

theorem leads_iff {u v : Fin p.components.size} :
    p.Leads (p.nameAt u) (p.nameAt v) ↔ p.graph.Edge u v := mem_edges

/-- Names that depend on each other are names of components. So a chain of names cannot leave the
pipeline. -/
theorem exists_nameAt_of_leads {a b : String} (h : p.Leads a b) :
    ∃ u v, p.nameAt u = a ∧ p.nameAt v = b ∧ p.graph.Edge u v := by
  obtain ⟨⟨u, v⟩, huv, heq⟩ := List.mem_map.mp h
  cases heq
  exact ⟨u, v, rfl, rfl, Graph.mem_edges.mp huv⟩

/-- Chains of names are chains of places. -/
theorem endsWalk_iff {k : Nat} {v : Fin p.components.size} :
    EndsWalk p.Leads k (p.nameAt v) ↔ EndsWalk p.graph.Edge k v := by
  refine endsWalk_iff_of_related (r := p.graph.Edge) (f := p.nameAt)
    (fun _ _ => leads_iff.mpr) fun a v hab => ?_
  obtain ⟨u, w, rfl, hw, huw⟩ := exists_nameAt_of_leads hab
  rw [p.nameAt_injective hw] at huw
  exact ⟨u, rfl, huw⟩

theorem mem_layers {layer : Nat × List String} :
    layer ∈ p.layers ↔ ∃ l ∈ p.graph.layers p.order, (l.1, l.2.map p.nameAt) = layer :=
  List.mem_map

/-- No component of a layer depends on another one of it, or on itself. A chain that leads from one
to another would make the depth of the second one greater. -/
theorem not_transGen_of_mem_layer {layer : Nat × List String} (hl : layer ∈ p.layers)
    {a b : String} (ha : a ∈ layer.2) (hb : b ∈ layer.2) : ¬ Relation.TransGen p.Leads a b := by
  obtain ⟨places, hplaces, rfl⟩ := mem_layers.mp hl
  obtain ⟨u, hu, rfl⟩ := List.mem_map.mp ha
  obtain ⟨v, hv, rfl⟩ := List.mem_map.mp hb
  intro hab
  refine Graph.not_transGen_of_mem_layer p.isOrder_order hplaces hu hv ?_
  refine transGen_of_related (m := fun a u => p.nameAt u = a) ?_ ?_ hab rfl rfl
  · intro a b h
    obtain ⟨u, -, hu, -⟩ := exists_nameAt_of_leads h
    exact ⟨u, hu⟩
  · rintro _ _ u v rfl rfl h
    exact leads_iff.mp h

/-- A component on which another one depends is in a layer before that of the other one. So if the
layers are executed one after another, each component finds its inputs made. -/
theorem mem_of_leads_of_layers {before after : List (Nat × List String)}
    {layer : Nat × List String} (hcut : p.layers = before ++ layer :: after) {a b : String}
    (hb : b ∈ layer.2) (h : p.Leads a b) : a ∈ before.flatMap Prod.snd := by
  obtain ⟨u, v, rfl, rfl, huv⟩ := exists_nameAt_of_leads h
  obtain ⟨before', rest, hlayers, rfl, hrest⟩ := List.map_eq_append_iff.mp hcut
  obtain ⟨layer', after', rfl, rfl, -⟩ := List.map_eq_cons_iff.mp hrest
  have hv : v ∈ layer'.2 := (List.mem_map_of_injective p.nameAt_injective).mp hb
  rw [List.flatMap_map, ← List.map_flatMap]
  exact List.mem_map_of_mem (Graph.mem_of_edge_of_layers p.isOrder_order hlayers hv huv)

/-- Layer after layer, every component is listed once. None is left out, for each has a depth, and
none is listed twice, for it has only one. -/
theorem flatMap_layers_perm (p : Pipeline) :
    (p.layers.flatMap Prod.snd).Perm (p.components.toList.map Component.name) := by
  have hplaces : ((p.graph.layers p.order).map Prod.snd).flatten.Perm
      (List.finRange p.components.size) :=
    Graph.Layered.perm p.isOrder_order
      (List.forall₂_map_left_iff.mpr (List.forall₂_same.mpr fun _ _ => .refl _))
  have hnames : p.components.toList.map Component.name =
      (List.finRange p.components.size).map p.nameAt := by
    rw [← Wiring.map_componentAt, List.map_map]
    rfl
  rw [hnames, layers, List.flatMap_map, ← List.map_flatMap]
  exact (hplaces.map p.nameAt)

/-- Every component is in one layer, whose number is the length of the longest chain of dependencies
that ends in the component. The layers are numbered as they are listed in a plan, from zero and
without gaps, and none is empty. No component of a layer depends on another one of it, through any
number of others, and all stand in it in the order of execution. The pass that computes the depths
never comes to a component before those from which it reads. -/
theorem layers_isGreatest (p : Pipeline) (s : Store) (generatedAt : Timestamp) :
    (p.layers.flatMap Prod.snd).Perm (p.components.toList.map Component.name) ∧
      (p.layers.flatMap Prod.snd).Nodup ∧
      (∀ layer ∈ p.layers, layer.2 ≠ [] ∧
        (∀ a ∈ layer.2, IsGreatest {k | EndsWalk p.Leads k a} layer.1) ∧
        (∀ a ∈ layer.2, ∀ b ∈ layer.2, ¬ Relation.TransGen p.Leads a b) ∧
        layer.2.Sublist (p.execution.map Component.name)) ∧
      p.layers.map Prod.fst = List.range p.layers.length ∧
      (∀ i layer, (p.plan s generatedAt).layers[i]? = some layer ↔ (i, layer) ∈ p.layers) ∧
      ∀ v, Graph.entry (p.graph.knownDepths p.order) v =
        some (Graph.entry (p.graph.depths p.order) v) := by
  have horder := p.isOrder_order
  have hperm := p.flatMap_layers_perm
  refine ⟨hperm, hperm.nodup_iff.mpr (Wiring.distinct_iff.mp p.distinct), fun layer hl => ?_, ?_,
    fun i layer => ?_, Graph.entry_knownDepths horder⟩
  · refine ⟨?_, ?_, fun a ha b hb => not_transGen_of_mem_layer hl ha hb, ?_⟩
    all_goals obtain ⟨places, hplaces, rfl⟩ := mem_layers.mp hl
    · simpa using Graph.ne_nil_of_mem_layers hplaces
    · intro a ha
      obtain ⟨v, hv, rfl⟩ := List.mem_map.mp ha
      simp only [endsWalk_iff]
      rw [← Graph.depth_of_mem_layer hplaces hv]
      exact Graph.isGreatest_depths horder v
    · rw [execution, List.map_map]
      exact (Graph.sublist_of_mem_layers hplaces).map p.nameAt
  · rw [layers, List.map_map, List.length_map]
    exact Graph.map_fst_layers horder
  · rw [mem_layers]
    have hlist : (p.plan s generatedAt).layers =
        ((p.graph.layers p.order).map Prod.snd).map (List.map p.nameAt) := by
      simp [plan, layers]
    rw [hlist, List.getElem?_map, Option.map_eq_some_iff]
    constructor
    · rintro ⟨places, hplaces, rfl⟩
      exact ⟨_, (Graph.getElem?_layers_iff horder).mp hplaces, rfl⟩
    · rintro ⟨⟨j, places⟩, hplaces, heq⟩
      cases heq
      exact ⟨places, (Graph.getElem?_layers_iff horder).mpr hplaces, rfl⟩

end TypedPipeline.Pipeline
