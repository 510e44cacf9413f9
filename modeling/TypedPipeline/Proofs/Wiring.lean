import TypedPipeline.Pipeline
import TypedPipeline.Proofs.Graph.Cycle
import TypedPipeline.Proofs.Session

/-!
# Wiring

What the checks of a pipeline look for, said of the components and their channels alone, and that
they find it. The graph is computed from a table of producers that keeps one producer for each
channel; so an edge is always a shared channel, but a shared channel is an edge only because no
channel is the output of two components.

## Implementation notes

The checks find the first fault; the propositions say that there is none. For each check there is
one equivalence (`duplicate?_eq_none_iff`, `unresolved?_eq_none_iff`, `acyclic_graph_iff`), and no
other module opens the checks.

Edges lead between places and `Feeds` is about components. Two places with the same component would
have the same name, so where names are distinct nothing is lost by speaking of components.

`Exclusive` is what the table of producers needs in order to be complete. It is no condition on a
caller: components of a session have claimed their outputs.

## Main definitions

* `Component.Feeds` — an output channel of one component is an input channel of another
* `Wiring.Distinct`, `Wiring.Resolved`, `Wiring.Acyclic` — what is checked
* `Wiring.Exclusive` — no channel is the output of two components

## Main results

* `Wiring.producers_find?` — the producer that the table has
* `Wiring.feeds_of_edge`, `Wiring.edge_graph_iff` — edges are shared channels
* `Wiring.duplicate?_eq_none_iff`, `Wiring.unresolved?_eq_none_iff`, `Wiring.acyclic_graph_iff`
* `Wiring.exclusive_of_sound` — components of a session share no output channel
-/

namespace TypedPipeline

/-- Some output channel of `a` is an input channel of `b`. A component that reads its own output
feeds itself. -/
def Component.Feeds (a b : Component) : Prop :=
  ∃ c ∈ a.outputs.values, ∃ d ∈ b.inputs.values, c.id = d.id

instance {a b : Component} : Decidable (a.Feeds b) :=
  inferInstanceAs (Decidable (∃ c ∈ a.outputs.values, ∃ d ∈ b.inputs.values, c.id = d.id))

namespace Wiring

variable {cs : Array Component} {declared : List Channel}

/-- No two components have the same name. -/
def Distinct (cs : Array Component) : Prop := (cs.toList.map Component.name).Nodup

/-- Every input channel of every component is declared, or is an output channel of one of them. -/
def Resolved (cs : Array Component) (declared : List Channel) : Prop :=
  ∀ k ∈ cs, ∀ d ∈ k.inputs.values,
    (∃ e ∈ declared, e.id = d.id) ∨ ∃ a ∈ cs, ∃ c ∈ a.outputs.values, c.id = d.id

/-- One of the components feeds another one of them, or itself. -/
def Leads (cs : Array Component) (a b : Component) : Prop := a ∈ cs ∧ b ∈ cs ∧ a.Feeds b

/-- No component depends on itself, directly or through others. -/
def Acyclic (cs : Array Component) : Prop := ∀ k, ¬ Relation.TransGen (Leads cs) k k

/-- No channel is the output of two components. -/
def Exclusive (cs : Array Component) : Prop :=
  ∀ u v : Fin cs.size, ∀ c ∈ (componentAt cs u).outputs.values,
    ∀ d ∈ (componentAt cs v).outputs.values, c.id = d.id → u = v

/-! ### Places

Components are known by their places in an array. Every component of the array has one. -/

theorem componentAt_mem (v : Fin cs.size) : componentAt cs v ∈ cs := Array.getElem_mem v.isLt

theorem exists_componentAt {k : Component} (hk : k ∈ cs) : ∃ v, componentAt cs v = k := by
  obtain ⟨i, hi, rfl⟩ := Array.mem_iff_getElem.mp hk
  exact ⟨⟨i, hi⟩, rfl⟩

theorem map_componentAt (cs : Array Component) :
    (List.finRange cs.size).map (componentAt cs) = cs.toList := by
  refine List.ext_getElem (by simp) fun i _ _ => ?_
  simp [componentAt]

/-! ### Names -/

theorem duplicate?_eq_none_iff {seen l : List String} :
    duplicate? seen l = none ↔ l.Nodup ∧ ∀ name ∈ l, name ∉ seen := by
  induction l generalizing seen with
  | nil => simp [duplicate?]
  | cons name rest ih =>
    rw [duplicate?]
    by_cases hseen : name ∈ seen
    · simp [hseen]
    · rw [if_neg (by simpa using hseen), ih, List.nodup_cons, List.forall_mem_cons]
      constructor
      · rintro ⟨hnodup, hall⟩
        refine ⟨⟨fun hm => hall name hm List.mem_cons_self, hnodup⟩, hseen, fun a ha hm => ?_⟩
        exact hall a ha (List.mem_cons_of_mem _ hm)
      · rintro ⟨⟨hne, hnodup⟩, -, hall⟩
        refine ⟨hnodup, fun a ha hm => ?_⟩
        rcases List.mem_cons.mp hm with rfl | hm
        · exact hne ha
        · exact hall a ha hm

theorem distinct_iff : duplicate? [] (cs.toList.map Component.name) = none ↔ Distinct cs := by
  rw [duplicate?_eq_none_iff, Distinct]
  simp

instance : Decidable (Distinct cs) := decidable_of_iff _ distinct_iff

theorem Distinct.name_injective (h : Distinct cs) :
    Function.Injective fun v => (componentAt cs v).name := by
  rw [Distinct, ← map_componentAt, List.map_map] at h
  intro u v huv
  exact List.inj_on_of_nodup_map h (List.mem_finRange u) (List.mem_finRange v) huv

/-! ### Producers -/

/-- Whether the component at a place has a channel among its outputs. -/
def produces (cs : Array Component) (id : ChannelId) (v : Fin cs.size) : Bool :=
  (componentAt cs v).outputs.values.any fun c => c.id == id

theorem produces_iff {id : ChannelId} {v : Fin cs.size} :
    produces cs id v = true ↔ ∃ c ∈ (componentAt cs v).outputs.values, c.id = id := by
  simp [produces]

/-- Entering the outputs of one component. -/
theorem find?_foldl_insert {α : Type} (l : List Channel) (a : α) (m : SortedMap ChannelId α)
    (id : ChannelId) :
    (l.foldl (fun m c => m.insert c.id a) m).find? id =
      if l.any (fun c => c.id == id) then some a else m.find? id := by
  induction l generalizing m with
  | nil => simp
  | cons c rest ih =>
    rw [List.foldl_cons, ih, SortedMap.find?_insert, List.any_cons]
    by_cases hc : c.id = id
    · simp [hc]
    · simp [hc, Ne.symm hc]

/-- The table has the last component that has the channel among its outputs. Later entries replace
earlier ones. -/
theorem producers_find? (cs : Array Component) (id : ChannelId) :
    (producers cs).find? id = (List.finRange cs.size).reverse.find? (produces cs id) := by
  suffices hgen : ∀ (vs : List (Fin cs.size)) (m : SortedMap ChannelId (Fin cs.size)),
      (vs.foldl (fun m v => (componentAt cs v).outputs.values.foldl
        (fun m c => m.insert c.id v) m) m).find? id =
        (vs.reverse.find? (produces cs id)).or (m.find? id) by
    simpa [producers] using hgen (List.finRange cs.size) .empty
  intro vs
  induction vs with
  | nil => simp
  | cons v rest ih =>
    intro m
    rw [List.foldl_cons, ih, find?_foldl_insert, List.reverse_cons, List.find?_append,
      Option.or_assoc]
    have hany : (componentAt cs v).outputs.values.any (fun c => c.id == id) =
        produces cs id v := rfl
    rw [hany]
    congr 1
    cases hv : produces cs id v <;> simp [hv]

theorem produces_of_find? {id : ChannelId} {v : Fin cs.size}
    (h : (producers cs).find? id = some v) :
    ∃ c ∈ (componentAt cs v).outputs.values, c.id = id := by
  rw [producers_find?] at h
  exact produces_iff.mp (List.find?_some h)

theorem contains_producers_iff {id : ChannelId} :
    (producers cs).contains id = true ↔ ∃ a ∈ cs, ∃ c ∈ a.outputs.values, c.id = id := by
  rw [SortedMap.contains, producers_find?, List.find?_isSome]
  constructor
  · rintro ⟨v, -, hv⟩
    exact ⟨componentAt cs v, componentAt_mem v, produces_iff.mp hv⟩
  · rintro ⟨a, ha, hc⟩
    obtain ⟨v, rfl⟩ := exists_componentAt ha
    exact ⟨v, by simp, produces_iff.mpr hc⟩

/-! ### Inputs -/

theorem unresolvedIn?_eq_none_iff {known : ChannelId → Bool} {component : String}
    {l : List (String × Channel)} :
    unresolvedIn? known component l = none ↔ ∀ e ∈ l, known e.2.id = true := by
  induction l with
  | nil => simp [unresolvedIn?]
  | cons e rest ih =>
    rw [List.forall_mem_cons, ← ih, unresolvedIn?]
    cases known e.2.id <;> simp

theorem unresolved?_eq_none_iff : unresolved? cs declared = none ↔ Resolved cs declared := by
  simp only [unresolved?, List.findSome?_eq_none_iff, unresolvedIn?_eq_none_iff, Resolved,
    Array.mem_toList_iff, Bool.or_eq_true, contains_producers_iff, List.any_eq_true, beq_iff_eq]
  refine forall₂_congr fun k _ => ?_
  constructor
  · intro h d hd
    obtain ⟨field, he⟩ := SortedMap.mem_values.mp hd
    exact (h _ he).symm
  · intro h e he
    exact (h e.2 (List.mem_map.mpr ⟨e, he, rfl⟩)).symm

instance : Decidable (Resolved cs declared) := decidable_of_iff _ unresolved?_eq_none_iff

/-! ### Edges

In one direction nothing is assumed: whatever the table has is a producer. The other direction needs
that there is only one. -/

theorem edge_graph {u v : Fin cs.size} :
    (graph cs).Edge u v ↔
      ∃ d ∈ (componentAt cs v).inputs.values, (producers cs).find? d.id = some u := by
  simp [graph]

/-- An edge is a shared channel. -/
theorem feeds_of_edge {u v : Fin cs.size} (h : (graph cs).Edge u v) :
    (componentAt cs u).Feeds (componentAt cs v) := by
  obtain ⟨d, hd, hu⟩ := edge_graph.mp h
  obtain ⟨c, hc, hid⟩ := produces_of_find? hu
  exact ⟨c, hc, d, hd, hid⟩

/-- If no channel is the output of two components, a shared channel is an edge. -/
theorem edge_graph_iff (h : Exclusive cs) {u v : Fin cs.size} :
    (graph cs).Edge u v ↔ (componentAt cs u).Feeds (componentAt cs v) := by
  refine ⟨feeds_of_edge, fun ⟨c, hc, d, hd, hid⟩ => edge_graph.mpr ⟨d, hd, ?_⟩⟩
  have hsome : (producers cs).contains d.id = true :=
    contains_producers_iff.mpr ⟨componentAt cs u, componentAt_mem u, c, hc, hid⟩
  obtain ⟨v', hv'⟩ := Option.isSome_iff_exists.mp hsome
  obtain ⟨c', hc', hid'⟩ := produces_of_find? hv'
  rw [hv', h u v' c hc c' hc' (hid.trans hid'.symm)]

/-- The cycles of the graph are those of the components. -/
theorem acyclic_graph_iff (he : Exclusive cs) : (graph cs).Acyclic ↔ Acyclic cs := by
  refine acyclic_iff_of_related (m := fun v k => componentAt cs v = k) (fun u _ _ => ⟨_, rfl⟩)
    (fun k l h => exists_componentAt h.1) ?_
  rintro u v _ _ rfl rfl
  rw [edge_graph_iff he]
  exact ⟨fun h => ⟨componentAt_mem u, componentAt_mem v, h⟩, fun h => h.2.2⟩

/-! ### Components of a session -/

/-- Components that were built, with different names, share no output channel. The producer of the
channel is one component and has one name. -/
theorem exclusive_of_sound {w : Session} (hw : w.Sound) (hcs : ∀ k ∈ cs, k ∈ w.components)
    (hd : Distinct cs) : Exclusive cs := by
  intro u v c hc d hd' hid
  obtain ⟨field, he⟩ := SortedMap.mem_values.mp hc
  obtain ⟨field', he'⟩ := SortedMap.mem_values.mp hd'
  exact hd.name_injective (hw.output_unique (hcs _ (componentAt_mem u))
    (hcs _ (componentAt_mem v)) he he' hid).1

end Wiring

end TypedPipeline
