import Mathlib.Data.Fintype.EquivFin
import Mathlib.Data.Fintype.Card
import Mathlib.Data.List.Chain
import Mathlib.Data.List.Nodup
import Mathlib.Logic.Relation
import Mathlib.Order.WellFounded
import TypedPipeline.Graph

/-!
# Walks, cycles and edges

What the search for a cycle and the release of the nodes have in common.

Both look at the edges, one along them and one against them, and both end where walks end. What they
share is the vocabulary: a closed walk as a list, which is what is reported, and a closed walk as a
fact, which is what is excluded.

## Two ways to say that there is no cycle

`Graph.Acyclic` says that no walk of at least one step leads from a node back to it. The proofs
about the algorithms carry accessibility instead (`Acc`), since it can be collected node by node: a
node is accessible once all its neighbours are. On a finite graph the two are the same in both
directions of the edges. Only the step from acyclic to accessible needs that there are finitely many
nodes; it is taken once, in `Acyclic.wellFounded`.

Graphs have numbers for nodes and pipelines have names, so everything that is said of one is said of
the other by way of a correspondence of nodes. `acyclic_iff_of_related` and `IsSimpleCycle.map` are
all that is needed for that.

## Main definitions

* `IsSimpleCycle` — a closed walk that repeats only its first node
* `Graph.Acyclic` — no walk returns to where it began

## Main results

* `acyclic_iff_of_related` — relations with the same cycles
* `Graph.acyclic_of_acc`, `Graph.Acyclic.wellFounded` — no walk returns exactly when walks end, in
  the direction of the edges and against it
-/

namespace TypedPipeline

/-! ### Closed walks -/

/-- A closed walk along `r`, written with its first node again at its end, in which no other node
occurs twice. A loop from a node to itself is one: it is written with the node twice. -/
structure IsSimpleCycle {α : Type} (r : α → α → Prop) (l : List α) : Prop where
  /-- There is at least one step. -/
  two_le : 2 ≤ l.length
  /-- The walk ends where it begins. -/
  closed : l.head? = l.getLast?
  /-- No node occurs twice, the end apart. -/
  nodup : l.dropLast.Nodup
  /-- Each node leads to the next one. -/
  chain : l.IsChain r

namespace IsSimpleCycle

variable {α β : Type} {r : α → α → Prop} {l : List α}

/-- A closed walk leads from its first node back to it. A graph with a cycle is therefore not
acyclic. -/
theorem transGen (h : IsSimpleCycle r l) : ∃ v, Relation.TransGen r v v := by
  obtain ⟨hlen, hclosed, -, hchain⟩ := h
  match l, hlen with
  | v :: u :: rest, _ =>
    rw [List.isChain_cons_cons] at hchain
    obtain ⟨hvu, hrest⟩ := hchain
    have hlast : (u :: rest).getLast (List.cons_ne_nil _ _) = v := by
      have := hclosed.symm
      rwa [List.getLast?_cons_cons, List.getLast?_eq_some_getLast (List.cons_ne_nil _ _),
        List.head?_cons, Option.some.injEq] at this
    have hback := List.relationReflTransGen_of_exists_isChain_cons rest hrest hlast
    exact ⟨v, Relation.TransGen.head' hvu hback⟩

/-- Renaming the nodes keeps a closed walk, if different nodes of it get different names. -/
theorem map (h : IsSimpleCycle r l) {f : α → β} {q : β → β → Prop} (hf : Function.Injective f)
    (hq : ∀ a b, r a b → q (f a) (f b)) : IsSimpleCycle q (l.map f) where
  two_le := by simpa using h.two_le
  closed := by rw [List.head?_map, List.getLast?_map, h.closed]
  nodup := by rw [← List.map_dropLast]; exact h.nodup.map hf
  chain := List.isChain_map_of_isChain f hq h.chain

end IsSimpleCycle

/-! ### Walks along two relations

The correspondence is a relation and not a function, since a name may belong to no node and a node
is found by its name only where names are distinct. -/

section

variable {α β : Type} {r : α → α → Prop} {q : β → β → Prop} {m : α → β → Prop}

/-- A walk has a counterpart if each of its nodes and each of its steps has one. -/
theorem transGen_of_related (hnode : ∀ a b, r a b → ∃ x, m a x)
    (hstep : ∀ a b x y, m a x → m b y → r a b → q x y) {a b : α} {x y : β}
    (h : Relation.TransGen r a b) (hx : m a x) (hy : m b y) : Relation.TransGen q x y := by
  induction h generalizing y with
  | single hab => exact .single (hstep _ _ _ _ hx hy hab)
  | tail _ hbc ih =>
    obtain ⟨z, hz⟩ := hnode _ _ hbc
    exact .tail (ih hz) (hstep _ _ _ _ hz hy hbc)

/-- Relations whose nodes and steps correspond to each other have cycles together. -/
theorem acyclic_iff_of_related (hnode : ∀ a b, r a b → ∃ x, m a x)
    (hnode' : ∀ x y, q x y → ∃ a, m a x)
    (hstep : ∀ a b x y, m a x → m b y → (r a b ↔ q x y)) :
    (∀ a, ¬ Relation.TransGen r a a) ↔ ∀ x, ¬ Relation.TransGen q x x := by
  constructor
  · intro hr x hx
    obtain ⟨y, hxy, -⟩ := Relation.TransGen.head'_iff.mp hx
    obtain ⟨a, ha⟩ := hnode' x y hxy
    exact hr a (transGen_of_related (m := flip m) hnode'
      (fun x y a b hx hy => (hstep a b x y hx hy).mpr) hx ha ha)
  · intro hq a ha
    obtain ⟨b, hab, -⟩ := Relation.TransGen.head'_iff.mp ha
    obtain ⟨x, hx⟩ := hnode a b hab
    exact hq x (transGen_of_related hnode (fun a b x y hx hy => (hstep a b x y hx hy).mp) ha hx hx)

end

namespace Graph

variable {n : Nat}

/-- No walk along edges leads from a node back to it. -/
def Acyclic (g : Graph n) : Prop := ∀ v, ¬ Relation.TransGen g.Edge v v

/-- If every walk from every node ends, none returns to where it began. A walk that returns could be
gone again and again. -/
theorem acyclic_of_acc {g : Graph n} (h : ∀ v, Acc (Function.swap g.Edge) v) : g.Acyclic := by
  intro v hv
  have hwf : WellFounded (Relation.TransGen (Function.swap g.Edge)) :=
    (WellFounded.intro h).transGen
  exact hwf.irrefl.irrefl v (Relation.transGen_swap.mpr hv)

/-- Against the edges, every walk ends on an acyclic graph. Here it is used that there are finitely
many nodes: on infinitely many, a walk may go on without coming back. -/
theorem Acyclic.wellFounded {g : Graph n} (h : g.Acyclic) : WellFounded g.Edge := by
  have : Std.Irrefl (Relation.TransGen g.Edge) := ⟨h⟩
  have hwf : WellFounded (Relation.TransGen g.Edge) := Finite.wellFounded_of_trans_of_irrefl _
  exact hwf.mono fun _ _ => Relation.TransGen.single

theorem mem_edges {g : Graph n} {u v : Fin n} : (u, v) ∈ g.edges ↔ g.Edge u v := by
  simp [edges, Edge]

theorem nodup_edges_ofRelation {r : Fin n → Fin n → Bool} : (ofRelation r).edges.Nodup := by
  refine List.nodup_flatMap.mpr ⟨fun u _ => ?_, ?_⟩
  · refine List.Nodup.map (fun v w h => (Prod.mk.inj h).2) ?_
    simpa [targets, ofRelation] using (List.nodup_finRange n).filter _
  · refine (List.nodup_finRange n).imp fun huv => ?_
    simp only [Function.onFun, List.disjoint_left, List.mem_map, not_exists, not_and]
    rintro e ⟨v, -, rfl⟩ w - h
    exact huv (Prod.mk.inj h).1.symm

end Graph

end TypedPipeline
