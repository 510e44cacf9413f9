import TypedPipeline.Number.Arithmetic

/-!
# Directed graphs on finitely many nodes

The nodes are the numbers below `n`. A graph lists, for every node, the targets of the edges that
leave it.

## Representation

A graph is a table of lists and not a relation. The lists have an order, and two things depend on
it: the search follows the edges of a node as they are listed, and the first cycle that it meets is
the one that is reported. `Graph.Edge` forgets the order; whatever does not depend on it is stated
with the relation. A list may hold a target twice. The graphs of pipelines never do, since
`Graph.ofRelation` filters a list of all nodes, but the algorithms make no use of that, and neither
do the results about them.

Nodes are places in a list of components. A lower number is an earlier place, and this is all that a
graph knows of the order in which components were given.

## Tables

Both algorithms keep one value for each node. The values stand in a `Vector`, so that a node is
always within its bounds and no default is needed for a node without entry. `entry` and `withEntry`
are definitions of their own, and not `[·]` and `set`, so that one simp lemma says everything about
reading after writing.

## Main definitions

* `Graph.entry`, `Graph.withEntry` — tables with an entry for each node
* `Graph`, `Graph.ofRelation` — graphs; the graph of a relation lists targets by rising number
* `Graph.edges`, `Graph.sources` — all edges, and the edges that arrive at a node
* `Graph.Edge` — two nodes are joined

## Main results

* `countP_set_lt` — a count of places falls when one of them is overwritten
-/

namespace TypedPipeline

/-- A directed graph on the numbers below `n`. -/
structure Graph (n : Nat) where
  /-- The targets of the edges that leave each node. -/
  table : Vector (List (Fin n)) n

namespace Graph

variable {n : Nat}

/-! ### Tables -/

section

variable {α : Type}

/-- The entry of a node. -/
def entry (t : Vector α n) (v : Fin n) : α := t[v]

/-- The table in which a node has another entry. -/
def withEntry (t : Vector α n) (v : Fin n) (a : α) : Vector α n := t.set v a

@[simp]
theorem entry_withEntry (t : Vector α n) (v u : Fin n) (a : α) :
    entry (withEntry t v a) u = if v = u then a else entry t u := by
  by_cases h : v = u
  · subst h; simp [entry, withEntry]
  · have hne : (v : Nat) ≠ u := fun e => h (Fin.ext e)
    simp [entry, withEntry, h, hne]

@[simp]
theorem entry_ofFn (f : Fin n → α) (v : Fin n) : entry (.ofFn f) v = f v := by simp [entry]

@[simp]
theorem entry_replicate (a : α) (v : Fin n) : entry (.replicate n a) v = a := by simp [entry]

end

/-! ### Edges -/

/-- The targets of the edges that leave a node. -/
def targets (g : Graph n) (v : Fin n) : List (Fin n) := entry g.table v

/-- The graph with an edge wherever `r` holds. Targets are listed by rising number, each of them
once. -/
def ofRelation (r : Fin n → Fin n → Bool) : Graph n :=
  ⟨Vector.ofFn fun u => (List.finRange n).filter (r u)⟩

/-- An edge leads from `u` to `v`. -/
def Edge (g : Graph n) (u v : Fin n) : Prop := v ∈ g.targets u

instance (g : Graph n) (u v : Fin n) : Decidable (g.Edge u v) :=
  inferInstanceAs (Decidable (v ∈ g.targets u))

/-- All edges, by source and then as the targets are listed. -/
def edges (g : Graph n) : List (Fin n × Fin n) :=
  (List.finRange n).flatMap fun u => (g.targets u).map fun v => (u, v)

/-- The nodes from which an edge leads to `v`, by rising number. A node with several edges to `v` is
listed once. -/
def sources (g : Graph n) (v : Fin n) : List (Fin n) :=
  (List.finRange n).filter fun u => decide (g.Edge u v)

@[simp]
theorem edge_ofRelation {r : Fin n → Fin n → Bool} {u v : Fin n} :
    (ofRelation r).Edge u v ↔ r u v = true := by
  simp [Edge, targets, ofRelation]

/-! ### Counting places

Both algorithms end because something is used up: nodes that have not been met, or nodes that still
wait. Each is the number of places of a table with some property, and each step overwrites one place
with a value that has it no longer. -/

/-- If a property is lost at one place of a list and gained nowhere, fewer places have it. -/
theorem countP_lt_of_lost {α : Type} {p q : α → Bool} {l : List α} {a : α} (ha : a ∈ l)
    (hp : p a = true) (hq : q a = false) (h : ∀ x, q x = true → p x = true) :
    l.countP q < l.countP p := by
  induction l with
  | nil => simp at ha
  | cons b l ih =>
    have hle : l.countP q ≤ l.countP p := List.countP_mono_left fun x _ hx => h x hx
    rcases List.mem_cons.1 ha with rfl | ha
    · rw [List.countP_cons, List.countP_cons]
      simp [hp, hq]
      omega
    · have hb : (if q b then 1 else 0) ≤ (if p b then 1 else 0) := by
        cases hqb : q b with
        | false => simp
        | true => simp [h b hqb]
      have := ih ha
      rw [List.countP_cons, List.countP_cons]
      omega

/-- The number of places of a table that satisfy `p`. It goes through the nodes and not through the
entries, so that the place that was overwritten can be named. -/
def count {α : Type} (p : α → Bool) (t : Vector α n) : Nat :=
  (List.finRange n).countP fun v => p (entry t v)

/-- Overwriting a place with a value that does not satisfy `p` does not raise the count. -/
theorem count_set_le {α : Type} {p : α → Bool} {t : Vector α n} {v : Fin n} {a : α}
    (ha : p a = false) : count p (withEntry t v a) ≤ count p t := by
  refine List.countP_mono_left fun x _ hx => ?_
  by_cases h : v = x
  · simp [h, ha] at hx
  · simpa [h] using hx

/-- Overwriting a place that satisfies `p` with a value that does not lowers the count. -/
theorem count_set_lt {α : Type} {p : α → Bool} {t : Vector α n} {v : Fin n} {a : α}
    (ha : p a = false) (hv : p (entry t v) = true) : count p (withEntry t v a) < count p t := by
  refine countP_lt_of_lost (List.mem_finRange v) hv (by simp [ha]) fun x hx => ?_
  by_cases h : v = x
  · simp [h, ha] at hx
  · simpa [h] using hx

end Graph

end TypedPipeline
