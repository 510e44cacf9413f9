import TypedPipeline.Graph

/-!
# The order of execution

Nodes are released one after the other. A node is ready when all nodes before it have been released;
of the ready nodes the lowest goes first. On an acyclic graph every node is released.

## Implementation notes

The release is the usual one with counters. A counter holds how many edges arrive at a node from
nodes that have not been released, with multiplicity, and goes down by one for each edge of a node
that is released. Nothing is ever searched for: a node enters the list of the ready ones at the
moment its counter reaches zero.

The ready nodes are a rising list, and the first of it goes next. `insertRising` leaves a node that
is there alone, so the list is a set; that this case does not arise is part of the invariant of the
proofs.

The function is total. On a graph with cycles it stops when no node is ready, and then some nodes
are missing from the result; a caller that needs all of them looks for a cycle first. It ends since
each release takes a node from those that wait or are ready, and taking edges away only moves nodes
from the first kind to the second.

## Main definitions

* `Graph.Frontier` — how many edges each node still waits for, and the ready nodes
* `Graph.order` — the nodes in the order of their release
-/

namespace TypedPipeline.Graph

variable {n : Nat}

/-- Puts a node into a rising list, unless it is there. -/
def insertRising (v : Fin n) : List (Fin n) → List (Fin n)
  | [] => [v]
  | u :: rest =>
    if v < u then v :: u :: rest
    else if u < v then u :: insertRising v rest
    else u :: rest

theorem length_insertRising_le (v : Fin n) (l : List (Fin n)) :
    (insertRising v l).length ≤ l.length + 1 := by
  induction l with
  | nil => simp [insertRising]
  | cons u rest ih =>
    simp only [insertRising]
    split
    · simp
    · split
      · simpa using ih
      · simp

/-- The state between two releases. -/
structure Frontier (n : Nat) where
  /-- The number of edges that each node still waits for. -/
  waiting : Vector Nat n
  /-- The nodes that wait for none and have not been released, by rising number. -/
  ready : List (Fin n)

namespace Frontier

/-- The state before the first release. -/
def start (g : Graph n) : Frontier n :=
  let waiting := Vector.ofFn fun v : Fin n =>
    ((List.finRange n).map fun u => (g.targets u).count v).sum
  ⟨waiting, (List.finRange n).filter fun v => entry waiting v == 0⟩

/-- Takes one edge to `v` away. The node becomes ready with its last edge. A counter that is zero
already stays so. -/
def relieve (f : Frontier n) (v : Fin n) : Frontier n :=
  match entry f.waiting v with
  | 0 => f
  | 1 => ⟨withEntry f.waiting v 0, insertRising v f.ready⟩
  | k + 2 => ⟨withEntry f.waiting v (k + 1), f.ready⟩

/-- The number of nodes that wait or are ready. -/
def size (f : Frontier n) : Nat := count (fun k => decide (0 < k)) f.waiting + f.ready.length

theorem size_relieve_le (f : Frontier n) (v : Fin n) : (f.relieve v).size ≤ f.size := by
  unfold relieve
  split
  · exact Nat.le_refl _
  · rename_i h
    have h₁ := count_set_lt (p := fun k => decide (0 < k)) (t := f.waiting) (v := v) (a := 0)
      (by simp) (by simp [h])
    have h₂ := length_insertRising_le v f.ready
    simp only [size]
    omega
  · rename_i k h
    simp only [size]
    refine Nat.add_le_add_right (List.countP_mono_left fun x _ hx => ?_) _
    by_cases hv : v = x
    · subst hv; simp [h]
    · simpa [hv] using hx

theorem size_foldl_relieve_le (l : List (Fin n)) (f : Frontier n) :
    (l.foldl relieve f).size ≤ f.size := by
  induction l generalizing f with
  | nil => exact Nat.le_refl _
  | cons v l ih => exact Nat.le_trans (ih _) (size_relieve_le f v)

/-- Releases nodes, the lowest ready one first, until none is ready. The edges of a node are taken
away before the next one is chosen, so a node that becomes ready by it may be the next one. -/
def drain (g : Graph n) (f : Frontier n) : List (Fin n) :=
  match _hr : f.ready with
  | [] => []
  | v :: rest => v :: drain g ((g.targets v).foldl relieve ⟨f.waiting, rest⟩)
termination_by f.size
decreasing_by
  refine Nat.lt_of_le_of_lt (size_foldl_relieve_le _ _) ?_
  simp [size, _hr]

end Frontier

/-- The nodes in the order of their release. -/
def order (g : Graph n) : List (Fin n) := Frontier.drain g (.start g)

end TypedPipeline.Graph
