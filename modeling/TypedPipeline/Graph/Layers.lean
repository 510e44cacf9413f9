import TypedPipeline.Graph.Order

/-!
# Layers

The depth of a node is one more than the greatest depth of the nodes before it. Nodes of one depth
form a layer; nothing in a layer depends on another node of it.

## Implementation notes

Depths are filled in along an order, each from the depths of the sources, which an order has put
before it. The table begins with zeros instead of gaps: a node without sources has depth zero, and a
source that has not been entered would count as one of depth zero. That this does not happen is a
property of the order and not of this computation; the proofs compare it with a pass that leaves out
what it has not entered.

Layers that would be empty are left out and the others keep their numbers. On an order there are no
such gaps, which is again proved and not built in.

## Main definitions

* `Graph.depths` — the depths, computed along an order
* `Graph.layers` — the layers, each in the order of execution
-/

namespace TypedPipeline.Graph

variable {n : Nat}

/-- The depth of a node by the depths of the nodes before it: one more than the greatest of them,
and zero if there are none. -/
def depthFrom (g : Graph n) (depths : Vector Nat n) (v : Fin n) : Nat :=
  ((g.sources v).map fun u => entry depths u + 1).foldl max 0

/-- The depths of the nodes of an order in which every node comes after those before it. -/
def depths (g : Graph n) (order : List (Fin n)) : Vector Nat n :=
  order.foldl (fun d (v : Fin n) => withEntry d v (g.depthFrom d v)) (Vector.replicate n 0)

/-- The layers by rising depth. Within a layer the order stays. -/
def layers (g : Graph n) (order : List (Fin n)) : List (Nat × List (Fin n)) :=
  let depth := g.depths order
  (List.range n).filterMap fun d =>
    match order.filter fun v => entry depth v == d with
    | [] => none
    | layer => some (d, layer)

end TypedPipeline.Graph
