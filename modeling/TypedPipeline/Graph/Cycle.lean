import TypedPipeline.Graph

/-!
# Finding a cycle

A depth-first search with an explicit stack. The nodes on the stack form a path; an edge back to one
of them closes a cycle, which is cut out of the path.

## Implementation notes

The search does not recur over nodes: it keeps the path on a stack of its own. Beside each node of
the path stand the edges that have not been followed from it, so a state says at which edge the
search is, and the node above is put on the stack before the edges of the node below are exhausted.

The recursion of `run` ends by a pair: the number of nodes that have not been met, and the number of
edges and nodes that are left on the stack. Meeting a node lowers the first one, whatever it adds to
the stack; every other step leaves the first one alone or lowers it, and lowers the second.

The match on the mark is a dependent one (`match _ : …`) for the sake of the second case of that
argument, which needs to know that the node had not been met before it was marked.

## Main definitions

* `Graph.Search`, `Graph.Search.run` — the search from one node
* `Graph.findCycle?` — the first cycle found, closed by its first node
-/

namespace TypedPipeline.Graph

variable {n : Nat}

/-- What the search knows of a node: nothing yet, that it is on the path, or that all its edges have
been followed. -/
inductive Mark where
  | unvisited
  | onStack
  | done
deriving DecidableEq

/-- The state of the search: the marks, and the path with the edges of each node that have not been
followed yet, the innermost node first. -/
structure Search (n : Nat) where
  marks : Vector Mark n
  stack : List (Fin n × List (Fin n))

namespace Search

/-- The number of nodes that have not been met. -/
def unvisited (marks : Vector Mark n) : Nat := count (· == .unvisited) marks

/-- The number of edges to follow and of nodes to leave. A node counts beside its edges, so that
leaving it is a step as well. -/
def pending (stack : List (Fin n × List (Fin n))) : Nat :=
  (stack.map fun f => f.2.length + 1).sum

/-- The cycle that an edge back to `t` closes: the path from `t` on, and `t` again. The stack holds
the innermost node first, so the path is read from it backwards. -/
def closeCycle (t : Fin n) (stack : List (Fin n × List (Fin n))) : List (Fin n) :=
  t :: ((stack.map Prod.fst).takeWhile (· != t)).reverse ++ [t]

/-- Searches until the stack is empty. Gives the marks, or the cycle that was met. A node that is
done is passed over, since no cycle goes through it. -/
def run (g : Graph n) (marks : Vector Mark n) (stack : List (Fin n × List (Fin n))) :
    Except (List (Fin n)) (Vector Mark n) :=
  match stack with
  | [] => .ok marks
  | (v, []) :: rest => run g (withEntry marks v .done) rest
  | (v, t :: ts) :: rest =>
    match _ : entry marks t with
    | .onStack => .error (closeCycle t stack)
    | .unvisited => run g (withEntry marks t .onStack) ((t, g.targets t) :: (v, ts) :: rest)
    | .done => run g marks ((v, ts) :: rest)
termination_by (unvisited marks, pending stack)
decreasing_by
  · rcases Nat.lt_or_eq_of_le (count_set_le (t := marks) (v := v) (p := (· == Mark.unvisited))
      (a := Mark.done) rfl) with hlt | heq
    · exact Prod.Lex.left _ _ hlt
    · rw [unvisited, heq]
      refine Prod.Lex.right _ ?_
      simp [pending]
  · exact Prod.Lex.left _ _ (count_set_lt rfl (by simp [*]))
  · refine Prod.Lex.right _ ?_
    simp [pending]

end Search

/-- Searches from each node of a list that has not been met. The marks are handed on, so that no
node is met by two searches. -/
def searchFrom (g : Graph n) : List (Fin n) → Vector Mark n → Option (List (Fin n))
  | [], _ => none
  | v :: rest, marks =>
    if entry marks v = .unvisited then
      match Search.run g (withEntry marks v .onStack) [(v, g.targets v)] with
      | .error cycle => some cycle
      | .ok marks => searchFrom g rest marks
    else searchFrom g rest marks

/-- The first cycle that the search finds, with its first node again at its end. -/
def findCycle? (g : Graph n) : Option (List (Fin n)) :=
  searchFrom g (List.finRange n) (Vector.replicate n .unvisited)

end TypedPipeline.Graph
