import TypedPipeline.Graph.Cycle
import TypedPipeline.Proofs.Graph.Basic

/-!
# The search finds a cycle exactly when there is one

The stack of the search is a path, and the nodes marked as on the stack are its nodes. That is what
makes a reported cycle real. That no report means no cycle is carried by the nodes that are done:
from such a node every walk ends, so the accessibility predicate of the edges holds of it.

## The invariant

A step of the search is taken apart: first an edge of the innermost node is followed, then something
is done about the node to which it leads. In between there is a node `above` that is not on the
stack, and the invariant `Sound` has it as a parameter. Each part of a step is a lemma of its own,
and the two recursions of the search only put these together.

The delicate clause is `followed`. It says that no edge of a node on the stack has been passed over:
the edge is still to be followed, or leads to a node that is done, or leads to the node right above.
The last case is the edge by which the search went on; when the node above is left it becomes done,
and the case turns into the second one. When a node has no edges left and nothing is above it, only
the second case remains, and then every walk from the node ends.

## What is not said

Which of several cycles is reported is fixed by the order of the edges and is not described here.
All that is used of the report is that it is a cycle.

## Main definitions

* `Graph.Search.Followed` — no edge of a node on the stack has been passed over
* `Graph.Search.Sound` — what holds during the search

## Main results

* `Graph.Search.Sound.leave`, `Graph.Search.Sound.follow`, `Graph.Search.Sound.skip`,
  `Graph.Search.Sound.enter` — the parts of a step
* `Graph.Search.run_sound`, `Graph.Search.isSimpleCycle_of_run` — a whole search from one node
* `Graph.isSimpleCycle_of_findCycle?`, `Graph.findCycle?_eq_none_iff`
-/

namespace TypedPipeline.Graph

variable {n : Nat}

namespace Search

/-- The nodes of the path, the innermost first. -/
def nodes (stack : List (Fin n × List (Fin n))) : List (Fin n) := stack.map Prod.fst

/-- Every edge of a node on the stack is still to be followed, or leads to a node that is done, or
leads to the node right above. `above` is the node above the stack, if there is one; further down it
is the next node of the stack itself. -/
def Followed (g : Graph n) (marks : Vector Mark n) :
    Option (Fin n) → List (Fin n × List (Fin n)) → Prop
  | _, [] => True
  | above, (v, ts) :: rest =>
    (∀ t, g.Edge v t → t ∈ ts ∨ entry marks t = .done ∨ above = some t) ∧
      Followed g marks (some v) rest

/-- What holds during the search. Between two steps `above` is absent; within a step it is the node
to which an edge of the innermost node has just been followed. -/
structure Sound (g : Graph n) (marks : Vector Mark n) (above : Option (Fin n))
    (stack : List (Fin n × List (Fin n))) : Prop where
  /-- No node is on the stack twice. -/
  nodup : (nodes stack).Nodup
  /-- The marks say which nodes are on the stack. -/
  onStack : ∀ v : Fin n, entry marks v = .onStack ↔ v ∈ nodes stack
  /-- Each node has an edge to the one above it. -/
  path : (above.toList ++ nodes stack).IsChain fun v u => g.Edge u v
  /-- What is still to be followed from a node are edges of it. -/
  pending : ∀ f ∈ stack, ∀ t ∈ f.2, g.Edge f.1 t
  /-- No edge has been passed over. -/
  followed : Followed g marks above stack
  /-- The edges of a node that is done lead to such nodes. -/
  closed : ∀ v : Fin n, entry marks v = .done → ∀ t, g.Edge v t → entry marks t = .done
  /-- Every walk from a node that is done ends. -/
  acc : ∀ v : Fin n, entry marks v = .done → Acc (Function.swap g.Edge) v

/-- A node that has been met stays so, whatever mark is entered for it. -/
theorem entry_withEntry_ne_unvisited {marks : Vector Mark n} {v u : Fin n} {mark : Mark}
    (hmark : mark ≠ .unvisited) (hu : entry marks u ≠ .unvisited) :
    entry (withEntry marks v mark) u ≠ .unvisited := by
  rw [entry_withEntry]
  split
  · exact hmark
  · exact hu

/-- Nodes that become done, and another node above, matter only where they were the reason. This is
the one induction over the stack that the parts of a step need. -/
theorem Followed.imp {g : Graph n} {marks marks' : Vector Mark n} {above above' : Option (Fin n)}
    {stack : List (Fin n × List (Fin n))} (h : Followed g marks above stack)
    (hdone : ∀ t : Fin n, entry marks t = .done → entry marks' t = .done)
    (habove : ∀ t : Fin n, above = some t → entry marks' t = .done ∨ above' = some t) :
    Followed g marks' above' stack := by
  induction stack generalizing above above' with
  | nil => trivial
  | cons f rest ih =>
    obtain ⟨hf, hrest⟩ := h
    refine ⟨fun t ht => ?_, ih hrest fun _ ht => Or.inr ht⟩
    rcases hf t ht with h | h | h
    · exact Or.inl h
    · exact Or.inr (Or.inl (hdone t h))
    · exact Or.inr (habove t h)

namespace Sound

variable {g : Graph n} {marks : Vector Mark n} {v t : Fin n} {ts : List (Fin n)}
  {stack rest : List (Fin n × List (Fin n))}

theorem start : Sound g (Vector.replicate n .unvisited) none [] where
  nodup := List.nodup_nil
  onStack v := by simp [nodes]
  path := .nil
  pending f hf := absurd hf List.not_mem_nil
  followed := trivial
  closed v hv := by simp at hv
  acc v hv := by simp at hv

/-- The innermost node has no edge left: it is done. All its edges lead to nodes that are done, so
every walk from it ends as well. -/
theorem leave (h : Sound g marks none ((v, []) :: rest)) :
    Sound g (withEntry marks v .done) none rest := by
  have hall : ∀ t, g.Edge v t → entry marks t = .done := by
    intro t ht
    rcases h.followed.1 t ht with h | h | h
    · exact absurd h List.not_mem_nil
    · exact h
    · exact absurd h (by simp)
  have hset : ∀ u : Fin n,
      entry (withEntry marks v .done) u = .done ↔ v = u ∨ entry marks u = .done := by
    intro u
    rw [entry_withEntry]
    by_cases hu : v = u <;> simp [hu]
  have hnodup : v ∉ nodes rest ∧ (nodes rest).Nodup := List.nodup_cons.mp h.nodup
  refine ⟨hnodup.2, fun u => ?_, h.path.tail, fun f hf => h.pending f (List.mem_cons_of_mem _ hf),
    h.followed.2.imp (fun u hu => (hset u).mpr (Or.inr hu)) fun u hu => ?_, fun u hu t ht => ?_,
    fun u hu => ?_⟩
  · rw [entry_withEntry]
    by_cases hu : v = u
    · subst hu; simp [hnodup.1]
    · rw [if_neg hu, h.onStack u]
      exact List.mem_cons.trans (or_iff_right (Ne.symm hu))
  · exact Or.inl ((hset u).mpr (Or.inl (Option.some.inj hu)))
  · rcases (hset u).mp hu with rfl | hu
    · exact (hset t).mpr (Or.inr (hall t ht))
    · exact (hset t).mpr (Or.inr (h.closed u hu t ht))
  · rcases (hset u).mp hu with rfl | hu
    · exact Acc.intro v fun t ht => h.acc t (hall t ht)
    · exact h.acc u hu

/-- An edge of the innermost node is followed. -/
theorem follow (h : Sound g marks none ((v, t :: ts) :: rest)) :
    Sound g marks (some t) ((v, ts) :: rest) where
  nodup := h.nodup
  onStack := h.onStack
  path := List.isChain_cons_cons.mpr ⟨h.pending _ List.mem_cons_self t List.mem_cons_self, h.path⟩
  pending f hf u hu := by
    rcases List.mem_cons.mp hf with rfl | hf
    · exact h.pending _ List.mem_cons_self u (List.mem_cons_of_mem _ hu)
    · exact h.pending f (List.mem_cons_of_mem _ hf) u hu
  followed := by
    refine ⟨fun u hu => ?_, h.followed.2⟩
    rcases h.followed.1 u hu with hu | hu | hu
    · rcases List.mem_cons.mp hu with rfl | hu
      · exact Or.inr (Or.inr rfl)
      · exact Or.inl hu
    · exact Or.inr (Or.inl hu)
    · exact absurd hu (by simp)
  closed := h.closed
  acc := h.acc

/-- The edge leads to a node that is done: nothing is to be done about it. -/
theorem skip (h : Sound g marks (some t) stack) (ht : entry marks t = .done) :
    Sound g marks none stack where
  nodup := h.nodup
  onStack := h.onStack
  path := h.path.tail
  pending := h.pending
  followed := h.followed.imp (fun _ hu => hu) fun _ hu => Or.inl (Option.some.inj hu ▸ ht)
  closed := h.closed
  acc := h.acc

/-- The edge leads to a node that has not been met: it goes on the stack. -/
theorem enter (h : Sound g marks (some t) stack) (ht : entry marks t = .unvisited) :
    Sound g (withEntry marks t .onStack) none ((t, g.targets t) :: stack) := by
  have hfresh : t ∉ nodes stack := by
    intro hm
    rw [(h.onStack t).mpr hm] at ht
    cases ht
  have hset : ∀ u : Fin n,
      entry (withEntry marks t .onStack) u = .done ↔ entry marks u = .done := by
    intro u
    rw [entry_withEntry]
    split
    · subst u
      simp [ht]
    · rfl
  refine ⟨List.nodup_cons.mpr ⟨hfresh, h.nodup⟩, fun u => ?_, h.path, fun f hf u hu => ?_,
    ⟨fun _ hu => Or.inl hu, h.followed.imp (fun u hu => (hset u).mpr hu) fun _ hu => Or.inr hu⟩,
    fun u hu w hw => ?_, fun u hu => h.acc u ((hset u).mp hu)⟩
  · rw [entry_withEntry]
    by_cases hu : t = u
    · subst hu; simp [nodes]
    · rw [if_neg hu, h.onStack u]
      exact (List.mem_cons.trans (or_iff_right (Ne.symm hu))).symm
  · rcases List.mem_cons.mp hf with rfl | hf
    · exact hu
    · exact h.pending f hf u hu
  · exact (hset w).mpr (h.closed u ((hset u).mp hu) w hw)

/-- The edge leads back to a node on the stack: the cycle is what stands above this node, between
the node and itself. -/
theorem exists_cut (h : Sound g marks (some t) stack) (ht : entry marks t = .onStack) :
    ∃ above below, nodes stack = above ++ t :: below ∧ t ∉ above ∧
      closeCycle t stack = t :: above.reverse ++ [t] := by
  obtain ⟨above, below, hsplit, habove⟩ := List.eq_append_cons_of_mem ((h.onStack t).mp ht)
  have hne : ∀ u ∈ above, (u != t) = true := by
    intro u hu
    rw [bne_iff_ne]
    rintro rfl
    exact habove hu
  have htake : (nodes stack).takeWhile (· != t) = above := by
    rw [hsplit, List.takeWhile_append_of_pos hne]
    simp
  exact ⟨above, below, hsplit, habove, by rw [closeCycle, ← htake, nodes]⟩

/-- The path from that node on, closed by it, is a cycle. Its last step is the edge that was
followed last, and its other steps are those of the path. -/
theorem isSimpleCycle_closeCycle (h : Sound g marks (some t) stack)
    (ht : entry marks t = .onStack) : IsSimpleCycle g.Edge (closeCycle t stack) := by
  obtain ⟨above, below, hsplit, habove, hcut⟩ := h.exists_cut ht
  have hclose : closeCycle t stack = (t :: above ++ [t]).reverse := by
    rw [hcut]
    simp
  have hnodup : (t :: above).Nodup :=
    List.nodup_cons.mpr ⟨habove, (hsplit ▸ h.nodup).of_append_left⟩
  have hpath : (t :: above ++ [t]).IsChain fun v u => g.Edge u v := by
    refine h.path.prefix ⟨below, ?_⟩
    simp [hsplit]
  rw [hclose]
  refine ⟨by simp, ?_, ?_, List.isChain_reverse.mpr hpath⟩
  · rw [List.head?_reverse, List.getLast?_reverse, List.getLast?_concat]
    rfl
  · rw [List.dropLast_reverse]
    exact List.nodup_reverse.mpr ((List.perm_append_singleton t above).nodup_iff.mpr hnodup)

end Sound

/-! ### Whole searches

The recursion of the search is followed by `run.induct`, with one case for each of its branches. The
invariant is handed from branch to branch by the lemmas above. -/

variable {g : Graph n} {marks marks' : Vector Mark n} {stack : List (Fin n × List (Fin n))}

/-- A search that ends without a report leaves an empty stack, and a node that was met stays so. -/
theorem run_sound (h : Sound g marks none stack) (hr : run g marks stack = .ok marks') :
    Sound g marks' none [] ∧
      ∀ v : Fin n, entry marks v ≠ .unvisited → entry marks' v ≠ .unvisited := by
  fun_induction run g marks stack with
  | case1 marks =>
    cases hr
    exact ⟨h, fun _ hv => hv⟩
  | case2 marks v rest ih =>
    obtain ⟨hs, hmet⟩ := ih h.leave hr
    exact ⟨hs, fun u hu => hmet u (entry_withEntry_ne_unvisited (by decide) hu)⟩
  | case3 => cases hr
  | case4 marks v t ts rest ht ih =>
    obtain ⟨hs, hmet⟩ := ih (h.follow.enter ht) hr
    exact ⟨hs, fun u hu => hmet u (entry_withEntry_ne_unvisited (by decide) hu)⟩
  | case5 marks v t ts rest ht ih => exact ih (h.follow.skip ht) hr

/-- A report is a cycle. -/
theorem isSimpleCycle_of_run (h : Sound g marks none stack) {cycle : List (Fin n)}
    (hr : run g marks stack = .error cycle) : IsSimpleCycle g.Edge cycle := by
  fun_induction run g marks stack with
  | case1 => cases hr
  | case2 marks v rest ih => exact ih h.leave hr
  | case3 marks v t ts rest ht =>
    cases hr
    exact h.follow.isSimpleCycle_closeCycle ht
  | case4 marks v t ts rest ht ih => exact ih (h.follow.enter ht) hr
  | case5 marks v t ts rest ht ih => exact ih (h.follow.skip ht) hr

/-- A search begins with an empty stack and a node that has not been met. -/
theorem Sound.begin (h : Sound g marks none []) {v : Fin n} (hv : entry marks v = .unvisited) :
    Sound g (withEntry marks v .onStack) none [(v, g.targets v)] :=
  Sound.enter { h with path := .singleton v, followed := trivial } hv

end Search

open Search

variable {g : Graph n}

theorem isSimpleCycle_of_searchFrom {vs : List (Fin n)} {marks : Vector Mark n}
    (h : Sound g marks none []) {cycle : List (Fin n)}
    (hs : searchFrom g vs marks = some cycle) : IsSimpleCycle g.Edge cycle := by
  induction vs generalizing marks with
  | nil => simp [searchFrom] at hs
  | cons v rest ih =>
    simp only [searchFrom] at hs
    split at hs
    · rename_i hv
      split at hs
      · rename_i hr
        cases hs
        exact isSimpleCycle_of_run (h.begin hv) hr
      · rename_i hr
        exact ih (run_sound (h.begin hv) hr).1 hs
    · exact ih h hs

/-- If the search from each node of a list reports nothing, and every other node was met before,
then all nodes are done. -/
theorem acyclic_of_searchFrom {vs : List (Fin n)} {marks : Vector Mark n}
    (h : Sound g marks none []) (hall : ∀ v : Fin n, v ∈ vs ∨ entry marks v ≠ .unvisited)
    (hs : searchFrom g vs marks = none) : g.Acyclic := by
  induction vs generalizing marks with
  | nil =>
    refine acyclic_of_acc fun v => h.acc v ?_
    have hmet : entry marks v ≠ .unvisited := (hall v).resolve_left List.not_mem_nil
    have hoff : entry marks v ≠ .onStack := fun e => List.not_mem_nil ((h.onStack v).mp e)
    cases hm : entry marks v with
    | unvisited => exact absurd hm hmet
    | onStack => exact absurd hm hoff
    | done => rfl
  | cons v rest ih =>
    simp only [searchFrom] at hs
    split at hs
    · rename_i hv
      split at hs
      · cases hs
      · rename_i marks' hr
        obtain ⟨hsound, hmet⟩ := run_sound (h.begin hv) hr
        refine ih hsound (fun u => ?_) hs
        rcases hall u with hu | hu
        · rcases List.mem_cons.mp hu with rfl | hu
          · exact Or.inr (hmet u (by simp))
          · exact Or.inl hu
        · exact Or.inr (hmet u (entry_withEntry_ne_unvisited (by decide) hu))
    · rename_i hv
      refine ih h (fun u => ?_) hs
      rcases hall u with hu | hu
      · rcases List.mem_cons.mp hu with rfl | hu
        · exact Or.inr hv
        · exact Or.inl hu
      · exact Or.inr hu

/-- A reported cycle is one. -/
theorem isSimpleCycle_of_findCycle? {cycle : List (Fin n)} (h : g.findCycle? = some cycle) :
    IsSimpleCycle g.Edge cycle :=
  isSimpleCycle_of_searchFrom .start h

/-- Nothing is reported exactly when there is no cycle. One direction is about the marks at the end,
the other one is that a report would be a cycle. -/
theorem findCycle?_eq_none_iff : g.findCycle? = none ↔ g.Acyclic := by
  constructor
  · exact acyclic_of_searchFrom .start fun v => Or.inl (List.mem_finRange v)
  · intro hg
    cases hc : g.findCycle? with
    | none => rfl
    | some cycle =>
      obtain ⟨v, hv⟩ := (isSimpleCycle_of_findCycle? hc).transGen
      exact absurd hv (hg v)

end TypedPipeline.Graph
