import Mathlib.Algebra.BigOperators.Group.List.Basic
import TypedPipeline.Proofs.Graph.Cycle

/-!
# The search, round by round

`Search.run` says what a search comes to. Here it is taken apart into rounds that do one thing each,
so that something can be said of every moment of it: a node is put on the stack, an edge is
followed, a node is left. Beside its state a round has the list of what was done before it. Nothing
is done twice, and there are only so many nodes and edges; that is why the search ends, and how long
it takes at most.

The rounds and the recursion are tied together in one direction only: the rounds lead to what the
recursion comes to. Since a round has one successor, there is nothing else to which they could lead.

## Implementation notes

A move names a node, or a node and one of its edges. An edge is named by its place and not by its
target, since a list may hold a target twice, and following it the second time is another move.

That no move is made twice is proved with three clauses of `Records`, one for each kind of move. A
node is pushed when it has not been met and is met from then on; it is left when it is on the stack
and is done from then on; and the edges followed from a node are those before the ones that are left
of it, since what is left is a suffix of all its edges. `cursor` is the length of the part before.

The bound `2 * n + edges` counts the moves that exist. It is not reached by graphs with cycles,
where the search stops early.

## Main definitions

* `Graph.Search.Move` — what is done to nodes and edges
* `Graph.Search.Round`, `Graph.Search.Round.next` — the search between two rounds, and one round
* `Graph.Search.Round.Records` — how the list of what was done belongs to the state

## Main results

* `Graph.Search.Round.Records.next` — one round
* `Graph.Search.ends_searchFrom` — the rounds come to what the recursion comes to
* `Graph.Search.Sound.position_closeCycle` — where a cycle is cut out of the stack
* `Graph.search_rounds` — all rounds of a search
-/

namespace TypedPipeline.Graph

variable {n : Nat}

namespace Search

/-! ### Rounds

`next` is a function, so the rounds are determined by the first one. The cases of its definition are
those of a step, with the edge that is followed and the node it leads to in two rounds. -/

/-- What is done in a search. An edge is known by its source and by its place among the edges that
leave the source. -/
inductive Move (n : Nat) where
  | push (v : Fin n)
  | follow (v : Fin n) (i : Nat)
  | leave (v : Fin n)
deriving DecidableEq

/-- The search between two rounds. -/
structure Round (n : Nat) where
  /-- The nodes from which a search is still to be begun. -/
  todo : List (Fin n)
  marks : Vector Mark n
  /-- The node to which an edge of the innermost node has just been followed. -/
  above : Option (Fin n)
  stack : List (Fin n × List (Fin n))
  /-- What has been done, the latest first. -/
  log : List (Move n)

/-- The place of the edge that is followed next, if `ts` are the edges left of `v`. -/
def cursor (g : Graph n) (v : Fin n) (ts : List (Fin n)) : Nat := (g.targets v).length - ts.length

namespace Round

/-- The round before anything has been done. -/
def start (n : Nat) : Round n :=
  ⟨List.finRange n, Vector.replicate n .unvisited, none, [], []⟩

/-- What a round leads to: another round, or the end of the search with its report. -/
def next (g : Graph n) : Round n → Round n ⊕ Option (List (Fin n))
  | ⟨todo, marks, some t, stack, log⟩ =>
    match entry marks t with
    | .onStack => .inr (some (closeCycle t stack))
    | .unvisited =>
      .inl ⟨todo, withEntry marks t .onStack, none, (t, g.targets t) :: stack, .push t :: log⟩
    | .done => .inl ⟨todo, marks, none, stack, log⟩
  | ⟨todo, marks, none, (v, t :: ts) :: rest, log⟩ =>
    .inl ⟨todo, marks, some t, (v, ts) :: rest, .follow v (cursor g v (t :: ts)) :: log⟩
  | ⟨todo, marks, none, (v, []) :: rest, log⟩ =>
    .inl ⟨todo, withEntry marks v .done, none, rest, .leave v :: log⟩
  | ⟨v :: todo, marks, none, [], log⟩ =>
    if entry marks v = .unvisited then
      .inl ⟨todo, withEntry marks v .onStack, none, [(v, g.targets v)], .push v :: log⟩
    else .inl ⟨todo, marks, none, [], log⟩
  | ⟨[], _, none, [], _⟩ => .inr none

/-- The second round comes some time after the first one, or is the same. -/
def LeadsTo (g : Graph n) : Round n → Round n → Prop :=
  Relation.ReflTransGen fun r r' => r.next g = .inl r'

/-- From a round on, the search comes to a report. -/
def Ends (g : Graph n) (r : Round n) (report : Option (List (Fin n))) : Prop :=
  ∃ r', r.LeadsTo g r' ∧ r'.next g = .inr report

end Round

/-! ### The recursion

The rounds are shown to come to what the recursion gives. The induction is the one of the recursion:
each of its branches is one round or two. -/

open Round

variable {g : Graph n}

namespace Round

variable {r r' : Round n}

/-- From a round on, a search from one node reports a cycle, or leads back to an empty stack. In the
second case what was done in between is of no interest, and the log is left open. -/
def Arrives (g : Graph n) (r : Round n) (todo : List (Fin n)) :
    Except (List (Fin n)) (Vector Mark n) → Prop
  | .error cycle => r.Ends g (some cycle)
  | .ok marks => ∃ log, r.LeadsTo g ⟨todo, marks, none, [], log⟩

theorem LeadsTo.ends {report : Option (List (Fin n))} (hr : r.LeadsTo g r')
    (h : r'.Ends g report) : r.Ends g report := by
  obtain ⟨last, hlast, hend⟩ := h
  exact ⟨last, hr.trans hlast, hend⟩

theorem Arrives.head {todo : List (Fin n)} {result : Except (List (Fin n)) (Vector Mark n)}
    (hr : r.next g = .inl r') (h : r'.Arrives g todo result) : r.Arrives g todo result := by
  cases result with
  | error cycle => exact LeadsTo.ends (.single hr) h
  | ok marks =>
    obtain ⟨log, hlead⟩ := h
    exact ⟨log, .head hr hlead⟩

end Round

/-- The rounds of a search from one node. An edge takes two of them, unless it is passed over. -/
theorem arrives_run (todo : List (Fin n)) (marks : Vector Mark n)
    (stack : List (Fin n × List (Fin n))) (log : List (Move n)) :
    Arrives g ⟨todo, marks, none, stack, log⟩ todo (run g marks stack) := by
  fun_induction run g marks stack generalizing log with
  | case1 marks => exact ⟨log, .refl⟩
  | case2 marks v rest ih => exact (ih _).head rfl
  | case3 marks v t ts rest ht =>
    refine ⟨⟨todo, marks, some t, (v, ts) :: rest, .follow v (cursor g v (t :: ts)) :: log⟩,
      .single rfl, ?_⟩
    simp only [next, ht]
    rfl
  | case4 marks v t ts rest ht ih =>
    refine Arrives.head rfl ((ih (.push t :: .follow v (cursor g v (t :: ts)) :: log)).head ?_)
    simp only [next, ht]
  | case5 marks v t ts rest ht ih =>
    refine Arrives.head rfl ((ih (.follow v (cursor g v (t :: ts)) :: log)).head ?_)
    simp only [next, ht]

theorem ends_searchFrom (vs : List (Fin n)) (marks : Vector Mark n) (log : List (Move n)) :
    Ends g ⟨vs, marks, none, [], log⟩ (searchFrom g vs marks) := by
  induction vs generalizing marks log with
  | nil => exact ⟨_, .refl, rfl⟩
  | cons v rest ih =>
    by_cases hv : entry marks v = .unvisited
    · have hbegin : next g ⟨v :: rest, marks, none, [], log⟩ =
          .inl ⟨rest, withEntry marks v .onStack, none, [(v, g.targets v)], .push v :: log⟩ := by
        simp only [next, hv, if_true]
      have harrives := arrives_run (g := g) rest (withEntry marks v .onStack) [(v, g.targets v)]
        (.push v :: log)
      refine LeadsTo.ends (.single hbegin) ?_
      simp only [searchFrom, hv, if_true]
      cases hrun : run g (withEntry marks v .onStack) [(v, g.targets v)] with
      | error cycle =>
        rw [hrun] at harrives
        exact harrives
      | ok marks' =>
        rw [hrun] at harrives
        obtain ⟨log', hlead⟩ := harrives
        exact hlead.ends (ih marks' log')
    · have hpass : next g ⟨v :: rest, marks, none, [], log⟩ =
          .inl ⟨rest, marks, none, [], log⟩ := by
        simp only [next, hv, if_false]
      simp only [searchFrom, hv, if_false]
      exact LeadsTo.ends (.single hpass) (ih marks log)

/-! ### What was done

`Records` holds the invariant of the search itself (`Sound`) and ties the list of moves to it. The
lemmas are named for the moves, and `next` puts them together. -/

namespace Round

/-- How the list of what was done belongs to the state. -/
structure Records (g : Graph n) (r : Round n) : Prop where
  sound : Sound g r.marks r.above r.stack
  /-- The edges left of a node are the last ones of it. -/
  remaining : ∀ f ∈ r.stack, f.2 <:+ g.targets f.1
  /-- Nothing was done twice. -/
  nodup : r.log.Nodup
  pushed : ∀ v, .push v ∈ r.log → entry r.marks v ≠ .unvisited
  left : ∀ v, .leave v ∈ r.log → entry r.marks v = .done
  /-- An edge that was followed leaves a node that was met, and stands before those left of it. -/
  followed : ∀ v i, .follow v i ∈ r.log → entry r.marks v ≠ .unvisited ∧
    i < (g.targets v).length ∧ ∀ ts, (v, ts) ∈ r.stack → i < cursor g v ts

namespace Records

variable {todo todo' ts : List (Fin n)} {marks : Vector Mark n} {above : Option (Fin n)}
  {stack rest : List (Fin n × List (Fin n))} {log : List (Move n)} {v t : Fin n}

theorem start : Records g (start n) where
  sound := .start
  remaining := by simp [Round.start]
  nodup := List.nodup_nil
  pushed := by simp [Round.start]
  left := by simp [Round.start]
  followed := by simp [Round.start]

/-- A node that has not been met goes on the stack, with all its edges left. -/
theorem push (h : Records g ⟨todo, marks, above, stack, log⟩) (ht : entry marks t = .unvisited)
    (hs : Sound g (withEntry marks t .onStack) none ((t, g.targets t) :: stack)) :
    Records g ⟨todo', withEntry marks t .onStack, none, (t, g.targets t) :: stack,
      .push t :: log⟩ where
  sound := hs
  remaining := List.forall_mem_cons.mpr ⟨List.suffix_refl _, h.remaining⟩
  nodup := List.nodup_cons.mpr ⟨fun hm => h.pushed t hm ht, h.nodup⟩
  pushed u hu := by
    rcases List.mem_cons.mp hu with hu | hu
    · cases hu
      simp
    · exact entry_withEntry_ne_unvisited (by decide) (h.pushed u hu)
  left u hu := by
    have hdone := h.left u (List.mem_of_ne_of_mem (by simp) hu)
    have hne : t ≠ u := by
      rintro rfl
      cases ht.symm.trans hdone
    rw [entry_withEntry, if_neg hne]
    exact hdone
  followed u i hu := by
    obtain ⟨hmet, hi, hcursor⟩ := h.followed u i (List.mem_of_ne_of_mem (by simp) hu)
    refine ⟨entry_withEntry_ne_unvisited (by decide) hmet, hi, fun us hus => ?_⟩
    rcases List.mem_cons.mp hus with hus | hus
    · cases hus
      exact absurd ht hmet
    · exact hcursor us hus

/-- The next edge of the innermost node is followed. It has not been followed before, since those
that have been stand before it. -/
theorem follow (h : Records g ⟨todo, marks, none, (v, t :: ts) :: rest, log⟩) :
    Records g ⟨todo, marks, some t, (v, ts) :: rest, .follow v (cursor g v (t :: ts)) :: log⟩ := by
  obtain ⟨hfirst, hrest⟩ := List.forall_mem_cons.mp h.remaining
  have hlength : ts.length + 1 ≤ (g.targets v).length := hfirst.length_le
  have hlater : cursor g v ts = cursor g v (t :: ts) + 1 := by
    simp only [cursor, List.length_cons]
    omega
  have hbound : cursor g v (t :: ts) < (g.targets v).length := by
    simp only [cursor, List.length_cons]
    omega
  have honce : v ∉ nodes rest := (List.nodup_cons.mp h.sound.nodup).1
  refine ⟨h.sound.follow, List.forall_mem_cons.mpr ⟨(List.suffix_cons t ts).trans hfirst, hrest⟩,
    List.nodup_cons.mpr ⟨fun hm => ?_, h.nodup⟩,
    fun u hu => h.pushed u (List.mem_of_ne_of_mem (by simp) hu),
    fun u hu => h.left u (List.mem_of_ne_of_mem (by simp) hu), fun u i hu => ?_⟩
  · exact absurd ((h.followed v _ hm).2.2 (t :: ts) List.mem_cons_self) (Nat.lt_irrefl _)
  · rcases List.mem_cons.mp hu with hu | hu
    · cases hu
      have hmark : entry marks v = .onStack := (h.sound.onStack v).mpr List.mem_cons_self
      refine ⟨by simp [hmark], hbound, fun us hus => ?_⟩
      rcases List.mem_cons.mp hus with hus | hus
      · cases hus
        omega
      · exact absurd (List.mem_map_of_mem (f := Prod.fst) hus) honce
    · obtain ⟨hmet, hi, hcursor⟩ := h.followed u i hu
      refine ⟨hmet, hi, fun us hus => ?_⟩
      rcases List.mem_cons.mp hus with hus | hus
      · cases hus
        have := hcursor (t :: ts) List.mem_cons_self
        omega
      · exact hcursor us (List.mem_cons_of_mem _ hus)

/-- The innermost node is left. -/
theorem leave (h : Records g ⟨todo, marks, none, (v, []) :: rest, log⟩) :
    Records g ⟨todo, withEntry marks v .done, none, rest, .leave v :: log⟩ where
  sound := h.sound.leave
  remaining := (List.forall_mem_cons.mp h.remaining).2
  nodup := by
    refine List.nodup_cons.mpr ⟨fun hm => ?_, h.nodup⟩
    cases (h.left v hm).symm.trans ((h.sound.onStack v).mpr List.mem_cons_self)
  pushed u hu :=
    entry_withEntry_ne_unvisited (by decide) (h.pushed u (List.mem_of_ne_of_mem (by simp) hu))
  left u hu := by
    rw [entry_withEntry]
    split
    · rfl
    · rename_i hne
      refine h.left u (List.mem_of_ne_of_mem (fun e => hne ?_) hu)
      cases e
      rfl
  followed u i hu := by
    obtain ⟨hmet, hi, hcursor⟩ := h.followed u i (List.mem_of_ne_of_mem (by simp) hu)
    exact ⟨entry_withEntry_ne_unvisited (by decide) hmet, hi,
      fun us hus => hcursor us (List.mem_cons_of_mem _ hus)⟩

/-- One round. -/
theorem next {r r' : Round n} (h : r.Records g) (hr : r.next g = .inl r') : r'.Records g := by
  obtain ⟨todo, marks, above, stack, log⟩ := r
  cases above with
  | some t =>
    cases ht : entry marks t with
    | unvisited =>
      simp only [Round.next, ht, Sum.inl.injEq] at hr
      subst hr
      exact h.push ht (h.sound.enter ht)
    | onStack => simp [Round.next, ht] at hr
    | done =>
      simp only [Round.next, ht, Sum.inl.injEq] at hr
      subst hr
      exact { h with sound := h.sound.skip ht }
  | none =>
    match todo, stack with
    | todo, (v, t :: ts) :: rest =>
      cases hr
      exact h.follow
    | todo, (v, []) :: rest =>
      cases hr
      exact h.leave
    | v :: todo, [] =>
      by_cases hv : entry marks v = .unvisited
      · simp only [Round.next, hv, if_true, Sum.inl.injEq] at hr
        subst hr
        exact h.push hv (h.sound.begin hv)
      · simp only [Round.next, hv, if_false, Sum.inl.injEq] at hr
        subst hr
        exact { h with }
    | [], [] => cases hr

/-- All rounds from the beginning. -/
theorem of_leadsTo {r : Round n} (hr : (Round.start n).LeadsTo g r) : r.Records g := by
  induction hr with
  | refl => exact start
  | tail _ hr ih => exact ih.next hr

end Records

/-- All that can be done: each node is put on the stack and left, and each of its edges is
followed. -/
def moves (g : Graph n) : List (Move n) :=
  (List.finRange n).flatMap fun v =>
    .push v :: .leave v :: (List.range (g.targets v).length).map (.follow v)

theorem length_moves (g : Graph n) : (moves g).length = 2 * n + g.edges.length := by
  simp only [moves, edges, List.length_flatMap, List.length_cons, List.length_map,
    List.length_range, List.sum_map_add]
  simp
  omega

/-- What was done is not more than what can be done. Nothing was done twice, and all of it is in the
list of all moves. -/
theorem Records.length_log_le {r : Round n} (h : r.Records g) :
    r.log.length ≤ 2 * n + g.edges.length := by
  rw [← length_moves]
  refine (List.subperm_of_subset h.nodup fun m hm => ?_).length_le
  cases m with
  | push v => simp [moves]
  | leave v => simp [moves]
  | follow v i => simpa [moves] using (h.followed v i hm).2.1

end Round

/-- The node to which an edge leads back is found on the stack, read from its bottom, and the cycle
is what stands there from this place on, closed by the node. -/
theorem Sound.position_closeCycle {marks : Vector Mark n} {t : Fin n}
    {stack : List (Fin n × List (Fin n))} (h : Sound g marks (some t) stack)
    (ht : entry marks t = .onStack) :
    ∃ i, (nodes stack).reverse.idxOf? t = some i ∧
      closeCycle t stack = (nodes stack).reverse.drop i ++ [t] := by
  obtain ⟨above, below, hsplit, -, hclose⟩ := h.exists_cut ht
  have hbottom : (nodes stack).reverse = below.reverse ++ t :: above.reverse := by
    rw [hsplit]
    simp
  have hnodup : (above ++ t :: below).Nodup := hsplit ▸ h.nodup
  have hbelow : t ∉ below := (List.nodup_cons.mp hnodup.of_append_right).1
  have hnone : below.reverse.findIdx? (· == t) = none :=
    List.idxOf?_eq_none_iff.mpr (by simpa using hbelow)
  refine ⟨below.reverse.length, ?_, ?_⟩
  · rw [hbottom, List.idxOf?, List.findIdx?_append, hnone, List.findIdx?_cons]
    simp
  · rw [hclose, hbottom, List.drop_left]

end Search

open Search

/-- The rounds of a search end, with the report of the search. In every round until then, no node
has been put on the stack twice, no edge has been followed twice and no node has been left twice;
the nodes marked as on the stack are those on the stack, each of them once, and each has an edge to
the one above it; the edges of a node that is done lead to such nodes; and a node on the stack to
which an edge leads back is found there. Nothing is reported exactly if there is no cycle. -/
theorem search_rounds (g : Graph n) :
    (Round.start n).Ends g g.findCycle? ∧
      (∀ r : Round n, (Round.start n).LeadsTo g r →
        (r.log.Nodup ∧ r.log.length ≤ 2 * n + g.edges.length) ∧
        (∀ v, entry r.marks v = .onStack ↔ v ∈ nodes r.stack) ∧ (nodes r.stack).Nodup ∧
        (∀ f ∈ r.stack, f.2 <:+ g.targets f.1) ∧
        (nodes r.stack).IsChain (fun v u => g.Edge u v) ∧
        (∀ v t, entry r.marks v = .done → g.Edge v t → entry r.marks t = .done) ∧
        ∀ t, r.above = some t → entry r.marks t = .onStack →
          ∃ i, (nodes r.stack).reverse.idxOf? t = some i ∧
            r.next g = .inr (some ((nodes r.stack).reverse.drop i ++ [t]))) ∧
      (g.findCycle? = none ↔ g.Acyclic) := by
  refine ⟨ends_searchFrom _ _ _, fun r hr => ?_, findCycle?_eq_none_iff⟩
  have h := Round.Records.of_leadsTo hr
  obtain ⟨todo, marks, above, stack, log⟩ := r
  refine ⟨⟨h.nodup, h.length_log_le⟩, h.sound.onStack, h.sound.nodup, h.remaining, ?_,
    fun v t hv he => h.sound.closed v hv t he, fun t habove ht => ?_⟩
  · exact h.sound.path.right_of_append
  · cases habove
    obtain ⟨i, hi, hclose⟩ := h.sound.position_closeCycle ht
    refine ⟨i, hi, ?_⟩
    dsimp only at ht
    rw [← hclose, Round.next, ht]

end TypedPipeline.Graph
