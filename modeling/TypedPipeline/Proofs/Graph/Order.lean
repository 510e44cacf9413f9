import Mathlib.Algebra.BigOperators.Fin
import Mathlib.Data.List.Lex
import TypedPipeline.Graph.Order
import TypedPipeline.Proofs.Graph.Basic

/-!
# The order of execution is the least order

Between two releases a counter holds the number of edges that arrive from nodes not yet released,
and the ready nodes are those whose counter is zero. So each release takes the lowest node that any
order could have at this place, which makes the order lexicographically least; no exchange of
neighbours is needed for that.

## Two descriptions of an order

`Graph.IsOrder` is what one wants to know of the result: every node once, and edges lead forward. It
says nothing about a part of the result. `Graph.Continues` describes a list from any point on, by
the set of nodes released before it, and its recursion is the one of the release. All inductions
below are about it, and the two meet in `Continues.isOrder` and `IsOrder.continues`.

## The invariant

`Frontier.Tracks` has the edges `ts` of the node released last as a parameter. Between two releases
it is empty. Within one it holds the edges that are still to be taken away, so that taking one away
(`relieve`) is a step that keeps the invariant by itself, and a release is one `take` and as many
`relieve` as there are edges. Counters are natural numbers; that none is lowered below zero comes
out of the clause on counters, since an edge that is still to be taken away is counted.

## Why the order is least

Let another order be given and look at the first place where it differs. Both have released the same
nodes there. The node of the other order has all its sources among these, so it is ready, and the
release has taken the lowest ready node; so it is lower. This is the whole argument of
`drain_least`.

## Main definitions

* `Graph.IsOrder` — a list of all nodes in which edges lead forward
* `Graph.Continues` — the same for what follows after some nodes have been released
* `Graph.Frontier.Tracks` — what the counters and the ready nodes say during a release

## Main results

* `Graph.Frontier.Tracks.take`, `Graph.Frontier.Tracks.relieve` — a node goes, and one of its edges
* `Graph.Frontier.Tracks.release` — one release
* `Graph.continues_drain`, `Graph.exists_source_of_not_mem_drain`, `Graph.drain_least` — all
  releases from some point on
* `Graph.isOrder_order`, `Graph.order_least` — the order of an acyclic graph
-/

namespace TypedPipeline.Graph

variable {n : Nat} {g : Graph n}

/-! ### Orders -/

/-- Every node once, and each edge from an earlier node to a later one. -/
structure IsOrder (g : Graph n) (l : List (Fin n)) : Prop where
  /-- Every node occurs once. -/
  perm : l.Perm (List.finRange n)
  /-- The source of an edge stands before its target. -/
  before : ∀ u v, g.Edge u v → l.idxOf u < l.idxOf v

/-- Each node of the list can be released when its turn comes, `done` being released before. It is
not asked that the list holds every node. -/
def Continues (g : Graph n) (done : Finset (Fin n)) : List (Fin n) → Prop
  | [] => True
  | v :: rest => v ∉ done ∧ (∀ u, g.Edge u v → u ∈ done) ∧ Continues g (insert v done) rest

namespace Continues

variable {done : Finset (Fin n)} {l : List (Fin n)}

theorem not_mem_done (h : Continues g done l) {v : Fin n} (hv : v ∈ l) : v ∉ done := by
  induction l generalizing done with
  | nil => exact absurd hv List.not_mem_nil
  | cons w rest ih =>
    obtain ⟨hw, -, hrest⟩ := h
    rcases List.mem_cons.mp hv with rfl | hv
    · exact hw
    · exact fun hd => ih hrest hv (Finset.mem_insert_of_mem hd)

theorem nodup (h : Continues g done l) : l.Nodup := by
  induction l generalizing done with
  | nil => exact List.nodup_nil
  | cons w rest ih =>
    obtain ⟨-, -, hrest⟩ := h
    exact List.nodup_cons.mpr
      ⟨fun hw => hrest.not_mem_done hw (Finset.mem_insert_self w done), ih hrest⟩

/-- The source of an edge to a node of the list was released before, or stands before it. In the
second case it is in the list as well, since `idxOf` gives the length for what is not there. -/
theorem before (h : Continues g done l) {u v : Fin n} (he : g.Edge u v) (hv : v ∈ l) :
    u ∈ done ∨ l.idxOf u < l.idxOf v := by
  induction l generalizing done with
  | nil => exact absurd hv List.not_mem_nil
  | cons w rest ih =>
    obtain ⟨-, hsources, hrest⟩ := h
    rcases List.mem_cons.mp hv with rfl | hv
    · exact Or.inl (hsources u he)
    · have hvw : v ≠ w := fun e => hrest.not_mem_done hv (e ▸ Finset.mem_insert_self w done)
      rw [List.idxOf_cons_ne _ (Ne.symm hvw)]
      by_cases huw : u = w
      · subst huw
        rw [List.idxOf_cons_self]
        exact Or.inr (Nat.succ_pos _)
      · rw [List.idxOf_cons_ne _ (Ne.symm huw)]
        rcases ih hrest hv with hd | hlt
        · exact Or.inl ((Finset.mem_insert.mp hd).resolve_left huw)
        · exact Or.inr (Nat.succ_lt_succ hlt)

/-- A list that holds all nodes and in which each can be released in its turn is an order. -/
theorem isOrder (h : Continues g ∅ l) (hall : ∀ v, v ∈ l) : g.IsOrder l where
  perm := by
    refine (List.perm_ext_iff_of_nodup h.nodup (List.nodup_finRange n)).mpr fun v => ?_
    simp [hall v]
  before u v he := (h.before he (hall v)).resolve_left (Finset.notMem_empty u)

end Continues

namespace IsOrder

variable {l : List (Fin n)}

theorem nodup (h : g.IsOrder l) : l.Nodup := h.perm.nodup_iff.mpr (List.nodup_finRange n)

theorem mem (h : g.IsOrder l) (v : Fin n) : v ∈ l := h.perm.mem_iff.mpr (List.mem_finRange v)

/-- Where an order is cut, the sources of the next node are all in the first part. -/
theorem mem_of_edge {pre post : List (Fin n)} {u v : Fin n} (h : g.IsOrder (pre ++ v :: post))
    (he : g.Edge u v) : u ∈ pre := by
  have hv : v ∉ pre := fun hm =>
    List.disjoint_of_nodup_append h.nodup hm List.mem_cons_self
  have hlt := h.before u v he
  rw [List.idxOf_append_of_notMem hv, List.idxOf_cons_self, Nat.add_zero] at hlt
  by_contra hu
  rw [List.idxOf_append_of_notMem hu] at hlt
  omega

/-- In an order each node can be released when its turn comes. -/
theorem continues (h : g.IsOrder l) : Continues g ∅ l := by
  suffices hgen : ∀ rest pre : List (Fin n), g.IsOrder (pre ++ rest) →
      Continues g pre.toFinset rest from hgen l [] h
  intro rest
  induction rest with
  | nil => exact fun _ _ => trivial
  | cons v rest ih =>
    intro pre hpre
    refine ⟨fun hv => ?_, fun u he => List.mem_toFinset.mpr (hpre.mem_of_edge he), ?_⟩
    · exact List.disjoint_of_nodup_append hpre.nodup (List.mem_toFinset.mp hv) List.mem_cons_self
    · have hset : insert v pre.toFinset = (pre ++ [v]).toFinset := by
        ext u
        simp
      rw [hset]
      exact ih (pre ++ [v]) (by simpa using hpre)

end IsOrder

/-! ### Counters

A counter is described by the set of released nodes alone, and not by the history that led to it.
Edges are counted with multiplicity, as the counters do. -/

/-- The number of edges that arrive at a node from nodes that have not been released. -/
def waits (g : Graph n) (done : Finset (Fin n)) (v : Fin n) : Nat :=
  ∑ u ∈ doneᶜ, (g.targets u).count v

theorem waits_eq_zero_iff {done : Finset (Fin n)} {v : Fin n} :
    waits g done v = 0 ↔ ∀ u, g.Edge u v → u ∈ done := by
  rw [waits, Finset.sum_eq_zero_iff]
  refine forall_congr' fun u => ?_
  rw [Finset.mem_compl, List.count_eq_zero]
  exact ⟨fun h he => by_contra fun hu => h hu he, fun h hu he => hu (h he)⟩

/-- A release takes the edges of the released node away. If an edge is there several times, it
counts several times. -/
theorem waits_insert {done : Finset (Fin n)} {v : Fin n} (hv : v ∉ done) (x : Fin n) :
    waits g done x = (g.targets v).count x + waits g (insert v done) x := by
  rw [waits, waits, Finset.compl_insert]
  exact (Finset.add_sum_erase _ (fun u => (g.targets u).count x) (Finset.mem_compl.mpr hv)).symm

theorem mem_insertRising {v u : Fin n} {l : List (Fin n)} :
    u ∈ insertRising v l ↔ u = v ∨ u ∈ l := by
  induction l with
  | nil => simp [insertRising]
  | cons w rest ih =>
    simp only [insertRising]
    split
    · exact List.mem_cons
    · split
      · rw [List.mem_cons, ih, List.mem_cons]
        exact or_left_comm
      · have hvw : v = w := Fin.le_antisymm (Fin.not_lt.mp ‹¬ w < v›) (Fin.not_lt.mp ‹¬ v < w›)
        rw [hvw, List.mem_cons]
        exact ⟨Or.inr, fun h => h.elim Or.inl id⟩

theorem pairwise_insertRising {v : Fin n} {l : List (Fin n)} (h : l.Pairwise (· < ·)) :
    (insertRising v l).Pairwise (· < ·) := by
  induction l with
  | nil => exact List.pairwise_singleton _ _
  | cons w rest ih =>
    obtain ⟨hw, hrest⟩ := List.pairwise_cons.mp h
    simp only [insertRising]
    split
    · rename_i hvw
      refine List.pairwise_cons.mpr ⟨fun u hu => ?_, h⟩
      rcases List.mem_cons.mp hu with rfl | hu
      · exact hvw
      · exact Fin.lt_trans hvw (hw u hu)
    · split
      · rename_i hwv
        refine List.pairwise_cons.mpr ⟨fun u hu => ?_, ih hrest⟩
        rcases mem_insertRising.mp hu with rfl | hu
        · exact hwv
        · exact hw u hu
      · exact h

namespace Frontier

/-- What the counters and the ready nodes say while the edges `ts` of the node released last are
still to be taken away. -/
structure Tracks (g : Graph n) (done : Finset (Fin n)) (ts : List (Fin n)) (f : Frontier n) :
    Prop where
  /-- A counter holds the edges from nodes not yet released, and those not yet taken away. -/
  waiting : ∀ v : Fin n, entry f.waiting v = waits g done v + ts.count v
  /-- The ready nodes rise. -/
  rising : f.ready.Pairwise (· < ·)
  /-- The ready nodes are those that wait for nothing and have not been released. -/
  ready : ∀ v : Fin n, v ∈ f.ready ↔ v ∉ done ∧ entry f.waiting v = 0
  /-- A released node waits for nothing. -/
  settled : ∀ v ∈ done, entry f.waiting v = 0

namespace Tracks

variable {done : Finset (Fin n)} {f : Frontier n} {ts rest : List (Fin n)} {v t : Fin n}

theorem start : Tracks g ∅ [] (Frontier.start g) := by
  have hwaiting : ∀ v : Fin n, entry (Frontier.start g).waiting v = waits g ∅ v := by
    intro v
    rw [waits, Finset.compl_empty, Fin.sum_univ_def]
    simp [Frontier.start]
  refine ⟨fun v => by simpa using hwaiting v, ?_, fun v => ?_, fun v hv => ?_⟩
  · exact (List.pairwise_lt_finRange n).filter _
  · simp [Frontier.start]
  · exact absurd hv (Finset.notMem_empty v)

/-- An edge that is still to be taken away is counted, so its target is not released. -/
theorem not_mem_done (h : Tracks g done (t :: ts) f) : t ∉ done := by
  intro ht
  have hpos := h.waiting t
  rw [h.settled t ht, List.count_cons_self] at hpos
  omega

/-- Taking one edge away. -/
theorem relieve (h : Tracks g done (t :: ts) f) : Tracks g done ts (f.relieve t) := by
  have ht := h.waiting t
  rw [List.count_cons_self] at ht
  have hne : ∀ v : Fin n, t ≠ v → entry f.waiting v = waits g done v + ts.count v := by
    intro v hv
    rw [h.waiting v, List.count_cons_of_ne hv]
  unfold Frontier.relieve
  split
  · omega
  · -- the last edge: the node becomes ready
    rename_i hone
    refine ⟨fun v => ?_, pairwise_insertRising h.rising, fun v => ?_, fun v hv => ?_⟩
    · rw [entry_withEntry]
      split
      · subst v; omega
      · exact hne v ‹_›
    · rw [mem_insertRising, entry_withEntry, h.ready v]
      by_cases hv : t = v
      · subst hv; simp [h.not_mem_done]
      · simp [hv, Ne.symm hv]
    · rw [entry_withEntry]
      split
      · rfl
      · exact h.settled v hv
  · rename_i k hk
    refine ⟨fun v => ?_, h.rising, fun v => ?_, fun v hv => ?_⟩
    · rw [entry_withEntry]
      split
      · subst v; omega
      · exact hne v ‹_›
    · rw [entry_withEntry, h.ready v]
      by_cases hv : t = v
      · subst hv; simp [hk]
      · simp [hv]
    · have hv' : t ≠ v := fun e => h.not_mem_done (e ▸ hv)
      rw [entry_withEntry, if_neg hv']
      exact h.settled v hv

theorem foldl_relieve (h : Tracks g done ts f) :
    Tracks g done [] (ts.foldl Frontier.relieve f) := by
  induction ts generalizing f with
  | nil => exact h
  | cons t ts ih => exact ih h.relieve

theorem source_mem (h : Tracks g done [] f) (hv : v ∈ f.ready) {u : Fin n} (he : g.Edge u v) :
    u ∈ done := by
  have hzero : waits g done v = 0 := by
    have := h.waiting v
    rw [((h.ready v).mp hv).2] at this
    simpa using this.symm
  exact waits_eq_zero_iff.mp hzero u he

/-- The node is ready if all its sources, but not itself, have been released. -/
theorem mem_ready (h : Tracks g done [] f) (hv : v ∉ done) (hs : ∀ u, g.Edge u v → u ∈ done) :
    v ∈ f.ready := by
  refine (h.ready v).mpr ⟨hv, ?_⟩
  rw [h.waiting v, waits_eq_zero_iff.mpr hs]
  simp

/-- The lowest ready node goes, and its edges are still to be taken away. -/
theorem take (h : Tracks g done [] f) (hr : f.ready = v :: rest) :
    Tracks g (insert v done) (g.targets v) ⟨f.waiting, rest⟩ := by
  have hv := (h.ready v).mp (hr ▸ List.mem_cons_self)
  have hrising := List.pairwise_cons.mp (hr ▸ h.rising)
  refine ⟨fun x => ?_, hrising.2, fun x => ?_, fun x hx => ?_⟩
  · rw [h.waiting x, waits_insert hv.1 x, List.count_nil]
    omega
  · have hx := h.ready x
    rw [hr, List.mem_cons] at hx
    rw [Finset.mem_insert, not_or, and_assoc, ← hx]
    constructor
    · exact fun hm => ⟨fun e => Fin.lt_irrefl v (e ▸ hrising.1 x hm), Or.inr hm⟩
    · exact fun ⟨hne, hm⟩ => hm.resolve_left hne
  · rcases Finset.mem_insert.mp hx with rfl | hx
    · exact hv.2
    · exact h.settled x hx

/-- One release: the lowest ready node goes, and its edges are taken away. -/
theorem release (h : Tracks g done [] f) (hr : f.ready = v :: rest) :
    Tracks g (insert v done) [] ((g.targets v).foldl Frontier.relieve ⟨f.waiting, rest⟩) :=
  (h.take hr).foldl_relieve

end Tracks

end Frontier

/-! ### All releases

From here on the invariant is only used between releases, with no edges left to take away. The
inductions follow the recursion of `drain`. -/

section

open Frontier

variable {done : Finset (Fin n)} {f : Frontier n}

/-- Each node is released when its turn comes. -/
theorem continues_drain (h : Tracks g done [] f) : Continues g done (drain g f) := by
  fun_induction drain g f generalizing done with
  | case1 => trivial
  | case2 f v rest hr ih =>
    have hv : v ∈ f.ready := hr ▸ List.mem_cons_self
    exact ⟨((h.ready v).mp hv).1, fun u he => h.source_mem hv he, ih (h.release hr)⟩

/-- A node that is never released has a source that is never released either. Going on from source
to source, one comes to a cycle. -/
theorem exists_source_of_not_mem_drain (h : Tracks g done [] f) {v : Fin n} (hv : v ∉ done)
    (hd : v ∉ drain g f) : ∃ u, g.Edge u v ∧ u ∉ done ∧ u ∉ drain g f := by
  fun_induction drain g f generalizing done with
  | case1 f hr =>
    by_contra hno
    push Not at hno
    have hsources : ∀ u, g.Edge u v → u ∈ done := by
      intro u he
      by_contra hu
      exact List.not_mem_nil (hno u he hu)
    have hready := h.mem_ready hv hsources
    rw [hr] at hready
    exact List.not_mem_nil hready
  | case2 f w rest hr ih =>
    rw [List.mem_cons, not_or] at hd
    have hv' : v ∉ insert w done := by simp [hd.1, hv]
    obtain ⟨u, he, hu, hud⟩ := ih (h.release hr) hv' hd.2
    rw [Finset.mem_insert, not_or] at hu
    exact ⟨u, he, hu.2, by simp [hu.1, hud]⟩

/-- No list of all remaining nodes, each released in its turn, comes before. Where the lists part,
the release has taken the lowest node that is ready, and the list has taken another ready one. -/
theorem drain_least (h : Tracks g done [] f) {l : List (Fin n)} (hl : Continues g done l)
    (hall : ∀ v, v ∉ done → v ∈ l) : drain g f = l ∨ List.Lex (· < ·) (drain g f) l := by
  fun_induction drain g f generalizing done l with
  | case1 =>
    cases l with
    | nil => exact Or.inl rfl
    | cons => exact Or.inr .nil
  | case2 f v rest hr ih =>
    have hv := (h.ready v).mp (hr ▸ List.mem_cons_self)
    cases l with
    | nil => exact absurd (hall v hv.1) List.not_mem_nil
    | cons w l =>
      obtain ⟨hw, hsources, hl⟩ := hl
      have hready := h.mem_ready hw hsources
      rw [hr, List.mem_cons] at hready
      rcases hready with rfl | hw
      · have hall' : ∀ x, x ∉ insert w done → x ∈ l := by
          intro x hx
          rw [Finset.mem_insert, not_or] at hx
          exact (List.mem_cons.mp (hall x hx.2)).resolve_left hx.1
        rcases ih (h.release hr) hl hall' with heq | hlt
        · exact Or.inl (congrArg _ heq)
        · exact Or.inr (.cons hlt)
      · exact Or.inr (.rel ((List.pairwise_cons.mp (hr ▸ h.rising)).1 w hw))

end

/-! ### The order of an acyclic graph -/

/-- A node is released if every walk from it against the edges ends. -/
theorem mem_order_of_acc {v : Fin n} (h : Acc g.Edge v) : v ∈ g.order := by
  induction h with
  | intro v _ ih =>
    by_contra hv
    obtain ⟨u, he, -, hu⟩ :=
      exists_source_of_not_mem_drain Frontier.Tracks.start (Finset.notMem_empty v) hv
    exact hu (ih u he)

/-- On an acyclic graph all nodes are released. A node that was left would have a source that was
left, and so on without end. -/
theorem mem_order (hg : g.Acyclic) (v : Fin n) : v ∈ g.order :=
  mem_order_of_acc (hg.wellFounded.apply v)

/-- On an acyclic graph the order of release is an order. -/
theorem isOrder_order (hg : g.Acyclic) : g.IsOrder g.order :=
  (continues_drain Frontier.Tracks.start).isOrder (mem_order hg)

/-- Every order is the order of release, or comes after it. The comparison is lexicographic, by the
numbers of the nodes. -/
theorem order_least {l : List (Fin n)} (hl : g.IsOrder l) :
    g.order = l ∨ List.Lex (· < ·) g.order l :=
  drain_least Frontier.Tracks.start hl.continues fun v _ => hl.mem v

end TypedPipeline.Graph
