import Mathlib.Data.List.Sort
import Mathlib.Order.Bounds.Basic
import TypedPipeline.Proofs.Graph.Layers

/-!
# Depths are lengths of walks

The depth of a node is the length of the longest walk that ends in it: a walk to a node is at most
as long as the node is deep, because edges lead to greater depths, and the source that makes a node
as deep as it is continues a walk of full length. It follows that no depth is left out, since the
walk to a deep node passes through a node of every smaller depth.

A table of depths that is filled in a single pass reads depths that have to be there already. The
pass is compared with one that leaves out what it does not know, to see that this never happens.

## Implementation notes

Walks are counted by their steps with an inductive predicate that grows at the end of the walk,
since the depth of a node is computed from its sources. The two halves of `isGreatest_depths` are an
induction on the walk and one on the depth.

On layers, the lists of the program leave out empty layers and keep their numbers. That the numbers
come out as `0, 1, 2, …` is therefore a statement about the depths: below a node of some depth there
is one of every smaller depth.

## Main definitions

* `EndsWalk` — a walk of some length along a relation ends in a node
* `Graph.knownDepths` — the pass that leaves out the sources of which it knows nothing

## Main results

* `Graph.isGreatest_depths` — the depth of a node is the length of the longest walk to it
* `Graph.map_fst_layers` — the layers are numbered without gaps
* `Graph.not_transGen_of_mem_layer` — no walk leads from a layer back to it
* `Graph.entry_knownDepths` — nothing is left out
-/

namespace TypedPipeline

/-! ### Walks that end in a node -/

/-- A walk of `k` steps along `r` ends in a node. -/
inductive EndsWalk {α : Type} (r : α → α → Prop) : Nat → α → Prop where
  | here (a : α) : EndsWalk r 0 a
  | step {k : Nat} {a b : α} (h : EndsWalk r k a) (hab : r a b) : EndsWalk r (k + 1) b

/-- A renaming of the nodes keeps the lengths of walks, if every node with a new name has a step
wherever its name has one. -/
theorem endsWalk_iff_of_related {α β : Type} {r : α → α → Prop} {q : β → β → Prop} {f : α → β}
    (hforth : ∀ a b, r a b → q (f a) (f b))
    (hback : ∀ x b, q x (f b) → ∃ a, f a = x ∧ r a b) {k : Nat} {a : α} :
    EndsWalk q k (f a) ↔ EndsWalk r k a := by
  constructor
  · intro h
    generalize hx : f a = x at h
    induction h generalizing a with
    | here _ => exact .here a
    | step _ hxy ih =>
      subst hx
      obtain ⟨b, rfl, hba⟩ := hback _ _ hxy
      exact .step (ih rfl) hba
  · intro h
    induction h with
    | here a => exact .here _
    | step _ hab ih => exact .step ih (hforth _ _ hab)

namespace Graph

variable {n : Nat} {g : Graph n} {order : List (Fin n)}

/-- A walk to a node is no longer than the node is deep. Each of its edges leads to a greater
depth. -/
theorem le_depths_of_endsWalk (h : g.IsOrder order) {k : Nat} {v : Fin n}
    (hw : EndsWalk g.Edge k v) : k ≤ entry (g.depths order) v := by
  induction hw with
  | here v => exact Nat.zero_le _
  | step _ huv ih => exact Nat.lt_of_le_of_lt ih (entry_depths_lt_of_edge h huv)

/-- A node that has a depth has it from a source that is one less deep. The greatest of finitely
many numbers is one of them. -/
theorem exists_source_of_depths (h : g.IsOrder order) {v : Fin n} {d : Nat}
    (hd : entry (g.depths order) v = d + 1) :
    ∃ u, g.Edge u v ∧ entry (g.depths order) u = d := by
  have hdeep : ¬ g.depthFrom (g.depths order) v ≤ d := by
    rw [← entry_depths h v]
    omega
  rw [depthFrom_le_iff] at hdeep
  push Not at hdeep
  obtain ⟨u, huv, hle⟩ := hdeep
  have hlt := entry_depths_lt_of_edge h huv
  exact ⟨u, huv, by omega⟩

/-- Some walk to a node is as long as the node is deep. It is found backwards, from a node to a
source of which it has its depth. -/
theorem endsWalk_depths (h : g.IsOrder order) (v : Fin n) :
    EndsWalk g.Edge (entry (g.depths order) v) v := by
  induction hd : entry (g.depths order) v generalizing v with
  | zero => exact .here v
  | succ d ih =>
    obtain ⟨u, huv, hu⟩ := exists_source_of_depths h hd
    exact .step (ih u hu) huv

/-- The depth of a node is the length of the longest walk to it. -/
theorem isGreatest_depths (h : g.IsOrder order) (v : Fin n) :
    IsGreatest {k | EndsWalk g.Edge k v} (entry (g.depths order) v) :=
  ⟨endsWalk_depths h v, fun _ hw => le_depths_of_endsWalk h hw⟩

/-- Walks lead to greater depths. In particular no walk leads back to where it began. -/
theorem depths_lt_of_transGen (h : g.IsOrder order) {u v : Fin n}
    (hw : Relation.TransGen g.Edge u v) :
    entry (g.depths order) u < entry (g.depths order) v := by
  induction hw with
  | single huv => exact entry_depths_lt_of_edge h huv
  | tail _ hvw ih => exact Nat.lt_trans ih (entry_depths_lt_of_edge h hvw)

/-- If a node has a depth, smaller depths have nodes too. They are met on a longest walk to the
node. -/
theorem exists_depths_eq (h : g.IsOrder order) {v : Fin n} {d : Nat}
    (hd : d ≤ entry (g.depths order) v) : ∃ u, entry (g.depths order) u = d := by
  induction hv : entry (g.depths order) v generalizing v with
  | zero => exact ⟨v, by omega⟩
  | succ k ih =>
    rcases Nat.lt_or_ge k d with hlt | hle
    · exact ⟨v, by omega⟩
    · obtain ⟨u, -, hu⟩ := exists_source_of_depths h hv
      exact ih (v := u) (by omega) hu

/-! ### Layers -/

/-- A rising list of numbers that leaves none out begins at zero and has no gaps. -/
theorem eq_range_of_rising {l : List Nat} (hrising : l.Pairwise (· < ·))
    (hfull : ∀ d ∈ l, ∀ k, k < d → k ∈ l) : l = List.range l.length := by
  have hnodup : l.Nodup := hrising.imp Nat.ne_of_lt
  have hmem : ∀ d, d ∈ l ↔ d < l.length := by
    intro d
    constructor
    · intro hd
      have hsub : List.range (d + 1) ⊆ l := by
        intro k hk
        rcases (Nat.lt_succ_iff.mp (List.mem_range.mp hk)).eq_or_lt with rfl | hlt
        · exact hd
        · exact hfull d hd k hlt
      have hle := (List.subperm_of_subset List.nodup_range hsub).length_le
      rwa [List.length_range] at hle
    · intro hd
      by_contra hnot
      have hsub : l ⊆ List.range d := by
        intro k hk
        rw [List.mem_range]
        by_contra hle
        rcases (Nat.not_lt.mp hle).eq_or_lt with rfl | hlt
        · exact hnot hk
        · exact hnot (hfull k hk d hlt)
      have hle := (List.subperm_of_subset hnodup hsub).length_le
      rw [List.length_range] at hle
      omega
  have hperm : l.Perm (List.range l.length) :=
    (List.perm_ext_iff_of_nodup hnodup List.nodup_range).mpr fun d => by rw [hmem, List.mem_range]
  exact hperm.eq_of_pairwise (fun _ _ _ _ hab hba => absurd hab hba.asymm) hrising
    List.pairwise_lt_range

theorem ne_nil_of_mem_layers {layer : Nat × List (Fin n)} (hl : layer ∈ g.layers order) :
    layer.2 ≠ [] := by
  obtain ⟨d, -, hlayer⟩ := List.mem_filterMap.mp hl
  split at hlayer
  · cases hlayer
  · rename_i hne
    cases hlayer
    exact hne

/-- The layers are numbered from zero and without gaps. -/
theorem map_fst_layers (h : g.IsOrder order) :
    (g.layers order).map Prod.fst = List.range (g.layers order).length := by
  have hrange := eq_range_of_rising (l := (g.layers order).map Prod.fst)
    (List.pairwise_map.mpr (layers_rising g order)) ?_
  · simpa using hrange
  · intro d hd k hk
    obtain ⟨layer, hl, rfl⟩ := List.mem_map.mp hd
    obtain ⟨v, hv⟩ := List.exists_mem_of_ne_nil _ (ne_nil_of_mem_layers hl)
    have hdepth := depth_of_mem_layer hl hv
    obtain ⟨u, hu⟩ := exists_depths_eq h (v := v) (d := k) (by omega)
    obtain ⟨layer', hl', hu'⟩ := exists_mem_layers h u
    exact List.mem_map.mpr ⟨layer', hl', (depth_of_mem_layer hl' hu').symm.trans hu⟩

/-- The place of a layer in the list is its number. A caller that has lost the numbers can read them
off the list. -/
theorem getElem?_layers_iff (h : g.IsOrder order) {i : Nat} {layer : List (Fin n)} :
    ((g.layers order).map Prod.snd)[i]? = some layer ↔ (i, layer) ∈ g.layers order := by
  have hnumber : ∀ j (hj : j < (g.layers order).length), ((g.layers order)[j]).1 = j := by
    intro j hj
    have hfst := congrArg (·[j]?) (map_fst_layers h)
    simpa [hj] using hfst
  constructor
  · intro hi
    rw [List.getElem?_map, Option.map_eq_some_iff] at hi
    obtain ⟨⟨d, layer'⟩, hget, rfl⟩ := hi
    obtain ⟨hlt, hget⟩ := List.getElem?_eq_some_iff.mp hget
    have hd := hnumber i hlt
    rw [hget] at hd
    dsimp only at hd
    subst hd
    exact hget ▸ List.getElem_mem hlt
  · intro hmem
    obtain ⟨j, hj, hget⟩ := List.getElem_of_mem hmem
    have hd := hnumber j hj
    rw [hget] at hd
    dsimp only at hd
    subst hd
    rw [List.getElem?_map, List.getElem?_eq_getElem hj, hget]
    rfl

/-- No walk leads from a node of a layer to a node of the same layer. -/
theorem not_transGen_of_mem_layer (h : g.IsOrder order) {layer : Nat × List (Fin n)}
    (hl : layer ∈ g.layers order) {u v : Fin n} (hu : u ∈ layer.2) (hv : v ∈ layer.2) :
    ¬ Relation.TransGen g.Edge u v := by
  intro hw
  have hlt := depths_lt_of_transGen h hw
  rw [depth_of_mem_layer hl hu, depth_of_mem_layer hl hv] at hlt
  exact Nat.lt_irrefl _ hlt

/-- The source of an edge is in a layer before that of its target. Layers are listed by rising
depth. -/
theorem mem_of_edge_of_layers (h : g.IsOrder order) {before after : List (Nat × List (Fin n))}
    {layer : Nat × List (Fin n)} (hcut : g.layers order = before ++ layer :: after) {u v : Fin n}
    (hv : v ∈ layer.2) (he : g.Edge u v) : u ∈ before.flatMap Prod.snd := by
  have hlayer : layer ∈ g.layers order := by simp [hcut]
  obtain ⟨source, hsource, hu⟩ := exists_mem_layers h u
  have hlt := entry_depths_lt_of_edge h he
  rw [depth_of_mem_layer hlayer hv, depth_of_mem_layer hsource hu] at hlt
  have hrising := layers_rising g order
  rw [hcut, List.pairwise_append, List.pairwise_cons] at hrising
  rw [hcut, List.mem_append, List.mem_cons] at hsource
  rcases hsource with hbefore | rfl | hafter
  · exact List.mem_flatMap.mpr ⟨source, hbefore, hu⟩
  · exact absurd hlt (Nat.lt_irrefl _)
  · exact absurd (hrising.2.1.1 source hafter) hlt.asymm

theorem sublist_of_mem_layers {layer : Nat × List (Fin n)} (hl : layer ∈ g.layers order) :
    layer.2.Sublist order := by
  rw [(mem_layers hl).2]
  exact List.filter_sublist

/-! ### What a pass knows

A table that begins with zeros cannot show that a source was missing. The pass below begins with
nothing at all and leaves out what is not there. That both come to the same depths is the statement
that along an order nothing is missing. -/

/-- The depth of a node by the depths that are known. A source of which nothing is known does not
count. -/
def knownDepthFrom (g : Graph n) (known : Vector (Option Nat) n) (v : Fin n) : Nat :=
  (((g.sources v).filterMap (entry known)).map (· + 1)).foldl max 0

/-- The depths of the nodes of an order, each from those before it. -/
def knownDepths (g : Graph n) (order : List (Fin n)) : Vector (Option Nat) n :=
  order.foldl (fun d (v : Fin n) => withEntry d v (some (g.knownDepthFrom d v)))
    (Vector.replicate n none)

/-- If the depths of all sources are known, none is left out. Then the depth is computed from all of
them. -/
theorem knownDepthFrom_eq {known : Vector (Option Nat) n} {depths : Vector Nat n} {v : Fin n}
    (h : ∀ u, g.Edge u v → entry known u = some (entry depths u)) :
    g.knownDepthFrom known v = g.depthFrom depths v := by
  have hsources : (g.sources v).filterMap (entry known) = (g.sources v).map (entry depths) := by
    rw [← List.filterMap_eq_map]
    exact List.filterMap_congr fun u hu => h u (by simpa [sources] using hu)
  rw [knownDepthFrom, depthFrom, hsources, List.map_map]
  rfl

/-- As a pass goes along an order, it knows the depths of the nodes behind it. -/
theorem entry_foldl_knownDepthFrom {done : Finset (Fin n)} {l : List (Fin n)}
    (h : Continues g done l) {known : Vector (Option Nat) n} {depths : Vector Nat n}
    (hknown : ∀ u ∈ done, entry known u = some (entry depths u)) :
    ∀ u, (u ∈ done ∨ u ∈ l) →
      entry (l.foldl (fun d (v : Fin n) => withEntry d v (some (g.knownDepthFrom d v))) known) u =
        some (entry (l.foldl (fun d (v : Fin n) => withEntry d v (g.depthFrom d v)) depths) u) := by
  induction l generalizing done known depths with
  | nil => simpa using hknown
  | cons v rest ih =>
    obtain ⟨-, hsources, hrest⟩ := h
    have hsame := knownDepthFrom_eq fun u huv => hknown u (hsources u huv)
    intro u hu
    rw [List.foldl_cons, List.foldl_cons]
    refine ih hrest (fun w hw => ?_) u ?_
    · rw [entry_withEntry, entry_withEntry, hsame]
      by_cases hvw : v = w
      · rw [if_pos hvw, if_pos hvw]
      · have hdone : w ∈ done := (Finset.mem_insert.mp hw).resolve_left (Ne.symm hvw)
        rw [if_neg hvw, if_neg hvw, hknown w hdone]
    · rcases hu with hu | hu
      · exact .inl (Finset.mem_insert_of_mem hu)
      · rcases List.mem_cons.mp hu with rfl | hu
        · exact .inl (Finset.mem_insert_self _ _)
        · exact .inr hu

/-- A pass along an order knows the depth of every source when it comes to a node. So it makes no
difference what stands in the table for nodes that have not been entered. -/
theorem entry_knownDepths (h : g.IsOrder order) (v : Fin n) :
    entry (g.knownDepths order) v = some (entry (g.depths order) v) :=
  entry_foldl_knownDepthFrom h.continues (by simp) v (.inr (h.mem v))

end Graph

end TypedPipeline
