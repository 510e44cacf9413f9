import TypedPipeline.Graph.Layers
import TypedPipeline.Proofs.Graph.Order

/-!
# Layer after layer

The table of depths is filled along an order, and a node is entered after its sources have been; so
once it is full, each node has the depth that the table itself gives it. Edges then lead from lower
to higher depths, and to go through the layers one after the other is to follow an order, whatever
is done first within a layer.

## Implementation notes

The table is a fold over the order, and its final entries are described by an equation between them:
`entry_depths` says that the depth of a node is computed from the depths of its sources in the same
table. Everything else follows from this equation, without looking at the fold again. It holds
because a node is entered once and its sources are not changed after it; the induction is on
`Graph.Continues`, which says just that.

That a layer may be gone through in any order is stated with lists that are permutations of the
layers one by one (`Layered`). This is what a caller does that executes the nodes of a layer side by
side and waits before the next one.

## Main results

* `Graph.entry_depths` — the table of depths agrees with itself
* `Graph.entry_depths_lt_of_edge`, `Graph.entry_depths_lt` — depths rise, and stay below `n`
* `Graph.isOrder_flatten` — the layers one after the other are an order
-/

namespace TypedPipeline.Graph

variable {n : Nat} {g : Graph n} {order : List (Fin n)}

/-! ### The table of depths -/

theorem foldl_max_le_iff {l : List Nat} {k b : Nat} :
    l.foldl max k ≤ b ↔ k ≤ b ∧ ∀ a ∈ l, a ≤ b := by
  induction l generalizing k with
  | nil => simp
  | cons a l ih =>
    rw [List.foldl_cons, ih, List.forall_mem_cons, Nat.max_le, and_assoc]

/-- A node is no deeper than `b` if its sources are all above `b`. A node without sources has the
depth zero. -/
theorem depthFrom_le_iff {depths : Vector Nat n} {v : Fin n} {b : Nat} :
    g.depthFrom depths v ≤ b ↔ ∀ u, g.Edge u v → entry depths u < b := by
  rw [depthFrom, foldl_max_le_iff, List.forall_mem_map]
  simp only [sources, Nat.zero_le, true_and, List.mem_filter, List.mem_finRange, decide_eq_true_eq]
  exact forall₂_congr fun u _ => Nat.succ_le_iff

/-- The depth of a node depends on its sources alone. What stands in the table for other nodes does
not matter. -/
theorem depthFrom_congr {d d' : Vector Nat n} {v : Fin n}
    (h : ∀ u, g.Edge u v → entry d u = entry d' u) : g.depthFrom d v = g.depthFrom d' v := by
  have hmap : (g.sources v).map (fun u => entry d u + 1) =
      (g.sources v).map fun u => entry d' u + 1 := by
    refine List.map_congr_left fun u hu => ?_
    rw [h u (by simpa [sources] using hu)]
  rw [depthFrom, depthFrom, hmap]

/-- Once all nodes of a list are entered, each has the depth that the table gives it. Other nodes
keep theirs, which is what the induction needs of the nodes entered before. -/
theorem entry_foldl_depthFrom {done : Finset (Fin n)} {l : List (Fin n)} (h : Continues g done l)
    (d : Vector Nat n) :
    let full := l.foldl (fun d (v : Fin n) => withEntry d v (g.depthFrom d v)) d
    (∀ v ∈ l, entry full v = g.depthFrom full v) ∧ ∀ v, v ∉ l → entry full v = entry d v := by
  induction l generalizing done d with
  | nil => simp
  | cons v rest ih =>
    obtain ⟨hv, hsources, hrest⟩ := h
    have hlast : v ∉ rest := fun hm => hrest.not_mem_done hm (Finset.mem_insert_self v done)
    obtain ⟨hentered, hkept⟩ := ih hrest (withEntry d v (g.depthFrom d v))
    dsimp only at hentered hkept ⊢
    rw [List.foldl_cons]
    generalize hfull : rest.foldl (fun d (v : Fin n) => withEntry d v (g.depthFrom d v))
      (withEntry d v (g.depthFrom d v)) = full at hentered hkept ⊢
    refine ⟨fun u hu => ?_, fun u hu => ?_⟩
    · rcases List.mem_cons.mp hu with rfl | hu
      · have hsame : ∀ x, g.Edge x u → entry full x = entry d x := by
          intro x hx
          have hdone := hsources x hx
          have hne : u ≠ x := fun e => hv (e ▸ hdone)
          have hnot : x ∉ rest := fun hm =>
            hrest.not_mem_done hm (Finset.mem_insert_of_mem hdone)
          rw [hkept x hnot, entry_withEntry, if_neg hne]
        rw [hkept u hlast, entry_withEntry, if_pos rfl, depthFrom_congr hsame]
      · exact hentered u hu
    · obtain ⟨hne, hnot⟩ := not_or.mp (List.mem_cons.not.mp hu)
      rw [hkept u hnot, entry_withEntry, if_neg (Ne.symm hne)]

/-- A full table of depths agrees with itself. This equation determines the table, since a node is
entered behind its sources. -/
theorem entry_depths (h : g.IsOrder order) (v : Fin n) :
    entry (g.depths order) v = g.depthFrom (g.depths order) v :=
  (entry_foldl_depthFrom h.continues (.replicate n 0)).1 v (h.mem v)

/-- Edges lead to greater depths. -/
theorem entry_depths_lt_of_edge (h : g.IsOrder order) {u v : Fin n} (he : g.Edge u v) :
    entry (g.depths order) u < entry (g.depths order) v :=
  depthFrom_le_iff.mp (entry_depths h v).symm.le u he

/-- A node is no deeper than its place in the order. All that it reads from stands before it. -/
theorem entry_depths_le_idxOf (h : g.IsOrder order) (v : Fin n) :
    entry (g.depths order) v ≤ order.idxOf v := by
  induction hplace : order.idxOf v using Nat.strong_induction_on generalizing v with
  | h place ih =>
    rw [entry_depths h v, depthFrom_le_iff]
    intro u he
    have hlt := h.before u v he
    have hu := ih _ (hplace ▸ hlt) u rfl
    omega

theorem entry_depths_lt (h : g.IsOrder order) (v : Fin n) : entry (g.depths order) v < n := by
  have hplace : order.idxOf v < order.length := List.idxOf_lt_length_of_mem (h.mem v)
  have hlength : order.length = n := by simpa using h.perm.length_eq
  have hle := entry_depths_le_idxOf h v
  omega

/-! ### The layers -/

theorem mem_layers {layer : Nat × List (Fin n)} (hl : layer ∈ g.layers order) :
    layer.1 < n ∧ layer.2 = order.filter fun v => entry (g.depths order) v == layer.1 := by
  obtain ⟨d, hd, hlayer⟩ := List.mem_filterMap.mp hl
  split at hlayer
  · cases hlayer
  · cases hlayer
    exact ⟨List.mem_range.mp hd, rfl⟩

theorem depth_of_mem_layer {layer : Nat × List (Fin n)} (hl : layer ∈ g.layers order) {v : Fin n}
    (hv : v ∈ layer.2) : entry (g.depths order) v = layer.1 := by
  rw [(mem_layers hl).2] at hv
  simpa using (List.mem_filter.mp hv).2

theorem exists_mem_layers (h : g.IsOrder order) (v : Fin n) :
    ∃ layer ∈ g.layers order, v ∈ layer.2 := by
  have hv : v ∈ order.filter fun u => entry (g.depths order) u == entry (g.depths order) v := by
    simp [h.mem v]
  refine ⟨(entry (g.depths order) v, _), List.mem_filterMap.mpr
    ⟨_, List.mem_range.mpr (entry_depths_lt h v), ?_⟩, hv⟩
  split
  · rename_i hnil
    rw [hnil] at hv
    cases hv
  · rfl

theorem layers_rising (g : Graph n) (order : List (Fin n)) :
    (g.layers order).Pairwise fun a b => a.1 < b.1 := by
  refine List.Pairwise.filterMap _ (fun d d' hlt a ha b hb => ?_) List.pairwise_lt_range
  have hfirst : a.1 = d := by
    split at ha <;> cases ha
    rfl
  have hsecond : b.1 = d' := by
    split at hb <;> cases hb
    rfl
  omega

/-- Lists of nodes, each with the nodes of a layer in any order. -/
abbrev Layered (g : Graph n) (order : List (Fin n)) (ls : List (List (Fin n))) : Prop :=
  List.Forall₂ (fun l layer => l.Perm layer.2) ls (g.layers order)

variable {ls : List (List (Fin n))}

/-- Layer after layer, depths do not fall. -/
theorem Layered.pairwise (hls : g.Layered order ls) :
    ls.flatten.Pairwise fun u v => entry (g.depths order) u ≤ entry (g.depths order) v := by
  suffices hgen : ∀ layers : List (Nat × List (Fin n)),
      (∀ layer ∈ layers, ∀ v ∈ layer.2, entry (g.depths order) v = layer.1) →
      layers.Pairwise (fun a b => a.1 < b.1) →
      List.Forall₂ (fun l layer => l.Perm layer.2) ls layers →
      ls.flatten.Pairwise fun u v => entry (g.depths order) u ≤ entry (g.depths order) v from
    hgen _ (fun _ hl _ => depth_of_mem_layer hl) (layers_rising g order) hls
  clear hls
  intro layers hdepth hrising hls
  induction hls with
  | nil => exact List.Pairwise.nil
  | @cons l layer ls layers hl hls ih =>
    obtain ⟨hfirst, hrising⟩ := List.pairwise_cons.mp hrising
    obtain ⟨hlayer, hlayers⟩ := List.forall_mem_cons.mp hdepth
    have hl' : ∀ v ∈ l, entry (g.depths order) v = layer.1 := by
      intro v hv
      exact hlayer v (hl.mem_iff.mp hv)
    rw [List.flatten_cons, List.pairwise_append]
    refine ⟨List.pairwise_of_forall_mem_list fun u hu v hv => ?_, ih hlayers hrising,
      fun u hu v hv => ?_⟩
    · rw [hl' u hu, hl' v hv]
    · obtain ⟨l', hl'mem, hv⟩ := List.mem_flatten.mp hv
      obtain ⟨i, hi, rfl⟩ := List.getElem_of_mem hl'mem
      have hi' : i < layers.length := hls.length_eq ▸ hi
      have hmem := (List.Forall₂.get hls hi hi').mem_iff.mp hv
      rw [hl' u hu, hlayers layers[i] (List.getElem_mem hi') v hmem]
      exact (hfirst layers[i] (List.getElem_mem hi')).le

/-- Layer after layer, every node occurs once. -/
theorem Layered.perm (h : g.IsOrder order) (hls : g.Layered order ls) :
    ls.flatten.Perm (List.finRange n) := by
  have hflat : ls.flatten.Perm ((g.layers order).map Prod.snd).flatten :=
    List.Perm.flatten_congr (List.forall₂_map_right_iff.mpr hls)
  refine hflat.trans ((List.perm_ext_iff_of_nodup ?_ (List.nodup_finRange n)).mpr fun v => ?_)
  · rw [List.nodup_flatten, List.pairwise_map]
    refine ⟨fun l hl => ?_, ?_⟩
    · obtain ⟨layer, hlayer, rfl⟩ := List.mem_map.mp hl
      rw [(mem_layers hlayer).2]
      exact h.nodup.filter _
    · refine (layers_rising g order).imp_of_mem fun ha hb hlt v hva hvb => ?_
      rw [← depth_of_mem_layer ha hva, ← depth_of_mem_layer hb hvb] at hlt
      exact Nat.lt_irrefl _ hlt
  · obtain ⟨layer, hlayer, hv⟩ := exists_mem_layers h v
    simp only [List.mem_finRange, iff_true]
    exact List.mem_flatten.mpr ⟨layer.2, List.mem_map.mpr ⟨layer, hlayer, rfl⟩, hv⟩

/-- The layers one after the other are an order, whatever is done first within a layer. Depths rise
along edges, so an edge never leads within a layer or back to an earlier one. -/
theorem isOrder_flatten (h : g.IsOrder order) (hls : g.Layered order ls) :
    g.IsOrder ls.flatten where
  perm := hls.perm h
  before u v he := by
    have hperm := hls.perm h
    have hu : u ∈ ls.flatten := hperm.mem_iff.mpr (List.mem_finRange u)
    have hv : v ∈ ls.flatten := hperm.mem_iff.mpr (List.mem_finRange v)
    have hlt := entry_depths_lt_of_edge h he
    by_contra hnot
    rcases (Nat.not_lt.mp hnot).eq_or_lt with heq | hbefore
    · have huv : v = u := (List.idxOf_inj hv).mp heq
      rw [huv] at hlt
      exact Nat.lt_irrefl _ hlt
    · have hle := List.pairwise_iff_getElem.mp hls.pairwise _ _
        (List.idxOf_lt_length_of_mem hv) (List.idxOf_lt_length_of_mem hu) hbefore
      rw [List.getElem_idxOf, List.getElem_idxOf] at hle
      omega

end TypedPipeline.Graph
