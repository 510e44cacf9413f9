import TypedPipeline.Proofs.Graph.Cycle
import TypedPipeline.Proofs.Graph.Order

/-!
# What is released of any graph

The release of nodes does not ask whether the graph has cycles. On a graph that has some, it stops
before the nodes on them and before whatever comes after these, and releases everything else. This
is said here of all graphs, so that the two ways to find a cycle can be compared: the search reports
none exactly if the release leaves nothing behind.

A counter is a natural number, and taking an edge away from a node that waits for none would change
nothing instead of failing. So that this is not mistaken for a correct count, the release is taken
apart into rounds, and in each of them the counter is shown to go down by one.

## Implementation notes

A round does one thing: it takes one edge away, or releases one node. The invariant of the order of
execution is stated between these already, so nothing has to be proved again; a round is the
invariant with the edges of the node released last as its parameter.

The description of what is left behind goes over accessibility. A node is released if every walk
from it against the edges ends, and from a released node every such walk ends, because sources come
before it in a finite list. On a finite graph walks end exactly where they do not come round, which
is `Clear`.

What is said here of graphs with cycles goes further than the pipelines need: of those, only the
ones without cycles are executed.

## Main definitions

* `Graph.Clear` — a node to which no walk leads from a node on a cycle
* `Graph.Release`, `Graph.Release.next` — the release between two rounds, and one round

## Main results

* `Graph.Release.tracks_of_leadsTo` — what holds in every round
* `Graph.mem_order_iff` — which nodes are released
* `Graph.release_rounds` — all rounds of a release, and what comes of them
-/

namespace TypedPipeline.Graph

variable {n : Nat} {g : Graph n}

/-! ### Rounds -/

/-- The release between two rounds. The nodes released so far are kept, so that a round can be
compared with the final order. -/
structure Release (n : Nat) where
  /-- The nodes that have been released, in their order. -/
  released : List (Fin n)
  /-- The targets of the edges that are still to be taken away. -/
  due : List (Fin n)
  frontier : Frontier n

namespace Release

/-- The round before anything has been released. -/
def start (g : Graph n) : Release n := ⟨[], [], .start g⟩

/-- In a round, an edge is taken away or the lowest ready node is released. There is no round after
that if no node is ready. -/
def next (g : Graph n) : Release n → Option (Release n)
  | ⟨released, t :: due, f⟩ => some ⟨released, due, f.relieve t⟩
  | ⟨released, [], f⟩ =>
    match f.ready with
    | [] => none
    | v :: rest => some ⟨released ++ [v], g.targets v, ⟨f.waiting, rest⟩⟩

/-- The second round comes some time after the first one, or is the same. -/
def LeadsTo (g : Graph n) : Release n → Release n → Prop :=
  Relation.ReflTransGen fun r r' => r.next g = some r'

/-- The edges of one node are taken away one after the other. -/
theorem leadsTo_foldl_relieve (released due : List (Fin n)) (f : Frontier n) :
    LeadsTo g ⟨released, due, f⟩ ⟨released, [], due.foldl Frontier.relieve f⟩ := by
  induction due generalizing f with
  | nil => exact .refl
  | cons t due ih => exact .head rfl (ih (f.relieve t))

/-- The rounds end, and the nodes that have been released are those of the whole release. The rounds
have one successor each, so this is where they lead, and not only where they can lead. -/
theorem leadsTo_drain (released : List (Fin n)) (f : Frontier n) :
    ∃ r, LeadsTo g ⟨released, [], f⟩ r ∧ r.next g = none ∧
      r.released = released ++ Frontier.drain g f := by
  fun_induction Frontier.drain g f generalizing released with
  | case1 f hr => exact ⟨_, .refl, by simp only [next, hr], by simp⟩
  | case2 f v rest hr ih =>
    obtain ⟨r, hlead, hend, hreleased⟩ := ih (released ++ [v])
    have htake : next g ⟨released, [], f⟩ =
        some ⟨released ++ [v], g.targets v, ⟨f.waiting, rest⟩⟩ := by
      simp only [next, hr]
    refine ⟨r, .head htake ((leadsTo_foldl_relieve _ _ _).trans hlead), hend, ?_⟩
    rw [hreleased, List.append_assoc, List.singleton_append]

/-- What the counters and the ready nodes say in a round. -/
def Tracks (g : Graph n) (r : Release n) : Prop :=
  Frontier.Tracks g r.released.toFinset r.due r.frontier

/-- One round. -/
theorem Tracks.next {r r' : Release n} (h : r.Tracks g) (hr : r.next g = some r') :
    r'.Tracks g := by
  obtain ⟨released, due, f⟩ := r
  cases due with
  | cons t due =>
    cases hr
    exact Frontier.Tracks.relieve h
  | nil =>
    cases hready : f.ready with
    | nil => simp [Release.next, hready] at hr
    | cons v rest =>
      simp only [Release.next, hready, Option.some.injEq] at hr
      subst hr
      have hset : insert v released.toFinset = (released ++ [v]).toFinset := by
        ext u
        simp
      have htake := Frontier.Tracks.take h hready
      rwa [hset] at htake

/-- All rounds from the beginning. -/
theorem tracks_of_leadsTo {r : Release n} (hr : (start g).LeadsTo g r) : r.Tracks g := by
  induction hr with
  | refl => exact Frontier.Tracks.start
  | tail _ hr ih => exact ih.next hr

end Release

/-- An edge that is still to be taken away has been counted, and the counter goes down by one. -/
theorem Frontier.Tracks.waiting_relieve {done : Finset (Fin n)} {t : Fin n} {ts : List (Fin n)}
    {f : Frontier n} (h : Frontier.Tracks g done (t :: ts) f) :
    0 < entry f.waiting t ∧ entry (f.relieve t).waiting t + 1 = entry f.waiting t := by
  have hbefore := h.waiting t
  have hafter := h.relieve.waiting t
  rw [List.count_cons_self] at hbefore
  omega

/-! ### What is released -/

/-- No walk leads to the node from a node on a cycle, and it is on none itself. The walk may have no
steps at all, which is the second half of the sentence. -/
def Clear (g : Graph n) (v : Fin n) : Prop :=
  ∀ u, Relation.ReflTransGen g.Edge u v → ¬ Relation.TransGen g.Edge u u

/-- Against the edges, every walk from a clear node ends. -/
theorem Clear.acc {v : Fin n} (h : g.Clear v) : Acc g.Edge v := by
  -- Walks that can be continued to `v` cannot return.
  let r : Fin n → Fin n → Prop := fun a b =>
    Relation.TransGen g.Edge a b ∧ Relation.ReflTransGen g.Edge b v
  have : IsTrans (Fin n) r := ⟨fun a b c hab hbc => ⟨hab.1.trans hbc.1, hbc.2⟩⟩
  have : Std.Irrefl r := ⟨fun a ha => h a ha.2 ha.1⟩
  have hwf : WellFounded r := Finite.wellFounded_of_trans_of_irrefl r
  have hall : ∀ b, Relation.ReflTransGen g.Edge b v → Acc g.Edge b := by
    intro b
    induction b using hwf.induction with
    | _ b ih => exact fun hb => .intro b fun a hab => ih a ⟨.single hab, hb⟩ (.head hab hb)
  exact hall v .refl

/-- A released node comes after the nodes from which walks lead to it. -/
theorem idxOf_order_lt {u v : Fin n} (h : Relation.TransGen g.Edge u v) (hv : v ∈ g.order) :
    u ∈ g.order ∧ g.order.idxOf u < g.order.idxOf v := by
  have hedge : ∀ u v, g.Edge u v → v ∈ g.order →
      u ∈ g.order ∧ g.order.idxOf u < g.order.idxOf v := by
    intro u v he hv
    have hlt := ((continues_drain Frontier.Tracks.start).before he hv).resolve_left
      (Finset.notMem_empty u)
    exact ⟨List.idxOf_lt_length_iff.mp (hlt.trans (List.idxOf_lt_length_of_mem hv)), hlt⟩
  induction h with
  | single he => exact hedge _ _ he hv
  | tail _ he ih =>
    obtain ⟨hw, hlt⟩ := hedge _ _ he hv
    exact ⟨(ih hw).1, (ih hw).2.trans hlt⟩

/-- Exactly the clear nodes are released. The others wait for ever, for each has a source that waits
as well. -/
theorem mem_order_iff {v : Fin n} : v ∈ g.order ↔ g.Clear v := by
  refine ⟨fun hv u huv huu => ?_, fun h => mem_order_of_acc h.acc⟩
  have hu : u ∈ g.order := by
    rcases Relation.reflTransGen_iff_eq_or_transGen.mp huv with rfl | huv
    · exact hv
    · exact (idxOf_order_lt huv hv).1
  exact Nat.lt_irrefl _ (idxOf_order_lt huu hu).2

/-- All nodes are clear exactly if there is no cycle. A node is clear if no cycle leads to it. -/
theorem forall_clear_iff : (∀ v, g.Clear v) ↔ g.Acyclic :=
  ⟨fun h v => h v v .refl, fun h _ u _ => h u⟩

theorem nodup_order : g.order.Nodup := (continues_drain Frontier.Tracks.start).nodup

/-- As many nodes are released as there are exactly if there is no cycle. -/
theorem length_order_eq_iff : g.order.length = n ↔ g.Acyclic := by
  constructor
  · intro hlength
    refine forall_clear_iff.mp fun v => mem_order_iff.mp ?_
    have hsub : g.order.Subperm (List.finRange n) :=
      List.subperm_of_subset nodup_order fun u _ => List.mem_finRange u
    have hperm := hsub.perm_of_length_le (by rw [hlength, List.length_finRange])
    exact hperm.mem_iff.mpr (List.mem_finRange v)
  · intro hg
    rw [(isOrder_order hg).perm.length_eq, List.length_finRange]

/-- The rounds of a release end, with the order. In every round in which an edge is taken away, its
target waits for an edge, and then waits for one less. Exactly those nodes are released that are on
no cycle and to which no walk leads from one, each of them once, and after the nodes from which an
edge leads to it. All nodes are released exactly if the search for a cycle reports none. -/
theorem release_rounds (g : Graph n) :
    (∃ r, (Release.start g).LeadsTo g r ∧ r.next g = none ∧ r.released = g.order) ∧
      (∀ r : Release n, (Release.start g).LeadsTo g r → ∀ t due, r.due = t :: due →
        0 < entry r.frontier.waiting t ∧
          entry (r.frontier.relieve t).waiting t + 1 = entry r.frontier.waiting t) ∧
      (∀ v, v ∈ g.order ↔
        ∀ u, Relation.ReflTransGen g.Edge u v → ¬ Relation.TransGen g.Edge u u) ∧
      g.order.Nodup ∧
      (∀ u v, g.Edge u v → v ∈ g.order → u ∈ g.order ∧ g.order.idxOf u < g.order.idxOf v) ∧
      (g.order.length = n ↔ g.findCycle? = none) := by
  refine ⟨?_, fun r hr t due hdue => ?_, fun v => mem_order_iff, nodup_order,
    fun u v he hv => idxOf_order_lt (.single he) hv, ?_⟩
  · obtain ⟨r, hlead, hend, hreleased⟩ := Release.leadsTo_drain (g := g) [] (.start g)
    exact ⟨r, hlead, hend, hreleased⟩
  · have htracks := Release.tracks_of_leadsTo hr
    rw [Release.Tracks, hdue] at htracks
    exact htracks.waiting_relieve
  · rw [length_order_eq_iff, findCycle?_eq_none_iff]

end TypedPipeline.Graph
