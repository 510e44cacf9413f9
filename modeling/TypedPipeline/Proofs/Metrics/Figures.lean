import TypedPipeline.Proofs.Metrics.History

/-!
# What the figures of a collector tell

The figures tell which timers have ended since the latest run began: for each component how many, in
which way, which way was the latest, and its kind. Each timer is counted once, when it ends. But it
is counted in the run that is the latest when it ends, and not in the run in which it was started.
So if runs overlap, timers of an earlier run are counted among those of the latest.

## What is a run here

A collector holds the figures of one run, and a history may begin a run while timers of another
still go on. `since` lists what has ended since the latest run began, wherever it was started, and
the figures are those of this list. `own` and `stray` divide it by where the timers were started. In
a history where every timer ends before the next run begins there are no stray ones, and the figures
are what their run id says. In others they are not, and `figure_eq_own_add_stray` says by how much.

## Implementation notes

`Tells` relates figures to a list of timers and is a statement about the counts, the last outcome
and the kind at once. It is kept by one more timer (`Tells.record`), at the level of a component and
at that of a snapshot. What a call does to the figures is one lemma (`adds_of_call`); the run lemma
`tells_since` is an induction on the history with it.

Times are not described. They are sums of floats that depend on the order in which executions end.

## Main definitions

* `Collector.begun`, `Collector.since` — when the latest run began, and what has ended since
* `Collector.own`, `Collector.stray` — the timers among these that were started in the latest run,
  and those that were started before
* `Snapshot.Tells` — figures that tell of a list of timers

## Main results

* `Collector.adds_of_call` — what a call adds to the figures
* `Collector.tells_since` — the figures tell what has ended since the latest run began
* `Collector.counts_each_timer_once` — the account of a history
* `Collector.figure_eq_own_add_stray` — how the figures of overlapping runs mix
-/

namespace TypedPipeline

open Collector (Ended)

/-! ### Figures and timers -/

namespace ComponentMetrics

/-- The number of executions that ended in one way. -/
def figure (m : ComponentMetrics) : Outcome → Nat
  | .succeeded => m.succeeded
  | .failed => m.failed

/-- The figures of a component tell of timers, the latest first. -/
structure Tells (m : ComponentMetrics) (l : List Ended) : Prop where
  figure : ∀ o, m.figure o = l.countP fun e => e.outcome = o
  last : m.last = l.head?.map (·.outcome)
  /-- The kind of the first timer that has any. -/
  kind : m.kind = ((l.reverse.map (·.kind)).find? fun kind => !kind.isEmpty).getD ""

variable {m : ComponentMetrics} {l : List Ended}

theorem tells_nil : ({} : ComponentMetrics).Tells [] where
  figure o := by cases o <;> rfl
  last := rfl
  kind := rfl

theorem figure_record (m : ComponentMetrics) (kind : String) (outcome : Outcome) (ms : Binary64)
    (o : Outcome) :
    ((m.withKind kind).record outcome ms).figure o =
      m.figure o + if outcome = o then 1 else 0 := by
  have hkept : (m.withKind kind).figure o = m.figure o := by
    rw [withKind]
    split <;> rfl
  rw [← hkept]
  cases o <;> rfl

/-- One timer more. -/
theorem Tells.record (h : m.Tells l) (e : Ended) (ms : Binary64) :
    ((m.withKind e.kind).record e.outcome ms).Tells (e :: l) where
  figure o := by
    rw [figure_record, h.figure, List.countP_cons]
    simp
  last := rfl
  kind := by
    have hkind : ((m.withKind e.kind).record e.outcome ms).kind =
        if m.kind.isEmpty then e.kind else m.kind := by
      rw [ComponentMetrics.record, withKind]
      split <;> rfl
    rw [hkind, h.kind, List.reverse_cons, List.map_append, List.find?_append]
    cases hfound : (l.reverse.map (·.kind)).find? fun kind => !kind.isEmpty with
    | some kind =>
      have hsome : kind.isEmpty = false := by simpa using List.find?_some hfound
      simp [hsome]
    | none =>
      by_cases hempty : e.kind = ""
      · simp [hempty]
      · simp [hempty]

end ComponentMetrics

namespace Snapshot

/-- The figures of a component. -/
def metrics (s : Snapshot) (component : String) : ComponentMetrics :=
  (s.components.find? component).getD {}

/-- Figures tell of timers, the latest first. -/
structure Tells (s : Snapshot) (l : List Ended) : Prop where
  metrics : ∀ component, (s.metrics component).Tells (l.filter fun e => e.component = component)
  listed : ∀ component, (s.components.find? component).isSome ↔ ∃ e ∈ l, e.component = component
  count : ∀ o, s.count o = l.countP fun e => e.outcome = o

variable {s : Snapshot} {l : List Ended}

theorem metrics_record (s : Snapshot) (component kind : String) (outcome : Outcome) (ms : Binary64)
    (other : String) :
    (s.record component kind outcome ms).metrics other =
      if other = component then ((s.metrics component).withKind kind).record outcome ms
      else s.metrics other := by
  by_cases hother : other = component
  · simp [metrics, Snapshot.record, hother]
  · simp [metrics, Snapshot.record, hother]

/-- The executions of a component, and those of the others. A recorded execution changes the first
part only. -/
theorem count_eq (s : Snapshot) (component : String) (o : Outcome) :
    s.count o = (s.metrics component).figure o +
      ((s.components.erase component).values.map fun m => m.figure o).sum := by
  have hcount : s.count o = (s.components.values.map fun m => m.figure o).sum := by
    cases o <;> rfl
  rw [hcount, metrics]
  cases hm : s.components.find? component with
  | none =>
    have hzero : ({} : ComponentMetrics).figure o = 0 := by cases o <;> rfl
    rw [SortedMap.erase_of_find?_eq_none hm, Option.getD_none, hzero, Nat.zero_add]
  | some m =>
    have hperm := (SortedMap.values_perm hm).map fun m => m.figure o
    rw [hperm.sum_nat, List.map_cons, List.sum_cons, Option.getD_some]

theorem count_record (s : Snapshot) (component kind : String) (outcome : Outcome) (ms : Binary64)
    (o : Outcome) :
    (s.record component kind outcome ms).count o = s.count o + if outcome = o then 1 else 0 := by
  have hothers : (s.record component kind outcome ms).components.erase component =
      s.components.erase component := SortedMap.erase_insert ..
  rw [count_eq _ component, count_eq s component, hothers, metrics_record, if_pos rfl,
    ComponentMetrics.figure_record]
  omega

theorem tells_nil (runId : Option String) (totalMs : Binary64) :
    (Snapshot.mk runId .empty totalMs).Tells [] where
  metrics _ := ComponentMetrics.tells_nil
  listed component := by simp
  count o := by cases o <;> rfl

/-- One timer more. -/
theorem Tells.record (h : s.Tells l) (e : Ended) (ms : Binary64) :
    (s.record e.component e.kind e.outcome ms).Tells (e :: l) where
  metrics component := by
    rw [metrics_record]
    by_cases hc : component = e.component
    · subst hc
      rw [if_pos rfl, List.filter_cons_of_pos (by simp)]
      exact (h.metrics e.component).record e ms
    · rw [if_neg hc, List.filter_cons_of_neg (by simpa using Ne.symm hc)]
      exact h.metrics component
  listed component := by
    by_cases hc : component = e.component
    · simp [Snapshot.record, hc]
    · simp [Snapshot.record, hc, Ne.symm hc, h.listed]
  count o := by
    rw [count_record, h.count, List.countP_cons]
    simp

/-- Figures with an execution added, if a timer has ended. -/
def Adds (s s' : Snapshot) : Option Ended → Prop
  | none => s'.runId = s.runId ∧ s'.components = s.components
  | some e => ∃ ms, s' = s.record e.component e.kind e.outcome ms

variable {s' : Snapshot} {ended? : Option Ended}

theorem Adds.runId (h : s.Adds s' ended?) : s'.runId = s.runId := by
  cases ended? with
  | none => exact h.1
  | some e =>
    obtain ⟨ms, rfl⟩ := h
    rfl

theorem Tells.of_adds (h : s.Tells l) (hadds : s.Adds s' ended?) :
    s'.Tells (ended?.toList ++ l) := by
  cases ended? with
  | none =>
    obtain ⟨-, hcomponents⟩ := hadds
    have hmetrics : s'.metrics = s.metrics := by
      funext component
      rw [Snapshot.metrics, Snapshot.metrics, hcomponents]
    refine ⟨fun component => ?_, fun component => ?_, fun o => ?_⟩
    · rw [hmetrics]
      exact h.metrics component
    · rw [hcomponents]
      exact h.listed component
    · rw [Snapshot.count, hcomponents]
      exact h.count o
  | some e =>
    obtain ⟨ms, rfl⟩ := hadds
    exact h.record e ms

end Snapshot

namespace Timer

variable {t : Timer} {d : Duration} {s : Snapshot}

/-- A timer that has been counted is not counted again when it is let go. -/
theorem drop_of_finished (h : t.finished = true) : t.drop d s = s := if_pos h

theorem finish_eq (t : Timer) (outcome : Outcome) (d : Duration) (s : Snapshot) :
    t.finish outcome d s = s.record t.component t.kind outcome d.milliseconds :=
  drop_of_finished rfl

theorem drop_eq_finish (h : t.finished = false) : t.drop d s = t.finish .failed d s := by
  rw [finish_eq, drop, h, if_neg Bool.false_ne_true, record]

end Timer

namespace Collector

/-! ### Timers of the latest run -/

/-- The place behind the latest call that began a run; the first place if there is none. -/
def begun : History → Nat
  | [] => 0
  | .begin _ :: h => h.length + 1
  | _ :: h => begun h

/-- The id of the latest run. -/
def runId? : History → Option String
  | [] => none
  | .begin runId :: _ => some runId
  | _ :: h => runId? h

/-- The timers that have ended since the latest run began, the latest first. Where they were started
does not matter. -/
def since (h : History) : List Ended := (ended h).filter fun e => begun h ≤ e.stop

variable {h : History} {c : Call}

theorem begun_le_length (h : History) : begun h ≤ h.length := by
  induction h with
  | nil => exact Nat.le_refl 0
  | cons c h ih => cases c <;> simp [begun] <;> omega

theorem since_begin (runId : String) (h : History) : since (.begin runId :: h) = [] := by
  refine List.filter_eq_nil_iff.mpr fun e he => ?_
  have hnone : endedBy? (.begin runId) h = none := rfl
  rw [ended, hnone, Option.toList_none, List.nil_append] at he
  obtain ⟨-, -, c, hc, -⟩ := mem_ended_iff.mp he
  have hlt := lt_length_of_callAt? hc
  rw [decide_eq_true_eq, begun]
  omega

/-- Any other call belongs to the run that is the latest. -/
theorem latest_cons (hc : ∀ runId, c ≠ .begin runId) :
    begun (c :: h) = begun h ∧ runId? (c :: h) = runId? h := by
  cases c with
  | begin runId => exact absurd rfl (hc runId)
  | _ => exact ⟨rfl, rfl⟩

/-- While a run lasts, what ends is added. -/
theorem since_cons (hc : ∀ runId, c ≠ .begin runId) :
    since (c :: h) = (endedBy? c h).toList ++ since h := by
  have hlast : ∀ e ∈ (endedBy? c h).toList, begun h ≤ e.stop := by
    intro e he
    rw [Option.mem_toList, endedBy?_eq_some_iff] at he
    obtain ⟨-, -, -, hstop⟩ := he
    rw [hstop]
    exact begun_le_length h
  rw [since, since, (latest_cons hc).1, ended, List.filter_append,
    List.filter_eq_self.mpr (by simpa using hlast)]

/-! ### Calls and figures -/

/-- The timer that was started. -/
def Started.timer (t : Started) : Timer := .start t.component t.kind t.now

/-- A timer that is let go goes on no more, and nothing happens to the others. -/
theorem find?_running_letGo (c : Collector) (f : Timer → Snapshot) (n name : String) :
    let ended? := (c.running.find? n).map fun t => (⟨f t, c.running.erase n⟩ : Collector)
    (ended?.getD c).running.find? name = if name = n then none else c.running.find? name := by
  dsimp only
  cases hn : c.running.find? n with
  | none =>
    split
    · rename_i hname
      rw [Option.map_none, Option.getD_none, hname, hn]
    · rfl
  | some t => simp

theorem find?_running_finish (c : Collector) (n : String) (outcome : Outcome) (now : Nat)
    (name : String) :
    ((c.finish? n outcome now).getD c).running.find? name =
      if name = n then none else c.running.find? name :=
  find?_running_letGo c _ n name

theorem find?_running_drop (c : Collector) (n : String) (now : Nat) (name : String) :
    ((c.drop? n now).getD c).running.find? name =
      if name = n then none else c.running.find? name :=
  find?_running_letGo c _ n name

/-- The collector keeps the timers that go on. A timer that has ended is not among them any more. -/
theorem running_after (h : History) (name : String) :
    (after h).running.find? name = (going? name h).map Started.timer := by
  induction h with
  | nil => rfl
  | cons c h ih =>
    cases c with
    | begin runId => exact ih
    | finishRun d => exact ih
    | finish n outcome now =>
      rw [after, call, find?_running_finish, ih, going?]
      split <;> rfl
    | drop n now =>
      rw [after, call, find?_running_drop, ih, going?]
      split <;> rfl
    | start n component kind now =>
      rw [after, call, start, SortedMap.find?_insert, find?_running_drop, ih, going?]
      split <;> rfl

/-- A timer that goes on has not been finished, so when it is dropped, it has failed. -/
theorem drop?_after (h : History) (name : String) (now : Nat) :
    (after h).drop? name now = (after h).finish? name .failed now := by
  have hdrop : ∀ (t : Started) d s, t.timer.drop d s = t.timer.finish .failed d s :=
    fun _ _ _ => Timer.drop_eq_finish rfl
  simp only [drop?, finish?, running_after, Option.map_map, Function.comp_def, hdrop]

theorem adds_finish {name : String} {outcome : Outcome} (hends : c.ends? = some (name, outcome))
    (now : Nat) :
    (after h).snapshot.Adds (((after h).finish? name outcome now).getD (after h)).snapshot
      (endedBy? c h) := by
  rw [finish?, running_after, endedBy?, hends, Option.bind_some]
  cases going? name h with
  | none => exact ⟨rfl, rfl⟩
  | some t => exact ⟨_, Timer.finish_eq ..⟩

/-- **A call counts the timer that it ends**, and no other call but the beginning of a run changes
the counts. The end of a run changes its duration and nothing else. -/
theorem adds_of_call (hc : ∀ runId, c ≠ .begin runId) :
    (after h).snapshot.Adds (after (c :: h)).snapshot (endedBy? c h) := by
  cases c with
  | begin runId => exact absurd rfl (hc runId)
  | finishRun d => exact ⟨rfl, rfl⟩
  | finish name outcome now => exact adds_finish rfl now
  | drop name now =>
    rw [after, call, drop?_after]
    exact adds_finish rfl now
  | start name component kind now =>
    rw [after, call, start, drop?_after]
    exact adds_finish rfl now

/-- The figures have the id of the latest run, and tell what has ended since it began. -/
theorem tells_since (h : History) :
    (after h).snapshot.runId = runId? h ∧ (after h).snapshot.Tells (since h) := by
  induction h with
  | nil => exact ⟨rfl, Snapshot.tells_nil none _⟩
  | cons c h ih =>
    by_cases hbegin : ∃ runId, c = .begin runId
    · obtain ⟨runId, rfl⟩ := hbegin
      refine ⟨rfl, ?_⟩
      rw [since_begin]
      exact Snapshot.tells_nil (some runId) _
    · have hc : ∀ runId, c ≠ .begin runId := fun runId hc => hbegin ⟨runId, hc⟩
      have hadds := adds_of_call (h := h) hc
      rw [since_cons hc, (latest_cons hc).2, hadds.runId]
      exact ⟨ih.1, ih.2.of_adds hadds⟩

/-! ### Accounts

Totals over all components are sums over a map. A recorded execution changes one entry of it, so the
sum is split into this entry and the rest. -/

/-- What has ended in one way, over all components, is counted. The total is the number of these
timers. -/
theorem executions_after (h : History) :
    (after h).snapshot.count .succeeded + (after h).snapshot.count .failed = (since h).length := by
  have htells := (tells_since h).2
  rw [htells.count, htells.count, List.length_eq_countP_add_countP fun e => e.outcome = .succeeded]
  congr 1
  refine List.countP_congr fun e _ => ?_
  cases e.outcome <;> simp

/-- The figure of a component is the number of its timers. -/
theorem figure_after (h : History) (component : String) (o : Outcome) :
    ((after h).snapshot.metrics component).figure o =
      (since h).countP fun e => e.component = component ∧ e.outcome = o := by
  rw [((tells_since h).2.metrics component).figure, List.countP_filter]
  refine List.countP_congr fun e _ => ?_
  simp [and_comm]

/-- **Each timer is counted once, when it ends.** When it is let go after that, nothing is added.
The figures tell of the timers that have ended since the latest run began, and of no others. -/
theorem counts_each_timer_once (h : History) :
    (after h).snapshot.runId = runId? h ∧
      (after h).snapshot.Tells (since h) ∧
      (after h).snapshot.count .succeeded + (after h).snapshot.count .failed = (since h).length ∧
      ((ended h).map fun e => e.place).Nodup ∧
      (∀ (t : Timer) o d s d' s', (t.record o d s).1.drop d' s' = s') ∧
      ∀ c, (∀ runId, c ≠ .begin runId) → ∀ component o,
        ((after (c :: h)).snapshot.metrics component).figure o =
          ((after h).snapshot.metrics component).figure o +
            (endedBy? c h).toList.countP fun e => e.component = component ∧ e.outcome = o := by
  obtain ⟨hrunId, htells⟩ := tells_since h
  refine ⟨hrunId, htells, executions_after h, nodup_ended h, ?_, ?_⟩
  · exact fun t o d s d' s' => Timer.drop_of_finished rfl
  intro c hc component o
  rw [figure_after, figure_after, since_cons hc, List.countP_append, Nat.add_comm]

/-! ### Runs that overlap

Whether a timer belongs to the run that is named in the figures is decided by the place where it was
started. -/

/-- The timers that were started in the latest run and have ended. -/
def own (h : History) : List Ended := (since h).filter fun e => begun h ≤ e.place

/-- The timers that were started before the latest run began and have ended since. -/
def stray (h : History) : List Ended := (since h).filter fun e => e.place < begun h

/-- **Timers are counted in the run in which they end.** The figure of a component is its own timers
and the stray ones, and it is right exactly if no stray timer of the component ended in that way. -/
theorem figure_eq_own_add_stray (h : History) (component : String) (o : Outcome) :
    let figure := ((after h).snapshot.metrics component).figure o
    let counts := fun e : Ended => decide (e.component = component ∧ e.outcome = o)
    (after h).snapshot.runId = runId? h ∧
      figure = (own h).countP counts + (stray h).countP counts ∧
      (figure = (own h).countP counts ↔
        ∀ e ∈ stray h, e.component = component → e.outcome ≠ o) := by
  intro figure counts
  have hsum : figure = (own h).countP counts + (stray h).countP counts := by
    have hstray : stray h = (since h).filter fun e => !decide (begun h ≤ e.place) := by
      rw [stray]
      refine List.filter_congr fun e _ => ?_
      rw [← decide_not, decide_eq_decide, Nat.not_le]
    have hfigure : figure = (since h).countP counts := figure_after h component o
    rw [hfigure, hstray, own]
    exact List.countP_eq_countP_filter_add ..
  refine ⟨(tells_since h).1, hsum, ?_⟩
  rw [hsum, Nat.add_eq_left, List.countP_eq_zero]
  simp [counts]

/-- A timer of one run that ends when another has begun. -/
example :
    (stray [.finish "t" .failed 1, .begin "r2", .start "t" "a" "k" 0, .begin "r1"]).length = 1 := by
  decide

end Collector

end TypedPipeline
