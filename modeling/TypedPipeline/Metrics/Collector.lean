import TypedPipeline.Metrics

/-!
# Collectors

A collector holds the figures of the latest run and the timers that go on. Each timer has a name. A
name that is used again drops the timer that had it. Timers go on when another run begins, and then
count for that run.

## Implementation notes

Timers are values that a caller owns. Here they are kept in a map under names of the caller's
choice, so that a history of calls can speak of them. A name in use stands for one timer, and giving
the name to another one lets go of the first, as replacing the value of a variable would.

Nothing is done if a name does not stand for a timer; the operations say so by being absent.

## Main definitions

* `Collector`
* `Collector.start`, `Collector.finish?`, `Collector.drop?` — the life of a timer
-/

namespace TypedPipeline

/-- The figures of the latest run, and the timers that go on. -/
structure Collector where
  snapshot : Snapshot := {}
  running : TextMap Timer := .empty

namespace Collector

/-- Begins a run. -/
def begin (c : Collector) (runId : String) : Collector := { c with snapshot := .begin runId }

/-- Ends a run. -/
def finishRun (c : Collector) (d : Duration) : Collector :=
  { c with snapshot := c.snapshot.finishRun d }

/-- The time that a timer has gone on at a moment. -/
def elapsed (t : Timer) (now : Nat) : Duration := ⟨now - t.started⟩

/-- Finishes a timer, if it goes on. -/
def finish? (c : Collector) (name : String) (outcome : Outcome) (now : Nat) : Option Collector :=
  (c.running.find? name).map fun t =>
    ⟨t.finish outcome (elapsed t now) c.snapshot, c.running.erase name⟩

/-- Drops a timer, if it goes on. -/
def drop? (c : Collector) (name : String) (now : Nat) : Option Collector :=
  (c.running.find? name).map fun t =>
    ⟨t.drop (elapsed t now) c.snapshot, c.running.erase name⟩

/-- Starts a timer. A timer that had the name is dropped before, at the same moment. -/
def start (c : Collector) (name component kind : String) (now : Nat) : Collector :=
  let c := (c.drop? name now).getD c
  { c with running := c.running.insert name (.start component kind now) }

end Collector

end TypedPipeline
