import TypedPipeline.Number.Binary64

/-!
# Durations

A duration is a count of nanoseconds. Its seconds and milliseconds are floating-point numbers; the
whole seconds and the nanoseconds beside them are rounded separately.

Nothing is computed with durations as floats but sums and maxima. Two clocks are never compared: a
duration is the difference of two readings of one clock.

## Main definitions

* `Duration`, `Duration.seconds`, `Duration.milliseconds`
-/

namespace TypedPipeline

/-- A duration. -/
structure Duration where
  nanoseconds : Nat := 0
deriving DecidableEq

namespace Duration

/-- Nanoseconds in a second. -/
def perSecond : Nat := 10 ^ 9

/-- The duration in seconds. -/
def seconds (d : Duration) : Binary64 :=
  .ofNat (d.nanoseconds / perSecond) + .ofNat (d.nanoseconds % perSecond) / .ofNat perSecond

/-- The duration in milliseconds. -/
def milliseconds (d : Duration) : Binary64 := d.seconds * .ofNat 1000

end Duration

end TypedPipeline
