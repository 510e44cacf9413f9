/-!
# Sums and powers

The zero that a sum of naturals begins with, and the powers of naturals and integers, are those of
core. Other libraries bring a zero of any semiring and powers of any monoid, and these are taken
wherever such a library is imported; what a number means here must not depend on that.

## Implementation notes

Instances are found by priority, and the one that is declared last wins among equals. A module that
imports more would therefore elaborate the same text to another term, which unfolds to the same
value. With the two instances below, a statement means the same wherever it is read. Lemmas of other
libraries apply all the same, since the instances agree with theirs after unfolding.

## Implementation notes

Instances are found by priority, and the one that is declared last wins among equals. A module that
imports more would therefore elaborate the same text to another term, with the same value but not by
definition. With the two instances below, a statement means the same wherever it is read. Lemmas of
other libraries apply all the same, since the instances agree with theirs after unfolding.

## Main definitions

* `natZero`, `natPow` — the instances of core, ahead of all others
-/

namespace TypedPipeline

instance (priority := 100000) natZero : Zero Nat := Zero.ofOfNat0

@[default_instance 100000]
instance (priority := 100000) natPow {α : Type} [NatPow α] : Pow α Nat := instPowNat

end TypedPipeline
