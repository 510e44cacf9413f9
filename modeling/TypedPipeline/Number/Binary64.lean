import TypedPipeline.Number.Arithmetic

/-!
# Binary floating-point numbers of 64 bits

A number is its sign, its biased exponent and its fraction, as the interchange format stores them.
Everything is exact arithmetic on naturals: a finite number stands for `significand * 2 ^ power`,
and every operation that has to round goes through `nearest`, which gives the number closest to a
quotient of naturals.

## Why not the built-in floats

The floats of the language compute with the machine and are opaque to proofs: nothing can be shown
about a product beyond that it is one. Here a number is three natural numbers, so that rounding can
be reasoned about, and runs by itself, only more slowly.

## Implementation notes

The 63 bits below the sign are one natural (`code`), in which the exponent stands above the
fraction. Numbers of one sign are ordered like their codes, infinity included, and a significand
that is rounded up to the next power of two carries into the exponent by plain addition. `nearest`
makes use of both: it adds the rounded significand to the exponent and cuts the sum off at infinity.

Numbers with the least exponent have no leading one, so their significand is the fraction itself and
their power is that of the next exponent; this is what the two `max`es with one and with `-1074`
say. Rounding on that scale needs no case of its own.

There is one pattern that is no number among the results of operations. The others can be read from
bits and are kept as they are.

## Main definitions

* `Binary64` — the three fields; `ofBits`, `bits` — the 64-bit pattern
* `Binary64.significand`, `Binary64.power` — what a finite number stands for
* `Binary64.nearest` — the number nearest to `num / den`, a tie to the even one
-/

namespace TypedPipeline

/-- A number in the 64-bit binary interchange format. All patterns are values of this type, and two
patterns that are no number may differ. -/
structure Binary64 where
  /-- The sign bit. -/
  negative : Bool
  /-- The biased exponent; 2047 marks infinities and patterns that are no number. -/
  exponent : Fin 2048
  /-- The fraction bits. -/
  fraction : Fin (2 ^ 52)
deriving DecidableEq

namespace Binary64

/-! ### Patterns and kinds -/

/-- The number with sign `negative` whose other 63 bits are `code`. -/
def ofCode (negative : Bool) (code : Nat) : Binary64 :=
  ⟨negative, Fin.ofNat 2048 (code / 2 ^ 52), Fin.ofNat (2 ^ 52) code⟩

/-- The 63 bits below the sign, as a natural. -/
def code (x : Binary64) : Nat := x.exponent.val * 2 ^ 52 + x.fraction.val

/-- The number with the given 64-bit pattern. -/
def ofBits (bits : Nat) : Binary64 := ofCode (bits / 2 ^ 63 % 2 == 1) (bits % 2 ^ 63)

/-- The 64-bit pattern. -/
def bits (x : Binary64) : Nat := (if x.negative then 2 ^ 63 else 0) + x.code

/-- Zero with a sign. -/
def zero (negative : Bool) : Binary64 := ofCode negative 0

/-- Infinity with a sign. -/
def infinity (negative : Bool) : Binary64 := ofCode negative (2047 * 2 ^ 52)

/-- The standard pattern that is no number. -/
def notANumber : Binary64 := ofCode false (2047 * 2 ^ 52 + 2 ^ 51)

/-- Whether the pattern is no number. -/
def isNaN (x : Binary64) : Bool := x.exponent.val == 2047 && x.fraction.val != 0

/-- Whether the number is an infinity. -/
def isInfinite (x : Binary64) : Bool := x.exponent.val == 2047 && x.fraction.val == 0

/-- Whether the number stands for a rational. -/
def isFinite (x : Binary64) : Bool := x.exponent.val != 2047

/-- Whether the number is a zero of either sign. -/
def isZero (x : Binary64) : Bool := x.code == 0

/-- The number with the other sign. -/
def neg (x : Binary64) : Binary64 := { x with negative := !x.negative }

/-! ### The value of a finite number -/

/-- The integer significand of a finite number. -/
def significand (x : Binary64) : Nat :=
  if x.exponent.val = 0 then x.fraction.val else 2 ^ 52 + x.fraction.val

/-- The power of two that scales the significand. -/
def power (x : Binary64) : Int := (max x.exponent.val 1 : Nat) - 1075

/-- The magnitude of a finite number as a quotient of naturals. -/
def ratio (x : Binary64) : Nat × Nat :=
  (x.significand * 2 ^ x.power.toNat, 2 ^ (-x.power).toNat)

/-! ### Rounding -/

/-- How a quotient that lies halfway between two integers is rounded. -/
inductive Tie where
  /-- To the even neighbour. -/
  | toEven
  /-- To the upper neighbour. -/
  | up
deriving DecidableEq

/-- The integer nearest to `num / den`. Remainders are compared after doubling, so no fraction
occurs. -/
def roundQuotient (tie : Tie) (num den : Nat) : Nat :=
  let q := num / den
  let r := num % den
  if 2 * r < den then q
  else if den < 2 * r then q + 1
  else
    match tie with
    | .up => q + 1
    | .toEven => if q % 2 = 0 then q else q + 1

/-- The greatest `l` with `2 ^ l ≤ num / den`, for positive `num` and `den`. The difference of the
logarithms is this number or one more. -/
def floorLog2 (num den : Nat) : Int :=
  let l : Int := (num.log2 : Int) - den.log2
  if num * 2 ^ (-l).toNat < den * 2 ^ l.toNat then l - 1 else l

/-- The number nearest to `num / den`, of two equally near ones the even one. Beyond the greatest
finite number lies infinity. -/
def nearest (negative : Bool) (num den : Nat) : Binary64 :=
  if num = 0 then zero negative
  else
    let q : Int := max (floorLog2 num den - 52) (-1074)
    let m := roundQuotient .toEven (num * 2 ^ (-q).toNat) (den * 2 ^ q.toNat)
    -- A significand of `2 ^ 53` carries into the exponent by itself.
    ofCode negative (min ((q + 1074).toNat * 2 ^ 52 + m) (2047 * 2 ^ 52))

/-- The number nearest to an integer. -/
def ofInt (n : Int) : Binary64 := nearest (n < 0) n.natAbs 1

/-- The number nearest to a natural. -/
def ofNat (n : Nat) : Binary64 := nearest false n 1

/-! ### Arithmetic -/

/-- The product, rounded once. -/
def mul (x y : Binary64) : Binary64 :=
  let s := x.negative != y.negative
  if x.isNaN || y.isNaN then notANumber
  else if x.isInfinite || y.isInfinite then
    if x.isZero || y.isZero then notANumber else infinity s
  else nearest s (x.ratio.1 * y.ratio.1) (x.ratio.2 * y.ratio.2)

/-- The quotient, rounded once. -/
def div (x y : Binary64) : Binary64 :=
  let s := x.negative != y.negative
  if x.isNaN || y.isNaN then notANumber
  else if x.isInfinite then if y.isInfinite then notANumber else infinity s
  else if y.isInfinite then zero s
  else if y.isZero then if x.isZero then notANumber else infinity s
  else nearest s (x.ratio.1 * y.ratio.2) (x.ratio.2 * y.ratio.1)

/-- The sum, rounded once. -/
def add (x y : Binary64) : Binary64 :=
  if x.isNaN || y.isNaN then notANumber
  else if x.isInfinite then
    if y.isInfinite && x.negative != y.negative then notANumber else x
  else if y.isInfinite then y
  else
    let signed (z : Binary64) (n : Nat) : Int := if z.negative then -(n : Int) else n
    let n := signed x (x.ratio.1 * y.ratio.2) + signed y (y.ratio.1 * x.ratio.2)
    if n = 0 then zero (x.negative && y.negative)
    else nearest (n < 0) n.natAbs (x.ratio.2 * y.ratio.2)

instance : Mul Binary64 := ⟨mul⟩
instance : Div Binary64 := ⟨div⟩
instance : Add Binary64 := ⟨add⟩

/-- Whether `x ≤ y` as numbers. Both zeros are equal; nothing holds of what is no number. -/
def le (x y : Binary64) : Bool :=
  if x.isNaN || y.isNaN then false
  else if x.isZero && y.isZero then true
  else
    match x.negative, y.negative with
    | true, false => true
    | false, true => false
    | false, false => x.code ≤ y.code
    | true, true => y.code ≤ x.code

/-- The greater of two numbers; what is no number gives way to the other. -/
def max (x y : Binary64) : Binary64 :=
  if x.isNaN then y else if y.isNaN then x else if x.le y then y else x

/-- The least natural that is not below a non-negative finite number. An integer division that
rounds up, since a finite number is a quotient of naturals. -/
def ceilNat (x : Binary64) : Nat := (x.ratio.1 + x.ratio.2 - 1) / x.ratio.2

end Binary64

end TypedPipeline
