import TypedPipeline.Number.Binary64

/-!
# Decimal texts of binary numbers

Two ways to write a number in decimal: with the fewest digits that read back to it, and with a fixed
count of places. The fewest digits are found by exact arithmetic: the reals that round to the number
form an interval, and the coarsest decimal grid with a point in it decides.

## Implementation notes

Whether a decimal reads back is decided without reading it: its value is compared with the two ends
of the interval, over a common denominator. The search for the shortest one then goes from coarse
grids to fine ones and takes the first grid on which one of the two neighbours of the number reads
back. Should both do, the nearer one is taken, and on a tie the style of the text format decides.

Text formats write the same digits in different ways: they differ in the exponents that are written
positionally, in whether a whole number shows that it is a float, and in the sign of an exponent.
`FloatStyle` has one field for each of these, and there is one `render`.

Reading goes through `nearest` as well, so it is rounded once. Decimals with very large or very
small exponents are decided by their magnitude, since the powers of ten would be too large to
compute with.

## Main definitions

* `Decimal` — `digits * 10 ^ exponent`
* `Decimal.readsBack` — whether a decimal rounds to a number
* `Decimal.shortest` — the shortest decimal that reads back
* `FloatStyle`, `FloatStyle.render` — how a text format lays out the digits
* `Decimal.renderFixed` — a fixed count of places
* `Decimal.ofChars?`, `Decimal.toBinary` — reading, rounded correctly
-/

namespace TypedPipeline

/-- The decimal number `digits * 10 ^ exponent`. -/
structure Decimal where
  digits : Nat
  exponent : Int
deriving DecidableEq

namespace Decimal

open Binary64 (Tie roundQuotient)

/-! ### The shortest decimal that reads back -/

/-- Compares `a * 10 ^ i` with `b * 2 ^ j`. -/
def compareScaled (a : Nat) (i : Int) (b : Nat) (j : Int) : Ordering :=
  compare (a * 10 ^ i.toNat * 2 ^ (-j).toNat) (b * 2 ^ j.toNat * 10 ^ (-i).toNat)

/-- Whether the gap below the number is half the gap above it. -/
def narrowBelow (x : Binary64) : Bool := x.fraction.val == 0 && x.exponent.val > 1

/-- Whether `d` lies among the reals that round to the magnitude of `x`. The ends of that interval
belong to it exactly when the significand is even, as a tie goes to the even neighbour. -/
def readsBack (x : Binary64) (d : Decimal) : Bool :=
  let m := x.significand
  let low := if narrowBelow x then 4 * m - 1 else 4 * m - 2
  let high := 4 * m + 2
  let ends := m % 2 == 0
  let l := compareScaled d.digits d.exponent low (x.power - 2)
  let h := compareScaled d.digits d.exponent high (x.power - 2)
  (l == .gt || (ends && l == .eq)) && (h == .lt || (ends && h == .eq))

/-- The least `k` with a magnitude below `10 ^ k`. A rational approximation of the logarithm leaves
four candidates, and these are compared exactly. -/
def magnitude (x : Binary64) : Int :=
  let estimate := Int.fdiv (((x.significand.log2 : Int) + x.power) * 1233) 4096
  let candidates := [estimate - 1, estimate, estimate + 1, estimate + 2]
  let below (k : Int) : Bool := compareScaled 1 k x.significand x.power == .gt
  (candidates.find? below).getD (estimate + 3)

/-- The better of the two neighbours of `x` on the grid of multiples of `10 ^ exponent`, if one of
them reads back. -/
def onGrid? (tie : Tie) (x : Binary64) (exponent : Int) : Option Decimal :=
  let num := x.significand * 2 ^ x.power.toNat * 10 ^ (-exponent).toNat
  let den := 2 ^ (-x.power).toNat * 10 ^ exponent.toNat
  let lower : Decimal := ⟨num / den, exponent⟩
  let upper : Decimal := ⟨num / den + 1, exponent⟩
  match readsBack x lower, readsBack x upper with
  | true, true => some ⟨roundQuotient tie num den, exponent⟩
  | true, false => some lower
  | false, true => some upper
  | false, false => none

/-- Moves the zeros at the end of the digits into the exponent; `fuel` bounds how many. There cannot
be more of them than there are digits. -/
def stripZeros : Nat → Decimal → Decimal
  | 0, d => d
  | fuel + 1, d =>
    if d.digits % 10 = 0 ∧ d.digits ≠ 0 then stripZeros fuel ⟨d.digits / 10, d.exponent + 1⟩
    else d

/-- The shortest decimal that reads back to the magnitude of a finite number other than zero, and of
those the nearest. Seventeen digits are always enough; should none do, the exact value is given. -/
def shortest (tie : Tie) (x : Binary64) : Decimal :=
  let k := magnitude x
  let found := (List.range 17).findSome? fun n => onGrid? tie x (k - (n + 1 : Nat))
  let exact : Decimal :=
    if 0 ≤ x.power then ⟨x.significand * 2 ^ x.power.toNat, 0⟩
    else ⟨x.significand * 5 ^ (-x.power).toNat, x.power⟩
  let d := found.getD exact
  stripZeros (toString d.digits).length d

/-! ### Layout -/

/-- The decimal digits of a natural. -/
def digitChars (n : Nat) : List Char := (toString n).toList

/-- The digits with the decimal point `exponent` places from their end, as whole part and places. -/
def placed (d : Decimal) : List Char × List Char :=
  let ds := digitChars d.digits
  if 0 ≤ d.exponent then (ds ++ List.replicate d.exponent.toNat '0', [])
  else
    let places := (-d.exponent).toNat
    let padded := List.replicate (places + 1 - ds.length) '0' ++ ds
    (padded.take (padded.length - places), padded.drop (padded.length - places))

/-- Positional notation; `pointZero` says whether a whole number gets `.0`. -/
def positional (pointZero : Bool) (d : Decimal) : List Char :=
  match placed d with
  | (whole, []) => whole ++ (if pointZero then ['.', '0'] else [])
  | (whole, places) => whole ++ '.' :: places

/-- One digit, the point, the other digits, and the exponent after `e`. -/
def scientific (plus : Bool) (d : Decimal) : List Char :=
  let ds := digitChars d.digits
  let e := d.exponent + ds.length - 1
  let head :=
    match ds with
    | [] => []
    | [c] => [c]
    | c :: rest => c :: '.' :: rest
  let exponent :=
    if e < 0 then '-' :: digitChars (-e).toNat
    else (if plus then ['+'] else []) ++ digitChars e.toNat
  head ++ 'e' :: exponent

end Decimal

/-- How a text format writes a number with the fewest digits. -/
structure FloatStyle where
  /-- The exponents of the leading digit that are written positionally; all of them if absent. -/
  window : Option (Int × Int)
  /-- Whether a whole number in positional notation gets `.0`. -/
  pointZero : Bool
  /-- Whether an exponent that is not negative gets a `+`. -/
  exponentPlus : Bool
  /-- Which of two equally near digit strings is taken. -/
  tie : Binary64.Tie
  /-- The text of what is no number. -/
  nan : String
  /-- The text of infinity. -/
  infinity : String

namespace FloatStyle

/-- The characters of the magnitude of a finite number. -/
def magnitudeChars (style : FloatStyle) (x : Binary64) : List Char :=
  if x.isZero then Decimal.positional style.pointZero ⟨0, 0⟩
  else
    let d := Decimal.shortest style.tie x
    let e := d.exponent + (Decimal.digitChars d.digits).length - 1
    let inWindow :=
      match style.window with
      | none => true
      | some (low, high) => low ≤ e && e ≤ high
    if inWindow then Decimal.positional style.pointZero d
    else Decimal.scientific style.exponentPlus d

/-- The text of a number. -/
def render (style : FloatStyle) (x : Binary64) : String :=
  if x.isNaN then style.nan
  else
    let magnitude := if x.isInfinite then style.infinity.toList else style.magnitudeChars x
    String.ofList (if x.negative then '-' :: magnitude else magnitude)

end FloatStyle

namespace Decimal

/-- The style of numbers inside sentences: positional always, a whole number without point. -/
def plainStyle : FloatStyle where
  window := none
  pointZero := false
  exponentPlus := false
  tie := .up
  nan := "NaN"
  infinity := "inf"

/-- A number with a fixed count of places: the exact value is rounded, a tie goes to even. -/
def renderFixed (places : Nat) (x : Binary64) : String :=
  if x.isNaN then plainStyle.nan
  else
    let magnitude :=
      if x.isInfinite then plainStyle.infinity.toList
      else
        let n := Binary64.roundQuotient .toEven (x.ratio.1 * 10 ^ places) x.ratio.2
        positional false ⟨n, -(places : Int)⟩
    String.ofList (if x.negative then '-' :: magnitude else magnitude)

/-! ### Reading -/

/-- The value of decimal digits. -/
def digitsValue (ds : List Char) : Nat := ds.foldl (fun n c => 10 * n + (c.toNat - '0'.toNat)) 0

/-- Reads digits with an optional point and exponent; at least one digit stands before the
exponent. -/
def ofChars? (cs : List Char) : Option Decimal :=
  let whole := cs.takeWhile Char.isDigit
  let rest := cs.dropWhile Char.isDigit
  let (places, rest) :=
    match rest with
    | '.' :: rest => (rest.takeWhile Char.isDigit, rest.dropWhile Char.isDigit)
    | _ => ([], rest)
  if whole.isEmpty && places.isEmpty then none
  else
    let d : Decimal := ⟨digitsValue (whole ++ places), -(places.length : Int)⟩
    match rest with
    | [] => some d
    | e :: rest =>
      if e != 'e' && e != 'E' then none
      else
        let (minus, ds) :=
          match rest with
          | '+' :: ds => (false, ds)
          | '-' :: ds => (true, ds)
          | ds => (false, ds)
        if ds.isEmpty || !ds.all Char.isDigit then none
        else
          let n : Int := digitsValue ds
          some ⟨d.digits, d.exponent + if minus then -n else n⟩

/-- The binary number nearest to a decimal. Decimals far outside the range are decided by their
magnitude alone, before any power of ten is computed. -/
def toBinary (negative : Bool) (d : Decimal) : Binary64 :=
  if d.digits = 0 then .zero negative
  else
    let count : Int := (digitChars d.digits).length
    if 310 < count + d.exponent then .infinity negative
    else if count + d.exponent < -330 then .zero negative
    else
      .nearest negative (d.digits * 10 ^ d.exponent.toNat) (10 ^ (-d.exponent).toNat)

end Decimal

end TypedPipeline
