import Mathlib.Data.Nat.Digits.Defs
import TypedPipeline.Proofs.Json.Number
import TypedPipeline.Proofs.Number.Exact

/-!
# Floats as they are read back

A number with a point is read as the integer of its digits, and this is multiplied or divided by a
power of ten. Where the integer and the power are both exact, only that last step rounds, and the
result is the float in whose interval the decimal lies. The shortest decimal of a float lies in the
interval of this float, so a float that is written with few digits is read back as it was; with more
digits the integer may be rounded already, and the neighbour of the float may be read.

## What "few digits" means

The decimal of a float that is written has to have at most `2 ^ 53` for its digits and at most 22
for its exponent, in either direction. Zeros that are written count as digits: a whole number is
written with a zero behind the point, and this zero is part of the integer that the reader builds.
That is why a float such as `9007199254740991.0`, whose own digits fit, is not short.

## What is not said

Nothing is said of floats that are not short, except that their rereading is a definite float or
none. Many of them are read back all the same. The result depends on two roundings in a row and is
left as it is.

## Implementation notes

The reader works with an integer significand and a shift. Its digits are first shown to be gathered
completely, so that its integer is the one of the decimal and its shift the exponent; then
`scale?_of_attracts` says what becomes of them.

## Main definitions

* `JsonNumber.decimal` — the decimal that a number is written as
* `Binary64.reread?` — what a float has become when it has been written and read
* `Binary64.IsShort` — a float is written with few digits

## Main results

* `JsonNumber.float?_of_attracts` — short numbers are rounded once
* `JsonNumber.value_decimal_ofFloat` — a float is written as its shortest decimal
* `Binary64.IsShort.reread?` — a float with few digits is read back as it was
-/

namespace TypedPipeline

open Binary64 (ofNat)

/-! ### Digits -/

namespace Decimal

/-- The value of digits behind others with a value. -/
def digitsFrom (n : Nat) (ds : List Char) : Nat :=
  ds.foldl (fun n c => 10 * n + (c.toNat - '0'.toNat)) n

theorem digitsFrom_eq (n : Nat) (ds : List Char) :
    digitsFrom n ds = n * 10 ^ ds.length + digitsValue ds := by
  have hfrom : ∀ ds m, digitsFrom m ds = m * 10 ^ ds.length + digitsFrom 0 ds := by
    intro ds
    induction ds with
    | nil => simp [digitsFrom]
    | cons c ds ih =>
      intro m
      have hcons : ∀ k, digitsFrom k (c :: ds) =
          digitsFrom (10 * k + (c.toNat - '0'.toNat)) ds := fun _ => rfl
      rw [hcons, hcons, ih, ih (10 * 0 + _), List.length_cons, Nat.pow_succ]
      ring
  exact hfrom ds n

theorem le_digitsFrom (n : Nat) (ds : List Char) : n ≤ digitsFrom n ds := by
  rw [digitsFrom_eq]
  exact (Nat.le_mul_of_pos_right n (by positivity)).trans (Nat.le_add_right _ _)

theorem digitsValue_append (ds es : List Char) :
    digitsValue (ds ++ es) = digitsValue ds * 10 ^ es.length + digitsValue es := by
  have happend : digitsValue (ds ++ es) = digitsFrom (digitsValue ds) es := List.foldl_append
  rw [happend, digitsFrom_eq]

theorem digitsValue_zeros (n : Nat) : digitsValue (List.replicate n '0') = 0 := by
  induction n with
  | zero => rfl
  | succ n ih => rw [List.replicate_succ', digitsValue_append, ih, Nat.zero_mul]; rfl

end Decimal

namespace JsonNumber

open Decimal (digitsValue digitsFrom digitChars)

/-- Digits that make up an integer in range are all taken. Only digits beyond 64 bits are left
out. -/
theorem gather_of_le {n : Nat} {ds : List Char} (h : digitsFrom n ds ≤ greatest) :
    gather n ds = (digitsFrom n ds, []) := by
  induction ds generalizing n with
  | nil => rfl
  | cons c ds ih =>
    have hstep : digitsFrom n (c :: ds) = digitsFrom (10 * n + (c.toNat - '0'.toNat)) ds := rfl
    rw [hstep] at h ⊢
    have hle := (Decimal.le_digitsFrom _ ds).trans h
    rw [gather, if_pos hle, ih h]

/-! ### Reading a short number

The integer is exact up to `2 ^ 53`, and the power of ten up to the 22nd. A product or quotient of
two exact numbers is rounded once, to the number in whose interval it lies. -/

/-- The exponent as it is written, or zero. -/
def writtenExponent (n : JsonNumber) : Int :=
  match n.exponent with
  | none => 0
  | some (minus, ds) => if minus then -(digitsValue ds : Int) else digitsValue ds

/-- The decimal that a number is written as: all its digits, and how far the point has to go. Zeros
at the end are digits like others. -/
def decimal (n : JsonNumber) : Decimal where
  digits := digitsValue (n.whole ++ n.places.getD [])
  exponent := n.writtenExponent - (n.places.getD []).length

variable {x : Binary64}

/-- An exact integer times an exact power of ten is rounded once. -/
theorem scale?_of_attracts {n : Nat} {k : Int} (fuel : Nat) (hn : n ≤ 2 ^ 53)
    (hk : k.natAbs ≤ 22) (hsign : x.negative = false) (hx : x.isFinite = true)
    (hm : x.significand ≠ 0) (h : x.Attracts (n * 10 ^ k)) :
    scale? (fuel + 1) (ofNat n) k = some x := by
  have hinteger : (ofNat n).IsExact n := by
    simpa using Binary64.ofNat_isExact hn (j := 0) (by decide)
  have hpower : ∀ j ≤ 22, (powerOfTen j).IsExact (10 ^ j) := by
    intro j hj
    have hfive : 5 ^ j ≤ 2 ^ 53 :=
      (Nat.pow_le_pow_right (by decide) hj).trans (by decide : 5 ^ 22 ≤ 2 ^ 53)
    have hten : 10 ^ j = 5 ^ j * 2 ^ j := by rw [← Nat.mul_pow]
    rw [powerOfTen, hten]
    exact Binary64.ofNat_isExact hfive (by omega)
  rw [scale?, if_pos (by omega)]
  split
  · rename_i hpos
    have hten := hpower k.toNat (by omega)
    have hmul : ofNat n * powerOfTen k.toNat = x := by
      refine Binary64.mul_of_attracts hinteger.isFinite hten.isFinite hx hm ?_ ?_
      · rw [hinteger.negative, hten.negative, hsign]
        rfl
      · rw [hinteger.absValue, hten.absValue, Nat.cast_pow, Nat.cast_ofNat, ← zpow_natCast,
          Int.toNat_of_nonneg hpos]
        exact h
    simp [hmul, Binary64.isInfinite_eq_false hx]
  · rename_i hneg
    have hten := hpower (-k).toNat (by omega)
    have hdiv : ofNat n / powerOfTen (-k).toNat = x := by
      refine Binary64.div_of_attracts hinteger.isFinite hten.isFinite ?_ hx hm ?_ ?_
      · refine Binary64.significand_ne_zero ?_
        rw [hten.absValue]
        positivity
      · rw [hinteger.negative, hten.negative, hsign]
        rfl
      · rw [hinteger.absValue, hten.absValue, Nat.cast_pow, Nat.cast_ofNat, ← zpow_natCast,
          Int.toNat_of_nonneg (by omega), zpow_neg, div_inv_eq_mul]
        exact h
    rw [hdiv]

/-- A number of few digits, with an exponent not too far from zero, is read as the float in whose
interval it lies. The bound on the written exponent keeps it from being cut off. -/
theorem float?_of_attracts {n : JsonNumber} (hdigits : n.decimal.digits ≤ 2 ^ 53)
    (hexponent : n.decimal.exponent.natAbs ≤ 22) (hwritten : n.writtenExponent.natAbs < 2 ^ 31)
    (hsign : x.negative = n.negative) (hx : x.isFinite = true) (hm : x.significand ≠ 0)
    (h : x.Attracts n.decimal.value) : n.float? = some x := by
  let y : Binary64 := { x with negative := false }
  have hy : signed n.negative y = x := by
    rw [← hsign]
    obtain ⟨negative, exponent, fraction⟩ := x
    cases negative <;> rfl
  have hscale := scale?_of_attracts (x := y) 15 hdigits hexponent rfl hx hm h
  have hall : digitsFrom (digitsValue n.whole) (n.places.getD []) = n.decimal.digits :=
    List.foldl_append.symm
  have hrange : n.decimal.digits ≤ greatest := hdigits.trans (by decide)
  have hplaces : gather (digitsValue n.whole) (n.places.getD []) = (n.decimal.digits, []) := by
    rw [gather_of_le (by rw [hall]; exact hrange), hall]
  have hwhole : gather 0 n.whole = (digitsValue n.whole, []) := by
    have hle := Decimal.le_digitsFrom (digitsValue n.whole) (n.places.getD [])
    exact gather_of_le ((hle.trans hall.le).trans hrange)
  rw [float?, hwhole]
  simp only [hplaces, List.length_nil, Nat.sub_zero]
  cases hn : n.exponent with
  | none =>
    have hshift : ((0 : Nat) : Int) - (n.places.getD []).length = n.decimal.exponent := by
      simp [decimal, writtenExponent, hn]
    simp only [hshift, hscale, Option.map_some, hy]
  | some e =>
    obtain ⟨minus, ds⟩ := e
    have hlimit : ¬ (2 ^ 31 - 1 : Int) < (digitsValue ds : Int) := by
      simp only [writtenExponent, hn] at hwritten
      split at hwritten <;> omega
    have hshift : Max.max (-(2 ^ 31 - 1) - 1 : Int) (Min.min (2 ^ 31 - 1 : Int)
        (if minus then ((0 : Nat) : Int) - (n.places.getD []).length - digitsValue ds
          else ((0 : Nat) : Int) - (n.places.getD []).length + digitsValue ds)) =
        n.decimal.exponent := by
      have hexponent' := hexponent
      simp only [decimal, writtenExponent, hn] at hexponent' ⊢
      split at hexponent' <;> rename_i hminus <;> simp only [hminus] <;> simp <;> omega
    simp only [if_neg hlimit, hshift, hscale, Option.map_some, hy]

/-! ### Floats as they are written

The text of a float is known by its fields (`JsonNumber.ofFloat`), and the decimal of these fields
is the shortest decimal of the float, perhaps with zeros added to it. -/

/-- A whole number gets the zeros that it lacks, and one more behind the point. -/
theorem decimal_ofPositional_of_nonneg (negative : Bool) {d : Decimal} (h : 0 ≤ d.exponent) :
    (ofPositional negative d).decimal = ⟨d.digits * 10 ^ (d.exponent.toNat + 1), -1⟩ := by
  have hdigits := Decimal.digitsValue_digitChars d.digits
  have hzero : digitsValue ['0'] = 0 := rfl
  rw [decimal, writtenExponent, ofPositional, Decimal.placed, if_pos h]
  simp [Decimal.digitsValue_append, Decimal.digitsValue_zeros, hdigits, hzero, Nat.pow_succ]

/-- Zeros in front, as many as the point needs, do not count. -/
theorem decimal_ofPositional_of_neg (negative : Bool) {d : Decimal} (h : d.exponent < 0) :
    (ofPositional negative d).decimal = d := by
  have hdigits := Decimal.digitsValue_digitChars d.digits
  have hnot : ¬ 0 ≤ d.exponent := by omega
  have hjoin : d.placed.1 ++ d.placed.2 = List.replicate ((-d.exponent).toNat + 1 -
      (digitChars d.digits).length) '0' ++ digitChars d.digits := by
    rw [Decimal.placed, if_neg hnot]
    exact List.take_append_drop _ _
  have hplaces : d.placed.2.length = (-d.exponent).toNat := by
    rw [Decimal.placed, if_neg hnot]
    simp only [List.length_drop, List.length_append, List.length_replicate]
    omega
  have hsome : d.placed.2.isEmpty = false := by
    rw [List.isEmpty_eq_false_iff, ← List.length_pos_iff, hplaces]
    omega
  have hwritten : (ofPositional negative d).places.getD [] = d.placed.2 := by
    simp [ofPositional, hsome]
  have hwhole : (ofPositional negative d).whole = d.placed.1 := rfl
  have hexponent : (ofPositional negative d).writtenExponent = 0 := rfl
  rw [decimal, hwritten, hwhole, hexponent, hjoin, Decimal.digitsValue_append,
    Decimal.digitsValue_zeros, hdigits, hplaces]
  obtain ⟨digits, exponent⟩ := d
  simp only [Decimal.mk.injEq]
  dsimp only at h
  omega

/-- The exponent of the first digit and the digits behind it make up the exponent. -/
theorem decimal_ofScientific (negative : Bool) (d : Decimal) :
    (ofScientific negative d).decimal = d := by
  have hdigits := Decimal.digitsValue_digitChars d.digits
  have hlength := List.length_pos_iff.mpr (Decimal.isDigits_digitChars d.digits).1
  have hwritten : (ofScientific negative d).writtenExponent =
      d.exponent + (digitChars d.digits).length - 1 := by
    simp only [writtenExponent, ofScientific, Decimal.digitsValue_digitChars, decide_eq_true_eq]
    split <;> omega
  have hplaces : ((ofScientific negative d).places.getD []) = (digitChars d.digits).drop 1 := by
    simp only [ofScientific]
    split
    · rename_i hone
      exact (List.drop_eq_nil_of_le hone).symm
    · rfl
  have hwhole : (ofScientific negative d).whole = (digitChars d.digits).take 1 := rfl
  rw [decimal, hwritten, hplaces, hwhole, List.take_append_drop, hdigits, List.length_drop]
  obtain ⟨digits, exponent⟩ := d
  simp only [Decimal.mk.injEq, true_and]
  dsimp only at hlength
  omega

/-- A float is written as its shortest decimal. -/
theorem value_decimal_ofFloat {x : Binary64} (hx : x.isZero = false) :
    (ofFloat x).decimal.value = (Decimal.shortest .toEven x).value := by
  rw [ofFloat, if_neg (by simp [hx])]
  generalize Decimal.shortest .toEven x = d
  dsimp only
  split
  · by_cases hexponent : 0 ≤ d.exponent
    · have hpower : (10 : ℚ) ^ d.exponent = 10 ^ d.exponent.toNat := by
        rw [← zpow_natCast, Int.toNat_of_nonneg hexponent]
      rw [decimal_ofPositional_of_nonneg _ hexponent, Decimal.value, Decimal.value, hpower,
        pow_succ]
      push_cast
      rw [zpow_neg_one]
      field_simp
    · rw [decimal_ofPositional_of_neg _ (by omega)]
  · rw [decimal_ofScientific]

theorem negative_ofFloat (x : Binary64) : (ofFloat x).negative = x.negative := by
  rw [ofFloat]
  split
  · rfl
  · dsimp only
    split <;> rfl

/-- The exponent is written with few digits, unless there are many digits or places. -/
theorem writtenExponent_ofFloat {x : Binary64} (hx : x.isZero = false)
    (hdigits : (ofFloat x).decimal.digits ≤ 2 ^ 53)
    (hexponent : (ofFloat x).decimal.exponent.natAbs ≤ 22) :
    (ofFloat x).writtenExponent.natAbs < 2 ^ 31 := by
  rw [ofFloat, if_neg (by simp [hx])] at *
  generalize Decimal.shortest .toEven x = d at *
  dsimp only at *
  split
  · exact (by decide : 0 < 2 ^ 31)
  · rename_i hscientific
    rw [if_neg hscientific, decimal_ofScientific] at *
    have hlength : (digitChars d.digits).length ≤ 16 := by
      rw [Decimal.digitChars_eq]
      exact Nat.toDigits_length 10 d.digits 16 (by decide) (by omega)
    simp only [writtenExponent, ofScientific, Decimal.digitsValue_digitChars, decide_eq_true_eq]
    split <;> omega

/-- A float has a point or an exponent. This is how a reader tells it from an integer. -/
theorem marked_ofFloat (x : Binary64) :
    ((ofFloat x).places.isNone && (ofFloat x).exponent.isNone) = false := by
  rw [ofFloat]
  split
  · rfl
  · dsimp only
    split
    · rfl
    · exact Bool.and_false _

/-- A float is not taken for an integer. Even a whole number keeps its point. -/
theorem value?_ofFloat (x : Binary64) : (ofFloat x).value? = (ofFloat x).float?.map .float := by
  rw [value?, if_neg (by simp [marked_ofFloat])]

/-- Zero keeps its sign. It is written with it, and read as a float. -/
theorem float?_ofFloat_of_isZero {x : Binary64} (hx : x.isZero = true) :
    (ofFloat x).float? = some x := by
  have hcode : x.code = 0 := by simpa [Binary64.isZero] using hx
  have hzero : x = .zero x.negative := by
    rw [Binary64.zero, ← hcode, Binary64.ofCode_code]
  have hwritten : ∀ negative, ofPositional negative ⟨0, 0⟩ =
      ⟨negative, ['0'], some ['0'], none⟩ := by
    intro negative
    simp [ofPositional, Decimal.placed, Decimal.digitChars_eq]
  have hread : ∀ negative, (⟨negative, ['0'], some ['0'], none⟩ : JsonNumber).float? =
      some (.zero negative) := by decide
  rw [ofFloat, if_pos hx, hwritten, hread, ← hzero]

end JsonNumber

namespace Binary64

/-- What a float has become when it has been written and read. What is not finite has been written
as null, which is no number. -/
def reread? (x : Binary64) : Option Binary64 :=
  if x.isFinite then (JsonNumber.ofFloat x).float? else none

/-- A float that is written with few digits: they make up an exact integer, and the power of ten
that goes with it is exact as well. -/
structure IsShort (x : Binary64) : Prop where
  isFinite : x.isFinite = true
  digits : (JsonNumber.ofFloat x).decimal.digits ≤ 2 ^ 53
  exponent : (JsonNumber.ofFloat x).decimal.exponent.natAbs ≤ 22

/-- A float that is written with few digits is read back as it was. Its decimal lies in its
interval, and the reader rounds it once. -/
theorem IsShort.reread? {x : Binary64} (h : x.IsShort) : x.reread? = some x := by
  obtain ⟨hx, hdigits, hexponent⟩ := h
  rw [Binary64.reread?, if_pos hx]
  cases hzero : x.isZero with
  | true => exact JsonNumber.float?_ofFloat_of_isZero hzero
  | false =>
    have hm : x.significand ≠ 0 := mt (significand_eq_zero_iff x).mp (by simp [hzero])
    refine JsonNumber.float?_of_attracts hdigits hexponent
      (JsonNumber.writtenExponent_ofFloat hzero hdigits hexponent)
      (JsonNumber.negative_ofFloat x).symm hx hm ?_
    rw [JsonNumber.value_decimal_ofFloat hzero]
    exact Decimal.attracts_shortest _ hm

end Binary64

end TypedPipeline
