import Mathlib.Data.List.Forall2
import TypedPipeline.Proofs.Json.Decode

/-!
# Different parameters have different texts

Parameters are written without blanks, by rising name. Their text can be read, and what is read
tells all values apart but those of one kind: floats that are not finite are all written as null. A
finite float is written as a decimal that is nearer to it than to any other float, so no other float
is written in the same way, although the reader may be off by a bit when it reads it back.

## Implementation notes

That different values have different texts is shown by reading: texts have trees, and the trees are
different. Since the reader may be off by a bit, it is asked for the tree only and not for a float;
the tree has the digits as they are written.

For floats the argument is about intervals. Two floats that are written alike have one decimal, and
this decimal lies in the intervals of both. Intervals of different floats of one sign have nothing
in common, as the end between two neighbours belongs to the even one only; in this development that
comes for free, since what a number attracts is rounded to it (`nearest_of_attracts`).

The other direction needs that the text of a map shows nothing else, which is a matter of writing
members one by one.

## Main definitions

* `Scalar.written` — a scalar as far as its text shows it

## Main results

* `Binary64.eq_of_attracts` — no two numbers of one sign attract the same value
* `JsonNumber.ofFloat_inj` — different floats are written in different ways
* `Json.compact_ofParameters_eq_iff` — when two maps of parameters have the same text
-/

namespace TypedPipeline

/-! ### Floats -/

namespace Binary64

variable {x y : Binary64} {v : ℚ}

/-- No two numbers of one sign attract the same value. Both would be what the value is rounded
to. -/
theorem eq_of_attracts (hx : x.isFinite = true) (hy : y.isFinite = true)
    (hmx : x.significand ≠ 0) (hmy : y.significand ≠ 0) (hsign : x.negative = y.negative)
    (hxv : x.Attracts v) (hyv : y.Attracts v) : x = y := by
  have hnum : ((v.num.toNat : ℚ) : ℚ) / v.den = v := by
    have hnonneg := Rat.num_nonneg.mpr (hxv.pos hmx).le
    have hcast : ((v.num.toNat : Int) : ℚ) = v.num := by rw [Int.toNat_of_nonneg hnonneg]
    rw [← Int.cast_natCast, hcast, Rat.num_div_den]
  rw [← hnum] at hxv hyv
  calc x = nearest x.negative v.num.toNat v.den := (nearest_of_attracts hx hmx v.den_pos hxv).symm
    _ = nearest y.negative v.num.toNat v.den := by rw [hsign]
    _ = y := nearest_of_attracts hy hmy v.den_pos hyv

end Binary64

namespace JsonNumber

variable {x y : Binary64}

/-- Zero is written as zero, and no other float is. However small it may be, it has a digit other
than zero. -/
theorem value_decimal_ofFloat_eq_zero_iff : (ofFloat x).decimal.value = 0 ↔ x.isZero = true := by
  constructor
  · intro hvalue
    by_contra hzero
    have hm : x.significand ≠ 0 := mt (Binary64.significand_eq_zero_iff x).mp hzero
    have hpos := (Decimal.attracts_shortest .toEven hm).pos hm
    rw [← value_decimal_ofFloat (by simpa using hzero), hvalue] at hpos
    exact hpos.false
  · intro hzero
    rw [ofFloat, if_pos hzero, decimal_ofPositional_of_nonneg _ (le_refl 0)]
    simp [Decimal.value]

/-- Different finite floats are written in different ways. -/
theorem ofFloat_inj (hx : x.isFinite = true) (hy : y.isFinite = true) :
    ofFloat x = ofFloat y ↔ x = y := by
  refine ⟨fun h => ?_, congrArg ofFloat⟩
  have hzero : x.isZero = true ↔ y.isZero = true := by
    rw [← value_decimal_ofFloat_eq_zero_iff, h, value_decimal_ofFloat_eq_zero_iff]
  by_cases hx0 : x.isZero = true
  · have hread := float?_ofFloat_of_isZero hx0
    rw [h, float?_ofFloat_of_isZero (hzero.mp hx0)] at hread
    exact (Option.some.inj hread).symm
  · have hy0 := mt hzero.mpr hx0
    have hmx : x.significand ≠ 0 := mt (Binary64.significand_eq_zero_iff x).mp hx0
    have hmy : y.significand ≠ 0 := mt (Binary64.significand_eq_zero_iff y).mp hy0
    have hsign : x.negative = y.negative := by rw [← negative_ofFloat x, h, negative_ofFloat]
    have hxv := Decimal.attracts_shortest .toEven hmx
    have hyv := Decimal.attracts_shortest .toEven hmy
    rw [← value_decimal_ofFloat (by simpa using hx0), h] at hxv
    rw [← value_decimal_ofFloat (by simpa using hy0)] at hyv
    exact Binary64.eq_of_attracts hx hy hmx hmy hsign hxv hyv

theorem ofInt_inj {m n : Int} : ofInt m = ofInt n ↔ m = n := by
  refine ⟨fun h => ?_, congrArg ofInt⟩
  have hsign : (m < 0) ↔ n < 0 := by simpa [ofInt] using congrArg negative h
  have habs : m.natAbs = n.natAbs := by
    rw [← Decimal.digitsValue_digitChars m.natAbs, ← Decimal.digitsValue_digitChars n.natAbs]
    exact congrArg (fun n => Decimal.digitsValue n.whole) h
  omega

theorem ofInt_ne_ofFloat (n : Int) (x : Binary64) : ofInt n ≠ ofFloat x := by
  intro h
  have hmarked := marked_ofFloat x
  rw [← h] at hmarked
  cases hmarked

end JsonNumber

/-! ### Scalars -/

/-- Two maps agree when their values are replaced if they agree entry by entry. -/
theorem SortedMap.map_eq_map_iff_forall₂ {α β γ : Type} {f : α → γ} {g : β → γ} {m : TextMap α}
    {n : TextMap β} :
    (m.map fun _ => f) = (n.map fun _ => g) ↔
      List.Forall₂ (fun a b => a.1 = b.1 ∧ f a.2 = g b.2) m.entries n.entries := by
  rw [SortedMap.map, SortedMap.map, SortedMap.mk.injEq, ← List.forall₂_eq_eq_eq,
    List.forall₂_map_left_iff, List.forall₂_map_right_iff]
  simp only [Prod.mk.injEq]

/-- A scalar as far as its text shows it: floats that are not finite are all one. -/
def Scalar.written : Scalar → Option Scalar
  | .float x => if x.isFinite then some (.float x) else none
  | v => some v

namespace JsonTree

open Scalar (written)

variable {v w : Scalar} {p q : Parameters}

theorem ofDatum_ofScalar_eq_iff :
    ofDatum (.ofScalar v) = ofDatum (.ofScalar w) ↔ v.written = w.written := by
  have hne := fun n x => (JsonNumber.ofInt_ne_ofFloat n x).symm
  cases v <;> cases w <;> simp only [Datum.ofScalar, ofDatum, written]
  case float.float x y =>
    cases hx : x.isFinite <;> cases hy : y.isFinite
    case true.true => simp [JsonNumber.ofFloat_inj hx hy]
    all_goals simp
  -- all other pairs differ in the kind of tree, numbers in their marks
  all_goals try split
  all_goals simp [JsonNumber.ofInt_inj, JsonNumber.ofInt_ne_ofFloat, hne, Int64.toInt_inj]

/-- Maps of parameters have one tree if their texts show the same. Names are compared as they are,
and values by what is written of them. -/
theorem ofDatum_ofParameters_eq_iff :
    ofDatum (.ofParameters p) = ofDatum (.ofParameters q) ↔
      p.map (fun _ => written) = q.map fun _ => written := by
  rw [SortedMap.map_eq_map_iff_forall₂]
  simp only [Datum.ofParameters, Datum.ofMap, ofDatum, JsonTree.object.injEq, ofMembers_eq,
    List.map_map]
  rw [← List.forall₂_eq_eq_eq, List.forall₂_map_left_iff, List.forall₂_map_right_iff]
  simp only [Function.comp_apply, Prod.mk.injEq, Option.some.injEq, ofDatum_ofScalar_eq_iff]

end JsonTree

namespace Json

open Scalar (written)

variable {p q : Parameters}

/-- The text of a scalar shows no more of it than this. Values that show the same are written
alike. -/
theorem compactChars_ofScalar (v : Scalar) :
    compactChars (.ofScalar v) = match v.written with
      | none => "null".toList
      | some w => compactChars (.ofScalar w) := by
  cases v with
  | float x =>
    by_cases hx : x.isFinite = true
    · rw [written, if_pos hx]
    · rw [written, if_neg hx]
      simp [Datum.ofScalar, compactChars, leafChars, floatChars, hx]
  | _ => rfl

/-- Members are written one by one. -/
theorem compactMembers_congr {l l' : List (String × Datum)}
    (h : List.Forall₂ (fun a b => a.1 = b.1 ∧ compactChars a.2 = compactChars b.2) l l') :
    compactMembers l = compactMembers l' := by
  induction h with
  | nil => rfl
  | @cons a b l l' hab hl ih =>
    obtain ⟨k, v⟩ := a
    obtain ⟨k', v'⟩ := b
    obtain ⟨rfl, hv⟩ := hab
    dsimp only at hv
    cases hl with
    | nil => rw [JsonTree.compactMembers_singleton, JsonTree.compactMembers_singleton, hv]
    | cons hab hl => rw [JsonTree.compactMembers_cons, JsonTree.compactMembers_cons, hv, ih]

/-- Two maps of parameters have one text if they are the same up to floats that are not finite.
Names, kinds of values and bits of floats all show. -/
theorem compact_ofParameters_eq_iff :
    compact (.ofParameters p) = compact (.ofParameters q) ↔
      p.map (fun _ => written) = q.map fun _ => written := by
  constructor
  · intro h
    have hread := JsonTree.ofText?_compact (.ofParameters p)
    rw [h, JsonTree.ofText?_compact] at hread
    exact JsonTree.ofDatum_ofParameters_eq_iff.mp (Option.some.inj hread).symm
  · intro h
    have hentries := SortedMap.map_eq_map_iff_forall₂.mp h
    have hmembers : compactMembers (p.entries.map fun e => (e.1, .ofScalar e.2)) =
        compactMembers (q.entries.map fun e => (e.1, .ofScalar e.2)) := by
      refine compactMembers_congr ?_
      rw [List.forall₂_map_left_iff, List.forall₂_map_right_iff]
      refine hentries.imp fun a b hab => ⟨hab.1, ?_⟩
      rw [compactChars_ofScalar, hab.2, ← compactChars_ofScalar]
    simp only [compact, Datum.ofParameters, Datum.ofMap, compactChars, hmembers]

end Json

end TypedPipeline
