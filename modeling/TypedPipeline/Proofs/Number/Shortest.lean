import Mathlib.Tactic.FieldSimp
import TypedPipeline.Proofs.Number.Rounding

/-!
# The shortest decimal

A decimal reads back to a number if its value lies in the interval of the number. The shortest
decimal is looked for on grids of powers of ten, and whichever way it is found, it lies there.

## Implementation notes

The search for the shortest decimal is not proved to find the shortest one: that it reads back is
all that is needed, and this holds of whatever it returns. Each grid is asked for a decimal that
reads back, so a decimal that comes from a grid does. If no grid has one, the exact value of the
number is taken, and that lies in the interval of the number. Zeros at the end change only the way a
decimal is written.

The one arithmetical step is on a grid where both neighbours read back: the rounded quotient is one
of the two, whichever way a tie is resolved.

## Main definitions

* `Decimal.value` — the rational of a decimal

## Main results

* `Decimal.readsBack_iff` — which decimals read back
* `Decimal.attracts_shortest` — the shortest decimal reads back
* `Decimal.digits_shortest_ne_zero` — it has a digit other than zero
-/

namespace TypedPipeline.Decimal

open Binary64 (Tie roundQuotient zpow_eq_div)

/-- The rational of a decimal. -/
def value (d : Decimal) : ℚ := d.digits * 10 ^ d.exponent

/-! ### Comparing -/

/-- Both sides over a common denominator. -/
theorem compareScaled_eq (a : Nat) (i : Int) (b : Nat) (j : Int) :
    compareScaled a i b j = compare ((a : ℚ) * 10 ^ i) (b * 2 ^ j) := by
  have hleft : (a : ℚ) * 10 ^ i = ((a * 10 ^ i.toNat * 2 ^ (-j).toNat : Nat) : ℚ) /
      (10 ^ (-i).toNat * 2 ^ (-j).toNat) := by
    rw [zpow_eq_div (by norm_num)]
    push_cast
    field_simp
  have hright : (b : ℚ) * 2 ^ j = ((b * 2 ^ j.toNat * 10 ^ (-i).toNat : Nat) : ℚ) /
      (10 ^ (-i).toNat * 2 ^ (-j).toNat) := by
    rw [zpow_eq_div (by norm_num)]
    push_cast
    field_simp
  have hden : (0 : ℚ) < 10 ^ (-i).toNat * 2 ^ (-j).toNat := by positivity
  rw [compareScaled, hleft, hright]
  rcases lt_trichotomy (a * 10 ^ i.toNat * 2 ^ (-j).toNat) (b * 2 ^ j.toNat * 10 ^ (-i).toNat)
    with hlt | heq | hgt
  · rw [compare_lt_iff_lt.mpr hlt, eq_comm, compare_lt_iff_lt, div_lt_div_iff_of_pos_right hden]
    exact_mod_cast hlt
  · rw [heq, compare_eq_iff_eq.mpr rfl, eq_comm, compare_eq_iff_eq]
  · rw [compare_gt_iff_gt.mpr hgt, eq_comm, compare_gt_iff_gt, div_lt_div_iff_of_pos_right hden]
    exact_mod_cast hgt

/-- The decimals that read back are those whose value rounds to the number. -/
theorem readsBack_iff (x : Binary64) (d : Decimal) :
    readsBack x d = true ↔ x.Attracts d.value := by
  rw [Binary64.Attracts, Binary64.lowEnd, eq_comm (b := d.value), value]
  simp only [readsBack, compareScaled_eq, Bool.and_eq_true, Bool.or_eq_true, beq_iff_eq,
    compare_gt_iff_gt, compare_lt_iff_lt, compare_eq_iff_eq]

/-! ### The search -/

variable {x : Binary64} {d : Decimal}

/-- A rounded quotient is the quotient or the next integer. Which one it is depends on the
remainder, and nothing here needs to know. -/
theorem roundQuotient_eq_or (tie : Tie) (num den : Nat) :
    roundQuotient tie num den = num / den ∨ roundQuotient tie num den = num / den + 1 := by
  simp only [roundQuotient]
  split
  · exact .inl rfl
  · split
    · exact .inr rfl
    · cases tie with
      | up => exact .inr rfl
      | toEven => exact ite_eq_or_eq _ _ _

/-- What is taken from a grid reads back, also where it is the better one of two. -/
theorem readsBack_of_onGrid? {tie : Tie} {exponent : Int} (h : onGrid? tie x exponent = some d) :
    readsBack x d = true := by
  simp only [onGrid?] at h
  split at h
  · rename_i hlower hupper
    cases h
    rcases roundQuotient_eq_or tie (x.significand * 2 ^ x.power.toNat * 10 ^ (-exponent).toNat)
      (2 ^ (-x.power).toNat * 10 ^ exponent.toNat) with heq | heq
    · rw [heq]
      exact hlower
    · rw [heq]
      exact hupper
  · rename_i hlower _
    cases h
    exact hlower
  · rename_i _ hupper
    cases h
    exact hupper
  · cases h

/-- Zeros moved into the exponent do not change the value. They only change how the decimal is
written. -/
theorem value_stripZeros (fuel : Nat) (d : Decimal) : (stripZeros fuel d).value = d.value := by
  induction fuel generalizing d with
  | zero => rfl
  | succ fuel ih =>
    rw [stripZeros]
    split
    · rename_i hzero
      have hdigits : (d.digits : ℚ) = (d.digits / 10 : Nat) * 10 := by
        exact_mod_cast (Nat.div_mul_cancel (Nat.dvd_of_mod_eq_zero hzero.1)).symm
      rw [ih, value, value, zpow_add_one₀ (by norm_num), hdigits]
      ring
    · rfl

/-- The exact decimal of a binary number: a half is five tenths. -/
theorem value_exact (x : Binary64) :
    value (if 0 ≤ x.power then ⟨x.significand * 2 ^ x.power.toNat, 0⟩
      else ⟨x.significand * 5 ^ (-x.power).toNat, x.power⟩) = x.significand * 2 ^ x.power := by
  split
  · rename_i hpower
    have hcast : (2 : ℚ) ^ x.power = 2 ^ x.power.toNat := by
      rw [← zpow_natCast, Int.toNat_of_nonneg hpower]
    rw [value, hcast]
    push_cast
    ring
  · rename_i hpower
    have hfive : (5 : ℚ) ^ (-x.power).toNat = (5 ^ x.power)⁻¹ := by
      rw [← zpow_natCast, Int.toNat_of_nonneg (by omega), zpow_neg]
    have hten : (10 : ℚ) ^ x.power = 5 ^ x.power * 2 ^ x.power := by
      rw [← mul_zpow]
      norm_num
    rw [value, hten]
    push_cast
    rw [hfive]
    field_simp

/-- The shortest decimal of a number lies among the values that round to it. So reading it gives the
number again, with any reader that rounds correctly. -/
theorem attracts_shortest (tie : Tie) (hx : x.significand ≠ 0) :
    x.Attracts (shortest tie x).value := by
  rw [shortest]
  simp only [value_stripZeros]
  generalize hfound : (List.range 17).findSome? _ = found
  cases found with
  | none =>
    rw [Option.getD_none, value_exact]
    exact Binary64.attracts_magnitude hx
  | some d =>
    obtain ⟨n, -, hd⟩ := List.exists_of_findSome?_eq_some hfound
    exact (readsBack_iff x d).mp (readsBack_of_onGrid? hd)

/-- A number other than zero has a digit other than zero. -/
theorem digits_shortest_ne_zero (tie : Tie) (hx : x.significand ≠ 0) :
    (shortest tie x).digits ≠ 0 := by
  intro hzero
  have hpos := (attracts_shortest tie hx).pos hx
  rw [value, hzero, Nat.cast_zero, zero_mul] at hpos
  exact lt_irrefl 0 hpos

end TypedPipeline.Decimal
