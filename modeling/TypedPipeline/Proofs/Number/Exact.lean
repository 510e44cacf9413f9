import TypedPipeline.Proofs.Number.Rounding

/-!
# Numbers that are exact

A natural below `2 ^ 53`, times a power of two, is a number itself. Where two numbers are given
exactly, their product and their quotient are the numbers in whose interval the rational product and
quotient lie: they are rounded once.

## Implementation notes

Magnitudes are rationals here, and signs are kept apart. Zero is left out of the statements on
products and quotients, since the sign of a result that is rounded to zero would be a case of its
own.

Exactness is needed where decimals with few digits are read in a way that multiplies or divides by a
power of ten: the digits and the power are both exact, so the result is rounded once, as it should
be. With more digits the first of these steps rounds as well, and then nothing is said.

## Main definitions

* `Binary64.absValue` — the rational for which the magnitude of a number stands

## Main results

* `Binary64.ofNat_isExact` — naturals that are kept as they are
* `Binary64.mul_of_attracts`, `Binary64.div_of_attracts` — products and quotients are rounded once
-/

namespace TypedPipeline.Binary64

/-- The rational for which the magnitude of a finite number stands. -/
def absValue (x : Binary64) : ℚ := x.significand * 2 ^ x.power

/-- A number that stands for a natural, without sign. Such a number is found again whatever is done
to it without rounding. -/
structure IsExact (x : Binary64) (n : Nat) : Prop where
  negative : x.negative = false
  isFinite : x.isFinite = true
  absValue : x.absValue = n

variable {x y z : Binary64}

theorem absValue_eq_ratio (x : Binary64) : x.absValue = (x.ratio.1 : ℚ) / x.ratio.2 := by
  rw [absValue, zpow_eq_div (by norm_num), ratio]
  push_cast
  ring

theorem ratio_pos (x : Binary64) : 0 < x.ratio.2 := Nat.two_pow_pos _

theorem significand_ne_zero (hx : x.absValue ≠ 0) : x.significand ≠ 0 := by
  intro hzero
  simp [absValue, hzero] at hx

/-! ### Naturals -/

/-- Shifted up to 53 places, a natural is the significand of a number. -/
theorem exists_isExact {m j : Nat} (hm : 0 < m) (hlt : m < 2 ^ 53) (hj : j ≤ 900) :
    ∃ x : Binary64, x.IsExact (m * 2 ^ j) := by
  have hlog : m.log2 ≤ 52 := Nat.le_of_lt_succ ((Nat.log2_lt hm.ne').mpr hlt)
  have hshift : 2 ^ m.log2 * 2 ^ (52 - m.log2) = 2 ^ 52 := by
    rw [← Nat.pow_add]
    congr 1
    omega
  have hlow : 2 ^ 52 ≤ m * 2 ^ (52 - m.log2) := by
    rw [← hshift]
    exact Nat.mul_le_mul_right _ (Nat.log2_self_le hm.ne')
  have hhigh : m * 2 ^ (52 - m.log2) < 2 ^ 53 := by
    have hmul := Nat.mul_lt_mul_of_pos_right (Nat.lt_log2_self (n := m))
      (Nat.two_pow_pos (52 - m.log2))
    rw [Nat.pow_succ, Nat.mul_right_comm, hshift] at hmul
    exact hmul
  let x : Binary64 := ⟨false, ⟨j + m.log2 + 1023, by omega⟩,
    ⟨m * 2 ^ (52 - m.log2) - 2 ^ 52, by omega⟩⟩
  have hsignificand : x.significand = m * 2 ^ (52 - m.log2) := by
    simp only [significand, x]
    rw [if_neg (by omega)]
    omega
  have hpower : x.power = (j : Int) - (52 - m.log2 : Nat) := by
    simp only [power, x]
    omega
  refine ⟨x, rfl, ?_, ?_⟩
  · simp [isFinite, x]
    omega
  · rw [absValue, hsignificand, hpower, zpow_sub₀ (by norm_num), zpow_natCast, zpow_natCast]
    push_cast
    field_simp

/-- A natural of at most 53 places is a number, and so is each of its doubles. -/
theorem ofNat_isExact {m j : Nat} (hm : m ≤ 2 ^ 53) (hj : j < 900) :
    (ofNat (m * 2 ^ j)).IsExact (m * 2 ^ j) := by
  have hkept : ∀ m j : Nat, 0 < m → m < 2 ^ 53 → j ≤ 900 →
      (ofNat (m * 2 ^ j)).IsExact (m * 2 ^ j) := by
    intro m j hpos hlt hj
    obtain ⟨x, hx⟩ := exists_isExact hpos hlt hj
    have hm : x.significand ≠ 0 := significand_ne_zero (by rw [hx.absValue]; positivity)
    have hattracts : x.Attracts ((m * 2 ^ j : Nat) / (1 : Nat)) := by
      rw [Nat.cast_one, div_one, ← hx.absValue]
      exact attracts_magnitude hm
    have hnearest := nearest_of_attracts hx.isFinite hm Nat.one_pos hattracts
    rw [hx.negative] at hnearest
    rw [ofNat, hnearest]
    exact hx
  rcases Nat.eq_zero_or_pos m with rfl | hpos
  · have hzero : (ofNat 0).significand = 0 := (significand_eq_zero_iff _).mpr (by decide)
    rw [Nat.zero_mul]
    exact ⟨by decide, by decide, by rw [absValue, hzero, Nat.cast_zero, zero_mul]⟩
  · rcases hm.lt_or_eq with hlt | rfl
    · exact hkept m j hpos hlt hj.le
    · have hdouble : 2 ^ 53 * 2 ^ j = 2 ^ 52 * 2 ^ (j + 1) := by ring
      rw [hdouble]
      exact hkept _ _ (by decide) (by decide) hj

/-! ### Products and quotients

A product of numbers is `nearest` of a product of quotients. That this is the number whose interval
holds the rational product is the theorem on rounding, so nothing is computed here. -/

theorem isNaN_eq_false (hx : x.isFinite = true) : x.isNaN = false := by
  have hexponent : x.exponent.val ≠ 2047 := by simpa [isFinite] using hx
  simp [isNaN, hexponent]

theorem isInfinite_eq_false (hx : x.isFinite = true) : x.isInfinite = false := by
  have hexponent : x.exponent.val ≠ 2047 := by simpa [isFinite] using hx
  simp [isInfinite, hexponent]

theorem mul_eq_nearest (hx : x.isFinite = true) (hy : y.isFinite = true) :
    x * y = nearest (x.negative != y.negative) (x.ratio.1 * y.ratio.1) (x.ratio.2 * y.ratio.2) := by
  have hmul : x * y = mul x y := rfl
  rw [hmul, mul]
  simp [isNaN_eq_false hx, isNaN_eq_false hy, isInfinite_eq_false hx, isInfinite_eq_false hy]

theorem absValue_mul_absValue (x y : Binary64) : x.absValue * y.absValue =
    ((x.ratio.1 * y.ratio.1 : Nat) : ℚ) / (x.ratio.2 * y.ratio.2 : Nat) := by
  rw [absValue_eq_ratio, absValue_eq_ratio]
  push_cast
  rw [div_mul_div_comm]

/-- The product of finite numbers is the number in whose interval their rational product lies. The
number is given together with the reason why it is the one, and is not computed. -/
theorem mul_of_attracts (hx : x.isFinite = true) (hy : y.isFinite = true)
    (hz : z.isFinite = true) (hm : z.significand ≠ 0)
    (hsign : z.negative = (x.negative != y.negative))
    (h : z.Attracts (x.absValue * y.absValue)) : x * y = z := by
  rw [absValue_mul_absValue] at h
  have hnearest := nearest_of_attracts hz hm (Nat.mul_pos x.ratio_pos y.ratio_pos) h
  rw [mul_eq_nearest hx hy, ← hsign, hnearest]

/-- The quotient of finite numbers is the number in whose interval their rational quotient lies. -/
theorem div_of_attracts (hx : x.isFinite = true) (hy : y.isFinite = true)
    (hzero : y.significand ≠ 0) (hz : z.isFinite = true) (hm : z.significand ≠ 0)
    (hsign : z.negative = (x.negative != y.negative))
    (h : z.Attracts (x.absValue / y.absValue)) : x / y = z := by
  have hvalue : x.absValue / y.absValue =
      ((x.ratio.1 * y.ratio.2 : Nat) : ℚ) / (x.ratio.2 * y.ratio.1 : Nat) := by
    rw [absValue_eq_ratio, absValue_eq_ratio]
    push_cast
    rw [div_div_div_eq]
  have hpos : 0 < y.ratio.1 := Nat.mul_pos (Nat.pos_of_ne_zero hzero) (Nat.two_pow_pos _)
  have hzero' : y.isZero = false := by
    simpa using mt (significand_eq_zero_iff y).mpr hzero
  rw [hvalue] at h
  have hnearest := nearest_of_attracts hz hm (Nat.mul_pos x.ratio_pos hpos) h
  rw [hsign] at hnearest
  have hdiv : x / y = div x y := rfl
  rw [hdiv, div]
  simp [isNaN_eq_false hx, isNaN_eq_false hy, isInfinite_eq_false hx, isInfinite_eq_false hy,
    hzero', hnearest]

end TypedPipeline.Binary64
