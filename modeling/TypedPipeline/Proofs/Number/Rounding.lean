import Mathlib.Data.Int.Log
import Mathlib.Data.Rat.Floor
import Mathlib.Tactic.Linarith
import Mathlib.Tactic.Positivity
import Mathlib.Tactic.Ring
import TypedPipeline.Number.Decimal

/-!
# Rounding to the nearest number

A quotient of naturals is rounded by an integer division on the scale of the last place. Here the
same is said with rationals: the values that round to a number form an interval, which reaches half
a place up, and half a place down or, below a power of two, a quarter of a place.

## The interval

A number attracts the values that round to it. The scale of its last place is `2 ^ power`, and the
ends of the interval are written in quarters of that, so that both the half place above and the
quarter place below a power of two are integers. Ends belong to the interval exactly if the
significand is even.

## Why values below a power of two are a case of their own

A value in the lower half of the interval of a power of two has a smaller logarithm than the power
itself, so it is rounded on the next finer scale. There the integer nearest to it is `2 ^ 53`, which
is one place too long for a significand and carries into the exponent. The lemmas from
`significand_eq` to `nearest_below` follow this case; in all others the scale is the one of the
number.

## Implementation notes

Powers with exponents of any sign are `zpow` of rationals, and integer quotients of the program are
brought to this form by `zpow_eq_div` as early as possible. The logarithm is the one of the library
(`Int.log`), which has a lemma for each of the few facts needed.

## Main definitions

* `Binary64.Nearest` — a value is rounded to an integer, a tie to the even one
* `Binary64.Attracts` — a value lies in the interval of a number

## Main results

* `Binary64.floorLog2_eq` — the logarithm of a quotient
* `Binary64.nearest_of_attracts` — a value in the interval of a number is rounded to that number
-/

namespace TypedPipeline

open Binary64 (floorLog2 roundQuotient ofCode nearest)

namespace Binary64

/-! ### Patterns -/

/-- The biased exponent counts from the least power. -/
theorem code_eq (x : Binary64) :
    x.code = (x.power + 1074).toNat * 2 ^ 52 + x.significand := by
  rw [code, significand]
  split
  · rename_i hzero
    have hpower : (x.power + 1074).toNat = 0 := by
      simp only [power]
      omega
    simp [hzero, hpower]
  · rename_i hpos
    have hpower : (x.power + 1074).toNat = x.exponent.val - 1 := by
      simp only [power]
      omega
    rw [hpower]
    omega

theorem ofCode_code (x : Binary64) : ofCode x.negative x.code = x := by
  obtain ⟨negative, exponent, fraction⟩ := x
  have hexponent := exponent.isLt
  have hfraction := fraction.isLt
  simp only [ofCode, code, mk.injEq, true_and]
  constructor
  · apply Fin.ext
    rw [Fin.ofNat]
    dsimp only
    omega
  · apply Fin.ext
    rw [Fin.ofNat]
    dsimp only
    omega

/-! ### Rounding a quotient -/

theorem roundQuotient_eq {num den m : Nat} (hden : 0 < den)
    (hlow : 2 * m * den < 2 * num + den ∨ m % 2 = 0 ∧ 2 * m * den = 2 * num + den)
    (hhigh : 2 * num < (2 * m + 1) * den ∨ m % 2 = 0 ∧ 2 * num = (2 * m + 1) * den) :
    roundQuotient .toEven num den = m := by
  have hdiv := Nat.div_add_mod num den
  have hmod := Nat.mod_lt num hden
  have hcases : num / den = m ∨ num / den + 1 = m := by
    rcases Nat.lt_trichotomy (num / den) m with hlt | heq | hgt
    · right
      by_contra hne
      have hle : num / den + 2 ≤ m := by omega
      have hmul := Nat.mul_le_mul_left den hle
      have hcomm : 2 * m * den = 2 * (den * m) := by ring
      rw [hcomm] at hlow
      rw [Nat.mul_add] at hmul
      omega
    · exact .inl heq
    · have hmul := Nat.mul_le_mul_left den hgt
      have hcomm : (2 * m + 1) * den = 2 * (den * m) + den := by ring
      rw [hcomm] at hhigh
      rw [Nat.mul_succ] at hmul
      omega
  simp only [roundQuotient]
  rcases hcases with heq | heq
  · have hcomm : (2 * m + 1) * den = 2 * (den * m) + den := by ring
    rw [hcomm] at hhigh
    rw [heq] at hdiv ⊢
    have hnot : ¬ den < 2 * (num % den) := by omega
    rw [if_neg hnot]
    by_cases hbelow : 2 * (num % den) < den
    · rw [if_pos hbelow]
    · rw [if_neg hbelow, if_pos (by omega)]
  · have hcomm : 2 * m * den = 2 * (den * (num / den)) + 2 * den := by
      rw [← heq]
      ring
    rw [hcomm] at hlow
    have hnot : ¬ 2 * (num % den) < den := by omega
    rw [if_neg hnot, heq]
    by_cases habove : den < 2 * (num % den)
    · rw [if_pos habove]
    · rw [if_neg habove, if_neg (by omega)]

/-! ### Logarithms

The program computes the logarithm of a quotient as a difference of two logarithms of naturals and
corrects it by one comparison. Here that is shown to be the integer logarithm of the rational. -/

/-- A power with an exponent of any sign, as a quotient of powers of naturals. -/
theorem zpow_eq_div {b : ℚ} (hb : b ≠ 0) (k : Int) : b ^ k = b ^ k.toNat / b ^ (-k).toNat := by
  have hk : k = (k.toNat : Int) - (-k).toNat := by omega
  calc b ^ k = b ^ ((k.toNat : Int) - (-k).toNat) := by rw [← hk]
    _ = b ^ k.toNat / b ^ (-k).toNat := by rw [zpow_sub₀ hb, zpow_natCast, zpow_natCast]

/-- The logarithm is the exponent of the power of two just below. -/
theorem log_eq_of {v : ℚ} {l : Int} (hlow : 2 ^ l ≤ v) (hhigh : v < 2 ^ (l + 1)) :
    Int.log 2 v = l := by
  have hpos : 0 < v := lt_of_lt_of_le (zpow_pos (by decide) l) hlow
  have hle : l ≤ Int.log 2 v := (Int.zpow_le_iff_le_log (by decide) hpos).mp hlow
  have hlt : Int.log 2 v < l + 1 := (Int.lt_zpow_iff_log_lt (by decide) hpos).mp hhigh
  omega

/-- A power of two is added to the logarithm. -/
theorem log_mul_zpow {w : ℚ} {l : Int} (hlow : 2 ^ l ≤ w) (hhigh : w < 2 ^ (l + 1)) (k : Int) :
    Int.log 2 (w * 2 ^ k) = k + l := by
  have hk : (0 : ℚ) < 2 ^ k := zpow_pos (by norm_num) k
  refine log_eq_of ?_ ?_
  · rw [zpow_add₀ (by norm_num), mul_comm]
    exact mul_le_mul_of_nonneg_right hlow hk.le
  · rw [Int.add_assoc, zpow_add₀ (by norm_num), mul_comm]
    exact mul_lt_mul_of_pos_left hhigh hk

/-- The logarithm of a quotient is the difference of the logarithms, or one less. -/
theorem floorLog2_eq {num den : Nat} (hnum : 0 < num) (hden : 0 < den) :
    floorLog2 num den = Int.log 2 ((num : ℚ) / den) := by
  have hden' : (0 : ℚ) < den := by exact_mod_cast hden
  have hn : (2 : ℚ) ^ num.log2 ≤ num := by exact_mod_cast Nat.log2_self_le hnum.ne'
  have hn' : (num : ℚ) < 2 ^ (num.log2 + 1) := by exact_mod_cast Nat.lt_log2_self
  have hd : (2 : ℚ) ^ den.log2 ≤ den := by exact_mod_cast Nat.log2_self_le hden.ne'
  have hd' : (den : ℚ) < 2 ^ (den.log2 + 1) := by exact_mod_cast Nat.lt_log2_self
  generalize hl : (num.log2 : Int) - den.log2 = l
  have hpow : (2 : ℚ) ^ num.log2 = 2 ^ l * 2 ^ den.log2 := by
    rw [← zpow_natCast, ← zpow_natCast, ← zpow_add₀ (by norm_num)]
    congr 1
    omega
  have hl0 : (0 : ℚ) < 2 ^ l := zpow_pos (by norm_num) l
  have hlow : (2 : ℚ) ^ (l - 1) ≤ num / den := by
    rw [le_div_iff₀ hden', zpow_sub_one₀ (by norm_num)]
    rw [pow_succ] at hd'
    nlinarith
  have hhigh : (num : ℚ) / den < 2 ^ (l + 1) := by
    rw [div_lt_iff₀ hden', zpow_add_one₀ (by norm_num)]
    rw [pow_succ, hpow] at hn'
    nlinarith
  have hcompare : num * 2 ^ (-l).toNat < den * 2 ^ l.toNat ↔ (num : ℚ) / den < 2 ^ l := by
    rw [zpow_eq_div (by norm_num), div_lt_div_iff₀ hden' (by positivity)]
    rw [mul_comm _ (den : ℚ)]
    exact_mod_cast Iff.rfl
  simp only [floorLog2, hl]
  split
  · rename_i hlt
    exact (log_eq_of hlow (by rw [Int.sub_add_cancel]; exact hcompare.mp hlt)).symm
  · rename_i hge
    exact (log_eq_of (not_lt.mp (mt hcompare.mpr hge)) hhigh).symm

/-! ### The values that round to a number -/

/-- A value is no more than a half away; a tie goes to the even one. No value has two integers that
are nearest in this sense, since of two neighbours only one is even. -/
def Nearest (m : Nat) (v : ℚ) : Prop :=
  ((m : ℚ) - 1 / 2 < v ∨ m % 2 = 0 ∧ (m : ℚ) - 1 / 2 = v) ∧
    (v < (m : ℚ) + 1 / 2 ∨ m % 2 = 0 ∧ v = (m : ℚ) + 1 / 2)

theorem roundQuotient_of_nearest {num den m : Nat} (hden : 0 < den)
    (h : Nearest m ((num : ℚ) / den)) : roundQuotient .toEven num den = m := by
  have hden' : (0 : ℚ) < den := by exact_mod_cast hden
  obtain ⟨hlow, hhigh⟩ := h
  have hlow' : (m : ℚ) - 1 / 2 = (2 * m * den - den : ℚ) / (2 * den) := by field_simp
  have hhigh' : (m : ℚ) + 1 / 2 = ((2 * m + 1) * den : ℚ) / (2 * den) := by field_simp
  have hnum : (num : ℚ) / den = 2 * num / (2 * den) := by field_simp
  rw [hlow', hnum, div_lt_div_iff_of_pos_right (by positivity),
    div_left_inj' (by positivity)] at hlow
  rw [hhigh', hnum, div_lt_div_iff_of_pos_right (by positivity),
    div_left_inj' (by positivity)] at hhigh
  refine roundQuotient_eq hden ?_ ?_
  · refine hlow.imp (fun hlt => ?_) (And.imp_right fun heq => ?_)
    · have : (2 * m * den : ℚ) < 2 * num + den := by linarith
      exact_mod_cast this
    · have : (2 * m * den : ℚ) = 2 * num + den := by linarith
      exact_mod_cast this
  · refine hhigh.imp (fun hlt => ?_) (And.imp_right fun heq => ?_)
    · exact_mod_cast hlt
    · exact_mod_cast heq

/-- A quotient is rounded at the power of two that leaves 53 places, or at the least one. -/
theorem nearest_eq_ofCode {negative : Bool} {num den m : Nat} {q : Int} (hnum : 0 < num)
    (hden : 0 < den) (hq : Max.max (Int.log 2 ((num : ℚ) / den) - 52) (-1074) = q)
    (h : Nearest m ((num : ℚ) / den / 2 ^ q)) :
    nearest negative num den =
      ofCode negative (Min.min ((q + 1074).toNat * 2 ^ 52 + m) (2047 * 2 ^ 52)) := by
  have hscaled : (num : ℚ) / den / 2 ^ q =
      ((num * 2 ^ (-q).toNat : Nat) : ℚ) / ((den * 2 ^ q.toNat : Nat) : ℚ) := by
    rw [zpow_eq_div (by norm_num) q]
    push_cast
    field_simp
  rw [hscaled] at h
  have hround := roundQuotient_of_nearest (by positivity) h
  simp only [nearest]
  rw [if_neg hnum.ne', floorLog2_eq hnum hden, hq, hround]

/-- The lower end of the values that round to a number, in quarters of its last place: below a power
of two numbers are twice as dense. -/
def lowEnd (x : Binary64) : Nat :=
  if Decimal.narrowBelow x then 4 * x.significand - 1 else 4 * x.significand - 2

/-- The values that round to the magnitude of a number. The ends belong to them if the number is
even. This is the relation in which all other modules speak of rounding. -/
def Attracts (x : Binary64) (v : ℚ) : Prop :=
  ((x.lowEnd : ℚ) * 2 ^ (x.power - 2) < v ∨
      x.significand % 2 = 0 ∧ (x.lowEnd : ℚ) * 2 ^ (x.power - 2) = v) ∧
    (v < ((4 * x.significand + 2 : Nat) : ℚ) * 2 ^ (x.power - 2) ∨
      x.significand % 2 = 0 ∧ v = ((4 * x.significand + 2 : Nat) : ℚ) * 2 ^ (x.power - 2))

variable {x : Binary64}

theorem significand_lt (x : Binary64) : x.significand < 2 ^ 53 := by
  have hfraction := x.fraction.isLt
  rw [significand]
  split <;> omega

/-- Beyond the least exponents the first place is always taken. This is why most numbers have a
significand of 53 places. -/
theorem le_significand (hx : x.power ≠ -1074) : 2 ^ 52 ≤ x.significand := by
  rw [significand, if_neg]
  · exact Nat.le_add_right _ _
  · intro hzero
    simp [power, hzero] at hx

/-- A power of two beyond the least exponents has a narrow gap below it. -/
theorem lowEnd_of_power (hx : x.power ≠ -1074) (hm : x.significand = 2 ^ 52) :
    x.lowEnd = 2 ^ 54 - 1 := by
  have hexponent : 1 < x.exponent.val := by
    simp only [power] at hx
    omega
  have hfraction : x.fraction.val = 0 := by
    rw [significand, if_neg (by omega)] at hm
    omega
  rw [lowEnd, if_pos (by simp [Decimal.narrowBelow, hfraction, hexponent]), hm]
  rfl

theorem le_lowEnd (x : Binary64) : (4 * x.significand - 2 : ℚ) ≤ x.lowEnd := by
  have hle : 4 * x.significand ≤ x.lowEnd + 2 := by
    rw [lowEnd]
    split <;> omega
  have hcast : (4 * x.significand : ℚ) ≤ x.lowEnd + 2 := by exact_mod_cast hle
  linarith

theorem le_power (x : Binary64) : -1074 ≤ x.power := by
  simp only [power]
  omega

theorem code_lt (hx : x.isFinite = true) : x.code < 2047 * 2 ^ 52 := by
  have hexponent := x.exponent.isLt
  have hfraction := x.fraction.isLt
  have hne : x.exponent.val ≠ 2047 := by simpa [isFinite] using hx
  rw [code]
  omega

theorem significand_eq_zero_iff (x : Binary64) : x.significand = 0 ↔ x.isZero = true := by
  rw [significand, isZero, code, beq_iff_eq]
  split <;> omega

/-- The interval of a number other than zero holds positive values only. -/
theorem Attracts.pos {v : ℚ} (hm : x.significand ≠ 0) (h : x.Attracts v) : 0 < v := by
  have hpos : 0 < (x.lowEnd : ℚ) * 2 ^ (x.power - 2) := by
    have hend := x.le_lowEnd
    have hm' : (1 : ℚ) ≤ x.significand := by exact_mod_cast Nat.one_le_iff_ne_zero.mpr hm
    exact mul_pos (by linarith) (zpow_pos (by norm_num) _)
  rcases h.1 with hlt | ⟨-, heq⟩
  · exact hpos.trans hlt
  · exact heq ▸ hpos

/-- A number other than zero lies in its interval. So a number that is read exactly is read back as
itself. -/
theorem attracts_magnitude (hm : x.significand ≠ 0) :
    x.Attracts (x.significand * 2 ^ x.power) := by
  have hp : (0 : ℚ) < 2 ^ (x.power - 2) := zpow_pos (by norm_num) _
  have hvalue : (x.significand : ℚ) * 2 ^ x.power =
      (4 * x.significand : Nat) * 2 ^ (x.power - 2) := by
    rw [zpow_sub₀ (by norm_num)]
    push_cast
    ring
  have hlow : x.lowEnd < 4 * x.significand := by
    rw [lowEnd]
    split <;> omega
  rw [Attracts, hvalue]
  refine ⟨.inl (mul_lt_mul_of_pos_right ?_ hp), .inl (mul_lt_mul_of_pos_right ?_ hp)⟩
  · exact_mod_cast hlow
  · exact_mod_cast (by omega : 4 * x.significand < 4 * x.significand + 2)

/-- The values that a number attracts, on the scale of its last place. -/
theorem Attracts.scaled {w : ℚ} (h : x.Attracts (w * 2 ^ x.power)) :
    ((x.lowEnd : ℚ) / 4 < w ∨ x.significand % 2 = 0 ∧ (x.lowEnd : ℚ) / 4 = w) ∧
      (w < x.significand + 1 / 2 ∨ x.significand % 2 = 0 ∧ w = x.significand + 1 / 2) := by
  have hp : (0 : ℚ) < 2 ^ x.power := zpow_pos (by norm_num) _
  have hlow : (x.lowEnd : ℚ) * 2 ^ (x.power - 2) = x.lowEnd / 4 * 2 ^ x.power := by
    rw [zpow_sub₀ (by norm_num)]
    norm_num
    ring
  have hhigh : ((4 * x.significand + 2 : Nat) : ℚ) * 2 ^ (x.power - 2) =
      (x.significand + 1 / 2) * 2 ^ x.power := by
    rw [zpow_sub₀ (by norm_num)]
    push_cast
    norm_num
    ring
  rw [Attracts, hlow, hhigh, mul_lt_mul_iff_left₀ hp, mul_lt_mul_iff_left₀ hp,
    mul_left_inj' hp.ne', mul_left_inj' hp.ne'] at h
  exact h

namespace Attracts

variable {w : ℚ}

theorem lowEnd_le (h : x.Attracts (w * 2 ^ x.power)) : (x.lowEnd : ℚ) / 4 ≤ w :=
  h.scaled.1.elim le_of_lt fun h => h.2.le

theorem le_add_half (h : x.Attracts (w * 2 ^ x.power)) : w ≤ x.significand + 1 / 2 :=
  h.scaled.2.elim le_of_lt fun h => h.2.le

/-- What a number attracts is nearest to its significand. -/
theorem nearest (h : x.Attracts (w * 2 ^ x.power)) : Nearest x.significand w := by
  obtain ⟨hlow, hhigh⟩ := h.scaled
  refine ⟨?_, hhigh⟩
  have hle := x.le_lowEnd
  rcases hlow with hlt | ⟨heven, heq⟩
  · exact .inl (by linarith)
  · rcases hle.lt_or_eq with hlt | heq'
    · exact .inl (by linarith)
    · exact .inr ⟨heven, by linarith⟩

/-- It is rounded at the last place of the number, if it has as many places or if there is no lower
place. -/
theorem place (h : x.Attracts (w * 2 ^ x.power)) (hpos : 0 < w)
    (hplace : (2 : ℚ) ^ 52 ≤ w ∨ x.power = -1074) :
    Max.max (Int.log 2 (w * 2 ^ x.power) - 52) (-1074) = x.power := by
  have hp : (0 : ℚ) < 2 ^ x.power := zpow_pos (by norm_num) _
  have hwide : w < 2 ^ 53 := by
    have hm : (x.significand : ℚ) + 1 ≤ 2 ^ 53 := by exact_mod_cast x.significand_lt
    have hle := h.le_add_half
    linarith
  have hleast := x.le_power
  rcases hplace with hfull | hleast'
  · have hlog : Int.log 2 (w * 2 ^ x.power) = x.power + 52 :=
      log_mul_zpow (by exact_mod_cast hfull) (by exact_mod_cast hwide) _
    omega
  · have hlog : Int.log 2 (w * 2 ^ x.power) < x.power + 53 := by
      refine (Int.lt_zpow_iff_log_lt (by decide) (mul_pos hpos hp)).mp ?_
      push_cast
      rw [zpow_add₀ (by norm_num), mul_comm]
      exact mul_lt_mul_of_pos_left hwide hp
    omega

/-- Only a power of two attracts values with fewer places than its own significand. -/
theorem significand_eq (h : x.Attracts (w * 2 ^ x.power)) (hw : w < 2 ^ 52)
    (hpower : x.power ≠ -1074) : x.significand = 2 ^ 52 := by
  have hfull := le_significand hpower
  have hend := x.le_lowEnd
  have hle := h.lowEnd_le
  have hlt : (x.significand : ℚ) < 2 ^ 52 + 1 := by linarith
  have hlt' : x.significand < 2 ^ 52 + 1 := by exact_mod_cast hlt
  omega

/-- The end of its interval is then a quarter of a place away. -/
theorem lowEnd_eq (h : x.Attracts (w * 2 ^ x.power)) (hw : w < 2 ^ 52)
    (hpower : x.power ≠ -1074) : (x.lowEnd : ℚ) = 2 ^ 54 - 1 := by
  rw [lowEnd_of_power hpower (h.significand_eq hw hpower)]
  norm_num

/-- Such a value is rounded at the place below. -/
theorem place_below (h : x.Attracts (w * 2 ^ x.power)) (hw : w < 2 ^ 52)
    (hpower : x.power ≠ -1074) :
    Max.max (Int.log 2 (w * 2 ^ x.power) - 52) (-1074) = x.power - 1 := by
  have hend := h.lowEnd_eq hw hpower
  have hle := h.lowEnd_le
  have hlow : (2 : ℚ) ^ 51 ≤ w := by linarith
  have hlog : Int.log 2 (w * 2 ^ x.power) = x.power + 51 :=
    log_mul_zpow (by exact_mod_cast hlow) (by exact_mod_cast hw) _
  have hleast := x.le_power
  omega

/-- It goes up to the power of two, which has a significand of twice the size there. -/
theorem nearest_below (h : x.Attracts (w * 2 ^ x.power)) (hw : w < 2 ^ 52)
    (hpower : x.power ≠ -1074) : Nearest (2 ^ 53) (2 * w) := by
  have hend := h.lowEnd_eq hw hpower
  refine ⟨?_, .inl ?_⟩
  · push_cast
    rcases h.scaled.1 with hlt | ⟨-, heq⟩
    · exact .inl (by linarith)
    · exact .inr ⟨by norm_num, by linarith⟩
  · push_cast
    linarith

end Attracts

/-- A value that a number attracts is rounded to it. So the number that a quotient is rounded to can
be found by any means, and checked by its interval. -/
theorem nearest_of_attracts {num den : Nat} (hx : x.isFinite = true) (hm : x.significand ≠ 0)
    (hden : 0 < den) (h : x.Attracts ((num : ℚ) / den)) :
    Binary64.nearest x.negative num den = x := by
  have hp : (0 : ℚ) < 2 ^ x.power := zpow_pos (by norm_num) _
  obtain ⟨w, hw⟩ : ∃ w : ℚ, (num : ℚ) / den = w * 2 ^ x.power :=
    ⟨(num : ℚ) / den / 2 ^ x.power, by field_simp⟩
  have hquotient := h.pos hm
  have hnum : 0 < num := by
    refine Nat.pos_of_ne_zero fun hzero => hquotient.ne' ?_
    rw [hzero, Nat.cast_zero, zero_div]
  rw [hw] at h hquotient
  have hpos : 0 < w := pos_of_mul_pos_left hquotient hp.le
  have hcode := (code_lt hx).le
  by_cases hplace : (2 : ℚ) ^ 52 ≤ w ∨ x.power = -1074
  · have hq := h.place hpos hplace
    have hv : (num : ℚ) / den / 2 ^ x.power = w := by
      rw [hw]
      field_simp
    rw [← hw] at hq
    rw [nearest_eq_ofCode hnum hden hq (by rw [hv]; exact h.nearest), ← code_eq,
      Nat.min_eq_left hcode, ofCode_code]
  · obtain ⟨hbelow, hpower⟩ := not_or.mp hplace
    rw [not_le] at hbelow
    have hq := h.place_below hbelow hpower
    have hv : (num : ℚ) / den / 2 ^ (x.power - 1) = 2 * w := by
      rw [hw, zpow_sub_one₀ (by norm_num)]
      field_simp
    -- the significand carries into the exponent
    have hcode' : (x.power - 1 + 1074).toNat * 2 ^ 52 + 2 ^ 53 = x.code := by
      have hleast := x.le_power
      rw [code_eq, h.significand_eq hbelow hpower]
      omega
    rw [← hw] at hq
    rw [nearest_eq_ofCode hnum hden hq (by rw [hv]; exact h.nearest_below hbelow hpower), hcode',
      Nat.min_eq_left hcode, ofCode_code]

end Binary64

end TypedPipeline
