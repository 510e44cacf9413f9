import TypedPipeline.Proofs.Number.Exact

/-!
# Rounding keeps the order

A greater quotient is never rounded to a smaller number. On one scale this is so because two
integers that are nearest to values in order are in order themselves. Where the scales differ, the
significand of the smaller quotient carries over by at most one place, and the greater quotient has
at least the first place of its own scale.

Numbers are compared by their patterns without sign, in which the exponent counts more than every
fraction. So the order holds up to infinity, and no case has to be told apart for it.

Rounding is not monotone for free. The scale depends on the value, and on a finer scale the nearest
integer may be as large as on a coarser one. What saves it is that a significand on any scale but
the least has its first place taken: a greater scale adds at least as much to the pattern as the
finer significand can carry over.

## Main definitions

* `Binary64.scale` — the power of two at which a value is rounded

## Main results

* `Binary64.Nearest.mono` — integers nearest to values in order are in order
* `Binary64.code_nearest_mono` — a greater quotient gives no smaller number
* `Binary64.absValue_mono` — patterns are ordered as their values are
* `Binary64.ceilNat_ofNat_mul_le` — a factor of at most one does not lead beyond a number
-/

namespace TypedPipeline.Binary64

variable {x y : Binary64}

/-! ### Nearest integers -/

theorem exists_nearest {v : ℚ} (hv : 0 ≤ v) : ∃ m, Nearest m v := by
  have hlow := Nat.floor_le hv
  have hhigh := Nat.lt_floor_add_one v
  rcases lt_trichotomy v (⌊v⌋₊ + 1 / 2) with hlt | heq | hgt
  · exact ⟨⌊v⌋₊, .inl (by linarith), .inl hlt⟩
  · rcases Nat.mod_two_eq_zero_or_one ⌊v⌋₊ with heven | hodd
    · exact ⟨⌊v⌋₊, .inl (by linarith), .inr ⟨heven, heq⟩⟩
    · refine ⟨⌊v⌋₊ + 1, .inr ⟨by omega, ?_⟩, .inl ?_⟩ <;> push_cast <;> linarith
  · refine ⟨⌊v⌋₊ + 1, .inl ?_, .inl ?_⟩ <;> push_cast <;> linarith

theorem nearest_natCast (m : Nat) : Nearest m m := ⟨.inl (by linarith), .inl (by linarith)⟩

/-- Of two integers next to each other only one is even, so a tie does not break the order. -/
theorem Nearest.mono {m n : Nat} {v w : ℚ} (hm : Nearest m v) (hn : Nearest n w) (h : v ≤ w) :
    m ≤ n := by
  by_contra hlt
  have hstep : (n : ℚ) + 1 ≤ m := by exact_mod_cast not_le.mp hlt
  rcases hm.1 with hv | ⟨heven, hv⟩ <;> rcases hn.2 with hw | ⟨heven', hw⟩
  · linarith
  · linarith
  · linarith
  · have hnext : (m : ℚ) = n + 1 := by linarith
    have hnext' : m = n + 1 := by exact_mod_cast hnext
    omega

theorem Nearest.le_two_pow {m k : Nat} {v : ℚ} (hm : Nearest m v) (h : v ≤ 2 ^ k) : m ≤ 2 ^ k :=
  hm.mono (nearest_natCast _) (by exact_mod_cast h)

theorem Nearest.two_pow_le {m k : Nat} {v : ℚ} (hm : Nearest m v) (h : 2 ^ k ≤ v) : 2 ^ k ≤ m :=
  (nearest_natCast _).mono hm (by exact_mod_cast h)

/-! ### Scales -/

/-- The power of two at which a value is rounded: the one that leaves 53 places, or the least. -/
def scale (v : ℚ) : Int := Max.max (Int.log 2 v - 52) (-1074)

theorem scale_mono {v w : ℚ} (hv : 0 < v) (h : v ≤ w) : scale v ≤ scale w := by
  have hlog : Int.log 2 v ≤ Int.log 2 w := Int.log_mono_right hv h
  rw [scale, scale]
  omega

theorem le_scale (v : ℚ) : -1074 ≤ scale v := Int.le_max_right _ _

/-- At its scale a value has at most 53 places. -/
theorem div_scale_le {v : ℚ} : v / 2 ^ scale v ≤ 2 ^ 53 := by
  have hp : (0 : ℚ) < 2 ^ scale v := zpow_pos (by norm_num) _
  have hlt := Int.lt_zpow_succ_log_self (b := 2) (by decide) v
  rw [div_le_iff₀ hp, ← zpow_natCast, ← zpow_add₀ (by norm_num)]
  refine hlt.le.trans (zpow_le_zpow_right₀ (by norm_num) ?_)
  rw [scale]
  omega

/-- Beyond the least scale it has them all. -/
theorem le_div_scale {v : ℚ} (hv : 0 < v) (hscale : -1074 < scale v) :
    2 ^ 52 ≤ v / 2 ^ scale v := by
  have hp : (0 : ℚ) < 2 ^ scale v := zpow_pos (by norm_num) _
  have hle := Int.zpow_log_le_self (b := 2) (by decide) hv
  rw [le_div_iff₀ hp, ← zpow_natCast, ← zpow_add₀ (by norm_num)]
  refine le_trans (zpow_le_zpow_right₀ (by norm_num) ?_) hle
  rw [scale] at hscale ⊢
  omega

/-! ### Patterns -/

theorem code_ofCode (negative : Bool) {n : Nat} (hn : n ≤ 2047 * 2 ^ 52) :
    (ofCode negative n).code = n := by
  simp only [ofCode, code, Fin.ofNat]
  omega

theorem code_zero (negative : Bool) : (zero negative).code = 0 :=
  code_ofCode negative (Nat.zero_le _)

theorem isFinite_of_code_lt (hx : x.code < 2047 * 2 ^ 52) : x.isFinite = true := by
  have hne : x.exponent.val ≠ 2047 := by
    rw [code] at hx
    omega
  simpa [isFinite] using hne

/-- The pattern is made of the scale and of the integer that is nearest at this scale. -/
theorem exists_code_nearest (negative : Bool) {num den : Nat} (hnum : 0 < num) (hden : 0 < den) :
    ∃ m, Nearest m ((num : ℚ) / den / 2 ^ scale (num / den)) ∧
      (nearest negative num den).code =
        Min.min ((scale (num / den) + 1074).toNat * 2 ^ 52 + m) (2047 * 2 ^ 52) := by
  have hp : (0 : ℚ) < 2 ^ scale (num / den) := zpow_pos (by norm_num) _
  obtain ⟨m, hm⟩ := exists_nearest (v := (num : ℚ) / den / 2 ^ scale (num / den)) (by positivity)
  refine ⟨m, hm, ?_⟩
  rw [nearest_eq_ofCode hnum hden rfl hm]
  exact code_ofCode _ (Nat.min_le_right _ _)

/-- A greater quotient gives no smaller number. -/
theorem code_nearest_mono (negative negative' : Bool) {num den num' den' : Nat} (hden : 0 < den)
    (hden' : 0 < den') (h : (num : ℚ) / den ≤ num' / den') :
    (nearest negative num den).code ≤ (nearest negative' num' den').code := by
  rcases Nat.eq_zero_or_pos num with rfl | hnum
  · have hzero : nearest negative 0 den = zero negative := if_pos rfl
    rw [hzero, code_zero]
    exact Nat.zero_le _
  have hpos : (0 : ℚ) < num / den := by positivity
  have hnum' : 0 < num' := by
    refine Nat.pos_of_ne_zero fun hzero => (hpos.trans_le h).ne' ?_
    rw [hzero, Nat.cast_zero, zero_div]
  obtain ⟨m, hm, hcode⟩ := exists_code_nearest negative hnum hden
  obtain ⟨m', hm', hcode'⟩ := exists_code_nearest negative' hnum' hden'
  rw [hcode, hcode']
  generalize (num : ℚ) / den = v at *
  generalize (num' : ℚ) / den' = v' at *
  have hleast := le_scale v
  rcases (scale_mono hpos h).eq_or_lt with heq | hlt
  · have hp : (0 : ℚ) < 2 ^ scale v' := zpow_pos (by norm_num) _
    rw [heq] at hm ⊢
    have hle : m ≤ m' := hm.mono hm' (div_le_div_of_nonneg_right h hp.le)
    exact min_le_min_right _ (Nat.add_le_add_left hle _)
  · -- the smaller one has at most 53 places, and the greater one has them all
    have hwide : m ≤ 2 ^ 53 := hm.le_two_pow div_scale_le
    have hfull : 2 ^ 52 ≤ m' := hm'.two_pow_le (le_div_scale (hpos.trans_le h) (by omega))
    omega

/-! ### Values -/

/-- Patterns are ordered as their values are. The pattern of infinity stands for a value as well,
the next power of two, so no finiteness is assumed. -/
theorem absValue_mono (h : x.code ≤ y.code) : x.absValue ≤ y.absValue := by
  rw [code_eq, code_eq] at h
  have hx := x.significand_lt
  have hy := y.significand_lt
  have hleast := x.le_power
  have hleast' := y.le_power
  have hp : (0 : ℚ) < 2 ^ x.power := zpow_pos (by norm_num) _
  rcases lt_trichotomy x.power y.power with hlt | heq | hgt
  · have hfull := le_significand (x := y) (by omega)
    have hlow : (x.significand : ℚ) ≤ 2 ^ 52 * 2 := by exact_mod_cast hx.le
    have hhigh : (2 ^ 52 : ℚ) ≤ y.significand := by exact_mod_cast hfull
    have hpower : (2 : ℚ) ^ (x.power + 1) ≤ 2 ^ y.power :=
      zpow_le_zpow_right₀ (by norm_num) (by omega)
    calc x.absValue ≤ 2 ^ 52 * 2 * 2 ^ x.power := mul_le_mul_of_nonneg_right hlow hp.le
      _ = 2 ^ 52 * 2 ^ (x.power + 1) := by rw [zpow_add_one₀ (by norm_num), mul_assoc, mul_comm 2]
      _ ≤ y.significand * 2 ^ y.power :=
          mul_le_mul hhigh hpower (zpow_nonneg (by norm_num) _) (Nat.cast_nonneg _)
  · rw [heq] at h
    have hle : (x.significand : ℚ) ≤ y.significand := by
      exact_mod_cast Nat.le_of_add_le_add_left h
    rw [absValue, absValue, ← heq]
    exact mul_le_mul_of_nonneg_right hle hp.le
  · have hfull := le_significand (x := x) (by omega)
    omega

theorem absValue_nonneg (x : Binary64) : 0 ≤ x.absValue :=
  mul_nonneg (Nat.cast_nonneg _) (zpow_nonneg (by norm_num) _)

theorem ceilNat_le {n : Nat} (h : x.absValue ≤ n) : x.ceilNat ≤ n := by
  have hpos := x.ratio_pos
  rw [absValue_eq_ratio, div_le_iff₀ (by exact_mod_cast hpos)] at h
  have hle : x.ratio.1 ≤ n * x.ratio.2 := by exact_mod_cast h
  rw [ceilNat, Nat.div_le_iff_le_mul_add_pred hpos, Nat.mul_comm]
  omega

theorem ofNat_code_mono {m n : Nat} (h : m ≤ n) : (ofNat m).code ≤ (ofNat n).code := by
  refine code_nearest_mono false false Nat.one_pos Nat.one_pos ?_
  have hle : (m : ℚ) ≤ n := by exact_mod_cast h
  gcongr

/-- A factor of at most one leads to no number beyond a natural that is a number itself. The natural
that is multiplied need not be one; it may be rounded up before the product is taken. -/
theorem ceilNat_ofNat_mul_le {n k : Nat} (hk : (ofNat k).IsExact k) (hn : n ≤ k)
    (hy : y.isFinite = true) (hle : y.absValue ≤ 1) : (ofNat n * y).ceilNat ≤ k := by
  have hcode := ofNat_code_mono hn
  have hfinite : (ofNat n).isFinite = true :=
    isFinite_of_code_lt (hcode.trans_lt (code_lt hk.isFinite))
  have hvalue : (ofNat n).absValue * y.absValue ≤ (k : ℚ) / (1 : Nat) := by
    have hbound := absValue_mono hcode
    rw [hk.absValue] at hbound
    rw [Nat.cast_one, div_one]
    exact (mul_le_of_le_one_right (absValue_nonneg _) hle).trans hbound
  rw [absValue_mul_absValue] at hvalue
  refine ceilNat_le ?_
  rw [mul_eq_nearest hfinite hy]
  have hproduct := absValue_mono (code_nearest_mono ((ofNat n).negative != y.negative) false
    (Nat.mul_pos (ratio_pos _) (ratio_pos _)) Nat.one_pos hvalue)
  exact hproduct.trans_eq hk.absValue

end TypedPipeline.Binary64
