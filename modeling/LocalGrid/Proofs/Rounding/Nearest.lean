import Mathlib

/-!
# Rounding to the grid of a format

A binary format rounds a real number to a grid whose spacing is a power of two: the spacing that
leaves a full mantissa for the magnitude of the number, or the spacing of the subnormal values if
that is wider. `Rounding.nearest` is this rounding without a bound on the exponent, and
`Rounding.round` is the rounding of an extended real that also sends what is too large to
infinity. Both are monotone and odd, and both keep every number that lies on its own grid.
-/

open Float.Model (Format)

namespace LocalGrid.Rounding

/-! ## The nearest integer -/

/-- The integer nearest to a real number; half way between two integers, the even one. -/
noncomputable def nearestInt (x : ℝ) : ℤ :=
  if x - ⌊x⌋ < 1 / 2 then ⌊x⌋
  else if 1 / 2 < x - ⌊x⌋ then ⌊x⌋ + 1
  else ⌊x⌋ + ⌊x⌋ % 2

@[simp] theorem nearestInt_intCast (n : ℤ) : nearestInt n = n := by
  simp [nearestInt]

theorem floor_le_nearestInt (x : ℝ) : ⌊x⌋ ≤ nearestInt x := by
  unfold nearestInt
  split_ifs <;> omega

theorem nearestInt_le_floor_add_one (x : ℝ) : nearestInt x ≤ ⌊x⌋ + 1 := by
  unfold nearestInt
  split_ifs <;> omega

theorem nearestInt_mono : Monotone nearestInt := by
  intro x y hxy
  rcases (Int.floor_le_floor hxy).lt_or_eq with hlt | heq
  · exact (nearestInt_le_floor_add_one x).trans
      ((Int.add_one_le_iff.2 hlt).trans (floor_le_nearestInt y))
  · unfold nearestInt
    rw [heq]
    split_ifs <;> first | omega | linarith

theorem nearestInt_neg (x : ℝ) : nearestInt (-x) = -nearestInt x := by
  by_cases hx : (⌊x⌋ : ℝ) = x
  · rw [← hx, ← Int.cast_neg, nearestInt_intCast, nearestInt_intCast]
  · have hlt : (⌊x⌋ : ℝ) < x := lt_of_le_of_ne (Int.floor_le x) hx
    have hfloor : ⌊-x⌋ = -⌊x⌋ - 1 := by
      have := Int.lt_floor_add_one x
      apply Int.floor_eq_iff.2
      push_cast
      constructor <;> linarith
    have hreal : (⌊-x⌋ : ℝ) = -⌊x⌋ - 1 := by exact_mod_cast hfloor
    unfold nearestInt
    rw [hreal, hfloor]
    split_ifs <;> first | omega | linarith

theorem le_nearestInt {n : ℤ} {x : ℝ} (h : n ≤ x) : n ≤ nearestInt x := by
  simpa using nearestInt_mono h

theorem nearestInt_le {n : ℤ} {x : ℝ} (h : x ≤ n) : nearestInt x ≤ n := by
  simpa using nearestInt_mono h

/-! ## The grid of a number -/

variable (S : Format)

/-- The exponent of the grid on which a number is rounded. -/
noncomputable def gridExponent (x : ℝ) : ℤ :=
  max (Int.log 2 |x| + 1 - S.mantissaBits) S.minExponent

noncomputable def nearest (x : ℝ) : ℝ :=
  nearestInt (x / 2 ^ gridExponent S x) * 2 ^ gridExponent S x

noncomputable abbrev magnitude (m : ℕ) (e : ℤ) : ℝ := m * 2 ^ e

/-- A number that a full mantissa holds on a grid of the format. There is no bound on how large
it is. -/
def IsPoint (x : ℝ) : Prop :=
  ∃ m e : ℤ, |m| < 2 ^ S.mantissaBits ∧ S.minExponent ≤ e ∧ x = m * 2 ^ e

theorem minExponent_le_gridExponent (x : ℝ) : S.minExponent ≤ gridExponent S x :=
  le_max_right _ _

theorem gridExponent_neg (x : ℝ) : gridExponent S (-x) = gridExponent S x := by
  simp [gridExponent]

theorem gridExponent_mono {x y : ℝ} (hx : 0 < x) (hxy : x ≤ y) :
    gridExponent S x ≤ gridExponent S y := by
  unfold gridExponent
  rw [abs_of_pos hx, abs_of_pos (hx.trans_le hxy)]
  have := Int.log_mono_right (b := 2) hx hxy
  omega

/-- The magnitude of a number is below that of a full mantissa on its grid. -/
theorem abs_lt_zpow (x : ℝ) : |x| < 2 ^ (gridExponent S x + S.mantissaBits) := by
  have hlog : |x| < (2 : ℝ) ^ (Int.log 2 |x| + 1) := by
    exact_mod_cast Int.lt_zpow_succ_log_self (b := 2) one_lt_two |x|
  apply hlog.trans_le
  apply zpow_le_zpow_right₀ one_le_two
  unfold gridExponent
  omega

@[simp] theorem nearest_zero : nearest S 0 = 0 := by
  have h : nearestInt 0 = 0 := by simpa using nearestInt_intCast 0
  simp [nearest, h]

@[simp] theorem nearest_neg (x : ℝ) : nearest S (-x) = -nearest S x := by
  simp [nearest, gridExponent_neg, neg_div, nearestInt_neg]

/-- An integer multiple of the spacing of its own grid is not moved. -/
theorem nearest_of_eq_mul {x : ℝ} {n : ℤ} (h : x = n * 2 ^ gridExponent S x) :
    nearest S x = x := by
  have hn : x / 2 ^ gridExponent S x = n := by
    rw [div_eq_iff (by positivity)]
    exact h
  rw [nearest, hn, nearestInt_intCast]
  exact h.symm

theorem abs_mul_zpow_lt {m e : ℤ} (hm : |m| < 2 ^ S.mantissaBits) :
    |(m : ℝ) * 2 ^ e| < 2 ^ (S.mantissaBits + e : ℤ) := by
  have hm' : |(m : ℝ)| < 2 ^ S.mantissaBits := by exact_mod_cast hm
  rw [abs_mul, abs_of_pos (by positivity : (0 : ℝ) < 2 ^ e), zpow_add₀ two_ne_zero, zpow_natCast]
  exact mul_lt_mul_of_pos_right hm' (by positivity)

/-- A full mantissa on the grid of `e` has a grid that is at most as wide. -/
theorem gridExponent_le {x : ℝ} {e : ℤ} (hx : x ≠ 0) (h : |x| < 2 ^ (S.mantissaBits + e : ℤ))
    (he : S.minExponent ≤ e) : gridExponent S x ≤ e := by
  have hlog : Int.log 2 |x| < S.mantissaBits + e :=
    (Int.lt_zpow_iff_log_lt one_lt_two (abs_pos.2 hx)).1 (by exact_mod_cast h)
  unfold gridExponent
  omega

/-- A point is not moved. -/
theorem nearest_of_isPoint {x : ℝ} (h : IsPoint S x) : nearest S x = x := by
  obtain ⟨m, e, hm, he, hx⟩ := h
  by_cases hx0 : x = 0
  · simp [hx0]
  have hgrid : gridExponent S x ≤ e :=
    gridExponent_le S hx0 (hx ▸ abs_mul_zpow_lt S hm) he
  obtain ⟨k, hk⟩ := Int.le.dest hgrid
  have hmul : x = ((m * 2 ^ k : ℤ) : ℝ) * 2 ^ gridExponent S x := by
    calc x = m * 2 ^ (gridExponent S x + k) := by rw [hk]; exact hx
      _ = ((m * 2 ^ k : ℤ) : ℝ) * 2 ^ gridExponent S x := by
        rw [zpow_add₀ two_ne_zero, zpow_natCast]
        push_cast
        ring
  exact nearest_of_eq_mul S hmul

/-- A natural number that the mantissa holds is a point. -/
theorem isPoint_natCast (hmin : S.minExponent ≤ 0) {n : ℕ} (h : n < 2 ^ S.mantissaBits) :
    IsPoint S n :=
  ⟨n, 0, by rw [Nat.abs_cast]; exact_mod_cast h, hmin, by simp⟩

/-! ## Monotonicity -/

theorem mantissaBits_pos : 0 < S.mantissaBits := by
  unfold Format.mantissaBits
  omega

/-- Above the subnormal grid a positive number has a full mantissa. -/
theorem zpow_le_of_minExponent_lt {x : ℝ} (hx : 0 < x)
    (h : S.minExponent < gridExponent S x) :
    (2 : ℝ) ^ (gridExponent S x + S.mantissaBits - 1) ≤ x := by
  have hlog : (2 : ℝ) ^ Int.log 2 x ≤ x := by
    exact_mod_cast Int.zpow_log_le_self (b := 2) one_lt_two hx
  have hexp : gridExponent S x + S.mantissaBits - 1 = Int.log 2 x := by
    unfold gridExponent at h ⊢
    rw [abs_of_pos hx] at h ⊢
    omega
  rwa [hexp]

/-- So its truncated mantissa is full too. -/
theorem two_pow_le_floor {x : ℝ} (hx : 0 < x) (h : S.minExponent < gridExponent S x) :
    2 ^ (S.mantissaBits - 1) ≤ ⌊x / 2 ^ gridExponent S x⌋ := by
  have hbits := mantissaBits_pos S
  rw [Int.le_floor, le_div_iff₀ (by positivity)]
  refine le_trans (le_of_eq ?_) (zpow_le_of_minExponent_lt S hx h)
  push_cast
  rw [← zpow_natCast, ← zpow_add₀ two_ne_zero]
  congr 1
  omega

/-- The rounded mantissa of a number is at most one more than a full one. -/
theorem abs_nearestInt_le (x : ℝ) :
    |nearestInt (x / 2 ^ gridExponent S x)| ≤ 2 ^ S.mantissaBits := by
  have hpos : (0 : ℝ) < 2 ^ gridExponent S x := by positivity
  have habs := abs_lt_zpow S x
  rw [add_comm, zpow_add₀ two_ne_zero, zpow_natCast, abs_lt] at habs
  rw [abs_le]
  constructor
  · apply le_nearestInt
    rw [le_div_iff₀ hpos]
    push_cast
    linarith
  · apply nearestInt_le
    rw [div_le_iff₀ hpos]
    push_cast
    linarith

theorem nearest_mono_of_pos {x y : ℝ} (hx : 0 < x) (hxy : x ≤ y) :
    nearest S x ≤ nearest S y := by
  rcases (gridExponent_mono S hx hxy).eq_or_lt with heq | hlt
  · unfold nearest
    rw [heq]
    have hint := nearestInt_mono
      (div_le_div_of_nonneg_right hxy (by positivity : (0 : ℝ) ≤ 2 ^ gridExponent S y))
    exact mul_le_mul_of_nonneg_right (by exact_mod_cast hint) (by positivity)
  · -- a power of two lies between the numbers, and neither is rounded across it
    have hbits := mantissaBits_pos S
    have hxint := (abs_le.1 (abs_nearestInt_le S x)).2
    have hyint := (two_pow_le_floor S (hx.trans_le hxy)
      ((minExponent_le_gridExponent S x).trans_lt hlt)).trans (floor_le_nearestInt _)
    calc nearest S x ≤ 2 ^ S.mantissaBits * 2 ^ gridExponent S x :=
          mul_le_mul_of_nonneg_right (by exact_mod_cast hxint) (by positivity)
      _ ≤ 2 ^ (S.mantissaBits - 1) * 2 ^ gridExponent S y := by
          rw [← zpow_natCast, ← zpow_natCast, ← zpow_add₀ two_ne_zero, ← zpow_add₀ two_ne_zero]
          apply zpow_le_zpow_right₀ one_le_two
          omega
      _ ≤ nearest S y := mul_le_mul_of_nonneg_right (by exact_mod_cast hyint) (by positivity)

theorem nearest_nonneg {x : ℝ} (hx : 0 ≤ x) : 0 ≤ nearest S x := by
  have hint : 0 ≤ nearestInt (x / 2 ^ gridExponent S x) := by
    apply le_nearestInt
    simp only [Int.cast_zero]
    positivity
  exact mul_nonneg (by exact_mod_cast hint) (by positivity)

theorem nearest_mono : Monotone (nearest S) := by
  intro x y hxy
  rcases lt_or_ge 0 x with hx | hx
  · exact nearest_mono_of_pos S hx hxy
  rcases lt_or_ge y 0 with hy | hy
  · have h := nearest_mono_of_pos S (neg_pos.2 hy) (neg_le_neg hxy)
    simpa using h
  · have hx' := nearest_nonneg S (neg_nonneg.2 hx)
    rw [nearest_neg] at hx'
    linarith [nearest_nonneg S hy]

/-- A rounded number is a point. A mantissa that is rounded up to the next power of two is half
of it on the next wider grid. -/
theorem isPoint_nearest (x : ℝ) : IsPoint S (nearest S x) := by
  have hbits := mantissaBits_pos S
  have hmin := minExponent_le_gridExponent S x
  rcases (abs_nearestInt_le S x).lt_or_eq with hlt | heq
  · exact ⟨_, _, hlt, hmin, rfl⟩
  have hdouble : (2 : ℤ) ^ S.mantissaBits = 2 * 2 ^ (S.mantissaBits - 1) := by
    rw [← pow_succ', Nat.sub_add_cancel hbits]
  have hless : (2 : ℤ) ^ (S.mantissaBits - 1) < 2 ^ S.mantissaBits :=
    pow_lt_pow_right₀ one_lt_two (by omega)
  rcases abs_eq_abs.1 (heq.trans (abs_of_pos (by positivity)).symm) with h | h
  · refine ⟨2 ^ (S.mantissaBits - 1), gridExponent S x + 1, ?_, by omega, ?_⟩
    · rwa [abs_of_pos (by positivity)]
    · rw [nearest, h, hdouble, zpow_add_one₀ two_ne_zero]
      push_cast
      ring
  · refine ⟨-2 ^ (S.mantissaBits - 1), gridExponent S x + 1, ?_, by omega, ?_⟩
    · rwa [abs_neg, abs_of_pos (by positivity)]
    · rw [nearest, h, hdouble, zpow_add_one₀ two_ne_zero]
      push_cast
      ring

/-- The difference of two points is a multiple of the spacing of the subnormal values. -/
theorem IsPoint.sub_eq_mul {S : Format} {x y : ℝ} (hx : IsPoint S x) (hy : IsPoint S y) :
    ∃ n : ℤ, x - y = n * 2 ^ S.minExponent := by
  obtain ⟨m, e, -, he, rfl⟩ := hx
  obtain ⟨n, d, -, hd, rfl⟩ := hy
  obtain ⟨j, hj⟩ := Int.le.dest he
  obtain ⟨k, hk⟩ := Int.le.dest hd
  refine ⟨m * 2 ^ j - n * 2 ^ k, ?_⟩
  rw [← hj, ← hk, zpow_add₀ two_ne_zero, zpow_add₀ two_ne_zero, zpow_natCast, zpow_natCast]
  push_cast
  ring

/-- Points that differ still differ after their difference is rounded: the spacing of the
subnormal values is itself a point. -/
theorem nearest_sub_pos {x y : ℝ} (hx : IsPoint S x) (hy : IsPoint S y) (hyx : y < x) :
    0 < nearest S (x - y) := by
  obtain ⟨n, hn⟩ := hx.sub_eq_mul hy
  have hunit : (0 : ℝ) < 2 ^ S.minExponent := by positivity
  have hpos : 0 < n := by
    have h := sub_pos.2 hyx
    rw [hn] at h
    exact_mod_cast pos_of_mul_pos_left h hunit.le
  have hone : (1 : ℝ) ≤ n := by exact_mod_cast hpos
  have hpoint : IsPoint S (2 ^ S.minExponent) :=
    ⟨1, S.minExponent, by simpa using one_lt_pow₀ one_lt_two (mantissaBits_pos S).ne', le_rfl,
      by simp⟩
  calc (0 : ℝ) < 2 ^ S.minExponent := hunit
    _ = nearest S (2 ^ S.minExponent) := (nearest_of_isPoint S hpoint).symm
    _ ≤ nearest S (x - y) := by
      apply nearest_mono
      rw [hn]
      exact le_mul_of_one_le_left hunit.le hone

/-! ## Truncation -/

noncomputable def truncated (x : ℝ) : ℝ :=
  ⌊x / 2 ^ gridExponent S x⌋ * 2 ^ gridExponent S x

theorem truncated_le (x : ℝ) : truncated S x ≤ x :=
  (le_div_iff₀ (by positivity)).1 (Int.floor_le _)

theorem isPoint_truncated {x : ℝ} (hx : 0 ≤ x) : IsPoint S (truncated S x) := by
  have hpos : (0 : ℝ) < 2 ^ gridExponent S x := by positivity
  have hnonneg : 0 ≤ ⌊x / 2 ^ gridExponent S x⌋ := Int.floor_nonneg.2 (by positivity)
  have hlt := (truncated_le S x).trans_lt ((le_abs_self x).trans_lt (abs_lt_zpow S x))
  rw [truncated, add_comm, zpow_add₀ two_ne_zero, zpow_natCast] at hlt
  refine ⟨_, _, ?_, minExponent_le_gridExponent S x, rfl⟩
  rw [abs_of_nonneg hnonneg]
  exact_mod_cast lt_of_mul_lt_mul_right hlt hpos.le

theorem minExponent_lt_gridExponent (hS : 2 < S.exponentBits) {x : ℝ} (hx : 1 ≤ x) :
    S.minExponent < gridExponent S x := by
  have hlog : 0 ≤ Int.log 2 |x| := by
    have hmono := Int.log_mono_right (b := 2) one_pos (hx.trans (le_abs_self x))
    rwa [Int.log_one_right] at hmono
  have hpow : 2 ^ 2 ≤ 2 ^ (S.exponentBits - 1) := Nat.pow_le_pow_right two_pos (by omega)
  have hcast : ((2 ^ (S.exponentBits - 1) : ℕ) : ℤ) = 2 ^ (S.exponentBits - 1) := by
    push_cast
    rfl
  apply lt_of_lt_of_le _ (le_max_left _ _)
  unfold Format.minExponent
  omega

/-! ## Overflow -/

/-- The least magnitude that counts as infinite. -/
noncomputable def limit : ℝ := 2 ^ 2 ^ (S.exponentBits - 1)

/-- A real number, or infinity beyond the range of the format. -/
noncomputable def fit (x : ℝ) : EReal :=
  if limit S ≤ x then ⊤ else if x ≤ -limit S then ⊥ else x

noncomputable def round : EReal → EReal
  | ⊥ => ⊥
  | ⊤ => ⊤
  | (x : ℝ) => fit S (nearest S x)

theorem limit_pos : 0 < limit S := by
  unfold limit
  positivity

theorem fit_mono : Monotone (fit S) := by
  intro x y hxy
  have hlimit := limit_pos S
  unfold fit
  split_ifs <;> first | exact le_top | exact bot_le | exact EReal.coe_le_coe_iff.2 hxy | linarith

theorem fit_neg (x : ℝ) : fit S (-x) = -fit S x := by
  have hlimit := limit_pos S
  unfold fit
  split_ifs <;> first | rfl | linarith

theorem fit_of_abs_lt {x : ℝ} (h : |x| < limit S) : fit S x = x := by
  rw [abs_lt] at h
  rw [fit, if_neg (by linarith), if_neg (by linarith)]

@[simp] theorem round_coe (x : ℝ) : round S x = fit S (nearest S x) := rfl

@[simp] theorem round_top : round S ⊤ = ⊤ := rfl

theorem round_mono : Monotone (round S) := by
  intro x y hxy
  induction x with
  | bot => exact bot_le
  | top => rw [top_le_iff.1 hxy]
  | coe x =>
      induction y with
      | bot => exact absurd hxy (by simp)
      | top => exact le_top
      | coe y => exact fit_mono S (nearest_mono S (EReal.coe_le_coe_iff.1 hxy))

theorem round_neg (x : EReal) : round S (-x) = -round S x := by
  induction x with
  | bot => rfl
  | top => rfl
  | coe x => rw [← EReal.coe_neg, round_coe, round_coe, nearest_neg, fit_neg]

/-! ## Numbers below the limit -/

variable {S} {x y : ℝ}

theorem abs_lt_limit (h : fit S x = (y : EReal)) : |x| < limit S := by
  unfold fit at h
  split_ifs at h with h1 h2
  · exact absurd h.symm (EReal.coe_ne_top y)
  · exact absurd h.symm (EReal.coe_ne_bot y)
  · exact abs_lt.2 ⟨not_le.1 h2, not_le.1 h1⟩

/-- A number of the format is above what is fitted exactly if it is above it without a bound. -/
theorem fit_le_coe_iff (hy : |y| < limit S) : fit S x ≤ (y : EReal) ↔ x ≤ y := by
  rw [abs_lt] at hy
  unfold fit
  split_ifs with h1 h2
  · exact iff_of_false (not_le.2 (EReal.coe_lt_top y)) (by linarith)
  · exact iff_of_true bot_le (by linarith)
  · exact EReal.coe_le_coe_iff

theorem coe_le_fit_iff (hy : |y| < limit S) : (y : EReal) ≤ fit S x ↔ y ≤ x := by
  rw [abs_lt] at hy
  unfold fit
  split_ifs with h1 h2
  · exact iff_of_true le_top (by linarith)
  · exact iff_of_false (not_le.2 (EReal.bot_lt_coe y)) (by linarith)
  · exact EReal.coe_le_coe_iff

end LocalGrid.Rounding
