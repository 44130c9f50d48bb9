import LocalGrid.Proofs.Rounding.Nearest

/-!
# Distances to a rounded number

A number is rounded to the multiple of its grid that is nearest, and no point of the format is
nearer: a point off that grid lies on a finer one, below the binade of the number. So a sum of a
point and something else is at most that much away from the exact sum. The difference of two points
that are within a factor of two of each other is a point, and not rounded at all.
-/

open Float.Model (Format)

namespace LocalGrid.Rounding

/-! ## The nearest integer -/

theorem abs_nearestInt_sub_le (x : ℝ) : |nearestInt x - x| ≤ 1 / 2 := by
  have hle := Int.floor_le x
  have hlt := Int.lt_floor_add_one x
  have hparity : ((⌊x⌋ % 2 : ℤ) : ℝ) = 0 ∨ ((⌊x⌋ % 2 : ℤ) : ℝ) = 1 := by
    rcases Int.emod_two_eq_zero_or_one ⌊x⌋ with h | h <;> simp [h]
  rw [abs_le]
  unfold nearestInt
  split_ifs <;> push_cast <;> constructor <;> rcases hparity with h | h <;> linarith

/-- An integer less than a half away is the nearest one. -/
theorem nearestInt_eq_of_abs_sub_lt {x : ℝ} {n : ℤ} (h : |x - n| < 1 / 2) : nearestInt x = n := by
  have hdist : |((nearestInt x - n : ℤ) : ℝ)| < 1 := by
    have htriangle := abs_add_le (nearestInt x - x) (x - n)
    have hx := abs_nearestInt_sub_le x
    rw [sub_add_sub_cancel] at htriangle
    push_cast
    linarith
  have hzero : |nearestInt x - n| < 1 := by exact_mod_cast hdist
  exact sub_eq_zero.1 (Int.abs_lt_one_iff.1 hzero)

/-- No integer is nearer. -/
theorem abs_nearestInt_sub_le_of_int (x : ℝ) (n : ℤ) : |nearestInt x - x| ≤ |n - x| := by
  rcases lt_or_ge |x - n| (1 / 2) with hlt | hge
  · rw [nearestInt_eq_of_abs_sub_lt hlt]
  · rw [abs_sub_comm (n : ℝ)]
    exact (abs_nearestInt_sub_le x).trans hge

/-! ## The nearest multiple of the grid -/

variable (S : Format)

theorem nearest_sub_eq (x : ℝ) : nearest S x - x =
    (nearestInt (x / 2 ^ gridExponent S x) - x / 2 ^ gridExponent S x) * 2 ^ gridExponent S x := by
  rw [sub_mul, div_mul_cancel₀ _ (by positivity), nearest]

/-- A number moves by half of a grid at most that leaves it a full mantissa. -/
theorem abs_nearest_sub_le {x : ℝ} {e : ℤ} (h : |x| < 2 ^ (S.mantissaBits + e : ℤ))
    (he : S.minExponent ≤ e) : |nearest S x - x| ≤ 2 ^ e / 2 := by
  rcases eq_or_ne x 0 with rfl | hx
  · simpa using by positivity
  · have hgrid : (2 : ℝ) ^ gridExponent S x ≤ 2 ^ e :=
      zpow_le_zpow_right₀ one_le_two (gridExponent_le S hx h he)
    rw [nearest_sub_eq, abs_mul, abs_of_pos (by positivity : (0 : ℝ) < 2 ^ gridExponent S x)]
    have hmove := mul_le_mul (abs_nearestInt_sub_le (x / 2 ^ gridExponent S x)) hgrid
      (by positivity) (by norm_num)
    linarith

/-- A number less than half of its grid away from a multiple of the grid is rounded to it. -/
theorem nearest_eq_of_abs_sub_lt {x : ℝ} {n : ℤ}
    (h : |x - n * 2 ^ gridExponent S x| < 2 ^ gridExponent S x / 2) :
    nearest S x = n * 2 ^ gridExponent S x := by
  have hpos : (0 : ℝ) < 2 ^ gridExponent S x := by positivity
  have hquotient : |x / 2 ^ gridExponent S x - n| < 1 / 2 := by
    rw [div_sub' hpos.ne', abs_div, abs_of_pos hpos, div_lt_iff₀ hpos, mul_comm _ (n : ℝ)]
    linarith
  rw [nearest, nearestInt_eq_of_abs_sub_lt hquotient]

/-- No multiple of its grid is nearer. -/
theorem abs_nearest_sub_le_of_mul (x : ℝ) (n : ℤ) :
    |nearest S x - x| ≤ |n * 2 ^ gridExponent S x - x| := by
  have hpos : (0 : ℝ) < 2 ^ gridExponent S x := by positivity
  have hscale : n * 2 ^ gridExponent S x - x =
      (n - x / 2 ^ gridExponent S x) * 2 ^ gridExponent S x := by
    rw [sub_mul, div_mul_cancel₀ _ hpos.ne']
  rw [nearest_sub_eq, hscale, abs_mul, abs_mul]
  exact mul_le_mul_of_nonneg_right (abs_nearestInt_sub_le_of_int _ n) (abs_nonneg _)

/-! ## The nearest point -/

variable {S} {x y : ℝ}

theorem IsPoint.neg (h : IsPoint S x) : IsPoint S (-x) := by
  obtain ⟨m, e, hm, he, rfl⟩ := h
  exact ⟨-m, e, by rwa [abs_neg], he, by push_cast; ring⟩

theorem IsPoint.two_mul (h : IsPoint S x) : IsPoint S (2 * x) := by
  obtain ⟨m, e, hm, he, rfl⟩ := h
  exact ⟨m, e + 1, hm, by omega, by rw [zpow_add_one₀ two_ne_zero]; ring⟩

/-- A point is a multiple of the grid, or it is below the power of two with which the binade of the
grid begins. -/
theorem IsPoint.eq_mul_or_abs_lt (h : IsPoint S y) {e : ℤ} :
    (∃ n : ℤ, y = n * 2 ^ e) ∨
      (S.minExponent < e ∧ |y| < 2 ^ (e + S.mantissaBits - 1)) := by
  obtain ⟨m, d, hm, hd, rfl⟩ := h
  rcases le_or_gt e d with hle | hlt
  · obtain ⟨k, hk⟩ := Int.le.dest hle
    refine Or.inl ⟨m * 2 ^ k, ?_⟩
    rw [← hk, zpow_add₀ two_ne_zero, zpow_natCast]
    push_cast
    ring
  · refine Or.inr ⟨hd.trans_lt hlt, (abs_mul_zpow_lt S hm).trans_le ?_⟩
    exact zpow_le_zpow_right₀ one_le_two (by omega)

theorem abs_nearest_sub_le_of_pos (hx : 0 < x) (hy : IsPoint S y) :
    |nearest S x - x| ≤ |y - x| := by
  rcases hy.eq_mul_or_abs_lt (e := gridExponent S x) with ⟨n, rfl⟩ | ⟨hgrid, hlt⟩
  · exact abs_nearest_sub_le_of_mul S x n
  · -- the power of two lies between the point and the number
    have hpower := zpow_le_of_minExponent_lt S hx hgrid
    have hbits := mantissaBits_pos S
    have hmul : (2 : ℝ) ^ (gridExponent S x + S.mantissaBits - 1) =
        (2 ^ (S.mantissaBits - 1) : ℤ) * 2 ^ gridExponent S x := by
      push_cast
      rw [← zpow_natCast, ← zpow_add₀ two_ne_zero]
      congr 1
      omega
    have hnear := abs_nearest_sub_le_of_mul S x (2 ^ (S.mantissaBits - 1))
    rw [← hmul, abs_of_nonpos (sub_nonpos.2 hpower)] at hnear
    have hfar : x - y ≤ |y - x| := by
      rw [abs_sub_comm]
      exact le_abs_self _
    have hbelow := (le_abs_self y).trans_lt hlt
    linarith

/-- No point is nearer. -/
theorem abs_nearest_sub_le_of_isPoint (x : ℝ) (hy : IsPoint S y) :
    |nearest S x - x| ≤ |y - x| := by
  rcases lt_trichotomy x 0 with hneg | rfl | hpos
  · have h := abs_nearest_sub_le_of_pos (neg_pos.2 hneg) hy.neg
    rwa [nearest_neg, ← neg_sub', abs_neg, ← neg_sub', abs_neg] at h
  · simp
  · exact abs_nearest_sub_le_of_pos hpos hy

/-- Rounding does not leave an interval around zero that ends in a point. -/
theorem abs_nearest_le (hy : IsPoint S y) (h : |x| ≤ y) : |nearest S x| ≤ y := by
  obtain ⟨hlow, hhigh⟩ := abs_le.1 h
  have hlow' := nearest_mono S hlow
  have hhigh' := nearest_mono S hhigh
  rw [nearest_neg, nearest_of_isPoint S hy] at hlow'
  rw [nearest_of_isPoint S hy] at hhigh'
  exact abs_le.2 ⟨hlow', hhigh'⟩

/-- What is added to a point moves it by twice as much at most. -/
theorem abs_nearest_add_sub_le (hx : IsPoint S x) (d : ℝ) :
    |nearest S (x + d) - x| ≤ 2 * |d| := by
  have hnear := abs_nearest_sub_le_of_isPoint (x + d) hx
  rw [sub_add_cancel_left, abs_neg] at hnear
  calc |nearest S (x + d) - x| = |(nearest S (x + d) - (x + d)) + d| := by
        congr 1
        ring
    _ ≤ |nearest S (x + d) - (x + d)| + |d| := abs_add_le _ _
    _ ≤ 2 * |d| := by linarith

/-- On a grid of the format what is not above a point is a point. -/
theorem isPoint_of_mul_le {n m e : ℤ} (he : S.minExponent ≤ e) (hm : |m| < 2 ^ S.mantissaBits)
    (hn : 0 ≤ (n : ℝ) * 2 ^ e) (h : (n : ℝ) * 2 ^ e ≤ m * 2 ^ e) : IsPoint S (n * 2 ^ e) := by
  have hpos : (0 : ℝ) < 2 ^ e := by positivity
  have hn0 : 0 ≤ n := by exact_mod_cast nonneg_of_mul_nonneg_left hn hpos
  have hnm : n ≤ m := by exact_mod_cast le_of_mul_le_mul_right h hpos
  refine ⟨n, e, ?_, he, rfl⟩
  rw [abs_of_nonneg hn0]
  exact (hnm.trans (le_abs_self m)).trans_lt hm

/-- A point and another one from its half up to itself have a point as their difference. -/
theorem IsPoint.sub (hx : IsPoint S x) (hy : IsPoint S y) (hyx : y ≤ x) (hxy : x ≤ 2 * y) :
    IsPoint S (x - y) := by
  obtain ⟨m, e, hm, he, rfl⟩ := hx
  obtain ⟨n, d, hn, hd, rfl⟩ := hy
  -- the difference lies on the finer of the two grids
  rcases le_total e d with hle | hle
  · obtain ⟨k, hk⟩ := Int.le.dest hle
    have hdiff : (m : ℝ) * 2 ^ e - n * 2 ^ d = ((m - n * 2 ^ k : ℤ) : ℝ) * 2 ^ e := by
      rw [← hk, zpow_add₀ two_ne_zero, zpow_natCast]
      push_cast
      ring
    rw [hdiff]
    apply isPoint_of_mul_le he hm <;> rw [← hdiff] <;> linarith
  · obtain ⟨k, hk⟩ := Int.le.dest hle
    have hdiff : (m : ℝ) * 2 ^ e - n * 2 ^ d = ((m * 2 ^ k - n : ℤ) : ℝ) * 2 ^ d := by
      rw [← hk, zpow_add₀ two_ne_zero, zpow_natCast]
      push_cast
      ring
    rw [hdiff]
    apply isPoint_of_mul_le hd hn <;> rw [← hdiff] <;> linarith

/-! ## Shares below one -/

theorem two_zpow_neg_mantissaBits_le : (2 : ℝ) ^ (-S.mantissaBits : ℤ) ≤ 1 / 2 := by
  have hbits := mantissaBits_pos S
  rw [one_div, ← zpow_neg_one]
  exact zpow_le_zpow_right₀ one_le_two (by omega)

theorem two_zpow_neg_mantissaBits_mul (S : Format) (e : ℤ) :
    (2 : ℝ) ^ (-S.mantissaBits : ℤ) * 2 ^ (S.mantissaBits + e : ℤ) = 2 ^ e := by
  rw [← zpow_add₀ two_ne_zero]
  congr 1
  omega

/-- A point below one is so by the last digit of a full mantissa at least. -/
theorem IsPoint.le_of_lt_one (h : IsPoint S x) (hx : x < 1) :
    x ≤ 1 - 2 ^ (-S.mantissaBits : ℤ) := by
  have hpos : (0 : ℝ) < 2 ^ (-S.mantissaBits : ℤ) := by positivity
  have hunit := two_zpow_neg_mantissaBits_mul S 0
  rw [add_zero, zpow_zero, mul_comm, zpow_natCast] at hunit
  rcases h.eq_mul_or_abs_lt (e := -(S.mantissaBits : ℤ)) with ⟨n, rfl⟩ | ⟨-, hlt⟩
  · have hn : n < 2 ^ S.mantissaBits := by
      rw [← hunit] at hx
      exact_mod_cast lt_of_mul_lt_mul_right hx hpos.le
    have hn' : (n : ℝ) + 1 ≤ 2 ^ S.mantissaBits := by exact_mod_cast Int.add_one_le_of_lt hn
    have hscaled := mul_le_mul_of_nonneg_right hn' hpos.le
    rw [hunit] at hscaled
    linarith
  · have hhalf : x < 1 / 2 := by
      apply (le_abs_self x).trans_lt
      rwa [neg_add_cancel, zero_sub, zpow_neg_one, ← one_div] at hlt
    linarith [two_zpow_neg_mantissaBits_le (S := S)]

/-- What is below the middle between a full mantissa and the next one is not rounded above the
first. -/
theorem nearest_le_of_lt_middle {n e : ℤ} (hpoint : IsPoint S (n * 2 ^ e))
    (hn : 2 ^ (S.mantissaBits - 1) ≤ n) (h : x < (n + 1 / 2) * 2 ^ e) :
    nearest S x ≤ n * 2 ^ e := by
  have hpos : (0 : ℝ) < 2 ^ e := by positivity
  rcases le_or_gt x (n * 2 ^ e) with hle | hgt
  · calc nearest S x ≤ nearest S (n * 2 ^ e) := nearest_mono S hle
      _ = n * 2 ^ e := nearest_of_isPoint S hpoint
  rcases (isPoint_nearest S x).eq_mul_or_abs_lt (e := e) with ⟨m, hm⟩ | ⟨-, hlt⟩
  · rw [hm]
    refine mul_le_mul_of_nonneg_right ?_ hpos.le
    -- the next mantissa is farther from the number
    by_contra hnot
    have hnext : (n : ℝ) + 1 ≤ m := by
      exact_mod_cast Int.add_one_le_of_lt (by exact_mod_cast not_le.1 hnot)
    have hnear := abs_nearest_sub_le_of_isPoint x hpoint
    rw [hm, abs_sub_comm (n * 2 ^ e : ℝ), abs_of_pos (sub_pos.2 hgt)] at hnear
    have hfar := (le_abs_self _).trans hnear
    have hscaled := mul_le_mul_of_nonneg_right hnext hpos.le
    linarith
  · have hfull : (2 : ℝ) ^ (S.mantissaBits - 1) ≤ n := by exact_mod_cast hn
    have hbits := mantissaBits_pos S
    calc nearest S x ≤ (2 : ℝ) ^ (e + S.mantissaBits - 1) := (le_abs_self _).trans hlt.le
      _ = 2 ^ (S.mantissaBits - 1) * 2 ^ e := by
        rw [← zpow_natCast, ← zpow_add₀ two_ne_zero]
        congr 1
        omega
      _ ≤ n * 2 ^ e := mul_le_mul_of_nonneg_right hfull hpos.le

/-- A share below one undoes a rounding up, even if the result is rounded once more. -/
theorem nearest_mul_nearest_le {q : ℝ} (hq : q ≤ 1 - 2 ^ (-S.mantissaBits : ℤ)) (hx : 0 < x)
    (hgrid : S.minExponent < gridExponent S x) : nearest S (q * nearest S x) ≤ x := by
  have hpos : (0 : ℝ) < 2 ^ gridExponent S x := by positivity
  have hfull := two_pow_le_floor S hx hgrid
  have hround : (nearestInt (x / 2 ^ gridExponent S x) : ℝ) ≤ ⌊x / 2 ^ gridExponent S x⌋ + 1 := by
    exact_mod_cast nearestInt_le_floor_add_one _
  set n := ⌊x / 2 ^ gridExponent S x⌋
  have hhalf : (1 / 2 : ℝ) < 2 ^ (-S.mantissaBits : ℤ) * (n + 1) := by
    have hmul := two_zpow_neg_mantissaBits_mul S (-1)
    have hpow : (2 : ℝ) ^ (S.mantissaBits + -1 : ℤ) ≤ n := by
      have hbits := mantissaBits_pos S
      have hcast : (S.mantissaBits + -1 : ℤ) = (S.mantissaBits - 1 : ℕ) := by omega
      rw [hcast, zpow_natCast]
      exact_mod_cast hfull
    rw [zpow_neg_one, ← one_div] at hmul
    rw [← hmul]
    exact mul_lt_mul_of_pos_left (by linarith) (by positivity)
  have hmiddle : q * nearest S x < (n + 1 / 2) * 2 ^ gridExponent S x := by
    calc q * nearest S x ≤ (1 - 2 ^ (-S.mantissaBits : ℤ)) * nearest S x :=
          mul_le_mul_of_nonneg_right hq (nearest_nonneg S hx.le)
      _ ≤ (1 - 2 ^ (-S.mantissaBits : ℤ)) * ((n + 1) * 2 ^ gridExponent S x) :=
        mul_le_mul_of_nonneg_left (mul_le_mul_of_nonneg_right hround hpos.le)
          (by linarith [two_zpow_neg_mantissaBits_le (S := S)])
      _ = (n + 1 - 2 ^ (-S.mantissaBits : ℤ) * (n + 1)) * 2 ^ gridExponent S x := by ring
      _ < (n + 1 / 2) * 2 ^ gridExponent S x := mul_lt_mul_of_pos_right (by linarith) hpos
  exact (nearest_le_of_lt_middle (isPoint_truncated S hx.le) hfull hmiddle).trans
    (truncated_le S x)

/-- So a share below one of a difference of points is at most the difference. Where the difference
has no full mantissa, it is not rounded. -/
theorem nearest_mul_nearest_sub_le {q : ℝ} (hq : q ≤ 1 - 2 ^ (-S.mantissaBits : ℤ))
    (hx : IsPoint S x) (hy : IsPoint S y) (hyx : y ≤ x) :
    nearest S (q * nearest S (x - y)) ≤ x - y := by
  rcases hyx.eq_or_lt with rfl | hlt
  · simp
  rcases (minExponent_le_gridExponent S (x - y)).eq_or_lt with heq | hgrid
  · obtain ⟨n, hn⟩ := hx.sub_eq_mul hy
    rw [heq] at hn
    have hexact := nearest_of_eq_mul S hn
    have hlast : (0 : ℝ) < 2 ^ (-S.mantissaBits : ℤ) := by positivity
    have hq1 : q ≤ 1 := hq.trans (sub_le_self 1 hlast.le)
    calc nearest S (q * nearest S (x - y)) = nearest S (q * (x - y)) := by rw [hexact]
      _ ≤ nearest S (x - y) :=
        nearest_mono S (mul_le_of_le_one_left (sub_nonneg.2 hyx) hq1)
      _ = x - y := hexact
  · exact nearest_mul_nearest_le hq (sub_pos.2 hlt) hgrid

end LocalGrid.Rounding
