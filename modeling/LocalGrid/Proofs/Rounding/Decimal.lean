import LocalGrid.Proofs.Rounding.Distance

/-!
# Four decimal places of single precision

A number of single precision is written as the nearest multiple of a ten-thousandth, and this is
read back as the number nearest to it. Below `1024` the numbers are closer to each other than half
of a ten-thousandth, so what is read back has the same four places. From `1024` on they are farther
from each other than a ten-thousandth, so it is the number that was written.
-/

open Float.Model (Format)

namespace LocalGrid.Rounding

/-! ## Ten-thousandths -/

/-- A number in ten-thousandths. -/
noncomputable def units (x : ℝ) : ℤ := nearestInt (x * 10000)

/-- A number with four decimal places, as it is read in single precision. -/
noncomputable def ofUnits (k : ℤ) : ℝ := nearest .binary32 (k / 10000)

theorem abs_units_sub_le (x : ℝ) : |(units x : ℝ) / 10000 - x| ≤ 1 / 20000 := by
  have h := abs_nearestInt_sub_le (x * 10000)
  rw [div_sub' (by norm_num), abs_div, abs_of_pos (by norm_num : (0 : ℝ) < 10000),
    div_le_iff₀ (by norm_num), mul_comm _ x]
  exact h.trans_eq (by norm_num)

theorem units_nonneg {x : ℝ} (hx : 0 ≤ x) : 0 ≤ units x :=
  le_nearestInt (by push_cast; positivity)

theorem units_le {x : ℝ} {n : ℤ} (h : x ≤ n) : units x ≤ n * 10000 :=
  nearestInt_le (by push_cast; linarith)

theorem units_intCast (n : ℤ) : units n = n * 10000 := by
  have h := nearestInt_intCast (n * 10000)
  push_cast at h
  exact h

theorem units_eq_of_abs_sub_lt {x : ℝ} {k : ℤ} (h : |x - k / 10000| < 1 / 20000) :
    units x = k := by
  apply nearestInt_eq_of_abs_sub_lt
  have hscale : x * 10000 - k = (x - k / 10000) * 10000 := by ring
  rw [hscale, abs_mul, abs_of_pos (by norm_num : (0 : ℝ) < 10000)]
  linarith

theorem isPoint_1024 : IsPoint .binary32 1024 := ⟨1, 10, by decide, by decide, by norm_num⟩

theorem units_div_le {x : ℝ} (hx : x ≤ 1024) : (units x : ℝ) / 10000 ≤ 1024 := by
  have h : units x ≤ 1024 * 10000 := units_le (by exact_mod_cast hx)
  rw [div_le_iff₀ (by norm_num)]
  exact_mod_cast h

theorem ofUnits_units_le {x : ℝ} (hx : x ≤ 1024) : ofUnits (units x) ≤ 1024 := by
  rw [← nearest_of_isPoint _ isPoint_1024]
  exact nearest_mono _ (units_div_le hx)

/-- Below `1024` the places are kept. -/
theorem units_ofUnits_of_lt {x : ℝ} (hx : 0 ≤ x) (hlt : x < 1024) :
    units (ofUnits (units x)) = units x := by
  have hnonneg : (0 : ℝ) ≤ units x / 10000 := by
    have h := units_nonneg hx
    positivity
  have hle := units_div_le hlt.le
  apply units_eq_of_abs_sub_lt
  -- at `1024` itself the grid is wider already, but `1024` is read exactly
  rcases hle.lt_or_eq with hbelow | heq
  · have hmove := abs_nearest_sub_le .binary32 (x := units x / 10000) (e := -14)
      (by rw [abs_of_nonneg hnonneg]; exact hbelow.trans_eq (by norm_num [Format.mantissaBits]))
      (by decide)
    exact hmove.trans_lt (by norm_num)
  · rw [ofUnits, heq, nearest_of_isPoint _ isPoint_1024]
    norm_num

theorem gridExponent_zpow {e : ℤ} (he : -126 ≤ e) : gridExponent .binary32 (2 ^ e) = e - 23 := by
  have hlog : Int.log 2 |(2 : ℝ) ^ e| = e := by
    rw [abs_of_pos (by positivity)]
    exact_mod_cast Int.log_zpow (R := ℝ) one_lt_two e
  have hbits : (Format.binary32.mantissaBits : ℤ) = 24 := by decide
  have hmin : Format.binary32.minExponent = -149 := by decide
  rw [gridExponent, hlog, hbits, hmin]
  omega

/-- A number from `1024` on is an integer, or it lies between two powers of two, at least one step
of its grid away from either. -/
theorem exists_binade {x : ℝ} (hpoint : IsPoint .binary32 x) (hx : 1024 ≤ x) :
    (∃ n : ℤ, x = n) ∨ ∃ g n : ℤ, -13 ≤ g ∧ x = n * 2 ^ g ∧
      (2 : ℝ) ^ (g + 23) + 2 ^ g ≤ x ∧ x + 2 ^ g ≤ 2 ^ (g + 24) := by
  have hpos : 0 < x := by linarith
  set g := gridExponent .binary32 x with hg
  have hfirst : -13 ≤ g := by
    have hmono := gridExponent_mono .binary32 (by positivity : (0 : ℝ) < 2 ^ (10 : ℤ))
      (hx.trans' (by norm_num))
    rwa [gridExponent_zpow (by norm_num)] at hmono
  obtain ⟨n, hn⟩ : ∃ n : ℤ, x = n * 2 ^ g := ⟨_, (nearest_of_isPoint .binary32 hpoint).symm⟩
  have hlow : (2 : ℝ) ^ (g + 23) ≤ x := by
    have hfull := zpow_le_of_minExponent_lt .binary32 hpos (lt_of_lt_of_le (by decide) hfirst)
    rwa [show Format.binary32.mantissaBits = 24 from rfl, ← hg, Nat.cast_ofNat,
      show g + 24 - 1 = g + 23 by ring] at hfull
  have hhigh : x < 2 ^ (g + 24) := by
    have habs := abs_lt_zpow .binary32 x
    rwa [abs_of_pos hpos] at habs
  rcases hlow.eq_or_lt with heq | hlt
  · obtain ⟨k, hk⟩ := Int.eq_ofNat_of_zero_le (by omega : 0 ≤ g + 23)
    refine Or.inl ⟨2 ^ k, ?_⟩
    rw [← heq, hk]
    push_cast
    exact zpow_natCast 2 k
  · have hstep : (0 : ℝ) < 2 ^ g := by positivity
    have hscale (k : ℤ) : (2 : ℝ) ^ (g + k) = 2 ^ k * 2 ^ g := by
      rw [zpow_add₀ two_ne_zero, mul_comm]
    -- in steps of the grid both bounds are integers, so the number is a whole step inside them
    rw [hn, hscale, mul_lt_mul_iff_left₀ hstep] at hlt
    rw [hn, hscale, mul_lt_mul_iff_left₀ hstep] at hhigh
    have hlt' : (2 : ℤ) ^ 23 + 1 ≤ n := by exact_mod_cast hlt
    have hhigh' : n + 1 ≤ (2 : ℤ) ^ 24 := by exact_mod_cast hhigh
    refine Or.inr ⟨g, n, hfirst, hn, ?_, ?_⟩
    · rw [hn, hscale, ← add_one_mul]
      exact mul_le_mul_of_nonneg_right (by exact_mod_cast hlt') hstep.le
    · rw [hn, hscale, ← add_one_mul]
      exact mul_le_mul_of_nonneg_right (by exact_mod_cast hhigh') hstep.le

/-- From `1024` on the number is kept. -/
theorem ofUnits_units_of_le {x : ℝ} (hpoint : IsPoint .binary32 x) (hx : 1024 ≤ x) :
    ofUnits (units x) = x := by
  rcases exists_binade hpoint hx with ⟨n, rfl⟩ | ⟨g, n, hg, hn, hlow, hhigh⟩
  · have hexact : ((n * 10000 : ℤ) : ℝ) / 10000 = n := by
      push_cast
      field_simp
    rw [units_intCast, ofUnits, hexact, nearest_of_isPoint _ hpoint]
  · have hstep : (2 : ℝ) ^ (-13 : ℤ) ≤ 2 ^ g := zpow_le_zpow_right₀ one_le_two hg
    have hhalf : (1 : ℝ) / 20000 < 2 ^ g / 2 := by
      norm_num at hstep
      linarith
    have hnear := abs_le.1 (abs_units_sub_le x)
    -- half a ten-thousandth does not leave the binade, so what is read has the grid of `x`
    have hgrid : gridExponent .binary32 (units x / 10000) = g := by
      have hbelow : (2 : ℝ) ^ (g + 23) ≤ units x / 10000 := by linarith
      have hpos : (0 : ℝ) < units x / 10000 := lt_of_lt_of_le (by positivity) hbelow
      apply le_antisymm
      · refine gridExponent_le .binary32 hpos.ne' ?_ (le_trans (by decide) hg)
        rw [abs_of_pos hpos, show ((Format.binary32.mantissaBits : ℕ) : ℤ) = 24 from rfl,
          add_comm (24 : ℤ)]
        linarith
      · have hmono := gridExponent_mono .binary32 (by positivity) hbelow
        rwa [gridExponent_zpow (by omega), add_sub_cancel_right] at hmono
    have hkeep : nearest .binary32 (units x / 10000) = n * 2 ^ g := by
      rw [← hgrid]
      apply nearest_eq_of_abs_sub_lt
      rw [hgrid, ← hn]
      exact (abs_units_sub_le x).trans_lt hhalf
    rw [ofUnits, hkeep, hn]

/-- What is read back has the places that were written. -/
theorem units_ofUnits_units {x : ℝ} (hpoint : IsPoint .binary32 x) (hx : 0 ≤ x) :
    units (ofUnits (units x)) = units x := by
  rcases lt_or_ge x 1024 with hlt | hge
  · exact units_ofUnits_of_lt hx hlt
  · rw [ofUnits_units_of_le hpoint hge]

end LocalGrid.Rounding
