import LocalGrid.Proofs.Binary.Conversion
import LocalGrid.Proofs.Decimal.Shortest
import LocalGrid.Proofs.Rounding.Decimal

/-!
# Rounding in the interval of a value

What lies in the interval of a value of a format is rounded to the value. An end of the interval is
half way between two values and goes to the even mantissa. Only below a power of two the grid is
finer than that of the value, and the power is even on it.
-/

open Float.Model (Format)

namespace LocalGrid

namespace Rounding

/-- An even integer a half away is the nearest one. -/
theorem nearestInt_eq_of_even {x : ℝ} {n : ℤ} (heven : Even n) (h : |x - n| ≤ 1 / 2) :
    nearestInt x = n := by
  rcases h.lt_or_eq with hlt | heq
  · exact nearestInt_eq_of_abs_sub_lt hlt
  have hparity : n % 2 = 0 := Int.even_iff.1 heven
  rcases abs_eq_abs.1 (heq.trans (abs_of_pos (by norm_num)).symm) with habove | hbelow
  · have hfloor : ⌊x⌋ = n := Int.floor_eq_iff.2 ⟨by linarith, by linarith⟩
    rw [nearestInt, hfloor, habove, if_neg (lt_irrefl _), if_neg (lt_irrefl _), hparity, add_zero]
  · have hfloor : ⌊x⌋ = n - 1 := Int.floor_eq_iff.2 ⟨by push_cast; linarith, by push_cast; linarith⟩
    have hhalf : x - ((n - 1 : ℤ) : ℝ) = 1 / 2 := by
      push_cast
      linarith
    rw [nearestInt, hfloor, hhalf, if_neg (lt_irrefl _), if_neg (lt_irrefl _)]
    omega

variable {S : Format} {x : ℝ} {n e : ℤ}

/-- A multiple of the grid is the nearest one within half of the grid, and half of the grid away if
it is even. -/
theorem nearest_eq_of_abs_sub_le (hgrid : gridExponent S x = e) (h : |x - n * 2 ^ e| ≤ 2 ^ e / 2)
    (hodd : ¬ Even n → |x - n * 2 ^ e| < 2 ^ e / 2) : nearest S x = n * 2 ^ e := by
  subst hgrid
  by_cases heven : Even n
  · have hpos : (0 : ℝ) < 2 ^ gridExponent S x := by positivity
    have hquotient : |x / 2 ^ gridExponent S x - n| ≤ 1 / 2 := by
      rw [div_sub' hpos.ne', abs_div, abs_of_pos hpos, div_le_iff₀ hpos, mul_comm _ (n : ℝ)]
      linarith
    rw [nearest, nearestInt_eq_of_even heven hquotient]
  · exact nearest_eq_of_abs_sub_lt S (hodd heven)

/-- A number from a full mantissa on has a grid that is at least as wide. -/
theorem le_gridExponent (h : (2 : ℝ) ^ (e + S.mantissaBits - 1) ≤ x) : e ≤ gridExponent S x := by
  have hpos : 0 < x := lt_of_lt_of_le (by positivity) h
  have hlog : e + S.mantissaBits - 1 ≤ Int.log 2 x :=
    (Int.zpow_le_iff_le_log one_lt_two hpos).1 (by exact_mod_cast h)
  rw [gridExponent, abs_of_pos hpos]
  omega

end Rounding

namespace Binary

open Rounding Decimal

/-- A mantissa and an exponent as the format has them: only on the least exponent a mantissa may be
short. -/
structure IsCanonical (f : Binary) (m : ℕ) (q : ℤ) : Prop where
  lt : m < 2 * f.binade
  le_exponent : f.minExponent ≤ q
  full : q = f.minExponent ∨ f.binade ≤ m

theorem isCanonical_of_decode {f : Binary} {bits m : ℕ} {negative : Bool} {q : ℤ}
    (h : f.decode bits = .finite negative m q) : f.IsCanonical m q := by
  have hfraction := Nat.mod_lt (bits % f.signBit) f.binade_pos
  unfold decode at h
  dsimp only at h
  split_ifs at h with _ _ hfield
  · obtain ⟨-, rfl, rfl⟩ := Value.finite.inj h
    exact ⟨by omega, le_rfl, Or.inl rfl⟩
  · obtain ⟨-, rfl, rfl⟩ := Value.finite.inj h
    have hpos := Nat.pos_of_ne_zero hfield
    exact ⟨by omega, by omega, Or.inr (Nat.le_add_right _ _)⟩

variable (S : Format) {m : ℕ} {q : ℤ} {x : ℝ}

theorem binade_mul_zpow (q : ℤ) :
    ((ofFormat S).binade : ℝ) * 2 ^ q = 2 ^ (q + S.mantissaBits - 1) := by
  rw [binade_ofFormat, Nat.cast_pow, Nat.cast_two, ← zpow_natCast, ← zpow_add₀ two_ne_zero]
  congr 1
  rw [Rounding.coe_mantissaBits]
  ring

/-- Below a power of two the grid is half as wide. -/
theorem nearest_of_isNear_of_lt (hexponent : S.minExponent < q)
    (hlt : x < (ofFormat S).binade * 2 ^ q) (h : IsNear (ofFormat S) (ofFormat S).binade q x) :
    Rounding.nearest S x = (ofFormat S).binade * 2 ^ q := by
  have hunit : (0 : ℝ) < 2 ^ q := by positivity
  have hhalf : (2 : ℝ) ^ q = 2 * 2 ^ (q - 1) := by
    rw [zpow_sub_one₀ two_ne_zero]
    ring
  have hone : (1 : ℝ) ≤ (ofFormat S).binade := by exact_mod_cast (ofFormat S).binade_pos
  have hbelow := h.binade_le_below rfl (by rwa [minExponent_ofFormat])
  have hlow : ((ofFormat S).binade : ℝ) * 2 ^ (q - 1) ≤ x := by
    refine le_trans ?_ hbelow
    rw [hhalf, ← mul_assoc]
    exact mul_le_mul_of_nonneg_right (by linarith) (by positivity)
  have hpos : 0 < x := lt_of_lt_of_le (by positivity) hlow
  have hgrid : gridExponent S x = q - 1 := by
    refine le_antisymm (gridExponent_le S hpos.ne' ?_ (by omega)) (le_gridExponent ?_)
    · rw [abs_of_pos hpos]
      refine hlt.trans_eq ?_
      rw [binade_mul_zpow]
      congr 1
      ring
    · rwa [← binade_mul_zpow]
  have hmultiple : ((ofFormat S).binade : ℝ) * 2 ^ q =
      ((2 * (ofFormat S).binade : ℤ) : ℝ) * 2 ^ (q - 1) := by
    rw [hhalf]
    push_cast
    ring
  rw [hmultiple]
  refine nearest_eq_of_abs_sub_le hgrid ?_ fun hodd => absurd (even_two_mul _) hodd
  rw [← hmultiple, abs_le]
  constructor <;> linarith

/-- What lies in the interval of a value is rounded to it. -/
theorem nearest_of_isNear (hcanonical : (ofFormat S).IsCanonical m q) (hm : 0 < m)
    (h : IsNear (ofFormat S) m q x) : Rounding.nearest S x = m * 2 ^ q := by
  obtain ⟨hlt, hexponent, hfull⟩ := hcanonical
  rw [minExponent_ofFormat] at hexponent hfull
  by_cases hfiner : m = (ofFormat S).binade ∧ S.minExponent < q ∧ x < m * 2 ^ q
  · obtain ⟨rfl, hq, hx⟩ := hfiner
    exact nearest_of_isNear_of_lt S hq hx h
  have hunit : (0 : ℝ) < 2 ^ q := by positivity
  have hone : (1 : ℝ) ≤ m := by exact_mod_cast hm
  have hpos : 0 < x := lt_of_lt_of_le (mul_pos (by linarith) hunit) h.le_below
  have hhigh : x < 2 ^ (S.mantissaBits + q : ℤ) := by
    have hm' : (m : ℝ) + 1 / 2 < 2 * (ofFormat S).binade := by
      have hsucc : (m : ℝ) + 1 ≤ 2 * (ofFormat S).binade := by exact_mod_cast hlt
      linarith
    calc x ≤ (m + 1 / 2) * 2 ^ q := h.le_above
      _ < 2 * (ofFormat S).binade * 2 ^ q := mul_lt_mul_of_pos_right hm' hunit
      _ = 2 ^ (S.mantissaBits + q : ℤ) := by
        rw [mul_assoc, binade_mul_zpow, mul_comm, ← zpow_add_one₀ two_ne_zero]
        congr 1
        ring
  have hgrid : gridExponent S x = q := by
    refine le_antisymm (gridExponent_le S hpos.ne' (by rwa [abs_of_pos hpos]) hexponent) ?_
    rcases hexponent.eq_or_lt with rfl | hq
    · exact minExponent_le_gridExponent S x
    refine le_gridExponent ?_
    rw [← binade_mul_zpow]
    rcases (hfull.resolve_left hq.ne').eq_or_lt with heq | hmore
    · rw [heq]
      exact not_lt.1 fun hx => hfiner ⟨heq.symm, hq, hx⟩
    · have hsucc : ((ofFormat S).binade : ℝ) + 1 ≤ m := by exact_mod_cast hmore
      exact (mul_le_mul_of_nonneg_right (by linarith) hunit.le).trans h.le_below
  have hbelow := h.le_below
  have habove := h.le_above
  refine nearest_eq_of_abs_sub_le (n := m) hgrid ?_ fun hodd => ?_
  · rw [Int.cast_natCast, abs_le]
    constructor <;> linarith
  · have hodd' : m % 2 = 1 := by
      rw [Int.not_even_iff] at hodd
      omega
    obtain ⟨hlt', hgt⟩ := h.lt_of_odd hodd'
    rw [Int.cast_natCast, abs_lt]
    constructor <;> linarith

end Binary

end LocalGrid
