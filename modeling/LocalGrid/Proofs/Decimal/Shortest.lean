import LocalGrid.Decimal.Shortest
import LocalGrid.Proofs.Binary.Ladder

/-!
# Shortest decimals

A shortest decimal lies in the interval that it is sought in. Going down from the grid of the
leading digit, seventeen grids are enough for a mantissa of single precision: by then a grid is
finer than the upper half of the interval, so that the neighbour above the value lies in it.
-/

namespace LocalGrid.Decimal

theorem cast_tenPow (k : ℕ) : ((tenPow k : ℕ) : ℝ) = 10 ^ k := by
  change ((10 ^ k : ℕ) : ℝ) = 10 ^ k
  push_cast
  rfl

theorem ten_zpow_eq (g : ℤ) :
    (10 : ℝ) ^ g = (tenPow g.toNat : ℕ) / (tenPow (-g).toNat : ℕ) := by
  rw [cast_tenPow, cast_tenPow, ← zpow_natCast, ← zpow_natCast,
    ← zpow_sub₀ (by norm_num : (10 : ℝ) ≠ 0), Int.toNat_sub_toNat_neg]

theorem lt_ten_pow_length (n : ℕ) : n < 10 ^ (digits n).length :=
  (Nat.length_toDigits_le_iff (by decide) Nat.length_toDigits_pos).1 le_rfl

theorem ten_pow_length_le {n : ℕ} (hn : 0 < n) : 10 ^ ((digits n).length - 1) ≤ n := by
  rcases Nat.eq_zero_or_pos ((digits n).length - 1) with hzero | hpos
  · rw [hzero]
    exact hn
  · by_contra hlt
    have hshort := (Nat.length_toDigits_le_iff (by decide) hpos).2 (not_le.1 hlt)
    change (digits n).length ≤ _ at hshort
    omega

/-- The exponent of the leading digit of a quotient is not too large. -/
theorem ten_zpow_log10Quotient_le {n d : ℕ} (hn : 0 < n) (hd : 0 < d) :
    (10 : ℝ) ^ log10Quotient n d ≤ (n : ℝ) / d := by
  have hdpos : (0 : ℝ) < d := by exact_mod_cast hd
  unfold log10Quotient
  split_ifs with hle
  · have hlength : 1 ≤ (digits (n / d)).length := Nat.length_toDigits_pos
    rw [← Nat.cast_one, ← Nat.cast_sub hlength, zpow_natCast]
    calc (10 : ℝ) ^ ((digits (n / d)).length - 1) ≤ (n / d : ℕ) := by
          exact_mod_cast ten_pow_length_le (Nat.div_pos hle hd)
      _ ≤ n / d := Nat.cast_div_le
  · have hlength : 1 ≤ (digits (d / n)).length := Nat.length_toDigits_pos
    dsimp only
    split_ifs with hpower
    · have hd' : (d : ℝ) = n * 10 ^ ((digits (d / n)).length - 1) := by
        rw [← cast_tenPow]
        exact_mod_cast hpower.symm
      have hnpos : (0 : ℝ) < n := by exact_mod_cast hn
      rw [hd', ← neg_sub, ← Nat.cast_one, ← Nat.cast_sub hlength, zpow_neg, zpow_natCast]
      exact le_of_eq (by field_simp)
    · have hlt := Nat.lt_mul_of_div_lt (lt_ten_pow_length (d / n)) hn
      rw [zpow_neg, zpow_natCast, le_div_iff₀ hdpos, inv_mul_le_iff₀ (by positivity)]
      exact_mod_cast hlt.le

namespace Interval

variable {i : Interval} {tie : Tie} {k : ℕ} {g : ℤ}

theorem contains_of_onGrid? (h : i.onGrid? tie g = some k) : i.contains k g = true := by
  unfold onGrid? at h
  dsimp only at h
  split at h
  · next hbelow habove =>
    obtain rfl := Option.some.inj h
    -- the nearer of the two neighbours is one of them
    have hlow := div_le_roundDiv tie (i.centre * tenPow (-g).toNat) (i.scale * tenPow g.toNat)
    have hhigh :=
      roundDiv_le_div_add_one tie (i.centre * tenPow (-g).toNat) (i.scale * tenPow g.toNat)
    rcases hlow.eq_or_lt with heq | hlt
    · rwa [← heq]
    · rwa [Nat.le_antisymm hhigh hlt]
  · next hbelow _ =>
    obtain rfl := Option.some.inj h
    exact hbelow
  · next _ habove =>
    obtain rfl := Option.some.inj h
    exact habove
  · cases h

/-- A grid finer than the upper half of an interval has a point in it. -/
theorem exists_onGrid? (tie : Tie) (hlow : i.low ≤ i.centre) (hscale : 0 < i.scale)
    (hfine : i.centre * tenPow (-g).toNat + i.scale * tenPow g.toNat <
      i.high * tenPow (-g).toNat) : ∃ k, i.onGrid? tie g = some k := by
  have hstep : 0 < i.scale * tenPow g.toNat := Nat.mul_pos hscale (tenPow_pos _)
  have habove : i.contains (i.centre * tenPow (-g).toNat / (i.scale * tenPow g.toNat) + 1) g =
      true := by
    have hover := Nat.lt_div_mul_add (a := i.centre * tenPow (-g).toNat) hstep
    have hunder := Nat.div_mul_le_self (i.centre * tenPow (-g).toNat) (i.scale * tenPow g.toNat)
    have hpoint (n : ℕ) : (n + 1) * tenPow g.toNat * i.scale =
        n * (i.scale * tenPow g.toNat) + i.scale * tenPow g.toNat := by ring
    have hcentre : i.low * tenPow (-g).toNat ≤ i.centre * tenPow (-g).toNat :=
      Nat.mul_le_mul_right _ hlow
    have hinside : i.low * tenPow (-g).toNat <
          (i.centre * tenPow (-g).toNat / (i.scale * tenPow g.toNat) + 1) *
            tenPow g.toNat * i.scale ∧
        (i.centre * tenPow (-g).toNat / (i.scale * tenPow g.toNat) + 1) *
            tenPow g.toNat * i.scale < i.high * tenPow (-g).toNat := by
      rw [hpoint]
      constructor <;> omega
    unfold contains
    dsimp only
    split_ifs
    · simp [hinside.1.le, hinside.2.le]
    · simp [hinside.1, hinside.2]
  unfold onGrid?
  dsimp only
  rw [habove]
  cases i.contains (i.centre * tenPow (-g).toNat / (i.scale * tenPow g.toNat)) g <;>
    exact ⟨_, rfl⟩

theorem contains_firstOnGrid {grids : ℕ} (h : ∃ j < grids, ∃ k, i.onGrid? tie (g - j) = some k) :
    i.contains (i.firstOnGrid tie grids g).significand (i.firstOnGrid tie grids g).exponent =
      true := by
  induction grids generalizing g with
  | zero =>
      obtain ⟨j, hj, -⟩ := h
      exact absurd hj (Nat.not_lt_zero j)
  | succ grids ih =>
      rw [firstOnGrid]
      cases hfirst : i.onGrid? tie g with
      | some k => exact contains_of_onGrid? hfirst
      | none =>
          obtain ⟨j, hj, k, hk⟩ := h
          refine ih ?_
          cases j with
          | zero => simp [hfirst] at hk
          | succ j =>
              refine ⟨j, Nat.lt_of_succ_lt_succ hj, k, ?_⟩
              rw [← hk]
              congr 1
              push_cast
              ring

theorem bounds_of_contains (hscale : 0 < i.scale) (h : i.contains k g = true) :
    (i.low / i.scale ≤ (k : ℝ) * 10 ^ g ∧ (k : ℝ) * 10 ^ g ≤ i.high / i.scale) ∧
      (i.closed = false →
        i.low / i.scale < (k : ℝ) * 10 ^ g ∧ (k : ℝ) * 10 ^ g < i.high / i.scale) := by
  have hpos : (0 : ℝ) < i.scale := by exact_mod_cast hscale
  have hstretch : (0 : ℝ) < (tenPow (-g).toNat : ℕ) := by exact_mod_cast tenPow_pos _
  have hpoint : (k : ℝ) * 10 ^ g = ((k * tenPow g.toNat : ℕ) : ℝ) / (tenPow (-g).toNat : ℕ) := by
    rw [ten_zpow_eq]
    push_cast
    ring
  unfold contains at h
  dsimp only at h
  rw [hpoint, div_le_div_iff₀ hpos hstretch, div_le_div_iff₀ hstretch hpos,
    div_lt_div_iff₀ hpos hstretch, div_lt_div_iff₀ hstretch hpos]
  split_ifs at h with hclosed
  all_goals
    rw [Bool.and_eq_true, decide_eq_true_eq, decide_eq_true_eq] at h
  · refine ⟨⟨by exact_mod_cast h.1, by exact_mod_cast h.2⟩, fun hopen => ?_⟩
    simp [hclosed] at hopen
  · refine ⟨⟨by exact_mod_cast h.1.le, by exact_mod_cast h.2.le⟩, fun _ => ?_⟩
    exact ⟨by exact_mod_cast h.1, by exact_mod_cast h.2⟩

end Interval

/-! ## The interval of a value -/

variable {f : Binary} {tie : Tie} {m k : ℕ} {q g : ℤ}

theorem scale_pos (f : Binary) (m : ℕ) (q : ℤ) : 0 < (interval f m q).scale :=
  Nat.mul_pos (by decide) (twoPow_pos _)

/-- Numerators of the interval are quarters of the unit of the value. -/
theorem quarters_div_scale (f : Binary) (m : ℕ) (q : ℤ) (n : ℕ) :
    ((n * twoPow q.toNat : ℕ) : ℝ) / (interval f m q).scale = n / 4 * 2 ^ q := by
  have hscale : (twoPow (-q).toNat : ℝ) ≠ 0 := by exact_mod_cast (twoPow_pos _).ne'
  rw [Binary.two_zpow_eq q, interval]
  push_cast
  field_simp

/-- The shortest decimal of a mantissa of up to fifteen digits lies in the interval. -/
theorem contains_shortest (f : Binary) (tie : Tie) (q : ℤ) (hm : 0 < m)
    (hdigits : 2 * m < 10 ^ 16) :
    (interval f m q).contains (shortest f tie m q).significand (shortest f tie m q).exponent =
      true := by
  have hscale := scale_pos f m q
  have hcentre : 0 < (interval f m q).centre := Nat.mul_pos (by omega) (twoPow_pos _)
  set g := log10Quotient (interval f m q).centre (interval f m q).scale - (16 : ℕ) with hg
  refine Interval.contains_firstOnGrid ⟨16, by decide, ?_⟩
  refine Interval.exists_onGrid? tie ?_ hscale ?_
  · exact Nat.mul_le_mul_right _ (Nat.sub_le _ _)
  · have hleading := ten_zpow_log10Quotient_le hcentre hscale
    have hvalue : ((interval f m q).centre : ℝ) / (interval f m q).scale = m * 2 ^ q := by
      have hquarters := quarters_div_scale f m q (4 * m)
      rw [interval] at hquarters ⊢
      rw [hquarters]
      push_cast
      ring
    have hfine : (10 : ℝ) ^ g < 2 / 4 * 2 ^ q := by
      have hm' : (2 : ℝ) * m < 10 ^ 16 := by exact_mod_cast hdigits
      rw [hg, zpow_sub₀ (by norm_num), zpow_natCast, div_lt_iff₀ (by positivity)]
      calc (10 : ℝ) ^ log10Quotient (interval f m q).centre (interval f m q).scale
          ≤ m * 2 ^ q := hleading.trans_eq hvalue
        _ = 2 / 4 * 2 ^ q * (2 * m) := by ring
        _ < 2 / 4 * 2 ^ q * 10 ^ 16 := mul_lt_mul_of_pos_left hm' (by positivity)
    have hhalf := quarters_div_scale f m q 2
    rw [Nat.cast_ofNat] at hhalf
    rw [ten_zpow_eq, ← hhalf, div_lt_div_iff₀ (by exact_mod_cast tenPow_pos _)
      (by exact_mod_cast hscale)] at hfine
    have hnat : tenPow g.toNat * (interval f m q).scale <
        2 * twoPow q.toNat * tenPow (-g).toNat := by exact_mod_cast hfine
    have hhigh : (interval f m q).high = (interval f m q).centre + 2 * twoPow q.toNat := by
      rw [interval]
      ring
    rw [hhigh, add_mul, mul_comm (interval f m q).scale]
    exact Nat.add_lt_add_left hnat _

/-- What lies in the interval is nearer than half a unit, or as near if the mantissa is even. Below
a power of two the half is that of the unit there. -/
structure IsNear (f : Binary) (m : ℕ) (q : ℤ) (x : ℝ) : Prop where
  le_above : x ≤ (m + 1 / 2) * 2 ^ q
  le_below : (m - 1 / 2) * 2 ^ q ≤ x
  binade_le_below : m = f.binade → f.minExponent < q → (m - 1 / 4) * 2 ^ q ≤ x
  lt_of_odd : m % 2 = 1 → x < (m + 1 / 2) * 2 ^ q ∧ (m - 1 / 2) * 2 ^ q < x

theorem isNear_of_contains (hm : 0 < m) (h : (interval f m q).contains k g = true) :
    IsNear f m q (k * 10 ^ g) := by
  obtain ⟨⟨hbelow, habove⟩, hopen⟩ := Interval.bounds_of_contains (scale_pos f m q) h
  have hlow (n : ℕ) (hn : n ≤ 4 * m) :
      ((4 * m - n : ℕ) * twoPow q.toNat : ℕ) / ((interval f m q).scale : ℝ) =
        (m - n / 4) * 2 ^ q := by
    rw [quarters_div_scale, Nat.cast_sub hn]
    push_cast
    ring
  have hhigh : ((interval f m q).high : ℝ) / (interval f m q).scale = (m + 1 / 2) * 2 ^ q := by
    have hquarters := quarters_div_scale f m q (4 * m + 2)
    rw [interval] at hquarters ⊢
    rw [hquarters]
    push_cast
    ring
  have hhalf : (m - 1 / 2 : ℝ) * 2 ^ q ≤ (interval f m q).low / (interval f m q).scale := by
    have hone := hlow 1 (by omega)
    have htwo := hlow 2 (by omega)
    have hunit : (0 : ℝ) < 2 ^ q := by positivity
    rw [interval] at hone htwo ⊢
    dsimp only at hone htwo ⊢
    split_ifs
    · rw [hone]
      exact mul_le_mul_of_nonneg_right (by push_cast; linarith) hunit.le
    · rw [htwo]
      exact mul_le_mul_of_nonneg_right (by push_cast; linarith) hunit.le
  rw [hhigh] at habove hopen
  refine ⟨habove, hhalf.trans hbelow, fun hfull hq => ?_, fun hodd => ?_⟩
  · have hone := hlow 1 (by omega)
    rw [interval] at hone hbelow
    dsimp only at hone hbelow
    rw [if_pos ⟨hfull, hq⟩, hone] at hbelow
    exact_mod_cast hbelow
  · have hstrict := hopen (by simp [interval, hodd])
    exact ⟨hstrict.2, hhalf.trans_lt hstrict.1⟩

end LocalGrid.Decimal
