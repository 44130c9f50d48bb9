import LocalGrid.Proofs.Percentile.Ranks

/-!
# Values above a percentile

The rank of the eightieth percentile is rounded, but it is not below four fifths of the last rank.
The percentile is at least the value at its whole rank, and so no more values of the series are
above it than stand behind that rank.
-/

namespace LocalGrid

open Quantity RoundedQuantity

/-! ## Counting -/

section

variable {α : Type} [Quantity α] [RoundedQuantity α] {xs : List α} {k : ℕ} {x θ : α}

/-- In a series in order only what stands behind a value is above it. -/
theorem countP_above_le (h : xs.Pairwise (· ≤ ·)) (hnumbers : ∀ z ∈ xs, IsNumber z)
    (hk : xs[k]? = some x) : xs.countP (fun y => decide (x < y)) ≤ xs.length - 1 - k := by
  have hbefore : (xs.take (k + 1)).countP (fun y => decide (x < y)) = 0 := by
    apply List.countP_eq_zero.2
    intro y hy
    obtain ⟨i, hi, rfl⟩ := List.mem_take_iff_getElem.1 hy
    rw [decide_eq_true_eq]
    exact not_lt_of_le
      (le_of_pairwise h hnumbers (by omega) (List.getElem?_eq_getElem (by omega)) hk)
  calc xs.countP (fun y => decide (x < y))
      = (xs.take (k + 1)).countP (fun y => decide (x < y)) +
          (xs.drop (k + 1)).countP (fun y => decide (x < y)) := by
        rw [← List.countP_append, List.take_append_drop]
    _ ≤ (xs.drop (k + 1)).length := by
        rw [hbefore, zero_add]
        exact List.countP_le_length
    _ = xs.length - 1 - k := by
        rw [List.length_drop]
        omega

theorem countP_above_anti (h : x ≤ θ) (xs : List α) :
    xs.countP (fun y => decide (θ < y)) ≤ xs.countP (fun y => decide (x < y)) := by
  apply List.countP_mono_left
  intro y _ hy
  exact decide_eq_true (lt_of_le_of_lt h (of_decide_eq_true hy))

end

/-! ## Ranks -/

/-- The rank of the eightieth percentile is at least four fifths of the last one. -/
theorem exists_eighty_rank {n : ℕ} (hn : n - 1 < 2 ^ 53) :
    ∃ r : ℝ, value? (percentileRank n ((80 : ℕ) : Float32) : Float) = some (r : EReal) ∧
      ((4 * (n - 1) / 5 : ℕ) : ℝ) ≤ r ∧ r ≤ (n - 1 : ℕ) := by
  have hrank := value?_mul_of_isFinite (eighty_share_eq ▸ value?_eighty_share)
    (value?_natCast_of_lt hn)
  rw [← EReal.coe_mul] at hrank
  set x : ℝ := 7205759403792794 * 2 ^ (-53 : ℤ) * (n - 1 : ℕ) with hx
  have hle : x ≤ (n - 1 : ℕ) := by
    rw [hx]
    exact mul_le_of_le_one_left (Nat.cast_nonneg _) (by norm_num)
  have hlast : Rounding.nearest .binary64 x ≤ (n - 1 : ℕ) := by
    rw [← nearest_natCast_of_lt hn]
    exact Rounding.nearest_mono _ hle
  have hfifths : ((4 * (n - 1) / 5 : ℕ) : ℝ) ≤ x := by
    have hnat : ((5 * (4 * (n - 1) / 5) : ℕ) : ℝ) ≤ (4 * (n - 1) : ℕ) := by
      exact_mod_cast Nat.mul_div_le (4 * (n - 1)) 5
    have hshare : (4 / 5 : ℝ) ≤ 7205759403792794 * 2 ^ (-53 : ℤ) := by norm_num
    have hscaled := mul_le_mul_of_nonneg_right hshare (Nat.cast_nonneg (α := ℝ) (n - 1))
    push_cast at hnat
    rw [← hx] at hscaled
    linarith
  have hsmall : |x| ≤ 2 ^ 130 := by
    rw [abs_of_nonneg ((Nat.cast_nonneg _).trans hfifths)]
    exact hle.trans (natCast_le_of_lt hn)
  refine ⟨_, hrank.trans (congrArg some (round_of_abs_le hsmall)), ?_, hlast⟩
  rw [← nearest_natCast_of_lt (n := 4 * (n - 1) / 5) (by omega)]
  exact Rounding.nearest_mono _ hfifths

/-! ## The percentile -/

variable {xs : List Float32} {θ : Float32}

/-- The eightieth percentile is at least the value at four fifths of the ranks. -/
theorem exists_le_eighty_percentile (hxs : ∀ x ∈ xs, isFinite x = true ∧ 0 ≤ x)
    (hlength : xs.length - 1 < 2 ^ 53) (h : percentile? xs ((80 : ℕ) : Float32) = some θ) :
    ∃ x, (sortSeries xs)[4 * (xs.length - 1) / 5]? = some x ∧ x ≤ θ := by
  obtain ⟨r, hr, hle, hlast⟩ := exists_eighty_rank hlength
  have hr0 : 0 ≤ r := (Nat.cast_nonneg _).trans hle
  have hfinite : ∀ x ∈ xs, isFinite x = true := fun x hx => (hxs x hx).1
  have hne : xs ≠ [] := by
    rintro rfl
    rw [percentile?_nil] at h
    exact Option.some_ne_none θ h.symm
  obtain ⟨a, -, y, ha, -, hy, hay, -⟩ :=
    exists_percentile?_between hfinite hne hlength hr hr0 hlast
  obtain rfl := Option.some.inj (hy.symm.trans h)
  have hfifths : 4 * (xs.length - 1) / 5 ≤ ⌊r⌋₊ := Nat.le_floor hle
  have hx := List.getElem?_eq_getElem (hfifths.trans_lt (List.getElem?_eq_some_iff.1 ha).1)
  have hnumbers : ∀ x ∈ xs, IsNumber x := fun x hx => isNumber_of_isFinite (hfinite x hx)
  exact ⟨_, hx, le_trans (sortSeries_mono hnumbers hfifths hx ha) hay⟩

/-- At most a fifth of a series is above its eightieth percentile. -/
theorem countP_above_eighty_le (hxs : ∀ x ∈ xs, isFinite x = true ∧ 0 ≤ x)
    (hlength : xs.length - 1 < 2 ^ 53) (h : percentile? xs ((80 : ℕ) : Float32) = some θ) :
    xs.countP (fun x => decide (θ < x)) ≤ xs.length - 1 - 4 * (xs.length - 1) / 5 := by
  obtain ⟨x, hx, hle⟩ := exists_le_eighty_percentile hxs hlength h
  have hnumbers : ∀ z ∈ xs, IsNumber z := fun z hz => isNumber_of_isFinite (hxs z hz).1
  have hcount := countP_above_le (pairwise_le_sortSeries hnumbers)
    (fun z hz => hnumbers z (mem_sortSeries.1 hz)) hx
  rw [length_sortSeries, (sortSeries_perm xs).countP_eq] at hcount
  exact (countP_above_anti hle xs).trans hcount

end LocalGrid
