import LocalGrid.Percentile
import LocalGrid.Proofs.Quantity.Readings
import LocalGrid.Proofs.Rounding.Distance
import LocalGrid.Proofs.Rounding.Whole
import LocalGrid.Simulation.Run

/-!
# Ranks

A series has a percentile if its rank is at most the last one. Ranks are counted with rounding, so
near the end of a very long series that may fail, but the rounding never makes up for an eighth of
the series, and so the percentile of peak shaving always exists.
-/

namespace LocalGrid

open Quantity RoundedQuantity

section

variable {α ω : Type} [Quantity α] [Quantity ω] [Widening α ω]

@[simp] theorem length_sortSeries (xs : List α) : (sortSeries xs).length = xs.length :=
  List.length_mergeSort xs

theorem sortSeries_perm (xs : List α) : (sortSeries xs).Perm xs := List.mergeSort_perm xs _

/-- A series has a percentile if it has values at both ranks. -/
theorem exists_percentile? {xs : List α} {percent : α} {rank : ω} {low : ℕ}
    (hrank : percentileRank xs.length percent = rank) (hlow : Widening.floor α rank = low)
    (hlt : low < xs.length) (hnext : (low : ω) < rank → low + 1 < xs.length) :
    ∃ x, percentile? xs percent = some x := by
  have hhigh : (if (low : ω) < rank then low + 1 else low) < (sortSeries xs).length := by
    rw [length_sortSeries]
    split_ifs with h
    · exact hnext h
    · exact hlt
  rw [← length_sortSeries xs] at hlt
  simp only [percentile?, hrank, hlow, List.getElem?_eq_getElem hlt,
    List.getElem?_eq_getElem hhigh]
  exact ⟨_, rfl⟩

def percentileOfSorted? (sorted : List α) (percent : α) : Option α := do
  let rank : ω := percentileRank sorted.length percent
  let low := Widening.floor α rank
  let high := if ((low : ℕ) : ω) < rank then low + 1 else low
  let a ← sorted[low]?
  let b ← sorted[high]?
  pure (interpolate a b (rank - ((low : ℕ) : ω)))

theorem percentile?_eq (xs : List α) (percent : α) :
    percentile? xs percent = percentileOfSorted? (sortSeries xs) percent := by
  simp only [percentile?, percentileOfSorted?, length_sortSeries]

end

/-! ## Sorting -/

theorem singleRank_injective : Function.Injective singleRank := by
  intro x y h
  have hx := x.toBits.toNat_lt
  have hy := y.toBits.toNat_lt
  have hbits : x.toBits.toNat = y.toBits.toNat := by
    unfold singleRank at h
    grind
  exact Float32.toBits_inj.1 (UInt32.toNat_inj.1 hbits)

theorem single_sortsBefore_iff {x y : Float32} :
    sortsBefore x y = true ↔ singleRank x ≤ singleRank y :=
  decide_eq_true_iff

theorem pairwise_sortSeries (xs : List Float32) :
    (sortSeries xs).Pairwise fun x y => sortsBefore x y = true := by
  apply List.pairwise_mergeSort
  · simp only [single_sortsBefore_iff]
    exact fun x y z => Int.le_trans
  · simp only [Bool.or_eq_true, single_sortsBefore_iff]
    exact fun x y => Int.le_total _ _

/-- Sorting gives the only arrangement that is in order. -/
theorem sortSeries_eq_of_perm {xs ys : List Float32} (h : xs.Perm ys)
    (hys : ys.Pairwise fun x y => sortsBefore x y = true) : sortSeries xs = ys := by
  refine List.Perm.eq_of_pairwise ?_ (pairwise_sortSeries xs) hys
    ((sortSeries_perm xs).trans h)
  intro x y _ _ hxy hyx
  exact singleRank_injective
    (Int.le_antisymm (single_sortsBefore_iff.1 hxy) (single_sortsBefore_iff.1 hyx))

theorem percentile?_eq_of_perm {xs ys : List Float32} (h : xs.Perm ys)
    (hys : ys.Pairwise fun x y => sortsBefore x y = true) (percent : Float32) :
    percentile? xs percent = percentileOfSorted? ys percent := by
  rw [percentile?_eq, sortSeries_eq_of_perm h hys]

example : sortSeries ([0, 0, 40, 60, 20, 0] : List Float32) = [0, 0, 0, 20, 40, 60] := by
  apply sortSeries_eq_of_perm <;> decide +kernel

/-! ## Double precision -/

theorem double_floor_eq {x : Float} {r : ℝ} (h : value? x = some (r : EReal)) :
    Widening.floor Float32 x = min ⌊r⌋₊ (2 ^ 64 - 1) :=
  Rounding.toNat_toUInt64 (PackedQuantity.value?_eq_some_iff.1 h).2

theorem double_floor_lt (x : Float) : Widening.floor Float32 x < 2 ^ 64 := x.toUInt64.toNat_lt

/-- Nothing is read behind the last rank: the last rank itself is a number, and so it is not rounded
and has no next one. -/
theorem exists_percentile?_of_rank_le {xs : List Float32} {percent : Float32} {r : ℝ}
    (hxs : xs ≠ []) (hr : value? (percentileRank xs.length percent : Float) = some (r : EReal))
    (hle : r ≤ (xs.length - 1 : ℕ)) : ∃ x, percentile? xs percent = some x := by
  have hlength := List.length_pos_iff.2 hxs
  have hlast : ⌊r⌋₊ ≤ xs.length - 1 := Nat.floor_le_of_le hle
  refine exists_percentile? rfl (double_floor_eq hr) (by omega) ?_
  intro hlt
  by_contra hnot
  have hlow : min ⌊r⌋₊ (2 ^ 64 - 1) = ⌊r⌋₊ := by omega
  have hfloor : (⌊r⌋₊ : ℝ) = (xs.length - 1 : ℕ) := by
    congr 1
    omega
  rw [hlow, lt_iff_of_value (value?_natCast _) hr, hfloor] at hlt
  rcases le_or_gt 0 r with h0 | h0
  · have heq : r = (xs.length - 1 : ℕ) := hle.antisymm (hfloor ▸ Nat.floor_le h0)
    rw [← heq, round_value hr] at hlt
    exact hlt.false
  · have hnonneg : 0 ≤ round Float ((xs.length - 1 : ℕ) : ℝ) :=
      round_nonneg (EReal.coe_nonneg.2 (Nat.cast_nonneg _))
    exact absurd (hnonneg.trans_lt hlt) (not_lt.2 (EReal.coe_nonpos.2 h0.le))

/-- What is far from the limit of double precision is not infinite. -/
theorem round_of_abs_le {x : ℝ} (h : |x| ≤ 2 ^ 130) :
    round Float (x : EReal) = (Rounding.nearest .binary64 x : ℝ) := by
  have hpoint : Rounding.IsPoint .binary64 (2 ^ 130) :=
    ⟨1, 130, by decide, by decide, by norm_num⟩
  have hlimit : (2 : ℝ) ^ 130 < Rounding.limit .binary64 :=
    pow_lt_pow_right₀ one_lt_two (by decide)
  exact Rounding.fit_of_abs_lt _ ((Rounding.abs_nearest_le hpoint h).trans_lt hlimit)

/-- The rank of a percentile of at most seven eighths is at most the last one. -/
theorem exists_rank_le {percent : Float32} {q : ℝ} {n : ℕ} (hn : n - 1 < 2 ^ 64)
    (hq : value? (Widening.widen (toPercent percent) / ((100 : ℕ) : Float)) = some (q : EReal))
    (h0 : 0 ≤ q) (h1 : q ≤ 7 / 8) :
    ∃ r : ℝ, value? (percentileRank n percent : Float) = some (r : EReal) ∧ r ≤ (n - 1 : ℕ) := by
  have hpoint : Rounding.IsPoint .binary64 (2 ^ 64) := ⟨1, 64, by decide, by decide, by norm_num⟩
  have hcount : |((n - 1 : ℕ) : ℝ)| ≤ 2 ^ 64 := by
    rw [Nat.abs_cast]
    exact_mod_cast hn.le
  have hwide : (2 : ℝ) ^ 64 ≤ 2 ^ 130 := by norm_num
  have hproduct : |q * Rounding.nearest .binary64 (n - 1 : ℕ)| ≤ 2 ^ 64 := by
    rw [abs_mul, abs_of_nonneg h0]
    exact (mul_le_of_le_one_left (abs_nonneg _) (h1.trans (by norm_num))).trans
      (Rounding.abs_nearest_le hpoint hcount)
  have hlast : value? ((n - 1 : ℕ) : Float) =
      some ((Rounding.nearest .binary64 (n - 1 : ℕ) : ℝ) : EReal) := by
    rw [value?_natCast, round_of_abs_le (hcount.trans hwide)]
  have hrank := value?_mul_of_isFinite hq hlast
  rw [← EReal.coe_mul, round_of_abs_le (hproduct.trans hwide)] at hrank
  refine ⟨_, hrank, ?_⟩
  rcases Nat.eq_zero_or_pos (n - 1) with hzero | hpos
  · simp [hzero]
  · have hone : (1 : ℝ) ≤ (n - 1 : ℕ) := by exact_mod_cast hpos
    refine Rounding.nearest_mul_nearest_le (h1.trans ?_) (one_pos.trans_le hone)
      (Rounding.minExponent_lt_gridExponent _ (by decide) hone)
    have hbits : (Float.Model.Format.binary64.mantissaBits : ℤ) = 53 := rfl
    rw [hbits]
    norm_num

/-- A percentile of at most seven eighths exists, however long the series. -/
theorem exists_percentile?_of_share_le {xs : List Float32} {percent : Float32} {q : ℝ}
    (hxs : xs ≠ [])
    (hq : value? (Widening.widen (toPercent percent) / ((100 : ℕ) : Float)) = some (q : EReal))
    (h0 : 0 ≤ q) (h1 : q ≤ 7 / 8) : ∃ x, percentile? xs percent = some x := by
  rcases lt_or_ge (xs.length - 1) (2 ^ 64) with hn | hn
  · obtain ⟨r, hr, hle⟩ := exists_rank_le hn hq h0 h1
    exact exists_percentile?_of_rank_le hxs hr hle
  · -- the words end before the series does
    have hfloor := double_floor_lt (percentileRank xs.length percent)
    exact exists_percentile? rfl rfl (by omega) fun _ => by omega

theorem eighty_share_eq :
    (Widening.widen (toPercent ((80 : ℕ) : Float32)) / ((100 : ℕ) : Float) : Float) =
      Float.ofBits 0x3FE999999999999A := by
  decide +kernel

theorem value?_eighty_share : value? (Float.ofBits 0x3FE999999999999A) =
    some ((7205759403792794 * 2 ^ (-53 : ℤ) : ℝ) : EReal) := by
  have hunpack : PackedQuantity.unpacked (Float.ofBits 0x3FE999999999999A) =
      .finite .positive 7205759403792794 (-53) (by decide) := rfl
  apply PackedQuantity.value?_eq_some_iff.2
  rw [hunpack]
  exact ⟨by simp [Rounding.IsNumber], by norm_num [Rounding.value, Rounding.signed]⟩

theorem exists_percentile?_eighty {xs : List Float32} (h : xs ≠ []) :
    ∃ x, percentile? xs ((80 : ℕ) : Float32) = some x := by
  apply exists_percentile?_of_share_le h (eighty_share_eq ▸ value?_eighty_share)
  · positivity
  · norm_num

/-! ## The threshold of peak shaving -/

namespace Simulation.Config

variable {c : Config Float32}

theorem exists_peakThreshold (hmode : c.dispatchMode = .peakShaving) (hdemand : c.demand ≠ []) :
    ∃ θ, c.peakThreshold? = some θ := by
  rw [peakThreshold?, hmode]
  exact exists_percentile?_eighty hdemand

theorem peakThreshold?_eq_of_perm (ys : List Float32) (hmode : c.dispatchMode = .peakShaving)
    (h : c.demand.Perm ys) (hys : ys.Pairwise fun x y => sortsBefore x y = true) :
    c.peakThreshold? = percentileOfSorted? ys ((peakPercentile : ℕ) : Float32) := by
  rw [peakThreshold?, hmode]
  exact percentile?_eq_of_perm h hys _

end Simulation.Config

end LocalGrid
