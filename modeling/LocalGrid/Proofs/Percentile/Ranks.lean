import LocalGrid.Proofs.Percentile.Interpolation

/-!
# Percentiles between ranks

The rank of a percentile is rounded, but it is not below zero and not above the last rank, and it
grows with the percentile. What it is above its whole part is exact and less than one. So a
percentile lies between the values at the whole ranks around it, and a greater percentile either
lies between the same two values, with a greater share, or not before the upper one of them.
-/

namespace LocalGrid

open Quantity RoundedQuantity

/-! ## Sorted series -/

theorem le_of_pairwise {α : Type} [Quantity α] {xs : List α} {i k : ℕ} {x y : α}
    (h : xs.Pairwise (· ≤ ·)) (hnumbers : ∀ z ∈ xs, IsNumber z) (hik : i ≤ k)
    (hx : xs[i]? = some x) (hy : xs[k]? = some y) : x ≤ y := by
  obtain ⟨hi, rfl⟩ := List.getElem?_eq_some_iff.1 hx
  obtain ⟨hk, rfl⟩ := List.getElem?_eq_some_iff.1 hy
  rcases hik.lt_or_eq with hlt | rfl
  · exact List.pairwise_iff_getElem.1 h i k hi hk hlt
  · exact hnumbers _ (List.getElem_mem hi)

variable {xs : List Float32}

theorem mem_sortSeries {x : Float32} : x ∈ sortSeries xs ↔ x ∈ xs :=
  (sortSeries_perm xs).mem_iff

theorem pairwise_le_sortSeries (hxs : ∀ x ∈ xs, IsNumber x) :
    (sortSeries xs).Pairwise (· ≤ ·) := by
  apply (pairwise_sortSeries xs).imp_of_mem
  intro x y hx hy
  exact Binary.single_le_of_sortsBefore (hxs x (mem_sortSeries.1 hx)) (hxs y (mem_sortSeries.1 hy))

/-- Later ranks have greater values. -/
theorem sortSeries_mono {i k : ℕ} {x y : Float32} (hxs : ∀ x ∈ xs, IsNumber x) (hik : i ≤ k)
    (hx : (sortSeries xs)[i]? = some x) (hy : (sortSeries xs)[k]? = some y) : x ≤ y :=
  le_of_pairwise (pairwise_le_sortSeries hxs) (fun z hz => hxs z (mem_sortSeries.1 hz)) hik hx hy

theorem isFinite_of_sortSeries {k : ℕ} {x : Float32} (hxs : ∀ x ∈ xs, isFinite x = true)
    (hx : (sortSeries xs)[k]? = some x) : isFinite x = true :=
  hxs x (mem_sortSeries.1 (List.mem_of_getElem? hx))

/-! ## Ranks -/

theorem nearest_natCast_of_lt {n : ℕ} (h : n < 2 ^ 53) : Rounding.nearest .binary64 n = n :=
  Rounding.nearest_of_isPoint _ (Rounding.isPoint_natCast _ (by decide) h)

theorem value?_natCast_of_lt {n : ℕ} (h : n < 2 ^ 53) :
    value? (n : Float) = some ((n : ℝ) : EReal) :=
  PackedQuantity.value?_natCast_of_lt (by decide) (by decide) h

theorem natCast_le_of_lt {n : ℕ} (h : n < 2 ^ 53) : (n : ℝ) ≤ 2 ^ 130 := by
  exact_mod_cast h.le.trans (Nat.pow_le_pow_right two_pos (by norm_num))

/-- The rank of a percentile among `n` values, both steps rounded. -/
noncomputable def roundedRank (n : ℕ) (x : ℝ) : ℝ :=
  Rounding.nearest .binary64 (Rounding.nearest .binary64 (x / 100) * (n - 1 : ℕ))

section

variable {n : ℕ} {x y : ℝ}

theorem roundedRank_nonneg (hx : 0 ≤ x) : 0 ≤ roundedRank n x :=
  Rounding.nearest_nonneg _
    (mul_nonneg (Rounding.nearest_nonneg _ (div_nonneg hx (by norm_num))) (Nat.cast_nonneg _))

theorem nearest_div_hundred_le_one (hx : x ≤ 100) : Rounding.nearest .binary64 (x / 100) ≤ 1 := by
  have hone : Rounding.nearest .binary64 1 = 1 := by
    exact_mod_cast nearest_natCast_of_lt (n := 1) (by norm_num)
  rw [← hone]
  exact Rounding.nearest_mono _ (by linarith)

theorem roundedRank_le (hn : n - 1 < 2 ^ 53) (hx : x ≤ 100) : roundedRank n x ≤ (n - 1 : ℕ) := by
  calc roundedRank n x ≤ Rounding.nearest .binary64 (n - 1 : ℕ) := Rounding.nearest_mono _
        (mul_le_of_le_one_left (Nat.cast_nonneg _) (nearest_div_hundred_le_one hx))
    _ = (n - 1 : ℕ) := nearest_natCast_of_lt hn

theorem roundedRank_mono (h : x ≤ y) : roundedRank n x ≤ roundedRank n y :=
  Rounding.nearest_mono _ (mul_le_mul_of_nonneg_right
    (Rounding.nearest_mono _ (div_le_div_of_nonneg_right h (by norm_num))) (Nat.cast_nonneg _))

end

theorem value?_hundred : value? ((100 : ℕ) : Float32) = some ((100 : ℝ) : EReal) :=
  PackedQuantity.value?_natCast_of_lt (by decide) (by decide) (by decide)

/-- A percentile from zero to one hundred is not moved, and its rank is only rounded. -/
theorem value?_percentileRank {percent : Float32} {x : ℝ} {n : ℕ} (hn : n - 1 < 2 ^ 53)
    (hx : value? percent = some (x : EReal)) (h0 : 0 ≤ x) (h100 : x ≤ 100) :
    value? (percentileRank n percent : Float) = some ((roundedRank n x : ℝ) : EReal) := by
  have hlow : ¬ percent < 0 :=
    not_lt_of_le ((le_iff_of_value value?_zero hx).2 (EReal.coe_nonneg.2 h0))
  have hhigh : ¬ ((100 : ℕ) : Float32) < percent :=
    not_lt_of_le ((le_iff_of_value hx value?_hundred).2 (EReal.coe_le_coe_iff.2 h100))
  have hpercent : toPercent percent = percent := by
    rw [toPercent, if_neg hlow, if_neg hhigh]
  have hwide : value? (Widening.widen percent : Float) = some (x : EReal) := Binary.value?_widen hx
  have hbase : value? ((100 : ℕ) : Float) = some ((100 : ℝ) : EReal) :=
    value?_natCast_of_lt (by norm_num)
  have hundred_pos : (0 : ℝ) < 100 := by norm_num
  have hpercents : |x / 100| ≤ 2 ^ 130 := by
    rw [abs_of_nonneg (div_nonneg h0 hundred_pos.le)]
    linarith
  have hproduct : |Rounding.nearest .binary64 (x / 100) * (n - 1 : ℕ)| ≤ 2 ^ 130 := by
    have hcount := natCast_le_of_lt hn
    have hshare0 := Rounding.nearest_nonneg .binary64 (div_nonneg h0 hundred_pos.le)
    rw [abs_of_nonneg (mul_nonneg hshare0 (Nat.cast_nonneg _))]
    exact (mul_le_of_le_one_left (Nat.cast_nonneg _) (nearest_div_hundred_le_one h100)).trans hcount
  have hshare := value?_div hwide hbase hundred_pos.ne'
  rw [round_of_abs_le hpercents] at hshare
  have hrank := value?_mul_of_isFinite hshare (value?_natCast_of_lt hn)
  rw [← EReal.coe_mul, round_of_abs_le hproduct] at hrank
  rw [percentileRank, hpercent]
  exact hrank

/-- What a rank is above its whole part is not rounded. -/
theorem value?_sub_floor {x : Float} {r : ℝ} (hr : value? x = some (r : EReal)) (hr0 : 0 ≤ r)
    (hfloor : ⌊r⌋₊ < 2 ^ 53) : value? (x - (⌊r⌋₊ : ℕ)) = some ((r - ⌊r⌋₊ : ℝ) : EReal) := by
  have hbase := value?_natCast_of_lt hfloor
  have hrpoint := PackedQuantity.isPoint_of_value? hr
  have hle := Nat.floor_le hr0
  have hlt := Nat.lt_floor_add_one r
  have hpoint : Rounding.IsPoint .binary64 (r - ⌊r⌋₊) := by
    rcases Nat.eq_zero_or_pos ⌊r⌋₊ with hzero | hpos
    · rwa [hzero, Nat.cast_zero, sub_zero]
    · have hone : (1 : ℝ) ≤ ⌊r⌋₊ := by exact_mod_cast hpos
      exact hrpoint.sub (PackedQuantity.isPoint_of_value? hbase) hle (by linarith)
  have hsmall : |r - ⌊r⌋₊| ≤ 2 ^ 130 := by
    rw [abs_of_nonneg (sub_nonneg.2 hle)]
    linarith
  rw [value?_sub_of_isFinite hr hbase, ← EReal.coe_sub, round_of_abs_le hsmall,
    Rounding.nearest_of_isPoint _ hpoint]

/-- The rank that is read behind the whole part of a rank is the whole rank from it on. -/
theorem next_rank_eq {x : Float} {r : ℝ} (hr : value? x = some (r : EReal))
    (hfloor : ⌊r⌋₊ < 2 ^ 53) :
    (if ((⌊r⌋₊ : ℕ) : Float) < x then ⌊r⌋₊ + 1 else ⌊r⌋₊) = ⌈r⌉₊ := by
  have hlt : ((⌊r⌋₊ : ℕ) : Float) < x ↔ (⌊r⌋₊ : ℝ) < r := by
    rw [lt_iff_of_value (value?_natCast_of_lt hfloor) hr, EReal.coe_lt_coe_iff]
  by_cases h : (⌊r⌋₊ : ℝ) < r
  · rw [if_pos (hlt.2 h)]
    refine le_antisymm (Nat.lt_ceil.2 h) (Nat.ceil_le.2 ?_)
    push_cast
    exact (Nat.lt_floor_add_one r).le
  · rw [if_neg (mt hlt.1 h)]
    exact le_antisymm (Nat.floor_le_ceil r) (Nat.ceil_le.2 (not_lt.1 h))

/-! ## Percentiles -/

section

variable {α ω : Type} [Quantity α] [Quantity ω] [Widening α ω]

theorem exists_of_percentile? {xs : List α} {percent θ : α} {rank : ω} {low : ℕ}
    (hrank : percentileRank xs.length percent = rank) (hlow : Widening.floor α rank = low)
    (h : percentile? xs percent = some θ) :
    ∃ a b, (sortSeries xs)[low]? = some a ∧
      (sortSeries xs)[if (low : ω) < rank then low + 1 else low]? = some b ∧
      θ = interpolate a b (rank - (low : ω)) := by
  simp only [percentile?, hrank, hlow, Option.bind_eq_bind, Option.bind_eq_some_iff] at h
  obtain ⟨a, ha, b, hb, heq⟩ := h
  exact ⟨a, b, ha, hb, (Option.some.inj heq).symm⟩

end

/-- A percentile is interpolated between the values at the whole ranks around its rank. -/
theorem exists_percentile?_eq_interpolate {percent : Float32} {r : ℝ} (hxs : xs ≠ [])
    (hlength : xs.length - 1 < 2 ^ 53)
    (hr : value? (percentileRank xs.length percent : Float) = some (r : EReal)) (hr0 : 0 ≤ r)
    (hle : r ≤ (xs.length - 1 : ℕ)) :
    ∃ a b share, (sortSeries xs)[⌊r⌋₊]? = some a ∧ (sortSeries xs)[⌈r⌉₊]? = some b ∧
      value? share = some ((r - ⌊r⌋₊ : ℝ) : EReal) ∧
      percentile? xs percent = some (interpolate a b share) := by
  have hfloor : ⌊r⌋₊ ≤ xs.length - 1 := Nat.floor_le_of_le hle
  have hlow := double_floor_eq hr
  rw [min_eq_left (by omega)] at hlow
  obtain ⟨y, hy⟩ := exists_percentile?_of_rank_le hxs hr hle
  obtain ⟨a, b, ha, hb, rfl⟩ := exists_of_percentile? rfl hlow hy
  rw [next_rank_eq hr (by omega)] at hb
  exact ⟨a, b, _, ha, hb, value?_sub_floor hr hr0 (by omega), hy⟩

section

variable {percent percent' : Float32} {r r' : ℝ} (hxs : ∀ x ∈ xs, isFinite x = true)
  (hne : xs ≠ []) (hlength : xs.length - 1 < 2 ^ 53)
  (hr : value? (percentileRank xs.length percent : Float) = some (r : EReal))
  (hr' : value? (percentileRank xs.length percent' : Float) = some (r' : EReal))

include hxs hne hlength hr

/-- A percentile lies between the values at the whole ranks around its rank. -/
theorem exists_percentile?_between (hr0 : 0 ≤ r) (hle : r ≤ (xs.length - 1 : ℕ)) :
    ∃ a b y, (sortSeries xs)[⌊r⌋₊]? = some a ∧ (sortSeries xs)[⌈r⌉₊]? = some b ∧
      percentile? xs percent = some y ∧ a ≤ y ∧ y ≤ b := by
  obtain ⟨a, b, share, ha, hb, hshare, hy⟩ :=
    exists_percentile?_eq_interpolate hne hlength hr hr0 hle
  have hnumbers : ∀ x ∈ xs, IsNumber x := fun x hx => isNumber_of_isFinite (hxs x hx)
  have hab := sortSeries_mono hnumbers (Nat.floor_le_ceil r) ha hb
  obtain ⟨hay, hyb⟩ := interpolate_between (isFinite_of_sortSeries hxs ha)
    (isFinite_of_sortSeries hxs hb) hab hshare (sub_nonneg.2 (Nat.floor_le hr0))
    (by linarith [Nat.lt_floor_add_one r])
  exact ⟨a, b, _, ha, hb, hy, hay, hyb⟩

include hr'

/-- Percentiles are in the order of their ranks. -/
theorem percentile?_le_of_rank_le {y y' : Float32} (hr0 : 0 ≤ r) (hrr' : r ≤ r')
    (hle : r' ≤ (xs.length - 1 : ℕ)) (hy : percentile? xs percent = some y)
    (hy' : percentile? xs percent' = some y') : y ≤ y' := by
  have hnumbers : ∀ x ∈ xs, IsNumber x := fun x hx => isNumber_of_isFinite (hxs x hx)
  have hr0' := hr0.trans hrr'
  rcases le_or_gt ⌈r⌉₊ ⌊r'⌋₊ with hranks | hranks
  · -- a whole rank lies between the two
    obtain ⟨-, b, z, -, hb, hz, -, hzb⟩ :=
      exists_percentile?_between hxs hne hlength hr hr0 (hrr'.trans hle)
    obtain ⟨a, -, z', ha, -, hz', haz', -⟩ :=
      exists_percentile?_between hxs hne hlength hr' hr0' hle
    obtain rfl := Option.some.inj (hz.symm.trans hy)
    obtain rfl := Option.some.inj (hz'.symm.trans hy')
    exact le_trans hzb (le_trans (sortSeries_mono hnumbers hranks hb ha) haz')
  · -- both lie between the same whole ranks
    have hfloor : ⌊r'⌋₊ = ⌊r⌋₊ := by
      have hceil := Nat.ceil_le_floor_add_one r
      have hmono := Nat.floor_le_floor hrr'
      omega
    have hceil : ⌈r'⌉₊ = ⌈r⌉₊ := by
      have hceil' := Nat.ceil_le_floor_add_one r'
      have hmono := Nat.ceil_mono hrr'
      omega
    obtain ⟨a, b, share, ha, hb, hshare, hz⟩ :=
      exists_percentile?_eq_interpolate hne hlength hr hr0 (hrr'.trans hle)
    obtain ⟨a', b', share', ha', hb', hshare', hz'⟩ :=
      exists_percentile?_eq_interpolate hne hlength hr' hr0' hle
    rw [hfloor] at ha' hshare'
    rw [hceil] at hb'
    obtain rfl := Option.some.inj (ha.symm.trans ha')
    obtain rfl := Option.some.inj (hb.symm.trans hb')
    obtain rfl := Option.some.inj (hz.symm.trans hy)
    obtain rfl := Option.some.inj (hz'.symm.trans hy')
    have hlt : r' < ⌊r⌋₊ + 1 := hfloor ▸ Nat.lt_floor_add_one r'
    exact interpolate_mono (isFinite_of_sortSeries hxs ha) (isFinite_of_sortSeries hxs hb)
      (sortSeries_mono hnumbers (Nat.floor_le_ceil r) ha hb) hshare hshare'
      (sub_nonneg.2 (Nat.floor_le hr0)) (by linarith) (by linarith)

end

/-- A series has the percentiles of its permutations. -/
theorem percentile?_eq_of_permutation {ys : List Float32} (h : ys.Perm xs) (percent : Float32) :
    percentile? ys percent = percentile? xs percent := by
  rw [percentile?_eq_of_perm (h.trans (sortSeries_perm xs).symm) (pairwise_sortSeries xs),
    percentile?_eq]

/-- The percentiles of a finite series, from zero to one hundred, exist. Each one lies between the
values at the whole ranks around its rank, and so between the least and the greatest value. They
depend on the values but not on their arrangement, and they are in order. -/
theorem percentile_order (hne : xs ≠ []) (hxs : ∀ x ∈ xs, isFinite x = true)
    (hlength : xs.length - 1 < 2 ^ 53) :
    (sortSeries xs).Perm xs ∧ (sortSeries xs).Pairwise (· ≤ ·) ∧
    (∀ percent : Float32, 0 ≤ percent → percent ≤ ((100 : ℕ) : Float32) →
      ∃ (r : ℝ) (a b y : Float32),
        value? (percentileRank xs.length percent : Float) = some (r : EReal) ∧
        (sortSeries xs)[⌊r⌋₊]? = some a ∧ (sortSeries xs)[⌈r⌉₊]? = some b ∧
        percentile? xs percent = some y ∧ a ≤ y ∧ y ≤ b ∧
        (∀ low, (∀ x ∈ xs, low ≤ x) → low ≤ y) ∧ ∀ high, (∀ x ∈ xs, x ≤ high) → y ≤ high) ∧
    (∀ (ys : List Float32) (percent : Float32), ys.Perm xs →
      percentile? ys percent = percentile? xs percent) ∧
    ∀ (percent percent' y y' : Float32), 0 ≤ percent → percent ≤ percent' →
      percent' ≤ ((100 : ℕ) : Float32) → percentile? xs percent = some y →
        percentile? xs percent' = some y' → y ≤ y' := by
  have hhundred : isFinite ((100 : ℕ) : Float32) = true := isFinite_iff.2 ⟨_, value?_hundred⟩
  have hrank : ∀ {percent : Float32}, 0 ≤ percent → percent ≤ ((100 : ℕ) : Float32) →
      ∃ x : ℝ, value? percent = some (x : EReal) ∧ 0 ≤ x ∧ x ≤ 100 := by
    intro percent h0 h100
    obtain ⟨x, hx⟩ := isFinite_iff.1 (isFinite_of_le_of_le isFinite_zero hhundred h0 h100)
    exact ⟨x, hx, EReal.coe_nonneg.1 ((le_iff_of_value value?_zero hx).1 h0),
      EReal.coe_le_coe_iff.1 ((le_iff_of_value hx value?_hundred).1 h100)⟩
  refine ⟨sortSeries_perm xs, pairwise_le_sortSeries fun x hx => isNumber_of_isFinite (hxs x hx),
    ?_, fun ys percent h => percentile?_eq_of_permutation h percent, ?_⟩
  · intro percent h0 h100
    obtain ⟨x, hx, hx0, hx100⟩ := hrank h0 h100
    have hr := value?_percentileRank hlength hx hx0 hx100
    obtain ⟨a, b, y, ha, hb, hy, hay, hyb⟩ := exists_percentile?_between hxs hne hlength hr
      (roundedRank_nonneg hx0) (roundedRank_le hlength hx100)
    have hamem := mem_sortSeries.1 (List.mem_of_getElem? ha)
    have hbmem := mem_sortSeries.1 (List.mem_of_getElem? hb)
    exact ⟨_, a, b, y, hr, ha, hb, hy, hay, hyb, fun low h => le_trans (h a hamem) hay,
      fun high h => le_trans hyb (h b hbmem)⟩
  · intro percent percent' y y' h0 hle h100 hy hy'
    obtain ⟨x, hx, hx0, hx100⟩ := hrank h0 (le_trans hle h100)
    obtain ⟨x', hx', hx0', hx100'⟩ := hrank (le_trans h0 hle) h100
    have hxx' : x ≤ x' := EReal.coe_le_coe_iff.1 ((le_iff_of_value hx hx').1 hle)
    exact percentile?_le_of_rank_le hxs hne hlength (value?_percentileRank hlength hx hx0 hx100)
      (value?_percentileRank hlength hx' hx0' hx100') (roundedRank_nonneg hx0)
      (roundedRank_mono hxx') (roundedRank_le hlength hx100') hy hy'

/-- Values of very different magnitudes on both sides of zero. -/
def lopsided : List Float32 := [3e38, -0.1, 1e-45, -3e38]

/-- The fortieth percentile lies between the two values before the last one, however the series is
arranged, and the eightieth is not below it. -/
theorem percentile_order_lopsided :
    percentile? lopsided 40 = some (-0.08) ∧ percentile? lopsided.reverse 40 = some (-0.08) ∧
      ∃ (r : ℝ) (a b y : Float32),
        value? (percentileRank 4 (80 : Float32) : Float) = some (r : EReal) ∧
        (sortSeries lopsided)[⌊r⌋₊]? = some a ∧ (sortSeries lopsided)[⌈r⌉₊]? = some b ∧
        percentile? lopsided 80 = some y ∧ a ≤ y ∧ y ≤ b ∧ -0.08 ≤ y ∧ y ≤ 3e38 := by
  have hsorted : lopsided.Perm [-3e38, -0.1, 1e-45, 3e38] := by decide +kernel
  have hforty : percentile? lopsided 40 = some (-0.08) := by
    rw [percentile?_eq_of_perm hsorted (by decide +kernel)]
    decide +kernel
  have hfinite : ∀ x ∈ lopsided, isFinite x = true := by decide +kernel
  obtain ⟨-, -, hbetween, hperm, hmono⟩ :=
    percentile_order (List.cons_ne_nil _ _) hfinite (by decide)
  obtain ⟨r, a, b, y, hr, ha, hb, hy, hay, hyb, -, hhigh⟩ :=
    hbetween 80 (by decide +kernel) (by decide +kernel)
  refine ⟨hforty, (hperm _ 40 (List.reverse_perm _)).trans hforty, r, a, b, y, hr, ha, hb, hy, hay,
    hyb, ?_, hhigh 3e38 (by decide +kernel)⟩
  exact hmono 40 80 _ _ (by decide +kernel) (by decide +kernel) (by decide +kernel) hforty hy

end LocalGrid
