import LocalGrid.Proofs.Binary.Patterns
import LocalGrid.Proofs.Quantity.Monotone
import LocalGrid.Proofs.Quantity.Special
import LocalGrid.Proofs.Report.Days

/-!
# The shares of a report

The energy that is used on the day of its generation is a part of both the generation and the demand
of that day, and all of the smaller one; so what a report gives as the ratios of a day are shares,
also after a rounded division. A mean of shares is a share as well, although their sum is rounded:
it never passes the number of the summands, and from a power of two on it does not grow at all,
whereas the count is rounded to at least that power.
-/

namespace LocalGrid

open Quantity RoundedQuantity Simulation

/-! ## Ratios -/

section

variable {α : Type} [Quantity α] {part whole : α}

theorem ratio_of_pos (h : 0 < whole) : ratio part whole = part / whole := if_pos h

theorem ratio_of_not_pos (h : ¬ 0 < whole) : ratio part whole = 0 := if_neg h

theorem isShare_ratio [RoundedQuantity α] (hwhole : isFinite whole = true) (h0 : 0 ≤ part)
    (h : part ≤ whole) : isShare (ratio part whole) = true := by
  by_cases hpos : 0 < whole
  · rw [ratio_of_pos hpos]
    exact isShare_div hwhole h0 hpos h
  · rw [ratio_of_not_pos hpos]
    exact isShare_zero

theorem ratio_zero [PackedQuantity α] : ratio 0 whole = 0 := by
  by_cases hpos : 0 < whole
  · rw [ratio_of_pos hpos, PackedQuantity.zero_div_of_pos hpos]
  · exact ratio_of_not_pos hpos

end

theorem ratio_self {x : Float32} (hx : isFinite x = true) (h : 0 < x) : ratio x x = 1 := by
  rw [ratio_of_pos h]
  exact Binary.eq_of_value? (value?_div_self hx h) PackedQuantity.value?_one one_ne_zero

/-! ## Sums of a day -/

/-- A finite number that is not negative; if it is zero, it is the positive zero. -/
structure IsUnsigned {α : Type} [Quantity α] (x : α) : Prop where
  finite : isFinite x = true
  nonneg : 0 ≤ x
  eq_zero : x ≤ 0 → x = 0

section

variable {α : Type} [Quantity α] [PackedQuantity α] {x y : α}

theorem isUnsigned_zero : IsUnsigned (0 : α) := ⟨isFinite_zero, isNumber_zero, fun _ => rfl⟩

theorem IsUnsigned.pos_or_eq_zero (h : IsUnsigned x) : 0 < x ∨ x = 0 :=
  (lt_or_le isNumber_zero (isNumber_right h.nonneg)).imp_right h.eq_zero

/-- A finite sum with what is not negative has a sign only if there was one before. -/
theorem IsUnsigned.add (hx : IsUnsigned x) (hy : 0 ≤ y) (h : isFinite (x + y) = true) :
    IsUnsigned (x + y) where
  finite := h
  nonneg := nonneg_add hx.nonneg hy
  eq_zero := by
    intro hle
    have hx0 := hx.eq_zero (le_trans (le_add_of_nonneg hx.nonneg hy) hle)
    have hy0 := le_trans (le_add_of_nonneg_left hx.nonneg hy) hle
    obtain ⟨r, hr⟩ := isNumber_iff.1 (isNumber_right hy)
    have hr0 : r = 0 := le_antisymm ((le_iff_of_value hr value?_zero).1 hy0)
      ((le_iff_of_value value?_zero hr).1 hy)
    rw [hx0]
    exact PackedQuantity.zero_add_of_value? (hr0 ▸ hr)

/-- The parts of a finite total are finite, so they need not be negative only in this case. -/
theorem isUnsigned_total {f : Record α → α} {rs : List (Record α)}
    (h : isFinite (total f rs) = true) (hf : ∀ r ∈ rs, isFinite (f r) = true → 0 ≤ f r) :
    IsUnsigned (total f rs) := by
  induction rs using List.reverseRecOn with
  | nil => exact isUnsigned_zero
  | append_singleton rs r ih =>
      rw [total_concat] at h ⊢
      obtain ⟨hbefore, hlast⟩ := PackedQuantity.isFinite_of_isFinite_add h
      have hrest := ih hbefore fun q hq => hf q (List.mem_append_left _ hq)
      exact hrest.add (hf r (List.mem_append_right _ (List.mem_singleton_self r)) hlast) h

/-- Energies from powers that are not negative are not negative. -/
theorem isUnsigned_total_mul {hours : α} {f : Record α → α} {rs : List (Record α)}
    (hhours : 0 ≤ hours) (hf : ∀ r ∈ rs, 0 ≤ f r)
    (h : isFinite (total (fun r => f r * hours) rs) = true) :
    IsUnsigned (total (fun r => f r * hours) rs) := by
  refine isUnsigned_total h fun r hr hfinite => ?_
  obtain ⟨hpower, hlength⟩ := PackedQuantity.isFinite_of_isFinite_mul hfinite
  exact nonneg_mul hpower hlength (hf r hr) hhours

end

/-! ## The balance of a day -/

/-- What is used of the generation of a day and of its demand, and the shares that it has in both.
If there are both, one of them is used up; if one of them is missing, nothing is used. -/
structure DayBalance.HasShares {α : Type} [Quantity α] (d : DayBalance α) : Prop where
  consumed_le_generation : d.consumed ≤ d.generation
  consumed_le_demand : d.consumed ≤ d.demand
  isShare_selfSufficiency : isShare d.selfSufficiency = true
  isShare_selfConsumption : isShare d.selfConsumption = true
  eq_one_of_pos : 0 < d.generation → 0 < d.demand → d.selfSufficiency = 1 ∨ d.selfConsumption = 1
  eq_zero_of_le : d.generation ≤ 0 ∨ d.demand ≤ 0 → d.selfSufficiency = 0 ∧ d.selfConsumption = 0

theorem smaller_eq_zero {x y : Float32} (hx : IsUnsigned x) (hy : IsUnsigned y)
    (h : x ≤ 0 ∨ y ≤ 0) : smaller x y = 0 := by
  rcases h with hx0 | hy0
  · rcases hy.pos_or_eq_zero with hpos | hzero
    · rw [smaller_of_lt (lt_of_le_of_lt hx0 hpos), hx.eq_zero hx0]
    · rw [smaller_of_le (hzero ▸ hx.nonneg), hzero]
  · rw [smaller_of_le (le_trans hy0 hx.nonneg), hy.eq_zero hy0]

theorem DaySums.hasShares_balance {s : DaySums Float32} (hg : IsUnsigned s.generation)
    (hd : IsUnsigned s.demand) : s.balance.HasShares := by
  have hgn := isNumber_right hg.nonneg
  have hdn := isNumber_right hd.nonneg
  have hconsumed := smaller_nonneg hg.nonneg hd.nonneg
  refine ⟨smaller_le_left hgn hdn, smaller_le_right hgn hdn,
    isShare_ratio hd.finite hconsumed (smaller_le_right hgn hdn),
    isShare_ratio hg.finite hconsumed (smaller_le_left hgn hdn), fun hgpos hdpos => ?_,
    fun hzero => ?_⟩
  · simp only [DaySums.balance]
    rcases smaller_spec hgn hdn with ⟨h, -⟩ | ⟨h, -⟩ <;> rw [h]
    · exact Or.inr (ratio_self hg.finite hgpos)
    · exact Or.inl (ratio_self hd.finite hdpos)
  · have hnone := smaller_eq_zero hg hd hzero
    simp only [DaySums.balance, hnone, ratio_zero, and_self]

/-! ## Means -/

/-- The greatest count up to which all counts are exact. The next one is rounded back to it. -/
def exactCounts : ℕ := 2 ^ 24

theorem value?_natCast_of_lt_exactCounts {n : ℕ} (h : n < exactCounts) :
    value? (n : Float32) = some ((n : ℝ) : EReal) :=
  PackedQuantity.value?_natCast_of_lt (by decide) (by decide) h

theorem exactCounts_add_one_le : (exactCounts : Float32) + 1 ≤ (exactCounts : Float32) := by
  decide +kernel

theorem isFinite_natCast_of_le {n : ℕ} (h : n ≤ exactCounts) : isFinite (n : Float32) = true :=
  isFinite_of_le_of_le isFinite_zero (by decide +kernel) (natCast_nonneg n) (natCast_mono h)

/-- One more share keeps a sum within the number of its summands, and within the exact counts. -/
theorem add_share_le {sum x : Float32} {n : ℕ} (h0 : 0 ≤ sum)
    (h : sum ≤ ((min n exactCounts : ℕ) : Float32)) (hx : x ≤ 1) :
    sum + x ≤ ((min (n + 1) exactCounts : ℕ) : Float32) := by
  have hbound := isFinite_natCast_of_le (min_le_right n exactCounts)
  have hsum := isFinite_of_le_of_le isFinite_zero hbound h0 h
  refine le_trans (add_mono hsum hbound h hx) ?_
  rcases lt_or_ge n exactCounts with hlt | hge
  · rw [min_eq_left hlt.le, min_eq_left hlt]
    have hnext := value?_add_of_isFinite (value?_natCast_of_lt_exactCounts hlt) value?_one
    rw [le_iff_of_value hnext (value?_natCast _)]
    push_cast
    exact le_rfl
  · rw [min_eq_right hge, min_eq_right (hge.trans (Nat.le_succ n))]
    exact exactCounts_add_one_le

variable {xs : List Float32}

theorem foldl_share_nonneg (h : ∀ x ∈ xs, isShare x = true) : 0 ≤ xs.foldl (· + ·) 0 :=
  foldl_add_nonneg isNumber_zero fun x hx => (isShare_iff.1 (h x hx)).1

/-- A rounded sum of shares is at most the number of the shares. -/
theorem foldl_share_le (h : ∀ x ∈ xs, isShare x = true) :
    xs.foldl (· + ·) 0 ≤ ((min xs.length exactCounts : ℕ) : Float32) := by
  induction xs using List.reverseRecOn with
  | nil => exact natCast_nonneg _
  | append_singleton xs x ih =>
      have hbefore : ∀ y ∈ xs, isShare y = true := fun y hy => h y (List.mem_append_left _ hy)
      have hlast := h x (List.mem_append_right _ (List.mem_singleton_self x))
      rw [List.foldl_concat, List.length_append, List.length_singleton]
      exact add_share_le (foldl_share_nonneg hbefore) (ih hbefore) (isShare_iff.1 hlast).2

/-- A mean of shares is a share, however many they are. Of so many that their number is infinite in
single precision, it is zero. -/
theorem isShare_mean (h : ∀ x ∈ xs, isShare x = true) : isShare (mean xs) = true := by
  rw [mean]
  split_ifs with hempty
  · exact isShare_zero
  have hlength : 1 ≤ xs.length := List.length_pos_iff.2 (by simpa using hempty)
  have hbound := foldl_share_le h
  have hsum := isFinite_of_le_of_le isFinite_zero
    (isFinite_natCast_of_le (min_le_right xs.length exactCounts)) (foldl_share_nonneg h) hbound
  have hcount : ((1 : ℕ) : Float32) ≤ (xs.length : Float32) := natCast_mono hlength
  by_cases hfinite : isFinite (xs.length : Float32) = true
  · have hpos : (0 : Float32) < (xs.length : Float32) :=
      lt_of_lt_of_le (by decide +kernel) hcount
    exact isShare_div hfinite (foldl_share_nonneg h) hpos
      (le_trans hbound (natCast_mono (min_le_left _ _)))
  · have htop := value?_eq_top (natCast_nonneg xs.length) (Bool.not_eq_true _ ▸ hfinite)
    have hzero := PackedQuantity.value?_div_of_infinite hsum htop
    exact isShare_iff.2 ⟨(le_iff_of_value value?_zero hzero).2 le_rfl,
      (le_iff_of_value hzero value?_one).2 zero_le_one⟩

/-! ## Reports -/

theorem hasShares_of_mem_days {result : Result Float32} {d : DayBalance Float32}
    (hhours : 0 < result.hours)
    (hrecords : ∀ r ∈ result.records, 0 ≤ r.generation ∧ 0 ≤ r.demand)
    (hd : d ∈ (Report.ofResult result).days) (hgeneration : isFinite d.generation = true)
    (hdemand : isFinite d.demand = true) : d.HasShares := by
  rw [Report.days_ofResult] at hd
  obtain ⟨s, hs, rfl⟩ := List.mem_map.1 hd
  have hsums := eq_sumsOn_of_mem_daySums hs
  have hmem (r) (hr : r ∈ recordsOn s.day result.records) : r ∈ result.records :=
    (List.mem_filter.1 hr).1
  rw [show s.balance.generation = s.generation from rfl, hsums] at hgeneration
  rw [show s.balance.demand = s.demand from rfl, hsums] at hdemand
  rw [hsums]
  exact DaySums.hasShares_balance
    (isUnsigned_total_mul (le_of_lt hhours) (fun r hr => (hrecords r (hmem r hr)).1) hgeneration)
    (isUnsigned_total_mul (le_of_lt hhours) (fun r hr => (hrecords r (hmem r hr)).2) hdemand)

/-- If no record has a negative generation or demand and no sum of a day overflows, the ratios of
every day are shares, and so are their means, however many days there are. -/
theorem ratios_are_shares {result : Result Float32} (hhours : 0 < result.hours)
    (hrecords : ∀ r ∈ result.records, 0 ≤ r.generation ∧ 0 ≤ r.demand)
    (hdays : ∀ d ∈ (Report.ofResult result).days,
      isFinite d.generation = true ∧ isFinite d.demand = true) :
    (∀ d ∈ (Report.ofResult result).days, d.HasShares) ∧
      isShare (Report.ofResult result).meanSelfSufficiency = true ∧
      isShare (Report.ofResult result).meanSelfConsumption = true := by
  have hshares (d) (hd : d ∈ (Report.ofResult result).days) : d.HasShares :=
    hasShares_of_mem_days hhours hrecords hd (hdays d hd).1 (hdays d hd).2
  refine ⟨hshares, isShare_mean ?_, isShare_mean ?_⟩
  · exact List.forall_mem_map.2 fun d hd => (hshares d hd).isShare_selfSufficiency
  · exact List.forall_mem_map.2 fun d hd => (hshares d hd).isShare_selfConsumption

/-- A quarter of an hour at the start of each of three days: one with more generation than demand,
one with less, and one without any. -/
def threeQuarters : Result Float32 where
  records := [(738000, 30, 10), (738001, 0.1, 0.3), (738002, 0, 5)].map
    fun (day, generation, demand) =>
      { index := 0, timestamp := .midnight ⟨day⟩, solar := 0, wind := 0, chp := generation,
        generation, demand, surplus := generation - demand, generationOff := false,
        batteryLevel := 0, batteryChange := 0, gridExport := 0, gridImport := 0, thermal := none }
  hours := 0.25
  batteryCapacity := 0
  thermalCapacity := none
  peakThreshold := none

theorem ratios_are_shares_threeQuarters :
    (∀ d ∈ (Report.ofResult threeQuarters).days, d.HasShares) ∧
      isShare (Report.ofResult threeQuarters).meanSelfSufficiency = true ∧
      isShare (Report.ofResult threeQuarters).meanSelfConsumption = true :=
  ratios_are_shares (by decide +kernel) (by decide +kernel) (by decide +kernel)

end LocalGrid
