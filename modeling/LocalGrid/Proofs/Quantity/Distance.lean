import LocalGrid.Proofs.Quantity.Packed
import LocalGrid.Proofs.Rounding.Distance

/-!
# Differences of a packed quantity

A number that something is added to or subtracted from is rounded, and so is the difference from
what it was before. This difference is at most twice what was added or subtracted, and it can be
more than that amount. It is not if at least half of the number is subtracted, because then nothing
is rounded.
-/

namespace LocalGrid

open Quantity RoundedQuantity

namespace PackedQuantity

variable {α : Type} [Quantity α] [PackedQuantity α] {x y z : α}

/-- A finite value lies in the range of its format. -/
theorem abs_lt_limit {r : ℝ} (h : RoundedQuantity.value? x = some (r : EReal)) :
    |r| < Rounding.limit (format α) := by
  have hround := round_value h
  rw [Rounding.round_coe, Rounding.nearest_of_isPoint _ (isPoint_of_value? h)] at hround
  exact Rounding.abs_lt_limit hround

theorem value?_add_self {r : ℝ} (h : RoundedQuantity.value? x = some (r : EReal)) :
    RoundedQuantity.value? (x + x) = some (Rounding.round (format α) (2 * r : ℝ)) := by
  rw [value?_add_of_isFinite h h, ← EReal.coe_add, ← two_mul]
  rfl

section

variable {r s t : ℝ} (hr : RoundedQuantity.value? x = some (r : EReal))
  (hs : RoundedQuantity.value? y = some (s : EReal))
  (ht : RoundedQuantity.value? z = some (t : EReal))

include hr hs ht

/-- A finite number that is not below a difference is not below the point nearest to it. -/
theorem nearest_sub_le (h : x - y ≤ z) : Rounding.nearest (format α) (r - s) ≤ t := by
  rw [← Rounding.fit_le_coe_iff (abs_lt_limit ht)]
  exact (le_iff_of_value (value?_sub_of_isFinite hr hs) ht).1 h

theorem le_nearest_add (h : z ≤ x + y) : t ≤ Rounding.nearest (format α) (r + s) := by
  rw [← Rounding.coe_le_fit_iff (abs_lt_limit ht)]
  exact (le_iff_of_value ht (value?_add_of_isFinite hr hs)).1 h

end

/-- What is left after a subtraction is less by twice what was subtracted at most. -/
theorem sub_le_add_self (hx : isFinite x = true) (hy : isFinite y = true)
    (hz : isFinite z = true) (hy0 : 0 ≤ y) (h : x - y ≤ z) : x - z ≤ y + y := by
  obtain ⟨r, hr⟩ := isFinite_iff.1 hx
  obtain ⟨s, hs⟩ := isFinite_iff.1 hy
  obtain ⟨t, ht⟩ := isFinite_iff.1 hz
  have hs0 : 0 ≤ s := EReal.coe_nonneg.1 ((le_iff_of_value value?_zero hs).1 hy0)
  have hnearest := nearest_sub_le hr hs ht h
  have hmoved := Rounding.abs_nearest_add_sub_le (isPoint_of_value? hr) (-s)
  rw [abs_neg, abs_of_nonneg hs0, ← sub_eq_add_neg] at hmoved
  have hreal : r - t ≤ 2 * s := by linarith [(abs_le.1 hmoved).1]
  rw [le_iff_of_value (value?_sub_of_isFinite hr ht) (value?_add_self hs), ← EReal.coe_sub]
  exact round_mono (EReal.coe_le_coe_iff.2 hreal)

/-- What is there after an addition is more by twice what was added at most. -/
theorem sub_le_add_self_of_le_add (hx : isFinite x = true) (hy : isFinite y = true)
    (hz : isFinite z = true) (hy0 : 0 ≤ y) (h : z ≤ x + y) : z - x ≤ y + y := by
  obtain ⟨r, hr⟩ := isFinite_iff.1 hx
  obtain ⟨s, hs⟩ := isFinite_iff.1 hy
  obtain ⟨t, ht⟩ := isFinite_iff.1 hz
  have hs0 : 0 ≤ s := EReal.coe_nonneg.1 ((le_iff_of_value value?_zero hs).1 hy0)
  have hnearest := le_nearest_add hr hs ht h
  have hmoved := Rounding.abs_nearest_add_sub_le (isPoint_of_value? hr) s
  rw [abs_of_nonneg hs0] at hmoved
  have hreal : t - r ≤ 2 * s := by linarith [(abs_le.1 hmoved).2]
  rw [le_iff_of_value (value?_sub_of_isFinite ht hr) (value?_add_self hs), ← EReal.coe_sub]
  exact round_mono (EReal.coe_le_coe_iff.2 hreal)

/-- If at least half of a number is subtracted, it is less by at most that. -/
theorem sub_le_of_le_add_self (hx : isFinite x = true) (hy : isFinite y = true)
    (hz : isFinite z = true) (hyx : y ≤ x) (hxy : x ≤ y + y) (h : x - y ≤ z) : x - z ≤ y := by
  obtain ⟨r, hr⟩ := isFinite_iff.1 hx
  obtain ⟨s, hs⟩ := isFinite_iff.1 hy
  obtain ⟨t, ht⟩ := isFinite_iff.1 hz
  have hpoint := isPoint_of_value? hs
  have hsr : s ≤ r := EReal.coe_le_coe_iff.1 ((le_iff_of_value hs hr).1 hyx)
  have hrs : r ≤ 2 * s := by
    have hdouble := le_nearest_add hs hs hr hxy
    rwa [← two_mul, Rounding.nearest_of_isPoint _ hpoint.two_mul] at hdouble
  -- the difference is a point, so nothing is rounded
  have hexact := nearest_sub_le hr hs ht h
  rw [Rounding.nearest_of_isPoint _ ((isPoint_of_value? hr).sub hpoint hsr hrs)] at hexact
  rw [le_iff_of_value (value?_sub_of_isFinite hr ht) hs, ← EReal.coe_sub]
  exact round_le hs (EReal.coe_le_coe_iff.2 (by linarith))

end PackedQuantity

end LocalGrid
