import LocalGrid.Proofs.Quantity.Rounded

/-!
# Monotone arithmetic

A rounding that is monotone keeps the order of exact results, so the operations of rounded
arithmetic are as monotone as the exact ones, as long as no infinity meets another one. Positive
parts, clamps and the smaller of two numbers are monotone on all numbers.
-/

namespace LocalGrid

open Quantity

namespace RoundedQuantity

variable {α : Type} [Quantity α] [RoundedQuantity α] {x y x' y' : α}

/-! ## Sums, differences and products -/

theorem add_mono (hx : isFinite x = true) (hx' : isFinite x' = true) (h : x ≤ x') (hy : y ≤ y') :
    x + y ≤ x' + y' := by
  obtain ⟨r, hr⟩ := isFinite_iff.1 hx
  obtain ⟨r', hr'⟩ := isFinite_iff.1 hx'
  obtain ⟨s, s', hs, hs', hss'⟩ := le_iff.1 hy
  rw [le_iff_of_value (value?_add_of_isFinite hr hs) (value?_add_of_isFinite hr' hs')]
  exact round_mono (add_le_add ((le_iff_of_value hr hr').1 h) hss')

/-- A difference grows with what is subtracted from, and falls with what is subtracted. -/
theorem sub_mono (hx : isFinite x = true) (hx' : isFinite x' = true) (h : x ≤ x') (hy : y' ≤ y) :
    x - y ≤ x' - y' := by
  obtain ⟨r, hr⟩ := isFinite_iff.1 hx
  obtain ⟨r', hr'⟩ := isFinite_iff.1 hx'
  obtain ⟨s', s, hs', hs, hss'⟩ := le_iff.1 hy
  rw [le_iff_of_value (value?_sub_of_isFinite hr hs) (value?_sub_of_isFinite hr' hs')]
  exact round_mono (EReal.sub_le_sub ((le_iff_of_value hr hr').1 h) hss')

theorem mul_mono (hx' : isFinite x' = true) (hy' : isFinite y' = true) (hx0 : 0 ≤ x) (hy0 : 0 ≤ y)
    (h : x ≤ x') (hy : y ≤ y') : x * y ≤ x' * y' := by
  obtain ⟨r, hr⟩ := isFinite_iff.1 (isFinite_of_le_of_le isFinite_zero hx' hx0 h)
  obtain ⟨s, hs⟩ := isFinite_iff.1 (isFinite_of_le_of_le isFinite_zero hy' hy0 hy)
  obtain ⟨r', hr'⟩ := isFinite_iff.1 hx'
  obtain ⟨s', hs'⟩ := isFinite_iff.1 hy'
  have hs0 : 0 ≤ s := EReal.coe_nonneg.1 ((le_iff_of_value value?_zero hs).1 hy0)
  have hrr' : r ≤ r' := EReal.coe_le_coe_iff.1 ((le_iff_of_value hr hr').1 h)
  have hss' : s ≤ s' := EReal.coe_le_coe_iff.1 ((le_iff_of_value hs hs').1 hy)
  have hr0 : 0 ≤ r := EReal.coe_nonneg.1 ((le_iff_of_value value?_zero hr).1 hx0)
  rw [le_iff_of_value (value?_mul_of_isFinite hr hs) (value?_mul_of_isFinite hr' hs')]
  apply round_mono
  rw [← EReal.coe_mul, ← EReal.coe_mul, EReal.coe_le_coe_iff]
  exact mul_le_mul hrr' hss' hs0 (hr0.trans hrr')

/-- A positive factor that is finite keeps the order of all numbers. -/
theorem mul_mono_left (hy : isFinite y = true) (hy0 : 0 < y) (h : x ≤ x') : x * y ≤ x' * y := by
  obtain ⟨r, r', hr, hr', hrr'⟩ := le_iff.1 h
  obtain ⟨s, hs⟩ := isFinite_iff.1 hy
  have hs0 : (0 : EReal) < s := (lt_iff_of_value value?_zero hs).1 hy0
  have hprod : ∀ {z : α} {t : EReal}, value? z = some t → value? (z * y) = some (round α (t * s)) :=
    fun hz => value?_mul hz hs (fun _ => ⟨EReal.coe_ne_top s, EReal.coe_ne_bot s⟩)
      (fun hzero => absurd hzero hs0.ne')
  rw [le_iff_of_value (hprod hr) (hprod hr')]
  exact round_mono (mul_le_mul_of_nonneg_right hrr' hs0.le)

/-! ## Positive parts and clamps -/

theorem le_positivePart (hx : IsNumber x) : x ≤ positivePart x := by
  by_cases h : 0 < x
  · rw [positivePart_of_pos h]
    exact hx
  · rw [positivePart_of_not_pos h]
    exact (not_lt_iff isNumber_zero hx).1 h

theorem positivePart_mono (h : x ≤ y) : positivePart x ≤ positivePart y := by
  by_cases hx : 0 < x
  · rw [positivePart_of_pos hx]
    exact le_trans h (le_positivePart (isNumber_right h))
  · rw [positivePart_of_not_pos hx]
    exact positivePart_nonneg y

/-- Clamping is monotone in the number and in both ends of the interval. -/
theorem clamp?_mono_bounds {lo hi lo' hi' : α} (hx : clamp? x lo hi = some x')
    (hy : clamp? y lo' hi' = some y') (h : x ≤ y) (hlo : lo ≤ lo') (hhi : hi ≤ hi') : x' ≤ y' := by
  have hle := le_of_clamp?_eq_some hx
  obtain ⟨z, hz, -, hzhi, -⟩ := clamp?_spec hle (isNumber_left h)
  obtain rfl : z = x' := Option.some.inj (hz.symm.trans hx)
  by_cases hbelow : x < lo
  · -- what is below the interval is moved to its least value
    obtain ⟨u, hu, hlo', -⟩ := clamp?_spec (le_of_clamp?_eq_some hy) (isNumber_right h)
    obtain rfl : u = y' := Option.some.inj (hu.symm.trans hy)
    rw [clamp?_of_le hle, if_pos hbelow, Option.some.injEq] at hx
    rw [← hx]
    exact le_trans hlo hlo'
  · refine le_of_clamp? hy (le_trans ?_ h) (le_trans hzhi hhi)
    rw [clamp?_of_le hle, if_neg hbelow, Option.some.injEq] at hx
    rw [← hx]
    split_ifs with habove
    · exact le_of_lt habove
    · exact isNumber_left h

theorem clamp?_mono {lo hi : α} (hx : clamp? x lo hi = some x') (hy : clamp? y lo hi = some y')
    (h : x ≤ y) : x' ≤ y' := by
  have hle := le_of_clamp?_eq_some hx
  exact clamp?_mono_bounds hx hy h (isNumber_left hle) (isNumber_right hle)

/-! ## The smaller of two numbers -/

theorem le_smaller {z : α} (hx : z ≤ x) (hy : z ≤ y) : z ≤ smaller x y := by
  rcases smaller_spec (isNumber_right hx) (isNumber_right hy) with ⟨h, -⟩ | ⟨h, -⟩ <;> rw [h]
  · exact hx
  · exact hy

theorem smaller_mono {z : α} (h : x ≤ y) (hz : IsNumber z) : smaller x z ≤ smaller y z :=
  le_smaller (le_trans (smaller_le_left (isNumber_left h) hz) h)
    (smaller_le_right (isNumber_left h) hz)

end RoundedQuantity

end LocalGrid
