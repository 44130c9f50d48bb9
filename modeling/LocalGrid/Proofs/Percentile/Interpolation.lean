import LocalGrid.Proofs.Binary.Conversion
import LocalGrid.Proofs.Percentile
import LocalGrid.Proofs.Quantity.Distance

/-!
# Interpolation between two values

An interpolation is rounded three times in double precision, and its result once more to single
precision. The rounded difference of the two values may exceed the exact one, but a share below one
of it does not, so the interpolation stays between the values. Every step is monotone in the share.
-/

open Float.Model (Format)

namespace LocalGrid

/-! ## Rounded steps -/

namespace Rounding

variable {S : Format} {r s t t' : ℝ}

/-- The number that is a share of the way from one number to another, every step rounded. -/
noncomputable def blend (S : Format) (r s t : ℝ) : ℝ :=
  nearest S (r + nearest S (t * nearest S (s - r)))

theorem le_blend (hr : IsPoint S r) (hrs : r ≤ s) (ht : 0 ≤ t) : r ≤ blend S r s t := by
  have hdiff := nearest_nonneg S (sub_nonneg.2 hrs)
  have hpart := nearest_nonneg S (mul_nonneg ht hdiff)
  calc r = nearest S r := (nearest_of_isPoint S hr).symm
    _ ≤ blend S r s t := nearest_mono S (le_add_of_nonneg_right hpart)

theorem blend_le (hr : IsPoint S r) (hs : IsPoint S s) (hrs : r ≤ s) (ht : IsPoint S t)
    (ht1 : t < 1) : blend S r s t ≤ s := by
  have hpart := nearest_mul_nearest_sub_le (ht.le_of_lt_one ht1) hs hr hrs
  calc blend S r s t ≤ nearest S s := nearest_mono S (by linarith)
    _ = s := nearest_of_isPoint S hs

theorem blend_mono (hrs : r ≤ s) (h : t ≤ t') : blend S r s t ≤ blend S r s t' := by
  have hdiff := nearest_nonneg S (sub_nonneg.2 hrs)
  exact nearest_mono S
    (add_le_add_right (nearest_mono S (mul_le_mul_of_nonneg_right h hdiff)) r)

end Rounding

/-! ## Double precision -/

open Quantity RoundedQuantity

variable {low high : Float32} {share share' : Float} {r s t : ℝ}

theorem abs_le_of_single (h : value? low = some (r : EReal)) : |r| ≤ 2 ^ 128 :=
  (PackedQuantity.abs_lt_limit h).le

/-- No step of an interpolation overflows. -/
theorem value?_interpolate (hr : value? low = some (r : EReal))
    (hs : value? high = some (s : EReal)) (hshare : value? share = some (t : EReal))
    (ht0 : 0 ≤ t) (ht1 : t ≤ 1) :
    value? (interpolate low high share) =
      some (round Float32 (Rounding.blend .binary64 r s t : ℝ)) := by
  have hwr : value? (Widening.widen low : Float) = some (r : EReal) := Binary.value?_widen hr
  have hws : value? (Widening.widen high : Float) = some (s : EReal) := Binary.value?_widen hs
  have hpoint : Rounding.IsPoint .binary64 (2 ^ 129) :=
    ⟨1, 129, by decide, by decide, by norm_num⟩
  have hrange : |s - r| ≤ 2 ^ 129 := by
    have hsum := add_le_add (abs_le_of_single hs) (abs_le_of_single hr)
    have htwice : (2 : ℝ) ^ 128 + 2 ^ 128 = 2 ^ 129 := by norm_num
    exact (abs_sub s r).trans (htwice ▸ hsum)
  have hdiff := Rounding.abs_nearest_le hpoint hrange
  have hproduct : |t * Rounding.nearest .binary64 (s - r)| ≤ 2 ^ 129 := by
    rw [abs_mul, abs_of_nonneg ht0]
    exact (mul_le_of_le_one_left (abs_nonneg _) ht1).trans hdiff
  have hpart := Rounding.abs_nearest_le hpoint hproduct
  have hsum : |r + Rounding.nearest .binary64 (t * Rounding.nearest .binary64 (s - r))| ≤
      2 ^ 130 := by
    have hadd := add_le_add (abs_le_of_single hr) hpart
    have hbound : (2 : ℝ) ^ 128 + 2 ^ 129 ≤ 2 ^ 130 := by norm_num
    exact (abs_add_le _ _).trans (hadd.trans hbound)
  have hwide : (2 : ℝ) ^ 129 ≤ 2 ^ 130 := by norm_num
  have hvalue : value? ((Widening.widen low : Float) +
      (Widening.widen high - Widening.widen low) * share) =
        some ((Rounding.blend .binary64 r s t : ℝ) : EReal) := by
    have hdifference := value?_sub_of_isFinite hws hwr
    rw [← EReal.coe_sub, round_of_abs_le (hrange.trans hwide)] at hdifference
    have hscaled := value?_mul_of_isFinite hdifference hshare
    rw [← EReal.coe_mul, mul_comm, round_of_abs_le (hproduct.trans hwide)] at hscaled
    have htotal := value?_add_of_isFinite hwr hscaled
    rwa [← EReal.coe_add, round_of_abs_le hsum] at htotal
  exact Binary.value?_narrow hvalue

/-- A share below one leads to a value between the two. -/
theorem interpolate_between (hlow : isFinite low = true) (hhigh : isFinite high = true)
    (hle : low ≤ high) (hshare : value? share = some (t : EReal)) (ht0 : 0 ≤ t) (ht1 : t < 1) :
    low ≤ interpolate low high share ∧ interpolate low high share ≤ high := by
  obtain ⟨r, hr⟩ := isFinite_iff.1 hlow
  obtain ⟨s, hs⟩ := isFinite_iff.1 hhigh
  have hrs : r ≤ s := EReal.coe_le_coe_iff.1 ((le_iff_of_value hr hs).1 hle)
  have hpr := PackedQuantity.isPoint_of_value? (α := Float) (Binary.value?_widen hr)
  have hps := PackedQuantity.isPoint_of_value? (α := Float) (Binary.value?_widen hs)
  have hpt := PackedQuantity.isPoint_of_value? hshare
  have hvalue := value?_interpolate hr hs hshare ht0 ht1.le
  rw [le_iff_of_value hr hvalue, le_iff_of_value hvalue hs]
  exact ⟨le_round hr (EReal.coe_le_coe_iff.2 (Rounding.le_blend hpr hrs ht0)),
    round_le hs (EReal.coe_le_coe_iff.2 (Rounding.blend_le hpr hps hrs hpt ht1))⟩

theorem interpolate_mono {t' : ℝ} (hlow : isFinite low = true) (hhigh : isFinite high = true)
    (hle : low ≤ high) (hshare : value? share = some (t : EReal))
    (hshare' : value? share' = some (t' : EReal)) (ht0 : 0 ≤ t) (h : t ≤ t') (ht1 : t' ≤ 1) :
    interpolate low high share ≤ interpolate low high share' := by
  obtain ⟨r, hr⟩ := isFinite_iff.1 hlow
  obtain ⟨s, hs⟩ := isFinite_iff.1 hhigh
  have hrs : r ≤ s := EReal.coe_le_coe_iff.1 ((le_iff_of_value hr hs).1 hle)
  rw [le_iff_of_value (value?_interpolate hr hs hshare ht0 (h.trans ht1))
    (value?_interpolate hr hs hshare' (ht0.trans h) ht1)]
  exact round_mono (EReal.coe_le_coe_iff.2 (Rounding.blend_mono hrs h))

end LocalGrid
