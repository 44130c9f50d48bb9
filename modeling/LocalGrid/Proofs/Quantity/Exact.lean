import LocalGrid.Proofs.Quantity.Readings

/-!
# Exact arithmetic

In the rational reading the order operations are the usual maximum and minimum.
-/

namespace LocalGrid.Quantity

theorem larger_eq_max (x y : ℚ) : larger x y = max x y := by
  have hy : y ≤ y := le_rfl
  unfold larger
  split_ifs with h
  · exact (max_eq_left h.le).symm
  · exact (max_eq_right (not_lt.1 h)).symm

theorem smaller_eq_min (x y : ℚ) : smaller x y = min x y := by
  have hy : y ≤ y := le_rfl
  unfold smaller
  split_ifs with h
  · exact (min_eq_left h.le).symm
  · exact (min_eq_right (not_lt.1 h)).symm

theorem positivePart_eq_max (x : ℚ) : positivePart x = max x 0 := larger_eq_max x 0

end LocalGrid.Quantity
