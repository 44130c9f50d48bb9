import LocalGrid.Proofs.Rounding.Mantissa

/-!
# Whole parts

A value is converted to a word by dropping what is behind the binary point and stopping at the
greatest word.
-/

open Float.Model.UnpackedFloat
open Float.Model (UnpackedFloat)

namespace LocalGrid.Rounding

theorem roundToInt_eq (s : Sign) (m : ℕ) (e : ℤ) :
    roundToInt s m e = s.apply ⌊(m : ℝ) * 2 ^ e⌋ := by
  obtain ⟨n, hn, hval⟩ := decreaseExponent_eq m e 0
  have hexact : Covers (.ofMantissaAndAccuracy n .exact) ((m : ℝ) * 2 ^ e / 2 ^ min e 0) := by
    rw [← hval, mul_div_cancel_right₀ _ (by positivity)]
    exact covers_exact n
  have hfloor := (shiftToExponent_of_ge (min_le_right e 0) hexact).1.floor_eq
  rw [zpow_zero, div_one] at hfloor
  rw [roundToInt, hn, hfloor]

theorem toNat_ofNatClamp (n : ℕ) : (UInt64.ofNatClamp n).toNat = min n (2 ^ 64 - 1) := by
  unfold UInt64.ofNatClamp
  split_ifs with h
  · rw [UInt64.toNat_ofNatLT]
    have : n < 2 ^ 64 := h
    omega
  · have : 2 ^ 64 ≤ n := not_lt.1 h
    rw [UInt64.toNat_ofNatLT]
    simp only [UInt64.size]
    omega

/-- The word of a real number is its whole part, zero below zero, and at most the greatest word. -/
theorem toNat_toUInt64 {u : UnpackedFloat} {x : ℝ} (h : value u = x) :
    (toUInt64 u).toNat = min ⌊x⌋₊ (2 ^ 64 - 1) := by
  rw [toUInt64, toNat_ofNatClamp]
  congr 1
  cases u with
  | notANumber =>
      have hx : 0 = x := EReal.coe_injective h
      simp [toInt, ← hx]
  | infinity s => cases s <;> simp [value] at h
  | zero s =>
      have hx : 0 = x := EReal.coe_injective h
      simp [toInt, ← hx]
  | finite s m e hm =>
      have hx : signed s (m * 2 ^ e) = x := EReal.coe_injective h
      have hpos : (0 : ℝ) < m * 2 ^ e := magnitude_pos hm
      have hfloor : 0 ≤ ⌊(m : ℝ) * 2 ^ e⌋ := Int.floor_nonneg.2 hpos.le
      rw [toInt, roundToInt_eq, ← hx]
      cases s with
      | positive => exact Int.floor_toNat _
      | negative =>
          rw [signed, Nat.floor_of_nonpos (neg_nonpos.2 hpos.le)]
          exact Int.toNat_of_nonpos (neg_nonpos.2 hfloor)

end LocalGrid.Rounding
