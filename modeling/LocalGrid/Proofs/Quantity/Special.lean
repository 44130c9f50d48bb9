import LocalGrid.Proofs.Quantity.Packed

/-!
# Zeros and infinities

What an operation does with a zero, an infinity or a `NaN` does not follow from a rounding. A finite
sum or product has finite parts, whatever their signs; zero stays the positive zero when a zero is
added to it, when it is divided, or when a magnitude is multiplied by it; and a finite number
divided by infinity is zero.
-/

open Float.Model (Format UnpackedFloat)
open Float.Model.UnpackedFloat

namespace LocalGrid

namespace Rounding

variable (S : Format) {a b : UnpackedFloat}

theorem isFinite_of_isFinite_pack (h : (unpack S (pack S a)).isFinite = true) :
    a.isFinite = true := by
  cases a with
  | notANumber =>
      rw [show unpack S (pack S .notANumber) = .notANumber from unpack_packedNaN] at h
      exact h
  | infinity s =>
      rw [show unpack S (pack S (.infinity s)) = .infinity s from unpack_packedInfinity S s] at h
      exact h
  | zero s => rfl
  | finite s m e hm => rfl

theorem isFinite_of_isFinite_add (h : (add S a b).isFinite = true) :
    a.isFinite = true ∧ b.isFinite = true := by
  cases a with
  | notANumber => exact absurd h Bool.false_ne_true
  | infinity s =>
      cases b with
      | infinity t => cases s <;> cases t <;> exact absurd h Bool.false_ne_true
      | _ => exact absurd h Bool.false_ne_true
  | _ => cases b <;> first | exact ⟨rfl, rfl⟩ | exact absurd h Bool.false_ne_true

theorem isFinite_of_isFinite_mul (h : (mul S a b).isFinite = true) :
    a.isFinite = true ∧ b.isFinite = true := by
  cases a <;> cases b <;> first | exact ⟨rfl, rfl⟩ | exact absurd h Bool.false_ne_true

end Rounding

open Quantity

namespace PackedQuantity

variable {α : Type} [Quantity α] [PackedQuantity α] {x y : α}

theorem isFinite_of_isFinite_add (h : isFinite (x + y) = true) :
    isFinite x = true ∧ isFinite y = true := by
  rw [isFinite_eq, add_eq, unpacked_packed] at h
  rw [isFinite_eq, isFinite_eq]
  exact Rounding.isFinite_of_isFinite_add _ (Rounding.isFinite_of_isFinite_pack _ h)

theorem isFinite_of_isFinite_mul (h : isFinite (x * y) = true) :
    isFinite x = true ∧ isFinite y = true := by
  rw [isFinite_eq, mul_eq, unpacked_packed] at h
  rw [isFinite_eq, isFinite_eq]
  exact Rounding.isFinite_of_isFinite_mul _ (Rounding.isFinite_of_isFinite_pack _ h)

theorem unpacked_eq_zero (h : value? x = some 0) : ∃ s, unpacked x = .zero s := by
  obtain ⟨hn, hvalue⟩ := value?_eq_some_iff.1 h
  cases hx : unpacked x with
  | notANumber => exact absurd hx hn
  | infinity s => cases s <;> simp [hx, Rounding.value] at hvalue
  | zero s => exact ⟨s, rfl⟩
  | finite s m e hm =>
      have hpos := Rounding.magnitude_pos (e := e) hm
      rw [hx, Rounding.value, EReal.coe_eq_zero] at hvalue
      cases s
      · exact absurd (neg_eq_zero.1 hvalue) hpos.ne'
      · exact absurd hvalue hpos.ne'

/-- A zero of either sign that is added to the positive zero leaves it as it is. -/
theorem zero_add_of_value? (h : value? y = some 0) : 0 + y = 0 := by
  obtain ⟨s, hy⟩ := unpacked_eq_zero h
  rw [add_eq, zero_eq, unpacked_zero, hy]
  cases s <;> rfl

/-- Divided by a positive number, finite or not, zero is the positive zero. -/
theorem zero_div_of_pos (h : 0 < y) : 0 / y = 0 := by
  obtain ⟨r, s, hr, hs, hlt⟩ := lt_iff.1 h
  obtain rfl := Option.some.inj (value?_zero.symm.trans hr)
  obtain ⟨hn, rfl⟩ := value?_eq_some_iff.1 hs
  rw [div_eq, zero_eq, unpacked_zero]
  congr 1
  cases hy : unpacked y with
  | notANumber => exact absurd hy hn
  | infinity t =>
      cases t
      · rw [hy] at hlt
        exact absurd hlt not_lt_bot
      · rfl
  | zero t =>
      rw [hy] at hlt
      exact absurd hlt (lt_irrefl _)
  | finite t m e hm =>
      have hpos := Rounding.magnitude_pos (e := e) hm
      cases t
      · rw [hy, Rounding.value] at hlt
        exact absurd (EReal.coe_pos.1 hlt) (by simpa [Rounding.signed] using hpos.le)
      · rfl

/-- The positive zero times a finite magnitude is the positive zero. -/
theorem zero_mul_abs (h : isFinite x = true) : 0 * Quantity.abs x = 0 := by
  rw [isFinite_eq] at h
  rw [mul_eq, unpacked_abs, zero_eq, unpacked_zero]
  cases hx : unpacked x with
  | notANumber =>
      rw [hx] at h
      exact absurd h Bool.false_ne_true
  | infinity s =>
      rw [hx] at h
      exact absurd h Bool.false_ne_true
  | zero s => rfl
  | finite s m e hm => rfl

/-- The positive part of a number that is not negative is the number, bit by bit, unless it is the
negative zero. -/
theorem positivePart_eq_or (h : 0 ≤ x) : positivePart x = x ∨ x = -0 ∧ positivePart x = 0 := by
  by_cases hpos : 0 < x
  · exact Or.inl (positivePart_of_pos hpos)
  · obtain ⟨r, s, hr, hs, hrs⟩ := le_iff.1 h
    obtain rfl := Option.some.inj (value?_zero.symm.trans hr)
    have hle : s ≤ 0 := not_lt.1 fun hlt => hpos (lt_iff.2 ⟨0, s, value?_zero, hs, hlt⟩)
    obtain rfl := le_antisymm hle hrs
    obtain ⟨sign, hsign⟩ := unpacked_eq_zero hs
    rw [RoundedQuantity.positivePart_of_not_pos hpos, ← packed_unpacked x, hsign]
    cases sign with
    | positive => exact Or.inl zero_eq
    | negative =>
        refine Or.inr ⟨?_, rfl⟩
        rw [neg_eq, zero_eq, unpacked_zero]
        rfl

theorem value?_div_of_infinite (hx : isFinite x = true) (hy : value? y = some ⊤) :
    value? (x / y) = some 0 := by
  rw [isFinite_eq] at hx
  rw [div_eq, unpacked_eq_infinity hy]
  cases ha : unpacked x with
  | notANumber => simp [ha, UnpackedFloat.isFinite] at hx
  | infinity s => simp [ha, UnpackedFloat.isFinite] at hx
  | zero s => exact value?_packed_zero _
  | finite s m e hm => exact value?_packed_zero _

end PackedQuantity

end LocalGrid
