import LocalGrid.Proofs.Quantity.Monotone

/-!
# The same number

Zero has two signs, and no comparison tells them apart. Two values are the same number if neither
is above the other. What an operation makes of the same numbers is the same number again, because
the operation is monotone or because its result has the value that the exact one is rounded to.
-/

namespace LocalGrid

namespace Quantity

variable {α : Type} [Quantity α] {x y z : α}

/-- Two numbers that no comparison tells apart. -/
def SameNumber (x y : α) : Prop := x ≤ y ∧ y ≤ x

theorem SameNumber.symm (h : SameNumber x y) : SameNumber y x := ⟨h.2, h.1⟩

theorem IsNumber.same (h : IsNumber x) : SameNumber x x := ⟨h, h⟩

end Quantity

open Quantity

namespace RoundedQuantity

variable {α : Type} [Quantity α] [RoundedQuantity α] {x y z : α}

theorem sameNumber_iff : SameNumber x y ↔ ∃ r, value? x = some r ∧ value? y = some r := by
  constructor
  · rintro ⟨hxy, hyx⟩
    obtain ⟨r, s, hr, hs, hrs⟩ := le_iff.1 hxy
    have hsr := (le_iff_of_value hs hr).1 hyx
    exact ⟨r, hr, by rw [hs, le_antisymm hsr hrs]⟩
  · rintro ⟨r, hx, hy⟩
    exact ⟨(le_iff_of_value hx hy).2 le_rfl, (le_iff_of_value hy hx).2 le_rfl⟩

theorem same_of_value {r : EReal} (hx : value? x = some r) (hy : value? y = some r) :
    SameNumber x y :=
  sameNumber_iff.2 ⟨r, hx, hy⟩

theorem same_trans (h : SameNumber x y) (h' : SameNumber y z) : SameNumber x z :=
  ⟨le_trans h.1 h'.1, le_trans h'.2 h.2⟩

theorem same_neg (h : SameNumber x y) : SameNumber (-x) (-y) :=
  ⟨neg_le_neg h.2, neg_le_neg h.1⟩

theorem same_positivePart (h : SameNumber x y) :
    SameNumber (positivePart x) (positivePart y) :=
  ⟨positivePart_mono h.1, positivePart_mono h.2⟩

theorem same_sub {x' y' : α} (hx : isFinite x = true) (hx' : isFinite x' = true)
    (h : SameNumber x x') (hy : SameNumber y y') : SameNumber (x - y) (x' - y') :=
  ⟨sub_mono hx hx' h.1 hy.2, sub_mono hx' hx h.2 hy.1⟩

/-- A zero of either sign that is subtracted leaves the number. -/
theorem same_sub_zero (hx : isFinite x = true) (hy : SameNumber 0 y) : SameNumber (x - y) x := by
  obtain ⟨r, hr⟩ := isFinite_iff.1 hx
  obtain ⟨s, hzero, hs⟩ := sameNumber_iff.1 hy
  obtain rfl := Option.some.inj (value?_zero.symm.trans hzero)
  refine same_of_value ?_ hr
  rw [value?_sub_of_isFinite hr hs, sub_zero, round_value hr]

theorem same_positivePart_self (h : 0 ≤ x) : SameNumber (positivePart x) x := by
  obtain ⟨r, hr⟩ := isNumber_iff.1 (isNumber_right h)
  exact same_of_value ((value?_positivePart h).trans hr) hr

theorem same_neg_zero : SameNumber (0 : α) (-0) := by
  refine same_of_value value?_zero ?_
  rw [value?_neg, value?_zero, Option.map_some, neg_zero]

/-- The two numbers may be divided by the same finite number. -/
theorem same_div (hx : isFinite x = true) (hz : isFinite z = true) (hz0 : 0 < z)
    (h : SameNumber x y) : SameNumber (x / z) (y / z) := by
  obtain ⟨r, hr⟩ := isFinite_iff.1 hx
  obtain ⟨s, hs⟩ := isFinite_iff.1 hz
  obtain ⟨r', hr', hy⟩ := sameNumber_iff.1 h
  obtain rfl : (r : EReal) = r' := Option.some.inj (hr.symm.trans hr')
  have hs0 : 0 < s := EReal.coe_pos.1 ((lt_iff_of_value value?_zero hs).1 hz0)
  exact same_of_value (value?_div hr hs hs0.ne') (value?_div hy hs hs0.ne')

theorem same_smaller (h : SameNumber x y) (hz : IsNumber z) :
    SameNumber (smaller x z) (smaller y z) :=
  ⟨smaller_mono h.1 hz, smaller_mono h.2 hz⟩

end RoundedQuantity

end LocalGrid
