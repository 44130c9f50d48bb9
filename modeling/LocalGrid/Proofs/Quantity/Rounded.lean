import LocalGrid.Quantity
import Mathlib.Data.EReal.Inv
import Mathlib.Tactic.Linarith

/-!
# Quantities with one rounding

The readings of `Quantity` share one description: a number stands for an extended real, and an
operation is the exact one followed by a rounding that is monotone, odd, and keeps what is already
rounded. `RoundedQuantity` is this description. It says nothing of how coarse the rounding is, so a
law derived from it holds in single precision and in exact arithmetic alike.
-/

namespace LocalGrid

namespace Quantity

variable {α : Type} [Quantity α] {x : α}

/-- A value that is comparable with itself. -/
def IsNumber (x : α) : Prop := x ≤ x

theorem isNaN_eq_false (h : IsNumber x) : isNaN x = false := by
  have hle : x ≤ x := h
  simp [isNaN, hle]

theorem positivePart_of_pos (h : 0 < x) : positivePart x = x := if_pos h

theorem le_of_clamp?_eq_some {lo hi y : α} (h : clamp? x lo hi = some y) : lo ≤ hi := by
  by_contra hnot
  simp [clamp?, hnot] at h

theorem isShare_iff : isShare x = true ↔ 0 ≤ x ∧ x ≤ 1 := by
  simp [isShare]

theorem smaller_of_lt {y : α} (h : x < y) : smaller x y = x := if_pos h

theorem smaller_nonneg {y : α} (hx : 0 ≤ x) (hy : 0 ≤ y) : 0 ≤ smaller x y := by
  unfold smaller
  split_ifs <;> assumption

end Quantity

open Quantity

/-- Quantities whose numbers stand for extended reals, and whose operations are rounded once. -/
class RoundedQuantity (α : Type) [Quantity α] where
  /-- What a number stands for; a `NaN` stands for nothing. -/
  value? : α → Option EReal
  round : EReal → EReal
  round_mono : Monotone round
  round_neg : ∀ r, round (-r) = -round r
  round_value : ∀ {x r}, value? x = some r → round r = r
  /-- Different numbers have a difference that is not rounded to zero. -/
  round_sub_pos : ∀ {x y r s}, value? x = some r → value? y = some s → s < r → 0 < round (r - s)
  le_iff : ∀ {x y : α}, x ≤ y ↔ ∃ r s, value? x = some r ∧ value? y = some s ∧ r ≤ s
  lt_iff : ∀ {x y : α}, x < y ↔ ∃ r s, value? x = some r ∧ value? y = some s ∧ r < s
  isFinite_iff : ∀ {x}, isFinite x = true ↔ ∃ r : ℝ, value? x = some (r : EReal)
  value?_zero : value? 0 = some 0
  value?_one : value? 1 = some 1
  value?_natCast : ∀ n : ℕ, value? (n : α) = some (round (n : ℝ))
  value?_neg : ∀ x, value? (-x) = (value? x).map fun r => -r
  value?_abs : ∀ x, value? (abs x) = (value? x).map fun r => max r (-r)
  value?_add : ∀ {x y r s}, value? x = some r → value? y = some s → (r = ⊤ → s ≠ ⊥) →
    (r = ⊥ → s ≠ ⊤) → value? (x + y) = some (round (r + s))
  value?_sub : ∀ {x y r s}, value? x = some r → value? y = some s → (r = ⊤ → s ≠ ⊤) →
    (r = ⊥ → s ≠ ⊥) → value? (x - y) = some (round (r - s))
  value?_mul : ∀ {x y r s}, value? x = some r → value? y = some s → (r = 0 → s ≠ ⊤ ∧ s ≠ ⊥) →
    (s = 0 → r ≠ ⊤ ∧ r ≠ ⊥) → value? (x * y) = some (round (r * s))
  value?_div : ∀ {x y} {r s : ℝ}, value? x = some (r : EReal) → value? y = some (s : EReal) →
    s ≠ 0 → value? (x / y) = some (round (r / s : ℝ))
  neg_neg : ∀ x : α, - -x = x
  sub_self : ∀ {x : α}, isFinite x = true → x - x = 0

namespace RoundedQuantity

variable {α : Type} [Quantity α] [RoundedQuantity α] {x y z : α}

/-! ## Order -/

theorem isNumber_iff : IsNumber x ↔ ∃ r, value? x = some r := by
  rw [IsNumber, le_iff]
  constructor
  · rintro ⟨r, -, h, -, -⟩
    exact ⟨r, h⟩
  · rintro ⟨r, h⟩
    exact ⟨r, r, h, h, le_rfl⟩

theorem le_trans (hxy : x ≤ y) (hyz : y ≤ z) : x ≤ z := by
  obtain ⟨r, s, hr, hs, hrs⟩ := le_iff.1 hxy
  obtain ⟨s', t, hs', ht, hst⟩ := le_iff.1 hyz
  obtain rfl : s = s' := Option.some.inj (hs.symm.trans hs')
  exact le_iff.2 ⟨r, t, hr, ht, hrs.trans hst⟩

theorem lt_of_lt_of_le (hxy : x < y) (hyz : y ≤ z) : x < z := by
  obtain ⟨r, s, hr, hs, hrs⟩ := lt_iff.1 hxy
  obtain ⟨s', t, hs', ht, hst⟩ := le_iff.1 hyz
  obtain rfl : s = s' := Option.some.inj (hs.symm.trans hs')
  exact lt_iff.2 ⟨r, t, hr, ht, hrs.trans_le hst⟩

theorem lt_of_le_of_lt (hxy : x ≤ y) (hyz : y < z) : x < z := by
  obtain ⟨r, s, hr, hs, hrs⟩ := le_iff.1 hxy
  obtain ⟨s', t, hs', ht, hst⟩ := lt_iff.1 hyz
  obtain rfl : s = s' := Option.some.inj (hs.symm.trans hs')
  exact lt_iff.2 ⟨r, t, hr, ht, hrs.trans_lt hst⟩

theorem le_of_lt (h : x < y) : x ≤ y := by
  obtain ⟨r, s, hr, hs, hrs⟩ := lt_iff.1 h
  exact le_iff.2 ⟨r, s, hr, hs, hrs.le⟩

theorem isNumber_left (h : x ≤ y) : IsNumber x := by
  obtain ⟨r, s, hr, -, -⟩ := le_iff.1 h
  exact isNumber_iff.2 ⟨r, hr⟩

theorem isNumber_right (h : x ≤ y) : IsNumber y := by
  obtain ⟨r, s, -, hs, -⟩ := le_iff.1 h
  exact isNumber_iff.2 ⟨s, hs⟩

theorem not_lt_of_le (h : y ≤ x) : ¬ x < y := by
  intro hlt
  obtain ⟨s, r, hs, hr, hle⟩ := le_iff.1 h
  obtain ⟨r', s', hr', hs', hlt⟩ := lt_iff.1 hlt
  obtain rfl : r = r' := Option.some.inj (hr.symm.trans hr')
  obtain rfl : s = s' := Option.some.inj (hs.symm.trans hs')
  exact hle.not_gt hlt

/-- Numbers are totally ordered. -/
theorem lt_or_le (hx : IsNumber x) (hy : IsNumber y) : x < y ∨ y ≤ x := by
  obtain ⟨r, hr⟩ := isNumber_iff.1 hx
  obtain ⟨s, hs⟩ := isNumber_iff.1 hy
  rcases lt_or_ge r s with h | h
  · exact Or.inl (lt_iff.2 ⟨r, s, hr, hs, h⟩)
  · exact Or.inr (le_iff.2 ⟨s, r, hs, hr, h⟩)

theorem not_lt_iff (hx : IsNumber x) (hy : IsNumber y) : ¬ x < y ↔ y ≤ x :=
  ⟨(lt_or_le hx hy).resolve_left, not_lt_of_le⟩

theorem not_le_iff (hx : IsNumber x) (hy : IsNumber y) : ¬ x ≤ y ↔ y < x :=
  ⟨(lt_or_le hy hx).resolve_right, fun h hle => not_lt_of_le hle h⟩

/-! ## Finite numbers -/

theorem isNumber_of_isFinite (h : isFinite x = true) : IsNumber x := by
  obtain ⟨r, hr⟩ := isFinite_iff.1 h
  exact isNumber_iff.2 ⟨r, hr⟩

/-- What lies between finite numbers is finite. -/
theorem isFinite_of_le_of_le (hx : isFinite x = true) (hz : isFinite z = true) (hxy : x ≤ y)
    (hyz : y ≤ z) : isFinite y = true := by
  obtain ⟨r, hr⟩ := isFinite_iff.1 hx
  obtain ⟨t, ht⟩ := isFinite_iff.1 hz
  obtain ⟨r', s, hr', hs, hrs⟩ := le_iff.1 hxy
  obtain ⟨s', t', hs', ht', hst⟩ := le_iff.1 hyz
  obtain rfl : (r : EReal) = r' := Option.some.inj (hr.symm.trans hr')
  obtain rfl : (t : EReal) = t' := Option.some.inj (ht.symm.trans ht')
  obtain rfl : s = s' := Option.some.inj (hs.symm.trans hs')
  induction s with
  | bot => exact absurd hrs (not_le.2 (EReal.bot_lt_coe r))
  | top => exact absurd hst (not_le.2 (EReal.coe_lt_top t))
  | coe s => exact isFinite_iff.2 ⟨s, hs⟩

theorem isFinite_zero : isFinite (0 : α) = true :=
  isFinite_iff.2 ⟨0, value?_zero⟩

theorem isFinite_one : isFinite (1 : α) = true :=
  isFinite_iff.2 ⟨1, value?_one⟩

theorem isNumber_zero : IsNumber (0 : α) := isNumber_of_isFinite isFinite_zero

/-! ## Values -/

/-- The order, read off the values. -/
theorem le_iff_of_value {r s : EReal} (hr : value? x = some r) (hs : value? y = some s) :
    x ≤ y ↔ r ≤ s := by
  constructor
  · intro h
    obtain ⟨r', s', hr', hs', hle⟩ := le_iff.1 h
    obtain rfl : r = r' := Option.some.inj (hr.symm.trans hr')
    obtain rfl : s = s' := Option.some.inj (hs.symm.trans hs')
    exact hle
  · exact fun h => le_iff.2 ⟨r, s, hr, hs, h⟩

/-- Numbers of the same value are not told apart by the order. -/
theorem le_congr_of_value (h : value? x = value? y) : z ≤ x ↔ z ≤ y := by
  rw [le_iff, le_iff, h]

theorem ge_congr_of_value (h : value? x = value? y) : x ≤ z ↔ y ≤ z := by
  rw [le_iff, le_iff, h]

theorem lt_iff_of_value {r s : EReal} (hr : value? x = some r) (hs : value? y = some s) :
    x < y ↔ r < s := by
  rw [← not_le_iff (isNumber_iff.2 ⟨s, hs⟩) (isNumber_iff.2 ⟨r, hr⟩), le_iff_of_value hs hr, not_le]

theorem round_zero : round α 0 = 0 := round_value value?_zero

theorem round_nonneg {r : EReal} (h : 0 ≤ r) : 0 ≤ round α r := by
  have hmono := round_mono (α := α) h
  rwa [round_zero] at hmono

/-- A result below a number is rounded to at most that number. -/
theorem round_le {r s : EReal} (hx : value? x = some s) (h : r ≤ s) : round α r ≤ s := by
  have hmono := round_mono (α := α) h
  rwa [round_value hx] at hmono

theorem le_round {r s : EReal} (hx : value? x = some s) (h : s ≤ r) : s ≤ round α r := by
  have hmono := round_mono (α := α) h
  rwa [round_value hx] at hmono

/-! ## Positive parts, clamps and shares -/

theorem positivePart_of_not_pos (h : ¬ 0 < x) : positivePart x = 0 := by
  have hzero : (0 : α) ≤ 0 := isNumber_zero
  rw [positivePart, larger, if_neg h, if_pos hzero]

theorem positivePart_nonneg (x : α) : 0 ≤ positivePart x := by
  by_cases h : 0 < x
  · rw [positivePart_of_pos h]
    exact le_of_lt h
  · rw [positivePart_of_not_pos h]
    exact isNumber_zero

theorem isNumber_positivePart (x : α) : IsNumber (positivePart x) :=
  isNumber_right (positivePart_nonneg x)

/-- The positive part of a nonnegative number has its value. -/
theorem value?_positivePart (h : 0 ≤ x) : value? (positivePart x) = value? x := by
  by_cases hx : 0 < x
  · rw [positivePart_of_pos hx]
  · obtain ⟨r, hr⟩ := isNumber_iff.1 (isNumber_right h)
    have hle := (not_lt_iff isNumber_zero (isNumber_right h)).1 hx
    have hzero : r = 0 := le_antisymm ((le_iff_of_value hr value?_zero).1 hle)
      ((le_iff_of_value value?_zero hr).1 h)
    rw [positivePart_of_not_pos hx, hr, hzero, value?_zero]

theorem isFinite_positivePart_eq (h : 0 ≤ x) : isFinite (positivePart x) = isFinite x := by
  rw [Bool.eq_iff_iff, isFinite_iff, isFinite_iff, value?_positivePart h]

theorem isFinite_positivePart (hy : isFinite y = true) (h : x ≤ y) :
    isFinite (positivePart x) = true := by
  by_cases hx : 0 < x
  · rw [positivePart_of_pos hx]
    exact isFinite_of_le_of_le isFinite_zero hy (le_of_lt hx) h
  · rw [positivePart_of_not_pos hx]
    exact isFinite_zero

/-- A number is clamped into the interval, and stays where it is if it lies there. -/
theorem clamp?_spec {lo hi : α} (h : lo ≤ hi) (hx : IsNumber x) :
    ∃ y, clamp? x lo hi = some y ∧ lo ≤ y ∧ y ≤ hi ∧ (lo ≤ x → x ≤ hi → y = x) := by
  rw [clamp?_of_le h]
  by_cases hlo : x < lo
  · exact ⟨lo, by rw [if_pos hlo], isNumber_left h, h, fun hle _ => absurd hlo (not_lt_of_le hle)⟩
  · rw [if_neg hlo]
    by_cases hhi : hi < x
    · exact ⟨hi, by rw [if_pos hhi], h, isNumber_right h,
        fun _ hle => absurd hhi (not_lt_of_le hle)⟩
    · exact ⟨x, by rw [if_neg hhi], (not_lt_iff hx (isNumber_left h)).1 hlo,
        (not_lt_iff (isNumber_right h) hx).1 hhi, fun _ _ => rfl⟩

/-- Clamping a number that is above another one of the interval stays above it. -/
theorem le_of_clamp? {lo hi : α} (h : clamp? x lo hi = some y) (hx : z ≤ x) (hz : z ≤ hi) :
    z ≤ y := by
  rw [clamp?_of_le (le_of_clamp?_eq_some h), Option.some.injEq] at h
  subst h
  split_ifs with h1 h2
  · exact le_trans hx (le_of_lt h1)
  · exact hz
  · exact hx

theorem lt_of_clamp? {lo hi : α} (h : clamp? x lo hi = some y) (hx : z < x) (hz : z < hi) :
    z < y := by
  rw [clamp?_of_le (le_of_clamp?_eq_some h), Option.some.injEq] at h
  subst h
  split_ifs with h1 h2
  · exact lt_of_lt_of_le hx (le_of_lt h1)
  · exact hz
  · exact hx

/-- Clamping a number that is below another one of the interval stays below it. -/
theorem clamp?_le {lo hi : α} (h : clamp? x lo hi = some y) (hx : x ≤ z) (hz : lo ≤ z) :
    y ≤ z := by
  rw [clamp?_of_le (le_of_clamp?_eq_some h), Option.some.injEq] at h
  subst h
  split_ifs with h1 h2
  · exact hz
  · exact le_trans (le_of_lt h2) hx
  · exact hx

theorem isFinite_of_isShare (h : isShare x = true) : isFinite x = true := by
  obtain ⟨h0, h1⟩ := isShare_iff.1 h
  exact isFinite_of_le_of_le isFinite_zero isFinite_one h0 h1

theorem toShare_of_isShare (h : isShare x = true) : toShare x = x := by
  obtain ⟨h0, h1⟩ := isShare_iff.1 h
  rw [toShare, if_neg (not_lt_of_le h0), if_neg (not_lt_of_le h1)]

theorem smaller_of_le (h : y ≤ x) : smaller x y = y := by
  have hy : y ≤ y := isNumber_left h
  rw [smaller, if_neg (not_lt_of_le h), if_pos hy]

/-- The smaller of two numbers is one of them, and below the other. -/
theorem smaller_spec (hx : IsNumber x) (hy : IsNumber y) :
    (smaller x y = x ∧ x < y) ∨ (smaller x y = y ∧ y ≤ x) :=
  (lt_or_le hx hy).imp (fun h => ⟨smaller_of_lt h, h⟩) fun h => ⟨smaller_of_le h, h⟩

theorem smaller_le_left (hx : IsNumber x) (hy : IsNumber y) : smaller x y ≤ x := by
  rcases smaller_spec hx hy with ⟨h, -⟩ | ⟨h, hle⟩ <;> rw [h]
  · exact hx
  · exact hle

theorem smaller_le_right (hx : IsNumber x) (hy : IsNumber y) : smaller x y ≤ y := by
  rcases smaller_spec hx hy with ⟨h, hlt⟩ | ⟨h, -⟩ <;> rw [h]
  · exact le_of_lt hlt
  · exact hy

theorem isShare_zero : isShare (0 : α) = true :=
  isShare_iff.2 ⟨isNumber_zero, (le_iff_of_value value?_zero value?_one).2 zero_le_one⟩

theorem isShare_one : isShare (1 : α) = true :=
  isShare_iff.2 ⟨(le_iff_of_value value?_zero value?_one).2 zero_le_one,
    isNumber_of_isFinite isFinite_one⟩

/-! ## Rounded arithmetic -/

theorem value?_mul_of_isFinite {r s : ℝ} (hr : value? x = some (r : EReal))
    (hs : value? y = some (s : EReal)) : value? (x * y) = some (round α (r * s)) :=
  value?_mul hr hs (fun _ => ⟨EReal.coe_ne_top s, EReal.coe_ne_bot s⟩)
    (fun _ => ⟨EReal.coe_ne_top r, EReal.coe_ne_bot r⟩)

/-- A share of a nonnegative number lies between zero and the number. -/
theorem mul_share (hx : isFinite x = true) (hx0 : 0 ≤ x) (hy0 : 0 ≤ y) (hy1 : y ≤ 1) :
    0 ≤ x * y ∧ x * y ≤ x := by
  obtain ⟨r, hr⟩ := isFinite_iff.1 hx
  obtain ⟨s, hs⟩ := isNumber_iff.1 (isNumber_right hy0)
  have hr0 : (0 : EReal) ≤ r := (le_iff_of_value value?_zero hr).1 hx0
  have hs0 : 0 ≤ s := (le_iff_of_value value?_zero hs).1 hy0
  have hs1 : s ≤ 1 := (le_iff_of_value hs value?_one).1 hy1
  have hprod : value? (x * y) = some (round α (r * s)) := by
    apply value?_mul hr hs
    · intro
      exact ⟨(hs1.trans_lt (EReal.coe_lt_top 1)).ne, (EReal.bot_lt_zero.trans_le hs0).ne'⟩
    · exact fun _ => ⟨EReal.coe_ne_top r, EReal.coe_ne_bot r⟩
  refine ⟨(le_iff_of_value value?_zero hprod).2 (round_nonneg (mul_nonneg hr0 hs0)), ?_⟩
  rw [le_iff_of_value hprod hr]
  apply round_le hr
  simpa using mul_le_mul_of_nonneg_left hs1 hr0

theorem mul_nonpos (hx : x ≤ 0) (hy0 : 0 < y) (hy1 : y ≤ 1) : x * y ≤ 0 := by
  obtain ⟨r, hr⟩ := isNumber_iff.1 (isNumber_left hx)
  obtain ⟨s, hs⟩ := isNumber_iff.1 (isNumber_left hy1)
  have hr0 : r ≤ 0 := (le_iff_of_value hr value?_zero).1 hx
  have hs0 : 0 < s := (lt_iff_of_value value?_zero hs).1 hy0
  have hs1 : s ≤ 1 := (le_iff_of_value hs value?_one).1 hy1
  have hprod : value? (x * y) = some (round α (r * s)) := by
    apply value?_mul hr hs
    · intro
      exact ⟨(hs1.trans_lt (EReal.coe_lt_top 1)).ne, (EReal.bot_lt_zero.trans hs0).ne'⟩
    · exact fun h => absurd h hs0.ne'
  rw [le_iff_of_value hprod value?_zero]
  exact round_le value?_zero (EReal.mul_nonpos_iff.2 (Or.inr ⟨hr0, hs0.le⟩))

theorem value?_add_of_isFinite {r : ℝ} {s : EReal} (hr : value? x = some (r : EReal))
    (hs : value? y = some s) : value? (x + y) = some (round α (r + s)) :=
  value?_add hr hs (fun h => absurd h (EReal.coe_ne_top r))
    (fun h => absurd h (EReal.coe_ne_bot r))

theorem le_add (hx : isFinite x = true) (hy : 0 ≤ y) : x ≤ x + y := by
  obtain ⟨r, hr⟩ := isFinite_iff.1 hx
  obtain ⟨s, hs⟩ := isNumber_iff.1 (isNumber_right hy)
  have hs0 : 0 ≤ s := (le_iff_of_value value?_zero hs).1 hy
  rw [le_iff_of_value hr (value?_add_of_isFinite hr hs)]
  apply le_round hr
  simpa using add_le_add_right hs0 (r : EReal)

theorem value?_sub_of_isFinite {r : ℝ} {s : EReal} (hr : value? x = some (r : EReal))
    (hs : value? y = some s) : value? (x - y) = some (round α (r - s)) :=
  value?_sub hr hs (fun h => absurd h (EReal.coe_ne_top r))
    (fun h => absurd h (EReal.coe_ne_bot r))

/-- A difference has the opposite value of the difference the other way round. -/
theorem value?_neg_sub (hx : isFinite x = true) (hy : isFinite y = true) :
    value? (-(x - y)) = value? (y - x) := by
  obtain ⟨r, hr⟩ := isFinite_iff.1 hx
  obtain ⟨s, hs⟩ := isFinite_iff.1 hy
  rw [value?_neg, value?_sub_of_isFinite hr hs, value?_sub_of_isFinite hs hr, Option.map_some,
    ← round_neg, ← EReal.coe_sub, ← EReal.coe_sub, ← EReal.coe_neg, neg_sub]

theorem sub_le (hx : isFinite x = true) (hy : 0 ≤ y) : x - y ≤ x := by
  obtain ⟨r, hr⟩ := isFinite_iff.1 hx
  obtain ⟨s, hs⟩ := isNumber_iff.1 (isNumber_right hy)
  have hs0 : 0 ≤ s := (le_iff_of_value value?_zero hs).1 hy
  rw [le_iff_of_value (value?_sub_of_isFinite hr hs) hr]
  apply round_le hr
  simpa using EReal.sub_le_sub (le_refl (r : EReal)) hs0

theorem sub_nonneg (hx : isFinite x = true) (h : y ≤ x) : 0 ≤ x - y := by
  obtain ⟨r, hr⟩ := isFinite_iff.1 hx
  obtain ⟨s, hs⟩ := isNumber_iff.1 (isNumber_left h)
  have hsr := (le_iff_of_value hs hr).1 h
  rw [le_iff_of_value value?_zero (value?_sub_of_isFinite hr hs)]
  exact round_nonneg ((EReal.sub_nonneg (Or.inl (EReal.coe_ne_top r))
    (Or.inl (EReal.coe_ne_bot r))).2 hsr)

theorem sub_pos (hx : isFinite x = true) (h : y < x) : 0 < x - y := by
  obtain ⟨r, hr⟩ := isFinite_iff.1 hx
  obtain ⟨s, hs⟩ := isNumber_iff.1 (isNumber_left (le_of_lt h))
  rw [lt_iff_of_value value?_zero (value?_sub_of_isFinite hr hs)]
  exact round_sub_pos hr hs ((lt_iff_of_value hs hr).1 h)

theorem sub_nonpos (hx : isFinite x = true) (h : x ≤ y) : x - y ≤ 0 := by
  obtain ⟨r, hr⟩ := isFinite_iff.1 hx
  obtain ⟨s, hs⟩ := isNumber_iff.1 (isNumber_right h)
  have hrs := (le_iff_of_value hr hs).1 h
  rw [le_iff_of_value (value?_sub_of_isFinite hr hs) value?_zero]
  exact round_le value?_zero (EReal.sub_nonpos.2 hrs)

/-! ## Sums, products and quotients that are not negative -/

/-- What is subtracted from a number that is not negative bounds the difference from below. -/
theorem neg_le_sub (hx : isFinite x = true) (hy : isFinite y = true) (hx0 : 0 ≤ x) :
    -y ≤ x - y := by
  obtain ⟨r, hr⟩ := isFinite_iff.1 hx
  obtain ⟨s, hs⟩ := isFinite_iff.1 hy
  have hr0 : (0 : EReal) ≤ r := (le_iff_of_value value?_zero hr).1 hx0
  have hneg : value? (-y) = some (-s : EReal) := by rw [value?_neg, hs, Option.map_some]
  rw [le_iff_of_value hneg (value?_sub_of_isFinite hr hs)]
  apply le_round hneg
  simpa using EReal.sub_le_sub hr0 (le_refl (s : EReal))

theorem isFinite_neg (hx : isFinite x = true) : isFinite (-x) = true := by
  obtain ⟨r, hr⟩ := isFinite_iff.1 hx
  exact isFinite_iff.2 ⟨-r, by rw [value?_neg, hr, Option.map_some, EReal.coe_neg]⟩

theorem isFinite_sub (hx : isFinite x = true) (hy : isFinite y = true) (hx0 : 0 ≤ x)
    (hy0 : 0 ≤ y) : isFinite (x - y) = true :=
  isFinite_of_le_of_le (isFinite_neg hy) hx (neg_le_sub hx hy hx0) (sub_le hx hy0)

theorem nonneg_neg (h : x ≤ 0) : 0 ≤ -x := by
  obtain ⟨r, hr⟩ := isNumber_iff.1 (isNumber_left h)
  have hneg : value? (-x) = some (-r) := by rw [value?_neg, hr, Option.map_some]
  rw [le_iff_of_value value?_zero hneg]
  exact EReal.neg_nonneg.2 ((le_iff_of_value hr value?_zero).1 h)

theorem neg_le_neg (h : x ≤ y) : -y ≤ -x := by
  obtain ⟨r, s, hr, hs, hrs⟩ := le_iff.1 h
  have hneg : value? (-x) = some (-r) := by rw [value?_neg, hr, Option.map_some]
  have hneg' : value? (-y) = some (-s) := by rw [value?_neg, hs, Option.map_some]
  rw [le_iff_of_value hneg' hneg]
  exact EReal.neg_le_neg_iff.2 hrs

/-- The positive part of a difference is at most what is subtracted from. -/
theorem positivePart_sub_le (hx : isFinite x = true) (hx0 : 0 ≤ x) (hy0 : 0 ≤ y) :
    positivePart (x - y) ≤ x := by
  by_cases h : 0 < x - y
  · rw [positivePart_of_pos h]
    exact sub_le hx hy0
  · rw [positivePart_of_not_pos h]
    exact hx0

/-- A sum of what is not negative is rounded, infinite or not. -/
theorem value?_add_of_nonneg (hx : 0 ≤ x) (hy : 0 ≤ y) : ∃ r s, value? x = some r ∧
    value? y = some s ∧ 0 ≤ r ∧ 0 ≤ s ∧ value? (x + y) = some (round α (r + s)) := by
  obtain ⟨r, hr⟩ := isNumber_iff.1 (isNumber_right hx)
  obtain ⟨s, hs⟩ := isNumber_iff.1 (isNumber_right hy)
  have hr0 : 0 ≤ r := (le_iff_of_value value?_zero hr).1 hx
  have hs0 : 0 ≤ s := (le_iff_of_value value?_zero hs).1 hy
  exact ⟨r, s, hr, hs, hr0, hs0, value?_add hr hs (fun _ => (EReal.bot_lt_zero.trans_le hs0).ne')
    (fun h => absurd h (EReal.bot_lt_zero.trans_le hr0).ne')⟩

theorem le_add_of_nonneg (hx : 0 ≤ x) (hy : 0 ≤ y) : x ≤ x + y := by
  obtain ⟨r, s, hr, -, -, hs0, hsum⟩ := value?_add_of_nonneg hx hy
  rw [le_iff_of_value hr hsum]
  apply le_round hr
  simpa using add_le_add_right hs0 r

theorem le_add_of_nonneg_left (hx : 0 ≤ x) (hy : 0 ≤ y) : y ≤ x + y := by
  obtain ⟨r, s, -, hs, hr0, -, hsum⟩ := value?_add_of_nonneg hx hy
  rw [le_iff_of_value hs hsum]
  apply le_round hs
  simpa using add_le_add_left hr0 s

theorem nonneg_add (hx : 0 ≤ x) (hy : 0 ≤ y) : 0 ≤ x + y :=
  le_trans hx (le_add_of_nonneg hx hy)

theorem foldl_add_nonneg {xs : List α} (hx : 0 ≤ x) (h : ∀ y ∈ xs, 0 ≤ y) :
    0 ≤ xs.foldl (· + ·) x := by
  induction xs generalizing x with
  | nil => exact hx
  | cons y rest ih =>
      exact ih (nonneg_add hx (h y List.mem_cons_self)) fun z hz => h z (List.mem_cons_of_mem _ hz)

/-- A finite sum has finite parts. -/
theorem isFinite_of_add (hx : 0 ≤ x) (hy : 0 ≤ y) (h : isFinite (x + y) = true) :
    isFinite x = true ∧ isFinite y = true :=
  ⟨isFinite_of_le_of_le isFinite_zero h hx (le_add_of_nonneg hx hy),
    isFinite_of_le_of_le isFinite_zero h hy (le_add_of_nonneg_left hx hy)⟩

theorem nonneg_mul (hx : isFinite x = true) (hy : isFinite y = true) (hx0 : 0 ≤ x)
    (hy0 : 0 ≤ y) : 0 ≤ x * y := by
  obtain ⟨r, hr⟩ := isFinite_iff.1 hx
  obtain ⟨s, hs⟩ := isFinite_iff.1 hy
  have hr0 : (0 : EReal) ≤ r := (le_iff_of_value value?_zero hr).1 hx0
  have hs0 : (0 : EReal) ≤ s := (le_iff_of_value value?_zero hs).1 hy0
  rw [le_iff_of_value value?_zero (value?_mul_of_isFinite hr hs)]
  exact round_nonneg (mul_nonneg hr0 hs0)

theorem nonneg_div (hx : isFinite x = true) (hy : isFinite y = true) (hx0 : 0 ≤ x)
    (hy0 : 0 < y) : 0 ≤ x / y := by
  obtain ⟨r, hr⟩ := isFinite_iff.1 hx
  obtain ⟨s, hs⟩ := isFinite_iff.1 hy
  have hr0 : 0 ≤ r := EReal.coe_nonneg.1 ((le_iff_of_value value?_zero hr).1 hx0)
  have hs0 : 0 < s := EReal.coe_pos.1 ((lt_iff_of_value value?_zero hs).1 hy0)
  rw [le_iff_of_value value?_zero (value?_div hr hs hs0.ne')]
  exact round_nonneg (EReal.coe_nonneg.2 (div_nonneg hr0 hs0.le))

/-- A positive number is once in itself. -/
theorem value?_div_self (hx : isFinite x = true) (hx0 : 0 < x) : value? (x / x) = some 1 := by
  obtain ⟨r, hr⟩ := isFinite_iff.1 hx
  have hr0 : 0 < r := EReal.coe_pos.1 ((lt_iff_of_value value?_zero hr).1 hx0)
  rw [value?_div hr hr hr0.ne', div_self hr0.ne']
  exact congrArg some (round_value value?_one)

/-- What is at most a finite number is a share of it. -/
theorem isShare_div (hy : isFinite y = true) (hx0 : 0 ≤ x) (hy0 : 0 < y) (h : x ≤ y) :
    isShare (x / y) = true := by
  have hx := isFinite_of_le_of_le isFinite_zero hy hx0 h
  obtain ⟨r, hr⟩ := isFinite_iff.1 hx
  obtain ⟨s, hs⟩ := isFinite_iff.1 hy
  have hs0 : 0 < s := EReal.coe_pos.1 ((lt_iff_of_value value?_zero hs).1 hy0)
  have hrs : r ≤ s := EReal.coe_le_coe_iff.1 ((le_iff_of_value hr hs).1 h)
  refine isShare_iff.2 ⟨nonneg_div hx hy hx0 hy0, ?_⟩
  rw [le_iff_of_value (value?_div hr hs hs0.ne') value?_one]
  exact round_le value?_one (EReal.coe_le_coe_iff.2 ((div_le_one hs0).2 hrs))

theorem natCast_nonneg (n : ℕ) : 0 ≤ (n : α) := by
  rw [le_iff_of_value value?_zero (value?_natCast n)]
  exact round_nonneg (EReal.coe_nonneg.2 (Nat.cast_nonneg n))

theorem natCast_mono {m n : ℕ} (h : m ≤ n) : (m : α) ≤ (n : α) := by
  rw [le_iff_of_value (value?_natCast m) (value?_natCast n)]
  exact round_mono (EReal.coe_le_coe_iff.2 (Nat.cast_le.2 h))

theorem isFinite_abs (hx : isFinite x = true) : isFinite (Quantity.abs x) = true := by
  obtain ⟨r, hr⟩ := isFinite_iff.1 hx
  refine isFinite_iff.2 ⟨max r (-r), ?_⟩
  rw [value?_abs, hr, Option.map_some, ← EReal.coe_neg, EReal.coe_strictMono.monotone.map_max]

theorem isNumber_of_isNumber_abs (h : IsNumber (Quantity.abs x)) : IsNumber x := by
  obtain ⟨r, hr⟩ := isNumber_iff.1 h
  rw [value?_abs, Option.map_eq_some_iff] at hr
  obtain ⟨s, hs, -⟩ := hr
  exact isNumber_iff.2 ⟨s, hs⟩

theorem nonneg_abs (hx : IsNumber x) : 0 ≤ Quantity.abs x := by
  obtain ⟨r, hr⟩ := isNumber_iff.1 hx
  have habs : value? (Quantity.abs x) = some (max r (-r)) := by
    rw [value?_abs, hr, Option.map_some]
  rw [le_iff_of_value value?_zero habs]
  rcases le_total 0 r with h | h
  · exact le_max_of_le_left h
  · exact le_max_of_le_right (EReal.le_neg_of_le_neg (by simpa using h))

/-! ## Infinity -/

theorem value?_eq_top (hx : 0 ≤ x) (h : isFinite x = false) : value? x = some ⊤ := by
  obtain ⟨r, hr⟩ := isNumber_iff.1 (isNumber_right hx)
  have hr0 : 0 ≤ r := (le_iff_of_value value?_zero hr).1 hx
  induction r with
  | bot => exact absurd hr0 (not_le.2 EReal.bot_lt_zero)
  | top => exact hr
  | coe r => exact absurd (isFinite_iff.2 ⟨r, hr⟩) (by simp [h])

theorem isFinite_eq_false_of_value {r : EReal} (hr : value? x = some r)
    (h : ∀ s : ℝ, r ≠ s) : isFinite x = false := by
  rw [← Bool.not_eq_true, isFinite_iff]
  rintro ⟨s, hs⟩
  exact h s (Option.some.inj (hr.symm.trans hs))

theorem round_bot (h : value? x = some ⊤) : round α ⊥ = ⊥ := by
  rw [← EReal.neg_top, round_neg, round_value h]

end RoundedQuantity

end LocalGrid
