import LocalGrid.Proofs.Quantity.Rounded
import LocalGrid.Proofs.Rounding.Arithmetic

/-!
# Packed quantities

A type of bit patterns computes by unpacking its arguments, working on the unpacked values, and
packing the result. `PackedQuantity` says that a reading of `Quantity` does this in some format;
every such reading is rounded.
-/

open Float.Model (Format UnpackedFloat)
open Float.Model.UnpackedFloat

namespace LocalGrid

open Quantity
open Rounding (IsCanonical IsInRange Approximates value)

class PackedQuantity (α : Type) [Quantity α] where
  format : Format
  one_lt_exponentBits : 1 < format.exponentBits
  unpacked : α → UnpackedFloat
  packed : UnpackedFloat → α
  unpacked_packed : ∀ u, unpacked (packed u) = unpack format (pack format u)
  packed_unpacked : ∀ x : α, packed (unpacked x) = x
  isCanonical_unpacked : ∀ x : α, IsCanonical format (unpacked x)
  isInRange_unpacked : ∀ x : α, IsInRange format (unpacked x)
  le_eq : ∀ x y : α, x ≤ y ↔ (unpacked x).le (unpacked y) = true
  lt_eq : ∀ x y : α, x < y ↔ (unpacked x).lt (unpacked y) = true
  isFinite_eq : ∀ x : α, isFinite x = (unpacked x).isFinite
  zero_eq : (0 : α) = packed (.zero .positive)
  one_eq : (1 : α) = packed (ofNat format 1)
  value_natCast : ∀ n : ℕ, Rounding.IsNumber (unpacked (n : α)) ∧
    value (unpacked (n : α)) = Rounding.round format (n : ℝ)
  neg_eq : ∀ x : α, -x = packed (unpacked x).neg
  abs_eq : ∀ x : α, Quantity.abs x = packed (unpacked x).abs
  add_eq : ∀ x y : α, x + y = packed (add format (unpacked x) (unpacked y))
  sub_eq : ∀ x y : α, x - y = packed (sub format (unpacked x) (unpacked y))
  mul_eq : ∀ x y : α, x * y = packed (mul format (unpacked x) (unpacked y))
  div_eq : ∀ x y : α, x / y = packed (div format (unpacked x) (unpacked y))

namespace PackedQuantity

variable {α : Type} [Quantity α] [PackedQuantity α] {x y : α}

noncomputable def value? (x : α) : Option EReal :=
  match unpacked x with
  | .notANumber => none
  | u => some (value u)

theorem value?_eq_some_iff {r : EReal} :
    value? x = some r ↔ Rounding.IsNumber (unpacked x) ∧ value (unpacked x) = r := by
  unfold value? Rounding.IsNumber
  cases unpacked x <;> simp

theorem value?_of_approximates {u : UnpackedFloat} {r : EReal} (hx : x = packed u)
    (h : Approximates (format α) u r) : value? x = some (Rounding.round (format α) r) := by
  rw [value?_eq_some_iff, hx, unpacked_packed]
  exact Rounding.value_unpack_pack _ one_lt_exponentBits h

/-- The value of a number is a point of the format. -/
theorem isPoint_of_value? {r : ℝ} (h : value? x = some (r : EReal)) :
    Rounding.IsPoint (format α) r :=
  Rounding.isPoint_of_value _ (isCanonical_unpacked x) (value?_eq_some_iff.1 h).2

/-- A number in the range of the format is not rounded. -/
theorem round_value {r : EReal} (h : value? x = some r) :
    Rounding.round (format α) r = r := by
  obtain ⟨hn, hr⟩ := value?_eq_some_iff.1 h
  have happrox := Rounding.approximates_value _ hn (isCanonical_unpacked x)
  have hpacked := value?_of_approximates (packed_unpacked x).symm happrox
  rw [h, hr] at hpacked
  exact (Option.some.inj hpacked).symm

theorem round_sub_pos {r s : EReal} (hr : value? x = some r) (hs : value? y = some s)
    (h : s < r) : 0 < Rounding.round (format α) (r - s) := by
  have hpos : (0 : EReal) < ⊤ := EReal.zero_lt_top
  induction r with
  | bot => exact absurd h (not_lt_bot)
  | top =>
      rw [EReal.top_sub h.ne, Rounding.round_top]
      exact hpos
  | coe r =>
      induction s with
      | top => exact absurd h not_top_lt
      | bot =>
          rw [EReal.coe_sub_bot, Rounding.round_top]
          exact hpos
      | coe s =>
          have hdiff := Rounding.nearest_sub_pos _ (isPoint_of_value? hr) (isPoint_of_value? hs)
            (EReal.coe_lt_coe_iff.1 h)
          have hlimit := Rounding.limit_pos (format α)
          rw [← EReal.coe_sub, Rounding.round_coe, Rounding.fit]
          split_ifs with h1 h2
          · exact hpos
          · linarith
          · exact EReal.coe_pos.2 hdiff

theorem unpacked_packed_of_isCanonical {u : UnpackedFloat} (hc : IsCanonical (format α) u)
    (hr : IsInRange (format α) u) : unpacked (packed u : α) = u := by
  rw [unpacked_packed, Rounding.unpack_pack _ one_lt_exponentBits hc hr]

theorem unpacked_zero (s : Sign) : unpacked (packed (.zero s) : α) = .zero s := by
  apply unpacked_packed_of_isCanonical <;> trivial

theorem value?_packed_zero (s : Sign) : value? (packed (.zero s) : α) = some 0 := by
  rw [value?_eq_some_iff, unpacked_zero]
  exact ⟨by simp [Rounding.IsNumber], rfl⟩

theorem value?_zero : value? (0 : α) = some 0 := by
  rw [zero_eq]
  exact value?_packed_zero _

theorem value?_natCast (n : ℕ) :
    value? (n : α) = some (Rounding.round (format α) (n : ℝ)) :=
  value?_eq_some_iff.2 (value_natCast n)

/-- A natural number that the mantissa holds is not rounded. -/
theorem value?_natCast_of_lt (hmin : (format α).minExponent ≤ 0)
    (hmax : (format α).mantissaBits ≤ 2 ^ ((format α).exponentBits - 1)) {n : ℕ}
    (h : n < 2 ^ (format α).mantissaBits) : value? (n : α) = some ((n : ℝ) : EReal) := by
  have hlimit : (n : ℝ) < Rounding.limit (format α) := by
    calc (n : ℝ) < 2 ^ (format α).mantissaBits := by exact_mod_cast h
      _ ≤ Rounding.limit (format α) := pow_le_pow_right₀ one_le_two hmax
  rw [value?_natCast, Rounding.round_coe,
    Rounding.nearest_of_isPoint _ (Rounding.isPoint_natCast _ hmin h),
    Rounding.fit_of_abs_lt _ (by rwa [Nat.abs_cast])]

theorem value?_one : value? (1 : α) = some 1 := by
  have hpoint : Rounding.IsPoint (format α) 1 := by
    have hmin := Rounding.minExponent_eq (format α)
    have hpos := Rounding.mantissaBits_pos (format α)
    have hbias := Rounding.one_le_exponentBias (format α) one_lt_exponentBits
    refine ⟨1, 0, ?_, by omega, by simp⟩
    simpa using one_lt_pow₀ (one_lt_two (α := ℤ)) hpos.ne'
  have hlimit : (1 : ℝ) < Rounding.limit (format α) :=
    one_lt_pow₀ one_lt_two (by positivity)
  have hone := value?_of_approximates (α := α) one_eq (Rounding.approximates_ofNat _ 1)
  rw [hone, Nat.cast_one, Rounding.round_coe, Rounding.nearest_of_isPoint _ hpoint,
    Rounding.fit_of_abs_lt _ (by rwa [abs_one])]
  rfl

theorem isFinite_iff : isFinite x = true ↔ ∃ r : ℝ, value? x = some (r : EReal) := by
  rw [isFinite_eq]
  unfold value?
  cases unpacked x with
  | notANumber => simp [UnpackedFloat.isFinite]
  | infinity s => cases s <;> simp [UnpackedFloat.isFinite, value]
  | zero s => exact ⟨fun _ => ⟨0, rfl⟩, fun _ => rfl⟩
  | finite s m e hm => exact ⟨fun _ => ⟨_, rfl⟩, fun _ => rfl⟩

theorem le_iff : x ≤ y ↔ ∃ r s, value? x = some r ∧ value? y = some s ∧ r ≤ s := by
  rw [le_eq, Rounding.le_iff _ (isCanonical_unpacked x) (isCanonical_unpacked y)]
  simp only [value?_eq_some_iff]
  constructor
  · rintro ⟨hx, hy, h⟩
    exact ⟨_, _, ⟨hx, rfl⟩, ⟨hy, rfl⟩, h⟩
  · rintro ⟨r, s, ⟨hx, rfl⟩, ⟨hy, rfl⟩, h⟩
    exact ⟨hx, hy, h⟩

theorem lt_iff : x < y ↔ ∃ r s, value? x = some r ∧ value? y = some s ∧ r < s := by
  rw [lt_eq, Rounding.lt_iff _ (isCanonical_unpacked x) (isCanonical_unpacked y)]
  simp only [value?_eq_some_iff]
  constructor
  · rintro ⟨hx, hy, h⟩
    exact ⟨_, _, ⟨hx, rfl⟩, ⟨hy, rfl⟩, h⟩
  · rintro ⟨r, s, ⟨hx, rfl⟩, ⟨hy, rfl⟩, h⟩
    exact ⟨hx, hy, h⟩

/-! ## Operations -/

theorem unpacked_neg (x : α) : unpacked (-x) = (unpacked x).neg := by
  rw [neg_eq]
  exact unpacked_packed_of_isCanonical ((Rounding.isCanonical_neg _).2 (isCanonical_unpacked x))
    ((Rounding.isInRange_neg _).2 (isInRange_unpacked x))

theorem neg_neg (x : α) : - -x = x := by
  rw [neg_eq (-x), unpacked_neg, Rounding.neg_neg_eq, packed_unpacked]

theorem value?_neg (x : α) : value? (-x) = (value? x).map fun r => -r := by
  unfold value?
  rw [unpacked_neg]
  cases unpacked x with
  | notANumber => rfl
  | infinity s => exact congrArg some (Rounding.value_neg _)
  | zero s => exact congrArg some (Rounding.value_neg _)
  | finite s m e hm => exact congrArg some (Rounding.value_neg _)

theorem unpacked_abs (x : α) : unpacked (Quantity.abs x) = (unpacked x).abs := by
  rw [abs_eq]
  exact unpacked_packed_of_isCanonical ((Rounding.isCanonical_abs _).2 (isCanonical_unpacked x))
    ((Rounding.isInRange_abs _).2 (isInRange_unpacked x))

theorem value?_abs (x : α) : value? (Quantity.abs x) = (value? x).map fun r => max r (-r) := by
  unfold value?
  rw [unpacked_abs]
  cases unpacked x with
  | notANumber => rfl
  | infinity s => exact congrArg some (Rounding.value_abs _)
  | zero s => exact congrArg some (Rounding.value_abs _)
  | finite s m e hm => exact congrArg some (Rounding.value_abs _)

theorem value?_add {r s : EReal} (hr : value? x = some r) (hs : value? y = some s)
    (htop : r = ⊤ → s ≠ ⊥) (hbot : r = ⊥ → s ≠ ⊤) :
    value? (x + y) = some (Rounding.round (format α) (r + s)) := by
  obtain ⟨hx, rfl⟩ := value?_eq_some_iff.1 hr
  obtain ⟨hy, rfl⟩ := value?_eq_some_iff.1 hs
  exact value?_of_approximates (add_eq x y) (Rounding.approximates_add _ hx hy
    (isCanonical_unpacked x) (isCanonical_unpacked y) htop hbot)

theorem value?_sub {r s : EReal} (hr : value? x = some r) (hs : value? y = some s)
    (htop : r = ⊤ → s ≠ ⊤) (hbot : r = ⊥ → s ≠ ⊥) :
    value? (x - y) = some (Rounding.round (format α) (r - s)) := by
  obtain ⟨hx, rfl⟩ := value?_eq_some_iff.1 hr
  obtain ⟨hy, rfl⟩ := value?_eq_some_iff.1 hs
  exact value?_of_approximates (sub_eq x y) (Rounding.approximates_sub _ hx hy
    (isCanonical_unpacked x) (isCanonical_unpacked y) htop hbot)

theorem value?_mul {r s : EReal} (hr : value? x = some r) (hs : value? y = some s)
    (hzero : r = 0 → s ≠ ⊤ ∧ s ≠ ⊥) (hzero' : s = 0 → r ≠ ⊤ ∧ r ≠ ⊥) :
    value? (x * y) = some (Rounding.round (format α) (r * s)) := by
  obtain ⟨hx, rfl⟩ := value?_eq_some_iff.1 hr
  obtain ⟨hy, rfl⟩ := value?_eq_some_iff.1 hs
  exact value?_of_approximates (mul_eq x y) (Rounding.approximates_mul _ hx hy
    (isCanonical_unpacked x) (isCanonical_unpacked y) hzero hzero')

theorem value?_div {r s : ℝ} (hr : value? x = some (r : EReal)) (hs : value? y = some (s : EReal))
    (hs0 : s ≠ 0) : value? (x / y) = some (Rounding.round (format α) (r / s : ℝ)) := by
  obtain ⟨hx, hxr⟩ := value?_eq_some_iff.1 hr
  obtain ⟨hy, hys⟩ := value?_eq_some_iff.1 hs
  exact value?_of_approximates (div_eq x y) (Rounding.approximates_div _ hx hy hxr hys hs0)

theorem sub_self (h : isFinite x = true) : x - x = 0 := by
  rw [isFinite_eq] at h
  rw [sub_eq, Rounding.sub_self_eq _ h, zero_eq]

theorem unpacked_eq_infinity (h : value? x = some ⊤) : unpacked x = .infinity .positive := by
  obtain ⟨hn, hvalue⟩ := value?_eq_some_iff.1 h
  cases hx : unpacked x with
  | notANumber => exact absurd hx hn
  | infinity s => cases s <;> simp_all [value]
  | zero s => simp [hx, value] at hvalue
  | finite s m e hm => exact absurd (hx ▸ hvalue) (EReal.coe_ne_top _)

/-- Infinity less infinity is no number. -/
theorem value?_sub_of_infinite (hx : value? x = some ⊤) (hy : value? y = some ⊤) :
    value? (x - y) = none := by
  have hdiff : sub (format α) (.infinity .positive) (.infinity .positive) = .notANumber := rfl
  unfold value?
  rw [sub_eq, unpacked_eq_infinity hx, unpacked_eq_infinity hy, hdiff, unpacked_packed]
  rw [show unpack (format α) (pack (format α) .notANumber) = .notANumber from unpack_packedNaN]

end PackedQuantity

noncomputable instance (priority := low) {α : Type} [Quantity α] [PackedQuantity α] :
    RoundedQuantity α where
  value? := PackedQuantity.value?
  round := Rounding.round (PackedQuantity.format α)
  round_mono := Rounding.round_mono _
  round_neg := Rounding.round_neg _
  round_value := PackedQuantity.round_value
  round_sub_pos := PackedQuantity.round_sub_pos
  le_iff := PackedQuantity.le_iff
  lt_iff := PackedQuantity.lt_iff
  isFinite_iff := PackedQuantity.isFinite_iff
  value?_zero := PackedQuantity.value?_zero
  value?_one := PackedQuantity.value?_one
  value?_natCast := PackedQuantity.value?_natCast
  value?_neg := PackedQuantity.value?_neg
  value?_abs := PackedQuantity.value?_abs
  value?_add := PackedQuantity.value?_add
  value?_sub := PackedQuantity.value?_sub
  value?_mul := PackedQuantity.value?_mul
  value?_div := PackedQuantity.value?_div
  neg_neg := PackedQuantity.neg_neg
  sub_self := PackedQuantity.sub_self

end LocalGrid
