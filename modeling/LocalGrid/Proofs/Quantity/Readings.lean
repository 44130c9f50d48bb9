import LocalGrid.Proofs.Quantity.Packed

/-!
# The readings

Single and double precision are packed quantities, and exact arithmetic is rounded by nothing.
-/

open Float.Model (Format UnpackedFloat)
open Float.Model.UnpackedFloat

namespace LocalGrid

open Quantity

/-! ## Single precision -/

theorem single_unpack_mul (x y : Float32) : (x * y).toModel.unpack =
    unpack .binary32 (pack .binary32 (mul .binary32 x.toModel.unpack y.toModel.unpack)) := rfl

theorem single_unpack_word (n : UInt64) : n.toFloat32.toModel.unpack =
    unpack .binary32 (pack .binary32 (ofNat .binary32 n.toNat)) := rfl

theorem single_unpack_one : (Float32.ofBits 0x3F800000).toModel.unpack =
    .finite .positive 8388608 (-23) (by decide) := rfl

theorem single_natCast_of_lt {n : ℕ} (h : n < 2 ^ 23) :
    (n : Float32) = n.toUInt64.toFloat32 * Float32.ofBits 0x3F800000 := by
  change Float32.ofScientific n false 0 = _
  rw [Float32.ofScientific, dif_pos ⟨h, by decide⟩]
  rfl

theorem single_natCast_of_le {n : ℕ} (h : 2 ^ 23 ≤ n) :
    (n : Float32) = .ofModel (.ofScientific n 0) := by
  change Float32.ofScientific n false 0 = _
  rw [Float32.ofScientific, dif_neg fun hlt => absurd hlt.1 (not_lt.2 h)]
  rfl

/-- A natural number is rounded, whichever way it is converted. -/
theorem single_value_natCast (n : ℕ) :
    Rounding.IsNumber (n : Float32).toModel.unpack ∧
      Rounding.value (n : Float32).toModel.unpack = Rounding.round .binary32 (n : ℝ) := by
  rcases lt_or_ge n (2 ^ 23) with h | h
  · have hn : n.toUInt64.toNat = n := Nat.mod_eq_of_lt (by omega)
    have hone : Rounding.value (Float32.ofBits 0x3F800000).toModel.unpack = 1 := by
      rw [single_unpack_one, Rounding.value, Rounding.signed]
      norm_num
    rw [single_natCast_of_lt h, single_unpack_mul, single_unpack_word, hn]
    exact Rounding.value_mul_one .binary32 (by decide) (Rounding.approximates_ofNat _ n)
      (by rw [single_unpack_one]; simp [Rounding.IsNumber]) (Rounding.isCanonical_unpack _ _) hone
  · rw [single_natCast_of_le h]
    exact Rounding.value_unpack_pack .binary32 (by decide) (Rounding.approximates_ofScientific _ n)

instance : PackedQuantity Float32 where
  format := .binary32
  one_lt_exponentBits := by decide
  unpacked x := x.toModel.unpack
  packed u := .ofModel (.pack u)
  unpacked_packed _ := rfl
  packed_unpacked x := by
    obtain ⟨⟨bits, valid⟩⟩ := x
    simp only [Float32.Model.pack, Float32.Model.unpack,
      pack_unpack_of_valid valid]
  isCanonical_unpacked x := Rounding.isCanonical_unpack _ _
  isInRange_unpacked x := Rounding.isInRange_unpack _ (by decide) _
  le_eq x y := by
    change decide (x.toModel ≤ y.toModel) = true ↔ _
    rw [decide_eq_true_eq]
    rfl
  lt_eq x y := by
    change decide (x.toModel < y.toModel) = true ↔ _
    rw [decide_eq_true_eq]
    rfl
  isFinite_eq _ := rfl
  zero_eq := by decide
  one_eq := rfl
  value_natCast := single_value_natCast
  neg_eq _ := rfl
  abs_eq _ := rfl
  add_eq _ _ := rfl
  sub_eq _ _ := rfl
  mul_eq _ _ := rfl
  div_eq _ _ := rfl

/-! ## Double precision -/

theorem double_unpack_mul (x y : Float) : (x * y).toModel.unpack =
    unpack .binary64 (pack .binary64 (mul .binary64 x.toModel.unpack y.toModel.unpack)) := rfl

theorem double_unpack_word (n : UInt64) : n.toFloat.toModel.unpack =
    unpack .binary64 (pack .binary64 (ofNat .binary64 n.toNat)) := rfl

theorem double_unpack_one : (Float.ofBits 0x3FF0000000000000).toModel.unpack =
    .finite .positive 4503599627370496 (-52) (by decide) := rfl

theorem double_natCast_of_lt {n : ℕ} (h : n < 2 ^ 53) :
    (n : Float) = n.toUInt64.toFloat * Float.ofBits 0x3FF0000000000000 := by
  change Float.ofScientific n false 0 = _
  rw [Float.ofScientific, dif_pos ⟨h, by decide⟩]
  rfl

theorem double_natCast_of_le {n : ℕ} (h : 2 ^ 53 ≤ n) :
    (n : Float) = .ofModel (.ofScientific n 0) := by
  change Float.ofScientific n false 0 = _
  rw [Float.ofScientific, dif_neg fun hlt => absurd hlt.1 (not_lt.2 h)]
  rfl

/-- A natural number is rounded, whichever way it is converted. -/
theorem double_value_natCast (n : ℕ) :
    Rounding.IsNumber (n : Float).toModel.unpack ∧
      Rounding.value (n : Float).toModel.unpack = Rounding.round .binary64 (n : ℝ) := by
  rcases lt_or_ge n (2 ^ 53) with h | h
  · have hn : n.toUInt64.toNat = n := Nat.mod_eq_of_lt (by omega)
    have hone : Rounding.value (Float.ofBits 0x3FF0000000000000).toModel.unpack = 1 := by
      rw [double_unpack_one, Rounding.value, Rounding.signed]
      norm_num
    rw [double_natCast_of_lt h, double_unpack_mul, double_unpack_word, hn]
    exact Rounding.value_mul_one .binary64 (by decide) (Rounding.approximates_ofNat _ n)
      (by rw [double_unpack_one]; simp [Rounding.IsNumber]) (Rounding.isCanonical_unpack _ _) hone
  · rw [double_natCast_of_le h]
    exact Rounding.value_unpack_pack .binary64 (by decide) (Rounding.approximates_ofScientific _ n)

instance : PackedQuantity Float where
  format := .binary64
  one_lt_exponentBits := by decide
  unpacked x := x.toModel.unpack
  packed u := .ofModel (.pack u)
  unpacked_packed _ := rfl
  packed_unpacked x := by
    obtain ⟨⟨bits, valid⟩⟩ := x
    simp only [Float.Model.pack, Float.Model.unpack,
      pack_unpack_of_valid valid]
  isCanonical_unpacked x := Rounding.isCanonical_unpack _ _
  isInRange_unpacked x := Rounding.isInRange_unpack _ (by decide) _
  le_eq x y := by
    change decide (x.toModel ≤ y.toModel) = true ↔ _
    rw [decide_eq_true_eq]
    rfl
  lt_eq x y := by
    change decide (x.toModel < y.toModel) = true ↔ _
    rw [decide_eq_true_eq]
    rfl
  isFinite_eq _ := rfl
  zero_eq := by decide
  one_eq := rfl
  value_natCast := double_value_natCast
  neg_eq _ := rfl
  abs_eq _ := rfl
  add_eq _ _ := rfl
  sub_eq _ _ := rfl
  mul_eq _ _ := rfl
  div_eq _ _ := rfl

/-! ## Exact arithmetic -/

noncomputable instance : RoundedQuantity Rat where
  value? x := some ((x : ℝ) : EReal)
  round := id
  round_mono := monotone_id
  round_neg _ := rfl
  round_value _ := rfl
  round_sub_pos := by
    intro x y r s hr hs h
    obtain rfl := Option.some.inj hr
    obtain rfl := Option.some.inj hs
    have hlt := EReal.coe_lt_coe_iff.1 h
    rw [id, ← EReal.coe_sub]
    exact EReal.coe_pos.2 (sub_pos.2 hlt)
  le_iff := by
    intro x y
    simp
  lt_iff := by
    intro x y
    simp
  isFinite_iff := by
    intro x
    exact ⟨fun _ => ⟨x, rfl⟩, fun _ => rfl⟩
  value?_zero := congrArg some (congrArg Real.toEReal Rat.cast_zero)
  value?_one := congrArg some (congrArg Real.toEReal Rat.cast_one)
  value?_natCast n := congrArg some (congrArg Real.toEReal (Rat.cast_natCast n))
  value?_neg x := congrArg some (congrArg Real.toEReal (Rat.cast_neg x))
  value?_abs x := by
    have habs : Quantity.abs x = max x (-x) := by
      change (if x < 0 then -x else x) = max x (-x)
      split_ifs with h
      · exact (max_eq_right (by linarith)).symm
      · exact (max_eq_left (by linarith)).symm
    rw [habs, Rat.cast_max, Rat.cast_neg]
    exact congrArg some (EReal.coe_strictMono.monotone.map_max)
  value?_add := by
    intro x y r s hr hs _ _
    obtain rfl := Option.some.inj hr
    obtain rfl := Option.some.inj hs
    exact congrArg some (congrArg Real.toEReal (Rat.cast_add x y))
  value?_sub := by
    intro x y r s hr hs _ _
    obtain rfl := Option.some.inj hr
    obtain rfl := Option.some.inj hs
    exact congrArg some (congrArg Real.toEReal (Rat.cast_sub x y))
  value?_mul := by
    intro x y r s hr hs _ _
    obtain rfl := Option.some.inj hr
    obtain rfl := Option.some.inj hs
    exact congrArg some (congrArg Real.toEReal (Rat.cast_mul x y))
  value?_div := by
    intro x y r s hr hs _
    obtain rfl := EReal.coe_injective (Option.some.inj hr)
    obtain rfl := EReal.coe_injective (Option.some.inj hs)
    exact congrArg some (congrArg Real.toEReal (Rat.cast_div x y))
  neg_neg x := Rat.neg_neg x
  sub_self := by
    intro x _
    exact Rat.sub_self

end LocalGrid
