import LocalGrid.Export.Run
import LocalGrid.Proofs.Decimal.Reading
import LocalGrid.Proofs.Rounding.Decimal

/-!
# Numbers of tables

A number of single precision that is written with the four places of tables is read back as a number
with the same text. Its sign is kept, also that of a zero, and so are an infinity and the text of a
`NaN`. A finite number from `1024` on is read back as it was.
-/

namespace LocalGrid.Decimal

open Quantity Binary Export

variable {x : Float32} {negative : Bool} {m : ℕ} {e : ℤ}

theorem text_nan : tablePlaces.text .nan = "NaN" := rfl

theorem text_infinite (negative : Bool) :
    tablePlaces.text (.infinite negative) = sign negative ++ "inf" := by
  cases negative <;> rfl

def unitsOf (m : ℕ) (e : ℤ) : ℕ :=
  roundDiv .even (m * twoPow e.toNat * tenPow 4) (twoPow (-e).toNat)

theorem text_finite (negative : Bool) (m : ℕ) (e : ℤ) :
    tablePlaces.text (.finite negative m e) = sign negative ++ unitsText 4 (unitsOf m e) := by
  cases negative <;> rfl

theorem cast_unitsOf (m : ℕ) (e : ℤ) : (unitsOf m e : ℤ) = Rounding.units (m * 2 ^ e) := by
  rw [unitsOf, Rounding.roundDiv_even_eq (twoPow_pos _), Rounding.units, two_zpow_eq e]
  congr 1
  have hten : ((tenPow 4 : ℕ) : ℝ) = 10000 := by norm_num [tenPow]
  push_cast [hten]
  ring

/-! ## Finite numbers -/

theorem value?_of_finite (hx : ofSingle x = .finite negative m e) :
    PackedQuantity.value? (Quantity.abs x) = some (((m : ℝ) * 2 ^ e : ℝ) : EReal) := by
  have hvalue := value?_ofSingle x
  rw [hx] at hvalue
  have hnonneg : (0 : EReal) ≤ ((m : ℝ) * 2 ^ e : ℝ) := EReal.coe_nonneg.2 (by positivity)
  rw [PackedQuantity.value?_abs, ← hvalue]
  cases negative with
  | true =>
      simp only [Value.value?, if_true, Option.map_some, neg_neg]
      rw [max_eq_right (EReal.neg_le_zero.2 hnonneg |>.trans hnonneg)]
  | false =>
      simp only [Value.value?, Bool.false_eq_true, if_false, Option.map_some]
      rw [max_eq_left (EReal.neg_le_zero.2 hnonneg |>.trans hnonneg)]

theorem isPoint_of_finite (hx : ofSingle x = .finite negative m e) :
    Rounding.IsPoint .binary32 ((m : ℝ) * 2 ^ e) :=
  PackedQuantity.isPoint_of_value? (value?_of_finite hx)

theorem lt_limit_of_finite (hx : ofSingle x = .finite negative m e) :
    (m : ℝ) * 2 ^ e < Rounding.limit .binary32 := by
  obtain ⟨k, hk, -, hladder⟩ := single.exists_of_decode_finite (bits_lt x) hx
  rw [hladder, ← ladder_infinityBits .binary32 (by decide)]
  exact (ofFormat .binary32).ladder_strictMono hk

/-- What is read back for a finite value stays within the range. -/
theorem ofUnits_lt_limit (hx : ofSingle x = .finite negative m e) :
    Rounding.ofUnits (Rounding.units ((m : ℝ) * 2 ^ e)) < Rounding.limit .binary32 := by
  rcases lt_or_ge ((m : ℝ) * 2 ^ e) 1024 with hlt | hge
  · refine (Rounding.ofUnits_units_le hlt.le).trans_lt ?_
    norm_num [Rounding.limit]
  · rw [Rounding.ofUnits_units_of_le (isPoint_of_finite hx) hge]
    exact lt_limit_of_finite hx

theorem length_digits_unitsOf (hx : ofSingle x = .finite negative m e) :
    (digits (unitsOf m e)).length ≤ 1000 := by
  have hle : Rounding.units ((m : ℝ) * 2 ^ e) ≤ 2 ^ 128 * 10000 := by
    apply Rounding.units_le
    push_cast
    exact (lt_limit_of_finite hx).le.trans_eq (by norm_num [Rounding.limit])
  rw [← cast_unitsOf] at hle
  have hlt : unitsOf m e < 10 ^ 50 := by
    have hnat : unitsOf m e ≤ 2 ^ 128 * 10000 := by exact_mod_cast hle
    exact hnat.trans_lt (by norm_num)
  exact ((Nat.length_toDigits_le_iff (by decide) (by decide)).2 hlt).trans (by decide)

/-- The units of a finite number, as they are read. -/
theorem toSingle_units (hx : ofSingle x = .finite negative m e) :
    (Reading.number ⟨negative, unitsOf m e, -(4 : ℕ)⟩).toSingle =
      singleOfBits (single.nearestSigned negative (unitsOf m e) (tenPow 4)) :=
  congrArg singleOfBits
    (Numeral.nearest_of_length_le single negative (length_digits_unitsOf hx) (by decide))

theorem nearest_unitsOf (m : ℕ) (e : ℤ) :
    Rounding.nearest .binary32 ((unitsOf m e : ℕ) / (tenPow 4 : ℕ)) =
      Rounding.ofUnits (Rounding.units ((m : ℝ) * 2 ^ e)) := by
  have hten : ((tenPow 4 : ℕ) : ℝ) = 10000 := by norm_num [tenPow]
  rw [hten, Rounding.ofUnits, ← cast_unitsOf, Int.cast_natCast]

theorem value?_1024 : RoundedQuantity.value? (1024 : Float32) = some ((1024 : ℝ) : EReal) := by
  have hvalue := PackedQuantity.value?_natCast (α := Float32) 1024
  have hpoint : Rounding.round .binary32 ((1024 : ℝ) : EReal) = ((1024 : ℝ) : EReal) := by
    rw [Rounding.round_coe, Rounding.nearest_of_isPoint _ Rounding.isPoint_1024,
      Rounding.fit_of_abs_lt]
    norm_num [Rounding.limit]
  refine hvalue.trans (congrArg some ?_)
  rw [Nat.cast_ofNat]
  exact hpoint

/-! ## Reading -/

/-- A number whose text, when it is read, gives the same text, and the number if it is finite and
not below `1024`. -/
def ReadsBack (x : Float32) : Prop :=
  ∃ reading, read (tablePlaces.single x) = .ok reading ∧
    tablePlaces.single reading.toSingle = tablePlaces.single x ∧
    (isFinite x = true → 1024 ≤ Quantity.abs x → reading.toSingle = x)

theorem readsBack_of_finite (hx : ofSingle x = .finite negative m e) : ReadsBack x := by
  have hread := read_unitsText negative four_ne_zero (unitsOf m e)
  have hnearest := nearest_unitsOf m e
  have hlimit := ofUnits_lt_limit hx
  rw [← hnearest] at hlimit
  obtain ⟨m', e', hy, hvalue⟩ := ofSingle_nearestSigned negative (tenPow_pos 4) hlimit
  have hunits : unitsOf m' e' = unitsOf m e := by
    have hround := Rounding.units_ofUnits_units (isPoint_of_finite hx) (by positivity)
    rw [← hnearest, ← hvalue, ← cast_unitsOf, ← cast_unitsOf] at hround
    exact_mod_cast hround
  refine ⟨.number ⟨negative, unitsOf m e, -(4 : ℕ)⟩, ?_, ?_, ?_⟩
  · rw [Places.single, hx, text_finite]
    exact hread
  · rw [toSingle_units hx, Places.single, Places.single, hy, hx, text_finite, text_finite, hunits]
  · intro _ hle
    have hbig := (RoundedQuantity.le_iff_of_value value?_1024 (value?_of_finite hx)).1 hle
    rw [toSingle_units hx]
    refine singleOfBits_nearestSigned hx (tenPow_pos 4) (hnearest.trans ?_)
    exact Rounding.ofUnits_units_of_le (isPoint_of_finite hx) (EReal.coe_le_coe_iff.1 hbig)

theorem readsBack_of_infinite (hx : ofSingle x = .infinite negative) : ReadsBack x := by
  have htext : tablePlaces.single x = sign negative ++ "inf" := by
    rw [Places.single, hx, text_infinite]
  refine ⟨.infinite negative, ?_, ?_, ?_⟩
  · rw [htext]
    cases negative <;> decide
  · rw [htext]
    cases negative <;> decide +kernel
  · intro hfinite
    obtain ⟨r, hr⟩ := PackedQuantity.isFinite_iff.1 hfinite
    rw [← value?_ofSingle, hx] at hr
    cases negative <;> simp [Value.value?] at hr

theorem readsBack_of_nan (hx : ofSingle x = .nan) : ReadsBack x := by
  have htext : tablePlaces.single x = "NaN" := by rw [Places.single, hx, text_nan]
  refine ⟨.nan, ?_, ?_, ?_⟩
  · rw [htext]
    decide
  · rw [htext]
    decide +kernel
  · intro hfinite
    obtain ⟨r, hr⟩ := PackedQuantity.isFinite_iff.1 hfinite
    rw [← value?_ofSingle, hx] at hr
    simp [Value.value?] at hr

/-- Every number of single precision reads back. -/
theorem readsBack (x : Float32) : ReadsBack x := by
  cases hx : ofSingle x with
  | nan => exact readsBack_of_nan hx
  | infinite negative => exact readsBack_of_infinite hx
  | finite negative m e => exact readsBack_of_finite hx

end LocalGrid.Decimal
