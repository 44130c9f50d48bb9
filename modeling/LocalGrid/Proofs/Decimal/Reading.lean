import LocalGrid.Decimal.Layout
import LocalGrid.Decimal.Reading
import LocalGrid.Proofs.Binary.Patterns

/-!
# Reading what was written

The digits of a number are read to the number, and the digits of a number with places to its units
and a negative exponent. Within the range of the formats a numeral is rounded as the fraction that
it stands for.
-/

namespace LocalGrid.Decimal

/-! ## Digits -/

def IsDigits (cs : List Char) : Prop := ∀ c ∈ cs, c.isDigit = true

theorem isDigits_digits (n : ℕ) : IsDigits (digits n) := fun _ hc =>
  Nat.isDigit_of_mem_toDigits (by decide) le_rfl hc

theorem isDigits_zeros_append (k n : ℕ) : IsDigits (List.replicate k '0' ++ digits n) := by
  intro c hc
  rcases List.mem_append.1 hc with hzero | hdigit
  · rw [List.eq_of_mem_replicate hzero]
    rfl
  · exact isDigits_digits n c hdigit

theorem digits_ne_nil (n : ℕ) : digits n ≠ [] := by
  rw [← List.length_pos_iff]
  exact Nat.length_toDigits_pos

theorem valueOf_digits (n : ℕ) : valueOf (digits n) = n :=
  Nat.ofDigitChars_toDigits (by decide) le_rfl

theorem valueOf_zeros_append (k : ℕ) (cs : List Char) :
    valueOf (List.replicate k '0' ++ cs) = valueOf cs := by
  induction k with
  | zero => rfl
  | succ k ih => rwa [List.replicate_succ, List.cons_append, valueOf, List.foldl_cons]

section

variable {whole fraction : List Char}

theorem takeDigits_append {c : Char} (h : IsDigits whole) (hc : c.isDigit = false)
    (rest : List Char) : takeDigits (whole ++ c :: rest) = (whole, c :: rest) := by
  rw [takeDigits, List.takeWhile_append_of_pos h, List.dropWhile_append_of_pos h]
  simp [hc]

theorem takeDigits_self (h : IsDigits whole) : takeDigits whole = (whole, []) := by
  rw [takeDigits, List.takeWhile_eq_self_iff.2 h, List.dropWhile_eq_nil_iff.2 h]

theorem readUnsigned?_digits (negative : Bool) (h : IsDigits whole) (hne : whole ≠ []) :
    readUnsigned? negative whole = some ⟨negative, valueOf whole, 0⟩ := by
  simp [readUnsigned?, takeDigits_self h, hne, readExponent?]

theorem readUnsigned?_point (negative : Bool) (h : IsDigits whole) (hne : whole ≠ [])
    (hfraction : IsDigits fraction) :
    readUnsigned? negative (whole ++ '.' :: fraction) =
      some ⟨negative, valueOf (whole ++ fraction), -fraction.length⟩ := by
  simp [readUnsigned?, takeDigits_append h, takeDigits_self hfraction, hne, readExponent?]

end

/-! ## Texts -/

theorem read_of_digits {text : String} {negative : Bool} {whole rest : List Char} {n : Numeral}
    (htext : text.toList = (sign negative).toList ++ (whole ++ rest)) (hdigits : IsDigits whole)
    (hne : whole ≠ []) (h : readUnsigned? negative (whole ++ rest) = some n) :
    read text = .ok (.number n) := by
  obtain ⟨c, whole, rfl⟩ := List.exists_cons_of_ne_nil hne
  have hc : c.isDigit = true := hdigits c List.mem_cons_self
  cases negative with
  | true =>
      have hchars : text.toList = '-' :: (c :: whole ++ rest) := htext
      simp only [read, hchars, h]
      rfl
  | false =>
      have hchars : text.toList = c :: (whole ++ rest) := htext
      rw [List.cons_append] at h
      have hminus : c ≠ '-' := by
        rintro rfl
        exact absurd hc (by decide)
      have hplus : c ≠ '+' := by
        rintro rfl
        exact absurd hc (by decide)
      simp [read, hchars, hminus, hplus, h]

theorem read_repr (n : ℕ) : read (Nat.repr n) = .ok (.number ⟨false, n, 0⟩) := by
  have htext : (Nat.repr n).toList = (sign false).toList ++ (digits n ++ []) := by
    rw [List.append_nil]
    exact Nat.toList_repr
  refine read_of_digits htext (isDigits_digits n) (digits_ne_nil n) ?_
  rw [List.append_nil, readUnsigned?_digits false (isDigits_digits n) (digits_ne_nil n),
    valueOf_digits]

/-- All digits of some units, with a zero at least before the point. -/
def unitsDigits (places units : ℕ) : List Char :=
  List.replicate (places + 1 - (digits units).length) '0' ++ digits units

theorem lt_length_unitsDigits (places units : ℕ) : places < (unitsDigits places units).length := by
  rw [unitsDigits, List.length_append, List.length_replicate]
  omega

def unitsWhole (places units : ℕ) : List Char :=
  (unitsDigits places units).take ((unitsDigits places units).length - places)

def unitsFraction (places units : ℕ) : List Char :=
  (unitsDigits places units).drop ((unitsDigits places units).length - places)

theorem toList_unitsText {places : ℕ} (hplaces : places ≠ 0) (units : ℕ) :
    (unitsText places units).toList =
      unitsWhole places units ++ '.' :: unitsFraction places units := by
  rw [unitsText, String.toList_ofList, if_neg hplaces]
  rfl

theorem length_unitsFraction (places units : ℕ) :
    (unitsFraction places units).length = places := by
  have h := lt_length_unitsDigits places units
  rw [unitsFraction, List.length_drop]
  omega

theorem unitsWhole_ne_nil (places units : ℕ) : unitsWhole places units ≠ [] := by
  have h := lt_length_unitsDigits places units
  rw [← List.length_pos_iff, unitsWhole, List.length_take]
  omega

theorem isDigits_unitsWhole (places units : ℕ) : IsDigits (unitsWhole places units) :=
  fun c hc => isDigits_zeros_append _ units c (List.mem_of_mem_take hc)

theorem isDigits_unitsFraction (places units : ℕ) : IsDigits (unitsFraction places units) :=
  fun c hc => isDigits_zeros_append _ units c (List.mem_of_mem_drop hc)

/-- A number of units with their places is read as these units. -/
theorem read_unitsText (negative : Bool) {places : ℕ} (hplaces : places ≠ 0) (units : ℕ) :
    read (sign negative ++ unitsText places units) =
      .ok (.number ⟨negative, units, -places⟩) := by
  have hdigits := isDigits_unitsWhole places units
  have hne := unitsWhole_ne_nil places units
  have hvalue : valueOf (unitsWhole places units ++ unitsFraction places units) = units := by
    rw [unitsWhole, unitsFraction, List.take_append_drop, unitsDigits, valueOf_zeros_append,
      valueOf_digits]
  have htext : (sign negative ++ unitsText places units).toList = (sign negative).toList ++
      (unitsWhole places units ++ '.' :: unitsFraction places units) := by
    rw [String.toList_append, toList_unitsText hplaces]
  refine read_of_digits htext hdigits hne ?_
  rw [readUnsigned?_point negative hdigits hne (isDigits_unitsFraction places units), hvalue,
    length_unitsFraction]

/-! ## Numerals -/

variable {k places : ℕ}

theorem nearest_zero (f : Binary) (d : ℕ) : f.nearest 0 d = 0 := if_pos rfl

/-- A numeral of up to a thousand digits is rounded as a fraction. -/
theorem Numeral.nearest_of_length_le (f : Binary) (negative : Bool)
    (hlength : (digits k).length ≤ 1000) (hplaces : places < 1000) :
    (⟨negative, k, -places⟩ : Numeral).nearest f =
      f.nearestSigned negative k (tenPow places) := by
  rw [digits] at hlength
  have hlow : ¬ ((-places : ℤ) + (Nat.toDigits 10 k).length < -1000) := by omega
  have hhigh : ¬ (1000 < (-places : ℤ) + (Nat.toDigits 10 k).length) := by omega
  have hwhole : (-places : ℤ).toNat = 0 := by omega
  simp only [nearest, hlow, or_false, if_neg hhigh, hwhole, neg_neg, Int.toNat_natCast]
  split_ifs with hzero
  · rw [hzero, Binary.nearestSigned, Binary.nearestSigned, nearest_zero, nearest_zero]
  · rw [show tenPow 0 = 1 from rfl, mul_one]

/-! ## Whole numbers -/

theorem round_natCast_of_le {n : ℕ} (h : 2 ^ 128 ≤ n) :
    Rounding.round .binary32 ((n : ℝ) : EReal) = ⊤ := by
  have hpoint : Rounding.IsPoint .binary32 (2 ^ 128) := ⟨1, 128, by decide, by decide, by norm_num⟩
  have hle : Rounding.limit .binary32 ≤ Rounding.nearest .binary32 n := by
    have hmono := Rounding.nearest_mono .binary32 (by exact_mod_cast h : (2 : ℝ) ^ 128 ≤ n)
    rw [Rounding.nearest_of_isPoint _ hpoint] at hmono
    exact hmono
  rw [Rounding.round_coe, Rounding.fit, if_pos hle]

theorem value?_toSingle_natCast (n : ℕ) :
    PackedQuantity.value? (Reading.number ⟨false, n, 0⟩).toSingle =
      some (Rounding.round .binary32 ((n : ℝ) : EReal)) := by
  rcases le_or_gt (digits n).length 1000 with hle | hgt
  · have hnearest : (⟨false, n, -(0 : ℕ)⟩ : Numeral).nearest Binary.single =
        Binary.single.nearestSigned false n (tenPow 0) :=
      Numeral.nearest_of_length_le Binary.single false hle (by decide)
    have hvalue := Binary.value?_nearest .binary32 (by decide) n one_pos
    have hlt : Binary.single.nearest n 1 < 2 ^ 32 :=
      (Binary.nearest_le_infinityBits Binary.single n 1).trans_lt (by decide)
    rw [Nat.cast_one, div_one] at hvalue
    rw [← hvalue, Reading.toSingle, Reading.nearest]
    have hbits : (⟨false, n, 0⟩ : Numeral).nearest Binary.single = Binary.single.nearest n 1 :=
      hnearest.trans (Nat.zero_add _)
    rw [hbits]
    exact Binary.value?_singleOfBits hlt
  · have hbig : 2 ^ 128 ≤ n := by
      by_contra hlt
      have hsmall : n < 10 ^ 50 := (not_le.1 hlt).trans (by norm_num)
      have hlength := (Nat.length_toDigits_le_iff (by decide) (by decide)).2 hsmall
      rw [digits] at hgt
      omega
    have hnearest : (⟨false, n, 0⟩ : Numeral).nearest Binary.single =
        Binary.single.encode (.infinite false) := by
      rw [digits] at hgt
      have hzero : n ≠ 0 := by
        rintro rfl
        norm_num at hbig
      have hlow : ¬ ((0 : ℤ) + (Nat.toDigits 10 n).length < -1000) := by omega
      have hhigh : (1000 : ℤ) < 0 + (Nat.toDigits 10 n).length := by omega
      simp only [Numeral.nearest, hzero, hlow, or_self, if_false, if_pos hhigh]
    rw [round_natCast_of_le hbig, Reading.toSingle, Reading.nearest, hnearest,
      Binary.value?_singleOfBits (by decide)]
    rfl

/-- The digits of a natural number are read to the number nearest to it. -/
theorem toSingle_natCast (n : ℕ) : (Reading.number ⟨false, n, 0⟩).toSingle = Float32.ofNat n := by
  rcases Nat.eq_zero_or_pos n with rfl | hn
  · decide
  · refine Binary.eq_of_value? (value?_toSingle_natCast n)
      (PackedQuantity.value?_natCast (α := Float32) n) ?_
    have hone : (1 : EReal) ≤ RoundedQuantity.round Float32 ((n : ℝ) : EReal) :=
      RoundedQuantity.le_round RoundedQuantity.value?_one
        (by exact_mod_cast EReal.coe_le_coe_iff.2 (by exact_mod_cast hn : (1 : ℝ) ≤ n))
    exact (zero_lt_one.trans_le hone).ne'

end LocalGrid.Decimal
