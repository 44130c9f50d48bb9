import LocalGrid.Proofs.Rounding.Unpacked

/-!
# Packed values

A bit pattern has a sign, an exponent field and a mantissa field. Unpacking a pattern gives a
canonical value in the range of the format, and packing such a value and unpacking it again changes
nothing. A canonical value beyond the range is packed as infinity; `Rounding.fit` is what this does
to the extended real it stands for.
-/

open Float.Model (Format UnpackedFloat)
open Float.Model.UnpackedFloat

namespace LocalGrid.Rounding

variable (S : Format)

def maxExponent : ℤ := 2 ^ (S.exponentBits - 1) - S.mantissaBits

def IsInRange : UnpackedFloat → Prop
  | .finite _ _ e _ => e ≤ maxExponent S
  | _ => True

theorem isInRange_neg {u : UnpackedFloat} : IsInRange S u.neg ↔ IsInRange S u := by
  cases u <;> rfl

theorem isInRange_abs {u : UnpackedFloat} : IsInRange S u.abs ↔ IsInRange S u := by
  cases u <;> rfl

/-! ## Fields -/

theorem exponentBias_add_one : S.exponentBias + 1 = 2 ^ (S.exponentBits - 1) :=
  Nat.sub_add_cancel Nat.one_le_two_pow

theorem two_pow_exponentBits : 2 ^ S.exponentBits = 2 * S.exponentBias + 2 := by
  rw [← Nat.sub_add_cancel S.he, pow_succ, ← exponentBias_add_one]
  ring

theorem one_le_exponentBias (hS : 1 < S.exponentBits) : 1 ≤ S.exponentBias := by
  have hlt := Nat.lt_pow_self (n := S.exponentBits - 1) one_lt_two
  have hadd := exponentBias_add_one S
  omega

theorem coe_mantissaBits : (S.mantissaBits : ℤ) = S.mantissaBitsWithoutImplicit + 1 := by
  rw [Format.mantissaBits, Nat.cast_add, Nat.cast_one, add_comm]

theorem minExponent_eq : S.minExponent = 2 - S.exponentBias - S.mantissaBits := by
  have hpow : ((S.exponentBias : ℤ) + 1) = 2 ^ (S.exponentBits - 1) := by
    exact_mod_cast exponentBias_add_one S
  rw [Format.minExponent, ← hpow]
  ring

theorem maxExponent_eq : maxExponent S = S.exponentBias + 1 - S.mantissaBits := by
  have hpow : ((S.exponentBias : ℤ) + 1) = 2 ^ (S.exponentBits - 1) := by
    exact_mod_cast exponentBias_add_one S
  rw [maxExponent, ← hpow]

theorem toNat_one_append {n : ℕ} (m : BitVec n) : (1#1 ++ m).toNat = 2 ^ n + m.toNat := by
  rw [BitVec.toNat_append, ← Nat.shiftLeft_add_eq_or_of_lt m.isLt]
  simp [Nat.shiftLeft_eq]

theorem toNat_neg_one (n : ℕ) : (-1#n).toNat = 2 ^ n - 1 := by
  rw [BitVec.neg_one_eq_allOnes, BitVec.toNat_allOnes]

theorem zero_ne_neg_one : 0#S.exponentBits ≠ -1#_ := by
  intro h
  have hpos : 1 < 2 ^ S.exponentBits := Nat.one_lt_two_pow (Nat.pos_iff_ne_zero.1 S.he)
  have hzero := congrArg BitVec.toNat h
  rw [toNat_neg_one, BitVec.toNat_zero] at hzero
  omega

/-- The value of a pattern, read off its fields. -/
theorem unpack_packComponents (s : Sign) (e : BitVec S.exponentBits)
    (m : BitVec S.mantissaBitsWithoutImplicit) :
    unpack S (packComponents S s e m) =
      if e = -1#_ then if m = 0#_ then .infinity s else .notANumber
      else if e = 0#_ then
        if h : m = 0#_ then .zero s
        else .finite s m.toNat S.minExponent (BitVec.toNat_pos_of_ne_zero h)
      else .finite s (2 ^ S.mantissaBitsWithoutImplicit + m.toNat)
        (e.toNat - 1 + S.minExponent) (by positivity) := by
  have hbits := coe_mantissaBits S
  have hmin := minExponent_eq S
  simp only [unpack, unpackMantissa_packComponents, unpackExponent_packComponents,
    unpackSign_packComponents, Sign.ofBitVec_toBitVec, toNat_one_append]
  split_ifs with h1 h2 h3 h4
  · rfl
  · rfl
  · rfl
  · congr 1
    rw [h3, BitVec.toNat_zero]
    omega
  · congr 1
    omega

/-- A property of all values of fields is one of all unpacked patterns. -/
theorem exists_unpack_eq (b : BitVec S.numBits) :
    ∃ s e m, b = packComponents S s e m :=
  ⟨_, _, _, (packComponents_unpackSign_unpackExponent_unpackMantissa b).symm⟩

theorem isCanonical_unpack (b : BitVec S.numBits) : IsCanonical S (unpack S b) := by
  obtain ⟨s, e, m, rfl⟩ := exists_unpack_eq S b
  have hm := m.isLt
  have hfull : 2 ^ S.mantissaBits = 2 * 2 ^ S.mantissaBitsWithoutImplicit := by
    rw [Format.mantissaBits, add_comm, pow_succ']
  rw [unpack_packComponents]
  split_ifs with h1 h2 h3 h4
  · trivial
  · trivial
  · trivial
  · exact ⟨by omega, le_rfl, Or.inr rfl⟩
  · have hpos := BitVec.toNat_pos_of_ne_zero h3
    exact ⟨by omega, by omega, Or.inl (by omega)⟩

theorem isInRange_unpack (hS : 1 < S.exponentBits) (b : BitVec S.numBits) :
    IsInRange S (unpack S b) := by
  obtain ⟨s, e, m, rfl⟩ := exists_unpack_eq S b
  have hbias := one_le_exponentBias S hS
  have hmin := minExponent_eq S
  have hmax := maxExponent_eq S
  rw [unpack_packComponents]
  split_ifs with h1 h2 h3 h4
  · trivial
  · trivial
  · trivial
  · change S.minExponent ≤ maxExponent S
    omega
  · have hne : e.toNat ≠ 2 ^ S.exponentBits - 1 := by
      rw [← toNat_neg_one]
      exact fun h => h1 (BitVec.eq_of_toNat_eq h)
    have hlt := e.isLt
    have hpow := two_pow_exponentBits S
    change (e.toNat : ℤ) - 1 + S.minExponent ≤ maxExponent S
    omega

/-! ## Packing -/

theorem pack_of_maxExponent_lt {s : Sign} {m : ℕ} {e : ℤ} {hm : 0 < m}
    (he : maxExponent S < e) : pack S (.finite s m e hm) = packedInfinity S s := by
  have hmax := maxExponent_eq S
  have hbits := coe_mantissaBits S
  have hpow := two_pow_exponentBits S
  rw [pack, if_pos (by omega)]

/-- A full mantissa is packed without its first bit. -/
theorem pack_of_full {s : Sign} {m : ℕ} {e : ℤ} {hm : 0 < m}
    (hlt : m < 2 ^ S.mantissaBits) (hfull : 2 ^ S.mantissaBitsWithoutImplicit ≤ m)
    (hemin : S.minExponent ≤ e) (hemax : e ≤ maxExponent S) :
    pack S (.finite s m e hm) =
      packComponents S s (BitVec.ofNat _ (e + 1 - S.minExponent).toNat) (BitVec.ofNat _ m) := by
  have hmin := minExponent_eq S
  have hmax := maxExponent_eq S
  have hbits := coe_mantissaBits S
  have hpow := two_pow_exponentBits S
  have hfield : e + S.exponentBias + S.mantissaBitsWithoutImplicit = e + 1 - S.minExponent := by
    omega
  have hlog : m.log2 + 1 = S.mantissaBits := by
    have h1 := (Nat.le_log2 hm.ne').2 hfull
    have h2 := (Nat.log2_lt hm.ne').2 hlt
    omega
  rw [pack, hfield, if_neg (by omega), if_pos hlog]

/-- Other mantissas are packed with an empty exponent field. -/
theorem pack_of_not_full (hS : 1 < S.exponentBits) {s : Sign} {m : ℕ} {hm : 0 < m}
    (hlt : m < 2 ^ S.mantissaBitsWithoutImplicit) :
    pack S (.finite s m S.minExponent hm) = packComponents S s 0#_ (BitVec.ofNat _ m) := by
  have hmin := minExponent_eq S
  have hbits := coe_mantissaBits S
  have hbias := one_le_exponentBias S hS
  have hpow := two_pow_exponentBits S
  have hfield : S.minExponent + S.exponentBias + S.mantissaBitsWithoutImplicit = 1 := by omega
  have hlog : ¬ m.log2 + 1 = S.mantissaBits := by
    have h := (Nat.log2_lt hm.ne').2 hlt
    omega
  rw [pack, hfield, if_neg (by simp only [Int.toNat_one]; omega), if_neg hlog]

theorem unpack_packedInfinity (s : Sign) : unpack S (packedInfinity S s) = .infinity s := by
  rw [packedInfinity, unpack_packComponents, if_pos rfl]
  exact if_pos rfl

/-- A canonical value in range comes back from its pattern. -/
theorem unpack_pack (hS : 1 < S.exponentBits) {u : UnpackedFloat} (hcanon : IsCanonical S u)
    (hrange : IsInRange S u) : unpack S (pack S u) = u := by
  cases u with
  | notANumber => exact unpack_packedNaN
  | infinity s => exact unpack_packedInfinity S s
  | zero s => exact unpack_packedZero
  | finite s m e hm =>
      obtain ⟨hlt, hemin, hfull⟩ := hcanon
      have hbits : 2 ^ S.mantissaBits = 2 * 2 ^ S.mantissaBitsWithoutImplicit := by
        rw [Format.mantissaBits, add_comm, pow_succ']
      by_cases h : 2 ^ S.mantissaBitsWithoutImplicit ≤ m
      · have hemax : e ≤ maxExponent S := hrange
        have hmin := minExponent_eq S
        have hmax := maxExponent_eq S
        have hpow := two_pow_exponentBits S
        have hfield : (BitVec.ofNat S.exponentBits (e + 1 - S.minExponent).toNat).toNat =
            (e + 1 - S.minExponent).toNat := by
          rw [BitVec.toNat_ofNat, Nat.mod_eq_of_lt (by omega)]
        have hmantissa : (BitVec.ofNat S.mantissaBitsWithoutImplicit m).toNat =
            m - 2 ^ S.mantissaBitsWithoutImplicit := by
          rw [BitVec.toNat_ofNat, Nat.mod_eq_sub_mod h, Nat.mod_eq_of_lt (by omega)]
        rw [pack_of_full S hlt h hemin hemax, unpack_packComponents, if_neg, if_neg]
        · congr 1
          · omega
          · omega
        · intro h0
          have := congrArg BitVec.toNat h0
          rw [hfield, BitVec.toNat_zero] at this
          omega
        · intro h1
          have := congrArg BitVec.toNat h1
          rw [hfield, toNat_neg_one] at this
          omega
      · obtain rfl := hfull.resolve_left h
        have hmantissa : (BitVec.ofNat S.mantissaBitsWithoutImplicit m).toNat = m := by
          rw [BitVec.toNat_ofNat, Nat.mod_eq_of_lt (not_le.1 h)]
        rw [pack_of_not_full S hS (not_le.1 h), unpack_packComponents,
          if_neg (zero_ne_neg_one S), if_pos rfl, dif_neg]
        · congr 1
        · intro h0
          have := congrArg BitVec.toNat h0
          rw [hmantissa, BitVec.toNat_zero] at this
          omega

/-! ## Overflow -/

theorem limit_eq : limit S = 2 ^ (maxExponent S + S.mantissaBits) := by
  rw [limit, maxExponent, sub_add_cancel, ← zpow_natCast]
  push_cast
  rfl

/-- The magnitude of a canonical value is below the limit exactly if its exponent is in range. -/
theorem limit_le_iff {s : Sign} {m : ℕ} {e : ℤ} {hm : 0 < m} (hS : 1 < S.exponentBits)
    (h : IsCanonical S (.finite s m e hm)) :
    limit S ≤ m * 2 ^ e ↔ maxExponent S < e := by
  obtain ⟨hlt, hemin, hfull⟩ := h
  have hmin := minExponent_eq S
  have hmax := maxExponent_eq S
  have hbits := coe_mantissaBits S
  have hbias := one_le_exponentBias S hS
  rw [limit_eq]
  constructor
  · intro hle
    by_contra hemax
    have hbound : (m : ℝ) * 2 ^ e < 2 ^ (maxExponent S + S.mantissaBits) := by
      calc (m : ℝ) * 2 ^ e < 2 ^ S.mantissaBits * 2 ^ e :=
            mul_lt_mul_of_pos_right (by exact_mod_cast hlt) (by positivity)
        _ ≤ 2 ^ (maxExponent S + S.mantissaBits) := by
            rw [← zpow_natCast, ← zpow_add₀ two_ne_zero]
            exact zpow_le_zpow_right₀ one_le_two (by omega)
    exact absurd hle (not_le.2 hbound)
  · intro hemax
    have hm' : 2 ^ S.mantissaBitsWithoutImplicit ≤ m := hfull.resolve_right (by omega)
    calc (2 : ℝ) ^ (maxExponent S + S.mantissaBits)
        ≤ 2 ^ S.mantissaBitsWithoutImplicit * 2 ^ e := by
          rw [← zpow_natCast, ← zpow_add₀ two_ne_zero]
          exact zpow_le_zpow_right₀ one_le_two (by omega)
      _ ≤ m * 2 ^ e := mul_le_mul_of_nonneg_right (by exact_mod_cast hm') (by positivity)

end LocalGrid.Rounding
