import LocalGrid.Proofs.Binary.Ladder

/-!
# Conversions between the precisions

`Binary.nearest` computes the rounding of a format in natural numbers, and a pattern is decoded to
the value that it is unpacked to. So widening keeps a value, narrowing rounds it once, and the order
in which a series is sorted is the order of the values.
-/

open Float.Model (Format UnpackedFloat)
open Float.Model.UnpackedFloat

namespace LocalGrid.Binary

variable (f : Binary) (S : Format)

/-! ## Rounding -/

def ofFormat (S : Format) : Binary := ⟨S.mantissaBits, S.exponentBits⟩

theorem binade_ofFormat : (ofFormat S).binade = 2 ^ S.mantissaBitsWithoutImplicit := by
  change 2 ^ (1 + S.mantissaBitsWithoutImplicit - 1) = _
  rw [Nat.add_sub_cancel_left]

theorem two_pow_mantissaBits : 2 ^ S.mantissaBits = 2 * (ofFormat S).binade := by
  rw [binade_ofFormat, Format.mantissaBits, add_comm, pow_succ']

theorem minExponent_ofFormat : (ofFormat S).minExponent = S.minExponent := by
  change 3 - ((2 ^ (S.exponentBits - 1) : ℕ) : ℤ) - S.mantissaBits = _
  push_cast
  rfl

theorem ladder_infinityBits (hS : 1 < S.exponentBits) :
    (ofFormat S).ladder (ofFormat S).infinityBits = Rounding.limit S := by
  have hpow : twoPow S.exponentBits = 2 * S.exponentBias + 2 := Rounding.two_pow_exponentBits S
  have hbias := Rounding.one_le_exponentBias S hS
  have hbits : (ofFormat S).infinityBits =
      2 * S.exponentBias * (ofFormat S).binade + (ofFormat S).binade := by
    change (twoPow S.exponentBits - 1) * _ = _
    rw [hpow]
    exact Nat.succ_mul _ _
  rw [hbits, (ofFormat S).ladder_add (by omega) (Or.inr le_rfl), binade_ofFormat,
    minExponent_ofFormat, Rounding.limit_eq, Nat.cast_pow, Nat.cast_two, ← zpow_natCast,
    ← zpow_add₀ two_ne_zero]
  congr 1
  rw [Rounding.minExponent_eq, Rounding.maxExponent_eq, Rounding.coe_mantissaBits]
  push_cast
  ring

/-- A pattern of the ladder, or infinity if it is beyond the range. -/
theorem value?_decode_min (hS : 1 < S.exponentBits) (k : ℕ) :
    ((ofFormat S).decode (min k (ofFormat S).infinityBits)).value? =
      some (Rounding.fit S ((ofFormat S).ladder k)) := by
  have hlimit := ladder_infinityBits S hS
  rcases lt_or_ge k (ofFormat S).infinityBits with hlt | hge
  · have hladder := (ofFormat S).ladder_strictMono hlt
    rw [hlimit] at hladder
    rw [min_eq_left hlt.le, (ofFormat S).value?_decode_of_lt hlt, Rounding.fit_of_abs_lt]
    rwa [abs_of_nonneg ((ofFormat S).ladder_nonneg k)]
  · have hladder := (ofFormat S).ladder_strictMono.monotone hge
    rw [hlimit] at hladder
    rw [min_eq_right hge, value?_decode_infinityBits, Rounding.fit, if_pos hladder]

theorem mantissa_eq {n d : ℕ} (hd : 0 < d) (q : ℤ) :
    (roundDiv .even (n * twoPow (-q).toNat) (d * twoPow q.toNat) : ℤ) =
      Rounding.nearestInt (n / d / 2 ^ q) := by
  rw [Rounding.roundDiv_even_eq (Nat.mul_pos hd (twoPow_pos _)), two_zpow_eq q]
  congr 1
  push_cast
  rw [div_div_eq_mul_div, div_mul_eq_mul_div, div_div]

theorem gridExponent_eq {n d : ℕ} (hn : 0 < n) (hd : 0 < d) :
    max (log2Quotient n d - ((ofFormat S).precision - 1)) (ofFormat S).minExponent =
      Rounding.gridExponent S (n / d) := by
  have hpos : (0 : ℝ) < n / d := div_pos (by exact_mod_cast hn) (by exact_mod_cast hd)
  rw [log2Quotient_eq hn hd, Rounding.gridExponent, abs_of_pos hpos, minExponent_ofFormat,
    sub_sub_eq_add_sub]
  rfl

/-- A rounded mantissa on its grid is a rung of the ladder. -/
theorem nearest_eq {n d : ℕ} (hn : 0 < n) (hd : 0 < d) :
    ∃ k, (ofFormat S).nearest n d = min k (ofFormat S).infinityBits ∧
      (ofFormat S).ladder k = Rounding.nearest S (n / d) := by
  have hpos : (0 : ℝ) < n / d := div_pos (by exact_mod_cast hn) (by exact_mod_cast hd)
  let q := Rounding.gridExponent S (n / d)
  let steps := (q - (ofFormat S).minExponent).toNat
  let mantissa := roundDiv .even (n * twoPow (-q).toNat) (d * twoPow q.toNat)
  have hmin : S.minExponent ≤ q := Rounding.minExponent_le_gridExponent S _
  have hq : (ofFormat S).minExponent + steps = q := by
    simp only [steps, minExponent_ofFormat]
    omega
  have hmantissa : (mantissa : ℤ) = Rounding.nearestInt (n / d / 2 ^ q) := mantissa_eq hd q
  have hle : mantissa ≤ 2 * (ofFormat S).binade := by
    have habs := (abs_le.1 (Rounding.abs_nearestInt_le S (n / d : ℝ))).2
    rw [← hmantissa] at habs
    rw [← two_pow_mantissaBits]
    exact_mod_cast habs
  have hfull : steps = 0 ∨ (ofFormat S).binade ≤ mantissa := by
    rcases hmin.eq_or_lt with heq | hlt
    · left
      simp only [steps, minExponent_ofFormat]
      omega
    · right
      have hfloor := (Rounding.two_pow_le_floor S hpos hlt).trans (Rounding.floor_le_nearestInt _)
      rw [← hmantissa, Format.mantissaBits, Nat.add_sub_cancel_left] at hfloor
      rw [binade_ofFormat]
      exact_mod_cast hfloor
  refine ⟨steps * (ofFormat S).binade + mantissa, ?_, ?_⟩
  · rw [nearest, if_neg hn.ne']
    simp only [gridExponent_eq S hn hd]
    rfl
  · rw [(ofFormat S).ladder_add hle hfull, hq, Rounding.nearest, ← hmantissa]
    rfl

theorem value?_nearest (hS : 1 < S.exponentBits) (n : ℕ) {d : ℕ} (hd : 0 < d) :
    ((ofFormat S).decode ((ofFormat S).nearest n d)).value? =
      some (Rounding.round S ((n / d : ℝ) : EReal)) := by
  rcases Nat.eq_zero_or_pos n with rfl | hn
  · rw [show (ofFormat S).nearest 0 d = min 0 (ofFormat S).infinityBits from rfl,
      value?_decode_min S hS, ladder_zero, Nat.cast_zero, zero_div, Rounding.round_coe,
      Rounding.nearest_zero]
  · obtain ⟨k, hk, hladder⟩ := nearest_eq S hn hd
    rw [hk, value?_decode_min S hS, hladder, Rounding.round_coe]

theorem nearest_le_infinityBits (n d : ℕ) : f.nearest n d ≤ f.infinityBits := by
  unfold nearest
  split_ifs
  · exact Nat.zero_le _
  · exact min_le_right _ _

theorem value?_decode_signed {negative : Bool} {k : ℕ} (hk : k < f.signBit) :
    (f.decode ((if negative then f.signBit else 0) + k)).value? =
      (f.decode k).value?.map fun r => if negative then -r else r := by
  cases negative with
  | true => simp [f.decode_signBit_add hk, Value.value?_neg]
  | false => simp

/-- A number is encoded as the pattern of its rounding. -/
theorem value?_encode (hS : 1 < S.exponentBits) {v : Value} {r : EReal} (hr : v.value? = some r) :
    ((ofFormat S).decode ((ofFormat S).encode v)).value? = some (Rounding.round S r) := by
  have hsign := (ofFormat S).infinityBits_lt_signBit
  cases v with
  | nan => exact absurd hr (by simp [Value.value?])
  | infinite negative =>
      obtain rfl := Option.some.inj hr
      rw [encode, value?_decode_signed _ hsign, value?_decode_infinityBits]
      cases negative <;> rfl
  | finite negative m e =>
      obtain rfl := Option.some.inj hr
      have hquot : ((m * twoPow e.toNat : ℕ) : ℝ) / (twoPow (-e).toNat : ℕ) = m * 2 ^ e := by
        rw [two_zpow_eq e, Nat.cast_mul, mul_div_assoc]
      rw [encode, nearestSigned, value?_decode_signed _
        ((nearest_le_infinityBits _ _ _).trans_lt hsign),
        value?_nearest S hS _ (twoPow_pos _), hquot]
      cases negative with
      | true => simp [← Rounding.round_neg]
      | false => rfl

/-! ## Patterns of a format -/

/-- The extended real that an unpacked value stands for, if it is a number. -/
noncomputable def unpackedValue? : UnpackedFloat → Option EReal
  | .notANumber => none
  | u => some (Rounding.value u)

theorem toNat_packComponents (s : Sign) (e : BitVec S.exponentBits)
    (m : BitVec S.mantissaBitsWithoutImplicit) :
    (packComponents S s e m).toNat =
      (if s == .negative then (ofFormat S).signBit else 0) +
        (e.toNat * (ofFormat S).binade + m.toNat) := by
  have hsign : (ofFormat S).signBit = 2 ^ S.exponentBits * (ofFormat S).binade := rfl
  rw [packComponents, BitVec.toNat_append, BitVec.toNat_append, hsign, binade_ofFormat,
    ← Nat.shiftLeft_add_eq_or_of_lt m.isLt, ← Nat.shiftLeft_add_eq_or_of_lt e.isLt,
    Nat.shiftLeft_eq, Nat.shiftLeft_eq]
  cases s
  · simp [Sign.toBitVec]
    ring
  · simp [Sign.toBitVec]

theorem fields_lt {a b : ℕ} (h : a < b) (m : BitVec S.mantissaBitsWithoutImplicit) :
    a * (ofFormat S).binade + m.toNat < b * (ofFormat S).binade := by
  have hm : m.toNat < (ofFormat S).binade := binade_ofFormat S ▸ m.isLt
  calc a * (ofFormat S).binade + m.toNat < (a + 1) * (ofFormat S).binade := by
        rw [Nat.succ_mul]
        omega
    _ ≤ b * (ofFormat S).binade := Nat.mul_le_mul_right _ h

theorem fields_lt_signBit (e : BitVec S.exponentBits) (m : BitVec S.mantissaBitsWithoutImplicit) :
    e.toNat * (ofFormat S).binade + m.toNat < (ofFormat S).signBit :=
  fields_lt S e.isLt m

theorem fields_lt_infinityBits {e : BitVec S.exponentBits} (he : e ≠ -1#_)
    (m : BitVec S.mantissaBitsWithoutImplicit) :
    e.toNat * (ofFormat S).binade + m.toNat < (ofFormat S).infinityBits := by
  have hlt := e.isLt
  have hne : e.toNat ≠ 2 ^ S.exponentBits - 1 := by
    rw [← Rounding.toNat_neg_one]
    exact fun h => he (BitVec.eq_of_toNat_eq h)
  exact fields_lt S (show e.toNat < 2 ^ S.exponentBits - 1 by omega) m

theorem coe_signed (s : Sign) (x : ℝ) :
    ((Rounding.signed s x : ℝ) : EReal) = if s == .negative then -(x : EReal) else x := by
  cases s <;> rfl

/-- A pattern is decoded as it is unpacked. -/
theorem value?_decode_toNat (b : BitVec S.numBits) :
    ((ofFormat S).decode b.toNat).value? = unpackedValue? (unpack S b) := by
  obtain ⟨s, e, m, rfl⟩ := Rounding.exists_unpack_eq S b
  have hm : m.toNat < (ofFormat S).binade := binade_ofFormat S ▸ m.isLt
  have hlt := fields_lt_signBit S e m
  rw [toNat_packComponents, value?_decode_signed _ hlt, Rounding.unpack_packComponents]
  by_cases hlast : e = -1#_
  · have hbits : e.toNat * (ofFormat S).binade = (ofFormat S).infinityBits := by
      rw [hlast, Rounding.toNat_neg_one]
      rfl
    have hzero : (ofFormat S).infinityBits + m.toNat = (ofFormat S).infinityBits ↔ m = 0#_ := by
      rw [Nat.add_eq_left, ← BitVec.toNat_inj, BitVec.toNat_zero]
    rw [hbits] at hlt ⊢
    rw [(ofFormat S).decode_of_le (Nat.le_add_right _ _) hlt, if_pos hlast]
    by_cases hm0 : m = 0#_
    · rw [if_pos (hzero.2 hm0), if_pos hm0]
      cases s <;> rfl
    · rw [if_neg (mt hzero.1 hm0), if_neg hm0]
      rfl
  · rw [value?_decode_of_lt _ (fields_lt_infinityBits S hlast m), if_neg hlast,
      Option.map_some, ← coe_signed]
    by_cases hfirst : e = 0#_
    · have hladder := @ladder_add (ofFormat S) 0 m.toNat (by omega) (Or.inl rfl)
      rw [hfirst, BitVec.toNat_zero, hladder, if_pos rfl, minExponent_ofFormat, Nat.cast_zero,
        add_zero]
      split_ifs with hm0
      · simp [hm0, unpackedValue?, Rounding.value]
      · rfl
    · obtain ⟨steps, hsteps⟩ := Nat.exists_eq_add_of_le' (BitVec.toNat_pos_of_ne_zero hfirst)
      have hbits : e.toNat * (ofFormat S).binade + m.toNat =
          steps * (ofFormat S).binade + ((ofFormat S).binade + m.toNat) := by
        rw [hsteps]
        ring
      rw [hbits, (ofFormat S).ladder_add (by omega) (Or.inr (Nat.le_add_right _ _)),
        if_neg hfirst, minExponent_ofFormat, binade_ofFormat]
      simp only [unpackedValue?, Rounding.value, hsteps]
      congr 4
      rw [Nat.cast_add, Nat.cast_succ, Nat.cast_zero, zero_add, add_sub_cancel_right, add_comm]

/-! ## Single and double precision -/

theorem value?_ofSingle (x : Float32) : (ofSingle x).value? = PackedQuantity.value? x :=
  value?_decode_toNat .binary32 x.toBits.toBitVec

theorem value?_ofDouble (x : Float) : (ofDouble x).value? = PackedQuantity.value? x :=
  value?_decode_toNat .binary64 x.toBits.toBitVec

theorem unpack_pack_unpack (hS : 1 < S.exponentBits) (b : BitVec S.numBits) :
    unpack S (pack S (unpack S b)) = unpack S b :=
  Rounding.unpack_pack S hS (Rounding.isCanonical_unpack S b) (Rounding.isInRange_unpack S hS b)

/-- A pattern is read as it is decoded; only the patterns of a `NaN` are changed. -/
theorem value?_singleOfBits {k : ℕ} (hk : k < 2 ^ 32) :
    PackedQuantity.value? (singleOfBits k) = (single.decode k).value? := by
  have hbits : (UInt32.ofNat k).toBitVec.toNat = k := Nat.mod_eq_of_lt hk
  have hunpack := unpack_pack_unpack .binary32 (by decide) (UInt32.ofNat k).toBitVec
  have hdecode := value?_decode_toNat .binary32 (UInt32.ofNat k).toBitVec
  rw [← hunpack, hbits] at hdecode
  exact hdecode.symm

theorem value?_doubleOfBits {k : ℕ} (hk : k < 2 ^ 64) :
    PackedQuantity.value? (doubleOfBits k) = (double.decode k).value? := by
  have hbits : (UInt64.ofNat k).toBitVec.toNat = k := Nat.mod_eq_of_lt hk
  have hunpack := unpack_pack_unpack .binary64 (by decide) (UInt64.ofNat k).toBitVec
  have hdecode := value?_decode_toNat .binary64 (UInt64.ofNat k).toBitVec
  rw [← hunpack, hbits] at hdecode
  exact hdecode.symm

theorem signed_lt {negative : Bool} {k : ℕ} (hk : k < f.signBit) :
    (if negative then f.signBit else 0) + k < 2 * f.signBit := by
  split_ifs <;> omega

theorem encode_lt (v : Value) : f.encode v < 2 * f.signBit := by
  have hsign := f.infinityBits_lt_signBit
  cases v with
  | nan =>
      have hhalf := Nat.div_lt_self f.binade_pos one_lt_two
      have hadd := f.infinityBits_add_binade
      change f.infinityBits + f.binade / 2 < _
      omega
  | infinite negative => exact f.signed_lt hsign
  | finite negative m e => exact f.signed_lt ((f.nearest_le_infinityBits _ _).trans_lt hsign)

/-- A number is narrowed to the nearest one of single precision. -/
theorem value?_narrow {x : Float} {r : EReal} (hr : RoundedQuantity.value? x = some r) :
    RoundedQuantity.value? (narrow x) = some (RoundedQuantity.round Float32 r) := by
  have hvalue : (ofDouble x).value? = some r := (value?_ofDouble x).trans hr
  have hbits : 2 * single.signBit = 2 ^ 32 := by decide
  exact (value?_singleOfBits (hbits ▸ single.encode_lt _)).trans
    (value?_encode .binary32 (by decide) hvalue)

/-- A number of single precision is one of double precision. -/
theorem round_double_of_single {x : Float32} {r : EReal}
    (hr : RoundedQuantity.value? x = some r) : RoundedQuantity.round Float r = r := by
  induction r with
  | bot => rfl
  | top => rfl
  | coe r =>
      obtain ⟨m, e, hm, he, hme⟩ := PackedQuantity.isPoint_of_value? hr
      have hpoint : Rounding.IsPoint .binary64 r :=
        ⟨m, e, hm.trans_le (by decide), le_trans (by decide) he, hme⟩
      have hlimit : |r| < Rounding.limit .binary64 := by
        have hfit := PackedQuantity.round_value hr
        rw [Rounding.round_coe, Rounding.nearest_of_isPoint _
          (PackedQuantity.isPoint_of_value? hr)] at hfit
        exact (Rounding.abs_lt_limit hfit).trans_le (pow_le_pow_right₀ one_le_two (by decide))
      exact (congrArg (Rounding.fit .binary64) (Rounding.nearest_of_isPoint _ hpoint)).trans
        (Rounding.fit_of_abs_lt _ hlimit)

/-- Widening keeps the value. -/
theorem value?_widen {x : Float32} {r : EReal} (hr : RoundedQuantity.value? x = some r) :
    RoundedQuantity.value? (widen x) = some r := by
  have hvalue : (ofSingle x).value? = some r := (value?_ofSingle x).trans hr
  have hbits : 2 * double.signBit = 2 ^ 64 := by decide
  refine (value?_doubleOfBits (hbits ▸ double.encode_lt _)).trans
    ((value?_encode .binary64 (by decide) hvalue).trans ?_)
  exact congrArg some (round_double_of_single hr)

/-! ## The order of the patterns -/

theorem of_signBit_le {k : ℕ} {r : EReal} (hle : f.signBit ≤ k) (hlt : k < 2 * f.signBit)
    (hr : (f.decode k).value? = some r) :
    ∃ t, (f.decode (k - f.signBit)).value? = some t ∧ r = -t := by
  have hk : k - f.signBit < f.signBit := by omega
  rw [← Nat.add_sub_of_le hle, f.decode_signBit_add hk, Value.value?_neg,
    Option.map_eq_some_iff] at hr
  obtain ⟨t, ht, rfl⟩ := hr
  exact ⟨t, ht, rfl⟩

/-- Among numbers the order of a sorted series is that of the values. -/
theorem single_le_of_sortsBefore {x y : Float32} (hx : Quantity.IsNumber x)
    (hy : Quantity.IsNumber y) (h : Quantity.sortsBefore x y = true) : x ≤ y := by
  have hsign : single.signBit = 0x80000000 := by decide
  have hxlt := x.toBits.toNat_lt
  have hylt := y.toBits.toNat_lt
  obtain ⟨r, hr⟩ := RoundedQuantity.isNumber_iff.1 hx
  obtain ⟨s, hs⟩ := RoundedQuantity.isNumber_iff.1 hy
  rw [RoundedQuantity.le_iff_of_value hr hs]
  have hr' : (single.decode x.toBits.toNat).value? = some r := (value?_ofSingle x).trans hr
  have hs' : (single.decode y.toBits.toNat).value? = some s := (value?_ofSingle y).trans hs
  have hrank : singleRank x ≤ singleRank y := of_decide_eq_true h
  simp only [singleRank] at hrank
  by_cases hxpos : x.toBits.toNat < 0x80000000
  · rw [if_pos hxpos] at hrank
    by_cases hypos : y.toBits.toNat < 0x80000000
    · rw [if_pos hypos] at hrank
      exact single.value?_decode_mono (by exact_mod_cast hrank) (by omega) hr' hs'
    · rw [if_neg hypos] at hrank
      omega
  · rw [if_neg hxpos] at hrank
    obtain ⟨t, ht, rfl⟩ := single.of_signBit_le (by omega) (by omega) hr'
    have hnonneg := single.value?_decode_nonneg (by omega) ht
    by_cases hypos : y.toBits.toNat < 0x80000000
    · exact (EReal.neg_le_zero.2 hnonneg).trans
        (single.value?_decode_nonneg (by omega) hs')
    · rw [if_neg hypos] at hrank
      obtain ⟨u, hu, rfl⟩ := single.of_signBit_le (by omega) (by omega) hs'
      exact EReal.neg_le_neg_iff.2 (single.value?_decode_mono (by omega) (by omega) hu ht)

end LocalGrid.Binary
