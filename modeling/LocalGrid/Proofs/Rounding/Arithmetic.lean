import LocalGrid.Proofs.Rounding.Mantissa
import LocalGrid.Proofs.Rounding.Packed

/-!
# Arithmetic of a format

Sum, difference, product and quotient of canonical numbers are canonical numbers, and after packing
they stand for the rounding of the exact result. The operations on infinities that have no exact
result are excluded by hypothesis.
-/

open Float.Model (Format UnpackedFloat totalExponent)
open Float.Model.UnpackedFloat

namespace LocalGrid.Rounding

variable (S : Format)

/-- The nearest point of an extended real, without a bound on its size. -/
noncomputable def approx : EReal → EReal
  | ⊥ => ⊥
  | ⊤ => ⊤
  | (x : ℝ) => (nearest S x : ℝ)

theorem approx_coe (x : ℝ) : approx S x = (nearest S x : ℝ) := rfl

structure Approximates (u : UnpackedFloat) (x : EReal) : Prop where
  isNumber : IsNumber u
  isCanonical : IsCanonical S u
  value_eq : value u = approx S x

theorem approximates_of_rounds {u : UnpackedFloat} {x : ℝ} (h : Rounds S u x) :
    Approximates S u x :=
  ⟨h.isNumber, h.isCanonical, h.value_eq⟩

theorem approximates_top : Approximates S (.infinity .positive) ⊤ :=
  ⟨by simp [IsNumber], trivial, rfl⟩

theorem approximates_bot : Approximates S (.infinity .negative) ⊥ :=
  ⟨by simp [IsNumber], trivial, rfl⟩

theorem approximates_zero (s : Sign) : Approximates S (.zero s) 0 := by
  refine ⟨by simp [IsNumber], trivial, ?_⟩
  change (0 : EReal) = (nearest S 0 : ℝ)
  simp

/-- A canonical number stands for itself. -/
theorem approximates_value {u : UnpackedFloat} (hn : IsNumber u) (hc : IsCanonical S u) :
    Approximates S u (value u) := by
  refine ⟨hn, hc, ?_⟩
  induction h : value u with
  | bot => rfl
  | top => rfl
  | coe x => exact congrArg _ (nearest_of_isPoint S (isPoint_of_value S hc h)).symm

/-! ## Packing -/

/-- Packing rounds what is too large to infinity and changes nothing else. -/
theorem value_unpack_pack (hS : 1 < S.exponentBits) {u : UnpackedFloat} {x : EReal}
    (h : Approximates S u x) :
    IsNumber (unpack S (pack S u)) ∧ value (unpack S (pack S u)) = round S x := by
  obtain ⟨hn, hc, hvalue⟩ := h
  have hround : ∀ {y : ℝ}, value u = y → round S x = fit S y := by
    intro y hy
    induction x with
    | bot => exact absurd (hy.symm.trans hvalue) (EReal.coe_ne_bot y)
    | top => exact absurd (hy.symm.trans hvalue) (EReal.coe_ne_top y)
    | coe x =>
        rw [hy, approx_coe, EReal.coe_eq_coe_iff] at hvalue
        rw [round_coe, hvalue]
  cases u with
  | notANumber => exact absurd rfl hn
  | infinity s =>
      rw [unpack_pack S hS hc trivial]
      refine ⟨hn, ?_⟩
      induction x with
      | bot => exact hvalue
      | top => exact hvalue
      | coe x =>
          rw [approx_coe] at hvalue
          cases s
          · exact absurd hvalue.symm (EReal.coe_ne_bot _)
          · exact absurd hvalue.symm (EReal.coe_ne_top _)
  | zero s =>
      rw [unpack_pack S hS hc trivial]
      refine ⟨hn, ?_⟩
      rw [hround (y := 0) rfl, fit_of_abs_lt S (by simpa using limit_pos S)]
      rfl
  | finite s m e hm =>
      have hpos := magnitude_pos (e := e) hm
      have hlimit := limit_le_iff S hS hc
      rw [hround rfl]
      rcases le_or_gt e (maxExponent S) with he | he
      · rw [unpack_pack S hS hc he]
        refine ⟨hn, (fit_of_abs_lt S ?_).symm⟩
        have hlt : (m : ℝ) * 2 ^ e < limit S := not_le.1 fun h => absurd (hlimit.1 h) he.not_gt
        cases s
        · rwa [signed, abs_neg, abs_of_pos hpos]
        · rwa [signed, abs_of_pos hpos]
      · have hle := hlimit.2 he
        have hlimpos := limit_pos S
        rw [pack_of_maxExponent_lt S he, unpack_packedInfinity]
        refine ⟨by simp [IsNumber], ?_⟩
        unfold fit
        cases s
        · rw [signed, if_neg (by linarith), if_pos (by linarith)]
          rfl
        · rw [signed, if_pos hle]
          rfl

/-! ## Sum and difference -/

theorem rounds_add_finite {s t : Sign} {m n : ℕ} {e d : ℤ} {hm : 0 < m} {hn : 0 < n} :
    Rounds S (add S (.finite s m e hm) (.finite t n d hn))
      (signed s (m * 2 ^ e) + signed t (n * 2 ^ d)) := by
  obtain ⟨m', hm', hme⟩ := decreaseExponent_eq m e (min e d)
  obtain ⟨n', hn', hnd⟩ := decreaseExponent_eq n d (min e d)
  rw [min_eq_right (min_le_left e d)] at hme
  rw [min_eq_right (min_le_right e d)] at hnd
  have hsum : signed s (m * 2 ^ e) + signed t (n * 2 ^ d) =
      ((s.apply m' + t.apply n' : ℤ) : ℝ) * 2 ^ min e d := by
    rw [← hme, ← hnd]
    push_cast
    rw [signed_apply, signed_apply]
    cases s <;> cases t <;> simp only [signed, Int.cast_natCast] <;> ring
  rw [hsum]
  simp only [add, hm', hn']
  exact rounds_normalize S .positive _ _

/-- A sum is rounded; infinities of opposite signs have none. -/
theorem approximates_add {a b : UnpackedFloat} (hna : IsNumber a) (hnb : IsNumber b)
    (ha : IsCanonical S a) (hb : IsCanonical S b)
    (htop : value a = ⊤ → value b ≠ ⊥) (hbot : value a = ⊥ → value b ≠ ⊤) :
    Approximates S (add S a b) (value a + value b) := by
  cases a with
  | notANumber => exact absurd rfl hna
  | infinity s =>
      cases b with
      | notANumber => exact absurd rfl hnb
      | infinity t =>
          cases s <;> cases t
          · exact approximates_bot S
          · exact absurd rfl (hbot rfl)
          · exact absurd rfl (htop rfl)
          · exact approximates_top S
      | zero t =>
          cases s
          · exact approximates_bot S
          · exact approximates_top S
      | finite t n d hn =>
          cases s
          · exact approximates_bot S
          · exact approximates_top S
  | zero s =>
      cases b with
      | notANumber => exact absurd rfl hnb
      | infinity t =>
          cases t
          · exact approximates_bot S
          · exact approximates_top S
      | zero t =>
          have hzero : value (.zero s) + value (.zero t) = 0 := add_zero 0
          rw [hzero]
          cases s <;> cases t <;> exact approximates_zero S _
      | finite t n d hn =>
          have hzero : value (.zero s) + value (.finite t n d hn) = value (.finite t n d hn) :=
            zero_add _
          rw [hzero]
          exact approximates_value S hnb hb
  | finite s m e hm =>
      cases b with
      | notANumber => exact absurd rfl hnb
      | infinity t =>
          cases t
          · exact approximates_bot S
          · exact approximates_top S
      | zero t =>
          have hzero : value (.finite s m e hm) + value (.zero t) = value (.finite s m e hm) :=
            add_zero _
          rw [hzero]
          exact approximates_value S hna ha
      | finite t n d hn =>
          rw [value, value, ← EReal.coe_add]
          exact approximates_of_rounds S (rounds_add_finite S)

/-- A difference is the sum with the opposite. -/
theorem sub_eq_add_neg (a b : UnpackedFloat) : sub S a b = add S a b.neg := by
  have hsign : ∀ s n, (-s : Sign).apply n = -s.apply n := by
    intro s n
    cases s
    · exact (neg_neg n).symm
    · rfl
  cases a with
  | notANumber => cases b <;> rfl
  | infinity s =>
      cases b with
      | infinity t => cases s <;> cases t <;> rfl
      | _ => rfl
  | zero s =>
      cases b with
      | zero t => cases s <;> cases t <;> rfl
      | _ => rfl
  | finite s m e hm =>
      cases b with
      | finite t n d hn => simp only [sub, add, UnpackedFloat.neg, hsign, Int.sub_eq_add_neg]
      | _ => rfl

theorem approximates_sub {a b : UnpackedFloat} (hna : IsNumber a) (hnb : IsNumber b)
    (ha : IsCanonical S a) (hb : IsCanonical S b)
    (htop : value a = ⊤ → value b ≠ ⊤) (hbot : value a = ⊥ → value b ≠ ⊥) :
    Approximates S (sub S a b) (value a - value b) := by
  rw [sub_eq_add_neg, SubNegMonoid.sub_eq_add_neg, ← value_neg]
  apply approximates_add S hna (isNumber_neg.2 hnb) ha ((isCanonical_neg S).2 hb)
  · rw [value_neg, Ne, EReal.neg_eq_bot_iff]
    exact htop
  · rw [value_neg, Ne, EReal.neg_eq_top_iff]
    exact hbot

/-- A finite number differs from itself by the positive zero. -/
theorem sub_self_eq {a : UnpackedFloat} (h : a.isFinite) : sub S a a = .zero .positive := by
  cases a with
  | notANumber => exact absurd h (by simp [UnpackedFloat.isFinite])
  | infinity s => exact absurd h (by simp [UnpackedFloat.isFinite])
  | zero s => cases s <;> rfl
  | finite s m e hm =>
      simp only [sub, Int.sub_self]
      rfl

/-! ## Product -/

/-- A product of mantissas is never too short for the exponent it has. -/
theorem add_le_gridExponent {s t : Sign} {m n : ℕ} {e d : ℤ} {hm : 0 < m} {hn : 0 < n}
    (ha : IsCanonical S (.finite s m e hm)) (hb : IsCanonical S (.finite t n d hn)) :
    e + d ≤ gridExponent S ((m * n : ℕ) * 2 ^ (e + d)) := by
  have hmin := minExponent_eq S
  have hbits := coe_mantissaBits S
  have himplicit := S.hm
  have hmn := Nat.mul_pos hm hn
  have hfull : 2 ^ S.mantissaBitsWithoutImplicit ≤ m * n →
      e + d ≤ gridExponent S ((m * n : ℕ) * 2 ^ (e + d)) := by
    intro hle
    have hlog : (m * n).log2 + (e + d) = Int.log 2 |((m * n : ℕ) : ℝ) * 2 ^ (e + d)| := by
      rw [abs_of_pos (magnitude_pos hmn)]
      refine (log_eq hmn ?_).symm
      rw [mul_div_cancel_right₀ _ (by positivity), Int.floor_natCast]
    have hlog2 := (Nat.le_log2 hmn.ne').2 hle
    rw [gridExponent, ← hlog]
    omega
  rcases ha.2.2 with h | he
  · exact hfull (h.trans (Nat.le_mul_of_pos_right m hn))
  · rcases hb.2.2 with h | hd
    · exact hfull (h.trans (Nat.le_mul_of_pos_left n hm))
    · have hgrid := minExponent_le_gridExponent S (((m * n : ℕ) : ℝ) * 2 ^ (e + d))
      omega

theorem rounds_mul_finite {s t : Sign} {m n : ℕ} {e d : ℤ} {hm : 0 < m} {hn : 0 < n}
    (ha : IsCanonical S (.finite s m e hm)) (hb : IsCanonical S (.finite t n d hn)) :
    Rounds S (mul S (.finite s m e hm) (.finite t n d hn))
      (signed s (m * 2 ^ e) * signed t (n * 2 ^ d)) := by
  have hprod : (m : ℝ) * 2 ^ e * (n * 2 ^ d) = (m * n : ℕ) * 2 ^ (e + d) := by
    rw [zpow_add₀ two_ne_zero]
    push_cast
    ring
  rw [signed_mul, hprod]
  apply rounds_roundWithAccuracy S (s * t) (magnitude_pos (Nat.mul_pos hm hn))
  · rw [mul_div_cancel_right₀ _ (by positivity)]
    exact covers_exact _
  · exact add_le_gridExponent S ha hb

theorem approximates_infinity_mul {s t : Sign} {x : ℝ} (hx : 0 < x) :
    Approximates S (.infinity (s * t)) (value (.infinity s) * (signed t x : ℝ)) := by
  have hneg : -x < 0 := neg_lt_zero.2 hx
  cases s <;> cases t <;> simp only [signed, value]
  · rw [EReal.bot_mul_coe_of_neg hneg]
    exact approximates_top S
  · rw [EReal.bot_mul_coe_of_pos hx]
    exact approximates_bot S
  · rw [EReal.top_mul_coe_of_neg hneg]
    exact approximates_bot S
  · rw [EReal.top_mul_coe_of_pos hx]
    exact approximates_top S

theorem sign_mul_comm (s t : Sign) : s * t = t * s := by
  cases s <;> cases t <;> rfl

/-- A product is rounded; a zero and an infinity have none. -/
theorem approximates_mul {a b : UnpackedFloat} (hna : IsNumber a) (hnb : IsNumber b)
    (ha : IsCanonical S a) (hb : IsCanonical S b)
    (hzero : value a = 0 → value b ≠ ⊤ ∧ value b ≠ ⊥)
    (hzero' : value b = 0 → value a ≠ ⊤ ∧ value a ≠ ⊥) :
    Approximates S (mul S a b) (value a * value b) := by
  cases a with
  | notANumber => exact absurd rfl hna
  | infinity s =>
      cases b with
      | notANumber => exact absurd rfl hnb
      | infinity t =>
          cases s <;> cases t
          · exact approximates_top S
          · exact approximates_bot S
          · exact approximates_bot S
          · exact approximates_top S
      | zero t =>
          have hfin := hzero' rfl
          cases s
          · exact absurd rfl hfin.2
          · exact absurd rfl hfin.1
      | finite t n d hn => exact approximates_infinity_mul S (magnitude_pos hn)
  | zero s =>
      cases b with
      | notANumber => exact absurd rfl hnb
      | infinity t =>
          have hfin := hzero rfl
          cases t
          · exact absurd rfl hfin.2
          · exact absurd rfl hfin.1
      | _ =>
          simp only [value, zero_mul]
          exact approximates_zero S _
  | finite s m e hm =>
      cases b with
      | notANumber => exact absurd rfl hnb
      | infinity t =>
          rw [EReal.mul_comm, mul, sign_mul_comm]
          exact approximates_infinity_mul S (magnitude_pos hm)
      | zero t =>
          rw [value, value, mul_zero]
          exact approximates_zero S _
      | finite t n d hn =>
          rw [value, value, ← EReal.coe_mul]
          exact approximates_of_rounds S (rounds_mul_finite S ha hb)

/-! ## Quotient -/

theorem covers_accuracyOfFraction {n d : ℕ} (hd : 0 < d) :
    Covers (.ofMantissaAndAccuracy (n / d) (accuracyOfFraction (n % d) d)) (n / d : ℝ) := by
  have hmod : (n : ℝ) / d = (n / d : ℕ) + (n % d : ℕ) / d := by
    have hdiv : (n : ℝ) = d * (n / d : ℕ) + (n % d : ℕ) := by
      exact_mod_cast (Nat.div_add_mod n d).symm
    rw [hdiv, add_div, mul_div_cancel_left₀ _ (by positivity)]
  have hd' : (0 : ℝ) < d := by exact_mod_cast hd
  have hlt : ((n % d : ℕ) : ℝ) / d < 1 := by
    rw [div_lt_one hd']
    exact_mod_cast Nat.mod_lt n hd
  rw [hmod]
  generalize n / d = q at *
  generalize n % d = r at *
  unfold accuracyOfFraction
  split_ifs with hr
  · simpa [hr] using covers_exact q
  · have hpos : (0 : ℝ) < r / d := div_pos (by exact_mod_cast Nat.pos_of_ne_zero hr) hd'
    rcases lt_trichotomy (2 * r) d with h | h | h
    · have hhalf : (r : ℝ) / d < 1 / 2 := by
        rw [div_lt_div_iff₀ hd' two_pos]
        exact_mod_cast (by omega : r * 2 < 1 * d)
      rw [compare_lt_iff_lt.2 h]
      simp [Covers, halves, ExtendedMantissa.ofMantissaAndAccuracy]
      constructor <;> linarith
    · have hhalf : (r : ℝ) / d = 1 / 2 := by
        rw [div_eq_div_iff hd'.ne' two_ne_zero]
        exact_mod_cast (by omega : r * 2 = 1 * d)
      rw [compare_eq_iff_eq.2 h, hhalf]
      simp [Covers, halves, ExtendedMantissa.ofMantissaAndAccuracy]
      ring
    · have hhalf : 1 / 2 < (r : ℝ) / d := by
        rw [div_lt_div_iff₀ two_pos hd']
        exact_mod_cast (by omega : 1 * d < r * 2)
      rw [compare_gt_iff_gt.2 h]
      simp [Covers, halves, ExtendedMantissa.ofMantissaAndAccuracy]
      constructor <;> linarith

/-- The exponent chosen for a quotient leaves enough digits. -/
theorem targetExponent_le_gridExponent {m n : ℕ} {e d : ℤ} (hm : 0 < m) (hn : 0 < n) :
    S.targetExponent (totalExponent m e - totalExponent n d) ≤
      gridExponent S (m * 2 ^ e / (n * 2 ^ d)) := by
  have hx : (0 : ℝ) < m * 2 ^ e / (n * 2 ^ d) := div_pos (magnitude_pos hm) (magnitude_pos hn)
  have hm1 : (2 : ℝ) ^ m.log2 ≤ m := by exact_mod_cast Nat.log2_self_le hm.ne'
  have hn1 : (n : ℝ) ≤ 2 ^ (n.log2 + 1) := by
    exact_mod_cast (Nat.lt_log2_self (n := n)).le
  have hlog : (m.log2 + e - (n.log2 + 1 + d) : ℤ) ≤ Int.log 2 (m * 2 ^ e / (n * 2 ^ d) : ℝ) := by
    rw [← Int.zpow_le_iff_le_log one_lt_two hx, le_div_iff₀ (magnitude_pos hn)]
    calc ((2 : ℕ) : ℝ) ^ (m.log2 + e - (n.log2 + 1 + d) : ℤ) * (n * 2 ^ d)
        ≤ 2 ^ (m.log2 + e - (n.log2 + 1 + d) : ℤ) * (2 ^ (n.log2 + 1) * 2 ^ d) := by
          push_cast
          gcongr
      _ = 2 ^ m.log2 * 2 ^ e := by
          rw [← zpow_natCast, ← zpow_natCast, ← zpow_add₀ two_ne_zero, ← zpow_add₀ two_ne_zero,
            ← zpow_add₀ two_ne_zero]
          congr 1
          push_cast
          ring
      _ ≤ m * 2 ^ e := by gcongr
  unfold gridExponent Format.targetExponent totalExponent
  rw [abs_of_pos hx]
  omega

theorem rounds_div_finite {s t : Sign} {m n : ℕ} {e d : ℤ} {hm : 0 < m} {hn : 0 < n} :
    Rounds S (div S (.finite s m e hm) (.finite t n d hn))
      (signed s (m * 2 ^ e) / signed t (n * 2 ^ d)) := by
  have hx : (0 : ℝ) < m * 2 ^ e / (n * 2 ^ d) := div_pos (magnitude_pos hm) (magnitude_pos hn)
  have hgrid := targetExponent_le_gridExponent S (e := e) (d := d) hm hn
  rw [signed_div]
  simp only [div, divCore]
  have hle := min_le_left (e - d) (S.targetExponent (totalExponent m e - totalExponent n d))
  have hle' := min_le_right (e - d) (S.targetExponent (totalExponent m e - totalExponent n d))
  generalize min (e - d) (S.targetExponent (totalExponent m e - totalExponent n d)) = k at *
  apply rounds_roundWithAccuracy S (s / t) hx
  · have hquot : (m : ℝ) * 2 ^ e / (n * 2 ^ d) / 2 ^ k =
        (m <<< (e - d - k).toNat : ℕ) / (n : ℝ) := by
      have hpow : (2 : ℝ) ^ e = 2 ^ (e - d - k).toNat * (2 ^ d * 2 ^ k) := by
        rw [← zpow_natCast, ← zpow_add₀ two_ne_zero, ← zpow_add₀ two_ne_zero,
          Int.toNat_of_nonneg (by omega)]
        congr 1
        ring
      have hn' : (n : ℝ) ≠ 0 := by positivity
      rw [Nat.shiftLeft_eq, hpow]
      push_cast
      field_simp
    rw [hquot]
    exact covers_accuracyOfFraction hn
  · exact hle'.trans hgrid

/-- A quotient of finite numbers is rounded, except by zero. -/
theorem approximates_div {a b : UnpackedFloat} {x y : ℝ} (hna : IsNumber a) (hnb : IsNumber b)
    (hx : value a = x) (hy : value b = y) (hy0 : y ≠ 0) :
    Approximates S (div S a b) (x / y : ℝ) := by
  cases b with
  | notANumber => exact absurd rfl hnb
  | infinity t =>
      cases t
      · exact absurd hy.symm (EReal.coe_ne_bot y)
      · exact absurd hy.symm (EReal.coe_ne_top y)
  | zero t => exact absurd (EReal.coe_eq_zero.1 hy.symm) hy0
  | finite t n d hn =>
      cases a with
      | notANumber => exact absurd rfl hna
      | infinity s =>
          cases s
          · exact absurd hx.symm (EReal.coe_ne_bot x)
          · exact absurd hx.symm (EReal.coe_ne_top x)
      | zero s =>
          rw [EReal.coe_eq_zero.1 hx.symm, zero_div]
          exact approximates_zero S _
      | finite s m e hm =>
          rw [value, EReal.coe_eq_coe_iff] at hx hy
          rw [← hx, ← hy]
          exact approximates_of_rounds S (rounds_div_finite S)

/-! ## Natural numbers -/

theorem approximates_ofNat (n : ℕ) : Approximates S (ofNat S n) (n : ℝ) := by
  have hround := rounds_normalize S .positive n 0
  rw [zpow_zero, mul_one, Int.cast_natCast] at hround
  exact approximates_of_rounds S hround

/-- A decimal number without a power of ten is read with as many digits as it has. -/
theorem approximates_ofScientific (n : ℕ) : Approximates S (ofScientific S n 0) (n : ℝ) := by
  unfold ofScientific
  split_ifs with hn hlarge hsmall
  · rw [hn, Nat.cast_zero]
    exact approximates_zero S .positive
  · exact absurd hlarge (not_lt.2 (by positivity))
  · exact absurd hsmall (not_lt.2 (by omega))
  · have hpos : (0 : ℝ) < n := by exact_mod_cast Nat.pos_of_ne_zero hn
    apply approximates_of_rounds S
    have hvalue : (n : ℝ) = signed (.positive * .positive) n := rfl
    rw [hvalue]
    apply rounds_roundWithAccuracy S _ hpos
    · have hquot : (n : ℝ) / 2 ^ (-(S.mantissaBits : ℤ) + 0) =
          ((n <<< S.mantissaBits * 10 ^ (0 : ℤ).toNat : ℕ) : ℝ) := by
        rw [add_zero, zpow_neg, div_inv_eq_mul, zpow_natCast, Nat.shiftLeft_eq]
        simp
      rw [hquot]
      exact covers_exact _
    · have hlog : 0 ≤ Int.log 2 (n : ℝ) := by
        rw [← Int.zpow_le_iff_le_log one_lt_two hpos]
        simpa using Nat.one_le_iff_ne_zero.2 hn
      rw [gridExponent, abs_of_pos hpos]
      omega
  · exact absurd le_rfl ‹¬ (0 : ℤ) ≤ 0›

/-- What was unpacked is not rounded again. -/
theorem round_value_unpack (hS : 1 < S.exponentBits) {b : BitVec S.numBits}
    (hn : IsNumber (unpack S b)) : round S (value (unpack S b)) = value (unpack S b) := by
  have hc := isCanonical_unpack S b
  have hpacked := (value_unpack_pack S hS (approximates_value S hn hc)).2
  rw [unpack_pack S hS hc (isInRange_unpack S hS b)] at hpacked
  exact hpacked.symm

/-- Multiplying a rounded number by one does not round it again. -/
theorem value_mul_one (hS : 1 < S.exponentBits) {u one : UnpackedFloat} {x : EReal}
    (hu : Approximates S u x) (hn : IsNumber one) (hc : IsCanonical S one) (hone : value one = 1) :
    IsNumber (unpack S (pack S (mul S (unpack S (pack S u)) one))) ∧
      value (unpack S (pack S (mul S (unpack S (pack S u)) one))) = round S x := by
  obtain ⟨hnumber, hvalue⟩ := value_unpack_pack S hS hu
  have hmul := approximates_mul S hnumber hn (isCanonical_unpack S _) hc
    (by rw [hone]; exact fun _ => ⟨EReal.coe_ne_top 1, EReal.coe_ne_bot 1⟩) (by simp [hone])
  have hpacked := value_unpack_pack S hS hmul
  rwa [hone, mul_one, round_value_unpack S hS hnumber, hvalue] at hpacked

end LocalGrid.Rounding
