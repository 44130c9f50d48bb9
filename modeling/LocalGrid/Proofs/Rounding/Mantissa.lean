import LocalGrid.Proofs.Rounding.Unpacked

/-!
# Rounding a mantissa

While a mantissa is shifted to its final exponent, two extra bits keep what the rounding has to
know of the digits that were dropped: the first of them, and whether any later one was set.
`Covers` says which reals a mantissa with these bits can come from. Shifting keeps it, and it
determines the nearest integer, so rounding a mantissa is rounding the real it comes from.
-/

open Float.Model (Format UnpackedFloat totalExponent)
open Float.Model.UnpackedFloat

namespace LocalGrid.Rounding

/-! ## Guard bits -/

/-- A mantissa with its first extra bit, counted in halves. -/
def halves (em : ExtendedMantissa) : ℕ := 2 * em.mantissa + em.roundBit.toNat

def Covers (em : ExtendedMantissa) (x : ℝ) : Prop :=
  if em.stickyBit then (halves em : ℝ) < x + x ∧ x + x < halves em + 1
  else x + x = halves em

theorem covers_exact (m : ℕ) : Covers (.ofMantissaAndAccuracy m .exact) m := by
  simp [Covers, halves, ExtendedMantissa.ofMantissaAndAccuracy, two_mul]

theorem Covers.floor_eq {em : ExtendedMantissa} {x : ℝ} (h : Covers em x) :
    ⌊x⌋ = em.mantissa := by
  obtain ⟨m, r, s⟩ := em
  rw [Int.floor_eq_iff]
  cases r <;> cases s <;> simp [Covers, halves] at h ⊢ <;> constructor <;> linarith

theorem Covers.roundedMantissa {em : ExtendedMantissa} {x : ℝ} (h : Covers em x) :
    (em.roundedMantissa : ℤ) = nearestInt x := by
  have hfloor := h.floor_eq
  obtain ⟨m, r, s⟩ := em
  unfold nearestInt
  rw [hfloor]
  cases r <;> cases s <;> simp [Covers, halves] at h <;>
    simp only [ExtendedMantissa.roundedMantissa, ExtendedMantissa.accuracy,
      Accuracy.roundToNearestEven, Int.cast_natCast]
  · rw [if_pos (by linarith)]
  · rw [if_pos (by linarith)]
  · rw [if_neg (by linarith), if_neg (by linarith)]
    push_cast
    rfl
  · rw [if_neg (by linarith), if_pos (by linarith)]
    push_cast
    rfl

theorem halves_shiftRightOne (em : ExtendedMantissa) : halves em.shiftRightOne = em.mantissa := by
  have hmod := Nat.div_add_mod em.mantissa 2
  rcases Nat.mod_two_eq_zero_or_one em.mantissa with h | h <;>
    simp only [halves, ExtendedMantissa.shiftRightOne, h] at hmod ⊢ <;> simpa using hmod

theorem Covers.shiftRightOne {em : ExtendedMantissa} {x : ℝ} (h : Covers em x) :
    Covers em.shiftRightOne (x / 2) := by
  have hhalves := halves_shiftRightOne em
  unfold Covers at h ⊢
  rw [hhalves, add_halves]
  obtain ⟨m, r, s⟩ := em
  cases r <;> cases s <;> simp [halves, ExtendedMantissa.shiftRightOne] at h ⊢ <;>
    first | linarith | (constructor <;> linarith)

theorem Covers.shiftRight {em : ExtendedMantissa} {x : ℝ} (h : Covers em x) (n : ℕ) :
    Covers (em >>> n) (x / 2 ^ n) := by
  change Covers (n.repeat ExtendedMantissa.shiftRightOne em) _
  induction n with
  | zero => simpa [Nat.repeat] using h
  | succ n ih =>
      rw [Nat.repeat, pow_succ, ← div_div]
      exact ih.shiftRightOne

/-! ## Shifting to an exponent -/

theorem shiftToExponent_of_le {m : ℕ} {e t : ℤ} (acc : Accuracy) (h : t ≤ e) :
    shiftToExponent m e acc t = (.ofMantissaAndAccuracy m acc, e) := by
  have hzero : (t - e).toNat = 0 := Int.toNat_of_nonpos (by omega)
  simp only [shiftToExponent, hzero, Nat.cast_zero, add_zero]
  rfl

/-- Shifting changes the exponent and divides what is covered. -/
theorem shiftToExponent_of_ge {m : ℕ} {e t : ℤ} {acc : Accuracy} {x : ℝ} (h : e ≤ t)
    (hx : Covers (.ofMantissaAndAccuracy m acc) (x / 2 ^ e)) :
    Covers (shiftToExponent m e acc t).1 (x / 2 ^ t) ∧ (shiftToExponent m e acc t).2 = t := by
  have hcast : (((t - e).toNat : ℕ) : ℤ) = t - e := Int.toNat_of_nonneg (by omega)
  constructor
  · have hpow : (2 : ℝ) ^ t = 2 ^ e * 2 ^ (t - e).toNat := by
      rw [← zpow_natCast, ← zpow_add₀ two_ne_zero, hcast]
      congr 1
      omega
    rw [hpow, ← div_div]
    exact hx.shiftRight _
  · simp only [shiftToExponent]
    omega

variable (S : Format)

/-- The leading digit of a truncated mantissa is that of the real it comes from. -/
theorem log_eq {m : ℕ} {e : ℤ} {x : ℝ} (hm : 0 < m) (hfloor : ⌊x / 2 ^ e⌋ = (m : ℤ)) :
    Int.log 2 x = m.log2 + e := by
  have hpos : (0 : ℝ) < 2 ^ e := by positivity
  obtain ⟨hle, hlt⟩ := Int.floor_eq_iff.1 hfloor
  rw [Int.cast_natCast, le_div_iff₀ hpos] at hle
  rw [Int.cast_natCast, div_lt_iff₀ hpos] at hlt
  have hx : 0 < x := (magnitude_pos hm).trans_le hle
  apply le_antisymm
  · rw [← Int.lt_add_one_iff, ← Int.lt_zpow_iff_log_lt one_lt_two hx]
    have hm1 : m + 1 ≤ 2 ^ (m.log2 + 1) := Nat.lt_log2_self
    calc x < (m + 1 : ℝ) * 2 ^ e := hlt
      _ ≤ 2 ^ (m.log2 + 1) * 2 ^ e :=
          mul_le_mul_of_nonneg_right (by exact_mod_cast hm1) hpos.le
      _ = ((2 : ℕ) : ℝ) ^ (m.log2 + e + 1 : ℤ) := by
          rw [← zpow_natCast, ← zpow_add₀ two_ne_zero]
          push_cast
          congr 1
          ring
  · rw [← Int.zpow_le_iff_le_log one_lt_two hx]
    have hm1 : 2 ^ m.log2 ≤ m := Nat.log2_self_le hm.ne'
    calc ((2 : ℕ) : ℝ) ^ (m.log2 + e : ℤ) = 2 ^ m.log2 * 2 ^ e := by
          push_cast
          rw [zpow_add₀ two_ne_zero, zpow_natCast]
      _ ≤ m * 2 ^ e := mul_le_mul_of_nonneg_right (by exact_mod_cast hm1) hpos.le
      _ ≤ x := hle

theorem targetExponent_of_pos {m : ℕ} {e : ℤ} {x : ℝ} (hx : 0 < x) (hm : 0 < m)
    (hfloor : ⌊x / 2 ^ e⌋ = (m : ℤ)) :
    S.targetExponent (totalExponent m e) = gridExponent S x := by
  have hlog := log_eq hm hfloor
  unfold gridExponent Format.targetExponent totalExponent
  rw [abs_of_pos hx, hlog]
  congr 2
  omega

/-- The exponent chosen for a truncated mantissa is that of the grid, even if nothing is left of
the mantissa. -/
theorem targetExponent_eq {m : ℕ} {e : ℤ} {x : ℝ} (hx : 0 < x) (hfloor : ⌊x / 2 ^ e⌋ = (m : ℤ))
    (he : e ≤ gridExponent S x) : S.targetExponent (totalExponent m e) = gridExponent S x := by
  rcases Nat.eq_zero_or_pos m with rfl | hm
  · -- the number is below the subnormal grid
    have hbits := mantissaBits_pos S
    have hlog : Int.log 2 x < e := by
      have hlt := Int.lt_floor_add_one (x / 2 ^ e)
      rw [hfloor, div_lt_iff₀ (by positivity)] at hlt
      rw [← Int.lt_zpow_iff_log_lt one_lt_two hx]
      simpa using hlt
    unfold gridExponent Format.targetExponent totalExponent at *
    rw [abs_of_pos hx] at *
    rw [Nat.log2_zero]
    omega
  · exact targetExponent_of_pos S hx hm hfloor

/-! ## Rounding to the format -/

structure Rounds (u : UnpackedFloat) (x : ℝ) : Prop where
  isNumber : IsNumber u
  isCanonical : IsCanonical S u
  value_eq : value u = nearest S x

/-- A mantissa and an exponent with a sign; no mantissa is a zero. -/
def ofParts (s : Sign) (m : ℕ) (e : ℤ) : UnpackedFloat :=
  if h : m = 0 then .zero s else .finite s m e (Nat.pos_of_ne_zero h)

theorem value_ofParts (s : Sign) (m : ℕ) (e : ℤ) :
    value (ofParts s m e) = (signed s (m * 2 ^ e) : ℝ) := by
  unfold ofParts
  split_ifs with h
  · simp [h, value]
  · rfl

theorem isNumber_ofParts (s : Sign) (m : ℕ) (e : ℤ) : IsNumber (ofParts s m e) := by
  unfold ofParts IsNumber
  split_ifs <;> simp

theorem isCanonical_ofParts {s : Sign} {m : ℕ} {e : ℤ} (hlt : m < 2 ^ S.mantissaBits)
    (he : S.minExponent ≤ e)
    (hfull : 2 ^ S.mantissaBitsWithoutImplicit ≤ m ∨ e = S.minExponent) :
    IsCanonical S (ofParts s m e) := by
  unfold ofParts
  split_ifs with h
  · trivial
  · exact ⟨hlt, he, hfull⟩

/-- Shifting a rounded mantissa once more only matters if it was rounded up to the next power of
two, which is then halved. -/
theorem shiftToTargetExponent_rounded {r : ℕ} {t : ℤ} (hr : r ≤ 2 ^ S.mantissaBits)
    (ht : S.minExponent ≤ t) :
    let shifted := shiftToTargetExponent S r t .exact
    (r < 2 ^ S.mantissaBits ∧ shifted.1.mantissa = r ∧ shifted.2 = t) ∨
      (shifted.1.mantissa = 2 ^ S.mantissaBitsWithoutImplicit ∧ shifted.2 = t + 1 ∧
        r = 2 ^ S.mantissaBits) := by
  have hbits : S.mantissaBits = S.mantissaBitsWithoutImplicit + 1 := Nat.add_comm _ _
  simp only [shiftToTargetExponent]
  rcases hr.lt_or_eq with hlt | rfl
  · left
    have hlog : r.log2 + 1 ≤ S.mantissaBits := by
      rcases Nat.eq_zero_or_pos r with rfl | hpos
      · rw [Nat.log2_zero]
        omega
      · exact (Nat.log2_lt hpos.ne').2 hlt
    have htarget : S.targetExponent (totalExponent r t) ≤ t := by
      unfold Format.targetExponent totalExponent
      omega
    rw [shiftToExponent_of_le _ htarget]
    exact ⟨hlt, rfl, rfl⟩
  · right
    have htarget : S.targetExponent (totalExponent (2 ^ S.mantissaBits) t) = t + 1 := by
      unfold Format.targetExponent totalExponent
      rw [Nat.log2_two_pow]
      omega
    have hone : (t + 1 - t).toNat = 1 := by omega
    rw [htarget]
    simp only [shiftToExponent, hone]
    refine ⟨?_, rfl, trivial⟩
    change 2 ^ S.mantissaBits / 2 = 2 ^ S.mantissaBitsWithoutImplicit
    rw [hbits, pow_succ, Nat.mul_div_cancel _ two_pos]

/-- A real is rounded by its rounded mantissa, shifted once more if necessary. -/
theorem rounds_ofParts_shifted (s : Sign) {r : ℕ} {x : ℝ} (hx : 0 < x)
    (hr : (r : ℤ) = nearestInt (x / 2 ^ gridExponent S x)) :
    let shifted := shiftToTargetExponent S r (gridExponent S x) .exact
    Rounds S (ofParts s shifted.1.mantissa shifted.2) (signed s x) := by
  have hbits : S.mantissaBits = S.mantissaBitsWithoutImplicit + 1 := Nat.add_comm _ _
  have hmin := minExponent_le_gridExponent S x
  have hle := (abs_le.1 (abs_nearestInt_le S x)).2
  rw [← hr] at hle
  have hnearest : nearest S x = r * 2 ^ gridExponent S x := by
    rw [nearest, ← hr, Int.cast_natCast]
  intro shifted
  rcases shiftToTargetExponent_rounded S (by exact_mod_cast hle : r ≤ 2 ^ S.mantissaBits) hmin
    with ⟨hlt, hm, ht⟩ | ⟨hm, ht, hpow⟩
  · rw [hm, ht]
    refine ⟨isNumber_ofParts s _ _, isCanonical_ofParts S hlt hmin ?_, ?_⟩
    · rcases hmin.eq_or_lt with heq | hlt'
      · exact Or.inr heq.symm
      · left
        have hfull := (two_pow_le_floor S hx hlt').trans (floor_le_nearestInt _)
        rw [← hr, hbits, Nat.add_sub_cancel] at hfull
        exact_mod_cast hfull
    · rw [value_ofParts, nearest_signed, hnearest]
  · rw [hm, ht]
    refine ⟨isNumber_ofParts s _ _, isCanonical_ofParts S ?_ (by omega) (Or.inl le_rfl), ?_⟩
    · rw [hbits]
      exact Nat.pow_lt_pow_right one_lt_two (Nat.lt_succ_self _)
    · rw [value_ofParts, nearest_signed, hnearest, hpow, hbits, zpow_add_one₀ two_ne_zero]
      congr 2
      push_cast
      ring

/-- Rounding a truncated mantissa is rounding the real that it comes from. -/
theorem rounds_roundWithAccuracy (s : Sign) {m : ℕ} {e : ℤ} {acc : Accuracy} {x : ℝ} (hx : 0 < x)
    (hcovers : Covers (.ofMantissaAndAccuracy m acc) (x / 2 ^ e)) (he : e ≤ gridExponent S x) :
    Rounds S (roundWithAccuracy S s m e acc) (signed s x) := by
  have htarget : S.targetExponent (totalExponent m e) = gridExponent S x := by
    apply targetExponent_eq S hx _ he
    rw [hcovers.floor_eq]
    cases acc with
    | exact => rfl
    | inexact o => cases o <;> rfl
  obtain ⟨hcov, hexp⟩ := shiftToExponent_of_ge he hcovers
  have hrounds := rounds_ofParts_shifted S s hx hcov.roundedMantissa
  rw [roundWithAccuracy, shiftToTargetExponent, htarget]
  simp only [hexp]
  exact hrounds

/-- Decreasing the exponent does not change the number. -/
theorem decreaseExponent_eq (m : ℕ) (e t : ℤ) :
    ∃ n : ℕ, decreaseExponent m e t = (n, min e t) ∧ (n : ℝ) * 2 ^ min e t = m * 2 ^ e := by
  refine ⟨m <<< (e - t).toNat, ?_, ?_⟩
  · rw [decreaseExponent, Prod.mk.injEq]
    exact ⟨rfl, by omega⟩
  · rw [Nat.shiftLeft_eq]
    push_cast
    rw [mul_assoc, ← zpow_natCast, ← zpow_add₀ two_ne_zero]
    congr 2
    omega

theorem rounds_round (s : Sign) {m : ℕ} {e : ℤ} (hm : 0 < m) :
    Rounds S (UnpackedFloat.round S s m e) (signed s (m * 2 ^ e)) := by
  have hx : (0 : ℝ) < m * 2 ^ e := magnitude_pos hm
  have htarget : S.targetExponent (totalExponent m e) = gridExponent S (m * 2 ^ e) := by
    apply targetExponent_of_pos S hx hm
    rw [mul_div_cancel_right₀ _ (by positivity), Int.floor_natCast]
  obtain ⟨n, hn, hval⟩ := decreaseExponent_eq m e (gridExponent S (m * 2 ^ e))
  rw [UnpackedFloat.round, htarget, hn]
  apply rounds_roundWithAccuracy S s hx
  · have hquot : (m : ℝ) * 2 ^ e / 2 ^ min e (gridExponent S (m * 2 ^ e)) = n := by
      rw [div_eq_iff (by positivity), hval]
    rw [hquot]
    exact covers_exact n
  · exact min_le_right _ _

/-- Rounding an integer mantissa. The sign of a zero result is given. -/
theorem rounds_normalize (s : Sign) (m e : ℤ) :
    Rounds S (UnpackedFloat.normalize S m e s) (m * 2 ^ e) := by
  rcases lt_trichotomy m 0 with h | rfl | h
  · have hround := rounds_round S .negative (e := e) (Int.pos_iff_toNat_pos.1 (neg_pos.2 h))
    have hcast : (((-m).toNat : ℕ) : ℝ) = -m := by
      exact_mod_cast Int.toNat_of_nonneg (neg_pos.2 h).le
    rw [hcast] at hround
    rw [UnpackedFloat.normalize, compare_lt_iff_lt.2 h]
    simpa [signed] using hround
  · rw [UnpackedFloat.normalize, compare_eq_iff_eq.2 rfl]
    exact ⟨by simp [IsNumber], trivial, by simp [value]⟩
  · have hround := rounds_round S .positive (e := e) (Int.pos_iff_toNat_pos.1 h)
    have hcast : ((m.toNat : ℕ) : ℝ) = m := by exact_mod_cast Int.toNat_of_nonneg h.le
    rw [hcast] at hround
    rw [UnpackedFloat.normalize, compare_gt_iff_gt.2 h]
    simpa [signed] using hround

end LocalGrid.Rounding
