import LocalGrid.Proofs.Rounding.Nearest

/-!
# Unpacked values

An unpacked value is a sign with a mantissa and an exponent, and `Rounding.value` is the extended
real that it stands for. The same real has many mantissas; the canonical ones, which a format can
hold, are full or have the least exponent, and on them the comparison of exponents and mantissas
is the order of the reals.
-/

open Float.Model (Format UnpackedFloat)
open Float.Model.UnpackedFloat

namespace LocalGrid.Rounding

/-! ## Signs -/

def signed (s : Sign) (x : ℝ) : ℝ :=
  match s with
  | .positive => x
  | .negative => -x

@[simp] theorem signed_zero (s : Sign) : signed s 0 = 0 := by
  cases s <;> simp [signed]

@[simp] theorem signed_neg (s : Sign) (x : ℝ) : signed (-s) x = -signed s x := by
  cases s
  · exact (neg_neg x).symm
  · rfl

theorem signed_apply (s : Sign) (n : ℤ) : ((s.apply n : ℤ) : ℝ) = signed s n := by
  cases s <;> simp [Sign.apply, signed]

theorem signed_mul (s t : Sign) (x y : ℝ) : signed s x * signed t y = signed (s * t) (x * y) := by
  cases s <;> cases t
  · exact neg_mul_neg x y
  · exact neg_mul x y
  · exact mul_neg x y
  · rfl

theorem signed_div (s t : Sign) (x y : ℝ) : signed s x / signed t y = signed (s / t) (x / y) := by
  cases s <;> cases t
  · exact neg_div_neg_eq x y
  · exact neg_div y x
  · exact div_neg x
  · rfl

theorem nearest_signed (S : Format) (s : Sign) (x : ℝ) :
    nearest S (signed s x) = signed s (nearest S x) := by
  cases s
  · exact nearest_neg S x
  · rfl

/-! ## Values -/

/-- The extended real that a value stands for. A `NaN` stands for none, and is given zero. -/
noncomputable def value : UnpackedFloat → EReal
  | .notANumber => 0
  | .infinity .positive => ⊤
  | .infinity .negative => ⊥
  | .zero _ => 0
  | .finite s m e _ => (signed s (magnitude m e) : ℝ)

def IsNumber (u : UnpackedFloat) : Prop := u ≠ .notANumber

variable (S : Format)

/-- A value with a full mantissa or the least exponent. The exponent may be too large. -/
def IsCanonical : UnpackedFloat → Prop
  | .finite _ m e _ => m < 2 ^ S.mantissaBits ∧ S.minExponent ≤ e ∧
      (2 ^ S.mantissaBitsWithoutImplicit ≤ m ∨ e = S.minExponent)
  | _ => True

/-- The mantissa of a canonical value makes a point. -/
theorem isPoint_of_isCanonical {s : Sign} {m : ℕ} {e : ℤ} {hm : 0 < m}
    (h : IsCanonical S (.finite s m e hm)) : IsPoint S (signed s (m * 2 ^ e)) := by
  have hlt : |(m : ℤ)| < 2 ^ S.mantissaBits := by
    rw [Nat.abs_cast]
    exact_mod_cast h.1
  cases s
  · exact ⟨-m, e, by rwa [abs_neg], h.2.1, by push_cast; exact (neg_mul _ _).symm⟩
  · exact ⟨m, e, hlt, h.2.1, by push_cast; rfl⟩

theorem isPoint_of_value {u : UnpackedFloat} {x : ℝ} (h : IsCanonical S u) (hx : value u = x) :
    IsPoint S x := by
  cases u with
  | notANumber => exact ⟨0, S.minExponent, by simp, le_rfl, by simpa [value] using hx.symm⟩
  | infinity s => cases s <;> simp [value] at hx
  | zero s => exact ⟨0, S.minExponent, by simp, le_rfl, by simpa [value] using hx.symm⟩
  | finite s m e hm =>
      rw [value, EReal.coe_eq_coe_iff] at hx
      exact hx ▸ isPoint_of_isCanonical S h

@[simp] theorem value_neg (u : UnpackedFloat) : value u.neg = -value u := by
  cases u with
  | notANumber => simp [UnpackedFloat.neg, value]
  | infinity s => cases s <;> rfl
  | zero s => simp [UnpackedFloat.neg, value]
  | finite s m e hm => simp [UnpackedFloat.neg, value]

theorem isNumber_neg {u : UnpackedFloat} : IsNumber u.neg ↔ IsNumber u := by
  cases u <;> simp [IsNumber, UnpackedFloat.neg]

theorem isCanonical_neg {u : UnpackedFloat} : IsCanonical S u.neg ↔ IsCanonical S u := by
  cases u <;> rfl

theorem neg_neg_eq (u : UnpackedFloat) : u.neg.neg = u := by
  have hs : ∀ s : Sign, - -s = s := by
    intro s
    cases s <;> rfl
  cases u <;> simp [UnpackedFloat.neg, hs]

theorem isCanonical_abs {u : UnpackedFloat} : IsCanonical S u.abs ↔ IsCanonical S u := by
  cases u <;> rfl

theorem magnitude_pos {m : ℕ} {e : ℤ} (hm : 0 < m) : (0 : ℝ) < m * 2 ^ e := by
  positivity

theorem value_abs (u : UnpackedFloat) : value u.abs = max (value u) (-value u) := by
  cases u with
  | notANumber => simp [UnpackedFloat.abs, value]
  | infinity s => cases s <;> simp [UnpackedFloat.abs, value]
  | zero s => simp [UnpackedFloat.abs, value]
  | finite s m e hm =>
      have hpos := magnitude_pos (e := e) hm
      cases s
      · rw [UnpackedFloat.abs, value, value, ← EReal.coe_neg, max_eq_right]
        · simp [signed]
        · exact EReal.coe_le_coe_iff.2 (by simp only [signed]; linarith)
      · rw [UnpackedFloat.abs, value, ← EReal.coe_neg, max_eq_left]
        exact EReal.coe_le_coe_iff.2 (by simp only [signed]; linarith)

/-! ## Order -/

/-- Among canonical values the exponent of the magnitude decides, and then the mantissa. -/
theorem then_compare_eq {s t : Sign} {m n : ℕ} {e d : ℤ} {hm : 0 < m} {hn : 0 < n}
    (ha : IsCanonical S (.finite s m e hm)) (hb : IsCanonical S (.finite t n d hn)) :
    (compare e d).then (compare m n) = compare ((m : ℝ) * 2 ^ e) (n * 2 ^ d) := by
  have hbelow : ∀ {m n : ℕ} {e d : ℤ}, m < 2 ^ S.mantissaBits → S.minExponent ≤ e →
      (2 ^ S.mantissaBitsWithoutImplicit ≤ n ∨ d = S.minExponent) → e < d →
      (m : ℝ) * 2 ^ e < n * 2 ^ d := by
    intro m n e d hm he hn hed
    have hfull : 2 ^ S.mantissaBitsWithoutImplicit ≤ n := hn.resolve_right (by omega)
    calc (m : ℝ) * 2 ^ e < 2 ^ S.mantissaBits * 2 ^ e :=
          mul_lt_mul_of_pos_right (by exact_mod_cast hm) (by positivity)
      _ ≤ 2 ^ S.mantissaBitsWithoutImplicit * 2 ^ d := by
          rw [← zpow_natCast, ← zpow_natCast, ← zpow_add₀ two_ne_zero, ← zpow_add₀ two_ne_zero]
          apply zpow_le_zpow_right₀ one_le_two
          simp only [Format.mantissaBits]
          omega
      _ ≤ n * 2 ^ d := mul_le_mul_of_nonneg_right (by exact_mod_cast hfull) (by positivity)
  rcases lt_trichotomy e d with hed | rfl | hed
  · rw [compare_lt_iff_lt.2 hed, compare_lt_iff_lt.2 (hbelow ha.1 ha.2.1 hb.2.2 hed)]
    rfl
  · rw [compare_eq_iff_eq.2 rfl, Ordering.eq_then]
    have hpos : (0 : ℝ) < 2 ^ e := by positivity
    rcases lt_trichotomy m n with hmn | rfl | hmn
    · rw [compare_lt_iff_lt.2 hmn, compare_lt_iff_lt.2]
      exact mul_lt_mul_of_pos_right (by exact_mod_cast hmn) hpos
    · rw [compare_eq_iff_eq.2 rfl, compare_eq_iff_eq.2 rfl]
    · rw [compare_gt_iff_gt.2 hmn, compare_gt_iff_gt.2]
      exact mul_lt_mul_of_pos_right (by exact_mod_cast hmn) hpos
  · rw [compare_gt_iff_gt.2 hed, compare_gt_iff_gt.2 (hbelow hb.1 hb.2.1 ha.2.2 hed)]
    rfl

theorem compare_coe (x y : ℝ) : compare (x : EReal) y = compare x y := by
  rcases lt_trichotomy x y with h | h | h
  · rw [compare_lt_iff_lt.2 h, compare_lt_iff_lt.2 (EReal.coe_lt_coe_iff.2 h)]
  · rw [compare_eq_iff_eq.2 h, compare_eq_iff_eq.2 (congrArg _ h)]
  · rw [compare_gt_iff_gt.2 h, compare_gt_iff_gt.2 (EReal.coe_lt_coe_iff.2 h)]

theorem compare_neg_neg (x y : ℝ) : compare (-x) (-y) = (compare x y).swap := by
  rcases lt_trichotomy x y with h | h | h
  · rw [compare_gt_iff_gt.2 (neg_lt_neg h), compare_lt_iff_lt.2 h]
    rfl
  · rw [compare_eq_iff_eq.2 (congrArg _ h), compare_eq_iff_eq.2 h]
    rfl
  · rw [compare_lt_iff_lt.2 (neg_lt_neg h), compare_gt_iff_gt.2 h]
    rfl

theorem compare_finite {s t : Sign} {m n : ℕ} {e d : ℤ} {hm : 0 < m} {hn : 0 < n}
    (ha : IsCanonical S (.finite s m e hm)) (hb : IsCanonical S (.finite t n d hn)) :
    UnpackedFloat.compare (.finite s m e hm) (.finite t n d hn) =
      some (compare (signed s (m * 2 ^ e)) (signed t (n * 2 ^ d))) := by
  have hmpos := magnitude_pos (e := e) hm
  have hnpos := magnitude_pos (e := d) hn
  have hthen := then_compare_eq S ha hb
  cases s <;> cases t <;> simp only [UnpackedFloat.compare, signed]
  · rw [hthen, compare_neg_neg]
  · rw [compare_lt_iff_lt.2 (by linarith)]
  · rw [compare_gt_iff_gt.2 (by linarith)]
  · rw [hthen]

/-- The comparison of canonical numbers is that of the extended reals. -/
theorem compare_eq {a b : UnpackedFloat} (hna : IsNumber a) (hnb : IsNumber b)
    (ha : IsCanonical S a) (hb : IsCanonical S b) :
    a.compare b = some (compare (value a) (value b)) := by
  have hlt {x y : EReal} (h : x < y) : some Ordering.lt = some (compare x y) := by
    rw [compare_lt_iff_lt.2 h]
  have hgt {x y : EReal} (h : y < x) : some Ordering.gt = some (compare x y) := by
    rw [compare_gt_iff_gt.2 h]
  have heq (x : EReal) : some Ordering.eq = some (compare x x) := by
    rw [compare_eq_iff_eq.2 rfl]
  have hpos {m : ℕ} (e : ℤ) (hm : 0 < m) : (0 : EReal) < ((m * 2 ^ e : ℝ) : EReal) :=
    EReal.coe_pos.2 (magnitude_pos hm)
  have hneg {m : ℕ} (e : ℤ) (hm : 0 < m) : ((-(m * 2 ^ e) : ℝ) : EReal) < 0 := by
    exact_mod_cast neg_lt_zero.2 (magnitude_pos (e := e) hm)
  cases a with
  | notANumber => exact absurd rfl hna
  | infinity s =>
      cases b with
      | notANumber => exact absurd rfl hnb
      | infinity t =>
          cases s <;> cases t
          · exact heq ⊥
          · exact hlt bot_lt_top
          · exact hgt bot_lt_top
          · exact heq ⊤
      | zero t =>
          cases s
          · exact hlt (EReal.bot_lt_coe 0)
          · exact hgt (EReal.coe_lt_top 0)
      | finite t n d hn =>
          cases s
          · exact hlt (EReal.bot_lt_coe _)
          · exact hgt (EReal.coe_lt_top _)
  | zero s =>
      cases b with
      | notANumber => exact absurd rfl hnb
      | infinity t =>
          cases t
          · exact hgt (EReal.bot_lt_coe 0)
          · exact hlt (EReal.coe_lt_top 0)
      | zero t => exact heq 0
      | finite t n d hn =>
          cases t
          · exact hgt (hneg d hn)
          · exact hlt (hpos d hn)
  | finite s m e hm =>
      cases b with
      | notANumber => exact absurd rfl hnb
      | infinity t =>
          cases t
          · exact hgt (EReal.bot_lt_coe _)
          · exact hlt (EReal.coe_lt_top _)
      | zero t =>
          cases s
          · exact hlt (hneg e hm)
          · exact hgt (hpos e hm)
      | finite t n d hn => rw [compare_finite S ha hb, value, value, compare_coe]

theorem compare_notANumber (a : UnpackedFloat) : a.compare .notANumber = none := by
  cases a with
  | infinity s => cases s <;> rfl
  | _ => rfl

theorem notANumber_compare (b : UnpackedFloat) :
    UnpackedFloat.compare .notANumber b = none := by
  simp [UnpackedFloat.compare]

/-- A comparison has an outcome for numbers only. -/
theorem compare_eq_some_iff {a b : UnpackedFloat} {o : Ordering} (ha : IsCanonical S a)
    (hb : IsCanonical S b) :
    a.compare b = some o ↔ IsNumber a ∧ IsNumber b ∧ compare (value a) (value b) = o := by
  by_cases hna : IsNumber a
  · by_cases hnb : IsNumber b
    · rw [compare_eq S hna hnb ha hb, Option.some.injEq]
      exact ⟨fun h => ⟨hna, hnb, h⟩, fun h => h.2.2⟩
    · have hb' : b = .notANumber := not_not.1 hnb
      simp [hb', compare_notANumber, IsNumber]
  · have ha' : a = .notANumber := not_not.1 hna
    simp [ha', notANumber_compare, IsNumber]

theorem le_iff {a b : UnpackedFloat} (ha : IsCanonical S a) (hb : IsCanonical S b) :
    a.le b = true ↔ IsNumber a ∧ IsNumber b ∧ value a ≤ value b := by
  rw [UnpackedFloat.le, Option.any_eq_true]
  simp only [compare_eq_some_iff S ha hb]
  constructor
  · rintro ⟨o, ⟨hna, hnb, rfl⟩, hle⟩
    exact ⟨hna, hnb, compare_le_iff_le.1 (Ordering.ne_gt_iff_isLE.2 hle)⟩
  · rintro ⟨hna, hnb, hle⟩
    exact ⟨_, ⟨hna, hnb, rfl⟩, Ordering.ne_gt_iff_isLE.1 (compare_le_iff_le.2 hle)⟩

theorem lt_iff {a b : UnpackedFloat} (ha : IsCanonical S a) (hb : IsCanonical S b) :
    a.lt b = true ↔ IsNumber a ∧ IsNumber b ∧ value a < value b := by
  rw [UnpackedFloat.lt, beq_iff_eq, compare_eq_some_iff S ha hb, compare_lt_iff_lt]

end LocalGrid.Rounding
