import LocalGrid.Binary
import LocalGrid.Proofs.Quantity.Readings

/-!
# Bit patterns

The patterns of the positive values of a format are consecutive numbers. `Binary.ladder` gives the
value of each of them, and continues beyond infinity as if there were more exponents. A mantissa
with an exponent is one rung of it, also a mantissa that carries into the exponent.
-/

open Float.Model (Format)

namespace LocalGrid

theorem cast_twoPow (k : ℕ) : ((twoPow k : ℕ) : ℝ) = 2 ^ k := by
  change ((2 ^ k : ℕ) : ℝ) = 2 ^ k
  push_cast
  rfl

/-! ## Rounded quotients -/

namespace Rounding

theorem roundDiv_even_eq {n d : ℕ} (hd : 0 < d) :
    (roundDiv .even n d : ℤ) = nearestInt (n / d) := by
  have hpos : (0 : ℝ) < d := by exact_mod_cast hd
  have hmod : ((n % d : ℕ) : ℝ) < d := by exact_mod_cast Nat.mod_lt n hd
  have hsplit : (n : ℝ) / d = (n / d : ℕ) + (n % d : ℕ) / d := by
    have hnat : (n : ℝ) = d * (n / d : ℕ) + (n % d : ℕ) := by
      exact_mod_cast (Nat.div_add_mod n d).symm
    rw [div_eq_iff hpos.ne', add_mul, div_mul_cancel₀ _ hpos.ne', mul_comm _ (d : ℝ)]
    exact hnat
  have hfloor : ⌊(n : ℝ) / d⌋ = (n / d : ℕ) := by
    rw [hsplit, Int.floor_natCast_add, Int.floor_eq_zero_iff.2, add_zero]
    exact ⟨by positivity, (div_lt_one hpos).2 hmod⟩
  have hbelow : ((n % d : ℕ) : ℝ) / d < 1 / 2 ↔ 2 * (n % d) < d := by
    rw [div_lt_div_iff₀ hpos two_pos, one_mul, mul_comm]
    exact_mod_cast Iff.rfl
  have habove : 1 / 2 < ((n % d : ℕ) : ℝ) / d ↔ d < 2 * (n % d) := by
    rw [div_lt_div_iff₀ two_pos hpos, one_mul, mul_comm]
    exact_mod_cast Iff.rfl
  simp only [nearestInt, roundDiv, hfloor, Int.cast_natCast]
  simp only [hsplit, add_sub_cancel_left, hbelow, habove]
  split_ifs <;> push_cast <;> rfl

end Rounding

namespace Binary

/-! ## The exponent of a quotient -/

theorem two_zpow_eq (e : ℤ) :
    (2 : ℝ) ^ e = (twoPow e.toNat : ℕ) / (twoPow (-e).toNat : ℕ) := by
  rw [cast_twoPow, cast_twoPow, ← zpow_natCast, ← zpow_natCast, ← zpow_sub₀ two_ne_zero,
    Int.toNat_sub_toNat_neg]

theorem two_zpow_log2_le {n : ℕ} (hn : 0 < n) : (2 : ℝ) ^ (n.log2 : ℤ) ≤ n := by
  rw [zpow_natCast]
  exact_mod_cast Nat.log2_self_le hn.ne'

theorem lt_two_zpow_log2 {n : ℕ} (hn : 0 < n) : (n : ℝ) < 2 ^ (n.log2 + 1 : ℤ) := by
  have h := (Nat.log2_lt hn.ne').1 (Nat.lt_succ_self n.log2)
  rw [← Nat.cast_succ, zpow_natCast]
  exact_mod_cast h

theorem log2Quotient_eq {n d : ℕ} (hn : 0 < n) (hd : 0 < d) :
    log2Quotient n d = Int.log 2 ((n : ℝ) / d) := by
  have hpos : (0 : ℝ) < d := by exact_mod_cast hd
  have hquot : (0 : ℝ) < n / d := div_pos (by exact_mod_cast hn) hpos
  let e : ℤ := (n.log2 : ℤ) - d.log2
  have htest : n * twoPow (-e).toNat < d * twoPow e.toNat ↔ Int.log 2 ((n : ℝ) / d) < e := by
    rw [← Int.lt_zpow_iff_log_lt one_lt_two hquot, Nat.cast_two, two_zpow_eq e,
      div_lt_div_iff₀ hpos (by exact_mod_cast twoPow_pos _), mul_comm d]
    exact_mod_cast Iff.rfl
  have hlow : e - 1 ≤ Int.log 2 ((n : ℝ) / d) := by
    rw [← Int.zpow_le_iff_le_log one_lt_two hquot, Nat.cast_two, le_div_iff₀ hpos]
    calc (2 : ℝ) ^ (e - 1) * d ≤ 2 ^ (e - 1) * 2 ^ (d.log2 + 1 : ℤ) :=
          mul_le_mul_of_nonneg_left (lt_two_zpow_log2 hd).le (by positivity)
      _ = 2 ^ (n.log2 : ℤ) := by
          rw [← zpow_add₀ two_ne_zero]
          congr 1
          simp only [e]
          ring
      _ ≤ n := two_zpow_log2_le hn
  have hhigh : Int.log 2 ((n : ℝ) / d) < e + 1 := by
    rw [← Int.lt_zpow_iff_log_lt one_lt_two hquot, Nat.cast_two, div_lt_iff₀ hpos]
    calc (n : ℝ) < 2 ^ (n.log2 + 1 : ℤ) := lt_two_zpow_log2 hn
      _ = 2 ^ (e + 1) * 2 ^ (d.log2 : ℤ) := by
          rw [← zpow_add₀ two_ne_zero]
          congr 1
          simp only [e]
          ring
      _ ≤ 2 ^ (e + 1) * d := mul_le_mul_of_nonneg_left (two_zpow_log2_le hd) (by positivity)
  change (if n * twoPow (-e).toNat < d * twoPow e.toNat then e - 1 else e) = _
  split_ifs with h
  · have hbelow := htest.1 h
    omega
  · have hnot := mt htest.2 h
    omega

/-! ## The ladder of positive values -/

variable (f : Binary)

/-- The value of the `k`-th positive pattern, without an end of the exponents. -/
noncomputable def ladder (k : ℕ) : ℝ :=
  Rounding.magnitude (k - (k / f.binade - 1) * f.binade)
    (f.minExponent + (k / f.binade - 1 : ℕ))

theorem binade_pos : 0 < f.binade := twoPow_pos _

/-- A mantissa that fills two binades is the first of the next one. -/
theorem ladder_add {steps m : ℕ} (hm : m ≤ 2 * f.binade) (hfull : steps = 0 ∨ f.binade ≤ m) :
    f.ladder (steps * f.binade + m) = m * 2 ^ (f.minExponent + steps) := by
  have hpos := f.binade_pos
  rcases lt_or_ge m f.binade with hlt | hge
  · obtain rfl := hfull.resolve_right (not_le.2 hlt)
    simp [ladder, Nat.div_eq_of_lt hlt]
  rcases hm.lt_or_eq with hlt | rfl
  · have hdiv : (steps * f.binade + m) / f.binade = steps + 1 :=
      Nat.div_eq_of_lt_le (by grind) (by grind)
    simp [ladder, hdiv]
  · have hdiv : (steps * f.binade + 2 * f.binade) / f.binade = steps + 2 := by
      rw [← add_mul, Nat.mul_div_cancel _ hpos]
    have hrest : steps * f.binade + 2 * f.binade - (steps + 1) * f.binade = f.binade := by
      grind
    rw [ladder, hdiv, Nat.add_succ_sub_one, hrest, Rounding.magnitude]
    push_cast
    rw [← add_assoc, zpow_add_one₀ two_ne_zero]
    ring

theorem exists_steps (k : ℕ) :
    ∃ steps m, k = steps * f.binade + m ∧ m < 2 * f.binade ∧ (steps = 0 ∨ f.binade ≤ m) := by
  have hpos := f.binade_pos
  have hmod := Nat.mod_lt k hpos
  have hdiv := Nat.div_add_mod k f.binade
  rcases Nat.eq_zero_or_pos (k / f.binade) with h | h
  · exact ⟨0, k, by simp, by grind, Or.inl rfl⟩
  · refine ⟨k / f.binade - 1, f.binade + k % f.binade, ?_, by omega, Or.inr (by omega)⟩
    obtain ⟨steps, hsteps⟩ := Nat.exists_eq_add_of_le' h
    rw [hsteps] at hdiv ⊢
    grind

theorem ladder_strictMono : StrictMono f.ladder := by
  apply strictMono_nat_of_lt_succ
  intro k
  obtain ⟨steps, m, rfl, hm, hfull⟩ := f.exists_steps k
  rw [add_assoc, f.ladder_add hm.le hfull, f.ladder_add hm (by omega)]
  exact mul_lt_mul_of_pos_right (by exact_mod_cast Nat.lt_succ_self m) (by positivity)

theorem ladder_zero : f.ladder 0 = 0 := by simp [ladder]

theorem ladder_nonneg (k : ℕ) : 0 ≤ f.ladder k := by
  unfold ladder
  positivity

/-! ## Decoding -/

theorem infinityBits_add_binade : f.infinityBits + f.binade = f.signBit := by
  have hpos := twoPow_pos f.exponentBits
  rw [infinityBits, signBit, ← Nat.succ_mul, Nat.succ_eq_add_one, Nat.sub_add_cancel hpos]

theorem infinityBits_lt_signBit : f.infinityBits < f.signBit := by
  have hpos := f.binade_pos
  have hadd := f.infinityBits_add_binade
  omega

theorem decode_of_lt {k : ℕ} (hk : k < f.infinityBits) :
    ∃ m e, f.decode k = .finite false m e ∧ (m : ℝ) * 2 ^ e = f.ladder k := by
  have hpos := f.binade_pos
  have hsign := hk.trans f.infinityBits_lt_signBit
  have hfield : k / f.binade < twoPow f.exponentBits - 1 := Nat.div_lt_of_lt_mul (by
    rwa [mul_comm])
  have hdiv := Nat.div_add_mod k f.binade
  unfold decode
  simp only [Nat.mod_eq_of_lt hsign, hfield.ne, if_false, not_le.2 hsign, decide_false]
  split_ifs with h
  · refine ⟨_, _, rfl, ?_⟩
    rw [h, mul_zero, zero_add] at hdiv
    simp [ladder, h, hdiv]
  · refine ⟨_, _, rfl, ?_⟩
    obtain ⟨steps, hsteps⟩ := Nat.exists_eq_add_of_le' (Nat.pos_of_ne_zero h)
    have hrest : k - steps * f.binade = f.binade + k % f.binade := by
      rw [hsteps] at hdiv
      grind
    simp [ladder, hsteps, hrest]

theorem decode_of_le {k : ℕ} (hk : f.infinityBits ≤ k) (hsign : k < f.signBit) :
    f.decode k = if k = f.infinityBits then .infinite false else .nan := by
  have hpos := f.binade_pos
  have hadd := f.infinityBits_add_binade
  have hfield : k / f.binade = twoPow f.exponentBits - 1 := Nat.div_eq_of_lt_le hk (by
    rw [Nat.succ_mul]
    exact hsign.trans_eq hadd.symm)
  have hfraction : k % f.binade = 0 ↔ k = f.infinityBits := by
    have hdiv := Nat.div_add_mod k f.binade
    rw [hfield, mul_comm] at hdiv
    unfold infinityBits
    omega
  unfold decode
  simp only [Nat.mod_eq_of_lt hsign, hfield, if_true, not_le.2 hsign, decide_false, hfraction]

end Binary

/-! ## Values -/

namespace Binary.Value

def neg : Value → Value
  | .nan => .nan
  | .infinite negative => .infinite !negative
  | .finite negative m e => .finite (!negative) m e

noncomputable def value? : Value → Option EReal
  | .nan => none
  | .infinite negative => some (if negative then ⊥ else ⊤)
  | .finite negative m e =>
      let x : EReal := (Rounding.magnitude m e : ℝ)
      some (if negative then -x else x)

theorem value?_neg (v : Value) : v.neg.value? = v.value?.map fun r => -r := by
  cases v with
  | nan => rfl
  | infinite negative => cases negative <;> rfl
  | finite negative m e => cases negative <;> simp [neg, value?]

end Binary.Value

namespace Binary

variable (f : Binary)

theorem decode_signBit_add {k : ℕ} (hk : k < f.signBit) :
    f.decode (f.signBit + k) = (f.decode k).neg := by
  have hmod : (f.signBit + k) % f.signBit = k := by
    rw [Nat.add_mod_left, Nat.mod_eq_of_lt hk]
  unfold decode
  simp only [hmod, Nat.mod_eq_of_lt hk, not_le.2 hk, Nat.le_add_right, decide_true, decide_false]
  split_ifs <;> rfl

/-- The value of a pattern without a sign. -/
theorem value?_decode_of_lt {k : ℕ} (hk : k < f.infinityBits) :
    (f.decode k).value? = some ((f.ladder k : ℝ) : EReal) := by
  obtain ⟨m, e, hdecode, hvalue⟩ := f.decode_of_lt hk
  rw [hdecode, ← hvalue]
  rfl

theorem value?_decode_infinityBits : (f.decode f.infinityBits).value? = some ⊤ := by
  rw [f.decode_of_le le_rfl f.infinityBits_lt_signBit, if_pos rfl]
  rfl

theorem of_value?_decode {k : ℕ} {r : EReal} (hk : k < f.signBit)
    (hr : (f.decode k).value? = some r) :
    (k < f.infinityBits ∧ r = (f.ladder k : ℝ)) ∨ (f.infinityBits ≤ k ∧ r = ⊤) := by
  rcases lt_or_ge k f.infinityBits with hlt | hge
  · rw [f.value?_decode_of_lt hlt] at hr
    exact Or.inl ⟨hlt, (Option.some.inj hr).symm⟩
  · rw [f.decode_of_le hge hk] at hr
    split_ifs at hr
    · exact Or.inr ⟨hge, (Option.some.inj hr).symm⟩
    · exact absurd hr (by simp [Value.value?])

/-- The patterns of positive values are in the order of the values. -/
theorem value?_decode_mono {j k : ℕ} {r s : EReal} (hjk : j ≤ k) (hk : k < f.signBit)
    (hr : (f.decode j).value? = some r) (hs : (f.decode k).value? = some s) : r ≤ s := by
  rcases f.of_value?_decode hk hs with ⟨hlt, rfl⟩ | ⟨-, rfl⟩
  · rw [f.value?_decode_of_lt (hjk.trans_lt hlt)] at hr
    obtain rfl := Option.some.inj hr
    exact EReal.coe_le_coe_iff.2 (f.ladder_strictMono.monotone hjk)
  · exact le_top

theorem value?_decode_nonneg {k : ℕ} {r : EReal} (hk : k < f.signBit)
    (hr : (f.decode k).value? = some r) : 0 ≤ r := by
  rcases f.of_value?_decode hk hr with ⟨-, rfl⟩ | ⟨-, rfl⟩
  · exact EReal.coe_nonneg.2 (f.ladder_nonneg k)
  · exact le_top

end Binary

end LocalGrid
