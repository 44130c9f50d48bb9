import LocalGrid.Random.Draw
import Mathlib.Algebra.Order.Ring.Nat

/-!
# Integers of a range

An integer of a range is the high word of a product of a random word and the length of the range,
which is below the length. Where it is the greatest one, the low word is too small for a carry to be
asked for, so that the carry of a second word does not leave the range either.
-/

namespace LocalGrid.Random

/-! ## Products of words -/

section

variable {w r : ℕ}

theorem high_lt (hw : w < 2 ^ 32) (hr : 0 < r) : w * r / 2 ^ 32 < r :=
  Nat.div_lt_of_lt_mul (Nat.mul_lt_mul_of_pos_right hw hr)

/-- A low word that asks for a carry leaves room for it. -/
theorem high_add_one_lt (hw : w < 2 ^ 32) (hlow : 2 ^ 32 - r < w * r % 2 ^ 32) :
    w * r / 2 ^ 32 + 1 < r := by
  have hle : w * r ≤ (2 ^ 32 - 1) * r := Nat.mul_le_mul_right r (by omega)
  omega

end

variable (a b : UInt32)

/-- A product of two words is not rounded in two words. -/
theorem toNat_mul_toUInt64 : (a.toUInt64 * b.toUInt64).toNat = a.toNat * b.toNat := by
  have hlt : a.toNat * b.toNat < 2 ^ 32 * 2 ^ 32 := Nat.mul_lt_mul'' a.toNat_lt b.toNat_lt
  rw [UInt64.toNat_mul, UInt32.toNat_toUInt64, UInt32.toNat_toUInt64]
  exact Nat.mod_eq_of_lt hlt

theorem toNat_wideProduct_fst : (wideProduct a b).1.toNat = a.toNat * b.toNat / 2 ^ 32 := by
  have hlt : a.toNat * b.toNat < 2 ^ 32 * 2 ^ 32 := Nat.mul_lt_mul'' a.toNat_lt b.toNat_lt
  rw [wideProduct, UInt64.toNat_toUInt32, UInt64.toNat_shiftRight, toNat_mul_toUInt64,
    Nat.shiftRight_eq_div_pow]
  exact Nat.mod_eq_of_lt (Nat.div_lt_of_lt_mul hlt)

theorem toNat_wideProduct_snd : (wideProduct a b).2.toNat = a.toNat * b.toNat % 2 ^ 32 := by
  rw [wideProduct, UInt64.toNat_toUInt32, toNat_mul_toUInt64]

/-! ## Draws -/

theorem wideProduct_fst_lt {r : UInt32} (hr : r ≠ 0) (w : UInt32) :
    (wideProduct w r).1.toNat < r.toNat := by
  rw [toNat_wideProduct_fst]
  exact high_lt w.toNat_lt (Nat.pos_of_ne_zero (mt (UInt32.toNat_inj (b := 0)).1 hr))

/-- Where a second word is asked for, the high word has room for a carry. -/
theorem wideProduct_fst_add_one_lt {r : UInt32} (hr : r ≠ 0) {w : UInt32}
    (hlow : 0 - r < (wideProduct w r).2) : (wideProduct w r).1.toNat + 1 < r.toNat := by
  have hpos : r.toNat ≠ 0 := mt (UInt32.toNat_inj (b := 0)).1 hr
  have hword := r.toNat_lt
  have hneg : (0 - r).toNat = 2 ^ 32 - r.toNat := by
    rw [UInt32.toNat_sub]
    change (2 ^ 32 - r.toNat + 0) % 2 ^ 32 = _
    omega
  rw [UInt32.lt_iff_toNat_lt, hneg, toNat_wideProduct_snd] at hlow
  rw [toNat_wideProduct_fst]
  exact high_add_one_lt w.toNat_lt hlow

variable {low high : UInt32}

/-- The length of a range, which is zero for the range of all words. -/
theorem toNat_length (h : low ≤ high) :
    (high - low + 1).toNat = (high.toNat - low.toNat + 1) % 2 ^ 32 := by
  rw [UInt32.toNat_add, UInt32.toNat_sub_of_le _ _ h]
  rfl

theorem mem_of_full (h : low ≤ high) (hfull : high - low + 1 = 0) (w : UInt32) :
    low ≤ w ∧ w ≤ high := by
  have hlength := toNat_length h
  rw [hfull, UInt32.toNat_zero] at hlength
  have hword := w.toNat_lt
  have hhigh := high.toNat_lt
  rw [UInt32.le_iff_toNat_le, UInt32.le_iff_toNat_le]
  omega

theorem add_mem (h : low ≤ high) {n : UInt32} (hn : n.toNat < (high - low + 1).toNat) :
    low ≤ low + n ∧ low + n ≤ high := by
  rw [toNat_length h] at hn
  have hhigh := high.toNat_lt
  have hle := UInt32.le_iff_toNat_le.1 h
  have hadd : (low + n).toNat = low.toNat + n.toNat := by
    rw [UInt32.toNat_add]
    exact Nat.mod_eq_of_lt (by omega)
  rw [UInt32.le_iff_toNat_le, UInt32.le_iff_toNat_le, hadd]
  omega

/-- A draw from a range is in the range, whatever words the stream has. -/
theorem inRange_mem (h : low ≤ high) (s : Stream) :
    low ≤ (inRange low high s).1 ∧ (inRange low high s).1 ≤ high := by
  unfold inRange
  obtain ⟨w, t⟩ := s.next
  dsimp only
  split_ifs with hfull hlow hfits
  · exact mem_of_full h hfull w
  · rw [UInt32.add_zero]
    exact add_mem h (wideProduct_fst_lt hfull w)
  · have hroom := wideProduct_fst_add_one_lt hfull hlow
    have hcarry : ((wideProduct w (high - low + 1)).1 + 1).toNat =
        (wideProduct w (high - low + 1)).1.toNat + 1 := by
      rw [UInt32.toNat_add]
      exact Nat.mod_eq_of_lt (Nat.lt_trans hroom (UInt32.toNat_lt _))
    rw [UInt32.add_assoc]
    exact add_mem h (hcarry ▸ hroom)
  · exact add_mem h (wideProduct_fst_lt hfull w)

end LocalGrid.Random
