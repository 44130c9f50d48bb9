import LocalGrid.Proofs.Binary.Conversion

/-!
# Patterns of finite values

A pattern of a finite value is a sign and a rung of the ladder, and it is given back by the number
that is made of it. So the number that is nearest to a fraction can be told by its sign and its
rounded value, also if that is zero.
-/

open Float.Model (Format UnpackedFloat)

namespace LocalGrid.Binary

section

variable (f : Binary) {negative : Bool} {k m : ℕ} {e : ℤ}

theorem decode_signed (hk : k < f.signBit) :
    f.decode ((if negative then f.signBit else 0) + k) =
      if negative then (f.decode k).neg else f.decode k := by
  cases negative with
  | true => simpa using f.decode_signBit_add hk
  | false => simp

/-- A rung with a sign is decoded to the value of the rung with this sign. -/
theorem decode_signed_of_lt (negative : Bool) (hk : k < f.infinityBits) :
    ∃ m e, f.decode ((if negative then f.signBit else 0) + k) = .finite negative m e ∧
      (m : ℝ) * 2 ^ e = f.ladder k := by
  obtain ⟨m, e, hdecode, hvalue⟩ := f.decode_of_lt hk
  refine ⟨m, e, ?_, hvalue⟩
  rw [f.decode_signed (hk.trans f.infinityBits_lt_signBit), hdecode]
  cases negative <;> rfl

theorem exists_sign {bits : ℕ} (hbits : bits < 2 * f.signBit) :
    ∃ negative : Bool, ∃ k < f.signBit, bits = (if negative then f.signBit else 0) + k := by
  rcases lt_or_ge bits f.signBit with hlt | hge
  · exact ⟨false, bits, hlt, (Nat.zero_add _).symm⟩
  · exact ⟨true, bits - f.signBit, by omega, (Nat.add_sub_of_le hge).symm⟩

/-- The pattern of a finite value is a rung with a sign. -/
theorem exists_of_decode_finite {bits : ℕ} (hbits : bits < 2 * f.signBit)
    (h : f.decode bits = .finite negative m e) :
    ∃ k < f.infinityBits, bits = (if negative then f.signBit else 0) + k ∧
      (m : ℝ) * 2 ^ e = f.ladder k := by
  obtain ⟨other, k, hk, rfl⟩ := f.exists_sign hbits
  have hfinite : k < f.infinityBits := by
    by_contra hle
    rw [f.decode_signed hk, f.decode_of_le (not_lt.1 hle) hk] at h
    cases other <;> split_ifs at h <;> cases h
  obtain ⟨m', e', hdecode, hvalue⟩ := f.decode_signed_of_lt other hfinite
  rw [h] at hdecode
  obtain ⟨rfl, rfl, rfl⟩ := Value.finite.inj hdecode
  exact ⟨k, hfinite, rfl, hvalue⟩

theorem eq_of_decode_infinite {bits : ℕ} (hbits : bits < 2 * f.signBit)
    (h : f.decode bits = .infinite negative) :
    bits = (if negative then f.signBit else 0) + f.infinityBits := by
  obtain ⟨other, k, hk, rfl⟩ := f.exists_sign hbits
  rcases lt_or_ge k f.infinityBits with hlt | hge
  · obtain ⟨m', e', hdecode, -⟩ := f.decode_signed_of_lt other hlt
    rw [h] at hdecode
    cases hdecode
  · rcases hge.eq_or_lt with rfl | hlt
    · rw [f.decode_signed hk, f.decode_of_le le_rfl hk, if_pos rfl] at h
      cases other <;> cases h <;> rfl
    · rw [f.decode_signed hk, f.decode_of_le hge hk, if_neg hlt.ne'] at h
      cases other <;> cases h

/-- The pattern nearest to a fraction is the rung of the rounded fraction, or infinity. -/
theorem exists_ladder_nearest (S : Format) (n : ℕ) {d : ℕ} (hd : 0 < d) :
    ∃ k, (ofFormat S).nearest n d = min k (ofFormat S).infinityBits ∧
      (ofFormat S).ladder k = Rounding.nearest S (n / d) := by
  rcases Nat.eq_zero_or_pos n with rfl | hn
  · exact ⟨0, by simp [nearest], by simp [ladder_zero]⟩
  · exact nearest_eq S hn hd

end

/-! ## Single precision -/

theorem not_isNaNBits {S : Format} {b : BitVec S.numBits}
    (h : UnpackedFloat.unpack S b ≠ .notANumber) : UnpackedFloat.isNaNBits b = false := by
  by_contra hnan
  obtain ⟨hexponent, hmantissa⟩ := of_decide_eq_true (Bool.not_eq_false _ ▸ hnan)
  exact h (by simp [UnpackedFloat.unpack, hexponent, hmantissa])

theorem singleOfBits_toBits (x : Float32) : singleOfBits x.toBits.toNat = x := by
  rw [singleOfBits, UInt32.ofNat_toNat, Float32.ofBits_toBits]

/-- Only the patterns of a `NaN` are changed. -/
theorem ofSingle_singleOfBits {k : ℕ} (hk : k < 2 ^ 32) (hnumber : single.decode k ≠ .nan) :
    ofSingle (singleOfBits k) = single.decode k := by
  have hbits : (UInt32.ofNat k).toBitVec.toNat = k := Nat.mod_eq_of_lt hk
  have hvalue := value?_decode_toNat .binary32 (UInt32.ofNat k).toBitVec
  rw [hbits] at hvalue
  have hunpack : UnpackedFloat.unpack .binary32 (UInt32.ofNat k).toBitVec ≠ .notANumber := by
    intro hnan
    rw [hnan] at hvalue
    apply hnumber
    change (single.decode k).value? = none at hvalue
    cases hdecode : single.decode k with
    | nan => rfl
    | infinite negative => simp [hdecode, Value.value?] at hvalue
    | finite negative m e => simp [hdecode, Value.value?] at hvalue
  have hpack := @UnpackedFloat.pack_unpack .binary32 (UInt32.ofNat k).toBitVec
  rw [not_isNaNBits hunpack, if_neg (by simp)] at hpack
  change single.decode (UnpackedFloat.pack .binary32
    (UnpackedFloat.unpack .binary32 (UInt32.ofNat k).toBitVec)).toNat = _
  rw [hpack, hbits]

variable {negative : Bool} {n d m : ℕ} {e : ℤ} {x : Float32}

theorem bits_lt (x : Float32) : x.toBits.toNat < 2 * single.signBit :=
  x.toBits.toNat_lt.trans_eq (by decide)

/-- The number nearest to a fraction within the range has its sign and its rounded value. -/
theorem ofSingle_nearestSigned (negative : Bool) (hd : 0 < d)
    (hlimit : Rounding.nearest .binary32 (n / d) < Rounding.limit .binary32) :
    ∃ m e, ofSingle (singleOfBits (single.nearestSigned negative n d)) = .finite negative m e ∧
      (m : ℝ) * 2 ^ e = Rounding.nearest .binary32 (n / d) := by
  obtain ⟨k, hk, hladder⟩ := exists_ladder_nearest .binary32 n hd
  have hlt : k < single.infinityBits := by
    rw [← hladder, ← ladder_infinityBits .binary32 (by decide)] at hlimit
    exact (ofFormat .binary32).ladder_strictMono.lt_iff_lt.1 hlimit
  have hnearest : single.nearestSigned negative n d =
      (if negative then single.signBit else 0) + k := by
    rw [nearestSigned]
    congr 1
    exact hk.trans (min_eq_left hlt.le)
  obtain ⟨m, e, hdecode, hvalue⟩ := single.decode_signed_of_lt negative hlt
  refine ⟨m, e, ?_, hvalue.trans hladder⟩
  rw [hnearest, ofSingle_singleOfBits _ (by rw [hdecode]; exact Value.noConfusion), hdecode]
  exact (single.signed_lt (hlt.trans single.infinityBits_lt_signBit)).trans_eq (by decide)

/-- A fraction that rounds to a number up to its sign is read as this number. -/
theorem singleOfBits_nearestSigned (hx : ofSingle x = .finite negative m e) (hd : 0 < d)
    (hvalue : Rounding.nearest .binary32 (n / d) = m * 2 ^ e) :
    singleOfBits (single.nearestSigned negative n d) = x := by
  obtain ⟨j, hj, hbits, hladder⟩ := single.exists_of_decode_finite (bits_lt x) hx
  obtain ⟨k, hk, hladder'⟩ := exists_ladder_nearest .binary32 n hd
  obtain rfl : k = j := (ofFormat .binary32).ladder_strictMono.injective
    (hladder'.trans (hvalue.trans hladder))
  have hnearest : single.nearestSigned negative n d = x.toBits.toNat := by
    rw [nearestSigned, hbits]
    congr 1
    exact hk.trans (min_eq_left hj.le)
  rw [hnearest, singleOfBits_toBits]

theorem eq_of_bits {y : Float32} (h : x.toBits.toNat = y.toBits.toNat) : x = y :=
  Float32.toBits_inj.1 (UInt32.toNat_inj.1 h)

/-- The sign of a value other than zero is that of the number it stands for. -/
theorem Value.exists_of_value? {v : Value} {r : EReal} (h : v.value? = some r) (hr : r ≠ 0) :
    (∃ m e, v = .finite (decide (r < 0)) m e ∧ (((m : ℝ) * 2 ^ e : ℝ) : EReal) = max r (-r)) ∨
      (v = .infinite (decide (r < 0)) ∧ max r (-r) = ⊤) := by
  cases v with
  | nan => simp [value?] at h
  | infinite negative =>
      obtain rfl := Option.some.inj h
      refine Or.inr ?_
      cases negative <;> simp
  | finite negative m e =>
      obtain rfl := Option.some.inj h
      have hnonneg : (0 : EReal) ≤ ((m : ℝ) * 2 ^ e : ℝ) := EReal.coe_nonneg.2 (by positivity)
      have hle := (EReal.neg_le_zero.2 hnonneg).trans hnonneg
      refine Or.inl ⟨m, e, ?_⟩
      cases negative with
      | true =>
          have hpos := lt_of_le_of_ne hnonneg fun heq => hr (by simp [← heq])
          simp only [if_true, neg_neg, max_eq_right hle, and_true]
          rw [decide_eq_true (EReal.neg_lt_zero.2 hpos)]
      | false =>
          simp only [Bool.false_eq_true, if_false, max_eq_left hle, and_true]
          rw [decide_eq_false (not_lt.2 hnonneg)]

/-- A number other than zero is known by its value. -/
theorem eq_of_value? {y : Float32} {r : EReal} (hx : PackedQuantity.value? x = some r)
    (hy : PackedQuantity.value? y = some r) (hr : r ≠ 0) : x = y := by
  rw [← value?_ofSingle] at hx hy
  rcases Value.exists_of_value? hx hr with ⟨m, e, hx, hm⟩ | ⟨hx, htop⟩ <;>
    rcases Value.exists_of_value? hy hr with ⟨n, d, hy, hn⟩ | ⟨hy, htop'⟩
  · obtain ⟨j, -, hbits, hj⟩ := single.exists_of_decode_finite (bits_lt x) hx
    obtain ⟨k, -, hbits', hk⟩ := single.exists_of_decode_finite (bits_lt y) hy
    have heq : single.ladder j = single.ladder k :=
      (hj.symm.trans (EReal.coe_injective (hm.trans hn.symm))).trans hk
    obtain rfl := single.ladder_strictMono.injective heq
    exact eq_of_bits (hbits.trans hbits'.symm)
  · exact absurd (hm.trans htop') (EReal.coe_ne_top _)
  · exact absurd (hn.trans htop) (EReal.coe_ne_top _)
  · exact eq_of_bits ((single.eq_of_decode_infinite (bits_lt x) hx).trans
      (single.eq_of_decode_infinite (bits_lt y) hy).symm)

end LocalGrid.Binary
