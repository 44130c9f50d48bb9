import LocalGrid.Proofs.Decimal.Interval
import LocalGrid.Proofs.Decimal.Places

/-!
# Reading shortest decimals

A finite number of single precision that is written in a layout is read back as it was, with its
sign. A layout may set the point and the exponent as it likes: each of the shapes stands for the
same product of a significand and a power of ten.
-/

namespace LocalGrid.Decimal

/-! ## Digits -/

theorem IsDigits.append {cs ds : List Char} (hcs : IsDigits cs) (hds : IsDigits ds) :
    IsDigits (cs ++ ds) := fun c hc => (List.mem_append.1 hc).elim (hcs c) (hds c)

theorem isDigits_zeros (k : ℕ) : IsDigits (List.replicate k '0') := by
  intro c hc
  rw [List.eq_of_mem_replicate hc]
  rfl

theorem valueOf_append_zeros (ds : List Char) (k : ℕ) :
    valueOf (ds ++ List.replicate k '0') = valueOf ds * 10 ^ k := by
  induction k with
  | zero => simp
  | succ k ih =>
      rw [List.replicate_succ', ← List.append_assoc, valueOf, List.foldl_append, ← valueOf, ih,
        Nat.pow_succ]
      change 10 * _ + 0 = _
      ring

namespace Digits

/-- The digits of the significand end in the zeros that are not written. -/
theorem digits_eq_significant_append (d : Digits) : ∃ k,
    digits d.significand = d.significant ++ List.replicate k '0' := by
  set ds := (digits d.significand).reverse with hds
  have hzeros : (ds.takeWhile (· == '0')).reverse =
      List.replicate (ds.takeWhile (· == '0')).length '0' :=
    List.eq_replicate_iff.2 ⟨List.length_reverse, fun c hc => by
      simpa using List.mem_takeWhile_imp (List.mem_reverse.1 hc)⟩
  refine ⟨(ds.takeWhile (· == '0')).length, ?_⟩
  calc digits d.significand = (ds.takeWhile (· == '0') ++ ds.dropWhile (· == '0')).reverse := by
        rw [List.takeWhile_append_dropWhile, hds, List.reverse_reverse]
    _ = d.significant ++ (ds.takeWhile (· == '0')).reverse := List.reverse_append
    _ = d.significant ++ List.replicate _ '0' := by rw [hzeros]

theorem isDigits_significant (d : Digits) : IsDigits d.significant := by
  obtain ⟨k, hdigits⟩ := d.digits_eq_significant_append
  intro c hc
  exact isDigits_digits d.significand c (hdigits ▸ List.mem_append_left _ hc)

/-- The digits without trailing zeros, with their weight. -/
theorem valueOf_significant_mul (d : Digits) :
    (valueOf d.significant : ℝ) * 10 ^ (d.leadingExponent + 1 - d.significant.length) =
      d.significand * 10 ^ d.exponent := by
  obtain ⟨k, hdigits⟩ := d.digits_eq_significant_append
  have hvalue := valueOf_digits d.significand
  rw [hdigits, valueOf_append_zeros] at hvalue
  have hexponent : d.leadingExponent + 1 - d.significant.length = k + d.exponent := by
    rw [leadingExponent, hdigits, List.length_append, List.length_replicate]
    push_cast
    ring
  rw [hexponent, zpow_add₀ (by norm_num), zpow_natCast, ← mul_assoc]
  congr 1
  exact_mod_cast hvalue

theorem significant_ne_nil {d : Digits} (hd : 0 < d.significand) : d.significant ≠ [] := by
  intro hnil
  obtain ⟨k, hdigits⟩ := d.digits_eq_significant_append
  have hvalue := valueOf_digits d.significand
  rw [hdigits, hnil, valueOf_append_zeros] at hvalue
  exact hd.ne' (hvalue.symm.trans (Nat.zero_mul _))

end Digits

/-! ## Shapes -/

/-- A text that starts with a digit and is read as a number of the given magnitude. -/
def Denotes (cs : List Char) (x : ℝ) : Prop :=
  ∃ whole rest, cs = whole ++ rest ∧ IsDigits whole ∧ whole ≠ [] ∧ ∀ negative, ∃ k e,
    readUnsigned? negative cs = some ⟨negative, k, e⟩ ∧ (k : ℝ) * 10 ^ e = x

section

variable {whole fraction ds : List Char} {x : ℝ} {e : ℤ}

theorem denotes_digits (h : IsDigits whole) (hne : whole ≠ []) (hx : (valueOf whole : ℝ) = x) :
    Denotes whole x := by
  refine ⟨whole, [], (List.append_nil _).symm, h, hne, fun negative =>
    ⟨_, _, readUnsigned?_digits negative h hne, ?_⟩⟩
  rw [zpow_zero, mul_one, hx]

theorem denotes_point (h : IsDigits whole) (hne : whole ≠ []) (hfraction : IsDigits fraction)
    (hx : (valueOf (whole ++ fraction) : ℝ) * 10 ^ (-fraction.length : ℤ) = x) :
    Denotes (whole ++ '.' :: fraction) x :=
  ⟨whole, '.' :: fraction, rfl, h, hne, fun negative =>
    ⟨_, _, readUnsigned?_point negative h hne hfraction, hx⟩⟩

/-- Leading zeros after the point. -/
theorem denotes_small (h : IsDigits ds) (k : ℕ) :
    Denotes (['0'] ++ '.' :: (List.replicate k '0' ++ ds))
      (valueOf ds * 10 ^ (-(k + ds.length) : ℤ)) := by
  refine denotes_point (isDigits_zeros 1) (by decide) ((isDigits_zeros k).append h) ?_
  have hvalue : valueOf (['0'] ++ (List.replicate k '0' ++ ds)) = valueOf ds :=
    (valueOf_zeros_append 1 _).trans (valueOf_zeros_append k ds)
  rw [hvalue, List.length_append, List.length_replicate, Nat.cast_add]

/-- Trailing zeros, with or without a point after them. -/
theorem denotes_whole (l : Layout) (h : IsDigits ds) (hne : ds ≠ []) (k : ℕ) :
    Denotes (ds ++ List.replicate k '0' ++ if l.keepsPoint then ['.', '0'] else [])
      (valueOf ds * 10 ^ k) := by
  have hdigits := h.append (isDigits_zeros k)
  have hne' : ds ++ List.replicate k '0' ≠ [] := by simp [hne]
  have hvalue : (valueOf (ds ++ List.replicate k '0') : ℝ) = valueOf ds * 10 ^ k := by
    rw [valueOf_append_zeros]
    push_cast
    rfl
  split
  · refine denotes_point hdigits hne' (isDigits_zeros 1) ?_
    have hpoint : valueOf (ds ++ List.replicate k '0' ++ ['0']) =
        valueOf (ds ++ List.replicate k '0') * 10 := valueOf_append_zeros _ 1
    rw [hpoint, Nat.cast_mul, hvalue]
    simp
  · rw [List.append_nil]
    exact denotes_digits hdigits hne' hvalue

theorem denotes_plain (l : Layout) (h : IsDigits ds) (hne : ds ≠ []) :
    Denotes (l.plain ds e) (valueOf ds * 10 ^ (e + 1 - ds.length)) := by
  have hlength : 0 < ds.length := List.length_pos_iff.2 hne
  by_cases he : e < 0
  · have hexponent : e + 1 - ds.length = -((-e - 1).toNat + ds.length : ℤ) := by omega
    rw [Layout.plain, if_pos he, hexponent]
    exact denotes_small h _
  rw [Layout.plain, if_neg he]
  dsimp only
  by_cases hshort : ds.length ≤ e.toNat + 1
  · have hexponent : e + 1 - ds.length = (e.toNat + 1 - ds.length : ℕ) := by omega
    rw [if_pos hshort, hexponent, zpow_natCast]
    exact denotes_whole l h hne _
  · have hexponent : -((ds.drop (e.toNat + 1)).length : ℤ) = e + 1 - ds.length := by
      rw [List.length_drop]
      omega
    rw [if_neg hshort, List.append_assoc, ← hexponent]
    refine denotes_point (fun c hc => h c (List.mem_of_mem_take hc)) (by simp [hne])
      (fun c hc => h c (List.mem_of_mem_drop hc)) ?_
    exact congrArg (fun cs => (valueOf cs : ℝ) * _) (List.take_append_drop _ ds)

theorem readExponent?_digits (e : ℤ) :
    readExponent? ('e' :: (if e < 0 then '-' else '+') :: digits e.natAbs) = some e := by
  have hempty : (digits e.natAbs).isEmpty = false := by simp [digits_ne_nil]
  have hall : (digits e.natAbs).all Char.isDigit = true := List.all_eq_true.2 (isDigits_digits _)
  by_cases he : e < 0
  · simp only [readExponent?, if_pos he, hempty, hall, valueOf_digits]
    simp [abs_of_neg he]
  · simp only [readExponent?, if_neg he, hempty, hall, valueOf_digits]
    simp [abs_of_nonneg (not_lt.1 he)]

theorem readUnsigned?_exponent {rest : List Char} (negative : Bool) (h : IsDigits whole)
    (hne : whole ≠ []) (he : readExponent? ('e' :: rest) = some e) :
    readUnsigned? negative (whole ++ 'e' :: rest) = some ⟨negative, valueOf whole, e⟩ := by
  simp [readUnsigned?, takeDigits_append h, hne, he]

theorem readUnsigned?_point_exponent {rest : List Char} (negative : Bool) (h : IsDigits whole)
    (hne : whole ≠ []) (hfraction : IsDigits fraction)
    (he : readExponent? ('e' :: rest) = some e) :
    readUnsigned? negative (whole ++ '.' :: (fraction ++ 'e' :: rest)) =
      some ⟨negative, valueOf (whole ++ fraction), e - fraction.length⟩ := by
  simp [readUnsigned?, takeDigits_append h, takeDigits_append hfraction, hne, he]

theorem denotes_scientific (h : IsDigits ds) (hne : ds ≠ []) :
    Denotes (scientific ds e) (valueOf ds * 10 ^ (e + 1 - ds.length)) := by
  obtain ⟨c, fraction, rfl⟩ := List.exists_cons_of_ne_nil hne
  obtain ⟨hc, hfraction⟩ := List.forall_mem_cons.1 h
  have hwhole : IsDigits [c] := List.forall_mem_singleton.2 hc
  have hexponent := readExponent?_digits e
  refine ⟨[c], _, (List.append_assoc _ _ _).trans (List.append_assoc _ _ _), hwhole,
    List.cons_ne_nil _ _, fun negative => ⟨valueOf (c :: fraction), e - fraction.length, ?_, ?_⟩⟩
  · cases fraction with
    | nil =>
        rw [List.length_nil, Nat.cast_zero, sub_zero]
        exact readUnsigned?_exponent negative hwhole (List.cons_ne_nil _ _) hexponent
    | cons d fraction =>
        have htext : scientific (c :: d :: fraction) e = [c] ++ '.' :: (d :: fraction ++
            'e' :: (if e < 0 then '-' else '+') :: digits e.natAbs) := by
          simp [scientific]
        rw [htext]
        exact readUnsigned?_point_exponent negative hwhole (List.cons_ne_nil _ _) hfraction
          hexponent
  · congr 2
    rw [List.length_cons]
    push_cast
    ring

theorem denotes_write (l : Layout) {d : Digits} (hd : 0 < d.significand) :
    Denotes (l.write d).toList (d.significand * 10 ^ d.exponent) := by
  have hdigits := d.isDigits_significant
  have hne := Digits.significant_ne_nil hd
  rw [Layout.write, String.toList_ofList, ← d.valueOf_significant_mul]
  split_ifs
  · exact denotes_plain l hdigits hne
  · exact denotes_scientific hdigits hne

end

/-! ## Numerals -/

/-- A numeral in the range of the formats is rounded as a fraction. -/
theorem Numeral.nearest_of_bounds (f : Binary) {n : Numeral} (hn : 0 < n.significand)
    (hlow : (10 : ℝ) ^ (-1000 : ℤ) ≤ n.significand * 10 ^ n.exponent)
    (hhigh : (n.significand : ℝ) * 10 ^ n.exponent < 10 ^ (1000 : ℤ)) :
    n.nearest f = f.nearestSigned n.negative (n.significand * tenPow n.exponent.toNat)
      (tenPow (-n.exponent).toNat) := by
  have hpower : (0 : ℝ) < 10 ^ n.exponent := by positivity
  set length := (digits n.significand).length with hlength
  have hpos : 1 ≤ length := Nat.length_toDigits_pos
  have habove : (n.significand : ℝ) * 10 ^ n.exponent < 10 ^ (n.exponent + length) := by
    rw [zpow_add₀ (by norm_num), mul_comm, zpow_natCast]
    exact mul_lt_mul_of_pos_left (by exact_mod_cast lt_ten_pow_length n.significand) hpower
  have hbelow : (10 : ℝ) ^ (n.exponent + length - 1) ≤ n.significand * 10 ^ n.exponent := by
    rw [add_sub_assoc, ← Nat.cast_one, ← Nat.cast_sub hpos, zpow_add₀ (by norm_num), mul_comm,
      zpow_natCast]
    exact mul_le_mul_of_nonneg_right (by exact_mod_cast ten_pow_length_le hn) hpower.le
  -- the exponent of the leading digit is the order of magnitude, so neither bound is passed
  have hover : -1000 < n.exponent + length :=
    (zpow_lt_zpow_iff_right₀ (by norm_num : (1 : ℝ) < 10)).1 (hlow.trans_lt habove)
  have hunder : n.exponent + length - 1 < 1000 :=
    (zpow_lt_zpow_iff_right₀ (by norm_num : (1 : ℝ) < 10)).1 (hbelow.trans_lt hhigh)
  rw [digits] at hlength
  rw [Numeral.nearest, ← hlength, if_neg (by omega), if_neg (by omega)]

/-! ## Finite numbers -/

open Binary

variable {x y : Float32} {negative : Bool} {m : ℕ} {e : ℤ}

theorem exists_of_isFinite (h : Quantity.isFinite x = true) :
    ∃ negative m e, ofSingle x = .finite negative m e := by
  obtain ⟨r, hr⟩ := PackedQuantity.isFinite_iff.1 h
  rw [← value?_ofSingle] at hr
  cases hx : ofSingle x with
  | nan => simp [hx, Value.value?] at hr
  | infinite negative => cases negative <;> simp [hx, Value.value?] at hr
  | finite negative m e => exact ⟨negative, m, e, rfl⟩

theorem IsNear.significand_pos {f : Binary} {k : ℕ} {g : ℤ} (h : IsNear f m e (k * 10 ^ g))
    (hm : 0 < m) : 0 < k := by
  refine Nat.pos_of_ne_zero ?_
  rintro rfl
  have hbelow := h.le_below
  have hm' : (1 : ℝ) ≤ m := by exact_mod_cast hm
  have hpos : (0 : ℝ) < (m - 1 / 2) * 2 ^ e := mul_pos (by linarith) (by positivity)
  rw [Nat.cast_zero, zero_mul] at hbelow
  exact absurd hpos (not_lt.2 hbelow)

/-- The shortest decimal of a finite number is rounded to the number. -/
theorem toSingle_of_isNear {k : ℕ} {g : ℤ} (hx : ofSingle x = .finite negative m e) (hm : 0 < m)
    (h : IsNear single m e (k * 10 ^ g)) :
    (Reading.number ⟨negative, k, g⟩).toSingle = x := by
  have hcanonical : single.IsCanonical m e := isCanonical_of_decode hx
  have hm' : (1 : ℝ) ≤ m := by exact_mod_cast hm
  have hunit : (0 : ℝ) < 2 ^ e := by positivity
  have hlow : (10 : ℝ) ^ (-1000 : ℤ) ≤ k * 10 ^ g := by
    have hunit' : (2 : ℝ) ^ (-149 : ℤ) ≤ 2 ^ e :=
      zpow_le_zpow_right₀ (by norm_num) hcanonical.le_exponent
    calc (10 : ℝ) ^ (-1000 : ℤ) ≤ 10 ^ (-50 : ℤ) := zpow_le_zpow_right₀ (by norm_num) (by norm_num)
      _ ≤ (1 - 1 / 2) * 2 ^ (-149 : ℤ) := by norm_num
      _ ≤ (m - 1 / 2) * 2 ^ e := mul_le_mul (by linarith) hunit' (by positivity) (by linarith)
      _ ≤ k * 10 ^ g := h.le_below
  have hhigh : (k : ℝ) * 10 ^ g < 10 ^ (1000 : ℤ) := by
    have hlimit := lt_limit_of_finite hx
    calc (k : ℝ) * 10 ^ g ≤ (m + 1 / 2) * 2 ^ e := h.le_above
      _ ≤ 2 * (m * 2 ^ e) := by nlinarith
      _ < 2 * Rounding.limit .binary32 := by linarith
      _ < 10 ^ (50 : ℤ) := by norm_num [Rounding.limit]
      _ ≤ 10 ^ (1000 : ℤ) := zpow_le_zpow_right₀ (by norm_num) (by norm_num)
  have hnearest : Rounding.nearest .binary32 ((k * tenPow g.toNat : ℕ) / (tenPow (-g).toNat : ℕ)) =
      m * 2 ^ e := by
    rw [Nat.cast_mul, mul_div_assoc, ← ten_zpow_eq]
    exact nearest_of_isNear .binary32 hcanonical hm h
  rw [Reading.toSingle, Reading.nearest,
    Numeral.nearest_of_bounds single (h.significand_pos hm) hlow hhigh]
  exact singleOfBits_nearestSigned hx (tenPow_pos _) hnearest

theorem toSingle_zero (hx : ofSingle x = .finite negative 0 e) (g : ℤ) :
    (Reading.number ⟨negative, 0, g⟩).toSingle = x := by
  rw [Reading.toSingle, Reading.nearest, Numeral.nearest, if_pos (Or.inl rfl)]
  refine singleOfBits_nearestSigned hx one_pos ?_
  rw [Nat.cast_zero, zero_div, zero_mul, Rounding.nearest_zero]

theorem Denotes.read {cs : List Char} {r : ℝ} {text : String} (h : Denotes cs r)
    (htext : text.toList = (sign negative).toList ++ cs) :
    ∃ k g, Decimal.read text = .ok (.number ⟨negative, k, g⟩) ∧ (k : ℝ) * 10 ^ g = r := by
  obtain ⟨whole, rest, rfl, hdigits, hne, hread⟩ := h
  obtain ⟨k, g, hunsigned, hvalue⟩ := hread negative
  exact ⟨k, g, read_of_digits htext hdigits hne hunsigned, hvalue⟩

/-- A finite number that is written in a layout is read back, with its sign. -/
theorem Layout.read_single (l : Layout) (hx : ofSingle x = .finite negative m e) :
    ∃ n, Decimal.read (l.single x) = .ok (.number n) ∧ (Reading.number n).toSingle = x := by
  rcases Nat.eq_zero_or_pos m with rfl | hm
  · have htext : (l.single x).toList = (sign negative).toList ++
        (['0'] ++ List.replicate 0 '0' ++ if l.keepsPoint then ['.', '0'] else []) := by
      rw [Layout.single, hx, Layout.text, if_pos rfl, String.toList_append]
      congr 1
      split <;> rfl
    obtain ⟨k, g, hread, hvalue⟩ :=
      (denotes_whole l (isDigits_zeros 1) (List.cons_ne_nil _ _) 0).read htext
    have hk : k = 0 := by
      have hzero : (k : ℝ) * 10 ^ g = 0 := by
        rw [hvalue]
        simp [valueOf]
      exact_mod_cast (mul_eq_zero.1 hzero).resolve_right (zpow_ne_zero g (by norm_num))
    subst hk
    exact ⟨_, hread, toSingle_zero hx g⟩
  · have htext : (l.single x).toList =
        (sign negative).toList ++ (l.write (shortest Binary.single l.tie m e)).toList := by
      rw [Layout.single, hx, Layout.text, if_neg hm.ne', String.toList_append]
    have hdigits : 2 * m < 10 ^ 16 := by
      have hlt : m < 2 * 8388608 := (isCanonical_of_decode hx).lt
      omega
    have hnear := isNear_of_contains hm (contains_shortest Binary.single l.tie e hm hdigits)
    have hpos : 0 < (shortest Binary.single l.tie m e).significand :=
      hnear.significand_pos hm
    obtain ⟨k, g, hread, hvalue⟩ := (denotes_write l hpos).read htext
    rw [← hvalue] at hnear
    exact ⟨_, hread, toSingle_of_isNear hx hm hnear⟩

/-- No two finite numbers have the same text, not even two zeros. -/
theorem Layout.single_inj (l : Layout) (hx : Quantity.isFinite x = true)
    (hy : Quantity.isFinite y = true) (h : l.single x = l.single y) : x = y := by
  obtain ⟨negative, m, e, hx⟩ := exists_of_isFinite hx
  obtain ⟨negative', m', e', hy⟩ := exists_of_isFinite hy
  obtain ⟨n, hread, hn⟩ := l.read_single hx
  obtain ⟨n', hread', hn'⟩ := l.read_single hy
  rw [h, hread'] at hread
  cases hread
  exact hn.symm.trans hn'

end LocalGrid.Decimal
