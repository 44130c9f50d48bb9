import LocalGrid.Proofs.Quantity.Packed
import LocalGrid.Ramp

/-!
# When a limit can be kept

Each limited value lies between the value that is limited and the one before it. So a series that
is finite and not negative stays so, and a constant series is not changed. A limit is only lost
where its window has no bounds: with an infinite rate, after an infinite value.
-/

namespace LocalGrid

open Quantity

variable {α : Type} [Quantity α]

theorem rampFrom?_cons_eq_some_iff {rate previous x : α} {xs ys : List α} :
    rampFrom? rate previous (x :: xs) = some ys ↔
      ∃ y rest, clamp? x (previous - rate) (previous + rate) = some y ∧
        rampFrom? rate y xs = some rest ∧ ys = y :: rest := by
  simp only [rampFrom?, Option.bind_eq_bind, Option.bind_eq_some_iff, Option.pure_def,
    Option.some.injEq, eq_comm (b := ys)]
  constructor
  · rintro ⟨y, hy, rest, hrest, heq⟩
    exact ⟨y, rest, hy, hrest, heq⟩
  · rintro ⟨y, rest, hy, hrest, heq⟩
    exact ⟨y, hy, rest, hrest, heq⟩

theorem ramp?_cons_eq_some_iff {rate x : α} {xs ys : List α} :
    ramp? rate (x :: xs) = some ys ↔
      ∃ rest, rampFrom? (positivePart rate) x xs = some rest ∧ ys = x :: rest := by
  simp only [ramp?, Option.map_eq_some_iff, eq_comm (b := ys)]

theorem rampFrom?_take {rate previous : α} {xs ys : List α}
    (h : rampFrom? rate previous xs = some ys) (k : ℕ) :
    rampFrom? rate previous (xs.take k) = some (ys.take k) := by
  induction xs generalizing previous ys k with
  | nil =>
      obtain rfl : [] = ys := Option.some.inj h
      simp [rampFrom?]
  | cons x xs ih =>
      obtain ⟨y, rest, hy, hrest, rfl⟩ := rampFrom?_cons_eq_some_iff.1 h
      cases k with
      | zero => rfl
      | succ k => exact rampFrom?_cons_eq_some_iff.2 ⟨y, _, hy, ih hrest k, rfl⟩

/-- A limited value depends on the values up to it only. -/
theorem ramp?_take {rate : α} {xs ys : List α} (h : ramp? rate xs = some ys) (k : ℕ) :
    ramp? rate (xs.take k) = some (ys.take k) := by
  cases xs with
  | nil =>
      obtain rfl : [] = ys := Option.some.inj h
      simp [ramp?]
  | cons x xs =>
      obtain ⟨rest, hrest, rfl⟩ := ramp?_cons_eq_some_iff.1 h
      cases k with
      | zero => rfl
      | succ k => exact ramp?_cons_eq_some_iff.2 ⟨_, rampFrom?_take hrest k, rfl⟩

/-- `y` lies between `x` and `p`, on either side of `p`. -/
def Between (x y p : α) : Prop := x ≤ y ∧ y ≤ p ∨ p ≤ y ∧ y ≤ x

section Rounded

variable [RoundedQuantity α]

open RoundedQuantity

theorem Between.nonneg {x y p : α} (h : Between x y p) (hx : 0 ≤ x) (hp : 0 ≤ p) : 0 ≤ y := by
  rcases h with ⟨hxy, -⟩ | ⟨hpy, -⟩
  · exact le_trans hx hxy
  · exact le_trans hp hpy

theorem Between.isFinite {x y p : α} (h : Between x y p) (hx : isFinite x = true)
    (hp : isFinite p = true) : isFinite y = true := by
  rcases h with ⟨hxy, hyp⟩ | ⟨hpy, hyx⟩
  · exact isFinite_of_le_of_le hx hp hxy hyp
  · exact isFinite_of_le_of_le hp hx hpy hyx

/-- Clamping moves a value towards a point of the interval, and never past it. -/
theorem clamp?_between {lo hi p x : α} (hlo : lo ≤ p) (hhi : p ≤ hi) (hx : IsNumber x) :
    ∃ y, clamp? x lo hi = some y ∧ Between x y p := by
  rw [clamp?_of_le (le_trans hlo hhi)]
  refine ⟨_, rfl, ?_⟩
  split_ifs with h1 h2
  · exact Or.inl ⟨le_of_lt h1, hlo⟩
  · exact Or.inr ⟨hhi, le_of_lt h2⟩
  · rcases lt_or_le hx (isNumber_right hlo) with h | h
    · exact Or.inl ⟨hx, le_of_lt h⟩
    · exact Or.inr ⟨h, hx⟩

/-- The window around a value reaches it from below, unless both have no end. -/
theorem window_le {previous rate : α} (hp : 0 ≤ previous) (hr : 0 ≤ rate)
    (h : isFinite rate = true ∨ isFinite previous = true) : previous - rate ≤ previous := by
  cases hprevious : isFinite previous with
  | true => exact sub_le hprevious hr
  | false =>
      have htop := value?_eq_top hp hprevious
      obtain ⟨s, hs⟩ := isFinite_iff.1 (h.resolve_right (by simp [hprevious]))
      have hdiff := value?_sub htop hs (fun _ => EReal.coe_ne_top s) (fun h => absurd h top_ne_bot)
      rw [EReal.top_sub_coe, round_value htop] at hdiff
      exact (le_iff_of_value hdiff htop).2 le_rfl

theorem window_between {previous rate x : α} (hp : 0 ≤ previous) (hr : 0 ≤ rate)
    (hx : IsNumber x) (h : isFinite rate = true ∨ isFinite previous = true) :
    ∃ y, clamp? x (previous - rate) (previous + rate) = some y ∧ Between x y previous :=
  clamp?_between (window_le hp hr h) (le_add_of_nonneg hp hr) hx

/-- A series that is not negative can be limited if the rate is finite or no value before the last
one is infinite. -/
theorem exists_rampFrom? {rate previous : α} {xs : List α} (hr : 0 ≤ rate) (hp : 0 ≤ previous)
    (hxs : ∀ x ∈ xs, 0 ≤ x)
    (h : isFinite rate = true ∨ ∀ x ∈ (previous :: xs).dropLast, isFinite x = true) :
    ∃ ys, rampFrom? rate previous xs = some ys := by
  induction xs generalizing previous with
  | nil => exact ⟨[], rfl⟩
  | cons x xs ih =>
      have hx := hxs x List.mem_cons_self
      obtain ⟨y, hy, hbetween⟩ := window_between hp hr (isNumber_right hx)
        (h.imp_right fun hall => hall previous (by simp))
      have hnext : isFinite rate = true ∨ ∀ z ∈ (y :: xs).dropLast, isFinite z = true := by
        refine h.imp_right fun hall => ?_
        cases xs with
        | nil => simp
        | cons x' xs =>
            have hyfinite := hbetween.isFinite (hall x (by simp)) (hall previous (by simp))
            intro z hz
            rcases List.mem_cons.1 hz with rfl | hz
            · exact hyfinite
            · exact hall z (List.mem_cons_of_mem _ (List.mem_cons_of_mem _ hz))
      obtain ⟨ys, hys⟩ := ih (hbetween.nonneg hx hp)
        (List.forall_mem_cons.1 hxs).2 hnext
      exact ⟨y :: ys, rampFrom?_cons_eq_some_iff.2 ⟨y, ys, hy, hys, rfl⟩⟩

theorem nonneg_of_rampFrom? {rate previous : α} {xs ys : List α} (hr : 0 ≤ rate)
    (hp : 0 ≤ previous) (hxs : ∀ x ∈ xs, 0 ≤ x) (h : rampFrom? rate previous xs = some ys) :
    ∀ y ∈ ys, 0 ≤ y := by
  induction xs generalizing previous ys with
  | nil =>
      obtain rfl : [] = ys := Option.some.inj h
      simp
  | cons x xs ih =>
      obtain ⟨y, rest, hy, hrest, rfl⟩ := rampFrom?_cons_eq_some_iff.1 h
      have hnonneg := le_of_clamp? hy (hxs x List.mem_cons_self) (nonneg_add hp hr)
      exact List.forall_mem_cons.2
        ⟨hnonneg, ih hnonneg (List.forall_mem_cons.1 hxs).2 hrest⟩

/-- The window around a finite value reaches it from both sides. -/
theorem window_between_of_isFinite {previous rate x : α} (hp : isFinite previous = true)
    (hr : 0 ≤ rate) (hx : IsNumber x) :
    ∃ y, clamp? x (previous - rate) (previous + rate) = some y ∧ Between x y previous :=
  clamp?_between (sub_le hp hr) (le_add hp hr) hx

theorem isFinite_of_rampFrom? {rate previous : α} {xs ys : List α} (hr : 0 ≤ rate)
    (hp : isFinite previous = true) (hxs : ∀ x ∈ xs, isFinite x = true)
    (h : rampFrom? rate previous xs = some ys) : ∀ y ∈ ys, isFinite y = true := by
  induction xs generalizing previous ys with
  | nil =>
      obtain rfl : [] = ys := Option.some.inj h
      simp
  | cons x xs ih =>
      obtain ⟨y, rest, hy, hrest, rfl⟩ := rampFrom?_cons_eq_some_iff.1 h
      obtain ⟨hx, hxs⟩ := List.forall_mem_cons.1 hxs
      obtain ⟨y', hy', hbetween⟩ := window_between_of_isFinite hp hr (isNumber_of_isFinite hx)
      obtain rfl : y = y' := Option.some.inj (hy.symm.trans hy')
      have hyfinite := hbetween.isFinite hx hp
      exact List.forall_mem_cons.2 ⟨hyfinite, ih hyfinite hxs hrest⟩

/-! ## Whole series -/

theorem exists_ramp? {rate : α} {xs : List α} (hxs : ∀ x ∈ xs, 0 ≤ x)
    (h : isFinite (positivePart rate) = true ∨ ∀ x ∈ xs.dropLast, isFinite x = true) :
    ∃ ys, ramp? rate xs = some ys := by
  cases xs with
  | nil => exact ⟨[], rfl⟩
  | cons x xs =>
      obtain ⟨ys, hys⟩ := exists_rampFrom? (positivePart_nonneg rate) (hxs x List.mem_cons_self)
        (List.forall_mem_cons.1 hxs).2 h
      exact ⟨x :: ys, ramp?_cons_eq_some_iff.2 ⟨ys, hys, rfl⟩⟩

theorem nonneg_of_ramp? {rate : α} {xs ys : List α} (hxs : ∀ x ∈ xs, 0 ≤ x)
    (h : ramp? rate xs = some ys) : ∀ y ∈ ys, 0 ≤ y := by
  cases xs with
  | nil =>
      obtain rfl : [] = ys := Option.some.inj h
      simp
  | cons x xs =>
      obtain ⟨rest, hrest, rfl⟩ := ramp?_cons_eq_some_iff.1 h
      have hx := hxs x List.mem_cons_self
      exact List.forall_mem_cons.2 ⟨hx, nonneg_of_rampFrom? (positivePart_nonneg rate) hx
        (List.forall_mem_cons.1 hxs).2 hrest⟩

theorem isFinite_of_ramp? {rate : α} {xs ys : List α} (hxs : ∀ x ∈ xs, isFinite x = true)
    (h : ramp? rate xs = some ys) : ∀ y ∈ ys, isFinite y = true := by
  cases xs with
  | nil =>
      obtain rfl : [] = ys := Option.some.inj h
      simp
  | cons x xs =>
      obtain ⟨rest, hrest, rfl⟩ := ramp?_cons_eq_some_iff.1 h
      obtain ⟨hx, hxs⟩ := List.forall_mem_cons.1 hxs
      exact List.forall_mem_cons.2
        ⟨hx, isFinite_of_rampFrom? (positivePart_nonneg rate) hx hxs hrest⟩

theorem rampFrom?_replicate {rate x : α} (hr : 0 ≤ rate) (hx : isFinite x = true) (n : ℕ) :
    rampFrom? rate x (List.replicate n x) = some (List.replicate n x) := by
  induction n with
  | zero => rfl
  | succ n ih =>
      have hle := sub_le hx hr
      have hadd := le_add hx hr
      obtain ⟨y, hy, -, -, heq⟩ := clamp?_spec (le_trans hle hadd) (isNumber_of_isFinite hx)
      obtain rfl := heq hle hadd
      exact rampFrom?_cons_eq_some_iff.2 ⟨_, _, hy, ih, rfl⟩

/-- A constant series is not changed by a limit. -/
theorem ramp?_replicate {x : α} (hx : isFinite x = true) (rate : α) (n : ℕ) :
    ramp? rate (List.replicate n x) = some (List.replicate n x) := by
  cases n with
  | zero => rfl
  | succ n =>
      exact ramp?_cons_eq_some_iff.2
        ⟨_, rampFrom?_replicate (positivePart_nonneg rate) hx n, rfl⟩

end Rounded

/-! ## Where a limit is lost -/

section Packed

variable [PackedQuantity α]

open RoundedQuantity

theorem isFinite_of_window {previous rate : α} (hp : 0 ≤ previous) (hr : 0 ≤ rate)
    (h : IsNumber (previous - rate)) : isFinite rate = true ∨ isFinite previous = true := by
  by_contra hnot
  simp only [not_or, Bool.not_eq_true] at hnot
  obtain ⟨r, hr'⟩ := isNumber_iff.1 h
  have hnone := PackedQuantity.value?_sub_of_infinite (value?_eq_top hp hnot.2)
    (value?_eq_top hr hnot.1)
  exact absurd (hnone.symm.trans hr') (by simp)

/-- The bounds of a window without an end are infinite. -/
theorem eq_of_clamp?_window {previous rate x y : α} (hp : 0 ≤ previous)
    (hpfinite : isFinite previous = true) (hr : 0 ≤ rate) (hrinfinite : isFinite rate = false)
    (h : clamp? x (previous - rate) (previous + rate) = some y) (hy : isFinite y = true) :
    y = x := by
  obtain ⟨r, hr'⟩ := isFinite_iff.1 hpfinite
  have htop := value?_eq_top hr hrinfinite
  have hlow := value?_sub hr' htop (fun h => absurd h (EReal.coe_ne_top r))
    (fun h => absurd h (EReal.coe_ne_bot r))
  have hhigh := value?_add hr' htop (fun h => absurd h (EReal.coe_ne_top r))
    (fun h => absurd h (EReal.coe_ne_bot r))
  rw [EReal.sub_top, round_bot htop] at hlow
  rw [EReal.coe_add_top, round_value htop] at hhigh
  have hlow' := isFinite_eq_false_of_value hlow fun s => (EReal.coe_ne_bot s).symm
  have hhigh' := isFinite_eq_false_of_value hhigh fun s => (EReal.coe_ne_top s).symm
  rw [clamp?_of_le (le_trans (window_le hp hr (Or.inr hpfinite)) (le_add_of_nonneg hp hr)),
    Option.some.injEq] at h
  subst h
  split_ifs at hy ⊢ with h1 h2
  · simp [hlow'] at hy
  · simp [hhigh'] at hy
  · rfl

theorem isFinite_of_rampFrom?_eq_some {rate previous : α} {xs ys : List α} (hr : 0 ≤ rate)
    (hp : 0 ≤ previous) (hxs : ∀ x ∈ xs, 0 ≤ x) (h : rampFrom? rate previous xs = some ys) :
    isFinite rate = true ∨ ∀ x ∈ (previous :: xs).dropLast, isFinite x = true := by
  induction xs generalizing previous ys with
  | nil => simp
  | cons x xs ih =>
      obtain ⟨y, rest, hy, hrest, -⟩ := rampFrom?_cons_eq_some_iff.1 h
      have hx := hxs x List.mem_cons_self
      have hwindow := isNumber_left (le_of_clamp?_eq_some hy)
      rcases isFinite_of_window hp hr hwindow with hfinite | hfinite
      · exact Or.inl hfinite
      · cases hrate : isFinite rate with
        | true => exact Or.inl rfl
        | false =>
            right
            have hnonneg := le_of_clamp? hy hx (nonneg_add hp hr)
            have hnext := (ih hnonneg (List.forall_mem_cons.1 hxs).2
              hrest).resolve_left (by simp [hrate])
            cases xs with
            | nil => simpa using hfinite
            | cons x' xs =>
                -- a window without an end leaves the next value as it is
                have heq := eq_of_clamp?_window hp hfinite hr hrate hy (hnext y (by simp))
                rw [heq] at hnext
                exact List.forall_mem_cons.2 ⟨hfinite, hnext⟩

/-- A series that is not negative can be limited exactly if the rate is finite or no value before
the last one is infinite. -/
theorem ramp?_isSome_iff {rate : α} {xs : List α} (hxs : ∀ x ∈ xs, 0 ≤ x) :
    (ramp? rate xs).isSome = true ↔
      isFinite (positivePart rate) = true ∨ ∀ x ∈ xs.dropLast, isFinite x = true := by
  rw [Option.isSome_iff_exists]
  refine ⟨?_, exists_ramp? hxs⟩
  rintro ⟨ys, hys⟩
  cases xs with
  | nil => simp
  | cons x xs =>
      obtain ⟨rest, hrest, -⟩ := ramp?_cons_eq_some_iff.1 hys
      exact isFinite_of_rampFrom?_eq_some (positivePart_nonneg rate) (hxs x List.mem_cons_self)
        (List.forall_mem_cons.1 hxs).2 hrest

end Packed

end LocalGrid
