import LocalGrid.Proofs.Quantity.Monotone
import LocalGrid.Proofs.Quantity.Readings
import LocalGrid.Proofs.Ramp

/-!
# The window of a ramp limit

A finite series has a limited one at every rate, and the limited one is steady: each value lies in
the window that the rate leaves around the value before it. The window has finite ends or none, and
always holds the value it is around, so a limited value stays between the value that is limited and
the one before it; from step to step it therefore stays in the range of the values seen so far. A
series that is steady is not changed, and so limiting twice is limiting once. A window moves with
the value that it is around, so the order of two series is kept as well.
-/

namespace LocalGrid

open Quantity RoundedQuantity

variable {α : Type} [Quantity α]

/-- `y` is at most a rate away from `x`, as far as the rounded ends of the window tell. -/
def InWindow (rate x y : α) : Prop := x - rate ≤ y ∧ y ≤ x + rate

def Spans (seen : List α) (y : α) : Prop := (∃ x ∈ seen, x ≤ y) ∧ ∃ x ∈ seen, y ≤ x

variable [RoundedQuantity α] {rate previous x y : α} {xs ys seen : List α}

/-! ## One step -/

theorem inWindow_of_clamp? (hx : IsNumber x)
    (h : clamp? x (previous - rate) (previous + rate) = some y) : InWindow rate previous y := by
  obtain ⟨z, hz, hlo, hhi, -⟩ := clamp?_spec (le_of_clamp?_eq_some h) hx
  obtain rfl : z = y := Option.some.inj (hz.symm.trans h)
  exact ⟨hlo, hhi⟩

theorem clamp?_of_inWindow (h : InWindow rate previous x) :
    clamp? x (previous - rate) (previous + rate) = some x := by
  obtain ⟨z, hz, -, -, heq⟩ := clamp?_spec (le_trans h.1 h.2) (isNumber_left h.2)
  rw [hz, heq h.1 h.2]

/-- What lies between a value and one in the range is in the range with the value. -/
theorem Spans.between (h : Spans seen previous) (hbetween : Between x y previous) :
    Spans (seen ++ [x]) y := by
  obtain ⟨⟨low, hlow, hle⟩, high, hhigh, hge⟩ := h
  have hx : x ∈ seen ++ [x] := List.mem_append_right _ List.mem_cons_self
  rcases hbetween with ⟨hxy, hyp⟩ | ⟨hpy, hyx⟩
  · exact ⟨⟨x, hx, hxy⟩, high, List.mem_append_left _ hhigh, le_trans hyp hge⟩
  · exact ⟨⟨low, List.mem_append_left _ hlow, le_trans hle hpy⟩, x, hx, hyx⟩

/-! ## The rest of a series -/

theorem exists_rampFrom?_of_isFinite (hr : 0 ≤ rate) (hp : isFinite previous = true)
    (hxs : ∀ x ∈ xs, isFinite x = true) : ∃ ys, rampFrom? rate previous xs = some ys := by
  induction xs generalizing previous with
  | nil => exact ⟨[], rfl⟩
  | cons x xs ih =>
      obtain ⟨hx, hxs⟩ := List.forall_mem_cons.1 hxs
      obtain ⟨y, hy, hbetween⟩ := window_between_of_isFinite hp hr (isNumber_of_isFinite hx)
      obtain ⟨ys, hys⟩ := ih (hbetween.isFinite hx hp) hxs
      exact ⟨y :: ys, rampFrom?_cons_eq_some_iff.2 ⟨y, ys, hy, hys, rfl⟩⟩

theorem isChain_of_rampFrom? (hxs : ∀ x ∈ xs, IsNumber x)
    (h : rampFrom? rate previous xs = some ys) : (previous :: ys).IsChain (InWindow rate) := by
  induction xs generalizing previous ys with
  | nil =>
      obtain rfl : [] = ys := Option.some.inj h
      exact List.isChain_singleton _
  | cons x xs ih =>
      obtain ⟨y, rest, hy, hrest, rfl⟩ := rampFrom?_cons_eq_some_iff.1 h
      obtain ⟨hx, hxs⟩ := List.forall_mem_cons.1 hxs
      exact List.isChain_cons_cons.2 ⟨inWindow_of_clamp? hx hy, ih hxs hrest⟩

theorem rampFrom?_of_isChain (h : (previous :: xs).IsChain (InWindow rate)) :
    rampFrom? rate previous xs = some xs := by
  induction xs generalizing previous with
  | nil => rfl
  | cons x xs ih =>
      obtain ⟨hx, hrest⟩ := List.isChain_cons_cons.1 h
      exact rampFrom?_cons_eq_some_iff.2 ⟨x, xs, clamp?_of_inWindow hx, ih hrest, rfl⟩

/-- The values seen before are carried along, the limited one before last among their range. -/
theorem spans_of_rampFrom? (hr : 0 ≤ rate) (hp : isFinite previous = true)
    (hxs : ∀ x ∈ xs, isFinite x = true) (h : rampFrom? rate previous xs = some ys)
    (hseen : Spans seen previous) {k : ℕ} (hk : ys[k]? = some y) :
    Spans (seen ++ xs.take (k + 1)) y := by
  induction xs generalizing previous ys seen k with
  | nil =>
      obtain rfl : [] = ys := Option.some.inj h
      simp at hk
  | cons x xs ih =>
      obtain ⟨z, rest, hz, hrest, rfl⟩ := rampFrom?_cons_eq_some_iff.1 h
      obtain ⟨hx, hxs⟩ := List.forall_mem_cons.1 hxs
      obtain ⟨z', hz', hbetween⟩ := window_between_of_isFinite hp hr (isNumber_of_isFinite hx)
      obtain rfl : z = z' := Option.some.inj (hz.symm.trans hz')
      have hnext := hseen.between hbetween
      cases k with
      | zero =>
          obtain rfl : z = y := by simpa using hk
          exact hnext
      | succ k =>
          have hspans := ih (hbetween.isFinite hx hp) hxs hrest hnext hk
          rwa [List.append_assoc, List.singleton_append] at hspans

/-- Two series in order have limited ones in order: the windows are in order at every step. -/
theorem rampFrom?_mono {previous' : α} {xs' ys' : List α} (hr : 0 ≤ rate)
    (hp : isFinite previous = true) (hp' : isFinite previous' = true) (hle : previous ≤ previous')
    (hxs : ∀ x ∈ xs, isFinite x = true) (hxs' : ∀ x ∈ xs', isFinite x = true)
    (h : List.Forall₂ (· ≤ ·) xs xs') (hys : rampFrom? rate previous xs = some ys)
    (hys' : rampFrom? rate previous' xs' = some ys') : List.Forall₂ (· ≤ ·) ys ys' := by
  induction h generalizing previous previous' ys ys' with
  | nil =>
      obtain rfl : [] = ys := Option.some.inj hys
      obtain rfl : [] = ys' := Option.some.inj hys'
      exact .nil
  | @cons x x' xs xs' hx _ ih =>
      obtain ⟨y, rest, hy, hrest, rfl⟩ := rampFrom?_cons_eq_some_iff.1 hys
      obtain ⟨y', rest', hy', hrest', rfl⟩ := rampFrom?_cons_eq_some_iff.1 hys'
      have hrate : IsNumber rate := isNumber_right hr
      have hyy' : y ≤ y' := clamp?_mono_bounds hy hy' hx (sub_mono hp hp' hle hrate)
        (add_mono hp hp' hle hrate)
      have hfinite := isFinite_of_rampFrom? hr hp hxs hys
      have hfinite' := isFinite_of_rampFrom? hr hp' hxs' hys'
      exact .cons hyy' (ih (hfinite y List.mem_cons_self) (hfinite' y' List.mem_cons_self) hyy'
        (List.forall_mem_cons.1 hxs).2 (List.forall_mem_cons.1 hxs').2 hrest hrest')

/-! ## Whole series -/

theorem exists_ramp?_of_isFinite (rate : α) (hxs : ∀ x ∈ xs, isFinite x = true) :
    ∃ ys, ramp? rate xs = some ys := by
  cases xs with
  | nil => exact ⟨[], rfl⟩
  | cons x xs =>
      obtain ⟨hx, hxs⟩ := List.forall_mem_cons.1 hxs
      obtain ⟨ys, hys⟩ := exists_rampFrom?_of_isFinite (positivePart_nonneg rate) hx hxs
      exact ⟨x :: ys, ramp?_cons_eq_some_iff.2 ⟨ys, hys, rfl⟩⟩

omit [RoundedQuantity α] in
theorem head?_of_ramp? (h : ramp? rate xs = some ys) : ys.head? = xs.head? := by
  cases xs with
  | nil =>
      obtain rfl : [] = ys := Option.some.inj h
      rfl
  | cons x xs =>
      obtain ⟨rest, -, rfl⟩ := ramp?_cons_eq_some_iff.1 h
      rfl

theorem isChain_of_ramp? (hxs : ∀ x ∈ xs, IsNumber x) (h : ramp? rate xs = some ys) :
    ys.IsChain (InWindow (positivePart rate)) := by
  cases xs with
  | nil =>
      obtain rfl : [] = ys := Option.some.inj h
      exact List.isChain_nil
  | cons x xs =>
      obtain ⟨rest, hrest, rfl⟩ := ramp?_cons_eq_some_iff.1 h
      exact isChain_of_rampFrom? (List.forall_mem_cons.1 hxs).2 hrest

theorem ramp?_of_isChain (h : xs.IsChain (InWindow (positivePart rate))) :
    ramp? rate xs = some xs := by
  cases xs with
  | nil => rfl
  | cons x xs => exact ramp?_cons_eq_some_iff.2 ⟨xs, rampFrom?_of_isChain h, rfl⟩

theorem spans_of_ramp? (hxs : ∀ x ∈ xs, isFinite x = true) (h : ramp? rate xs = some ys) {k : ℕ}
    (hk : ys[k]? = some y) : Spans (xs.take (k + 1)) y := by
  cases xs with
  | nil =>
      obtain rfl : [] = ys := Option.some.inj h
      simp at hk
  | cons x xs =>
      obtain ⟨rest, hrest, rfl⟩ := ramp?_cons_eq_some_iff.1 h
      obtain ⟨hx, hxs⟩ := List.forall_mem_cons.1 hxs
      have hfirst : Spans [x] x :=
        ⟨⟨x, List.mem_cons_self, isNumber_of_isFinite hx⟩,
          x, List.mem_cons_self, isNumber_of_isFinite hx⟩
      cases k with
      | zero =>
          obtain rfl : x = y := by simpa using hk
          simpa using hfirst
      | succ k =>
          simpa using spans_of_rampFrom? (positivePart_nonneg rate) hx hxs hrest hfirst hk

theorem ramp?_mono {xs' ys' : List α} (hxs : ∀ x ∈ xs, isFinite x = true)
    (hxs' : ∀ x ∈ xs', isFinite x = true) (h : List.Forall₂ (· ≤ ·) xs xs')
    (hys : ramp? rate xs = some ys) (hys' : ramp? rate xs' = some ys') :
    List.Forall₂ (· ≤ ·) ys ys' := by
  cases h with
  | nil =>
      obtain rfl : [] = ys := Option.some.inj hys
      obtain rfl : [] = ys' := Option.some.inj hys'
      exact .nil
  | cons hx hrest =>
      obtain ⟨limited, hlimited, rfl⟩ := ramp?_cons_eq_some_iff.1 hys
      obtain ⟨limited', hlimited', rfl⟩ := ramp?_cons_eq_some_iff.1 hys'
      obtain ⟨hfirst, hxs⟩ := List.forall_mem_cons.1 hxs
      obtain ⟨hfirst', hxs'⟩ := List.forall_mem_cons.1 hxs'
      exact .cons hx (rampFrom?_mono (positivePart_nonneg rate) hfirst hfirst' hx hxs hxs' hrest
        hlimited hlimited')

/-- A rate that is negative or no number limits as zero does. -/
theorem ramp?_of_not_pos (h : ¬ 0 < rate) (xs : List α) : ramp? rate xs = ramp? 0 xs := by
  have hzero : positivePart rate = positivePart (0 : α) := by
    rw [positivePart_of_not_pos h, positivePart_of_not_pos (not_lt_of_le isNumber_zero)]
  cases xs with
  | nil => rfl
  | cons x xs => rw [ramp?, ramp?, hzero]

/-! ## Single precision -/

/-- At every rate, a finite series has a limited one. It depends on the values up to each one only,
keeps the length and the first value, is steady, and never leaves the range of the values seen so
far. It is the series itself exactly if that is steady, and so it is not changed by limiting it
again. -/
theorem ramp_projection (rate : Float32) {xs : List Float32}
    (hxs : ∀ x ∈ xs, isFinite x = true) :
    ∃ ys, ramp? rate xs = some ys ∧ ys.length = xs.length ∧ ys.head? = xs.head? ∧
      (∀ k, ramp? rate (xs.take k) = some (ys.take k)) ∧
      ys.IsChain (InWindow (positivePart rate)) ∧
      (∀ k y, ys[k]? = some y → Spans (xs.take (k + 1)) y) ∧
      (∀ y ∈ ys, isFinite y = true) ∧ ((∀ x ∈ xs, 0 ≤ x) → ∀ y ∈ ys, 0 ≤ y) ∧
      (ys = xs ↔ xs.IsChain (InWindow (positivePart rate))) ∧ ramp? rate ys = some ys ∧
      (¬ 0 < rate → ramp? 0 xs = some ys) := by
  obtain ⟨ys, hys⟩ := exists_ramp?_of_isFinite rate hxs
  have hsteady := isChain_of_ramp? (fun x hx => isNumber_of_isFinite (hxs x hx)) hys
  refine ⟨ys, hys, length_ramp? hys, head?_of_ramp? hys, ramp?_take hys, hsteady,
    fun k y hk => spans_of_ramp? hxs hys hk, isFinite_of_ramp? hxs hys,
    fun hnonneg => nonneg_of_ramp? hnonneg hys, ⟨?_, ?_⟩, ramp?_of_isChain hsteady, ?_⟩
  · rintro rfl
    exact hsteady
  · intro hchain
    exact Option.some.inj (hys.symm.trans (ramp?_of_isChain hchain))
  · intro hrate
    rw [← ramp?_of_not_pos hrate, hys]

/-- A series that falls from the greatest number to the least one. -/
def plunge : List Float32 := [Float32.ofBits 0x7F7FFFFF, Float32.ofBits 0xFF7FFFFF, -0.5, 8]

/-- About half of the greatest number, which has no room left for it. -/
def steep : Float32 := Float32.ofBits 0x7F000000

/-- The fall is limited once, and a rate that is no number leaves no change at all. -/
theorem ramp_projection_plunge :
    (∃ ys, ramp? steep plunge = some ys ∧
      ys = [Float32.ofBits 0x7F7FFFFF, Float32.ofBits 0x7EFFFFFE, -0.5, 8] ∧
      isFinite (Float32.ofBits 0x7F7FFFFF + steep) = false ∧
      ys.IsChain (InWindow (positivePart steep)) ∧ ramp? steep ys = some ys ∧
      (∀ k y, ys[k]? = some y → Spans (plunge.take (k + 1)) y) ∧
      ¬ plunge.IsChain (InWindow (positivePart steep))) ∧
    ramp? 0 plunge = ramp? (Float32.ofBits 0x7FC00000) plunge := by
  have hfinite : ∀ x ∈ plunge, isFinite x = true := by
    decide +kernel
  have hlimited : ramp? steep plunge =
      some [Float32.ofBits 0x7F7FFFFF, Float32.ofBits 0x7EFFFFFE, -0.5, 8] := by
    decide +kernel
  obtain ⟨ys, hys, -, -, -, hchain, hspans, -, -, hfixed, htwice, -⟩ :=
    ramp_projection steep hfinite
  obtain ⟨zs, hzs, -, -, -, -, -, -, -, -, -, hzero⟩ :=
    ramp_projection (Float32.ofBits 0x7FC00000) hfinite
  obtain rfl := Option.some.inj (hlimited.symm.trans hys)
  refine ⟨⟨_, hys, rfl, by decide +kernel, hchain, htwice, hspans, ?_⟩, ?_⟩
  · rw [← hfixed]
    decide +kernel
  · rw [hzero (by decide +kernel), hzs]

end LocalGrid
