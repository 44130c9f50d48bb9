import LocalGrid.Dispatch
import LocalGrid.Percentile
import LocalGrid.Proofs.Quantity.Exact
import LocalGrid.Ramp

/-!
# Change of units

In exact arithmetic nothing compares a power or an energy with a constant other than zero, so a
change of the unit in which both are measured commutes with the order operations, the pools, the
policies, the ramp limits and the percentiles. Shares and the length of a step have no unit.
-/

namespace LocalGrid

open Quantity

def Pool.scale (f : ℚ) (p : Pool ℚ) : Pool ℚ := ⟨f * p.capacity, p.efficiency, f * p.level⟩

theorem Pool.level_scale (f : ℚ) (p : Pool ℚ) : (p.scale f).level = f * p.level := rfl

def Balance.scale (f : ℚ) (b : Balance ℚ) : Balance ℚ := ⟨f * b.generation, f * b.demand, b.hours⟩

def Exchange.scale (f : ℚ) (x : Exchange ℚ) : Exchange ℚ :=
  ⟨f * x.change, f * x.gridExport, f * x.gridImport⟩

def Policy.scale (f : ℚ) : Policy ℚ → Policy ℚ
  | .default => .default
  | .peakShaving threshold => .peakShaving (f * threshold)

variable {f : ℚ} (hf : 0 < f)

include hf

/-! ## Order operations -/

namespace Quantity

theorem larger_scale (x y : ℚ) : larger (f * x) (f * y) = f * larger x y := by
  rw [larger_eq_max, larger_eq_max, mul_max_of_nonneg x y hf.le]

theorem smaller_scale (x y : ℚ) : smaller (f * x) (f * y) = f * smaller x y := by
  rw [smaller_eq_min, smaller_eq_min, mul_min_of_nonneg x y hf.le]

theorem positivePart_scale (x : ℚ) : positivePart (f * x) = f * positivePart x := by
  have hscale := larger_scale hf x 0
  rwa [mul_zero] at hscale

theorem clamp?_scale (x lo hi : ℚ) :
    clamp? (f * x) (f * lo) (f * hi) = (clamp? x lo hi).map (f * ·) := by
  simp only [clamp?, mul_le_mul_iff_right₀ hf, mul_lt_mul_iff_right₀ hf]
  split_ifs <;> rfl

end Quantity

/-! ## Pools -/

namespace Pool

variable (p : Pool ℚ)

theorem isFull_scale : (p.scale f).isFull = p.isFull := by
  simp only [isFull, scale, mul_le_mul_iff_right₀ hf]

theorem isEmpty_scale : (p.scale f).isEmpty = p.isEmpty := by
  have hlevel := mul_le_mul_iff_right₀ (b := p.level) (c := 0) hf
  rw [mul_zero] at hlevel
  simp only [isEmpty, scale, hlevel]

theorem headroom_scale : (p.scale f).headroom = f * p.headroom := by
  rw [headroom, headroom, ← positivePart_scale hf, mul_sub]
  rfl

theorem setLevel?_scale (x : ℚ) :
    (p.scale f).setLevel? (f * x) = (p.setLevel? x).map (Prod.map (f * ·) (scale f)) := by
  have hclamp := clamp?_scale hf x 0 p.capacity
  rw [mul_zero] at hclamp
  simp only [setLevel?, scale, hclamp, Option.map_map]
  congr 1
  funext after
  simp [Prod.map, scale, mul_sub]

theorem charge?_scale (x : ℚ) :
    (p.scale f).charge? (f * x) = (p.charge? x).map (Prod.map (f * ·) (scale f)) := by
  have hlevel : (if (p.scale f).headroom ≤ positivePart (f * x) * (p.scale f).efficiency then
      (p.scale f).capacity
      else (p.scale f).level + positivePart (f * x) * (p.scale f).efficiency) =
      f * (if p.headroom ≤ positivePart x * p.efficiency then p.capacity
        else p.level + positivePart x * p.efficiency) := by
    rw [headroom_scale hf, positivePart_scale hf]
    simp only [scale, mul_assoc, mul_le_mul_iff_right₀ hf, ← mul_add]
    split_ifs <;> rfl
  rw [charge?, charge?, hlevel]
  exact p.setLevel?_scale hf _

theorem discharge?_scale (x : ℚ) :
    (p.scale f).discharge? (f * x) = (p.discharge? x).map (Prod.map (f * ·) (scale f)) := by
  have hlevel : (if (p.scale f).level ≤ positivePart (f * x) then 0
      else (p.scale f).level - positivePart (f * x)) =
      f * (if p.level ≤ positivePart x then 0 else p.level - positivePart x) := by
    rw [positivePart_scale hf]
    simp only [scale, mul_le_mul_iff_right₀ hf, ← mul_sub]
    split_ifs <;> simp
  rw [discharge?, discharge?, hlevel, p.setLevel?_scale hf, Option.map_map, Option.map_map]
  congr 1
  funext out
  obtain ⟨change, q⟩ := out
  simp [Prod.map]

end Pool

/-! ## Policies -/

namespace Balance

variable (b : Balance ℚ)

theorem surplus_scale : (b.scale f).surplus = f * b.surplus := by
  rw [surplus, surplus, ← mul_assoc, ← positivePart_scale hf, mul_sub]
  rfl

theorem deficit_scale : (b.scale f).deficit = f * b.deficit := by
  rw [deficit, deficit, ← mul_assoc, ← positivePart_scale hf, mul_sub]
  rfl

theorem hasSurplus_scale : (b.scale f).hasSurplus = b.hasSurplus := by
  simp only [hasSurplus, scale, mul_lt_mul_iff_right₀ hf]

theorem hold_scale : (b.scale f).hold = b.hold.scale f := by
  simp [hold, Exchange.scale, b.deficit_scale hf]

end Balance

namespace Pool

variable (p : Pool ℚ) (b : Balance ℚ)

theorem absorb?_scale : (p.scale f).absorb? (b.scale f) =
    (p.absorb? b).map (Prod.map (Exchange.scale f) (scale f)) := by
  simp only [absorb?, b.surplus_scale hf, p.charge?_scale hf, Option.bind_eq_bind, Option.pure_def,
    Option.bind_map, Option.map_bind]
  congr 1
  funext out
  obtain ⟨stored, q⟩ := out
  have hdrawn : (if 0 < (p.scale f).efficiency then
      smaller (f * stored / (p.scale f).efficiency) (f * b.surplus) else 0) =
      f * (if 0 < p.efficiency then smaller (stored / p.efficiency) b.surplus else 0) := by
    simp only [scale, mul_div_assoc, smaller_scale hf]
    split_ifs <;> simp
  simp only [Function.comp_apply, Prod.map, hdrawn, ← mul_sub, positivePart_scale hf,
    Option.map_some, Exchange.scale, mul_zero]

theorem cover?_scale : (p.scale f).cover? (b.scale f) =
    (p.cover? b).map (Prod.map (Exchange.scale f) (scale f)) := by
  simp only [cover?, b.deficit_scale hf, p.discharge?_scale hf, Option.bind_eq_bind,
    Option.pure_def, Option.bind_map, Option.map_bind]
  congr 1
  funext out
  obtain ⟨released, q⟩ := out
  simp only [Function.comp_apply, Prod.map, ← mul_sub, positivePart_scale hf, Option.map_some,
    Exchange.scale, mul_zero, mul_neg]

end Pool

theorem Policy.dispatch?_scale (policy : Policy ℚ) (b : Balance ℚ) (p : Pool ℚ) :
    (policy.scale f).dispatch? (b.scale f) (p.scale f) =
      (policy.dispatch? b p).map (Prod.map (Exchange.scale f) (Pool.scale f)) := by
  have hhold : some ((b.scale f).hold, p.scale f) =
      (some (b.hold, p)).map (Prod.map (Exchange.scale f) (Pool.scale f)) := by
    rw [b.hold_scale hf]
    rfl
  cases policy with
  | default =>
      simp only [scale, dispatch?, b.hasSurplus_scale hf, p.absorb?_scale hf b, p.cover?_scale hf b]
      split_ifs <;> rfl
  | peakShaving threshold =>
      have hpeak : f * threshold < (b.scale f).demand ↔ threshold < b.demand :=
        mul_lt_mul_iff_right₀ hf
      simp only [scale, dispatch?, b.hasSurplus_scale hf, p.absorb?_scale hf b,
        p.cover?_scale hf b, p.isEmpty_scale hf, hpeak, hhold]
      split_ifs <;> rfl

/-! ## Series -/

theorem rampFrom?_scale (rate previous : ℚ) (xs : List ℚ) :
    rampFrom? (f * rate) (f * previous) (xs.map (f * ·)) =
      (rampFrom? rate previous xs).map (List.map (f * ·)) := by
  induction xs generalizing previous with
  | nil => rfl
  | cons x xs ih =>
      simp only [List.map_cons, rampFrom?, ← mul_sub, ← mul_add, clamp?_scale hf,
        Option.bind_eq_bind, Option.pure_def, Option.bind_map, Option.map_bind]
      congr 1
      funext next
      simp only [Function.comp_apply, ih, Option.bind_map, Option.map_bind]
      rfl

theorem ramp?_scale (rate : ℚ) (xs : List ℚ) :
    ramp? (f * rate) (xs.map (f * ·)) = (ramp? rate xs).map (List.map (f * ·)) := by
  cases xs with
  | nil => rfl
  | cons x xs =>
      simp only [List.map_cons, ramp?, positivePart_scale hf, rampFrom?_scale hf, Option.map_map]
      rfl

theorem sortSeries_scale (xs : List ℚ) :
    sortSeries (xs.map (f * ·)) = (sortSeries xs).map (f * ·) := by
  refine (List.map_mergeSort ?_).symm
  intro x _ y _
  exact (decide_eq_decide.2 (mul_le_mul_iff_right₀ hf)).symm

omit hf in
theorem interpolate_scale (low high share : ℚ) :
    interpolate (f * low) (f * high) share = f * interpolate low high share := by
  change f * low + (f * high - f * low) * share = f * (low + (high - low) * share)
  ring

/-- A percentile has the unit of its series. -/
theorem percentile?_scale (xs : List ℚ) (percent : ℚ) :
    percentile? (xs.map (f * ·)) percent = (percentile? xs percent).map (f * ·) := by
  simp only [percentile?, sortSeries_scale hf, List.length_map, List.getElem?_map,
    Option.bind_eq_bind, Option.pure_def, Option.bind_map, Option.map_bind]
  congr 1
  funext low
  simp only [Function.comp_apply, Option.map_bind]
  congr 1
  funext high
  simp only [interpolate_scale, Option.map_some]

end LocalGrid
