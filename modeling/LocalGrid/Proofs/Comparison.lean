import LocalGrid.Proofs.Dispatch
import LocalGrid.Proofs.Quantity.Monotone

/-!
# Two batteries side by side

Of two pools of the same capacity, let one hold no more than the other and store no more of an
offer. It stays below when it is offered no more and asked for no less, although the two are full
and empty at different times: the lower pool is full only if the other one is, and the upper one
is empty only if the other one is. A policy that holds its pool on a deficit leaves more in it.
-/

namespace LocalGrid

open Quantity RoundedQuantity

variable {α : Type} [Quantity α]

/-- A pool of the capacity of another one that stores and holds no more than the other. -/
structure Pool.Below (p q : Pool α) : Prop where
  capacity_eq : p.capacity = q.capacity
  efficiency_le : p.efficiency ≤ q.efficiency
  level_le : p.level ≤ q.level

/-- A step with no more generation than another one, and no less demand. -/
structure Balance.Below (b d : Balance α) : Prop where
  hours_eq : b.hours = d.hours
  generation_le : b.generation ≤ d.generation
  demand_le : d.demand ≤ b.demand

variable {p q p' q' : Pool α} {b d : Balance α} {x y : α}

theorem Pool.Below.move (h : p.Below q) (hp : p'.SameStore p) (hq : q'.SameStore q)
    (hlevel : p'.level ≤ q'.level) : p'.Below q' where
  capacity_eq := by rw [hp.1, hq.1, h.capacity_eq]
  efficiency_le := by
    rw [hp.2, hq.2]
    exact h.efficiency_le
  level_le := hlevel

variable [RoundedQuantity α]

namespace Pool

/-! ## Offers and requests -/

theorem Below.setLevel? (h : p.Below q) (hxy : x ≤ y) {change change' : α}
    (hp' : p.setLevel? x = some (change, p')) (hq' : q.setLevel? y = some (change', q')) :
    p'.Below q' := by
  refine h.move (setLevel?_keeps hp') (setLevel?_keeps hq') ?_
  obtain ⟨u, hu, -, rfl⟩ := setLevel?_eq_some_iff.1 hp'
  obtain ⟨v, hv, -, rfl⟩ := setLevel?_eq_some_iff.1 hq'
  rw [h.capacity_eq] at hu
  exact clamp?_mono hu hv hxy

theorem Below.headroom_le (h : p.Below q) (hq : q.WellFormed) : q.headroom ≤ p.headroom := by
  have hcapacity := isNumber_of_isFinite hq.isFinite_capacity
  rw [headroom, headroom, h.capacity_eq]
  exact positivePart_mono (sub_mono hq.isFinite_capacity hq.isFinite_capacity hcapacity h.level_le)

theorem Below.offered_le (h : p.Below q) (hp : p.WellFormed) (hq : q.WellFormed)
    (hy : isFinite (positivePart y) = true) (hxy : x ≤ y) :
    positivePart x * p.efficiency ≤ positivePart y * q.efficiency := by
  have hnonneg := (isShare_iff.1 hp.isShare_efficiency).1
  exact mul_mono hy (isFinite_of_isShare hq.isShare_efficiency) (positivePart_nonneg x) hnonneg
    (positivePart_mono hxy) h.efficiency_le

theorem Below.charge? (h : p.Below q) (hp : p.WellFormed) (hq : q.WellFormed)
    (hy : isFinite (positivePart y) = true) (hxy : x ≤ y) {stored stored' : α}
    (hp' : p.charge? x = some (stored, p')) (hq' : q.charge? y = some (stored', q')) :
    p'.Below q' := by
  have hoffered := h.offered_le hp hq hy hxy
  by_cases hfull : q.headroom ≤ positivePart y * q.efficiency
  · have hcapacity := isNumber_of_isFinite hq.isFinite_capacity
    have hx := isFinite_of_le_of_le isFinite_zero hy (positivePart_nonneg x) (positivePart_mono hxy)
    obtain ⟨hfollows, -⟩ := charge?_raises hp hx hp'
    have hle := hfollows.wellFormed.level_le_capacity
    rw [hfollows.capacity_eq, h.capacity_eq] at hle
    refine h.move (charge?_keeps hp') (charge?_keeps hq') ?_
    rw [charge?_of_headroom_le hfull, setLevel?_of_le hq.capacity_nonneg hcapacity] at hq'
    obtain ⟨-, rfl⟩ := Prod.mk.inj (Option.some.inj hq')
    exact hle
  · -- the lower pool has more room and is offered less, so it is not filled either
    have hfull' : ¬ p.headroom ≤ positivePart x * p.efficiency := fun hle =>
      hfull (le_trans (h.headroom_le hq) (le_trans hle hoffered))
    rw [charge?_of_not_headroom_le hfull'] at hp'
    rw [charge?_of_not_headroom_le hfull] at hq'
    exact h.setLevel? (add_mono hp.isFinite_level hq.isFinite_level h.level_le hoffered) hp' hq'

theorem Below.discharge? (h : p.Below q) (hp : p.WellFormed) (hq : q.WellFormed) (hyx : y ≤ x)
    {released released' : α} (hp' : p.discharge? x = some (released, p'))
    (hq' : q.discharge? y = some (released', q')) : p'.Below q' := by
  obtain ⟨change, hp'⟩ := exists_setLevel?_of_discharge? hp'
  obtain ⟨change', hq'⟩ := exists_setLevel?_of_discharge? hq'
  have hrequested := positivePart_mono hyx
  have hlevel := isNumber_of_isFinite hq.isFinite_level
  refine h.setLevel? ?_ hp' hq'
  -- if the upper pool is emptied, so is the lower one
  split_ifs with hempty hempty' hempty'
  · exact isNumber_zero
  · have hlt := (not_le_iff hlevel (isNumber_positivePart y)).1 hempty'
    exact sub_nonneg hq.isFinite_level (le_of_lt hlt)
  · exact absurd (le_trans h.level_le (le_trans hempty' hrequested)) hempty
  · exact sub_mono hp.isFinite_level hq.isFinite_level h.level_le hrequested

end Pool

/-! ## One step -/

theorem energy_mono {x' y' hours : α} (hx : isFinite x = true) (hx' : isFinite x' = true)
    (hh : IsStepLength hours) (h : x ≤ x') (hy : y' ≤ y) :
    positivePart (x - y) * hours ≤ positivePart (x' - y') * hours :=
  mul_mono_left hh.isFinite hh.pos (positivePart_mono (sub_mono hx hx' h hy))

namespace Balance

theorem Below.hasSurplus (h : b.Below d) (hsurplus : b.hasSurplus = true) :
    d.hasSurplus = true := by
  have hlt : b.demand < b.generation := of_decide_eq_true hsurplus
  have hlt' : d.demand < d.generation :=
    lt_of_le_of_lt h.demand_le (lt_of_lt_of_le hlt h.generation_le)
  exact decide_eq_true hlt'

theorem Below.surplus_le (h : b.Below d) (hb : b.Sound) (hd : d.Sound) :
    b.surplus ≤ d.surplus := by
  rw [surplus, surplus, h.hours_eq]
  exact energy_mono hb.isFinite_generation hd.isFinite_generation hd.isStepLength
    h.generation_le h.demand_le

theorem Below.deficit_le (h : b.Below d) (hb : b.Sound) (hd : d.Sound) :
    d.deficit ≤ b.deficit := by
  rw [deficit, deficit, h.hours_eq]
  exact energy_mono hd.isFinite_demand hb.isFinite_demand hd.isStepLength h.demand_le
    h.generation_le

end Balance

/-- A pool that is drawn on at every deficit stays below one that is under any policy. -/
theorem Policy.dispatch?_below (policy : Policy α) (h : p.Below q) (hp : p.WellFormed)
    (hq : q.WellFormed) (hbd : b.Below d) (hb : b.Sound) (hd : d.Sound) {x y : Exchange α}
    (hp' : Policy.default.dispatch? b p = some (x, p'))
    (hq' : policy.dispatch? d q = some (y, q')) : p'.Below q' := by
  cases hsurplus : b.hasSurplus with
  | true =>
      rw [dispatch?_of_surplus _ hsurplus] at hp'
      rw [dispatch?_of_surplus _ (hbd.hasSurplus hsurplus)] at hq'
      exact h.charge? hp hq hd.isFinite_offer (hbd.surplus_le hb hd) (Pool.charge?_of_absorb? hp')
        (Pool.charge?_of_absorb? hq')
  | false =>
      rw [dispatch?_default hsurplus] at hp'
      obtain ⟨released, hlower⟩ := Pool.exists_discharge?_of_cover? hp'
      have hbelow := le_trans (Pool.discharge?_lowers hp hlower).2 h.level_le
      cases hcharges : d.hasSurplus with
      | true =>
          rw [dispatch?_of_surplus _ hcharges] at hq'
          have hle := (Pool.charge?_raises hq hd.isFinite_offer (Pool.charge?_of_absorb? hq')).2
          exact h.move (Pool.cover?_keeps hp') (Pool.absorb?_keeps hq') (le_trans hbelow hle)
      | false =>
          rcases policy.dispatch?_of_deficit (p := q) hcharges with hcover | hhold
          · obtain ⟨released', hupper⟩ := Pool.exists_discharge?_of_cover? (hcover.symm.trans hq')
            exact h.discharge? hp hq (hbd.deficit_le hb hd) hlower hupper
          · obtain ⟨-, rfl⟩ := Prod.mk.inj (Option.some.inj (hhold.symm.trans hq'))
            exact h.move (Pool.cover?_keeps hp') ⟨rfl, rfl⟩ hbelow

end LocalGrid
