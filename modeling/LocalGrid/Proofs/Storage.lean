import LocalGrid.Proofs.Quantity.Rounded
import LocalGrid.Storage

/-!
# The level of a pool

A pool with a finite capacity and a proper efficiency keeps its level between zero and the capacity
whatever is offered or requested, and what an operation reports is the difference of the levels. The
reports of the two operations have opposite signs. For an operation to be possible at all, the
capacity need only not be negative.
-/

namespace LocalGrid

open Quantity RoundedQuantity

variable {α : Type} [Quantity α]

namespace Pool

/-- A finite capacity, a proper efficiency, and a level that fits. -/
structure WellFormed (p : Pool α) : Prop where
  isFinite_capacity : isFinite p.capacity = true
  isShare_efficiency : isShare p.efficiency = true
  level_nonneg : 0 ≤ p.level
  level_le_capacity : p.level ≤ p.capacity

/-- A pool that takes offers and requests, although it may hold more than fits since its capacity
was changed. -/
structure Usable (p : Pool α) : Prop where
  isFinite_capacity : isFinite p.capacity = true
  capacity_nonneg : 0 ≤ p.capacity
  isShare_efficiency : isShare p.efficiency = true
  isFinite_level : isFinite p.level = true
  level_nonneg : 0 ≤ p.level

/-- A well-formed pool that differs from another one in its level only. -/
structure Follows (q p : Pool α) : Prop where
  wellFormed : q.WellFormed
  capacity_eq : q.capacity = p.capacity
  efficiency_eq : q.efficiency = p.efficiency

variable {p q : Pool α} {x : α}

theorem WellFormed.follows_self (h : p.WellFormed) : p.Follows p := ⟨h, rfl, rfl⟩

def SameStore (q p : Pool α) : Prop := q.capacity = p.capacity ∧ q.efficiency = p.efficiency

theorem charge?_keeps {change : α} (h : p.charge? x = some (change, q)) : q.SameStore p :=
  setLevel?_keeps h

/-- A request moves the level to what it leaves. -/
theorem exists_setLevel?_of_discharge? {released : α} (h : p.discharge? x = some (released, q)) :
    ∃ change, p.setLevel? (if p.level ≤ positivePart x then 0 else p.level - positivePart x) =
      some (change, q) := by
  obtain ⟨⟨change, q'⟩, hq, heq⟩ := Option.map_eq_some_iff.1 h
  obtain ⟨-, rfl⟩ := Prod.mk.inj heq
  exact ⟨change, hq⟩

theorem discharge?_keeps {released : α} (h : p.discharge? x = some (released, q)) :
    q.SameStore p := by
  obtain ⟨change, hq⟩ := exists_setLevel?_of_discharge? h
  exact setLevel?_keeps hq

theorem charge?_of_headroom_le (h : p.headroom ≤ positivePart x * p.efficiency) :
    p.charge? x = p.setLevel? p.capacity := by
  simp only [charge?, if_pos h]

theorem charge?_of_not_headroom_le (h : ¬ p.headroom ≤ positivePart x * p.efficiency) :
    p.charge? x = p.setLevel? (p.level + positivePart x * p.efficiency) := by
  simp only [charge?, if_neg h]

theorem discharge?_of_level_le (h : p.level ≤ positivePart x) :
    p.discharge? x = (p.setLevel? 0).map fun (change, q) => (-change, q) := by
  simp only [discharge?, if_pos h]

theorem discharge?_of_not_level_le (h : ¬ p.level ≤ positivePart x) :
    p.discharge? x =
      (p.setLevel? (p.level - positivePart x)).map fun (change, q) => (-change, q) := by
  simp only [discharge?, if_neg h]

/-! ## Room -/

theorem exists_setLevel? (h : 0 ≤ p.capacity) (x : α) :
    ∃ change q, p.setLevel? x = some (change, q) :=
  ⟨_, _, setLevel?_eq_some_iff.2 ⟨_, clamp?_of_le h, rfl, rfl⟩⟩

/-- A pool with a capacity takes every offer, even one that is no number. -/
theorem exists_charge? (h : 0 ≤ p.capacity) (x : α) :
    ∃ change q, p.charge? x = some (change, q) :=
  exists_setLevel? h _

theorem exists_discharge? (h : 0 ≤ p.capacity) (x : α) :
    ∃ change q, p.discharge? x = some (change, q) := by
  obtain ⟨change, q, hq⟩ := exists_setLevel? h
    (if p.level ≤ positivePart x then 0 else p.level - positivePart x)
  exact ⟨-change, q, Option.map_eq_some_iff.2 ⟨_, hq, rfl⟩⟩

/-! ## Levels -/

variable [RoundedQuantity α]

theorem WellFormed.capacity_nonneg (h : p.WellFormed) : 0 ≤ p.capacity :=
  le_trans h.level_nonneg h.level_le_capacity

theorem WellFormed.isFinite_level (h : p.WellFormed) : isFinite p.level = true :=
  isFinite_of_le_of_le isFinite_zero h.isFinite_capacity h.level_nonneg h.level_le_capacity

/-- An empty pool is well formed. -/
theorem wellFormed_new {capacity efficiency : α} (hc : isFinite capacity = true)
    (he : isShare efficiency = true) : (new capacity efficiency).WellFormed where
  isFinite_capacity := isFinite_positivePart hc (isNumber_of_isFinite hc)
  isShare_efficiency := by
    rw [new, toShare_of_isShare he]
    exact he
  level_nonneg := isNumber_zero
  level_le_capacity := positivePart_nonneg capacity

theorem WellFormed.usable (h : p.WellFormed) : p.Usable where
  isFinite_capacity := h.isFinite_capacity
  capacity_nonneg := h.capacity_nonneg
  isShare_efficiency := h.isShare_efficiency
  isFinite_level := h.isFinite_level
  level_nonneg := h.level_nonneg

/-- Moving the level to a number moves it into the interval. -/
theorem setLevel?_spec (h : p.Usable) (hx : IsNumber x) :
    ∃ q, p.setLevel? x = some (q.level - p.level, q) ∧ q.Follows p ∧
      clamp? x 0 p.capacity = some q.level := by
  obtain ⟨y, hy, hlo, hhi, -⟩ := clamp?_spec h.capacity_nonneg hx
  exact ⟨{ p with level := y }, setLevel?_eq_some_iff.2 ⟨y, hy, rfl, rfl⟩,
    ⟨⟨h.isFinite_capacity, h.isShare_efficiency, hlo, hhi⟩, rfl, rfl⟩, hy⟩

/-- Moving the level to a number of the interval moves it there. -/
theorem setLevel?_of_le (h0 : 0 ≤ x) (hx : x ≤ p.capacity) :
    p.setLevel? x = some (x - p.level, { p with level := x }) := by
  obtain ⟨y, hy, -, -, heq⟩ := clamp?_spec (le_trans h0 hx) (isNumber_left hx)
  obtain rfl := heq h0 hx
  exact setLevel?_eq_some_iff.2 ⟨y, hy, rfl, rfl⟩

/-- An offer moves the level into the interval, and reports by how much. It fills the pool if it
covers the headroom, and never lowers a level that fits. -/
theorem charge?_of_usable (h : p.Usable) (hx : isFinite (positivePart x) = true) :
    ∃ q, p.charge? x = some (q.level - p.level, q) ∧ q.Follows p ∧
      (p.level ≤ p.capacity → p.level ≤ q.level) ∧
      (p.headroom ≤ positivePart x * p.efficiency → q.level = p.capacity) := by
  obtain ⟨he0, he1⟩ := isShare_iff.1 h.isShare_efficiency
  have hoffered := mul_share hx (positivePart_nonneg x) he0 he1
  have hadd := le_add h.isFinite_level hoffered.1
  by_cases hfull : p.headroom ≤ positivePart x * p.efficiency
  · have hcapacity := isNumber_of_isFinite h.isFinite_capacity
    rw [charge?_of_headroom_le hfull, setLevel?_of_le h.capacity_nonneg hcapacity]
    exact ⟨{ p with level := p.capacity }, rfl,
      ⟨⟨h.isFinite_capacity, h.isShare_efficiency, h.capacity_nonneg, hcapacity⟩, rfl, rfl⟩,
      id, fun _ => rfl⟩
  · rw [charge?_of_not_headroom_le hfull]
    obtain ⟨q, hq, hfollows, hclamp⟩ := setLevel?_spec h (isNumber_right hadd)
    exact ⟨q, hq, hfollows, le_of_clamp? hclamp hadd, fun hcovers => absurd hcovers hfull⟩

/-- A request moves the level into the interval, and reports by how much. It takes the level to zero
if it covers it, and leaves something otherwise, as far as that fits. -/
theorem discharge?_of_usable (h : p.Usable) (x : α) :
    ∃ q, p.discharge? x = some (-(q.level - p.level), q) ∧ q.Follows p ∧ q.level ≤ p.level ∧
      (p.level ≤ positivePart x → q.level = 0) ∧
      (¬ p.level ≤ positivePart x → 0 < p.capacity → 0 < q.level) := by
  have hlevel := isNumber_of_isFinite h.isFinite_level
  by_cases hcovers : p.level ≤ positivePart x
  · rw [discharge?_of_level_le hcovers, setLevel?_of_le isNumber_zero h.capacity_nonneg]
    exact ⟨{ p with level := 0 }, rfl,
      ⟨⟨h.isFinite_capacity, h.isShare_efficiency, isNumber_zero, h.capacity_nonneg⟩, rfl, rfl⟩,
      h.level_nonneg, fun _ => rfl, fun hnot => absurd hcovers hnot⟩
  · have hpos := sub_pos h.isFinite_level
      ((not_le_iff hlevel (isNumber_positivePart x)).1 hcovers)
    obtain ⟨q, hq, hfollows, hclamp⟩ := setLevel?_spec h (isNumber_right (le_of_lt hpos))
    rw [discharge?_of_not_level_le hcovers, hq]
    exact ⟨q, rfl, hfollows,
      clamp?_le hclamp (sub_le h.isFinite_level (positivePart_nonneg x)) h.level_nonneg,
      fun hcovers' => absurd hcovers' hcovers, fun _ => lt_of_clamp? hclamp hpos⟩

/-- An offer raises the level and reports by how much. -/
theorem charge?_spec (h : p.WellFormed) (hx : isFinite (positivePart x) = true) :
    ∃ q, p.charge? x = some (q.level - p.level, q) ∧ q.Follows p ∧ p.level ≤ q.level := by
  obtain ⟨q, hq, hfollows, hle, -⟩ := charge?_of_usable h.usable hx
  exact ⟨q, hq, hfollows, hle h.level_le_capacity⟩

/-- A request lowers the level and reports by how much. It takes the level to zero if it covers it,
and leaves something otherwise. -/
theorem discharge?_spec (h : p.WellFormed) (x : α) :
    ∃ q, p.discharge? x = some (-(q.level - p.level), q) ∧ q.Follows p ∧ q.level ≤ p.level ∧
      (p.level ≤ positivePart x → q.level = 0) ∧ (¬ p.level ≤ positivePart x → 0 < q.level) := by
  obtain ⟨q, hq, hfollows, hle, hempty, hleft⟩ := discharge?_of_usable h.usable x
  refine ⟨q, hq, hfollows, hle, hempty, fun hnot => hleft hnot ?_⟩
  have hlevel := isNumber_of_isFinite h.isFinite_level
  have hlt := (not_le_iff hlevel (isNumber_positivePart x)).1 hnot
  exact lt_of_lt_of_le (lt_of_le_of_lt (positivePart_nonneg x) hlt) h.level_le_capacity

theorem charge?_raises (h : p.WellFormed) (hx : isFinite (positivePart x) = true) {stored : α}
    (hq : p.charge? x = some (stored, q)) : q.Follows p ∧ p.level ≤ q.level := by
  obtain ⟨r, hr, hspec⟩ := charge?_spec h hx
  obtain ⟨-, rfl⟩ := Prod.mk.inj (Option.some.inj (hr.symm.trans hq))
  exact hspec

theorem discharge?_lowers (h : p.WellFormed) {released : α}
    (hq : p.discharge? x = some (released, q)) : q.Follows p ∧ q.level ≤ p.level := by
  obtain ⟨r, hr, hfollows, hle, -⟩ := discharge?_spec h x
  obtain ⟨-, rfl⟩ := Prod.mk.inj (Option.some.inj (hr.symm.trans hq))
  exact ⟨hfollows, hle⟩

end Pool

end LocalGrid
