import LocalGrid.Proofs.Quantity.Readings
import LocalGrid.Proofs.Storage

/-!
# A pool in use

A pool is charged and discharged, and between two of these its capacity and its efficiency may be
changed, also to a capacity below the level. What is kept by every action is only that the pool can
be used, not that its level fits: `Usable` is the invariant, and the next charge or discharge is
what brings the level back between zero and the capacity.
-/

namespace LocalGrid.Pool

open Quantity RoundedQuantity

inductive Action (α : Type) where
  | charge (surplus : α)
  | discharge (deficit : α)
  | setCapacity (capacity : α)
  | setEfficiency (efficiency : α)

variable {α : Type} [Quantity α]

/-- Amounts that are finite or no number at all, finite capacities, and proper efficiencies. -/
def Action.isAllowed : Action α → Bool
  | .charge x => isFinite x || isNaN x
  | .discharge x => isFinite x || isNaN x
  | .setCapacity capacity => isFinite capacity && decide (0 ≤ capacity)
  | .setEfficiency efficiency => isShare efficiency

def Action.isTransfer : Action α → Bool
  | .charge x => isFinite x
  | .discharge x => isFinite x
  | .setCapacity _ => false
  | .setEfficiency _ => false

def act? (p : Pool α) : Action α → Option (Pool α)
  | .charge surplus => (p.charge? surplus).map Prod.snd
  | .discharge deficit => (p.discharge? deficit).map Prod.snd
  | .setCapacity capacity => some { p with capacity := capacity }
  | .setEfficiency efficiency => some { p with efficiency := efficiency }

def actAll? (p : Pool α) : List (Action α) → Option (Pool α)
  | [] => some p
  | a :: rest => (p.act? a).bind fun q => q.actAll? rest

@[simp] theorem actAll?_nil (p : Pool α) : p.actAll? [] = some p := rfl

variable {p q : Pool α} {a : Action α} {actions : List (Action α)} {x : α}

theorem actAll?_cons (h : p.act? a = some q) : p.actAll? (a :: actions) = q.actAll? actions := by
  rw [actAll?, h]
  rfl

theorem Follows.trans {r : Pool α} (hrq : r.Follows q) (hqp : q.Follows p) : r.Follows p where
  wellFormed := hrq.wellFormed
  capacity_eq := hrq.capacity_eq.trans hqp.capacity_eq
  efficiency_eq := hrq.efficiency_eq.trans hqp.efficiency_eq

variable [RoundedQuantity α]

/-- No number at all counts as nothing. -/
theorem isFinite_positivePart_of_amount (h : isFinite x = true ∨ isNaN x = true) :
    isFinite (positivePart x) = true := by
  rcases h with hfinite | hnan
  · exact isFinite_positivePart hfinite (isNumber_of_isFinite hfinite)
  · have hnumber : ¬ IsNumber x := by simpa [isNaN, IsNumber] using hnan
    rw [positivePart_of_not_pos fun hpos => hnumber (isNumber_right (le_of_lt hpos))]
    exact isFinite_zero

/-! ## Changes of the pool itself -/

/-- An action leaves a pool that can be used. -/
theorem Usable.act? (h : p.Usable) (ha : a.isAllowed = true) :
    ∃ q, p.act? a = some q ∧ q.Usable := by
  cases a with
  | charge x =>
      have hx := isFinite_positivePart_of_amount (x := x) (by simpa [Action.isAllowed] using ha)
      obtain ⟨q, hq, hfollows, -⟩ := charge?_of_usable h hx
      exact ⟨q, by rw [Pool.act?, hq]; rfl, hfollows.wellFormed.usable⟩
  | discharge x =>
      obtain ⟨q, hq, hfollows, -⟩ := discharge?_of_usable h x
      exact ⟨q, by rw [Pool.act?, hq]; rfl, hfollows.wellFormed.usable⟩
  | setCapacity capacity =>
      obtain ⟨hfinite, hnonneg⟩ : isFinite capacity = true ∧ 0 ≤ capacity := by
        simpa [Action.isAllowed] using ha
      exact ⟨_, rfl, { h with isFinite_capacity := hfinite, capacity_nonneg := hnonneg }⟩
  | setEfficiency efficiency => exact ⟨_, rfl, { h with isShare_efficiency := ha }⟩

/-- Whatever is done to a pool, it can be used afterwards. -/
theorem Usable.actAll? (h : p.Usable) (hactions : ∀ a ∈ actions, a.isAllowed = true) :
    ∃ q, p.actAll? actions = some q ∧ q.Usable := by
  induction actions generalizing p with
  | nil => exact ⟨p, actAll?_nil p, h⟩
  | cons a rest ih =>
      obtain ⟨ha, hrest⟩ := List.forall_mem_cons.1 hactions
      obtain ⟨q, hq, husable⟩ := h.act? ha
      rw [actAll?_cons hq]
      exact ih husable hrest

/-! ## Transfers only -/

/-- As long as a pool is only charged and discharged, its level fits. -/
theorem WellFormed.act? (h : p.WellFormed) (ha : a.isTransfer = true) :
    ∃ q, p.act? a = some q ∧ q.Follows p := by
  cases a with
  | charge x =>
      obtain ⟨q, hq, hfollows, -⟩ := charge?_spec h (isFinite_positivePart_of_amount (.inl ha))
      exact ⟨q, by rw [Pool.act?, hq]; rfl, hfollows⟩
  | discharge x =>
      obtain ⟨q, hq, hfollows, -⟩ := discharge?_spec h x
      exact ⟨q, by rw [Pool.act?, hq]; rfl, hfollows⟩
  | setCapacity capacity => exact absurd ha Bool.false_ne_true
  | setEfficiency efficiency => exact absurd ha Bool.false_ne_true

theorem WellFormed.actAll? (h : p.WellFormed) (hactions : ∀ a ∈ actions, a.isTransfer = true) :
    ∃ q, p.actAll? actions = some q ∧ q.Follows p := by
  induction actions generalizing p with
  | nil => exact ⟨p, actAll?_nil p, h.follows_self⟩
  | cons a rest ih =>
      obtain ⟨ha, hrest⟩ := List.forall_mem_cons.1 hactions
      obtain ⟨q, hq, hfollows⟩ := h.act? ha
      obtain ⟨r, hr, hfollows'⟩ := ih hfollows.wellFormed hrest
      exact ⟨r, (actAll?_cons hq).trans hr, hfollows'.trans hfollows⟩

/-! ## Single precision -/

/-- Whatever was done to a pool before, a charge or a discharge succeeds, brings the level between
zero and the capacity that the pool has then, and reports the difference of the levels. An offer
that covers the headroom fills the pool exactly, and a request that covers the level empties it
exactly. -/
theorem operations_restore_bounds {capacity efficiency : Float32}
    (hcapacity : isFinite capacity = true) (hefficiency : isShare efficiency = true)
    {actions : List (Action Float32)} (hactions : ∀ a ∈ actions, a.isAllowed = true) :
    ∃ p, (new capacity efficiency).actAll? actions = some p ∧
      ∀ x, isFinite x = true ∨ isNaN x = true →
        (∃ q, p.charge? x = some (q.level - p.level, q) ∧ q.SameStore p ∧
          0 ≤ q.level ∧ q.level ≤ q.capacity ∧
          (p.headroom ≤ positivePart x * p.efficiency →
            q.level = q.capacity ∧ q.isFull = true)) ∧
        (∃ q, p.discharge? x = some (-(q.level - p.level), q) ∧ q.SameStore p ∧
          0 ≤ q.level ∧ q.level ≤ q.capacity ∧
          (p.level ≤ positivePart x → q.level = 0 ∧ q.isEmpty = true)) := by
  obtain ⟨p, hp, husable⟩ := (wellFormed_new hcapacity hefficiency).usable.actAll? hactions
  refine ⟨p, hp, fun x hx => ⟨?_, ?_⟩⟩
  · obtain ⟨q, hq, hfollows, -, hfull⟩ :=
      charge?_of_usable husable (isFinite_positivePart_of_amount hx)
    have hwell := hfollows.wellFormed
    refine ⟨q, hq, ⟨hfollows.capacity_eq, hfollows.efficiency_eq⟩, hwell.level_nonneg,
      hwell.level_le_capacity, fun hcovers => ?_⟩
    have hlevel := (hfull hcovers).trans hfollows.capacity_eq.symm
    refine ⟨hlevel, decide_eq_true ?_⟩
    rw [hlevel]
    exact isNumber_of_isFinite hwell.isFinite_capacity
  · obtain ⟨q, hq, hfollows, -, hempty, -⟩ := discharge?_of_usable husable x
    have hwell := hfollows.wellFormed
    refine ⟨q, hq, ⟨hfollows.capacity_eq, hfollows.efficiency_eq⟩, hwell.level_nonneg,
      hwell.level_le_capacity, fun hcovers => ⟨hempty hcovers, decide_eq_true ?_⟩⟩
    rw [hempty hcovers]
    exact isNumber_zero

/-- A full pool whose capacity was lowered below its level comes back into bounds with the next
request. -/
theorem operations_restore_bounds_lowered :
    ∃ q : Pool Float32, (⟨20, 0.5, 50⟩ : Pool Float32).discharge? 10 =
        some (-(q.level - 50), q) ∧
      q.SameStore ⟨20, 0.5, 50⟩ ∧ 0 ≤ q.level ∧ q.level ≤ q.capacity ∧
      (50 ≤ positivePart (10 : Float32) → q.level = 0 ∧ q.isEmpty = true) := by
  obtain ⟨p, hp, hoperations⟩ := @operations_restore_bounds 50 0.5 (by decide +kernel)
    (by decide +kernel) [.charge 200, .charge (0 / 0), .setCapacity 20] (by decide +kernel)
  have hlowered : (new (50 : Float32) 0.5).actAll?
      [.charge 200, .charge (0 / 0), .setCapacity 20] = some ⟨20, 0.5, 50⟩ := by
    decide +kernel
  obtain rfl := Option.some.inj (hp.symm.trans hlowered)
  exact (hoperations 10 (by decide +kernel)).2

end LocalGrid.Pool
