import LocalGrid.Quantity

/-!
# Storage pools

A pool stores energy up to a capacity; both the battery and the thermal store are pools. Losses
occur when it is charged. The level is moved by one operation only, which clamps it into the
interval from zero to the capacity, and both charging and discharging land exactly on an end of
that interval when they reach it.

A pool with a capacity that is negative or no number has no such interval; moving its level then
has no result.
-/

namespace LocalGrid

open Quantity

structure Pool (α : Type) where
  capacity : α
  /-- The share of offered energy that is stored. -/
  efficiency : α
  level : α
  deriving DecidableEq

namespace Pool

variable {α : Type} [Quantity α]

/-- An empty pool. A capacity below zero counts as zero, and the efficiency as a share. -/
def new (capacity efficiency : α) : Pool α :=
  ⟨positivePart capacity, toShare efficiency, 0⟩

def headroom (p : Pool α) : α := positivePart (p.capacity - p.level)

def isFull (p : Pool α) : Bool := p.capacity ≤ p.level

def isEmpty (p : Pool α) : Bool := p.level ≤ 0

/-- Moves the level, and gives the signed change. -/
def setLevel? (p : Pool α) (level : α) : Option (α × Pool α) :=
  (clamp? level 0 p.capacity).map fun after => (after - p.level, { p with level := after })

/-- Offers energy and gives what was stored. An offer that covers the headroom fills the pool
exactly. -/
def charge? (p : Pool α) (surplus : α) : Option (α × Pool α) :=
  let offered := positivePart surplus * p.efficiency
  p.setLevel? (if p.headroom ≤ offered then p.capacity else p.level + offered)

/-- Requests energy and gives what was released. A request that covers the level empties the pool
exactly. -/
def discharge? (p : Pool α) (deficit : α) : Option (α × Pool α) :=
  let requested := positivePart deficit
  (p.setLevel? (if p.level ≤ requested then 0 else p.level - requested)).map
    fun (change, p) => (-change, p)

theorem setLevel?_eq_some_iff {p q : Pool α} {level change : α} :
    p.setLevel? level = some (change, q) ↔
      ∃ after, clamp? level 0 p.capacity = some after ∧
        change = after - p.level ∧ q = { p with level := after } := by
  simp only [setLevel?, Option.map_eq_some_iff, Prod.mk.injEq, eq_comm (b := change),
    eq_comm (b := q)]

/-- Moving the level keeps capacity and efficiency. -/
theorem setLevel?_keeps {p q : Pool α} {level change : α}
    (h : p.setLevel? level = some (change, q)) :
    q.capacity = p.capacity ∧ q.efficiency = p.efficiency := by
  obtain ⟨after, _, _, rfl⟩ := setLevel?_eq_some_iff.1 h
  exact ⟨rfl, rfl⟩

end Pool

end LocalGrid
