import LocalGrid.Setting
import LocalGrid.Storage

/-!
# Dispatch

One step of the battery: what a policy does with the generation and the demand of the step. A
surplus is offered to the battery and the rest is exported; a deficit is requested from it and the
rest is imported. The policies differ only in whether a deficit may be requested at all.
-/

namespace LocalGrid

open Quantity

/-- Powers of one step and its length in hours. -/
structure Balance (α : Type) where
  generation : α
  demand : α
  hours : α
  deriving DecidableEq

/-- What a dispatch did: the signed change of the battery and the exchange with the grid. -/
structure Exchange (α : Type) where
  change : α
  gridExport : α
  gridImport : α
  deriving DecidableEq

inductive Policy (α : Type) where
  /-- On every deficit. -/
  | default
  /-- On a deficit while demand is above the threshold. -/
  | peakShaving (threshold : α)
  deriving DecidableEq

variable {α : Type} [Quantity α]

namespace Balance

def surplus (b : Balance α) : α := positivePart (b.generation - b.demand) * b.hours

def deficit (b : Balance α) : α := positivePart (b.demand - b.generation) * b.hours

def hasSurplus (b : Balance α) : Bool := b.demand < b.generation

end Balance

/-- The policy of a mode; only peak shaving reads the threshold. -/
def Policy.ofMode (mode : DispatchMode) (threshold : α) : Policy α :=
  match mode with
  | .default => .default
  | .peakShaving => .peakShaving threshold

/-- Stores a surplus. The energy drawn for what was stored is never more than the surplus, and the
remainder is exported; losses are not. -/
def Pool.absorb? (p : Pool α) (b : Balance α) : Option (Exchange α × Pool α) := do
  let (stored, q) ← p.charge? b.surplus
  let drawn := if 0 < p.efficiency then smaller (stored / p.efficiency) b.surplus else 0
  pure (⟨stored, positivePart (b.surplus - drawn), 0⟩, q)

def Pool.cover? (p : Pool α) (b : Balance α) : Option (Exchange α × Pool α) := do
  let (released, q) ← p.discharge? b.deficit
  pure (⟨-released, 0, positivePart (b.deficit - released)⟩, q)

def Balance.hold (b : Balance α) : Exchange α := ⟨0, 0, b.deficit⟩

def Policy.dispatch? (policy : Policy α) (b : Balance α) (p : Pool α) :
    Option (Exchange α × Pool α) :=
  if b.hasSurplus then p.absorb? b
  else match policy with
    | .default => p.cover? b
    | .peakShaving threshold =>
      if threshold < b.demand ∧ p.isEmpty = false then p.cover? b else some (b.hold, p)

end LocalGrid
