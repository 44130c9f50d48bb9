import LocalGrid.Binary
import LocalGrid.Quantity

/-!
# Percentiles

The percentile of a series, interpolated between the two nearest ranks. The interpolation is done
in a wider arithmetic and rounded once; in the rational reading there is nothing to widen.
-/

namespace LocalGrid

open Quantity

/-- A wider arithmetic for the values of `α`, in which ranks are counted. -/
class Widening (α : Type) (ω : outParam Type) [Quantity ω] where
  widen : α → ω
  narrow : ω → α
  /-- The greatest natural number not above a value; zero for what is negative or no number. -/
  floor : ω → Nat

instance : Widening Float32 Float where
  widen := Binary.widen
  narrow := Binary.narrow
  floor x := x.toUInt64.toNat

instance : Widening Rat Rat where
  widen := id
  narrow := id
  floor x := x.floor.toNat

variable {α ω : Type} [Quantity α] [Quantity ω] [Widening α ω]

/-- A share of one hundred; values outside are moved to the nearer end. -/
def toPercent (x : α) : α :=
  if x < 0 then 0 else if ((100 : Nat) : α) < x then ((100 : Nat) : α) else x

/-- The rank of a percentile among `n` sorted values, counted from zero. -/
def percentileRank (n : Nat) (percent : α) : ω :=
  Widening.widen (toPercent percent) / ((100 : Nat) : ω) * ((n - 1 : Nat) : ω)

def interpolate (low high : α) (share : ω) : α :=
  let a : ω := Widening.widen low
  let b : ω := Widening.widen high
  Widening.narrow (a + (b - a) * share)

def sortSeries (xs : List α) : List α := xs.mergeSort sortsBefore

/-- The percentile of a series; an empty series has none. -/
def percentile? (xs : List α) (percent : α) : Option α := do
  let rank : ω := percentileRank xs.length percent
  let low := Widening.floor α rank
  let high := if ((low : Nat) : ω) < rank then low + 1 else low
  let sorted := sortSeries xs
  let a ← sorted[low]?
  let b ← sorted[high]?
  pure (interpolate a b (rank - ((low : Nat) : ω)))

theorem percentile?_nil (percent : α) : percentile? (ω := ω) ([] : List α) percent = none := by
  simp [percentile?, sortSeries]

end LocalGrid
