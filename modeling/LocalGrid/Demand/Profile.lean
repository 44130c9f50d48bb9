import LocalGrid.Quantity
import LocalGrid.Random.Draw

/-!
# Demand profiles

Two ways to make a demand series of a given length: random integers of a range, and the repetition
of a shorter series. A series that memory cannot address is not made.
-/

namespace LocalGrid.Demand

/-- The most values that a series can have. A value takes four bytes, and the bytes of a series take
less than half of the range of 64-bit addresses. -/
def maxLength : Nat := Int64.maxValue.toInt.toNat / 4

def uniformDraw (low high : UInt32) (s : Random.Stream) : Float32 × Random.Stream :=
  let (n, s) := Random.inRange low high s
  (n.toFloat32, s)

/-- Random integers between two bounds, given in either order. -/
def uniformProfile (steps : Nat) (low high : UInt32) (seed : UInt64) : List Float32 :=
  let s := Random.Stream.ofSeed seed
  if low ≤ high then (Random.draws (uniformDraw low high) steps s).1
  else (Random.draws (uniformDraw high low) steps s).1

def uniformProfile? (steps : Nat) (low high : UInt32) (seed : UInt64) : Option (List Float32) :=
  if steps ≤ maxLength then some (uniformProfile steps low high seed) else none

theorem length_uniformProfile (steps : Nat) (low high : UInt32) (seed : UInt64) :
    (uniformProfile steps low high seed).length = steps := by
  simp only [uniformProfile]
  split <;> exact Random.length_draws _ _ _

theorem length_of_uniformProfile? {steps : Nat} {low high : UInt32} {seed : UInt64}
    {xs : List Float32} (h : uniformProfile? steps low high seed = some xs) :
    xs.length = steps := by
  rw [uniformProfile?, Option.ite_none_right_eq_some] at h
  rw [← Option.some.inj h.2, length_uniformProfile]

variable {α : Type} [Quantity α]

/-- A series repeated from its start until it covers a number of steps; a longer one is cut. Nothing
to repeat gives zeros. -/
def repeatTo (baseline : List α) (steps : Nat) : List α :=
  (List.range steps).map fun i => baseline.getD (i % baseline.length) 0

def repeatTo? (baseline : List α) (steps : Nat) : Option (List α) :=
  if steps ≤ maxLength then some (repeatTo baseline steps) else none

theorem length_repeatTo (baseline : List α) (steps : Nat) :
    (repeatTo baseline steps).length = steps := by
  simp [repeatTo]

theorem length_of_repeatTo? {baseline xs : List α} {steps : Nat}
    (h : repeatTo? baseline steps = some xs) : xs.length = steps := by
  rw [repeatTo?, Option.ite_none_right_eq_some] at h
  rw [← Option.some.inj h.2, length_repeatTo]

theorem repeatTo_nil (steps : Nat) : repeatTo ([] : List α) steps = List.replicate steps 0 := by
  simp [repeatTo, List.map_const']

theorem getElem_repeatTo (baseline : List α) (steps i : Nat)
    (h : i < (repeatTo baseline steps).length) :
    (repeatTo baseline steps)[i] = baseline.getD (i % baseline.length) 0 := by
  simp [repeatTo]

end LocalGrid.Demand
