/-!
# Quantities

Powers, energies, capacities and shares are all `Quantity` values. The simulation is written once,
over any type with this structure, and is read in two ways: in single precision, which is what
runs, and in exact rational arithmetic, in which balances are equalities rather than
approximations. A law stated over `Quantity` alone holds of both readings.

The order operations are stated through `<` and `≤` only, so that an unordered value (a `NaN`)
falls through the same branches in every reading; in the rational reading those branches are the
usual maximum, minimum and clamp.
-/

namespace LocalGrid

/-- A type of quantities: arithmetic, a decidable order, and what a program needs to know of values
that are no number. No law is assumed, because rounded arithmetic satisfies few of them. -/
class Quantity (α : Type) extends
    Zero α, One α, Add α, Sub α, Mul α, Div α, Neg α, NatCast α, LT α, LE α where
  decLt : DecidableLT α
  decLe : DecidableLE α
  /-- The magnitude: the value without its sign. -/
  abs : α → α
  /-- Neither infinite nor a `NaN`. -/
  isFinite : α → Bool
  /-- A total order that decides where a value stands in a sorted series; it refines `≤`. -/
  sortsBefore : α → α → Bool

namespace Quantity

variable {α : Type} [Quantity α]

instance : DecidableLT α := decLt
instance : DecidableLE α := decLe

/-- A value that is not comparable with itself is no number. -/
def isNaN (x : α) : Bool := !decide (x ≤ x)

/-- The larger of two values. A `NaN` loses against a number, and equal values give the second. -/
def larger (x y : α) : α :=
  if y < x then x else if y ≤ y then y else x

/-- The smaller of two values. A `NaN` loses against a number, and equal values give the second. -/
def smaller (x y : α) : α :=
  if x < y then x else if y ≤ y then y else x

/-- The value, or zero if it is negative or no number. -/
def positivePart (x : α) : α := larger x 0

/-- `x` moved into the interval from `lo` to `hi`; `none` if the bounds are no interval. -/
def clamp? (x lo hi : α) : Option α :=
  if lo ≤ hi then some (if x < lo then lo else if hi < x then hi else x) else none

/-- `x` moved into the unit interval; a `NaN` stays as it is. -/
def toShare (x : α) : α :=
  if x < 0 then 0 else if 1 < x then 1 else x

/-- Below zero, or no number. -/
def isNegative (x : α) : Bool := isNaN x || decide (x < 0)

def isShare (x : α) : Bool := decide (0 ≤ x ∧ x ≤ 1)

theorem clamp?_eq_none_iff {x lo hi : α} : clamp? x lo hi = none ↔ ¬ lo ≤ hi := by
  simp [clamp?]

theorem clamp?_of_le {x lo hi : α} (h : lo ≤ hi) :
    clamp? x lo hi = some (if x < lo then lo else if hi < x then hi else x) := by
  simp [clamp?, h]

end Quantity

/-- The position of a single precision value in the total order of its bit patterns: negative
values in falling order of magnitude, then positive ones. -/
def singleRank (x : Float32) : Int :=
  let bits := x.toBits.toNat
  if bits < 0x80000000 then bits else 0x7FFFFFFF - (bits : Int)

/-- The position of a double precision value in the total order of its bit patterns. -/
def doubleRank (x : Float) : Int :=
  let bits := x.toBits.toNat
  if bits < 0x8000000000000000 then bits else 0x7FFFFFFFFFFFFFFF - (bits : Int)

instance : Quantity Float32 where
  zero := 0
  one := 1
  natCast := Float32.ofNat
  decLt := inferInstance
  decLe := inferInstance
  abs := Float32.abs
  isFinite := Float32.isFinite
  sortsBefore x y := singleRank x ≤ singleRank y

instance : Quantity Float where
  zero := 0
  one := 1
  natCast := Float.ofNat
  decLt := inferInstance
  decLe := inferInstance
  abs := Float.abs
  isFinite := Float.isFinite
  sortsBefore x y := doubleRank x ≤ doubleRank y

instance : Quantity Rat where
  zero := 0
  one := 1
  decLt := inferInstance
  decLe := inferInstance
  abs x := if x < 0 then -x else x
  isFinite _ := true
  sortsBefore x y := x ≤ y

end LocalGrid
