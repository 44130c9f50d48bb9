/-!
# Rounding a quotient

Every rounded number of the library, binary or decimal, is the nearest integer to a quotient of
natural numbers on some grid. This module holds that one step; what differs between its uses is
the grid and what happens to a value half way between two points. The grids are made of powers of
two and of ten.
-/

namespace LocalGrid

def twoPow (k : Nat) : Nat := Nat.pow 2 k

def tenPow (k : Nat) : Nat := Nat.pow 10 k

theorem twoPow_pos (k : Nat) : 0 < twoPow k := Nat.pow_pos (by decide)

theorem tenPow_pos (k : Nat) : 0 < tenPow k := Nat.pow_pos (by decide)

/-- Where a value half way between two grid points goes. -/
inductive Tie where
  /-- To the neighbour with an even index. -/
  | even
  /-- To the neighbour farther from zero. -/
  | away
  deriving DecidableEq, Repr

def roundDiv (tie : Tie) (n d : Nat) : Nat :=
  let q := n / d
  let r := n % d
  if 2 * r < d then q
  else if d < 2 * r then q + 1
  else match tie with
    | .even => q + q % 2
    | .away => q + 1

theorem div_le_roundDiv (tie : Tie) (n d : Nat) : n / d ≤ roundDiv tie n d := by
  unfold roundDiv
  cases tie <;> grind

theorem roundDiv_le_div_add_one (tie : Tie) (n d : Nat) : roundDiv tie n d ≤ n / d + 1 := by
  unfold roundDiv
  cases tie <;> grind

/-- A quotient that is an integer is not moved. -/
theorem roundDiv_mul_self (tie : Tie) (n : Nat) {d : Nat} (h : 0 < d) :
    roundDiv tie (n * d) d = n := by
  simp [roundDiv, Nat.mul_mod_left, Nat.mul_div_cancel n h, h]

end LocalGrid
