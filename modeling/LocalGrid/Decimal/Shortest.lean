import LocalGrid.Binary

/-!
# Shortest decimals

A binary value stands for all the reals that round to it. Among the decimals in that interval,
`shortest` finds one with the fewest digits, and of those the one nearest to the value. It looks
at the grids of one digit, two digits, and so on; on each it is enough to test the two neighbours
of the value, because if any point of a grid lies in the interval, one of the neighbours does.
-/

namespace LocalGrid.Decimal

/-- A decimal number: `significand * 10 ^ exponent`. -/
structure Digits where
  significand : Nat
  exponent : Int
  deriving DecidableEq, Repr

def digits (n : Nat) : List Char := Nat.toDigits 10 n

/-- The greatest `e` with `10 ^ e ≤ n / d`, for positive `n` and `d`. -/
def log10Quotient (n d : Nat) : Int :=
  if d ≤ n then (digits (n / d)).length - 1
  else
    let k := (digits (d / n)).length
    if n * tenPow (k - 1) = d then 1 - (k : Int) else - (k : Int)

/-- The reals that round to one value: the fractions from `low / scale` to `high / scale`, ends
included or not, around `centre / scale`. -/
structure Interval where
  low : Nat
  centre : Nat
  high : Nat
  scale : Nat
  closed : Bool

/-- The interval of `m * 2 ^ q`. The gap below a power of two is half of the gap above it; the
ends round to the even mantissa. -/
def interval (f : Binary) (m : Nat) (q : Int) : Interval :=
  let unit := twoPow q.toNat
  let below := if m = f.binade ∧ f.minExponent < q then 1 else 2
  { low := (4 * m - below) * unit
    centre := 4 * m * unit
    high := (4 * m + 2) * unit
    scale := 4 * twoPow (-q).toNat
    closed := m % 2 == 0 }

/-- Whether `k * 10 ^ g` lies in the interval. -/
def Interval.contains (i : Interval) (k : Nat) (g : Int) : Bool :=
  let point := k * tenPow g.toNat * i.scale
  let stretch := tenPow (-g).toNat
  if i.closed then i.low * stretch ≤ point && point ≤ i.high * stretch
  else i.low * stretch < point && point < i.high * stretch

/-- The neighbour of the centre on the grid of `10 ^ g` that lies in the interval, if one does; of
two, the nearer. -/
def Interval.onGrid? (i : Interval) (tie : Tie) (g : Int) : Option Nat :=
  let n := i.centre * tenPow (-g).toNat
  let d := i.scale * tenPow g.toNat
  let below := n / d
  match i.contains below g, i.contains (below + 1) g with
  | true, true => some (roundDiv tie n d)
  | true, false => some below
  | false, true => some (below + 1)
  | false, false => none

def Interval.firstOnGrid (i : Interval) (tie : Tie) : Nat → Int → Digits
  | 0, g => ⟨i.centre * tenPow (-g).toNat / (i.scale * tenPow g.toNat), g⟩
  | grids + 1, g =>
    match i.onGrid? tie g with
    | some k => ⟨k, g⟩
    | none => i.firstOnGrid tie grids (g - 1)

/-- The shortest decimal that reads back as `m * 2 ^ q`, for a positive mantissa. Seventeen digits
are enough in either format. -/
def shortest (f : Binary) (tie : Tie) (m : Nat) (q : Int) : Digits :=
  let i := interval f m q
  i.firstOnGrid tie 17 (log10Quotient i.centre i.scale)

end LocalGrid.Decimal
