import LocalGrid.Elementary
import LocalGrid.Quantity
import LocalGrid.Random.Stream

/-!
# Draws

Numbers made from random words: a share of one, an integer of a range, and a normally distributed
value. Each says how many words it takes.
-/

namespace LocalGrid.Random

/-- A multiple of `2 ^ -24` in `[0, 1)`, from one word. -/
def unitShare (s : Stream) : Float32 × Stream :=
  let (w, s) := s.next
  ((w >>> 8).toFloat32 * Float32.ofBits 0x33800000, s)

def wideProduct (a b : UInt32) : UInt32 × UInt32 :=
  let p := a.toUInt64 * b.toUInt64
  ((p >>> 32).toUInt32, p.toUInt32)

/-- An integer from `low` to `high`, for `low ≤ high`. The high word of word times range is nearly
even over the range; if the low word says that a finer word could have carried, a second word
decides. The full range of words is the word itself. -/
def inRange (low high : UInt32) (s : Stream) : UInt32 × Stream :=
  let range := high - low + 1
  let (w, s) := s.next
  if range = 0 then (w, s)
  else
    let (hi, lo) := wideProduct w range
    if 0 - range < lo then
      let (w, s) := s.next
      let (finer, _) := wideProduct w range
      let carry := if lo.toNat + finer.toNat < UInt32.size then 0 else 1
      (low + hi + carry, s)
    else (low + hi, s)

def draws {σ β : Type} (draw : σ → β × σ) : Nat → σ → List β × σ
  | 0, s => ([], s)
  | n + 1, s =>
    let (x, s) := draw s
    let (xs, s) := draws draw n s
    (x :: xs, s)

theorem draws_zero {σ β : Type} (draw : σ → β × σ) (s : σ) : draws draw 0 s = ([], s) := rfl

theorem length_draws {σ β : Type} (draw : σ → β × σ) (n : Nat) (s : σ) :
    (draws draw n s).1.length = n := by
  induction n generalizing s with
  | zero => rfl
  | succ n ih => simp [draws, ih]

/-- The first of a list of draws are a shorter list of draws. -/
theorem take_draws {σ β : Type} (draw : σ → β × σ) {k n : Nat} (h : k ≤ n) (s : σ) :
    (draws draw n s).1.take k = (draws draw k s).1 := by
  induction k generalizing n s with
  | zero => rfl
  | succ k ih =>
    cases n with
    | zero => exact absurd h (Nat.not_succ_le_zero k)
    | succ n => simp [draws, ih (Nat.le_of_succ_le_succ h)]

/-- The least share that the logarithm is taken of. -/
def leastShare : Float32 := Float32.ofBits 0x358637BD

def fullTurn : Float32 := Float32.ofBits 0x40C90FDB

/-- A normal value with mean zero and unit deviation, from a radius and an angle: two words. -/
def standardNormal (s : Stream) : Float32 × Stream :=
  let (u, s) := unitShare s
  let (v, s) := unitShare s
  let share := if u < leastShare then leastShare else u
  let radius := (-2 * Elementary.logarithm share).sqrt
  (radius * Elementary.cosine (fullTurn * v), s)

/-- A normal value with a given deviation. A deviation that is not positive gives zero and takes
no word. -/
def normal (deviation : Float32) (s : Stream) : Float32 × Stream :=
  if deviation ≤ 0 then (0, s)
  else
    let (z, s) := standardNormal s
    (z * deviation, s)

end LocalGrid.Random
