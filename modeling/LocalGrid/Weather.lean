import LocalGrid.Random.Draw
import LocalGrid.Setting

/-!
# Weather

What a run is given from outside: how much of the sun's full strength there is at each hour of the
day, and a source of wind. The wind is drawn from a state that the run hands on, so the number and
the order of its draws are part of the result. The state is a type of its own: a run can be read
with a random stream, with a fixed list, or with a counter beside either.
-/

namespace LocalGrid

/-- Sun and wind of a run, over a state `σ` of the wind. -/
structure Weather (σ α : Type) where
  /-- The share of the solar peak at an hour of the day. -/
  daylight : Nat → α
  /-- One draw of the wind; its magnitude is the share of the wind capacity. -/
  draw : σ → α × σ

def sunrise : Nat := 6

def sunset : Nat := 18

/-- A half turn in single precision. -/
def halfTurn : Float32 := Float32.ofBits 0x40490FDB

/-- The share of the solar peak at an hour: a half wave of the sine from sunrise to sunset. -/
def halfWave (hour : Nat) : Float32 :=
  if sunrise ≤ hour ∧ hour ≤ sunset then
    Quantity.positivePart (Elementary.sine (Float32.ofNat (hour - sunrise) * halfTurn / 12))
  else 0

inductive Wind where
  /-- A list that is read from its start again and again; an empty one gives zeros. -/
  | sequence (values : List Float32) (left : List Float32)
  | normal (stream : Random.Stream)
  | uniform (stream : Random.Stream)

namespace Wind

def replay (values : List Float32) : Wind := .sequence values values

def ofModel (model : WindModel) (seed : UInt64) : Wind :=
  match model with
  | .normal => .normal (.ofSeed seed)
  | .uniform => .uniform (.ofSeed seed)

def draw : Wind → Float32 × Wind
  | .sequence values left =>
    match left with
    | x :: rest => (x, .sequence values rest)
    | [] => (values.headD 0, .sequence values values.tail)
  | .normal stream =>
    let (x, stream) := Random.normal 1 stream
    (x, .normal stream)
  | .uniform stream =>
    let (x, stream) := Random.unitShare stream
    (x, .uniform stream)

/-- An empty list gives zeros. -/
theorem draw_replay_nil : (replay []).draw = (0, replay []) := rfl

end Wind

/-- The weather that runs: the half wave of daylight and a source of wind. -/
def Weather.standard : Weather Wind Float32 := ⟨halfWave, Wind.draw⟩

end LocalGrid
