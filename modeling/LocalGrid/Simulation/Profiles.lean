import LocalGrid.Clock
import LocalGrid.Generator
import LocalGrid.Ramp
import LocalGrid.Simulation.Config

/-!
# Generation profiles

Before a run starts, the output of every generator is computed for all of its steps: a generator
that is not in use has a profile of zeros and takes no wind draw, and the chosen profiles are then
limited in their change from step to step.
-/

namespace LocalGrid.Simulation

structure Profiles (α : Type) where
  solar : List α
  wind : List α
  chp : List α

variable {σ α : Type} [Quantity α]

def Config.clock (c : Config α) : Clock := .new c.start c.stepDuration c.stepCount

def limited? (isTarget : Bool) (rate : α) (profile : List α) : Option (List α) :=
  if isTarget then ramp? rate profile else some profile

def Config.solarOutputs (c : Config α) (w : Weather σ α) (hours : List Nat) : List α :=
  if c.useSolar then hours.map (solarOutput w c.solarCapacity)
  else List.replicate hours.length 0

def Config.windOutputs (c : Config α) (w : Weather σ α) (steps : Nat) (s : σ) : List α × σ :=
  if c.useWind then
    let (xs, s) := Random.draws w.draw steps s
    (xs.map (windOutput c.windCapacity), s)
  else (List.replicate steps 0, s)

def Config.chpOutputs (c : Config α) (steps : Nat) : List α :=
  List.replicate steps (if c.useChp then chpOutput c.chpCapacity else 0)

/-- The profiles of a configuration, and the state of the wind after them. -/
def Config.profiles? (c : Config α) (w : Weather σ α) (s : σ) : Option (Profiles α × σ) := do
  let stamps ← c.clock.timestamps?
  let (wind, s) := c.windOutputs w stamps.length s
  let solar ← limited? c.ramp.solar c.rampRate (c.solarOutputs w (stamps.map (·.hour)))
  let wind ← limited? c.ramp.wind c.rampRate wind
  let chp ← limited? c.ramp.chp c.rampRate (c.chpOutputs stamps.length)
  pure (⟨solar, wind, chp⟩, s)

end LocalGrid.Simulation
