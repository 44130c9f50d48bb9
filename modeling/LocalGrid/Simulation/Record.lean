import LocalGrid.Calendar.Timestamp

/-!
# The records of a run

One record per step, and what is known of the run as a whole.
-/

namespace LocalGrid.Simulation

structure ThermalRecord (α : Type) where
  level : α
  /-- The signed change in this step. -/
  change : α
  demand : α
  deriving DecidableEq

structure Record (α : Type) where
  index : Nat
  timestamp : Calendar.Timestamp
  solar : α
  wind : α
  chp : α
  generation : α
  demand : α
  surplus : α
  /-- Whether the gate kept generation off in this step. -/
  generationOff : Bool
  /-- The battery level after this step. -/
  batteryLevel : α
  /-- The signed change of the battery in this step. -/
  batteryChange : α
  gridExport : α
  gridImport : α
  thermal : Option (ThermalRecord α)
  deriving DecidableEq

structure Result (α : Type) where
  records : List (Record α)
  hours : α
  batteryCapacity : α
  thermalCapacity : Option α
  peakThreshold : Option α
  deriving DecidableEq

namespace Result

variable {α : Type}

def batteryLevels (r : Result α) : List α := r.records.map (·.batteryLevel)

def batteryChanges (r : Result α) : List α := r.records.map (·.batteryChange)

def generations (r : Result α) : List α := r.records.map (·.generation)

def thermalLevels? (r : Result α) : Option (List α) :=
  r.records.mapM fun s => s.thermal.map (·.level)

end Result

end LocalGrid.Simulation
