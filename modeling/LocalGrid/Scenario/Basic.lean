import LocalGrid.Quantity

/-!
# Scenarios

What a user writes down for a run, before anything of it is checked: words are kept as they were
given, and series are described rather than held. Every part has a default, so a scenario only
states what differs from it.
-/

namespace LocalGrid.Scenario

structure Timing where
  steps : Nat := 168
  stepDuration : String := "hourly"
  /-- The timestamp of the first step; midnight of the day of the run if absent. -/
  start : Option String := none
  seed : UInt64 := 42
  dispatchMode : String := "default"
  /-- Whether generation stops when the battery is full, until it is empty. -/
  gating : Bool := true

structure Generation where
  solarCapacity : Float32 := 3000
  windCapacity : Float32 := 3000
  chpCapacity : Float32 := 3000
  useSolar : Bool := true
  useWind : Bool := true
  useChp : Bool := true
  windModel : String := "normal"
  rampRate : Float32 := 0.5
  rampSolar : Bool := false
  rampWind : Bool := true
  rampChp : Bool := false

/-- A battery: its capacity in kWh and the share of energy that charging keeps. -/
structure Battery where
  capacity : Float32 := 10000
  efficiency : Float32 := 0.9

/-- Where a series comes from, and what each of the possible sources needs. -/
structure Source where
  /-- The word that selects the source. -/
  kind : String := "random"
  /-- The bounds of random values. -/
  low : UInt32
  high : UInt32
  /-- Values to repeat. -/
  profile : List Float32 := []
  /-- The file of a table. -/
  path : Option String := none
  /-- The column of the table. -/
  column : String

structure Thermal where
  enabled : Bool := false
  capacity : Float32 := 5000
  efficiency : Float32 := 0.85
  source : Source := { low := 2000, high := 3999, column := "thermal_demand_kw" }

/-- The column that electrical demand is read from if no other one is named. -/
def demandColumn : String := "demand_kw"

/-- A building of a neighbourhood. A file goes before a profile. -/
structure Building where
  name : String := ""
  profile : List Float32 := []
  path : Option String := none
  column : String := demandColumn

/-- Electrical demand: a series, or the buildings of a neighbourhood. -/
structure Demand where
  source : Source := { low := 3000, high := 10000, column := demandColumn }
  buildings : List Building := []

end Scenario

structure Scenario where
  timing : Scenario.Timing := {}
  generation : Scenario.Generation := {}
  battery : Scenario.Battery := {}
  thermal : Scenario.Thermal := {}
  demand : Scenario.Demand := {}

namespace Scenario

/-- A gated week in hours, electrical only. -/
def microgrid : Scenario := {}

def microgridQuarterly : Scenario :=
  { timing := { steps := 672, stepDuration := "15-min" } }

/-- Peak shaving without a gate: a small battery, a thermal store, no wind, and a limit on the
change of CHP. -/
def distribution : Scenario where
  timing := { dispatchMode := "peak_shaving", gating := false }
  generation := {
    solarCapacity := 2000
    windCapacity := 0
    chpCapacity := 1600
    useWind := false
    windModel := "uniform"
    rampRate := 0.1
    rampChp := true }
  battery := { capacity := 30, efficiency := 0.9 }
  thermal := { enabled := true, capacity := 105 }

def presets : List (String × Scenario) :=
  [("microgrid", microgrid), ("microgrid_15min", microgridQuarterly),
   ("distribution", distribution)]

def presetNames : String := ", ".intercalate (presets.map (·.1))

def preset? (name : String) : Option Scenario :=
  (presets.find? fun (n, _) => n = name).map (·.2)

theorem preset?_microgrid : preset? "microgrid" = some microgrid := rfl

end Scenario

end LocalGrid
