import LocalGrid.Scenario.Basic
import LocalGrid.Toml.Decoding
import LocalGrid.Toml.Document

/-!
# Reading scenarios

The fields of a scenario document. Their order is that in which an array gives them.
-/

namespace LocalGrid.Scenario

open Toml

def timingSchema : Schema Timing where
  name := "SimulationSection"
  fields := [
    .of "steps" Value.toIndex fun s x => { s with steps := x },
    .of "step_duration" Value.toText fun s x => { s with stepDuration := x },
    .of "start" Value.toText fun s x => { s with start := some x },
    .of "seed" Value.toSeed fun s x => { s with seed := x },
    .of "dispatch_mode" Value.toText fun s x => { s with dispatchMode := x },
    .of "enable_gating" Value.toBoolean fun s x => { s with gating := x }]

def generationSchema : Schema Generation where
  name := "GenerationConfig"
  fields := [
    .of "solar_capacity_kw" Value.toQuantity fun s x => { s with solarCapacity := x },
    .of "wind_capacity_kw" Value.toQuantity fun s x => { s with windCapacity := x },
    .of "chp_capacity_kw" Value.toQuantity fun s x => { s with chpCapacity := x },
    .of "use_solar" Value.toBoolean fun s x => { s with useSolar := x },
    .of "use_wind" Value.toBoolean fun s x => { s with useWind := x },
    .of "use_chp" Value.toBoolean fun s x => { s with useChp := x },
    .of "wind_model" Value.toText fun s x => { s with windModel := x },
    .of "ramp_rate" Value.toQuantity fun s x => { s with rampRate := x },
    .of "ramp_solar" Value.toBoolean fun s x => { s with rampSolar := x },
    .of "ramp_wind" Value.toBoolean fun s x => { s with rampWind := x },
    .of "ramp_chp" Value.toBoolean fun s x => { s with rampChp := x }]

def batterySchema : Schema Battery where
  name := "BatteryConfig"
  fields := [
    .of "capacity_kwh" Value.toQuantity fun s x => { s with capacity := x },
    .of "efficiency" Value.toQuantity fun s x => { s with efficiency := x }]

def sourceFields {S : Type} (get : S → Source) (put : S → Source → S) : List (Schema.Field S) :=
  [.of "source" Value.toText fun s x => put s { get s with kind := x },
   .of "min_kw" Value.toWord fun s x => put s { get s with low := x },
   .of "max_kw" Value.toWord fun s x => put s { get s with high := x },
   .of "profile" Value.toQuantities fun s x => put s { get s with profile := x },
   .of "csv_path" Value.toText fun s x => put s { get s with path := some x },
   .of "csv_column" Value.toText fun s x => put s { get s with column := x }]

def thermalSchema : Schema Thermal where
  name := "ThermalConfig"
  fields := [
    .of "enabled" Value.toBoolean fun s x => { s with enabled := x },
    .of "capacity_kwh" Value.toQuantity fun s x => { s with capacity := x },
    .of "efficiency" Value.toQuantity fun s x => { s with efficiency := x }]
    ++ sourceFields Thermal.source fun s x => { s with source := x }

def buildingSchema : Schema Building where
  name := "BuildingConfig"
  fields := [
    ⟨"name", fun v s => v.toText.map fun x => { s with name := x }, .always⟩,
    .of "profile" Value.toQuantities fun s x => { s with profile := x },
    ⟨"csv_path", fun v s => v.toText.map fun x => { s with path := some x }, .inArrays⟩,
    .of "csv_column" Value.toText fun s x => { s with column := x }]

def toBuildings (v : Value) : Except DecodeError (List Building) := do
  (← v.toItems).mapM fun item => buildingSchema.decode item {}

def demandSchema : Schema Demand where
  name := "DemandConfig"
  fields := sourceFields Demand.source (fun s x => { s with source := x })
    ++ [.of "buildings" toBuildings fun s x => { s with buildings := x }]

def schema : Schema Scenario where
  name := "ScenarioConfig"
  fields := [
    timingSchema.asField "simulation" Scenario.timing fun s x => { s with timing := x },
    generationSchema.asField "generation" Scenario.generation fun s x => { s with generation := x },
    batterySchema.asField "battery" Scenario.battery fun s x => { s with battery := x },
    thermalSchema.asField "thermal" Scenario.thermal fun s x => { s with thermal := x },
    demandSchema.asField "demand" Scenario.demand fun s x => { s with demand := x }]

inductive TextError where
  /-- It is no document. -/
  | malformed
  /-- A value of the document does not fit. -/
  | unfit (reason : DecodeError)
  deriving DecidableEq, Repr

def TextError.message : TextError → String
  | .malformed => "malformed document"
  | .unfit reason => reason.message

def ofText (text : String) : Except TextError Scenario :=
  match read? text with
  | none => .error .malformed
  | some entries => (schema.setEntries entries {}).mapError .unfit

end LocalGrid.Scenario
