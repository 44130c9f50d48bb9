import LocalGrid.Export.Document
import LocalGrid.Simulation.Record

/-!
# Exported runs

The records of a run as lines for a reader and as rows of a table, and a whole run as a document.
-/

namespace LocalGrid.Export

open Simulation

def linePlaces : Decimal.Places := ⟨2, false⟩

def changePlaces : Decimal.Places := ⟨2, true⟩

def tablePlaces : Decimal.Places := ⟨4, false⟩

def thermalLine (t : ThermalRecord Float32) : String :=
  " | thermal=" ++ linePlaces.single t.level ++ " kWh (" ++ changePlaces.single t.change
    ++ ") demand=" ++ linePlaces.single t.demand ++ " kW"

def recordLine (r : Record Float32) : String :=
  let wide (x : Float32) := Decimal.padLeft 9 (linePlaces.single x)
  let plain (x : Float32) := linePlaces.single x
  "t=" ++ Decimal.padLeft 4 (Nat.repr r.index) ++ " " ++ r.timestamp.tableText
    ++ " | gen=" ++ wide r.generation ++ " kW (solar=" ++ plain r.solar
    ++ " wind=" ++ plain r.wind ++ " chp=" ++ plain r.chp ++ ")"
    ++ (if r.generationOff then " OFF" else "")
    ++ " demand=" ++ wide r.demand ++ " kW | bat=" ++ wide r.batteryLevel
    ++ " kWh (" ++ changePlaces.single r.batteryChange ++ ") | export=" ++ plain r.gridExport
    ++ " import=" ++ plain r.gridImport
    ++ r.thermal.elim "" thermalLine

def columns : List String :=
  ["timestep", "timestamp", "solar_kw", "wind_kw", "chp_kw", "total_generation_kw", "demand_kw",
   "surplus_kw", "generation_off", "battery_level_kwh", "battery_change_kwh", "grid_export_kwh",
   "grid_import_kwh", "thermal_level_kwh", "thermal_change_kwh", "thermal_demand_kw"]

/-- The thermal cells of a row, empty without a thermal store. -/
def thermalCells : Option (ThermalRecord Float32) → List String
  | some t => [tablePlaces.single t.level, tablePlaces.single t.change, tablePlaces.single t.demand]
  | none => ["", "", ""]

/-- The cells of a row. No cell holds a comma, a quote or a line break. -/
def cells (r : Record Float32) : List String :=
  [Nat.repr r.index, r.timestamp.tableText, tablePlaces.single r.solar, tablePlaces.single r.wind,
   tablePlaces.single r.chp, tablePlaces.single r.generation, tablePlaces.single r.demand,
   tablePlaces.single r.surplus, if r.generationOff then "true" else "false",
   tablePlaces.single r.batteryLevel, tablePlaces.single r.batteryChange,
   tablePlaces.single r.gridExport, tablePlaces.single r.gridImport]
  ++ thermalCells r.thermal

def row (cells : List String) : String := ",".intercalate cells ++ "\n"

def table (records : List (Record Float32)) : String :=
  String.join (row columns :: records.map fun r => row (cells r))

def thermalDocument (t : ThermalRecord Float32) : Document :=
  .record [
    ("level_kwh", .ofSingle t.level),
    ("change_kwh", .ofSingle t.change),
    ("demand_kw", .ofSingle t.demand)]

def recordDocument (r : Record Float32) : Document :=
  .record [
    ("timestep", .ofNat r.index),
    ("timestamp", .ofPlainText r.timestamp.text),
    ("solar_kw", .ofSingle r.solar),
    ("wind_kw", .ofSingle r.wind),
    ("chp_kw", .ofSingle r.chp),
    ("total_generation_kw", .ofSingle r.generation),
    ("demand_kw", .ofSingle r.demand),
    ("surplus_kw", .ofSingle r.surplus),
    ("generation_off", .ofBool r.generationOff),
    ("battery_level_kwh", .ofSingle r.batteryLevel),
    ("battery_change_kwh", .ofSingle r.batteryChange),
    ("grid_export_kwh", .ofSingle r.gridExport),
    ("grid_import_kwh", .ofSingle r.gridImport),
    ("thermal", .ofOption thermalDocument r.thermal)]

def resultDocument (r : Result Float32) : Document :=
  .record [
    ("steps", .list (r.records.map recordDocument)),
    ("dt_hours", .ofSingle r.hours),
    ("battery_capacity_kwh", .ofSingle r.batteryCapacity),
    ("thermal_capacity_kwh", .ofOption .ofSingle r.thermalCapacity),
    ("peak_threshold_kw", .ofOption .ofSingle r.peakThreshold)]

def documentText (r : Result Float32) : String := (resultDocument r).pretty ++ "\n"

end LocalGrid.Export
