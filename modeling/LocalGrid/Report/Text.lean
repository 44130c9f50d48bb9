import LocalGrid.Decimal.Layout
import LocalGrid.Export.Document
import LocalGrid.Report.Basic

/-!
# Report texts

The report of a run as lines for a reader, and as a document.
-/

namespace LocalGrid

open Export

namespace Report

def energyPlaces : Decimal.Places := ⟨2, false⟩

def percentPlaces : Decimal.Places := ⟨1, false⟩

def energyText (x : Float32) : String := energyPlaces.single x

def percentText (x : Float32) : String := percentPlaces.single (x * 100) ++ "%"

def dayLine (d : DayBalance Float32) : String :=
  "  " ++ d.day.text ++ "  sufficiency=" ++ percentText d.selfSufficiency
    ++ "  consumption=" ++ percentText d.selfConsumption

def lines (r : Report Float32) : List String :=
  ["--- KPI Report ---",
   "Total generation:      " ++ energyText r.generation ++ " kWh",
   "Total demand:          " ++ energyText r.demand ++ " kWh",
   "Battery charged:       " ++ energyText r.charged ++ " kWh (discharged "
     ++ energyText r.discharged ++ " kWh, " ++ energyText r.fullCycles ++ " equiv. cycles)",
   "Peak battery level:    " ++ energyText r.peakLevel ++ " kWh",
   "Grid export:           " ++ energyText r.gridExport ++ " kWh",
   "Grid import:           " ++ energyText r.gridImport ++ " kWh",
   "Curtailed steps:       " ++ Nat.repr r.curtailed]
  ++ (r.finalThermal.elim [] fun x => ["Final thermal level:   " ++ energyText x ++ " kWh"])
  ++ ["Self-sufficiency:      " ++ percentText r.meanSelfSufficiency,
      "Self-consumption:      " ++ percentText r.meanSelfConsumption]
  ++ r.days.map dayLine

/-- The text of a report, without a final line break. -/
def text (r : Report Float32) : String := "\n".intercalate r.lines

def dayDocument (d : DayBalance Float32) : Document :=
  .record [
    ("date", .ofPlainText d.day.text),
    ("generation_kwh", .ofSingle d.generation),
    ("demand_kwh", .ofSingle d.demand),
    ("directly_consumed_kwh", .ofSingle d.consumed),
    ("self_sufficiency", .ofSingle d.selfSufficiency),
    ("self_consumption", .ofSingle d.selfConsumption)]

def document (r : Report Float32) : Document :=
  .record [
    ("total_generation_kwh", .ofSingle r.generation),
    ("total_demand_kwh", .ofSingle r.demand),
    ("battery_charged_kwh", .ofSingle r.charged),
    ("battery_discharged_kwh", .ofSingle r.discharged),
    ("peak_battery_kwh", .ofSingle r.peakLevel),
    ("battery_equivalent_full_cycles", .ofSingle r.fullCycles),
    ("grid_export_kwh", .ofSingle r.gridExport),
    ("grid_import_kwh", .ofSingle r.gridImport),
    ("curtailed_steps", .ofNat r.curtailed),
    ("final_thermal_kwh", .ofOption .ofSingle r.finalThermal),
    ("daily", .list (r.days.map dayDocument))]

end Report

end LocalGrid
