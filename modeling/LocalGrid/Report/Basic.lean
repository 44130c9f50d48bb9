import LocalGrid.Quantity
import LocalGrid.Simulation.Record

/-!
# Reports

The totals of a finished run and the balance of each of its days. Every total is a sum over the
records in their order, so it can be checked against them; the days are those of the records,
each once, in the order of the calendar.
-/

namespace LocalGrid

open Quantity Simulation

structure DayBalance (α : Type) where
  day : Calendar.Day
  generation : α
  demand : α
  /-- Energy that was generated and used on the same day. -/
  consumed : α
  /-- The share of the demand that was generated. -/
  selfSufficiency : α
  /-- The share of the generation that was used. -/
  selfConsumption : α
  deriving DecidableEq

structure Report (α : Type) where
  generation : α
  demand : α
  charged : α
  discharged : α
  peakLevel : α
  /-- Discharged energy in units of the battery capacity. -/
  fullCycles : α
  gridExport : α
  gridImport : α
  /-- The steps in which the gate kept generation off. -/
  curtailed : Nat
  finalThermal : Option α
  days : List (DayBalance α)
  deriving DecidableEq

structure DaySums (α : Type) where
  day : Calendar.Day
  generation : α
  demand : α
  deriving DecidableEq

variable {α : Type} [Quantity α]

/-- Adds energies to the sums of a day. The days stay in order, each once and the last one first,
so the day of a later record is found at once. -/
def addToDay (day : Calendar.Day) (generation demand : α) :
    List (DaySums α) → List (DaySums α)
  | [] => [⟨day, 0 + generation, 0 + demand⟩]
  | d :: rest =>
    if d.day.number < day.number then ⟨day, 0 + generation, 0 + demand⟩ :: d :: rest
    else if d.day.number = day.number then
      ⟨d.day, d.generation + generation, d.demand + demand⟩ :: rest
    else d :: addToDay day generation demand rest

def daySums (hours : α) (records : List (Record α)) : List (DaySums α) :=
  (records.foldl
    (fun days r => addToDay r.timestamp.day (r.generation * hours) (r.demand * hours) days)
    []).reverse

/-- A part of a whole; a whole that is not positive has no parts. -/
def ratio (part whole : α) : α := if 0 < whole then part / whole else 0

def DaySums.balance (d : DaySums α) : DayBalance α :=
  let consumed := smaller d.generation d.demand
  ⟨d.day, d.generation, d.demand, consumed, ratio consumed d.demand, ratio consumed d.generation⟩

/-- The sum of a quantity over the records, from zero and in their order. -/
def total (f : Record α → α) (records : List (Record α)) : α :=
  records.foldl (fun sum r => sum + f r) 0

def totalCharged (records : List (Record α)) : α :=
  records.foldl (fun sum r => if 0 < r.batteryChange then sum + r.batteryChange else sum) 0

def totalDischarged (records : List (Record α)) : α :=
  records.foldl (fun sum r => if 0 < r.batteryChange then sum else sum - r.batteryChange) 0

/-- The highest battery level, at least zero. -/
def highestLevel (records : List (Record α)) : α :=
  records.foldl (fun peak r => larger peak r.batteryLevel) 0

/-- The mean of a list; that of an empty one is zero. -/
def mean (xs : List α) : α :=
  if xs.isEmpty then 0 else xs.foldl (· + ·) 0 / (xs.length : α)

namespace Report

def ofResult (r : Result α) : Report α :=
  let discharged := totalDischarged r.records
  { generation := total (fun s => s.generation * r.hours) r.records
    demand := total (fun s => s.demand * r.hours) r.records
    charged := totalCharged r.records
    discharged := discharged
    peakLevel := highestLevel r.records
    fullCycles := ratio discharged r.batteryCapacity
    gridExport := total (·.gridExport) r.records
    gridImport := total (·.gridImport) r.records
    curtailed := r.records.countP (·.generationOff)
    finalThermal := r.records.getLast?.bind fun s => s.thermal.map (·.level)
    days := (daySums r.hours r.records).map DaySums.balance }

def meanSelfSufficiency (r : Report α) : α := mean (r.days.map (·.selfSufficiency))

def meanSelfConsumption (r : Report α) : α := mean (r.days.map (·.selfConsumption))

theorem days_ofResult (r : Result α) :
    (ofResult r).days = (daySums r.hours r.records).map DaySums.balance := rfl

end Report

end LocalGrid
