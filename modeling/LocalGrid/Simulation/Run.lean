import LocalGrid.Dispatch
import LocalGrid.Percentile
import LocalGrid.Simulation.Profiles
import LocalGrid.Simulation.Record

/-!
# Runs

A run walks through its steps in order. Between steps it keeps the battery, the thermal store and
the gate; in a step the battery is dispatched with what the gate lets through, the gate is set for
the next step, and the thermal store takes the CHP output that the gate does not touch.
-/

namespace LocalGrid.Simulation

open Quantity

structure StepInput (α : Type) where
  timestamp : Calendar.Timestamp
  solar : α
  wind : α
  chp : α
  demand : α
  /-- Thermal demand, if there is a thermal store. -/
  thermalDemand : Option α

structure State (α : Type) where
  battery : Pool α
  thermal : Option (Pool α)
  /-- Whether the gate is closed. -/
  off : Bool

variable {σ α ω : Type} [Quantity α]

/-- The gate after a step: closed by a full battery, opened by an empty one. -/
def nextOff (off : Bool) (battery : Pool α) : Bool :=
  if battery.isFull then true else if battery.isEmpty then false else off

/-- One step of the thermal store: heat above the thermal demand is stored, heat below it is
taken out. -/
def heatStep? (hours chp demand : α) (pool : Pool α) : Option (ThermalRecord α × Pool α) := do
  let net := (chp - demand) * hours
  let (change, pool) ←
    if 0 < net then pool.charge? net
    else (pool.discharge? (-net)).map fun (released, pool) => (-released, pool)
  pure (⟨pool.level, change, demand⟩, pool)

def thermalStep? (hours chp : α) (demand : Option α) (thermal : Option (Pool α)) :
    Option (Option (ThermalRecord α) × Option (Pool α)) :=
  match thermal, demand with
  | some pool, some d => (heatStep? hours chp d pool).map fun (r, pool) => (some r, some pool)
  | thermal, _ => some (none, thermal)

/-- How a run is carried out: the length of its steps, the policy and whether it has a gate. -/
structure Rules (α : Type) where
  hours : α
  policy : Policy α
  gating : Bool

def Rules.step? (rules : Rules α) (index : Nat) (x : StepInput α) (s : State α) :
    Option (Record α × State α) := do
  let gated := rules.gating && s.off
  let solar := if gated then 0 else x.solar
  let wind := if gated then 0 else x.wind
  let chp := if gated then 0 else x.chp
  let generation := solar + wind + chp
  let (exchange, battery) ← rules.policy.dispatch? ⟨generation, x.demand, rules.hours⟩ s.battery
  let (heat, thermal) ← thermalStep? rules.hours x.chp x.thermalDemand s.thermal
  let record : Record α := {
    index := index
    timestamp := x.timestamp
    solar := solar
    wind := wind
    chp := chp
    generation := generation
    demand := x.demand
    surplus := generation - x.demand
    generationOff := gated
    batteryLevel := battery.level
    batteryChange := exchange.change
    gridExport := exchange.gridExport
    gridImport := exchange.gridImport
    thermal := heat }
  pure (record, ⟨battery, thermal, if rules.gating then nextOff s.off battery else s.off⟩)

/-- The records of consecutive steps, the first of which has the given index. -/
def Rules.steps? (rules : Rules α) : Nat → List (StepInput α) → State α → Option (List (Record α))
  | _, [], _ => some []
  | index, x :: rest, s => do
    let (record, s) ← rules.step? index x s
    let records ← rules.steps? (index + 1) rest s
    pure (record :: records)

theorem Rules.steps?_nil (rules : Rules α) (index : Nat) (s : State α) :
    rules.steps? index [] s = some [] := rfl

namespace Config

def inputs (c : Config α) (stamps : List Calendar.Timestamp) (p : Profiles α) :
    List (StepInput α) :=
  let thermal := match c.thermalDemand with
    | some xs => xs.map some
    | none => stamps.map fun _ => none
  (stamps.zip (p.solar.zip (p.wind.zip (p.chp.zip (c.demand.zip thermal))))).map
    fun (t, solar, wind, chp, demand, heat) => ⟨t, solar, wind, chp, demand, heat⟩

/-- The state before the first step: empty stores and an open gate. -/
def initialState (c : Config α) : State α where
  battery := .new c.batteryCapacity c.batteryEfficiency
  thermal := c.thermalDemand.map fun _ => .new c.thermalCapacity c.thermalEfficiency
  off := false

/-- The percentile of demand above which peak shaving discharges. -/
def peakPercentile : Nat := 80

def peakThreshold? [Quantity ω] [Widening α ω] (c : Config α) : Option α :=
  match c.dispatchMode with
  | .peakShaving => percentile? c.demand (peakPercentile : α)
  | .default => none

/-- The rules of a run. A series without a percentile has no steps, so its threshold is never
read. -/
def rules [Quantity ω] [Widening α ω] (c : Config α) : Rules α where
  hours := c.hours
  policy := .ofMode c.dispatchMode (c.peakThreshold?.getD 0)
  gating := c.gating

/-- Carries out a run whose configuration has been accepted. -/
def carryOut? [Quantity ω] [Widening α ω] (c : Config α) (w : Weather σ α) (s : σ) :
    Option (Result α × σ) := do
  let (profiles, s) ← c.profiles? w s
  let stamps ← c.clock.timestamps?
  let start := c.initialState
  let records ← c.rules.steps? 0 (c.inputs stamps profiles) start
  pure (⟨records, c.hours, start.battery.capacity, start.thermal.map (·.capacity),
    c.peakThreshold?⟩, s)

end Config

inductive Failure (α : Type) where
  /-- The configuration was refused before the first step. -/
  | rejected (r : Rejection α)
  /-- A value had no meaning: a level or a limit without an interval, or a time outside the
  calendar. -/
  | breakdown
  deriving DecidableEq

/-- Simulates a configuration. A refused configuration takes no wind draw. -/
def simulate [Quantity ω] [Widening α ω] (c : Config α) (w : Weather σ α) (s : σ) :
    Except (Failure α) (Result α) × σ :=
  match c.validate with
  | .error r => (.error (.rejected r), s)
  | .ok () =>
    match c.carryOut? w s with
    | some (result, s) => (.ok result, s)
    | none => (.error .breakdown, s)

end LocalGrid.Simulation
