import LocalGrid.Calendar.Timestamp
import LocalGrid.Fault
import LocalGrid.Quantity
import LocalGrid.Setting

/-!
# The input of a simulation

A `Config` holds everything one run depends on, apart from the weather. `Config.rejections` lists
what is wrong with it, in the order in which it is reported; a run starts only if the list is
empty, and otherwise reports its head.
-/

namespace LocalGrid.Simulation

open Quantity

/-- The input of one run. Powers are in kW, energies in kWh. -/
structure Config (α : Type) where
  stepCount : Nat
  stepDuration : StepDuration
  start : Calendar.Timestamp
  solarCapacity : α
  windCapacity : α
  chpCapacity : α
  batteryCapacity : α
  batteryEfficiency : α
  thermalCapacity : α
  thermalEfficiency : α
  useSolar : Bool
  useWind : Bool
  useChp : Bool
  /-- The greatest change of a ramp-limited profile from step to step. -/
  rampRate : α
  ramp : RampTargets
  dispatchMode : DispatchMode
  /-- Whether generation stops when the battery is full, until it is empty. -/
  gating : Bool
  windModel : WindModel
  seed : UInt64
  demand : List α
  /-- Thermal demand; without it there is no thermal store. -/
  thermalDemand : Option (List α)

inductive Magnitude where
  | solarCapacity
  | windCapacity
  | chpCapacity
  | batteryCapacity
  | thermalCapacity
  | rampRate
  deriving DecidableEq, Repr

def Magnitude.name : Magnitude → String
  | .solarCapacity => "solar_capacity"
  | .windCapacity => "wind_capacity"
  | .chpCapacity => "chp_capacity"
  | .batteryCapacity => "battery_capacity"
  | .thermalCapacity => "thermal_storage_capacity"
  | .rampRate => "ramp_rate"

inductive Share where
  | battery
  | thermal
  deriving DecidableEq, Repr

def Share.name : Share → String
  | .battery => "battery_efficiency"
  | .thermal => "thermal_storage_efficiency"

inductive Series where
  | electrical
  | thermal
  deriving DecidableEq, Repr

def Series.name : Series → String
  | .electrical => "demand_series"
  | .thermal => "thermal_demand_series"

inductive Rejection (α : Type) where
  | noSteps
  | seriesLength (series : Series) (length steps : Nat)
  | negative (field : Magnitude) (value : α)
  | infinite (field : Magnitude)
  | notShare (field : Share) (value : α)
  | gateWithoutBattery
  | badDemand (series : Series) (index : Nat) (value : α)
  deriving DecidableEq

variable {α : Type} [Quantity α]

/-- Infinite, or negative, or no number. -/
def isBadDemand (x : α) : Bool := !isFinite x || decide (x < 0)

/-- The rejections of a magnitude. Only the ramp rate may be infinite, which is no limit. -/
def checkMagnitude (field : Magnitude) (value : α) : List (Rejection α) :=
  if isNegative value then [.negative field value]
  else if !isFinite value && field != .rampRate then [.infinite field]
  else []

def checkShare (field : Share) (value : α) : List (Rejection α) :=
  if isShare value then [] else [.notShare field value]

def firstBad? : Nat → List α → Option (Nat × α)
  | _, [] => none
  | i, x :: rest => if isBadDemand x then some (i, x) else firstBad? (i + 1) rest

def checkEntries (series : Series) (xs : List α) : List (Rejection α) :=
  match firstBad? 0 xs with
  | some (i, x) => [.badDemand series i x]
  | none => []

def checkLength (series : Series) (steps : Nat) (xs : List α) : List (Rejection α) :=
  if xs.length = steps then [] else [.seriesLength series xs.length steps]

namespace Config

/-- A gated run over a demand series with every generator in use and nothing installed. -/
def new (duration : StepDuration) (start : Calendar.Timestamp) (demand : List α) : Config α where
  stepCount := demand.length
  stepDuration := duration
  start := start
  solarCapacity := 0
  windCapacity := 0
  chpCapacity := 0
  batteryCapacity := 0
  batteryEfficiency := 1
  thermalCapacity := 0
  thermalEfficiency := 1
  useSolar := true
  useWind := true
  useChp := true
  rampRate := 1 / ((2 : Nat) : α)
  ramp := .windOnly
  dispatchMode := .default
  gating := true
  windModel := .normal
  seed := 0
  demand := demand
  thermalDemand := none

def hours (c : Config α) : α := c.stepDuration.hours

/-- Everything wrong with a configuration, in the order of reports; of a series with several bad
entries, the first. -/
def rejections (c : Config α) : List (Rejection α) :=
  (if c.stepCount = 0 then [.noSteps] else [])
    ++ checkLength .electrical c.stepCount c.demand
    ++ (c.thermalDemand.elim [] (checkLength .thermal c.stepCount))
    ++ checkMagnitude .solarCapacity c.solarCapacity
    ++ checkMagnitude .windCapacity c.windCapacity
    ++ checkMagnitude .chpCapacity c.chpCapacity
    ++ checkMagnitude .batteryCapacity c.batteryCapacity
    ++ checkMagnitude .thermalCapacity c.thermalCapacity
    ++ checkMagnitude .rampRate c.rampRate
    ++ checkShare .battery c.batteryEfficiency
    ++ checkShare .thermal c.thermalEfficiency
    ++ (if c.gating ∧ c.batteryCapacity ≤ 0 then [.gateWithoutBattery] else [])
    ++ checkEntries .electrical c.demand
    ++ (c.thermalDemand.elim [] (checkEntries .thermal))

def validate (c : Config α) : Except (Rejection α) Unit :=
  match c.rejections with
  | [] => .ok ()
  | r :: _ => .error r

theorem validate_eq_ok_iff (c : Config α) : c.validate = .ok () ↔ c.rejections = [] := by
  unfold validate
  cases c.rejections <;> simp

theorem validate_eq_error_iff (c : Config α) (r : Rejection α) :
    c.validate = .error r ↔ c.rejections.head? = some r := by
  unfold validate
  cases c.rejections <;> simp

end Config

def Rejection.fault {α : Type} (text : α → String) : Rejection α → Fault
  | .noSteps => ⟨.configuration, "step_count", "must be > 0"⟩
  | .seriesLength series length steps =>
    ⟨.configuration, series.name,
      "length " ++ toString length ++ " does not match step_count " ++ toString steps⟩
  | .negative field value => ⟨.numericDomain, field.name, "must be >= 0, got " ++ text value⟩
  | .infinite field => ⟨.numericDomain, field.name, "must be finite"⟩
  | .notShare field value =>
    ⟨.numericDomain, field.name, "must be in [0.0, 1.0], got " ++ text value⟩
  | .gateWithoutBattery =>
    ⟨.numericDomain, Magnitude.batteryCapacity.name,
      "must be > 0 when generation gating is enabled"⟩
  | .badDemand series index value =>
    ⟨.numericDomain, series.name ++ "[" ++ toString index ++ "]",
      "must be finite and >= 0, got " ++ text value⟩

end LocalGrid.Simulation
