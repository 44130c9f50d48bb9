import LocalGrid.Calendar.Reading
import LocalGrid.Fault
import LocalGrid.Scenario.Basic
import LocalGrid.Setting

/-!
# Problems of a scenario

Everything that can be wrong with a scenario before a file is opened, each with the path of the
field it concerns. Only the start is read here for good. Words are asked whether their setting has
them and sources whether they have what their kind needs; what they stand for is found again when
the scenario is resolved, by other functions.
-/

namespace LocalGrid.Scenario

inductive Amount where
  | solarCapacity
  | windCapacity
  | chpCapacity
  | rampRate
  | batteryCapacity
  | thermalCapacity
  deriving DecidableEq, Repr

def Amount.path : Amount → String
  | .solarCapacity => "generation.solar_capacity_kw"
  | .windCapacity => "generation.wind_capacity_kw"
  | .chpCapacity => "generation.chp_capacity_kw"
  | .rampRate => "generation.ramp_rate"
  | .batteryCapacity => "battery.capacity_kwh"
  | .thermalCapacity => "thermal.capacity_kwh"

inductive Store where
  | battery
  | thermal
  deriving DecidableEq, Repr

def Store.efficiencyPath : Store → String
  | .battery => "battery.efficiency"
  | .thermal => "thermal.efficiency"

inductive Load where
  | electrical
  | thermal
  deriving DecidableEq, Repr

def Load.path : Load → String
  | .electrical => "demand"
  | .thermal => "thermal"

def Load.sources : Load → String
  | .electrical => "\"random\", \"profile\", \"csv\" or \"neighborhood\""
  | .thermal => "\"random\", \"profile\" or \"csv\""

inductive Problem where
  | noSteps
  | unknownWord (setting : Setting) (word : String)
  | start (text : String) (reason : Calendar.ReadError)
  | negative (amount : Amount)
  | notShare (store : Store)
  | gateWithoutBattery
  | bounds (load : Load)
  | noProfile (load : Load)
  | noPath (load : Load)
  | unknownSource (load : Load) (word : String)
  | noBuildings
  | unnamedBuilding (index : Nat)
  | emptyBuilding (index : Nat)
  deriving DecidableEq, Repr

def settingPath (s : Setting) : String :=
  match s with
  | .stepDuration => "simulation." ++ s.name
  | .dispatchMode => "simulation." ++ s.name
  | .windModel => "generation." ++ s.name

def buildingPath (index : Nat) : String := "demand.buildings[" ++ Nat.repr index ++ "]"

def Problem.field : Problem → String
  | .noSteps => "simulation.steps"
  | .unknownWord setting _ => settingPath setting
  | .start _ _ => "simulation.start"
  | .negative amount => amount.path
  | .notShare store => store.efficiencyPath
  | .gateWithoutBattery => Amount.batteryCapacity.path
  | .bounds load => load.path ++ ".min_kw"
  | .noProfile load => load.path ++ ".profile"
  | .noPath load => load.path ++ ".csv_path"
  | .unknownSource load _ => load.path ++ ".source"
  | .noBuildings => "demand.buildings"
  | .unnamedBuilding index => buildingPath index ++ ".name"
  | .emptyBuilding index => buildingPath index

def Problem.reason : Problem → String
  | .noSteps => "must be > 0"
  | .unknownWord setting word => (setting.fault word).message
  | .start text reason => "\"" ++ text ++ "\": " ++ reason.message
  | .negative _ => "must be >= 0"
  | .notShare _ => "must be in [0.0, 1.0]"
  | .gateWithoutBattery => "must be > 0 when simulation.enable_gating is set"
  | .bounds load => "must be <= " ++ load.path ++ ".max_kw"
  | .noProfile _ => "must not be empty for source \"profile\""
  | .noPath _ => "is required for source \"csv\""
  | .unknownSource load word => "must be " ++ load.sources ++ ", got \"" ++ word ++ "\""
  | .noBuildings => "must list at least one building for source \"neighborhood\""
  | .unnamedBuilding _ => "must not be empty"
  | .emptyBuilding _ => "needs a profile or a csv_path"

/-- A problem as it is reported when a run is refused. -/
def Problem.fault (p : Problem) : Fault := ⟨.configuration, p.field, p.reason⟩

def Timing.startTime (t : Timing) : Except Problem (Option Calendar.Timestamp) :=
  match t.start with
  | none => .ok none
  | some text => match Calendar.Timestamp.read text with
    | .ok time => .ok (some time)
    | .error reason => .error (.start text reason)

def Demand.isNeighborhood (d : Demand) : Bool := d.source.kind == "neighborhood"

def problemOf {β : Type} : Except Problem β → List Problem
  | .ok _ => []
  | .error p => [p]

def problemIf (condition : Bool) (p : Problem) : List Problem := if condition then [p] else []

def checkWord {β : Type} (setting : Setting) (ofWord? : String → Option β) (word : String) :
    List Problem :=
  problemIf (ofWord? word).isNone (.unknownWord setting word)

def checkAmount (amount : Amount) (x : Float32) : List Problem :=
  problemIf (Quantity.isNegative x) (.negative amount)

def checkShare (store : Store) (x : Float32) : List Problem :=
  problemIf (!Quantity.isShare x) (.notShare store)

def Building.problems (b : Building) (index : Nat) : List Problem :=
  problemIf b.name.isEmpty (.unnamedBuilding index)
    ++ problemIf (b.path.isNone && b.profile.isEmpty) (.emptyBuilding index)

/-- The problems of buildings, the first of which has the given index. -/
def buildingProblems : Nat → List Building → List Problem
  | _, [] => []
  | index, b :: rest => b.problems index ++ buildingProblems (index + 1) rest

/-- The problems of the source of a demand. Only electrical demand can have buildings for a source,
and these are checked on their own. -/
def Source.problems (load : Load) (s : Source) : List Problem :=
  match s.kind with
  | "random" => problemIf (s.high < s.low) (.bounds load)
  | "profile" => problemIf s.profile.isEmpty (.noProfile load)
  | "csv" => problemIf s.path.isNone (.noPath load)
  | word => problemIf (!(word == "neighborhood" && load == .electrical)) (.unknownSource load word)

def Demand.problems (d : Demand) : List Problem :=
  d.source.problems .electrical
    ++ if d.isNeighborhood then
      problemIf d.buildings.isEmpty .noBuildings ++ buildingProblems 0 d.buildings
    else []

/-- The problems of the thermal store, which only matter if there is one. -/
def Thermal.problems (t : Thermal) : List Problem :=
  if t.enabled then
    checkAmount .thermalCapacity t.capacity ++ checkShare .thermal t.efficiency
      ++ t.source.problems .thermal
  else []

def Timing.problems (t : Timing) : List Problem :=
  problemIf (t.steps == 0) .noSteps
    ++ checkWord .stepDuration StepDuration.ofWord? t.stepDuration
    ++ checkWord .dispatchMode DispatchMode.ofWord? t.dispatchMode
    ++ problemOf t.startTime

def Generation.problems (g : Generation) : List Problem :=
  checkWord .windModel WindModel.ofWord? g.windModel ++ checkAmount .solarCapacity g.solarCapacity
    ++ checkAmount .windCapacity g.windCapacity ++ checkAmount .chpCapacity g.chpCapacity
    ++ checkAmount .rampRate g.rampRate

/-- The problems of the battery, which a gated run cannot do without. -/
def Battery.problems (b : Battery) (gating : Bool) : List Problem :=
  checkAmount .batteryCapacity b.capacity ++ checkShare .battery b.efficiency
    ++ problemIf (gating && decide (b.capacity ≤ 0)) .gateWithoutBattery

end Scenario

/-- Everything wrong with a scenario, in the order of its sections. -/
def Scenario.problems (s : Scenario) : List Scenario.Problem :=
  s.timing.problems ++ s.generation.problems ++ s.battery.problems s.timing.gating
    ++ s.thermal.problems ++ s.demand.problems

end LocalGrid
