import LocalGrid.Demand.Neighborhood
import LocalGrid.Demand.Profile
import LocalGrid.Files
import LocalGrid.Scenario.Problem
import LocalGrid.Simulation.Config

/-!
# Resolution

From a scenario to the input of a simulation. A scenario with problems is refused by its first one.
After that every word is read once more and every source is looked up by its kind, with refusals of
their own for what they do not know. Random series have seeds of their own, so that they do not
repeat the draws of the wind.
-/

namespace LocalGrid.Scenario

inductive FileField where
  | source (load : Load)
  | building (index : Nat)
  deriving DecidableEq, Repr

def FileField.path : FileField → String
  | .source load => load.path ++ ".csv_path"
  | .building index => buildingPath index ++ ".csv_path"

/-- Why a scenario has no simulation input. -/
inductive Refusal where
  | problem (p : Problem)
  | unknownWord (setting : Setting) (word : String)
  | noPath (load : Load)
  | unknownSource (load : Load) (word : String)
  /-- A column cannot be read from a file. -/
  | file (field : FileField) (path : String) (reason : SeriesError)
  /-- The buildings have no sum. -/
  | sum (reason : Demand.SumError)
  /-- A series has more values than memory can address. -/
  | length
  deriving DecidableEq, Repr

/-- How a refusal is reported; a series beyond memory has no report. -/
def Refusal.fault? : Refusal → Option Fault
  | .problem p => some p.fault
  | .unknownWord setting word => some (setting.fault word)
  | .noPath load => some ⟨.configuration, load.path ++ ".csv_path", "is required"⟩
  | .unknownSource load word =>
    some ⟨.configuration, load.path ++ ".source", "unsupported source \"" ++ word ++ "\""⟩
  | .file field path reason =>
    some ⟨.configuration, field.path, "\"" ++ path ++ "\": " ++ reason.message⟩
  | .sum reason => some reason.fault
  | .length => none

/-- What the seed of a random demand is ahead of the seed of the run. -/
def Load.seedOffset : Load → UInt64
  | .electrical => 101
  | .thermal => 202

def orTooLong : Option (List Float32) → Except Refusal (List Float32)
  | some xs => .ok xs
  | none => .error .length

/-- The series in a column of a table. It has the length that it has. -/
def tableSeries (files : Files) (field : FileField) (path column : String) :
    Except Refusal (List Float32) :=
  (files.column path column).mapError (.file field path)

/-- The series of a source. Buildings are no source of one series. -/
def Source.series (files : Files) (load : Load) (steps : Nat) (seed : UInt64) (s : Source) :
    Except Refusal (List Float32) :=
  match s.kind with
  | "random" => orTooLong (Demand.uniformProfile? steps s.low s.high (seed + load.seedOffset))
  | "profile" => orTooLong (Demand.repeatTo? s.profile steps)
  | "csv" => match s.path with
    | some path => tableSeries files (.source load) path s.column
    | none => .error (.noPath load)
  | word => .error (.unknownSource load word)

/-- The series of a building. A file goes before a profile. -/
def Building.series (files : Files) (index steps : Nat) (b : Building) :
    Except Refusal (List Float32) :=
  match b.path with
  | some path => tableSeries files (.building index) path b.column
  | none => orTooLong (Demand.repeatTo? b.profile steps)

/-- Adds the series of buildings to a neighbourhood; the first building has the given index. -/
def gather (files : Files) (steps : Nat) : Nat → List Building → Demand.Neighborhood Float32 →
    Except Refusal (Demand.Neighborhood Float32)
  | _, [], n => .ok n
  | index, b :: rest, n => do
    let xs ← b.series files index steps
    gather files steps (index + 1) rest (n.add b.name xs)

def Demand.series (files : Files) (steps : Nat) (seed : UInt64) (d : Demand) :
    Except Refusal (List Float32) := do
  if d.isNeighborhood then
    let n ← gather files steps 0 d.buildings .empty
    n.total.mapError .sum
  else d.source.series files .electrical steps seed

def Thermal.series (files : Files) (steps : Nat) (seed : UInt64) (t : Thermal) :
    Except Refusal (Option (List Float32)) := do
  if t.enabled then
    let xs ← t.source.series files .thermal steps seed
    pure (some xs)
  else pure none

def choose {β : Type} (setting : Setting) (ofWord? : String → Option β) (word : String) :
    Except Refusal β :=
  match ofWord? word with
  | some choice => .ok choice
  | none => .error (.unknownWord setting word)

/-- The simulation input of a scenario without problems. Without a start, a run starts at the
midnight of today. -/
def assemble (files : Files) (today : Calendar.Day) (s : Scenario) :
    Except Refusal (Simulation.Config Float32) := do
  let demand ← s.demand.series files s.timing.steps s.timing.seed
  let thermalDemand ← s.thermal.series files s.timing.steps s.timing.seed
  let duration ← choose .stepDuration StepDuration.ofWord? s.timing.stepDuration
  let start ← s.timing.startTime.mapError .problem
  let mode ← choose .dispatchMode DispatchMode.ofWord? s.timing.dispatchMode
  let model ← choose .windModel WindModel.ofWord? s.generation.windModel
  pure {
    stepCount := s.timing.steps
    stepDuration := duration
    start := start.getD (.midnight today)
    solarCapacity := s.generation.solarCapacity
    windCapacity := s.generation.windCapacity
    chpCapacity := s.generation.chpCapacity
    batteryCapacity := s.battery.capacity
    batteryEfficiency := s.battery.efficiency
    thermalCapacity := s.thermal.capacity
    thermalEfficiency := s.thermal.efficiency
    useSolar := s.generation.useSolar
    useWind := s.generation.useWind
    useChp := s.generation.useChp
    rampRate := s.generation.rampRate
    ramp := ⟨s.generation.rampSolar, s.generation.rampWind, s.generation.rampChp⟩
    dispatchMode := mode
    gating := s.timing.gating
    windModel := model
    seed := s.timing.seed
    demand := demand
    thermalDemand := thermalDemand }

def resolve (files : Files) (today : Calendar.Day) (s : Scenario) :
    Except Refusal (Simulation.Config Float32) :=
  match s.problems with
  | p :: _ => .error (.problem p)
  | [] => s.assemble files today

theorem resolve_of_problems {files : Files} {today : Calendar.Day} {s : Scenario} {p : Problem}
    {ps : List Problem} (h : s.problems = p :: ps) :
    s.resolve files today = .error (.problem p) := by
  simp [resolve, h]

end LocalGrid.Scenario
