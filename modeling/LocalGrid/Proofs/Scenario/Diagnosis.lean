import LocalGrid.Proofs.Calendar.Grammar
import LocalGrid.Proofs.Quantity.Readings
import LocalGrid.Proofs.Simulation.Accepted
import LocalGrid.Scenario.Problem

/-!
# What is reported of a scenario

The constraints on a scenario stand in an order, that of the sections. Unlike a configuration, of
which only the first broken constraint is reported, a scenario is reported with every constraint
that it breaks: each of them once, at its place in the order, and nothing else.
-/

namespace LocalGrid.Scenario

open Quantity Simulation

/-! ## Constraints -/

inductive Constraint where
  | steps
  | word (setting : Setting)
  | start
  | amount (amount : Amount)
  | share (store : Store)
  | gate
  | bounds (load : Load)
  | profile (load : Load)
  | table (load : Load)
  | kind (load : Load)
  | buildings
  | buildingName (index : ℕ)
  | buildingSeries (index : ℕ)
  deriving DecidableEq

namespace Constraint

def path : Constraint → String
  | .steps => "simulation.steps"
  | .word .stepDuration => "simulation.step_duration"
  | .word .dispatchMode => "simulation.dispatch_mode"
  | .word .windModel => "generation.wind_model"
  | .start => "simulation.start"
  | .amount .solarCapacity => "generation.solar_capacity_kw"
  | .amount .windCapacity => "generation.wind_capacity_kw"
  | .amount .chpCapacity => "generation.chp_capacity_kw"
  | .amount .rampRate => "generation.ramp_rate"
  | .amount .batteryCapacity => "battery.capacity_kwh"
  | .amount .thermalCapacity => "thermal.capacity_kwh"
  | .share .battery => "battery.efficiency"
  | .share .thermal => "thermal.efficiency"
  | .gate => "battery.capacity_kwh"
  | .bounds .electrical => "demand.min_kw"
  | .bounds .thermal => "thermal.min_kw"
  | .profile .electrical => "demand.profile"
  | .profile .thermal => "thermal.profile"
  | .table .electrical => "demand.csv_path"
  | .table .thermal => "thermal.csv_path"
  | .kind .electrical => "demand.source"
  | .kind .thermal => "thermal.source"
  | .buildings => "demand.buildings"
  | .buildingName index => "demand.buildings[" ++ toString index ++ "]" ++ ".name"
  | .buildingSeries index => "demand.buildings[" ++ toString index ++ "]"

def ofTiming : List Constraint := [.steps, .word .stepDuration, .word .dispatchMode, .start]

def ofGeneration : List Constraint :=
  [.word .windModel, .amount .solarCapacity, .amount .windCapacity, .amount .chpCapacity,
    .amount .rampRate]

def ofBattery : List Constraint := [.amount .batteryCapacity, .share .battery, .gate]

def ofSource (load : Load) : List Constraint :=
  [.bounds load, .profile load, .table load, .kind load]

def ofThermal : List Constraint := [.amount .thermalCapacity, .share .thermal] ++ ofSource .thermal

def ofBuilding (index : ℕ) : List Constraint := [.buildingName index, .buildingSeries index]

def ofDemand (n : ℕ) : List Constraint :=
  ofSource .electrical ++ .buildings :: (List.range n).flatMap ofBuilding

/-- All constraints on a scenario with so many buildings, in the order of its sections. -/
def order (n : ℕ) : List Constraint :=
  ofTiming ++ ofGeneration ++ ofBattery ++ ofThermal ++ ofDemand n

end Constraint

def choices : Setting → List String
  | .stepDuration => ["hourly", "15-min", "15min"]
  | .dispatchMode => ["default", "peak_shaving"]
  | .windModel => ["normal", "uniform"]

/-- The words for the sources of a demand. Only electrical demand has neighbourhoods. -/
def kinds : Load → List String
  | .electrical => ["random", "profile", "csv", "neighborhood"]
  | .thermal => ["random", "profile", "csv"]

def word (s : Scenario) : Setting → String
  | .stepDuration => s.timing.stepDuration
  | .dispatchMode => s.timing.dispatchMode
  | .windModel => s.generation.windModel

def amount (s : Scenario) : Amount → Float32
  | .solarCapacity => s.generation.solarCapacity
  | .windCapacity => s.generation.windCapacity
  | .chpCapacity => s.generation.chpCapacity
  | .rampRate => s.generation.rampRate
  | .batteryCapacity => s.battery.capacity
  | .thermalCapacity => s.thermal.capacity

def efficiency (s : Scenario) : Store → Float32
  | .battery => s.battery.efficiency
  | .thermal => s.thermal.efficiency

def source (s : Scenario) : Load → Source
  | .electrical => s.demand.source
  | .thermal => s.thermal.source

def Active (s : Scenario) (load : Load) : Prop := load = .thermal → s.thermal.enabled = true

instance (s : Scenario) (load : Load) : Decidable (s.Active load) :=
  inferInstanceAs (Decidable (load = .thermal → s.thermal.enabled = true))

/-- What it takes to break each constraint. -/
def Breaks (s : Scenario) : Constraint → Prop
  | .steps => s.timing.steps = 0
  | .word setting => s.word setting ∉ choices setting
  | .start => ∃ text ∈ s.timing.start, ∀ time, ¬ Calendar.Timestamp.IsText text.toList time
  | .amount field => (field = .thermalCapacity → s.thermal.enabled = true) ∧ ¬ 0 ≤ s.amount field
  | .share store =>
    (store = .thermal → s.thermal.enabled = true) ∧
      ¬ (0 ≤ s.efficiency store ∧ s.efficiency store ≤ 1)
  | .gate => s.timing.gating = true ∧ s.battery.capacity ≤ 0
  | .bounds load =>
    s.Active load ∧ (s.source load).kind = "random" ∧ (s.source load).high < (s.source load).low
  | .profile load =>
    s.Active load ∧ (s.source load).kind = "profile" ∧ (s.source load).profile = []
  | .table load => s.Active load ∧ (s.source load).kind = "csv" ∧ (s.source load).path = none
  | .kind load => s.Active load ∧ (s.source load).kind ∉ kinds load
  | .buildings => s.demand.source.kind = "neighborhood" ∧ s.demand.buildings = []
  | .buildingName index =>
    s.demand.source.kind = "neighborhood" ∧ ∃ b ∈ s.demand.buildings[index]?, b.name = ""
  | .buildingSeries index =>
    s.demand.source.kind = "neighborhood" ∧
      ∃ b ∈ s.demand.buildings[index]?, b.path = none ∧ b.profile = []

/-- Whether a text is one of any timestamp is decided by reading it. -/
instance (text : String) : Decidable (∀ time, ¬ Calendar.Timestamp.IsText text.toList time) :=
  match hread : Calendar.Timestamp.read text with
  | .ok time => .isFalse fun hall => hall time (Calendar.Timestamp.isText_of_read hread)
  | .error _ => .isTrue fun _ htext =>
    nomatch (Calendar.Timestamp.read_eq_ok_iff.2 htext).symm.trans hread

instance (s : Scenario) : DecidablePred s.Breaks
  | .steps => inferInstanceAs (Decidable (_ = _))
  | .word _ => inferInstanceAs (Decidable (_ ∉ _))
  | .start => inferInstanceAs (Decidable (∃ text ∈ s.timing.start, _))
  | .amount _ => inferInstanceAs (Decidable (_ ∧ _))
  | .share _ => inferInstanceAs (Decidable (_ ∧ _))
  | .gate => inferInstanceAs (Decidable (_ ∧ _))
  | .bounds _ => inferInstanceAs (Decidable (_ ∧ _ ∧ _))
  | .profile _ => inferInstanceAs (Decidable (_ ∧ _ ∧ _))
  | .table _ => inferInstanceAs (Decidable (_ ∧ _ ∧ _))
  | .kind _ => inferInstanceAs (Decidable (_ ∧ _))
  | .buildings => inferInstanceAs (Decidable (_ ∧ _))
  | .buildingName _ => inferInstanceAs (Decidable (_ ∧ _))
  | .buildingSeries _ => inferInstanceAs (Decidable (_ ∧ _))

/-- The constraint whose breaking is a problem. -/
def Problem.constraint : Problem → Constraint
  | .noSteps => .steps
  | .unknownWord setting _ => .word setting
  | .start _ _ => .start
  | .negative amount => .amount amount
  | .notShare store => .share store
  | .gateWithoutBattery => .gate
  | .bounds load => .bounds load
  | .noProfile load => .profile load
  | .noPath load => .table load
  | .unknownSource load _ => .kind load
  | .noBuildings => .buildings
  | .unnamedBuilding index => .buildingName index
  | .emptyBuilding index => .buildingSeries index

/-- A problem points to the field of its constraint. -/
theorem Problem.field_eq_path (p : Problem) : p.field = p.constraint.path := by
  cases p with
  | noSteps => rfl
  | unknownWord setting => cases setting <;> rfl
  | start => rfl
  | negative amount => cases amount <;> rfl
  | notShare store => cases store <;> rfl
  | gateWithoutBattery => rfl
  | bounds load => cases load <;> rfl
  | noProfile load => cases load <;> rfl
  | noPath load => cases load <;> rfl
  | unknownSource load => cases load <;> rfl
  | noBuildings => rfl
  | unnamedBuilding index => rfl
  | emptyBuilding index => rfl

/-! ## Diagnoses -/

/-- The problems of the constraints that are broken, in the order of the constraints. -/
def Diagnoses (s : Scenario) (problems : List Problem) (constraints : List Constraint) : Prop :=
  problems.map Problem.constraint = constraints.filter fun k => decide (s.Breaks k)

variable {s : Scenario} {problems problems' : List Problem}
  {constraints constraints' : List Constraint}

theorem diagnoses_nil_iff : s.Diagnoses [] constraints ↔ ∀ k ∈ constraints, ¬ s.Breaks k := by
  rw [Diagnoses, List.map_nil, eq_comm, List.filter_eq_nil_iff]
  simp only [decide_eq_true_eq]

theorem Diagnoses.append (h : s.Diagnoses problems constraints)
    (h' : s.Diagnoses problems' constraints') :
    s.Diagnoses (problems ++ problems') (constraints ++ constraints') := by
  rw [Diagnoses, List.map_append, List.filter_append, h, h']

theorem diagnoses_singleton {p : Problem} (hp : s.Breaks p.constraint) :
    s.Diagnoses [p] [p.constraint] := by
  simp [Diagnoses, hp]

theorem diagnoses_problemIf {condition : Bool} {p : Problem}
    (h : condition = true ↔ s.Breaks p.constraint) :
    s.Diagnoses (problemIf condition p) [p.constraint] := by
  cases condition with
  | false => exact diagnoses_nil_iff.2 (by simpa using h)
  | true => exact diagnoses_singleton (h.1 rfl)

/-- One check, and none of the constraints around its own one is broken. -/
theorem diagnoses_problemIf_between {condition : Bool} {p : Problem}
    (before after : List Constraint) (h : condition = true ↔ s.Breaks p.constraint)
    (hothers : ∀ k ∈ before ++ after, ¬ s.Breaks k) :
    s.Diagnoses (problemIf condition p) (before ++ p.constraint :: after) := by
  obtain ⟨hbefore, hafter⟩ := List.forall_mem_append.1 hothers
  have hall := (diagnoses_nil_iff.2 hbefore).append
    ((diagnoses_problemIf h).append (diagnoses_nil_iff.2 hafter))
  rwa [List.nil_append, List.append_nil] at hall

/-! ## Words and numbers -/

theorem diagnoses_checkWord (s : Scenario) {β : Type} {ofWord? : String → Option β}
    {setting : Setting} (h : ∀ word, ofWord? word = none ↔ word ∉ choices setting) :
    s.Diagnoses (checkWord setting ofWord? (s.word setting)) [.word setting] := by
  refine diagnoses_problemIf (p := .unknownWord setting (s.word setting)) ?_
  rw [Option.isNone_iff_eq_none, h]
  rfl

theorem duration_ofWord?_eq_none_iff (word : String) :
    StepDuration.ofWord? word = none ↔ word ∉ choices .stepDuration := by
  unfold StepDuration.ofWord?
  split <;> simp_all [choices]

theorem mode_ofWord?_eq_none_iff (word : String) :
    DispatchMode.ofWord? word = none ↔ word ∉ choices .dispatchMode := by
  unfold DispatchMode.ofWord?
  split <;> simp_all [choices]

theorem model_ofWord?_eq_none_iff (word : String) :
    WindModel.ofWord? word = none ↔ word ∉ choices .windModel := by
  unfold WindModel.ofWord?
  split <;> simp_all [choices]

theorem diagnoses_startTime (s : Scenario) :
    s.Diagnoses (problemOf s.timing.startTime) [.start] := by
  unfold Timing.startTime
  split
  · next hnone =>
    refine diagnoses_nil_iff.2 ?_
    simp [Breaks, hnone]
  · next text htext =>
    split
    · next time hread =>
      refine diagnoses_nil_iff.2 ?_
      have hwritten := Calendar.Timestamp.isText_of_read hread
      simpa [Breaks, htext] using ⟨time, hwritten⟩
    · next reason hread =>
      refine diagnoses_singleton (p := .start text reason) ⟨text, htext, fun time hwritten => ?_⟩
      rw [Calendar.Timestamp.read_eq_ok_iff.2 hwritten] at hread
      cases hread

theorem diagnoses_checkAmount (s : Scenario) (field : Amount)
    (h : field = .thermalCapacity → s.thermal.enabled = true) :
    s.Diagnoses (checkAmount field (s.amount field)) [.amount field] := by
  refine diagnoses_problemIf (p := .negative field) ?_
  rw [Problem.constraint, Breaks, ← isNegative_eq_false_iff, Bool.not_eq_false]
  exact (and_iff_right h).symm

theorem diagnoses_checkShare (s : Scenario) (store : Store)
    (h : store = .thermal → s.thermal.enabled = true) :
    s.Diagnoses (checkShare store (s.efficiency store)) [.share store] := by
  refine diagnoses_problemIf (p := .notShare store) ?_
  rw [Problem.constraint, Breaks, ← isShare_iff, Bool.not_eq_true', Bool.not_eq_true]
  exact (and_iff_right h).symm

/-! ## Sections -/

theorem diagnoses_timing : s.Diagnoses s.timing.problems Constraint.ofTiming := by
  have hsteps : s.Diagnoses (problemIf (s.timing.steps == 0) .noSteps) [.steps] :=
    diagnoses_problemIf beq_iff_eq
  have hduration := diagnoses_checkWord s duration_ofWord?_eq_none_iff
  have hmode := diagnoses_checkWord s mode_ofWord?_eq_none_iff
  exact ((hsteps.append hduration).append hmode).append (diagnoses_startTime s)

theorem diagnoses_generation : s.Diagnoses s.generation.problems Constraint.ofGeneration := by
  have hmodel := diagnoses_checkWord s model_ofWord?_eq_none_iff
  have hsolar := diagnoses_checkAmount s .solarCapacity (by simp)
  have hwind := diagnoses_checkAmount s .windCapacity (by simp)
  have hchp := diagnoses_checkAmount s .chpCapacity (by simp)
  have hrate := diagnoses_checkAmount s .rampRate (by simp)
  exact (((hmodel.append hsolar).append hwind).append hchp).append hrate

theorem diagnoses_battery :
    s.Diagnoses (s.battery.problems s.timing.gating) Constraint.ofBattery := by
  have hcapacity := diagnoses_checkAmount s .batteryCapacity (by simp)
  have hefficiency := diagnoses_checkShare s .battery (by simp)
  have hgate : s.Diagnoses (problemIf (s.timing.gating && decide (s.battery.capacity ≤ 0))
      .gateWithoutBattery) [.gate] := by
    refine diagnoses_problemIf ?_
    rw [Bool.and_eq_true, decide_eq_true_eq]
    rfl
  exact (hcapacity.append hefficiency).append hgate

theorem mem_kinds {load : Load} {word : String} : word ∈ kinds load ↔
    word = "random" ∨ word = "profile" ∨ word = "csv" ∨
      load = .electrical ∧ word = "neighborhood" := by
  cases load <;> simp [kinds]

theorem diagnoses_source (s : Scenario) (load : Load) (hactive : s.Active load) :
    s.Diagnoses ((s.source load).problems load) (Constraint.ofSource load) := by
  unfold Source.problems
  -- the kind decides which of the four constraints can be broken at all
  split
  · next hrandom =>
    refine diagnoses_problemIf_between [] [.profile load, .table load, .kind load] ?_ ?_
    · simp [Problem.constraint, Breaks, hactive, hrandom]
    · simp [Breaks, mem_kinds, hrandom]
  · next hprofile =>
    refine diagnoses_problemIf_between [.bounds load] [.table load, .kind load] ?_ ?_
    · simp [Problem.constraint, Breaks, hactive, hprofile]
    · simp [Breaks, mem_kinds, hprofile]
  · next hcsv =>
    refine diagnoses_problemIf_between [.bounds load, .profile load] [.kind load] ?_ ?_
    · simp [Problem.constraint, Breaks, hactive, hcsv]
    · simp [Breaks, mem_kinds, hcsv]
  · next hrandom hprofile hcsv =>
    refine diagnoses_problemIf_between [.bounds load, .profile load, .table load] [] ?_ ?_
    · rw [Problem.constraint, Breaks, and_iff_right hactive, mem_kinds, Bool.not_eq_true',
        Bool.and_eq_false_iff, beq_eq_false_iff_ne, beq_eq_false_iff_ne]
      tauto
    · simpa [Breaks] using ⟨fun _ h => (hrandom h).elim, fun _ h => (hprofile h).elim,
        fun _ h => (hcsv h).elim⟩

theorem diagnoses_thermal : s.Diagnoses s.thermal.problems Constraint.ofThermal := by
  unfold Thermal.problems
  split_ifs with henabled
  · have hcapacity := diagnoses_checkAmount s .thermalCapacity fun _ => henabled
    have hefficiency := diagnoses_checkShare s .thermal fun _ => henabled
    have hsource := diagnoses_source s .thermal fun _ => henabled
    exact (hcapacity.append hefficiency).append hsource
  · refine diagnoses_nil_iff.2 ?_
    simp [Constraint.ofThermal, Constraint.ofSource, Breaks, Active, henabled]

theorem diagnoses_building (hkind : s.demand.source.kind = "neighborhood") {index : ℕ}
    {b : Building} (hb : s.demand.buildings[index]? = some b) :
    s.Diagnoses (b.problems index) (Constraint.ofBuilding index) := by
  have hname : s.Diagnoses (problemIf b.name.isEmpty (.unnamedBuilding index))
      [.buildingName index] := by
    refine diagnoses_problemIf ?_
    simp [Problem.constraint, Breaks, hkind, hb]
  have hseries : s.Diagnoses (problemIf (b.path.isNone && b.profile.isEmpty)
      (.emptyBuilding index)) [.buildingSeries index] := by
    refine diagnoses_problemIf ?_
    simp [Problem.constraint, Breaks, hkind, hb]
  exact hname.append hseries

/-- The buildings are numbered from the first one on. -/
theorem diagnoses_buildingProblems (hkind : s.demand.source.kind = "neighborhood")
    {buildings : List Building} {index : ℕ} (h : s.demand.buildings.drop index = buildings) :
    s.Diagnoses (buildingProblems index buildings)
      ((List.range' index buildings.length).flatMap Constraint.ofBuilding) := by
  induction buildings generalizing index with
  | nil => exact diagnoses_nil_iff.2 (by simp)
  | cons b rest ih =>
      rw [buildingProblems, List.length_cons, List.range'_succ, List.flatMap_cons]
      have hb : s.demand.buildings[index]? = some b := by
        rw [← List.head?_drop, h, List.head?_cons]
      have hrest : s.demand.buildings.drop (index + 1) = rest := by
        rw [← List.tail_drop, h, List.tail_cons]
      exact (diagnoses_building hkind hb).append (ih hrest)

theorem diagnoses_buildings (hkind : s.demand.source.kind = "neighborhood") :
    s.Diagnoses (problemIf s.demand.buildings.isEmpty .noBuildings
        ++ buildingProblems 0 s.demand.buildings)
      (.buildings :: (List.range s.demand.buildings.length).flatMap Constraint.ofBuilding) := by
  have hsome : s.Diagnoses (problemIf s.demand.buildings.isEmpty .noBuildings) [.buildings] := by
    refine diagnoses_problemIf ?_
    simp [Problem.constraint, Breaks, hkind]
  have hall := diagnoses_buildingProblems hkind (List.drop_zero (l := s.demand.buildings))
  rw [← List.range_eq_range'] at hall
  exact hsome.append hall

theorem diagnoses_demand :
    s.Diagnoses s.demand.problems (Constraint.ofDemand s.demand.buildings.length) := by
  unfold Demand.problems
  refine (diagnoses_source s .electrical (by simp [Active])).append ?_
  split_ifs with h
  · exact diagnoses_buildings (by simpa [Demand.isNeighborhood] using h)
  · have hkind : s.demand.source.kind ≠ "neighborhood" := by simpa [Demand.isNeighborhood] using h
    refine diagnoses_nil_iff.2 (List.forall_mem_cons.2 ⟨fun h => hkind h.1, fun k hk => ?_⟩)
    obtain ⟨index, -, hk⟩ := List.mem_flatMap.1 hk
    obtain rfl | rfl := List.mem_pair.1 hk <;> exact fun h => hkind h.1

theorem diagnoses_problems :
    s.Diagnoses s.problems (Constraint.order s.demand.buildings.length) :=
  (((diagnoses_timing.append diagnoses_generation).append diagnoses_battery).append
    diagnoses_thermal).append diagnoses_demand

/-! ## The order -/

namespace Constraint

variable {k : Constraint} {n i j : ℕ}

theorem order_eq (n : ℕ) : order n = order 0 ++ (List.range n).flatMap ofBuilding := by
  simp [order, ofDemand]

theorem eq_of_mem_ofBuilding (hi : k ∈ ofBuilding i) (hj : k ∈ ofBuilding j) : i = j := by
  obtain rfl | rfl := List.mem_pair.1 hi <;> simpa [ofBuilding] using hj

theorem mem_order_zero_iff : k ∈ order 0 ↔ ∀ i, k ∉ ofBuilding i := by
  cases k with
  | word setting => cases setting <;> simp [order, ofTiming, ofGeneration, ofBuilding]
  | amount field =>
      cases field <;> simp [order, ofGeneration, ofBattery, ofThermal, ofBuilding]
  | share store => cases store <;> simp [order, ofBattery, ofThermal, ofBuilding]
  | bounds load => cases load <;> simp [order, ofThermal, ofDemand, ofSource, ofBuilding]
  | profile load => cases load <;> simp [order, ofThermal, ofDemand, ofSource, ofBuilding]
  | table load => cases load <;> simp [order, ofThermal, ofDemand, ofSource, ofBuilding]
  | kind load => cases load <;> simp [order, ofThermal, ofDemand, ofSource, ofBuilding]
  | _ => simp [order, ofTiming, ofGeneration, ofBattery, ofThermal, ofDemand, ofSource, ofBuilding]

/-- Only buildings are numbered; there is one of every other constraint. -/
theorem mem_order_iff : k ∈ order n ↔ ∀ i, k ∈ ofBuilding i → i < n := by
  rw [order_eq, List.mem_append, mem_order_zero_iff, List.mem_flatMap]
  constructor
  · rintro (hnot | ⟨j, hj, hk⟩) i hi
    · exact absurd hi (hnot i)
    · rw [eq_of_mem_ofBuilding hi hk]
      exact List.mem_range.1 hj
  · intro hlt
    by_cases hbuilding : ∃ i, k ∈ ofBuilding i
    · obtain ⟨i, hi⟩ := hbuilding
      exact .inr ⟨i, List.mem_range.2 (hlt i hi), hi⟩
    · exact .inl (not_exists.1 hbuilding)

theorem nodup_order (n : ℕ) : (order n).Nodup := by
  rw [order_eq, List.nodup_append', List.nodup_flatMap]
  refine ⟨by decide, ⟨fun i _ => by simp [ofBuilding], ?_⟩, fun k hk hk' => ?_⟩
  · exact List.nodup_range.imp fun hne k hi hj => hne (eq_of_mem_ofBuilding hi hj)
  · obtain ⟨i, -, hi⟩ := List.mem_flatMap.1 hk'
    exact mem_order_zero_iff.1 hk i hi

end Constraint

theorem mem_order_of_breaks {k : Constraint} (h : s.Breaks k) :
    k ∈ Constraint.order s.demand.buildings.length := by
  refine Constraint.mem_order_iff.2 fun index hk => ?_
  obtain rfl | rfl := List.mem_pair.1 hk
  · obtain ⟨-, b, hb, -⟩ := h
    exact (List.getElem?_eq_some_iff.1 hb).1
  · obtain ⟨-, b, hb, -⟩ := h
    exact (List.getElem?_eq_some_iff.1 hb).1

/-- The problems of a scenario are those of the constraints that it breaks, in the order of its
sections: each broken constraint is reported once and with its own path, whatever else is broken,
and no other one is. -/
theorem problems_exact (s : Scenario) :
    s.problems.map Problem.constraint =
        (Constraint.order s.demand.buildings.length).filter (fun k => decide (s.Breaks k)) ∧
      (s.problems.map Problem.constraint).Nodup ∧
      (∀ k, k ∈ s.problems.map Problem.constraint ↔ s.Breaks k) ∧
      (∀ p ∈ s.problems, p.field = p.constraint.path) ∧
      (s.problems = [] ↔ ∀ k, ¬ s.Breaks k) := by
  have hproblems : s.problems.map Problem.constraint =
      (Constraint.order s.demand.buildings.length).filter fun k => decide (s.Breaks k) :=
    diagnoses_problems
  have hmem : ∀ k, k ∈ s.problems.map Problem.constraint ↔ s.Breaks k := by
    intro k
    rw [hproblems, List.mem_filter, decide_eq_true_eq]
    exact and_iff_right_of_imp mem_order_of_breaks
  refine ⟨hproblems, ?_, hmem, fun p _ => p.field_eq_path, ?_⟩
  · rw [hproblems]
    exact (Constraint.nodup_order _).filter _
  · rw [← List.map_eq_nil_iff, List.eq_nil_iff_forall_not_mem]
    exact forall_congr' fun k => not_congr (hmem k)

/-- A negative capacity behind a gate breaks two constraints on one field. -/
example : ({ battery := { capacity := -1 } } : Scenario).problems =
    [.negative .batteryCapacity, .gateWithoutBattery] := by decide +kernel

end LocalGrid.Scenario
