import LocalGrid.Proofs.Quantity.Rounded
import LocalGrid.Scenario.Problem

/-!
# Scenarios without problems

What a scenario satisfies if nothing is wrong with it. Every word of it is one of its setting and
every source has what its kind needs, so what is left open are the files that it names.
-/

namespace LocalGrid.Scenario

open Quantity

theorem problemIf_eq_nil_iff {condition : Bool} {p : Problem} :
    problemIf condition p = [] ↔ condition = false := by
  cases condition <;> simp [problemIf]

theorem problemOf_eq_nil_iff {β : Type} {x : Except Problem β} :
    problemOf x = [] ↔ ∃ b, x = .ok b := by
  cases x <;> simp [problemOf]

theorem checkWord_eq_nil_iff {β : Type} {setting : Setting} {ofWord? : String → Option β}
    {word : String} : checkWord setting ofWord? word = [] ↔ ∃ b, ofWord? word = some b := by
  rw [checkWord, problemIf_eq_nil_iff, Option.isNone_eq_false_iff, Option.isSome_iff_exists]

theorem checkAmount_eq_nil_iff {amount : Amount} {x : Float32} :
    checkAmount amount x = [] ↔ isNegative x = false :=
  problemIf_eq_nil_iff

theorem checkShare_eq_nil_iff {store : Store} {x : Float32} :
    checkShare store x = [] ↔ isShare x = true := by
  rw [checkShare, problemIf_eq_nil_iff, Bool.not_eq_false']

structure Building.Accepted (b : Building) : Prop where
  name_ne_empty : b.name ≠ ""
  profile_ne_nil : b.path = none → b.profile ≠ []

theorem Building.problems_eq_nil_iff {b : Building} {index : ℕ} :
    b.problems index = [] ↔ b.Accepted := by
  simp only [problems, List.append_eq_nil_iff, problemIf_eq_nil_iff]
  constructor
  · rintro ⟨hname, hprofile⟩
    refine ⟨by simpa using hname, fun hpath => ?_⟩
    simpa [hpath] using hprofile
  · rintro ⟨hname, hprofile⟩
    refine ⟨by simpa using hname, ?_⟩
    cases hpath : b.path with
    | none => simpa using hprofile hpath
    | some path => rfl

theorem buildingProblems_eq_nil_iff {buildings : List Building} {index : ℕ} :
    buildingProblems index buildings = [] ↔ ∀ b ∈ buildings, b.Accepted := by
  induction buildings generalizing index with
  | nil => simp [buildingProblems]
  | cons b rest ih => simp [buildingProblems, b.problems_eq_nil_iff, ih]

inductive Source.Accepted (load : Load) (s : Source) : Prop
  | random (hkind : s.kind = "random") (hle : s.low ≤ s.high) : Accepted load s
  | profile (hkind : s.kind = "profile") (hne : s.profile ≠ []) : Accepted load s
  | table (hkind : s.kind = "csv") {path : String} (hpath : s.path = some path) : Accepted load s
  | buildings (hkind : s.kind = "neighborhood") (hload : load = .electrical) : Accepted load s

namespace Source

variable {load : Load} {s : Source}

theorem Accepted.low_le_high (hs : s.Accepted load) (hkind : s.kind = "random") :
    s.low ≤ s.high := by
  rcases hs with ⟨-, hle⟩ | ⟨h, -⟩ | ⟨h, -⟩ | ⟨h, -⟩
  · exact hle
  all_goals simp [hkind] at h

theorem Accepted.profile_ne_nil (hs : s.Accepted load) (hkind : s.kind = "profile") :
    s.profile ≠ [] := by
  rcases hs with ⟨h, -⟩ | ⟨-, hne⟩ | ⟨h, -⟩ | ⟨h, -⟩
  case profile => exact hne
  all_goals simp [hkind] at h

theorem Accepted.exists_path (hs : s.Accepted load) (hkind : s.kind = "csv") :
    ∃ path, s.path = some path := by
  rcases hs with ⟨h, -⟩ | ⟨h, -⟩ | ⟨-, hpath⟩ | ⟨h, -⟩
  case table => exact ⟨_, hpath⟩
  all_goals simp [hkind] at h

theorem problems_eq_nil_iff : s.problems load = [] ↔ s.Accepted load := by
  unfold problems
  split <;> rw [problemIf_eq_nil_iff]
  · next hkind =>
    rw [decide_eq_false_iff_not, UInt32.not_lt]
    exact ⟨.random hkind, fun hs => hs.low_le_high hkind⟩
  · next hkind =>
    rw [List.isEmpty_eq_false_iff]
    exact ⟨.profile hkind, fun hs => hs.profile_ne_nil hkind⟩
  · next hkind =>
    rw [Option.isNone_eq_false_iff, Option.isSome_iff_exists]
    exact ⟨fun ⟨path, hpath⟩ => .table hkind hpath, fun hs => hs.exists_path hkind⟩
  · next hrandom hprofile hcsv =>
    rw [Bool.not_eq_false', Bool.and_eq_true, beq_iff_eq, beq_iff_eq]
    refine ⟨fun ⟨hkind, hload⟩ => .buildings hkind hload, ?_⟩
    rintro (⟨h, -⟩ | ⟨h, -⟩ | ⟨h, -⟩ | ⟨hkind, hload⟩)
    · exact absurd h hrandom
    · exact absurd h hprofile
    · exact absurd h hcsv
    · exact ⟨hkind, hload⟩

end Source

structure Demand.Accepted (d : Demand) : Prop where
  source : d.source.Accepted .electrical
  buildings_ne_nil : d.isNeighborhood = true → d.buildings ≠ []
  building : d.isNeighborhood = true → ∀ b ∈ d.buildings, b.Accepted

theorem Demand.problems_eq_nil_iff {d : Demand} : d.problems = [] ↔ d.Accepted := by
  rw [problems, List.append_eq_nil_iff, Source.problems_eq_nil_iff]
  split_ifs with h
  · rw [List.append_eq_nil_iff, problemIf_eq_nil_iff, buildingProblems_eq_nil_iff]
    constructor
    · rintro ⟨hsource, hne, hall⟩
      exact ⟨hsource, fun _ => by simpa using hne, fun _ => hall⟩
    · intro hd
      exact ⟨hd.source, by simpa using hd.buildings_ne_nil h, hd.building h⟩
  · exact ⟨fun hsource => ⟨hsource.1, fun h' => absurd h' h, fun h' => absurd h' h⟩,
      fun hd => ⟨hd.source, rfl⟩⟩

structure Thermal.Accepted (t : Thermal) : Prop where
  capacity : isNegative t.capacity = false
  efficiency : isShare t.efficiency = true
  source : t.source.Accepted .thermal

theorem Thermal.problems_eq_nil_iff {t : Thermal} :
    t.problems = [] ↔ (t.enabled = true → t.Accepted) := by
  unfold problems
  split_ifs with h
  · simp only [List.append_eq_nil_iff, checkAmount_eq_nil_iff, checkShare_eq_nil_iff,
      Source.problems_eq_nil_iff]
    constructor
    · rintro ⟨⟨hcapacity, hefficiency⟩, hsource⟩ _
      exact ⟨hcapacity, hefficiency, hsource⟩
    · intro ht
      exact ⟨⟨(ht h).capacity, (ht h).efficiency⟩, (ht h).source⟩
  · exact iff_of_true rfl fun h' => absurd h' h

end LocalGrid.Scenario

namespace LocalGrid

open Scenario Quantity

structure Scenario.Accepted (s : Scenario) : Prop where
  steps_ne_zero : s.timing.steps ≠ 0
  duration : ∃ d, StepDuration.ofWord? s.timing.stepDuration = some d
  mode : ∃ m, DispatchMode.ofWord? s.timing.dispatchMode = some m
  startTime : ∃ t, s.timing.startTime = .ok t
  model : ∃ m, WindModel.ofWord? s.generation.windModel = some m
  solarCapacity : isNegative s.generation.solarCapacity = false
  windCapacity : isNegative s.generation.windCapacity = false
  chpCapacity : isNegative s.generation.chpCapacity = false
  rampRate : isNegative s.generation.rampRate = false
  batteryCapacity : isNegative s.battery.capacity = false
  batteryEfficiency : isShare s.battery.efficiency = true
  gate : s.timing.gating = true → ¬ s.battery.capacity ≤ 0
  thermal : s.thermal.enabled = true → s.thermal.Accepted
  demand : s.demand.Accepted

/-- Nothing is reported exactly if nothing is wrong. -/
theorem Scenario.problems_eq_nil_iff (s : Scenario) : s.problems = [] ↔ s.Accepted := by
  have hsteps : (s.timing.steps == 0) = false ↔ s.timing.steps ≠ 0 := by simp
  have hgate : (s.timing.gating && decide (s.battery.capacity ≤ 0)) = false ↔
      (s.timing.gating = true → ¬ s.battery.capacity ≤ 0) := by
    cases s.timing.gating <;> simp
  simp only [problems, Timing.problems, Generation.problems, Battery.problems,
    List.append_eq_nil_iff, problemIf_eq_nil_iff, problemOf_eq_nil_iff, checkWord_eq_nil_iff,
    checkAmount_eq_nil_iff, checkShare_eq_nil_iff, Thermal.problems_eq_nil_iff,
    Demand.problems_eq_nil_iff, hsteps, hgate, and_assoc]
  constructor
  · rintro ⟨h1, h2, h3, h4, h5, h6, h7, h8, h9, h10, h11, h12, h13, h14⟩
    exact ⟨h1, h2, h3, h4, h5, h6, h7, h8, h9, h10, h11, h12, h13, h14⟩
  · rintro ⟨h1, h2, h3, h4, h5, h6, h7, h8, h9, h10, h11, h12, h13, h14⟩
    exact ⟨h1, h2, h3, h4, h5, h6, h7, h8, h9, h10, h11, h12, h13, h14⟩

end LocalGrid
