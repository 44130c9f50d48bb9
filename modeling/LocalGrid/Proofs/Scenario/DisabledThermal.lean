import LocalGrid.Proofs.Scenario.Accepted
import LocalGrid.Proofs.Simulation.Separation
import LocalGrid.Proofs.Simulation.Validation
import LocalGrid.Scenario.Run

/-!
# Scenarios without a thermal store

The section of a disabled thermal store is not checked with the scenario, and no demand is made from
it. Its capacity and its efficiency still reach the configuration, where they are checked as if
there were a store. So the section is without effect on everything but these two checks: what is
checked before them is reported whatever the section holds, and a section that fails them is
reported with the first of them that it fails.
-/

namespace LocalGrid.Simulation

open Quantity RoundedQuantity

variable {σ α ω : Type} [Quantity α] [RoundedQuantity α]

namespace Config

variable {c : Config α}

theorem rejections_electrical (hnone : c.thermalDemand = none)
    (hcapacity : IsAmount c.thermalCapacity) (hefficiency : isShare c.thermalEfficiency = true) :
    c.electrical.rejections = c.rejections := by
  have hthermal : Magnitude.thermalCapacity ≠ .rampRate := by decide
  simp only [rejections, electrical, hnone, (checkMagnitude_eq_nil_iff hthermal).2 hcapacity,
    (checkMagnitude_eq_nil_iff hthermal).2 isAmount_zero, checkShare_eq_nil_iff.2 hefficiency,
    checkShare_eq_nil_iff.2 isShare_one]
  rfl

/-- Without thermal demand, capacity and efficiency of a thermal store are checked and not used. -/
theorem simulate_electrical [Quantity ω] [Widening α ω] (w : Weather σ α) (s : σ)
    (hnone : c.thermalDemand = none) (hcapacity : IsAmount c.thermalCapacity)
    (hefficiency : isShare c.thermalEfficiency = true) :
    simulate c.electrical w s = simulate c w s := by
  have hcarry : c.electrical.carryOut? w s = c.carryOut? w s := by
    obtain ⟨⟩ := c
    obtain rfl := hnone
    rfl
  rw [simulate, simulate, validate, validate, rejections_electrical hnone hcapacity hefficiency,
    hcarry]

end Config

/-! ## The checks before the thermal ones -/

def Constraint.beforeThermal : List Constraint :=
  [.steps, .length .electrical, .length .thermal, .magnitude .solarCapacity,
    .magnitude .windCapacity, .magnitude .chpCapacity, .magnitude .batteryCapacity]

theorem Constraint.beforeThermal_prefix_order : beforeThermal <+: order := by decide

theorem Constraint.mem_beforeThermal {k : Constraint} (h : k.kind = .configuration) :
    k ∈ beforeThermal := by
  cases k with
  | steps => decide
  | length series => cases series <;> decide
  | magnitude => cases h
  | share => cases h
  | gate => cases h
  | entries => cases h

namespace Config

variable {c : Config α} {r : Rejection α} {text : α → String}

/-- Behind the checks before the thermal ones there are only numbers out of their domain. -/
theorem kind_eq_numericDomain (hmet : ∀ k ∈ Constraint.beforeThermal, c.Meets k)
    (h : c.validate = .error r) : (r.fault text).kind = .numericDomain := by
  obtain ⟨k, ⟨-, -, -, -, hbroken⟩, hreports⟩ := validate_eq_error_iff_reports.1 h
  rw [hreports.fault.1]
  cases hkind : k.kind with
  | configuration => exact absurd (hmet k (Constraint.mem_beforeThermal hkind)) hbroken
  | numericDomain => rfl

omit [RoundedQuantity α] in
theorem exists_reports_magnitude (c : Config α) (field : Magnitude) :
    ∃ r, c.Reports (.magnitude field) r := by
  by_cases h : 0 ≤ c.magnitude field
  · exact ⟨_, .infinite h⟩
  · exact ⟨_, .negative h⟩

theorem error_of_thermalCapacity (text : α → String)
    (hmet : ∀ k ∈ Constraint.beforeThermal, c.Meets k)
    (hcapacity : ¬ IsAmount c.thermalCapacity) : ∃ r, c.validate = .error r ∧
      (r.fault text).kind = .numericDomain ∧
      (r.fault text).field = "thermal_storage_capacity" := by
  have hbroken : ¬ c.Meets (.magnitude .thermalCapacity) := fun h =>
    hcapacity (isAmount_iff.2 ⟨h.2 (by decide), h.1⟩)
  obtain ⟨r, hreports⟩ := c.exists_reports_magnitude .thermalCapacity
  refine ⟨r, validate_eq_error_iff_reports.2 ⟨_, ⟨_, _, rfl, hmet, hbroken⟩, hreports⟩,
    hreports.fault.1, ?_⟩
  cases hreports <;> rfl

theorem error_of_thermalEfficiency (text : α → String)
    (hmet : ∀ k ∈ Constraint.beforeThermal, c.Meets k)
    (hcapacity : IsAmount c.thermalCapacity) (hrate : c.Meets (.magnitude .rampRate))
    (hbattery : c.Meets (.share .battery)) (hefficiency : ¬ isShare c.thermalEfficiency = true) :
    ∃ r, c.validate = .error r ∧ (r.fault text).kind = .numericDomain ∧
      (r.fault text).field = "thermal_storage_efficiency" := by
  have hthermal : c.Meets (.magnitude .thermalCapacity) :=
    ⟨nonneg_of_isAmount hcapacity, fun _ => hcapacity.isFinite⟩
  have hbefore : ∀ k ∈ Constraint.beforeThermal ++
      [.magnitude .thermalCapacity, .magnitude .rampRate, .share .battery], c.Meets k := by
    refine List.forall_mem_append.2 ⟨hmet, ?_⟩
    simp only [List.forall_mem_cons, List.not_mem_nil, false_implies, implies_true, and_true]
    exact ⟨hthermal, hrate, hbattery⟩
  have hbroken : ¬ c.Meets (.share .thermal) := fun h => hefficiency (isShare_iff.2 h)
  exact ⟨_, validate_eq_error_iff_reports.2 ⟨_, ⟨_, _, rfl, hbefore, hbroken⟩, .share⟩, rfl, rfl⟩

end Config

end LocalGrid.Simulation

namespace LocalGrid.Scenario

open Quantity

/-- A thermal section that would be accepted by a configuration. -/
def Thermal.InDomain (t : Thermal) : Prop :=
  Simulation.IsAmount t.capacity ∧ isShare t.efficiency = true

variable {files : Files} {today today' : Calendar.Day} {s : Scenario} {a b : Thermal}

theorem problems_of_disabled (ha : a.enabled = false) :
    { s with thermal := a }.problems =
      s.timing.problems ++ s.generation.problems ++ s.battery.problems s.timing.gating ++
        s.demand.problems := by
  simp [problems, Thermal.problems, ha]

/-- The thermal fields of a configuration, as a thermal section gives them. -/
def Thermal.fill (t : Thermal) (c : Simulation.Config Float32) : Simulation.Config Float32 :=
  { c with thermalCapacity := t.capacity, thermalEfficiency := t.efficiency }

/-- What a configuration has from a scenario that is not refused and has no thermal store. -/
structure IsElectrical (c : Simulation.Config Float32) : Prop where
  thermalDemand_eq : c.thermalDemand = none
  rampRate : c.Meets (.magnitude .rampRate)
  batteryEfficiency : c.Meets (.share .battery)

theorem assemble_of_disabled (ha : a.enabled = false) (hb : b.enabled = false)
    (hstart : s.timing.start.isSome = true) (hproblems : { s with thermal := b }.problems = []) :
    assemble files today { s with thermal := a } =
        (assemble files today' { s with thermal := b }).map a.fill ∧
      ∀ c, assemble files today' { s with thermal := b } = .ok c → IsElectrical c := by
  obtain ⟨text, htext⟩ := Option.isSome_iff_exists.1 hstart
  have haccepted := (problems_eq_nil_iff _).1 hproblems
  simp only [assemble, Thermal.series, ha, hb, Timing.startTime, htext]
  -- both sides fail at the same part, and if none fails they differ in the thermal fields alone
  cases s.demand.series files s.timing.steps s.timing.seed with
  | error e => exact ⟨rfl, fun c h => by cases h⟩
  | ok demand =>
      cases choose .stepDuration StepDuration.ofWord? s.timing.stepDuration with
      | error e => exact ⟨rfl, fun c h => by cases h⟩
      | ok duration =>
          cases Calendar.Timestamp.read text with
          | error e => exact ⟨rfl, fun c h => by cases h⟩
          | ok start =>
              cases choose .dispatchMode DispatchMode.ofWord? s.timing.dispatchMode with
              | error e => exact ⟨rfl, fun c h => by cases h⟩
              | ok mode =>
                  cases choose .windModel WindModel.ofWord? s.generation.windModel with
                  | error e => exact ⟨rfl, fun c h => by cases h⟩
                  | ok model =>
                      refine ⟨rfl, fun c h => ?_⟩
                      obtain rfl := Except.ok.inj h
                      exact {
                        thermalDemand_eq := rfl
                        rampRate := ⟨Simulation.isNegative_eq_false_iff.1 haccepted.rampRate,
                          fun h => absurd rfl h⟩
                        batteryEfficiency := isShare_iff.1 haccepted.batteryEfficiency }

theorem resolve_of_disabled (files : Files) (today today' : Calendar.Day)
    (ha : a.enabled = false) (hb : b.enabled = false) (hstart : s.timing.start.isSome = true) :
    resolve files today { s with thermal := a } =
        (resolve files today' { s with thermal := b }).map a.fill ∧
      ∀ c, resolve files today' { s with thermal := b } = .ok c → IsElectrical c := by
  have hsame : { s with thermal := a }.problems = { s with thermal := b }.problems := by
    rw [problems_of_disabled ha, problems_of_disabled hb]
  rw [resolve, resolve, hsame]
  split
  · exact ⟨rfl, fun c h => by cases h⟩
  · next hproblems => exact assemble_of_disabled ha hb hstart hproblems

/-- What a run shows: its records and its report, or why there are none. -/
def outcome (files : Files) (today : Calendar.Day) (s : Scenario) :
    Except RunError (Simulation.Result Float32 × Report Float32) :=
  (run files today s).map fun r => (r.result, r.report)

theorem outcome_of_refused {reason : Refusal} (h : resolve files today s = .error reason) :
    outcome files today s = .error (.refused reason) := by
  rw [outcome, run, h]
  rfl

theorem outcome_of_resolve {c : Simulation.Config Float32} (h : resolve files today s = .ok c) :
    outcome files today s = ((Simulation.simulate c .standard (wind c)).1.mapError .failed).map
      fun result => (result, .ofResult result) := by
  simp only [outcome, run, h, Except.mapError, bind, Except.bind]
  cases (Simulation.simulate c .standard (wind c)).1 <;> rfl

theorem not_refused {c : Simulation.Config Float32} (h : resolve files today s = .ok c)
    (reason : Refusal) : outcome files today s ≠ .error (.refused reason) := by
  rw [outcome_of_resolve h]
  cases (Simulation.simulate c .standard (wind c)).1 <;> simp [Except.mapError, Except.map]

theorem simulate_fill {c : Simulation.Config Float32} (hnone : c.thermalDemand = none)
    (ha : a.InDomain) (w : Wind) :
    Simulation.simulate (a.fill c) .standard w = Simulation.simulate c.electrical .standard w :=
  (Simulation.Config.simulate_electrical (c := a.fill c) .standard w hnone ha.1 ha.2).symm

theorem outcome_of_rejected {c : Simulation.Config Float32} {r : Simulation.Rejection Float32}
    (h : resolve files today s = .ok c) (hr : c.validate = .error r) :
    outcome files today s = .error (.failed (.rejected r)) := by
  rw [outcome_of_resolve h, Simulation.simulate, hr]
  rfl

/-- A run that is not refused fails by a rejection, or by a breakdown without a report. -/
theorem validate_of_outcome {c : Simulation.Config Float32} {e : RunError} {f : Fault}
    (h : resolve files today s = .ok c) (he : outcome files today s = .error e)
    (hf : e.fault? = some f) :
    ∃ r, c.validate = .error r ∧ f = r.fault Decimal.Layout.message.single := by
  rw [outcome_of_resolve h, Simulation.simulate] at he
  cases hvalidate : c.validate with
  | error r =>
      rw [hvalidate] at he
      obtain rfl := Except.error.inj he
      exact ⟨r, rfl, (Option.some.inj hf).symm⟩
  | ok u =>
      rw [hvalidate] at he
      cases hcarry : c.carryOut? .standard (wind c) with
      | none =>
          rw [hcarry] at he
          obtain rfl := Except.error.inj he
          cases hf
      | some out =>
          rw [hcarry] at he
          cases he

/-- With the checks before the thermal ones passed, only a number out of its domain is reported. -/
theorem kind_of_outcome {c : Simulation.Config Float32} {e : RunError} {f : Fault}
    (h : resolve files today s = .ok c)
    (hmet : ∀ k ∈ Simulation.Constraint.beforeThermal, c.Meets k)
    (he : outcome files today s = .error e) (hf : e.fault? = some f) : f.kind = .numericDomain := by
  obtain ⟨r, hr, rfl⟩ := validate_of_outcome h he hf
  exact Simulation.Config.kind_eq_numericDomain hmet hr

/-! ## Checks that a section does not reach -/

/-- The checks before the thermal ones find the same whatever the section holds. -/
theorem rejections_fill (c : Simulation.Config Float32) (t : Thermal) :
    ∃ rest, (t.fill c).rejections = Simulation.Constraint.beforeThermal.flatMap c.check ++ rest := by
  obtain ⟨after, hafter⟩ := Simulation.Constraint.beforeThermal_prefix_order
  refine ⟨after.flatMap (t.fill c).check, ?_⟩
  rw [Simulation.Config.rejections_eq_flatMap, ← hafter, List.flatMap_append]
  rfl

theorem validate_fill_of_cons {c : Simulation.Config Float32}
    {r : Simulation.Rejection Float32} {rest : List (Simulation.Rejection Float32)}
    (h : Simulation.Constraint.beforeThermal.flatMap c.check = r :: rest) (t : Thermal) :
    (t.fill c).validate = .error r := by
  obtain ⟨others, hothers⟩ := rejections_fill c t
  rw [Simulation.Config.validate_eq_error_iff, hothers, h]
  rfl

theorem meets_fill_of_nil {c : Simulation.Config Float32}
    (h : Simulation.Constraint.beforeThermal.flatMap c.check = []) (t : Thermal) :
    ∀ k ∈ Simulation.Constraint.beforeThermal, (t.fill c).Meets k := by
  rw [← Simulation.Config.forall_check_eq_nil_iff
    Simulation.Constraint.beforeThermal_prefix_order, ← List.flatMap_eq_nil_iff]
  exact h

/-- A section outside its domain is rejected with the first of its two fields that is outside. -/
theorem error_fill_of_not_inDomain {c : Simulation.Config Float32} (hc : IsElectrical c)
    (hmet : ∀ k ∈ Simulation.Constraint.beforeThermal, (a.fill c).Meets k) (ha : ¬ a.InDomain)
    (text : Float32 → String) :
    ∃ r, (a.fill c).validate = .error r ∧ (r.fault text).kind = .numericDomain ∧
      (¬ Simulation.IsAmount a.capacity ∧ (r.fault text).field = "thermal_storage_capacity" ∨
        Simulation.IsAmount a.capacity ∧
          (r.fault text).field = "thermal_storage_efficiency") := by
  by_cases hcapacity : Simulation.IsAmount a.capacity
  · have hefficiency : ¬ isShare a.efficiency = true := fun h => ha ⟨hcapacity, h⟩
    obtain ⟨r, hr, hkind, hfield⟩ := Simulation.Config.error_of_thermalEfficiency text hmet
      hcapacity hc.rampRate hc.batteryEfficiency hefficiency
    exact ⟨r, hr, hkind, Or.inr ⟨hcapacity, hfield⟩⟩
  · obtain ⟨r, hr, hkind, hfield⟩ :=
      Simulation.Config.error_of_thermalCapacity text hmet hcapacity
    exact ⟨r, hr, hkind, Or.inl ⟨hcapacity, hfield⟩⟩

/-- The section of a disabled thermal store changes no problem of a scenario, no refusal of it and
no configuration error of its run. If it lies in the domain that is checked of a configuration, it
changes no outcome. Otherwise there is no run: it fails in the way that it fails with any other
section, or with a number of the section that is out of its domain. -/
theorem disabled_thermal_ignored (ha : a.enabled = false) (hb : b.enabled = false)
    (hstart : s.timing.start.isSome = true) :
    { s with thermal := a }.problems = { s with thermal := b }.problems ∧
    (∀ reason, outcome files today { s with thermal := a } = .error (.refused reason) ↔
      outcome files today' { s with thermal := b } = .error (.refused reason)) ∧
    (∀ e f, e.fault? = some f → f.kind = .configuration →
      (outcome files today { s with thermal := a } = .error e ↔
        outcome files today' { s with thermal := b } = .error e)) ∧
    (a.InDomain → b.InDomain → outcome files today { s with thermal := a } =
      outcome files today' { s with thermal := b }) ∧
    (¬ a.InDomain → ∃ e, outcome files today { s with thermal := a } = .error e ∧
      (outcome files today' { s with thermal := b } = .error e ∨
        ∃ f, e.fault? = some f ∧ f.kind = .numericDomain ∧
          (¬ Simulation.IsAmount a.capacity ∧ f.field = "thermal_storage_capacity" ∨
            Simulation.IsAmount a.capacity ∧ f.field = "thermal_storage_efficiency"))) := by
  refine ⟨by rw [problems_of_disabled ha, problems_of_disabled hb], ?_⟩
  obtain ⟨hmap, helectrical⟩ := resolve_of_disabled files today today' ha hb hstart
  obtain ⟨hmap', -⟩ := resolve_of_disabled files today' today' hb hb hstart
  cases hresolve : resolve files today' { s with thermal := b } with
  | error reason =>
      rw [hresolve] at hmap
      rw [outcome_of_refused hmap, outcome_of_refused hresolve]
      exact ⟨fun _ => Iff.rfl, fun _ _ _ _ => Iff.rfl, fun _ _ => rfl,
        fun _ => ⟨_, rfl, Or.inl rfl⟩⟩
  | ok c =>
      rw [hresolve] at hmap hmap' helectrical
      have hc := helectrical c rfl
      have hresolveb := hresolve.trans hmap'
      refine ⟨fun reason => iff_of_false (not_refused hmap reason) (not_refused hresolveb reason),
        ?_⟩
      cases hbefore : Simulation.Constraint.beforeThermal.flatMap c.check with
      | cons r rest =>
          -- a check before the thermal ones fails, and it fails with both sections
          rw [outcome_of_rejected hmap (validate_fill_of_cons hbefore a),
            outcome_of_rejected hresolveb (validate_fill_of_cons hbefore b)]
          exact ⟨fun _ _ _ _ => Iff.rfl, fun _ _ => rfl, fun _ => ⟨_, rfl, Or.inl rfl⟩⟩
      | nil =>
          have hmet := meets_fill_of_nil hbefore
          refine ⟨fun e f hf hkind => ?_, fun ha' hb' => ?_, fun ha' => ?_⟩
          · refine iff_of_false (fun he => ?_) fun he => ?_
            · cases hkind.symm.trans (kind_of_outcome hmap (hmet a) he hf)
            · cases hkind.symm.trans (kind_of_outcome hresolveb (hmet b) he hf)
          · rw [outcome_of_resolve hmap, outcome_of_resolve hresolveb,
              simulate_fill hc.thermalDemand_eq ha', simulate_fill hc.thermalDemand_eq hb']
            rfl
          · obtain ⟨r, hr, hfault⟩ := error_fill_of_not_inDomain hc (hmet a) ha'
              Decimal.Layout.message.single
            exact ⟨_, outcome_of_rejected hmap hr, Or.inr ⟨_, rfl, hfault⟩⟩

def twoHours : Scenario where
  timing := { steps := 2, start := some "2024-06-01T00:00:00" }
  generation := { useWind := false }
  demand := {
    source := {
      kind := "profile"
      low := 3000
      high := 10000
      profile := [5]
      column := demandColumn } }

def noFiles : Files := fun _ => .error .notFound

/-- A store that is small and loses everything is ignored while it is disabled. -/
theorem disabled_thermal_ignored_two_hours :
    (run noFiles ⟨1⟩ { twoHours with thermal := {} }).toOption.isSome = true ∧
      outcome noFiles ⟨0⟩ { twoHours with thermal := { capacity := 7, efficiency := 0 } } =
        outcome noFiles ⟨1⟩ { twoHours with thermal := {} } := by
  refine ⟨by decide +kernel, (disabled_thermal_ignored rfl rfl rfl).2.2.2.1 ?_ ?_⟩
  · exact ⟨⟨by decide, by decide⟩, by decide⟩
  · exact ⟨⟨by decide, by decide⟩, by decide⟩

/-- An efficiency that is no share is no problem of a scenario whose store is disabled, and yet the
scenario has no run because of it. -/
theorem disabled_thermal_rejected :
    { twoHours with thermal := { efficiency := 7 } }.problems = twoHours.problems ∧
      twoHours.problems = [] ∧
      (outcome noFiles ⟨0⟩ twoHours).toOption.isSome = true ∧
      (outcome noFiles ⟨0⟩ { twoHours with thermal := { efficiency := 7 } }).map (fun _ => ()) =
        .error (.failed (.rejected (.notShare .thermal 7))) := by
  decide +kernel

end LocalGrid.Scenario
