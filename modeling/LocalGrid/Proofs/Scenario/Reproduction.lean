import LocalGrid.Proofs.Clock.Steps
import LocalGrid.Proofs.Scenario.Entries
import LocalGrid.Proofs.Simulation.Start
import LocalGrid.Scenario.Run

/-!
# What a run takes from its scenario

A finished run of a scenario has one record for each step. The index of a record, its timestamp and
its two demands are those of the scenario: nothing is shifted, and no series is taken for another.
-/

namespace LocalGrid

open Quantity Calendar

/-! ## Thermal demands -/

namespace Simulation

variable {σ α ω : Type} [Quantity α]

theorem heatStep?_demand {hours chp d : α} {pool q : Pool α} {record : ThermalRecord α}
    (h : heatStep? hours chp d pool = some (record, q)) : record.demand = d := by
  unfold heatStep? at h
  dsimp only at h
  split_ifs at h
  all_goals
    obtain ⟨exchange, -, h⟩ := Option.bind_eq_some_iff.1 h
    exact (congrArg ThermalRecord.demand (Prod.mk.inj (Option.some.inj h)).1).symm

theorem thermalStep?_some {hours chp d : α} {pool : Pool α} {heat : Option (ThermalRecord α)}
    {next : Option (Pool α)} (h : thermalStep? hours chp (some d) (some pool) = some (heat, next)) :
    ∃ record q, heat = some record ∧ record.demand = d ∧ next = some q := by
  obtain ⟨⟨record, q⟩, hstep, h⟩ := Option.map_eq_some_iff.1 h
  obtain ⟨rfl, rfl⟩ := Prod.mk.inj h
  exact ⟨record, q, rfl, heatStep?_demand hstep, rfl⟩

variable [Quantity ω] [Widening α ω] {c : Config α} {w : Weather σ α} {s s' : σ}
  {result : Result α} {p : Profiles α} {states : ℕ → State α} {k : ℕ} {r : Record α}

theorem Finished.thermal_eq_none (h : Finished c w s result s' p states)
    (hnone : c.thermalDemand = none) (hr : result.records[k]? = some r) : r.thermal = none := by
  have hk := (List.getElem?_eq_some_iff.1 hr).1
  have hstore : (states k).thermal = none :=
    h.invariant (fun t => t.thermal = none) (by simp [Config.initialState, hnone])
      (fun hr _ _ hbefore => h.no_heat_step hr hbefore) k hk.le
  obtain ⟨x, -, hstep⟩ := h.step hr
  have hthermal := hstep.thermalStep?_eq
  rw [hstore, thermalStep?_none, Option.some.injEq, Prod.mk.injEq] at hthermal
  exact hthermal.1.symm

theorem Finished.exists_thermal (h : Finished c w s result s' p states) {xs : List α}
    (hxs : c.thermalDemand = some xs) (hr : result.records[k]? = some r) :
    ∃ heat, r.thermal = some heat ∧ xs[k]? = some heat.demand := by
  have hstep : ∀ {k r x pool}, c.InputAt p k x →
      c.rules.Step k x (states k) r (states (k + 1)) → (states k).thermal = some pool →
      ∃ heat q, r.thermal = some heat ∧ xs[k]? = some heat.demand ∧
        (states (k + 1)).thermal = some q := by
    intro k r x pool hx hstep hpool
    have hdemand := hx.thermalDemand_eq
    rw [Config.ThermalDemandAt, hxs] at hdemand
    obtain ⟨d, hd, hxd⟩ := hdemand
    have hthermal := hstep.thermalStep?_eq
    rw [hpool, hxd] at hthermal
    obtain ⟨heat, q, hheat, rfl, hq⟩ := thermalStep?_some hthermal
    exact ⟨heat, q, hheat, hd, hq⟩
  have hk := (List.getElem?_eq_some_iff.1 hr).1
  obtain ⟨pool, hpool⟩ := h.invariant (fun t => ∃ pool, t.thermal = some pool)
    (by simp [Config.initialState, hxs])
    (by
      rintro k r x - hx hstep' ⟨pool, hpool⟩
      obtain ⟨-, q, -, -, hq⟩ := hstep hx hstep' hpool
      exact ⟨q, hq⟩) k hk.le
  obtain ⟨x, hx, hstep'⟩ := h.step hr
  obtain ⟨heat, -, hheat, hd, -⟩ := hstep hx hstep' hpool
  exact ⟨heat, hheat, hd⟩

end Simulation

/-! ## Scenarios -/

namespace Scenario

variable {files : Files} {today : Day} {s : Scenario} {c : Simulation.Config Float32} {run : Run}

structure Resolves (files : Files) (today : Day) (s : Scenario) (c : Simulation.Config Float32) :
    Prop where
  accepted : s.Accepted
  stepCount_eq : c.stepCount = s.timing.steps
  demand_eq : s.demand.series files s.timing.steps s.timing.seed = .ok c.demand
  thermal_eq : s.thermal.series files s.timing.steps s.timing.seed = .ok c.thermalDemand
  duration_eq : StepDuration.ofWord? s.timing.stepDuration = some c.stepDuration
  start_eq : s.timing.startTime.map (·.getD (.midnight today)) = .ok c.start
  mode_eq : DispatchMode.ofWord? s.timing.dispatchMode = some c.dispatchMode

theorem resolves_of_resolve (h : s.resolve files today = .ok c) : Resolves files today s c := by
  unfold resolve at h
  split at h
  · cases h
  · next hproblems =>
    obtain ⟨demand, hdemand, h⟩ := exists_of_bind h
    obtain ⟨thermal, hthermal, h⟩ := exists_of_bind h
    obtain ⟨duration, hduration, h⟩ := exists_of_bind h
    obtain ⟨start, hstart, h⟩ := exists_of_bind h
    obtain ⟨mode, hmode, h⟩ := exists_of_bind h
    obtain ⟨model, -, h⟩ := exists_of_bind h
    obtain rfl := Except.ok.inj h
    exact {
      accepted := s.problems_eq_nil_iff.1 hproblems
      stepCount_eq := rfl
      demand_eq := hdemand
      thermal_eq := hthermal
      duration_eq := choose_eq_ok_iff.1 hduration
      start_eq := by rw [exists_of_mapError hstart]; rfl
      mode_eq := choose_eq_ok_iff.1 hmode }

theorem simulate_of_run (h : s.run files today = .ok run) :
    s.resolve files today = .ok run.config ∧
      ∃ w, Simulation.simulate run.config .standard (wind run.config) = (.ok run.result, w) := by
  obtain ⟨c, hc, h⟩ := exists_of_bind h
  obtain ⟨result, hresult, h⟩ := exists_of_bind h
  obtain rfl := Except.ok.inj h
  have hsimulate := exists_of_mapError hresult
  refine ⟨exists_of_mapError hc, (Simulation.simulate c .standard (wind c)).2, ?_⟩
  rw [← hsimulate]

theorem peakShaving_iff {word : String} {m : DispatchMode}
    (h : DispatchMode.ofWord? word = some m) : m = .peakShaving ↔ word = "peak_shaving" := by
  unfold DispatchMode.ofWord? at h
  split at h
  · obtain rfl := Option.some.inj h
    decide
  · obtain rfl := Option.some.inj h
    exact iff_of_true rfl rfl
  · cases h

theorem isValid_startTime {t : Timing} {start : Timestamp} (h : t.startTime = .ok (some start)) :
    start.IsValid := by
  unfold Timing.startTime at h
  split at h
  · cases h
  · split at h
    · next hread =>
      obtain rfl := Option.some.inj (Except.ok.inj h)
      exact Timestamp.isValid_read hread
    · cases h

open Simulation

theorem getElem?_timestamps? {w w' : Wind} {result : Result Float32} {i : ℕ} {r : Record Float32}
    (h : simulate c .standard w = (.ok result, w')) (hr : result.records[i]? = some r) :
    ∃ stamps, c.clock.timestamps? = some stamps ∧ stamps[i]? = some r.timestamp := by
  obtain ⟨-, hcarry⟩ := simulate_eq_ok h
  obtain ⟨-, stamps, -, -, hstamps, -⟩ := Config.carryOut?_eq_some_iff.1 hcarry
  refine ⟨stamps, hstamps, ?_⟩
  rw [← timestamps_records h hstamps, List.getElem?_map, hr, Option.map_some]

theorem isSome_peakThreshold?_iff (hdemand : c.demand ≠ []) :
    c.peakThreshold?.isSome = true ↔ c.dispatchMode = .peakShaving := by
  cases hmode : c.dispatchMode with
  | default => simp [Config.peakThreshold?, hmode]
  | peakShaving =>
      obtain ⟨threshold, hthreshold⟩ := Config.exists_peakThreshold hmode hdemand
      simp [hthreshold]

/-- The record of a step: its place, its timestamp and its demands are those of the scenario. -/
structure Reproduces (files : Files) (s : Scenario) (start : Timestamp) (i : ℕ)
    (r : Record Float32) : Prop where
  index_eq : r.index = i
  timestamp : ∃ d, StepDuration.ofWord? s.timing.stepDuration = some d ∧
    Clock.IsStep start d i r.timestamp
  demand : s.demand.Entry files (s.timing.seed + 101) i r.demand
  thermal_eq_none : s.thermal.enabled = false → r.thermal = none
  exists_thermal : s.thermal.enabled = true → ∃ heat, r.thermal = some heat ∧
    s.thermal.source.Entry files (s.timing.seed + 202) i heat.demand

/-- A finished run of a scenario with a start outside leap seconds has as many records as the
scenario has steps, each of them reproduces the scenario at its place, and there is a peak
threshold exactly if peaks are to be shaved. -/
theorem run_reproduces {start : Timestamp} (hstart : s.timing.startTime = .ok (some start))
    (hleap : start.isLeapSecond = false) (h : s.run files today = .ok run) :
    run.result.records.length = s.timing.steps ∧
      (∀ i r, run.result.records[i]? = some r → Reproduces files s start i r) ∧
      (run.result.peakThreshold.isSome = true ↔ s.timing.dispatchMode = "peak_shaving") := by
  obtain ⟨hresolve, w, hsimulate⟩ := simulate_of_run h
  have hconfig := resolves_of_resolve hresolve
  obtain ⟨p, states, hrun⟩ := exists_finished hsimulate
  refine ⟨(length_records hsimulate).trans hconfig.stepCount_eq, fun i r hr => ?_, ?_⟩
  · obtain ⟨x, -, hstep⟩ := hrun.step hr
    obtain ⟨stamps, hstamps, htime⟩ := getElem?_timestamps? hsimulate hr
    have hc : run.config.start = start := by
      have hmap := hconfig.start_eq
      rw [hstart] at hmap
      exact (Except.ok.inj hmap).symm
    rw [Config.clock, hc] at hstamps
    have hstep' := Clock.isStep_of_getElem? (isValid_startTime hstart) hleap hstamps htime
    obtain ⟨hthermal, hseries⟩ := Thermal.exists_of_series hconfig.thermal_eq
    exact {
      index_eq := hstep.index_eq
      timestamp := ⟨_, hconfig.duration_eq, hstep'⟩
      demand := Demand.entry_of_series hconfig.accepted.demand hconfig.demand_eq
        (hrun.demand_getElem? hr)
      thermal_eq_none := fun hdisabled =>
        hrun.thermal_eq_none (Option.not_isSome_iff_eq_none.1 fun hsome => by
          simp [hthermal.1 hsome] at hdisabled) hr
      exists_thermal := fun henabled => by
        obtain ⟨xs, hxs⟩ := Option.isSome_iff_exists.1 (hthermal.2 henabled)
        obtain ⟨heat, hheat, hentry⟩ := hrun.exists_thermal hxs hr
        have hsource := (hconfig.accepted.thermal henabled).source
        exact ⟨heat, hheat, Source.entry_of_series hsource (hseries xs hxs) hentry⟩ }
  · rw [hrun.peakThreshold_eq, isSome_peakThreshold?_iff hrun.accepted.demand_ne_nil]
    exact peakShaving_iff hconfig.mode_eq

/-- Two hours of three buildings, two of which have one name, and of a store that serves a table. -/
def sharedName : Scenario where
  timing := { steps := 2, start := some "2024-02-29T23:00:00.5" }
  generation := { useWind := false, rampWind := false }
  thermal := {
    enabled := true
    source := { kind := "csv", low := 0, high := 0, path := some "heat.csv", column := "kw" } }
  demand := {
    source := { kind := "neighborhood", low := 0, high := 0, column := demandColumn }
    buildings := [
      { name := "office", path := some "heat.csv", column := "kw" },
      { name := "mill", profile := [2] },
      { name := "office", profile := [5, 7, 9] }] }

def twoRows : Files := fun _ => .ok [107, 119, 10, 51, 10, 52, 10]

/-- The later office counts, and the second hour is in March. -/
theorem run_reproduces_sharedName : ∃ start run,
    sharedName.timing.startTime = .ok (some start) ∧ start.isLeapSecond = false ∧
      sharedName.run twoRows ⟨0⟩ = .ok run ∧
      run.result.records.map (fun r => (r.timestamp.text, r.demand)) =
        [("2024-02-29T23:00:00.500", 7), ("2024-03-01T00:00:00.500", 9)] ∧
      run.result.records.length = 2 ∧
      (∀ i r, run.result.records[i]? = some r → Reproduces twoRows sharedName start i r) ∧
      (run.result.peakThreshold.isSome = true ↔ "default" = "peak_shaving") := by
  have hstart : sharedName.timing.startTime = .ok (some ⟨⟨739250⟩, 82800, 500000000⟩) := by
    decide +kernel
  have hrun : (sharedName.run twoRows ⟨0⟩).toOption.any (fun run => decide
      (run.result.records.map (fun r => (r.timestamp.text, r.demand)) =
        [("2024-02-29T23:00:00.500", 7), ("2024-03-01T00:00:00.500", 9)])) = true := by
    decide +kernel
  obtain ⟨run, hok, hrecords⟩ := (Option.any_eq_true _ _).1 hrun
  have h : sharedName.run twoRows ⟨0⟩ = .ok run := by
    cases hout : sharedName.run twoRows ⟨0⟩ with
    | error e => simp [hout, Except.toOption] at hok
    | ok out => simpa [hout, Except.toOption] using hok
  obtain ⟨hlength, hall, hthreshold⟩ := run_reproduces hstart (by decide) h
  exact ⟨_, run, hstart, by decide, h, of_decide_eq_true hrecords, hlength, hall, hthreshold⟩

end Scenario

end LocalGrid
