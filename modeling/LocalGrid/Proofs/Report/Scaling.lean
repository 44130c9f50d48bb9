import LocalGrid.Proofs.Simulation.Scaling
import LocalGrid.Report.Basic

/-!
# Reports in another unit

The totals of a report are measured in the unit of its run. Full cycles and the shares of a day are
ratios of energies, and they have none.
-/

namespace LocalGrid

open Quantity Simulation

def DayBalance.scale (f : ℚ) (d : DayBalance ℚ) : DayBalance ℚ :=
  { d with generation := f * d.generation, demand := f * d.demand, consumed := f * d.consumed }

def DaySums.scale (f : ℚ) (d : DaySums ℚ) : DaySums ℚ :=
  { d with generation := f * d.generation, demand := f * d.demand }

/-- A report in another unit: its energies, but neither the steps it counts nor its ratios. -/
def Report.scale (f : ℚ) (r : Report ℚ) : Report ℚ where
  generation := f * r.generation
  demand := f * r.demand
  charged := f * r.charged
  discharged := f * r.discharged
  peakLevel := f * r.peakLevel
  fullCycles := r.fullCycles
  gridExport := f * r.gridExport
  gridImport := f * r.gridImport
  curtailed := r.curtailed
  finalThermal := r.finalThermal.map (f * ·)
  days := r.days.map (DayBalance.scale f)

/-! ## Totals -/

section

variable {f : ℚ} (hf : 0 < f) (rs : List (Record ℚ))

theorem total_scale (g : Record ℚ → ℚ) (hg : ∀ r, g (r.scale f) = f * g r) :
    total g (rs.map (Record.scale f)) = f * total g rs := by
  rw [total, total, List.foldl_map, ← List.foldl_hom (f * ·)]
  · rw [mul_zero]
  · intro sum r
    rw [hg, mul_add]

include hf

theorem totalCharged_scale : totalCharged (rs.map (Record.scale f)) = f * totalCharged rs := by
  rw [totalCharged, totalCharged, List.foldl_map, ← List.foldl_hom (f * ·)]
  · rw [mul_zero]
  · intro sum r
    change (if 0 < f * r.batteryChange then f * sum + f * r.batteryChange else f * sum) = _
    rw [← mul_add, ← mul_ite]
    simp only [mul_pos_iff_of_pos_left hf]

theorem totalDischarged_scale :
    totalDischarged (rs.map (Record.scale f)) = f * totalDischarged rs := by
  rw [totalDischarged, totalDischarged, List.foldl_map, ← List.foldl_hom (f * ·)]
  · rw [mul_zero]
  · intro sum r
    change (if 0 < f * r.batteryChange then f * sum else f * sum - f * r.batteryChange) = _
    rw [← mul_sub, ← mul_ite]
    simp only [mul_pos_iff_of_pos_left hf]

theorem highestLevel_scale : highestLevel (rs.map (Record.scale f)) = f * highestLevel rs := by
  rw [highestLevel, highestLevel, List.foldl_map, ← List.foldl_hom (f * ·)]
  · rw [mul_zero]
  · exact fun peak r => larger_scale hf peak r.batteryLevel

/-! ## Days -/

omit hf in
theorem addToDay_scale (day : Calendar.Day) (generation demand : ℚ) (days : List (DaySums ℚ)) :
    addToDay day (f * generation) (f * demand) (days.map (DaySums.scale f)) =
      (addToDay day generation demand days).map (DaySums.scale f) := by
  induction days with
  | nil => simp [addToDay, DaySums.scale]
  | cons d days ih =>
      have hday : (d.scale f).day = d.day := rfl
      simp only [List.map_cons, addToDay, hday, ih]
      split_ifs <;> simp [DaySums.scale, mul_add]

omit hf in
theorem daySums_scale (hours : ℚ) :
    daySums hours (rs.map (Record.scale f)) = (daySums hours rs).map (DaySums.scale f) := by
  rw [daySums, daySums, List.foldl_map, List.map_reverse, ← List.foldl_hom (List.map _)]
  · rfl
  · intro days r
    simp only [Record.scale, mul_assoc]
    exact addToDay_scale _ _ _ _

theorem ratio_scale (part whole : ℚ) : ratio (f * part) (f * whole) = ratio part whole := by
  simp only [ratio, mul_pos_iff_of_pos_left hf, mul_div_mul_left part whole hf.ne']

theorem DaySums.balance_scale (d : DaySums ℚ) : (d.scale f).balance = d.balance.scale f := by
  simp only [balance, scale, smaller_scale hf, ratio_scale hf, DayBalance.scale]

/-! ## Reports -/

theorem Report.ofResult_scale (r : Result ℚ) :
    ofResult (r.scale f) = (ofResult r).scale f := by
  have hgeneration := total_scale (f := f) r.records (fun s => s.generation * r.hours)
    fun s => mul_assoc f s.generation r.hours
  have hdemand := total_scale (f := f) r.records (fun s => s.demand * r.hours)
    fun s => mul_assoc f s.demand r.hours
  have hexport := total_scale (f := f) r.records (·.gridExport) fun _ => rfl
  have himport := total_scale (f := f) r.records (·.gridImport) fun _ => rfl
  have hcurtailed : (r.records.map (Record.scale f)).countP (·.generationOff) =
      r.records.countP (·.generationOff) := List.countP_map
  have hthermal :
      ((r.records.map (Record.scale f)).getLast?.bind fun s => s.thermal.map (·.level)) =
      (r.records.getLast?.bind fun s => s.thermal.map (·.level)).map (f * ·) := by
    rw [List.getLast?_map, Option.bind_map, Option.map_bind]
    congr 1
    funext s
    simp only [Function.comp_apply, Record.scale, Option.map_map]
    rfl
  have hdays : ((daySums r.hours r.records).map (DaySums.scale f)).map DaySums.balance =
      ((daySums r.hours r.records).map DaySums.balance).map (DayBalance.scale f) := by
    simp only [List.map_map, Function.comp_def, DaySums.balance_scale hf]
  simp only [ofResult, scale, Result.scale, hgeneration, hdemand, hexport, himport, hcurtailed,
    hthermal, hdays, totalCharged_scale hf, totalDischarged_scale hf, highestLevel_scale hf,
    ratio_scale hf, daySums_scale]

end

namespace Simulation

variable {σ τ : Type}

/-- In exact arithmetic and in the same weather, an accepted configuration in another unit has the
same run and the same report in that unit. -/
theorem run_scale {c : Config ℚ} {w : Weather σ ℚ} {v : Weather τ ℚ} {s : σ} {t : τ} {f : ℚ}
    (hf : 0 < f) (hvalidate : c.validate = .ok ()) (hdaylight : w.daylight = v.daylight)
    (hdraws : (Random.draws w.draw c.stepCount s).1 = (Random.draws v.draw c.stepCount t).1) :
    (simulate (c.scale f) v t).1 = (simulate c w s).1.map (Result.scale f) ∧
      (simulate (c.scale f) v t).1.map Report.ofResult =
        (simulate c w s).1.map fun result => (Report.ofResult result).scale f := by
  have hrun := simulate_scale hf hvalidate hdaylight hdraws
  refine ⟨hrun, ?_⟩
  rw [hrun]
  cases (simulate c w s).1 with
  | error e => rfl
  | ok result => exact congrArg Except.ok (Report.ofResult_scale hf result)

/-- Four hours around midnight with every generator, a limited wind and two lossy stores, behind a
gate. -/
def unitConfig : Config ℚ :=
  { Config.new .hourly ⟨⟨738000⟩, 79200, 0⟩ [8, 30, 15, 10] with
    solarCapacity := 20
    windCapacity := 16
    chpCapacity := 6
    batteryCapacity := 5
    batteryEfficiency := 1 / 2
    thermalCapacity := 5
    thermalEfficiency := 1 / 2
    rampRate := 2
    thermalDemand := some [2, 9, 1, 8] }

def unitWeather : Weather ℕ ℚ := ⟨fun hour => if hour = 22 then 3 / 5 else 0, fun n => (n, n + 1)⟩

theorem unitConfig_run :
    (simulate unitConfig unitWeather 0).1.toOption.any (fun result =>
      decide (result.batteryChanges = [5, -5, 0, 1] ∧
        result.records.map (·.generationOff) = [false, true, false, false])) = true := by
  decide +kernel

/-- In watts these hours fill and empty the battery in the same steps. -/
theorem run_scale_watts : ∃ result s',
    simulate unitConfig unitWeather 0 = (.ok result, s') ∧
      result.batteryChanges = [5, -5, 0, 1] ∧
      result.records.map (·.generationOff) = [false, true, false, false] ∧
      (simulate (unitConfig.scale 1000) unitWeather 0).1 = .ok (result.scale 1000) ∧
      Report.ofResult (result.scale 1000) = (Report.ofResult result).scale 1000 := by
  obtain ⟨result, h, hresult⟩ := exists_simulate_eq unitConfig_run
  obtain ⟨hchanges, hoff⟩ := of_decide_eq_true hresult
  obtain ⟨hrun, hreport⟩ := run_scale (w := unitWeather) (v := unitWeather) (s := 0) (t := 0)
    (by norm_num : (0 : ℚ) < 1000) (simulate_eq_ok h).1 rfl rfl
  rw [h] at hrun hreport
  rw [hrun] at hreport
  exact ⟨result, _, h, hchanges, hoff, hrun, Except.ok.inj hreport⟩

end Simulation

end LocalGrid
