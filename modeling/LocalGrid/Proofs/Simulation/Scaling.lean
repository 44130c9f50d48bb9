import LocalGrid.Proofs.Scaling
import LocalGrid.Proofs.Simulation.Separation

/-!
# Runs in another unit

Every kW and kWh of a configuration measured in another unit gives the same run in that unit: the
same steps fill or empty a store, the gate closes in the same steps, and peaks are shaved in the
same steps, since the threshold moves with the demand.
-/

namespace LocalGrid.Simulation

open Quantity

variable {σ τ : Type}

def StepInput.scale (f : ℚ) (x : StepInput ℚ) : StepInput ℚ where
  timestamp := x.timestamp
  solar := f * x.solar
  wind := f * x.wind
  chp := f * x.chp
  demand := f * x.demand
  thermalDemand := x.thermalDemand.map (f * ·)

def State.scale (f : ℚ) (s : State ℚ) : State ℚ :=
  ⟨s.battery.scale f, s.thermal.map (Pool.scale f), s.off⟩

def ThermalRecord.scale (f : ℚ) (r : ThermalRecord ℚ) : ThermalRecord ℚ :=
  ⟨f * r.level, f * r.change, f * r.demand⟩

/-- A record in another unit: its powers and energies, but neither its place nor the gate. -/
def Record.scale (f : ℚ) (r : Record ℚ) : Record ℚ where
  index := r.index
  timestamp := r.timestamp
  solar := f * r.solar
  wind := f * r.wind
  chp := f * r.chp
  generation := f * r.generation
  demand := f * r.demand
  surplus := f * r.surplus
  generationOff := r.generationOff
  batteryLevel := f * r.batteryLevel
  batteryChange := f * r.batteryChange
  gridExport := f * r.gridExport
  gridImport := f * r.gridImport
  thermal := r.thermal.map (ThermalRecord.scale f)

def Result.scale (f : ℚ) (r : Result ℚ) : Result ℚ where
  records := r.records.map (Record.scale f)
  hours := r.hours
  batteryCapacity := f * r.batteryCapacity
  thermalCapacity := r.thermalCapacity.map (f * ·)
  peakThreshold := r.peakThreshold.map (f * ·)

def Rules.scale (f : ℚ) (rules : Rules ℚ) : Rules ℚ :=
  { rules with policy := rules.policy.scale f }

def Profiles.scale (f : ℚ) (p : Profiles ℚ) : Profiles ℚ :=
  ⟨p.solar.map (f * ·), p.wind.map (f * ·), p.chp.map (f * ·)⟩

/-- A configuration in another unit: its capacities, its ramp rate and its demand series. Shares,
choices and times have no unit. -/
def Config.scale (f : ℚ) (c : Config ℚ) : Config ℚ :=
  { c with
    solarCapacity := f * c.solarCapacity
    windCapacity := f * c.windCapacity
    chpCapacity := f * c.chpCapacity
    batteryCapacity := f * c.batteryCapacity
    thermalCapacity := f * c.thermalCapacity
    rampRate := f * c.rampRate
    demand := c.demand.map (f * ·)
    thermalDemand := c.thermalDemand.map (List.map (f * ·)) }

variable {f : ℚ} (hf : 0 < f)

include hf

/-! ## Steps -/

theorem nextOff_scale (off : Bool) (p : Pool ℚ) : nextOff off (p.scale f) = nextOff off p := by
  rw [nextOff, p.isFull_scale hf, p.isEmpty_scale hf, nextOff]

theorem heatStep?_scale (hours chp demand : ℚ) (p : Pool ℚ) :
    heatStep? hours (f * chp) (f * demand) (p.scale f) =
      (heatStep? hours chp demand p).map (Prod.map (ThermalRecord.scale f) (Pool.scale f)) := by
  have hnet : (f * chp - f * demand) * hours = f * ((chp - demand) * hours) := by ring
  have hneg : -(f * ((chp - demand) * hours)) = f * -((chp - demand) * hours) := by ring
  have hpos : 0 < f * ((chp - demand) * hours) ↔ 0 < (chp - demand) * hours :=
    mul_pos_iff_of_pos_left hf
  simp only [heatStep?, hnet, hneg, hpos, p.charge?_scale hf, p.discharge?_scale hf,
    Option.bind_eq_bind, Option.pure_def]
  split_ifs
  · rw [Option.bind_map, Option.map_bind]
    rfl
  · rw [Option.map_map, Option.bind_map, Option.bind_map, Option.map_bind]
    congr 1
    funext out
    obtain ⟨released, q⟩ := out
    simp [ThermalRecord.scale, Pool.scale]

theorem thermalStep?_scale (hours chp : ℚ) (demand : Option ℚ) (thermal : Option (Pool ℚ)) :
    thermalStep? hours (f * chp) (demand.map (f * ·)) (thermal.map (Pool.scale f)) =
      (thermalStep? hours chp demand thermal).map
        (Prod.map (Option.map (ThermalRecord.scale f)) (Option.map (Pool.scale f))) := by
  cases thermal with
  | none => cases demand <;> rfl
  | some p =>
      cases demand with
      | none => rfl
      | some d =>
          simp only [Option.map_some, thermalStep?, heatStep?_scale hf, Option.map_map]
          rfl

namespace Rules

variable (rules : Rules ℚ)

theorem step?_scale (index : ℕ) (x : StepInput ℚ) (s : State ℚ) :
    (rules.scale f).step? index (x.scale f) (s.scale f) =
      (rules.step? index x s).map (Prod.map (Record.scale f) (State.scale f)) := by
  have houtput : ∀ gated (y : ℚ), (if gated = true then 0 else f * y) =
      f * (if gated = true then 0 else y) := by
    intro gated y
    split_ifs <;> simp
  have hdispatch := fun g : ℚ =>
    rules.policy.dispatch?_scale hf ⟨g, x.demand, rules.hours⟩ s.battery
  have hgating : (rules.scale f).gating = rules.gating := rfl
  have hoff : (s.scale f).off = s.off := rfl
  simp only [Balance.scale] at hdispatch
  rw [step?, hgating, hoff]
  simp only [step?, scale, StepInput.scale, State.scale, houtput, ← mul_add, hdispatch,
    thermalStep?_scale hf, Option.bind_eq_bind, Option.pure_def, Option.bind_map, Option.map_bind]
  congr 1
  funext out
  obtain ⟨exchange, battery⟩ := out
  simp only [Function.comp_apply, Option.map_bind]
  congr 1
  funext out
  obtain ⟨heat, thermal⟩ := out
  simp [Record.scale, Exchange.scale, State.scale, Pool.level_scale, nextOff_scale hf, mul_sub]

theorem steps?_scale (index : ℕ) (xs : List (StepInput ℚ)) (s : State ℚ) :
    (rules.scale f).steps? index (xs.map (StepInput.scale f)) (s.scale f) =
      (rules.steps? index xs s).map (List.map (Record.scale f)) := by
  induction xs generalizing index s with
  | nil => rfl
  | cons x xs ih =>
      simp only [List.map_cons, steps?, rules.step?_scale hf, Option.bind_eq_bind, Option.pure_def,
        Option.bind_map, Option.map_bind]
      congr 1
      funext out
      obtain ⟨r, t⟩ := out
      simp only [Function.comp_apply, Prod.map, ih, Option.bind_map, Option.map_bind]
      rfl

end Rules

/-! ## Profiles -/

theorem limited?_scale (isTarget : Bool) (rate : ℚ) (xs : List ℚ) :
    limited? isTarget (f * rate) (xs.map (f * ·)) =
      (limited? isTarget rate xs).map (List.map (f * ·)) := by
  cases isTarget with
  | false => rfl
  | true => exact ramp?_scale hf rate xs

namespace Config

variable (c : Config ℚ)

theorem solarOutputs_scale (w : Weather σ ℚ) (hours : List ℕ) :
    (c.scale f).solarOutputs w hours = (c.solarOutputs w hours).map (f * ·) := by
  have hsun : ∀ hour, solarOutput w (f * c.solarCapacity) hour =
      f * solarOutput w c.solarCapacity hour := by
    intro hour
    rw [solarOutput, solarOutput, installed, installed, positivePart_scale hf, mul_assoc]
  cases huse : c.useSolar <;> simp [solarOutputs, scale, huse, hsun]

theorem windOutputs_scale (w : Weather σ ℚ) (n : ℕ) (s : σ) :
    (c.scale f).windOutputs w n s = Prod.map (List.map (f * ·)) id (c.windOutputs w n s) := by
  have hair : ∀ draw : ℚ, windOutput (f * c.windCapacity) draw =
      f * windOutput c.windCapacity draw := by
    intro draw
    rw [windOutput, windOutput, installed, installed, positivePart_scale hf, mul_assoc]
  cases huse : c.useWind <;> simp [windOutputs, scale, huse, hair]

theorem chpOutputs_scale (n : ℕ) :
    (c.scale f).chpOutputs n = (c.chpOutputs n).map (f * ·) := by
  have hoven : chpOutput (f * c.chpCapacity) = f * chpOutput c.chpCapacity :=
    positivePart_scale hf _
  cases huse : c.useChp <;> simp [chpOutputs, scale, huse, hoven]

theorem profiles?_scale (w : Weather σ ℚ) (s : σ) :
    (c.scale f).profiles? w s = (c.profiles? w s).map (Prod.map (Profiles.scale f) id) := by
  have hclock : (c.scale f).clock = c.clock := rfl
  have hramp : (c.scale f).ramp = c.ramp := rfl
  have hrate : (c.scale f).rampRate = f * c.rampRate := rfl
  simp only [profiles?, hclock, hramp, hrate, c.solarOutputs_scale hf, c.windOutputs_scale hf,
    c.chpOutputs_scale hf, limited?_scale hf, Prod.map, Option.bind_eq_bind, Option.pure_def,
    Option.bind_map, Option.map_bind]
  congr 1
  funext stamps
  simp only [Function.comp_apply, Option.map_bind]
  rfl

/-! ## Runs -/

omit hf in
theorem inputs_scale (stamps : List Calendar.Timestamp) (p : Profiles ℚ) :
    (c.scale f).inputs stamps (p.scale f) = (c.inputs stamps p).map (StepInput.scale f) := by
  simp only [inputs, scale, Profiles.scale]
  cases c.thermalDemand <;> apply List.ext_getElem <;> simp [StepInput.scale]

theorem initialState_scale : (c.scale f).initialState = c.initialState.scale f := by
  have hnew : ∀ capacity efficiency : ℚ,
      Pool.new (f * capacity) efficiency = (Pool.new capacity efficiency).scale f := by
    intro capacity efficiency
    simp [Pool.new, Pool.scale, positivePart_scale hf]
  simp only [initialState, scale, State.scale, hnew, Option.map_map]
  rfl

theorem peakThreshold?_scale : (c.scale f).peakThreshold? = c.peakThreshold?.map (f * ·) := by
  simp only [peakThreshold?, scale, percentile?_scale hf]
  cases c.dispatchMode <;> rfl

theorem rules_scale : (c.scale f).rules = c.rules.scale f := by
  have hpolicy : Policy.ofMode c.dispatchMode ((c.peakThreshold?.map (f * ·)).getD 0) =
      (Policy.ofMode c.dispatchMode (c.peakThreshold?.getD 0)).scale f := by
    cases c.dispatchMode with
    | default => rfl
    | peakShaving => cases c.peakThreshold? <;> simp [Policy.ofMode, Policy.scale]
  simp only [rules, c.peakThreshold?_scale hf, Rules.scale, ← hpolicy]
  rfl

theorem carryOut?_scale (w : Weather σ ℚ) (s : σ) :
    (c.scale f).carryOut? w s = (c.carryOut? w s).map (Prod.map (Result.scale f) id) := by
  have hclock : (c.scale f).clock = c.clock := rfl
  have hhours : (c.scale f).hours = c.hours := rfl
  simp only [carryOut?, c.profiles?_scale hf, hclock, hhours, c.initialState_scale hf,
    c.rules_scale hf, c.peakThreshold?_scale hf, Option.bind_eq_bind, Option.pure_def,
    Option.bind_map, Option.map_bind]
  congr 1
  funext out
  obtain ⟨p, t⟩ := out
  simp only [Function.comp_apply, Option.map_bind]
  congr 1
  funext stamps
  simp only [Function.comp_apply, Prod.map, inputs_scale, Rules.steps?_scale hf, Option.bind_map]
  congr 1
  funext records
  simp [Result.scale, State.scale, Pool.scale, Function.comp_def]

end Config

/-! ## Acceptance -/

theorem scale_neg_iff (x : ℚ) : f * x < 0 ↔ x < 0 := by
  rw [← not_le, ← not_le, mul_nonneg_iff_of_pos_left hf]

theorem isNegative_scale (x : ℚ) : isNegative (f * x) = isNegative x := by
  simp [isNegative, isNaN, scale_neg_iff hf]

theorem isBadDemand_scale (x : ℚ) : isBadDemand (f * x) = isBadDemand x := by
  change (false || decide (f * x < 0)) = (false || decide (x < 0))
  rw [decide_eq_decide.2 (scale_neg_iff hf x)]

theorem IsAmount.scale {x : ℚ} (h : IsAmount x) : IsAmount (f * x) :=
  ⟨(isNegative_scale hf x).trans h.not_isNegative, rfl⟩

theorem Config.Accepted.scale {c : Config ℚ} (h : c.Accepted) : (c.scale f).Accepted where
  stepCount_ne_zero := h.stepCount_ne_zero
  length_demand := (List.length_map _).trans h.length_demand
  length_thermalDemand := by
    intro xs hxs
    obtain ⟨ys, hys, rfl⟩ := Option.map_eq_some_iff.1 hxs
    exact (List.length_map _).trans (h.length_thermalDemand ys hys)
  solarCapacity := h.solarCapacity.scale hf
  windCapacity := h.windCapacity.scale hf
  chpCapacity := h.chpCapacity.scale hf
  batteryCapacity := h.batteryCapacity.scale hf
  thermalCapacity := h.thermalCapacity.scale hf
  rampRate := (isNegative_scale hf _).trans h.rampRate
  batteryEfficiency := h.batteryEfficiency
  thermalEfficiency := h.thermalEfficiency
  gate := by
    intro hgating
    rw [not_le]
    exact mul_pos hf (not_le.1 (h.gate hgating))
  demand := by
    intro x hx
    obtain ⟨y, hy, rfl⟩ := List.mem_map.1 hx
    exact (isBadDemand_scale hf y).trans (h.demand y hy)
  thermalDemand := by
    intro xs hxs x hx
    obtain ⟨ys, hys, rfl⟩ := Option.map_eq_some_iff.1 hxs
    obtain ⟨y, hy, rfl⟩ := List.mem_map.1 hx
    exact (isBadDemand_scale hf y).trans (h.thermalDemand ys hys y hy)

/-- In exact arithmetic and in the same weather, an accepted configuration in another unit has the
same run in that unit, or none either. -/
theorem simulate_scale {c : Config ℚ} {w : Weather σ ℚ} {v : Weather τ ℚ} {s : σ} {t : τ}
    (hvalidate : c.validate = .ok ()) (hdaylight : w.daylight = v.daylight)
    (hdraws : (Random.draws w.draw c.stepCount s).1 = (Random.draws v.draw c.stepCount t).1) :
    (simulate (c.scale f) v t).1 = (simulate c w s).1.map (Result.scale f) := by
  have hvalidate' := Config.validate_of_accepted
    ((Config.accepted_of_validate hvalidate).scale hf)
  simp only [simulate, hvalidate, hvalidate', c.carryOut?_scale hf]
  cases h : c.carryOut? w s with
  | some out =>
      obtain ⟨result, s'⟩ := out
      obtain ⟨t', h'⟩ := Config.carryOut?_congr hdaylight hdraws h
      rw [h']
      rfl
  | none =>
      cases h' : c.carryOut? v t with
      | none => rfl
      | some out =>
          obtain ⟨result, t'⟩ := out
          obtain ⟨s', h''⟩ := Config.carryOut?_congr hdaylight.symm hdraws.symm h'
          exact absurd (h''.symm.trans h) (Option.some_ne_none _)

end LocalGrid.Simulation
