import LocalGrid.Proofs.Quarters
import LocalGrid.Proofs.Report.Books
import LocalGrid.Proofs.Splitting

/-!
# Hours and quarters of an hour

In exact arithmetic a default run without a gate settles one energy with each store in every step,
and steps with the same input settle it in parts. If all inputs are constant through each hour, a
run in quarters of an hour passes through the levels of the run in hours, and its exchanges add up
to those of the hours. Solar output is constant through an hour, because it depends on the hour of
the day alone; wind is drawn anew in every step.
-/

namespace LocalGrid

open Quantity

namespace Simulation

variable {σ τ α : Type}

/-- The same run in quarters of an hour: four times the steps, and every value of the demand series
four times. -/
def Config.quarters (c : Config α) : Config α :=
  { c with
    stepCount := 4 * c.stepCount
    stepDuration := .quarterHourly
    demand := quartered c.demand
    thermalDemand := c.thermalDemand.map quartered }

def Profiles.quarters (p : Profiles α) : Profiles α :=
  ⟨quartered p.solar, quartered p.wind, quartered p.chp⟩

/-! ## Inputs -/

theorem Config.InputAt.eq_of_quarters {c : Config α} {p : Profiles α} {k j : ℕ} {x y : StepInput α}
    (hx : c.InputAt p k x) (hy : c.quarters.InputAt p.quarters (4 * k + j) y) (hj : j < 4) :
    y = { x with timestamp := y.timestamp } := by
  have hsolar := hy.solar_eq
  have hwind := hy.wind_eq
  have hchp := hy.chp_eq
  have hdemand := hy.demand_eq
  have hheat := hy.thermalDemand_eq
  simp only [Profiles.quarters, Config.quarters,
    getElem?_quartered _ _ hj] at hsolar hwind hchp hdemand
  obtain ⟨timestamp, solar, wind, chp, demand, heat⟩ := y
  obtain rfl := Option.some.inj (hsolar.symm.trans hx.solar_eq)
  obtain rfl := Option.some.inj (hwind.symm.trans hx.wind_eq)
  obtain rfl := Option.some.inj (hchp.symm.trans hx.chp_eq)
  obtain rfl := Option.some.inj (hdemand.symm.trans hx.demand_eq)
  have hthermal : heat = x.thermalDemand := by
    have hheat' := hx.thermalDemand_eq
    simp only [Config.ThermalDemandAt, Config.quarters] at hheat hheat'
    cases hseries : c.thermalDemand with
    | none =>
        simp only [hseries, Option.map_none] at hheat hheat'
        rw [hheat, hheat']
    | some xs =>
        simp only [hseries, Option.map_some, getElem?_quartered _ _ hj] at hheat hheat'
        obtain ⟨d, hd, rfl⟩ := hheat
        obtain ⟨d', hd', heq⟩ := hheat'
        rw [heq, Option.some.inj (hd.symm.trans hd')]
  rw [hthermal]

variable [Quantity α]

theorem Config.Accepted.quarters {c : Config α} (h : c.Accepted) : c.quarters.Accepted where
  stepCount_ne_zero := Nat.mul_ne_zero (by decide) h.stepCount_ne_zero
  length_demand := (length_quartered _).trans (congrArg (4 * ·) h.length_demand)
  length_thermalDemand := by
    intro xs hxs
    obtain ⟨ys, hys, rfl⟩ := Option.map_eq_some_iff.1 hxs
    exact (length_quartered _).trans (congrArg (4 * ·) (h.length_thermalDemand ys hys))
  solarCapacity := h.solarCapacity
  windCapacity := h.windCapacity
  chpCapacity := h.chpCapacity
  batteryCapacity := h.batteryCapacity
  thermalCapacity := h.thermalCapacity
  rampRate := h.rampRate
  batteryEfficiency := h.batteryEfficiency
  thermalEfficiency := h.thermalEfficiency
  gate := h.gate
  demand := fun x hx => h.demand x (mem_quartered.1 hx)
  thermalDemand := by
    intro xs hxs x hx
    obtain ⟨ys, hys, rfl⟩ := Option.map_eq_some_iff.1 hxs
    exact h.thermalDemand ys hys x (mem_quartered.1 hx)

theorem Config.solarOutputs_quarters (c : Config α) {w : Weather σ α} {v : Weather τ α}
    (hdaylight : w.daylight = v.daylight) (hours : List ℕ) :
    c.quarters.solarOutputs v (quartered hours) = quartered (c.solarOutputs w hours) := by
  have hsun : solarOutput v c.solarCapacity = solarOutput w c.solarCapacity := by
    funext hour
    rw [solarOutput, solarOutput, hdaylight]
  cases huse : c.useSolar <;>
    simp [solarOutputs, quarters, huse, hsun, map_quartered, quartered_replicate]

theorem Config.chpOutputs_quarters (c : Config α) (n : ℕ) :
    c.quarters.chpOutputs (4 * n) = quartered (c.chpOutputs n) := by
  rw [chpOutputs, chpOutputs, quartered_replicate]
  rfl

section

variable [RoundedQuantity α] {c : Config α} {w : Weather σ α} {v : Weather τ α} {s s' : σ}
  {p : Profiles α}

theorem limited?_replicate {x : α} (hx : isFinite x = true) (isTarget : Bool) (rate : α) (n : ℕ) :
    limited? isTarget rate (List.replicate n x) = some (List.replicate n x) := by
  cases isTarget with
  | false => rfl
  | true => exact ramp?_replicate hx rate n

/-- Without wind, and with a sun that follows the hour, all profiles are constant through each
hour. -/
theorem Config.profiles?_quarters (hc : c.Accepted) (hstart : c.start.OnTheHour)
    (hduration : c.stepDuration = .hourly) (hwind : c.useWind = false)
    (hramp : c.ramp.solar = false) (hdaylight : w.daylight = v.daylight)
    (h : c.profiles? w s = some (p, s')) (t : τ) :
    ∃ t', c.quarters.profiles? v t = some (p.quarters, t') := by
  obtain ⟨stamps, hstamps, hsolar, hair, -, -⟩ := profiles?_eq_some_iff.1 h
  have hlength := length_clock_timestamps? hstamps
  have hchp := chp_of_profiles? hc h
  have hcalm : ∀ n (u : τ), c.quarters.windOutputs v n u = (List.replicate n 0, u) := by
    simp [windOutputs, quarters, hwind]
  rw [clock, hduration] at hstamps
  obtain ⟨quarters, hquarters, hhours⟩ := Clock.timestamps?_quarters hstart hstamps
  have hlength' : quarters.length = 4 * c.stepCount := Clock.length_timestamps? hquarters
  refine ⟨_, profiles?_eq_some_iff.2 ⟨quarters, hquarters, ?_, ?_, ?_, rfl⟩⟩
  · have hramp' : c.quarters.ramp.solar = false := hramp
    simp only [limited?, hramp, hramp', Bool.false_eq_true, if_false, Option.some.injEq] at hsolar ⊢
    rw [hhours, c.solarOutputs_quarters hdaylight, hsolar]
    rfl
  · simp only [windOutputs, hwind, Bool.false_eq_true, if_false,
      limited?_replicate RoundedQuantity.isFinite_zero, Option.some.injEq] at hair
    rw [hcalm, limited?_replicate RoundedQuantity.isFinite_zero, Profiles.quarters, ← hair, hlength,
      hlength', quartered_replicate]
  · have hquarter := limited?_chpOutputs hc.quarters c.ramp.chp c.rampRate quarters.length
    rw [hlength', c.chpOutputs_quarters, ← hchp] at hquarter
    rw [hlength', c.chpOutputs_quarters, ← hchp]
    exact hquarter

end

/-! ## Steps with the same input -/

section

variable {hours chp demand : ℚ} {pool : Pool ℚ}

/-- A step of the thermal store settles the heat above its demand. -/
theorem heatStep?_settled (hp : pool.WellFormed) :
    heatStep? hours chp demand pool =
      some (⟨(pool.settled ((chp - demand) * hours)).level,
        (pool.settled ((chp - demand) * hours)).level - pool.level, demand⟩,
        pool.settled ((chp - demand) * hours)) := by
  rcases lt_or_ge 0 ((chp - demand) * hours) with hpos | hnonpos
  · exact heatStep?_of_charge? hpos (Pool.charge?_settled hp hpos.le)
  · have hq := Pool.discharge?_settled hp (neg_nonneg.2 hnonpos)
    rw [heatStep?_of_discharge? (not_lt.2 hnonpos) hq, neg_neg, neg_sub]

end

def StepInput.net (x : StepInput ℚ) (hours : ℚ) : ℚ :=
  (x.solar + x.wind + x.chp - x.demand) * hours

def StepInput.netHeat (x : StepInput ℚ) (hours : ℚ) : ℚ :=
  x.thermalDemand.elim 0 fun demand => (x.chp - demand) * hours

theorem thermalStep?_settled (hours : ℚ) (x : StepInput ℚ) {thermal : Option (Pool ℚ)}
    (h : ∀ pool, thermal = some pool → pool.WellFormed) :
    ∃ heat, thermalStep? hours x.chp x.thermalDemand thermal =
      some (heat, thermal.map (·.settled (x.netHeat hours))) := by
  unfold StepInput.netHeat
  cases thermal with
  | none => cases x.thermalDemand <;> exact ⟨none, rfl⟩
  | some pool =>
      cases x.thermalDemand with
      | none => exact ⟨none, by simp [thermalStep?, Pool.settled_zero (h pool rfl)]⟩
      | some demand => exact ⟨_, by simp [thermalStep?, heatStep?_settled (h pool rfl)]; rfl⟩

def exchanges (rs : List (Record ℚ)) : Exchange ℚ :=
  ⟨total (·.batteryChange) rs, total (·.gridExport) rs, total (·.gridImport) rs⟩

theorem exchanges_concat (rs : List (Record ℚ)) (r : Record ℚ) :
    exchanges (rs ++ [r]) = exchanges rs + ⟨r.batteryChange, r.gridExport, r.gridImport⟩ := by
  simp only [exchanges, total_concat, Exchange.add_def]

section

variable {c : Config ℚ} {w : Weather σ ℚ} {s s' : σ} {result : Result ℚ} {p : Profiles ℚ}
  {states : ℕ → State ℚ} {k m : ℕ} {r : Record ℚ} {energy heat : ℚ}

/-- A default step without a gate settles its energy with the battery and its heat with the thermal
store. -/
theorem Finished.settled_step (h : Finished c w s result s' p states)
    (hmode : c.dispatchMode = .default) (hgating : c.gating = false)
    (hr : result.records[k]? = some r) :
    ∃ x, c.InputAt p k x ∧
      (⟨r.batteryChange, r.gridExport, r.gridImport⟩ : Exchange ℚ) =
        (states k).battery.settlement (x.net c.hours) ∧
      (states (k + 1)).battery = (states k).battery.settled (x.net c.hours) ∧
      (states (k + 1)).thermal = (states k).thermal.map (·.settled (x.netHeat c.hours)) := by
  have hk := (List.getElem?_eq_some_iff.1 hr).1
  have hsound := h.sound (finitePowers_exact c result p) hk.le
  obtain ⟨x, hx, hstep⟩ := h.step hr
  refine ⟨x, hx, ?_⟩
  have hon : r.generationOff = false := by rw [hstep.generationOff_eq, Config.rules, hgating]; rfl
  have hgeneration : r.generation = x.solar + x.wind + x.chp := by
    rw [hstep.generation_eq, hstep.solar_eq, hstep.wind_eq, hstep.chp_eq, hon]
    rfl
  have hpolicy : c.rules.policy = .default := by
    rw [Config.rules, hmode]
    rfl
  have hdispatch := hstep.dispatch?_eq
  rw [hpolicy, hgeneration, hstep.demand_eq,
    Policy.dispatch?_settled hsound.battery (isStepLength_exact c.stepDuration).pos] at hdispatch
  obtain ⟨hexchange, hbattery⟩ := Prod.mk.inj (Option.some.inj hdispatch)
  obtain ⟨record, hheat⟩ := thermalStep?_settled c.hours x
    fun pool hpool => (hsound.thermal pool hpool).1
  have hthermal := (Prod.mk.inj (Option.some.inj (hheat.symm.trans hstep.thermalStep?_eq))).2
  exact ⟨hexchange.symm, hbattery.symm, hthermal.symm⟩

/-- Steps with the same input settle its energy and its heat in parts. -/
theorem Finished.settled_parts (h : Finished c w s result s' p states)
    (hmode : c.dispatchMode = .default) (hgating : c.gating = false)
    (hsame : ∀ j < m, ∀ x, c.InputAt p (k + j) x → x.net c.hours = energy ∧
      x.netHeat c.hours = heat) (hm : k + m ≤ result.records.length) :
    exchanges ((result.records.drop k).take m) = (states k).battery.settlement (m * energy) ∧
      (states (k + m)).battery = (states k).battery.settled (m * energy) ∧
      (states (k + m)).thermal = (states k).thermal.map (·.settled (m * heat)) := by
  have hsound := h.sound (finitePowers_exact c result p) (k := k) (by omega)
  induction m with
  | zero =>
      have hpools : (states k).thermal.map (·.settled 0) = (states k).thermal := by
        rw [Option.map_congr fun pool hpool => Pool.settled_zero (hsound.thermal pool hpool).1]
        exact Option.map_id'
      simp only [Nat.cast_zero, zero_mul, Pool.settlement_zero hsound.battery,
        Pool.settled_zero hsound.battery, hpools]
      exact ⟨rfl, rfl, rfl⟩
  | succ m ih =>
      obtain ⟨hexchange, hbattery, hthermal⟩ := ih (fun j hj => hsame j (by omega)) (by omega)
      have hr := List.getElem?_eq_getElem (l := result.records) (i := k + m) (by omega)
      obtain ⟨x, hx, hlast, hbattery', hthermal'⟩ := h.settled_step hmode hgating hr
      obtain ⟨hnet, hheat⟩ := hsame m (by omega) x hx
      rw [hnet, hbattery] at hlast hbattery'
      rw [hheat, hthermal] at hthermal'
      have hsign : ∀ x : ℚ, 0 ≤ m * x * x := fun x => by
        rw [mul_assoc]
        exact mul_nonneg m.cast_nonneg (mul_self_nonneg x)
      have hmore : ∀ x : ℚ, ((m + 1 : ℕ) : ℚ) * x = m * x + x := by
        intro x
        push_cast
        ring
      rw [hmore, hmore]
      refine ⟨?_, ?_, ?_⟩
      · rw [List.take_add_one, List.getElem?_drop, hr, Option.toList_some, exchanges_concat,
          hexchange, hlast, Pool.settlement_add hsound.battery (hsign energy)]
      · exact hbattery'.trans (Pool.settled_add hsound.battery (hsign energy))
      · rw [← Nat.add_assoc, hthermal', Option.map_map]
        exact Option.map_congr fun pool hpool =>
          Pool.settled_add (hsound.thermal pool hpool).1 (hsign heat)

/-- A record reports the level of the thermal store, if there is one. -/
theorem Finished.heat_after (h : Finished c w s result s' p states)
    (hr : result.records[k]? = some r) :
    r.thermal.map (·.level) = (states (k + 1)).thermal.map (·.level) := by
  have hf := finitePowers_exact c result p
  have hk := (List.getElem?_eq_some_iff.1 hr).1
  have hsound := h.sound hf hk.le
  cases hthermal : c.thermalDemand.isSome with
  | true =>
      obtain ⟨pool, hpool⟩ := Option.isSome_iff_exists.1 (hsound.isSome_thermal.trans hthermal)
      obtain ⟨d, q, hrecord, hq, -⟩ :=
        h.heat_step hf hr hpool (hsound.thermal pool hpool).1 hthermal
      rw [hrecord, hq]
      rfl
  | false =>
      have hnone : (states k).thermal = none := by
        rw [← Option.not_isSome_iff_eq_none, hsound.isSome_thermal, hthermal]
        exact Bool.false_ne_true
      obtain ⟨x, -, hstep⟩ := h.step hr
      have hnothing := hstep.thermalStep?_eq
      rw [hnone, thermalStep?_none, Option.some.injEq, Prod.mk.injEq] at hnothing
      rw [← hnothing.1, ← hnothing.2]
      rfl

end

section

variable {c : Config ℚ} {w : Weather σ ℚ} {v : Weather τ ℚ} {s s' : σ} {t t' : τ}
  {result other : Result ℚ} {p : Profiles ℚ} {states states' : ℕ → State ℚ} {k : ℕ}

/-- What a step does to the stores of a run is what its quarters do. -/
theorem Finished.quarters_step (h : Finished c w s result s' p states)
    (h' : Finished c.quarters v t other t' p.quarters states') (hmode : c.dispatchMode = .default)
    (hgating : c.gating = false) (hduration : c.stepDuration = .hourly)
    (hlength : other.records.length = 4 * result.records.length) {r : Record ℚ}
    (hr : result.records[k]? = some r) (hbattery : (states' (4 * k)).battery = (states k).battery)
    (hthermal : (states' (4 * k)).thermal = (states k).thermal) :
    exchanges ((other.records.drop (4 * k)).take 4) =
        ⟨r.batteryChange, r.gridExport, r.gridImport⟩ ∧
      (states' (4 * (k + 1))).battery = (states (k + 1)).battery ∧
      (states' (4 * (k + 1))).thermal = (states (k + 1)).thermal := by
  have hk := (List.getElem?_eq_some_iff.1 hr).1
  obtain ⟨x, hx, hexchange, hnext, hheat⟩ := h.settled_step hmode hgating hr
  have hhour : c.hours = 1 := congrArg StepDuration.hours hduration
  have hquarter : c.quarters.hours = 1 / 4 := rfl
  have hsame : ∀ j < 4, ∀ y, c.quarters.InputAt p.quarters (4 * k + j) y →
      y.net c.quarters.hours = x.net c.hours / 4 ∧
        y.netHeat c.quarters.hours = x.netHeat c.hours / 4 := by
    intro j hj y hy
    rw [hx.eq_of_quarters hy hj, hhour, hquarter]
    constructor
    · simp only [StepInput.net]
      ring
    · simp only [StepInput.netHeat]
      cases x.thermalDemand <;> simp [div_eq_mul_inv]
  obtain ⟨hexchange', hnext', hheat'⟩ := h'.settled_parts hmode hgating hsame (by omega)
  have hwhole : ∀ y : ℚ, ((4 : ℕ) : ℚ) * (y / 4) = y := fun y => by
    push_cast
    ring
  rw [hbattery, hwhole] at hexchange' hnext'
  rw [hthermal, hwhole] at hheat'
  exact ⟨hexchange'.trans hexchange.symm, hnext'.trans hnext.symm, hheat'.trans hheat.symm⟩

/-- At every full hour the two runs have the same stores. -/
theorem Finished.quarters_eq (h : Finished c w s result s' p states)
    (h' : Finished c.quarters v t other t' p.quarters states') (hmode : c.dispatchMode = .default)
    (hgating : c.gating = false) (hduration : c.stepDuration = .hourly)
    (hlength : other.records.length = 4 * result.records.length)
    (hk : k ≤ result.records.length) :
    (states' (4 * k)).battery = (states k).battery ∧
      (states' (4 * k)).thermal = (states k).thermal := by
  induction k with
  | zero =>
      rw [Nat.mul_zero, h.initial_eq, h'.initial_eq]
      refine ⟨rfl, ?_⟩
      simp only [Config.initialState, Config.quarters, Option.map_map]
      rfl
  | succ k ih =>
      obtain ⟨hbattery, hthermal⟩ := ih (Nat.le_of_succ_le hk)
      have hr := List.getElem?_eq_getElem (l := result.records) (i := k) hk
      exact (h.quarters_step h' hmode hgating hduration hlength hr hbattery hthermal).2

/-- In exact arithmetic a default run in hours, without a gate and without wind, has a run in
quarters of an hour in the same sun. After the last quarter of every hour both stores have the
levels of that hour, and the changes of the battery and the exchanges with the grid over its
quarters add up to those of the hour. -/
theorem quarters_agree (hstart : c.start.OnTheHour) (hduration : c.stepDuration = .hourly)
    (hmode : c.dispatchMode = .default) (hgating : c.gating = false) (hwind : c.useWind = false)
    (hramp : c.ramp.solar = false) (hdaylight : w.daylight = v.daylight)
    (h : simulate c w s = (.ok result, s')) :
    ∃ other t', simulate c.quarters v t = (.ok other, t') ∧
      ∀ (k : ℕ) (r : Record ℚ), result.records[k]? = some r →
        (∃ q, other.records[4 * k + 3]? = some q ∧ q.batteryLevel = r.batteryLevel ∧
          q.thermal.map (·.level) = r.thermal.map (·.level)) ∧
        let hour := (other.records.drop (4 * k)).take 4
        total (·.batteryChange) hour = r.batteryChange ∧
          total (·.gridExport) hour = r.gridExport ∧
          total (·.gridImport) hour = r.gridImport := by
  obtain ⟨p, states, hrun⟩ := exists_finished h
  have haccepted := hrun.accepted
  obtain ⟨u, hp⟩ := Config.profiles?_quarters haccepted hstart hduration hwind hramp hdaylight
    hrun.profiles?_eq t
  obtain ⟨other, t', hcarry⟩ := Config.exists_carryOut?_iff.2 (Option.isSome_of_eq_some hp)
  have h' := simulate_of_carryOut? (Config.validate_of_accepted haccepted.quarters) hcarry
  obtain ⟨p', states', hrun'⟩ := exists_finished h'
  obtain ⟨rfl, -⟩ := Prod.mk.inj (Option.some.inj (hp.symm.trans hrun'.profiles?_eq))
  have hlength : other.records.length = 4 * result.records.length := by
    rw [length_records h, length_records h']
    rfl
  refine ⟨other, t', h', fun k r hr => ?_⟩
  have hk := (List.getElem?_eq_some_iff.1 hr).1
  obtain ⟨hbattery, hthermal⟩ := hrun.quarters_eq hrun' hmode hgating hduration hlength hk.le
  obtain ⟨hexchange, hnext, hheat⟩ :=
    hrun.quarters_step hrun' hmode hgating hduration hlength hr hbattery hthermal
  obtain ⟨hchange, hexport, himport⟩ := Exchange.mk.inj hexchange
  have hq := List.getElem?_eq_getElem (l := other.records) (i := 4 * k + 3) (by omega)
  refine ⟨⟨_, hq, ?_, ?_⟩, hchange, hexport, himport⟩
  · rw [← hrun.level_after hr, ← hrun'.level_after hq]
    exact congrArg Pool.level hnext
  · rw [hrun.heat_after hr, hrun'.heat_after hq]
    exact congrArg (Option.map Pool.level) hheat

end

/-- Three hours from eleven on with sun in the first, in which a lossy battery is filled and emptied
within an hour. -/
def middayConfig : Config ℚ :=
  { Config.new .hourly ⟨⟨738000⟩, 39600, 0⟩ [2, 36, 5] with
    solarCapacity := 20
    chpCapacity := 10
    batteryCapacity := 12
    batteryEfficiency := 1 / 2
    thermalCapacity := 6
    thermalEfficiency := 1 / 2
    useWind := false
    gating := false
    thermalDemand := some [4, 16, 9] }

def middaySun : Weather Unit ℚ := ⟨fun hour => if hour = 11 then 1 else 0, fun s => (0, s)⟩

theorem quarters_agree_midday : ∃ result other,
    simulate middayConfig middaySun () = (.ok result, ()) ∧
      result.batteryLevels = [12, 0, 5 / 2] ∧
      simulate middayConfig.quarters middaySun () = (.ok other, ()) ∧
      other.batteryLevels =
        [7 / 2, 7, 21 / 2, 12, 11 / 2, 0, 0, 0, 5 / 8, 5 / 4, 15 / 8, 5 / 2] ∧
      ∀ (k : ℕ) (r : Record ℚ), result.records[k]? = some r →
        (∃ q, other.records[4 * k + 3]? = some q ∧ q.batteryLevel = r.batteryLevel ∧
          q.thermal.map (·.level) = r.thermal.map (·.level)) ∧
        let hour := (other.records.drop (4 * k)).take 4
        total (·.batteryChange) hour = r.batteryChange ∧
          total (·.gridExport) hour = r.gridExport ∧
          total (·.gridImport) hour = r.gridImport := by
  have hhours : (simulate middayConfig middaySun ()).1.toOption.any (fun result =>
      decide (result.batteryLevels = [12, 0, 5 / 2])) = true := by
    decide +kernel
  have hrun : (simulate middayConfig.quarters middaySun ()).1.toOption.any (fun result =>
      decide (result.batteryLevels =
        [7 / 2, 7, 21 / 2, 12, 11 / 2, 0, 0, 0, 5 / 8, 5 / 4, 15 / 8, 5 / 2])) = true := by
    decide +kernel
  obtain ⟨result, h, hlevels⟩ := exists_simulate_eq hhours
  obtain ⟨other, t', hother, hquarters⟩ := quarters_agree (v := middaySun) (t := ())
    ⟨by decide, by decide, by decide⟩ rfl rfl rfl rfl rfl rfl h
  obtain ⟨quarters, h', hlevels'⟩ := exists_simulate_eq hrun
  obtain rfl : quarters = other := Except.ok.inj (Prod.mk.inj (h'.symm.trans hother)).1
  exact ⟨result, quarters, h, of_decide_eq_true hlevels, hother, of_decide_eq_true hlevels',
    hquarters⟩

end Simulation

end LocalGrid
