import LocalGrid.Proofs.Dispatch
import LocalGrid.Proofs.Simulation.Accepted
import LocalGrid.Simulation.Run
import Mathlib.Data.List.Zip

/-!
# Traces of runs

A finished run has a state before its first step and one after every step. `Rules.Step` is one step
read as a relation between its input, the states around it and its record, and `Finished` collects
what a run with a result went through. An invariant of the steps holds of all states of the run.
-/

namespace LocalGrid.Simulation

open Quantity

variable {σ α ω : Type}

/-! ## Inputs -/

def Config.ThermalDemandAt (c : Config α) (k : ℕ) (demand : Option α) : Prop :=
  match c.thermalDemand with
  | some xs => ∃ d, xs[k]? = some d ∧ demand = some d
  | none => demand = none

/-- The input of a step is read from the series of the configuration and from the profiles. -/
structure Config.InputAt (c : Config α) (p : Profiles α) (k : ℕ) (x : StepInput α) : Prop where
  solar_eq : p.solar[k]? = some x.solar
  wind_eq : p.wind[k]? = some x.wind
  chp_eq : p.chp[k]? = some x.chp
  demand_eq : c.demand[k]? = some x.demand
  thermalDemand_eq : c.ThermalDemandAt k x.thermalDemand

theorem Config.inputAt {c : Config α} {stamps : List Calendar.Timestamp} {p : Profiles α} {k : ℕ}
    {x : StepInput α} (h : (c.inputs stamps p)[k]? = some x) :
    stamps[k]? = some x.timestamp ∧ c.InputAt p k x := by
  simp only [inputs, List.getElem?_map, Option.map_eq_some_iff, List.getElem?_zip_eq_some,
    Prod.exists] at h
  obtain ⟨t, solar, wind, chp, demand, heat, ⟨ht, hsolar, hwind, hchp, hdemand, hheat⟩, rfl⟩ := h
  refine ⟨ht, hsolar, hwind, hchp, hdemand, ?_⟩
  unfold ThermalDemandAt
  cases hthermal : c.thermalDemand with
  | some xs =>
      rw [hthermal] at hheat
      simp only [List.getElem?_map, Option.map_eq_some_iff] at hheat
      obtain ⟨d, hd, rfl⟩ := hheat
      exact ⟨d, hd, rfl⟩
  | none =>
      rw [hthermal] at hheat
      simp only [List.getElem?_map, Option.map_eq_some_iff] at hheat
      obtain ⟨_, _, rfl⟩ := hheat
      rfl

variable [Quantity α]

/-! ## One step -/

structure Rules.Step (rules : Rules α) (index : ℕ) (x : StepInput α) (s : State α) (r : Record α)
    (t : State α) : Prop where
  index_eq : r.index = index
  timestamp_eq : r.timestamp = x.timestamp
  generationOff_eq : r.generationOff = (rules.gating && s.off)
  solar_eq : r.solar = if r.generationOff then 0 else x.solar
  wind_eq : r.wind = if r.generationOff then 0 else x.wind
  chp_eq : r.chp = if r.generationOff then 0 else x.chp
  generation_eq : r.generation = r.solar + r.wind + r.chp
  demand_eq : r.demand = x.demand
  surplus_eq : r.surplus = r.generation - r.demand
  dispatch?_eq : rules.policy.dispatch? ⟨r.generation, r.demand, rules.hours⟩ s.battery =
    some (⟨r.batteryChange, r.gridExport, r.gridImport⟩, t.battery)
  batteryLevel_eq : r.batteryLevel = t.battery.level
  thermalStep?_eq : thermalStep? rules.hours x.chp x.thermalDemand s.thermal =
    some (r.thermal, t.thermal)
  off_eq : t.off = if rules.gating then nextOff s.off t.battery else s.off

theorem Rules.step_of_step? {rules : Rules α} {index : ℕ} {x : StepInput α} {s t : State α}
    {r : Record α} (h : rules.step? index x s = some (r, t)) : rules.Step index x s r t := by
  simp only [step?, Option.bind_eq_bind, Option.bind_eq_some_iff, Option.pure_def,
    Option.some.injEq, Prod.mk.injEq, Prod.exists] at h
  obtain ⟨exchange, battery, hdispatch, heat, thermal, hthermal, rfl, rfl⟩ := h
  exact ⟨rfl, rfl, rfl, rfl, rfl, rfl, rfl, rfl, rfl, hdispatch, rfl, hthermal, rfl⟩

/-! ## All steps -/

/-- The states of a run: one before every step, and one after the last. -/
theorem Rules.exists_states {rules : Rules α} {index : ℕ} {xs : List (StepInput α)} {s : State α}
    {rs : List (Record α)} (h : rules.steps? index xs s = some rs) :
    ∃ states : ℕ → State α, states 0 = s ∧ rs.length = xs.length ∧
      ∀ k x r, xs[k]? = some x → rs[k]? = some r →
        rules.Step (index + k) x (states k) r (states (k + 1)) := by
  induction xs generalizing index s rs with
  | nil =>
      obtain rfl : [] = rs := Option.some.inj h
      exact ⟨fun _ => s, rfl, rfl, fun k x r hx => absurd hx (by simp)⟩
  | cons x xs ih =>
      simp only [steps?, Option.bind_eq_bind, Option.bind_eq_some_iff, Option.pure_def,
        Option.some.injEq, Prod.exists] at h
      obtain ⟨r, t, hstep, rest, hrest, rfl⟩ := h
      obtain ⟨states, hstart, hlength, hsteps⟩ := ih hrest
      refine ⟨fun k => k.casesOn s states, rfl, by simp [hlength], ?_⟩
      intro k y q hy hq
      cases k with
      | zero =>
          obtain rfl : x = y := by simpa using hy
          obtain rfl : r = q := by simpa using hq
          change rules.Step index x s r (states 0)
          rw [hstart]
          exact step_of_step? hstep
      | succ k =>
          have hnext := hsteps k y q (by simpa using hy) (by simpa using hq)
          rwa [Nat.add_assoc, Nat.add_comm 1 k] at hnext

/-! ## Finished runs -/

variable [Quantity ω] [Widening α ω]

/-- What a run with a result went through: the profiles it was given and its states. -/
structure Finished (c : Config α) (w : Weather σ α) (s : σ) (result : Result α) (s' : σ)
    (p : Profiles α) (states : ℕ → State α) : Prop where
  accepted : c.Accepted
  profiles?_eq : c.profiles? w s = some (p, s')
  initial_eq : states 0 = c.initialState
  step : ∀ {k r}, result.records[k]? = some r →
    ∃ x, c.InputAt p k x ∧ c.rules.Step k x (states k) r (states (k + 1))
  hours_eq : result.hours = c.hours
  peakThreshold_eq : result.peakThreshold = c.peakThreshold?

theorem simulate_eq_ok {c : Config α} {w : Weather σ α} {s s' : σ} {result : Result α}
    (h : simulate c w s = (.ok result, s')) :
    c.validate = .ok () ∧ c.carryOut? w s = some (result, s') := by
  unfold simulate at h
  cases hvalidate : c.validate with
  | error r => simp [hvalidate] at h
  | ok u =>
      cases hcarry : c.carryOut? w s with
      | none => simp [hvalidate, hcarry] at h
      | some out => simpa [hvalidate, hcarry, Prod.ext_iff] using h

theorem simulate_of_carryOut? {c : Config α} {w : Weather σ α} {s s' : σ} {result : Result α}
    (hvalidate : c.validate = .ok ())
    (h : c.carryOut? w s = some (result, s')) : simulate c w s = (.ok result, s') := by
  simp [simulate, hvalidate, h]

/-- Accepted configurations with the same results, if any, have the same outcome. -/
theorem simulate_fst_congr {τ : Type} {c d : Config α} {w : Weather σ α} {v : Weather τ α} {s : σ}
    {t : τ} (hc : c.validate = .ok ()) (hd : d.validate = .ok ())
    (h : ∀ result, (∃ s', c.carryOut? w s = some (result, s')) ↔
      ∃ t', d.carryOut? v t = some (result, t')) :
    (simulate c w s).1 = (simulate d v t).1 := by
  cases hcarry : c.carryOut? w s with
  | some out =>
      obtain ⟨t', ht'⟩ := (h out.1).1 ⟨out.2, hcarry⟩
      rw [simulate_of_carryOut? hc hcarry, simulate_of_carryOut? hd ht']
  | none =>
      cases hcarry' : d.carryOut? v t with
      | some out =>
          obtain ⟨s', hs'⟩ := (h out.1).2 ⟨out.2, hcarry'⟩
          exact absurd (hcarry.symm.trans hs') (by simp)
      | none => simp [simulate, hc, hd, hcarry, hcarry']

theorem Config.carryOut?_eq_some_iff {c : Config α} {w : Weather σ α} {s s' : σ}
    {result : Result α} :
    c.carryOut? w s = some (result, s') ↔ ∃ p stamps records, c.profiles? w s = some (p, s') ∧
      c.clock.timestamps? = some stamps ∧
      c.rules.steps? 0 (c.inputs stamps p) c.initialState = some records ∧
      result = ⟨records, c.hours, c.initialState.battery.capacity,
        c.initialState.thermal.map (·.capacity), c.peakThreshold?⟩ := by
  simp only [carryOut?, Option.bind_eq_bind, Option.bind_eq_some_iff, Option.pure_def,
    Option.some.injEq, Prod.mk.injEq, Prod.exists]
  constructor
  · rintro ⟨p, _, hp, stamps, hstamps, records, hrecords, rfl, rfl⟩
    exact ⟨p, stamps, records, hp, hstamps, hrecords, rfl⟩
  · rintro ⟨p, stamps, records, hp, hstamps, hrecords, rfl⟩
    exact ⟨p, s', hp, stamps, hstamps, records, hrecords, rfl, rfl⟩

/-- A run with a result is finished. -/
theorem exists_finished {c : Config α} {w : Weather σ α} {s s' : σ} {result : Result α}
    (h : simulate c w s = (.ok result, s')) :
    ∃ p states, Finished c w s result s' p states := by
  obtain ⟨hvalidate, hcarry⟩ := simulate_eq_ok h
  obtain ⟨p, stamps, records, hprofiles, hstamps, hrecords, rfl⟩ :=
    Config.carryOut?_eq_some_iff.1 hcarry
  obtain ⟨states, hstart, hlength, hsteps⟩ := Rules.exists_states hrecords
  refine ⟨p, states, Config.accepted_of_validate hvalidate, hprofiles, hstart, ?_, rfl, rfl⟩
  intro k r hr
  have hk : k < (c.inputs stamps p).length := by
    rw [← hlength]
    exact (List.getElem?_eq_some_iff.1 hr).1
  have hx := List.getElem?_eq_getElem hk
  have hstep := hsteps k _ r hx hr
  rw [Nat.zero_add] at hstep
  exact ⟨_, (Config.inputAt hx).2, hstep⟩

theorem exists_states {c : Config α} {w : Weather σ α} {s s' : σ} {result : Result α}
    {p : Profiles α} (h : simulate c w s = (.ok result, s'))
    (hp : c.profiles? w s = some (p, s')) : ∃ states, Finished c w s result s' p states := by
  obtain ⟨p', states, hfinished⟩ := exists_finished h
  obtain ⟨rfl, -⟩ := Prod.mk.inj (Option.some.inj (hp.symm.trans hfinished.profiles?_eq))
  exact ⟨states, hfinished⟩

/-- What holds at the start and is kept by every step holds after any number of steps. -/
theorem Finished.invariant {c : Config α} {w : Weather σ α} {s s' : σ} {result : Result α}
    {p : Profiles α} {states : ℕ → State α} (h : Finished c w s result s' p states)
    (P : State α → Prop) (hstart : P c.initialState)
    (hstep : ∀ {k r x}, result.records[k]? = some r → c.InputAt p k x →
      c.rules.Step k x (states k) r (states (k + 1)) → P (states k) → P (states (k + 1))) :
    ∀ k ≤ result.records.length, P (states k) := by
  intro k
  induction k with
  | zero =>
      intro _
      rw [h.initial_eq]
      exact hstart
  | succ k ih =>
      intro hk
      have hr := List.getElem?_eq_getElem (l := result.records) (i := k) hk
      obtain ⟨x, hx, hstep'⟩ := h.step hr
      exact hstep hr hx hstep' (ih (Nat.le_of_succ_le hk))

variable {c : Config α} {w : Weather σ α} {s s' : σ} {result : Result α} {p : Profiles α}
  {states : ℕ → State α} {k : ℕ} {r : Record α}

/-- The first steps of a run are a run that was stopped. -/
theorem Finished.take (h : Finished c w s result s' p states) (n : ℕ) :
    Finished c w s { result with records := result.records.take n } s' p states where
  accepted := h.accepted
  profiles?_eq := h.profiles?_eq
  initial_eq := h.initial_eq
  step := by
    intro k r hr
    rw [List.getElem?_take] at hr
    split_ifs at hr
    exact h.step hr
  hours_eq := h.hours_eq
  peakThreshold_eq := h.peakThreshold_eq

theorem Finished.demand_getElem? (h : Finished c w s result s' p states)
    (hr : result.records[k]? = some r) : c.demand[k]? = some r.demand := by
  obtain ⟨x, hx, hstep⟩ := h.step hr
  rw [hstep.demand_eq]
  exact hx.demand_eq

/-- The battery stays the same store. -/
theorem Finished.sameStore (h : Finished c w s result s' p states)
    (hk : k ≤ result.records.length) :
    (states k).battery.SameStore (.new c.batteryCapacity c.batteryEfficiency) := by
  refine h.invariant
    (fun t => t.battery.SameStore (.new c.batteryCapacity c.batteryEfficiency)) ⟨rfl, rfl⟩ ?_ k hk
  intro k r x _ _ hstep hsame
  have hkeeps := c.rules.policy.dispatch?_keeps hstep.dispatch?_eq
  exact ⟨hkeeps.1.trans hsame.1, hkeeps.2.trans hsame.2⟩

theorem Finished.battery_capacity (h : Finished c w s result s' p states)
    (hk : k ≤ result.records.length) :
    (states k).battery.capacity = positivePart c.batteryCapacity :=
  (h.sameStore hk).1

theorem Finished.battery_efficiency (h : Finished c w s result s' p states)
    (hk : k ≤ result.records.length) :
    (states k).battery.efficiency = toShare c.batteryEfficiency :=
  (h.sameStore hk).2

theorem thermalStep?_none (hours chp : α) (demand : Option α) :
    thermalStep? hours chp demand none = some (none, none) := by
  cases demand <;> rfl

/-- Without thermal demand no thermal store appears. -/
theorem Finished.no_heat_step (h : Finished c w s result s' p states)
    (hr : result.records[k]? = some r) (hnone : (states k).thermal = none) :
    (states (k + 1)).thermal = none := by
  obtain ⟨x, -, hstep⟩ := h.step hr
  have hthermalStep := hstep.thermalStep?_eq
  rw [hnone, thermalStep?_none, Option.some.injEq, Prod.mk.injEq] at hthermalStep
  exact hthermalStep.2.symm

/-! ## Levels before a step -/

/-- The battery level before a step: zero at first, and then the level after the step before. -/
def Result.levelBefore (result : Result α) : ℕ → α
  | 0 => 0
  | k + 1 => (result.batteryLevels[k]?).getD 0

def Result.heatBefore (result : Result α) : ℕ → α
  | 0 => 0
  | k + 1 => ((result.records[k]?).bind fun r => r.thermal.map (·.level)).getD 0

/-- The state after a step has the level that its record reports. -/
theorem Finished.level_after (h : Finished c w s result s' p states)
    (hr : result.records[k]? = some r) : (states (k + 1)).battery.level = r.batteryLevel := by
  obtain ⟨x, -, hstep⟩ := h.step hr
  exact hstep.batteryLevel_eq.symm

theorem Finished.level_before (h : Finished c w s result s' p states)
    (hk : k ≤ result.records.length) : (states k).battery.level = result.levelBefore k := by
  cases k with
  | zero =>
      rw [h.initial_eq]
      rfl
  | succ k =>
      have hr := List.getElem?_eq_getElem (l := result.records) (i := k) hk
      rw [h.level_after hr, Result.levelBefore, Result.batteryLevels, List.getElem?_map, hr]
      rfl

/-! ## Checking a run -/

/-- A property of a result that can be computed also gives that there is one. -/
theorem exists_simulate_eq {P : Result α → Bool}
    (h : (simulate c w s).1.toOption.any P = true) :
    ∃ result, simulate c w s = (.ok result, (simulate c w s).2) ∧ P result = true := by
  rw [Option.any_eq_true] at h
  obtain ⟨result, hresult, hP⟩ := h
  refine ⟨result, Prod.ext ?_ rfl, hP⟩
  cases hout : (simulate c w s).1 with
  | error e => simp [hout, Except.toOption] at hresult
  | ok x => simpa [hout, Except.toOption] using hresult

theorem Finished.profiles_isFinite (h : Finished c w s result s' p states)
    (hall : ((c.profiles? w s).all fun out =>
      (out.1.solar ++ out.1.wind ++ out.1.chp).all isFinite) = true) :
    ∀ x ∈ p.solar ++ p.wind ++ p.chp, isFinite x = true := by
  rwa [h.profiles?_eq, Option.all_some, List.all_eq_true] at hall

/-- Six hours in which a generator behind a gate fills a battery that is drained in between, and
serves a thermal demand. -/
def sampleConfig : Config Float32 :=
  { Config.new .hourly ⟨⟨738000⟩, 0, 0⟩ [0, 0, 40, 40, 40, 0] with
    chpCapacity := 100
    batteryCapacity := 50
    thermalCapacity := 60
    thermalDemand := some [60, 120, 120, 60, 100, 100] }

end LocalGrid.Simulation
