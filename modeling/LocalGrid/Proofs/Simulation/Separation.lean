import LocalGrid.Proofs.Simulation.Completion

/-!
# The two stores of a run

The battery and the thermal store share the steps of a run and the output of CHP, and nothing else.
A run without its thermal demand goes through the same steps, and the thermal store alone, given
what CHP puts out, goes through the same levels. The gate does not reach the thermal store, and a
ramp limit does not change an output that is constant.
-/

namespace LocalGrid.Simulation

open Quantity

variable {σ τ α ω : Type}

/-! ## The electrical side: everything without the thermal store -/

def StepInput.electrical (x : StepInput α) : StepInput α := { x with thermalDemand := none }

def State.electrical (s : State α) : State α := { s with thermal := none }

def Record.electrical (r : Record α) : Record α := { r with thermal := none }

variable [Quantity α]

/-- A configuration without a thermal store: no thermal demand, and capacity and efficiency as they
are if nothing is said of them. -/
def Config.electrical (c : Config α) : Config α :=
  { c with thermalCapacity := 0, thermalEfficiency := 1, thermalDemand := none }

namespace Rules

variable {rules : Rules α} {index : ℕ} {xs : List (StepInput α)} {x : StepInput α} {s t : State α}
  {r : Record α} {rs : List (Record α)}

theorem step?_electrical (h : rules.step? index x s = some (r, t)) :
    rules.step? index x.electrical s.electrical = some (r.electrical, t.electrical) := by
  simp only [step?, Option.bind_eq_bind, Option.bind_eq_some_iff, Option.pure_def,
    Option.some.injEq, Prod.mk.injEq, Prod.exists] at h ⊢
  -- the dispatch does not read the thermal store
  obtain ⟨exchange, battery, hdispatch, heat, thermal, -, rfl, rfl⟩ := h
  exact ⟨exchange, battery, hdispatch, none, none, rfl, rfl, rfl⟩

theorem steps?_electrical (h : rules.steps? index xs s = some rs) :
    rules.steps? index (xs.map (·.electrical)) s.electrical =
      some (rs.map (·.electrical)) := by
  induction xs generalizing index s rs with
  | nil =>
      obtain rfl : [] = rs := Option.some.inj h
      rfl
  | cons x xs ih =>
      simp only [steps?, Option.bind_eq_bind, Option.bind_eq_some_iff, Option.pure_def,
        Option.some.injEq, Prod.exists] at h
      obtain ⟨r, t, hstep, rest, hrest, rfl⟩ := h
      simp [steps?, step?_electrical hstep, ih hrest]

end Rules

namespace Config

variable {c : Config α} {stamps : List Calendar.Timestamp} {p : Profiles α}

theorem inputs_electrical (h : c.Accepted) (hstamps : stamps.length = c.stepCount) :
    c.electrical.inputs stamps p = (c.inputs stamps p).map (·.electrical) := by
  unfold inputs electrical
  cases hthermal : c.thermalDemand with
  | none => apply List.ext_getElem <;> simp [StepInput.electrical]
  | some xs =>
      have hxs := h.length_thermalDemand xs hthermal
      apply List.ext_getElem <;> simp [StepInput.electrical, hstamps, hxs]

variable [Quantity ω] [Widening α ω] {w : Weather σ α} {v : Weather τ α} {s s' : σ} {t : τ}
  {result : Result α}

/-- Without its thermal store a run has the same records. -/
theorem carryOut?_electrical (h : c.Accepted) (hcarry : c.carryOut? w s = some (result, s')) :
    c.electrical.carryOut? w s =
      some ({ result with records := result.records.map (·.electrical), thermalCapacity := none },
        s') := by
  obtain ⟨p, stamps, records, hp, hstamps, hrecords, rfl⟩ := carryOut?_eq_some_iff.1 hcarry
  refine carryOut?_eq_some_iff.2 ⟨p, stamps, _, hp, hstamps, ?_, rfl⟩
  rw [inputs_electrical h (length_clock_timestamps? hstamps)]
  exact Rules.steps?_electrical hrecords

theorem profiles?_congr {p : Profiles α} (hdaylight : w.daylight = v.daylight)
    (hdraws : (Random.draws w.draw c.stepCount s).1 = (Random.draws v.draw c.stepCount t).1)
    (h : c.profiles? w s = some (p, s')) : ∃ t', c.profiles? v t = some (p, t') := by
  obtain ⟨stamps, hstamps, hsolar, hwind, hchp, -⟩ := profiles?_eq_some_iff.1 h
  have hsun : solarOutput v c.solarCapacity = solarOutput w c.solarCapacity := by
    funext hour
    rw [solarOutput, solarOutput, hdaylight]
  have hair : (c.windOutputs v stamps.length t).1 = (c.windOutputs w stamps.length s).1 := by
    simp only [windOutputs, length_clock_timestamps? hstamps]
    split_ifs
    · simp [hdraws]
    · rfl
  refine ⟨_, profiles?_eq_some_iff.2 ⟨stamps, hstamps, ?_, ?_, hchp, rfl⟩⟩
  · rw [solarOutputs, hsun]
    exact hsolar
  · rw [hair]
    exact hwind

/-- A run depends on the weather through the daylight and its draws only. -/
theorem carryOut?_congr (hdaylight : w.daylight = v.daylight)
    (hdraws : (Random.draws w.draw c.stepCount s).1 = (Random.draws v.draw c.stepCount t).1)
    (h : c.carryOut? w s = some (result, s')) : ∃ t', c.carryOut? v t = some (result, t') := by
  obtain ⟨p, stamps, records, hp, hrecords⟩ := carryOut?_eq_some_iff.1 h
  obtain ⟨t', hp'⟩ := profiles?_congr hdaylight hdraws hp
  exact ⟨t', carryOut?_eq_some_iff.2 ⟨p, stamps, records, hp', hrecords⟩⟩

theorem records_electrical_congr {d : Config α} {t' : τ} {other : Result α} (hc : c.Accepted)
    (hd : d.Accepted) (helectrical : c.electrical = d.electrical)
    (hdaylight : w.daylight = v.daylight)
    (hdraws : (Random.draws w.draw c.stepCount s).1 = (Random.draws v.draw c.stepCount t).1)
    (h : c.carryOut? w s = some (result, s')) (h' : d.carryOut? v t = some (other, t')) :
    result.records.map (·.electrical) = other.records.map (·.electrical) := by
  have hrun := carryOut?_electrical hc h
  have hrun' := carryOut?_electrical hd h'
  rw [← helectrical] at hrun'
  obtain ⟨p, stamps, records, hp, hstamps, hrecords, heq⟩ := carryOut?_eq_some_iff.1 hrun
  obtain ⟨p', stamps', records', hp', hstamps', hrecords', heq'⟩ := carryOut?_eq_some_iff.1 hrun'
  obtain ⟨t'', hp''⟩ := profiles?_congr (c := c.electrical) hdaylight hdraws hp
  obtain ⟨rfl, -⟩ := Prod.mk.inj (Option.some.inj (hp''.symm.trans hp'))
  obtain rfl : stamps = stamps' := Option.some.inj (hstamps.symm.trans hstamps')
  obtain rfl : records = records' := Option.some.inj (hrecords.symm.trans hrecords')
  exact (congrArg Result.records heq).trans (congrArg Result.records heq').symm

end Config

/-! ## The thermal side -/

/-- The thermal records of consecutive steps, made from their CHP outputs and thermal demands
alone. -/
def heatSteps? (hours : α) : List (α × Option α) → Option (Pool α) →
    Option (List (Option (ThermalRecord α)))
  | [], _ => some []
  | (chp, demand) :: rest, thermal => do
    let (heat, thermal) ← thermalStep? hours chp demand thermal
    let heats ← heatSteps? hours rest thermal
    pure (heat :: heats)

def StepInput.heat (x : StepInput α) : α × Option α := (x.chp, x.thermalDemand)

theorem Rules.heatSteps?_of_steps? {rules : Rules α} {index : ℕ} {xs : List (StepInput α)}
    {s : State α} {rs : List (Record α)} (h : rules.steps? index xs s = some rs) :
    heatSteps? rules.hours (xs.map (·.heat)) s.thermal = some (rs.map (·.thermal)) := by
  induction xs generalizing index s rs with
  | nil =>
      obtain rfl : [] = rs := Option.some.inj h
      rfl
  | cons x xs ih =>
      simp only [steps?, Option.bind_eq_bind, Option.bind_eq_some_iff, Option.pure_def,
        Option.some.injEq, Prod.exists] at h
      obtain ⟨r, t, hstep, rest, hrest, rfl⟩ := h
      have hheat := (step_of_step? hstep).thermalStep?_eq
      change heatSteps? rules.hours ((x.chp, x.thermalDemand) :: xs.map (·.heat)) s.thermal = _
      simp [heatSteps?, hheat, ih hrest]

namespace Config

variable {c d : Config α} {stamps : List Calendar.Timestamp} {p : Profiles α}

def heatDemands (c : Config α) : List (Option α) :=
  match c.thermalDemand with
  | some xs => xs.map some
  | none => List.replicate c.stepCount none

theorem inputs_heat (h : c.Accepted) (hstamps : stamps.length = c.stepCount)
    (hp : p.Covers c.stepCount) : (c.inputs stamps p).map (·.heat) = p.chp.zip c.heatDemands := by
  unfold inputs heatDemands
  cases hthermal : c.thermalDemand with
  | none =>
      apply List.ext_getElem <;>
        simp [StepInput.heat, hstamps, hp.length_solar, hp.length_wind, hp.length_chp,
          h.length_demand]
  | some xs =>
      have hxs := h.length_thermalDemand xs hthermal
      apply List.ext_getElem <;>
        simp [StepInput.heat, hstamps, hp.length_solar, hp.length_wind, hp.length_chp,
          h.length_demand, hxs]

variable [RoundedQuantity α] [Quantity ω] [Widening α ω] {w : Weather σ α} {s s' : σ}
  {result : Result α}

/-- The thermal records of a run are those of the thermal store alone, given the constant output of
CHP. -/
theorem heatSteps?_of_carryOut? (h : c.Accepted)
    (hcarry : c.carryOut? w s = some (result, s')) :
    heatSteps? c.hours ((c.chpOutputs c.stepCount).zip c.heatDemands) c.initialState.thermal =
      some (result.records.map (·.thermal)) := by
  obtain ⟨p, stamps, records, hp, hstamps, hrecords, rfl⟩ := carryOut?_eq_some_iff.1 hcarry
  have hheat := Rules.heatSteps?_of_steps? hrecords
  rwa [inputs_heat h (length_clock_timestamps? hstamps) (covers_of_profiles? hp),
    chp_of_profiles? h hp] at hheat

end Config

/-! ## Single precision -/

/-- Two runs whose configurations differ on the thermal side only have the same electrical records
in the same weather. Two runs that share the thermal side, the steps and the CHP have the same
thermal records, whatever else they are given. -/
theorem stores_separate {c d : Config Float32} {w : Weather σ Float32} {v : Weather τ Float32}
    {s s' : σ} {t t' : τ} {result other : Result Float32}
    (h : simulate c w s = (.ok result, s')) (h' : simulate d v t = (.ok other, t')) :
    (c.electrical = d.electrical → w.daylight = v.daylight →
      (Random.draws w.draw c.stepCount s).1 = (Random.draws v.draw c.stepCount t).1 →
      result.records.map (·.electrical) = other.records.map (·.electrical)) ∧
    (c.stepCount = d.stepCount → c.stepDuration = d.stepDuration →
      c.chpCapacity = d.chpCapacity → c.useChp = d.useChp → c.thermalDemand = d.thermalDemand →
      c.thermalCapacity = d.thermalCapacity → c.thermalEfficiency = d.thermalEfficiency →
      result.records.map (·.thermal) = other.records.map (·.thermal)) := by
  obtain ⟨hvalidate, hcarry⟩ := simulate_eq_ok h
  obtain ⟨hvalidate', hcarry'⟩ := simulate_eq_ok h'
  have hc := Config.accepted_of_validate hvalidate
  have hd := Config.accepted_of_validate hvalidate'
  constructor
  · intro helectrical hdaylight hdraws
    exact Config.records_electrical_congr hc hd helectrical hdaylight hdraws hcarry hcarry'
  · intro hsteps hduration hcapacity huse hdemand hthermal hefficiency
    have hheat := Config.heatSteps?_of_carryOut? hc hcarry
    have hheat' := Config.heatSteps?_of_carryOut? hd hcarry'
    have hhours : c.hours = d.hours := congrArg StepDuration.hours hduration
    have hchp : c.chpOutputs c.stepCount = d.chpOutputs d.stepCount := by
      simp only [Config.chpOutputs, hsteps, hcapacity, huse]
    have hdemands : c.heatDemands = d.heatDemands := by
      simp only [Config.heatDemands, hdemand, hsteps]
    have hstore : c.initialState.thermal = d.initialState.thermal := by
      simp only [Config.initialState, hdemand, hthermal, hefficiency]
    rw [hhours, hchp, hdemands, hstore] at hheat
    exact Option.some.inj (hheat.symm.trans hheat')

def electricalConfig : Config Float32 :=
  { sampleConfig with
    thermalCapacity := 7
    thermalEfficiency := 0
    thermalDemand := none }

/-- The thermal side of the sample configuration in another run: no gate, other demand, other
generators, a limit on the CHP, and a later start. -/
def heatConfig : Config Float32 :=
  { sampleConfig with
    start := ⟨⟨738100⟩, 43200, 0⟩
    solarCapacity := 20
    windCapacity := 10
    rampRate := 0
    ramp := .windAndChp
    gating := false
    seed := 5
    demand := [1, 2, 3, 4, 5, 6] }

/-- The sample run keeps its battery without heat, and its heat beside another battery. -/
theorem stores_separate_sample : ∃ result electrical heat s' t' u',
    simulate sampleConfig Weather.standard (Wind.replay []) = (.ok result, s') ∧
    simulate electricalConfig Weather.standard (Wind.replay [0]) = (.ok electrical, t') ∧
    simulate heatConfig Weather.standard (Wind.replay [1, 2]) = (.ok heat, u') ∧
    result.batteryLevels ≠ heat.batteryLevels ∧
    result.records.map (·.electrical) = electrical.records.map (·.electrical) ∧
    result.records.map (·.thermal) = heat.records.map (·.thermal) := by
  obtain ⟨result, h, hlevels⟩ := exists_simulate_eq (c := sampleConfig) (w := Weather.standard)
    (s := Wind.replay [])
    (P := fun result : Result Float32 =>
      decide (result.batteryLevels = [50, 50, 10, 0, 50, 50]))
    (by decide +kernel)
  obtain ⟨electrical, he, -⟩ := exists_simulate_eq (c := electricalConfig) (w := Weather.standard)
    (s := Wind.replay [0]) (P := fun _ => true) (by decide +kernel)
  obtain ⟨heat, hh, hlevels'⟩ := exists_simulate_eq (c := heatConfig) (w := Weather.standard)
    (s := Wind.replay [1, 2])
    (P := fun result : Result Float32 =>
      decide (result.batteryLevels ≠ [50, 50, 10, 0, 50, 50]))
    (by decide +kernel)
  have helectrical : sampleConfig.electrical = electricalConfig.electrical := by
    simp only [Config.electrical, electricalConfig]
  have hdraws : (Random.draws Weather.standard.draw sampleConfig.stepCount (Wind.replay [])).1 =
      (Random.draws Weather.standard.draw sampleConfig.stepCount (Wind.replay [0])).1 := by
    decide +kernel
  refine ⟨result, electrical, heat, _, _, _, h, he, hh, ?_,
    (stores_separate h he).1 helectrical rfl hdraws,
    (stores_separate h hh).2 rfl rfl rfl rfl rfl rfl rfl⟩
  rw [of_decide_eq_true hlevels]
  exact (of_decide_eq_true hlevels').symm

end LocalGrid.Simulation
