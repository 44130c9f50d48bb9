import LocalGrid.Proofs.Simulation.Completion

/-!
# Finite records

The draws of the wind have no bound, so a sum of outputs may overflow. Until that happens every
value of a record is finite: the levels fit into finite stores, and the exchange with the grid is at
most the energy of a finite power.
-/

namespace LocalGrid.Simulation

open Quantity RoundedQuantity

variable {σ α ω : Type} [Quantity α]

structure ThermalRecord.IsFinite (r : ThermalRecord α) : Prop where
  level : isFinite r.level = true
  change : isFinite r.change = true
  demand : isFinite r.demand = true

/-- A record in which nothing is infinite and nothing is no number. -/
structure Record.IsFinite (r : Record α) : Prop where
  solar : isFinite r.solar = true
  wind : isFinite r.wind = true
  chp : isFinite r.chp = true
  generation : isFinite r.generation = true
  demand : isFinite r.demand = true
  surplus : isFinite r.surplus = true
  batteryLevel : isFinite r.batteryLevel = true
  batteryChange : isFinite r.batteryChange = true
  gridExport : isFinite r.gridExport = true
  gridImport : isFinite r.gridImport = true
  thermal : ∀ heat, r.thermal = some heat → heat.IsFinite

theorem demand_of_heatStep? {hours chp demand : α} {pool q : Pool α} {heat : ThermalRecord α}
    (h : heatStep? hours chp demand pool = some (heat, q)) : heat.demand = demand := by
  simp only [heatStep?, Option.bind_eq_bind, Option.pure_def] at h
  split_ifs at h <;>
  · obtain ⟨⟨change, q'⟩, -, hheat⟩ := Option.bind_eq_some_iff.1 h
    obtain ⟨rfl, -⟩ := Prod.mk.inj (Option.some.inj hheat)
    rfl

theorem demand_of_thermalStep? {hours chp : α} {demand : Option α} {thermal next : Option (Pool α)}
    {heat : ThermalRecord α} (h : thermalStep? hours chp demand thermal = some (some heat, next)) :
    demand = some heat.demand := by
  cases thermal with
  | none => cases demand <;> simp [thermalStep?] at h
  | some pool =>
      cases demand with
      | none => simp [thermalStep?] at h
      | some d =>
          obtain ⟨⟨heat', q⟩, hq, heq⟩ := Option.map_eq_some_iff.1 h
          obtain ⟨hheat, -⟩ := Prod.mk.inj heq
          rw [← Option.some.inj hheat, demand_of_heatStep? hq]

section

variable [RoundedQuantity α] [Quantity ω] [Widening α ω] {c : Config α} {w : Weather σ α}
  {s s' : σ} {result : Result α} {p : Profiles α} {states : ℕ → State α} {k : ℕ} {r : Record α}

theorem Finished.outputs_nonneg (h : Finished c w s result s' p states)
    (hp : p.Sound) (hr : result.records[k]? = some r) :
    0 ≤ r.solar ∧ 0 ≤ r.wind ∧ 0 ≤ r.chp ∧ 0 ≤ r.generation := by
  obtain ⟨x, hx, hstep⟩ := h.step hr
  have hgate : ∀ {y : α}, 0 ≤ y → 0 ≤ if r.generationOff then 0 else y := by
    intro y hy
    split_ifs
    · exact isNumber_zero
    · exact hy
  have hsolar := hgate (hp.solar_nonneg x.solar (List.mem_of_getElem? hx.solar_eq))
  have hwind := hgate (hp.wind_nonneg x.wind (List.mem_of_getElem? hx.wind_eq))
  have hchp := hgate (hp.chp_nonneg x.chp (List.mem_of_getElem? hx.chp_eq))
  rw [← hstep.solar_eq] at hsolar
  rw [← hstep.wind_eq] at hwind
  rw [← hstep.chp_eq] at hchp
  rw [hstep.generation_eq]
  exact ⟨hsolar, hwind, hchp, nonneg_add (nonneg_add hsolar hwind) hchp⟩

/-- A finite generation is a sum of finite outputs. -/
theorem Finished.outputs_isFinite (h : Finished c w s result s' p states)
    (hp : p.Sound) (hr : result.records[k]? = some r)
    (hgeneration : isFinite r.generation = true) :
    isFinite r.solar = true ∧ isFinite r.wind = true ∧ isFinite r.chp = true := by
  obtain ⟨hsolar, hwind, hchp, -⟩ := h.outputs_nonneg hp hr
  obtain ⟨x, -, hstep⟩ := h.step hr
  rw [hstep.generation_eq] at hgeneration
  obtain ⟨hsum, hchpfinite⟩ := isFinite_of_add (nonneg_add hsolar hwind) hchp hgeneration
  obtain ⟨hsolarfinite, hwindfinite⟩ := isFinite_of_add hsolar hwind hsum
  exact ⟨hsolarfinite, hwindfinite, hchpfinite⟩

theorem Finished.battery_isFinite (h : Finished c w s result s' p states)
    (hf : FinitePowers c result p) (hr : result.records[k]? = some r) :
    isFinite r.batteryLevel = true ∧ isFinite r.batteryChange = true := by
  have hk := (List.getElem?_eq_some_iff.1 hr).1
  have hbefore := (h.sound hf hk.le).battery
  have hafter := (h.sound hf hk).battery
  obtain ⟨-, -, hchange⟩ := h.battery_record hf hr
  rw [hchange, ← h.level_before hk.le, ← h.level_after hr]
  exact ⟨hafter.isFinite_level, isFinite_sub hafter.isFinite_level hbefore.isFinite_level
    hafter.level_nonneg hbefore.level_nonneg⟩

theorem Finished.exchange_isFinite (h : Finished c w s result s' p states)
    (hp : p.Sound) (hf : FinitePowers c result p)
    (hr : result.records[k]? = some r) :
    isFinite r.gridExport = true ∧ isFinite r.gridImport = true := by
  have hk := (List.getElem?_eq_some_iff.1 hr).1
  have hbalance := h.balance_sound hf hr
  obtain ⟨-, -, -, hnonneg⟩ := h.outputs_nonneg hp hr
  obtain ⟨x, -, hstep⟩ := h.step hr
  obtain ⟨⟨hexport0, hexport⟩, himport0, himport⟩ := c.rules.policy.dispatch?_exchange
    (h.sound hf hk.le).battery hbalance hnonneg hstep.dispatch?_eq
  exact ⟨isFinite_of_le_of_le isFinite_zero hbalance.isFinite_surplus hexport0 hexport,
    isFinite_of_le_of_le isFinite_zero (hbalance.deficit_bounds hnonneg).2 himport0 himport⟩

omit [RoundedQuantity α] in
theorem Finished.demand_of_heat (h : Finished c w s result s' p states)
    (hr : result.records[k]? = some r) {heat : ThermalRecord α} (hheat : r.thermal = some heat) :
    c.thermalDemand.isSome = true ∧ isBadDemand heat.demand = false := by
  obtain ⟨x, hx, hstep⟩ := h.step hr
  have hdemand := demand_of_thermalStep? (hheat ▸ hstep.thermalStep?_eq)
  have hat := hx.thermalDemand_eq
  rw [Config.ThermalDemandAt, hdemand] at hat
  cases hthermal : c.thermalDemand with
  | none => simp [hthermal] at hat
  | some xs =>
      rw [hthermal] at hat
      obtain ⟨d, hd, heq⟩ := hat
      rw [Option.some.inj heq]
      exact ⟨rfl, h.accepted.thermalDemand xs hthermal d (List.mem_of_getElem? hd)⟩

theorem Finished.heat_isFinite (h : Finished c w s result s' p states)
    (hf : FinitePowers c result p) (hr : result.records[k]? = some r) {heat : ThermalRecord α}
    (hheat : r.thermal = some heat) : heat.IsFinite := by
  have hbefore := h.sound hf (List.getElem?_eq_some_iff.1 hr).1.le
  obtain ⟨hsome, hdemand⟩ := h.demand_of_heat hr hheat
  obtain ⟨pool, hpool⟩ := Option.isSome_iff_exists.1 (hbefore.isSome_thermal.trans hsome)
  obtain ⟨hpoolwell, -⟩ := hbefore.thermal pool hpool
  obtain ⟨d, q, hrecord, -, hfollows⟩ := h.heat_step hf hr hpool hpoolwell hsome
  have hq := hfollows.wellFormed
  have hchange := isFinite_sub hq.isFinite_level hpoolwell.isFinite_level hq.level_nonneg
    hpoolwell.level_nonneg
  obtain rfl := Option.some.inj (hheat.symm.trans hrecord)
  exact ⟨hq.isFinite_level, hchange, isFinite_of_isBadDemand hdemand⟩

/-- If no generation of a run overflows, all of its records are finite. -/
theorem Finished.isFinite_record (h : Finished c w s result s' p states)
    (hp : p.Sound) (hf : FinitePowers c result p)
    (hr : result.records[k]? = some r) : r.IsFinite := by
  have hbalance := h.balance_sound hf hr
  obtain ⟨-, -, -, hnonneg⟩ := h.outputs_nonneg hp hr
  obtain ⟨hsolar, hwind, hchp⟩ := h.outputs_isFinite hp hr hbalance.isFinite_generation
  obtain ⟨hlevel, hchange⟩ := h.battery_isFinite hf hr
  obtain ⟨hexport, himport⟩ := h.exchange_isFinite hp hf hr
  obtain ⟨x, -, hstep⟩ := h.step hr
  refine ⟨hsolar, hwind, hchp, hbalance.isFinite_generation, hbalance.isFinite_demand, ?_, hlevel,
    hchange, hexport, himport, fun heat hheat => h.heat_isFinite hf hr hheat⟩
  rw [hstep.surplus_eq]
  exact isFinite_sub hbalance.isFinite_generation hbalance.isFinite_demand hnonneg
    hbalance.demand_nonneg

end

/-! ## Single precision -/

/-- In a run with finite draws no generation is negative or no number, and every record is finite up
to the first step whose generation overflows. So all of them are finite exactly if none overflows. -/
theorem finite_until_overflow {c : Config Float32} {draw : σ → Float32 × σ} {s s' : σ}
    {result : Result Float32} (h : simulate c ⟨halfWave, draw⟩ s = (.ok result, s'))
    (hdraws : ∀ x ∈ (Random.draws draw c.stepCount s).1, isFinite x = true) :
    (∀ r ∈ result.records, 0 ≤ r.generation) ∧
    (∀ (k : ℕ) (r : Record Float32), result.records[k]? = some r →
      (∀ j ≤ k, ∀ q, result.records[j]? = some q → isFinite q.generation = true) → r.IsFinite) ∧
    ((∀ r ∈ result.records, r.IsFinite) ↔ ∀ r ∈ result.records, isFinite r.generation = true) := by
  obtain ⟨p, states, hfinished⟩ := exists_finished h
  have hp := Config.sound_of_profiles? (w := ⟨halfWave, draw⟩) hfinished.accepted
    isShare_halfWave hdraws hfinished.profiles?_eq
  refine ⟨?_, ?_, fun hall r hr => (hall r hr).generation, ?_⟩
  · intro r hr
    obtain ⟨k, hk⟩ := List.getElem?_of_mem hr
    exact (hfinished.outputs_nonneg hp hk).2.2.2
  · intro k r hr hbefore
    -- the run that stops after this step has finite powers
    have hf : FinitePowers c { result with records := result.records.take (k + 1) } p := by
      refine ⟨isStepLength_single c.stepDuration, hp.isFinite_chp, ?_⟩
      intro q hq
      obtain ⟨j, hj⟩ := List.getElem?_of_mem hq
      rw [List.getElem?_take] at hj
      split_ifs at hj with hlt
      exact hbefore j (Nat.lt_succ_iff.1 hlt) q hj
    have hlast : (result.records.take (k + 1))[k]? = some r := by
      rw [List.getElem?_take_of_lt k.lt_succ_self, hr]
    exact (hfinished.take (k + 1)).isFinite_record hp hf hlast
  · intro hall r hr
    obtain ⟨k, hk⟩ := List.getElem?_of_mem hr
    exact hfinished.isFinite_record hp
      ⟨isStepLength_single c.stepDuration, hp.isFinite_chp, hall⟩ hk

/-- An infinite wind in the second of two hours leaves the record of the first one finite. -/
theorem finite_until_overflow_lastHours : ∃ result s',
    simulate lastHours ⟨halfWave, Wind.draw⟩ (Wind.replay [0, 2]) = (.ok result, s') ∧
      (∀ x ∈ (Random.draws Wind.draw lastHours.stepCount (Wind.replay [0, 2])).1,
        isFinite x = true) ∧
      (∃ r, result.records[0]? = some r ∧ r.IsFinite) ∧ ¬ ∀ r ∈ result.records, r.IsFinite := by
  have hdraws : ∀ x ∈ (Random.draws Wind.draw lastHours.stepCount (Wind.replay [0, 2])).1,
      isFinite x = true := by decide +kernel
  obtain ⟨result, h, hresult⟩ := exists_simulate_eq (c := lastHours)
    (w := ⟨halfWave, Wind.draw⟩) (s := Wind.replay [0, 2])
    (P := fun result : Result Float32 =>
      (result.records[0]?).any (fun r => isFinite r.generation) &&
        !(result.records.all fun r => isFinite r.generation))
    (by decide +kernel)
  obtain ⟨hfirst, hlast⟩ := Bool.and_eq_true_iff.1 hresult
  obtain ⟨r, hr, hgeneration⟩ := (Option.any_eq_true _ _).1 hfirst
  obtain ⟨-, hbefore, hall⟩ := finite_until_overflow h hdraws
  refine ⟨result, _, h, hdraws, ⟨r, hr, hbefore 0 r hr ?_⟩, ?_⟩
  · intro j hj q hq
    obtain rfl := Nat.le_zero.1 hj
    obtain rfl := Option.some.inj (hr.symm.trans hq)
    exact hgeneration
  · rw [hall, ← List.all_eq_true]
    simpa using hlast

def overflowConfig : Config Float32 :=
  { Config.new .hourly ⟨⟨738000⟩, 43200, 0⟩ [0, 0] with
    solarCapacity := 3e38
    chpCapacity := 3e38
    batteryCapacity := 10
    batteryEfficiency := 0
    gating := false }

/-- Two finite capacities overflow in their sum. A battery that stores none of the infinite surplus
is left with a level that is no number. -/
theorem overflow_poisons_level : ∃ result s',
    simulate overflowConfig ⟨halfWave, Wind.draw⟩ (Wind.replay [0]) = (.ok result, s') ∧
      (∀ x ∈ (Random.draws Wind.draw overflowConfig.stepCount (Wind.replay [0])).1,
        isFinite x = true) ∧
      result.records.length = 2 ∧
      ∀ r ∈ result.records, isNaN r.batteryLevel = true ∧ isFinite r.generation = false := by
  obtain ⟨result, h, hresult⟩ := exists_simulate_eq (c := overflowConfig)
    (w := ⟨halfWave, Wind.draw⟩) (s := Wind.replay [0])
    (P := fun result : Result Float32 => decide (result.records.length = 2 ∧
      ∀ r ∈ result.records, isNaN r.batteryLevel = true ∧ isFinite r.generation = false))
    (by decide +kernel)
  exact ⟨result, _, h, by decide +kernel, of_decide_eq_true hresult⟩

end LocalGrid.Simulation
