import LocalGrid.Proofs.Quantity.Readings
import LocalGrid.Proofs.Simulation.Profiles
import LocalGrid.Proofs.Simulation.Trace

/-!
# Levels of a run

As long as generation stays finite, the battery and the thermal store of a run are well formed
between all steps, so their levels stay between zero and their capacities, and every record reports
the difference of two levels.
-/

namespace LocalGrid.Simulation

open Quantity RoundedQuantity

variable {σ α ω : Type} [Quantity α]

/-! ## The thermal store -/

section

variable {hours chp demand change : α} {pool q : Pool α}

theorem heatStep?_of_charge? (hnet : 0 < (chp - demand) * hours)
    (h : pool.charge? ((chp - demand) * hours) = some (change, q)) :
    heatStep? hours chp demand pool = some (⟨q.level, change, demand⟩, q) := by
  simp [heatStep?, hnet, h]

theorem heatStep?_of_discharge? (hnet : ¬ 0 < (chp - demand) * hours)
    (h : pool.discharge? (-((chp - demand) * hours)) = some (change, q)) :
    heatStep? hours chp demand pool = some (⟨q.level, -change, demand⟩, q) := by
  simp [heatStep?, hnet, h]

/-- A step of the thermal store keeps it well formed and reports the difference of its levels. -/
theorem heatStep?_spec [RoundedQuantity α] (hp : pool.WellFormed) (hchp : isFinite chp = true)
    (hdemand : 0 ≤ demand) (hh : IsStepLength hours) :
    ∃ q, heatStep? hours chp demand pool =
      some (⟨q.level, q.level - pool.level, demand⟩, q) ∧ q.Follows pool := by
  by_cases hnet : 0 < (chp - demand) * hours
  · obtain ⟨q, hq, hfollows, -⟩ :=
      Pool.charge?_spec hp (isFinite_positivePart_energy hchp hdemand hh)
    exact ⟨q, heatStep?_of_charge? hnet hq, hfollows⟩
  · obtain ⟨q, hq, hfollows, -⟩ := Pool.discharge?_spec hp (-((chp - demand) * hours))
    refine ⟨q, ?_, hfollows⟩
    rw [heatStep?_of_discharge? hnet hq, RoundedQuantity.neg_neg]

end

/-! ## The invariant -/

/-- The stores of a state are well formed, and there is a thermal store if there is thermal
demand. -/
structure State.Sound (c : Config α) (t : State α) : Prop where
  battery : t.battery.WellFormed
  thermal : ∀ pool, t.thermal = some pool →
    pool.WellFormed ∧ pool.capacity = positivePart c.thermalCapacity
  isSome_thermal : t.thermal.isSome = c.thermalDemand.isSome

/-- What the levels of a run depend on: the length of a step and finite powers. -/
structure FinitePowers (c : Config α) (result : Result α) (p : Profiles α) : Prop where
  isStepLength : IsStepLength c.hours
  chp : ∀ x ∈ p.chp, isFinite x = true
  generation : ∀ r ∈ result.records, isFinite r.generation = true

variable [RoundedQuantity α] [Quantity ω] [Widening α ω] {c : Config α} {w : Weather σ α}
  {s s' : σ} {result : Result α} {p : Profiles α} {states : ℕ → State α} {k : ℕ} {r : Record α}

theorem Config.sound_initialState (h : c.Accepted) : c.initialState.Sound c where
  battery := Pool.wellFormed_new h.batteryCapacity.isFinite h.batteryEfficiency
  thermal := by
    intro pool hpool
    obtain ⟨_, _, rfl⟩ := Option.map_eq_some_iff.1 hpool
    exact ⟨Pool.wellFormed_new h.thermalCapacity.isFinite h.thermalEfficiency, rfl⟩
  isSome_thermal := by simp [Config.initialState]

theorem Finished.finitePowers (h : Finished c w s result s' p states)
    (hhours : IsStepLength c.hours)
    (hgeneration : ∀ r ∈ result.records, isFinite r.generation = true) :
    FinitePowers c result p :=
  ⟨hhours, fun x hx => (Config.chp_sound h.accepted h.profiles?_eq x hx).2, hgeneration⟩

/-- The balance of a step of an accepted run. -/
theorem Finished.balance_sound (h : Finished c w s result s' p states)
    (hf : FinitePowers c result p) (hr : result.records[k]? = some r) :
    (⟨r.generation, r.demand, c.hours⟩ : Balance α).Sound := by
  have hdemand := h.accepted.demand r.demand (List.mem_of_getElem? (h.demand_getElem? hr))
  exact ⟨hf.generation r (List.mem_of_getElem? hr), isFinite_of_isBadDemand hdemand,
    nonneg_of_isBadDemand hdemand, hf.isStepLength⟩

/-- What a thermal step does in a run with thermal demand. -/
theorem Finished.heat_step (h : Finished c w s result s' p states)
    (hf : FinitePowers c result p) (hr : result.records[k]? = some r) {pool : Pool α}
    (hpool : (states k).thermal = some pool) (hp : pool.WellFormed)
    (hthermal : c.thermalDemand.isSome = true) :
    ∃ d q, r.thermal = some ⟨q.level, q.level - pool.level, d⟩ ∧
      (states (k + 1)).thermal = some q ∧ q.Follows pool := by
  obtain ⟨x, hx, hstep⟩ := h.step hr
  obtain ⟨xs, hxs⟩ := Option.isSome_iff_exists.1 hthermal
  have hat := hx.thermalDemand_eq
  rw [Config.ThermalDemandAt, hxs] at hat
  obtain ⟨d, hd, hxd⟩ := hat
  have hdemand := h.accepted.thermalDemand xs hxs d (List.mem_of_getElem? hd)
  obtain ⟨q, hq, hfollows⟩ := heatStep?_spec hp (hf.chp x.chp (List.mem_of_getElem? hx.chp_eq))
    (nonneg_of_isBadDemand hdemand) hf.isStepLength
  have hthermalStep := hstep.thermalStep?_eq
  rw [hpool, hxd] at hthermalStep
  have hrules : c.rules.hours = c.hours := rfl
  simp only [thermalStep?, hrules, hq, Option.map_some, Option.some.injEq,
    Prod.mk.injEq] at hthermalStep
  exact ⟨d, q, hthermalStep.1.symm, hthermalStep.2.symm, hfollows⟩

/-- The state before every step is sound, and so is the one after the last. -/
theorem Finished.sound (h : Finished c w s result s' p states) (hf : FinitePowers c result p)
    (hk : k ≤ result.records.length) : (states k).Sound c := by
  induction k with
  | zero =>
      rw [h.initial_eq]
      exact Config.sound_initialState h.accepted
  | succ k ih =>
      specialize ih (Nat.le_of_succ_le hk)
      have hr := List.getElem?_eq_getElem (l := result.records) (i := k) hk
      obtain ⟨x, -, hstep⟩ := h.step hr
      have hbalance := h.balance_sound hf hr
      obtain ⟨y, q, hdispatch, -, hfollows⟩ := c.rules.policy.dispatch?_spec ih.battery hbalance
      obtain ⟨-, rfl⟩ := Prod.mk.inj (Option.some.inj (hdispatch.symm.trans hstep.dispatch?_eq))
      cases hthermal : c.thermalDemand.isSome with
      | true =>
          obtain ⟨pool, hpool⟩ := Option.isSome_iff_exists.1 (ih.isSome_thermal.trans hthermal)
          obtain ⟨hp, hcapacity⟩ := ih.thermal pool hpool
          obtain ⟨d, q, -, hq, hqfollows⟩ := h.heat_step hf hr hpool hp hthermal
          refine ⟨hfollows.wellFormed, ?_, by rw [hq, hthermal]; rfl⟩
          intro pool' hpool'
          obtain rfl : q = pool' := Option.some.inj (hq.symm.trans hpool')
          exact ⟨hqfollows.wellFormed, hqfollows.capacity_eq.trans hcapacity⟩
      | false =>
          have hnone : (states k).thermal = none :=
            Option.not_isSome_iff_eq_none.1 (by simp [ih.isSome_thermal, hthermal])
          have hnone' := h.no_heat_step hr hnone
          exact ⟨hfollows.wellFormed, by simp [hnone'], by simp [hnone', hthermal]⟩

/-- A record of a sound run: its levels fit, and its changes are differences of levels. -/
theorem Finished.battery_record (h : Finished c w s result s' p states)
    (hf : FinitePowers c result p) (hr : result.records[k]? = some r) :
    0 ≤ r.batteryLevel ∧ r.batteryLevel ≤ positivePart c.batteryCapacity ∧
      r.batteryChange = r.batteryLevel - result.levelBefore k := by
  have hk := (List.getElem?_eq_some_iff.1 hr).1
  have hbefore := h.sound hf hk.le
  have hafter := (h.sound hf hk).battery
  obtain ⟨x, -, hstep⟩ := h.step hr
  have hbalance := h.balance_sound hf hr
  obtain ⟨y, q, hdispatch, hchange, -⟩ :=
    c.rules.policy.dispatch?_spec hbefore.battery hbalance
  obtain ⟨rfl, rfl⟩ := Prod.mk.inj (Option.some.inj (hdispatch.symm.trans hstep.dispatch?_eq))
  rw [← h.level_before hk.le, hstep.batteryLevel_eq]
  refine ⟨hafter.level_nonneg, ?_, hchange⟩
  rw [← h.battery_capacity hk]
  exact hafter.level_le_capacity

theorem Finished.heat_before (h : Finished c w s result s' p states)
    (hf : FinitePowers c result p) (hthermal : c.thermalDemand.isSome = true)
    (hk : k ≤ result.records.length) {pool : Pool α}
    (hpool : (states k).thermal = some pool) : pool.level = result.heatBefore k := by
  cases k with
  | zero =>
      rw [h.initial_eq] at hpool
      obtain ⟨_, _, rfl⟩ := Option.map_eq_some_iff.1 hpool
      rfl
  | succ k =>
      have hr := List.getElem?_eq_getElem (l := result.records) (i := k) hk
      have hbefore := h.sound hf (Nat.le_of_succ_le hk)
      obtain ⟨before, hbefore'⟩ :=
        Option.isSome_iff_exists.1 (hbefore.isSome_thermal.trans hthermal)
      obtain ⟨d, q, hrecord, hq, -⟩ :=
        h.heat_step hf hr hbefore' (hbefore.thermal before hbefore').1 hthermal
      obtain rfl : q = pool := Option.some.inj (hq.symm.trans hpool)
      simp [Result.heatBefore, hr, hrecord]

theorem Finished.heat_record (h : Finished c w s result s' p states)
    (hf : FinitePowers c result p) (hr : result.records[k]? = some r)
    (hthermal : c.thermalDemand.isSome = true) :
    ∃ heat, r.thermal = some heat ∧ 0 ≤ heat.level ∧
      heat.level ≤ positivePart c.thermalCapacity ∧
      heat.change = heat.level - result.heatBefore k := by
  have hk := (List.getElem?_eq_some_iff.1 hr).1
  have hbefore := h.sound hf hk.le
  obtain ⟨pool, hpool⟩ := Option.isSome_iff_exists.1 (hbefore.isSome_thermal.trans hthermal)
  obtain ⟨hp, hcapacity⟩ := hbefore.thermal pool hpool
  obtain ⟨d, q, hrecord, -, hfollows⟩ := h.heat_step hf hr hpool hp hthermal
  refine ⟨_, hrecord, hfollows.wellFormed.level_nonneg, ?_, ?_⟩
  · rw [← hcapacity, ← hfollows.capacity_eq]
    exact hfollows.wellFormed.level_le_capacity
  · rw [← h.heat_before hf hthermal hk.le hpool]

/-! ## Single precision -/

theorem isStepLength_single (d : StepDuration) : IsStepLength (d.hours : Float32) := by
  cases d <;> constructor <;> decide

theorem finitePowers_single {c : Config Float32} {result : Result Float32} {p : Profiles Float32}
    (hprofiles : ∀ x ∈ p.solar ++ p.wind ++ p.chp, isFinite x = true)
    (hgeneration : ∀ r ∈ result.records, isFinite r.generation = true) :
    FinitePowers c result p :=
  ⟨isStepLength_single c.stepDuration, fun x hx => hprofiles x (List.mem_append_right _ hx),
    hgeneration⟩

/-- In a run whose profiles and whose generation are finite, the levels of both stores stay between
zero and their capacities, and every record reports the difference of two levels. -/
theorem levels_bounded {c : Config Float32} {w : Weather σ Float32} {s s' : σ}
    {result : Result Float32} {p : Profiles Float32} (h : simulate c w s = (.ok result, s'))
    (hp : c.profiles? w s = some (p, s'))
    (hprofiles : ∀ x ∈ p.solar ++ p.wind ++ p.chp, isFinite x = true)
    (hgeneration : ∀ r ∈ result.records, isFinite r.generation = true) :
    ∀ (k : ℕ) (r : Record Float32), result.records[k]? = some r →
      0 ≤ r.batteryLevel ∧ r.batteryLevel ≤ c.batteryCapacity ∧
      r.batteryChange = r.batteryLevel - result.levelBefore k ∧
      (c.thermalDemand.isSome = true → ∃ heat, r.thermal = some heat ∧
        0 ≤ heat.level ∧ heat.level ≤ c.thermalCapacity ∧
        heat.change = heat.level - result.heatBefore k) := by
  obtain ⟨states, hfinished⟩ := exists_states h hp
  have hf : FinitePowers c result p := finitePowers_single hprofiles hgeneration
  have hle : ∀ {x y : Float32}, IsAmount y → x ≤ positivePart y → x ≤ y := fun hy =>
    (le_congr_of_value (value?_positivePart (nonneg_of_isAmount hy))).1
  intro k r hr
  obtain ⟨hnonneg, hcapacity, hchange⟩ := hfinished.battery_record hf hr
  refine ⟨hnonneg, hle hfinished.accepted.batteryCapacity hcapacity, hchange, ?_⟩
  intro hthermal
  obtain ⟨heat, hheat, hnonneg, hcapacity, hchange⟩ := hfinished.heat_record hf hr hthermal
  exact ⟨heat, hheat, hnonneg, hle hfinished.accepted.thermalCapacity hcapacity, hchange⟩

/-- In the sample run all four parts hold at every step. -/
theorem levels_bounded_sample : ∃ result s',
    simulate sampleConfig Weather.standard (Wind.replay []) = (.ok result, s') ∧
      result.batteryLevels = [50, 50, 10, 0, 50, 50] ∧
      ∀ (k : ℕ) (r : Record Float32), result.records[k]? = some r →
        0 ≤ r.batteryLevel ∧ r.batteryLevel ≤ sampleConfig.batteryCapacity ∧
        r.batteryChange = r.batteryLevel - result.levelBefore k ∧
        (sampleConfig.thermalDemand.isSome = true → ∃ heat, r.thermal = some heat ∧
          0 ≤ heat.level ∧ heat.level ≤ sampleConfig.thermalCapacity ∧
          heat.change = heat.level - result.heatBefore k) := by
  obtain ⟨result, h, hresult⟩ := exists_simulate_eq (c := sampleConfig) (w := Weather.standard)
    (s := Wind.replay [])
    (P := fun result : Result Float32 =>
      decide (result.batteryLevels = [50, 50, 10, 0, 50, 50]) &&
        result.records.all fun r => isFinite r.generation)
    (by decide +kernel)
  obtain ⟨hlevels, hgeneration⟩ := Bool.and_eq_true_iff.1 hresult
  obtain ⟨p, states, hfinished⟩ := exists_finished h
  have hprofiles := hfinished.profiles_isFinite (by decide +kernel)
  exact ⟨result, _, h, of_decide_eq_true hlevels,
    levels_bounded h hfinished.profiles?_eq hprofiles (List.all_eq_true.1 hgeneration)⟩

end LocalGrid.Simulation
