import LocalGrid.Proofs.Comparison
import LocalGrid.Proofs.Simulation.Separation

/-!
# Runs side by side

Without a gate a battery has no influence on what is generated, so two runs that differ in their
demand, in the losses of the battery or in the policy are given the same generation. Then the levels
of the two batteries keep their order from step to step. The run with less demand and smaller
losses stays above, and so does the run that only shaves peaks.
-/

namespace LocalGrid.Simulation

open Quantity RoundedQuantity

variable {σ τ α ω : Type} [Quantity α]

def Config.manage (c : Config α) (mode : DispatchMode) (demand : List α) (efficiency : α) :
    Config α :=
  { c with
    dispatchMode := mode
    demand := demand
    batteryEfficiency := efficiency }

/-- A demand and an efficiency that ease the battery of a default run without a gate: nowhere is more
asked of it, and no less is stored of an offer. -/
structure Config.Eased (c : Config α) (demand : List α) (efficiency : α) : Prop where
  dispatchMode_eq : c.dispatchMode = .default
  gating_eq : c.gating = false
  demand_le : List.Forall₂ (· ≤ ·) demand c.demand
  efficiency_le : c.batteryEfficiency ≤ efficiency

variable {c : Config α} {mode : DispatchMode} {xs : List α} {e : α}

/-- What is generated does not depend on how the battery is managed. -/
theorem Config.profiles?_manage (c : Config α) (mode : DispatchMode) (xs : List α) (e : α)
    (w : Weather σ α) (s : σ) : (c.manage mode xs e).profiles? w s = c.profiles? w s := rfl

/-- The policy is not checked. -/
theorem Config.Accepted.manage (h : c.Accepted) (mode : DispatchMode) :
    (c.manage mode c.demand c.batteryEfficiency).Accepted :=
  { h with }

theorem Config.Eased.below_initial [RoundedQuantity α] (h : c.Eased xs e) (hc : c.Accepted)
    (hd : (c.manage mode xs e).Accepted) :
    c.initialState.battery.Below (c.manage mode xs e).initialState.battery where
  capacity_eq := rfl
  efficiency_le := by
    simp only [initialState, Pool.new, toShare_of_isShare hc.batteryEfficiency,
      toShare_of_isShare hd.batteryEfficiency]
    exact h.efficiency_le
  level_le := isNumber_zero

section

variable [Quantity ω] [Widening α ω] {w : Weather σ α} {v : Weather τ α} {s s' : σ} {t t' : τ}
  {result other : Result α} {p : Profiles α} {states states' : ℕ → State α} {k : ℕ}
  {r q : Record α} (h : Finished c w s result s' p states)
  (h' : Finished (c.manage mode xs e) v t other t' p states') (heased : c.Eased xs e)

include h h' heased

theorem Finished.generation_eq (hr : result.records[k]? = some r)
    (hq : other.records[k]? = some q) : r.generation = q.generation := by
  obtain ⟨hsolar, hwind, hchp⟩ := h.outputs_of_ungated heased.gating_eq hr
  obtain ⟨hsolar', hwind', hchp'⟩ := h'.outputs_of_ungated heased.gating_eq hq
  rw [(h.outputs_eq hr).2.2, (h'.outputs_eq hq).2.2, Option.some.inj (hsolar.symm.trans hsolar'),
    Option.some.inj (hwind.symm.trans hwind'), Option.some.inj (hchp.symm.trans hchp')]

theorem Finished.demand_le (hr : result.records[k]? = some r)
    (hq : other.records[k]? = some q) : q.demand ≤ r.demand := by
  obtain ⟨hk, hdemand⟩ := List.getElem?_eq_some_iff.1 (h.demand_getElem? hr)
  obtain ⟨hk', hdemand'⟩ := List.getElem?_eq_some_iff.1 (h'.demand_getElem? hq)
  rw [← hdemand, ← hdemand']
  exact heased.demand_le.get hk' hk

variable [RoundedQuantity α]

theorem Finished.below_step (hf : FinitePowers c result p)
    (hf' : FinitePowers (c.manage mode xs e) other p) (hr : result.records[k]? = some r)
    (hq : other.records[k]? = some q) (hbelow : (states k).battery.Below (states' k).battery) :
    (states (k + 1)).battery.Below (states' (k + 1)).battery := by
  obtain ⟨x, -, hstep⟩ := h.step hr
  obtain ⟨y, -, hstep'⟩ := h'.step hq
  have hk := (List.getElem?_eq_some_iff.1 hr).1.le
  have hk' := (List.getElem?_eq_some_iff.1 hq).1.le
  have hpolicy : c.rules.policy = .default := by
    rw [Config.rules, heased.dispatchMode_eq]
    rfl
  have hdispatch := hstep.dispatch?_eq
  rw [hpolicy] at hdispatch
  have hbalance : Balance.Below ⟨r.generation, r.demand, c.hours⟩
      ⟨q.generation, q.demand, c.hours⟩ := by
    refine ⟨rfl, ?_, h.demand_le h' heased hr hq⟩
    rw [← h.generation_eq h' heased hr hq]
    exact isNumber_of_isFinite (hf.generation r (List.mem_of_getElem? hr))
  exact (c.manage mode xs e).rules.policy.dispatch?_below hbelow (h.sound hf hk).battery
    (h'.sound hf' hk').battery hbalance (h.balance_sound hf hr) (h'.balance_sound hf' hq)
    hdispatch hstep'.dispatch?_eq

/-- The two batteries keep their order. -/
theorem Finished.below (hf : FinitePowers c result p)
    (hf' : FinitePowers (c.manage mode xs e) other p)
    (hlength : result.records.length = other.records.length) (hk : k ≤ result.records.length) :
    (states k).battery.Below (states' k).battery := by
  induction k with
  | zero =>
      rw [h.initial_eq, h'.initial_eq]
      exact heased.below_initial h.accepted h'.accepted
  | succ k ih =>
      have hr := List.getElem?_eq_getElem (l := result.records) (i := k) hk
      have hq := List.getElem?_eq_getElem (l := other.records) (i := k) (hlength ▸ hk)
      exact h.below_step h' heased hf hf' hr hq (ih (Nat.le_of_succ_le hk))

omit [RoundedQuantity α] in
theorem Finished.finitePowers_manage (hf : FinitePowers c result p)
    (hlength : result.records.length = other.records.length) :
    FinitePowers (c.manage mode xs e) other p := by
  refine ⟨hf.isStepLength, hf.chp, ?_⟩
  intro q hq
  obtain ⟨k, hk⟩ := List.getElem?_of_mem hq
  have hlt := hlength ▸ (List.getElem?_eq_some_iff.1 hk).1
  have hr := List.getElem?_eq_getElem (l := result.records) hlt
  rw [← h.generation_eq h' heased hr hk]
  exact hf.generation _ (List.mem_of_getElem? hr)

theorem Finished.levels_le (hf : FinitePowers c result p)
    (hlength : result.records.length = other.records.length) :
    List.Forall₂ (· ≤ ·) result.batteryLevels other.batteryLevels := by
  have hf' := h.finitePowers_manage h' heased hf hlength
  rw [Result.batteryLevels, Result.batteryLevels, List.forall₂_map_left_iff,
    List.forall₂_map_right_iff, List.forall₂_iff_get]
  refine ⟨hlength, ?_⟩
  intro k hk hk'
  have hbelow := h.below h' heased hf hf' hlength (k := k + 1) hk
  rw [List.get_eq_getElem, List.get_eq_getElem, ← h.level_after (List.getElem?_eq_getElem hk),
    ← h'.level_after (List.getElem?_eq_getElem hk')]
  exact hbelow.level_le

omit h h' in
/-- In the same weather the other run has a result as well, with no less in the battery after any
step. -/
theorem Config.Eased.levels_le (hmanaged : (c.manage mode xs e).Accepted)
    (hrun : simulate c w s = (.ok result, s')) (hdaylight : w.daylight = v.daylight)
    (hdraws : (Random.draws w.draw c.stepCount s).1 = (Random.draws v.draw c.stepCount t).1)
    (hhours : IsStepLength c.hours)
    (hgeneration : ∀ r ∈ result.records, isFinite r.generation = true) :
    ∃ other t', simulate (c.manage mode xs e) v t = (.ok other, t') ∧
      List.Forall₂ (· ≤ ·) result.batteryLevels other.batteryLevels := by
  obtain ⟨p, states, h⟩ := exists_finished hrun
  obtain ⟨u, hp⟩ := profiles?_congr hdaylight hdraws h.profiles?_eq
  have hp' := (c.profiles?_manage mode xs e v t).trans hp
  obtain ⟨other, t', hcarry⟩ := exists_carryOut?_iff.2 (Option.isSome_of_eq_some hp')
  have hrun' := simulate_of_carryOut? (validate_of_accepted hmanaged) hcarry
  obtain ⟨p', states', h'⟩ := exists_finished hrun'
  obtain ⟨rfl, -⟩ := Prod.mk.inj (Option.some.inj (hp'.symm.trans h'.profiles?_eq))
  have hf : FinitePowers c result p := h.finitePowers hhours hgeneration
  exact ⟨other, t', hrun', h.levels_le h' heased hf
    ((length_records hrun).trans (length_records hrun').symm)⟩

end

/-! ## Single precision -/

/-- Without a gate, a run that shaves peaks holds no less after any step than the same run under the
default policy. -/
theorem levels_le_peakShaving {c : Config Float32} {w : Weather σ Float32} {v : Weather τ Float32}
    {s s' : σ} {t : τ} {result : Result Float32} (hmode : c.dispatchMode = .default)
    (hgating : c.gating = false) (h : simulate c w s = (.ok result, s'))
    (hdaylight : w.daylight = v.daylight)
    (hdraws : (Random.draws w.draw c.stepCount s).1 = (Random.draws v.draw c.stepCount t).1)
    (hgeneration : ∀ r ∈ result.records, isFinite r.generation = true) :
    ∃ other t', simulate { c with dispatchMode := .peakShaving } v t = (.ok other, t') ∧
      List.Forall₂ (· ≤ ·) result.batteryLevels other.batteryLevels := by
  obtain ⟨hvalidate, -⟩ := simulate_eq_ok h
  have haccepted := Config.accepted_of_validate hvalidate
  have heased : c.Eased c.demand c.batteryEfficiency := by
    refine ⟨hmode, hgating, ?_, isNumber_right (isShare_iff.1 haccepted.batteryEfficiency).1⟩
    rw [List.forall₂_same]
    exact fun x hx => isNumber_of_isFinite (isFinite_of_isBadDemand (haccepted.demand x hx))
  exact heased.levels_le (haccepted.manage .peakShaving) h hdaylight hdraws
    (isStepLength_single c.stepDuration) hgeneration

/-- Six hours without a gate, with demands on both sides of what is generated. -/
def ungatedConfig : Config Float32 :=
  { Config.new .hourly ⟨⟨738000⟩, 0, 0⟩ [0, 50, 20, 40, 60, 20] with
    chpCapacity := 30
    batteryCapacity := 50
    gating := false }

def ungatedPeak : Config Float32 := { ungatedConfig with dispatchMode := .peakShaving }

/-- Peak shaving keeps for the peak what the default policy gives away before it. -/
theorem levels_le_peakShaving_ungated : ∃ result other s' t',
    simulate ungatedConfig Weather.standard (Wind.replay []) = (.ok result, s') ∧
      result.batteryLevels = [30, 10, 20, 10, 0, 10] ∧
      simulate ungatedPeak Weather.standard (Wind.replay [0]) = (.ok other, t') ∧
      other.batteryLevels = [30, 30, 40, 40, 10, 20] ∧
      List.Forall₂ (· ≤ ·) result.batteryLevels other.batteryLevels := by
  have hrun : (simulate ungatedConfig Weather.standard (Wind.replay [])).1.toOption.any
      (fun result => decide (result.batteryLevels = [30, 10, 20, 10, 0, 10]) &&
        result.records.all fun r => isFinite r.generation) = true := by
    decide +kernel
  have hthreshold : ungatedPeak.peakThreshold? = some 50 := by
    rw [Config.peakThreshold?_eq_of_perm [0, 20, 20, 40, 50, 60] rfl (by decide +kernel)
      (by decide +kernel)]
    decide +kernel
  have hpeaks : (simulate ungatedPeak Weather.standard (Wind.replay [0])).1.toOption.any
      (fun result => decide (result.batteryLevels = [30, 30, 40, 40, 10, 20])) = true := by
    simp only [simulate, Config.carryOut?, Config.rules, hthreshold]
    decide +kernel
  obtain ⟨result, h, hresult⟩ := exists_simulate_eq hrun
  obtain ⟨hlevels, hgeneration⟩ := Bool.and_eq_true_iff.1 hresult
  obtain ⟨other, t', hother, hle⟩ := levels_le_peakShaving rfl rfl h (v := Weather.standard)
    (t := Wind.replay [0]) rfl (by decide +kernel) (List.all_eq_true.1 hgeneration)
  obtain ⟨peak, hpeak, hlevels'⟩ := exists_simulate_eq hpeaks
  obtain rfl : peak = other := Except.ok.inj (Prod.mk.inj (hpeak.symm.trans hother)).1
  exact ⟨result, peak, _, t', h, of_decide_eq_true hlevels, hother, of_decide_eq_true hlevels', hle⟩

/-- Without a gate and under the default policy, less demand and smaller losses leave no less in
the battery after any step. -/
theorem levels_le_of_demand_le {c : Config Float32} {w : Weather σ Float32}
    {v : Weather τ Float32} {s s' : σ} {t : τ} {result : Result Float32} {xs : List Float32}
    {e : Float32} (hmode : c.dispatchMode = .default) (hgating : c.gating = false)
    (h : simulate c w s = (.ok result, s'))
    (hvalidate : { c with demand := xs, batteryEfficiency := e }.validate = .ok ())
    (hdemand : List.Forall₂ (· ≤ ·) xs c.demand) (hefficiency : c.batteryEfficiency ≤ e)
    (hdaylight : w.daylight = v.daylight)
    (hdraws : (Random.draws w.draw c.stepCount s).1 = (Random.draws v.draw c.stepCount t).1)
    (hgeneration : ∀ r ∈ result.records, isFinite r.generation = true) :
    ∃ other t', simulate { c with demand := xs, batteryEfficiency := e } v t = (.ok other, t') ∧
      List.Forall₂ (· ≤ ·) result.batteryLevels other.batteryLevels := by
  have heased : c.Eased xs e := ⟨hmode, hgating, hdemand, hefficiency⟩
  have hmanaged : (c.manage c.dispatchMode xs e).Accepted := Config.accepted_of_validate hvalidate
  exact heased.levels_le hmanaged h hdaylight hdraws (isStepLength_single c.stepDuration)
    hgeneration

def lossyConfig : Config Float32 := { ungatedConfig with batteryEfficiency := 0.5 }

def easedConfig : Config Float32 :=
  { lossyConfig with
    demand := [0, 40, 20, 30, 50, 10]
    batteryEfficiency := 1 }

/-- With less demand and no losses the battery is never emptied. -/
theorem levels_le_of_demand_le_lossy : ∃ result other s' t',
    simulate lossyConfig Weather.standard (Wind.replay []) = (.ok result, s') ∧
      result.batteryLevels = [15, 0, 5, 0, 0, 5] ∧
      simulate easedConfig Weather.standard (Wind.replay [0]) = (.ok other, t') ∧
      other.batteryLevels = [30, 20, 30, 30, 10, 30] ∧
      List.Forall₂ (· ≤ ·) result.batteryLevels other.batteryLevels := by
  have hlossy : (simulate lossyConfig Weather.standard (Wind.replay [])).1.toOption.any
      (fun result => decide (result.batteryLevels = [15, 0, 5, 0, 0, 5]) &&
        result.records.all fun r => isFinite r.generation) = true := by
    decide +kernel
  have hrun : (simulate easedConfig Weather.standard (Wind.replay [0])).1.toOption.any
      (fun result => decide (result.batteryLevels = [30, 20, 30, 30, 10, 30])) = true := by
    decide +kernel
  obtain ⟨result, h, hresult⟩ := exists_simulate_eq hlossy
  obtain ⟨hlevels, hgeneration⟩ := Bool.and_eq_true_iff.1 hresult
  have hvalidate : easedConfig.validate = .ok () := by decide +kernel
  obtain ⟨other, t', hother, hle⟩ := levels_le_of_demand_le rfl rfl h hvalidate
    (by decide +kernel) (by decide +kernel) (v := Weather.standard) (t := Wind.replay [0]) rfl
    (by decide +kernel) (List.all_eq_true.1 hgeneration)
  obtain ⟨eased, heased, hlevels'⟩ := exists_simulate_eq hrun
  obtain rfl : eased = other := Except.ok.inj (Prod.mk.inj (heased.symm.trans hother)).1
  exact ⟨result, eased, _, t', h, of_decide_eq_true hlevels, hother, of_decide_eq_true hlevels',
    hle⟩

end LocalGrid.Simulation
