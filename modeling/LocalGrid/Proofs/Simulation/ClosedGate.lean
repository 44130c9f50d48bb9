import LocalGrid.Proofs.Percentile
import LocalGrid.Proofs.Simulation.Gate
import LocalGrid.Proofs.Simulation.Levels

/-!
# Steps behind a closed gate

A closed gate means that the battery is not empty. Without generation it can then only be
discharged, and the gate opens exactly when that empties it.
-/

namespace LocalGrid.Simulation

open Quantity RoundedQuantity

variable {σ α ω : Type} [Quantity α] [RoundedQuantity α] [Quantity ω] [Widening α ω]
  {c : Config α} {w : Weather σ α} {s s' : σ} {result : Result α} {p : Profiles α}
  {states : ℕ → State α} {k : ℕ} {r n : Record α}

/-- A gate needs a battery. -/
theorem Config.Accepted.capacity_pos (h : c.Accepted) (hgating : c.gating = true) :
    0 < positivePart c.batteryCapacity := by
  have hnumber := isNumber_of_isFinite h.batteryCapacity.isFinite
  have hpos := (not_le_iff hnumber isNumber_zero).1 (h.gate hgating)
  rwa [positivePart_of_pos hpos]

/-- Behind a closed gate there is something in the battery. -/
theorem Finished.level_pos_of_off (h : Finished c w s result s' p states)
    (hk : k ≤ result.records.length) (hlevel : IsNumber (states k).battery.level)
    (hoff : (states k).off = true) : 0 < (states k).battery.level := by
  have hgating := ((h.off_iff hk).1 hoff).1
  cases k with
  | zero =>
      rw [h.initial_eq] at hoff
      exact absurd hoff Bool.false_ne_true
  | succ k =>
      have hr := List.getElem?_eq_getElem (l := result.records) (i := k) hk
      obtain ⟨x, -, hstep⟩ := h.step hr
      have hrules : c.rules.gating = true := hgating
      rw [hstep.off_eq, if_pos hrules, nextOff_eq_true_iff, h.battery_capacity hk] at hoff
      rcases hoff with hfull | ⟨hnotempty, -⟩
      · exact lt_of_lt_of_le (h.accepted.capacity_pos hgating) hfull
      · exact (not_le_iff hlevel isNumber_zero).1 hnotempty

/-- Nothing is generated behind a closed gate. -/
theorem Finished.value?_generation (h : Finished c w s result s' p states)
    (hr : result.records[k]? = some r) (hoff : r.generationOff = true) :
    value? r.generation = some 0 := by
  obtain ⟨hclosed, -, hsum⟩ := h.outputs_eq hr
  obtain ⟨hsolar, hwind, hchp⟩ := hclosed hoff
  have hzero : value? (0 + 0 : α) = some 0 := by
    rw [value?_add value?_zero value?_zero (by simp) (by simp), add_zero,
      RoundedQuantity.round_zero]
  rw [hsum, hsolar, hwind, hchp, value?_add hzero value?_zero (by simp) (by simp), add_zero,
    RoundedQuantity.round_zero]

/-- A step behind a closed gate discharges the battery or leaves it alone. It empties the battery
if the policy discharges and the demand covers the level, and leaves something otherwise. -/
theorem Finished.closed_step (h : Finished c w s result s' p states)
    (hf : FinitePowers c result p) (hr : result.records[k]? = some r)
    (hoff : r.generationOff = true) :
    r.batteryChange ≤ 0 ∧ r.gridExport = 0 ∧ r.batteryLevel ≤ result.levelBefore k ∧
      0 < result.levelBefore k ∧
      (c.rules.policy.Allows r.demand ∧ result.levelBefore k ≤ r.demand * c.hours →
        r.batteryLevel = 0) ∧
      (¬ (c.rules.policy.Allows r.demand ∧ result.levelBefore k ≤ r.demand * c.hours) →
        0 < r.batteryLevel) := by
  have hk := (List.getElem?_eq_some_iff.1 hr).1
  have hbefore := (h.sound hf hk.le).battery
  have hbalance := h.balance_sound hf hr
  obtain ⟨x, -, hstep⟩ := h.step hr
  have hclosed : (states k).off = true := by
    rw [hstep.generationOff_eq, Bool.and_eq_true] at hoff
    exact hoff.2
  have hpos := h.level_pos_of_off hk.le (isNumber_of_isFinite hbefore.isFinite_level) hclosed
  obtain ⟨y, q, hdispatch, hchange, -, hexport, hle, hempty, hleft⟩ :=
    c.rules.policy.dispatch?_of_no_generation hbefore hbalance (h.value?_generation hr hoff) hpos
  obtain ⟨rfl, rfl⟩ := Prod.mk.inj (Option.some.inj (hdispatch.symm.trans hstep.dispatch?_eq))
  rw [← h.level_before hk.le, hstep.batteryLevel_eq]
  refine ⟨?_, hexport, hle, hpos, hempty, hleft⟩
  have hlevel := (h.sound hf hk).battery.isFinite_level
  exact le_of_eq_of_le hchange (sub_nonpos hlevel hle)

/-- A closed gate opens when the battery is empty. -/
theorem Finished.opens_iff (h : Finished c w s result s' p states)
    (hr : result.records[k]? = some r) (hn : result.records[k + 1]? = some n)
    (hoff : r.generationOff = true) : n.generationOff = false ↔ r.batteryLevel ≤ 0 := by
  have hk := (List.getElem?_eq_some_iff.1 hr).1
  obtain ⟨x, -, hstep⟩ := h.step hr
  obtain ⟨y, -, hnext⟩ := h.step hn
  rw [hstep.generationOff_eq, Bool.and_eq_true] at hoff
  obtain ⟨hgating, hclosed⟩ := hoff
  have hcapacity := h.accepted.capacity_pos hgating
  rw [← Bool.not_eq_true, hnext.generationOff_eq, hgating, Bool.true_and, hstep.off_eq,
    if_pos hgating, nextOff_eq_true_iff, h.battery_capacity hk, hstep.batteryLevel_eq]
  constructor
  · intro hopen
    by_contra hnotempty
    exact hopen (Or.inr ⟨hnotempty, hclosed⟩)
  · rintro hempty (hfull | ⟨hnotempty, -⟩)
    · exact not_lt_of_le hempty (lt_of_lt_of_le hcapacity hfull)
    · exact hnotempty hempty

/-- The gate opens after a step that empties the battery, and after no other. -/
theorem Finished.opens_iff_emptied (h : Finished c w s result s' p states)
    (hf : FinitePowers c result p) (hr : result.records[k]? = some r)
    (hn : result.records[k + 1]? = some n) (hoff : r.generationOff = true) :
    (n.generationOff = false ↔ r.batteryLevel = 0) ∧
      (n.generationOff = false ↔
        c.rules.policy.Allows r.demand ∧ result.levelBefore k ≤ r.demand * c.hours) := by
  obtain ⟨-, -, -, -, hempty, hleft⟩ := h.closed_step hf hr hoff
  have hzero : r.batteryLevel = 0 → r.batteryLevel ≤ 0 := by
    intro heq
    rw [heq]
    exact isNumber_zero
  have hcovers : r.batteryLevel ≤ 0 →
      c.rules.policy.Allows r.demand ∧ result.levelBefore k ≤ r.demand * c.hours := by
    intro hle
    by_contra hnot
    exact not_lt_of_le hle (hleft hnot)
  rw [h.opens_iff hr hn hoff]
  exact ⟨⟨fun hle => hempty (hcovers hle), hzero⟩, hcovers, fun hboth => hzero (hempty hboth)⟩

/-! ## Single precision -/

/-- In a run whose profiles and whose generation are finite, a step behind a closed gate charges
nothing and exports nothing, and the gate opens after it exactly if it emptied the battery: if the
policy discharged and the demand covered the level before. -/
theorem closed_gate_discharges {c : Config Float32} {w : Weather σ Float32} {s s' : σ}
    {result : Result Float32} {p : Profiles Float32} (h : simulate c w s = (.ok result, s'))
    (hp : c.profiles? w s = some (p, s'))
    (hprofiles : ∀ x ∈ p.solar ++ p.wind ++ p.chp, isFinite x = true)
    (hgeneration : ∀ r ∈ result.records, isFinite r.generation = true) :
    ∀ (k : ℕ) (r : Record Float32), result.records[k]? = some r → r.generationOff = true →
      r.batteryChange ≤ 0 ∧ r.gridExport = 0 ∧ r.batteryLevel ≤ result.levelBefore k ∧
      0 < result.levelBefore k ∧
      ∀ n : Record Float32, result.records[k + 1]? = some n →
        (n.generationOff = false ↔ r.batteryLevel = 0) ∧
        (c.dispatchMode = .default →
          (n.generationOff = false ↔ result.levelBefore k ≤ r.demand * c.hours)) ∧
        (c.dispatchMode = .peakShaving → ∃ threshold, result.peakThreshold = some threshold ∧
          (n.generationOff = false ↔
            result.levelBefore k ≤ r.demand * c.hours ∧ threshold < r.demand)) := by
  obtain ⟨states, hfinished⟩ := exists_states h hp
  have hf : FinitePowers c result p := finitePowers_single hprofiles hgeneration
  intro k r hr hoff
  obtain ⟨hchange, hexport, hle, hpos, -⟩ := hfinished.closed_step hf hr hoff
  refine ⟨hchange, hexport, hle, hpos, ?_⟩
  intro n hn
  obtain ⟨hopens, hcovers⟩ := hfinished.opens_iff_emptied hf hr hn hoff
  refine ⟨hopens, ?_, ?_⟩
  · intro hmode
    rw [hcovers, Config.rules, hmode]
    exact and_iff_right trivial
  · intro hmode
    have hdemand : c.demand ≠ [] := by
      rw [← List.length_pos_iff, hfinished.accepted.length_demand]
      exact Nat.pos_of_ne_zero hfinished.accepted.stepCount_ne_zero
    obtain ⟨threshold, hthreshold⟩ := Config.exists_peakThreshold hmode hdemand
    refine ⟨threshold, hfinished.peakThreshold_eq.trans hthreshold, ?_⟩
    rw [hcovers, Config.rules, hmode, hthreshold]
    exact and_comm

def peakConfig : Config Float32 :=
  { sampleConfig with
    demand := [0, 0, 40, 60, 20, 0]
    dispatchMode := .peakShaving }

theorem peakConfig_threshold : peakConfig.peakThreshold? = some 40 := by
  rw [Config.peakThreshold?_eq_of_perm [0, 0, 0, 20, 40, 60] rfl (by decide +kernel)
    (by decide +kernel)]
  decide +kernel

/-- In that run the battery is held until the peak empties it, and then the gate opens. -/
theorem closed_gate_discharges_peak : ∃ result s',
    simulate peakConfig Weather.standard (Wind.replay []) = (.ok result, s') ∧
      result.batteryLevels = [50, 50, 50, 0, 50, 50] ∧
      result.records.map (·.generationOff) = [false, true, true, true, false, true] ∧
      ∀ (k : ℕ) (r : Record Float32), result.records[k]? = some r → r.generationOff = true →
        r.batteryChange ≤ 0 ∧ r.gridExport = 0 ∧ r.batteryLevel ≤ result.levelBefore k ∧
        0 < result.levelBefore k ∧
        ∀ n : Record Float32, result.records[k + 1]? = some n →
          (n.generationOff = false ↔ r.batteryLevel = 0) ∧
          (peakConfig.dispatchMode = .default →
            (n.generationOff = false ↔ result.levelBefore k ≤ r.demand * peakConfig.hours)) ∧
          (peakConfig.dispatchMode = .peakShaving →
            ∃ threshold, result.peakThreshold = some threshold ∧
              (n.generationOff = false ↔
                result.levelBefore k ≤ r.demand * peakConfig.hours ∧ threshold < r.demand)) := by
  have hrun : (simulate peakConfig Weather.standard (Wind.replay [])).1.toOption.any (fun result =>
      decide (result.batteryLevels = [50, 50, 50, 0, 50, 50] ∧
        result.records.map (·.generationOff) = [false, true, true, true, false, true]) &&
        result.records.all fun r => isFinite r.generation) = true := by
    simp only [simulate, Config.carryOut?, Config.rules, peakConfig_threshold]
    decide +kernel
  obtain ⟨result, h, hresult⟩ := exists_simulate_eq hrun
  obtain ⟨hseries, hgeneration⟩ := Bool.and_eq_true_iff.1 hresult
  obtain ⟨hlevels, hoff⟩ := of_decide_eq_true hseries
  obtain ⟨p, states, hfinished⟩ := exists_finished h
  have hprofiles := hfinished.profiles_isFinite (by decide +kernel)
  exact ⟨result, _, h, hlevels, hoff,
    closed_gate_discharges h hfinished.profiles?_eq hprofiles (List.all_eq_true.1 hgeneration)⟩

end LocalGrid.Simulation
