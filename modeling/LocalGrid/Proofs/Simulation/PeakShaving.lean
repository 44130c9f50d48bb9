import LocalGrid.Proofs.Peaks
import LocalGrid.Proofs.Simulation.ClosedGate
import LocalGrid.Proofs.Simulation.Completion

/-!
# Peaks that are shaved

Peak shaving discharges only in steps whose demand is above the threshold. The threshold is a
percentile of the very demand that the run is given, so there are few such steps.
-/

namespace LocalGrid

open Quantity RoundedQuantity

/-- A battery that peak shaving has discharged met a demand above the threshold. -/
theorem Policy.threshold_lt_of_change_neg {α : Type} [Quantity α] [RoundedQuantity α] {θ : α}
    {b : Balance α} {p q : Pool α} {x : Exchange α} (hp : p.WellFormed) (hb : b.Sound)
    (h : (Policy.peakShaving θ).dispatch? b p = some (x, q)) (hx : x.change < 0) :
    θ < b.demand := by
  cases hsurplus : b.hasSurplus with
  | true =>
      -- a surplus raises the level
      rw [dispatch?_of_surplus _ hsurplus] at h
      obtain ⟨q', hq, hfollows, hle⟩ := Pool.charge?_spec hp hb.isFinite_offer
      obtain ⟨hchange, -⟩ :=
        Prod.mk.inj (Option.some.inj (hq.symm.trans (Pool.charge?_of_absorb? h)))
      have hnonneg := sub_nonneg hfollows.wellFormed.isFinite_level hle
      rw [hchange] at hnonneg
      exact absurd hx (not_lt_of_le hnonneg)
  | false =>
      by_contra hnot
      have hhold : (Policy.peakShaving θ).dispatch? b p = some (b.hold, p) := by
        simp [dispatch?, hsurplus, hnot]
      obtain ⟨rfl, -⟩ := Prod.mk.inj (Option.some.inj (hhold.symm.trans h))
      have hzero : (0 : α) ≤ 0 := isNumber_zero
      exact not_lt_of_le hzero hx

namespace Simulation

variable {σ α ω : Type} [Quantity α] [Quantity ω] [Widening α ω]

theorem Finished.map_demand {c : Config α} {w : Weather σ α} {s s' : σ} {result : Result α}
    {p : Profiles α} {states : ℕ → State α} (h : Finished c w s result s' p states)
    (hlength : result.records.length = c.stepCount) :
    result.records.map (·.demand) = c.demand := by
  apply List.ext_getElem (by rw [List.length_map, hlength, h.accepted.length_demand])
  intro k hk hk'
  rw [List.length_map] at hk
  have hdemand := h.demand_getElem? (List.getElem?_eq_getElem hk)
  rw [List.getElem?_eq_getElem hk'] at hdemand
  rw [List.getElem_map]
  exact (Option.some.inj hdemand).symm

theorem Finished.threshold_lt_of_change_neg [RoundedQuantity α] {c : Config α} {w : Weather σ α}
    {s s' : σ} {result : Result α} {p : Profiles α} {states : ℕ → State α} {θ : α}
    {r : Record α} (h : Finished c w s result s' p states) (hf : FinitePowers c result p)
    (hmode : c.dispatchMode = .peakShaving) (hθ : c.peakThreshold? = some θ)
    (hr : r ∈ result.records) (hchange : r.batteryChange < 0) : θ < r.demand := by
  obtain ⟨k, hk⟩ := List.getElem?_of_mem hr
  obtain ⟨x, -, hstep⟩ := h.step hk
  have hbefore := h.sound hf (List.getElem?_eq_some_iff.1 hk).1.le
  have hpolicy : c.rules.policy = .peakShaving θ := by
    simp only [Config.rules, hmode, hθ]
    rfl
  have hdispatch := hstep.dispatch?_eq
  rw [hpolicy] at hdispatch
  exact Policy.threshold_lt_of_change_neg hbefore.battery (h.balance_sound hf hk) hdispatch hchange

/-! ## Single precision -/

/-- In a run with peak shaving and finite generation, the battery is discharged only in steps with
a demand above the threshold, and in no more than a fifth of the steps. -/
theorem discharges_are_peaks {c : Config Float32} {w : Weather σ Float32} {s s' : σ}
    {result : Result Float32} (hmode : c.dispatchMode = .peakShaving)
    (hsteps : c.stepCount < 2 ^ 48) (h : simulate c w s = (.ok result, s'))
    (hgeneration : ∀ r ∈ result.records, isFinite r.generation = true) :
    ∃ θ, result.peakThreshold = some θ ∧
      (∀ r ∈ result.records, r.batteryChange < 0 → θ < r.demand) ∧
      result.records.countP (fun r => decide (r.batteryChange < 0)) ≤
        c.stepCount - 1 - 4 * (c.stepCount - 1) / 5 := by
  obtain ⟨p, states, hfinished⟩ := exists_finished h
  have haccepted := hfinished.accepted
  have hf : FinitePowers c result p :=
    hfinished.finitePowers (isStepLength_single c.stepDuration) hgeneration
  obtain ⟨θ, hθ⟩ := Config.exists_peakThreshold hmode haccepted.demand_ne_nil
  have hpeaks : ∀ r ∈ result.records, r.batteryChange < 0 → θ < r.demand :=
    fun r hr => hfinished.threshold_lt_of_change_neg hf hmode hθ hr
  refine ⟨θ, hfinished.peakThreshold_eq.trans hθ, hpeaks, ?_⟩
  have hlength := haccepted.length_demand
  have hdemand : ∀ x ∈ c.demand, isFinite x = true ∧ 0 ≤ x := fun x hx =>
    ⟨isFinite_of_isBadDemand (haccepted.demand x hx),
      nonneg_of_isBadDemand (haccepted.demand x hx)⟩
  have hpercentile : percentile? c.demand ((80 : ℕ) : Float32) = some θ := by
    rw [Config.peakThreshold?, hmode] at hθ
    exact hθ
  calc result.records.countP (fun r => decide (r.batteryChange < 0))
      ≤ result.records.countP (fun r => decide (θ < r.demand)) := by
        apply List.countP_mono_left
        intro r hr hchange
        exact decide_eq_true (hpeaks r hr (of_decide_eq_true hchange))
    _ = c.demand.countP (fun x => decide (θ < x)) := by
        rw [← hfinished.map_demand (length_records h), List.countP_map]
        rfl
    _ ≤ c.stepCount - 1 - 4 * (c.stepCount - 1) / 5 := by
        rw [← hlength]
        exact countP_above_eighty_le hdemand (by omega) hpercentile

/-- One of six steps is a peak, and the bound is met. -/
theorem discharges_are_peaks_once : ∃ result s',
    simulate peakConfig Weather.standard (Wind.replay []) = (.ok result, s') ∧
      result.records.map (·.batteryChange) = [50, 0, 0, -50, 50, 0] ∧
      ∃ θ, result.peakThreshold = some θ ∧
        (∀ r ∈ result.records, r.batteryChange < 0 → θ < r.demand) ∧
        result.records.countP (fun r => decide (r.batteryChange < 0)) ≤ 1 := by
  obtain ⟨result, h, hresult⟩ := exists_simulate_eq (c := peakConfig) (w := Weather.standard)
    (s := Wind.replay [])
    (P := fun result : Result Float32 =>
      decide (result.records.map (·.batteryChange) = [50, 0, 0, -50, 50, 0]) &&
        result.records.all fun r => isFinite r.generation)
    (by
      simp only [simulate, Config.carryOut?, Config.rules, peakConfig_threshold]
      decide +kernel)
  obtain ⟨hchanges, hgeneration⟩ := Bool.and_eq_true_iff.1 hresult
  exact ⟨result, _, h, of_decide_eq_true hchanges,
    discharges_are_peaks rfl (by decide) h (List.all_eq_true.1 hgeneration)⟩

end Simulation

end LocalGrid
