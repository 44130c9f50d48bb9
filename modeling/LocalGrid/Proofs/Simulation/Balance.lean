import LocalGrid.Proofs.Conservation
import LocalGrid.Proofs.Simulation.Levels

/-!
# The balance of a run

In exact arithmetic every step of a run with a lossless battery conserves energy.
-/

namespace LocalGrid

open Quantity

/-- Without losses what is drawn is what is stored. -/
theorem Exchange.drawn_one_sub_released (x : Exchange ℚ) :
    x.drawn 1 - x.released = x.change := by
  unfold drawn released
  rcases lt_trichotomy x.change 0 with h | h | h
  · rw [if_neg h.not_gt, if_pos h]
    ring
  · simp [h]
  · rw [if_pos h, if_neg h.not_gt, div_one, sub_zero]

namespace Simulation

variable {σ : Type} {c : Config ℚ} {w : Weather σ ℚ} {s s' : σ} {result : Result ℚ}
  {p : Profiles ℚ} {states : ℕ → State ℚ} {k : ℕ} {r : Record ℚ}

theorem isStepLength_exact (d : StepDuration) : IsStepLength (d.hours : ℚ) := by
  cases d <;> constructor <;> norm_num [StepDuration.hours]

theorem finitePowers_exact (c : Config ℚ) (result : Result ℚ) (p : Profiles ℚ) :
    FinitePowers c result p :=
  ⟨isStepLength_exact c.stepDuration, fun _ _ => rfl, fun _ _ => rfl⟩

theorem Finished.energy_step (h : Finished c w s result s' p states)
    (hr : result.records[k]? = some r) :
    let x : Exchange ℚ := ⟨r.batteryChange, r.gridExport, r.gridImport⟩
    r.surplus * c.hours = x.drawn c.batteryEfficiency - x.released + x.gridExport -
      x.gridImport := by
  have hk := (List.getElem?_eq_some_iff.1 hr).1
  have hh : IsStepLength c.hours := isStepLength_exact c.stepDuration
  have hsound := h.sound (finitePowers_exact c result p) hk.le
  obtain ⟨x, -, hstep⟩ := h.step hr
  obtain ⟨y, q, hdispatch, hconserves⟩ := c.rules.policy.dispatch?_conserves
    (b := ⟨r.generation, r.demand, c.hours⟩) hsound.battery hh.pos.le
  obtain ⟨rfl, rfl⟩ := Prod.mk.inj (Option.some.inj (hdispatch.symm.trans hstep.dispatch?_eq))
  rw [h.battery_efficiency hk.le,
    RoundedQuantity.toShare_of_isShare h.accepted.batteryEfficiency] at hconserves
  rw [hstep.surplus_eq]
  exact hconserves

/-- In exact arithmetic no policy makes or loses energy in a step, and in a run with a lossless
battery the surplus of every step goes into the battery and to the grid. -/
theorem energy_conserved :
    (∀ (policy : Policy ℚ) (b : Balance ℚ) (p : Pool ℚ), 0 ≤ p.capacity →
      0 ≤ p.efficiency → p.efficiency ≤ 1 → 0 ≤ p.level → p.level ≤ p.capacity →
      0 ≤ b.generation → 0 ≤ b.demand → 0 < b.hours →
      ∃ x q, policy.dispatch? b p = some (x, q) ∧
        (b.generation - b.demand) * b.hours =
          x.drawn p.efficiency - x.released + x.gridExport - x.gridImport) ∧
    ∀ (σ : Type) (c : Config ℚ) (w : Weather σ ℚ) (s s' : σ) (result : Result ℚ),
      c.batteryEfficiency = 1 → simulate c w s = (.ok result, s') →
      ∀ r ∈ result.records,
        r.surplus * c.hours = r.batteryChange + r.gridExport - r.gridImport := by
  constructor
  · intro policy b p _ he0 he1 hlevel hfits _ _ hh
    exact policy.dispatch?_conserves ⟨rfl, isShare_iff.2 ⟨he0, he1⟩, hlevel, hfits⟩ hh.le
  · intro σ c w s s' result hlossless h r hr
    obtain ⟨p, states, hfinished⟩ := exists_finished h
    obtain ⟨k, hk⟩ := List.getElem?_of_mem hr
    have hstep := hfinished.energy_step hk
    simp only [hlossless, Exchange.drawn_one_sub_released] at hstep
    exact hstep

/-- Two quarters of an hour in exact arithmetic, one with a surplus and one with a deficit. -/
def exactConfig : Config ℚ :=
  { Config.new .quarterHourly ⟨⟨738000⟩, 0, 0⟩ [0, 40] with
    chpCapacity := 30
    batteryCapacity := 50
    gating := false }

/-- A lossy pool with little room exports most of a surplus, and a lossless run is balanced. -/
theorem energy_conserved_sample :
    (∃ x q, (Policy.peakShaving 2).dispatch? (⟨5, 1, 1⟩ : Balance ℚ) ⟨10, 1 / 2, 9⟩ = some (x, q) ∧
      ((5 : ℚ) - 1) * 1 = x.drawn (1 / 2) - x.released + x.gridExport - x.gridImport) ∧
    ∃ result, simulate exactConfig ⟨fun _ => 0, fun s => (0, s)⟩ () = (.ok result, ()) ∧
      result.batteryChanges = [15 / 2, -5 / 2] ∧
      ∀ r ∈ result.records,
        r.surplus * exactConfig.hours = r.batteryChange + r.gridExport - r.gridImport := by
  constructor
  · exact energy_conserved.1 (.peakShaving 2) ⟨5, 1, 1⟩ ⟨10, 1 / 2, 9⟩ (by norm_num) (by norm_num)
      (by norm_num) (by norm_num) (by norm_num) (by norm_num) (by norm_num) (by norm_num)
  · obtain ⟨result, h, hchanges⟩ := exists_simulate_eq (c := exactConfig)
      (w := ⟨fun _ => 0, fun s => (0, s)⟩) (s := ())
      (P := fun result : Result ℚ => decide (result.batteryChanges = [15 / 2, -5 / 2]))
      (by decide +kernel)
    exact ⟨result, h, of_decide_eq_true hchanges, energy_conserved.2 _ _ _ _ _ _ rfl h⟩

end Simulation

end LocalGrid
