import LocalGrid.Proofs.Quantity.Rounded
import LocalGrid.Simulation.Config

/-!
# Accepted configurations

What a configuration satisfies if nothing is wrong with it.
-/

namespace LocalGrid.Simulation

open Quantity

theorem checkLength_eq_nil_iff {α : Type} {series : Series} {steps : ℕ} {xs : List α} :
    checkLength series steps xs = [] ↔ xs.length = steps := by
  unfold checkLength
  split_ifs with h <;> simp [h]

variable {α : Type} [Quantity α]

structure IsAmount (x : α) : Prop where
  not_isNegative : isNegative x = false
  isFinite : isFinite x = true

structure Config.Accepted (c : Config α) : Prop where
  stepCount_ne_zero : c.stepCount ≠ 0
  length_demand : c.demand.length = c.stepCount
  length_thermalDemand : ∀ xs, c.thermalDemand = some xs → xs.length = c.stepCount
  solarCapacity : IsAmount c.solarCapacity
  windCapacity : IsAmount c.windCapacity
  chpCapacity : IsAmount c.chpCapacity
  batteryCapacity : IsAmount c.batteryCapacity
  thermalCapacity : IsAmount c.thermalCapacity
  rampRate : isNegative c.rampRate = false
  batteryEfficiency : isShare c.batteryEfficiency = true
  thermalEfficiency : isShare c.thermalEfficiency = true
  gate : c.gating = true → ¬ c.batteryCapacity ≤ 0
  demand : ∀ x ∈ c.demand, isBadDemand x = false
  thermalDemand : ∀ xs, c.thermalDemand = some xs → ∀ x ∈ xs, isBadDemand x = false

theorem checkMagnitude_eq_nil_iff {field : Magnitude} (hfield : field ≠ .rampRate) {x : α} :
    checkMagnitude field x = [] ↔ IsAmount x := by
  have hne : (field != .rampRate) = true := by simpa using hfield
  unfold checkMagnitude
  split_ifs with h1 h2
  · exact iff_of_false (by simp) fun h => by simp [h.not_isNegative] at h1
  · exact iff_of_false (by simp) fun h => by simp [h.isFinite] at h2
  · refine iff_of_true rfl ⟨by simpa using h1, ?_⟩
    simpa [hne] using h2

theorem checkMagnitude_rampRate_eq_nil_iff {x : α} :
    checkMagnitude .rampRate x = [] ↔ isNegative x = false := by
  cases h : isNegative x <;> simp [checkMagnitude, h]

theorem checkShare_eq_nil_iff {field : Share} {x : α} :
    checkShare field x = [] ↔ isShare x = true := by
  cases h : isShare x <;> simp [checkShare, h]

theorem firstBad?_eq_none_iff {i : ℕ} {xs : List α} :
    firstBad? i xs = none ↔ ∀ x ∈ xs, isBadDemand x = false := by
  induction xs generalizing i with
  | nil => simp [firstBad?]
  | cons x xs ih => cases h : isBadDemand x <;> simp [firstBad?, h, ih]

theorem checkEntries_eq_nil_iff {series : Series} {xs : List α} :
    checkEntries series xs = [] ↔ ∀ x ∈ xs, isBadDemand x = false := by
  rw [← firstBad?_eq_none_iff (i := 0), checkEntries]
  cases h : firstBad? 0 xs <;> simp

namespace Config

/-- Nothing is reported exactly if nothing is wrong. -/
theorem rejections_eq_nil_iff (c : Config α) : c.rejections = [] ↔ c.Accepted := by
  have hoption : ∀ (f : List α → List (Rejection α)) (P : List α → Prop)
      (_ : ∀ xs, f xs = [] ↔ P xs),
      c.thermalDemand.elim [] f = [] ↔ ∀ xs, c.thermalDemand = some xs → P xs := by
    intro f P hf
    cases c.thermalDemand <;> simp [hf]
  simp only [rejections, List.append_eq_nil_iff, checkLength_eq_nil_iff, checkShare_eq_nil_iff,
    checkEntries_eq_nil_iff, checkMagnitude_rampRate_eq_nil_iff,
    hoption _ _ fun _ => checkLength_eq_nil_iff, hoption _ _ fun _ => checkEntries_eq_nil_iff,
    checkMagnitude_eq_nil_iff (show Magnitude.solarCapacity ≠ .rampRate by decide),
    checkMagnitude_eq_nil_iff (show Magnitude.windCapacity ≠ .rampRate by decide),
    checkMagnitude_eq_nil_iff (show Magnitude.chpCapacity ≠ .rampRate by decide),
    checkMagnitude_eq_nil_iff (show Magnitude.batteryCapacity ≠ .rampRate by decide),
    checkMagnitude_eq_nil_iff (show Magnitude.thermalCapacity ≠ .rampRate by decide)]
  have hsteps : (if c.stepCount = 0 then [Rejection.noSteps] else []) = ([] : List (Rejection α)) ↔
      c.stepCount ≠ 0 := by
    split_ifs with h <;> simp [h]
  have hgate : (if c.gating = true ∧ c.batteryCapacity ≤ 0 then [Rejection.gateWithoutBattery]
      else []) = ([] : List (Rejection α)) ↔ (c.gating = true → ¬ c.batteryCapacity ≤ 0) := by
    split_ifs with h <;> simpa using h
  rw [hsteps, hgate]
  constructor
  · rintro ⟨⟨⟨⟨⟨⟨⟨⟨⟨⟨⟨⟨⟨h1, h2⟩, h3⟩, h4⟩, h5⟩, h6⟩, h7⟩, h8⟩, h9⟩, h10⟩, h11⟩, h12⟩, h13⟩, h14⟩
    exact ⟨h1, h2, h3, h4, h5, h6, h7, h8, h9, h10, h11, h12, h13, h14⟩
  · rintro ⟨h1, h2, h3, h4, h5, h6, h7, h8, h9, h10, h11, h12, h13, h14⟩
    exact ⟨⟨⟨⟨⟨⟨⟨⟨⟨⟨⟨⟨⟨h1, h2⟩, h3⟩, h4⟩, h5⟩, h6⟩, h7⟩, h8⟩, h9⟩, h10⟩, h11⟩, h12⟩, h13⟩, h14⟩

theorem accepted_of_validate {c : Config α} (h : c.validate = .ok ()) : c.Accepted :=
  c.rejections_eq_nil_iff.1 (c.validate_eq_ok_iff.1 h)

theorem validate_of_accepted {c : Config α} (h : c.Accepted) : c.validate = .ok () :=
  c.validate_eq_ok_iff.2 (c.rejections_eq_nil_iff.2 h)

theorem Accepted.demand_ne_nil {c : Config α} (h : c.Accepted) : c.demand ≠ [] := by
  rw [← List.length_pos_iff, h.length_demand]
  exact Nat.pos_of_ne_zero h.stepCount_ne_zero

end Config

/-! ## Values of accepted configurations -/

theorem isFinite_of_isBadDemand {x : α} (h : isBadDemand x = false) : isFinite x = true := by
  simpa using (Bool.or_eq_false_iff.1 h).1

variable [RoundedQuantity α] {x : α}

theorem nonneg_of_not_isNegative (h : isNegative x = false) : 0 ≤ x := by
  obtain ⟨hnumber, hlt⟩ := Bool.or_eq_false_iff.1 h
  have hle : x ≤ x := by simpa [isNaN] using hnumber
  exact (RoundedQuantity.not_lt_iff hle RoundedQuantity.isNumber_zero).1 (of_decide_eq_false hlt)

theorem isNegative_eq_false_iff : isNegative x = false ↔ 0 ≤ x := by
  refine ⟨nonneg_of_not_isNegative, fun h => ?_⟩
  have hnumber : x ≤ x := RoundedQuantity.isNumber_right h
  simp [isNegative, isNaN, hnumber, RoundedQuantity.not_lt_of_le h]

theorem isAmount_iff : IsAmount x ↔ isFinite x = true ∧ 0 ≤ x :=
  ⟨fun h => ⟨h.isFinite, nonneg_of_not_isNegative h.not_isNegative⟩,
    fun h => ⟨isNegative_eq_false_iff.2 h.2, h.1⟩⟩

theorem nonneg_of_isAmount (h : IsAmount x) : 0 ≤ x :=
  nonneg_of_not_isNegative h.not_isNegative

theorem isAmount_zero : IsAmount (0 : α) :=
  isAmount_iff.2 ⟨RoundedQuantity.isFinite_zero, RoundedQuantity.isNumber_zero⟩

theorem nonneg_of_isBadDemand (h : isBadDemand x = false) : 0 ≤ x := by
  have hlt : ¬ x < 0 := by simpa using (Bool.or_eq_false_iff.1 h).2
  exact (RoundedQuantity.not_lt_iff
    (RoundedQuantity.isNumber_of_isFinite (isFinite_of_isBadDemand h))
    RoundedQuantity.isNumber_zero).1 hlt

theorem isBadDemand_eq_false_iff : isBadDemand x = false ↔ isFinite x = true ∧ 0 ≤ x := by
  refine ⟨fun h => ⟨isFinite_of_isBadDemand h, nonneg_of_isBadDemand h⟩, fun ⟨hfinite, h⟩ => ?_⟩
  simp [isBadDemand, hfinite, RoundedQuantity.not_lt_of_le h]

end LocalGrid.Simulation
