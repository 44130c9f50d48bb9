import LocalGrid.Proofs.Quantity.Readings
import LocalGrid.Proofs.Simulation.Trace

/-!
# The gate

The gate is closed by a full battery and opened by an empty one, and it acts from the next step on.
So it keeps generation off in a step exactly if some earlier step ended with a full battery and no
step since then with an empty one.
-/

namespace LocalGrid.Simulation

open Quantity RoundedQuantity

variable {σ α ω : Type} [Quantity α]

/-! ## The latch -/

/-- Some step before `k` ended with a full battery, and no step after it and before `k` ended with
an empty one. -/
def Result.Latched (result : Result α) (capacity : α) (k : ℕ) : Prop :=
  ∃ j < k, (∃ level, result.batteryLevels[j]? = some level ∧ capacity ≤ level) ∧
    ∀ i level, j < i → i < k → result.batteryLevels[i]? = some level → ¬ level ≤ 0

theorem Result.not_latched_zero (result : Result α) (capacity : α) :
    ¬ result.Latched capacity 0 := by
  rintro ⟨j, hj, -⟩
  exact absurd hj (Nat.not_lt_zero j)

/-- One more step latches with a full battery, and otherwise keeps the latch unless the battery is
empty. -/
theorem Result.latched_succ_iff {result : Result α} {capacity level : α} {k : ℕ}
    (hk : result.batteryLevels[k]? = some level) :
    result.Latched capacity (k + 1) ↔
      capacity ≤ level ∨ (¬ level ≤ 0 ∧ result.Latched capacity k) := by
  constructor
  · rintro ⟨j, hj, hfull, hsince⟩
    rcases (Nat.lt_succ_iff.1 hj).lt_or_eq with hlt | rfl
    · exact Or.inr ⟨hsince k level hlt k.lt_succ_self hk, j, hlt, hfull,
        fun i x hji hik => hsince i x hji (hik.trans k.lt_succ_self)⟩
    · obtain ⟨x, hx, hle⟩ := hfull
      obtain rfl : level = x := Option.some.inj (hk.symm.trans hx)
      exact Or.inl hle
  · rintro (hfull | ⟨hnotempty, j, hj, hfull, hsince⟩)
    · exact ⟨k, k.lt_succ_self, ⟨level, hk, hfull⟩,
        fun i x hki hik => absurd hki (Nat.not_lt.2 (Nat.lt_succ_iff.1 hik))⟩
    · refine ⟨j, hj.trans k.lt_succ_self, hfull, ?_⟩
      intro i x hji hik hx
      rcases (Nat.lt_succ_iff.1 hik).lt_or_eq with hlt | rfl
      · exact hsince i x hji hlt hx
      · obtain rfl : level = x := Option.some.inj (hk.symm.trans hx)
        exact hnotempty

theorem nextOff_eq_true_iff {off : Bool} {battery : Pool α} :
    nextOff off battery = true ↔
      battery.capacity ≤ battery.level ∨ (¬ battery.level ≤ 0 ∧ off = true) := by
  unfold nextOff Pool.isFull Pool.isEmpty
  split_ifs with hfull hempty <;> simp_all

section

variable [Quantity ω] [Widening α ω] {c : Config α} {w : Weather σ α} {s s' : σ}
  {result : Result α} {p : Profiles α} {states : ℕ → State α} {k : ℕ} {r : Record α}

/-- The closed form of the gate. -/
theorem Finished.off_iff (h : Finished c w s result s' p states)
    (hk : k ≤ result.records.length) :
    (states k).off = true ↔
      c.gating = true ∧ result.Latched (positivePart c.batteryCapacity) k := by
  induction k with
  | zero =>
      rw [h.initial_eq]
      exact iff_of_false (by simp [Config.initialState])
        fun hlatched => result.not_latched_zero _ hlatched.2
  | succ k ih =>
      have hr := List.getElem?_eq_getElem (l := result.records) (i := k) hk
      obtain ⟨x, -, hstep⟩ := h.step hr
      have hlevel : result.batteryLevels[k]? = some (states (k + 1)).battery.level := by
        rw [Result.batteryLevels, List.getElem?_map, hr, h.level_after hr]
        rfl
      rw [hstep.off_eq, Result.latched_succ_iff hlevel]
      specialize ih (Nat.le_of_succ_le hk)
      cases hgating : c.gating with
      | true =>
          have hrules : c.rules.gating = true := hgating
          rw [if_pos hrules, nextOff_eq_true_iff, h.battery_capacity hk, ih]
          simp [hgating]
      | false =>
          have hrules : ¬ c.rules.gating = true := by simp [Config.rules, hgating]
          rw [if_neg hrules, ih]
          simp [hgating]

theorem Finished.generationOff_eq (h : Finished c w s result s' p states)
    (hr : result.records[k]? = some r) :
    r.generationOff = true ↔
      c.gating = true ∧ result.Latched (positivePart c.batteryCapacity) k := by
  have hk := (List.getElem?_eq_some_iff.1 hr).1
  obtain ⟨x, -, hstep⟩ := h.step hr
  rw [hstep.generationOff_eq, Bool.and_eq_true, h.off_iff hk.le]
  exact ⟨fun hboth => hboth.2, fun hboth => ⟨hboth.1, hboth⟩⟩

/-- With a closed gate there is no output, and with an open one that of the profiles. -/
theorem Finished.outputs_eq (h : Finished c w s result s' p states)
    (hr : result.records[k]? = some r) :
    (r.generationOff = true → r.solar = 0 ∧ r.wind = 0 ∧ r.chp = 0) ∧
      (r.generationOff = false → p.solar[k]? = some r.solar ∧ p.wind[k]? = some r.wind ∧
        p.chp[k]? = some r.chp) ∧
      r.generation = r.solar + r.wind + r.chp := by
  obtain ⟨x, hx, hstep⟩ := h.step hr
  refine ⟨?_, ?_, hstep.generation_eq⟩
  · intro hoff
    rw [hstep.solar_eq, hstep.wind_eq, hstep.chp_eq, hoff]
    exact ⟨rfl, rfl, rfl⟩
  · intro hon
    rw [hstep.solar_eq, hstep.wind_eq, hstep.chp_eq, hon]
    exact ⟨hx.solar_eq, hx.wind_eq, hx.chp_eq⟩

/-- Without a gate every step generates what the profiles say. -/
theorem Finished.outputs_of_ungated (h : Finished c w s result s' p states)
    (hgating : c.gating = false) (hr : result.records[k]? = some r) :
    p.solar[k]? = some r.solar ∧ p.wind[k]? = some r.wind ∧ p.chp[k]? = some r.chp := by
  have hon : r.generationOff = false := by
    rw [← Bool.not_eq_true, h.generationOff_eq hr, hgating]
    exact fun hboth => absurd hboth.1 Bool.false_ne_true
  exact (h.outputs_eq hr).2.1 hon

end

theorem Result.latched_congr {result : Result α} {capacity capacity' : α} {k : ℕ}
    (h : ∀ x, capacity ≤ x ↔ capacity' ≤ x) :
    result.Latched capacity k ↔ result.Latched capacity' k := by
  simp only [Result.Latched, h]

/-- An accepted capacity is compared like its positive part. -/
theorem latched_positivePart_iff [RoundedQuantity α] {result : Result α} {capacity : α} {k : ℕ}
    (h : IsAmount capacity) :
    result.Latched (positivePart capacity) k ↔ result.Latched capacity k :=
  Result.latched_congr fun _ => ge_congr_of_value (value?_positivePart (nonneg_of_isAmount h))

/-- In a run the gate keeps generation off exactly while it is latched, and lets the profiles
through otherwise. -/
theorem generationOff_iff_latched {c : Config Float32} {w : Weather σ Float32} {s s' : σ}
    {result : Result Float32} (h : simulate c w s = (.ok result, s')) :
    (∀ (k : ℕ) (r : Record Float32), result.records[k]? = some r →
      (r.generationOff = true ↔ c.gating = true ∧ result.Latched c.batteryCapacity k)) ∧
    (c.gating = false → ∀ r ∈ result.records, r.generationOff = false) ∧
    ∃ p, c.profiles? w s = some (p, s') ∧
      ∀ (k : ℕ) (r : Record Float32), result.records[k]? = some r →
        (r.generationOff = true →
          r.solar = 0 ∧ r.wind = 0 ∧ r.chp = 0 ∧ r.generation = 0) ∧
        (r.generationOff = false →
          p.solar[k]? = some r.solar ∧ p.wind[k]? = some r.wind ∧ p.chp[k]? = some r.chp ∧
            r.generation = r.solar + r.wind + r.chp) := by
  obtain ⟨p, states, hfinished⟩ := exists_finished h
  have hoff : ∀ (k : ℕ) (r : Record Float32), result.records[k]? = some r →
      (r.generationOff = true ↔ c.gating = true ∧ result.Latched c.batteryCapacity k) := by
    intro k r hr
    rw [hfinished.generationOff_eq hr, latched_positivePart_iff hfinished.accepted.batteryCapacity]
  refine ⟨hoff, ?_, p, hfinished.profiles?_eq, ?_⟩
  · intro hgating r hr
    obtain ⟨k, hk⟩ := List.getElem?_of_mem hr
    rw [← Bool.not_eq_true, hoff k r hk, hgating]
    exact fun hboth => absurd hboth.1 Bool.false_ne_true
  · intro k r hr
    obtain ⟨hclosed, hopen, hsum⟩ := hfinished.outputs_eq hr
    constructor
    · intro hr'
      obtain ⟨hsolar, hwind, hchp⟩ := hclosed hr'
      refine ⟨hsolar, hwind, hchp, ?_⟩
      rw [hsum, hsolar, hwind, hchp]
      decide
    · intro hr'
      obtain ⟨hsolar, hwind, hchp⟩ := hopen hr'
      exact ⟨hsolar, hwind, hchp, hsum⟩

/-- In the sample run the gate is closed in every step but the first and the fifth. -/
theorem generationOff_iff_latched_sample : ∃ result s',
    simulate sampleConfig Weather.standard (Wind.replay []) = (.ok result, s') ∧
      result.records.map (·.generationOff) = [false, true, true, true, false, true] ∧
      ∀ (k : ℕ) (r : Record Float32), result.records[k]? = some r →
        (r.generationOff = true ↔
          sampleConfig.gating = true ∧ result.Latched sampleConfig.batteryCapacity k) := by
  obtain ⟨result, h, hoff⟩ := exists_simulate_eq
    (P := fun result : Result Float32 =>
      decide (result.records.map (·.generationOff) = [false, true, true, true, false, true]))
    (by decide +kernel : (simulate sampleConfig Weather.standard (Wind.replay [])).1.toOption.any _
      = true)
  exact ⟨result, _, h, of_decide_eq_true hoff, (generationOff_iff_latched h).1⟩

end LocalGrid.Simulation
