import LocalGrid.Proofs.Percentile
import LocalGrid.Proofs.Simulation.Trace
import LocalGrid.Proofs.Simulation.Profiles

/-!
# Causality

A step depends on what the steps up to it were given, although the profiles of all steps are made
before the first one: draws are taken in order, a limited value looks back only, and a step reads
its own entry of each series. So a run that stops earlier has the first of the records. Only the
threshold of peak shaving is taken from the whole demand.
-/

namespace LocalGrid.Simulation

variable {σ α ω : Type}

def Profiles.take (p : Profiles α) (k : ℕ) : Profiles α :=
  ⟨p.solar.take k, p.wind.take k, p.chp.take k⟩

/-- The configuration of the first steps of a run: fewer steps, and the first entries of its
series. -/
def Config.firstSteps (c : Config α) (k : ℕ) : Config α :=
  { c with
    stepCount := k
    demand := c.demand.take k
    thermalDemand := c.thermalDemand.map (·.take k) }

variable [Quantity α]

theorem limited?_take {isTarget : Bool} {rate : α} {xs ys : List α}
    (h : limited? isTarget rate xs = some ys) (k : ℕ) :
    limited? isTarget rate (xs.take k) = some (ys.take k) := by
  cases isTarget with
  | false =>
      obtain rfl := Option.some.inj h
      rfl
  | true => exact ramp?_take h k

/-- A step has no influence on the records before it. -/
theorem Rules.steps?_take {rules : Rules α} {index : ℕ} {xs : List (StepInput α)} {s : State α}
    {rs : List (Record α)} (h : rules.steps? index xs s = some rs) (k : ℕ) :
    rules.steps? index (xs.take k) s = some (rs.take k) := by
  induction xs generalizing index s rs k with
  | nil =>
      obtain rfl : [] = rs := Option.some.inj h
      simp [steps?]
  | cons x xs ih =>
      simp only [steps?, Option.bind_eq_bind, Option.bind_eq_some_iff, Option.pure_def,
        Option.some.injEq, Prod.exists] at h
      obtain ⟨r, t, hstep, rest, hrest, rfl⟩ := h
      cases k with
      | zero => rfl
      | succ k => simp [steps?, hstep, ih hrest k]

namespace Config

variable {c : Config α} {w : Weather σ α} {s s' : σ} {p : Profiles α} {k n : ℕ}

/-- The first steps of an accepted configuration are accepted. -/
theorem Accepted.firstSteps (h : c.Accepted) (hpos : k ≠ 0) (hk : k ≤ c.stepCount) :
    (c.firstSteps k).Accepted where
  stepCount_ne_zero := hpos
  length_demand := List.length_take_of_le (h.length_demand ▸ hk)
  length_thermalDemand := by
    intro xs hxs
    obtain ⟨ys, hys, rfl⟩ := Option.map_eq_some_iff.1 hxs
    exact List.length_take_of_le (h.length_thermalDemand ys hys ▸ hk)
  solarCapacity := h.solarCapacity
  windCapacity := h.windCapacity
  chpCapacity := h.chpCapacity
  batteryCapacity := h.batteryCapacity
  thermalCapacity := h.thermalCapacity
  rampRate := h.rampRate
  batteryEfficiency := h.batteryEfficiency
  thermalEfficiency := h.thermalEfficiency
  gate := h.gate
  demand := fun x hx => h.demand x (List.mem_of_mem_take hx)
  thermalDemand := by
    intro xs hxs x hx
    obtain ⟨ys, hys, rfl⟩ := Option.map_eq_some_iff.1 hxs
    exact h.thermalDemand ys hys x (List.mem_of_mem_take hx)

/-! ## What the steps are given -/

theorem solarOutputs_take (c : Config α) (w : Weather σ α) (hours : List ℕ) (k : ℕ) :
    c.solarOutputs w (hours.take k) = (c.solarOutputs w hours).take k := by
  unfold solarOutputs
  split_ifs <;> simp [List.map_take, List.take_replicate]

/-- The first draws are taken from the same states of the wind. -/
theorem windOutputs_take (c : Config α) (w : Weather σ α) (s : σ) (hk : k ≤ n) :
    (c.windOutputs w k s).1 = (c.windOutputs w n s).1.take k := by
  unfold windOutputs
  split_ifs
  · simp [← Random.take_draws w.draw hk, List.map_take]
  · simp [List.take_replicate, hk]

theorem chpOutputs_take (c : Config α) (hk : k ≤ n) :
    c.chpOutputs k = (c.chpOutputs n).take k := by
  simp [chpOutputs, List.take_replicate, hk]

/-- The profiles of the first steps are the first values of the profiles. -/
theorem profiles?_firstSteps (h : c.profiles? w s = some (p, s')) (hk : k ≤ c.stepCount) :
    ∃ t, (c.firstSteps k).profiles? w s = some (p.take k, t) := by
  obtain ⟨stamps, hstamps, hsolar, hwind, hchp, -⟩ := profiles?_eq_some_iff.1 h
  have hlength := length_clock_timestamps? hstamps
  have hstamps' : (c.firstSteps k).clock.timestamps? = some (stamps.take k) :=
    Clock.timestamps?_take hstamps hk
  have hlength : (stamps.take k).length = k :=
    List.length_take_of_le (length_clock_timestamps? hstamps ▸ hk)
  have hle : k ≤ stamps.length := length_clock_timestamps? hstamps ▸ hk
  refine ⟨_, profiles?_eq_some_iff.2 ⟨stamps.take k, hstamps', ?_, ?_, ?_, rfl⟩⟩
  · rw [List.map_take]
    exact (congrArg _ (c.solarOutputs_take w _ k)).trans (limited?_take hsolar k)
  · rw [hlength]
    exact (congrArg _ (c.windOutputs_take w s hle)).trans (limited?_take hwind k)
  · rw [hlength]
    exact (congrArg _ (c.chpOutputs_take hle)).trans (limited?_take hchp k)

omit [Quantity α] in
/-- The first steps are given what they are given in the whole run. -/
theorem inputs_firstSteps (c : Config α) (stamps : List Calendar.Timestamp) (p : Profiles α)
    (k : ℕ) :
    (c.firstSteps k).inputs (stamps.take k) (p.take k) = (c.inputs stamps p).take k := by
  unfold inputs firstSteps Profiles.take
  cases c.thermalDemand <;> simp [List.zip_eq_zipWith, List.take_zipWith, List.map_take]

theorem initialState_firstSteps (c : Config α) (k : ℕ) :
    (c.firstSteps k).initialState = c.initialState := by
  unfold initialState firstSteps
  cases c.thermalDemand <;> rfl

variable [Quantity ω] [Widening α ω] {result : Result α}

/-- A threshold is taken only for peak shaving. -/
theorem peakThreshold?_firstSteps (h : c.dispatchMode = .peakShaving →
    (c.firstSteps k).peakThreshold? = c.peakThreshold?) :
    (c.firstSteps k).peakThreshold? = c.peakThreshold? := by
  cases hmode : c.dispatchMode with
  | default =>
      have hmode' : (c.firstSteps k).dispatchMode = .default := hmode
      rw [peakThreshold?, peakThreshold?, hmode, hmode']
  | peakShaving => exact h hmode

theorem rules_firstSteps (h : (c.firstSteps k).peakThreshold? = c.peakThreshold?) :
    (c.firstSteps k).rules = c.rules := by
  rw [rules, rules, h]
  rfl

/-- A run that stops earlier goes through the first steps. -/
theorem carryOut?_firstSteps (hcarry : c.carryOut? w s = some (result, s'))
    (hk : k ≤ c.stepCount) (hthreshold : (c.firstSteps k).peakThreshold? = c.peakThreshold?) :
    ∃ t, (c.firstSteps k).carryOut? w s =
      some ({ result with records := result.records.take k }, t) := by
  obtain ⟨p, stamps, records, hp, hstamps, hrecords, rfl⟩ := carryOut?_eq_some_iff.1 hcarry
  obtain ⟨t, hp'⟩ := profiles?_firstSteps hp hk
  refine ⟨t, carryOut?_eq_some_iff.2 ⟨p.take k, stamps.take k, records.take k, hp',
    Clock.timestamps?_take hstamps hk, ?_, ?_⟩⟩
  · rw [inputs_firstSteps, rules_firstSteps hthreshold, initialState_firstSteps]
    exact Rules.steps?_take hrecords k
  · rw [hthreshold, initialState_firstSteps]
    rfl

end Config

variable [Quantity ω] [Widening α ω] {c : Config α} {w : Weather σ α} {s s' : σ}
  {result : Result α} {k : ℕ}

/-- A run of the first steps of a configuration has a result, and it has the first records of the
whole run, as long as peak shaving sees the same threshold. No value of a step is taken from a later
one. -/
theorem firstSteps_records (h : simulate c w s = (.ok result, s')) (hpos : 1 ≤ k)
    (hk : k ≤ c.stepCount)
    (hthreshold : c.dispatchMode = .peakShaving →
      (c.firstSteps k).peakThreshold? = c.peakThreshold?) :
    ∃ t, simulate (c.firstSteps k) w s =
      (.ok { result with records := result.records.take k }, t) := by
  obtain ⟨hvalidate, hcarry⟩ := simulate_eq_ok h
  have haccepted := (Config.accepted_of_validate hvalidate).firstSteps
    (Nat.one_le_iff_ne_zero.1 hpos) hk
  obtain ⟨t, hcarry'⟩ := Config.carryOut?_firstSteps hcarry hk
    (Config.peakThreshold?_firstSteps hthreshold)
  exact ⟨t, simulate_of_carryOut? (Config.validate_of_accepted haccepted) hcarry'⟩

/-- The sample run with peak shaving, a peak in the second hour and one hour more. -/
def earlyPeak : Config Float32 :=
  { sampleConfig with
    stepCount := 7
    dispatchMode := .peakShaving
    demand := [0, 60, 40, 40, 40, 40, 40]
    thermalDemand := some [60, 120, 120, 60, 100, 100, 100] }

/-- Without its last hour the run shaves the same peak. -/
theorem firstSteps_records_early : ∃ result s' t,
    simulate earlyPeak Weather.standard (Wind.replay []) = (.ok result, s') ∧
      result.batteryLevels = [50, 0, 50, 50, 50, 50, 50] ∧
      (earlyPeak.firstSteps 6).peakThreshold? = earlyPeak.peakThreshold? ∧
      simulate (earlyPeak.firstSteps 6) Weather.standard (Wind.replay []) =
        (.ok { result with records := result.records.take 6 }, t) := by
  have hwhole : earlyPeak.peakThreshold? = some 40 := by
    rw [Config.peakThreshold?_eq_of_perm [0, 40, 40, 40, 40, 40, 60] rfl (by decide +kernel)
      (by decide +kernel)]
    decide +kernel
  have hfirst : (earlyPeak.firstSteps 6).peakThreshold? = some 40 := by
    rw [Config.peakThreshold?_eq_of_perm [0, 40, 40, 40, 40, 60] rfl (by decide +kernel)
      (by decide +kernel)]
    decide +kernel
  have hrun : (simulate earlyPeak Weather.standard (Wind.replay [])).1.toOption.any (fun result =>
      decide (result.batteryLevels = [50, 0, 50, 50, 50, 50, 50])) = true := by
    simp only [simulate, Config.carryOut?, Config.rules, hwhole]
    decide +kernel
  have hthreshold : (earlyPeak.firstSteps 6).peakThreshold? = earlyPeak.peakThreshold? :=
    hfirst.trans hwhole.symm
  obtain ⟨result, h, hresult⟩ := exists_simulate_eq hrun
  obtain ⟨t, ht⟩ := firstSteps_records h (k := 6) (by decide) (by decide) fun _ => hthreshold
  exact ⟨result, _, t, h, of_decide_eq_true hresult, hthreshold, ht⟩

end LocalGrid.Simulation
