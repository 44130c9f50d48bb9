import LocalGrid.Proofs.Simulation.ClosedGate
import LocalGrid.Proofs.Simulation.Profiles

/-!
# Which runs complete

The steps of a run never fail: a store has a capacity that is not negative, so its level can always
be moved. Everything that an accepted configuration can fail at is in its profiles. It fails at a
step outside the calendar, and at an infinite limit on the wind after an infinite output.
-/

namespace LocalGrid.Simulation

open Quantity RoundedQuantity

variable {σ α ω : Type} [Quantity α]

/-! ## One step -/

theorem exists_heatStep? (hours chp demand : α) {pool : Pool α} (h : 0 ≤ pool.capacity) :
    ∃ heat q, heatStep? hours chp demand pool = some (heat, q) ∧ q.SameStore pool := by
  by_cases hnet : 0 < (chp - demand) * hours
  · obtain ⟨change, q, hq⟩ := Pool.exists_charge? h ((chp - demand) * hours)
    exact ⟨_, q, heatStep?_of_charge? hnet hq, Pool.charge?_keeps hq⟩
  · obtain ⟨change, q, hq⟩ := Pool.exists_discharge? h (-((chp - demand) * hours))
    exact ⟨_, q, heatStep?_of_discharge? hnet hq, Pool.discharge?_keeps hq⟩

/-- The stores of a state have capacities that are not negative. -/
structure State.HasRoom (t : State α) : Prop where
  battery : 0 ≤ t.battery.capacity
  thermal : ∀ pool, t.thermal = some pool → 0 ≤ pool.capacity

theorem exists_thermalStep? (hours chp : α) (demand : Option α) {thermal : Option (Pool α)}
    (h : ∀ pool, thermal = some pool → 0 ≤ pool.capacity) :
    ∃ heat next, thermalStep? hours chp demand thermal = some (heat, next) ∧
      ∀ pool, next = some pool → 0 ≤ pool.capacity := by
  cases thermal with
  | none => cases demand <;> exact ⟨none, none, rfl, h⟩
  | some pool =>
      cases demand with
      | none => exact ⟨none, some pool, rfl, h⟩
      | some d =>
          obtain ⟨heat, q, hq, hsame⟩ := exists_heatStep? hours chp d (h pool rfl)
          refine ⟨some heat, some q, by simp [thermalStep?, hq], ?_⟩
          intro next hnext
          obtain rfl := Option.some.inj hnext
          rw [hsame.1]
          exact h pool rfl

namespace Rules

variable {s : State α}

theorem exists_step? (rules : Rules α) (h : s.HasRoom) (index : ℕ) (x : StepInput α) :
    ∃ r t, rules.step? index x s = some (r, t) ∧ t.HasRoom := by
  obtain ⟨heat, thermal, hthermal, hroom⟩ :=
    exists_thermalStep? rules.hours x.chp x.thermalDemand h.thermal
  obtain ⟨exchange, battery, hbattery⟩ := rules.policy.exists_dispatch? h.battery
    ⟨(if rules.gating && s.off then 0 else x.solar) +
      (if rules.gating && s.off then 0 else x.wind) +
      (if rules.gating && s.off then 0 else x.chp), x.demand, rules.hours⟩
  have hcapacity := (rules.policy.dispatch?_keeps hbattery).1
  simp only [step?, hbattery, hthermal, Option.bind_eq_bind, Option.bind_some, Option.pure_def]
  exact ⟨_, _, rfl, hcapacity ▸ h.battery, hroom⟩

theorem exists_steps? (rules : Rules α) (h : s.HasRoom) (index : ℕ)
    (xs : List (StepInput α)) : ∃ rs, rules.steps? index xs s = some rs := by
  induction xs generalizing index s with
  | nil => exact ⟨[], rfl⟩
  | cons x xs ih =>
      obtain ⟨r, t, hstep, hroom⟩ := rules.exists_step? h index x
      obtain ⟨rs, hrs⟩ := ih hroom (index + 1)
      exact ⟨r :: rs, by simp [steps?, hstep, hrs]⟩

end Rules

/-! ## All steps -/

theorem Config.length_inputs {c : Config α} {stamps : List Calendar.Timestamp} {p : Profiles α}
    (h : c.Accepted) (hstamps : stamps.length = c.stepCount) (hp : p.Covers c.stepCount) :
    (c.inputs stamps p).length = c.stepCount := by
  have hdemand := h.length_demand
  unfold inputs
  cases hthermal : c.thermalDemand with
  | none =>
      simp [hstamps, hp.length_solar, hp.length_wind, hp.length_chp, hdemand]
  | some xs =>
      have hxs := h.length_thermalDemand xs hthermal
      simp [hstamps, hp.length_solar, hp.length_wind, hp.length_chp, hdemand, hxs]

section

variable [Quantity ω] [Widening α ω] {c : Config α} {w : Weather σ α} {s s' : σ}
  {result : Result α}

/-- The wind after a run is the wind after its outputs. -/
theorem Config.state_of_carryOut? (h : c.carryOut? w s = some (result, s')) :
    s' = (c.windOutputs w c.stepCount s).2 := by
  obtain ⟨p, -, -, hp, -⟩ := carryOut?_eq_some_iff.1 h
  obtain ⟨stamps, hstamps, -, -, -, hstate⟩ := profiles?_eq_some_iff.1 hp
  rw [hstate, length_clock_timestamps? hstamps]

/-- A run has one record for each of its steps. -/
theorem length_records (h : simulate c w s = (.ok result, s')) :
    result.records.length = c.stepCount := by
  obtain ⟨hvalidate, hcarry⟩ := simulate_eq_ok h
  have haccepted := Config.accepted_of_validate hvalidate
  obtain ⟨p, stamps, records, hp, hstamps, hrecords, rfl⟩ := Config.carryOut?_eq_some_iff.1 hcarry
  obtain ⟨-, -, hlength, -⟩ := Rules.exists_states hrecords
  rw [hlength, Config.length_inputs haccepted (Config.length_clock_timestamps? hstamps)
    (Config.covers_of_profiles? hp)]

variable [RoundedQuantity α]

theorem Config.hasRoom_initialState (c : Config α) : c.initialState.HasRoom where
  battery := positivePart_nonneg _
  thermal := by
    intro pool hpool
    obtain ⟨_, _, rfl⟩ := Option.map_eq_some_iff.1 hpool
    exact positivePart_nonneg _

/-- A run fails at its profiles or not at all. -/
theorem Config.exists_carryOut?_iff :
    (∃ result s', c.carryOut? w s = some (result, s')) ↔ (c.profiles? w s).isSome = true := by
  simp only [carryOut?_eq_some_iff, Option.isSome_iff_exists, Prod.exists]
  constructor
  · rintro ⟨-, s', p, -, -, hp, -⟩
    exact ⟨p, s', hp⟩
  · rintro ⟨p, s', hp⟩
    obtain ⟨stamps, hstamps, -⟩ := profiles?_eq_some_iff.1 hp
    obtain ⟨records, hrecords⟩ := c.rules.exists_steps? c.hasRoom_initialState 0
      (c.inputs stamps p)
    exact ⟨_, s', p, stamps, records, hp, hstamps, hrecords, rfl⟩

end

/-! ## Single precision -/

/-- An accepted configuration with finite draws completes, with one record for each step, exactly if
all of its steps lie in the calendar and no infinite limit on the wind follows an infinite output. -/
theorem completes_iff {c : Config Float32} {draw : σ → Float32 × σ} {s : σ}
    (hvalidate : c.validate = .ok ())
    (hdraws : ∀ x ∈ (Random.draws draw c.stepCount s).1, isFinite x = true) :
    (∃ result s', simulate c ⟨halfWave, draw⟩ s = (.ok result, s') ∧
      result.records.length = c.stepCount ∧
      (c.dispatchMode = .peakShaving → result.peakThreshold.isSome = true)) ↔
    (∀ i < c.stepCount, (c.clock.timestamp? (UInt64.ofNat i)).isSome = true) ∧
      (c.ramp.wind = true → isFinite c.rampRate = false →
        ∀ x ∈ (c.windOutputs ⟨halfWave, draw⟩ c.stepCount s).1.dropLast, isFinite x = true) := by
  have haccepted := Config.accepted_of_validate hvalidate
  have hprofiles := Config.profiles?_isSome_iff (w := ⟨halfWave, draw⟩) (s := s) haccepted
    isShare_halfWave hdraws
  rw [← Config.exists_carryOut?_iff,
    isFinite_positivePart_eq (nonneg_of_not_isNegative haccepted.rampRate)] at hprofiles
  constructor
  · rintro ⟨result, s', h, -⟩
    obtain ⟨hstamps, hwind⟩ := hprofiles.1 ⟨result, s', (simulate_eq_ok h).2⟩
    exact ⟨hstamps, fun htarget hrate => (hwind htarget).resolve_left (by simp [hrate])⟩
  · rintro ⟨hstamps, hwind⟩
    have hlimit : c.ramp.wind = true → isFinite c.rampRate = true ∨
        ∀ x ∈ (c.windOutputs ⟨halfWave, draw⟩ c.stepCount s).1.dropLast, isFinite x = true := by
      intro htarget
      cases hrate : isFinite c.rampRate with
      | true => exact Or.inl rfl
      | false => exact Or.inr (hwind htarget hrate)
    obtain ⟨result, s', hcarry⟩ := hprofiles.2 ⟨hstamps, hlimit⟩
    have h := simulate_of_carryOut? hvalidate hcarry
    refine ⟨result, s', h, length_records h, fun hmode => ?_⟩
    obtain ⟨p, states, hfinished⟩ := exists_finished h
    obtain ⟨threshold, hthreshold⟩ := Config.exists_peakThreshold hmode haccepted.demand_ne_nil
    rw [hfinished.peakThreshold_eq, hthreshold]
    rfl

/-- Two hours up to the end of the calendar, with a wind capacity near the greatest number and no
limit on the wind. -/
def lastHours : Config Float32 :=
  { Config.new .hourly ⟨Calendar.lastDay, 79200, 0⟩ [0, 0] with
    windCapacity := 3e38
    rampRate := 1 / 0
    gating := false }

/-- An infinite output in the last hour of the calendar does no harm. -/
theorem completes_iff_lastHours : ∃ result s',
    simulate lastHours ⟨halfWave, Wind.draw⟩ (Wind.replay [0, 2]) = (.ok result, s') ∧
      result.records.length = 2 ∧
      (lastHours.dispatchMode = .peakShaving → result.peakThreshold.isSome = true) :=
  (completes_iff (c := lastHours) (by decide +kernel) (by decide +kernel)).2
    ⟨by decide +kernel, by decide +kernel⟩

/-- An infinite output in the hour before leaves the limit without a window, and one hour more
leaves the calendar. -/
theorem accepted_breakdowns :
    (lastHours.validate = .ok () ∧
      (∀ x ∈ (Random.draws Wind.draw 2 (Wind.replay [2])).1, isFinite x = true) ∧
      (simulate lastHours ⟨halfWave, Wind.draw⟩ (Wind.replay [2])).1 = .error .breakdown) ∧
    ({ lastHours with stepCount := 3, demand := [0, 0, 0] }.validate = .ok () ∧
      (∀ x ∈ (Random.draws Wind.draw 3 (Wind.replay [0])).1, isFinite x = true) ∧
      (simulate { lastHours with stepCount := 3, demand := [0, 0, 0] } ⟨halfWave, Wind.draw⟩
        (Wind.replay [0])).1 = .error .breakdown) := by
  decide +kernel

end LocalGrid.Simulation
