import LocalGrid.Proofs.Simulation.Capacities
import LocalGrid.Proofs.Simulation.Completion

/-!
# Generators out of use

A generator that is not in use and one without capacity put out the same zeros, and a limit does
not change a constant series. So the two runs have the same result, or they fail alike. They differ
in the wind alone: a turbine that is not in use takes no draw, one without capacity takes a draw for
every step.
-/

namespace LocalGrid.Simulation

open Quantity RoundedQuantity

variable {σ α ω : Type}

namespace Config

def withUse (c : Config α) (g : Generator) (inUse : Bool) : Config α :=
  match g with
  | .solar => { c with useSolar := inUse }
  | .wind => { c with useWind := inUse }
  | .chp => { c with useChp := inUse }

variable {c : Config α} {g g' : Generator} {x : α} {inUse : Bool}

@[simp] theorem uses_withUse : (c.withUse g inUse).uses g = inUse := by
  cases g <;> rfl

@[simp] theorem clock_withUse : (c.withUse g inUse).clock = c.clock := by
  cases g <;> rfl

@[simp] theorem ramp_withUse : (c.withUse g inUse).ramp = c.ramp := by
  cases g <;> rfl

@[simp] theorem rampRate_withUse : (c.withUse g inUse).rampRate = c.rampRate := by
  cases g <;> rfl

variable [Quantity α]

theorem outputs_withUse_of_ne {w : Weather σ α} {s : σ} {hours : List ℕ} (h : g' ≠ g) :
    (c.withUse g inUse).outputs w s hours g' = c.outputs w s hours g' := by
  cases g <;> cases g' <;> first | rfl | exact absurd rfl h

/-- Use and capacities are not limited by what else is configured. -/
theorem Accepted.withUse (h : c.Accepted) (g : Generator) (inUse : Bool) :
    (c.withUse g inUse).Accepted := by
  obtain ⟨h1, h2, h3, h4, h5, h6, h7, h8, h9, h10, h11, h12, h13, h14⟩ := h
  cases g <;> exact ⟨h1, h2, h3, h4, h5, h6, h7, h8, h9, h10, h11, h12, h13, h14⟩

theorem Accepted.withCapacity (h : c.Accepted) (g : Generator) (hx : IsAmount x) :
    (c.withCapacity g x).Accepted := by
  obtain ⟨h1, h2, h3, h4, h5, h6, h7, h8, h9, h10, h11, h12, h13, h14⟩ := h
  cases g with
  | solar => exact ⟨h1, h2, h3, hx, h5, h6, h7, h8, h9, h10, h11, h12, h13, h14⟩
  | wind => exact ⟨h1, h2, h3, h4, hx, h6, h7, h8, h9, h10, h11, h12, h13, h14⟩
  | chp => exact ⟨h1, h2, h3, h4, h5, hx, h7, h8, h9, h10, h11, h12, h13, h14⟩

end Config

/-! ## The same profiles -/

namespace Config

variable [Quantity α] [PackedQuantity α] {c : Config α} {w : Weather σ α} {s s' : σ}
  {p : Profiles α} {g : Generator} {hours : List ℕ} {n : ℕ}

/-- Without capacity every output is the positive zero, whatever it is read from. -/
theorem generated_zero (hday : ∀ hour, 0 * w.daylight hour = 0)
    (hdraws : ∀ x ∈ (Random.draws w.draw hours.length s).1, isFinite x = true) {y : α}
    (hy : y ∈ readings w s hours g) : generated g 0 y = 0 := by
  have hnone : installed (0 : α) = 0 := positivePart_of_not_pos (not_lt_of_le isNumber_zero)
  cases g with
  | solar =>
      obtain ⟨hour, -, rfl⟩ := List.mem_map.1 hy
      change installed 0 * w.daylight hour = 0
      rw [hnone, hday]
  | wind =>
      change installed 0 * Quantity.abs y = 0
      rw [hnone, PackedQuantity.zero_mul_abs (hdraws y hy)]
  | chp => exact hnone

omit [PackedQuantity α] in
theorem outputs_unused :
    (c.withUse g false).outputs w s hours g = List.replicate hours.length 0 := by
  rw [outputs_eq, uses_withUse, if_neg Bool.false_ne_true]

theorem outputs_empty (hday : ∀ hour, 0 * w.daylight hour = 0)
    (hdraws : ∀ x ∈ (Random.draws w.draw hours.length s).1, isFinite x = true) :
    ((c.withUse g true).withCapacity g 0).outputs w s hours g = List.replicate hours.length 0 := by
  have hlength : (readings w s hours g).length = hours.length := by
    cases g <;> simp [readings, Random.length_draws]
  rw [outputs_eq, uses_withCapacity, uses_withUse, if_pos rfl, capacity_withCapacity,
    List.eq_replicate_iff]
  refine ⟨by rw [List.length_map, hlength], fun x hx => ?_⟩
  obtain ⟨y, hy, rfl⟩ := List.mem_map.1 hx
  exact generated_zero hday hdraws hy

/-- A generator out of use has the profiles of one without capacity. -/
theorem exists_profiles?_unused_iff (hday : ∀ hour, 0 * w.daylight hour = 0)
    (hdraws : ∀ x ∈ (Random.draws w.draw c.stepCount s).1, isFinite x = true) :
    (∃ s', (c.withUse g false).profiles? w s = some (p, s')) ↔
      ∃ s', ((c.withUse g true).withCapacity g 0).profiles? w s = some (p, s') := by
  have houtputs : ∀ stamps, c.clock.timestamps? = some stamps → ∀ g',
      (c.withUse g false).outputs w s (stamps.map (·.hour)) g' =
        ((c.withUse g true).withCapacity g 0).outputs w s (stamps.map (·.hour)) g' := by
    intro stamps hstamps g'
    by_cases hne : g' = g
    · have hlength : (stamps.map (·.hour)).length = c.stepCount := by
        rw [List.length_map, length_clock_timestamps? hstamps]
      rw [hne, outputs_unused, outputs_empty hday (by rwa [hlength])]
    · rw [outputs_withUse_of_ne hne, outputs_withCapacity_of_ne hne, outputs_withUse_of_ne hne]
  simp only [profiles?_eq_some_iff_outputs, clock_withCapacity, clock_withUse, ramp_withCapacity,
    ramp_withUse, rampRate_withCapacity, rampRate_withUse]
  constructor
  · rintro ⟨-, stamps, hstamps, hall, -⟩
    exact ⟨_, stamps, hstamps, fun g' => houtputs stamps hstamps g' ▸ hall g', rfl⟩
  · rintro ⟨-, stamps, hstamps, hall, -⟩
    exact ⟨_, stamps, hstamps, fun g' => (houtputs stamps hstamps g').symm ▸ hall g', rfl⟩

/-- Without a generator there are profiles if there are any with it. -/
theorem exists_profiles?_unused (h : c.profiles? w s = some (p, s')) :
    ∃ q t, (c.withUse g false).profiles? w s = some (q, t) := by
  obtain ⟨stamps, hstamps, hall, -⟩ := profiles?_eq_some_iff_outputs.1 h
  have hzero : ∀ x ∈ List.replicate (stamps.map (·.hour)).length (0 : α), isFinite x = true :=
    fun x hx => (List.eq_of_mem_replicate hx).symm ▸ isFinite_zero
  obtain ⟨zeros, hzeros⟩ := exists_limited?_of_isFinite (targets c.ramp g) c.rampRate hzero
  refine ⟨p.withProfile g zeros, _, profiles?_eq_some_iff_outputs.2
    ⟨stamps, by rw [clock_withUse, hstamps], fun g' => ?_, rfl⟩⟩
  rw [ramp_withUse, rampRate_withUse]
  by_cases hne : g' = g
  · rw [hne, outputs_unused, hzeros, Profiles.ofGenerator_withProfile]
  · rw [outputs_withUse_of_ne hne, hall g', Profiles.ofGenerator_withProfile_of_ne hne]

end Config

/-! ## The same runs -/

section Runs

variable [Quantity α] [PackedQuantity α] [Quantity ω] [Widening α ω] {c : Config α}
  {w : Weather σ α} {s : σ} {result : Result α} {g : Generator}

theorem Config.carryOut?_unused_iff (hday : ∀ hour, 0 * w.daylight hour = 0)
    (hdraws : ∀ x ∈ (Random.draws w.draw c.stepCount s).1, isFinite x = true) :
    (∃ s', (c.withUse g false).carryOut? w s = some (result, s')) ↔
      ∃ s', ((c.withUse g true).withCapacity g 0).carryOut? w s = some (result, s') := by
  have hprofiles := fun p => exists_profiles?_unused_iff (p := p) (g := g) hday hdraws
  simp only [carryOut?_eq_some_iff]
  -- past the profiles, no step reads the use or the capacity of a generator
  constructor
  · rintro ⟨s', p, stamps, records, hp, hrest⟩
    obtain ⟨t, ht⟩ := (hprofiles p).1 ⟨s', hp⟩
    cases g <;> exact ⟨t, p, stamps, records, ht, hrest⟩
  · rintro ⟨s', p, stamps, records, hp, hrest⟩
    obtain ⟨t, ht⟩ := (hprofiles p).2 ⟨s', hp⟩
    cases g <;> exact ⟨t, p, stamps, records, ht, hrest⟩

end Runs

/-! ## Single precision -/

theorem zero_mul_halfWave (hour : ℕ) : (0 : Float32) * halfWave hour = 0 := by
  have hday : ∀ h ≤ sunset, 0 * halfWave h = 0 := by decide +kernel
  by_cases h : hour ≤ sunset
  · exact hday hour h
  · have hdark : halfWave hour = 0 := if_neg fun hlight => h hlight.2
    rw [hdark]
    decide

/-- A generator that is not in use is one without capacity: the outcomes of the two runs are the
same, bit by bit, and there is a result if there is one with the generator. Only the wind is left
behind differently. Out of use a turbine takes no draw, without capacity it takes one for every
step. -/
theorem unused_eq_empty {c : Config Float32} {draw : σ → Float32 × σ} {s : σ} (g : Generator)
    (hvalidate : c.validate = .ok ())
    (hdraws : ∀ x ∈ (Random.draws draw c.stepCount s).1, isFinite x = true) :
    (simulate (c.withUse g false) ⟨halfWave, draw⟩ s).1 =
        (simulate ((c.withUse g true).withCapacity g 0) ⟨halfWave, draw⟩ s).1 ∧
      ∀ result s', simulate c ⟨halfWave, draw⟩ s = (.ok result, s') → ∃ other,
        simulate (c.withUse g false) ⟨halfWave, draw⟩ s =
          (.ok other, if g = .wind then s else s') ∧
        simulate ((c.withUse g true).withCapacity g 0) ⟨halfWave, draw⟩ s =
          (.ok other, if g = .wind then (Random.draws draw c.stepCount s).2 else s') := by
  have haccepted := Config.accepted_of_validate hvalidate
  have hunused := Config.validate_of_accepted (haccepted.withUse g false)
  have hempty := Config.validate_of_accepted
    ((haccepted.withUse g true).withCapacity g (isAmount_zero (α := Float32)))
  have hiff : ∀ result,
      (∃ s', (c.withUse g false).carryOut? ⟨halfWave, draw⟩ s = some (result, s')) ↔
        ∃ s', ((c.withUse g true).withCapacity g 0).carryOut? ⟨halfWave, draw⟩ s =
          some (result, s') :=
    fun _ => Config.carryOut?_unused_iff zero_mul_halfWave hdraws
  refine ⟨simulate_fst_congr hunused hempty hiff, fun result s' h => ?_⟩
  obtain ⟨-, hcarry⟩ := simulate_eq_ok h
  obtain ⟨p, -, -, hp, -⟩ := Config.carryOut?_eq_some_iff.1 hcarry
  obtain ⟨q, u, hq⟩ := Config.exists_profiles?_unused (g := g) hp
  obtain ⟨other, t, hother⟩ := Config.exists_carryOut?_iff.2 (Option.isSome_iff_exists.2 ⟨_, hq⟩)
  obtain ⟨t', hother'⟩ := (hiff other).1 ⟨t, hother⟩
  refine ⟨other, ?_, ?_⟩
  · rw [simulate_of_carryOut? hunused hother, Config.state_of_carryOut? hother,
      Config.state_of_carryOut? hcarry]
    cases g <;> rfl
  · rw [simulate_of_carryOut? hempty hother', Config.state_of_carryOut? hother',
      Config.state_of_carryOut? hcarry]
    cases g <;> rfl

/-- The sample run with sun and wind, less heat and less demand, and limits that are infinite. -/
def windyConfig : Config Float32 :=
  { sampleConfig with
    solarCapacity := 20
    windCapacity := 10
    chpCapacity := 30
    rampRate := 1 / 0
    ramp := ⟨true, true, true⟩
    demand := [20, 20, 40, 40, 40, 0] }

/-- With the wind the battery fills and the gate closes. Without it neither happens, and the wind
that is left behind is the first one if the turbine is out of use, and the one after six draws if it
has no capacity. -/
theorem unused_eq_empty_windy : ∃ result other s',
    simulate windyConfig Weather.standard (Wind.replay [0.5, -2]) = (.ok result, s') ∧
      result.batteryLevels = [15, 45, 40, 50, 10, 10] ∧
      other.batteryLevels = [10, 20, 10, 0, 0, 30] ∧
      simulate (windyConfig.withUse .wind false) Weather.standard (Wind.replay [0.5, -2]) =
        (.ok other, Wind.replay [0.5, -2]) ∧
      simulate ((windyConfig.withUse .wind true).withCapacity .wind 0) Weather.standard
        (Wind.replay [0.5, -2]) = (.ok other, .sequence [0.5, -2] []) := by
  obtain ⟨result, h, hlevels⟩ := exists_simulate_eq (c := windyConfig) (w := Weather.standard)
    (s := Wind.replay [0.5, -2])
    (P := fun result : Result Float32 => decide (result.batteryLevels = [15, 45, 40, 50, 10, 10]))
    (by decide +kernel)
  obtain ⟨calm, hcalm, hlevels'⟩ := exists_simulate_eq (c := windyConfig.withUse .wind false)
    (w := Weather.standard) (s := Wind.replay [0.5, -2])
    (P := fun result : Result Float32 => decide (result.batteryLevels = [10, 20, 10, 0, 0, 30]))
    (by decide +kernel)
  obtain ⟨other, hunused, hempty⟩ :=
    (unused_eq_empty .wind (by decide +kernel) (by decide +kernel)).2 result _ h
  obtain rfl : calm = other := Except.ok.inj (Prod.mk.inj (hcalm.symm.trans hunused)).1
  exact ⟨result, calm, _, h, of_decide_eq_true hlevels, of_decide_eq_true hlevels', hunused, hempty⟩

end LocalGrid.Simulation
