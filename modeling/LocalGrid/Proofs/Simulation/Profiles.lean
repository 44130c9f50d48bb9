import LocalGrid.Proofs.Clock
import LocalGrid.Proofs.Quantity.Readings
import LocalGrid.Proofs.Ramp
import LocalGrid.Proofs.Simulation.Accepted
import LocalGrid.Simulation.Profiles

/-!
# Profiles of accepted configurations

An accepted configuration has outputs that are not negative. Those of sun and CHP are finite as
well, while a wind output may be infinite, since the draw of the wind has no bound. So the profiles
exist if every step lies in the calendar and a limit on the wind has a window at every step.
-/

namespace LocalGrid

open Quantity RoundedQuantity

/-- In single precision, daylight is a share at every hour. -/
theorem isShare_halfWave (hour : ℕ) : isShare (halfWave hour) = true := by
  have hday : ∀ h ≤ sunset, isShare (halfWave h) = true := by decide +kernel
  by_cases h : hour ≤ sunset
  · exact hday hour h
  · have hdark : halfWave hour = 0 := if_neg fun hlight => h hlight.2
    rw [hdark]
    decide

namespace Simulation

variable {σ α : Type} [Quantity α]

theorem length_limited? {isTarget : Bool} {rate : α} {xs ys : List α}
    (h : limited? isTarget rate xs = some ys) : ys.length = xs.length := by
  cases isTarget with
  | false => rw [← Option.some.inj h]
  | true => exact length_ramp? h

structure Profiles.Covers (p : Profiles α) (n : ℕ) : Prop where
  length_solar : p.solar.length = n
  length_wind : p.wind.length = n
  length_chp : p.chp.length = n

namespace Config

variable {c : Config α} {w : Weather σ α} {s s' : σ} {p : Profiles α} {n : ℕ}

@[simp] theorem length_solarOutputs (c : Config α) (w : Weather σ α) (hours : List ℕ) :
    (c.solarOutputs w hours).length = hours.length := by
  unfold solarOutputs
  split_ifs <;> simp

@[simp] theorem length_windOutputs (c : Config α) (w : Weather σ α) (n : ℕ) (s : σ) :
    (c.windOutputs w n s).1.length = n := by
  unfold windOutputs
  split_ifs <;> simp [Random.length_draws]

@[simp] theorem length_chpOutputs (c : Config α) (n : ℕ) : (c.chpOutputs n).length = n := by
  simp [chpOutputs]

theorem profiles?_eq_some_iff :
    c.profiles? w s = some (p, s') ↔ ∃ stamps, c.clock.timestamps? = some stamps ∧
      limited? c.ramp.solar c.rampRate (c.solarOutputs w (stamps.map (·.hour))) = some p.solar ∧
      limited? c.ramp.wind c.rampRate (c.windOutputs w stamps.length s).1 = some p.wind ∧
      limited? c.ramp.chp c.rampRate (c.chpOutputs stamps.length) = some p.chp ∧
      s' = (c.windOutputs w stamps.length s).2 := by
  simp only [profiles?, Option.bind_eq_bind, Option.bind_eq_some_iff, Option.pure_def,
    Option.some.injEq, Prod.mk.injEq]
  constructor
  · rintro ⟨stamps, hstamps, solar, hsolar, wind, hwind, chp, hchp, rfl, rfl⟩
    exact ⟨stamps, hstamps, hsolar, hwind, hchp, rfl⟩
  · rintro ⟨stamps, hstamps, hsolar, hwind, hchp, rfl⟩
    exact ⟨stamps, hstamps, _, hsolar, _, hwind, _, hchp, rfl, rfl⟩

omit [Quantity α] in
theorem length_clock_timestamps? {stamps : List Calendar.Timestamp}
    (h : c.clock.timestamps? = some stamps) : stamps.length = c.stepCount :=
  Clock.length_timestamps? h

theorem covers_of_profiles? (h : c.profiles? w s = some (p, s')) : p.Covers c.stepCount := by
  obtain ⟨stamps, hstamps, hsolar, hwind, hchp, -⟩ := profiles?_eq_some_iff.1 h
  have hlength := length_clock_timestamps? hstamps
  refine ⟨?_, ?_, ?_⟩
  · rw [length_limited? hsolar, length_solarOutputs, List.length_map, hlength]
  · rw [length_limited? hwind, length_windOutputs, hlength]
  · rw [length_limited? hchp, length_chpOutputs, hlength]

end Config

/-- Profiles in which only the wind may be infinite. -/
structure Profiles.Sound (p : Profiles α) : Prop where
  solar_nonneg : ∀ x ∈ p.solar, 0 ≤ x
  wind_nonneg : ∀ x ∈ p.wind, 0 ≤ x
  chp_nonneg : ∀ x ∈ p.chp, 0 ≤ x
  isFinite_solar : ∀ x ∈ p.solar, isFinite x = true
  isFinite_chp : ∀ x ∈ p.chp, isFinite x = true

section Rounded

variable [RoundedQuantity α]

theorem nonneg_of_limited? {isTarget : Bool} {rate : α} {xs ys : List α} (hxs : ∀ x ∈ xs, 0 ≤ x)
    (h : limited? isTarget rate xs = some ys) : ∀ y ∈ ys, 0 ≤ y := by
  cases isTarget with
  | false =>
      obtain rfl := Option.some.inj h
      exact hxs
  | true => exact nonneg_of_ramp? hxs h

theorem isFinite_of_limited? {isTarget : Bool} {rate : α} {xs ys : List α}
    (hxs : ∀ x ∈ xs, isFinite x = true) (h : limited? isTarget rate xs = some ys) :
    ∀ y ∈ ys, isFinite y = true := by
  cases isTarget with
  | false =>
      obtain rfl := Option.some.inj h
      exact hxs
  | true => exact isFinite_of_ramp? hxs h

theorem exists_limited? (isTarget : Bool) (rate : α) {xs : List α} (hxs : ∀ x ∈ xs, 0 ≤ x)
    (h : isTarget = true →
      isFinite (positivePart rate) = true ∨ ∀ x ∈ xs.dropLast, isFinite x = true) :
    ∃ ys, limited? isTarget rate xs = some ys := by
  cases isTarget with
  | false => exact ⟨xs, rfl⟩
  | true => exact exists_ramp? hxs (h rfl)

theorem isFinite_installed {x : α} (h : IsAmount x) : isFinite (installed x) = true :=
  isFinite_positivePart h.isFinite (isNumber_of_isFinite h.isFinite)

namespace Config

variable {c : Config α} {w : Weather σ α} {s s' : σ} {p : Profiles α} {n : ℕ}

theorem solarOutputs_sound (h : c.Accepted) (hday : ∀ hour, isShare (w.daylight hour) = true)
    (hours : List ℕ) : ∀ x ∈ c.solarOutputs w hours, 0 ≤ x ∧ isFinite x = true := by
  intro x hx
  unfold solarOutputs at hx
  split_ifs at hx with huse
  · obtain ⟨hour, -, rfl⟩ := List.mem_map.1 hx
    obtain ⟨h0, h1⟩ := isShare_iff.1 (hday hour)
    have hfinite := isFinite_installed h.solarCapacity
    obtain ⟨hnonneg, hle⟩ := mul_share hfinite (positivePart_nonneg _) h0 h1
    exact ⟨hnonneg, isFinite_of_le_of_le isFinite_zero hfinite hnonneg hle⟩
  · obtain rfl := List.eq_of_mem_replicate hx
    exact ⟨isNumber_zero, isFinite_zero⟩

theorem windOutputs_nonneg (h : c.Accepted)
    (hdraws : ∀ x ∈ (Random.draws w.draw n s).1, isFinite x = true) :
    ∀ x ∈ (c.windOutputs w n s).1, 0 ≤ x := by
  intro x hx
  unfold windOutputs at hx
  split_ifs at hx with huse
  · obtain ⟨draw, hdraw, rfl⟩ := List.mem_map.1 hx
    have hfinite := hdraws draw hdraw
    exact nonneg_mul (isFinite_installed h.windCapacity) (isFinite_abs hfinite)
      (positivePart_nonneg _) (nonneg_abs (isNumber_of_isFinite hfinite))
  · obtain rfl := List.eq_of_mem_replicate hx
    exact isNumber_zero

theorem chpOutput_sound (h : c.Accepted) :
    0 ≤ (if c.useChp then chpOutput c.chpCapacity else 0) ∧
      isFinite (if c.useChp then chpOutput c.chpCapacity else 0) = true := by
  split_ifs
  · exact ⟨positivePart_nonneg _, isFinite_installed h.chpCapacity⟩
  · exact ⟨isNumber_zero, isFinite_zero⟩

/-- The output of CHP is constant, so a limit does not change it. -/
theorem limited?_chpOutputs (h : c.Accepted) (isTarget : Bool) (rate : α) (n : ℕ) :
    limited? isTarget rate (c.chpOutputs n) = some (c.chpOutputs n) := by
  cases isTarget with
  | false => rfl
  | true => exact ramp?_replicate (chpOutput_sound h).2 rate n

theorem chp_of_profiles? (h : c.Accepted) (hp : c.profiles? w s = some (p, s')) :
    p.chp = c.chpOutputs c.stepCount := by
  obtain ⟨stamps, hstamps, -, -, hchp, -⟩ := profiles?_eq_some_iff.1 hp
  rw [limited?_chpOutputs h, length_clock_timestamps? hstamps, Option.some.injEq] at hchp
  exact hchp.symm

theorem chp_sound (h : c.Accepted) (hp : c.profiles? w s = some (p, s')) :
    ∀ x ∈ p.chp, 0 ≤ x ∧ isFinite x = true := by
  intro x hx
  rw [chp_of_profiles? h hp] at hx
  obtain rfl := List.eq_of_mem_replicate hx
  exact chpOutput_sound h

theorem sound_of_profiles? (h : c.Accepted) (hday : ∀ hour, isShare (w.daylight hour) = true)
    (hdraws : ∀ x ∈ (Random.draws w.draw c.stepCount s).1, isFinite x = true)
    (hp : c.profiles? w s = some (p, s')) : p.Sound := by
  have hsun := solarOutputs_sound h hday
  have hchp := chp_sound h hp
  obtain ⟨stamps, hstamps, hsolar, hwind, -, -⟩ := profiles?_eq_some_iff.1 hp
  rw [length_clock_timestamps? hstamps] at hwind
  exact {
    solar_nonneg := nonneg_of_limited? (fun x hx => (hsun _ x hx).1) hsolar
    wind_nonneg := nonneg_of_limited? (windOutputs_nonneg h hdraws) hwind
    chp_nonneg := fun x hx => (hchp x hx).1
    isFinite_solar := isFinite_of_limited? (fun x hx => (hsun _ x hx).2) hsolar
    isFinite_chp := fun x hx => (hchp x hx).2 }

/-- Sun and CHP are finite and can be limited at any rate, so the profiles exist exactly if every
step has a timestamp and the wind can be limited. -/
theorem profiles?_isSome_iff_wind (h : c.Accepted)
    (hday : ∀ hour, isShare (w.daylight hour) = true) :
    (c.profiles? w s).isSome = true ↔
      (∀ i < c.stepCount, (c.clock.timestamp? (UInt64.ofNat i)).isSome = true) ∧
      (limited? c.ramp.wind c.rampRate (c.windOutputs w c.stepCount s).1).isSome = true := by
  have hclock : c.clock.timestamps?.isSome = true ↔
      ∀ i < c.stepCount, (c.clock.timestamp? (UInt64.ofNat i)).isSome = true := by
    rw [Clock.timestamps?_isSome_iff]
    exact forall_congr' fun i => ⟨fun hi => hi i.zero_le, fun hi _ => hi⟩
  have hsun := solarOutputs_sound h hday
  rw [← hclock]
  simp only [Option.isSome_iff_exists, Prod.exists, profiles?_eq_some_iff]
  constructor
  · rintro ⟨p, s', stamps, hstamps, -, hwind, -⟩
    rw [length_clock_timestamps? hstamps] at hwind
    exact ⟨⟨stamps, hstamps⟩, p.wind, hwind⟩
  · rintro ⟨⟨stamps, hstamps⟩, wind, hwind⟩
    rw [← length_clock_timestamps? hstamps] at hwind
    obtain ⟨solar, hsolar⟩ := exists_limited? c.ramp.solar c.rampRate
      (fun x hx => (hsun (stamps.map (·.hour)) x hx).1)
      (fun _ => Or.inr fun x hx => (hsun _ x (List.mem_of_mem_dropLast hx)).2)
    exact ⟨⟨solar, wind, _⟩, _, stamps, hstamps, hsolar, hwind, limited?_chpOutputs h _ _ _, rfl⟩

end Config

end Rounded

section Packed

variable [PackedQuantity α]

theorem limited?_isSome_iff {isTarget : Bool} {rate : α} {xs : List α} (hxs : ∀ x ∈ xs, 0 ≤ x) :
    (limited? isTarget rate xs).isSome = true ↔ (isTarget = true →
      isFinite (positivePart rate) = true ∨ ∀ x ∈ xs.dropLast, isFinite x = true) := by
  cases isTarget with
  | false => exact iff_of_true rfl fun h => absurd h Bool.false_ne_true
  | true => exact (ramp?_isSome_iff hxs).trans ⟨fun h _ => h, fun h => h rfl⟩

namespace Config

variable {c : Config α} {w : Weather σ α} {s : σ}

/-- The profiles exist exactly if every step has a timestamp and a limit on the wind, if there is
one, is finite or follows no infinite output. -/
theorem profiles?_isSome_iff (h : c.Accepted) (hday : ∀ hour, isShare (w.daylight hour) = true)
    (hdraws : ∀ x ∈ (Random.draws w.draw c.stepCount s).1, isFinite x = true) :
    (c.profiles? w s).isSome = true ↔
      (∀ i < c.stepCount, (c.clock.timestamp? (UInt64.ofNat i)).isSome = true) ∧
      (c.ramp.wind = true → isFinite (positivePart c.rampRate) = true ∨
        ∀ x ∈ (c.windOutputs w c.stepCount s).1.dropLast, isFinite x = true) := by
  rw [profiles?_isSome_iff_wind h hday, limited?_isSome_iff (windOutputs_nonneg h hdraws)]

end Config

end Packed

end Simulation

end LocalGrid
