import LocalGrid.Proofs.Quantity.Special
import LocalGrid.Proofs.Ramp.Window
import LocalGrid.Proofs.Simulation.Profiles

/-!
# Profiles and capacities

The outputs of a generator are shares of its capacity, so a greater capacity has greater outputs as
long as they are finite. A limit keeps the order of two series, so the profile is greater as well,
whether it is limited or not, and the profiles of the other generators are the same.
-/

namespace LocalGrid.Simulation

open Quantity RoundedQuantity

variable {σ α : Type}

/-! ## The parts of one generator -/

def Profiles.ofGenerator (p : Profiles α) : Generator → List α
  | .solar => p.solar
  | .wind => p.wind
  | .chp => p.chp

def Profiles.withProfile (p : Profiles α) (g : Generator) (xs : List α) : Profiles α :=
  match g with
  | .solar => { p with solar := xs }
  | .wind => { p with wind := xs }
  | .chp => { p with chp := xs }

@[simp] theorem Profiles.ofGenerator_withProfile {p : Profiles α} {g : Generator} {xs : List α} :
    (p.withProfile g xs).ofGenerator g = xs := by
  cases g <;> rfl

theorem Profiles.ofGenerator_withProfile_of_ne {p : Profiles α} {g g' : Generator} {xs : List α}
    (h : g' ≠ g) : (p.withProfile g xs).ofGenerator g' = p.ofGenerator g' := by
  cases g <;> cases g' <;> first | rfl | exact absurd rfl h

def targets (r : RampTargets) : Generator → Bool
  | .solar => r.solar
  | .wind => r.wind
  | .chp => r.chp

namespace Config

def capacity (c : Config α) : Generator → α
  | .solar => c.solarCapacity
  | .wind => c.windCapacity
  | .chp => c.chpCapacity

def withCapacity (c : Config α) (g : Generator) (x : α) : Config α :=
  match g with
  | .solar => { c with solarCapacity := x }
  | .wind => { c with windCapacity := x }
  | .chp => { c with chpCapacity := x }

def uses (c : Config α) : Generator → Bool
  | .solar => c.useSolar
  | .wind => c.useWind
  | .chp => c.useChp

variable {c : Config α} {g g' : Generator} {x : α}

@[simp] theorem capacity_withCapacity : (c.withCapacity g x).capacity g = x := by
  cases g <;> rfl

@[simp] theorem uses_withCapacity : (c.withCapacity g x).uses = c.uses := by
  cases g <;> rfl

@[simp] theorem clock_withCapacity : (c.withCapacity g x).clock = c.clock := by
  cases g <;> rfl

@[simp] theorem ramp_withCapacity : (c.withCapacity g x).ramp = c.ramp := by
  cases g <;> rfl

@[simp] theorem rampRate_withCapacity : (c.withCapacity g x).rampRate = c.rampRate := by
  cases g <;> rfl

variable [Quantity α] {w : Weather σ α} {s s' : σ} {p : Profiles α} {hours : List ℕ} {n : ℕ}

/-- The outputs of a generator at the hours of the steps, before any limit. -/
def outputs (c : Config α) (w : Weather σ α) (s : σ) (hours : List ℕ) : Generator → List α
  | .solar => c.solarOutputs w hours
  | .wind => (c.windOutputs w hours.length s).1
  | .chp => c.chpOutputs hours.length

/-- What each output of a generator depends on beside the capacity. -/
def readings (w : Weather σ α) (s : σ) (hours : List ℕ) : Generator → List α
  | .solar => hours.map w.daylight
  | .wind => (Random.draws w.draw hours.length s).1
  | .chp => List.replicate hours.length 0

def generated (g : Generator) (capacity reading : α) : α :=
  match g with
  | .solar => installed capacity * reading
  | .wind => windOutput capacity reading
  | .chp => chpOutput capacity

theorem outputs_eq : c.outputs w s hours g =
    if c.uses g then (readings w s hours g).map (generated g (c.capacity g))
    else List.replicate hours.length 0 := by
  cases g with
  | solar => exact congrArg (ite _ · _) List.map_map.symm
  | wind => exact apply_ite Prod.fst _ _ _
  | chp =>
      unfold outputs chpOutputs readings
      rw [List.map_replicate]
      exact apply_ite (List.replicate hours.length) _ _ _

theorem outputs_withCapacity_of_ne (h : g' ≠ g) :
    (c.withCapacity g x).outputs w s hours g' = c.outputs w s hours g' := by
  cases g <;> cases g' <;> first | rfl | exact absurd rfl h

/-- A capacity has no influence on the number of draws. -/
theorem windOutputs_withCapacity_snd :
    ((c.withCapacity g x).windOutputs w n s).2 = (c.windOutputs w n s).2 := by
  unfold windOutputs
  cases g <;> split_ifs <;> first | rfl | contradiction

theorem profiles?_eq_some_iff_outputs :
    c.profiles? w s = some (p, s') ↔ ∃ stamps, c.clock.timestamps? = some stamps ∧
      (∀ g, limited? (targets c.ramp g) c.rampRate (c.outputs w s (stamps.map (·.hour)) g) =
        some (p.ofGenerator g)) ∧
      s' = (c.windOutputs w stamps.length s).2 := by
  rw [profiles?_eq_some_iff]
  refine exists_congr fun stamps => and_congr_right fun _ => ?_
  have hlength : (stamps.map (·.hour)).length = stamps.length := List.length_map _
  constructor
  · rintro ⟨hsolar, hwind, hchp, hstate⟩
    refine ⟨fun g => ?_, hstate⟩
    cases g with
    | solar => exact hsolar
    | wind => rw [← hlength] at hwind; exact hwind
    | chp => rw [← hlength] at hchp; exact hchp
  · rintro ⟨hall, hstate⟩
    have hwind := hall .wind
    have hchp := hall .chp
    simp only [outputs, hlength] at hwind hchp
    exact ⟨hall .solar, hwind, hchp, hstate⟩

end Config

/-! ## Order -/

section Limits

variable [Quantity α] [RoundedQuantity α] {isTarget : Bool} {rate : α} {xs xs' ys : List α}

theorem exists_limited?_of_isFinite (isTarget : Bool) (rate : α)
    (hxs : ∀ x ∈ xs, isFinite x = true) : ∃ ys, limited? isTarget rate xs = some ys := by
  cases isTarget with
  | false => exact ⟨xs, rfl⟩
  | true => exact exists_ramp?_of_isFinite rate hxs

theorem limited?_mono {ys' : List α} (hxs : ∀ x ∈ xs, isFinite x = true)
    (hxs' : ∀ x ∈ xs', isFinite x = true) (h : List.Forall₂ (· ≤ ·) xs xs')
    (hys : limited? isTarget rate xs = some ys) (hys' : limited? isTarget rate xs' = some ys') :
    List.Forall₂ (· ≤ ·) ys ys' := by
  cases isTarget with
  | false =>
      obtain rfl := Option.some.inj hys
      obtain rfl := Option.some.inj hys'
      exact h
  | true => exact ramp?_mono hxs hxs' h hys hys'

/-- What is between zero and finite values is finite. -/
theorem isFinite_of_forall₂ (h : List.Forall₂ (fun x x' => 0 ≤ x ∧ x ≤ x') xs xs')
    (hxs' : ∀ x ∈ xs', isFinite x = true) : ∀ x ∈ xs, isFinite x = true := by
  induction h with
  | nil => simp
  | cons hx _ ih =>
      obtain ⟨hfinite, hrest⟩ := List.forall_mem_cons.1 hxs'
      exact List.forall_mem_cons.2
        ⟨isFinite_of_le_of_le isFinite_zero hfinite hx.1 hx.2, ih hrest⟩

end Limits

section Outputs

variable [Quantity α] [PackedQuantity α] {capacity x y : α}

/-- A share of a greater capacity is greater, if it is finite. -/
theorem installed_mul_mono (h : capacity ≤ x) (hy : 0 ≤ y)
    (hfinite : isFinite (installed x * y) = true) :
    0 ≤ installed capacity * y ∧ installed capacity * y ≤ installed x * y := by
  obtain ⟨hx, hshare⟩ := PackedQuantity.isFinite_of_isFinite_mul hfinite
  have hle : installed capacity ≤ installed x := positivePart_mono h
  have hnonneg : 0 ≤ installed capacity := positivePart_nonneg capacity
  exact ⟨nonneg_mul (isFinite_of_le_of_le isFinite_zero hx hnonneg hle) hshare hnonneg hy,
    mul_mono hx hshare hnonneg hy hle (isNumber_right hy)⟩

namespace Config

variable {g : Generator}

theorem generated_mono (h : capacity ≤ x) (hsun : g = .solar → 0 ≤ y)
    (hfinite : isFinite (generated g x y) = true) :
    0 ≤ generated g capacity y ∧ generated g capacity y ≤ generated g x y := by
  cases g with
  | solar => exact installed_mul_mono h (hsun rfl) hfinite
  | wind =>
      -- a finite output has a finite draw
      have habs := (PackedQuantity.isFinite_of_isFinite_mul hfinite).2
      have hdraw := isNumber_of_isNumber_abs (isNumber_of_isFinite habs)
      exact installed_mul_mono h (nonneg_abs hdraw) hfinite
  | chp => exact ⟨positivePart_nonneg _, positivePart_mono h⟩

/-- The outputs of a generator grow with its capacity, if they stay finite. -/
theorem outputs_mono {c : Config α} {w : Weather σ α} {s : σ} {hours : List ℕ}
    (hday : ∀ hour, 0 ≤ w.daylight hour) (h : c.capacity g ≤ x)
    (hfinite : ∀ y ∈ (c.withCapacity g x).outputs w s hours g, isFinite y = true) :
    List.Forall₂ (fun y y' => 0 ≤ y ∧ y ≤ y') (c.outputs w s hours g)
      ((c.withCapacity g x).outputs w s hours g) := by
  have hraised : (c.withCapacity g x).outputs w s hours g =
      if c.uses g then (readings w s hours g).map (generated g x)
      else List.replicate hours.length 0 := by
    rw [outputs_eq, uses_withCapacity, capacity_withCapacity]
  rw [hraised] at hfinite ⊢
  rw [outputs_eq]
  by_cases huse : c.uses g = true
  · rw [if_pos huse] at hfinite ⊢
    rw [if_pos huse, List.forall₂_map_left_iff, List.forall₂_map_right_iff, List.forall₂_same]
    intro y hy
    refine generated_mono h ?_ (hfinite _ (List.mem_map_of_mem hy))
    rintro rfl
    obtain ⟨hour, -, rfl⟩ := List.mem_map.1 hy
    exact hday hour
  · rw [if_neg huse, if_neg huse, List.forall₂_same]
    intro y hy
    obtain rfl := List.eq_of_mem_replicate hy
    exact ⟨isNumber_zero, isNumber_zero⟩

end Config

end Outputs

/-! ## Profiles -/

namespace Config

section Existence

variable [Quantity α] [RoundedQuantity α]

/-- If no output overflows, the profiles exist at every rate. -/
theorem profiles?_isSome_of_isFinite {c : Config α} {w : Weather σ α} {s : σ}
    {stamps : List Calendar.Timestamp} (hstamps : c.clock.timestamps? = some stamps)
    (h : ∀ g, ∀ y ∈ c.outputs w s (stamps.map (·.hour)) g, isFinite y = true) :
    (c.profiles? w s).isSome = true := by
  have hlimited := fun g => exists_limited?_of_isFinite (targets c.ramp g) c.rampRate (h g)
  obtain ⟨solar, hsolar⟩ := hlimited .solar
  obtain ⟨wind, hwind⟩ := hlimited .wind
  obtain ⟨chp, hchp⟩ := hlimited .chp
  refine Option.isSome_iff_exists.2 ⟨(⟨solar, wind, chp⟩, _),
    profiles?_eq_some_iff_outputs.2 ⟨stamps, hstamps, fun g => ?_, rfl⟩⟩
  cases g with
  | solar => exact hsolar
  | wind => exact hwind
  | chp => exact hchp

end Existence

variable [Quantity α] [PackedQuantity α]

/-- A greater capacity has a greater profile and leaves the other profiles and the wind as they
are. -/
theorem profiles?_withCapacity {c : Config α} {w : Weather σ α} {s s' : σ} {p : Profiles α}
    {g : Generator} {x : α} {stamps : List Calendar.Timestamp}
    (hday : ∀ hour, 0 ≤ w.daylight hour) (hle : c.capacity g ≤ x)
    (hstamps : c.clock.timestamps? = some stamps)
    (hfinite : ∀ y ∈ (c.withCapacity g x).outputs w s (stamps.map (·.hour)) g, isFinite y = true)
    (h : c.profiles? w s = some (p, s')) :
    ∃ p', (c.withCapacity g x).profiles? w s = some (p', s') ∧
      List.Forall₂ (· ≤ ·) (p.ofGenerator g) (p'.ofGenerator g) ∧
      ∀ g' ≠ g, p'.ofGenerator g' = p.ofGenerator g' := by
  obtain ⟨stamps', hstamps', hlimited, hstate⟩ := profiles?_eq_some_iff_outputs.1 h
  obtain rfl := Option.some.inj (hstamps.symm.trans hstamps')
  have hmono := outputs_mono hday hle hfinite
  obtain ⟨ys, hys⟩ := exists_limited?_of_isFinite (targets c.ramp g) c.rampRate hfinite
  refine ⟨p.withProfile g ys, ?_, ?_, fun g' hne => Profiles.ofGenerator_withProfile_of_ne hne⟩
  · refine profiles?_eq_some_iff_outputs.2 ⟨stamps, ?_, fun g' => ?_, ?_⟩
    · rw [clock_withCapacity, hstamps]
    · rw [ramp_withCapacity, rampRate_withCapacity]
      by_cases hne : g' = g
      · rw [hne, hys, Profiles.ofGenerator_withProfile]
      · rw [outputs_withCapacity_of_ne hne, hlimited, Profiles.ofGenerator_withProfile_of_ne hne]
    · rw [windOutputs_withCapacity_snd, hstate]
  · rw [Profiles.ofGenerator_withProfile]
    exact limited?_mono (isFinite_of_forall₂ hmono hfinite) hfinite (hmono.imp fun _ _ h => h.2)
      (hlimited g) hys

end Config

/-! ## Single precision -/

/-- A limit keeps the order of two finite series. So a greater capacity of a generator has a profile
with no value below the old one, limited or not, if none of its outputs overflows; the other
profiles and the draws of the wind are the same. If no output of any generator overflows, there are
profiles. -/
theorem ramp_keeps_order :
    (∀ (rate : Float32) (xs xs' : List Float32), (∀ x ∈ xs, isFinite x = true) →
      (∀ x ∈ xs', isFinite x = true) → List.Forall₂ (· ≤ ·) xs xs' →
        ∃ ys ys', ramp? rate xs = some ys ∧ ramp? rate xs' = some ys' ∧
          List.Forall₂ (· ≤ ·) ys ys') ∧
    ∀ (c : Config Float32) (draw : σ → Float32 × σ) (s : σ) (stamps : List Calendar.Timestamp),
      c.clock.timestamps? = some stamps →
        ((∀ g, ∀ y ∈ c.outputs ⟨halfWave, draw⟩ s (stamps.map (·.hour)) g, isFinite y = true) →
          (c.profiles? ⟨halfWave, draw⟩ s).isSome = true) ∧
        ∀ (g : Generator) (x : Float32) (p : Profiles Float32) (s' : σ), c.capacity g ≤ x →
          (∀ y ∈ (c.withCapacity g x).outputs ⟨halfWave, draw⟩ s (stamps.map (·.hour)) g,
            isFinite y = true) →
          c.profiles? ⟨halfWave, draw⟩ s = some (p, s') →
            ∃ p', (c.withCapacity g x).profiles? ⟨halfWave, draw⟩ s = some (p', s') ∧
              List.Forall₂ (· ≤ ·) (p.ofGenerator g) (p'.ofGenerator g) ∧
              ∀ g' ≠ g, p'.ofGenerator g' = p.ofGenerator g' := by
  refine ⟨fun rate xs xs' hxs hxs' h => ?_, fun c draw s stamps hstamps => ⟨?_, ?_⟩⟩
  · obtain ⟨ys, hys⟩ := exists_ramp?_of_isFinite rate hxs
    obtain ⟨ys', hys'⟩ := exists_ramp?_of_isFinite rate hxs'
    exact ⟨ys, ys', hys, hys', ramp?_mono hxs hxs' h hys hys'⟩
  · exact Config.profiles?_isSome_of_isFinite hstamps
  · intro g x p s' hle hfinite hp
    exact Config.profiles?_withCapacity (fun hour => (isShare_iff.1 (isShare_halfWave hour)).1) hle
      hstamps hfinite hp

def gustyConfig : Config Float32 :=
  { Config.new .hourly ⟨⟨738000⟩, 39600, 0⟩ [0, 0, 0] with
    solarCapacity := 4
    windCapacity := 2
    rampRate := 0.75 }

/-- A half more wind capacity lifts every limited value, the one in the gust by less than a half. -/
theorem ramp_keeps_order_gusty :
    (∃ ys ys', ramp? (0.75 : Float32) [1, 4, 0.5] = some ys ∧
      ramp? (0.75 : Float32) [1.5, 6, 0.75] = some ys' ∧ List.Forall₂ (· ≤ ·) ys ys') ∧
    ∃ p p' s', gustyConfig.profiles? ⟨halfWave, Wind.draw⟩ (Wind.replay [0.5, -2, 0.25]) =
        some (p, s') ∧
      (gustyConfig.withCapacity .wind 3).profiles? ⟨halfWave, Wind.draw⟩
        (Wind.replay [0.5, -2, 0.25]) = some (p', s') ∧
      p.wind = [1, 1.75, 1] ∧ p'.wind = [1.5, 2.25, 1.5] ∧
      List.Forall₂ (· ≤ ·) p.wind p'.wind ∧ p'.solar = p.solar := by
  have hstamps : gustyConfig.clock.timestamps? =
      some [⟨⟨738000⟩, 39600, 0⟩, ⟨⟨738000⟩, 43200, 0⟩, ⟨⟨738000⟩, 46800, 0⟩] := by
    decide +kernel
  obtain ⟨hramp, hprofiles⟩ := ramp_keeps_order (σ := Wind)
  obtain ⟨hsome, hraised⟩ := hprofiles gustyConfig Wind.draw (Wind.replay [0.5, -2, 0.25]) _ hstamps
  have hall : ∀ g, ∀ y ∈ gustyConfig.outputs ⟨halfWave, Wind.draw⟩
      (Wind.replay [0.5, -2, 0.25]) [11, 12, 13] g, isFinite y = true := by
    intro g
    cases g <;> decide +kernel
  obtain ⟨⟨p, s'⟩, hp⟩ := Option.isSome_iff_exists.1 (hsome hall)
  obtain ⟨p', hp', hle, hother⟩ := hraised .wind 3 p s' (by decide +kernel) (by decide +kernel) hp
  have hwind : (gustyConfig.profiles? ⟨halfWave, Wind.draw⟩ (Wind.replay [0.5, -2, 0.25])).map
      (fun q => q.1.wind) = some [1, 1.75, 1] := by
    decide +kernel
  have hwind' : ((gustyConfig.withCapacity .wind 3).profiles? ⟨halfWave, Wind.draw⟩
      (Wind.replay [0.5, -2, 0.25])).map (fun q => q.1.wind) = some [1.5, 2.25, 1.5] := by
    decide +kernel
  rw [hp, Option.map_some, Option.some.injEq] at hwind
  rw [hp', Option.map_some, Option.some.injEq] at hwind'
  exact ⟨hramp 0.75 [1, 4, 0.5] [1.5, 6, 0.75] (by decide +kernel) (by decide +kernel)
      (by decide +kernel),
    p, p', s', hp, hp', hwind, hwind', hle, hother .solar (by decide)⟩

end LocalGrid.Simulation
