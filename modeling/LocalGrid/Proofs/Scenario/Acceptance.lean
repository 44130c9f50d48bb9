import LocalGrid.Proofs.Demand.Profile
import LocalGrid.Proofs.Scenario.Refusals
import LocalGrid.Proofs.Simulation.Completion
import LocalGrid.Scenario.Run

/-!
# Scenarios that a simulation accepts

A scenario and the configuration that it resolves to are checked apart. What a scenario without
problems leaves open are infinite capacities, and the entries of its series: random integers are
never bad, a profile is as good as its entries, and the sums of a neighbourhood may be infinite.
Without these its configuration is accepted, and only a time outside the calendar or an unlimited
wind can keep it from having a run.
-/

namespace LocalGrid

open Quantity RoundedQuantity Simulation

/-! ## Good entries -/

/-- An integer of a word is a good demand. -/
theorem isBadDemand_word (n : UInt32) : isBadDemand n.toFloat32 = false := by
  have hvalue := value?_word n
  have hnonneg := Rounding.nearest_nonneg .binary32 (Nat.cast_nonneg n.toNat)
  exact isBadDemand_eq_false_iff.2 ⟨isFinite_iff.2 ⟨_, hvalue⟩,
    (le_iff_of_value value?_zero hvalue).2 (EReal.coe_nonneg.2 hnonneg)⟩

namespace Demand

theorem isBadDemand_uniformProfile {steps : ℕ} {low high : UInt32} {seed : UInt64} :
    ∀ x ∈ uniformProfile steps low high seed, isBadDemand x = false := by
  intro x hx
  obtain ⟨k, -, -, rfl⟩ := exists_word_of_mem hx
  exact isBadDemand_word k

theorem isBadDemand_zero : isBadDemand (0 : Float32) = false :=
  isBadDemand_eq_false_iff.2 ⟨isFinite_zero, isNumber_zero⟩

theorem isBadDemand_getD {xs : List Float32} (h : ∀ x ∈ xs, isBadDemand x = false) (i : ℕ) :
    isBadDemand (xs.getD i 0) = false := by
  rw [List.getD_eq_getElem?_getD]
  cases hx : xs[i]? with
  | none => exact isBadDemand_zero
  | some x => exact h x (List.mem_of_getElem? hx)

theorem isBadDemand_repeatTo {baseline : List Float32} {steps : ℕ}
    (h : ∀ x ∈ baseline, isBadDemand x = false) :
    ∀ x ∈ repeatTo baseline steps, isBadDemand x = false := by
  intro x hx
  obtain ⟨i, -, rfl⟩ := List.mem_map.1 hx
  exact isBadDemand_getD h _

theorem getD_repeatTo {baseline : List Float32} {steps i : ℕ} (h : i < steps) :
    (repeatTo baseline steps).getD i 0 = baseline.getD (i % baseline.length) 0 := by
  have hi : i < (repeatTo baseline steps).length := by rwa [length_repeatTo]
  rw [List.getD_eq_getElem?_getD, List.getElem?_eq_getElem hi, Option.getD_some,
    getElem_repeatTo]

end Demand

namespace Scenario

variable {files : Files} {today : Calendar.Day} {steps : ℕ} {seed : UInt64}

/-! ## Series -/

def Source.IsSound (s : Source) : Prop :=
  s.kind = "random" ∨ s.kind = "profile" ∧ ∀ x ∈ s.profile, isBadDemand x = false

def IsSoundSeries (steps : ℕ) (xs : List Float32) : Prop :=
  xs.length = steps ∧ ∀ x ∈ xs, isBadDemand x = false

theorem orTooLong_sound {x : Except Refusal (List Float32)} {xs : List Float32}
    (hx : x = orTooLong (if steps ≤ Demand.maxLength then some xs else none))
    (hxs : IsSoundSeries steps xs) :
    (steps ≤ Demand.maxLength → ∃ xs, x = .ok xs ∧ IsSoundSeries steps xs) ∧
    (Demand.maxLength < steps → x = .error .length) := by
  constructor
  · intro hle
    rw [if_pos hle] at hx
    exact ⟨xs, hx, hxs⟩
  · intro hlt
    rw [if_neg (Nat.not_le.2 hlt)] at hx
    exact hx

theorem Source.series_of_random (files : Files) (load : Load) (steps : ℕ) (seed : UInt64)
    {s : Source} (hkind : s.kind = "random") : s.series files load steps seed =
      orTooLong (Demand.uniformProfile? steps s.low s.high (seed + load.seedOffset)) := by
  rw [series, hkind]
  rfl

theorem Source.series_of_profile (files : Files) (load : Load) (steps : ℕ) (seed : UInt64)
    {s : Source} (hkind : s.kind = "profile") :
    s.series files load steps seed = orTooLong (Demand.repeatTo? s.profile steps) := by
  rw [series, hkind]
  rfl

/-- A sound source has a sound series if so many values can be held, and none otherwise. -/
theorem Source.series_sound (files : Files) (load : Load) (steps : ℕ) (seed : UInt64) {s : Source}
    (hsound : s.IsSound) :
    (steps ≤ Demand.maxLength →
      ∃ xs, s.series files load steps seed = .ok xs ∧ IsSoundSeries steps xs) ∧
    (Demand.maxLength < steps → s.series files load steps seed = .error .length) := by
  rcases hsound with hkind | ⟨hkind, hprofile⟩
  · exact orTooLong_sound (series_of_random files load steps seed hkind)
      ⟨Demand.length_uniformProfile _ _ _ _, Demand.isBadDemand_uniformProfile⟩
  · exact orTooLong_sound (series_of_profile files load steps seed hkind)
      ⟨Demand.length_repeatTo _ _, Demand.isBadDemand_repeatTo hprofile⟩

/-! ## Neighbourhoods -/

/-- Puts the profiles of buildings in their places among named series. -/
def insertProfiles (buildings : List Building) (entries : List (String × List Float32)) :
    List (String × List Float32) :=
  buildings.foldl (fun entries b => Demand.Neighborhood.insert b.name b.profile entries) entries

def Demand.profiles (d : Demand) : List (String × List Float32) := insertProfiles d.buildings []

def Demand.sumAt (d : Demand) (i : ℕ) : Float32 :=
  Demand.sumInOrder (d.profiles.map fun e => e.2.getD (i % e.2.length) 0)

/-- A neighbourhood of profiles without bad entries, the sum of which is finite at each step. -/
structure Demand.IsSoundNeighborhood (d : Demand) (steps : ℕ) : Prop where
  isNeighborhood : d.isNeighborhood = true
  path : ∀ b ∈ d.buildings, b.path = none
  profile : ∀ b ∈ d.buildings, ∀ x ∈ b.profile, isBadDemand x = false
  sum : ∀ i < steps, isFinite (d.sumAt i) = true

theorem mem_insertProfiles {buildings : List Building} {entries : List (String × List Float32)}
    {e : String × List Float32} (h : e ∈ insertProfiles buildings entries) :
    e ∈ entries ∨ ∃ b ∈ buildings, e.2 = b.profile := by
  induction buildings generalizing entries with
  | nil => exact Or.inl h
  | cons b rest ih =>
      rcases ih h with hinsert | ⟨c, hc, he⟩
      · rcases Demand.Neighborhood.mem_insert hinsert with rfl | hmem
        · exact Or.inr ⟨b, List.mem_cons_self, rfl⟩
        · exact Or.inl hmem
      · exact Or.inr ⟨c, List.mem_cons_of_mem _ hc, he⟩

/-- Profiles are gathered as they are and can be repeated afterwards. -/
theorem gather_of_profiles (files : Files) (index : ℕ) {buildings : List Building}
    {n : Demand.Neighborhood Float32} {entries : List (String × List Float32)}
    (hle : steps ≤ Demand.maxLength) (hpath : ∀ b ∈ buildings, b.path = none)
    (hn : n.entries = entries.map (Prod.map id fun xs => Demand.repeatTo xs steps)) :
    ∃ m, gather files steps index buildings n = .ok m ∧
      m.entries = (insertProfiles buildings entries).map
        (Prod.map id fun xs => Demand.repeatTo xs steps) := by
  -- a profile that is repeated before it is put in its place is the same as one repeated after it
  induction buildings generalizing index n entries with
  | nil => exact ⟨n, rfl, hn⟩
  | cons b rest ih =>
      have hseries : b.series files index steps = .ok (Demand.repeatTo b.profile steps) := by
        simp only [Building.series, hpath b List.mem_cons_self, Demand.repeatTo?, if_pos hle,
          orTooLong]
      have hadd : (n.add b.name (Demand.repeatTo b.profile steps)).entries =
          (Demand.Neighborhood.insert b.name b.profile entries).map
            (Prod.map id fun xs => Demand.repeatTo xs steps) := by
        rw [← Demand.Neighborhood.insert_map, ← hn]
        rfl
      obtain ⟨m, hm, hentries⟩ := ih (index + 1)
        (fun c hc => hpath c (List.mem_cons_of_mem _ hc)) hadd
      refine ⟨m, ?_, hentries⟩
      rw [gather, hseries]
      exact hm

theorem gather_of_tooLong {index : ℕ} {buildings : List Building}
    {n : Demand.Neighborhood Float32} (hlt : Demand.maxLength < steps)
    (hne : buildings ≠ []) (hpath : ∀ b ∈ buildings, b.path = none) :
    gather files steps index buildings n = .error .length := by
  obtain ⟨b, rest, rfl⟩ := List.exists_cons_of_ne_nil hne
  rw [gather]
  simp only [Building.series, hpath b List.mem_cons_self, Demand.repeatTo?,
    if_neg (Nat.not_le.2 hlt)]
  rfl

/-- The sum of profiles is the sum of their entries step by step. -/
theorem Demand.total_of_profiles {d : Demand} {n : Demand.Neighborhood Float32}
    (hne : n.entries ≠ [])
    (hn : n.entries = d.profiles.map (Prod.map id fun xs => Demand.repeatTo xs steps)) :
    ∃ xs, n.total = .ok xs ∧ xs.length = steps ∧ ∀ i < steps, xs.getD i 0 = d.sumAt i := by
  have hlengths : ∀ e ∈ n.entries, e.2.length = steps := by
    intro e he
    rw [hn] at he
    obtain ⟨e', -, rfl⟩ := List.mem_map.1 he
    exact Demand.length_repeatTo _ _
  obtain ⟨xs, hxs, hlength, hget⟩ := Demand.Neighborhood.total_of_lengths hne hlengths
  refine ⟨xs, hxs, hlength, fun i hi => ?_⟩
  rw [hget i hi, sumAt, Demand.Neighborhood.column, hn, List.map_map]
  congr 1
  exact List.map_congr_left fun e _ => Demand.getD_repeatTo hi

theorem Demand.sumAt_nonneg {d : Demand}
    (h : ∀ b ∈ d.buildings, ∀ x ∈ b.profile, isBadDemand x = false) (i : ℕ) : 0 ≤ d.sumAt i := by
  refine Demand.sumInOrder_nonneg fun x hx => ?_
  obtain ⟨e, he, rfl⟩ := List.mem_map.1 hx
  rcases mem_insertProfiles he with hempty | ⟨b, hb, hprofile⟩
  · cases hempty
  · rw [hprofile]
    exact nonneg_of_isBadDemand (Demand.isBadDemand_getD (h b hb) _)

def Demand.IsSound (d : Demand) (steps : ℕ) : Prop :=
  d.source.IsSound ∨ d.IsSoundNeighborhood steps

theorem Demand.series_sound (files : Files) (seed : UInt64) {d : Demand} (hd : d.Accepted)
    (hsound : d.IsSound steps) :
    (steps ≤ Demand.maxLength →
      ∃ xs, d.series files steps seed = .ok xs ∧ IsSoundSeries steps xs) ∧
    (Demand.maxLength < steps → d.series files steps seed = .error .length) := by
  rcases hsound with hsource | hbuildings
  · have hkind : d.isNeighborhood = false := by
      rcases hsource with h | ⟨h, -⟩ <;> simp [isNeighborhood, h]
    simpa [series, hkind] using Source.series_sound files .electrical steps seed hsource
  · have hkind := hbuildings.isNeighborhood
    have hne := hd.buildings_ne_nil hkind
    constructor
    · intro hle
      have hempty : (Demand.Neighborhood.empty : Demand.Neighborhood Float32).entries =
          [].map (Prod.map id fun xs => Demand.repeatTo xs steps) := rfl
      obtain ⟨n, hn, hentries⟩ := gather_of_profiles files 0 hle hbuildings.path hempty
      obtain ⟨xs, hxs, hlength, hget⟩ :=
        total_of_profiles ((gather_ok hn).1 (Or.inr hne)) hentries
      refine ⟨xs, by simp [series, hkind, hn, hxs, bind, Except.bind, Except.mapError], hlength,
        fun x hx => ?_⟩
      obtain ⟨i, hi, rfl⟩ := List.mem_iff_getElem.1 hx
      have hsum : xs[i] = d.sumAt i := by
        rw [← hget i (hlength ▸ hi), List.getD_eq_getElem?_getD, List.getElem?_eq_getElem hi,
          Option.getD_some]
      rw [hsum]
      exact isBadDemand_eq_false_iff.2
        ⟨hbuildings.sum i (hlength ▸ hi), sumAt_nonneg hbuildings.profile i⟩
    · intro hlt
      simp [series, hkind, gather_of_tooLong hlt hne hbuildings.path, bind, Except.bind]

theorem Thermal.series_sound (files : Files) (steps : ℕ) (seed : UInt64) {t : Thermal}
    (henabled : t.enabled = true) (hsound : t.source.IsSound) :
    (steps ≤ Demand.maxLength →
      ∃ xs, t.series files steps seed = .ok (some xs) ∧ IsSoundSeries steps xs) ∧
    (Demand.maxLength < steps → t.series files steps seed = .error .length) := by
  obtain ⟨hshort, hlong⟩ := Source.series_sound files .thermal steps seed hsound
  constructor
  · intro hle
    obtain ⟨xs, hxs, hgood⟩ := hshort hle
    exact ⟨xs, by simp [series, henabled, hxs, bind, Except.bind, pure, Except.pure], hgood⟩
  · intro hlt
    simp [series, henabled, hlong hlt, bind, Except.bind]

/-! ## Configurations -/

structure HasFiniteCapacities (s : Scenario) : Prop where
  solar : isFinite s.generation.solarCapacity = true
  wind : isFinite s.generation.windCapacity = true
  chp : isFinite s.generation.chpCapacity = true
  battery : isFinite s.battery.capacity = true
  thermal : isFinite s.thermal.capacity = true

variable {s : Scenario}

/-- The configuration of a sound scenario has passed the checks of a simulation already. -/
theorem assemble_accepted (files : Files) (today : Calendar.Day) (hs : s.Accepted)
    (henabled : s.thermal.enabled = true) (hfinite : s.HasFiniteCapacities)
    (hdemand : s.demand.IsSound s.timing.steps) (hheat : s.thermal.source.IsSound)
    (hle : s.timing.steps ≤ Demand.maxLength) :
    ∃ c, s.assemble files today = .ok c ∧ c.Accepted := by
  obtain ⟨duration, hduration⟩ := hs.duration
  obtain ⟨start, hstart⟩ := hs.startTime
  obtain ⟨mode, hmode⟩ := hs.mode
  obtain ⟨model, hmodel⟩ := hs.model
  have ht := hs.thermal henabled
  obtain ⟨xs, hxs, hxslength, hxsgood⟩ := (Demand.series_sound files s.timing.seed
    hs.demand hdemand).1 hle
  obtain ⟨ys, hys, hyslength, hysgood⟩ := (Thermal.series_sound files s.timing.steps
    s.timing.seed henabled hheat).1 hle
  refine ⟨_, by rw [assemble, hxs, hys, choose_eq_ok_iff.2 hduration, hstart,
    choose_eq_ok_iff.2 hmode, choose_eq_ok_iff.2 hmodel]; rfl, ?_⟩
  -- the scenario's own checks cover all but the capacities and the entries of the series
  exact {
    stepCount_ne_zero := hs.steps_ne_zero
    length_demand := hxslength
    length_thermalDemand := fun _ h => Option.some.inj h ▸ hyslength
    solarCapacity := ⟨hs.solarCapacity, hfinite.solar⟩
    windCapacity := ⟨hs.windCapacity, hfinite.wind⟩
    chpCapacity := ⟨hs.chpCapacity, hfinite.chp⟩
    batteryCapacity := ⟨hs.batteryCapacity, hfinite.battery⟩
    thermalCapacity := ⟨ht.capacity, hfinite.thermal⟩
    rampRate := hs.rampRate
    batteryEfficiency := hs.batteryEfficiency
    thermalEfficiency := ht.efficiency
    gate := hs.gate
    demand := hxsgood
    thermalDemand := fun _ h => Option.some.inj h ▸ hysgood }

theorem assemble_tooLong (hs : s.Accepted) (hdemand : s.demand.IsSound s.timing.steps)
    (hlt : Demand.maxLength < s.timing.steps) : s.assemble files today = .error .length := by
  rw [assemble, (Demand.series_sound files s.timing.seed hs.demand hdemand).2 hlt]
  rfl

/-- A configuration that is accepted runs into nothing but a breakdown, and into none if its steps
have timestamps and its wind can be limited. -/
theorem run_of_accepted {c : Config Float32} (hresolve : s.resolve files today = .ok c)
    (hc : c.Accepted) :
    (∀ e, s.run files today = .error e → e = .failed .breakdown) ∧
    ((∀ i < c.stepCount, (c.clock.timestamp? (UInt64.ofNat i)).isSome = true) →
      (limited? c.ramp.wind c.rampRate
        (c.windOutputs .standard c.stepCount (wind c)).1).isSome = true →
      ∃ r, s.run files today = .ok r) := by
  have hvalidate := Config.validate_of_accepted hc
  constructor
  · intro e he
    simp only [run, hresolve, simulate, hvalidate, Except.mapError, bind, Except.bind] at he
    cases hcarry : c.carryOut? .standard (wind c) with
    | none =>
        rw [hcarry] at he
        exact (Except.error.inj he).symm
    | some out => simp [hcarry, pure, Except.pure] at he
  · intro hstamps hwind
    obtain ⟨result, w, hcarry⟩ := Config.exists_carryOut?_iff.2
      ((Config.profiles?_isSome_iff_wind (w := .standard) hc isShare_halfWave).2 ⟨hstamps, hwind⟩)
    refine ⟨⟨c, result, .ofResult result⟩, ?_⟩
    rw [run, hresolve]
    simp [Except.mapError, bind, Except.bind, pure, Except.pure,
      simulate_of_carryOut? hvalidate hcarry]

/-- A scenario without problems, with finite capacities and sound sources, resolves to a
configuration that a simulation accepts if its steps fit a series. Its run returns no error; it has
a result if its steps lie in the calendar and its wind can be limited. -/
theorem accepted_by_simulation (files : Files) (today : Calendar.Day) (hproblems : s.problems = [])
    (henabled : s.thermal.enabled = true) (hfinite : s.HasFiniteCapacities)
    (hdemand : s.demand.IsSound s.timing.steps) (hheat : s.thermal.source.IsSound) :
    (s.timing.steps ≤ Demand.maxLength → ∃ c, s.resolve files today = .ok c ∧
      c.validate = .ok () ∧
      (∀ e, s.run files today = .error e → e = .failed .breakdown) ∧
      ((∀ i < c.stepCount, (c.clock.timestamp? (UInt64.ofNat i)).isSome = true) →
        (limited? c.ramp.wind c.rampRate
          (c.windOutputs .standard c.stepCount (wind c)).1).isSome = true →
        ∃ r, s.run files today = .ok r)) ∧
    (Demand.maxLength < s.timing.steps → s.resolve files today = .error .length) := by
  have hs := s.problems_eq_nil_iff.1 hproblems
  have hresolve : s.resolve files today = s.assemble files today := by rw [resolve, hproblems]
  constructor
  · intro hle
    obtain ⟨c, hc, haccepted⟩ := assemble_accepted files today hs henabled
      hfinite hdemand hheat hle
    exact ⟨c, hresolve.trans hc, Config.validate_of_accepted haccepted,
      run_of_accepted (hresolve.trans hc) haccepted⟩
  · intro hlt
    exact hresolve.trans (assemble_tooLong hs hdemand hlt)

/-- Three hours of two buildings, with a thermal store and no limit on the wind. -/
def twoBuildings : Scenario where
  timing := { steps := 3, start := some "2024-06-01T00:00:00" }
  generation := { rampWind := false }
  thermal := {
    enabled := true
    source := { kind := "profile", low := 0, high := 0, profile := [4], column := demandColumn } }
  demand := {
    source := { kind := "neighborhood", low := 0, high := 0, column := demandColumn }
    buildings := [{ name := "office", profile := [5, 7] }, { name := "mill", profile := [2] }] }

/-- The two buildings are accepted and have a run. -/
theorem accepted_by_simulation_twoBuildings :
    (twoBuildings.problems = [] ∧ twoBuildings.thermal.enabled = true ∧
      twoBuildings.HasFiniteCapacities ∧ twoBuildings.demand.IsSound 3 ∧
      twoBuildings.thermal.source.IsSound) ∧
    ∃ c r, twoBuildings.resolve (fun _ => .error .notFound) ⟨0⟩ = .ok c ∧ c.validate = .ok () ∧
      twoBuildings.run (fun _ => .error .notFound) ⟨0⟩ = .ok r := by
  have hproblems : twoBuildings.problems = [] := by decide +kernel
  have hfinite : twoBuildings.HasFiniteCapacities := by constructor <;> decide +kernel
  have hdemand : twoBuildings.demand.IsSound 3 := Or.inr <| by
    constructor <;> decide +kernel
  have hheat : twoBuildings.thermal.source.IsSound := Or.inr (by decide +kernel)
  refine ⟨⟨hproblems, rfl, hfinite, hdemand, hheat⟩, ?_⟩
  obtain ⟨c, hc, hvalidate, -, hrun⟩ := (accepted_by_simulation (s := twoBuildings)
    (fun _ => .error .notFound) ⟨0⟩ hproblems rfl hfinite hdemand hheat).1 (by decide +kernel)
  have hclock : (twoBuildings.resolve (fun _ => .error .notFound) ⟨0⟩).map
      (fun c => (decide (∀ i < c.stepCount,
        (c.clock.timestamp? (UInt64.ofNat i)).isSome = true), c.ramp.wind)) =
      .ok (true, false) := by decide +kernel
  rw [hc] at hclock
  obtain ⟨hstamps, hwind⟩ := Prod.mk.inj (Except.ok.inj hclock)
  obtain ⟨r, hr⟩ := hrun (of_decide_eq_true hstamps) (by rw [hwind]; rfl)
  exact ⟨c, r, hc, hvalidate, hr⟩

/-- More hours than a series can have values. -/
def countlessHours : Scenario where
  timing := { steps := 2 ^ 62, start := some "2024-06-01T00:00:00" }
  thermal := { enabled := true }
  demand := { source := { kind := "profile", low := 0, high := 0, profile := [5],
                          column := demandColumn } }

/-- Nothing is wrong with the countless hours but their number. -/
theorem accepted_without_configuration :
    (countlessHours.problems = [] ∧ countlessHours.thermal.enabled = true ∧
      countlessHours.HasFiniteCapacities ∧ countlessHours.demand.source.IsSound ∧
      countlessHours.thermal.source.IsSound) ∧
    ¬ ∃ c, countlessHours.resolve (fun _ => .error .notFound) ⟨0⟩ = .ok c := by
  have hresolve : (countlessHours.resolve (fun _ => .error .notFound) ⟨0⟩).map (fun _ => ()) =
      .error .length := by decide +kernel
  refine ⟨⟨by decide +kernel, rfl, by constructor <;> decide +kernel, Or.inr (by decide +kernel),
    Or.inl rfl⟩, ?_⟩
  rintro ⟨c, hc⟩
  rw [hc] at hresolve
  cases hresolve

end Scenario

end LocalGrid
