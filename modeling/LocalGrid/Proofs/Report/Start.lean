import LocalGrid.Proofs.Simulation.Separation
import LocalGrid.Proofs.Simulation.Start
import LocalGrid.Report.Basic

/-!
# Reports from another start

A report reads the timestamps of its records to tell their days apart. If all of them are moved by
whole days, so are the days of the report, and nothing else of it changes.
-/

namespace LocalGrid

open Quantity Simulation Calendar

variable {α : Type} {d : ℤ}

def DaySums.addDays (d : ℤ) (s : DaySums α) : DaySums α := { s with day := s.day.add d }

def DayBalance.addDays (d : ℤ) (b : DayBalance α) : DayBalance α := { b with day := b.day.add d }

def Report.addDays (d : ℤ) (r : Report α) : Report α :=
  { r with days := r.days.map (DayBalance.addDays d) }

def Simulation.Record.addDays (d : ℤ) (r : Record α) : Record α :=
  r.stamp (r.timestamp.addDays d)

section

variable [Quantity α] (rs : List (Record α))

/-! ## Totals -/

theorem total_addDays (f : Record α → α) (hf : ∀ r, f (r.addDays d) = f r) :
    total f (rs.map (Record.addDays d)) = total f rs := by
  simp only [total, List.foldl_map, hf]

theorem totalCharged_addDays : totalCharged (rs.map (Record.addDays d)) = totalCharged rs :=
  List.foldl_map

theorem totalDischarged_addDays :
    totalDischarged (rs.map (Record.addDays d)) = totalDischarged rs :=
  List.foldl_map

theorem highestLevel_addDays : highestLevel (rs.map (Record.addDays d)) = highestLevel rs :=
  List.foldl_map

/-! ## Days -/

/-- Days that are moved together keep their order. -/
theorem addToDay_addDays (day : Day) (generation demand : α) (days : List (DaySums α)) :
    addToDay (day.add d) generation demand (days.map (DaySums.addDays d)) =
      (addToDay day generation demand days).map (DaySums.addDays d) := by
  induction days with
  | nil => rfl
  | cons s days ih =>
      have hlt : (s.addDays d).day.number < (day.add d).number ↔ s.day.number < day.number :=
        add_lt_add_iff_right d
      have heq : (s.addDays d).day.number = (day.add d).number ↔ s.day.number = day.number :=
        add_left_inj d
      simp only [List.map_cons, addToDay, hlt, heq, ih]
      split_ifs <;> rfl

theorem daySums_addDays (hours : α) :
    daySums hours (rs.map (Record.addDays d)) = (daySums hours rs).map (DaySums.addDays d) := by
  rw [daySums, daySums, List.foldl_map, List.map_reverse, ← List.foldl_hom (List.map _)]
  · rfl
  · intro days r
    exact addToDay_addDays _ _ _ _

/-! ## Reports -/

theorem Report.ofResult_addDays (r : Result α) :
    ofResult { r with records := r.records.map (Record.addDays d) } = (ofResult r).addDays d := by
  have hgeneration := total_addDays (d := d) r.records (fun s => s.generation * r.hours)
    fun _ => rfl
  have hdemand := total_addDays (d := d) r.records (fun s => s.demand * r.hours) fun _ => rfl
  have hexport := total_addDays (d := d) r.records (·.gridExport) fun _ => rfl
  have himport := total_addDays (d := d) r.records (·.gridImport) fun _ => rfl
  have hcurtailed : (r.records.map (Record.addDays d)).countP (·.generationOff) =
      r.records.countP (·.generationOff) := List.countP_map
  have hthermal :
      ((r.records.map (Record.addDays d)).getLast?.bind fun s => s.thermal.map (·.level)) =
      r.records.getLast?.bind fun s => s.thermal.map (·.level) := by
    rw [List.getLast?_map, Option.bind_map]
    rfl
  have hdays : ((daySums r.hours r.records).map (DaySums.addDays d)).map DaySums.balance =
      ((daySums r.hours r.records).map DaySums.balance).map (DayBalance.addDays d) := by
    simp only [List.map_map]
    rfl
  simp only [ofResult, addDays, hgeneration, hdemand, hexport, himport, hcurtailed, hthermal,
    hdays, totalCharged_addDays, totalDischarged_addDays, highestLevel_addDays, daySums_addDays]

end

namespace Simulation

theorem zipWith_stamp_addDays (rs : List (Record α)) :
    List.zipWith Record.stamp rs ((rs.map (·.timestamp)).map fun t => t.addDays d) =
      rs.map (Record.addDays d) := by
  rw [List.map_map, List.zipWith_map_right, List.zipWith_self]
  rfl

variable {σ τ ω : Type} [Quantity α] [Quantity ω] [Widening α ω]

/-- A run that starts in the same quarter of the day, in the same weather and within the calendar,
has the same records but for their timestamps. Whole days between the starts lie between the
timestamps, and between the days of the reports, which agree in all else. -/
theorem records_of_start {c : Config α} {w : Weather σ α} {v : Weather τ α} {s s' : σ} {t : τ}
    {result : Result α} {start : Timestamp} (h : simulate c w s = (.ok result, s'))
    (hdaylight : w.daylight = v.daylight)
    (hdraws : (Random.draws w.draw c.stepCount s).1 = (Random.draws v.draw c.stepCount t).1)
    (hleap : c.start.isLeapSecond = false) (hleap' : start.isLeapSecond = false)
    (hhour : start.hour = c.start.hour) (hminute : start.minute / 15 = c.start.minute / 15)
    (hcalendar : ∀ i < c.stepCount,
      ({ c with start := start }.clock.timestamp? (UInt64.ofNat i)).isSome = true) :
    ∃ other t', simulate { c with start := start } v t = (.ok other, t') ∧
      other = { result with records := other.records } ∧
      List.Forall₂ (fun r q => q = { r with timestamp := q.timestamp })
        result.records other.records ∧
      ∀ d, start = c.start.addDays d →
        other.records = result.records.map (Record.addDays d) ∧
          Report.ofResult other = (Report.ofResult result).addDays d := by
  obtain ⟨hvalidate, hcarry⟩ := simulate_eq_ok h
  obtain ⟨t', hcarry'⟩ := Config.carryOut?_congr hdaylight hdraws hcarry
  have hrun := simulate_of_carryOut? hvalidate hcarry'
  obtain ⟨p, stamps, records, -, hstamps, -⟩ := Config.carryOut?_eq_some_iff.1 hcarry
  obtain ⟨stamps', hstamps'⟩ := Option.isSome_iff_exists.1
    ((Clock.timestamps?_isSome_iff (c := { c with start := start }.clock)).2
      fun i _ hi => hcalendar i hi)
  have hhours := Clock.hours_eq hleap hleap' (Timestamp.quarter_eq hhour hminute) hstamps hstamps'
  have htimes := timestamps_records hrun hstamps
  refine ⟨_, t', simulate_start hstamps hstamps' hhours hrun, rfl, ?_, ?_⟩
  · have hlength : result.records.length = stamps'.length := by
      rw [← List.length_map (f := Timestamp.hour), hhours, List.length_map, ← htimes,
        List.length_map]
    rw [List.forall₂_iff_get]
    refine ⟨by simp [hlength], fun i hi hi' => ?_⟩
    simp [Record.stamp]
  · rintro d rfl
    have hrecords : List.zipWith Record.stamp result.records stamps' =
        result.records.map (Record.addDays d) := by
      rw [Clock.timestamps?_addDays hstamps hstamps', ← htimes, zipWith_stamp_addDays]
    simp only [hrecords, Report.ofResult_addDays, and_self]

/-- Twelve hours from an afternoon to the night after it, before a leap day. -/
def leapYearConfig : Config Float32 :=
  { Config.new .hourly ⟨Date.toDay ⟨2024, 2, 28⟩, 50400, 0⟩
      [10, 20, 30, 40, 50, 40, 30, 20, 10, 0, 10, 20] with
    solarCapacity := 60
    windCapacity := 20
    chpCapacity := 10
    batteryCapacity := 50 }

/-- A day later the run starts on the leap day and ends in March. -/
theorem records_of_start_leapDay : ∃ result other s' t',
    simulate leapYearConfig Weather.standard (Wind.replay [1, 2]) = (.ok result, s') ∧
      result.records.map (·.generationOff) = [false, true, true, false, false, false, false,
        false, false, false, true, true] ∧
      simulate { leapYearConfig with start := leapYearConfig.start.addDays 1 } Weather.standard
        (Wind.replay [1, 2]) = (.ok other, t') ∧
      other.records = result.records.map (Record.addDays 1) ∧
      Report.ofResult other = (Report.ofResult result).addDays 1 ∧
      (Report.ofResult other).days.map (·.day.date) = [⟨2024, 2, 29⟩, ⟨2024, 3, 1⟩] := by
  obtain ⟨result, h, hresult⟩ := exists_simulate_eq
    (P := fun result : Result Float32 => decide (
      result.records.map (·.generationOff) = [false, true, true, false, false, false, false,
        false, false, false, true, true] ∧
      ((Report.ofResult result).addDays 1).days.map (·.day.date) = [⟨2024, 2, 29⟩, ⟨2024, 3, 1⟩]))
    (by decide +kernel : (simulate leapYearConfig Weather.standard
      (Wind.replay [1, 2])).1.toOption.any _ = true)
  obtain ⟨hoff, hdays⟩ := of_decide_eq_true hresult
  obtain ⟨other, t', hother, -, -, hshift⟩ := records_of_start (v := Weather.standard)
    (t := Wind.replay [1, 2]) h rfl rfl rfl
    (rfl : (leapYearConfig.start.addDays 1).isLeapSecond = false) rfl rfl (by decide +kernel)
  obtain ⟨hrecords, hreport⟩ := hshift 1 rfl
  exact ⟨result, other, _, t', h, hoff, hother, hrecords, hreport, hreport ▸ hdays⟩

end Simulation

end LocalGrid
