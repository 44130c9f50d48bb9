import LocalGrid.Proofs.Clock
import LocalGrid.Proofs.Simulation.Completion

/-!
# Another start

A run reads its timestamps for one thing only, the hour of the day on which the sun depends. All
steps are whole quarters of an hour long, so the hours of all steps follow from the quarter of the
day in which the run starts. Two starts in the same quarter of the day have the same records, but
for their timestamps. If whole days lie between the starts, they lie between the timestamps and
between the days of the reports as well.
-/

namespace LocalGrid

open Quantity Calendar

/-! ## Timestamps -/

def Calendar.Day.add (day : Day) (n : ℤ) : Day := ⟨day.number + n⟩

namespace Calendar.Timestamp

variable {s t s' t' : Timestamp} {span : ℤ}

def addDays (t : Timestamp) (n : ℤ) : Timestamp := { t with day := t.day.add n }

def quarter (t : Timestamp) : ℕ := t.second / 900

theorem hour_eq_quarter (t : Timestamp) : t.hour = t.quarter / 4 := by
  rw [hour, quarter]
  omega

theorem quarter_eq (hhour : s.hour = t.hour) (hminute : s.minute / 15 = t.minute / 15) :
    s.quarter = t.quarter := by
  simp only [hour, minute, quarter] at hhour hminute ⊢
  omega

/-- The second of the day that a move counts from. -/
def base (t : Timestamp) (span : ℤ) : ℤ :=
  t.second + if t.isLeapSecond && span < 0 then 1 else 0

theorem eq_of_addSeconds? (hspan : span ≠ 0) (h : t.addSeconds? span = some t') :
    t' = ⟨t.day.add ((t.base span + span) / secondsPerDay),
      ((t.base span + span) % secondsPerDay).toNat, t.nanos % 1000000000⟩ := by
  rw [addSeconds?, if_neg hspan] at h
  exact (Option.some.inj (Option.ite_none_right_eq_some.1 h).2).symm

/-- After whole quarters the quarter of the day is the sum, without the whole days. -/
theorem quarter_addSeconds? {m : ℤ} (hleap : t.isLeapSecond = false) (hm : m ≠ 0)
    (h : t.addSeconds? (900 * m) = some t') : (t'.quarter : ℤ) = (t.quarter + m) % 96 := by
  have hbase : t.base (900 * m) = t.second := by simp [base, hleap]
  obtain rfl := eq_of_addSeconds? (by omega) h
  simp only [quarter, secondsPerDay, hbase]
  omega

theorem hour_addSeconds? {m : ℤ} (hs : s.isLeapSecond = false) (ht : t.isLeapSecond = false)
    (hquarter : s.quarter = t.quarter) (h : s.addSeconds? (900 * m) = some s')
    (h' : t.addSeconds? (900 * m) = some t') : s'.hour = t'.hour := by
  rw [hour_eq_quarter, hour_eq_quarter]
  -- a timestamp that is not moved keeps its leap second, so no move is a case of its own
  rcases eq_or_ne m 0 with rfl | hm
  · obtain rfl : s = s' := by simpa [addSeconds?] using h
    obtain rfl : t = t' := by simpa [addSeconds?] using h'
    rw [hquarter]
  · have hs' := quarter_addSeconds? hs hm h
    have ht' := quarter_addSeconds? ht hm h'
    omega

theorem addSeconds?_addDays {d : ℤ} (h : t.addSeconds? span = some t')
    (h' : (t.addDays d).addSeconds? span = some s') : s' = t'.addDays d := by
  rcases eq_or_ne span 0 with rfl | hspan
  · obtain rfl : t = t' := by simpa [addSeconds?] using h
    simpa [addSeconds?, eq_comm] using h'
  · obtain rfl := eq_of_addSeconds? hspan h
    obtain rfl := eq_of_addSeconds? hspan h'
    have hbase : (t.addDays d).base span = t.base span := rfl
    rw [hbase]
    simp only [addDays, Day.add, mk.injEq, Day.mk.injEq, and_true]
    omega

end Calendar.Timestamp

/-! ## The clock -/

namespace Clock

variable {start start' : Timestamp} {d : StepDuration} {n : ℕ} {stamps stamps' : List Timestamp}

theorem offset_eq_quarters (d : StepDuration) (index : UInt64) :
    ∃ m, offset d index * 60 = 900 * m := by
  cases d with
  | hourly => exact ⟨4 * index.toInt64.toInt, by simp only [offset, StepDuration.minutes]; omega⟩
  | quarterHourly => exact ⟨index.toInt64.toInt, by simp only [offset, StepDuration.minutes]; omega⟩

/-- Starts in the same quarter of the day have the same hours. -/
theorem hours_eq (hleap : start.isLeapSecond = false) (hleap' : start'.isLeapSecond = false)
    (hquarter : start'.quarter = start.quarter) (h : (new start d n).timestamps? = some stamps)
    (h' : (new start' d n).timestamps? = some stamps') :
    stamps'.map (·.hour) = stamps.map (·.hour) := by
  have hlength := length_timestamps? h
  have hlength' := length_timestamps? h'
  refine List.ext_getElem (by simp [hlength, hlength', new]) fun i hi hi' => ?_
  simp only [List.length_map] at hi hi'
  have hin : i < n := by simpa [hlength, new] using hi'
  have ht := (getElem?_timestamps? h hin).symm.trans (List.getElem?_eq_getElem hi')
  have ht' := (getElem?_timestamps? h' hin).symm.trans (List.getElem?_eq_getElem hi)
  obtain ⟨m, hm⟩ := offset_eq_quarters d (UInt64.ofNat i)
  simp only [timestamp?, new, hm] at ht ht'
  simpa using Timestamp.hour_addSeconds? hleap' hleap hquarter ht' ht

/-- Whole days between the starts lie between all timestamps. -/
theorem timestamps?_addDays {k : ℤ} (h : (new start d n).timestamps? = some stamps)
    (h' : (new (start.addDays k) d n).timestamps? = some stamps') :
    stamps' = stamps.map fun t => t.addDays k := by
  have hlength := length_timestamps? h
  have hlength' := length_timestamps? h'
  refine List.ext_getElem (by simp [hlength, hlength', new]) fun i hi' hi => ?_
  simp only [List.length_map] at hi
  have hin : i < n := by simpa [hlength, new] using hi
  have ht := (getElem?_timestamps? h hin).symm.trans (List.getElem?_eq_getElem hi)
  have ht' := (getElem?_timestamps? h' hin).symm.trans (List.getElem?_eq_getElem hi')
  simpa using Timestamp.addSeconds?_addDays ht ht'

end Clock

namespace Simulation

variable {σ τ α ω : Type}

/-! ## Steps -/

def StepInput.stamp (x : StepInput α) (t : Timestamp) : StepInput α := { x with timestamp := t }

def Record.stamp (r : Record α) (t : Timestamp) : Record α := { r with timestamp := t }

theorem Config.inputs_stamp {c : Config α} {stamps stamps' : List Timestamp} (p : Profiles α)
    (hlength : stamps.length = stamps'.length) :
    c.inputs stamps' p = List.zipWith StepInput.stamp (c.inputs stamps p) stamps' := by
  apply List.ext_getElem
  · cases hthermal : c.thermalDemand <;> simp [inputs, hthermal, hlength]
  · intro i hi hi'
    cases hthermal : c.thermalDemand <;> simp [inputs, hthermal, StepInput.stamp]

section

variable [Quantity α]

theorem Rules.step?_stamp (rules : Rules α) (index : ℕ) (x : StepInput α) (t : Timestamp)
    (s : State α) : rules.step? index (x.stamp t) s =
      (rules.step? index x s).map fun out => (out.1.stamp t, out.2) := by
  simp only [step?, StepInput.stamp, Option.bind_eq_bind, Option.map_bind]
  refine congrArg _ (funext fun exchange => ?_)
  cases thermalStep? rules.hours x.chp x.thermalDemand s.thermal <;> rfl

/-- The steps read their timestamps only to put them on their records. -/
theorem Rules.steps?_stamp (rules : Rules α) (index : ℕ) {xs : List (StepInput α)}
    {stamps : List Timestamp} (hlength : xs.length = stamps.length) (s : State α) :
    rules.steps? index (List.zipWith StepInput.stamp xs stamps) s =
      (rules.steps? index xs s).map fun rs => List.zipWith Record.stamp rs stamps := by
  induction xs generalizing index stamps s with
  | nil => rfl
  | cons x xs ih =>
      obtain _ | ⟨t, stamps⟩ := stamps
      · simp at hlength
      · have hrest : xs.length = stamps.length := by simpa using hlength
        rw [List.zipWith_cons_cons, steps?, steps?, rules.step?_stamp]
        cases rules.step? index x s with
        | none => rfl
        | some out =>
            simp only [Option.map_some, Option.bind_eq_bind, Option.bind_some, ih _ hrest]
            cases rules.steps? (index + 1) xs out.2 <;> rfl

variable [Quantity ω] [Widening α ω] {c : Config α} {w : Weather σ α} {v : Weather τ α} {s s' : σ}
  {t : τ} {result : Result α} {start : Timestamp} {stamps stamps' : List Timestamp}

/-! ## Runs -/

/-- The records of a run have the timestamps of its clock. -/
theorem timestamps_records (h : simulate c w s = (.ok result, s'))
    (hstamps : c.clock.timestamps? = some stamps) : result.records.map (·.timestamp) = stamps := by
  have hlength := length_records h
  obtain ⟨-, hcarry⟩ := simulate_eq_ok h
  obtain ⟨p, other, records, -, hother, hrecords, rfl⟩ := Config.carryOut?_eq_some_iff.1 hcarry
  obtain rfl : stamps = other := Option.some.inj (hstamps.symm.trans hother)
  obtain ⟨states, -, hinputs, hsteps⟩ := Rules.exists_states hrecords
  refine List.ext_getElem ?_ fun i hi hi' => ?_
  · rw [List.length_map, hlength, Config.length_clock_timestamps? hstamps]
  · simp only [List.length_map] at hi
    have hx := List.getElem?_eq_getElem (l := c.inputs stamps p) (hinputs ▸ hi)
    have htime := (Config.inputAt hx).1
    rw [List.getElem?_eq_getElem hi', Option.some.injEq] at htime
    rw [List.getElem_map, htime]
    exact (hsteps i _ _ hx (List.getElem?_eq_getElem hi)).timestamp_eq

theorem Config.validate_start (c : Config α) (start : Timestamp) :
    { c with start := start }.validate = c.validate := by
  simp only [validate, rejections]

/-- Another start with the same hours has the same profiles. -/
theorem Config.profiles?_start {p : Profiles α} (hstamps : c.clock.timestamps? = some stamps)
    (hstamps' : { c with start := start }.clock.timestamps? = some stamps')
    (hhours : stamps'.map (·.hour) = stamps.map (·.hour)) (h : c.profiles? w s = some (p, s')) :
    { c with start := start }.profiles? w s = some (p, s') := by
  have hlength : stamps'.length = stamps.length := by
    simpa using congrArg List.length hhours
  obtain ⟨other, hother, hsolar, hwind, hchp, hstate⟩ := profiles?_eq_some_iff.1 h
  obtain rfl : stamps = other := Option.some.inj (hstamps.symm.trans hother)
  refine profiles?_eq_some_iff.2 ⟨stamps', hstamps', ?_⟩
  rw [hhours, hlength]
  exact ⟨hsolar, hwind, hchp, hstate⟩

/-- Another start with the same hours has the same run, with its own timestamps on the records. -/
theorem simulate_start (hstamps : c.clock.timestamps? = some stamps)
    (hstamps' : { c with start := start }.clock.timestamps? = some stamps')
    (hhours : stamps'.map (·.hour) = stamps.map (·.hour))
    (h : simulate c w s = (.ok result, s')) :
    simulate { c with start := start } w s =
      (.ok { result with records := List.zipWith Record.stamp result.records stamps' }, s') := by
  obtain ⟨hvalidate, hcarry⟩ := simulate_eq_ok h
  obtain ⟨p, other, records, hp, hother, hrecords, rfl⟩ := Config.carryOut?_eq_some_iff.1 hcarry
  obtain rfl : stamps = other := Option.some.inj (hstamps.symm.trans hother)
  have hlength : stamps.length = stamps'.length := by
    simpa using (congrArg List.length hhours).symm
  have hinputs : (c.inputs stamps p).length = stamps'.length := by
    rw [Config.length_inputs (Config.accepted_of_validate hvalidate)
      (Config.length_clock_timestamps? hstamps) (Config.covers_of_profiles? hp), ← hlength,
      Config.length_clock_timestamps? hstamps]
  have hsteps : c.rules.steps? 0 (c.inputs stamps' p) c.initialState =
      some (List.zipWith Record.stamp records stamps') := by
    rw [Config.inputs_stamp p hlength, Rules.steps?_stamp _ _ hinputs, hrecords, Option.map_some]
  exact simulate_of_carryOut? ((c.validate_start start).trans hvalidate)
    (Config.carryOut?_eq_some_iff.2
      ⟨p, stamps', _, Config.profiles?_start hstamps hstamps' hhours hp, hstamps', hsteps, rfl⟩)

end

end Simulation

end LocalGrid
