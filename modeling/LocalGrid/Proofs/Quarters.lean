import LocalGrid.Proofs.Clock
import Mathlib.Data.List.Flatten
import Mathlib.Tactic.IntervalCases

/-!
# Quarters of an hour

Every hour of a series stands for four quarters of an hour. A clock that starts on a full hour shows
the same hour in all four of them, so what depends on the hour of the day alone is repeated.
-/

namespace LocalGrid

section

variable {β γ : Type}

def quartered (xs : List β) : List β := xs.flatMap (List.replicate 4)

@[simp] theorem quartered_nil : quartered ([] : List β) = [] := rfl

theorem quartered_cons (x : β) (xs : List β) :
    quartered (x :: xs) = x :: x :: x :: x :: quartered xs := rfl

@[simp] theorem length_quartered (xs : List β) : (quartered xs).length = 4 * xs.length := by
  induction xs with
  | nil => rfl
  | cons x xs ih =>
      rw [quartered_cons]
      simp only [List.length_cons, ih]
      omega

theorem mem_quartered {x : β} {xs : List β} : x ∈ quartered xs ↔ x ∈ xs := by
  simp [quartered, List.mem_flatMap]

theorem map_quartered (f : β → γ) (xs : List β) :
    (quartered xs).map f = quartered (xs.map f) := by
  simp [quartered, List.map_flatMap, List.flatMap_map]

theorem quartered_replicate (n : ℕ) (x : β) :
    quartered (List.replicate n x) = List.replicate (4 * n) x := by
  induction n with
  | zero => rfl
  | succ n ih =>
      rw [List.replicate_succ, quartered_cons, ih, Nat.mul_succ]
      simp only [List.replicate_succ]

theorem getElem?_quartered (xs : List β) (k : ℕ) {j : ℕ} (hj : j < 4) :
    (quartered xs)[4 * k + j]? = xs[k]? := by
  induction xs generalizing k with
  | nil => simp
  | cons x xs ih =>
      rw [quartered_cons]
      cases k with
      | zero => interval_cases j <;> rfl
      | succ k =>
          have hindex : 4 * (k + 1) + j = 4 * k + j + 1 + 1 + 1 + 1 := by omega
          simpa only [hindex, List.getElem?_cons_succ] using ih k

end

namespace Calendar.Timestamp

structure OnTheHour (t : Timestamp) : Prop where
  inRange : t.day.inRange = true
  second_lt : t.second < secondsPerDay
  second_mod : t.second % 3600 = 0

variable {t u : Timestamp} {span : Int} {k j : ℕ}

theorem addSeconds?_of_pos (h : 0 < span) :
    t.addSeconds? span =
      if Day.inRange ⟨t.day.number + (t.second + span) / secondsPerDay⟩ then
        some ⟨⟨t.day.number + (t.second + span) / secondsPerDay⟩,
          ((t.second + span) % secondsPerDay).toNat, t.nanos % 1000000000⟩
      else none := by
  simp [addSeconds?, h.ne', not_lt.2 h.le]

/-- A later timestamp counts the seconds of the day on. -/
theorem later_of_addSeconds? (hlt : t.second < secondsPerDay) (hspan : 0 ≤ span)
    (h : t.addSeconds? span = some u) :
    u.day.number = t.day.number + (t.second + span) / secondsPerDay ∧
      u.second = ((t.second + span) % secondsPerDay).toNat := by
  rcases hspan.eq_or_lt with rfl | hpos
  · obtain rfl := Option.some.inj (t.addSeconds?_zero.symm.trans h)
    simp only [secondsPerDay] at hlt ⊢
    omega
  · rw [addSeconds?_of_pos hpos] at h
    split_ifs at h
    obtain rfl := Option.some.inj h
    exact ⟨rfl, rfl⟩

theorem inRange_of_addSeconds? (ht : t.day.inRange = true) (hspan : 0 ≤ span)
    (h : t.addSeconds? span = some u) : u.day.inRange = true := by
  rcases hspan.eq_or_lt with rfl | hpos
  · obtain rfl := Option.some.inj (t.addSeconds?_zero.symm.trans h)
    exact ht
  · rw [addSeconds?_of_pos hpos] at h
    split_ifs at h with hday
    obtain rfl := Option.some.inj h
    exact hday

theorem exists_addSeconds? (hspan : 0 ≤ span)
    (h : Day.inRange ⟨t.day.number + (t.second + span) / secondsPerDay⟩ = true) :
    ∃ u, t.addSeconds? span = some u := by
  rcases hspan.eq_or_lt with rfl | hpos
  · exact ⟨t, t.addSeconds?_zero⟩
  · exact ⟨_, (addSeconds?_of_pos hpos).trans (if_pos h)⟩

/-- The quarters of an hour after a full hour are timestamps of that hour. -/
theorem OnTheHour.exists_quarter (h : t.OnTheHour) (hu : t.addSeconds? (3600 * k) = some u)
    (hj : j < 4) : ∃ v, t.addSeconds? (3600 * k + 900 * j) = some v ∧ v.hour = u.hour := by
  obtain ⟨hrange, hlt, hmod⟩ := h
  obtain ⟨hday, hsecond⟩ := later_of_addSeconds? hlt (by omega) hu
  have hsame : (t.second + (3600 * k + 900 * j) : Int) / secondsPerDay =
      (t.second + 3600 * k) / secondsPerDay := by
    simp only [secondsPerDay]
    omega
  have hquarter : Day.inRange ⟨t.day.number +
      (t.second + (3600 * k + 900 * j)) / secondsPerDay⟩ = true := by
    rw [hsame, ← hday]
    exact inRange_of_addSeconds? hrange (by omega) hu
  obtain ⟨v, hv⟩ := exists_addSeconds? (by omega) hquarter
  obtain ⟨-, hsecond'⟩ := later_of_addSeconds? hlt (by omega) hv
  refine ⟨v, hv, ?_⟩
  rw [hour, hour, hsecond, hsecond']
  simp only [secondsPerDay]
  omega

/-- The calendar has fewer hours than this. -/
theorem OnTheHour.lt_of_addSeconds? (h : t.OnTheHour)
    (hu : t.addSeconds? (3600 * k) = some u) : k < 2 ^ 40 := by
  have hfirst : firstDay.number = -95745824 := by decide
  have hlast : lastDay.number = 95745704 := by decide
  obtain ⟨hday, -⟩ := later_of_addSeconds? h.second_lt (by omega) hu
  have hrange := h.inRange
  have hrange' := inRange_of_addSeconds? h.inRange (by omega) hu
  simp only [Day.inRange, hfirst, hlast, hday, secondsPerDay, Bool.and_eq_true,
    decide_eq_true_eq] at hrange hrange'
  omega

end Calendar.Timestamp

namespace Clock

open Calendar

variable {start : Timestamp} {n k j : ℕ} {stamps : List Timestamp}

/-- An index of the lower half counts forwards. -/
theorem offset_ofNat (d : StepDuration) {i : ℕ} (h : i < 2 ^ 63) :
    offset d (UInt64.ofNat i) = d.minutes * i := by
  rw [offset, UInt64.toInt64_ofNat', Int64.toInt_ofNat_of_lt h]

theorem timestamp?_hourly (hk : k < 2 ^ 63) :
    (new start .hourly n).timestamp? (UInt64.ofNat k) = start.addSeconds? (3600 * k) := by
  rw [timestamp?, new, offset_ofNat _ hk]
  congr 1
  simp only [StepDuration.minutes]
  omega

theorem timestamp?_quarterHourly (hk : 4 * k + j < 2 ^ 63) :
    (new start .quarterHourly n).timestamp? (UInt64.ofNat (4 * k + j)) =
      start.addSeconds? (3600 * k + 900 * j) := by
  rw [timestamp?, new, offset_ofNat _ hk]
  congr 1
  simp only [StepDuration.minutes]
  omega

/-- The index of an hour in the calendar is far from the end of the words. -/
theorem length_hours_le (hstart : start.OnTheHour)
    (h : (new start .hourly n).timestamps? = some stamps) : n ≤ 2 ^ 40 := by
  by_contra hnot
  rw [not_le] at hnot
  obtain ⟨u, hu⟩ : ∃ u, stamps[2 ^ 40]? = some u :=
    ⟨_, List.getElem?_eq_getElem ((length_timestamps? h).symm ▸ hnot)⟩
  rw [getElem?_timestamps? h hnot, timestamp?_hourly (by decide)] at hu
  exact (hstart.lt_of_addSeconds? hu).false

/-- A clock with quarters of an hour shows the hour of the clock with full hours. -/
theorem timestamps?_quarters (hstart : start.OnTheHour)
    (h : (new start .hourly n).timestamps? = some stamps) :
    ∃ quarters, (new start .quarterHourly (4 * n)).timestamps? = some quarters ∧
      quarters.map (·.hour) = quartered (stamps.map (·.hour)) := by
  have hlength : stamps.length = n := length_timestamps? h
  have hword := length_hours_le hstart h
  have hquarter : ∀ k < n, ∀ j < 4, ∃ v,
      (new start .quarterHourly (4 * n)).timestamp? (UInt64.ofNat (4 * k + j)) = some v ∧
        (stamps.map (·.hour))[k]? = some v.hour := by
    intro k hk j hj
    obtain ⟨u, hu⟩ : ∃ u, stamps[k]? = some u :=
      ⟨_, List.getElem?_eq_getElem (hlength.symm ▸ hk)⟩
    have hu' := hu
    rw [getElem?_timestamps? h hk, timestamp?_hourly (by omega)] at hu'
    obtain ⟨v, hv, hhour⟩ := hstart.exists_quarter hu' hj
    refine ⟨v, (timestamp?_quarterHourly (by omega)).trans hv, ?_⟩
    rw [List.getElem?_map, hu, Option.map_some, hhour]
  have hsplit : ∀ i < 4 * n, ∃ k < n, ∃ j < 4, i = 4 * k + j := fun i hi =>
    ⟨i / 4, by omega, i % 4, by omega, by omega⟩
  obtain ⟨quarters, hquarters⟩ := Option.isSome_iff_exists.1
    (timestamps?_isSome_iff (c := new start .quarterHourly (4 * n)).2 fun i _ hi => by
      obtain ⟨k, hk, j, hj, rfl⟩ := hsplit i hi
      obtain ⟨v, hv, -⟩ := hquarter k hk j hj
      rw [hv, Option.isSome_some])
  refine ⟨quarters, hquarters, List.ext_getElem? fun i => ?_⟩
  rcases lt_or_ge i (4 * n) with hi | hi
  · obtain ⟨k, hk, j, hj, rfl⟩ := hsplit i hi
    obtain ⟨v, hv, hhour⟩ := hquarter k hk j hj
    rw [getElem?_quartered _ _ hj, hhour, List.getElem?_map, getElem?_timestamps? hquarters hi, hv,
      Option.map_some]
  · rw [List.getElem?_eq_none, List.getElem?_eq_none]
    · simpa [hlength] using hi
    · simpa [length_timestamps? hquarters, new] using hi

end Clock

end LocalGrid
