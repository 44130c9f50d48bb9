import LocalGrid.Calendar.Date
import Mathlib.Tactic.IntervalCases
import Mathlib.Tactic.Ring

/-!
# Days and dates

The date of a day is a date of the calendar, and the day of it is the day again. The year of an era
is found by a division that leaves the leap days out. It does not fall from day to day, so that it
is enough to know it on the first and on the last day of every year.
-/

namespace LocalGrid.Calendar

/-! ## Years -/

/-- The days of an era before a year, which starts in March. -/
def yearStart (year : ℕ) : ℕ := 365 * year + year / 4 - year / 100

def yearOfDay (day : ℕ) : ℕ := (day - day / 1460 + day / 36524 - day / 146096) / 365

variable {day day' year : ℕ}

theorem yearOfDay_mono (h : day ≤ day') : yearOfDay day ≤ yearOfDay day' := by
  induction h with
  | refl => rfl
  | step _ ih =>
      refine ih.trans (Nat.div_le_div_right ?_)
      omega

theorem yearOfDay_yearStart (h : year < 400) : yearOfDay (yearStart year) = year := by
  have hyears : ∀ year < 400, yearOfDay (yearStart year) = year := by decide +kernel
  exact hyears year h

theorem yearOfDay_lt_of_lt (h : year < 400) (hday : day < yearStart year) :
    yearOfDay day < year := by
  have hyears : ∀ year < 400, 0 < yearStart year → yearOfDay (yearStart year - 1) < year := by
    decide +kernel
  exact (yearOfDay_mono (Nat.le_sub_one_of_lt hday)).trans_lt
    (hyears year h (Nat.zero_lt_of_lt hday))

theorem yearOfDay_lt (h : day < 146097) : yearOfDay day < 400 :=
  (yearOfDay_mono (Nat.le_of_lt_succ h)).trans_lt (by decide)

theorem yearStart_yearOfDay_le (h : day < 146097) : yearStart (yearOfDay day) ≤ day :=
  not_lt.1 fun hlt => lt_irrefl _ (yearOfDay_lt_of_lt (yearOfDay_lt h) hlt)

/-- The length of a year that starts in March: its leap day is the last one. -/
def yearLength (year : ℤ) : ℕ := if isLeapYear (year + 1) then 366 else 365

theorem lt_yearStart_add_yearLength (h : day < 146097) :
    day < yearStart (yearOfDay day) + yearLength (yearOfDay day) := by
  have hlengths : ∀ year < 399, yearStart (year + 1) = yearStart year + yearLength year := by
    decide +kernel
  rcases (Nat.le_of_lt_succ (yearOfDay_lt h)).lt_or_eq with hlt | hlast
  · rw [← hlengths _ hlt]
    by_contra hle
    have hmono := yearOfDay_mono (not_lt.1 hle)
    rw [yearOfDay_yearStart (Nat.succ_lt_succ hlt)] at hmono
    exact Nat.not_succ_le_self _ hmono
  · rw [hlast]
    exact h

/-! ## Dates -/

/-- The days of a year before a month, which are counted from March. -/
def monthStart (month : ℕ) : ℕ := (153 * month + 2) / 5

def monthOfDay (day : ℕ) : ℕ := (5 * day + 2) / 153

theorem monthOfDay_lt (h : day < 366) : monthOfDay day < 12 := by
  unfold monthOfDay
  omega

theorem monthStart_monthOfDay_le (day : ℕ) : monthStart (monthOfDay day) ≤ day := by
  unfold monthStart monthOfDay
  omega

theorem lt_monthStart_succ (day : ℕ) : day < monthStart (monthOfDay day + 1) := by
  unfold monthStart monthOfDay
  omega

/-- A date from the month and the days before it in the month. -/
def dateOf (year : ℤ) (month day : ℕ) : Date where
  year := if month < 10 then year else year + 1
  month := if month < 10 then month + 3 else month - 9
  day := day + 1

theorem exists_dateOf {year : ℤ} {month : ℕ} (hmonth : month < 12)
    (hnext : monthStart month + day < monthStart (month + 1))
    (hyear : monthStart month + day < yearLength year) : (dateOf year month day).exists = true := by
  unfold monthStart yearLength at *
  rcases (Nat.le_of_lt_succ hmonth).lt_or_eq with hlt | rfl
  · interval_cases month <;> simp [dateOf, Date.exists, daysInMonth] <;> omega
  · -- February is as long as the year leaves it
    cases hleap : isLeapYear (year + 1) <;>
      simp [dateOf, Date.exists, daysInMonth, hleap] at hyear ⊢ <;> omega

theorem toDay_dateOf (year : ℤ) {month : ℕ} (hmonth : month < 12) :
    (dateOf year month day).toDay.number =
      year / 400 * 146097 + yearStart (year % 400).toNat + (monthStart month + day) := by
  unfold yearStart monthStart
  interval_cases month <;> simp [dateOf, Date.toDay] <;> omega

namespace Day

variable (d : Day)

def ofEra : ℕ := (d.number % 146097).toNat

/-- The year of a day, which starts in March. -/
def marchYear : ℤ := d.number / 146097 * 400 + yearOfDay d.ofEra

def ofYear : ℕ := d.ofEra - yearStart (yearOfDay d.ofEra)

theorem date_eq : d.date = dateOf d.marchYear (monthOfDay d.ofYear)
    (d.ofYear - monthStart (monthOfDay d.ofYear)) := rfl

theorem ofEra_lt : d.ofEra < 146097 := by
  unfold ofEra
  omega

theorem marchYear_eq : d.marchYear / 400 = d.number / 146097 ∧
    (d.marchYear % 400).toNat = yearOfDay d.ofEra := by
  have hyear := yearOfDay_lt d.ofEra_lt
  unfold marchYear
  omega

theorem yearLength_marchYear : yearLength d.marchYear = yearLength (yearOfDay d.ofEra) := by
  have hmod (n : ℤ) (hn : n ∣ 400) : (d.marchYear + 1) % n = (yearOfDay d.ofEra + 1) % n := by
    obtain ⟨k, hk⟩ := hn
    have hsplit : d.marchYear + 1 = yearOfDay d.ofEra + 1 + n * (k * (d.number / 146097)) := by
      rw [marchYear, hk]
      ring
    rw [hsplit, Int.add_mul_emod_self_left]
  rw [yearLength, yearLength, isLeapYear, isLeapYear, hmod 4 (by decide), hmod 100 (by decide),
    hmod 400 (by decide)]

theorem ofYear_lt : d.ofYear < yearLength d.marchYear := by
  have hlt := lt_yearStart_add_yearLength d.ofEra_lt
  have hstart := yearStart_yearOfDay_le d.ofEra_lt
  rw [yearLength_marchYear, ofYear]
  omega

theorem ofYear_lt_366 : d.ofYear < 366 :=
  d.ofYear_lt.trans_le (by unfold yearLength; split <;> decide)

/-- The date of a day stands in the calendar. -/
theorem exists_date : d.date.exists = true := by
  have hsplit := Nat.add_sub_cancel' (monthStart_monthOfDay_le d.ofYear)
  rw [date_eq]
  refine exists_dateOf (monthOfDay_lt d.ofYear_lt_366) ?_ ?_ <;> rw [hsplit]
  · exact lt_monthStart_succ d.ofYear
  · exact d.ofYear_lt

/-- The date of a day has the day. -/
theorem toDay_date : d.date.toDay = d := by
  obtain ⟨hera, hyear⟩ := d.marchYear_eq
  have hnumber : d.date.toDay.number = d.number := by
    have hsplit := Nat.add_sub_cancel' (monthStart_monthOfDay_le d.ofYear)
    rw [date_eq, toDay_dateOf _ (monthOfDay_lt d.ofYear_lt_366), hera, hyear, ← Nat.cast_add,
      hsplit]
    have hstart := yearStart_yearOfDay_le d.ofEra_lt
    unfold ofYear ofEra at *
    omega
  cases d
  exact congrArg Day.mk hnumber

/-- Timestamps reach no year beyond these. -/
theorem year_date_of_inRange (h : d.inRange = true) :
    -262400 ≤ d.date.year ∧ d.date.year ≤ 262400 := by
  have hfirst : firstDay.number = -95745824 := by decide
  have hlast : lastDay.number = 95745704 := by decide
  have hyear := yearOfDay_lt d.ofEra_lt
  simp only [inRange, hfirst, hlast, Bool.and_eq_true, decide_eq_true_eq] at h
  rw [date_eq, dateOf]
  unfold marchYear
  dsimp only
  split_ifs <;> omega

end Day

end LocalGrid.Calendar
