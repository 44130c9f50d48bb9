/-!
# Dates

The proleptic Gregorian calendar. A day is an integer, counted from the first of March of the year
zero: with the year turned so that it starts in March, the leap day is the last day of a year, and
the day number of a date is a closed formula. Order and distance of days are those of integers.
-/

namespace LocalGrid.Calendar

/-- A day, as its distance from the first of March of the year zero. -/
structure Day where
  number : Int
  deriving DecidableEq, Repr, Ord

structure Date where
  year : Int
  month : Nat
  day : Nat
  deriving DecidableEq, Repr

/-- Every fourth year is a leap year, but of the full centuries only every fourth. -/
def isLeapYear (year : Int) : Bool :=
  year % 4 == 0 && (year % 100 != 0 || year % 400 == 0)

def daysInMonth (year : Int) (month : Nat) : Nat :=
  if month == 2 then (if isLeapYear year then 29 else 28)
  else if month == 4 || month == 6 || month == 9 || month == 11 then 30
  else 31

def Date.exists (d : Date) : Bool :=
  1 ≤ d.month && d.month ≤ 12 && 1 ≤ d.day && d.day ≤ daysInMonth d.year d.month

def Date.toDay (d : Date) : Day :=
  let year := if d.month ≤ 2 then d.year - 1 else d.year
  let month : Nat := (d.month + 9) % 12
  let era := year / 400
  let yearOfEra := year % 400
  let dayOfYear : Int := (153 * month + 2) / 5 + d.day - 1
  ⟨era * 146097 + yearOfEra * 365 + yearOfEra / 4 - yearOfEra / 100 + dayOfYear⟩

def Day.date (d : Day) : Date :=
  let era := d.number / 146097
  let dayOfEra := (d.number % 146097).toNat
  let yearOfEra := (dayOfEra - dayOfEra / 1460 + dayOfEra / 36524 - dayOfEra / 146096) / 365
  let dayOfYear := dayOfEra - (365 * yearOfEra + yearOfEra / 4 - yearOfEra / 100)
  let month := (5 * dayOfYear + 2) / 153
  let year := era * 400 + yearOfEra
  { year := if month < 10 then year else year + 1
    month := if month < 10 then month + 3 else month - 9
    day := dayOfYear - (153 * month + 2) / 5 + 1 }

def firstDay : Day := Date.toDay ⟨-262143, 1, 1⟩

def lastDay : Day := Date.toDay ⟨262142, 12, 31⟩

def Day.inRange (d : Day) : Bool := firstDay.number ≤ d.number && d.number ≤ lastDay.number

def padded (width n : Nat) : List Char :=
  let ds := Nat.toDigits 10 n
  List.replicate (width - ds.length) '0' ++ ds

/-- A year: four digits, and a sign outside the range that four digits cover. -/
def yearText (year : Int) : List Char :=
  if 0 ≤ year ∧ year ≤ 9999 then padded 4 year.toNat
  else (if year < 0 then '-' else '+') :: padded 4 year.natAbs

def Date.chars (d : Date) : List Char :=
  yearText d.year ++ ['-'] ++ padded 2 d.month ++ ['-'] ++ padded 2 d.day

def Day.text (d : Day) : String := String.ofList d.date.chars

end LocalGrid.Calendar
