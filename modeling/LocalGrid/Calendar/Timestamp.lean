import LocalGrid.Calendar.Date

/-!
# Timestamps

A timestamp is a day, a second of the day and nanoseconds. A leap second is the second before it
with a full second or more of nanoseconds, so that no day has more than `86400` seconds and the
order of timestamps is the lexicographic one. Moving a timestamp by a span leaves the leap second:
forwards it counts as the second before it, backwards as the second after it.
-/

namespace LocalGrid.Calendar

structure Timestamp where
  day : Day
  second : Nat
  nanos : Nat
  deriving DecidableEq, Repr

namespace Timestamp

def secondsPerDay : Nat := 86400

def isLeapSecond (t : Timestamp) : Bool := 1000000000 ≤ t.nanos

def midnight (d : Day) : Timestamp := ⟨d, 0, 0⟩

def hour (t : Timestamp) : Nat := t.second / 3600

def minute (t : Timestamp) : Nat := t.second / 60 % 60

/-- The distance in seconds from the start of the first day, the leap second not counted. -/
def seconds (t : Timestamp) : Int := t.day.number * secondsPerDay + t.second

def addSeconds? (t : Timestamp) (span : Int) : Option Timestamp :=
  if span = 0 then some t
  else
    let second := t.second + (if t.isLeapSecond && span < 0 then 1 else 0) + span
    let day : Day := ⟨t.day.number + second / secondsPerDay⟩
    if day.inRange then
      some ⟨day, (second % secondsPerDay).toNat, t.nanos % 1000000000⟩
    else none

theorem addSeconds?_zero (t : Timestamp) : t.addSeconds? 0 = some t := by
  simp [addSeconds?]

def isBefore (s t : Timestamp) : Bool :=
  s.day.number < t.day.number ||
    (s.day.number == t.day.number &&
      (s.second < t.second || (s.second == t.second && s.nanos < t.nanos)))

/-- A fraction of a second with three, six or nine digits, the fewest that are exact. -/
def fractionChars (nanos : Nat) : List Char :=
  if nanos = 0 then []
  else if nanos % 1000000 = 0 then '.' :: padded 3 (nanos / 1000000)
  else if nanos % 1000 = 0 then '.' :: padded 6 (nanos / 1000)
  else '.' :: padded 9 nanos

def minuteChars (t : Timestamp) : List Char :=
  padded 2 t.hour ++ [':'] ++ padded 2 t.minute

/-- The time of the day; a leap second is the second `60`. -/
def timeChars (t : Timestamp) : List Char :=
  let leap := t.nanos / 1000000000
  t.minuteChars ++ [':'] ++ padded 2 (t.second % 60 + leap)
    ++ fractionChars (t.nanos - leap * 1000000000)

def text (t : Timestamp) : String :=
  String.ofList (t.day.date.chars ++ ['T'] ++ t.timeChars)

def timeText (t : Timestamp) : String := String.ofList t.timeChars

/-- The short text of tables: date and time to the minute. -/
def tableText (t : Timestamp) : String :=
  String.ofList (t.day.date.chars ++ [' '] ++ t.minuteChars)

end Timestamp

end LocalGrid.Calendar
