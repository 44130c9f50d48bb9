import LocalGrid.Calendar.Timestamp
import LocalGrid.Rounding
import LocalGrid.Text.Blank

/-!
# Reading timestamps

A written timestamp is a year, a month, a day, an hour, a minute and a second with their
separators. Blanks may stand before every part. Each number is checked against its own range as
soon as it is read, and the date as a whole only after the end of the text, so of several faults
the leftmost is reported.
-/

namespace LocalGrid.Calendar

inductive ReadError where
  /-- The text ends too early. -/
  | premature
  /-- A character does not fit. -/
  | invalid
  /-- A number, or the date, does not exist. -/
  | outOfRange
  /-- Something follows. -/
  | trailing
  deriving DecidableEq, Repr

def ReadError.message : ReadError → String
  | .premature => "premature end of input"
  | .invalid => "input contains invalid characters"
  | .outOfRange => "input is out of range"
  | .trailing => "trailing input"

namespace Reading

def separator (c : Char) (cs : List Char) : Except ReadError (List Char) :=
  match Text.trimStart cs with
  | [] => .error .premature
  | d :: rest => if d = c then .ok rest else .error .invalid

/-- At least one digit and at most `width` of them, if a width is given. -/
def digits (width : Option Nat) (cs : List Char) : Except ReadError (Nat × List Char) :=
  match cs with
  | [] => .error .premature
  | c :: _ =>
    if c.isDigit then
      let run := cs.takeWhile Char.isDigit
      let taken := match width with
        | some w => run.take w
        | none => run
      .ok (taken.foldl (fun v c => 10 * v + (c.toNat - 48)) 0, cs.drop taken.length)
    else .error .invalid

def field (low high : Nat) (cs : List Char) : Except ReadError (Nat × List Char) := do
  let (n, rest) ← digits (some 2) (Text.trimStart cs)
  if low ≤ n ∧ n ≤ high then .ok (n, rest) else .error .outOfRange

/-- A year: up to four digits, or a sign and any number of them. -/
def year (cs : List Char) : Except ReadError (Int × List Char) := do
  let (n, rest) ← match Text.trimStart cs with
    | '-' :: rest => do
      let (n, rest) ← digits none rest
      pure (-(n : Int), rest)
    | '+' :: rest => do
      let (n, rest) ← digits none rest
      pure ((n : Int), rest)
    | cs => do
      let (n, rest) ← digits (some 4) cs
      pure ((n : Int), rest)
  if Int32.minValue.toInt ≤ n ∧ n ≤ Int32.maxValue.toInt then .ok (n, rest) else .error .outOfRange

/-- A fraction of a second in nanoseconds; digits past the ninth are ignored. -/
def fraction (cs : List Char) : Except ReadError (Nat × List Char) :=
  match cs with
  | '.' :: rest => do
    let (n, after) ← digits (some 9) rest
    let count := rest.length - after.length
    pure (n * tenPow (9 - count), after.dropWhile Char.isDigit)
  | cs => .ok (0, cs)

end Reading

open Reading in
def Timestamp.read (text : String) : Except ReadError Timestamp := do
  let (year, cs) ← year text.toList
  let cs ← separator '-' cs
  let (month, cs) ← field 1 12 cs
  let cs ← separator '-' cs
  let (day, cs) ← field 1 31 cs
  let cs ← separator 'T' cs
  let (hour, cs) ← field 0 23 cs
  let cs ← separator ':' cs
  let (minute, cs) ← field 0 59 cs
  let cs ← separator ':' cs
  let (second, cs) ← field 0 60 cs
  let (nanos, cs) ← fraction cs
  if !(Text.trimStart cs).isEmpty then throw .trailing
  let date : Date := ⟨year, month, day⟩
  if !date.exists || !date.toDay.inRange then throw .outOfRange
  let leap := second / 60
  pure ⟨date.toDay, hour * 3600 + minute * 60 + (second - leap), nanos + leap * 1000000000⟩

end LocalGrid.Calendar
