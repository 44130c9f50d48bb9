import LocalGrid.Calendar.Date
import LocalGrid.Toml.Blank

/-!
# Moments

Dates, times of day, and both together with or without an offset. Only their form and the ranges
of their parts are checked.
-/

namespace LocalGrid.Toml

def readFixed (count : Nat) : Reader Nat := fun cs =>
  let ds := cs.take count
  if ds.length = count ∧ ds.all Char.isDigit then
    some (ds.foldl (fun n c => 10 * n + (c.toNat - 48)) 0, cs.drop count)
  else none

def readRanged (low high : Nat) : Reader Nat := fun cs => do
  let (n, rest) ← readFixed 2 cs
  if low ≤ n ∧ n ≤ high then pure (n, rest) else none

def after? (c : Char) : List Char → Option (List Char)
  | d :: rest => if d = c then some rest else none
  | [] => none

def afterDate? (cs : List Char) : Option (List Char) := do
  let (year, cs) ← readFixed 4 cs
  let cs ← after? '-' cs
  let (month, cs) ← readRanged 1 12 cs
  let cs ← after? '-' cs
  let (_, cs) ← readRanged 1 (Calendar.daysInMonth year month) cs
  pure cs

def afterMinutes? (cs : List Char) : Option (List Char) := do
  let (_, cs) ← readRanged 0 23 cs
  let cs ← after? ':' cs
  let (_, cs) ← readRanged 0 59 cs
  pure cs

def afterTime? (cs : List Char) : Option (List Char) := do
  let cs ← afterMinutes? cs
  let cs ← after? ':' cs
  let (_, cs) ← readRanged 0 60 cs
  match cs with
  | '.' :: d :: rest => pure (if d.isDigit then rest.dropWhile Char.isDigit else cs)
  | cs => pure cs

def afterOffset? : List Char → Option (List Char)
  | [] => none
  | c :: cs =>
    if c == 'Z' || c == 'z' then some cs
    else if c == '+' || c == '-' then afterMinutes? cs
    else none

/-- The text after a time of day that belongs to a date, perhaps with an offset. -/
def afterTimeOfDate? : List Char → Option (List Char)
  | [] => none
  | c :: cs =>
    if c == 'T' || c == 't' || c == ' ' then
      (afterTime? cs).map fun cs => (afterOffset? cs).getD cs
    else none

/-- The text after a date, a time of day, or both. -/
def afterMoment? (cs : List Char) : Option (List Char) :=
  match afterDate? cs with
  | some cs => some ((afterTimeOfDate? cs).getD cs)
  | none => afterTime? cs

end LocalGrid.Toml
