import LocalGrid.Decimal.Reading
import LocalGrid.Toml.Blank

/-!
# Numbers

Integers in four bases and decimal numbers. Underscores may stand between digits. An integer has to
fit into 64 bits, and a number may not be too large; one that is too far below zero is minus
infinity.
-/

namespace LocalGrid.Toml

/-- The digits that continue a run, with underscores between digits left out. -/
def moreDigits (isDigit : Char → Bool) : List Char → List Char × List Char
  | '_' :: c :: rest =>
    if isDigit c then
      let (ds, rest) := moreDigits isDigit rest
      (c :: ds, rest)
    else ([], '_' :: c :: rest)
  | c :: rest =>
    if isDigit c then
      let (ds, rest) := moreDigits isDigit rest
      (c :: ds, rest)
    else ([], c :: rest)
  | [] => ([], [])

def readDigits (isDigit : Char → Bool) : Reader (List Char)
  | c :: rest =>
    if isDigit c then
      let (ds, rest) := moreDigits isDigit rest
      some (c :: ds, rest)
    else none
  | [] => none

def takeSign : List Char → Bool × List Char
  | '-' :: rest => (true, rest)
  | '+' :: rest => (false, rest)
  | cs => (false, cs)

/-- Reads the digits of a decimal integer, which has no zero in front. -/
def readWhole : Reader (List Char)
  | '0' :: rest => some (['0'], rest)
  | cs => readDigits Char.isDigit cs

def fitted? (n : Int) : Option Int :=
  if Int64.minValue.toInt ≤ n ∧ n ≤ Int64.maxValue.toInt then some n else none

def isHexDigit (c : Char) : Bool :=
  c.isDigit || ('a' ≤ c && c ≤ 'f') || ('A' ≤ c && c ≤ 'F')

def isOctalDigit (c : Char) : Bool := '0' ≤ c && c ≤ '7'

def isBinaryDigit (c : Char) : Bool := c == '0' || c == '1'

def digitValue (c : Char) : Nat :=
  if c.isDigit then c.toNat - 48 else if c.toNat < 97 then c.toNat - 55 else c.toNat - 87

def baseValue (base : Nat) (ds : List Char) : Nat :=
  ds.foldl (fun n c => base * n + digitValue c) 0

def readBased (base : Nat) (isDigit : Char → Bool) (cs : List Char) : Option (Int × List Char) := do
  let (ds, rest) ← readDigits isDigit cs
  let n ← fitted? (baseValue base ds)
  pure (n, rest)

def readInteger : Reader Int
  | '0' :: 'x' :: rest => readBased 16 isHexDigit rest
  | '0' :: 'o' :: rest => readBased 8 isOctalDigit rest
  | '0' :: 'b' :: rest => readBased 2 isBinaryDigit rest
  | cs => do
    let (negative, body) := takeSign cs
    let (ds, rest) ← readWhole body
    let n : Int := Decimal.valueOf ds
    let n ← fitted? (if negative then -n else n)
    pure (n, rest)

def readExponent : Reader Int
  | [] => none
  | c :: cs =>
    if c == 'e' || c == 'E' then do
      let (negative, cs) := takeSign cs
      let (ds, rest) ← readDigits Char.isDigit cs
      let n : Int := Decimal.valueOf ds
      pure (if negative then -n else n, rest)
    else none

def readPlaces : Reader (List Char)
  | '.' :: cs => readDigits Char.isDigit cs
  | _ => none

/-- Reads a decimal number: an integer and then places, an exponent or both. -/
def readNumeral : Reader Decimal.Numeral := fun cs => do
  let (negative, body) := takeSign cs
  let (whole, rest) ← readWhole body
  match readPlaces rest with
  | some (places, rest) =>
    let (e, rest) := (readExponent rest).getD (0, rest)
    pure (⟨negative, Decimal.valueOf (whole ++ places), e - places.length⟩, rest)
  | none =>
    let (e, rest) ← readExponent rest
    pure (⟨negative, Decimal.valueOf whole, e⟩, rest)

def readNamed : Reader Decimal.Reading := fun cs =>
  let (negative, body) := takeSign cs
  match body with
  | 'i' :: 'n' :: 'f' :: rest => some (.infinite negative, rest)
  | 'n' :: 'a' :: 'n' :: rest => some (.nan, rest)
  | _ => none

/-- The value of a numeral, unless it is positive and too large. -/
def finiteOrBelow? (n : Decimal.Numeral) : Option Float :=
  let x := (Decimal.Reading.number n).toDouble
  if x.isFinite || n.negative then some x else none

def readNumber : Reader Float := fun cs =>
  match readNumeral cs with
  | some (n, rest) => (finiteOrBelow? n).map fun x => (x, rest)
  | none => (readNamed cs).map fun (r, rest) => (r.toDouble, rest)

end LocalGrid.Toml
