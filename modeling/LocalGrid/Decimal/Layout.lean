import LocalGrid.Decimal.Shortest

/-!
# Written numbers

How a shortest decimal is written down (`Layout`) and how a number is written with fixed places
(`Places`). What a format decides is one record value of these types; the records of this library
stand beside the texts they belong to.
-/

namespace LocalGrid.Decimal

/-- The decisions of a format that writes shortest decimals. -/
structure Layout where
  /-- The least decimal exponent written without an exponent; every one if absent. -/
  plainFrom : Option Int
  /-- The decimal exponent from which on an exponent is written; never if absent. -/
  plainBelow : Option Int
  /-- Whether an integer is written with `.0`. -/
  keepsPoint : Bool
  /-- Which of two equally near decimals is written. -/
  tie : Tie

/-- Plain messages: no exponent, no `.0`. -/
def Layout.message : Layout := ⟨none, none, false, .away⟩

/-- Values in diagnostics about a file: no exponent, always a point. -/
def Layout.diagnostic : Layout := ⟨none, none, true, .away⟩

def Layout.document : Layout := ⟨some (-6), some 13, true, .even⟩

/-- The sign of a value; a negative zero has one too. -/
def sign (negative : Bool) : String := if negative then "-" else ""

def Digits.significant (d : Digits) : List Char :=
  ((digits d.significand).reverse.dropWhile (· == '0')).reverse

def Digits.leadingExponent (d : Digits) : Int :=
  d.exponent + ((digits d.significand).length - 1)

/-- Digits with the point after the digit of weight one. -/
def Layout.plain (l : Layout) (ds : List Char) (e : Int) : List Char :=
  if e < 0 then ['0', '.'] ++ List.replicate (-e - 1).toNat '0' ++ ds
  else
    let whole := e.toNat + 1
    if ds.length ≤ whole then
      ds ++ List.replicate (whole - ds.length) '0' ++ (if l.keepsPoint then ['.', '0'] else [])
    else ds.take whole ++ ['.'] ++ ds.drop whole

def scientific (ds : List Char) (e : Int) : List Char :=
  let fraction := ds.drop 1
  ds.take 1 ++ (if fraction.isEmpty then [] else '.' :: fraction)
    ++ ['e', if e < 0 then '-' else '+'] ++ digits e.natAbs

def Layout.write (l : Layout) (d : Digits) : String :=
  let ds := d.significant
  let e := d.leadingExponent
  let isPlain := l.plainFrom.all (· ≤ e) && l.plainBelow.all (e < ·)
  String.ofList (if isPlain then l.plain ds e else scientific ds e)

def Layout.text (l : Layout) (f : Binary) : Binary.Value → String
  | .nan => "NaN"
  | .infinite negative => sign negative ++ "inf"
  | .finite negative m q =>
    sign negative ++
      (if m = 0 then (if l.keepsPoint then "0.0" else "0") else l.write (shortest f l.tie m q))

def Layout.single (l : Layout) (x : Float32) : String := l.text Binary.single (Binary.ofSingle x)

def Layout.double (l : Layout) (x : Float) : String := l.text Binary.double (Binary.ofDouble x)

structure Places where
  count : Nat
  /-- Whether a sign is written before a value that is not negative. -/
  plus : Bool := false

/-- `units / 10 ^ places` with all its places. -/
def unitsText (places units : Nat) : String :=
  let ds := digits units
  let ds := List.replicate (places + 1 - ds.length) '0' ++ ds
  let whole := ds.length - places
  String.ofList (ds.take whole ++ (if places = 0 then [] else '.' :: ds.drop whole))

/-- A value rounded to the nearest number with the given places, a half to the even neighbour. The
sign is that of the value, also where it rounds to zero. -/
def Places.text (p : Places) : Binary.Value → String
  | .nan => "NaN"
  | .infinite negative => mark negative ++ "inf"
  | .finite negative m q =>
    mark negative ++
      unitsText p.count (roundDiv .even (m * twoPow q.toNat * tenPow p.count) (twoPow (-q).toNat))
where
  mark (negative : Bool) : String := if negative then "-" else if p.plus then "+" else ""

def Places.single (p : Places) (x : Float32) : String := p.text (Binary.ofSingle x)

def padLeft (width : Nat) (text : String) : String :=
  String.ofList (List.replicate (width - text.length) ' ') ++ text

end LocalGrid.Decimal
