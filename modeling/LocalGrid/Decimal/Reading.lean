import LocalGrid.Binary

/-!
# Reading decimals

A decimal text is read in two steps: into an exact `Numeral`, and from there to the nearest value
of a binary format. Nothing is rounded twice.
-/

namespace LocalGrid.Decimal

/-- A written number: a sign, a significand and a power of ten. -/
structure Numeral where
  negative : Bool
  significand : Nat
  exponent : Int
  deriving DecidableEq, Repr

inductive Reading where
  | number (n : Numeral)
  | infinite (negative : Bool)
  | nan
  deriving DecidableEq, Repr

inductive ReadError where
  | empty
  | malformed
  deriving DecidableEq, Repr

def ReadError.message : ReadError → String
  | .empty => "cannot parse float from empty string"
  | .malformed => "invalid float literal"

def takeDigits (cs : List Char) : List Char × List Char :=
  (cs.takeWhile Char.isDigit, cs.dropWhile Char.isDigit)

def valueOf (ds : List Char) : Nat := ds.foldl (fun v c => 10 * v + (c.toNat - 48)) 0

/-- The exponent part of a number, which has to end the text: nothing, or a mark, perhaps a sign,
and at least one digit. -/
def readExponent? : List Char → Option Int
  | [] => some 0
  | c :: cs =>
    if c == 'e' || c == 'E' then
      let (negative, cs) := match cs with
        | '-' :: rest => (true, rest)
        | '+' :: rest => (false, rest)
        | rest => (false, rest)
      if cs.isEmpty || !cs.all Char.isDigit then none
      else some (if negative then - (valueOf cs : Int) else valueOf cs)
    else none

/-- An unsigned number: digits, perhaps a point and more digits, at least one digit in all, and
perhaps an exponent. -/
def readUnsigned? (negative : Bool) (cs : List Char) : Option Numeral :=
  let (whole, rest) := takeDigits cs
  let (fraction, rest) := match rest with
    | '.' :: more => takeDigits more
    | rest => ([], rest)
  if whole.isEmpty && fraction.isEmpty then none
  else (readExponent? rest).map fun e =>
    ⟨negative, valueOf (whole ++ fraction), e - fraction.length⟩

def readNamed? (negative : Bool) (cs : List Char) : Option Reading :=
  let name := String.ofList (cs.map Char.toLower)
  if name == "nan" then some .nan
  else if name == "inf" || name == "infinity" then some (.infinite negative)
  else none

def read (text : String) : Except ReadError Reading :=
  let cs := text.toList
  let (negative, body) := match cs with
    | '-' :: rest => (true, rest)
    | '+' :: rest => (false, rest)
    | rest => (false, rest)
  if cs.isEmpty then .error .empty
  else match readUnsigned? negative body with
    | some n => .ok (.number n)
    | none => match readNamed? negative body with
      | some r => .ok r
      | none => .error .malformed

/-- The pattern of the value of `f` nearest to a numeral. A numeral far outside the range of every
format is settled by its order of magnitude alone. -/
def Numeral.nearest (f : Binary) (n : Numeral) : Nat :=
  let magnitude := n.exponent + (Nat.toDigits 10 n.significand).length
  if n.significand = 0 ∨ magnitude < -1000 then f.nearestSigned n.negative 0 1
  else if 1000 < magnitude then f.encode (.infinite n.negative)
  else f.nearestSigned n.negative (n.significand * tenPow n.exponent.toNat)
    (tenPow (-n.exponent).toNat)

def Reading.nearest (f : Binary) : Reading → Nat
  | .number n => n.nearest f
  | .infinite negative => f.encode (.infinite negative)
  | .nan => f.nanBits

def Reading.toSingle (r : Reading) : Float32 := Binary.singleOfBits (r.nearest Binary.single)

def Reading.toDouble (r : Reading) : Float := Binary.doubleOfBits (r.nearest Binary.double)

end LocalGrid.Decimal
