import LocalGrid.Rounding

/-!
# Binary interchange formats

A floating-point value is seen here as a sign and a dyadic number `m * 2 ^ q`, so that texts and
conversions can be computed exactly in natural numbers. `Binary.decode` reads a bit pattern,
`Binary.nearest` finds the pattern nearest to a positive fraction. The patterns of the positive
values of a format are consecutive numbers in the order of the values, which is why `nearest` is
one rounded division followed by one addition: a mantissa that rounds up to the next power of two
carries into the exponent by itself.
-/

namespace LocalGrid

/-- A binary format: the bits of a full mantissa and the bits of an exponent. -/
structure Binary where
  precision : Nat
  exponentBits : Nat

namespace Binary

def single : Binary := ⟨24, 8⟩

def double : Binary := ⟨53, 11⟩

/-- The exponent of the smallest positive value, which is also the grid of the subnormal ones. -/
def minExponent (f : Binary) : Int := 3 - twoPow (f.exponentBits - 1) - f.precision

/-- The number of values that share one exponent. -/
def binade (f : Binary) : Nat := twoPow (f.precision - 1)

def infinityBits (f : Binary) : Nat := (twoPow f.exponentBits - 1) * f.binade

def signBit (f : Binary) : Nat := twoPow f.exponentBits * f.binade

end Binary

/-- The value of a bit pattern. A finite one is `mantissa * 2 ^ exponent` with a sign, which a
zero has too. -/
inductive Binary.Value where
  | nan
  | infinite (negative : Bool)
  | finite (negative : Bool) (mantissa : Nat) (exponent : Int)
  deriving DecidableEq, Repr

namespace Binary

def decode (f : Binary) (bits : Nat) : Value :=
  let negative := f.signBit ≤ bits
  let rest := bits % f.signBit
  let field := rest / f.binade
  let fraction := rest % f.binade
  if field = twoPow f.exponentBits - 1 then
    if fraction = 0 then .infinite negative else .nan
  else if field = 0 then .finite negative fraction f.minExponent
  else .finite negative (f.binade + fraction) (f.minExponent + (field - 1))

/-- The greatest `e` with `2 ^ e ≤ n / d`, for positive `n` and `d`. -/
def log2Quotient (n d : Nat) : Int :=
  let e : Int := (n.log2 : Int) - d.log2
  if n * twoPow (-e).toNat < d * twoPow e.toNat then e - 1 else e

/-- The pattern of the value nearest to `n / d`, ties to even; infinity beyond the range. -/
def nearest (f : Binary) (n d : Nat) : Nat :=
  if n = 0 then 0
  else
    let q := max (log2Quotient n d - (f.precision - 1)) f.minExponent
    let steps := (q - f.minExponent).toNat
    let mantissa := roundDiv .even (n * twoPow (-q).toNat) (d * twoPow q.toNat)
    min (steps * f.binade + mantissa) f.infinityBits

def nearestSigned (f : Binary) (negative : Bool) (n d : Nat) : Nat :=
  (if negative then f.signBit else 0) + f.nearest n d

def nanBits (f : Binary) : Nat := f.infinityBits + f.binade / 2

def encode (f : Binary) : Value → Nat
  | .nan => f.nanBits
  | .infinite negative => (if negative then f.signBit else 0) + f.infinityBits
  | .finite negative m q => f.nearestSigned negative (m * twoPow q.toNat) (twoPow (-q).toNat)

def ofSingle (x : Float32) : Value := single.decode x.toBits.toNat

def ofDouble (x : Float) : Value := double.decode x.toBits.toNat

def singleOfBits (bits : Nat) : Float32 := Float32.ofBits (UInt32.ofNat bits)

def doubleOfBits (bits : Nat) : Float := Float.ofBits (UInt64.ofNat bits)

/-- Every single precision value is a double precision value. -/
def widen (x : Float32) : Float := doubleOfBits (double.encode (ofSingle x))

def narrow (x : Float) : Float32 := singleOfBits (single.encode (ofDouble x))

end Binary

end LocalGrid
