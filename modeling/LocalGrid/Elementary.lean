import LocalGrid.Binary

/-!
# Elementary functions in single precision

Sine, cosine and natural logarithm of a single precision number. Each is a short polynomial in
double precision whose error is far below half a unit of single precision, rounded once at the
end. Writing the polynomials out, instead of calling an opaque routine, makes the result the same
on every machine and lets a proof evaluate it.

The coefficients are given by their bit patterns: they are fitted to the intervals of reduction
and have no shorter form.
-/

namespace LocalGrid.Elementary

/-- Half of a half turn, in double precision. -/
def quarterTurn : Float := Float.ofBits 0x3FF921FB54442D18

/-- `2 / π`, scaled by `2 ^ 24`. -/
def quarterTurns : Float := Float.ofBits 0x41645F306DC9C883

def sinePolynomial (x : Float) : Float :=
  let square := x * x
  let cube := x * square
  let tail := Float.ofBits 0x3F81107605230BC4 + square * Float.ofBits 0xBF2994EB3774CF24
  let head := x + cube * Float.ofBits 0xBFC555545995A603
  head + cube * square * tail

def cosinePolynomial (x : Float) : Float :=
  let square := x * x
  let fourth := square * square
  let tail := Float.ofBits 0xBF56C087E89A359D + square * Float.ofBits 0x3EF99343027BF8C3
  let head := Float.ofBits 0x3FF0000000000000 + square * Float.ofBits 0xBFDFFFFFFD0C621C
  head + fourth * Float.ofBits 0x3FA55553E1068F19 + fourth * square * tail

/-- The sine of `x` plus `turns` quarter turns, for `x` near zero. -/
def sineAfter (turns : Nat) (x : Float) : Float :=
  match turns % 4 with
  | 0 => sinePolynomial x
  | 1 => cosinePolynomial x
  | 2 => sinePolynomial (-x)
  | _ => - cosinePolynomial x

/-- An angle from `0` to `120` as the nearest count of quarter turns and the remaining angle. -/
def reduceAngle (x : Float) : Nat × Float :=
  let turns := ((x * quarterTurns).toUInt64.toNat + 0x800000) / 0x1000000
  (turns, x - Float.ofNat turns * quarterTurn)

/-- Angles below this bound, three quarters, need no reduction. -/
def unreducedBelow : Float32 := Float32.ofBits 0x3F400000

/-- Angles below this bound, `2 ^ -12`, are their own sine, and their cosine is one. -/
def negligibleBelow : Float32 := Float32.ofBits 0x39800000

def sine (angle : Float32) : Float32 :=
  if angle < negligibleBelow then angle
  else if angle < unreducedBelow then Binary.narrow (sinePolynomial (Binary.widen angle))
  else
    let (turns, x) := reduceAngle (Binary.widen angle)
    Binary.narrow (sineAfter turns x)

/-- The cosine of an angle from `0` to `120`: the sine a quarter turn further. -/
def cosine (angle : Float32) : Float32 :=
  if angle < negligibleBelow then 1
  else if angle < unreducedBelow then Binary.narrow (cosinePolynomial (Binary.widen angle))
  else
    let (turns, x) := reduceAngle (Binary.widen angle)
    Binary.narrow (sineAfter (turns + 1) x)

/-- Sixteen points of the interval of reduction, as the reciprocal of each and its logarithm. -/
def logarithmTable : Array (UInt64 × UInt64) := #[
  (0x3FF661EC79F8F3BE, 0xBFD57BF7808CAADE),
  (0x3FF571ED4AAF883D, 0xBFD2BEF0A7C06DDB),
  (0x3FF49539F0F010B0, 0xBFD01EAE7F513A67),
  (0x3FF3C995B0B80385, 0xBFCB31D8A68224E9),
  (0x3FF30D190C8864A5, 0xBFC6574F0AC07758),
  (0x3FF25E227B0B8EA0, 0xBFC1AA2BC79C8100),
  (0x3FF1BB4A4A1A343F, 0xBFBA4E76CE8C0E5E),
  (0x3FF12358F08AE5BA, 0xBFB1973C5A611CCC),
  (0x3FF0953F419900A7, 0xBFA252F438E10C1E),
  (0x3FF0000000000000, 0x0000000000000000),
  (0x3FEE608CFD9A47AC, 0x3FAAA5AA5DF25984),
  (0x3FECA4B31F026AA0, 0x3FBC5E53AA362EB4),
  (0x3FEB2036576AFCE6, 0x3FC526E57720DB08),
  (0x3FE9C2D163A1AA2D, 0x3FCBC2860D224770),
  (0x3FE886E6037841ED, 0x3FD1058BC8A07EE1),
  (0x3FE767DCF5534862, 0x3FD4043057B6EE09)]

/-- The natural logarithm of a positive normal number. The number is `2 ^ k * z` with `z` close to
one; the leading bits of `z` choose the table entry. -/
def logarithm (x : Float32) : Float32 :=
  let bits : Int := x.toBits.toNat
  if bits = 0x3F800000 then 0
  else
    let offset := bits - 0x3F330000
    let k := offset / 0x800000
    let entry := logarithmTable.getD (offset / 0x80000 % 16).toNat (0, 0)
    let z := Binary.widen (Binary.singleOfBits (bits - k * 0x800000).toNat)
    let r := z * Float.ofBits entry.1 - 1
    let base := Float.ofBits entry.2 + Float.ofInt k * Float.ofBits 0x3FE62E42FEFA39EF
    let square := r * r
    let middle := Float.ofBits 0x3FD5575B0BE00B6A * r + Float.ofBits 0xBFDFFFFEF20A4123
    let upper := Float.ofBits 0xBFD00EA348B88334 * square + middle
    Binary.narrow (upper * square + (base + r))

end LocalGrid.Elementary
