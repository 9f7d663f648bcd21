/-!
# Binary floating point numbers

A `Double` is the 64 bits of an IEEE 754 binary64 number. Everything here is exact integer
arithmetic on significand and exponent: `nearest` rounds a quotient of naturals to the nearest
double, ties to the even significand, and multiplication, division and the reading of decimals are
built on it.
-/

namespace Intranet

/-- The bits of a binary64 number. -/
structure Double where
  bits : UInt64
  deriving DecidableEq, Inhabited, Repr

namespace Double

/-! ## Parts -/

/-- The sign bit. -/
def isNegative (d : Double) : Bool := d.bits >>> 63 = 1

/-- The biased exponent. -/
def biased (d : Double) : Nat := ((d.bits >>> 52) &&& 0x7FF).toNat

/-- The stored part of the significand. -/
def fraction (d : Double) : Nat := (d.bits &&& 0xFFFFFFFFFFFFF).toNat

/-- The significand `m` of a finite double, whose magnitude is `m * 2 ^ exponent`. -/
def significand (d : Double) : Nat :=
  if d.biased = 0 then d.fraction else d.fraction + Nat.pow 2 52

/-- The exponent that goes with `significand`. -/
def exponent (d : Double) : Int :=
  if d.biased = 0 then -1074 else (d.biased : Int) - 1075

/-- Zero of the given sign. -/
def zero (negative : Bool) : Double := ⟨if negative then 0x8000000000000000 else 0⟩

/-- Infinity of the given sign. -/
def infinity (negative : Bool) : Double :=
  ⟨if negative then 0xFFF0000000000000 else 0x7FF0000000000000⟩

/-- A quiet value that is no number, with the given sign. -/
def nan (negative : Bool) : Double :=
  ⟨if negative then 0xFFF8000000000000 else 0x7FF8000000000000⟩

/-- The same magnitude with the given sign. -/
def withSign (negative : Bool) (d : Double) : Double :=
  ⟨(d.bits &&& 0x7FFFFFFFFFFFFFFF) ||| (if negative then 0x8000000000000000 else 0)⟩

/-- A zero of either sign. -/
def isZero (d : Double) : Bool := d.biased = 0 && d.fraction = 0

/-- A value that is neither infinite nor no number. -/
def isFinite (d : Double) : Bool := d.biased < 2047

/-- A value that is no number. -/
def isNan (d : Double) : Bool := d.biased = 2047 && d.fraction ≠ 0

/-- The double with significand `m` below `2 ^ 53` at exponent `e`, where `e` is at least -1074 and
`m` is at least `2 ^ 52` unless `e` is -1074. Nothing when the exponent is out of range. -/
def ofParts? (m : Nat) (e : Int) : Option Double :=
  if m < Nat.pow 2 52 then some ⟨UInt64.ofNat m⟩
  else if e + 1075 < 2047 then
    some ⟨UInt64.ofNat ((e + 1075).toNat * Nat.pow 2 52 + (m - Nat.pow 2 52))⟩
  else none

/-! ## Rounding -/

/-- The quotient `num / den` rounded to the nearest natural, a half to the even neighbour. -/
def roundHalfEven (num den : Nat) : Nat :=
  let q := num / den
  let r := num % den
  if 2 * r < den then q
  else if den < 2 * r then q + 1
  else if q % 2 = 0 then q else q + 1

/-- `num / den` in units of `2 ^ e`, as a quotient. -/
def inUnits (num den : Nat) (e : Int) : Nat × Nat :=
  if 0 ≤ e then (num, den * Nat.pow 2 e.toNat) else (num * Nat.pow 2 (-e).toNat, den)

/-- The exponent at which `num / den` has a significand of 53 bits, or -1074 if that is larger. -/
def exponentFor (num den : Nat) : Int :=
  let guess : Int := (Nat.log2 num : Int) - Nat.log2 den - 52
  let (n, d) := inUnits num den guess
  let exact := if n < Nat.pow 2 52 * d then guess - 1 else guess
  if exact < -1074 then -1074 else exact

/-- The double nearest to `num / den`, or nothing when it lies beyond the largest one. -/
def nearest (num den : Nat) : Option Double :=
  if num = 0 then some (zero false)
  else
    let e := exponentFor num den
    let (n, d) := inUnits num den e
    let m := roundHalfEven n d
    if m = Nat.pow 2 53 then ofParts? (Nat.pow 2 52) (e + 1) else ofParts? m e

/-- The magnitude of a finite double as a quotient of naturals. -/
def ratio (d : Double) : Nat × Nat :=
  if 0 ≤ d.exponent then (d.significand * Nat.pow 2 d.exponent.toNat, 1)
  else (d.significand, Nat.pow 2 (-d.exponent).toNat)

/-- The rounded product of two magnitudes. -/
def mul (a b : Double) : Option Double :=
  nearest (a.ratio.1 * b.ratio.1) (a.ratio.2 * b.ratio.2)

/-- The rounded quotient of two magnitudes, the second one not zero. -/
def div (a b : Double) : Option Double :=
  nearest (a.ratio.1 * b.ratio.2) (a.ratio.2 * b.ratio.1)

/-- The nearest natural, a half upwards, with numbers below zero at zero and numbers above the
limit at the limit. What is no number counts as zero. -/
def toNatClamped (limit : Nat) (d : Double) : Nat :=
  if d.isNan || d.isNegative then 0
  else if !d.isFinite then limit
  else min limit ((2 * d.ratio.1 + d.ratio.2) / (2 * d.ratio.2))

/-! ## Decimals -/

/-- The power of ten as a double; exponents up to 308 have one. -/
def pow10 (k : Nat) : Double := (nearest (Nat.pow 10 k) 1).getD (zero false)

/-- The double nearest to `digits * 10 ^ exponent`, or nothing beyond the largest one. Exponents so
far out that the answer no longer depends on them are cut off before any power is taken. -/
def ofDecimal (negative : Bool) (digits : Nat) (exponent : Int) : Option Double :=
  if digits = 0 then some (zero negative)
  else
    let size : Int := (Nat.log2 digits : Int) / 4
    if 310 < exponent then none
    else if exponent + 4 * size + 4 < -400 then some (zero negative)
    else
      (if 0 ≤ exponent then nearest (digits * Nat.pow 10 exponent.toNat) 1
        else nearest digits (Nat.pow 10 (-exponent).toNat)).map (withSign negative)

/-- Scales a significand by a power of ten in steps of at most 308, each step rounded on its own.
`none` means that the number is out of range. -/
def scale : Nat → Double → Int → Option Double
  | steps, d, e =>
    if e.natAbs ≤ 308 then
      if 0 ≤ e then mul d (pow10 e.toNat) else div d (pow10 (-e).toNat)
    else if d.isZero then some d
    else if 0 ≤ e then none
    else
      match steps with
      | 0 => some (zero false)
      | steps + 1 => (div d (pow10 308)).bind fun d => scale steps d (e + 308)

/-- The double that reading `significand * 10 ^ exponent` gives when the significand is rounded
first and the power applied after: the result may be off by the last bit. Three steps are enough to
bring any significand of 64 bits to zero. -/
def ofScaled (negative : Bool) (significand : Nat) (exponent : Int) : Option Double :=
  ((nearest significand 1).bind fun d => scale 3 d exponent).map (withSign negative)

end Double

end Intranet
