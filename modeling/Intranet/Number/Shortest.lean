import Intranet.Number.Double

/-!
# The shortest decimal of a double

`shortest` finds the fewest digits that read back as a given double, and of those the nearest. The
reals that round to a double form an interval; for one, two, three digits and so on the two
neighbours of the double on that decimal grid are tested, and the first grid with a neighbour in
the interval wins.
-/

namespace Intranet.Double

/-- The finite double's interval in quarter units of its last place: twice below, the value, twice
above, all over a common denominator. Below a power of two the lower gap is half as wide. -/
structure Interval where
  low : Nat
  value : Nat
  high : Nat
  denominator : Nat
  closed : Bool

/-- The interval of magnitudes that round to a double. -/
def interval (d : Double) : Interval :=
  let m := d.significand
  let e := d.exponent - 2
  let below := if m = Nat.pow 2 52 ∧ 1 < d.biased then 1 else 2
  let (scale, denominator) := if 0 ≤ e then (Nat.pow 2 e.toNat, 1) else (1, Nat.pow 2 (-e).toNat)
  { low := (4 * m - below) * scale, value := 4 * m * scale, high := (4 * m + 2) * scale
    denominator, closed := m % 2 = 0 }

/-- Whether `digits * 10 ^ k` lies in the interval. -/
def Interval.has (i : Interval) (digits : Nat) (k : Int) : Bool :=
  let (n, d) := if 0 ≤ k then (digits * Nat.pow 10 k.toNat, 1) else (digits, Nat.pow 10 (-k).toNat)
  let x := n * i.denominator
  if i.closed then i.low * d ≤ x && x ≤ i.high * d else i.low * d < x && x < i.high * d

/-- The value divided by `10 ^ k`, as a quotient. -/
def Interval.over (i : Interval) (k : Int) : Nat × Nat :=
  if 0 ≤ k then (i.value, i.denominator * Nat.pow 10 k.toNat)
  else (i.value * Nat.pow 10 (-k).toNat, i.denominator)

/-- The digit string of `n` with its trailing zeros taken off and counted into the exponent. -/
def dropZeros : Nat → Nat → Int → Nat × Int
  | 0, n, k => (n, k)
  | fuel + 1, n, k => if n ≠ 0 ∧ n % 10 = 0 then dropZeros fuel (n / 10) (k + 1) else (n, k)

/-- Tries the grid of spacing `10 ^ k` and then finer ones. -/
def searchGrid (i : Interval) : Nat → Int → Nat × Int
  | 0, k => (i.over k |> fun (n, d) => n / d, k)
  | fuel + 1, k =>
    let (n, d) := i.over k
    let lower := n / d
    let lowerHit := lower ≠ 0 && i.has lower k
    let upperHit := i.has (lower + 1) k
    let rest := n % d
    if lowerHit && upperHit then
      if 2 * rest < d ∨ (2 * rest = d ∧ lower % 2 = 0) then (lower, k) else (lower + 1, k)
    else if lowerHit then (lower, k)
    else if upperHit then (lower + 1, k)
    else searchGrid i fuel (k - 1)

/-- The position of the first decimal digit of the value, up to one. -/
def leading (i : Interval) : Int :=
  (((Nat.log2 i.value : Int) - Nat.log2 i.denominator) * 30103).fdiv 100000 + 1

/-- Digits and exponent of the shortest decimal that reads back as a finite, non-zero magnitude. -/
def shortest (d : Double) : Nat × Int :=
  let i := d.interval
  let (n, k) := searchGrid i 20 (leading i)
  dropZeros 20 n k

/-! ## Text -/

/-- How a number in JSON text is written: plain digits while the decimal point stands at most
sixteen places after the first digit or at most four zeros before it, else one digit, a point and
an exponent with its sign. A number always shows a point or an exponent. -/
structure Style where
  /-- The largest count of digits before the point in plain notation. -/
  maxWhole : Int
  /-- The largest count of zeros after the point in plain notation. -/
  maxZeros : Int

/-- The notation of numbers in JSON text. -/
def jsonStyle : Style := ⟨16, 4⟩

/-- The text of a non-zero magnitude in a notation. -/
def Style.magnitude (style : Style) (digits : Nat) (k : Int) : String :=
  let ds := Nat.toDigits 10 digits
  let count : Int := ds.length
  let point := count + k
  if 0 ≤ k ∧ point ≤ style.maxWhole then
    String.ofList (ds ++ List.replicate k.toNat '0' ++ ['.', '0'])
  else if 0 < point ∧ point ≤ style.maxWhole then
    String.ofList (ds.take point.toNat ++ '.' :: ds.drop point.toNat)
  else if -style.maxZeros ≤ point ∧ point ≤ 0 then
    String.ofList ('0' :: '.' :: List.replicate (-point).toNat '0' ++ ds)
  else
    let power := point - 1
    let sign := if power < 0 then '-' else '+'
    let mantissa := match ds with
      | [] => []
      | [d] => [d]
      | d :: rest => d :: '.' :: rest
    String.ofList (mantissa ++ 'e' :: sign :: Nat.toDigits 10 power.natAbs)

/-- The text of a finite double in JSON. -/
def text (d : Double) : String :=
  let sign := if d.isNegative then "-" else ""
  if d.isZero then sign ++ "0.0"
  else
    let (digits, k) := d.shortest
    sign ++ jsonStyle.magnitude digits k

/-- The digits of a magnitude in full, with as many zeros as the place of the point needs and no
point in a whole number. -/
def plainMagnitude (digits : Nat) (k : Int) : String :=
  let ds := Nat.toDigits 10 digits
  let point := (ds.length : Int) + k
  if 0 ≤ k then String.ofList (ds ++ List.replicate k.toNat '0')
  else if 0 < point then String.ofList (ds.take point.toNat ++ '.' :: ds.drop point.toNat)
  else String.ofList ('0' :: '.' :: List.replicate (-point).toNat '0' ++ ds)

/-- The text of a double without an exponent. -/
def plainText (d : Double) : String :=
  let sign := if d.isNegative then "-" else ""
  if d.isNan then "NaN"
  else if !d.isFinite then sign ++ "inf"
  else if d.isZero then sign ++ "0"
  else
    let (digits, k) := d.shortest
    sign ++ plainMagnitude digits k

end Intranet.Double
