import Intranet.Number.Double

/-!
# Decimal numerals

Texts of decimal digits as naturals, and of decimal numerals with a sign, a point and an exponent
as integers and doubles. A sign in front may be `+` or `-`; nothing else may stand around the
digits.
-/

namespace Intranet.Decimal

/-- A decimal digit. -/
def isDigit (c : Char) : Bool := '0' ≤ c && c ≤ '9'

/-- The value of a decimal digit. -/
def digitValue (c : Char) : Nat := c.toNat - 48

/-- The number that digits form on top of a number already read. -/
def natOnto (n : Nat) (cs : List Char) : Nat := cs.foldl (fun n c => n * 10 + digitValue c) n

/-- The number that digits form. At least one digit, and nothing else. -/
def natL? (cs : List Char) : Option Nat :=
  if cs ≠ [] ∧ cs.all isDigit then some (natOnto 0 cs) else none

/-- A sign in front, and what follows it. -/
def signL : List Char → Bool × List Char
  | '-' :: rest => (true, rest)
  | '+' :: rest => (false, rest)
  | rest => (false, rest)

/-- A whole number with or without a sign. -/
def intL? (cs : List Char) : Option Int :=
  let (negative, digits) := signL cs
  (natL? digits).map fun n => if negative then -(n : Int) else n

/-- What follows the digits of a numeral: nothing, or an exponent. -/
def exponentL? : List Char → Option Int
  | [] => some 0
  | c :: rest => if c = 'e' ∨ c = 'E' then intL? rest else none

/-- A numeral with an optional point and exponent, as the nearest double. At least one digit stands
before or after the point. Numbers too large for a double are refused. -/
def doubleL? (cs : List Char) : Option Double :=
  let (negative, cs) := signL cs
  let whole := cs.takeWhile isDigit
  let rest := cs.dropWhile isDigit
  let (places, rest) := match rest with
    | '.' :: r => (r.takeWhile isDigit, r.dropWhile isDigit)
    | r => ([], r)
  if whole = [] ∧ places = [] then none
  else (exponentL? rest).bind fun e =>
    Double.ofDecimal negative (natOnto 0 (whole ++ places)) (e - places.length)

end Intranet.Decimal
