import Intranet.Number.Decimal

/-!
# Bounded naturals

Decimal digits, after an optional plus sign, read from left to right up to a bound. The first digit
that goes beyond the bound, or that is none, decides what is wrong.
-/

namespace Intranet.Decimal

/-- Why a text is no number within bounds. -/
inductive Misread where
  | empty
  | badDigit
  | tooLarge
  deriving DecidableEq, Repr

/-- The text for what is wrong. -/
def Misread.message : Misread → String
  | empty => "cannot parse integer from empty string"
  | badDigit => "invalid digit found in string"
  | tooLarge => "number too large to fit in target type"

/-- The value of digits after others of the given value. -/
def boundedOnto (bound : Nat) : Nat → List Char → Except Misread Nat
  | n, [] => .ok n
  | n, c :: rest =>
    if !isDigit c then .error .badDigit
    else if n * 10 + digitValue c ≤ bound then boundedOnto bound (n * 10 + digitValue c) rest
    else .error .tooLarge

/-- The value of a number that is at most the bound. -/
def bounded (bound : Nat) (cs : List Char) : Except Misread Nat :=
  match cs with
  | [] => .error .empty
  | ['+'] => .error .badDigit
  | '+' :: rest => boundedOnto bound 0 rest
  | cs => boundedOnto bound 0 cs

end Intranet.Decimal
