import Intranet.Number.Decimal

/-!
# Integers of 64 bits

The arithmetic of words goes on with another number where a result leaves 64 bits. So each step in
the reading of a numeral is checked when it is made, and the numeral is refused at the first one
that overflows. A negative numeral is read downwards, since there is one more number below zero
than above.
-/

namespace Intranet

namespace Word

/-- An operation on words that gives nothing where it overflows. -/
def checked (overflows : BitVec 64 → BitVec 64 → Bool) (op : Int64 → Int64 → Int64) (a b : Int64) :
    Option Int64 :=
  if overflows a.toBitVec b.toBitVec then none else some (op a b)

/-- The sum of two words. -/
def add? : Int64 → Int64 → Option Int64 := checked BitVec.saddOverflow (· + ·)

/-- The difference of two words. -/
def sub? : Int64 → Int64 → Option Int64 := checked BitVec.ssubOverflow (· - ·)

/-- The product of two words. -/
def mul? : Int64 → Int64 → Option Int64 := checked BitVec.smulOverflow (· * ·)

end Word

namespace Decimal

/-- One more digit behind those that were read, which moves a number further away from zero. -/
def digitOnto (negative : Bool) (w digit : Int64) : Option Int64 :=
  (Word.mul? w 10).bind fun tens => if negative then Word.sub? tens digit else Word.add? tens digit

/-- The word that digits make behind those that were read. -/
def wordOnto (negative : Bool) : Int64 → List Char → Option Int64
  | w, [] => some w
  | w, c :: rest =>
    if isDigit c then
      (digitOnto negative w (Int64.ofNat (digitValue c))).bind fun w => wordOnto negative w rest
    else none

/-- A whole number of 64 bits with or without a sign. -/
def int64L? (cs : List Char) : Option Int :=
  let (negative, digits) := signL cs
  if digits.isEmpty then none else (wordOnto negative 0 digits).map Int64.toInt

end Decimal

end Intranet
