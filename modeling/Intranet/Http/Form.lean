import Intranet.Text.Hex
import Intranet.Text.Utf8

/-!
# Form encoding

Names and values in the query of a target: pairs between ampersands, a plus sign for a blank, and
other bytes as a percent sign and two hexadecimal digits.
-/

namespace Intranet.Http.Form

/-- Percent escapes become bytes; an escape that is not well formed stays as it is. -/
def unescapeOnto (done : List UInt8) : List UInt8 → List UInt8
  | [] => done.reverse
  | 37 :: a :: b :: rest =>
    match Hex.value? (Char.ofNat a.toNat), Hex.value? (Char.ofNat b.toNat) with
    | some high, some low => unescapeOnto (UInt8.ofNat (high * 16 + low) :: done) rest
    | _, _ => unescapeOnto (37 :: done) (a :: b :: rest)
  | c :: rest => unescapeOnto (c :: done) rest
termination_by bytes => bytes.length

/-- A name or a value: plus signs are blanks, escapes are bytes, and bad UTF-8 is replaced. -/
def decodePart (bytes : List UInt8) : String :=
  Utf8.decodeLossy (unescapeOnto [] (bytes.map fun b => if b = 43 then 32 else b))

/-- The pair between two ampersands. -/
def decodePair (bytes : List UInt8) : String × String :=
  match bytes.span (· ≠ 61) with
  | (name, rest) => (decodePart name, decodePart (rest.drop 1))

/-- The pairs of a query, in order. -/
def decode (query : String) : List (String × String) :=
  (((Utf8.encode query).splitOn 38).filter (!·.isEmpty)).map decodePair

/-- Whether a byte is written as it is. -/
def isPlain (b : UInt8) : Bool :=
  (48 ≤ b && b ≤ 57) || (65 ≤ b && b ≤ 90) || (97 ≤ b && b ≤ 122) || b = 42 || b = 45 || b = 46 ||
    b = 95

/-- A capital hexadecimal digit. -/
def capitalDigit (n : Nat) : Char := if n < 10 then Char.ofNat (48 + n) else Char.ofNat (55 + n)

/-- A byte of a name or value. -/
def encodeByte (b : UInt8) : List Char :=
  if isPlain b then [Char.ofNat b.toNat]
  else if b = 32 then ['+']
  else ['%', capitalDigit (b.toNat / 16), capitalDigit (b.toNat % 16)]

/-- A name or value. -/
def encodePart (s : String) : String := String.ofList ((Utf8.encode s).flatMap encodeByte)

/-- The only value of a name, if it is given; a name that is given twice is refused. -/
def single (name : String) (pairs : List (String × String)) : Except String (Option String) :=
  match pairs.filter fun (n, _) => n = name with
  | [] => .ok none
  | [(_, value)] => .ok (some value)
  | _ => .error ("duplicate field `" ++ name ++ "`")

end Intranet.Http.Form
