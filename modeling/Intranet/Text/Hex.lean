/-!
# Hexadecimal digits

Single digits and their values, bytes written as two lower-case digits each, and the reader that
takes digits of either case.
-/

namespace Intranet.Hex

/-- The lower-case digit of a value below sixteen. -/
def digit (n : Nat) : Char := if n < 10 then Char.ofNat (48 + n) else Char.ofNat (87 + n)

/-- The value of a digit of either case. -/
def value? (c : Char) : Option Nat :=
  if '0' ≤ c ∧ c ≤ '9' then some (c.toNat - 48)
  else if 'a' ≤ c ∧ c ≤ 'f' then some (c.toNat - 87)
  else if 'A' ≤ c ∧ c ≤ 'F' then some (c.toNat - 55)
  else none

/-- A digit of either case. -/
def isDigit (c : Char) : Bool := (value? c).isSome

/-- The two digits of a byte. -/
def encodeByte (b : UInt8) : List Char := [digit (b.toNat / 16), digit (b.toNat % 16)]

/-- Bytes as digits, two each. -/
def encodeL (bytes : List UInt8) : List Char := bytes.flatMap encodeByte

/-- Bytes as a string of digits. -/
def encode (bytes : List UInt8) : String := String.ofList (encodeL bytes)

/-- The bytes that pairs of digits stand for; an odd count and other characters are refused. -/
def decodeL? : List Char → Option (List UInt8)
  | [] => some []
  | [_] => none
  | a :: b :: rest => do
    let high ← value? a
    let low ← value? b
    let bytes ← decodeL? rest
    pure (UInt8.ofNat (high * 16 + low) :: bytes)

/-- The bytes that a string of digits stands for. -/
def decode? (s : String) : Option (List UInt8) := decodeL? s.toList

/-- The number that digits stand for, most significant first. -/
def natL? : List Char → Option Nat
  | [] => none
  | cs => cs.foldlM (fun n c => (value? c).map (n * 16 + ·)) 0

/-- A number as lower-case digits, at least `width` of them. -/
def ofNat (width n : Nat) : String :=
  let digits := Nat.toDigits 16 n
  String.ofList (List.replicate (width - digits.length) '0' ++ digits)

end Intranet.Hex
