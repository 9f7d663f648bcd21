/-!
# Base64

Bytes as text: each three bytes become four characters, and the last group is filled up with equals
signs. Only the text that encoding produces is read back.
-/

namespace Intranet.Base64

/-- The character of a number below 64. -/
def digit (n : Nat) : Char :=
  if n < 26 then Char.ofNat (65 + n)
  else if n < 52 then Char.ofNat (71 + n)
  else if n < 62 then Char.ofNat (n - 4)
  else if n = 62 then '+'
  else '/'

/-- The number of a character. -/
def value? (c : Char) : Option Nat :=
  if 'A' ≤ c ∧ c ≤ 'Z' then some (c.toNat - 65)
  else if 'a' ≤ c ∧ c ≤ 'z' then some (c.toNat - 71)
  else if '0' ≤ c ∧ c ≤ '9' then some (c.toNat + 4)
  else if c = '+' then some 62
  else if c = '/' then some 63
  else none

/-- Bytes as characters, after those already made (the last one first). -/
def encodeOnto (done : List Char) : List UInt8 → List Char
  | a :: b :: c :: rest =>
    let n := a.toNat * 65536 + b.toNat * 256 + c.toNat
    encodeOnto
      (digit (n % 64) :: digit (n / 64 % 64) :: digit (n / 4096 % 64) ::
        digit (n / 262144) :: done)
      rest
  | [a, b] =>
    let n := a.toNat * 256 + b.toNat
    '=' :: digit (n % 16 * 4) :: digit (n / 16 % 64) :: digit (n / 1024) :: done
  | [a] => '=' :: '=' :: digit (a.toNat % 4 * 16) :: digit (a.toNat / 4) :: done
  | [] => done

/-- Bytes as characters. -/
def encodeL (bytes : List UInt8) : List Char := (encodeOnto [] bytes).reverse

/-- Bytes as a string. -/
def encode (bytes : List UInt8) : String := String.ofList (encodeL bytes)

/-- The bytes of characters, after those already read (the last one first). -/
def decodeOnto (done : List UInt8) : List Char → Option (List UInt8)
  | [] => some done
  | [a, b, '=', '='] => do
    let n := (← value? a) * 64 + (← value? b)
    if n % 16 = 0 then some (UInt8.ofNat (n / 16) :: done) else none
  | [a, b, c, '='] => do
    let n := ((← value? a) * 64 + (← value? b)) * 64 + (← value? c)
    if n % 4 = 0 then some (UInt8.ofNat (n / 4 % 256) :: UInt8.ofNat (n / 1024) :: done) else none
  | a :: b :: c :: d :: rest => do
    let n := (((← value? a) * 64 + (← value? b)) * 64 + (← value? c)) * 64 + (← value? d)
    decodeOnto
      (UInt8.ofNat (n % 256) :: UInt8.ofNat (n / 256 % 256) :: UInt8.ofNat (n / 65536) :: done)
      rest
  | _ => none

/-- The bytes of characters. -/
def decodeL? (cs : List Char) : Option (List UInt8) := (decodeOnto [] cs).map List.reverse

/-- The bytes of a string. -/
def decode? (s : String) : Option (List UInt8) := decodeL? s.toList

end Intranet.Base64
