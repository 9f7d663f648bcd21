/-!
# UTF-8 text as bytes

Strings are written as bytes and read back. The strict reader `decode?` refuses broken text; the
lenient reader `decodeLossy` puts the replacement character in place of each broken part. It goes
character by character: `next` looks at a first byte and what follows it, and either finds a
character or the longest start of one that is broken off there.
-/

namespace Intranet.Utf8

/-- The bytes of a string. -/
def encode (s : String) : List UInt8 := s.toUTF8.toList

/-- The count of bytes that characters take. -/
def lengthL (cs : List Char) : Nat := (cs.map Char.utf8Size).foldr (· + ·) 0

/-- The string that the bytes spell, if they spell one. -/
def decode? (bytes : List UInt8) : Option String := String.fromUTF8? bytes.toByteArray

/-- The character shown where bytes do not form one. -/
def replacement : Char := Char.ofNat 0xFFFD

/-! ## One character at a time -/

/-- A byte that can stand after the first one of a character. -/
def isTail (b : UInt8) : Bool := 0x80 ≤ b && b ≤ 0xBF

/-- The bytes that may come second after a first byte of a longer character: the shortest form is
the only form, surrogates are not characters, and nothing lies above U+10FFFF. -/
def isSecond (first b : UInt8) : Bool :=
  if first = 0xE0 then 0xA0 ≤ b && b ≤ 0xBF
  else if first = 0xED then 0x80 ≤ b && b ≤ 0x9F
  else if first = 0xF0 then 0x90 ≤ b && b ≤ 0xBF
  else if first = 0xF4 then 0x80 ≤ b && b ≤ 0x8F
  else isTail b

/-- The six payload bits of a later byte. -/
def payload (b : UInt8) : Nat := b.toNat % 64

/-- What stands at a byte: the character it starts, if it starts one, and how many of the following
bytes belong to it. When there is no character the count covers the bytes that could still have
become one. -/
def next (b : UInt8) (rest : List UInt8) : Option Char × Nat :=
  if b < 0x80 then (some (Char.ofNat b.toNat), 0)
  else if 0xC2 ≤ b && b ≤ 0xDF then
    match rest with
    | c :: _ =>
      if isTail c then (some (Char.ofNat (b.toNat % 32 * 64 + payload c)), 1) else (none, 0)
    | [] => (none, 0)
  else if 0xE0 ≤ b && b ≤ 0xEF then
    match rest with
    | c :: d :: _ =>
      if isSecond b c then
        if isTail d then
          (some (Char.ofNat ((b.toNat % 16 * 64 + payload c) * 64 + payload d)), 2)
        else (none, 1)
      else (none, 0)
    | [c] => (none, if isSecond b c then 1 else 0)
    | [] => (none, 0)
  else if 0xF0 ≤ b && b ≤ 0xF4 then
    match rest with
    | c :: d :: e :: _ =>
      if isSecond b c then
        if isTail d then
          if isTail e then
            (some (Char.ofNat
              (((b.toNat % 8 * 64 + payload c) * 64 + payload d) * 64 + payload e)), 3)
          else (none, 2)
        else (none, 1)
      else (none, 0)
    | [c, d] => (none, if isSecond b c then (if isTail d then 2 else 1) else 0)
    | [c] => (none, if isSecond b c then 1 else 0)
    | [] => (none, 0)
  else (none, 0)

/-! ## Broken text -/

/-- The characters of a byte list, last one first, on top of those already read. -/
def decodeOnto (done : List Char) : List UInt8 → List Char
  | [] => done
  | b :: rest =>
    match next b rest with
    | (found, n) => decodeOnto (found.getD replacement :: done) (rest.drop n)
termination_by bs => bs.length
decreasing_by simp only [List.length_drop, List.length_cons]; omega

/-- The string that the bytes spell, with U+FFFD where they spell nothing. -/
def decodeLossy (bytes : List UInt8) : String := String.ofList (decodeOnto [] bytes).reverse

end Intranet.Utf8
