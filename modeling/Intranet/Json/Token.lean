import Intranet.Json.Basic
import Intranet.Json.Cursor

/-!
# Strings, numbers and words of JSON text

The parts of a JSON text that hold no other values, each in two readings: one that gives the value
and one that only passes over it and checks less.
-/

namespace Intranet.Json

/-! ## Words -/

/-- Takes the given bytes. -/
def word : List UInt8 → Reader Unit
  | [] => pure ()
  | expected :: more => do
    match ← peek with
    | none => halt .endInValue
    | some b => do
      forward
      if b = expected then word more else halt .expectedWord

/-- The rest of `null` after its first letter. -/
def nullRest : Reader Unit := word [117, 108, 108]

/-- The rest of `true` after its first letter. -/
def trueRest : Reader Unit := word [114, 117, 101]

/-- The rest of `false` after its first letter. -/
def falseRest : Reader Unit := word [97, 108, 115, 101]

/-! ## Strings -/

/-- The value of a hexadecimal digit. -/
def hexValue? (b : UInt8) : Option Nat := Hex.value? (Char.ofNat b.toNat)

/-- Takes four hexadecimal digits. -/
def fourDigits : Reader Nat := fun c =>
  match c.rest with
  | h1 :: h2 :: h3 :: h4 :: _ =>
    let after := c.forwardBy 4
    match hexValue? h1, hexValue? h2, hexValue? h3, hexValue? h4 with
    | some v1, some v2, some v3, some v4 => .done (((v1 * 16 + v2) * 16 + v3) * 16 + v4) after
    | _, _, _, _ => halt .badEscape after
  | short => halt .endInString (c.forwardBy short.length)

/-- Takes one given byte in the middle of a surrogate pair. -/
def pairByte (expected : UInt8) : Reader Unit := do
  match ← peek with
  | none => halt .endInString
  | some b => do
    forward
    if b = expected then pure () else halt .endInSurrogatePair

/-- The character after a backslash and the letter `u`. Two surrogates in a row are one character;
a surrogate alone is none. -/
def escapedCodePoint : Reader Char := do
  let n ← fourDigits
  if 0xDC00 ≤ n ∧ n ≤ 0xDFFF then halt .loneSurrogate
  else if 0xD800 ≤ n ∧ n ≤ 0xDBFF then do
    pairByte 92
    pairByte 117
    let low ← fourDigits
    if 0xDC00 ≤ low ∧ low ≤ 0xDFFF then
      pure (Char.ofNat ((n - 0xD800) * 0x400 + (low - 0xDC00) + 0x10000))
    else halt .loneSurrogate
  else pure (Char.ofNat n)

/-- What a letter after a backslash stands for. -/
def escapeLetter? (b : UInt8) : Option UInt8 :=
  match b with
  | 34 => some 34
  | 92 => some 92
  | 47 => some 47
  | 98 => some 8
  | 102 => some 12
  | 110 => some 10
  | 114 => some 13
  | 116 => some 9
  | _ => none

/-- The bytes that an escape stands for, after its backslash. -/
def escaped : Reader (List UInt8) := do
  match ← peek with
  | none => halt .endInString
  | some b => do
    forward
    match escapeLetter? b with
    | some x => pure [x]
    | none =>
      if b = 117 then String.utf8EncodeChar <$> escapedCodePoint else halt .badEscape

/-- The bytes of a string up to its closing quote, in reverse on top of those already read. -/
def stringBytes : Nat → List UInt8 → Reader (List UInt8)
  | 0, _, c => halt .endInString c
  | rounds + 1, done, c =>
    match c.rest with
    | [] => halt .endInString c
    | b :: _ =>
      if b = 34 then .done done.reverse c.forward
      else if b = 92 then
        match escaped c.forward with
        | .done bytes c => stringBytes rounds (bytes.reverse ++ done) c
        | .failed p c => .failed p c
      else if b < 32 then halt .rawControl c.forward
      else stringBytes rounds (b :: done) c.forward

/-- A string, after its opening quote. -/
def stringRest : Reader String := do
  let rounds ← remaining
  let bytes ← stringBytes (rounds + 1) []
  match Utf8.decode? bytes with
  | some s => pure s
  | none => halt .badUnicode

/-- Passes over a string, after its opening quote, without looking at what its bytes spell. -/
def skipString : Nat → Reader Unit
  | 0, c => halt .endInString c
  | rounds + 1, c =>
    match c.rest with
    | [] => halt .endInString c
    | b :: _ =>
      if b = 34 then .done () c.forward
      else if b = 92 then
        match c.forward.rest with
        | [] => halt .endInString c.forward
        | e :: _ =>
          let after := c.forward.forward
          if (escapeLetter? e).isSome then skipString rounds after
          else if e = 117 then
            match fourDigits after with
            | .done _ c => skipString rounds c
            | .failed p c => .failed p c
          else halt .badEscape after
      else if b < 32 then halt .rawControl c
      else skipString rounds c.forward

/-! ## Numbers -/

/-- A number of JSON text. -/
inductive Number where
  | int (n : Int)
  | float (d : Double)

/-- The number as a value. -/
def Number.toJson : Number → Json
  | .int n => .int n
  | .float d => .float d

/-- The number as something found in the wrong place. -/
def Number.toFound : Number → Found
  | .int n => .int n
  | .float d => .float d

/-- The value of a decimal digit. -/
def decimal? (b : UInt8) : Option Nat := if 48 ≤ b && b ≤ 57 then some (b.toNat - 48) else none

/-- The value of the next byte as a decimal digit. -/
def peekDigit : Reader (Option Nat) := fun c => .done (c.peek?.bind decimal?) c

/-- Takes all digits that follow and counts them. -/
def skipDigits : Nat → Nat → Reader Nat
  | 0, count, c => .done count c
  | rounds + 1, count, c =>
    match c.peek?.bind decimal? with
    | some _ => skipDigits rounds (count + 1) c.forward
    | none => .done count c

/-- The largest significand that is kept exactly. -/
def maxSignificand : Nat := Nat.pow 2 64 - 1

/-- Takes digits while the number they form stays below `2 ^ 64`. Gives the number and how many
digits were taken. -/
def takeDigits : Nat → Nat → Nat → Reader (Nat × Nat)
  | 0, n, count, c => .done (n, count) c
  | rounds + 1, n, count, c =>
    match c.peek?.bind decimal? with
    | some d =>
      if n * 10 + d ≤ maxSignificand then takeDigits rounds (n * 10 + d) (count + 1) c.forward
      else .done (n, count) c
    | none => .done (n, count) c

/-- The floating point number with a significand and a power of ten. -/
def scaled (negative : Bool) (significand : Nat) (exponent : Int) : Reader Number :=
  match Double.ofScaled negative significand exponent with
  | some d => pure (.float d)
  | none => halt .numberTooLarge

/-- The digits of an exponent. One that does not fit 31 bits makes the number zero or too large. -/
def exponentDigits (negative negativeExponent : Bool) (significand : Nat) (start : Int) :
    Nat → Nat → Reader Number
  | 0, n => scaled negative significand (if negativeExponent then start - n else start + n)
  | rounds + 1, n => do
    match ← peekDigit with
    | none => scaled negative significand (if negativeExponent then start - n else start + n)
    | some d => do
      forward
      if n * 10 + d < Nat.pow 2 31 then
        exponentDigits negative negativeExponent significand start rounds (n * 10 + d)
      else if significand ≠ 0 ∧ !negativeExponent then halt .numberTooLarge
      else do
        let _ ← skipDigits rounds 0
        pure (.float (.zero negative))

/-- An exponent, its letter included. -/
def exponent (negative : Bool) (significand : Nat) (start : Int) : Reader Number := do
  forward
  let sign ← peek
  if sign = some 43 ∨ sign = some 45 then forward
  match ← peek with
  | none => halt .endInValue
  | some b => do
    forward
    match decimal? b with
    | none => halt .badNumber
    | some d => do
      let rounds ← remaining
      exponentDigits negative (sign = some 45) significand start rounds d

/-- An exponent if one follows, or the number as it stands. -/
def exponentOrEnd (negative : Bool) (significand : Nat) (start : Int) : Reader Number := do
  let b ← peek
  if b = some 101 ∨ b = some 69 then exponent negative significand start
  else scaled negative significand start

/-- A point, the digits after it and an exponent. Digits that no longer fit the significand are
dropped. -/
def fraction (negative : Bool) (significand : Nat) (start : Int) : Reader Number := do
  forward
  let rounds ← remaining
  let (n, count) ← takeDigits rounds significand 0
  match ← peekDigit with
  | some _ => do
    let _ ← skipDigits rounds 0
    exponentOrEnd negative n (start - count)
  | none =>
    if count = 0 then
      match ← peek with
      | some _ => haltAhead .badNumber
      | none => haltAhead .endInValue
    else exponentOrEnd negative n (start - count)

/-- What follows the whole part of a number. -/
def numberTail (negative : Bool) (significand : Nat) : Reader Number := do
  let b ← peek
  if b = some 46 then fraction negative significand 0
  else if b = some 101 ∨ b = some 69 then exponent negative significand 0
  else if !negative then pure (.int significand)
  else if significand = 0 then pure (.float (.zero true))
  else if significand ≤ Nat.pow 2 63 then pure (.int (-significand))
  else scaled true significand 0

/-- A number, after its minus sign if it has one. -/
def number (negative : Bool) : Reader Number := do
  match ← peek with
  | none => halt .endInValue
  | some b => do
    forward
    if b = 48 then
      match ← peekDigit with
      | some _ => haltAhead .badNumber
      | none => numberTail negative 0
    else
      match decimal? b with
      | none => halt .badNumber
      | some d => do
        let rounds ← remaining
        let (n, _) ← takeDigits rounds d 0
        match ← peekDigit with
        | none => numberTail negative n
        | some _ => do
          let dropped ← skipDigits rounds 0
          if (← peek) = some 46 then fraction negative n dropped
          else exponentOrEnd negative n dropped

/-- Passes over an exponent, its letter included. -/
def skipExponent : Reader Unit := do
  forward
  let sign ← peek
  if sign = some 43 ∨ sign = some 45 then forward
  match ← peek with
  | none => halt .badNumber
  | some b => do
    forward
    match decimal? b with
    | none => halt .badNumber
    | some _ => do
      let rounds ← remaining
      let _ ← skipDigits rounds 0

/-- Passes over an exponent if one follows. -/
def skipExponentOrEnd : Reader Unit := do
  let b ← peek
  if b = some 101 ∨ b = some 69 then skipExponent

/-- Passes over a number, after its minus sign if it has one. -/
def skipNumber : Reader Unit := do
  match ← peek with
  | none => halt .badNumber
  | some b => do
    forward
    let rounds ← remaining
    if b = 48 then
      if (← peekDigit).isSome then haltAhead .badNumber
    else if (decimal? b).isSome then do
      let _ ← skipDigits rounds 0
    else halt .badNumber
    if (← peek) = some 46 then do
      forward
      let count ← skipDigits rounds 0
      if count = 0 then haltAhead .badNumber
      skipExponentOrEnd
    else skipExponentOrEnd

end Intranet.Json
