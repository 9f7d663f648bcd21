import Intranet.Number.Decimal
import Intranet.Text.Blank
import Intranet.Time.Instant

/-!
# Reading points in time

A lenient reader of RFC 3339 texts: blanks are allowed before numbers and separators, numbers may
be shorter than usual, years may have a sign, and the offset may be `Z`, `UTC` or hours and minutes
with any colons and blanks in between.
-/

namespace Intranet.Instant

/-- Why a text is no point in time. -/
inductive Misread where
  | outOfRange
  | impossible
  | invalid
  | tooShort
  | tooLong
  deriving DecidableEq, Repr

/-- The text for what is wrong. -/
def Misread.message : Misread → String
  | outOfRange => "input is out of range"
  | impossible => "no possible date and time matching input"
  | invalid => "input contains invalid characters"
  | tooShort => "premature end of input"
  | tooLong => "trailing input"

/-! ## Parts -/

/-- The largest number that fits into 63 bits. -/
def maxNumber : Nat := Nat.pow 2 63 - 1

/-- The value of digits, unless it is too large. -/
def digits (cs : List Char) : Except Misread Nat :=
  let n := Decimal.natOnto 0 cs
  if n ≤ maxNumber then .ok n else .error .outOfRange

/-- A number of at least one digit, and of at most so many if a width is given. -/
def number (width : Option Nat) (cs : List Char) : Except Misread (Nat × List Char) := do
  let run := match width with
    | some w => (cs.take w).takeWhile Decimal.isDigit
    | none => cs.takeWhile Decimal.isDigit
  match cs with
  | [] => throw .tooShort
  | _ => if run.isEmpty then throw .invalid else return (← digits run, cs.drop run.length)

/-- A number of two digits at most after blanks, within bounds. -/
def part (low high : Nat) (cs : List Char) : Except Misread (Nat × List Char) := do
  let (n, rest) ← number (some 2) (Text.trimStartL cs)
  if low ≤ n ∧ n ≤ high then return (n, rest) else throw .outOfRange

/-- A year after blanks: four digits at most, or a sign and any number of digits. -/
def year (cs : List Char) : Except Misread (Int × List Char) := do
  let (y, rest) ← match Text.trimStartL cs with
    | '-' :: rest => (number none rest).map fun (n, rest) => (-(n : Int), rest)
    | '+' :: rest => (number none rest).map fun (n, rest) => ((n : Int), rest)
    | cs => (number (some 4) cs).map fun (n, rest) => ((n : Int), rest)
  if -(Nat.pow 2 31 : Int) ≤ y ∧ y < Nat.pow 2 31 then return (y, rest) else throw .outOfRange

/-- A separator after blanks. -/
def separator (c : Char) (cs : List Char) : Except Misread (List Char) :=
  match Text.trimStartL cs with
  | [] => .error .tooShort
  | d :: rest => if d = c then .ok rest else .error .invalid

/-- A fraction of a second in nanoseconds, if there is one. Digits after the ninth are dropped. -/
def fraction (cs : List Char) : Except Misread (Nat × List Char) :=
  match cs with
  | '.' :: rest => do
    let (n, after) ← number (some 9) rest
    return (n * Nat.pow 10 (9 - (rest.length - after.length)), after.dropWhile Decimal.isDigit)
  | cs => .ok (0, cs)

/-- Two characters, the second of which may not be missing: one character of several bytes counts
for two. -/
def two (cs : List Char) : Except Misread (Char × Char × List Char) :=
  match cs with
  | a :: b :: rest => .ok (a, b, rest)
  | [a] => if a.toNat < 128 then .error .tooShort else .error .invalid
  | [] => .error .tooShort

/-- Hours and minutes of an offset, in seconds. -/
def hoursAndMinutes (cs : List Char) : Except Misread (Nat × List Char) := do
  let (h₁, h₂, rest) ← two cs
  unless Decimal.isDigit h₁ && Decimal.isDigit h₂ do throw .invalid
  let (m₁, m₂, rest) ← two (rest.dropWhile fun c => c = ':' || Text.isBlank c)
  unless Decimal.isDigit m₁ && Decimal.isDigit m₂ do throw .invalid
  if '6' ≤ m₁ then throw .outOfRange
  let value := fun a b => Decimal.digitValue a * 10 + Decimal.digitValue b
  return (value h₁ h₂ * 3600 + value m₁ m₂ * 60, rest)

/-- A small or capital letter. -/
def isLetter (c d : Char) : Bool := d = c || d = Char.ofNat (c.toNat + 32)

/-- The offset from UTC in seconds. -/
def offset (cs : List Char) : Except Misread (Int × List Char) :=
  match cs with
  | [] => .error .tooShort
  | c :: rest =>
    if isLetter 'Z' c then .ok (0, rest)
    else if c = '+' then (hoursAndMinutes rest).map fun (n, rest) => ((n : Int), rest)
    else if c = '-' ∨ c = '\u2212' then
      (hoursAndMinutes rest).map fun (n, rest) => (-(n : Int), rest)
    else .error .invalid

/-- The offset from UTC after blanks, which may also be written as `UTC`. -/
def zone (cs : List Char) : Except Misread (Int × List Char) :=
  match Text.trimStartL cs with
  | u :: t :: c :: rest =>
    if isLetter 'U' u && isLetter 'T' t && isLetter 'C' c then .ok (0, rest)
    else offset (u :: t :: c :: rest)
  | cs => offset cs

/-! ## The whole -/

/-- The letter or blank between date and time. -/
def between (cs : List Char) : Except Misread (List Char) :=
  match cs with
  | [] => .error .tooShort
  | c :: rest => if isLetter 'T' c || c = ' ' then .ok rest else .error .invalid

/-- The instant of a local date and time, whose second may be 60, at an offset. -/
def ofLocal (y : Int) (m d h min s nanos : Nat) (offset : Int) : Except Misread Instant := do
  unless -262143 ≤ y && y ≤ 262142 && d ≤ Calendar.daysInMonth y m do throw .outOfRange
  unless -86400 < offset && offset < 86400 do throw .outOfRange
  let inDay := h * 3600 + min * 60 + (if s = 60 then 59 else s)
  let t : Instant :=
    ⟨Calendar.dayOfDate y m d * 86400 + inDay - offset, if s = 60 then second + nanos else nanos⟩
  if t.isHeld then return t else throw .impossible

/-- The instant that a text stands for. -/
def ofTextL (cs : List Char) : Except Misread Instant := do
  let (y, cs) ← year cs
  let (m, cs) ← part 1 12 (← separator '-' cs)
  let (d, cs) ← part 1 31 (← separator '-' cs)
  let (h, cs) ← part 0 23 (← between cs)
  let (min, cs) ← part 0 59 (← separator ':' cs)
  let (s, cs) ← part 0 60 (← separator ':' cs)
  let (nanos, cs) ← fraction cs
  let (off, cs) ← zone cs
  unless cs.all Text.isBlank do throw .tooLong
  ofLocal y m d h min s nanos off

/-- The instant that a text stands for. -/
def ofText (s : String) : Except Misread Instant := ofTextL s.toList

end Intranet.Instant
