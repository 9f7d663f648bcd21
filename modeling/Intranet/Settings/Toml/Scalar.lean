import Intranet.Number.Decimal
import Intranet.Settings.Value
import Intranet.Text.Hex
import Intranet.Time.Calendar

/-!
# Scalars of TOML

Values that TOML writes without quotes: booleans, numbers of four bases, floating point numbers,
and dates and times, which are kept as their text.
-/

namespace Intranet.Settings.Toml

/-! ## Numbers -/

/-- Digits without the underscores between them. An underscore stands between two digits only, and
there is at least one digit. -/
def ungroup? (isDigit : Char → Bool) : List Char → Option (List Char)
  | [] => none
  | [c] => if isDigit c then some [c] else none
  | c :: '_' :: rest => if isDigit c then (ungroup? isDigit rest).map (c :: ·) else none
  | c :: rest => if isDigit c then (ungroup? isDigit rest).map (c :: ·) else none

/-- Decimal digits of a whole number: no zero in front of another digit. -/
def wholeDigits? (cs : List Char) : Option (List Char) :=
  if cs.head? = some '0' ∧ 1 < cs.length then none else ungroup? Decimal.isDigit cs

/-- The number that the digits of a base stand for. -/
def ofBase? (base : Nat) (cs : List Char) : Option Nat :=
  let value (c : Char) := (Hex.value? c).filter (· < base)
  (ungroup? (fun c => (value c).isSome) cs).bind fun digits =>
    digits.foldlM (fun n c => (value c).map (n * base + ·)) 0

/-- A whole number that fits into 64 bits with sign. -/
def int? (cs : List Char) : Option Int :=
  let n : Option Int := match cs with
    | '0' :: 'x' :: digits => (ofBase? 16 digits).map Int.ofNat
    | '0' :: 'o' :: digits => (ofBase? 8 digits).map Int.ofNat
    | '0' :: 'b' :: digits => (ofBase? 2 digits).map Int.ofNat
    | cs =>
      let (negative, digits) := Decimal.signL cs
      (wholeDigits? digits).map fun digits =>
        let n : Int := Decimal.natOnto 0 digits
        if negative then -n else n
  n.filter fun n => -(Nat.pow 2 63 : Int) ≤ n ∧ n < Nat.pow 2 63

/-- The exponent of a floating point number, which may be missing. -/
def exponent? : List Char → Option Int
  | [] => some 0
  | _ :: rest =>
    let (negative, digits) := Decimal.signL rest
    (ungroup? Decimal.isDigit digits).map fun digits =>
      let n : Int := Decimal.natOnto 0 digits
      if negative then -n else n

/-- The digits after the point of a floating point number, which may be missing with their
point. -/
def places? : List Char → Option (List Char)
  | [] => some []
  | _ :: rest => ungroup? Decimal.isDigit rest

/-- A floating point number: a whole number followed by places, an exponent or both, or one of the
two words, with or without a sign. Numbers above all doubles are refused, those below become the
infinity. -/
def float? (cs : List Char) : Option Double :=
  let (negative, cs) := Decimal.signL cs
  if cs = ['i', 'n', 'f'] then some (Double.infinity negative)
  else if cs = ['n', 'a', 'n'] then some (Double.nan negative)
  else do
    let (number, power) := cs.span fun c => c ≠ 'e' && c ≠ 'E'
    let (whole, fraction) := number.span (· ≠ '.')
    if power.isEmpty ∧ fraction.isEmpty then none
    let whole ← wholeDigits? whole
    let places ← places? fraction
    let power ← exponent? power
    match Double.ofDecimal negative (Decimal.natOnto 0 (whole ++ places))
      (power - places.length) with
    | some d => some d
    | none => if negative then some (Double.infinity true) else none

/-! ## Dates and times -/

/-- The number of two digits, if it lies within bounds. -/
def pair? (low high : Nat) (a b : Char) : Option Nat :=
  (Decimal.natL? [a, b]).filter fun n => low ≤ n ∧ n ≤ high

/-- A date, as it is written. -/
def date? : List Char → Option (List Char)
  | [y₁, y₂, y₃, y₄, '-', m₁, m₂, '-', d₁, d₂] => do
    let year ← Decimal.natL? [y₁, y₂, y₃, y₄]
    let month ← pair? 1 12 m₁ m₂
    let _ ← pair? 1 (Calendar.daysInMonth year month) d₁ d₂
    return [y₁, y₂, y₃, y₄, '-', m₁, m₂, '-', d₁, d₂]
  | _ => none

/-- The fraction of a second, cut after nine digits and without zeros at its end. -/
def secondFraction? : List Char → Option (List Char)
  | [] => some []
  | '.' :: digits =>
    if digits ≠ [] ∧ digits.all Decimal.isDigit then
      match ((digits.take 9).reverse.dropWhile (· = '0')).reverse with
      | [] => some []
      | kept => some ('.' :: kept)
    else none
  | _ => none

/-- A time of day, with the zeros at the end of its fraction taken off. -/
def time? : List Char → Option (List Char)
  | h₁ :: h₂ :: ':' :: m₁ :: m₂ :: ':' :: s₁ :: s₂ :: rest => do
    let _ ← pair? 0 23 h₁ h₂
    let _ ← pair? 0 59 m₁ m₂
    let _ ← pair? 0 60 s₁ s₂
    let fraction ← secondFraction? rest
    return h₁ :: h₂ :: ':' :: m₁ :: m₂ :: ':' :: s₁ :: s₂ :: fraction
  | _ => none

/-- A distance from universal time, which may be missing. No distance has a plus sign. -/
def offset? : List Char → Option (List Char)
  | [] => some []
  | ['Z'] | ['z'] => some ['Z']
  | [sign, h₁, h₂, ':', m₁, m₂] => do
    let hours ← pair? 0 23 h₁ h₂
    let minutes ← pair? 0 59 m₁ m₂
    if sign = '+' ∨ sign = '-' then
      return (if hours + minutes = 0 then '+' else sign) :: [h₁, h₂, ':', m₁, m₂]
    else none
  | _ => none

/-- A time of day, with or without a distance from universal time. -/
def timeAndOffset? (cs : List Char) : Option (List Char) := do
  let (clock, distance) := cs.span fun c => Decimal.isDigit c || c = ':' || c = '.'
  return (← time? clock) ++ (← offset? distance)

/-- A date, a time of day or both. -/
def dateTime? (cs : List Char) : Option (List Char) :=
  match date? (cs.take 10), cs.drop 10 with
  | some date, [] => some date
  | some date, separator :: clock =>
    if separator = 'T' ∨ separator = 't' ∨ separator = ' ' then
      (timeAndOffset? clock).map fun clock => date ++ 'T' :: clock
    else none
  | none, _ => time? cs

/-! ## Words -/

/-- A character of a value without quotes. -/
def isWordChar (c : Char) : Bool :=
  c.isAlphanum || c = '_' || c = '+' || c = '-' || c = '.' || c = ':'

/-- The value that a word stands for. -/
def word? (cs : List Char) : Option Value :=
  if cs = ['t', 'r', 'u', 'e'] then some (.bool true)
  else if cs = ['f', 'a', 'l', 's', 'e'] then some (.bool false)
  else ((dateTime? cs).map fun text => .str (String.ofList text))
    <|> (float? cs).map .float <|> (int? cs).map .int

end Intranet.Settings.Toml
