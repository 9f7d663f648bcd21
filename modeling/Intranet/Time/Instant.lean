import Intranet.Time.Calendar

/-!
# Points in time

An instant is a number of seconds since 1970 and nanoseconds within the second. Nanoseconds from 10
^ 9 on stand for the leap second that follows the second. Instants are written in UTC with as many
groups of three fraction digits as they need.
-/

namespace Intranet

/-- A point in time. -/
structure Instant where
  seconds : Int
  nanos : Nat
  deriving DecidableEq, Repr, Inhabited

namespace Instant

/-- Nanoseconds of a second. -/
def second : Nat := 1000000000

/-- The last second whose date can be held: the end of the year 262142. -/
def lastSecond : Int := 8210266876799

/-- The first second whose date can be held: the start of the year -262143. -/
def firstSecond : Int := -8334601228800

/-- Whether the date of an instant can be held. -/
def isHeld (t : Instant) : Bool := firstSecond ≤ t.seconds && t.seconds ≤ lastSecond

/-- The instant so many milliseconds after the start of 1970. -/
def ofMillis (n : Nat) : Instant := ⟨n / 1000, n % 1000 * 1000000⟩

/-- The instant so many seconds later, if its date can be held. -/
def addSeconds? (t : Instant) (n : Nat) : Option Instant :=
  let later : Instant := { t with seconds := t.seconds + n }
  if later.isHeld then some later else none

/-! ## Written form -/

/-- The decimal digits of a number, filled up with zeros on the left. -/
def paddedL (width n : Nat) : List Char :=
  let digits := Nat.toDigits 10 n
  List.replicate (width - digits.length) '0' ++ digits

/-- A year: four digits, with a sign when it lies outside of 0 to 9999. -/
def yearL (y : Int) : List Char :=
  if 0 ≤ y ∧ y ≤ 9999 then paddedL 4 y.toNat
  else (if y < 0 then '-' else '+') :: paddedL 4 y.natAbs

/-- Nanoseconds as a fraction, as short as groups of three digits allow. -/
def fractionL (nanos : Nat) : List Char :=
  if nanos = 0 then []
  else if nanos % 1000000 = 0 then '.' :: paddedL 3 (nanos / 1000000)
  else if nanos % 1000 = 0 then '.' :: paddedL 6 (nanos / 1000)
  else '.' :: paddedL 9 nanos

/-- Date and time of day, without an offset. -/
def plainL (t : Instant) : List Char :=
  let (y, m, d) := Calendar.dateOfDay (t.seconds / 86400)
  let inDay := (t.seconds % 86400).toNat
  let leap := if t.nanos < second then 0 else 1
  yearL y ++ '-' :: paddedL 2 m ++ '-' :: paddedL 2 d ++ 'T' ::
    paddedL 2 (inDay / 3600) ++ ':' :: paddedL 2 (inDay / 60 % 60) ++ ':' ::
    paddedL 2 (inDay % 60 + leap) ++ fractionL (t.nanos % second)

/-- The instant with a `Z` at the end. -/
def text (t : Instant) : String := String.ofList (t.plainL ++ ['Z'])

/-- The instant with a numeric offset at the end. -/
def textWithOffset (t : Instant) : String := String.ofList (t.plainL ++ "+00:00".toList)

end Instant

end Intranet
