/-!
# The calendar

Days of the proleptic Gregorian calendar, counted from 1970-01-01. Years are counted from March, so
that the leap day is the last of its year; 719468 days lie between the first of March of the year
zero and the start of the count.
-/

namespace Intranet.Calendar

/-- Whether a year has a leap day. -/
def isLeap (y : Int) : Bool := y % 4 = 0 && (y % 100 ≠ 0 || y % 400 = 0)

/-- The number of days of a month. -/
def daysInMonth (y : Int) (m : Nat) : Nat :=
  match m with
  | 2 => if isLeap y then 29 else 28
  | 4 | 6 | 9 | 11 => 30
  | _ => 31

/-- The day of a date, counted from 1970-01-01. -/
def dayOfDate (y : Int) (m d : Nat) : Int :=
  let y := if m ≤ 2 then y - 1 else y
  let m := (m + 9) % 12
  365 * y + y / 4 - y / 100 + y / 400 + ((153 * m + 2) / 5 + d - 1 : Nat) - 719468

/-- The date of a day: year, month and day of the month. -/
def dateOfDay (day : Int) : Int × Nat × Nat :=
  let z := day + 719468
  let era := z / 146097
  let inEra := (z % 146097).toNat
  let year := (inEra - inEra / 1460 + inEra / 36524 - inEra / 146096) / 365
  let inYear := inEra - (365 * year + year / 4 - year / 100)
  let m := (5 * inYear + 2) / 153
  let d := inYear - (153 * m + 2) / 5 + 1
  let y := era * 400 + year
  if m < 10 then (y, m + 3, d) else (y + 1, m - 9, d)

end Intranet.Calendar
