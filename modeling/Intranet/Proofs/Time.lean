import Intranet.Proofs.Digits
import Intranet.Time.Reader

/-!
# Points in time are read back

The text of an instant is read as that instant, whatever year its date has and however many digits
its fraction needs.

* `Calendar.dayOfDate_dateOfDay`, `Calendar.dateOfDay_valid` — the date of a day is a date of the
  calendar, and that of no other day;
* `Instant.number_digits` — a number is read from its digits;
* `Instant.ofText_text` — an instant is read from its text.
-/

namespace Intranet

namespace Calendar

/-! ## Days and dates -/

/-- A day of an era of 400 years, counted in centuries, groups of four years, years, and days.
Years begin in March, so only the last year of a group can have a leap day, and of the last groups
of the centuries only the very last one. -/
structure Parts (inEra century group year inYear : Nat) : Prop where
  sum : inEra = 36524 * century + 1461 * group + 365 * year + inYear
  century_le : century ≤ 3
  group_le : group ≤ 24
  year_le : year ≤ 3
  inYear_le : inYear ≤ 365
  leap : inYear = 365 → year = 3 ∧ (group = 24 → century = 3)

theorem exists_parts {e : Nat} (he : e < 146097) : ∃ c g y d, Parts e c g y d := by
  obtain ⟨c, r, hc, hr, hlast, rfl⟩ : ∃ c r, c ≤ 3 ∧ r ≤ 36524 ∧ (r = 36524 → c = 3) ∧
      e = 36524 * c + r :=
    ⟨min (e / 36524) 3, e - 36524 * min (e / 36524) 3, by omega, by omega, by omega, by omega⟩
  obtain ⟨g, s, hg, hs, hgroup, rfl⟩ : ∃ g s, g ≤ 24 ∧ s ≤ 1460 ∧ (g = 24 → s = 1460 → c = 3) ∧
      r = 1461 * g + s :=
    ⟨r / 1461, r % 1461, by omega, by omega, by omega, by omega⟩
  obtain ⟨y, d, hy, hd, hyear, rfl⟩ : ∃ y d, y ≤ 3 ∧ d ≤ 365 ∧ (d = 365 → y = 3) ∧
      s = 365 * y + d :=
    ⟨min (s / 365) 3, s - 365 * min (s / 365) 3, by omega, by omega, by omega, by omega⟩
  exact ⟨c, g, y, d, by omega, hc, hg, hy, hd, by omega⟩

theorem Parts.year_eq {e c g y d : Nat} (h : Parts e c g y d) :
    (e - e / 1460 + e / 36524 - e / 146096) / 365 = 100 * c + 4 * g + y := by
  obtain ⟨hsum, hc, hg, hy, hd, hleap⟩ := h
  by_cases hend : e = 146096
  · obtain ⟨rfl, rfl, rfl⟩ : c = 3 ∧ g = 24 ∧ y = 3 := by omega
    rw [hend]
  · -- how many days the groups of four years are ahead of four years of 365 days
    obtain ⟨j, hj⟩ : ∃ j, j = (24 * c + g + 365 * y + d) / 1460 := ⟨_, rfl⟩
    have hgroups : e / 1460 = 25 * c + g + j := by omega
    have hcentury : e / 36524 = c := by omega
    have hera : e / 146096 = 0 := by omega
    have hdays :
        e - e / 1460 + e / 36524 - e / 146096 = 365 * (100 * c + 4 * g + y) + (d - j) := by
      omega
    rw [hdays, Nat.mul_add_div (by decide), Nat.div_eq_of_lt (by omega)]
    rfl

/-- The month of a day of a year that begins in March, counted from zero. -/
def monthOf (inYear : Nat) : Nat := (5 * inYear + 2) / 153

/-- The day of the month of a day of such a year. -/
def dayOfMonth (inYear : Nat) : Nat := inYear - (153 * monthOf inYear + 2) / 5 + 1

/-- What the date of a day is made of. -/
theorem dateOfDay_eq (day : Int) : ∃ (era : Int) (e c g y d : Nat), Parts e c g y d ∧
    day + 719468 = 146097 * era + e ∧
    dateOfDay day =
      if monthOf d < 10 then (era * 400 + (100 * c + 4 * g + y : Nat), monthOf d + 3, dayOfMonth d)
      else (era * 400 + (100 * c + 4 * g + y : Nat) + 1, monthOf d - 9, dayOfMonth d) := by
  obtain ⟨e, he⟩ : ∃ e : Nat, e = ((day + 719468) % 146097).toNat := ⟨_, rfl⟩
  obtain ⟨c, g, y, d, hparts⟩ := exists_parts (show e < 146097 by omega)
  refine ⟨(day + 719468) / 146097, e, c, g, y, d, hparts, by omega, ?_⟩
  have hyear := hparts.year_eq
  obtain ⟨hsum, hc, hg, hy, hd, -⟩ := hparts
  have hstart : e - (365 * (100 * c + 4 * g + y) + (100 * c + 4 * g + y) / 4 -
      (100 * c + 4 * g + y) / 100) = d := by omega
  unfold dateOfDay
  dsimp only
  rw [← he, hyear, hstart]
  rfl

theorem monthOf_le {d : Nat} (hd : d ≤ 365) : monthOf d ≤ 11 := by
  unfold monthOf
  omega

theorem month_start_le (d : Nat) : (153 * monthOf d + 2) / 5 ≤ d := by
  unfold monthOf
  omega

/-- **The day of the date of a day is that day.** -/
theorem dayOfDate_dateOfDay (day : Int) :
    dayOfDate (dateOfDay day).1 (dateOfDay day).2.1 (dateOfDay day).2.2 = day := by
  obtain ⟨era, e, c, g, y, d, hparts, hday, hdate⟩ := dateOfDay_eq day
  obtain ⟨hsum, hc, hg, hy, hd, -⟩ := hparts
  have hmonth := monthOf_le hd
  have hstart := month_start_le d
  rw [hdate]
  split
  · next hlow =>
    have hshift : (monthOf d + 3 + 9) % 12 = monthOf d := by omega
    have hlate : ¬monthOf d + 3 ≤ 2 := by omega
    simp only [dayOfDate, if_neg hlate, hshift, dayOfMonth]
    omega
  · next hlow =>
    have hshift : (monthOf d - 9 + 9) % 12 = monthOf d := by omega
    have hearly : monthOf d - 9 ≤ 2 := by omega
    simp only [dayOfDate, if_pos hearly, hshift, dayOfMonth]
    omega

/-- The date of a day is one that the calendar has. -/
theorem dateOfDay_valid (day : Int) :
    1 ≤ (dateOfDay day).2.1 ∧ (dateOfDay day).2.1 ≤ 12 ∧ 1 ≤ (dateOfDay day).2.2 ∧
      (dateOfDay day).2.2 ≤ daysInMonth (dateOfDay day).1 (dateOfDay day).2.1 := by
  obtain ⟨era, e, c, g, y, d, hparts, hday, hdate⟩ := dateOfDay_eq day
  obtain ⟨hsum, hc, hg, hy, hd, hleap⟩ := hparts
  have hmonth := monthOf_le hd
  rw [hdate]
  split
  · next hlow =>
    dsimp only
    refine ⟨by omega, by omega, Nat.succ_le_succ (Nat.zero_le _), ?_⟩
    have hcases : monthOf d = 0 ∨ monthOf d = 1 ∨ monthOf d = 2 ∨ monthOf d = 3 ∨ monthOf d = 4 ∨
        monthOf d = 5 ∨ monthOf d = 6 ∨ monthOf d = 7 ∨ monthOf d = 8 ∨ monthOf d = 9 := by omega
    rcases hcases with h | h | h | h | h | h | h | h | h | h <;>
      simp only [dayOfMonth, h, daysInMonth] <;> unfold monthOf at h <;> omega
  · next hlow =>
    dsimp only
    refine ⟨by omega, by omega, Nat.succ_le_succ (Nat.zero_le _), ?_⟩
    have hcases : monthOf d = 10 ∨ monthOf d = 11 := by omega
    rcases hcases with h | h
    · simp only [dayOfMonth, h, daysInMonth]
      unfold monthOf at h
      omega
    · simp only [dayOfMonth, h, daysInMonth]
      by_cases hlast : d = 365
      · obtain ⟨hyear, hgroup⟩ := hleap hlast
        have hleapYear : isLeap (era * 400 + (100 * c + 4 * g + y : Nat) + 1) = true := by
          simp only [isLeap, Bool.and_eq_true, Bool.or_eq_true, decide_eq_true_eq]
          omega
        rw [hleapYear, hlast]
        decide
      · split <;> omega

/-- The days before a year that begins in March. -/
def daysBefore (year : Int) : Int := 365 * year + year / 4 - year / 100 + year / 400

/-- The years of the days whose date can be held. -/
theorem dateOfDay_year {day : Int} (hlow : -96465292 ≤ day) (hhigh : day ≤ 95026236) :
    -262143 ≤ (dateOfDay day).1 ∧ (dateOfDay day).1 ≤ 262142 := by
  obtain ⟨era, e, c, g, y, d, hparts, hday, hdate⟩ := dateOfDay_eq day
  obtain ⟨hsum, hc, hg, hy, hd, -⟩ := hparts
  obtain ⟨year, hyear⟩ : ∃ year : Int, year = era * 400 + (100 * c + 4 * g + y : Nat) := ⟨_, rfl⟩
  have hfour : year / 4 = 100 * era + 25 * c + g := by omega
  have hhundred : year / 100 = 4 * era + c := by omega
  have hera : year / 400 = era := by omega
  have hbefore : daysBefore year = day + 719468 - d := by
    unfold daysBefore
    omega
  -- the first and the last year are only reached in part
  have hfirst : -262144 ≤ year := by
    unfold daysBefore at hbefore
    omega
  have hlast : year ≤ 262142 := by
    unfold daysBefore at hbefore
    omega
  rw [hdate, ← hyear]
  split
  · next hmonth =>
    have hne : year ≠ -262144 := by
      rintro rfl
      unfold daysBefore at hbefore
      unfold monthOf at hmonth
      omega
    dsimp only
    omega
  · next hmonth =>
    have hne : year ≠ 262142 := by
      rintro rfl
      unfold daysBefore at hbefore
      unfold monthOf at hmonth
      omega
    dsimp only
    omega

end Calendar

namespace Instant

/-! ## Numbers -/

/-- What follows a number: no digit. -/
def Stops (rest : List Char) : Prop := ∀ c ∈ rest.head?, Decimal.isDigit c = false

/-- The digits that are taken of a text are all that it begins with. -/
theorem takeWhile_digits {ds rest : List Char} (hds : ∀ c ∈ ds, Decimal.isDigit c = true)
    (hrest : Stops rest) : (ds ++ rest).takeWhile Decimal.isDigit = ds := by
  rw [List.takeWhile_append_of_pos hds]
  cases rest with
  | nil => exact List.append_nil ds
  | cons c rest =>
    have hc : ¬Decimal.isDigit c = true := by simp [hrest c rfl]
    rw [List.takeWhile_cons_of_neg hc, List.append_nil]

/-- The first digits of a text, as far as they count. -/
theorem takeWhile_take_digits {ds rest : List Char} {w : Nat}
    (hds : ∀ c ∈ ds, Decimal.isDigit c = true) (hw : ds.length ≤ w) (hrest : Stops rest) :
    ((ds ++ rest).take w).takeWhile Decimal.isDigit = ds := by
  rw [List.take_append, List.take_of_length_le hw]
  refine takeWhile_digits hds fun c hc => ?_
  cases hk : w - ds.length with
  | zero =>
    rw [hk] at hc
    cases hc
  | succ k =>
    rw [hk] at hc
    cases rest with
    | nil => cases hc
    | cons d rest => exact hrest c hc

/-- A number is read from its digits. -/
theorem number_digits {ds rest : List Char} {width : Option Nat}
    (hds : ∀ c ∈ ds, Decimal.isDigit c = true) (hne : ds ≠ [])
    (hsize : Decimal.natOnto 0 ds ≤ maxNumber) (hwidth : ∀ w ∈ width, ds.length ≤ w)
    (hrest : Stops rest) : number width (ds ++ rest) = .ok (Decimal.natOnto 0 ds, rest) := by
  obtain ⟨d, more, rfl⟩ := List.exists_cons_of_ne_nil hne
  have hdigits : digits (d :: more) = .ok (Decimal.natOnto 0 (d :: more)) := if_pos hsize
  cases width with
  | none =>
    unfold number
    dsimp only
    rw [takeWhile_digits hds hrest, hdigits, List.drop_left]
    rfl
  | some w =>
    unfold number
    dsimp only
    rw [takeWhile_take_digits hds (hwidth w rfl) hrest, hdigits, List.drop_left]
    rfl

/-! ## Numbers filled up with zeros -/

theorem isDigit_of_mem_padded {width n : Nat} {c : Char} (hc : c ∈ paddedL width n) :
    Decimal.isDigit c = true := by
  rw [paddedL, List.mem_append] at hc
  rcases hc with hc | hc
  · rw [List.eq_of_mem_replicate hc]
    rfl
  · exact Decimal.isDigit_of_mem_toDigits hc

theorem natOnto_padded (width n : Nat) : Decimal.natOnto 0 (paddedL width n) = n := by
  have hzeros (k : Nat) : Decimal.natOnto 0 (List.replicate k '0') = 0 := by
    induction k with
    | zero => rfl
    | succ k ih => exact ih
  have happend (cs ds : List Char) :
      Decimal.natOnto 0 (cs ++ ds) = Decimal.natOnto (Decimal.natOnto 0 cs) ds := List.foldl_append
  rw [paddedL, happend, hzeros, Decimal.natOnto_toDigits]

theorem padded_ne_nil (width n : Nat) : paddedL width n ≠ [] :=
  List.append_ne_nil_of_right_ne_nil _ Nat.toDigits_ne_nil

theorem length_padded {width n : Nat} (hwidth : 0 < width) (hn : n < Nat.pow 10 width) :
    (paddedL width n).length = width := by
  have hlength := (Nat.length_toDigits_le_iff (show 1 < 10 by decide) hwidth).2 hn
  rw [paddedL, List.length_append, List.length_replicate]
  omega

/-- A number is read from its padded digits. -/
theorem number_padded {width n : Nat} {size : Option Nat} {rest : List Char} (hwidth : 0 < width)
    (hn : n < Nat.pow 10 width) (hmax : n ≤ maxNumber) (hsize : ∀ w ∈ size, width ≤ w)
    (hrest : Stops rest) : number size (paddedL width n ++ rest) = .ok (n, rest) := by
  have hvalue := natOnto_padded width n
  have hnumber : number size (paddedL width n ++ rest) =
      .ok (Decimal.natOnto 0 (paddedL width n), rest) := by
    refine number_digits (fun c => isDigit_of_mem_padded) (padded_ne_nil width n) ?_ ?_ hrest
    · rwa [hvalue]
    · rwa [length_padded hwidth hn]
  rwa [hvalue] at hnumber

/-- Digits have no blanks before them. -/
theorem trimStartL_padded (width n : Nat) (rest : List Char) :
    Text.trimStartL (paddedL width n ++ rest) = paddedL width n ++ rest := by
  cases h : paddedL width n with
  | nil => exact absurd h (padded_ne_nil width n)
  | cons c cs =>
    have hdigit : Decimal.isDigit c = true := isDigit_of_mem_padded (h ▸ List.mem_cons_self)
    have hblank : ¬Text.isBlank c = true := by simp [Decimal.isBlank_of_isDigit hdigit]
    exact List.dropWhile_cons_of_neg hblank

theorem stops_cons {c : Char} (hc : Decimal.isDigit c = false) (rest : List Char) :
    Stops (c :: rest) := by
  rintro d hd
  cases hd
  exact hc

/-- A part of a date or a time of day is read from its two digits. -/
theorem part_padded {low high n : Nat} {rest : List Char} (hlow : low ≤ n) (hhigh : n ≤ high)
    (hn : n < 100) (hrest : Stops rest) : part low high (paddedL 2 n ++ rest) = .ok (n, rest) := by
  have hmax : n ≤ maxNumber := by
    show n ≤ 2 ^ 63 - 1
    omega
  have hnumber : number (some 2) (paddedL 2 n ++ rest) = .ok (n, rest) :=
    number_padded (by decide) hn hmax (by simp) hrest
  unfold part
  rw [trimStartL_padded, hnumber]
  exact if_pos ⟨hlow, hhigh⟩

/-- A separator is read. -/
theorem separator_cons {c : Char} (hc : Text.isBlank c = false) (rest : List Char) :
    separator c (c :: rest) = .ok rest := by
  have hblank : ¬Text.isBlank c = true := by simp [hc]
  unfold separator Text.trimStartL
  rw [List.dropWhile_cons_of_neg hblank]
  exact if_pos rfl

/-! ## The parts of a text -/

theorem inRange_of_held {y : Int} (hlow : -262143 ≤ y) (hhigh : y ≤ 262142) :
    -(Nat.pow 2 31 : Int) ≤ y ∧ y < Nat.pow 2 31 := by
  show -(2147483648 : Int) ≤ y ∧ y < 2147483648
  omega

theorem number_year {n : Nat} (hn : n ≤ 262143) {rest : List Char} (hrest : Stops rest) :
    number none (paddedL 4 n ++ rest) = .ok (n, rest) := by
  have hmax : Decimal.natOnto 0 (paddedL 4 n) ≤ maxNumber := by
    rw [natOnto_padded]
    show n ≤ 2 ^ 63 - 1
    omega
  have hnumber : number none (paddedL 4 n ++ rest) =
      .ok (Decimal.natOnto 0 (paddedL 4 n), rest) :=
    number_digits (fun c => isDigit_of_mem_padded) (padded_ne_nil 4 n) hmax (by simp) hrest
  rwa [natOnto_padded] at hnumber

/-- A year of four digits stands without a sign. -/
theorem year_padded {n : Nat} (hn : n ≤ 9999) {rest : List Char} (hrest : Stops rest) :
    year (paddedL 4 n ++ rest) = .ok ((n : Int), rest) := by
  have hmax : n ≤ maxNumber := by
    show n ≤ 2 ^ 63 - 1
    omega
  have hnumber : number (some 4) (paddedL 4 n ++ rest) = .ok (n, rest) :=
    number_padded (by decide) (show n < 10000 by omega) hmax (by simp) hrest
  have hsign (c : Char) (more : List Char) (h : paddedL 4 n ++ rest = c :: more) :
      Decimal.isDigit c = true := by
    obtain ⟨d, ds, hds⟩ := List.exists_cons_of_ne_nil (padded_ne_nil 4 n)
    rw [hds, List.cons_append] at h
    cases h
    exact isDigit_of_mem_padded (hds ▸ List.mem_cons_self)
  have hrange := inRange_of_held (show -262143 ≤ (n : Int) by omega) (by omega)
  unfold year
  rw [trimStartL_padded]
  dsimp only
  split
  · next h => exact absurd (hsign _ _ h) (by decide)
  · next h => exact absurd (hsign _ _ h) (by decide)
  · simp only [hnumber, bind, Except.bind, Except.map, if_pos hrange]
    rfl

/-- Any other year stands behind its sign. -/
theorem year_signed {c : Char} {y : Int} {n : Nat} (hsign : c = '-' ∧ y = -n ∨ c = '+' ∧ y = n)
    (hlow : -262143 ≤ y) (hhigh : y ≤ 262142) {rest : List Char} (hrest : Stops rest) :
    year (c :: paddedL 4 n ++ rest) = .ok (y, rest) := by
  have hnumber := number_year (show n ≤ 262143 by omega) hrest
  have hrange := inRange_of_held hlow hhigh
  rcases hsign with ⟨rfl, rfl⟩ | ⟨rfl, rfl⟩
  · show ((number none (paddedL 4 n ++ rest)).map _ >>= _) = _
    simp only [hnumber, bind, Except.bind, Except.map, if_pos hrange]
    rfl
  · show ((number none (paddedL 4 n ++ rest)).map _ >>= _) = _
    simp only [hnumber, bind, Except.bind, Except.map, if_pos hrange]
    rfl

/-- Years are read with and without a sign. -/
theorem year_yearL {y : Int} (hlow : -262143 ≤ y) (hhigh : y ≤ 262142) {rest : List Char}
    (hrest : Stops rest) : year (yearL y ++ rest) = .ok (y, rest) := by
  unfold yearL
  split
  · next h =>
    have hyear := year_padded (show y.toNat ≤ 9999 by omega) hrest
    rwa [Int.toNat_of_nonneg h.1] at hyear
  · next h =>
    refine year_signed ?_ hlow hhigh hrest
    by_cases hneg : y < 0
    · exact .inl ⟨if_pos hneg, by omega⟩
    · exact .inr ⟨if_neg hneg, by omega⟩

/-- A fraction is read, however many digits it is written with. -/
theorem fraction_padded {width n : Nat} (hwidth : 0 < width) (hsize : width ≤ 9)
    (hn : n < Nat.pow 10 width) {rest : List Char} (hrest : Stops rest) :
    fraction ('.' :: paddedL width n ++ rest) = .ok (n * Nat.pow 10 (9 - width), rest) := by
  have hmax : n ≤ maxNumber := by
    have hpow : Nat.pow 10 width ≤ 1000000000 := Nat.pow_le_pow_right (by decide) hsize
    show n ≤ 2 ^ 63 - 1
    omega
  have hnumber : number (some 9) (paddedL width n ++ rest) = .ok (n, rest) :=
    number_padded hwidth hn hmax (by simpa using hsize) hrest
  have hafter : rest.dropWhile Decimal.isDigit = rest := by
    cases rest with
    | nil => rfl
    | cons c rest => exact List.dropWhile_cons_of_neg (by simp [hrest c rfl])
  have htaken : (paddedL width n ++ rest).length - rest.length = width := by
    rw [List.length_append, length_padded hwidth hn, Nat.add_sub_cancel]
  rw [List.cons_append]
  simp only [fraction, hnumber]
  show Except.ok _ = _
  rw [htaken, hafter]

theorem fraction_fractionL {nanos : Nat} (hnanos : nanos < second) {rest : List Char}
    (hrest : Stops rest) (hpoint : rest.head? ≠ some '.') :
    fraction (fractionL nanos ++ rest) = .ok (nanos, rest) := by
  have hlt : nanos < 1000000000 := hnanos
  unfold fractionL
  split
  · next h =>
    rw [List.nil_append, h]
    unfold fraction
    split
    · next rest _ => exact absurd rfl hpoint
    · rfl
  · split
    · next h =>
      rw [fraction_padded (by decide) (by decide) (show nanos / 1000000 < 1000 by omega) hrest]
      congr 2
      show nanos / 1000000 * 1000000 = nanos
      omega
    · split
      · next h =>
        rw [fraction_padded (by decide) (by decide) (show nanos / 1000 < 1000000 by omega) hrest]
        congr 2
        show nanos / 1000 * 1000 = nanos
        omega
      · rw [fraction_padded (by decide) (by decide) hlt hrest]
        exact congrArg (fun n => Except.ok (n, rest)) (Nat.mul_one nanos)

/-! ## The whole -/

/-- The letter at the end stands for no offset. -/
theorem zone_utc : zone ['Z'] = .ok (0, []) := rfl

/-- The date of an instant that can be held. -/
theorem isHeld_iff {t : Instant} :
    t.isHeld = true ↔ firstSecond ≤ t.seconds ∧ t.seconds ≤ lastSecond := by
  simp [isHeld]

/-- A date and a time of day are those of the instant. -/
theorem ofLocal_date {t : Instant} (hheld : t.isHeld = true) :
    ofLocal (Calendar.dateOfDay (t.seconds / 86400)).1 (Calendar.dateOfDay (t.seconds / 86400)).2.1
      (Calendar.dateOfDay (t.seconds / 86400)).2.2 ((t.seconds % 86400).toNat / 3600)
      ((t.seconds % 86400).toNat / 60 % 60) ((t.seconds % 86400).toNat % 60) t.nanos 0 =
        .ok t := by
  obtain ⟨hlow, hhigh⟩ := isHeld_iff.1 hheld
  unfold firstSecond at hlow
  unfold lastSecond at hhigh
  obtain ⟨-, -, -, hvalid⟩ := Calendar.dateOfDay_valid (t.seconds / 86400)
  obtain ⟨hfirst, hlast⟩ := Calendar.dateOfDay_year (show -96465292 ≤ t.seconds / 86400 by omega)
    (show t.seconds / 86400 ≤ 95026236 by omega)
  have hback := Calendar.dayOfDate_dateOfDay (t.seconds / 86400)
  generalize Calendar.dateOfDay (t.seconds / 86400) = date at *
  obtain ⟨y, m, d⟩ := date
  dsimp only at *
  have hdate :
      (decide (-262143 ≤ y) && decide (y ≤ 262142) && decide (d ≤ Calendar.daysInMonth y m)) =
      true := by
    simp [hfirst, hlast, hvalid]
  have hsecond : ¬(t.seconds % 86400).toNat % 60 = 60 := by omega
  have hsum : t.seconds / 86400 * 86400 + ((t.seconds % 86400).toNat / 3600 * 3600 +
      (t.seconds % 86400).toNat / 60 % 60 * 60 + (t.seconds % 86400).toNat % 60 : Nat) - 0 =
      t.seconds := by omega
  unfold ofLocal
  simp only [hdate, if_neg hsecond, hback, hsum, hheld]
  rfl

/-- A text is read part by part. -/
theorem ofTextL_parts {y : Int} {m d h min s nanos : Nat} (hy : -262143 ≤ y ∧ y ≤ 262142)
    (hm : 1 ≤ m ∧ m ≤ 12) (hd : 1 ≤ d ∧ d ≤ 31) (hh : h ≤ 23) (hmin : min ≤ 59) (hs : s ≤ 59)
    (hnanos : nanos < second) :
    ofTextL (yearL y ++ '-' :: (paddedL 2 m ++ '-' :: (paddedL 2 d ++ 'T' :: (paddedL 2 h ++
      ':' :: (paddedL 2 min ++ ':' :: (paddedL 2 s ++ (fractionL nanos ++ ['Z']))))))) =
      ofLocal y m d h min s nanos 0 := by
  have hhyphen (rest : List Char) : Stops ('-' :: rest) := stops_cons (by decide) rest
  have hletter (rest : List Char) : Stops ('T' :: rest) := stops_cons (by decide) rest
  have hcolon (rest : List Char) : Stops (':' :: rest) := stops_cons (by decide) rest
  have hdash (rest : List Char) : separator '-' ('-' :: rest) = .ok rest :=
    separator_cons (by decide) rest
  have hpoints (rest : List Char) : separator ':' (':' :: rest) = .ok rest :=
    separator_cons (by decide) rest
  have hbetween (rest : List Char) : between ('T' :: rest) = .ok rest := rfl
  have hend : Stops (fractionL nanos ++ ['Z']) := by
    unfold fractionL
    split
    · exact stops_cons (by decide) []
    · split
      · exact stops_cons (by decide) _
      · split <;> exact stops_cons (by decide) _
  have hfraction : fraction (fractionL nanos ++ ['Z']) = .ok (nanos, ['Z']) :=
    fraction_fractionL hnanos (stops_cons (by decide) []) (by decide)
  have hblank : ([] : List Char).all Text.isBlank = true := rfl
  unfold ofTextL
  simp only [year_yearL hy.1 hy.2 (hhyphen _), hdash, hpoints, hbetween, hfraction,
    zone_utc, hblank, part_padded hm.1 hm.2 (by omega) (hhyphen _),
    part_padded hd.1 hd.2 (by omega) (hletter _),
    part_padded (Nat.zero_le h) hh (by omega) (hcolon _),
    part_padded (Nat.zero_le min) hmin (by omega) (hcolon _),
    part_padded (Nat.zero_le s) (Nat.le_succ_of_le hs) (by omega) hend, bind, Except.bind]
  rfl

theorem daysInMonth_le (y : Int) (m : Nat) : Calendar.daysInMonth y m ≤ 31 := by
  unfold Calendar.daysInMonth
  split
  · split <;> omega
  all_goals omega

/-- **Instants are read back.** -/
theorem ofText_text {t : Instant} (hheld : t.isHeld = true) (hnanos : t.nanos < second) :
    ofText t.text = .ok t := by
  obtain ⟨hlow, hhigh⟩ := isHeld_iff.1 hheld
  unfold firstSecond at hlow
  unfold lastSecond at hhigh
  obtain ⟨hm₁, hm₂, hd₁, hd₂⟩ := Calendar.dateOfDay_valid (t.seconds / 86400)
  have hyear := Calendar.dateOfDay_year (show -96465292 ≤ t.seconds / 86400 by omega)
    (show t.seconds / 86400 ≤ 95026236 by omega)
  have hhour : (t.seconds % 86400).toNat / 3600 ≤ 23 := by omega
  have hminute : (t.seconds % 86400).toNat / 60 % 60 ≤ 59 := by omega
  have hsecond : (t.seconds % 86400).toNat % 60 ≤ 59 := by omega
  have hparts := ofTextL_parts hyear ⟨hm₁, hm₂⟩ ⟨hd₁, Nat.le_trans hd₂ (daysInMonth_le _ _)⟩ hhour
    hminute hsecond hnanos
  rw [← ofLocal_date hheld, ← hparts, ofText, text, String.toList_ofList]
  congr 1
  have hfraction : t.nanos % second = t.nanos := Nat.mod_eq_of_lt hnanos
  simp only [plainL, hfraction, if_pos hnanos, Nat.add_zero, List.append_assoc, List.cons_append]

end Instant

end Intranet
