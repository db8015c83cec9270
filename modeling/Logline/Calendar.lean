/-!
# The Gregorian calendar

Days are counted from the first of January of the year 0, in the calendar extended to all years; a
date is a year and a day of that year. Moments are counted in seconds since the first of January 1970,
without leap seconds; a clock shows them in universal time or at an offset from it.
-/

namespace Logline

def isLeapYear (y : Int) : Bool :=
  y % 4 == 0 && (y % 100 != 0 || y % 400 == 0)

def yearStart (y : Int) : Int :=
  365 * y + (y + 3) / 4 - (y + 99) / 100 + (y + 399) / 400

/-- The year that holds a day: the mean length of a year gives it up to one. -/
def yearOfDay (d : Int) : Int :=
  let y := d * 400 / 146097
  if d < yearStart y then y - 1
  else if yearStart (y + 1) ≤ d then y + 1
  else y

theorem yearStart_succ (y : Int) :
    yearStart (y + 1) = yearStart y + if isLeapYear y then 366 else 365 := by
  unfold yearStart isLeapYear
  split
  · next h => simp at h; omega
  · next h => simp at h; omega

theorem yearStart_yearOfDay_le (d : Int) : yearStart (yearOfDay d) ≤ d := by
  simp only [yearOfDay]
  split
  · next h => unfold yearStart at *; omega
  · next h =>
    split
    · next h' => exact h'
    · omega

theorem lt_yearStart_yearOfDay_succ (d : Int) : d < yearStart (yearOfDay d + 1) := by
  simp only [yearOfDay]
  split
  · next h => rw [Int.sub_add_cancel]; exact h
  · split
    · next h => unfold yearStart at *; omega
    · next h => exact Int.not_le.1 h

def monthLengths (leap : Bool) : List Nat :=
  [31, if leap then 29 else 28, 31, 30, 31, 30, 31, 31, 30, 31, 30, 31]

/-- Which part a position falls into, the parts laid end to end, and the position inside that part. -/
def locate : List Nat → Nat → Nat × Nat
  | [], n => (0, n)
  | m :: ms, n =>
    if n < m then (0, n)
    else
      let (i, r) := locate ms (n - m)
      (i + 1, r)

structure Date where
  year : Int
  /-- The day of the year, the first being 0. -/
  ordinal : Nat
  deriving DecidableEq, Repr

namespace Date

def ofDay (d : Int) : Date :=
  let y := yearOfDay d
  ⟨y, (d - yearStart y).toNat⟩

def dayNumber (t : Date) : Int :=
  yearStart t.year + t.ordinal

theorem dayNumber_ofDay (d : Int) : (ofDay d).dayNumber = d := by
  have := yearStart_yearOfDay_le d
  simp only [ofDay, dayNumber]
  omega

theorem ordinal_ofDay_lt (d : Int) :
    (ofDay d).ordinal < if isLeapYear (ofDay d).year then 366 else 365 := by
  have h := lt_yearStart_yearOfDay_succ d
  have h' := yearStart_yearOfDay_le d
  rw [yearStart_succ] at h
  change (d - yearStart (yearOfDay d)).toNat < if isLeapYear (yearOfDay d) then 366 else 365
  split at h
  · next hl => rw [if_pos hl]; omega
  · next hl => rw [if_neg hl]; omega

def month (t : Date) : Nat :=
  (locate (monthLengths (isLeapYear t.year)) t.ordinal).1 + 1

def day (t : Date) : Nat :=
  (locate (monthLengths (isLeapYear t.year)) t.ordinal).2 + 1

/-- Days since Monday; the year 0 began on a Saturday. -/
def weekday (t : Date) : Nat :=
  ((t.dayNumber + 5) % 7).toNat

def weekdayFromSunday (t : Date) : Nat :=
  (t.weekday + 1) % 7

/-- The week of the year when weeks begin on Monday and the days before the first Monday are week 0. -/
def weekFromMonday (t : Date) : Nat :=
  (t.ordinal + 7 - t.weekday) / 7

/-- The week of the year when weeks begin on Sunday and the days before the first Sunday are week 0. -/
def weekFromSunday (t : Date) : Nat :=
  (t.ordinal + 7 - t.weekdayFromSunday) / 7

/-- The Thursday of the week from Monday to Sunday; its year is the year the week belongs to. -/
def thursday (t : Date) : Date :=
  ofDay (t.dayNumber - t.weekday + 3)

def isoYear (t : Date) : Int :=
  t.thursday.year

def isoWeek (t : Date) : Nat :=
  t.thursday.ordinal / 7 + 1

end Date

/-- What a clock shows. -/
structure Moment where
  date : Date
  /-- Seconds since midnight. -/
  clock : Nat
  /-- Nanoseconds since the second began. -/
  nanosecond : Nat := 0
  /-- Seconds by which the clock is ahead of universal time. -/
  offset : Int := 0
  deriving DecidableEq, Repr

namespace Moment

def epochDay : Int := 719528

def ofSeconds (t : Int) (offset : Int := 0) : Moment where
  date := Date.ofDay ((t + offset) / 86400 + epochDay)
  clock := ((t + offset) % 86400).toNat
  offset

def seconds (m : Moment) : Int :=
  (m.date.dayNumber - epochDay) * 86400 + m.clock - m.offset

theorem seconds_ofSeconds (t offset : Int) : (ofSeconds t offset).seconds = t := by
  simp only [seconds, ofSeconds, Date.dayNumber_ofDay]
  omega

theorem clock_ofSeconds_lt (t offset : Int) : (ofSeconds t offset).clock < 86400 := by
  simp only [ofSeconds]
  omega

def hour (m : Moment) : Nat := m.clock / 3600

def minute (m : Moment) : Nat := m.clock / 60 % 60

def second (m : Moment) : Nat := m.clock % 60

def hour12 (m : Moment) : Nat :=
  if m.hour % 12 = 0 then 12 else m.hour % 12

def isAfternoon (m : Moment) : Bool := 12 ≤ m.hour

/-- The seconds whose date is kept in the calendar: the years from -262143 to 262142. -/
def inCalendar (t : Int) : Bool :=
  -8334601228800 ≤ t && t ≤ 8210266876799

end Moment

end Logline
