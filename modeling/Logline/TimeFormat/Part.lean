import Logline.Calendar
import Logline.Text.Decimal

/-!
# Parts of a time format

A time format is a row of parts: text, numbers with a way of padding, and named fields. Each part
has its text at a moment; one field can be read but has no text.
-/

namespace Logline.TimeFormat

/-- How a number is brought to its width. -/
inductive Pad
  | none
  | zero
  | space
  deriving DecidableEq, Repr

inductive Number
  | year
  | century
  | yearOfCentury
  | isoYear
  | isoYearOfCentury
  | quarter
  | month
  | day
  | dayOfYear
  | weekFromSunday
  | weekFromMonday
  | isoWeek
  | daysFromSunday
  | weekday
  | hour
  | hour12
  | minute
  | second
  | nanosecond
  | timestamp
  deriving DecidableEq, Repr

inductive Field
  | monthName
  | monthAbbreviation
  | weekdayName
  | weekdayAbbreviation
  | lowerHalfDay
  | upperHalfDay
  | zoneName
  | offset
  | offsetColon
  | offsetSeconds
  | offsetHours
  /-- An offset in any spelling: it can be read, and has no spelling of its own. -/
  | offsetAnySpelling
  /-- The fraction of a second, at this many digits and after a point; without a count no more digits
  than it needs. -/
  | fraction (places : Option Nat)
  | fractionDigits (places : Nat)
  | timestampLine
  deriving DecidableEq, Repr

inductive Part
  | text (s : List Char)
  | number (n : Number) (pad : Pad)
  | field (f : Field)
  deriving DecidableEq, Repr

def monthNames : List String :=
  ["January", "February", "March", "April", "May", "June", "July", "August", "September", "October",
   "November", "December"]

def weekdayNames : List String :=
  ["Monday", "Tuesday", "Wednesday", "Thursday", "Friday", "Saturday", "Sunday"]

def nameAt (names : List String) (i : Nat) : List Char :=
  (names[i]?.getD "").toList

/-- Two digits; a tens place of zero follows the pad. From 100 on the tens place runs past `9`. -/
def twoPlaces (v : Nat) (pad : Pad) : List Char :=
  let ones := Text.digit (v % 10)
  match v / 10, pad with
  | 0, .none => [ones]
  | 0, .space => [' ', ones]
  | tens, _ => [Text.digit tens, ones]

/-- A zero pad goes between the sign and the digits, and the width counts the sign. -/
def padded (width : Nat) (sign digits : List Char) : Pad → List Char
  | .none => sign ++ digits
  | .zero => sign ++ Text.fill '0' (width - sign.length) digits
  | .space => Text.fill ' ' width (sign ++ digits)

def minus (v : Int) : List Char :=
  if v < 0 then ['-'] else []

/-- Years of four digits stand alone; all others bear a sign, which widens them by one. -/
def yearText (y : Int) (pad : Pad) : List Char :=
  if 0 ≤ y ∧ y < 10000 then padded 4 [] (Text.digits y.toNat) pad
  else padded 5 [if y < 0 then '-' else '+'] (Text.digits y.natAbs) pad

/-- The century is kept in a byte. -/
def centuryByte (y : Int) : Nat :=
  (y / 100 % 256).toNat

def Number.text (m : Moment) (pad : Pad) : Number → List Char
  | .year => yearText m.date.year pad
  | .century => twoPlaces (centuryByte m.date.year) pad
  | .yearOfCentury => twoPlaces (m.date.year % 100).toNat pad
  | .isoYear => yearText m.date.isoYear pad
  | .isoYearOfCentury => twoPlaces (m.date.isoYear % 100).toNat pad
  | .quarter => [Text.digit ((m.date.month - 1) / 3 + 1)]
  | .month => twoPlaces m.date.month pad
  | .day => twoPlaces m.date.day pad
  | .dayOfYear => padded 3 [] (Text.digits (m.date.ordinal + 1)) pad
  | .weekFromSunday => twoPlaces m.date.weekFromSunday pad
  | .weekFromMonday => twoPlaces m.date.weekFromMonday pad
  | .isoWeek => twoPlaces m.date.isoWeek pad
  | .daysFromSunday => [Text.digit m.date.weekdayFromSunday]
  | .weekday => [Text.digit (m.date.weekday + 1)]
  | .hour => twoPlaces m.hour pad
  | .hour12 => twoPlaces m.hour12 pad
  | .minute => twoPlaces m.minute pad
  | .second => twoPlaces m.second pad
  | .nanosecond => padded 9 [] (Text.digits m.nanosecond) pad
  | .timestamp => padded 9 (minus m.seconds) (Text.digits m.seconds.natAbs) pad

/-- The fraction of a second, cut off after so many digits. -/
def fractionText (m : Moment) (places : Nat) : List Char :=
  Text.fill '0' places (Text.digits (m.nanosecond / Nat.pow 10 (9 - places)))

/-- The fraction after a point, in groups of three digits and no more of them than it needs. -/
def shortFraction (m : Moment) : List Char :=
  if m.nanosecond = 0 then []
  else if m.nanosecond % 1000000 = 0 then '.' :: fractionText m 3
  else if m.nanosecond % 1000 = 0 then '.' :: fractionText m 6
  else '.' :: fractionText m 9

def hoursAhead (v : Int) : List Char :=
  (if v < 0 then '-' else '+') :: twoPlaces (v.natAbs / 3600) .zero

/-- The offset to the nearest minute. -/
def minutesAhead (separator : List Char) (v : Int) : List Char :=
  let minutes := (v.natAbs + 30) / 60
  (if v < 0 then '-' else '+') :: twoPlaces (minutes / 60) .zero ++ separator ++ twoPlaces (minutes % 60) .zero

def secondsAhead (v : Int) : List Char :=
  hoursAhead v ++ [':'] ++ twoPlaces (v.natAbs / 60 % 60) .zero ++ [':'] ++ twoPlaces (v.natAbs % 60) .zero

/-- A zone without a name of its own goes by its offset. -/
def zoneText (v : Int) : List Char :=
  if v.natAbs % 60 = 0 then minutesAhead [':'] v else secondsAhead v

/-- Year, month and day, `T`, and the time of day with the offset. -/
def lineText (m : Moment) : List Char :=
  let two := fun v => twoPlaces v .zero
  yearText m.date.year .zero ++ ['-'] ++ two m.date.month ++ ['-'] ++ two m.date.day ++ ['T'] ++
    two m.hour ++ [':'] ++ two m.minute ++ [':'] ++ two m.second ++ shortFraction m ++ minutesAhead [':'] m.offset

def Field.text? (m : Moment) : Field → Option (List Char)
  | .monthName => some (nameAt monthNames (m.date.month - 1))
  | .monthAbbreviation => some ((nameAt monthNames (m.date.month - 1)).take 3)
  | .weekdayName => some (nameAt weekdayNames m.date.weekday)
  | .weekdayAbbreviation => some ((nameAt weekdayNames m.date.weekday).take 3)
  | .lowerHalfDay => some (if m.isAfternoon then ['p', 'm'] else ['a', 'm'])
  | .upperHalfDay => some (if m.isAfternoon then ['P', 'M'] else ['A', 'M'])
  | .zoneName => some (zoneText m.offset)
  | .offset => some (minutesAhead [] m.offset)
  | .offsetColon => some (minutesAhead [':'] m.offset)
  | .offsetSeconds => some (secondsAhead m.offset)
  | .offsetHours => some (hoursAhead m.offset)
  | .offsetAnySpelling => none
  | .fraction none => some (shortFraction m)
  | .fraction (some places) => some ('.' :: fractionText m places)
  | .fractionDigits places => some (fractionText m places)
  | .timestampLine => some (lineText m)

def Part.text? (m : Moment) : Part → Option (List Char)
  | .text s => some s
  | .number n pad => some (n.text m pad)
  | .field f => f.text? m

def expand (m : Moment) (parts : List Part) : Option (List Char) :=
  (parts.mapM (Part.text? m)).map List.flatten

end Logline.TimeFormat
