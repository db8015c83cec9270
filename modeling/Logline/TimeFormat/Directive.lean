import Logline.TimeFormat.Part

/-!
# Directives of a time format

A directive is `%`, an optional flag for padding, and one or more characters that say which parts it
stands for. A flag may stand before a directive for a single number only.
-/

namespace Logline.TimeFormat

def zeros (n : Number) : Part := .number n .zero

def blanks (n : Number) : Part := .number n .space

def sign (c : Char) : Part := .text [c]

def separated (c : Char) (ns : List Number) : List Part :=
  (ns.map zeros).intersperse (sign c)

def clockParts : List Part :=
  separated ':' [.hour, .minute, .second]

def parts? : Char → Option (List Part)
  | 'A' => some [.field .weekdayName]
  | 'B' => some [.field .monthName]
  | 'C' => some [zeros .century]
  | 'D' | 'x' => some (separated '/' [.month, .day, .yearOfCentury])
  | 'F' => some (separated '-' [.year, .month, .day])
  | 'G' => some [zeros .isoYear]
  | 'H' => some [zeros .hour]
  | 'I' => some [zeros .hour12]
  | 'M' => some [zeros .minute]
  | 'P' => some [.field .lowerHalfDay]
  | 'R' => some (separated ':' [.hour, .minute])
  | 'S' => some [zeros .second]
  | 'T' | 'X' => some clockParts
  | 'U' => some [zeros .weekFromSunday]
  | 'V' => some [zeros .isoWeek]
  | 'W' => some [zeros .weekFromMonday]
  | 'Y' => some [zeros .year]
  | 'Z' => some [.field .zoneName]
  | 'a' => some [.field .weekdayAbbreviation]
  | 'b' | 'h' => some [.field .monthAbbreviation]
  | 'c' =>
    some ([.field .weekdayAbbreviation, sign ' ', .field .monthAbbreviation, sign ' ', blanks .day, sign ' '] ++
      clockParts ++ [sign ' ', zeros .year])
  | 'd' => some [zeros .day]
  | 'e' => some [blanks .day]
  | 'f' => some [zeros .nanosecond]
  | 'g' => some [zeros .isoYearOfCentury]
  | 'j' => some [zeros .dayOfYear]
  | 'k' => some [blanks .hour]
  | 'l' => some [blanks .hour12]
  | 'm' => some [zeros .month]
  | 'n' => some [sign '\n']
  | 'p' => some [.field .upperHalfDay]
  | 'q' => some [.number .quarter .none]
  | 'r' => some (separated ':' [.hour12, .minute, .second] ++ [sign ' ', .field .upperHalfDay])
  | 's' => some [.number .timestamp .none]
  | 't' => some [sign '\t']
  | 'u' => some [.number .weekday .none]
  | 'v' => some [blanks .day, sign '-', .field .monthAbbreviation, sign '-', zeros .year]
  | 'w' => some [.number .daysFromSunday .none]
  | 'y' => some [zeros .yearOfCentury]
  | 'z' => some [.field .offset]
  | '+' => some [.field .timestampLine]
  | '%' => some [sign '%']
  | _ => none

/-- The parts of the directive whose characters, after `%` and a flag, begin the text, and the rest. -/
def directive? : List Char → Option (List Part × List Char)
  | ':' :: ':' :: ':' :: 'z' :: r => some ([.field .offsetHours], r)
  | ':' :: ':' :: 'z' :: r => some ([.field .offsetSeconds], r)
  | ':' :: 'z' :: r => some ([.field .offsetColon], r)
  | '.' :: 'f' :: r => some ([.field (.fraction none)], r)
  | '.' :: '3' :: 'f' :: r => some ([.field (.fraction (some 3))], r)
  | '.' :: '6' :: 'f' :: r => some ([.field (.fraction (some 6))], r)
  | '.' :: '9' :: 'f' :: r => some ([.field (.fraction (some 9))], r)
  | '3' :: 'f' :: r => some ([.field (.fractionDigits 3)], r)
  | '6' :: 'f' :: r => some ([.field (.fractionDigits 6)], r)
  | '9' :: 'f' :: r => some ([.field (.fractionDigits 9)], r)
  | c :: r => (parts? c).map (·, r)
  | [] => none

theorem directive?_length {s : List Char} {ps : List Part} {r : List Char}
    (h : directive? s = some (ps, r)) : r.length < s.length := by
  unfold directive? at h
  split at h
  all_goals first
    | (simp only [Option.some.injEq, Prod.mk.injEq] at h; obtain ⟨-, rfl⟩ := h; simp only [List.length_cons]; omega)
    | skip
  · simp only [Option.map_eq_some_iff, Prod.mk.injEq] at h
    obtain ⟨_, _, _, rfl⟩ := h
    simp
  · cases h

def padOfFlag? : Char → Option Pad
  | '-' => some .none
  | '0' => some .zero
  | '_' => some .space
  | _ => none

/-- A flag replaces the padding of a number that stands alone. -/
def repad (pad : Pad) : List Part → Option (List Part)
  | [.number n _] => some [.number n pad]
  | _ => none

/-- Reads what follows a `%`. The mark `#` asks for the spelling that can only be read. -/
def flagged? : List Char → Option (List Part × List Char)
  | '#' :: 'z' :: r => some ([.field .offsetAnySpelling], r)
  | c :: r =>
    match padOfFlag? c with
    | some pad => (directive? r).bind fun (ps, rest) => (repad pad ps).map (·, rest)
    | none => directive? (c :: r)
  | [] => none

theorem flagged?_length {s : List Char} {ps : List Part} {r : List Char}
    (h : flagged? s = some (ps, r)) : r.length < s.length := by
  unfold flagged? at h
  split at h
  · simp only [Option.some.injEq, Prod.mk.injEq] at h
    obtain ⟨-, rfl⟩ := h
    simp only [List.length_cons]; omega
  · split at h
    · simp only [Option.bind_eq_some_iff, Option.map_eq_some_iff, Prod.mk.injEq] at h
      obtain ⟨⟨qs, rest⟩, hd, _, _, _, rfl⟩ := h
      have := directive?_length hd
      simp only [List.length_cons]; omega
    · exact directive?_length h
  · cases h

/-- The parts of a format; none if a directive is unknown or breaks off. -/
def read? (s : List Char) : Option (List Part) :=
  match s with
  | [] => some []
  | '%' :: r =>
    match h : flagged? r with
    | some (ps, rest) =>
      have := flagged?_length h
      (read? rest).map (ps ++ ·)
    | none => none
  | c :: r => (read? r).map (Part.text [c] :: ·)
termination_by s.length
decreasing_by all_goals simp only [List.length_cons]; omega

end Logline.TimeFormat
