import Logline.Json.Reader
import Logline.Text.Shortest

/-!
# Numbers of a document

Numbers are kept as machine words where they fit and as doubles otherwise. A double is made from at
most a word of digits and a power of ten; digits beyond the word are dropped.
-/

namespace Logline.Json

inductive Number
  | integer (i : Int)
  | real (x : Float)

def Number.describe : Number → String
  | integer i => "integer \x60" ++ Text.signed i ++ "\x60"
  | real x => "floating point \x60" ++ Text.Shortest.text x ++ "\x60"

/-- Takes digits into a number as long as it fits a word; how many were taken comes with it. -/
def absorb (significand : Nat) : List Char → Nat × Nat
  | [] => (significand, 0)
  | c :: cs =>
    let next := significand * 10 + Text.digitValue c
    if next < Nat.pow 2 64 then
      let (n, taken) := absorb next cs
      (n, taken + 1)
    else (significand, 0)

def powerOfTen (n : Nat) : Float := Float.ofScientific 1 false n

/-- `x · 10 ^ e`, by powers no larger than the largest double has. -/
def scale (x : Float) (e : Int) : Except Fault Float :=
  if e.natAbs ≤ 308 then
    if 0 ≤ e then
      let y := x * powerOfTen e.natAbs
      if y.isInf then .error .numberOutOfRange else .ok y
    else .ok (x / powerOfTen e.natAbs)
  else if x == 0 then .ok x
  else if 0 ≤ e then .error .numberOutOfRange
  else scale (x / powerOfTen 308) (e + 308)
termination_by e.natAbs

def real (negative : Bool) (significand : Nat) (e : Int) : Except Fault Number :=
  (scale (UInt64.ofNat significand).toFloat e).map fun x => .real (if negative then -x else x)

def spanDigits (s : List Char) : List Char × List Char :=
  (s.takeWhile Text.isDigit, s.dropWhile Text.isDigit)

def missingDigit : List Char → Fault
  | [] => .endInValue
  | _ => .invalidNumber

def exponent (s : List Char) : Except Fault (Int × List Char) :=
  let (negative, s) :=
    match s with
    | '+' :: r => (false, r)
    | '-' :: r => (true, r)
    | _ => (false, s)
  match spanDigits s with
  | ([], rest) => .error (missingDigit rest)
  | (ds, rest) =>
    let n : Nat := ds.foldl (fun n c => n * 10 + Text.digitValue c) 0
    .ok (if negative then -(n : Int) else n, rest)

def isExponentMark (c : Char) : Bool := c == 'e' || c == 'E'

/-- What follows the digits of a double: an exponent or nothing. -/
def afterDigits (negative : Bool) (significand : Nat) (e : Int) (s : List Char) :
    Except Fault (Number × List Char) := do
  let (e, s) ←
    match s with
    | c :: r =>
      if isExponentMark c then do
        let (x, rest) ← exponent r
        pure (e + x, rest)
      else pure (e, s)
    | [] => pure (e, s)
  pure (← real negative significand e, s)

def unsigned (negative : Bool) (s : List Char) : Except Fault (Number × List Char) :=
  match spanDigits s with
  | ([], rest) => .error (missingDigit rest)
  | ('0' :: _ :: _, _) => .error .invalidNumber
  | (ds, rest) =>
    let (n, taken) := absorb 0 ds
    let dropped := ds.length - taken
    match rest with
    | '.' :: r =>
      match spanDigits r with
      | ([], rest) => .error (missingDigit rest)
      | (fs, rest) =>
        let (n, taken) := absorb n fs
        afterDigits negative n (dropped - taken) rest
    | c :: _ =>
      if isExponentMark c || dropped ≠ 0 then afterDigits negative n dropped rest
      else whole n rest
    | [] => if dropped ≠ 0 then afterDigits negative n dropped rest else whole n rest
where
  /-- A negative number beyond the words and a negative zero are doubles. -/
  whole (n : Nat) (rest : List Char) : Except Fault (Number × List Char) :=
    if negative then
      if n = 0 ∨ Nat.pow 2 63 < n then (real true n 0).map (·, rest)
      else .ok (.integer (-n), rest)
    else .ok (.integer n, rest)

def number : Reader Number := fun s =>
  match s with
  | '-' :: r => unsigned true r
  | _ => unsigned false s

/-- What stands where something else was wanted, as the fault it is; the value must be well-formed as
far as its kind has to be known. -/
def refuse {α : Type} (expected : String) : Reader α := fun s =>
  match s with
  | 'n' :: r => named ['u', 'l', 'l'] "null" r
  | 't' :: r => named ['r', 'u', 'e'] "boolean \x60true\x60" r
  | 'f' :: r => named ['a', 'l', 's', 'e'] "boolean \x60false\x60" r
  | '"' :: r =>
    match stringBody r with
    | .ok (cs, _) => .error (.wrongKind ("string " ++ Text.quoted (String.ofList cs)) expected)
    | .error e => .error e
  | '[' :: _ => .error (.wrongKind "sequence" expected)
  | '{' :: _ => .error (.wrongKind "map" expected)
  | c :: _ =>
    if c == '-' || Text.isDigit c then
      match number s with
      | .ok (n, _) => .error (.wrongKind n.describe expected)
      | .error e => .error e
    else .error .expectedValue
  | [] => .error .expectedValue
where
  named (word : List Char) (kind : String) (s : List Char) : Except Fault (α × List Char) :=
    match ident word s with
    | .ok _ => .error (.wrongKind kind expected)
    | .error e => .error e

end Logline.Json
