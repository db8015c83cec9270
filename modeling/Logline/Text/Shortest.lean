import Logline.Text.Decimal

/-!
# The shortest decimal text of a double

The digits are the fewest that lie in the interval of reals that round to the double, and of those
the nearest to it. They are found in exact arithmetic: on the grid of numbers with `n` digits the
interval can only be hit by one of the double's two neighbours.
-/

namespace Logline.Text.Shortest

/-- A finite double's size as `mantissa · 2 ^ exponent`, and whether the gap below it is half the gap above. -/
structure Binary where
  mantissa : Nat
  exponent : Int
  narrowBelow : Bool
  deriving DecidableEq, Repr

def Binary.ofBits (bits : UInt64) : Binary :=
  let fraction : Nat := bits.toNat % Nat.pow 2 52
  let biased : Nat := bits.toNat / Nat.pow 2 52 % Nat.pow 2 11
  if biased = 0 then ⟨fraction, -1074, false⟩
  else ⟨Nat.pow 2 52 + fraction, (biased : Int) - 1075, fraction == 0 && biased > 1⟩

/-- The double and the ends of its interval over one denominator. -/
structure Interval where
  low : Nat
  value : Nat
  high : Nat
  denominator : Nat
  closed : Bool
  deriving DecidableEq, Repr

def Binary.interval (b : Binary) : Interval :=
  let up := Nat.pow 2 b.exponent.toNat
  let down := Nat.pow 2 (-b.exponent).toNat
  { low := (4 * b.mantissa - if b.narrowBelow then 1 else 2) * up
    value := 4 * b.mantissa * up
    high := (4 * b.mantissa + 2) * up
    denominator := 4 * down
    closed := b.mantissa % 2 == 0 }

/-- Whether `d · 10 ^ e` lies in the interval. -/
def Interval.holds (i : Interval) (d : Nat) (e : Int) : Bool :=
  let x := d * Nat.pow 10 e.toNat * i.denominator
  let scale := Nat.pow 10 (-e).toNat
  if i.closed then i.low * scale ≤ x && x ≤ i.high * scale
  else i.low * scale < x && x < i.high * scale

/-- The grid numbers `d · 10 ^ e` next below and next above the double. -/
def Interval.neighbours (i : Interval) (e : Int) : Nat × Nat :=
  let d := i.value * Nat.pow 10 (-e).toNat / (i.denominator * Nat.pow 10 e.toNat)
  (d, d + 1)

/-- Twice the distance of the double from `d · 10 ^ e`, less the width of the grid: negative when `d`
is nearer than `d + 1`. -/
def Interval.leaning (i : Interval) (d : Nat) (e : Int) : Int :=
  2 * (i.value * Nat.pow 10 (-e).toNat : Nat) - (2 * d + 1) * (i.denominator * Nat.pow 10 e.toNat : Nat)

/-- The number of the grid `10 ^ e` that lies in the interval; the nearer one if both neighbours do,
the even one at a tie. -/
def Interval.on? (i : Interval) (e : Int) : Option Nat :=
  let (a, b) := i.neighbours e
  match i.holds a e, i.holds b e with
  | true, true =>
    let l := i.leaning a e
    some (if l < 0 || (l == 0 && a % 2 == 0) then a else b)
  | true, false => some a
  | false, true => some b
  | false, false => none

/-- How many digits the double has before the point; none or negative below one. -/
def Interval.magnitude (i : Interval) : Int :=
  if i.denominator ≤ i.value then (digits (i.value / i.denominator)).length
  else 1 - (digits (i.denominator / i.value)).length

/-- Tries grids from coarse to fine. -/
def Interval.search (i : Interval) : Nat → Int → Nat × Int
  | 0, e => ((i.neighbours e).1, e)
  | n + 1, e =>
    match i.on? e with
    | some d => (d, e)
    | none => i.search n (e - 1)

def trimZeros : Nat → Nat → Int → Nat × Int
  | 0, d, e => (d, e)
  | n + 1, d, e => if d % 10 == 0 && d != 0 then trimZeros n (d / 10) (e + 1) else (d, e)

def decimalOfBits (bits : UInt64) : Nat × Int :=
  let i := (Binary.ofBits bits).interval
  let (d, e) := i.search 18 i.magnitude
  trimZeros 20 d e

/-- Positional while the point is at most 16 places right of the first digit and fewer than 5 left of
it, with an exponent and its sign otherwise. -/
def layout (ds : List Char) (e : Int) : List Char :=
  let point := (ds.length : Int) + e
  if 0 ≤ e ∧ point ≤ 16 then ds ++ List.replicate e.toNat '0' ++ ['.', '0']
  else if 0 < point ∧ point ≤ 16 then ds.take point.toNat ++ ['.'] ++ ds.drop point.toNat
  else if -5 < point ∧ point ≤ 0 then ['0', '.'] ++ List.replicate (-point).toNat '0' ++ ds
  else
    let exponent := (if 0 < point then ['+'] else []) ++ (signed (point - 1)).toList
    match ds with
    | [d] => [d, 'e'] ++ exponent
    | d :: rest => [d, '.'] ++ rest ++ ['e'] ++ exponent
    | [] => []

def text (x : Float) : String :=
  let bits := x.toBits
  let sign := if bits.toNat / Nat.pow 2 63 = 1 then ['-'] else []
  if bits.toNat % Nat.pow 2 63 = 0 then String.ofList (sign ++ ['0', '.', '0'])
  else
    let (d, e) := decimalOfBits bits
    String.ofList (sign ++ layout (digits d) e)

end Logline.Text.Shortest
