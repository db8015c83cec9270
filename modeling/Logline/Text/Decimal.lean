/-! # Decimal text of numbers -/

namespace Logline.Text

/-- The character of a digit; past nine it goes on through the characters that follow `9`. -/
def digit (d : Nat) : Char :=
  Char.ofNat (48 + d)

def isDigit (c : Char) : Bool :=
  '0' ≤ c && c ≤ '9'

def digitValue (c : Char) : Nat :=
  c.toNat - 48

/-- The decimal digits of `n`, most significant first; `0` has one. -/
def digits (n : Nat) : List Char :=
  if n < 10 then [digit n] else digits (n / 10) ++ [digit (n % 10)]

def fill (c : Char) (width : Nat) (s : List Char) : List Char :=
  List.replicate (width - s.length) c ++ s

def decimal (n : Nat) : String :=
  String.ofList (digits n)

def signedPieces (i : Int) : List String :=
  if i < 0 then ["-", decimal i.natAbs] else [decimal i.natAbs]

def signed (i : Int) : String :=
  String.join (signedPieces i)

end Logline.Text
