import Logline.Json.Brackets

/-!
# Values

A document as a whole. The keys of an object are in order, and of equal keys the last one counts.
-/

namespace Logline.Json

inductive Value
  | null
  | boolean (b : Bool)
  | number (n : Number)
  | string (s : String)
  | array (elements : List Value)
  | object (entries : List (String × Value))

namespace Value

/-- What a value is found to be where something else was wanted. -/
def describe : Value → String
  | null => "null"
  | boolean b => "boolean \x60" ++ (if b then "true" else "false") ++ "\x60"
  | number n => n.describe
  | string s => "string " ++ Text.quoted s
  | array _ => "sequence"
  | object _ => "map"

/-- Puts a value under a key, in place of one that is there. -/
def insert (key : String) (value : Value) : List (String × Value) → List (String × Value)
  | [] => [(key, value)]
  | (k, v) :: rest =>
    if key < k then (key, value) :: (k, v) :: rest
    else if key = k then (key, value) :: rest
    else (k, v) :: insert key value rest

def member? (value : Value) (key : String) : Option Value :=
  match value with
  | object entries => entries.lookup key
  | _ => none

/-- The entries of an object up to its closing brace, at most as many as the second argument. -/
def entries (value : Reader Value) : Nat → Bool → List (String × Value) → Reader (List (String × Value))
  | 0, _, _ => fail .endInObject
  | n + 1, first, known => do
    match ← nextKey first with
    | none => pure known
    | some key =>
      colon
      let v ← value
      entries value n false (insert key v known)

/-- A value whose brackets are nested no deeper than the first argument. -/
def nested : Nat → Reader Value
  | 0 => fail .expectedValue
  | depth + 1 => do
    match ← peek .endInValue with
    | 'n' => ident ['n', 'u', 'l', 'l']; pure null
    | 't' => ident ['t', 'r', 'u', 'e']; pure (boolean true)
    | 'f' => ident ['f', 'a', 'l', 's', 'e']; pure (boolean false)
    | '"' => string <$> stringLiteral
    | '[' =>
      advance
      let xs ← fun s => elements (nested depth) (s.length + 1) true s
      endList
      pure (array xs)
    | '{' =>
      advance
      let es ← fun s => entries (nested depth) (s.length + 1) true [] s
      endObject
      pure (object es)
    | c => if c == '-' || Text.isDigit c then Value.number <$> Json.number else fail .expectedValue

/-- Any value; brackets are nested no deeper than the text is long. -/
def reader : Reader Value := fun s =>
  nested (s.length + 1) s

end Value

end Logline.Json
