import Logline.Json.Kind.Basic
import Logline.Json.Skip

/-!
# Kinds in a text

Everything is read from left to right, and the first fault ends the reading.
-/

namespace Logline.Json.FromText

def string (expected : String) : Reader String := do
  match ← peek .endInValue with
  | '"' => stringLiteral
  | _ => refuse expected

def null : Reader Unit := do
  match ← peek .endInValue with
  | 'n' => ident ['n', 'u', 'l', 'l']
  | _ => refuse "unit"

section
variable {α δ : Type}

def optional (value : Reader α) : Reader (Option α) := fun s =>
  match s.dropWhile isBlank with
  | 'n' :: r => do
    let (_, rest) ← ident ['u', 'l', 'l'] r
    pure (none, rest)
  | s => (some <$> value) s

def variantKey : Reader String := do
  match ← peek .endInObject with
  | '"' => stringLiteral
  | '}' => fail .expectedValue
  | _ => fail .keyNotString

/-- One of some named variants: its name, or an object that holds null under the name. -/
def variant (variants : List (String × α)) : Reader α := do
  match ← peek .endInValue with
  | '"' =>
    let name ← stringLiteral
    StateT.lift (choose variants name)
  | '{' =>
    advance
    let name ← variantKey
    let x ← StateT.lift (choose variants name)
    colon
    null
    match ← peek .endInObject with
    | '}' => advance; pure x
    | _ => fail .expectedValue
  | _ => fail .expectedValue

/-- A list; every element takes a character at least. -/
def sequence (element : Reader α) : Reader (List α) := do
  match ← peek .endInValue with
  | '[' =>
    advance
    let xs ← fun s => elements element (s.length + 1) true s
    endList
    pure xs
  | _ => refuse "a sequence"

/-- The entries of an object up to its closing brace, at most as many as the second argument. -/
def entries (shape : Shape δ α) : Nat → Bool → δ → Reader δ
  | 0, _, _ => fail .endInObject
  | n + 1, first, draft => do
    match ← nextKey first with
    | none => pure draft
    | some key =>
      match shape.field? key with
      | some field =>
        if field.isSet draft then fail (.duplicateField key)
        else
          colon
          let draft ← (field.kind draft).read
          entries shape n false draft
      | none =>
        colon
        skipValue
        entries shape n false draft

/-- The fields of a record that stands as a list. A field that must be there may not be missing. -/
def positions (expected : String) : List (Field δ) → Nat → Bool → δ → Reader δ
  | [], _, _, draft => pure draft
  | field :: fields, i, first, draft => do
    if ← nextElement first then
      let draft ← (field.kind draft).read
      positions expected fields (i + 1) false draft
    else if field.isRequired then fail (.wrongLength i expected)
    else positions expected fields (i + 1) first draft

def record (shape : Shape δ α) : Reader α := do
  match ← peek .endInValue with
  | '[' =>
    advance
    let draft ← positions shape.elementCount shape.fields 0 true shape.empty
    let x ← StateT.lift (shape.complete draft)
    endList
    pure x
  | '{' =>
    advance
    let draft ← fun s => entries shape (s.length + 1) true shape.empty s
    let x ← StateT.lift (shape.complete draft)
    endObject
    pure x
  | _ => refuse shape.title

end

end Logline.Json.FromText
