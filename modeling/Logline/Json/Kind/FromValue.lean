import Logline.Json.Kind.Basic

/-!
# Kinds in a value

The entries of an object are taken in the order of its keys. A list or an object is first looked at
as a whole, and what a list holds too much is found last.
-/

namespace Logline.Json.FromValue

def refuse {α : Type} (expected : String) (v : Value) : Except Fault α :=
  .error (.wrongKind v.describe expected)

def string (expected : String) : Value → Except Fault String
  | .string s => .ok s
  | v => refuse expected v

def null : Value → Except Fault Unit
  | .null => .ok ()
  | v => refuse "unit" v

section
variable {α δ : Type}

def optional (value : Value → Except Fault α) : Value → Except Fault (Option α)
  | .null => .ok none
  | v => (value v).map some

/-- One of some named variants: its name, or an object that holds null under the name. -/
def variant (variants : List (String × α)) : Value → Except Fault α
  | .string name => choose variants name
  | .object [(name, v)] => do
    let x ← choose variants name
    null v
    pure x
  | .object _ => .error .notOneKey
  | v => refuse "string or map" v

def sequence (element : Value → Except Fault α) : Value → Except Fault (List α)
  | .array vs => vs.mapM element
  | v => refuse "a sequence" v

def entries (shape : Shape δ α) : List (String × Value) → δ → Except Fault δ
  | [], draft => .ok draft
  | (key, v) :: rest, draft =>
    match shape.field? key with
    | some field => do entries shape rest (← (field.kind draft).ofValue v)
    | none => entries shape rest draft

/-- The fields of a record that stands as a list. A field that must be there may not be missing. -/
def positions (expected : String) : List (Field δ) → Nat → List Value → δ → Except Fault δ
  | [], _, _, draft => .ok draft
  | field :: fields, i, v :: vs, draft => do
    positions expected fields (i + 1) vs (← (field.kind draft).ofValue v)
  | field :: fields, i, [], draft =>
    if field.isRequired then .error (.wrongLength i expected)
    else positions expected fields (i + 1) [] draft

def record (shape : Shape δ α) : Value → Except Fault α
  | .array vs => do
    let x ← shape.complete (← positions shape.elementCount shape.fields 0 vs shape.empty)
    if shape.fields.length < vs.length then .error (.wrongLength vs.length "fewer elements in array")
    else .ok x
  | .object es => do shape.complete (← entries shape es shape.empty)
  | v => refuse shape.title v

end

end Logline.Json.FromValue
