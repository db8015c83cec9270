import Logline.Json.Value

/-!
# Kinds of values

A kind is what a program wants to find in a document: a string, one of several named variants, a
value that may be null, a sequence, or a record. It says how such a value is read off a text and how
it is taken from a value that has been read before; the two differ only in the faults they find first.
-/

namespace Logline.Json

structure Kind (α : Type) where
  read : Reader α
  ofValue : Value → Except Fault α

instance : Functor Kind where
  map f kind := ⟨f <$> kind.read, fun v => (kind.ofValue v).map f⟩

/-- A field of a record: how it is added to a draft of the record. -/
structure Field (δ : Type) where
  name : String
  isRequired : Bool
  isSet : δ → Bool
  kind : δ → Kind δ

/-- How a record is read: by way of a draft that begins empty and is completed in the end. It stands
as an object in any order of its keys or as a list in the order of its fields. -/
structure Shape (δ α : Type) where
  title : String
  fields : List (Field δ)
  empty : δ
  complete : δ → Except Fault α

section
variable {δ α : Type}

def Shape.field? (shape : Shape δ α) (key : String) : Option (Field δ) :=
  shape.fields.find? (·.name == key)

/-- What a list should have been. -/
def Shape.elementCount (shape : Shape δ α) : String :=
  let n := shape.fields.length
  shape.title ++ " with " ++ Text.decimal n ++ (if n = 1 then " element" else " elements")

def choose (variants : List (String × α)) (name : String) : Except Fault α :=
  match variants.lookup name with
  | some x => .ok x
  | none => .error (.unknownVariant name (variants.map Prod.fst))

end

end Logline.Json
