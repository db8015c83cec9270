import Logline.Json.Kind.FromText
import Logline.Json.Kind.FromValue

/-! # The kinds -/

namespace Logline.Json.Kind

def string (expected : String) : Kind String :=
  ⟨FromText.string expected, FromValue.string expected⟩

def optional {α : Type} (kind : Kind α) : Kind (Option α) :=
  ⟨FromText.optional kind.read, FromValue.optional kind.ofValue⟩

def variant {α : Type} (variants : List (String × α)) : Kind α :=
  ⟨FromText.variant variants, FromValue.variant variants⟩

def sequence {α : Type} (element : Kind α) : Kind (List α) :=
  ⟨FromText.sequence element.read, FromValue.sequence element.ofValue⟩

def record {δ α : Type} (shape : Shape δ α) : Kind α :=
  ⟨FromText.record shape, FromValue.record shape⟩

end Logline.Json.Kind
