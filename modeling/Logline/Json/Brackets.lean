import Logline.Json.Number

/-!
# Inside brackets

What stands between the elements of a list and between the entries of an object. The closing bracket
stays until everything that is wanted has been read.
-/

namespace Logline.Json

/-- Whether a list goes on; its closing bracket stays. -/
def nextElement (first : Bool) : Reader Bool := do
  match ← peek .endInList with
  | ']' => pure false
  | c =>
    if first then pure true
    else if c == ',' then
      advance
      match ← peek .endInValue with
      | ']' => fail .trailingComma
      | _ => pure true
    else fail .expectedCommaOrBracket

/-- The closing bracket of a list all of whose wanted elements are read. -/
def endList : Reader Unit := do
  match ← peek .endInList with
  | ']' => advance
  | ',' =>
    advance
    fun s =>
      match s.dropWhile isBlank with
      | ']' :: _ => .error .trailingComma
      | _ => .error .trailingCharacters
  | _ => fail .trailingCharacters

/-- The elements of a list up to its closing bracket, at most as many as the first argument. -/
def elements {α : Type} (element : Reader α) : Nat → Bool → Reader (List α)
  | 0, _ => fail .endInList
  | n + 1, first => do
    if ← nextElement first then
      let x ← element
      let xs ← elements element n false
      pure (x :: xs)
    else pure []

/-- The next key of an object; none at its closing brace, which stays. -/
def nextKey (first : Bool) : Reader (Option String) := do
  match ← peek .endInObject with
  | '}' => pure none
  | c =>
    if first then
      if c == '"' then some <$> stringLiteral else fail .keyNotString
    else if c == ',' then
      advance
      match ← peek .endInValue with
      | '"' => some <$> stringLiteral
      | '}' => fail .trailingComma
      | _ => fail .keyNotString
    else fail .expectedCommaOrBrace

def colon : Reader Unit := do
  match ← peek .endInObject with
  | ':' => advance
  | _ => fail .expectedColon

def endObject : Reader Unit := do
  match ← peek .endInObject with
  | '}' => advance
  | ',' => fail .trailingComma
  | _ => fail .trailingCharacters

end Logline.Json
