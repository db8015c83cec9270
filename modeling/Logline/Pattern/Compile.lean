import Logline.Error
import Logline.Pattern.Item
import Logline.Pattern.Token

/-!
# Compiling patterns

The items of a pattern are those of its tokens in order, where text and percent signs between two
directives make one literal.
-/

namespace Logline.Pattern

namespace Token

/-- The text of a token that stands for text. -/
def literal? : Token → Option (List Char)
  | text run => some run
  | percent => some ['%']
  | finalPercent => some ['%']
  | directive .. => none
  | mark _ => none

def item? : Token → Option Item
  | directive flag argument => Item.ofFlag? flag (argument.getD [])
  | mark c => Item.ofFlag? [c] []
  | _ => none

end Token

/-- A literal before some items, unless it is empty. -/
def withLiteral (literal : List Char) (items : List Item) : List Item :=
  if literal = [] then items else .literal (String.ofList literal) :: items

/-- The items of tokens that follow some literal text. -/
def itemsAfter (literal : List Char) : List Token → List Item
  | [] => withLiteral literal []
  | t :: ts =>
    match t.literal? with
    | some cs => itemsAfter (literal ++ cs) ts
    | none => withLiteral literal (t.item?.toList ++ itemsAfter [] ts)

def items (tokens : List Token) : List Item :=
  itemsAfter [] tokens

def compileChars (pattern : List Char) : Except Unclosed (List Item) :=
  (scan pattern).map items

def compile (pattern : String) : Except Error (List Item) :=
  match compileChars pattern.toList with
  | .ok is => .ok is
  | .error u => .error (.patternSyntax pattern u.position u.message)

end Logline.Pattern
