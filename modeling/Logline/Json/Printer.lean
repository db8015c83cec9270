import Logline.Text.Quoted

/-!
# Printing documents

Values on lines of their own, two blanks deeper than the bracket around them; brackets around
nothing stay together. Strings keep every character that may stand in a string.
-/

namespace Logline.Json

def escaped (c : Char) : List Char :=
  match c with
  | '"' => ['\\', '"']
  | '\\' => ['\\', '\\']
  | '\x08' => ['\\', 'b']
  | '\x0c' => ['\\', 'f']
  | '\n' => ['\\', 'n']
  | '\r' => ['\\', 'r']
  | '\t' => ['\\', 't']
  | c =>
    if c.toNat < 0x20 then
      ['\\', 'u', '0', '0', Text.hexDigit (c.toNat / 16), Text.hexDigit (c.toNat % 16)]
    else [c]

def stringText (s : String) : List Char :=
  '"' :: s.toList.flatMap escaped ++ ['"']

def newLine (depth : Nat) : List Char :=
  '\n' :: List.replicate (2 * depth) ' '

/-- Each part on a line of its own, with a comma after every part but the last. -/
def lines (depth : Nat) : List (List Char) → List Char
  | [] => []
  | [p] => newLine depth ++ p
  | p :: ps => newLine depth ++ p ++ ',' :: lines depth ps

def block (first last : Char) (depth : Nat) (parts : List (List Char)) : List Char :=
  match parts with
  | [] => [first, last]
  | _ => first :: lines (depth + 1) parts ++ newLine depth ++ [last]

def listText (depth : Nat) (parts : List (List Char)) : List Char :=
  block '[' ']' depth parts

def entryText (entry : String × List Char) : List Char :=
  stringText entry.1 ++ [':', ' '] ++ entry.2

def objectText (depth : Nat) (entries : List (String × List Char)) : List Char :=
  block '{' '}' depth (entries.map entryText)

/-- An entry that is left out when there is no value. -/
def optionalEntry (key : String) (value : Option (List Char)) : List (String × List Char) :=
  match value with
  | some v => [(key, v)]
  | none => []

end Logline.Json
