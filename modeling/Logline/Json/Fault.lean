import Logline.Text.Decimal

/-!
# Faults of a JSON document

What is wrong with a document, either with its text or with a value that is not of the wanted kind.
-/

namespace Logline.Json

inductive Category
  | text
  | value
  | «end»
  deriving DecidableEq, Repr

inductive Fault
  | endInValue
  | endInList
  | endInObject
  | endInString
  | expectedValue
  | expectedIdent
  | expectedColon
  | expectedCommaOrBracket
  | expectedCommaOrBrace
  | trailingComma
  | trailingCharacters
  | keyNotString
  | invalidEscape
  | invalidNumber
  | numberOutOfRange
  | controlCharacter
  | loneSurrogate
  | unfinishedSurrogate
  | wrongKind (found expected : String)
  | wrongLength (length : Nat) (expected : String)
  | notOneKey
  | unknownVariant (name : String) (known : List String)
  | missingField (name : String)
  | duplicateField (name : String)
  deriving DecidableEq, Repr

namespace Fault

def marked (s : String) : String :=
  "\x60" ++ s ++ "\x60"

def alternatives : List String → String
  | [] => "there are no variants"
  | [a] => "expected " ++ marked a
  | [a, b] => "expected " ++ marked a ++ " or " ++ marked b
  | names => "expected one of " ++ ", ".intercalate (names.map marked)

def message : Fault → String
  | endInValue => "EOF while parsing a value"
  | endInList => "EOF while parsing a list"
  | endInObject => "EOF while parsing an object"
  | endInString => "EOF while parsing a string"
  | expectedValue => "expected value"
  | expectedIdent => "expected ident"
  | expectedColon => "expected \x60:\x60"
  | expectedCommaOrBracket => "expected \x60,\x60 or \x60]\x60"
  | expectedCommaOrBrace => "expected \x60,\x60 or \x60\x7d\x60"
  | trailingComma => "trailing comma"
  | trailingCharacters => "trailing characters"
  | keyNotString => "key must be a string"
  | invalidEscape => "invalid escape"
  | invalidNumber => "invalid number"
  | numberOutOfRange => "number out of range"
  | controlCharacter => "control character (\\u0000-\\u001F) found while parsing a string"
  | loneSurrogate => "lone leading surrogate in hex escape"
  | unfinishedSurrogate => "unexpected end of hex escape"
  | wrongKind found expected => "invalid type: " ++ found ++ ", expected " ++ expected
  | wrongLength n expected => "invalid length " ++ Text.decimal n ++ ", expected " ++ expected
  | notOneKey => "invalid value: map, expected map with a single key"
  | unknownVariant name known => "unknown variant " ++ marked name ++ ", " ++ alternatives known
  | missingField name => "missing field " ++ marked name
  | duplicateField name => "duplicate field " ++ marked name

def category : Fault → Category
  | endInValue | endInList | endInObject | endInString => .end
  | wrongKind .. | wrongLength .. | notOneKey | unknownVariant .. | missingField _ | duplicateField _ => .value
  | _ => .text

end Fault

end Logline.Json
