import Logline.Text.Decimal

/-!
# Masking what changes

Words that differ from one run of a program to the next are replaced: dates, times of day, and places
of a log call in a source file. Words are cut at blanks, tabs and newlines, which stay.
-/

namespace Logline.Demo

/-- Whether a word has digits where the form has `d` and the form's characters elsewhere. -/
def hasForm : List Char → List Char → Bool
  | [], [] => true
  | 'd' :: form, c :: word => Text.isDigit c && hasForm form word
  | f :: form, c :: word => f == c && hasForm form word
  | _, _ => false

def dateForm : List Char := ['d', 'd', 'd', 'd', '-', 'd', 'd', '-', 'd', 'd']

def timeForm : List Char := ['d', 'd', ':', 'd', 'd', ':', 'd', 'd']

/-- A source file and a line of it, at the end of a word. -/
def isSite (word : List Char) : Bool :=
  let backward := word.reverse
  !(backward.takeWhile Text.isDigit).isEmpty &&
    [':', 's', 'r', '.'].isPrefixOf (backward.dropWhile Text.isDigit)

def maskWord (word : List Char) : List Char :=
  if hasForm dateForm word then ['<', 'd', 'a', 't', 'e', '>']
  else if hasForm timeForm word then ['<', 't', 'i', 'm', 'e', '>']
  else if isSite word then ['<', 's', 'i', 't', 'e', '>']
  else word

def isCut (c : Char) : Bool := c == ' ' || c == '\t' || c == '\n'

/-- Masks a text of which some characters of a word, last one first, have been read. -/
def maskFrom (word : List Char) : List Char → List Char
  | [] => maskWord word.reverse
  | c :: cs => if isCut c then maskWord word.reverse ++ c :: maskFrom [] cs else maskFrom (c :: word) cs

def mask (text : String) : String :=
  String.ofList (maskFrom [] text.toList)

def maskBytes (bytes : ByteArray) : ByteArray :=
  match String.fromUTF8? bytes with
  | some text => (mask text).toUTF8
  | none => bytes

end Logline.Demo
