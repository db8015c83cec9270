import Logline.Event
import Logline.Level
import Logline.TimeFormat

/-!
# Items of a pattern

An item renders one part of an event. Its text is written in pieces, nearly always one.
-/

namespace Logline.Pattern

inductive Item
  | literal (text : String)
  | message
  | level
  | elapsed
  | loggerName
  | threadId
  | newLine
  | dateTime (format : TimeFormat)
  | fileName
  | lineNumber
  | tab
  | fiberId
  | threadName
  deriving DecidableEq, Repr

namespace Item

/-- The catalogue of flags; the argument matters to times only. -/
def ofLetter? (letter : Char) (argument : String) : Option Item :=
  match letter with
  | 'm' => some message
  | 'p' => some level
  | 'r' => some elapsed
  | 'c' => some loggerName
  | 't' => some threadId
  | 'n' => some newLine
  | 'd' => some (dateTime (TimeFormat.ofArgument argument))
  | 'f' => some fileName
  | 'l' => some lineNumber
  | 'T' => some tab
  | 'F' => some fiberId
  | 'N' => some threadName
  | _ => none

/-- A flag that is not one letter of the catalogue stands for its own text; an empty one for nothing. -/
def ofFlag? (flag : List Char) (argument : List Char) : Option Item :=
  match flag with
  | [] => none
  | [c] => some ((ofLetter? c (String.ofList argument)).getD (literal (String.ofList flag)))
  | _ => some (literal (String.ofList flag))

/-- The pieces an event is rendered in, when it passes through a logger of this name. -/
def pieces (loggerName : String) (level : Level) (e : Event) : Item → List String
  | literal text => [text]
  | message => [e.content]
  | .level => [level.name]
  | elapsed => [Text.decimal e.elapsed.toNat]
  | .loggerName => [e.effectiveLogger loggerName]
  | threadId => [Text.decimal e.threadId.toNat]
  | newLine => ["\n"]
  | dateTime format => format.pieces e.time.toInt
  | fileName => [e.fileName]
  | lineNumber => [Text.decimal e.line.toNat]
  | tab => ["\t"]
  | fiberId => [Text.decimal e.fiberId.toNat]
  | threadName => [e.threadName]

end Item

end Logline.Pattern
