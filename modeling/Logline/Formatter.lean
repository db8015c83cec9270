import Logline.Pattern.Compile

/-!
# Formatters

A formatter is a pattern with its items. It renders an event in pieces, one item after the other.
-/

namespace Logline

structure Formatter where
  pattern : String
  items : List Pattern.Item
  deriving DecidableEq, Repr

namespace Formatter

/-- Time, thread, fiber, level, logger, place and message, with tabs between them. -/
def standardPattern : String :=
  "%d\x7b%Y-%m-%d %H:%M:%S\x7d%T%t%T%N%T%F%T[%p]%T[%c]%T%f:%l%T%m%n"

def ofPattern (pattern : String) : Except Error Formatter :=
  (Pattern.compile pattern).map fun items => ⟨pattern, items⟩

def standard : Formatter where
  pattern := standardPattern
  items :=
    match Pattern.compile standardPattern with
    | .ok items => items
    | .error _ => []

/-- Takes another pattern; one that does not compile changes nothing. -/
def reset (f : Formatter) (pattern : String) : Except Error Unit × Formatter :=
  match ofPattern pattern with
  | .ok g => (.ok (), g)
  | .error e => (.error e, f)

def pieces (f : Formatter) (loggerName : String) (level : Level) (e : Event) : List String :=
  f.items.flatMap (Pattern.Item.pieces loggerName level e)

def format (f : Formatter) (loggerName : String) (level : Level) (e : Event) : String :=
  String.join (f.pieces loggerName level e)

end Formatter

end Logline
