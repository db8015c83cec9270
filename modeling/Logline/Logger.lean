import Logline.Appender

/-!
# Loggers

A logger has a threshold and its appenders, in the order in which they were added and each of them
once.
-/

namespace Logline

structure Logger where
  name : String
  level : Level := .debug
  appenders : List AppenderId := []
  deriving DecidableEq, Repr

namespace Logger

def enabled (l : Logger) (level : Level) : Bool :=
  l.level ≤ level

def setLevel (l : Logger) (level : Level) : Logger :=
  { l with level }

def add (l : Logger) (a : AppenderId) : Logger :=
  if a ∈ l.appenders then l else { l with appenders := l.appenders ++ [a] }

def remove (l : Logger) (a : AppenderId) : Logger :=
  { l with appenders := l.appenders.filter (· ≠ a) }

def clear (l : Logger) : Logger :=
  { l with appenders := [] }

/-- Of an appender given more than once the first place counts. -/
def set (l : Logger) (as : List AppenderId) : Logger :=
  { l with appenders := as.eraseDups }

def build (name : String) (level : Level) (as : List AppenderId) : Logger :=
  ({ name, level } : Logger).set as

end Logger

end Logline
