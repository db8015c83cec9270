/-!
# Events

What is logged: where and when it arose, on which thread, and its content. An event may carry the
name of a logger of its own.
-/

namespace Logline

structure Event where
  fileName : String
  line : UInt32
  /-- Milliseconds since the program began. -/
  elapsed : UInt64
  threadId : UInt32
  fiberId : UInt32
  /-- Seconds since the first of January 1970. -/
  time : Int64
  threadName : String := ""
  content : String := ""
  loggerName : Option String := none
  deriving DecidableEq, Repr

/-- What a running program supplies to an event: its clock and the thread it arises on. -/
structure Ambience where
  elapsed : UInt64
  threadId : UInt32
  threadName : String
  time : Int64
  deriving DecidableEq, Repr

namespace Event

/-- An event at a place of the program, on no fiber and without content. -/
def «at» (now : Ambience) (fileName : String) (line : UInt32) : Event where
  fileName
  line
  elapsed := now.elapsed
  threadId := now.threadId
  fiberId := 0
  time := now.time
  threadName := now.threadName

def withContent (e : Event) (content : String) : Event :=
  { e with content }

def withThreadName (e : Event) (threadName : String) : Event :=
  { e with threadName }

def withLoggerName (e : Event) (name : String) : Event :=
  { e with loggerName := some name }

def pushContent (e : Event) (text : String) : Event :=
  { e with content := e.content ++ text }

/-- The event's own logger name comes before that of the logger it passes through. -/
def effectiveLogger (e : Event) (passing : String) : String :=
  e.loggerName.getD passing

end Event

end Logline
