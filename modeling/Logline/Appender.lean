import Logline.Metrics
import Logline.Sink

/-!
# Appenders

An appender lets events at or above its threshold through to its sink. Every event is counted by what
became of it, and of the failures the first and every thousandth are told on the error stream. A call
returns to the one who logs unless what is to be told cannot be written there.
-/

namespace Logline

open Output

/-- Appenders are told apart by the order in which they were made. -/
structure AppenderId where
  index : Nat
  deriving DecidableEq, Repr

/-- The first appender has number 1. -/
def AppenderId.number (id : AppenderId) : Nat := id.index + 1

structure Appender where
  id : AppenderId
  level : Level
  formatter : Formatter
  sink : Sink
  metrics : Metrics := {}

namespace Appender

def label (a : Appender) : String :=
  "#" ++ Text.decimal a.id.number ++ " (" ++ a.sink.kind ++ ")"

/-- Whether a failure is told, given how many events were lost before it. -/
def isReported (before : UInt64) : Bool :=
  before == 0 || (before + 1) % 1000 == 0

def record (a : Appender) (f : Fate) : Appender :=
  { a with metrics := a.metrics.record f }

/-- What is said of a failed write. -/
def complaint (a : Appender) (fault : Fault) : String :=
  "[LOGGER ERROR] Appender " ++ a.label ++ " failed to write: " ++ fault.message

/-- Tells of a failed write, if it is one to be told. -/
def report (a : Appender) (fault : Fault) (h : Host) : Except Fault Unit × Host :=
  if isReported a.metrics.dropped then h.complain (a.complaint fault) else (.ok (), h)

/-- The event is counted also by a call that is cut short. -/
def log (a : Appender) (loggerName : String) (level : Level) (e : Event) (h : Host) :
    Except Fault Unit × Appender × Host :=
  if level < a.level then (.ok (), a.record .filtered, h)
  else if a.sink.isReady then
    match a.sink.write a.formatter loggerName level e h with
    | (.ok (), sink, h) => (.ok (), { a with sink }.record .written, h)
    | (.error fault, sink, h) =>
      let (r, h) := a.report fault h
      (r, { a with sink }.record .dropped, h)
  else (.ok (), a.record .dropped, h)

def setLevel (a : Appender) (level : Level) : Appender :=
  { a with level }

def setFormatter (a : Appender) (formatter : Formatter) : Appender :=
  { a with formatter }

/-- Takes another pattern; one that does not compile changes nothing. -/
def setPattern (a : Appender) (pattern : String) : Except Error Unit × Appender :=
  let (r, formatter) := a.formatter.reset pattern
  (r, { a with formatter })

def reopen (a : Appender) (h : Host) : Except Fault Bool × Appender × Host :=
  let (r, sink, h) := a.sink.reopen h
  (r, { a with sink }, h)

def flush (a : Appender) (h : Host) : Except Error Unit × Appender × Host :=
  let (r, sink, h) := a.sink.flush h
  let r :=
    match r with
    | .ok () => .ok ()
    | .error fault => .error (.ioOperation "flushing log sink" ("appender " ++ a.label) fault)
  (r, { a with sink }, h)

end Appender

end Logline
