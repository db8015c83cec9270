import Logline.Json.Value
import Logline.System

/-!
# Steps of a session

A session is a script over a logging system. Its steps make objects under names, act on them, and
act on the disk from outside; each has an outcome.
-/

namespace Logline.Session

inductive FormatterSource
  | standard
  | pattern (text : String)
  | stored (name : String)

inductive SinkSource
  | stdout (colours : Bool)
  | stderr (colours : Bool)
  | writer (name : String) (colours : Bool)
  | file (path : String) (mode : FileMode)
  | stored (name : String)

inductive EventSource
  | given (e : Event)
  | stored (name : String)

/-- A configuration comes as a document, which must be sound, or as a value. -/
inductive ConfigSource
  | document (text : String)
  | value (v : Json.Value)

inductive Step
  | writer (name : String) (limit : Option Nat) (flushFails : Bool)
  | flushes (name : String)
  | fileSink (name path : String) (mode : FileMode) (opened : Bool)
  | sinkInfo (name : String)
  | sinkReopen (name : String)
  | writeFile (path text : String)
  | fileContent (path : String)
  | renameFile (path target : String)
  | removeFile (path : String)
  | makeDirectory (path : String)
  | formatter (name : String) (pattern : Option String)
  | resetFormatter (name pattern : String)
  | formatterInfo (name : String)
  | formatterEqual (a b : String)
  | format (name logger : String) (level : Level) (e : EventSource)
  | formatTo (name writer logger : String) (level : Level) (e : EventSource)
  | event (name : String) (e : EventSource)
  | pushContent (name text : String)
  | withFields (name : String) (content threadName loggerName : Option String)
  | eventInfo (name : String)
  | eventEqual (a b : String)
  | here (file : String) (line : UInt32)
  | metrics (name : String) (records : List (Fate × Nat))
  | appender (name : String) (level : Level) (formatter : FormatterSource) (sink : SinkSource)
  | appenderInfo (name : String)
  | appenderDescription (name : String)
  | appenderLog (name logger : String) (level : Level) (e : EventSource) (times : Nat)
  | appenderLevel (name : String) (level : Level)
  | appenderPattern (name pattern : String)
  | appenderFormatter (name formatter : String)
  | appenderReopen (name : String)
  | appenderFlush (name : String)
  | logger (name : String) (loggerName : Option String) (level : Option Level)
  | buildLogger (name loggerName : String) (level : Option Level) (appenders : List String)
  | loggerInfo (name : String)
  | loggerDescription (name : String)
  | add (name appender : String)
  | remove (name appender : String)
  | clear (name : String)
  | setAppenders (name : String) (appenders : List String)
  | loggerLevel (name : String) (level : Level)
  | loggerFlush (name : String)
  | log (name : String) (level : Level) (e : EventSource) (times : Nat)
  | logHere (name : String) (level : Level) (content : String)
  | concurrent (name : String) (level : Level) (threads each : Nat)
  | grab (name logger : String) (index : Nat)
  | same (a b : String)
  | registry (name : String) (root : Option String)
  | get (registry loggerName name : String)
  | lookup (registry loggerName name : String)
  | root (registry name : String)
  | names (registry : String)
  | configure (registry : String) (config : ConfigSource)

inductive Outcome
  | nothing
  | truth (b : Bool)
  | count (n : Nat)
  | text (s : String)
  | bytes (b : ByteArray)
  | texts (l : List String)
  | sink (s : Sink.File)
  | formatter (f : Formatter)
  | event (e : Event)
  /-- Two events made one after the other at one place. -/
  | here (first second : Event)
  | metrics (m : Metrics)
  /-- Metrics after some records, and the count before the last of them. -/
  | recorded (previous : Option UInt64) (m : Metrics)
  | appender (a : Appender)
  | allMetrics (ms : List Metrics)
  | logger (l : Logger) (appenders : List Appender)
  | summary (l : Logger)
  /-- How many times the content of an event was made. -/
  | contents (n : Nat)
  | failed (e : Error)
  | fault (f : Output.Fault)
  | unknown (name : String)

end Logline.Session
