import Logline.Error
import Logline.Logger
import Logline.Text.Quoted

/-!
# Descriptions

One-line descriptions of appenders, loggers and errors for those who look into a running program.
-/

namespace Logline

/-- A word with named parts in braces. -/
def described (word : String) (parts : List (String × String)) : String :=
  word ++ " \x7b " ++ ", ".intercalate (parts.map fun (name, text) => name ++ ": " ++ text) ++ " \x7d"

def Level.description : Level → String
  | debug => "Debug"
  | info => "Info"
  | warn => "Warn"
  | error => "Error"
  | fatal => "Fatal"

def FileMode.description : FileMode → String
  | append => "Append"
  | truncate => "Truncate"

namespace Sink

def Console.description (c : Console) : String :=
  let target :=
    match c.outlet with
    | .stdout => "stdout"
    | .stderr => "stderr"
    | .memory _ => "writer"
  described "ConsoleSink"
    [("target", Text.quoted target), ("use_colors", if c.colours then "true" else "false")]

def File.description (f : File) : String :=
  described "FileSink"
    [("path", Text.quoted f.path), ("mode", f.mode.description),
     ("writer", if f.isOpen then "Some(..)" else "None")]

def description : Sink → String
  | console c => "Console(" ++ c.description ++ ")"
  | file f => "File(" ++ f.description ++ ")"

end Sink

def Appender.description (a : Appender) : String :=
  described "Appender"
    [("id", "AppenderId(" ++ Text.decimal a.id.number ++ ")"), ("level", a.level.description),
     ("pattern", Text.quoted a.formatter.pattern), ("sink", a.sink.description)]

def Logger.description (l : Logger) : String :=
  described "Logger"
    [("name", Text.quoted l.name), ("level", l.level.description),
     ("appenders", Text.decimal l.appenders.length)]

def Output.Fault.description (f : Output.Fault) : String :=
  match f with
  | .os e =>
    described "Os" [("code", Text.decimal e.code), ("kind", e.kind), ("message", Text.quoted e.text)]
  | .nulInPath | .writeZero => described "Error" [("kind", f.kind), ("message", Text.quoted f.message)]
  | .gone | .other _ => described "Custom" [("kind", f.kind), ("error", Text.quoted f.message)]

def Error.description : Error → String
  | patternSyntax pattern position message =>
    described "PatternSyntax"
      [("pattern", Text.quoted pattern), ("position", Text.decimal position), ("message", Text.quoted message)]
  | ioOperation operation message cause =>
    described "IoOperation"
      [("operation", Text.quoted operation), ("message", Text.quoted message), ("source", cause.description)]
  | io cause => "IoError(" ++ cause.description ++ ")"
  | json fault => "JsonError(" ++ Text.quoted fault.message ++ ")"
  | invalidConfiguration component message =>
    described "InvalidConfiguration" [("component", Text.quoted component), ("message", Text.quoted message)]
  | fileAppender path message =>
    described "FileAppenderError" [("path", Text.quoted path), ("message", Text.quoted message)]

end Logline
