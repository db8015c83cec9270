import Logline.Error
import Logline.Level
import Logline.Text.Blank

/-!
# Configurations

A configuration describes loggers, and for each of them the appenders it is to have. It is sound
when every logger has a name that is not blank and every file appender a path.
-/

namespace Logline

/-- What happens to the content a file has when it is opened. -/
inductive FileMode
  | append
  | truncate
  deriving DecidableEq, Inhabited, Repr

def FileMode.name : FileMode → String
  | append => "append"
  | truncate => "truncate"

namespace Config

inductive AppenderKind
  | console
  | file
  deriving DecidableEq, Repr

def AppenderKind.name : AppenderKind → String
  | console => "console"
  | file => "file"

structure AppenderPlan where
  kind : AppenderKind
  level : Option Level := none
  pattern : Option String := none
  file : Option String := none
  mode : FileMode := .append
  deriving DecidableEq, Repr

structure LoggerPlan where
  name : String
  level : Level := .debug
  /-- The pattern of the appenders that have none of their own. -/
  pattern : Option String := none
  appenders : List AppenderPlan := []
  deriving DecidableEq, Repr

end Config

structure Config where
  loggers : List Config.LoggerPlan := []
  deriving DecidableEq, Repr

namespace Config

def AppenderPlan.lacksFile (a : AppenderPlan) : Bool :=
  a.kind == .file && a.file.isNone

/-- What is wrong with a logger; its name is looked at before its appenders. -/
def LoggerPlan.offence? (l : LoggerPlan) : Option Error :=
  if Text.isBlank l.name then some (.invalidConfiguration "logger" "name must not be empty")
  else if l.appenders.any AppenderPlan.lacksFile then
    some (.invalidConfiguration ("logger '" ++ l.name ++ "'") "file appender requires a 'file' path")
  else none

/-- The first offence in the order of the document. -/
def offence? (c : Config) : Option Error :=
  c.loggers.findSome? LoggerPlan.offence?

def validate (c : Config) : Except Error Unit :=
  match c.offence? with
  | some e => .error e
  | none => .ok ()

end Config

end Logline
