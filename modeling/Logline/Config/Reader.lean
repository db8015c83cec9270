import Logline.Config.Basic
import Logline.Json.Kind

/-!
# Reading configurations

The fields of each record, with what is taken where one is missing, and the names of the variants.
-/

namespace Logline

/-- The names of levels in documents; upper and lower case, but no mixture. -/
def Level.documentNames : List (String × Level) :=
  [("DEBUG", debug), ("debug", debug), ("INFO", info), ("info", info), ("WARN", warn), ("WARNING", warn),
   ("warn", warn), ("warning", warn), ("ERROR", error), ("error", error), ("FATAL", fatal), ("fatal", fatal)]

def Level.kind : Json.Kind Level :=
  .variant documentNames

def FileMode.kind : Json.Kind FileMode :=
  .variant [("append", append), ("truncate", truncate)]

namespace Config

open Json

def AppenderKind.kind : Kind AppenderKind :=
  .variant [("console", console), ("file", file)]

def text : Kind String := .string "a string"

/-- What is read of an appender so far; a field that is null has been read. -/
structure AppenderDraft where
  kind : Option AppenderKind := none
  level : Option (Option Level) := none
  pattern : Option (Option String) := none
  file : Option (Option String) := none
  mode : Option FileMode := none

def appenderShape : Shape AppenderDraft AppenderPlan where
  title := "struct AppenderDefine"
  empty := {}
  fields :=
    [{ name := "type", isRequired := true, isSet := (·.kind.isSome)
       kind := fun d => (fun x => { d with kind := some x }) <$> AppenderKind.kind },
     { name := "level", isRequired := false, isSet := (·.level.isSome)
       kind := fun d => (fun x => { d with level := some x }) <$> .optional Level.kind },
     { name := "formatter", isRequired := false, isSet := (·.pattern.isSome)
       kind := fun d => (fun x => { d with pattern := some x }) <$> .optional text },
     { name := "file", isRequired := false, isSet := (·.file.isSome)
       kind := fun d => (fun x => { d with file := some x }) <$> .optional (.string "path string") },
     { name := "mode", isRequired := false, isSet := (·.mode.isSome)
       kind := fun d => (fun x => { d with mode := some x }) <$> FileMode.kind }]
  complete := fun d =>
    match d.kind with
    | none => .error (.missingField "type")
    | some kind =>
      .ok { kind, level := d.level.getD none, pattern := d.pattern.getD none, file := d.file.getD none
            mode := d.mode.getD .append }

structure LoggerDraft where
  name : Option String := none
  level : Option Level := none
  pattern : Option (Option String) := none
  appenders : Option (List AppenderPlan) := none

def loggerShape : Shape LoggerDraft LoggerPlan where
  title := "struct LoggerDefine"
  empty := {}
  fields :=
    [{ name := "name", isRequired := true, isSet := (·.name.isSome)
       kind := fun d => (fun x => { d with name := some x }) <$> text },
     { name := "level", isRequired := false, isSet := (·.level.isSome)
       kind := fun d => (fun x => { d with level := some x }) <$> Level.kind },
     { name := "formatter", isRequired := false, isSet := (·.pattern.isSome)
       kind := fun d => (fun x => { d with pattern := some x }) <$> .optional text },
     { name := "appenders", isRequired := false, isSet := (·.appenders.isSome)
       kind := fun d => (fun x => { d with appenders := some x }) <$> .sequence (.record appenderShape) }]
  complete := fun d =>
    match d.name with
    | none => .error (.missingField "name")
    | some name =>
      .ok { name, level := d.level.getD .debug, pattern := d.pattern.getD none
            appenders := d.appenders.getD [] }

structure Draft where
  loggers : Option (List LoggerPlan) := none

def shape : Shape Draft Config where
  title := "struct LoggingConfig"
  empty := {}
  fields :=
    [{ name := "loggers", isRequired := false, isSet := (·.loggers.isSome)
       kind := fun _ => (fun x => ⟨some x⟩) <$> .sequence (.record loggerShape) }]
  complete := fun d => .ok ⟨d.loggers.getD []⟩

def kind : Kind Config := .record shape

/-- Reads a configuration, sound or not. -/
def parse (text : String) : Except Json.Fault Config :=
  kind.read.run text

/-- Takes a configuration, sound or not, from a value. -/
def ofValue (v : Value) : Except Json.Fault Config :=
  kind.ofValue v

def read (text : String) : Except Error Config :=
  match parse text with
  | .error f => .error (.json f)
  | .ok c =>
    match c.validate with
    | .ok _ => .ok c
    | .error e => .error e

end Config

end Logline
