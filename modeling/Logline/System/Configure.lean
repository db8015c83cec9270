import Logline.Config.Basic
import Logline.System

/-!
# Configuring a system

All appenders of a configuration are made, in the order of the document, before any logger is
touched; if one of them cannot be made the loggers stay as they were.
-/

namespace Logline.System

open Config

/-- An appender's own pattern comes before its logger's, and both before the standard one. -/
def effectivePattern (shared : Option String) (plan : AppenderPlan) : String :=
  (plan.pattern <|> shared).getD Formatter.standardPattern

/-- Makes an appender. Its pattern is compiled before its file is opened. -/
def makeAppender (s : System) (shared : Option String) (plan : AppenderPlan) :
    Except Error AppenderId × System :=
  match Formatter.ofPattern (effectivePattern shared plan) with
  | .error e => (.error e, s)
  | .ok formatter =>
    let level := plan.level.getD .debug
    match plan.kind, plan.file with
    | .console, _ =>
      let (id, s) := s.addConsoleAppender level formatter
      (.ok id, s)
    | .file, some path => s.addFileAppender path plan.mode level formatter
    | .file, none => (.error (.invalidConfiguration "file appender" "missing 'file' path"), s)

def makeAppenders (s : System) (shared : Option String) :
    List AppenderPlan → Except Error (List AppenderId) × System
  | [] => (.ok [], s)
  | plan :: plans =>
    match s.makeAppender shared plan with
    | (.error e, s) => (.error e, s)
    | (.ok id, s) =>
      match s.makeAppenders shared plans with
      | (.ok ids, s) => (.ok (id :: ids), s)
      | (.error e, s) => (.error e, s)

def prepare (s : System) : List LoggerPlan → Except Error (List (LoggerPlan × List AppenderId)) × System
  | [] => (.ok [], s)
  | plan :: plans =>
    match s.makeAppenders plan.pattern plan.appenders with
    | (.error e, s) => (.error e, s)
    | (.ok ids, s) =>
      match s.prepare plans with
      | (.ok prepared, s) => (.ok ((plan, ids) :: prepared), s)
      | (.error e, s) => (.error e, s)

def install (s : System) (registry : RegistryId) (plan : LoggerPlan) (ids : List AppenderId) : System :=
  match s.get registry plan.name with
  | (some l, s) => s.modifyLogger l fun logger => (logger.setLevel plan.level).set ids
  | (none, s) => s

def configure (s : System) (registry : RegistryId) (config : Config) : Except Error Unit × System :=
  match config.validate with
  | .error e => (.error e, s)
  | .ok () =>
    match s.prepare config.loggers with
    | (.error e, s) => (.error e, s)
    | (.ok prepared, s) => (.ok (), prepared.foldl (fun s (plan, ids) => s.install registry plan ids) s)

end Logline.System
