import Logline.Registry

/-!
# A logging system

All appenders, loggers and registries that a program has made, with the host they write to. Loggers
refer to appenders and registries to loggers, so both can be shared.
-/

namespace Logline

open Output

structure RegistryId where
  index : Nat
  deriving DecidableEq, Repr

structure System where
  host : Host := {}
  appenders : Array Appender := #[]
  loggers : Array Logger := #[]
  registries : Array Registry := #[]

namespace System

/-! ## Appenders -/

def appenderAt? (s : System) (id : AppenderId) : Option Appender :=
  s.appenders[id.index]?

def setAppender (s : System) (id : AppenderId) (a : Appender) : System :=
  { s with appenders := s.appenders.set! id.index a }

def addAppender (s : System) (sink : Sink) (level : Level) (formatter : Formatter) : AppenderId × System :=
  let id : AppenderId := ⟨s.appenders.size⟩
  (id, { s with appenders := s.appenders.push { id, level, formatter, sink } })

def addConsoleAppender (s : System) (level : Level) (formatter : Formatter) : AppenderId × System :=
  s.addAppender (.console {}) level formatter

/-- An appender on a file that can be opened. -/
def addFileAppender (s : System) (path : String) (mode : FileMode) (level : Level) (formatter : Formatter) :
    Except Error AppenderId × System :=
  match Sink.File.opened path mode s.host.disk with
  | (.ok file, disk) =>
    let (id, s) := { s with host := { s.host with disk } }.addAppender (.file file) level formatter
    (.ok id, s)
  | (.error e, disk) => (.error e, { s with host := { s.host with disk } })

def modifyAppender (s : System) (id : AppenderId) (f : Appender → Appender) : System :=
  { s with appenders := s.appenders.modify id.index f }

def setPattern (s : System) (id : AppenderId) (pattern : String) : Except Error Unit × System :=
  match s.appenderAt? id with
  | some a =>
    let (r, a) := a.setPattern pattern
    (r, s.setAppender id a)
  | none => (.ok (), s)

def deliver (s : System) (loggerName : String) (level : Level) (e : Event) (id : AppenderId) :
    Except Fault Unit × System :=
  match s.appenderAt? id with
  | some a =>
    let (r, a, host) := a.log loggerName level e s.host
    (r, { s.setAppender id a with host })
  | none => (.ok (), s)

/-- Hands an event to appenders in order, up to the first whose call is cut short. -/
def deliverAll (s : System) (loggerName : String) (level : Level) (e : Event) :
    List AppenderId → Except Fault Unit × System
  | [] => (.ok (), s)
  | id :: ids =>
    match s.deliver loggerName level e id with
    | (.ok (), s) => s.deliverAll loggerName level e ids
    | (.error fault, s) => (.error fault, s)

def reopen (s : System) (id : AppenderId) : Except Fault Bool × System :=
  match s.appenderAt? id with
  | some a =>
    let (r, a, host) := a.reopen s.host
    (r, { s.setAppender id a with host })
  | none => (.ok false, s)

def flushAppender (s : System) (id : AppenderId) : Except Error Unit × System :=
  match s.appenderAt? id with
  | some a =>
    let (r, a, host) := a.flush s.host
    (r, { s.setAppender id a with host })
  | none => (.ok (), s)

/-! ## Loggers -/

def loggerAt? (s : System) (id : LoggerId) : Option Logger :=
  s.loggers[id.index]?

def addLogger (s : System) (l : Logger) : LoggerId × System :=
  (⟨s.loggers.size⟩, { s with loggers := s.loggers.push l })

def modifyLogger (s : System) (id : LoggerId) (f : Logger → Logger) : System :=
  { s with loggers := s.loggers.modify id.index f }

def appendersOf (s : System) (l : Logger) : List Appender :=
  l.appenders.filterMap s.appenderAt?

/-- An event at or above the logger's threshold goes to each of its appenders. A call that one of them cuts
short is over; what was done by then stays. -/
def log (s : System) (id : LoggerId) (level : Level) (e : Event) : Except Fault Unit × System :=
  match s.loggerAt? id with
  | some l => if l.enabled level then s.deliverAll l.name level e l.appenders else (.ok (), s)
  | none => (.ok (), s)

/-- Logs an event that is made only if the logger wants it; it bears the logger's name. Whether it was
made is told. -/
def logWith (s : System) (id : LoggerId) (level : Level) (e : Unit → Event) : Except Fault Bool × System :=
  match s.loggerAt? id with
  | some l =>
    if l.enabled level then
      let (r, s) := s.log id level ((e ()).withLoggerName l.name)
      (r.map fun () => true, s)
    else (.ok false, s)
  | none => (.ok false, s)

/-- Flushes appenders in order, up to the first that fails. -/
def flushAll (s : System) : List AppenderId → Except Error Unit × System
  | [] => (.ok (), s)
  | id :: ids =>
    match s.flushAppender id with
    | (.ok (), s) => s.flushAll ids
    | (.error e, s) => (.error e, s)

def flush (s : System) (id : LoggerId) : Except Error Unit × System :=
  match s.loggerAt? id with
  | some l => s.flushAll l.appenders
  | none => (.ok (), s)

/-! ## Registries -/

def registryAt? (s : System) (id : RegistryId) : Option Registry :=
  s.registries[id.index]?

def addRegistry (s : System) (r : Registry) : RegistryId × System :=
  (⟨s.registries.size⟩, { s with registries := s.registries.push r })

/-- A registry whose root logger writes everything to standard output. -/
def newRegistry (s : System) : RegistryId × System :=
  let (a, s) := s.addConsoleAppender .debug Formatter.standard
  let (root, s) := s.addLogger (({ name := Registry.rootName } : Logger).add a)
  s.addRegistry { root }

/-- The logger of a name. One that is not known yet is made with the threshold the root has now. -/
def get (s : System) (id : RegistryId) (name : String) : Option LoggerId × System :=
  match s.registryAt? id with
  | none => (none, s)
  | some r =>
    match r.lookup name with
    | some l => (some l, s)
    | none =>
      let level := ((s.loggerAt? r.root).map Logger.level).getD .debug
      let (l, s) := s.addLogger { name, level }
      (some l, { s with registries := s.registries.set! id.index (r.insert name l) })

end System

end Logline
