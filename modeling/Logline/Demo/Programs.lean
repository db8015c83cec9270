import Logline.Describe
import Logline.Output.Disk.Actions
import Logline.System.Configure

/-!
# Demonstration programs

Three programs that show the console with its two thresholds, a configuration with two loggers, and
a file that is moved away while it is written to.
-/

namespace Logline.Demo

open Output

/-- Why a program ends early. -/
inductive Stop
  | failed (e : Error)
  /-- A line that is to be told cannot be written. -/
  | cutShort (f : Fault)

/-- A program runs on a system of its own; what it did until it ends stays. -/
abbrev Program := ExceptT Stop (StateM System)

/-- The thread, the clock and the places of a demonstration; they are masked where they show. -/
def ambience : Ambience where
  elapsed := 0
  threadId := 1
  threadName := "main"
  time := 1700000000

def siteFile : String := "demo.rs"

namespace Program

def act {α : Type} (f : System → α × System) : Program α :=
  fun s =>
    let (x, s) := f s
    (.ok x, s)

def change (f : System → System) : Program Unit :=
  modify f

def orFail {α : Type} : Except Error α → Program α
  | .ok x => pure x
  | .error e => throw (.failed e)

def told {α : Type} (f : System → Except Fault α × System) : Program α := do
  match ← act f with
  | .ok x => pure x
  | .error fault => throw (.cutShort fault)

def onHost {α : Type} (f : Host → α × Host) : System → α × System :=
  fun s =>
    let (x, host) := f s.host
    (x, { s with host })

def line (text : String) : Program Unit :=
  told (onHost (·.onOutlet .stdout (Stream.put (text ++ "\n").toUTF8)))

def log (logger : LoggerId) (level : Level) (content : String) : Program Unit := do
  let _ ← told (·.logWith logger level fun _ => (Event.at ambience siteFile 1).withContent content)

def console (level : Level) (formatter : Formatter) : Program AppenderId :=
  act (·.addConsoleAppender level formatter)

def attach (logger : LoggerId) (appender : AppenderId) : Program Unit :=
  change (·.modifyLogger logger (·.add appender))

def finished : Program Unit :=
  line "\n=== Example completed successfully! ==="

end Program

open Program

def basicUsage : Program Unit := do
  line "=== Rust Pattern Logger - Basic Usage Example ===\n"
  let logger ← act (·.addLogger { name := "root", level := .debug })
  let appender ← console .debug (← orFail (Formatter.ofPattern "%d\x7b%H:%M:%S\x7d [%p] %c %f:%l - %m%n"))
  attach logger appender
  line "1. Logging at different levels:"
  log logger .debug "This is a debug message"
  log logger .info "This is an info message"
  log logger .warn "This is a warning message"
  log logger .error "This is an error message"
  line "\n2. Raising the logger threshold to WARN:"
  change (·.modifyLogger logger (·.setLevel .warn))
  log logger .info "Info message (hidden)"
  log logger .warn "Warning message (visible)"
  line "\n3. Raising the appender threshold to ERROR:"
  change (·.modifyAppender appender (·.setLevel .error))
  log logger .warn "Warning message (hidden by appender)"
  log logger .error "Error message (visible)"
  line "\n4. The default pattern:"
  change (·.modifyAppender appender (·.setFormatter Formatter.standard))
  log logger .error ("Rendered with " ++ Formatter.standardPattern)
  finished

/-- A root logger on the console, and a logger whose errors go to the console and all to a file. -/
def exampleConfig : Config where
  loggers :=
    [{ name := "root", level := .info, appenders := [{ kind := .console }] },
     { name := "system", level := .debug, pattern := some "%d%T[%c]%T%p%T%m%n"
       appenders :=
         [{ kind := .console, level := some .error },
          { kind := .file, file := some "system.log", mode := .truncate }] }]

def configLoading : Program Unit := do
  line "=== Rust Pattern Logger - Configuration Example ===\n"
  let id ← act System.newRegistry
  orFail (← act (·.configure id exampleConfig))
  let names := (((← get).registryAt? id).map Registry.names).getD []
  line ("Configured loggers: [" ++ ", ".intercalate (names.map Text.quoted) ++ "]\n")
  let (some root, some system) := (← act (·.get id "root"), ← act (·.get id "system")) | pure ()
  log root .info "root logger uses the default pattern"
  log system .info "only written to system.log"
  log system .error "written to system.log and the console"
  finished

def rename (path target : String) : Program Unit := do
  match (← get).host.disk.rename path target with
  | .ok disk => change fun s => { s with host := { s.host with disk } }
  | .error fault => throw (.failed (.io fault))

def fileLogging : Program Unit := do
  line "=== Rust Pattern Logger - File Logging Example ===\n"
  let logger ← act (·.addLogger { name := "app", level := .info })
  attach logger (← console .warn (← orFail (Formatter.ofPattern "[%p] %m%n")))
  let file ← orFail (← act (·.addFileAppender "application.log" .append .info Formatter.standard))
  attach logger file
  line "1. Logging to both console (WARN+) and file (INFO+):"
  log logger .info "Application started"
  log logger .info "Configuration loaded successfully"
  log logger .warn "Using default settings for some options"
  line "\n2. Rotating the file by hand and reopening:"
  rename "application.log" "application.log.1"
  if !(← told (·.reopen file)) then
    told (onHost (·.complain "could not reopen application.log"))
  for i in [1, 2, 3] do
    log logger .info ("Processing item " ++ Text.decimal i ++ "/3")
  log logger .warn "All operations completed"
  orFail (← act (·.flush logger))
  finished
  line "Check 'application.log.1' and 'application.log' for the file output"

structure Result where
  exitCode : Nat
  stdout : ByteArray
  stderr : ByteArray

/-- Runs a program as a new process in a directory. An error is told on the error stream, as far as it goes. -/
def Program.run (p : Program Unit) (disk : Disk) : Result × Disk :=
  let (r, s) := ExceptT.run p { host := { disk } }
  let (exitCode, host) :=
    match r with
    | .ok () => (0, s.host)
    | .error (.failed e) => (1, (s.host.complain ("Error: " ++ e.description)).2)
    | .error (.cutShort _) => (101, s.host)
  (⟨exitCode, host.stdout.content, host.stderr.content⟩, host.disk)

end Logline.Demo
