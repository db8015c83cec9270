import Logline.Config.Reader
import Logline.Describe
import Logline.Output.Disk.Actions
import Logline.Session.Step
import Logline.System.Configure

/-!
# Running a session

Objects are kept under names, a later one in place of an earlier one. After every step the session
reports the outcome and what has been written since the step before.
-/

namespace Logline

open Output

abbrev Session.Table (α : Type) := List (String × α)

def Session.Table.put {α : Type} (t : Session.Table α) (name : String) (x : α) : Session.Table α :=
  (name, x) :: t.filter (·.1 ≠ name)

structure Session where
  system : System := {}
  /-- Writers, by the place of their memory in the host. -/
  writers : Session.Table Nat := []
  sinks : Session.Table Sink.File := []
  formatters : Session.Table Formatter := []
  events : Session.Table Event := []
  metrics : Session.Table Metrics := []
  appenders : Session.Table AppenderId := []
  loggers : Session.Table LoggerId := []
  registries : Session.Table RegistryId := []

namespace Session

/-- A step ends early when an object is missing or an action fails; what was done by then stays. -/
abbrev Action := ExceptT Outcome (StateM Session)

/-- The clock and the thread of events that arise in the session itself. -/
def ambience : Ambience where
  elapsed := 0
  threadId := 1
  threadName := "main"
  time := 1

def find {α : Type} (table : Session → Table α) (name : String) : Action α := do
  match (table (← get)).lookup name with
  | some x => pure x
  | none => throw (.unknown name)

def onSystem {α : Type} (f : System → α × System) : Action α := do
  let s ← get
  let (x, system) := f s.system
  set { s with system }
  pure x

def onHost {α : Type} (f : Host → α × Host) : Action α :=
  onSystem fun s =>
    let (x, host) := f s.host
    (x, { s with host })

def onDisk {α : Type} (f : Disk → α × Disk) : Action α :=
  onHost fun h =>
    let (x, disk) := f h.disk
    (x, { h with disk })

def orFailed {α : Type} : Except Error α → Action α
  | .ok x => pure x
  | .error e => throw (.failed e)

def orFault {α : Type} : Except Fault α → Action α
  | .ok x => pure x
  | .error f => throw (.fault f)

/-- Makes calls in turn, up to the first that is cut short. -/
def inTurn (calls : List (System → Except Fault Unit × System)) : Action Unit := do
  let _ ← calls.mapM fun call => do orFault (← onSystem call)

/-- An action on the disk that changes nothing if it fails. -/
def alter (f : Disk → Except Fault Disk) : Action Outcome := do
  let s ← get
  let disk ← orFault (f s.system.host.disk)
  onDisk fun _ => ((), disk)
  pure .nothing

def findAppender (name : String) : Action (AppenderId × Appender) := do
  let id ← find appenders name
  match (← get).system.appenderAt? id with
  | some a => pure (id, a)
  | none => throw (.unknown name)

def findLogger (name : String) : Action (LoggerId × Logger) := do
  let id ← find loggers name
  match (← get).system.loggerAt? id with
  | some l => pure (id, l)
  | none => throw (.unknown name)

def findRegistry (name : String) : Action (RegistryId × Registry) := do
  let id ← find registries name
  match (← get).system.registryAt? id with
  | some r => pure (id, r)
  | none => throw (.unknown name)

def resolve : EventSource → Action Event
  | .given e => pure e
  | .stored name => find events name

def storeFormatter (name : String) (f : Formatter) : Action Unit :=
  modify fun s => { s with formatters := s.formatters.put name f }

def storeSink (name : String) (f : Sink.File) : Action Unit :=
  modify fun s => { s with sinks := s.sinks.put name f }

def storeEvent (name : String) (e : Event) : Action Outcome := do
  modify fun s => { s with events := s.events.put name e }
  pure (.event e)

def storeAppender (name : String) (id : AppenderId) : Action Outcome := do
  modify fun s => { s with appenders := s.appenders.put name id }
  pure .nothing

def storeLogger (name : String) (id : LoggerId) : Action Unit :=
  modify fun s => { s with loggers := s.loggers.put name id }

def storeRegistry (name : String) (id : RegistryId) : Action Outcome := do
  modify fun s => { s with registries := s.registries.put name id }
  pure .nothing

def changeAppender (name : String) (f : Appender → Appender) : Action Outcome := do
  let (id, _) ← findAppender name
  onSystem fun s => ((), s.modifyAppender id f)
  pure .nothing

def changeLogger (name : String) (f : Logger → Logger) : Action Outcome := do
  let (id, _) ← findLogger name
  onSystem fun s => ((), s.modifyLogger id f)
  pure .nothing

def metricsOf (name : String) : Action Outcome := do
  let (_, l) ← findLogger name
  pure (.allMetrics (((← get).system.appendersOf l).map Appender.metrics))

def tellLogger (name : String) (id : LoggerId) : Action Outcome := do
  storeLogger name id
  let (_, l) ← findLogger name
  pure (.summary l)

def recordTimes (f : Fate) : Nat → Option UInt64 × Metrics → Option UInt64 × Metrics
  | 0, p => p
  | n + 1, (_, m) => recordTimes f n (some (m.count f), m.record f)

def threadEvents (thread count : Nat) : List Event :=
  (List.range count).map fun i =>
    { fileName := "t.rs", line := .ofNat i, elapsed := 0, threadId := .ofNat thread, fiberId := 0, time := 0
      content := Text.decimal thread ++ "-" ++ Text.decimal i }

def newAppender (name : String) (level : Level) (f : Formatter) : SinkSource → Action Outcome
  | .stdout colours => console { outlet := .stdout, colours }
  | .stderr colours => console { outlet := .stderr, colours }
  | .writer writer colours => do
    let i ← find writers writer
    console { outlet := .memory i, colours }
  | .file path mode => do
    let r ← onSystem (·.addFileAppender path mode level f)
    storeAppender name (← orFailed r)
  | .stored sink => do
    let file ← find sinks sink
    modify fun s => { s with sinks := s.sinks.filter (·.1 ≠ sink) }
    let id ← onSystem (·.addAppender (.file file) level f)
    storeAppender name id
where
  console (c : Sink.Console) : Action Outcome := do
    let id ← onSystem (·.addAppender (.console c) level f)
    storeAppender name id

def perform : Step → Action Outcome
  | .writer name limit flushFails => do
    let i ← onHost fun h => (h.memories.size, { h with memories := h.memories.push { limit, flushFails } })
    modify fun s => { s with writers := s.writers.put name i }
    pure .nothing
  | .flushes name => do
    let i ← find writers name
    pure (.count ((← get).system.host.outlet (.memory i)).flushes)
  | .fileSink name path mode isOpened => do
    if isOpened then
      let r ← onDisk (Sink.File.opened path mode)
      storeSink name (← orFailed r)
    else storeSink name { path, mode }
    pure .nothing
  | .sinkInfo name => return .sink (← find sinks name)
  | .sinkReopen name => do
    let file ← find sinks name
    let (r, file) ← onHost fun h =>
      let (r, file, h) := file.reopenOrComplain h
      ((r, file), h)
    storeSink name file
    return .truth (← orFault r)
  | .writeFile path text => do
    let r ← onDisk (·.writeFile path text.toUTF8)
    orFault r
    pure .nothing
  | .fileContent path => return .bytes (← orFault ((← get).system.host.disk.contentOf path))
  | .renameFile path target => alter (·.rename path target)
  | .removeFile path => alter (·.removeFile path)
  | .makeDirectory path => alter (·.makeDirectory path)
  | .formatter name none => do
    storeFormatter name Formatter.standard
    pure .nothing
  | .formatter name (some pattern) => do
    storeFormatter name (← orFailed (Formatter.ofPattern pattern))
    pure .nothing
  | .resetFormatter name pattern => do
    let (r, f) := (← find formatters name).reset pattern
    storeFormatter name f
    orFailed r
    pure .nothing
  | .formatterInfo name => return .formatter (← find formatters name)
  | .formatterEqual a b => return .truth ((← find formatters a) = (← find formatters b))
  | .format name logger level e => do
    let f ← find formatters name
    return .text (f.format logger level (← resolve e))
  | .formatTo name writer logger level e => do
    let f ← find formatters name
    let i ← find writers writer
    let e ← resolve e
    let r ← onHost (·.onOutlet (.memory i) (putAll ((f.pieces logger level e).map String.toUTF8)))
    orFault r
    pure .nothing
  | .event name e => do
    let _ ← storeEvent name (← resolve e)
    pure .nothing
  | .pushContent name text => do storeEvent name ((← find events name).pushContent text)
  | .withFields name content threadName loggerName => do
    let e ← find events name
    let e := content.elim e e.withContent
    let e := threadName.elim e e.withThreadName
    let e := loggerName.elim e e.withLoggerName
    storeEvent name e
  | .eventInfo name => return .event (← find events name)
  | .eventEqual a b => return .truth ((← find events a) = (← find events b))
  | .here file line => return .here (Event.at ambience file line) (Event.at ambience file line)
  | .metrics name records => do
    let m := ((← get).metrics.lookup name).getD {}
    let (previous, m) := records.foldl (fun p (f, n) => recordTimes f n p) (none, m)
    modify fun s => { s with metrics := s.metrics.put name m }
    pure (.recorded previous m)
  | .appender name level formatter sink => do
    let f ← match formatter with
      | .standard => pure Formatter.standard
      | .pattern text => orFailed (Formatter.ofPattern text)
      | .stored stored => find formatters stored
    newAppender name level f sink
  | .appenderInfo name => return .appender (← findAppender name).2
  | .appenderDescription name => return .text (← findAppender name).2.description
  | .appenderLog name logger level e times => do
    let (id, _) ← findAppender name
    let e ← resolve e
    inTurn (List.replicate times (·.deliver logger level e id))
    return .metrics (← findAppender name).2.metrics
  | .appenderLevel name level => changeAppender name (·.setLevel level)
  | .appenderPattern name pattern => do
    let (id, _) ← findAppender name
    orFailed (← onSystem (·.setPattern id pattern))
    pure .nothing
  | .appenderFormatter name formatter => do
    let f ← find formatters formatter
    changeAppender name (·.setFormatter f)
  | .appenderReopen name => do
    let (id, _) ← findAppender name
    return .truth (← orFault (← onSystem (·.reopen id)))
  | .appenderFlush name => do
    let (id, _) ← findAppender name
    orFailed (← onSystem (·.flushAppender id))
    pure .nothing
  | .logger name loggerName level => do
    let l : Logger :=
      match loggerName with
      | some n => { name := n, level := level.getD .debug }
      | none => { name := Registry.rootName }
    storeLogger name (← onSystem (·.addLogger l))
    pure .nothing
  | .buildLogger name loggerName level as => do
    let ids ← as.mapM (find appenders)
    storeLogger name (← onSystem (·.addLogger (Logger.build loggerName (level.getD .debug) ids)))
    pure .nothing
  | .loggerInfo name => do
    let (_, l) ← findLogger name
    return .logger l ((← get).system.appendersOf l)
  | .loggerDescription name => return .text (← findLogger name).2.description
  | .add name appender => do
    let id ← find appenders appender
    changeLogger name (·.add id)
  | .remove name appender => do
    let id ← find appenders appender
    changeLogger name (·.remove id)
  | .clear name => changeLogger name Logger.clear
  | .setAppenders name as => do
    let ids ← as.mapM (find appenders)
    changeLogger name (·.set ids)
  | .loggerLevel name level => changeLogger name (·.setLevel level)
  | .loggerFlush name => do
    let (id, _) ← findLogger name
    orFailed (← onSystem (·.flush id))
    pure .nothing
  | .log name level e times => do
    let (id, _) ← findLogger name
    let e ← resolve e
    inTurn (List.replicate times (·.log id level e))
    metricsOf name
  | .logHere name level content => do
    let (id, _) ← findLogger name
    let made ← orFault (← onSystem (·.logWith id level fun _ => (Event.at ambience "" 0).withContent content))
    pure (.contents (if made then 1 else 0))
  | .concurrent name level threads each => do
    let (id, _) ← findLogger name
    inTurn (((List.range threads).flatMap (threadEvents · each)).map fun e => (·.log id level e))
    metricsOf name
  | .grab name logger index => do
    let (_, l) ← findLogger logger
    match l.appenders[index]? with
    | some id => storeAppender name id
    | none => throw (.unknown logger)
  | .same a b => return .truth ((← find loggers a) = (← find loggers b))
  | .registry name none => do storeRegistry name (← onSystem System.newRegistry)
  | .registry name (some root) => do
    let root ← find loggers root
    storeRegistry name (← onSystem (·.addRegistry { root }))
  | .get registry loggerName name => do
    let (id, _) ← findRegistry registry
    match ← onSystem (·.get id loggerName) with
    | some l => tellLogger name l
    | none => throw (.unknown registry)
  | .lookup registry loggerName name => do
    let (_, r) ← findRegistry registry
    match r.lookup loggerName with
    | some l => tellLogger name l
    | none => pure .nothing
  | .root registry name => do tellLogger name (← findRegistry registry).2.root
  | .names registry => return .texts (← findRegistry registry).2.names
  | .configure registry source => do
    let (id, _) ← findRegistry registry
    let config ← orFailed <|
      match source with
      | .document text => Config.read text
      | .value v => (Config.ofValue v).mapError .json
    orFailed (← onSystem (·.configure id config))
    pure .nothing

/-! ## Reports -/

structure Report where
  outcome : Outcome
  written : List (String × ByteArray)
  stdout : ByteArray
  stderr : ByteArray

def news (before after : Memory) : ByteArray :=
  after.content.extract before.content.size after.content.size

def splitLines : List UInt8 → List (List UInt8)
  | [] => []
  | b :: bs =>
    if b = 10 then [b] :: splitLines bs
    else
      match splitLines bs with
      | [] => [[b]]
      | l :: ls => (b :: l) :: ls

/-- The lines of some bytes in the order of their bytes. -/
def sortLines (bytes : ByteArray) : ByteArray :=
  ⟨((splitLines bytes.data.toList).mergeSort fun a b => decide (a ≤ b)).flatten.toArray⟩

/-- The order in which threads come is not told. -/
def Step.isOrdered : Step → Bool
  | .concurrent .. => false
  | _ => true

def step (s : Session) (st : Step) : Report × Session :=
  let (r, s') := (perform st).run s
  let outcome :=
    match r with
    | .ok o => o
    | .error o => o
  let before := s.system.host
  let after := s'.system.host
  let arrange := if st.isOrdered then id else sortLines
  let written := s'.writers.map fun (name, i) =>
    (name, arrange (news (before.outlet (.memory i)) (after.outlet (.memory i))))
  ({ outcome, written, stdout := news before.stdout after.stdout, stderr := news before.stderr after.stderr }, s')

def steps (s : Session) : List Step → List Report × Session
  | [] => ([], s)
  | st :: sts =>
    let (r, s) := s.step st
    let (rs, s) := s.steps sts
    (r :: rs, s)

def finish (s : Session) : Disk :=
  let stored := s.sinks.map Prod.snd
  let attached := s.system.appenders.toList.filterMap fun a =>
    match a.sink with
    | .file f => some f
    | .console _ => none
  (stored ++ attached).foldl (fun d f => (f.close d).2) s.system.host.disk

/-- Runs a script in an empty directory. -/
def run (script : List Step) (ansi : Bool) : List Report × Disk :=
  let (reports, s) := ({ system := { host := { ansi } } } : Session).steps script
  (reports, s.finish)

end Session

end Logline
