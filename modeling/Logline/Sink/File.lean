import Logline.Config.Basic
import Logline.Formatter
import Logline.Output.Buffered
import Logline.Output.Host

/-!
# File sinks

A file sink has a path and, while it is open, a handle with a buffer in front of it. The buffer is
flushed at the end of every event.
-/

namespace Logline.Sink

open Output

/-- An open file with what is still to be written to it. -/
structure FileWriter where
  handle : Handle
  pending : ByteArray := .empty

structure File where
  path : String
  mode : FileMode
  writer : Option FileWriter := none

namespace FileWriter

/-- Runs an action on the buffer and takes handle, buffer and disk from its outcome. -/
def onDisk {α : Type} (w : FileWriter) (d : Disk) (action : Buffered OpenFile → α × Buffered OpenFile) :
    α × FileWriter × Disk :=
  let (r, b) := action ⟨⟨w.handle, d⟩, w.pending⟩
  (r, ⟨b.device.handle, b.pending⟩, b.device.disk)

end FileWriter

namespace File

def isOpen (s : File) : Bool :=
  s.writer.isSome

/-- Runs an action on the buffer of an open sink; a closed one has nothing to do. -/
def onWriter (s : File) (d : Disk)
    (action : Buffered OpenFile → Except Fault Unit × Buffered OpenFile) : Except Fault Unit × File × Disk :=
  match s.writer with
  | none => (.ok (), s, d)
  | some w =>
    let (r, w, d) := w.onDisk d action
    (r, { s with writer := some w }, d)

def flush (s : File) (d : Disk) : Except Fault Unit × File × Disk :=
  s.onWriter d Stream.flush

def write (s : File) (f : Formatter) (loggerName : String) (level : Level) (e : Event) (d : Disk) :
    Except Fault Unit × File × Disk :=
  s.onWriter d (deliver ((f.pieces loggerName level e).map String.toUTF8))

/-- Flushes as far as possible and gives the handle up. -/
def close (s : File) (d : Disk) : File × Disk :=
  let (_, s, d) := s.flush d
  ({ s with writer := none }, d)

/-- Closes the sink and opens its path again, which may by then name another file. -/
def reopen (s : File) (d : Disk) : Except Fault Unit × File × Disk :=
  let (s, d) := s.close d
  match d.openFile s.path (s.mode == .truncate) with
  | (.ok handle, d) => (.ok (), { s with writer := some ⟨handle, .empty⟩ }, d)
  | (.error e, d) => (.error e, s, d)

def opened (path : String) (mode : FileMode) (d : Disk) : Except Error File × Disk :=
  match ({ path, mode } : File).reopen d with
  | (.ok (), s, d) => (.ok s, d)
  | (.error e, _, d) => (.error (.fileAppender path e.message), d)

/-- What is said of a path that cannot be opened again. -/
def warning (s : File) (e : Fault) : String :=
  "[LOGGER WARNING] Failed to reopen log file '" ++ s.path ++ "': " ++ e.message

/-- Opens the path again, and tells whether it could. A failure leaves the sink closed and is told on the error
stream; the call is cut short if it cannot be told there. -/
def reopenOrComplain (s : File) (h : Host) : Except Fault Bool × File × Host :=
  let (r, s, d) := s.reopen h.disk
  let h := { h with disk := d }
  match r with
  | .ok () => (.ok true, s, h)
  | .error e =>
    let (r, h) := h.complain (s.warning e)
    (r.map fun _ => false, s, h)

end File

end Logline.Sink
