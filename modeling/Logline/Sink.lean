import Logline.Sink.Console
import Logline.Sink.File

/-! # Sinks -/

namespace Logline

open Output

inductive Sink
  | console (c : Sink.Console)
  | file (f : Sink.File)

namespace Sink

def kind : Sink → String
  | console _ => "console"
  | file _ => "file"

/-- Only a file sink can be closed. -/
def isReady : Sink → Bool
  | console _ => true
  | file s => s.isOpen

def write (f : Formatter) (loggerName : String) (level : Level) (e : Event) :
    Sink → Host → Except Fault Unit × Sink × Host
  | console c, h =>
    let (r, h) := c.write f loggerName level e h
    (r, console c, h)
  | file s, h =>
    let (r, s, d) := s.write f loggerName level e h.disk
    (r, file s, { h with disk := d })

def reopen : Sink → Host → Except Fault Bool × Sink × Host
  | console c, h => (.ok true, console c, h)
  | file s, h =>
    let (r, s, h) := s.reopenOrComplain h
    (r, file s, h)

def flush : Sink → Host → Except Fault Unit × Sink × Host
  | console c, h =>
    let (r, h) := c.flush h
    (r, console c, h)
  | file s, h =>
    let (r, s, d) := s.flush h.disk
    (r, file s, { h with disk := d })

end Sink

end Logline
