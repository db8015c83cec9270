import Logline.Formatter
import Logline.Output.Host
import Logline.Sink.Colour

/-!
# Console sinks

A console sink writes an event piece by piece; one with colours writes the whole text at once. It
flushes after every event that was written whole.
-/

namespace Logline.Sink

open Output

structure Console where
  outlet : Outlet := .stdout
  colours : Bool := false
  deriving DecidableEq, Repr

namespace Console

def pieces (c : Console) (ansi : Bool) (f : Formatter) (loggerName : String) (level : Level) (e : Event) :
    List String :=
  if c.colours then
    let text := f.format loggerName level e
    [if ansi then coloured level.colour text else text]
  else f.pieces loggerName level e

def write (c : Console) (f : Formatter) (loggerName : String) (level : Level) (e : Event) (h : Host) :
    Except Fault Unit × Host :=
  h.onOutlet c.outlet (deliver ((c.pieces h.ansi f loggerName level e).map String.toUTF8))

def flush (c : Console) (h : Host) : Except Fault Unit × Host :=
  h.onOutlet c.outlet Stream.flush

end Console

end Logline.Sink
