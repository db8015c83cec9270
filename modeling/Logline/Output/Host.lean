import Logline.Output.Disk.Open
import Logline.Output.Memory

/-!
# The host

Everything appenders write to: the disk, the two standard streams and any number of memories. The
switch for colours holds for all of them.
-/

namespace Logline.Output

inductive Outlet
  | stdout
  | stderr
  | memory (index : Nat)
  deriving DecidableEq, Repr

structure Host where
  disk : Disk := {}
  stdout : Memory := {}
  stderr : Memory := {}
  memories : Array Memory := #[]
  ansi : Bool := true

namespace Host

def outlet (h : Host) : Outlet → Memory
  | .stdout => h.stdout
  | .stderr => h.stderr
  | .memory i => h.memories[i]?.getD {}

def setOutlet (h : Host) (o : Outlet) (m : Memory) : Host :=
  match o with
  | .stdout => { h with stdout := m }
  | .stderr => { h with stderr := m }
  | .memory i => { h with memories := h.memories.set! i m }

def onOutlet {α : Type} (h : Host) (o : Outlet) (action : Memory → α × Memory) : α × Host :=
  let (r, m) := action (h.outlet o)
  (r, h.setOutlet o m)

/-- Writes a line of the program's own on the error stream. A line that does not go through whole cuts short
the call that has it written. -/
def complain (h : Host) (line : String) : Except Fault Unit × Host :=
  h.onOutlet .stderr (Stream.put (line ++ "\n").toUTF8)

end Host

end Logline.Output
