import Logline.Output.Stream

/-!
# Memory

A device that keeps what is written to it. It may have room for a fixed number of bytes only, and
its flush may always fail.
-/

namespace Logline.Output

structure Memory where
  content : ByteArray := .empty
  /-- How many bytes it takes in all. -/
  limit : Option Nat := none
  flushFails : Bool := false
  flushes : Nat := 0

namespace Memory

/-- How many of `n` bytes there is room for. -/
def room (m : Memory) (n : Nat) : Nat :=
  match m.limit with
  | none => n
  | some l => min n (l - m.content.size)

/-- A write that does not fit is cut short; once nothing fits it fails. -/
def write (bytes : ByteArray) (m : Memory) : Except Fault Nat × Memory :=
  let n := m.room bytes.size
  if n = 0 ∧ bytes.size ≠ 0 then (.error .gone, m)
  else (.ok n, { m with content := m.content ++ bytes.extract 0 n })

def flush (m : Memory) : Except Fault Unit × Memory :=
  (if m.flushFails then .error .gone else .ok (), { m with flushes := m.flushes + 1 })

instance : Device Memory := ⟨write, flush⟩

end Memory

end Logline.Output
