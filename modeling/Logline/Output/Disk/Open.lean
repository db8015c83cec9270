import Logline.Output.Disk.Basic
import Logline.Output.Stream

/-!
# Open files

A handle keeps the file its path named when it was opened. Without a position of its own it writes
at the end of the file, wherever that is by then; with one it writes there, over what others wrote.
-/

namespace Logline.Output

inductive Target
  | file (id : FileId)
  | full
  deriving DecidableEq, Repr

structure Handle where
  target : Target
  /-- Where the next write goes; at the end of the file if there is none. -/
  position : Option Nat
  deriving DecidableEq, Repr

def zeroBytes (n : Nat) : ByteArray :=
  ⟨Array.replicate n 0⟩

/-- Bytes written over others from a position on; a gap is filled with zeros. -/
def overwrite (old : ByteArray) (position : Nat) (new : ByteArray) : ByteArray :=
  old.extract 0 position ++ zeroBytes (position - old.size) ++ new ++
    old.extract (position + new.size) old.size

namespace Disk

def openFile (d : Disk) (path : String) (emptied : Bool) : Except Fault Handle × Disk :=
  let position := if emptied then some 0 else none
  match d.place path with
  | .error e => (.error e, d)
  | .ok (.directory _) => (.error (.os .isADirectory), d)
  | .ok (.entry parent name asDirectory) =>
    if asDirectory then (.error (.os .isADirectory), d)
    else
      match d.lookUp parent name with
      | .error e => (.error e, d)
      | .ok (some .directory) => (.error (.os .isADirectory), d)
      | .ok (some .full) => (.ok ⟨.full, position⟩, d)
      | .ok (some (.file id)) =>
        (.ok ⟨.file id, position⟩, if emptied then d.setContent id .empty else d)
      | .ok none =>
        let (id, d) := d.addFile (parent ++ [name])
        (.ok ⟨.file id, position⟩, d)

end Disk

structure OpenFile where
  handle : Handle
  disk : Disk

namespace OpenFile

def write (bytes : ByteArray) (f : OpenFile) : Except Fault Nat × OpenFile :=
  match f.handle.target with
  | .full => (if bytes.size = 0 then .ok 0 else .error (.os .noSpace), f)
  | .file id =>
    let old := f.disk.content id
    match f.handle.position with
    | none => (.ok bytes.size, { f with disk := f.disk.setContent id (old ++ bytes) })
    | some p =>
      (.ok bytes.size,
        { handle := { f.handle with position := some (p + bytes.size) }
          disk := f.disk.setContent id (overwrite old p bytes) })

def flush (f : OpenFile) : Except Fault Unit × OpenFile :=
  (.ok (), f)

instance : Device OpenFile := ⟨write, flush⟩

end OpenFile

end Logline.Output
