import Logline.Output.Stream

/-!
# Block buffers

A stream that gathers pieces and passes them to a device in blocks. A piece that does not fit into
what is left of the block lets the gathered bytes go first; a piece of a block or more goes straight
to the device. What the device refuses stays in the buffer.
-/

namespace Logline.Output

structure Buffered (δ : Type) where
  device : δ
  pending : ByteArray := .empty

namespace Buffered

def capacity : Nat := 8192

section
variable {δ : Type} [Device δ]

/-- Passes gathered bytes on until all are taken. -/
def drain (pending : ByteArray) (d : δ) : Except Fault Unit × Buffered δ :=
  if pending.size = 0 then (.ok (), ⟨d, pending⟩)
  else
    match Device.write pending d with
    | (.error e, d) => (.error e, ⟨d, pending⟩)
    | (.ok n, d) =>
      if n = 0 then (.error .writeZero, ⟨d, pending⟩)
      else drain (pending.extract n pending.size) d
termination_by pending.size
decreasing_by simp only [ByteArray.size_extract]; omega

def take (piece : ByteArray) (b : Buffered δ) : Except Fault Unit × Buffered δ :=
  if capacity ≤ piece.size then
    let (r, d) := Device.writeAll piece b.device
    (r, { b with device := d })
  else (.ok (), { b with pending := b.pending ++ piece })

def put (piece : ByteArray) (b : Buffered δ) : Except Fault Unit × Buffered δ :=
  if capacity < b.pending.size + piece.size then
    match drain b.pending b.device with
    | (.ok (), b) => take piece b
    | (.error e, b) => (.error e, b)
  else take piece b

def flush (b : Buffered δ) : Except Fault Unit × Buffered δ :=
  match drain b.pending b.device with
  | (.ok (), b) =>
    let (r, d) := Device.flush b.device
    (r, { b with device := d })
  | (.error e, b) => (.error e, b)

instance : Stream (Buffered δ) := ⟨put, flush⟩

end

end Buffered

end Logline.Output
