import Logline.Output.Fault

/-!
# Devices and streams

A device may take a write in part. A stream takes pieces whole, or takes of a piece what it can and
fails. An event is delivered by putting its pieces in order and flushing once if all went through.
-/

namespace Logline.Output

class Device (δ : Type) where
  /-- Offers bytes; the answer says how many were taken. -/
  write : ByteArray → δ → Except Fault Nat × δ
  flush : δ → Except Fault Unit × δ

class Stream (σ : Type) where
  put : ByteArray → σ → Except Fault Unit × σ
  flush : σ → Except Fault Unit × σ

/-- Offers bytes until all are taken. -/
def Device.writeAll {δ : Type} [Device δ] (bytes : ByteArray) (d : δ) : Except Fault Unit × δ :=
  if bytes.size = 0 then (.ok (), d)
  else
    match Device.write bytes d with
    | (.error e, d) => (.error e, d)
    | (.ok n, d) => if n = 0 then (.error .writeZero, d) else writeAll (bytes.extract n bytes.size) d
termination_by bytes.size
decreasing_by simp only [ByteArray.size_extract]; omega

instance {δ : Type} [Device δ] : Stream δ where
  put := Device.writeAll
  flush := Device.flush

section
variable {σ : Type} [Stream σ]

/-- Puts pieces in order, up to the first that fails. -/
def putAll : List ByteArray → σ → Except Fault Unit × σ
  | [], s => (.ok (), s)
  | p :: ps, s =>
    match Stream.put p s with
    | (.ok (), s) => putAll ps s
    | (.error e, s) => (.error e, s)

def deliver (pieces : List ByteArray) (s : σ) : Except Fault Unit × σ :=
  match putAll pieces s with
  | (.ok (), s) => Stream.flush s
  | (.error e, s) => (.error e, s)

end

end Logline.Output
