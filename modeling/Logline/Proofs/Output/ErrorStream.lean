import Logline.Output.Host
import Logline.Proofs.Output.Memory

/-!
# The error stream

A line that is told there goes through whole, or as far as there is room for it; in that case the call that tells
it is cut short. A stream without limit always has room.
-/

namespace Logline.Output

theorem Memory.limit_deliver (pieces : List ByteArray) (m : Memory) : (deliver pieces m).2.limit = m.limit := by
  rw [deliver_eq]
  split <;> rfl

def lineBytes (line : String) : ByteArray :=
  (line ++ "\n").toUTF8

namespace Host

theorem complain_eq (h : Host) (line : String) : h.complain line =
    (if fitting h.stderr.left (lineBytes line) = lineBytes line then .ok () else .error .gone,
      { h with stderr := h.stderr.taking (fitting h.stderr.left (lineBytes line)) }) := by
  have hput : Stream.put (line ++ "\n").toUTF8 h.stderr = _ := Memory.writeAll_eq (lineBytes line) h.stderr
  simp only [complain, onOutlet, outlet, hput]
  rfl

/-- What is told goes on the stream whole, unless the call is cut short. -/
theorem content_complain (h : Host) (line : String) : ∃ rest,
    (h.complain line).2.stderr.content = h.stderr.content ++ rest ∧
      ((h.complain line).1.isOk = true → rest = lineBytes line) := by
  rw [complain_eq]
  refine ⟨_, rfl, fun hok => ?_⟩
  simp only at hok
  split at hok
  · assumption
  · cases hok

theorem limit_complain (h : Host) (line : String) : (h.complain line).2.stderr.limit = h.stderr.limit := by
  rw [complain_eq]
  rfl

theorem complain_of_unlimited {h : Host} (hroom : h.stderr.limit = none) (line : String) :
    h.complain line = (.ok (), { h with stderr := h.stderr.taking (lineBytes line) }) := by
  have hfit : fitting h.stderr.left (lineBytes line) = lineBytes line := by simp [Memory.left, hroom, fitting]
  rw [complain_eq, hfit, if_pos rfl]

theorem stderr_setOutlet {o : Outlet} (ho : o ≠ .stderr) (h : Host) (m : Memory) :
    (h.setOutlet o m).stderr = h.stderr := by
  cases o with
  | stderr => exact absurd rfl ho
  | stdout | memory => rfl

theorem limit_setOutlet (h : Host) {o : Outlet} {m : Memory} (hm : m.limit = (h.outlet o).limit) :
    (h.setOutlet o m).stderr.limit = h.stderr.limit := by
  cases o with
  | stderr => exact hm
  | stdout | memory => rfl

end Host

end Logline.Output
