import Mathlib.Data.List.Basic
import Logline.Logger

/-!
# The appenders of a logger

However appenders are attached and detached, a logger has each of its appenders once.
-/

namespace Logline

/-! ## Erasing what stands twice -/

section
variable {α : Type} [BEq α] [LawfulBEq α]

theorem nodup_eraseDups : ∀ as : List α, as.eraseDups.Nodup
  | [] => by simp
  | a :: as => by
    rw [List.eraseDups_cons, List.nodup_cons]
    exact ⟨by simp [List.mem_eraseDups], nodup_eraseDups _⟩
termination_by as => as.length
decreasing_by exact Nat.lt_succ_of_le (List.length_filter_le _ _)

theorem eraseDups_of_nodup {as : List α} (h : as.Nodup) : as.eraseDups = as := by
  induction as with
  | nil => rfl
  | cons a as ih =>
    obtain ⟨ha, has⟩ := List.nodup_cons.mp h
    have hf : as.filter (fun b => !b == a) = as :=
      List.filter_eq_self.mpr fun b hb => by simpa using ne_of_mem_of_not_mem hb ha
    rw [List.eraseDups_cons, hf, ih has]

end

/-! ## Attaching and detaching -/

namespace Logger

theorem nodup_add {l : Logger} (h : l.appenders.Nodup) (a : AppenderId) : (l.add a).appenders.Nodup := by
  unfold add
  split
  · exact h
  · next ha => simpa [List.nodup_append, h] using fun b hb => ne_of_mem_of_not_mem hb ha

theorem nodup_remove {l : Logger} (h : l.appenders.Nodup) (a : AppenderId) : (l.remove a).appenders.Nodup :=
  h.filter _

theorem nodup_set (l : Logger) (as : List AppenderId) : (l.set as).appenders.Nodup :=
  nodup_eraseDups as

end Logger

end Logline
