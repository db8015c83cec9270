import Mathlib.Logic.Function.Basic
import Logline.Proofs.Output.Memory
import Logline.Proofs.Output.Overwriting

/-!
# Writers that share a file

Some writers write at the end of the file, wherever that is by then. The others have a position of their own,
which moves on with what they write, and know nothing of what others write there. What has been written is
safe from the former, and from the latter as long as they do not come by.
-/

namespace Logline.Output

structure Shared (α : Type) where
  content : ByteArray
  /-- Where the writer writes next; at the end of the file if there is none. -/
  position : α → Option Nat

namespace Shared

variable {α : Type} [DecidableEq α]

def place (s : Shared α) (a : α) : Nat :=
  (s.position a).getD s.content.size

def write (s : Shared α) (a : α) (bytes : ByteArray) : Shared α :=
  -- where there is nothing to write no position is asked for
  if bytes.size = 0 then s
  else
    match s.position a with
    | none => { s with content := s.content ++ bytes }
    | some k =>
      { content := overwrite s.content k bytes
        position := Function.update s.position a (some (k + bytes.size)) }

def writes (s : Shared α) (ws : List (α × ByteArray)) : Shared α :=
  ws.foldl (fun s w => s.write w.1 w.2) s

variable (s : Shared α) (a : α) (bytes : ByteArray)

/-! ## One write -/

theorem content_write : (s.write a bytes).content =
    if bytes.size = 0 then s.content else overwrite s.content (s.place a) bytes := by
  unfold write place
  split
  · rfl
  · cases s.position a with
    | none => exact (overwrite_end _ _).symm
    | some k => rfl

theorem size_le_write : s.content.size ≤ (s.write a bytes).content.size := by
  rw [content_write]
  split
  · exact Nat.le_refl _
  · rw [size_overwrite]
    exact Nat.le_max_left _ _

/-- Who has a position keeps one, and who has none gets none. -/
theorem position_write_eq_none_iff (b : α) : (s.write a bytes).position b = none ↔ s.position b = none := by
  unfold write
  split
  · rfl
  · split
    · rfl
    · next k hk =>
      by_cases hb : b = a
      · subst hb
        simp [hk]
      · simp [Function.update_of_ne hb]

theorem extract_write_self :
    (s.write a bytes).content.extract (s.place a) (s.place a + bytes.size) = bytes := by
  rw [content_write]
  split
  · next h => rw [ByteArray.size_eq_zero_iff.mp h]; exact ByteArray.extract_same
  · exact extract_overwrite_self _ _ _

theorem place_add_le_write (h : bytes.size ≠ 0) : s.place a + bytes.size ≤ (s.write a bytes).content.size := by
  rw [content_write, if_neg h, size_overwrite]
  exact Nat.le_max_right _ _

/-- The writer does not come by a region if it writes at the end, or before or behind it, or nothing. -/
def Passes (i j : Nat) : Prop :=
  ∀ k, s.position a = some k → bytes.size = 0 ∨ k + bytes.size ≤ i ∨ j ≤ k

variable {s a bytes}

theorem extract_write_of_passes {i j : Nat} (hj : j ≤ s.content.size) (h : s.Passes a bytes i j) :
    (s.write a bytes).content.extract i j = s.content.extract i j := by
  rw [content_write]
  split
  · rfl
  · next hne =>
    refine extract_overwrite_of_apart _ _ _ hj ?_
    unfold place
    cases hp : s.position a with
    | none => exact .inr hj
    | some k => exact (h k hp).resolve_left hne

theorem content_write_of_end (h : s.place a = s.content.size) : (s.write a bytes).content = s.content ++ bytes := by
  rw [content_write, h, overwrite_end]
  split
  · next h => rw [ByteArray.size_eq_zero_iff.mp h, ByteArray.append_empty]
  · rfl

/-! ## Many writes -/

def PassAll (i j : Nat) : Shared α → List (α × ByteArray) → Prop
  | _, [] => True
  | s, w :: ws => s.Passes w.1 w.2 i j ∧ PassAll i j (s.write w.1 w.2) ws

def AllAtEnd : Shared α → List (α × ByteArray) → Prop
  | _, [] => True
  | s, w :: ws => s.place w.1 = s.content.size ∧ AllAtEnd (s.write w.1 w.2) ws

theorem writes_append (s : Shared α) (ws vs : List (α × ByteArray)) : s.writes (ws ++ vs) = (s.writes ws).writes vs :=
  List.foldl_append

theorem extract_writes_of_passAll {ws : List (α × ByteArray)} {i j : Nat} (hj : j ≤ s.content.size)
    (h : PassAll i j s ws) : (s.writes ws).content.extract i j = s.content.extract i j := by
  induction ws generalizing s with
  | nil => rfl
  | cons w ws ih =>
    have hrest := ih (Nat.le_trans hj (s.size_le_write w.1 w.2)) h.2
    exact hrest.trans (extract_write_of_passes hj h.1)

/-- What is written stays whole as long as no writer comes by. -/
theorem extract_writes_self {ws : List (α × ByteArray)}
    (h : PassAll (s.place a) (s.place a + bytes.size) (s.write a bytes) ws) :
    ((s.write a bytes).writes ws).content.extract (s.place a) (s.place a + bytes.size) = bytes := by
  by_cases hne : bytes.size = 0
  · rw [ByteArray.size_eq_zero_iff.mp hne]
    exact ByteArray.extract_same
  · rw [extract_writes_of_passAll (s.place_add_le_write a bytes hne) h, extract_write_self]

theorem content_writes_of_allAtEnd {ws : List (α × ByteArray)} (h : AllAtEnd s ws) :
    (s.writes ws).content = s.content ++ joined (ws.map Prod.snd) := by
  induction ws generalizing s with
  | nil => simp [writes]
  | cons w ws ih =>
    have hrest : (s.writes (w :: ws)).content = _ := ih h.2
    rw [hrest, content_write_of_end h.1, List.map_cons, joined_cons, ByteArray.append_assoc]

theorem allAtEnd_of_no_position {ws : List (α × ByteArray)} (h : ∀ w ∈ ws, s.position w.1 = none) : AllAtEnd s ws := by
  induction ws generalizing s with
  | nil => trivial
  | cons w ws ih =>
    obtain ⟨hw, hws⟩ := List.forall_mem_cons.mp h
    refine ⟨by rw [place, hw]; rfl, ih fun v hv => ?_⟩
    exact (s.position_write_eq_none_iff w.1 w.2 v.1).mpr (hws v hv)

end Shared

end Logline.Output
