import Mathlib.Data.List.Basic
import Logline.Proofs.Output.Appending

/-!
# Devices that answer alike

Two devices that give the same answers to writes and flushes, and go on doing so, cannot be told apart by
what is put on them through a buffer: answers and what stays in the buffer are the same, however the bytes
are cut into pieces.
-/

namespace Logline.Output

def Agree {α σ τ : Type} (R : σ → τ → Prop) (x : α × σ) (y : α × τ) : Prop :=
  ∃ r s t, x = (r, s) ∧ y = (r, t) ∧ R s t

/-- Devices that stay alike whatever is asked of both. -/
structure Likeness {δ ε : Type} [Device δ] [Device ε] (R : δ → ε → Prop) : Prop where
  write : ∀ d e, R d e → ∀ bytes, Agree R (Device.write bytes d) (Device.write bytes e)
  flush : ∀ d e, R d e → Agree R (Device.flush d) (Device.flush e)

def BufferedAlike {δ ε : Type} (R : δ → ε → Prop) (b : Buffered δ) (c : Buffered ε) : Prop :=
  R b.device c.device ∧ b.pending = c.pending

namespace Likeness

variable {δ ε : Type} [Device δ] [Device ε] {R : δ → ε → Prop} (hR : Likeness R)
include hR

theorem writeAll {d : δ} {e : ε} (h : R d e) (bytes : ByteArray) :
    Agree R (Device.writeAll bytes d) (Device.writeAll bytes e) := by
  induction hn : bytes.size using Nat.strong_induction_on generalizing bytes d e with
  | h size ih =>
    rw [Device.writeAll.eq_def bytes d, Device.writeAll.eq_def bytes e]
    by_cases hsize : bytes.size = 0
    · rw [if_pos hsize, if_pos hsize]
      exact ⟨_, _, _, rfl, rfl, h⟩
    · obtain ⟨r, d', e', hd, he, hafter⟩ := hR.write d e h bytes
      rw [if_neg hsize, if_neg hsize, hd, he]
      cases r with
      | error fault => exact ⟨_, _, _, rfl, rfl, hafter⟩
      | ok n =>
        by_cases hzero : n = 0
        · simp only [hzero, if_true]
          exact ⟨_, _, _, rfl, rfl, hafter⟩
        · simp only [hzero, if_false]
          exact ih (bytes.extract n bytes.size).size (by simp; omega) hafter _ rfl

theorem drain {d : δ} {e : ε} (h : R d e) (pending : ByteArray) :
    Agree (BufferedAlike R) (Buffered.drain pending d) (Buffered.drain pending e) := by
  induction hn : pending.size using Nat.strong_induction_on generalizing pending d e with
  | h size ih =>
    rw [Buffered.drain.eq_def pending d, Buffered.drain.eq_def pending e]
    by_cases hsize : pending.size = 0
    · rw [if_pos hsize, if_pos hsize]
      exact ⟨_, _, _, rfl, rfl, h, rfl⟩
    · obtain ⟨r, d', e', hd, he, hafter⟩ := hR.write d e h pending
      rw [if_neg hsize, if_neg hsize, hd, he]
      cases r with
      | error fault => exact ⟨_, _, _, rfl, rfl, hafter, rfl⟩
      | ok n =>
        by_cases hzero : n = 0
        · simp only [hzero, if_true]
          exact ⟨_, _, _, rfl, rfl, hafter, rfl⟩
        · simp only [hzero, if_false]
          exact ih (pending.extract n pending.size).size (by simp; omega) hafter _ rfl

section
variable {b : Buffered δ} {c : Buffered ε}

theorem take (h : BufferedAlike R b c) (piece : ByteArray) :
    Agree (BufferedAlike R) (Buffered.take piece b) (Buffered.take piece c) := by
  obtain ⟨hdevice, hpending⟩ := h
  rw [Buffered.take, Buffered.take]
  by_cases hsize : Buffered.capacity ≤ piece.size
  · obtain ⟨r, d', e', hd, he, hafter⟩ := hR.writeAll hdevice piece
    rw [if_pos hsize, if_pos hsize, hd, he]
    exact ⟨_, _, _, rfl, rfl, hafter, hpending⟩
  · rw [if_neg hsize, if_neg hsize, hpending]
    exact ⟨_, _, _, rfl, rfl, hdevice, rfl⟩

theorem put (h : BufferedAlike R b c) (piece : ByteArray) :
    Agree (BufferedAlike R) (Stream.put piece b) (Stream.put piece c) := by
  show Agree _ (Buffered.put piece b) (Buffered.put piece c)
  obtain ⟨hdevice, hpending⟩ := h
  rw [Buffered.put, Buffered.put, hpending]
  by_cases hsize : Buffered.capacity < c.pending.size + piece.size
  · obtain ⟨r, b', c', hb, hc, hafter⟩ := hR.drain hdevice c.pending
    rw [if_pos hsize, if_pos hsize, hb, hc]
    cases r with
    | error fault => exact ⟨_, _, _, rfl, rfl, hafter⟩
    | ok u => exact hR.take hafter piece
  · rw [if_neg hsize, if_neg hsize]
    exact hR.take ⟨hdevice, hpending⟩ piece

theorem streamFlush (h : BufferedAlike R b c) : Agree (BufferedAlike R) (Stream.flush b) (Stream.flush c) := by
  show Agree _ (Buffered.flush b) (Buffered.flush c)
  obtain ⟨hdevice, hpending⟩ := h
  obtain ⟨r, b', c', hb, hc, hdevice', hpending'⟩ := hR.drain hdevice c.pending
  rw [Buffered.flush, Buffered.flush, hpending, hb, hc]
  cases r with
  | error fault => exact ⟨_, _, _, rfl, rfl, hdevice', hpending'⟩
  | ok u =>
    obtain ⟨r, d', e', hd, he, hafter⟩ := hR.flush _ _ hdevice'
    simp only [hd, he]
    exact ⟨_, _, _, rfl, rfl, hafter, hpending'⟩

theorem putAll (h : BufferedAlike R b c) (pieces : List ByteArray) :
    Agree (BufferedAlike R) (putAll pieces b) (putAll pieces c) := by
  induction pieces generalizing b c with
  | nil => exact ⟨_, _, _, rfl, rfl, h⟩
  | cons piece pieces ih =>
    obtain ⟨r, b', c', hb, hc, hafter⟩ := hR.put h piece
    rw [Output.putAll, Output.putAll, hb, hc]
    cases r with
    | error fault => exact ⟨_, _, _, rfl, rfl, hafter⟩
    | ok u => exact ih hafter

theorem deliver (h : BufferedAlike R b c) (pieces : List ByteArray) :
    Agree (BufferedAlike R) (deliver pieces b) (deliver pieces c) := by
  obtain ⟨r, b', c', hb, hc, hafter⟩ := hR.putAll h pieces
  rw [Output.deliver, Output.deliver, hb, hc]
  cases r with
  | error fault => exact ⟨_, _, _, rfl, rfl, hafter⟩
  | ok u => exact hR.streamFlush hafter

end

end Likeness

/-! ## Open files -/

structure Disk.Rewritten (target : Target) (d d' : Disk) : Prop where
  workingDirectory : d'.workingDirectory = d.workingDirectory
  entries : d'.entries = d.entries
  size : d'.contents.size = d.contents.size
  content : ∀ id, target ≠ .file id → d'.content id = d.content id

namespace Disk

theorem Rewritten.refl (target : Target) (d : Disk) : Rewritten target d d :=
  ⟨rfl, rfl, rfl, fun _ _ => rfl⟩

theorem Rewritten.trans {target : Target} {d d' d'' : Disk} (h : Rewritten target d d') (h' : Rewritten target d' d'') :
    Rewritten target d d'' where
  workingDirectory := h'.workingDirectory.trans h.workingDirectory
  entries := h'.entries.trans h.entries
  size := h'.size.trans h.size
  content id hid := (h'.content id hid).trans (h.content id hid)

theorem rewritten_setContent (d : Disk) (id : FileId) (bytes : ByteArray) :
    Rewritten (.file id) d (d.setContent id bytes) where
  workingDirectory := rfl
  entries := rfl
  size := by simp [setContent]
  content other h := by
    have hne : id ≠ other := fun he => h (congrArg Target.file he)
    simp [setContent, content, Array.getElem?_setIfInBounds_ne hne]

end Disk

namespace OpenFile

def Confined (o p : OpenFile) : Prop :=
  p.handle.target = o.handle.target ∧ Disk.Rewritten o.handle.target o.disk p.disk

theorem likeness_confined (o : OpenFile) : Likeness fun p q => p = q ∧ o.Confined p where
  write p q h bytes := by
    obtain ⟨rfl, htarget, hdisk⟩ := h
    cases ht : p.handle.target with
    | full =>
      rw [write_full ht]
      exact ⟨_, _, _, rfl, rfl, rfl, htarget, hdisk⟩
    | file id =>
      rw [write_file ht]
      refine ⟨_, _, _, rfl, rfl, rfl, htarget, hdisk.trans ?_⟩
      rw [← htarget, ht]
      exact p.disk.rewritten_setContent id _
  flush p q h := by
    obtain ⟨rfl, h⟩ := h
    exact ⟨_, _, _, rfl, rfl, rfl, h⟩

theorem confined_deliver (b : Buffered OpenFile) (pieces : List ByteArray) :
    b.device.Confined (deliver pieces b).2.device := by
  obtain ⟨r, c, c', hc, -, ⟨-, h⟩, -⟩ := (likeness_confined b.device).deliver (b := b) (c := b)
    ⟨⟨rfl, rfl, .refl _ _⟩, rfl⟩ pieces
  rw [hc]
  exact h

theorem confined_placed (o : OpenFile) (bytes : ByteArray) : o.Confined (o.placed bytes) := by
  unfold placed
  split
  · exact ⟨rfl, .refl _ _⟩
  · obtain ⟨r, p, p', hw, -, -, h⟩ := (likeness_confined o).write o o ⟨rfl, rfl, .refl _ _⟩ bytes
    rw [hw]
    exact h

theorem confined_flush (b : Buffered OpenFile) : b.device.Confined (Stream.flush b).2.device := by
  obtain ⟨r, c, c', hc, -, ⟨-, h⟩, -⟩ := (likeness_confined b.device).streamFlush (b := b) (c := b)
    ⟨⟨rfl, rfl, .refl _ _⟩, rfl⟩
  rw [hc]
  exact h

theorem likeness_handle : Likeness fun o p : OpenFile => o.handle = p.handle where
  write o p h bytes := by
    cases ho : o.handle.target with
    | full =>
      rw [write_full ho, write_full (h ▸ ho)]
      exact ⟨_, _, _, rfl, rfl, h⟩
    | file id =>
      rw [write_file ho, write_file (h ▸ ho)]
      exact ⟨_, _, _, rfl, rfl, by simp only [h]⟩
  flush o p h := ⟨_, _, _, rfl, rfl, h⟩

inductive TargetAlike (d d' : Disk) : Target → Target → Prop
  | full : TargetAlike d d' .full .full
  | file {i j : FileId} (hi : i < d.contents.size) (hj : j < d'.contents.size) (h : d.content i = d'.content j) :
    TargetAlike d d' (.file i) (.file j)

def Alike (o p : OpenFile) : Prop :=
  o.handle.position = p.handle.position ∧ TargetAlike o.disk p.disk o.handle.target p.handle.target

theorem likeness_alike : Likeness Alike where
  write o p h bytes := by
    obtain ⟨hposition, htarget⟩ := h
    generalize ho : o.handle.target = t at htarget
    generalize hp : p.handle.target = u at htarget
    cases htarget with
    | full =>
      rw [write_full ho, write_full hp]
      refine ⟨_, _, _, rfl, rfl, hposition, ?_⟩
      rw [ho, hp]
      exact .full
    | file hi hj hcontent =>
      rw [write_file ho, write_file hp, hposition, hcontent]
      refine ⟨_, _, _, rfl, rfl, rfl, ?_⟩
      simp only [ho, hp]
      refine .file (by simpa [Disk.setContent] using hi) (by simpa [Disk.setContent] using hj) ?_
      rw [Disk.content_setContent hi, Disk.content_setContent hj, if_pos rfl, if_pos rfl]
  flush o p h := ⟨_, _, _, rfl, rfl, h⟩

end OpenFile

end Logline.Output
