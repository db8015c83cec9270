import Mathlib.Data.List.Basic
import Logline.Output.Buffered
import Logline.Proofs.Output.Memory
import Logline.Proofs.Output.Overwriting

/-!
# Writing to files

A file takes whatever is written to it. So a delivery puts all its bytes where the file is written, however
they are cut into pieces and gathered in the buffer, and none is left in the buffer. A device that refuses
everything stays as it is, and a delivery to it fails unless it is empty.
-/

namespace Logline.Output

/-! ## Bytes that are taken at once -/

section
variable {δ : Type} [Device δ] {bytes : ByteArray} {d d' : δ}

theorem writeAll_of_whole (hne : bytes.size ≠ 0) (h : Device.write bytes d = (.ok bytes.size, d')) :
    Device.writeAll bytes d = (.ok (), d') := by
  rw [Device.writeAll, if_neg hne, h]
  simp only [hne, if_false]
  rw [Device.writeAll, if_pos (by simp)]

theorem Buffered.drain_of_whole (hne : bytes.size ≠ 0) (h : Device.write bytes d = (.ok bytes.size, d')) :
    Buffered.drain bytes d = (.ok (), ⟨d', .empty⟩) := by
  rw [Buffered.drain, if_neg hne, h]
  simp only [hne, if_false]
  rw [Buffered.drain, if_pos (by simp), ByteArray.extract_same]

end

/-! ## A device that takes everything -/

/-- What is written to the device it takes at once, and two writes are one of all their bytes. -/
structure TakesAll {δ : Type} [Device δ] (Q : δ → Prop) (after : ByteArray → δ → δ) : Prop where
  write : ∀ d, Q d → ∀ bytes : ByteArray, bytes.size ≠ 0 → Device.write bytes d = (.ok bytes.size, after bytes d)
  flush : ∀ d, Q d → Device.flush d = (.ok (), d)
  kept : ∀ d, Q d → ∀ bytes, Q (after bytes d)
  empty : ∀ d, after .empty d = d
  append : ∀ d, Q d → ∀ p q, after q (after p d) = after (p ++ q) d

namespace TakesAll

variable {δ : Type} [Device δ] {Q : δ → Prop} {after : ByteArray → δ → δ} (hT : TakesAll Q after) {d : δ} (hd : Q d)
include hT hd

theorem writeAll (bytes : ByteArray) : Device.writeAll bytes d = (.ok (), after bytes d) := by
  by_cases h : bytes.size = 0
  · rw [Device.writeAll, if_pos h, ByteArray.size_eq_zero_iff.mp h, hT.empty]
  · exact writeAll_of_whole h (hT.write d hd bytes h)

theorem drain (pending : ByteArray) : Buffered.drain pending d = (.ok (), ⟨after pending d, .empty⟩) := by
  by_cases h : pending.size = 0
  · rw [Buffered.drain, if_pos h, ByteArray.size_eq_zero_iff.mp h, hT.empty]
  · exact Buffered.drain_of_whole h (hT.write d hd pending h)

theorem streamFlush (pending : ByteArray) :
    Stream.flush (⟨d, pending⟩ : Buffered δ) = (.ok (), ⟨after pending d, .empty⟩) := by
  show Buffered.flush _ = _
  rw [Buffered.flush, hT.drain hd]
  simp only [hT.flush _ (hT.kept d hd pending)]

/-- A piece of a block or more goes past the buffer, which is empty then. What has gone to the device and
what is kept are in order what was kept before and the piece. -/
theorem take (piece : ByteArray) {pending : ByteArray} (h : pending = .empty ∨ piece.size < Buffered.capacity) :
    ∃ gone kept, Buffered.take piece ⟨d, pending⟩ = (.ok (), ⟨after gone d, kept⟩) ∧
      gone ++ kept = pending ++ piece := by
  rw [Buffered.take]
  split
  · next hc =>
    obtain rfl : pending = .empty := h.resolve_right (Nat.not_lt.mpr hc)
    exact ⟨piece, .empty, by rw [hT.writeAll hd], by simp⟩
  · exact ⟨.empty, pending ++ piece, by rw [hT.empty], by simp⟩

theorem put (piece pending : ByteArray) : ∃ gone kept,
    Stream.put piece (⟨d, pending⟩ : Buffered δ) = (.ok (), ⟨after gone d, kept⟩) ∧
      gone ++ kept = pending ++ piece := by
  show ∃ gone kept, Buffered.put piece _ = _ ∧ _
  rw [Buffered.put]
  split
  · rw [hT.drain hd]
    obtain ⟨gone, kept, htake, hg⟩ := hT.take (hT.kept d hd pending) piece (.inl rfl)
    refine ⟨pending ++ gone, kept, by rw [← hT.append d hd]; exact htake, ?_⟩
    rw [ByteArray.append_assoc, hg, ByteArray.empty_append]
  · next hroom =>
    refine hT.take hd piece ?_
    rcases Nat.lt_or_ge piece.size Buffered.capacity with hc | hc
    · exact .inr hc
    · exact .inl (ByteArray.size_eq_zero_iff.mp (show pending.size = 0 by simp only at hroom; omega))

theorem putAll (pieces : List ByteArray) (pending : ByteArray) : ∃ gone kept,
    putAll pieces (⟨d, pending⟩ : Buffered δ) = (.ok (), ⟨after gone d, kept⟩) ∧
      gone ++ kept = pending ++ joined pieces := by
  induction pieces generalizing d pending with
  | nil => exact ⟨.empty, pending, by rw [Output.putAll, hT.empty], by simp⟩
  | cons p ps ih =>
    obtain ⟨gone, kept, hput, hg⟩ := hT.put hd p pending
    obtain ⟨gone', kept', hall, hg'⟩ := ih (hT.kept d hd gone) kept
    refine ⟨gone ++ gone', kept', ?_, ?_⟩
    · rw [Output.putAll, hput, ← hT.append d hd]
      exact hall
    · rw [ByteArray.append_assoc, hg', ← ByteArray.append_assoc, hg, joined_cons, ByteArray.append_assoc]

/-- The whole of a delivery has been taken when it ends. -/
theorem deliver (pieces : List ByteArray) :
    deliver pieces (⟨d, .empty⟩ : Buffered δ) = (.ok (), ⟨after (joined pieces) d, .empty⟩) := by
  obtain ⟨gone, kept, hall, hg⟩ := hT.putAll hd pieces .empty
  rw [Output.deliver, hall]
  simp only
  rw [hT.streamFlush (hT.kept d hd gone), hT.append d hd, hg, ByteArray.empty_append]

end TakesAll

/-! ## The content of a file -/

namespace Disk

theorem content_setContent {d : Disk} {id : FileId} (h : id < d.contents.size) (bytes : ByteArray) (other : FileId) :
    (d.setContent id bytes).content other = if other = id then bytes else d.content other := by
  by_cases ho : other = id
  · subst ho
    simp [setContent, content, h]
  · simp [setContent, content, ho, Array.getElem?_setIfInBounds_ne (Ne.symm ho)]

theorem setContent_setContent (d : Disk) (id : FileId) (p q : ByteArray) :
    (d.setContent id p).setContent id q = d.setContent id q := by
  simp [setContent, Array.set!_eq_setIfInBounds]

/-- A file that there is not takes nothing. -/
theorem setContent_of_le {d : Disk} {id : FileId} (h : d.contents.size ≤ id) (bytes : ByteArray) :
    d.setContent id bytes = d := by
  simp [setContent, Array.set!_eq_setIfInBounds, Array.setIfInBounds_def, Nat.not_lt.mpr h]

def grown (d : Disk) (id : FileId) (bytes : ByteArray) : Disk :=
  d.setContent id (d.content id ++ bytes)

section
variable {d : Disk} {id : FileId}

theorem content_grown (h : id < d.contents.size) (bytes : ByteArray) :
    (d.grown id bytes).content id = d.content id ++ bytes :=
  (content_setContent h _ _).trans (if_pos rfl)

theorem content_grown_of_ne {other : FileId} (h : other ≠ id) (bytes : ByteArray) :
    (d.grown id bytes).content other = d.content other := by
  simp [grown, setContent, content, Array.getElem?_setIfInBounds_ne (Ne.symm h)]

theorem size_grown (d : Disk) (id : FileId) (bytes : ByteArray) :
    (d.grown id bytes).contents.size = d.contents.size := by
  simp [grown, setContent]

theorem grown_empty (d : Disk) (id : FileId) : d.grown id .empty = d := by
  have h : d.contents.set! id (d.content id ++ .empty) = d.contents := by
    rw [Array.set!_eq_setIfInBounds]
    refine Array.ext (by simp) fun i hi hi' => ?_
    rw [Array.getElem_setIfInBounds hi']
    split
    · next he => subst he; simp [content, hi']
    · rfl
  rw [grown, setContent, h]

end

end Disk

/-! ## Open files -/

namespace OpenFile

theorem write_file {o : OpenFile} {id : FileId} (h : o.handle.target = .file id) (bytes : ByteArray) :
    Device.write bytes o = (.ok bytes.size,
      { handle := { o.handle with position := o.handle.position.map (· + bytes.size) }
        disk := o.disk.setContent id (match o.handle.position with
          | none => o.disk.content id ++ bytes
          | some p => overwrite (o.disk.content id) p bytes) }) := by
  obtain ⟨⟨target, position⟩, d⟩ := o
  obtain rfl : target = .file id := h
  cases position <;> rfl

theorem write_full {o : OpenFile} (h : o.handle.target = .full) (bytes : ByteArray) :
    Device.write bytes o = (if bytes.size = 0 then .ok 0 else .error (.os .noSpace), o) := by
  show OpenFile.write bytes o = _
  rw [OpenFile.write, h]

def placed (bytes : ByteArray) (o : OpenFile) : OpenFile :=
  if bytes.size = 0 then o else (Device.write bytes o).2

theorem placed_of_file {o : OpenFile} {id : FileId} (h : o.handle.target = .file id) {bytes : ByteArray}
    (hne : bytes.size ≠ 0) : o.placed bytes =
      { handle := { o.handle with position := o.handle.position.map (· + bytes.size) }
        disk := o.disk.setContent id (match o.handle.position with
          | none => o.disk.content id ++ bytes
          | some p => overwrite (o.disk.content id) p bytes) } := by
  rw [placed, if_neg hne, write_file h]

/-- At the end of the file it does not matter whether there is a position. -/
theorem content_placed_of_end {o : OpenFile} {id : FileId} (h : o.handle.target = .file id)
    (hid : id < o.disk.contents.size) (hend : ∀ p, o.handle.position = some p → p = (o.disk.content id).size)
    (bytes : ByteArray) : (o.placed bytes).disk.content id = o.disk.content id ++ bytes := by
  by_cases hne : bytes.size = 0
  · rw [placed, if_pos hne, ByteArray.size_eq_zero_iff.mp hne, ByteArray.append_empty]
  · rw [placed_of_file h hne]
    refine (Disk.content_setContent hid _ _).trans ((if_pos rfl).trans ?_)
    cases hp : o.handle.position with
    | none => rfl
    | some p =>
      simp only [hend p hp]
      exact overwrite_end _ _

theorem target_placed {o : OpenFile} {id : FileId} (h : o.handle.target = .file id) (bytes : ByteArray) :
    (o.placed bytes).handle.target = .file id := by
  by_cases hne : bytes.size = 0
  · rw [placed, if_pos hne, h]
  · rw [placed_of_file h hne]
    exact h

theorem placed_placed {o : OpenFile} {id : FileId} (h : o.handle.target = .file id) (p q : ByteArray) :
    (o.placed p).placed q = o.placed (p ++ q) := by
  by_cases hp : p.size = 0
  · rw [ByteArray.size_eq_zero_iff.mp hp, ByteArray.empty_append]
    rfl
  by_cases hq : q.size = 0
  · rw [ByteArray.size_eq_zero_iff.mp hq, ByteArray.append_empty]
    rfl
  have hpq : (p ++ q).size ≠ 0 := by rw [ByteArray.size_append]; omega
  have htarget : (o.placed p).handle.target = .file id := target_placed h p
  rw [placed_of_file htarget hq, placed_of_file h hp, placed_of_file h hpq]
  obtain ⟨⟨target, position⟩, d⟩ := o
  by_cases hid : id < d.contents.size
  · cases position with
    | none => simp [Disk.content_setContent hid, Disk.setContent_setContent, ByteArray.append_assoc]
    | some k => simp [Disk.content_setContent hid, Disk.setContent_setContent, overwrite_overwrite, Nat.add_assoc]
  · cases position with
    | none => simp [Disk.setContent_of_le (Nat.le_of_not_lt hid)]
    | some k => simp [Disk.setContent_of_le (Nat.le_of_not_lt hid), Nat.add_assoc]

theorem takesAll_placed : TakesAll (fun o : OpenFile => ∃ id, o.handle.target = .file id) placed where
  write o h bytes hne := by
    obtain ⟨id, ho⟩ := h
    rw [write_file ho, placed_of_file ho hne]
  flush _ _ := rfl
  kept o h bytes := h.imp fun _ ho => target_placed ho bytes
  empty _ := rfl
  append o h p q := by
    obtain ⟨id, ho⟩ := h
    exact placed_placed ho p q

/-- An event is in the file whole when its delivery ends, wherever it goes. -/
theorem deliver_placed {o : OpenFile} {id : FileId} (ho : o.handle.target = .file id) (pieces : List ByteArray) :
    deliver pieces (⟨o, .empty⟩ : Buffered OpenFile) = (.ok (), ⟨o.placed (joined pieces), .empty⟩) :=
  takesAll_placed.deliver ⟨id, ho⟩ pieces

theorem flush_settled (o : OpenFile) :
    Stream.flush (⟨o, .empty⟩ : Buffered OpenFile) = (.ok (), ⟨o, .empty⟩) := by
  show Buffered.flush _ = _
  rw [Buffered.flush, Buffered.drain, if_pos (by rfl)]
  rfl

end OpenFile

def atEnd (id : FileId) (d : Disk) : OpenFile :=
  ⟨⟨.file id, none⟩, d⟩

theorem placed_atEnd (id : FileId) (d : Disk) (bytes : ByteArray) :
    (atEnd id d).placed bytes = atEnd id (d.grown id bytes) := by
  by_cases hne : bytes.size = 0
  · rw [ByteArray.size_eq_zero_iff.mp hne, Disk.grown_empty]
    rfl
  · exact OpenFile.placed_of_file rfl hne

/-! ## A device that refuses everything -/

namespace Buffered

section
variable {δ : Type} [Device δ] {d : δ}
variable (hrefuses : ∀ bytes : ByteArray, bytes.size ≠ 0 → ∃ e, Device.write bytes d = (.error e, d))
include hrefuses

theorem drain_refused (pending : ByteArray) :
    ∃ r, drain pending d = (r, ⟨d, pending⟩) ∧ (r = .ok () → pending = .empty) := by
  rw [drain]
  split
  · next h => exact ⟨_, rfl, fun _ => ByteArray.size_eq_zero_iff.mp h⟩
  · next h =>
    obtain ⟨e, hw⟩ := hrefuses pending h
    rw [hw]
    exact ⟨.error e, rfl, by simp⟩

theorem writeAll_refused (bytes : ByteArray) :
    ∃ r, Device.writeAll bytes d = (r, d) ∧ (r = .ok () → bytes = .empty) := by
  rw [Device.writeAll]
  split
  · next h => exact ⟨_, rfl, fun _ => ByteArray.size_eq_zero_iff.mp h⟩
  · next h =>
    obtain ⟨e, hw⟩ := hrefuses bytes h
    rw [hw]
    exact ⟨.error e, rfl, by simp⟩

theorem take_refused (piece pending : ByteArray) : ∃ r kept,
    take piece ⟨d, pending⟩ = (r, ⟨d, kept⟩) ∧ (r = .ok () → kept = pending ++ piece) := by
  rw [take]
  split
  · obtain ⟨r, hw, hr⟩ := writeAll_refused hrefuses piece
    rw [hw]
    exact ⟨r, pending, rfl, fun hok => by rw [hr hok]; simp⟩
  · exact ⟨_, _, rfl, fun _ => rfl⟩

theorem put_refused (piece pending : ByteArray) : ∃ r kept,
    put piece ⟨d, pending⟩ = (r, ⟨d, kept⟩) ∧ (r = .ok () → kept = pending ++ piece) := by
  rw [put]
  split
  · obtain ⟨r, hdrain, -⟩ := drain_refused hrefuses pending
    rw [hdrain]
    cases r with
    | ok u => exact take_refused hrefuses piece pending
    | error e => exact ⟨.error e, pending, rfl, by simp⟩
  · exact take_refused hrefuses piece pending

theorem putAll_refused (pieces : List ByteArray) (pending : ByteArray) : ∃ r kept,
    putAll pieces (⟨d, pending⟩ : Buffered δ) = (r, ⟨d, kept⟩) ∧ (r = .ok () → kept = pending ++ joined pieces) := by
  induction pieces generalizing pending with
  | nil => exact ⟨.ok (), pending, rfl, fun _ => by simp⟩
  | cons p ps ih =>
    obtain ⟨r, kept, hput, hkept⟩ := put_refused hrefuses p pending
    have hput : Stream.put p (⟨d, pending⟩ : Buffered δ) = (r, ⟨d, kept⟩) := hput
    rw [putAll, hput]
    cases r with
    | error e => exact ⟨.error e, kept, rfl, by simp⟩
    | ok u =>
      obtain ⟨r', kept', hall, hkept'⟩ := ih kept
      exact ⟨r', kept', hall, fun hok => by rw [hkept' hok, hkept rfl, joined_cons, ByteArray.append_assoc]⟩

variable (hflush : (Device.flush d).2 = d)
include hflush

theorem flush_refused (pending : ByteArray) : ∃ r,
    Stream.flush (⟨d, pending⟩ : Buffered δ) = (r, ⟨d, pending⟩) ∧ (r = .ok () → pending = .empty) := by
  show ∃ r, flush _ = _ ∧ _
  obtain ⟨r, hdrain, hr⟩ := drain_refused hrefuses pending
  rw [flush, hdrain]
  cases r with
  | error e => exact ⟨.error e, rfl, by simp⟩
  | ok u =>
    refine ⟨(Device.flush d).1, ?_, fun _ => hr rfl⟩
    show ((Device.flush d).1, (⟨(Device.flush d).2, pending⟩ : Buffered δ)) = _
    rw [hflush]

/-- Only nothing at all can be delivered. -/
theorem deliver_refused (pieces : List ByteArray) (pending : ByteArray) : ∃ r kept,
    deliver pieces (⟨d, pending⟩ : Buffered δ) = (r, ⟨d, kept⟩) ∧ (r = .ok () → joined pieces = .empty) := by
  obtain ⟨r, kept, hall, hkept⟩ := putAll_refused hrefuses pieces pending
  rw [deliver, hall]
  cases r with
  | error e => exact ⟨.error e, kept, rfl, by simp⟩
  | ok u =>
    obtain ⟨r', hr', hempty⟩ := flush_refused hrefuses hflush kept
    refine ⟨r', kept, hr', fun hok => ?_⟩
    exact (ByteArray.append_eq_empty_iff.mp ((hkept rfl).symm.trans (hempty hok))).2

end

end Buffered

end Logline.Output
