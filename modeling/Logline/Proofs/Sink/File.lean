import Logline.Proofs.Output.Prospect
import Logline.Sink.File

/-!
# File sinks

Whatever a file sink is asked, it keeps its path and its mode. It is open or closed as before unless its path
is opened again, and whether that succeeds is a matter of the path alone. On a file it has nothing pending
between calls, and it has a position of its own in truncate mode only.
-/

namespace Logline

open Output

/-! ## Paths that can be opened -/

namespace Output.Disk

variable {d d' : Disk} {path : String}

def admits (d : Disk) (path : String) : Bool :=
  match d.slot? path with
  | some p => d.find? p ≠ some .directory
  | none => false

/-- What a path leads to once it has been opened. A file that was emptied is written from its start. -/
structure Opened (path : String) (emptied : Bool) (handle : Handle) (d : Disk) : Prop where
  position : handle.position = if emptied then some 0 else none
  file : d.fileAt? path = handle.target.file?
  empty : emptied = true → ∀ id, handle.target = .file id → d.content id = .empty

theorem openFile_admits (d : Disk) (path : String) (emptied : Bool) :
    (d.admits path = true ∧ ∃ handle d', d.openFile path emptied = (.ok handle, d') ∧ Opened path emptied handle d') ∨
    (d.admits path = false ∧ ∃ e, d.openFile path emptied = (.error e, d)) := by
  unfold admits
  cases hp : d.slot? path with
  | none => exact .inr ⟨rfl, openFile_of_no_slot hp emptied⟩
  | some p =>
    have hlater := Later.openFile d path emptied
    have hcontent := d.content_openFile path emptied
    have ho := openFile_of_slot hp emptied
    simp only at ho ⊢
    cases hfind : d.find? p with
    | none =>
      rw [hfind] at ho
      rw [ho] at hlater
      have hat : (d.addFile p).2.fileAt? path = some d.contents.size :=
        fileAt?_of_find? ((hlater.slot?_eq path).trans hp) ((find?_addFile hfind p).trans (if_pos rfl))
      refine .inl ⟨by simp, _, _, ho, rfl, hat, fun _ id hid => ?_⟩
      cases hid
      simp [addFile, content]
    | some n =>
      rw [hfind] at ho
      cases n with
      | directory => exact .inr ⟨by simp, _, ho⟩
      | full =>
        refine .inl ⟨by simp, _, _, ho, rfl, ?_, fun _ id => Target.noConfusion⟩
        rw [fileAt?_eq_slot, hp, Option.bind_some, hfind]
        rfl
      | file id =>
        have hat : d.fileAt? path = some id := fileAt?_of_find? hp hfind
        rw [ho] at hlater hcontent
        refine .inl ⟨by simp, _, _, ho, rfl, hlater.fileAt?_some hat, fun hemptied j hj => ?_⟩
        cases hj
        exact (hcontent id).trans (if_pos ⟨hemptied, hat⟩)

theorem Rewritten.admits {target : Target} (h : Rewritten target d d') (path : String) :
    d'.admits path = d.admits path := by
  unfold Disk.admits
  rw [(Later.of_rewritten h).slot?_eq]
  cases d.slot? path with
  | none => rfl
  | some p => simp only [h.find?]

end Output.Disk

namespace Sink.File

variable {f : File} {d : Disk}

/-! ## Open and closed -/

section
variable (f : File) (d : Disk) (action : Buffered OpenFile → Except Fault Unit × Buffered OpenFile)

theorem path_onWriter : (f.onWriter d action).2.1.path = f.path := by
  unfold onWriter
  split <;> rfl

theorem mode_onWriter : (f.onWriter d action).2.1.mode = f.mode := by
  unfold onWriter
  split <;> rfl

end

def target? (f : File) : Option Target :=
  f.writer.map (·.handle.target)

theorem isOpen_eq (f : File) : f.isOpen = f.target?.isSome :=
  Option.isSome_map.symm

theorem target?_onWriter {action : Buffered OpenFile → Except Fault Unit × Buffered OpenFile}
    (h : ∀ b : Buffered OpenFile, b.device.Confined (action b).2.device) :
    (f.onWriter d action).2.1.target? = f.target? := by
  obtain ⟨path, mode, writer⟩ := f
  cases writer with
  | none => rfl
  | some w => exact congrArg some (h ⟨⟨w.handle, d⟩, w.pending⟩).1

/-- Nothing but a file's content changes when the sink is flushed. -/
theorem rewritten_flush (f : File) (d : Disk) : ∃ target, Disk.Rewritten target d (f.flush d).2.2 := by
  obtain ⟨path, mode, writer⟩ := f
  cases writer with
  | none => exact ⟨.full, .refl _ d⟩
  | some w => exact ⟨_, (OpenFile.confined_flush ⟨⟨w.handle, d⟩, w.pending⟩).2⟩

theorem reopen_eq (f : File) (d : Disk) : f.reopen d =
    match (f.flush d).2.2.openFile f.path (f.mode == .truncate) with
    | (.ok handle, d') => (.ok (), { f with writer := some ⟨handle, .empty⟩ }, d')
    | (.error e, d') => (.error e, { f with writer := none }, d') := by
  have hpath : (f.flush d).2.1.path = f.path := path_onWriter ..
  have hmode : (f.flush d).2.1.mode = f.mode := mode_onWriter ..
  unfold reopen close
  generalize f.flush d = flushed at hpath hmode ⊢
  obtain ⟨r, ⟨path, mode, writer⟩, d₁⟩ := flushed
  obtain rfl : path = f.path := hpath
  obtain rfl : mode = f.mode := hmode
  generalize ho : d₁.openFile f.path (f.mode == .truncate) = o
  obtain ⟨r, d'⟩ := o
  cases r <;> simp only [ho]

/-- The path can be opened, and then the sink is open, or it cannot, and then it is closed. -/
theorem reopen_admits (f : File) (d : Disk) :
    (d.admits f.path = true ∧ ∃ handle d', f.reopen d = (.ok (), { f with writer := some ⟨handle, .empty⟩ }, d') ∧
      Disk.Opened f.path (f.mode == .truncate) handle d') ∨
    (d.admits f.path = false ∧ ∃ e d', f.reopen d = (.error e, { f with writer := none }, d')) := by
  obtain ⟨target, hflush⟩ := f.rewritten_flush d
  rw [← hflush.admits, reopen_eq]
  rcases (f.flush d).2.2.openFile_admits f.path (f.mode == .truncate) with
    ⟨hadmits, handle, d', ho, hopened⟩ | ⟨hadmits, e, ho⟩
  · exact .inl ⟨hadmits, handle, d', by rw [ho], hopened⟩
  · exact .inr ⟨hadmits, e, _, by rw [ho]⟩

/-! ## What is written -/

/-- In truncate mode, and in no other, it writes at a position of its own; nothing is pending for a file. -/
structure Settled (f : File) : Prop where
  position : ∀ w, f.writer = some w → (w.handle.position = none ↔ f.mode = .append)
  pending : ∀ w id, f.writer = some w → w.handle.target = .file id → w.pending = .empty

theorem settled_closed (path : String) (mode : FileMode) : Settled { path, mode } :=
  ⟨nofun, nofun⟩

theorem settled_opened {handle : Handle} (h : Disk.Opened f.path (f.mode == .truncate) handle d) :
    { f with writer := some ⟨handle, .empty⟩ }.Settled where
  position w hw := by
    cases hw
    simp only [h.position]
    cases f.mode <;> decide
  pending w id hw _ := by
    cases hw
    rfl

theorem Settled.reopen (f : File) (d : Disk) : (f.reopen d).2.1.Settled := by
  rcases f.reopen_admits d with ⟨-, handle, d', ho, hopened⟩ | ⟨-, e, d', ho⟩
  · rw [ho]
    exact settled_opened hopened
  · rw [ho]
    exact settled_closed f.path f.mode

theorem write_of_file {w : FileWriter} (hw : f.writer = some w) {id : FileId} (ht : w.handle.target = .file id)
    (hp : w.pending = .empty) (formatter : Formatter) (loggerName : String) (level : Level) (e : Event) (d : Disk) :
    let o := OpenFile.placed (formatter.format loggerName level e).toUTF8 ⟨w.handle, d⟩
    f.write formatter loggerName level e d = (.ok (), { f with writer := some ⟨o.handle, .empty⟩ }, o.disk) := by
  obtain ⟨path, mode, writer⟩ := f
  obtain ⟨handle, pending⟩ := w
  obtain rfl : writer = _ := hw
  obtain rfl : pending = .empty := hp
  intro o
  have hdeliver := OpenFile.deliver_placed (o := ⟨handle, d⟩) ht
    ((formatter.pieces loggerName level e).map String.toUTF8)
  rw [joined_toUTF8] at hdeliver
  simp only [write, onWriter, FileWriter.onDisk, hdeliver]
  rfl

theorem position_placed_eq_none_iff {o : OpenFile} {id : FileId} (h : o.handle.target = .file id) (bytes : ByteArray) :
    (o.placed bytes).handle.position = none ↔ o.handle.position = none := by
  by_cases hne : bytes.size = 0
  · rw [OpenFile.placed, if_pos hne]
  · rw [OpenFile.placed_of_file h hne]
    exact Option.map_eq_none_iff

theorem refuses_of_full {o : OpenFile} (h : o.handle.target = .full) (bytes : ByteArray) (hne : bytes.size ≠ 0) :
    ∃ e, Device.write bytes o = (.error e, o) := by
  refine ⟨.os .noSpace, ?_⟩
  show OpenFile.write bytes o = _
  rw [OpenFile.write, h]
  simp only [hne, if_false]

theorem Settled.onWriter (h : f.Settled) {action : Buffered OpenFile → Except Fault Unit × Buffered OpenFile}
    (hfull : ∀ o pending, o.handle.target = .full → ∃ r kept, action ⟨o, pending⟩ = (r, ⟨o, kept⟩))
    (hfile : ∀ (o : OpenFile) id, o.handle.target = .file id →
      ∃ r bytes, action ⟨o, .empty⟩ = (r, ⟨o.placed bytes, .empty⟩)) :
    (f.onWriter d action).2.1.Settled := by
  obtain ⟨path, mode, writer⟩ := f
  cases writer with
  | none => exact h
  | some w =>
    obtain ⟨handle, pending⟩ := w
    have hposition := h.position _ rfl
    cases ht : handle.target with
    | full =>
      obtain ⟨r, kept, hact⟩ := hfull ⟨handle, d⟩ pending ht
      simp only [File.onWriter, FileWriter.onDisk, hact]
      refine ⟨fun w hw => ?_, fun w id hw hid => ?_⟩
      · cases hw; exact hposition
      · cases hw; cases ht.symm.trans hid
    | file id =>
      obtain rfl : pending = .empty := h.pending _ id rfl ht
      obtain ⟨r, bytes, hact⟩ := hfile ⟨handle, d⟩ id ht
      simp only [File.onWriter, FileWriter.onDisk, hact]
      refine ⟨fun w hw => ?_, fun w id hw _ => ?_⟩
      · cases hw
        exact (position_placed_eq_none_iff (o := ⟨handle, d⟩) ht bytes).trans hposition
      · cases hw; rfl

theorem Settled.write (h : f.Settled) (formatter : Formatter) (loggerName : String) (level : Level) (e : Event) :
    (f.write formatter loggerName level e d).2.1.Settled :=
  h.onWriter
    (fun _ pending ho =>
      have ⟨r, kept, hact, _⟩ := Buffered.deliver_refused (refuses_of_full ho) rfl _ pending
      ⟨r, kept, hact⟩)
    fun _ _ ho => ⟨.ok (), _, OpenFile.deliver_placed ho _⟩

theorem Settled.flush (h : f.Settled) : (f.flush d).2.1.Settled :=
  h.onWriter
    (fun _ pending ho =>
      have ⟨r, hact, _⟩ := Buffered.flush_refused (refuses_of_full ho) rfl pending
      ⟨r, pending, hact⟩)
    fun o _ _ => ⟨.ok (), .empty, OpenFile.flush_settled o⟩

/-! ## Sinks as they are made, and later -/

inductive Made (path : String) (mode : FileMode) : List Bool → File → Prop
  | new : Made path mode [] { path, mode }
  | opened {d d' : Disk} {f : File} (h : File.opened path mode d = (.ok f, d')) : Made path mode [true] f
  | reopened {attempts : List Bool} {f : File} (h : Made path mode attempts f) (d : Disk) :
    Made path mode (attempts ++ [d.admits path]) (f.reopen d).2.1

structure Bound (path : String) (mode : FileMode) (target : Option Target) (f : File) : Prop where
  path : f.path = path
  mode : f.mode = mode
  target : f.target? = target
  settled : f.Settled

variable {path : String} {mode : FileMode} {target : Option Target}

theorem Bound.reopen (h : f.Bound path mode target) (d : Disk) :
    ∃ target', (f.reopen d).2.1.Bound path mode target' ∧ target'.isSome = d.admits path := by
  obtain ⟨rfl, rfl, -, -⟩ := h
  rcases f.reopen_admits d with ⟨hadmits, handle, d', ho, hopened⟩ | ⟨hadmits, e, d', ho⟩
  · rw [ho, hadmits]
    exact ⟨some handle.target, ⟨rfl, rfl, rfl, settled_opened hopened⟩, rfl⟩
  · rw [ho, hadmits]
    exact ⟨none, ⟨rfl, rfl, rfl, settled_closed f.path f.mode⟩, rfl⟩

theorem Made.bound {attempts : List Bool} (h : f.Made path mode attempts) :
    ∃ target, f.Bound path mode target ∧ (target.isSome = true ↔ attempts.getLast? = some true) := by
  induction h with
  | new => exact ⟨none, ⟨rfl, rfl, rfl, settled_closed path mode⟩, by simp⟩
  | @opened d d' f ho =>
    unfold File.opened at ho
    rcases reopen_admits { path, mode } d with ⟨-, handle, d₁, hreopen, hopened⟩ | ⟨-, e, d₁, hreopen⟩
    · rw [hreopen] at ho
      cases ho
      exact ⟨some handle.target, ⟨rfl, rfl, rfl, settled_opened hopened⟩, by simp⟩
    · rw [hreopen] at ho
      cases ho
  | reopened _ d ih =>
    obtain ⟨target, hbound, -⟩ := ih
    obtain ⟨target', hbound', hsome⟩ := hbound.reopen d
    exact ⟨target', hbound', by rw [List.getLast?_concat, hsome, Option.some.injEq]⟩

theorem Bound.write (h : f.Bound path mode target) (formatter : Formatter) (loggerName : String) (level : Level)
    (e : Event) : (f.write formatter loggerName level e d).2.1.Bound path mode target where
  path := (f.path_onWriter ..).trans h.path
  mode := (f.mode_onWriter ..).trans h.mode
  target := (target?_onWriter fun b => OpenFile.confined_deliver b _).trans h.target
  settled := h.settled.write formatter loggerName level e

theorem Bound.flush (h : f.Bound path mode target) : (f.flush d).2.1.Bound path mode target where
  path := (f.path_onWriter ..).trans h.path
  mode := (f.mode_onWriter ..).trans h.mode
  target := (target?_onWriter OpenFile.confined_flush).trans h.target
  settled := h.settled.flush

end Sink.File

end Logline
