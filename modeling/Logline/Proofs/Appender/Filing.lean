import Logline.Appender
import Logline.Proofs.Appender.Fate
import Logline.Proofs.Sink.File

/-!
# Appenders on files

A file sink in append mode whose buffer is empty between calls. What it is asked to write goes whole to the
end of the file it has open, and it has that file open until it opens its path again or is closed.
-/

namespace Logline

open Output

/-! ## One file sink -/

namespace Sink.File

def file? (f : File) : Option FileId :=
  f.writer.bind (·.handle.target.file?)

structure Appends (f : File) (d : Disk) : Prop where
  mode : f.mode = .append
  position : ∀ w, f.writer = some w → w.handle.position = none
  settled : ∀ w id, f.writer = some w → w.handle.target = .file id → id < d.contents.size ∧ w.pending = .empty

variable {f : File} {d d' : Disk}

theorem Appends.mono (h : f.Appends d) (hsize : d.contents.size ≤ d'.contents.size) : f.Appends d' where
  mode := h.mode
  position := h.position
  settled w id hw ht := ⟨Nat.lt_of_lt_of_le (h.settled w id hw ht).1 hsize, (h.settled w id hw ht).2⟩

theorem Appends.of_closed (hm : f.mode = .append) (hw : f.writer = none) (d : Disk) : f.Appends d where
  mode := hm
  position w h := by rw [hw] at h; cases h
  settled w id h := by rw [hw] at h; cases h

/-- What is asked of a sink with an open file goes to the end of that file. -/
theorem onWriter_of_file? (h : f.Appends d) {id : FileId} (hid : f.file? = some id)
    {action : Buffered OpenFile → Except Fault Unit × Buffered OpenFile}
    (ha : action ⟨atEnd id d, .empty⟩ = (.ok (), ⟨atEnd id d', .empty⟩)) :
    f.onWriter d action = (.ok (), f, d') := by
  obtain ⟨path, mode, writer⟩ := f
  cases writer with
  | none => cases hid
  | some w =>
    obtain ⟨⟨target, position⟩, pending⟩ := w
    cases target with
    | full => cases hid
    | file id' =>
      obtain rfl : id' = id := Option.some.inj hid
      obtain rfl : position = none := h.position _ rfl
      obtain rfl : pending = .empty := (h.settled _ _ rfl rfl).2
      have ha : action ⟨⟨⟨.file id', none⟩, d⟩, .empty⟩ = _ := ha
      simp only [onWriter, FileWriter.onDisk, ha]
      rfl

theorem lt_of_file? (h : f.Appends d) {id : FileId} (hid : f.file? = some id) : id < d.contents.size := by
  obtain ⟨w, hw, ht⟩ := Option.bind_eq_some_iff.mp hid
  exact (h.settled w id hw (Target.file?_eq_some_iff.mp ht)).1

/-- A sink that is closed or open on the full device leaves the disk as it is. -/
theorem onWriter_of_no_file (h : f.Appends d) (hid : f.file? = none) {P : Prop}
    {action : Buffered OpenFile → Except Fault Unit × Buffered OpenFile}
    (ha : ∀ o pending, o.handle.target = .full →
      ∃ r kept, action ⟨o, pending⟩ = (r, ⟨o, kept⟩) ∧ (r = .ok () → P)) :
    ∃ r f', f.onWriter d action = (r, f', d) ∧ f'.file? = none ∧ f'.Appends d ∧
      (f.isOpen = true → r = .ok () → P) := by
  obtain ⟨path, mode, writer⟩ := f
  cases writer with
  | none => exact ⟨_, _, rfl, rfl, h, nofun⟩
  | some w =>
    obtain ⟨⟨target, position⟩, pending⟩ := w
    cases target with
    | file id => cases hid
    | full =>
      obtain rfl : position = none := h.position _ rfl
      obtain ⟨r, kept, hact, hr⟩ := ha ⟨⟨.full, none⟩, d⟩ pending rfl
      refine ⟨r, ⟨path, mode, some ⟨⟨.full, none⟩, kept⟩⟩, ?_, rfl, ⟨h.mode, fun w hw => ?_, fun w id hw ht => ?_⟩,
        fun _ => hr⟩
      · simp only [onWriter, FileWriter.onDisk, hact]
      · cases hw; rfl
      · cases hw; cases ht

section
variable (h : f.Appends d) (formatter : Formatter) (loggerName : String) (level : Level) (e : Event)
include h

theorem write_of_file? {id : FileId} (hid : f.file? = some id) : f.write formatter loggerName level e d =
    (.ok (), f, d.grown id (formatter.format loggerName level e).toUTF8) := by
  rw [Formatter.format, ← joined_toUTF8]
  exact onWriter_of_file? h hid (by rw [OpenFile.deliver_placed rfl, placed_atEnd])

theorem write_of_no_file (hid : f.file? = none) :
    ∃ r f', f.write formatter loggerName level e d = (r, f', d) ∧ f'.file? = none ∧ f'.Appends d ∧
      (f.isOpen = true → r = .ok () → (formatter.format loggerName level e).toUTF8 = .empty) := by
  rw [Formatter.format, ← joined_toUTF8]
  exact onWriter_of_no_file h hid fun o pending ho => Buffered.deliver_refused (refuses_of_full ho) rfl _ pending

end

section
variable (h : f.Appends d)
include h

theorem flush_appends : ∃ r f', f.flush d = (r, f', d) ∧ f'.file? = f.file? ∧ f'.Appends d := by
  cases hid : f.file? with
  | none =>
    obtain ⟨r, f', hflush, hfile, happends, -⟩ := onWriter_of_no_file h hid (P := True) fun o pending ho =>
      have ⟨r, hr, _⟩ := Buffered.flush_refused (refuses_of_full ho) rfl pending
      ⟨r, pending, hr, fun _ => trivial⟩
    exact ⟨r, f', hflush, hfile, happends⟩
  | some id =>
    have hflush : f.flush d = (.ok (), f, d) :=
      onWriter_of_file? h hid (OpenFile.flush_settled _)
    exact ⟨.ok (), f, hflush, hid, h⟩

theorem close_appends : ∃ f', f.close d = (f', d) ∧ f'.path = f.path ∧ f'.mode = .append ∧ f'.writer = none := by
  obtain ⟨r, f', hflush, -, happends⟩ := flush_appends h
  have hpath : (f.flush d).2.1.path = f.path := path_onWriter ..
  rw [hflush] at hpath
  exact ⟨{ f' with writer := none }, by simp only [close, hflush], hpath, happends.mode, rfl⟩

/-- A sink that is opened again writes from then on to the file that its path names. -/
theorem reopen_appends (hd : d.Sound) : ∃ r f' d', f.reopen d = (r, f', d') ∧ f'.path = f.path ∧ f'.Appends d' ∧
    d.Kept d' ∧ (r = .ok () → f'.file? = d'.fileAt? f.path ∧
      ∀ id, d.fileAt? f.path = some id → d'.fileAt? f.path = some id) := by
  obtain ⟨f', hclose, hpath, hmode, hw⟩ := close_appends h
  have hemptied : (f'.mode == FileMode.truncate) = false := by rw [hmode]; rfl
  cases ho : d.openFile f'.path false with
  | mk r d' =>
    cases r with
    | error e =>
      refine ⟨.error e, f', d', by simp only [reopen, hclose, hemptied, ho], hpath, .of_closed hmode hw d', ?_, nofun⟩
      rw [Disk.openFile_error ho]
      exact .refl d
    | ok handle =>
      obtain ⟨hposition, hfile, hnamed, hkept⟩ := Disk.openFile_appending ho
      refine ⟨.ok (), { f' with writer := some ⟨handle, .empty⟩ }, d',
        by simp only [reopen, hclose, hemptied, ho], hpath, ?_, hkept, fun _ => ?_⟩
      · refine ⟨hmode, fun w hw => ?_, fun w id hw ht => ?_⟩
        · cases hw; exact hposition
        · cases hw
          have hid : d'.fileAt? f'.path = some id := by rw [← hfile, ht]; rfl
          exact ⟨(hkept.sound hd).lt_of_fileAt? hid, rfl⟩
      · rw [← hpath]
        exact ⟨hfile, hnamed⟩

end

end Sink.File

/-! ## An appender on a file -/

namespace Appender

def file? (x : Appender) : Option FileId :=
  match x.sink with
  | .file f => f.file?
  | .console _ => none

def path? (x : Appender) : Option String :=
  match x.sink with
  | .file f => some f.path
  | .console _ => none

def Appends (x : Appender) (d : Disk) : Prop :=
  ∃ f, x.sink = .file f ∧ f.Appends d

variable {x : Appender} {h : Host}

theorem Appends.mono {d d' : Disk} (hx : x.Appends d) (hsize : d.contents.size ≤ d'.contents.size) : x.Appends d' := by
  obtain ⟨f, hf, happends⟩ := hx
  exact ⟨f, hf, happends.mono hsize⟩

theorem path_log (loggerName : String) (level : Level) (e : Event) : (x.log loggerName level e h).2.1.path? = x.path? := by
  refine x.sink_log loggerName level e h (P := fun sink => path? { x with sink } = x.path?) rfl ?_
  cases hs : x.sink with
  | console c => simp only [path?, Sink.write, hs]
  | file f => simp only [path?, Sink.write, hs, Sink.File.write, Sink.File.path_onWriter]

section
variable (hx : x.Appends h.disk) {loggerName : String} {level : Level} {e : Event}
include hx

theorem lt_of_file? {id : FileId} (hid : x.file? = some id) : id < h.disk.contents.size := by
  obtain ⟨f, hf, happends⟩ := hx
  rw [file?, hf] at hid
  exact Sink.File.lt_of_file? happends hid

/-- An event at or above the threshold is in the file when the call returns. -/
theorem log_of_file? {id : FileId} (hid : x.file? = some id) (hl : ¬ level < x.level) :
    x.log loggerName level e h = (.ok (), x.record .written,
      { h with disk := h.disk.grown id (x.formatter.format loggerName level e).toUTF8 }) := by
  obtain ⟨f, hf, happends⟩ := hx
  have hid : f.file? = some id := by rw [file?, hf] at hid; exact hid
  have hopen : f.isOpen = true := by
    cases hw : f.writer with
    | none => rw [Sink.File.file?, hw] at hid; cases hid
    | some w => rw [Sink.File.isOpen, hw]; rfl
  have hsame : { x with sink := .file f } = x := by rw [← hf]
  rw [log, if_neg hl, hf, if_pos (show (Sink.file f).isReady = true from hopen)]
  simp only [Sink.write, Sink.File.write_of_file? happends x.formatter loggerName level e hid, hsame]

variable (loggerName e) in
/-- An event that is kept back, or finds no file open, leaves the disk as it is; if it is counted as
written all the same, there was nothing to write. -/
theorem log_of_no_file (hno : x.file? = none ∨ level < x.level) :
    (x.log loggerName level e h).2.2.disk = h.disk ∧ (x.log loggerName level e h).2.1.Appends h.disk ∧
      (x.log loggerName level e h).2.1.file? = x.file? ∧
      (x.fate loggerName level e h = .written → (x.formatter.format loggerName level e).toUTF8 = .empty) := by
  by_cases hl : level < x.level
  · rw [log_of_lt hl, (x.fate_eq_filtered_iff loggerName level e h).mpr hl]
    exact ⟨rfl, hx, rfl, nofun⟩
  obtain ⟨f, hf, happends⟩ := hx
  have hfile : x.file? = f.file? := by rw [file?, hf]
  have hid : f.file? = none := hfile ▸ hno.resolve_right hl
  rw [hfile, hid, log, fate, if_neg hl, if_neg hl, hf]
  split
  · next hready =>
    obtain ⟨r, f', hwrite, hnone, hkept, hempty⟩ :=
      Sink.File.write_of_no_file happends x.formatter loggerName level e hid
    simp only [Sink.write, hwrite]
    cases r with
    | ok u => exact ⟨rfl, ⟨f', rfl, hkept⟩, hnone, fun _ => hempty hready rfl⟩
    | error fault =>
      exact ⟨host_report (P := fun k => k.disk = h.disk) rfl (fun _ => rfl) x fault, ⟨f', rfl, hkept⟩, hnone, nofun⟩
  · exact ⟨rfl, ⟨f, hf, happends⟩, hfile.trans hid, nofun⟩

end

/-! ## Opening again, flushing and giving up -/

/-- An appender that is given up closes its file. -/
def drop (x : Appender) (h : Host) : Appender × Host :=
  match x.sink with
  | .console _ => (x, h)
  | .file f =>
    let (f, disk) := f.close h.disk
    ({ x with sink := .file f }, { h with disk })

section
variable (hx : x.Appends h.disk)
include hx

/-- From then on the appender writes to the file that its path names. -/
theorem reopen_appends (hd : h.disk.Sound) :
    (x.reopen h).2.1.path? = x.path? ∧ h.disk.Kept (x.reopen h).2.2.disk ∧
    (x.reopen h).2.1.Appends (x.reopen h).2.2.disk ∧
    ∀ path, x.path? = some path → (x.reopen h).1 = .ok true →
      (x.reopen h).2.1.file? = (x.reopen h).2.2.disk.fileAt? path ∧
        ∀ id, h.disk.fileAt? path = some id → (x.reopen h).2.2.disk.fileAt? path = some id := by
  obtain ⟨f, hf, happends⟩ := hx
  obtain ⟨r, f', d', hreopen, hpath, hsettled, hkept, hopened⟩ := Sink.File.reopen_appends happends hd
  cases r with
  | ok u =>
    have heq : x.reopen h = (.ok true, { x with sink := .file f' }, { h with disk := d' }) := by
      simp only [reopen, hf, Sink.reopen, Sink.File.reopenOrComplain, hreopen]
    rw [heq]
    refine ⟨by simp only [path?, hf, hpath], hkept, ⟨f', rfl, hsettled⟩, fun path hp _ => ?_⟩
    obtain rfl : f.path = path := by simpa only [path?, hf, Option.some.injEq] using hp
    exact hopened rfl
  | error e =>
    let told := { h with disk := d' }.complain (f'.warning e)
    have heq : x.reopen h = (told.1.map fun _ => false, { x with sink := .file f' }, told.2) := by
      simp only [reopen, hf, Sink.reopen, Sink.File.reopenOrComplain, hreopen, told]
    have hfailed : told.1.map (fun _ => false) ≠ .ok true := by
      cases told.1 with
      | ok => nofun
      | error => nofun
    rw [heq]
    exact ⟨by simp only [path?, hf, hpath], hkept, ⟨f', rfl, hsettled⟩, fun _ _ hok => absurd hok hfailed⟩

theorem flush_appends : (x.flush h).2.1.path? = x.path? ∧ (x.flush h).2.2.disk = h.disk ∧
    (x.flush h).2.1.file? = x.file? ∧ (x.flush h).2.1.Appends h.disk := by
  obtain ⟨f, hf, happends⟩ := hx
  obtain ⟨r, f', hflush, hfile, hsettled⟩ := Sink.File.flush_appends happends
  have hpath : (f.flush h.disk).2.1.path = f.path := Sink.File.path_onWriter ..
  rw [hflush] at hpath
  simp only [flush, Sink.flush, hf, hflush, file?, path?]
  exact ⟨congrArg some hpath, trivial, hfile, f', rfl, hsettled⟩

theorem drop_appends : (x.drop h).1.path? = x.path? ∧ (x.drop h).2.disk = h.disk ∧ (x.drop h).1.file? = none ∧
    (x.drop h).1.Appends h.disk := by
  obtain ⟨f, hf, happends⟩ := hx
  obtain ⟨f', hclose, hpath, hmode, hw⟩ := Sink.File.close_appends happends
  have heq : x.drop h = ({ x with sink := .file f' }, h) := by simp only [drop, hf, hclose]
  rw [heq]
  refine ⟨by simp only [path?, hf, hpath], rfl, ?_, f', rfl, .of_closed hmode hw _⟩
  show f'.file? = none
  rw [Sink.File.file?, hw]
  rfl

end

end Appender

end Logline
