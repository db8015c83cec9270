import Logline.Proofs.Appender.Course
import Logline.Proofs.Sink.File

/-!
# Appenders whose files come and go

A file sink is open if and only if the last attempt to open it found its path fit to be opened. While it is
closed the appender loses what it is asked to log, without a word and without touching the disk; opening the
path again is all it takes to go on.
-/

namespace Logline.Appender

open Output

/-! ## One appender on a file -/

section
variable {x : Appender} {f : Sink.File} (hf : x.sink = .file f) {h : Host}
include hf

/-- Opening the path again succeeds silently, or fails with a warning and leaves the sink closed. -/
theorem reopen_file : (h.disk.admits f.path = true ∧ ∃ handle d', Disk.Opened f.path (f.mode == .truncate) handle d' ∧
      x.reopen h = (.ok true, { x with sink := .file { f with writer := some ⟨handle, .empty⟩ } }, { h with disk := d' })) ∨
    (h.disk.admits f.path = false ∧ ∃ e d', f.reopen h.disk = (.error e, { f with writer := none }, d') ∧
      let told := { h with disk := d' }.complain (f.warning e)
      x.reopen h = (told.1.map fun _ => false, { x with sink := .file { f with writer := none } }, told.2)) := by
  rcases f.reopen_admits h.disk with ⟨hadmits, handle, d', ho, hopened⟩ | ⟨hadmits, e, d', ho⟩
  · refine .inl ⟨hadmits, handle, d', hopened, ?_⟩
    simp only [reopen, hf, Sink.reopen, Sink.File.reopenOrComplain, ho]
  · refine .inr ⟨hadmits, e, d', ho, ?_⟩
    simp only [reopen, hf, Sink.reopen, Sink.File.reopenOrComplain, ho]
    rfl

theorem isReady_file : x.sink.isReady = f.isOpen := by
  rw [hf]
  rfl

/-- A closed sink takes nothing, and neither disk nor error stream hears of it. -/
theorem log_closed (hclosed : f.isOpen = false) (loggerName : String) (level : Level) (e : Event) :
    x.log loggerName level e h = (.ok (), x.record (if level < x.level then .filtered else .dropped), h) := by
  have hready : ¬ x.sink.isReady = true := by
    rw [isReady_file hf, hclosed]
    nofun
  rw [log, if_neg hready]
  split <;> rfl

theorem flush_closed (hclosed : f.isOpen = false) : x.flush h = (.ok (), x, h) := by
  obtain ⟨path, mode, writer⟩ := f
  obtain rfl : writer = none := Option.isSome_eq_false_iff.mp hclosed |> Option.isNone_iff_eq_none.mp
  have hsame : { x with sink := .file { path, mode } } = x := by rw [← hf]
  simp only [flush, Sink.flush, hf, Sink.File.flush, Sink.File.onWriter, hsame]

/-- An event at or above the threshold is placed in the file that is open. -/
theorem log_of_writer {w : Sink.FileWriter} (hw : f.writer = some w) {id : FileId} (ht : w.handle.target = .file id)
    (hp : w.pending = .empty) {level : Level} (hl : ¬ level < x.level) (loggerName : String) (e : Event) :
    let o := OpenFile.placed (x.formatter.format loggerName level e).toUTF8 ⟨w.handle, h.disk⟩
    x.log loggerName level e h =
      (.ok (), { x with sink := .file { f with writer := some ⟨o.handle, .empty⟩ } }.record .written,
        { h with disk := o.disk }) := by
  intro o
  have hwrite := Sink.File.write_of_file hw ht hp x.formatter loggerName level e h.disk
  have hready : x.sink.isReady = true := by
    rw [isReady_file hf, Sink.File.isOpen, hw]
    rfl
  rw [log, if_neg hl, if_pos hready, hf]
  simp only [Sink.write, hwrite]
  rfl

/-- The first event that is let through after the path has been opened goes to the end of its file. -/
theorem content_log_of_opened {handle : Handle} (ho : Disk.Opened f.path (f.mode == .truncate) handle h.disk)
    (hw : f.writer = some ⟨handle, .empty⟩) {id : FileId} (hid : h.disk.fileAt? f.path = some id)
    (hlt : id < h.disk.contents.size) {level : Level} (hl : ¬ level < x.level) (loggerName : String) (e : Event) :
    (x.log loggerName level e h).2.2.disk.content id =
      h.disk.content id ++ (x.formatter.format loggerName level e).toUTF8 := by
  have htarget : handle.target = .file id := Target.file?_eq_some_iff.mp (ho.file.symm.trans hid)
  rw [log_of_writer hf hw htarget rfl hl]
  refine OpenFile.content_placed_of_end htarget hlt (fun p hp => ?_) _
  have hposition := ho.position.symm.trans hp
  by_cases hemptied : (f.mode == .truncate) = true
  · rw [if_pos hemptied] at hposition
    cases hposition
    rw [ho.empty hemptied id htarget]
    rfl
  · rw [if_neg hemptied] at hposition
    cases hposition

end

/-! ## What its steps keep -/

def OnPath (path : String) (mode : FileMode) (target : Option Target) (x : Appender) : Prop :=
  ∃ f, x.sink = .file f ∧ f.Bound path mode target

namespace OnPath

variable {path : String} {mode : FileMode} {target : Option Target} {x : Appender} {h : Host}

theorem isReady (hx : x.OnPath path mode target) : x.sink.isReady = target.isSome := by
  obtain ⟨f, hf, hbound⟩ := hx
  rw [isReady_file hf, f.isOpen_eq, hbound.target]

theorem log (hx : x.OnPath path mode target) (loggerName : String) (level : Level) (e : Event) :
    (x.log loggerName level e h).2.1.OnPath path mode target := by
  refine sink_log (P := fun sink => ∃ f, sink = .file f ∧ f.Bound path mode target) _ _ _ _ _ hx ?_
  obtain ⟨f, hf, hbound⟩ := hx
  rw [hf]
  exact ⟨_, rfl, hbound.write x.formatter loggerName level e⟩

theorem flush (hx : x.OnPath path mode target) : (x.flush h).2.1.OnPath path mode target := by
  obtain ⟨f, hf, hbound⟩ := hx
  have hflush : (x.flush h).2.1.sink = .file (f.flush h.disk).2.1 := by
    simp only [Appender.flush, Sink.flush, hf]
  exact ⟨_, hflush, hbound.flush⟩

theorem reopen (hx : x.OnPath path mode target) :
    ∃ target', (x.reopen h).2.1.OnPath path mode target' ∧ target'.isSome = h.disk.admits path := by
  obtain ⟨f, hf, hbound⟩ := hx
  obtain ⟨target', hbound', hsome⟩ := hbound.reopen h.disk
  have hreopen : (x.reopen h).2.1.sink = .file (f.reopen h.disk).2.1 := by
    simp only [Appender.reopen, Sink.reopen, hf, Sink.File.reopenOrComplain]
    split <;> rfl
  exact ⟨target', ⟨_, hreopen, hbound'⟩, hsome⟩

theorem metrics_log (hx : x.OnPath path mode target) {id : FileId} (hid : target.bind Target.file? = some id)
    {level : Level} (hl : ¬ level < x.level) (loggerName : String) (e : Event) :
    (x.log loggerName level e h).2.1.metrics = x.metrics.record .written := by
  obtain ⟨f, hf, hbound⟩ := hx
  rw [← hbound.target, Sink.File.target?, Option.bind_map] at hid
  obtain ⟨w, hw, ht⟩ := Option.bind_eq_some_iff.mp hid
  have htarget := Target.file?_eq_some_iff.mp ht
  rw [log_of_writer hf hw htarget (hbound.settled.pending w id hw htarget) hl]
  rfl

/-- Only what opens the path again changes what the sink writes to. -/
theorem apply {s : Appender × Host} (hs : s.1.OnPath path mode target) {st : Step} (hst : st ≠ .reopen) :
    (st.apply s).1.OnPath path mode target := by
  obtain ⟨x, h⟩ := s
  cases st with
  | call c =>
    cases c with
    | log loggerName level e => exact hs.log loggerName level e
    | setLevel | setPattern | setFormatter => exact hs
  | reopen => exact absurd rfl hst
  | flush => exact hs.flush
  | outside => exact hs

theorem course_of_no_reopen {s : Appender × Host} (hs : s.1.OnPath path mode target) {steps : List Step}
    (hsteps : .reopen ∉ steps) : (course steps s).1.OnPath path mode target := by
  induction steps generalizing s with
  | nil => exact hs
  | cons st steps ih =>
    obtain ⟨hst, hrest⟩ := List.ne_and_not_mem_of_not_mem_cons hsteps
    exact ih (hs.apply hst.symm) hrest

end OnPath

/-! ## Attempts to open its file -/

/-- Whether the path was fit to be opened, if the step opens it. -/
def Step.attempt (path : String) : Step → Host → List Bool
  | reopen, h => [h.disk.admits path]
  | _, _ => []

def attempts (path : String) : List Step → Appender × Host → List Bool
  | [], _ => []
  | st :: steps, s => st.attempt path s.2 ++ attempts path steps (st.apply s)

section
variable {path : String} {mode : FileMode}

theorem exists_onPath_apply {target : Option Target} {s : Appender × Host} (hs : s.1.OnPath path mode target)
    {past : List Bool} (hpast : target.isSome = true ↔ past.getLast? = some true) (st : Step) :
    ∃ target', (st.apply s).1.OnPath path mode target' ∧
      (target'.isSome = true ↔ (past ++ st.attempt path s.2).getLast? = some true) := by
  by_cases hst : st = .reopen
  · subst hst
    obtain ⟨target', hs', hsome⟩ := hs.reopen (h := s.2)
    refine ⟨target', hs', ?_⟩
    rw [Step.attempt, List.getLast?_concat, hsome, Option.some.injEq]
  · refine ⟨target, hs.apply hst, ?_⟩
    have hnone : st.attempt path s.2 = [] := by
      cases st with
      | reopen => exact absurd rfl hst
      | call | flush | outside => rfl
    rw [hnone, List.append_nil]
    exact hpast

theorem exists_onPath_course {target : Option Target} {s : Appender × Host} (hs : s.1.OnPath path mode target)
    {past : List Bool} (hpast : target.isSome = true ↔ past.getLast? = some true) (steps : List Step) :
    ∃ target', (course steps s).1.OnPath path mode target' ∧
      (target'.isSome = true ↔ (past ++ attempts path steps s).getLast? = some true) := by
  -- the outcomes so far are carried along: between attempts the last of them still decides
  induction steps generalizing s target past with
  | nil => exact ⟨target, hs, by rwa [attempts, List.append_nil]⟩
  | cons st steps ih =>
    obtain ⟨target', hs', hpast'⟩ := exists_onPath_apply hs hpast st
    obtain ⟨target'', hrest, hlast⟩ := ih hs' hpast'
    rw [List.append_assoc] at hlast
    exact ⟨target'', hrest, hlast⟩

/-- Whatever befalls an appender on a file, and whatever others do to the disk, its sink is open if and only
if the last attempt to open it has gone well, and every event it is handed is counted once. While it is closed
no event is written, nothing is said, and neither logging nor flushing does anything to the host. Whether an
attempt goes well is a matter of the path alone: a failed one gives a warning, whole on an error stream without
limit and otherwise as far as there is room, and leaves the sink closed; after one that has gone well every event
that is let through is written, the first at the end of the file. -/
theorem file_sink_course {x : Appender} {f : Sink.File} {earlier : List Bool} (hf : x.sink = .file f)
    (hmade : f.Made path mode earlier) (h : Host) (steps : List Step) :
    let opened := (earlier ++ attempts path steps (x, h)).getLast? = some true
    let (y, k) := course steps (x, h)
    ∃ g, y.sink = .file g ∧ g.path = path ∧ g.mode = mode ∧ (g.isOpen = true ↔ opened) ∧
      (∀ loggerName level e, let fate := y.fate loggerName level e k
        (∀ c, (y.log loggerName level e k).2.1.metrics.count c = y.metrics.count c + if c = fate then 1 else 0) ∧
        (fate = .filtered ↔ level < y.level) ∧ (fate = .written → opened)) ∧
      (¬ opened → y.flush k = (.ok (), y, k) ∧ ∀ loggerName level e,
        y.log loggerName level e k = (.ok (), y.record (if level < y.level then .filtered else .dropped), k)) ∧
      let (r, z, l) := y.reopen k
      (r = .ok true ↔ k.disk.admits path = true) ∧ (k.stderr.limit = none → r = .ok (k.disk.admits path)) ∧
      z.sink.isReady = k.disk.admits path ∧
      (k.disk.admits path = false → ∃ fault d, g.reopen k.disk = (.error fault, { g with writer := none }, d) ∧
        let line := "[LOGGER WARNING] Failed to reopen log file '" ++ path ++ "': " ++ fault.message
        let told := { k with disk := d }.complain line
        r = told.1.map (fun _ => false) ∧ l = told.2 ∧ (k.stderr.limit = none →
          l = { k with disk := d, stderr := k.stderr.taking (line ++ "\n").toUTF8 })) ∧
      (r = .ok true → l = { k with disk := l.disk } ∧ ∀ id, l.disk.fileAt? path = some id →
        (∀ later, .reopen ∉ later → let (w, m) := course later (z, l)
          ∀ loggerName level e, ¬ level < w.level →
            (w.log loggerName level e m).2.1.metrics = w.metrics.record .written) ∧
        (id < l.disk.contents.size → ∀ loggerName level e, ¬ level < z.level →
          (z.log loggerName level e l).2.2.disk.content id =
            l.disk.content id ++ (z.formatter.format loggerName level e).toUTF8)) := by
  intro opened
  obtain ⟨target, hbound, hearlier⟩ := hmade.bound
  have hcourse := exists_onPath_course (s := (x, h)) ⟨f, hf, hbound⟩ hearlier steps
  generalize course steps (x, h) = s at hcourse ⊢
  obtain ⟨y, k⟩ := s
  obtain ⟨target', ⟨g, hg, hlater⟩, hlast⟩ := hcourse
  have hopen : g.isOpen = true ↔ opened := by rw [g.isOpen_eq, hlater.target]; exact hlast
  refine ⟨g, hg, hlater.path, hlater.mode, hopen, fun loggerName level e => ⟨?_, ?_, ?_⟩, fun hopened => ?_, ?_⟩
  · exact fun c => y.count_log loggerName level e k c
  · exact y.fate_eq_filtered_iff loggerName level e k
  · exact fun hwritten => hopen.mp ((isReady_file hg).symm.trans (isReady_of_written hwritten))
  · have hclosed : g.isOpen = false := Bool.eq_false_iff.mpr fun h => hopened (hopen.mp h)
    exact ⟨flush_closed hg hclosed, fun loggerName level e => log_closed hg hclosed loggerName level e⟩
  · obtain ⟨rfl, rfl, -, -⟩ := hlater
    rcases reopen_file hg (h := k) with ⟨hadmits, handle, d, hon, hreopen⟩ | ⟨hadmits, fault, d, hfails, hreopen⟩
    · rw [hreopen, hadmits]
      refine ⟨⟨fun _ => rfl, fun _ => rfl⟩, fun _ => rfl, rfl, nofun,
        fun _ => ⟨rfl, fun id hid => ⟨fun later hno => ?_, fun hlt => ?_⟩⟩⟩
      · have hz : OnPath g.path g.mode (some handle.target)
            { y with sink := .file { g with writer := some ⟨handle, .empty⟩ } } :=
          ⟨_, rfl, rfl, rfl, rfl, Sink.File.settled_opened hon⟩
        have hm := hz.course_of_no_reopen (s := (_, { k with disk := d })) hno
        exact fun loggerName level e hl => hm.metrics_log (hon.file.symm.trans hid) hl loggerName e
      · exact fun loggerName level e hl =>
          content_log_of_opened (f := { g with writer := some ⟨handle, .empty⟩ }) rfl hon rfl hid hlt hl loggerName e
    · let told := { k with disk := d }.complain (g.warning fault)
      have hfailed : told.1.map (fun _ => false) ≠ .ok true := by
        cases told.1 with
        | ok => nofun
        | error => nofun
      have htold : k.stderr.limit = none → told =
          (.ok (), { k with disk := d, stderr := k.stderr.taking (g.warning fault ++ "\n").toUTF8 }) :=
        fun hroom => Host.complain_of_unlimited (h := { k with disk := d }) hroom (g.warning fault)
      rw [hreopen, hadmits]
      refine ⟨⟨fun hok => absurd hok hfailed, nofun⟩, fun hroom => ?_, rfl,
        fun _ => ⟨fault, d, hfails, rfl, rfl, fun hroom => congrArg Prod.snd (htold hroom)⟩,
        fun hok => absurd hok hfailed⟩
      show told.1.map (fun _ => false) = _
      rw [htold hroom]
      rfl

end

/-- A path that is a directory cannot be opened, which is told. Once the directory has gone it can, and the next
event is written; the first one is lost. -/
theorem file_sink_course_freed :
    let e : Event :=
      { fileName := "f", line := 1, elapsed := 0, threadId := 1, fiberId := 0, time := 0, content := "a" }
    let f : Sink.File := { path := "x", mode := .append }
    let x : Appender := { id := ⟨0⟩, level := .info, formatter := ⟨"%m", [.message]⟩, sink := .file f }
    let h : Host := { disk := ({} : Disk).addEntry ["tmp", "", "x"] .directory }
    let freed : Step := .outside fun h => { h with disk := h.disk.dropEntry ["tmp", "", "x"] }
    f.Made "x" .append [] ∧ (x.reopen h).1 = .ok false ∧
      let (y, k) := course [.call (.log "l" .info e), freed] (x, h)
      let (r, z, l) := y.reopen k
      y.metrics.dropped = 1 ∧ r = .ok true ∧ (z.log "l" .info e l).2.1.metrics = z.metrics.record .written := by
  intro e f x h freed
  have hmade : f.Made "x" .append [] := .new
  have hadmits : h.disk.admits "x" = false := by cbv
  have hblocked : (x.reopen h).1 = .ok false := by
    have hall := file_sink_course (x := x) rfl hmade h []
    have hnone : course [] (x, h) = (x, h) := rfl
    simp only [hnone] at hall
    generalize x.reopen h = t at hall ⊢
    obtain ⟨-, -, -, -, -, -, -, -, hr, -⟩ := hall
    exact (hr rfl).trans (congrArg _ hadmits)
  have hall := file_sink_course (x := x) rfl hmade h [.call (.log "l" .info e), freed]
  generalize hs : course [.call (.log "l" .info e), freed] (x, h) = s at hall ⊢
  obtain ⟨y, k⟩ := s
  have hdropped : y.metrics.dropped = 1 := by cases hs; rfl
  have hadmits' : k.disk.admits "x" = true := by cases hs; cbv
  have hid : (y.reopen k).2.2.disk.fileAt? "x" = some 0 := by cases hs; cbv
  have hlevel : ¬ Level.info < (y.reopen k).2.1.level := by cases hs; decide
  simp only at hall ⊢
  generalize y.reopen k = t at hall hid hlevel ⊢
  obtain ⟨-, -, -, -, -, -, -, hr, -, -, -, hresumed⟩ := hall
  have hopened := hr.mpr hadmits'
  have hwritten := ((hresumed hopened).2 0 hid).1 [] List.not_mem_nil "l" .info e hlevel
  exact ⟨hmade, hblocked, hdropped, hopened, hwritten⟩

end Logline.Appender
