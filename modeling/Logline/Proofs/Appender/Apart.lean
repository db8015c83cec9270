import Mathlib.Data.List.Basic
import Logline.Proofs.Appender.Filing
import Logline.Proofs.Output.Site

/-!
# Appenders that are kept apart

What an appender does shows at its own site, and as a complaint on the error stream, and nowhere else. What
becomes of its events depends on nothing but itself, its site and the switch for colours.
-/

namespace Logline

open Output

namespace Sink

def site : Sink → Site
  | console c => .outlet c.outlet
  | file f => .file f.path

namespace File

/-- An open file is the one at the path, and all that was written is in it. -/
def Anchored (f : File) (d : Disk) : Prop :=
  ∀ w id, f.writer = some w → w.handle.target = .file id → d.fileAt? f.path = some id ∧ w.pending = .empty

/-! ## What a file sink leaves alone -/

structure Seated (d₀ : Disk) (f : File) (d : Disk) : Prop where
  sound : d₀.Sound
  later : d₀.Later d
  anchored : f.Anchored d

structure Worked (d₀ : Disk) (f : File) (d : Disk) (f' : File) (d' : Disk) : Prop where
  path : f'.path = f.path
  mode : f'.mode = f.mode
  later : d.Later d'
  anchored : f'.Anchored d'
  prospect : ∀ q, d₀.Apart f.path q → d'.prospect q = d.prospect q

theorem anchored_closed {f : File} (h : f.writer = none) (d : Disk) : f.Anchored d := by
  intro w id hw
  rw [h] at hw
  cases hw

variable {d₀ d : Disk} {f : File}

theorem Anchored.mono {d' : Disk} (hf : f.Anchored d) (h : d.Later d') : f.Anchored d' := by
  intro w id hw ht
  exact ⟨h.fileAt?_some (hf w id hw ht).1, (hf w id hw ht).2⟩

section
variable (hf : f.Anchored d)
include hf

theorem flush_anchored : ∃ r, f.flush d = (r, f, d) := by
  obtain ⟨path, mode, writer⟩ := f
  cases writer with
  | none => exact ⟨_, rfl⟩
  | some w =>
    obtain ⟨⟨target, position⟩, pending⟩ := w
    have hflush : ∃ r, Stream.flush (⟨⟨⟨target, position⟩, d⟩, pending⟩ : Buffered OpenFile) =
        (r, ⟨⟨⟨target, position⟩, d⟩, pending⟩) := by
      cases target with
      | full =>
        obtain ⟨r, hr, -⟩ := Buffered.flush_refused (d := ⟨⟨.full, position⟩, d⟩) (refuses_of_full rfl) rfl pending
        exact ⟨r, hr⟩
      | file id =>
        obtain rfl : pending = .empty := (hf _ id rfl rfl).2
        exact ⟨_, OpenFile.flush_settled _⟩
    obtain ⟨r, hr⟩ := hflush
    exact ⟨r, by simp only [flush, onWriter, FileWriter.onDisk, hr]⟩

theorem reopen_anchored : f.reopen d =
    match d.openFile f.path (f.mode == .truncate) with
    | (.ok handle, d') => (.ok (), { f with writer := some ⟨handle, .empty⟩ }, d')
    | (.error e, d') => (.error e, { f with writer := none }, d') := by
  obtain ⟨r, hflush⟩ := flush_anchored hf
  have hreopen := f.reopen_eq d
  rw [hflush] at hreopen
  exact hreopen

theorem reopen_error {e : Fault} {g : File} {d' : Disk} (h : f.reopen d = (.error e, g, d')) : d' = d := by
  rw [reopen_anchored hf] at h
  split at h
  · cases h
  · next ho =>
    cases h
    exact Disk.openFile_error ho

end

section
variable (hf : f.Seated d₀ d)
include hf

theorem worked_write (formatter : Formatter) (loggerName : String) (level : Level) (e : Event) :
    f.Worked d₀ d (f.write formatter loggerName level e d).2.1 (f.write formatter loggerName level e d).2.2 := by
  obtain ⟨path, mode, writer⟩ := f
  cases writer with
  | none => exact ⟨rfl, rfl, .refl d, hf.anchored, fun _ _ => rfl⟩
  | some w =>
    obtain ⟨handle, pending⟩ := w
    let pieces := (formatter.pieces loggerName level e).map String.toUTF8
    obtain ⟨htarget, hdisk⟩ := OpenFile.confined_deliver ⟨⟨handle, d⟩, pending⟩ pieces
    refine ⟨rfl, rfl, .of_rewritten hdisk, fun w id hw ht => ?_, fun q hq => ?_⟩
    · cases hw
      have hfile : handle.target = .file id := htarget.symm.trans ht
      obtain ⟨hat, hpending⟩ := hf.anchored _ id rfl hfile
      obtain rfl : pending = .empty := hpending
      refine ⟨(Disk.Later.of_rewritten hdisk).fileAt?_some hat, ?_⟩
      show (deliver pieces (⟨⟨handle, d⟩, .empty⟩ : Buffered OpenFile)).2.pending = _
      rw [OpenFile.deliver_placed hfile]
    · exact hdisk.prospect fun id ht => hf.later.fileAt?_ne hf.sound hq (hf.anchored _ id rfl ht).1

theorem worked_reopen : f.Worked d₀ d (f.reopen d).2.1 (f.reopen d).2.2 := by
  have hopen := Disk.openFile_prospect d f.path (fun id => hf.later.lt_of_fileAt? hf.sound) (f.mode == .truncate)
  have hafter := Disk.Later.openFile d f.path (f.mode == .truncate)
  have hprospect := fun q (hq : d₀.Apart f.path q) => hf.later.prospect_openFile hf.sound hq (f.mode == .truncate)
  have hopened : ∀ handle d', d.openFile f.path (f.mode == .truncate) = (.ok handle, d') →
      (∀ id, handle.target = .file id → d'.fileAt? f.path = some id) →
      f.Worked d₀ d (f.reopen d).2.1 (f.reopen d).2.2 := by
    intro handle d' ho hat
    rw [ho] at hafter hprospect
    rw [reopen_anchored hf.anchored, ho]
    refine ⟨rfl, rfl, hafter, fun w id hw ht => ?_, hprospect⟩
    cases hw
    exact ⟨hat id ht, rfl⟩
  cases hp : d.prospect f.path with
  | refused =>
    rw [hp] at hopen
    obtain ⟨e, ho⟩ := hopen
    rw [reopen_anchored hf.anchored, ho]
    exact ⟨rfl, rfl, .refl d, anchored_closed rfl d, fun _ _ => rfl⟩
  | full =>
    rw [hp] at hopen
    exact hopened _ _ hopen nofun
  | _ =>
    rw [hp] at hopen
    obtain ⟨id, d', ho, hat, -⟩ := hopen
    refine hopened _ d' ho fun j hj => ?_
    cases hj
    exact hat

end

end File

/-! ## File sinks that are alike -/

def FileWriter.Alike (w v : FileWriter) : Prop :=
  w.pending = v.pending ∧ w.handle.position = v.handle.position ∧ (w.handle.target = .full ↔ v.handle.target = .full)

structure File.Alike (f g : File) : Prop where
  path : f.path = g.path
  mode : f.mode = g.mode
  writer : Option.Rel FileWriter.Alike f.writer g.writer

namespace File

variable {d₀ d d₀' d' : Disk} {f g : File}

theorem prospect_of_targetAlike (hf : f.Anchored d) (hg : g.Anchored d') (hpath : f.path = g.path) {w v : FileWriter}
    (hw : f.writer = some w) (hv : g.writer = some v) {id : FileId} (ht : w.handle.target = .file id)
    (h : OpenFile.TargetAlike d d' w.handle.target v.handle.target) : d.prospect f.path = d'.prospect f.path := by
  generalize hu : v.handle.target = u at h
  rw [ht] at h
  cases h with
  | file hi hj hcontent =>
    rw [Disk.prospect_of_fileAt? (hf w id hw ht).1, hcontent, hpath, Disk.prospect_of_fileAt? (hg v _ hv hu).1]

theorem targetAlike_of_prospect (hf : f.Seated d₀ d) (hg : g.Seated d₀' d') (hp : d.prospect f.path = d'.prospect f.path)
    (hpath : f.path = g.path) {w v : FileWriter} (hw : f.writer = some w) (hv : g.writer = some v)
    (hfull : w.handle.target = .full ↔ v.handle.target = .full) :
    OpenFile.TargetAlike d d' w.handle.target v.handle.target := by
  cases ht : w.handle.target with
  | full =>
    rw [hfull.mp ht]
    exact .full
  | file id =>
    cases hu : v.handle.target with
    | full => cases ht.symm.trans (hfull.mpr hu)
    | file j =>
      have hi := (hf.anchored w id hw ht).1
      have hj := (hg.anchored v j hv hu).1
      refine .file (hf.later.lt_of_fileAt? hf.sound hi) (hg.later.lt_of_fileAt? hg.sound hj) (Disk.Prospect.file.inj ?_)
      rw [← Disk.prospect_of_fileAt? hi, ← Disk.prospect_of_fileAt? hj, hp, hpath]

section
variable (hf : f.Seated d₀ d) (hg : g.Seated d₀' d') (h : f.Alike g) (hp : d.prospect f.path = d'.prospect f.path)
include hf hg h hp

theorem alike_write (formatter : Formatter) (loggerName : String) (level : Level) (e : Event) :
    let x := f.write formatter loggerName level e d
    let y := g.write formatter loggerName level e d'
    x.1 = y.1 ∧ x.2.1.Alike y.2.1 ∧ x.2.2.prospect f.path = y.2.2.prospect f.path := by
  intro x y
  have hx : f.Worked d₀ d x.2.1 x.2.2 := worked_write hf formatter loggerName level e
  have hy : g.Worked d₀' d' y.2.1 y.2.2 := worked_write hg formatter loggerName level e
  obtain ⟨path, mode, writer⟩ := f
  obtain ⟨path', mode', writer'⟩ := g
  obtain ⟨hpath, hmode, hwriter⟩ := h
  obtain rfl : path = path' := hpath
  obtain rfl : mode = mode' := hmode
  cases hwriter with
  | none => exact ⟨rfl, ⟨rfl, rfl, .none⟩, hp⟩
  | @some w v hw =>
    obtain ⟨⟨t, position⟩, pending⟩ := w
    obtain ⟨⟨u, position'⟩, pending'⟩ := v
    obtain ⟨hpending, hposition, hfull⟩ := hw
    obtain rfl : pending = pending' := hpending
    obtain rfl : position = position' := hposition
    let pieces := (formatter.pieces loggerName level e).map String.toUTF8
    have htarget := targetAlike_of_prospect hf hg hp rfl rfl rfl hfull
    have hconfined := OpenFile.confined_deliver ⟨⟨⟨t, position⟩, d⟩, pending⟩ pieces
    have hconfined' := OpenFile.confined_deliver ⟨⟨⟨u, position⟩, d'⟩, pending⟩ pieces
    obtain ⟨r, b, c, hb, hc, ⟨hposition, hafter⟩, hpending⟩ := OpenFile.likeness_alike.deliver
      (b := ⟨⟨⟨t, position⟩, d⟩, pending⟩) (c := ⟨⟨⟨u, position⟩, d'⟩, pending⟩) ⟨⟨rfl, htarget⟩, rfl⟩ pieces
    have hxeq : x = (r, ⟨path, mode, some ⟨b.device.handle, b.pending⟩⟩, b.device.disk) := by
      simp only [x, write, onWriter, FileWriter.onDisk]
      rw [hb]
    have hyeq : y = (r, ⟨path, mode, some ⟨c.device.handle, c.pending⟩⟩, c.device.disk) := by
      simp only [y, write, onWriter, FileWriter.onDisk]
      rw [hc]
    rw [hb] at hconfined
    rw [hc] at hconfined'
    obtain ⟨ht, hdisk⟩ := hconfined
    obtain ⟨hu, hdisk'⟩ := hconfined'
    rw [hxeq] at hx ⊢
    rw [hyeq] at hy ⊢
    refine ⟨rfl, ⟨rfl, rfl, .some ⟨hpending, hposition, ?_⟩⟩, ?_⟩
    · show b.device.handle.target = .full ↔ c.device.handle.target = .full
      rw [ht, hu]
      exact hfull
    · cases htarget with
      | full =>
        have hnone : ∀ id, Target.full ≠ .file id := fun id => Target.noConfusion
        exact (hdisk.prospect fun id h => absurd h (hnone id)).trans
          (hp.trans (hdisk'.prospect fun id h => absurd h (hnone id)).symm)
      | file =>
        have hprospect := prospect_of_targetAlike hx.anchored hy.anchored rfl rfl rfl ht hafter
        exact hprospect

theorem alike_reopen : (f.reopen d).1.isOk = (g.reopen d').1.isOk ∧ (f.reopen d).2.1.Alike (g.reopen d').2.1 ∧
    (f.reopen d).2.2.prospect f.path = (g.reopen d').2.2.prospect f.path := by
  have hopen := Disk.openFile_prospect d f.path (fun id => hf.later.lt_of_fileAt? hf.sound) (f.mode == .truncate)
  have hopen' := Disk.openFile_prospect d' f.path (fun id => hg.later.lt_of_fileAt? hg.sound) (f.mode == .truncate)
  rw [← hp] at hopen'
  rw [reopen_anchored hf.anchored, reopen_anchored hg.anchored, ← h.path, ← h.mode]
  cases hprospect : d.prospect f.path with
  | refused =>
    rw [hprospect] at hopen hopen'
    obtain ⟨e, ho⟩ := hopen
    obtain ⟨e', ho'⟩ := hopen'
    rw [ho, ho']
    exact ⟨rfl, ⟨rfl, rfl, .none⟩, hp⟩
  | full =>
    rw [hprospect] at hopen hopen'
    rw [hopen, hopen']
    exact ⟨rfl, ⟨rfl, rfl, .some ⟨rfl, rfl, Iff.rfl⟩⟩, hp⟩
  | _ =>
    rw [hprospect] at hopen hopen'
    obtain ⟨id, e, ho, -, hafter⟩ := hopen
    obtain ⟨id', e', ho', -, hafter'⟩ := hopen'
    rw [ho, ho']
    exact ⟨rfl, ⟨rfl, rfl, .some ⟨rfl, rfl, nofun, nofun⟩⟩, hafter.trans hafter'.symm⟩

end

end File

/-! ## Any sink -/

def Anchored (d : Disk) : Sink → Prop
  | console _ => True
  | file f => f.Anchored d

structure Seated (h₀ : Host) (x : Sink) (h : Host) : Prop where
  sound : h₀.disk.Sound
  later : h₀.Later h
  anchored : x.Anchored h.disk

structure Worked (h₀ : Host) (x : Sink) (h : Host) (x' : Sink) (h' : Host) : Prop where
  site : x'.site = x.site
  later : h.Later h'
  anchored : x'.Anchored h'.disk
  view : ∀ st, st ≠ .outlet .stderr → x.site.Apart h₀.disk st → st.view h' = st.view h

section
variable {h₀ h h' : Host} {x x' : Sink}

theorem Seated.mono (hx : x.Seated h₀ h) (hlater : h.Later h') : x.Seated h₀ h' where
  sound := hx.sound
  later := hx.later.trans hlater
  anchored := by
    cases x with
    | console c => trivial
    | file f => exact File.Anchored.mono hx.anchored hlater.disk

theorem Seated.file {f : File} (hf : (file f).Seated h₀ h) : f.Seated h₀.disk h.disk :=
  ⟨hf.sound, hf.later.disk, hf.anchored⟩

theorem Worked.seated (hw : x.Worked h₀ h x' h') (hx : x.Seated h₀ h) : x'.Seated h₀ h' :=
  ⟨hx.sound, hx.later.trans hw.later, hw.anchored⟩

theorem Worked.complain (hw : x.Worked h₀ h x' h') (line : String) : x.Worked h₀ h x' (h'.complain line).2 where
  site := hw.site
  later := hw.later.trans (h'.later_setOutlet .stderr _)
  anchored := hw.anchored
  view st hst hapart := (Site.view_setOutlet_of_ne h' .stderr hst _).trans (hw.view st hst hapart)

theorem File.Worked.sink {f f' : File} {d' : Disk} (hw : f.Worked h₀.disk h.disk f' d') :
    (file f).Worked h₀ h (file f') { h with disk := d' } where
  site := congrArg Site.file hw.path
  later := ⟨hw.later, rfl⟩
  anchored := hw.anchored
  view st _ hapart := by
    cases st with
    | outlet o => cases o <;> rfl
    | file q => exact congrArg Site.View.path (hw.prospect q hapart)

theorem reopen_file (f : File) (h : Host) : ∃ r k, (file f).reopen h =
    (r, file (f.reopen h.disk).2.1, k) ∧ k.disk = (f.reopen h.disk).2.2 := by
  simp only [reopen, File.reopenOrComplain]
  cases (f.reopen h.disk).1 with
  | ok u => exact ⟨_, _, rfl, rfl⟩
  | error e => exact ⟨_, _, rfl, rfl⟩

variable (hx : x.Seated h₀ h)
include hx

theorem worked_write (formatter : Formatter) (loggerName : String) (level : Level) (e : Event) :
    x.Worked h₀ h (x.write formatter loggerName level e h).2.1 (x.write formatter loggerName level e h).2.2 := by
  cases x with
  | console c =>
    refine ⟨rfl, h.later_setOutlet c.outlet _, trivial, fun st _ hapart => Site.view_setOutlet_of_ne h c.outlet ?_ _⟩
    rintro rfl
    exact hapart rfl
  | file f => exact (File.worked_write hx.file formatter loggerName level e).sink

theorem worked_reopen : x.Worked h₀ h (x.reopen h).2.1 (x.reopen h).2.2 := by
  cases x with
  | console c => exact ⟨rfl, .refl h, trivial, fun _ _ _ => rfl⟩
  | file f =>
    have hw := (File.worked_reopen hx.file).sink (h := h)
    cases hr : f.reopen h.disk with
    | mk r p =>
      rw [hr] at hw
      simp only [reopen, File.reopenOrComplain, hr]
      cases r with
      | ok u => exact hw
      | error e => exact hw.complain _

/-- All that was written is where it belongs already, and a flush can do no more than be counted. -/
theorem flush_seated : ∃ r h', x.flush h = (r, x, h') ∧ h.Later h' ∧ ∀ st : Site, st.view h' = st.view h := by
  cases x with
  | console c =>
    exact ⟨_, _, rfl, h.later_setOutlet c.outlet _, fun st => Site.view_setOutlet_of_unflushed h c.outlet rfl⟩
  | file f =>
    obtain ⟨r, hflush⟩ := File.flush_anchored hx.anchored
    exact ⟨r, h, by simp only [flush, hflush], .refl h, fun _ => rfl⟩

end

/-! ## Sinks that are alike -/

def Alike : Sink → Sink → Prop
  | console c, console c' => c = c'
  | file f, file g => f.Alike g
  | _, _ => False

theorem Alike.isReady {x y : Sink} (h : x.Alike y) : x.isReady = y.isReady := by
  cases x <;> cases y
  · rfl
  · cases h
  · cases h
  · next f g =>
    have hwriter := h.writer
    show f.writer.isSome = g.writer.isSome
    generalize f.writer = w, g.writer = v at hwriter
    cases hwriter <;> rfl

def Blank : Sink → Prop
  | console _ => True
  | file f => f.writer = none

theorem Blank.anchored {x : Sink} (h : x.Blank) (d : Disk) : x.Anchored d := by
  cases x with
  | console c => trivial
  | file f => exact File.anchored_closed h d

theorem Blank.alike {x : Sink} (h : x.Blank) : x.Alike x := by
  cases x with
  | console c => rfl
  | file f =>
    refine ⟨rfl, rfl, ?_⟩
    rw [show f.writer = none from h]
    exact .none

structure Twin (h₀ h₀' : Host) (x : Sink) (h : Host) (y : Sink) (h' : Host) : Prop where
  left : x.Seated h₀ h
  right : y.Seated h₀' h'
  alike : x.Alike y
  ansi : h.ansi = h'.ansi
  view : x.site.view h = x.site.view h'

section
variable {h₀ h h₀' h' : Host} {x y : Sink} (hxy : Twin h₀ h₀' x h y h')
include hxy

theorem Twin.worked {x' y' : Sink} {k k' : Host} (hx : x.Worked h₀ h x' k) (hy : y.Worked h₀' h' y' k')
    (halike : x'.Alike y') (hview : x.site.view k = x.site.view k') : Twin h₀ h₀' x' k y' k' where
  left := hx.seated hxy.left
  right := hy.seated hxy.right
  alike := halike
  ansi := hx.later.ansi.trans (hxy.ansi.trans hy.later.ansi.symm)
  view := by rw [hx.site]; exact hview

theorem twin_write (formatter : Formatter) (loggerName : String) (level : Level) (e : Event) :
    let p := x.write formatter loggerName level e h
    let q := y.write formatter loggerName level e h'
    p.1 = q.1 ∧ Twin h₀ h₀' p.2.1 p.2.2 q.2.1 q.2.2 := by
  have hx := worked_write hxy.left formatter loggerName level e
  have hy := worked_write hxy.right formatter loggerName level e
  cases x with
  | console c =>
    cases y with
    | file g => exact hxy.alike.elim
    | console c' =>
      obtain rfl : c = c' := hxy.alike
      have hwrite : ∀ k : Host, k.ansi = h.ansi → (console c).write formatter loggerName level e k =
          let d := deliver ((c.pieces h.ansi formatter loggerName level e).map String.toUTF8) (k.outlet c.outlet)
          (d.1, console c, k.setOutlet c.outlet d.2) := by
        intro k hk
        rw [← hk]
        rfl
      rw [hwrite h rfl] at hx ⊢
      rw [hwrite h' hxy.ansi.symm] at hy ⊢
      obtain ⟨hr, hm⟩ := Memory.deliver_unflushed (Site.unflushed_outlet_congr hxy.view)
        ((c.pieces h.ansi formatter loggerName level e).map String.toUTF8)
      exact ⟨hr, hxy.worked hx hy rfl (Site.view_setOutlet_congr hxy.view hm)⟩
  | file f =>
    cases y with
    | console c => exact hxy.alike.elim
    | file g =>
      obtain ⟨hr, halike, hprospect⟩ := File.alike_write hxy.left.file hxy.right.file hxy.alike
        (Site.View.path.inj hxy.view) formatter loggerName level e
      exact ⟨hr, hxy.worked hx hy halike (congrArg Site.View.path hprospect)⟩

theorem twin_reopen : Twin h₀ h₀' (x.reopen h).2.1 (x.reopen h).2.2 (y.reopen h').2.1 (y.reopen h').2.2 := by
  have hx := worked_reopen hxy.left
  have hy := worked_reopen hxy.right
  cases x with
  | console c =>
    cases y with
    | file g => exact hxy.alike.elim
    | console c' => exact hxy
  | file f =>
    cases y with
    | console c => exact hxy.alike.elim
    | file g =>
      obtain ⟨-, halike, hprospect⟩ := File.alike_reopen hxy.left.file hxy.right.file hxy.alike
        (Site.View.path.inj hxy.view)
      obtain ⟨_, k, hf, hk⟩ := reopen_file f h
      obtain ⟨_, k', hg, hk'⟩ := reopen_file g h'
      rw [hf] at hx ⊢
      rw [hg] at hy ⊢
      rw [← hk, ← hk'] at hprospect
      exact hxy.worked hx hy halike (congrArg Site.View.path hprospect)

theorem Twin.complain (hst : x.site ≠ .outlet .stderr) (line line' : String) :
    Twin h₀ h₀' x (h.complain line).2 y (h'.complain line').2 where
  left := hxy.left.mono (h.later_setOutlet .stderr _)
  right := hxy.right.mono (h'.later_setOutlet .stderr _)
  alike := hxy.alike
  ansi := hxy.ansi
  view := (Site.view_setOutlet_of_ne h .stderr hst _).trans
    (hxy.view.trans (Site.view_setOutlet_of_ne h' .stderr hst _).symm)

end

end Sink

/-! ## Appenders -/

namespace Appender

structure Alike (x y : Appender) : Prop where
  level : x.level = y.level
  formatter : x.formatter = y.formatter
  metrics : x.metrics = y.metrics
  sink : x.sink.Alike y.sink

section
variable {h₀ h : Host} {x : Appender} (hx : x.sink.Seated h₀ h)
include hx

theorem worked_log (loggerName : String) (level : Level) (e : Event) :
    x.sink.Worked h₀ h (x.log loggerName level e h).2.1.sink (x.log loggerName level e h).2.2 := by
  have hw := Sink.worked_write hx x.formatter loggerName level e
  unfold log
  split
  · exact ⟨rfl, .refl h, hx.anchored, fun _ _ _ => rfl⟩
  split
  · split
    · next heq => rw [heq] at hw; exact hw
    · next heq =>
      rw [heq] at hw
      exact host_report (P := fun k => x.sink.Worked h₀ h _ k) hw hw.complain x _
  · exact ⟨rfl, .refl h, hx.anchored, fun _ _ _ => rfl⟩

theorem flush_seated : ∃ r h', x.flush h = (r, x, h') ∧ h.Later h' ∧ ∀ st : Site, st.view h' = st.view h := by
  obtain ⟨r, h', hflush, hlater, hview⟩ := Sink.flush_seated hx
  simp only [flush, hflush]
  exact ⟨_, h', rfl, hlater, hview⟩

end

section
variable {h₀ h h₀' h' : Host} {x y : Appender} (hxy : x.Alike y) (htwin : Sink.Twin h₀ h₀' x.sink h y.sink h')
include hxy htwin

theorem twin_log (hst : x.sink.site ≠ .outlet .stderr) (loggerName : String) (level : Level) (e : Event) :
    let p := (x.log loggerName level e h).2
    let q := (y.log loggerName level e h').2
    p.1.Alike q.1 ∧ Sink.Twin h₀ h₀' p.1.sink p.2 q.1.sink q.2 := by
  obtain ⟨id, threshold, formatter, sink, metrics⟩ := x
  obtain ⟨id', threshold', formatter', sink', metrics'⟩ := y
  obtain ⟨hlevel, hformatter, hmetrics, halike⟩ := hxy
  obtain rfl : threshold = threshold' := hlevel
  obtain rfl : formatter = formatter' := hformatter
  obtain rfl : metrics = metrics' := hmetrics
  obtain ⟨hr, hafter⟩ := Sink.twin_write htwin formatter loggerName level e
  have hsite := (Sink.worked_write htwin.left formatter loggerName level e).site
  simp only [log, ← halike.isReady]
  by_cases hl : level < threshold
  · rw [if_pos hl, if_pos hl]
    exact ⟨⟨rfl, rfl, rfl, halike⟩, htwin⟩
  rw [if_neg hl, if_neg hl]
  by_cases hready : sink.isReady
  · rw [if_pos hready, if_pos hready]
    simp only at hr hafter hsite
    generalize sink.write formatter loggerName level e h = p at hr hafter hsite ⊢
    generalize sink'.write formatter loggerName level e h' = q at hr hafter ⊢
    obtain ⟨r, written, k⟩ := p
    obtain ⟨r', written', k'⟩ := q
    obtain rfl : r = r' := hr
    cases r with
    | ok u => exact ⟨⟨rfl, rfl, rfl, hafter.alike⟩, hafter⟩
    | error fault =>
      refine ⟨⟨rfl, rfl, rfl, hafter.alike⟩, ?_⟩
      simp only [report]
      split
      · exact hafter.complain (fun h => hst (hsite.symm.trans h)) _ _
      · exact hafter
  · rw [if_neg hready, if_neg hready]
    exact ⟨⟨rfl, rfl, rfl, halike⟩, htwin⟩

end

/-- At work only at its own site, and in the same way for appenders that are alike. -/
structure Orderly (g : Appender → Host → Appender × Host) : Prop where
  worked {h₀ h : Host} {x : Appender} : x.sink.Seated h₀ h → x.sink.Worked h₀ h (g x h).1.sink (g x h).2
  twin {h₀ h h₀' h' : Host} {x y : Appender} : x.Alike y → Sink.Twin h₀ h₀' x.sink h y.sink h' →
    x.sink.site ≠ .outlet .stderr →
    (g x h).1.Alike (g y h').1 ∧ Sink.Twin h₀ h₀' (g x h).1.sink (g x h).2 (g y h').1.sink (g y h').2

theorem orderly_log (loggerName : String) (level : Level) (e : Event) :
    Orderly fun x h => (x.log loggerName level e h).2 where
  worked hx := worked_log hx loggerName level e
  twin hxy htwin hst := twin_log hxy htwin hst loggerName level e

theorem orderly_reopen : Orderly fun x h => (x.reopen h).2 where
  worked hx := Sink.worked_reopen hx
  twin hxy htwin _ := by
    have hafter := Sink.twin_reopen htwin
    exact ⟨⟨hxy.level, hxy.formatter, hxy.metrics, hafter.alike⟩, hafter⟩

theorem orderly_flush : Orderly fun x h => (x.flush h).2 where
  worked {_ _ x} hx := by
    obtain ⟨r, h', hflush, hlater, hview⟩ := x.flush_seated hx
    rw [hflush]
    exact ⟨rfl, hlater, (hx.mono hlater).anchored, fun st _ _ => hview st⟩
  twin {_ h _ h' x y} hxy htwin _ := by
    obtain ⟨r, k, hflush, hlater, hview⟩ := x.flush_seated htwin.left
    obtain ⟨r', k', hflush', hlater', hview'⟩ := y.flush_seated htwin.right
    rw [hflush, hflush']
    refine ⟨hxy, htwin.left.mono hlater, htwin.right.mono hlater', htwin.alike, ?_, ?_⟩
    · rw [hlater.ansi, hlater'.ansi, htwin.ansi]
    · rw [hview, hview', htwin.view]

theorem orderly_set {f : Appender → Appender} (hsink : ∀ x, (f x).sink = x.sink)
    (halike : ∀ x y : Appender, x.Alike y → (f x).Alike (f y)) : Orderly fun x h => (f x, h) where
  worked {_ h x} hx := by
    rw [hsink]
    exact ⟨rfl, .refl h, hx.anchored, fun _ _ _ => rfl⟩
  twin hxy htwin _ := by
    rw [hsink, hsink]
    exact ⟨halike _ _ hxy, htwin⟩

theorem orderly_setLevel (level : Level) : Orderly fun x h => (x.setLevel level, h) :=
  orderly_set (fun _ => rfl) fun _ _ h => ⟨rfl, h.formatter, h.metrics, h.sink⟩

theorem orderly_setFormatter (formatter : Formatter) : Orderly fun x h => (x.setFormatter formatter, h) :=
  orderly_set (fun _ => rfl) fun _ _ h => ⟨h.level, rfl, h.metrics, h.sink⟩

theorem orderly_setPattern (pattern : String) : Orderly fun x h => ((x.setPattern pattern).2, h) :=
  orderly_set (f := fun x => (x.setPattern pattern).2) (fun _ => rfl) fun _ _ h =>
    ⟨h.level, congrArg (fun f => (f.reset pattern).2) h.formatter, h.metrics, h.sink⟩

end Appender

end Logline
