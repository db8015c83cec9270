import Mathlib.Data.List.Basic
import Logline.Proofs.Appender.Apart
import Logline.Proofs.System.History

/-!
# Systems that an appender cannot tell apart

They have the same loggers, and among their appenders one is the same in both and has what it writes to for
itself. What is done to both systems alike, and what is done to the other appenders of one of them, leaves
them so.
-/

namespace Logline.System

open Output

/-! ## One step of one appender -/

def touch (s : System) (b : AppenderId) (g : Appender → Host → Appender × Host) : System :=
  match s.appenderAt? b with
  | some x => { s.setAppender b (g x s.host).1 with host := (g x s.host).2 }
  | none => s

section
variable (s : System) (b : AppenderId)

theorem deliver_eq_touch (loggerName : String) (level : Level) (e : Event) :
    (s.deliver loggerName level e b).2 = s.touch b fun x h => (x.log loggerName level e h).2 := by
  unfold deliver touch
  cases s.appenderAt? b <;> rfl

theorem reopen_eq_touch : (s.reopen b).2 = s.touch b fun x h => (x.reopen h).2 := by
  unfold reopen touch
  cases s.appenderAt? b <;> rfl

theorem flushAppender_eq_touch : (s.flushAppender b).2 = s.touch b fun x h => (x.flush h).2 := by
  unfold flushAppender touch
  cases s.appenderAt? b <;> rfl

theorem setPattern_eq_touch (pattern : String) :
    (s.setPattern b pattern).2 = s.touch b fun x h => ((x.setPattern pattern).2, h) := by
  unfold setPattern touch
  cases s.appenderAt? b <;> rfl

theorem modifyAppender_eq_touch (f : Appender → Appender) : s.modifyAppender b f = s.touch b fun x h => (f x, h) := by
  obtain ⟨host, appenders, loggers, registries⟩ := s
  unfold modifyAppender touch appenderAt? setAppender
  cases hb : appenders[b.index]? with
  | none =>
    dsimp only
    congr 1
    apply Array.ext_getElem?
    intro i
    rw [Array.getElem?_modify]
    split
    · next hi => subst hi; rw [hb]; rfl
    · rfl
  | some x =>
    have hlt : b.index < appenders.size := (Array.getElem?_eq_some_iff.mp hb).1
    dsimp only
    congr 1
    apply Array.ext_getElem?
    intro i
    rw [Array.getElem?_modify, Array.set!_eq_setIfInBounds, Array.getElem?_setIfInBounds]
    split
    · next hi => subst hi; rw [hb]; rfl
    · rfl

end

def Action.appender? : Action → Option AppenderId
  | deliver b .. | setPattern b _ | setFormatter b _ | reopen b | flushAppender b | call (.setThreshold b _) => some b
  | _ => none

theorem Action.perform_eq_touch {k : Action} {b : AppenderId} (hk : k.appender? = some b) :
    ∃ g, Appender.Orderly g ∧ ∀ s, k.perform s = s.touch b g := by
  cases k with
  | deliver c loggerName level e =>
    cases hk
    exact ⟨_, Appender.orderly_log loggerName level e, fun s => s.deliver_eq_touch b loggerName level e⟩
  | setPattern c pattern =>
    cases hk
    exact ⟨_, Appender.orderly_setPattern pattern, fun s => s.setPattern_eq_touch b pattern⟩
  | setFormatter c formatter =>
    cases hk
    exact ⟨_, Appender.orderly_setFormatter formatter, fun s => s.modifyAppender_eq_touch b _⟩
  | reopen c =>
    cases hk
    exact ⟨_, Appender.orderly_reopen, fun s => s.reopen_eq_touch b⟩
  | flushAppender c =>
    cases hk
    exact ⟨_, Appender.orderly_flush, fun s => s.flushAppender_eq_touch b⟩
  | call c =>
    cases c with
    | setThreshold c level =>
      cases hk
      exact ⟨_, Appender.orderly_setLevel level, fun s => s.modifyAppender_eq_touch b _⟩
    | _ => cases hk
  | _ => cases hk

section
variable {s : System} {b : AppenderId} (g : Appender → Host → Appender × Host)

theorem touch_of_none (hb : s.appenderAt? b = none) : s.touch b g = s := by
  rw [touch, hb]

theorem touch_of_appenderAt? {x : Appender} (hb : s.appenderAt? b = some x) :
    s.touch b g = { s.setAppender b (g x s.host).1 with host := (g x s.host).2 } := by
  rw [touch, hb]

theorem appenderAt?_touch {x : Appender} (hb : s.appenderAt? b = some x) (c : AppenderId) :
    (s.touch b g).appenderAt? c = if c = b then some (g x s.host).1 else s.appenderAt? c := by
  rw [touch_of_appenderAt? g hb]
  exact appenderAt?_setAppender hb _

variable (s b)

theorem sameLoggers_touch : s.SameLoggers (s.touch b g) := by
  unfold touch
  split
  · exact ⟨rfl, rfl⟩
  · exact .refl s

theorem size_touch : (s.touch b g).appenders.size = s.appenders.size := by
  unfold touch
  split
  · exact Array.size_setIfInBounds
  · rfl

end

/-! ## Making an appender -/

section
variable (s : System) (path : String) (mode : FileMode) (level : Level) (formatter : Formatter)

theorem isOk_addFileAppender : (s.addFileAppender path mode level formatter).1.isOk =
    (({ path, mode } : Sink.File).reopen s.host.disk).1.isOk := by
  unfold addFileAppender Sink.File.opened
  generalize ({ path, mode } : Sink.File).reopen s.host.disk = o
  obtain ⟨r, f, d⟩ := o
  cases r <;> rfl

theorem addFileAppender_eq : (s.addFileAppender path mode level formatter).2 =
    if (s.addFileAppender path mode level formatter).1.isOk then
      (s.addAppender (.file { path, mode }) level formatter).2.touch ⟨s.appenders.size⟩ fun x h => (x.reopen h).2
    else s := by
  rw [isOk_addFileAppender]
  unfold addFileAppender Sink.File.opened
  cases hr : ({ path, mode } : Sink.File).reopen s.host.disk with
  | mk r p =>
    obtain ⟨f, d⟩ := p
    cases r with
    | error e =>
      obtain rfl : d = s.host.disk := Sink.File.reopen_error (Sink.File.anchored_closed rfl _) hr
      rfl
    | ok u =>
      let x : Appender := { id := ⟨s.appenders.size⟩, level, formatter, sink := .file { path, mode } }
      have hx : (s.addAppender (.file { path, mode }) level formatter).2.appenderAt? ⟨s.appenders.size⟩ = some x :=
        (appenderAt?_addAppender _ level formatter).trans (if_pos rfl)
      have hreopen : x.reopen s.host = (.ok true, { x with sink := .file f }, { s.host with disk := d }) := by
        simp only [x, Appender.reopen, Sink.reopen, Sink.File.reopenOrComplain, hr]
      have hpush : ∀ y, (s.appenders.push x).setIfInBounds s.appenders.size y = s.appenders.push y := by
        intro y
        grind
      refine Eq.trans ?_ (if_pos rfl).symm
      rw [touch_of_appenderAt? _ hx]
      show _ = { (s.addAppender (.file { path, mode }) level formatter).2.setAppender ⟨s.appenders.size⟩
        (x.reopen s.host).2.1 with host := (x.reopen s.host).2.2 }
      rw [hreopen]
      exact congrArg (fun appenders => { s with host := { s.host with disk := d }, appenders }) (hpush _).symm

end

def Action.Makes (s : System) (st : Site) : Action → Prop
  | addAppender sink _ _ => sink.Blank ∧ sink.site = st
  | addFileAppender path mode level formatter =>
    (s.addFileAppender path mode level formatter).1.isOk ∧ .file path = st
  | _ => False

theorem Action.Makes.perform_eq {s : System} {st : Site} {k : Action} (hk : k.Makes s st) :
    ∃ sink level formatter, sink.Blank ∧ sink.site = st ∧
      (k.perform s = (s.addAppender sink level formatter).2 ∨
        k.perform s = (s.addAppender sink level formatter).2.touch ⟨s.appenders.size⟩ fun x h => (x.reopen h).2) := by
  cases k with
  | addAppender sink level formatter => exact ⟨sink, level, formatter, hk.1, hk.2, .inl rfl⟩
  | addFileAppender path mode level formatter =>
    refine ⟨.file { path, mode }, level, formatter, rfl, hk.2, .inr ?_⟩
    exact (s.addFileAppender_eq path mode level formatter).trans (if_pos hk.1)
  | _ => exact hk.elim

theorem Action.Makes.size {s : System} {st : Site} {k : Action} (hk : k.Makes s st) :
    (k.perform s).appenders.size = s.appenders.size + 1 := by
  obtain ⟨sink, level, formatter, -, -, heq | heq⟩ := hk.perform_eq
  · rw [heq]
    exact Array.size_push ..
  · rw [heq, size_touch]
    exact Array.size_push ..

/-! ## One run -/

/-- Sinks alone have been at work on the host, and no other appender writes where this one does. -/
structure Kept (h₀ : Host) (a : AppenderId) (st : Site) (s : System) : Prop where
  sound : h₀.disk.Sound
  later : h₀.Later s.host
  anchored : ∀ b x, s.appenderAt? b = some x → x.sink.Anchored s.host.disk
  site : ∀ b x, s.appenderAt? b = some x → if b = a then x.sink.site = st else x.sink.site.Apart h₀.disk st

structure Quiet (h₀ : Host) (a : AppenderId) (st : Site) (s t : System) : Prop where
  kept : t.Kept h₀ a st
  loggers : s.SameLoggers t
  view : st.view t.host = st.view s.host
  appender : t.appenderAt? a = s.appenderAt? a

theorem Quiet.trans {h₀ : Host} {a : AppenderId} {st : Site} {s t u : System} (h : Quiet h₀ a st s t)
    (h' : Quiet h₀ a st t u) : Quiet h₀ a st s u where
  kept := h'.kept
  loggers := h.loggers.trans h'.loggers
  view := h'.view.trans h.view
  appender := h'.appender.trans h.appender

namespace Kept

variable {h₀ : Host} {a b : AppenderId} {st : Site} {s t : System} (hs : s.Kept h₀ a st)
include hs

theorem seated {x : Appender} (hb : s.appenderAt? b = some x) : x.sink.Seated h₀ s.host :=
  ⟨hs.sound, hs.later, hs.anchored b x hb⟩

theorem refl : Quiet h₀ a st s s :=
  ⟨hs, .refl s, rfl, rfl⟩

theorem of_appenders (happenders : t.appenders = s.appenders) (hhost : t.host = s.host) : t.Kept h₀ a st := by
  obtain ⟨host, appenders, loggers, registries⟩ := t
  obtain rfl : appenders = s.appenders := happenders
  obtain rfl : host = s.host := hhost
  exact ⟨hs.sound, hs.later, hs.anchored, hs.site⟩

theorem touch {g : Appender → Host → Appender × Host} (hg : Appender.Orderly g) : (s.touch b g).Kept h₀ a st := by
  cases hb : s.appenderAt? b with
  | none =>
    rw [touch_of_none g hb]
    exact hs
  | some x =>
    have hw := hg.worked (hs.seated hb)
    have hhost : (s.touch b g).host = (g x s.host).2 := by rw [touch_of_appenderAt? g hb]
    refine ⟨hs.sound, ?_, fun c y hc => ?_, fun c y hc => ?_⟩
    · rw [hhost]
      exact hs.later.trans hw.later
    · rw [hhost]
      rw [appenderAt?_touch g hb] at hc
      split at hc
      · cases hc
        exact hw.anchored
      · exact ((hs.seated hc).mono hw.later).anchored
    · rw [appenderAt?_touch g hb] at hc
      split at hc
      · next he =>
        subst he
        cases hc
        rw [hw.site]
        exact hs.site c x hb
      · exact hs.site c y hc

theorem quiet_touch {g : Appender → Host → Appender × Host} (hg : Appender.Orderly g) (hst : st ≠ .outlet .stderr)
    (hne : b ≠ a) : Quiet h₀ a st s (s.touch b g) := by
  refine ⟨hs.touch hg, s.sameLoggers_touch b g, ?_, ?_⟩
  · cases hb : s.appenderAt? b with
    | none => rw [touch_of_none g hb]
    | some x =>
      have hapart := hs.site b x hb
      rw [if_neg hne] at hapart
      rw [touch_of_appenderAt? g hb]
      exact (hg.worked (hs.seated hb)).view st hst hapart
  · cases hb : s.appenderAt? b with
    | none => rw [touch_of_none g hb]
    | some x => rw [appenderAt?_touch g hb, if_neg hne.symm]

theorem quiet_handed (hst : st ≠ .outlet .stderr) {bs : List AppenderId} (ha : a ∉ bs) (loggerName : String)
    (level : Level) (e : Event) : Quiet h₀ a st s (s.handed loggerName level e bs) := by
  induction bs generalizing s with
  | nil => exact hs.refl
  | cons b bs ih =>
    obtain ⟨hne, hrest⟩ := not_or.mp (mt List.mem_cons.mpr ha)
    have hfirst : Quiet h₀ a st s (s.deliver loggerName level e b).2 := by
      rw [deliver_eq_touch]
      exact hs.quiet_touch (Appender.orderly_log loggerName level e) hst (Ne.symm hne)
    exact hfirst.trans (ih hfirst.kept hrest)

theorem quiet_flushAppender : Quiet h₀ a st s (s.flushAppender b).2 := by
  rw [flushAppender_eq_touch]
  refine ⟨hs.touch Appender.orderly_flush, s.sameLoggers_touch b _, ?_, ?_⟩
  · cases hb : s.appenderAt? b with
    | none => rw [touch_of_none _ hb]
    | some x =>
      obtain ⟨r, h', hflush, -, hview⟩ := Appender.flush_seated (hs.seated hb)
      rw [touch_of_appenderAt? _ hb, hflush]
      exact hview st
  · cases hb : s.appenderAt? b with
    | none => rw [touch_of_none _ hb]
    | some x =>
      obtain ⟨r, h', hflush, -⟩ := Appender.flush_seated (hs.seated hb)
      rw [appenderAt?_touch _ hb, hflush]
      split
      · next he => rw [he, hb]
      · rfl

theorem quiet_flush (l : LoggerId) : Quiet h₀ a st s (s.flush l).2 :=
  flush_of_flushAppender (fun _ _ h => h.trans h.kept.quiet_flushAppender) hs.refl l

theorem addAppender {sink : Sink} (hanchored : sink.Anchored s.host.disk)
    (hsite : if ⟨s.appenders.size⟩ = a then sink.site = st else sink.site.Apart h₀.disk st) (level : Level)
    (formatter : Formatter) : (s.addAppender sink level formatter).2.Kept h₀ a st where
  sound := hs.sound
  later := hs.later
  anchored b x hb := by
    rw [appenderAt?_addAppender] at hb
    split at hb
    · cases hb
      exact hanchored
    · exact hs.anchored b x hb
  site b x hb := by
    rw [appenderAt?_addAppender] at hb
    split at hb
    · next he =>
      cases hb
      rw [he]
      exact hsite
    · exact hs.site b x hb

theorem quiet_making (hst : st ≠ .outlet .stderr) (ha : a ≠ ⟨s.appenders.size⟩) {k : Action} {site : Site}
    (hk : k.Makes s site) (hsite : site.Apart h₀.disk st) : Quiet h₀ a st s (k.perform s) := by
  obtain ⟨sink, level, formatter, hblank, rfl, hperform⟩ := hk.perform_eq
  have hadd : Quiet h₀ a st s (s.addAppender sink level formatter).2 := by
    refine ⟨?_, ⟨rfl, rfl⟩, rfl, (appenderAt?_addAppender ..).trans (if_neg ha)⟩
    exact hs.addAppender (hblank.anchored _) (by rw [if_neg ha.symm]; exact hsite) level formatter
  rcases hperform with heq | heq
  · rw [heq]
    exact hadd
  · rw [heq]
    exact hadd.trans (hadd.kept.quiet_touch Appender.orderly_reopen hst ha.symm)

theorem new_making {k : Action} {site : Site} (hk : k.Makes s site) :
    ∃ x, (k.perform s).appenderAt? ⟨s.appenders.size⟩ = some x ∧ x.sink.site = site := by
  obtain ⟨sink, level, formatter, hblank, rfl, hperform⟩ := hk.perform_eq
  have hx := (appenderAt?_addAppender (s := s) (b := ⟨s.appenders.size⟩) sink level formatter).trans (if_pos rfl)
  rcases hperform with heq | heq
  · rw [heq]
    exact ⟨_, hx, rfl⟩
  · rw [heq, appenderAt?_touch _ hx, if_pos rfl]
    exact ⟨_, rfl, (Appender.orderly_reopen.worked ⟨hs.sound, hs.later, hblank.anchored _⟩).site⟩

end Kept

/-! ## Two runs -/

theorem SameLoggers.congr {s t s' t' : System} (h : s.SameLoggers t) (hs : s.SameLoggers s') (ht : t.SameLoggers t') :
    s'.SameLoggers t' :=
  ⟨ht.loggers.trans (h.loggers.trans hs.loggers.symm), ht.registries.trans (h.registries.trans hs.registries.symm)⟩

structure Pair (h₀ h₀' : Host) (a : AppenderId) (st : Site) (s t : System) : Prop where
  left : s.Kept h₀ a st
  right : t.Kept h₀' a st
  loggers : s.SameLoggers t
  view : st.view s.host = st.view t.host
  appender : Option.Rel Appender.Alike (s.appenderAt? a) (t.appenderAt? a)

namespace Pair

variable {h₀ h₀' : Host} {a b : AppenderId} {st : Site} {s t s' t' : System}

theorem quiet (h : Pair h₀ h₀' a st s t) (hs : Quiet h₀ a st s s') (ht : Quiet h₀' a st t t') :
    Pair h₀ h₀' a st s' t' where
  left := hs.kept
  right := ht.kept
  loggers := h.loggers.congr hs.loggers ht.loggers
  view := hs.view.trans (h.view.trans ht.view.symm)
  appender := by
    rw [hs.appender, ht.appender]
    exact h.appender

section
variable (hansi : h₀.ansi = h₀'.ansi) (hst : st ≠ .outlet .stderr)
include hansi

theorem twin (h : Pair h₀ h₀' a st s t) {x y : Appender} (hx : s.appenderAt? a = some x) (hy : t.appenderAt? a = some y)
    (hxy : x.Alike y) : x.sink.site = st ∧ Sink.Twin h₀ h₀' x.sink s.host y.sink t.host := by
  have hsite := h.left.site a x hx
  rw [if_pos rfl] at hsite
  refine ⟨hsite, h.left.seated hx, h.right.seated hy, hxy.sink, ?_, ?_⟩
  · exact h.left.later.ansi.trans (hansi.trans h.right.later.ansi.symm)
  · rw [hsite]
    exact h.view

include hst

theorem touch (h : Pair h₀ h₀' a st s t) {g : Appender → Host → Appender × Host} (hg : Appender.Orderly g)
    (b : AppenderId) : Pair h₀ h₀' a st (s.touch b g) (t.touch b g) := by
  -- the appender itself does the same in both, and any other one leaves it alone in each
  by_cases hb : b = a
  · subst hb
    have happender := h.appender
    generalize hx : s.appenderAt? b = o, hy : t.appenderAt? b = o' at happender
    cases happender with
    | none =>
      rw [touch_of_none g hx, touch_of_none g hy]
      exact h
    | @some x y hxy =>
      obtain ⟨hsite, htwin⟩ := h.twin hansi hx hy hxy
      obtain ⟨halike, hafter⟩ := hg.twin hxy htwin (by rw [hsite]; exact hst)
      have hview := hafter.view
      rw [(hg.worked htwin.left).site, hsite] at hview
      refine ⟨h.left.touch hg, h.right.touch hg,
        h.loggers.congr (s.sameLoggers_touch b g) (t.sameLoggers_touch b g), ?_, ?_⟩
      · rw [touch_of_appenderAt? g hx, touch_of_appenderAt? g hy]
        exact hview
      · rw [appenderAt?_touch g hx, appenderAt?_touch g hy, if_pos rfl, if_pos rfl]
        exact .some halike
  · exact h.quiet (h.left.quiet_touch hg hst hb) (h.right.quiet_touch hg hst hb)

theorem handed (h : Pair h₀ h₀' a st s t) (loggerName : String) (level : Level) (e : Event) (bs : List AppenderId) :
    Pair h₀ h₀' a st (s.handed loggerName level e bs) (t.handed loggerName level e bs) := by
  induction bs generalizing s t with
  | nil => exact h
  | cons b bs ih =>
    refine ih ?_
    show Pair h₀ h₀' a st (s.deliver loggerName level e b).2 (t.deliver loggerName level e b).2
    rw [deliver_eq_touch, deliver_eq_touch]
    exact h.touch hansi hst (Appender.orderly_log loggerName level e) b

theorem log (h : Pair h₀ h₀' a st s t) {l : LoggerId} {level : Level} {e : Event}
    (hnodup : ∀ x, s.loggerAt? l = some x → x.appenders.Nodup) (hs : s.ComesTo a l level e)
    (ht : t.ComesTo a l level e) : Pair h₀ h₀' a st (s.log l level e).2 (t.log l level e).2 := by
  cases hl : s.loggerAt? l with
  | none =>
    rw [System.log, System.log, h.loggers.loggerAt? l, hl]
    exact h
  | some x =>
    have hl' : t.loggerAt? l = some x := (h.loggers.loggerAt? l).trans hl
    by_cases hlevel : x.enabled level = true
    · by_cases hmem : a ∈ x.appenders
      · -- up to the appender's turn the two calls go the same way, and after it neither comes to it again
        obtain ⟨before, after, hsplit⟩ := List.append_of_mem hmem
        have hn := hnodup x hl
        rw [hsplit] at hn
        have hafter := (List.nodup_cons.mp (List.nodup_append.mp hn).2.1).1
        obtain ⟨had, hhad, hlog⟩ := hs.exists_handed hl hlevel hsplit
        obtain ⟨had', hhad', hlog'⟩ := ht.exists_handed hl' hlevel hsplit
        rw [hlog, hlog', List.append_cons before a had, handed_append (before ++ [a]), List.append_cons before a had',
          handed_append (before ++ [a])]
        have hpair := h.handed hansi hst x.name level e (before ++ [a])
        exact hpair.quiet (hpair.left.quiet_handed hst (mt (hhad.subset ·) hafter) x.name level e)
          (hpair.right.quiet_handed hst (mt (hhad'.subset ·) hafter) x.name level e)
      · obtain ⟨had, hhad, hlog⟩ := s.exists_handed x.name level e x.appenders
        obtain ⟨had', hhad', hlog'⟩ := t.exists_handed x.name level e x.appenders
        rw [log_eq_deliverAll hl hlevel, log_eq_deliverAll hl' hlevel, hlog, hlog']
        exact h.quiet (h.left.quiet_handed hst (mt (hhad.subset ·) hmem) x.name level e)
          (h.right.quiet_handed hst (mt (hhad'.subset ·) hmem) x.name level e)
    · rw [System.log, System.log, hl, hl']
      simp only [hlevel, Bool.false_eq_true, if_false]
      exact h

theorem logWith (h : Pair h₀ h₀' a st s t) {l : LoggerId} {level : Level} {e : Unit → Event}
    (hnodup : ∀ x, s.loggerAt? l = some x → x.appenders.Nodup)
    (hs : ∀ x, s.loggerAt? l = some x → s.ComesTo a l level ((e ()).withLoggerName x.name))
    (ht : ∀ x, t.loggerAt? l = some x → t.ComesTo a l level ((e ()).withLoggerName x.name)) :
    Pair h₀ h₀' a st (s.logWith l level e).2 (t.logWith l level e).2 := by
  unfold System.logWith
  rw [h.loggers.loggerAt? l]
  split
  · next x hl =>
    split
    · exact h.log hansi hst hnodup (hs x hl) (ht x ((h.loggers.loggerAt? l).trans hl))
    · exact h
  · exact h

end

theorem own (h : Pair h₀ h₀' a st s t) (hansi : h₀.ansi = h₀'.ansi) (hst : st ≠ .outlet .stderr)
    (ha : a = ⟨s.appenders.size⟩) (ha' : a = ⟨t.appenders.size⟩) {k : Action} (hk : k.Makes s st) :
    Pair h₀ h₀' a st (k.perform s) (k.perform t) := by
  have hadd : ∀ sink : Sink, sink.Blank → sink.site = st → ∀ level formatter,
      Pair h₀ h₀' a st (s.addAppender sink level formatter).2 (t.addAppender sink level formatter).2 := by
    intro sink hblank hsite level formatter
    refine ⟨?_, ?_, h.loggers.congr ⟨rfl, rfl⟩ ⟨rfl, rfl⟩, h.view, ?_⟩
    · exact h.left.addAppender (hblank.anchored _) (by rw [if_pos ha.symm]; exact hsite) level formatter
    · exact h.right.addAppender (hblank.anchored _) (by rw [if_pos ha'.symm]; exact hsite) level formatter
    · rw [appenderAt?_addAppender, appenderAt?_addAppender, if_pos ha, if_pos ha']
      exact .some ⟨rfl, rfl, rfl, hblank.alike⟩
  cases k with
  | addAppender sink level formatter => exact hadd sink hk.1 hk.2 level formatter
  | addFileAppender path mode level formatter =>
    obtain ⟨hok, rfl⟩ := hk
    have hview : s.host.disk.prospect path = t.host.disk.prospect path := Site.View.path.inj h.view
    have hs : ({ path, mode } : Sink.File).Seated h₀.disk s.host.disk :=
      ⟨h.left.sound, h.left.later.disk, Sink.File.anchored_closed rfl _⟩
    have ht : ({ path, mode } : Sink.File).Seated h₀'.disk t.host.disk :=
      ⟨h.right.sound, h.right.later.disk, Sink.File.anchored_closed rfl _⟩
    -- what the path has in store decides whether it opens, and is the same for both
    have halike := Sink.File.alike_reopen hs ht ⟨rfl, rfl, .none⟩ hview
    have hok' : (t.addFileAppender path mode level formatter).1.isOk := by
      rw [isOk_addFileAppender] at hok ⊢
      rw [← halike.1]
      exact hok
    show Pair _ _ _ _ (s.addFileAppender path mode level formatter).2 (t.addFileAppender path mode level formatter).2
    rw [addFileAppender_eq, addFileAppender_eq, if_pos hok, if_pos hok', ← ha, ← ha']
    exact (hadd (.file { path, mode }) rfl rfl level formatter).touch hansi hst Appender.orderly_reopen _
  | _ => exact hk.elim

def Blind (f : System → System) : Prop :=
  ∀ (s : System) (host : Host) (appenders : Array Appender),
    f { s with host, appenders } = { f s with host, appenders }

theorem blind (h : Pair h₀ h₀' a st s t) {f : System → System} (hf : Blind f) : Pair h₀ h₀' a st (f s) (f t) := by
  have hs : f s = { f s with host := s.host, appenders := s.appenders } := hf s s.host s.appenders
  have ht : f t = { f s with host := t.host, appenders := t.appenders } := by
    rw [← hf s t.host t.appenders, ← h.loggers.loggers, ← h.loggers.registries]
  rw [hs, ht]
  exact
    { left := h.left.of_appenders rfl rfl
      right := h.right.of_appenders rfl rfl
      loggers := ⟨rfl, rfl⟩
      view := h.view
      appender := h.appender }

theorem blind_get (i : RegistryId) (name : String) : Blind fun s => (s.get i name).2 := by
  intro s host appenders
  simp only [get, registryAt?]
  cases s.registries[i.index]? with
  | none => rfl
  | some r =>
    simp only
    cases r.lookup name <;> rfl

theorem newRegistry (h : Pair h₀ h₀' a st s t) (hst : st ≠ .outlet .stderr)
    (hsize : t.appenders.size = s.appenders.size) (ha : a ≠ ⟨s.appenders.size⟩) (hstdout : st ≠ .outlet .stdout) :
    Pair h₀ h₀' a st s.newRegistry.2 t.newRegistry.2 := by
  have hapart : ∀ d, (Site.outlet .stdout).Apart d st := by
    intro d
    cases st with
    | outlet o => exact fun ho => hstdout (congrArg Site.outlet ho.symm)
    | file path => trivial
  let console : Action := .addAppender (.console {}) .debug Formatter.standard
  have hmakes : ∀ u : System, console.Makes u (.outlet .stdout) := fun _ => ⟨trivial, rfl⟩
  have hadd := h.quiet (h.left.quiet_making hst ha (hmakes s) (hapart _))
    (h.right.quiet_making hst (by rw [hsize]; exact ha) (hmakes t) (hapart _))
  let root : Logger := ({ name := Registry.rootName } : Logger).add ⟨s.appenders.size⟩
  have hroot : t.newRegistry.2 =
      ((((console.perform t).addLogger root).2.addRegistry { root := ⟨t.loggers.size⟩ }).2) := by
    simp only [root, ← hsize]
    rfl
  rw [hroot]
  exact hadd.blind (f := fun u => ((u.addLogger root).2.addRegistry { root := ⟨u.loggers.size⟩ }).2) fun _ _ _ => rfl

end Pair

end Logline.System
