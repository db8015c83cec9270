import Logline.Proofs.System.Pair

/-!
# What holds of every appender

A property that new appenders have, and that nothing done to an appender ends, is one that all the appenders
of a system have at any time.
-/

namespace Logline.System

open Output

def Each (P : AppenderId → Appender → Prop) (s : System) : Prop :=
  ∀ a x, s.appenderAt? a = some x → P a x

/-- Nothing that is done to an appender ends the property, as long as it is made on a sink of a kind and given
formatters of a kind. -/
structure Lasting (P : AppenderId → Appender → Prop) (S : Sink → Prop) (F : Formatter → Prop) : Prop where
  log : ∀ a x loggerName level e h, P a x → P a (x.log loggerName level e h).2.1
  reopen : ∀ a x h, P a x → P a (x.reopen h).2.1
  flush : ∀ a x h, P a x → P a (x.flush h).2.1
  setLevel : ∀ a x level, P a x → P a (x.setLevel level)
  setPattern : ∀ a x pattern, P a x → P a (x.setPattern pattern).2
  setFormatter : ∀ a x f, F f → P a x → P a (x.setFormatter f)
  made : ∀ a sink level f, S sink → F f → P a { id := a, level, formatter := f, sink }
  console : S (.console {})
  opened : ∀ path mode d file d', Sink.File.opened path mode d = (.ok file, d') → S (.file file)
  standard : F Formatter.standard
  compiled : ∀ pattern f, Formatter.ofPattern pattern = .ok f → F f

def Action.sink? : Action → Option Sink
  | addAppender sink _ _ => some sink
  | _ => none

def Action.formatter? : Action → Option Formatter
  | addAppender _ _ f | addFileAppender _ _ _ f | setFormatter _ f => some f
  | _ => none

variable {P : AppenderId → Appender → Prop} {S : Sink → Prop} {F : Formatter → Prop} {s t : System}

theorem each_empty (host : Host) : Each P { host } := by
  intro a x h
  simp [appenderAt?] at h

namespace Each

theorem of_appenders (h : s.Each P) (he : t.appenders = s.appenders) : t.Each P := by
  intro a x hx
  refine h a x ?_
  rw [appenderAt?, ← he]
  exact hx

theorem touch (h : s.Each P) (b : AppenderId) {g : Appender → Host → Appender × Host}
    (hg : ∀ x host, P b x → P b (g x host).1) : (s.touch b g).Each P := by
  cases hb : s.appenderAt? b with
  | none => rwa [touch_of_none g hb]
  | some x =>
    intro a y hy
    rw [appenderAt?_touch g hb] at hy
    split at hy
    · next he =>
      cases hy
      rw [he]
      exact hg x s.host (h b x hb)
    · exact h a y hy

theorem modifyAppender (h : s.Each P) (b : AppenderId) {f : Appender → Appender} (hf : ∀ x, P b x → P b (f x)) :
    (s.modifyAppender b f).Each P := by
  rw [modifyAppender_eq_touch]
  exact h.touch b fun x _ => hf x

section
variable (hP : Lasting P S F) (h : s.Each P)
include hP h

theorem setPattern (b : AppenderId) (pattern : String) : (s.setPattern b pattern).2.Each P := by
  rw [setPattern_eq_touch]
  exact h.touch b fun x _ => hP.setPattern b x pattern

theorem reopen (b : AppenderId) : (s.reopen b).2.Each P := by
  rw [reopen_eq_touch]
  exact h.touch b fun x host => hP.reopen b x host

theorem flushAppender (b : AppenderId) : (s.flushAppender b).2.Each P := by
  rw [flushAppender_eq_touch]
  exact h.touch b fun x host => hP.flush b x host

theorem deliver (loggerName : String) (level : Level) (e : Event) (b : AppenderId) :
    (s.deliver loggerName level e b).2.Each P := by
  rw [deliver_eq_touch]
  exact h.touch b fun x host => hP.log b x loggerName level e host

theorem addAppender {sink : Sink} (hsink : S sink) (level : Level) {f : Formatter} (hf : F f) :
    (s.addAppender sink level f).2.Each P := by
  intro a x hx
  rw [appenderAt?_addAppender] at hx
  split at hx
  · cases hx
    exact hP.made a sink level f hsink hf
  · exact h a x hx

theorem addFileAppender (path : String) (mode : FileMode) (level : Level) {f : Formatter} (hf : F f) :
    (s.addFileAppender path mode level f).2.Each P := by
  have hdisk : ∀ disk, Each P { s with host := { s.host with disk } } := fun disk => h.of_appenders rfl
  unfold System.addFileAppender
  split
  · next ho => exact (hdisk _).addAppender hP (hP.opened _ _ _ _ _ ho) level hf
  · exact hdisk _

/-! ### Loggers and registries -/

theorem log (l : LoggerId) (level : Level) (e : Event) : (s.log l level e).2.Each P :=
  log_of_deliver (fun _ loggerName a h => h.deliver hP loggerName level e a) h l

theorem logWith (l : LoggerId) (level : Level) (e : Unit → Event) : (s.logWith l level e).2.Each P :=
  logWith_of_deliver (fun _ loggerName e a h => h.deliver hP loggerName level e a) h l e

theorem flush (l : LoggerId) : (s.flush l).2.Each P :=
  flush_of_flushAppender (fun _ a h => h.flushAppender hP a) h l

theorem newRegistry : s.newRegistry.2.Each P :=
  (h.addAppender hP hP.console .debug hP.standard).of_appenders rfl

omit hP in
theorem get (i : RegistryId) (name : String) : (s.get i name).2.Each P := by
  refine h.of_appenders ?_
  unfold System.get
  split
  · rfl
  · split <;> rfl

/-! ### Configuring -/

theorem makeAppender (shared : Option String) (plan : Config.AppenderPlan) :
    (s.makeAppender shared plan).2.Each P := by
  unfold System.makeAppender
  split
  · exact h
  · next f hf =>
    have hf := hP.compiled _ f hf
    split
    · exact h.addAppender hP hP.console _ hf
    · exact h.addFileAppender hP _ _ _ hf
    · exact h

omit hP in
theorem install (i : RegistryId) (plan : Config.LoggerPlan) (ids : List AppenderId) :
    (s.install i plan ids).Each P := by
  have hget := h.get i plan.name
  unfold System.install
  split
  · next l t ht => rw [ht] at hget; exact hget.of_appenders rfl
  · next t ht => rw [ht] at hget; exact hget

theorem configure (i : RegistryId) (config : Config) : (s.configure i config).2.Each P :=
  configure_of_makeAppender (fun _ shared plan h => h.makeAppender hP shared plan)
    (fun _ i plan ids h => h.install i plan ids) h i config

end

/-! ### Any action -/

theorem apply (hP : Lasting P S F) (h : s.Each P) (c : Call) : (c.apply s).Each P := by
  cases c with
  | log l level e => exact h.log hP l level e
  | setThreshold a level => exact h.modifyAppender a fun x => hP.setLevel a x level
  | setLevel | add | remove | clear | set => exact h.of_appenders rfl

theorem perform (hP : Lasting P S F) (h : s.Each P) (k : Action) (hsink : ∀ x ∈ k.sink?, S x)
    (hf : ∀ f ∈ k.formatter?, F f) : (k.perform s).Each P := by
  cases k with
  | outside | addLogger | buildLogger => exact h.of_appenders rfl
  | addAppender sink level f => exact h.addAppender hP (hsink sink rfl) level (hf f rfl)
  | addFileAppender path mode level f => exact h.addFileAppender hP path mode level (hf f rfl)
  | deliver a loggerName level e => exact h.deliver hP loggerName level e a
  | setPattern a pattern => exact h.setPattern hP a pattern
  | setFormatter a f => exact h.modifyAppender a fun x => hP.setFormatter a x f (hf f rfl)
  | reopen a => exact h.reopen hP a
  | flushAppender a => exact h.flushAppender hP a
  | call c => exact h.apply hP c
  | logWith l level e => exact h.logWith hP l level e
  | flush l => exact h.flush hP l
  | newRegistry => exact h.newRegistry hP
  | addRegistry root =>
    simp only [Action.perform]
    split
    · exact h.of_appenders rfl
    · exact h
  | get i name => exact h.get i name
  | configure i config => exact h.configure hP i config

theorem run (hP : Lasting P S F) (h : s.Each P) (ks : List Action) (hsink : ∀ k ∈ ks, ∀ x ∈ k.sink?, S x)
    (hf : ∀ k ∈ ks, ∀ f ∈ k.formatter?, F f) : (ks.foldl (fun s k => k.perform s) s).Each P := by
  induction ks generalizing s with
  | nil => exact h
  | cons k ks ih =>
    obtain ⟨hsink, hsinks⟩ := List.forall_mem_cons.mp hsink
    obtain ⟨hf, hfs⟩ := List.forall_mem_cons.mp hf
    exact ih (h.perform hP k hsink hf) hsinks hfs

end Each

end Logline.System
