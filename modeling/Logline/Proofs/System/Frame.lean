import Mathlib.Data.List.Basic
import Logline.Proofs.Logger.Attachment
import Logline.Proofs.Registry.Names
import Logline.System

/-!
# What an action leaves as it is

Actions on appenders touch neither loggers nor registries, and an action on one of many touches no other.
-/

namespace Logline.System

open Output

/-! ## Appenders -/

section
variable {s : System} {a b : AppenderId} {x : Appender}

theorem index_lt_of_appenderAt? (h : s.appenderAt? a = some x) : a.index < s.appenders.size :=
  (Array.getElem?_eq_some_iff.mp h).1

/-- An appender that there is does not have the next number. -/
theorem ne_of_appenderAt? (h : s.appenderAt? a = some x) : a ≠ ⟨s.appenders.size⟩ := by
  rintro rfl
  exact Nat.lt_irrefl _ (index_lt_of_appenderAt? h)

theorem appenderAt?_setAppender (h : s.appenderAt? a = some x) (y : Appender) :
    (s.setAppender a y).appenderAt? b = if b = a then some y else s.appenderAt? b := by
  by_cases hb : b = a
  · subst hb
    simp [appenderAt?, setAppender, index_lt_of_appenderAt? h]
  · have hi : a.index ≠ b.index := fun hi => hb (congrArg AppenderId.mk hi.symm)
    simp [appenderAt?, setAppender, Array.getElem?_setIfInBounds_ne hi, hb]

theorem appenderAt?_modifyAppender (f : Appender → Appender) :
    (s.modifyAppender a f).appenderAt? b = if b = a then (s.appenderAt? b).map f else s.appenderAt? b := by
  by_cases h : b = a
  · subst h
    simp [appenderAt?, modifyAppender, Array.getElem?_modify]
  · have hi : a.index ≠ b.index := fun hi => h (congrArg AppenderId.mk hi.symm)
    simp [appenderAt?, modifyAppender, Array.getElem?_modify, h, hi]

theorem appenderAt?_addAppender (sink : Sink) (level : Level) (formatter : Formatter) :
    (s.addAppender sink level formatter).2.appenderAt? b =
      if b = ⟨s.appenders.size⟩ then some { id := b, level, formatter, sink } else s.appenderAt? b := by
  by_cases h : b = ⟨s.appenders.size⟩
  · subst h
    simp [appenderAt?, addAppender]
  · have hi : b.index ≠ s.appenders.size := fun hi => h (congrArg AppenderId.mk hi)
    simp [appenderAt?, addAppender, Array.getElem?_push, h, hi]

end

/-! ## Handing an event on -/

section
variable {s : System} {loggerName : String} {level : Level} {e : Event} {a b : AppenderId} {x : Appender}

theorem deliver_of_appenderAt? (h : s.appenderAt? a = some x) : s.deliver loggerName level e a =
    ((x.log loggerName level e s.host).1, { s.setAppender a (x.log loggerName level e s.host).2.1 with
      host := (x.log loggerName level e s.host).2.2 }) := by
  rw [deliver, h]

theorem appenderAt?_deliver (h : s.appenderAt? a = some x) :
    (s.deliver loggerName level e a).2.appenderAt? a = some (x.log loggerName level e s.host).2.1 := by
  rw [deliver_of_appenderAt? h]
  exact (appenderAt?_setAppender h _).trans (if_pos rfl)

theorem appenderAt?_deliver_of_ne (h : b ≠ a) :
    (s.deliver loggerName level e a).2.appenderAt? b = s.appenderAt? b := by
  cases ha : s.appenderAt? a with
  | none => rw [deliver, ha]
  | some x =>
    rw [deliver_of_appenderAt? ha]
    exact (appenderAt?_setAppender ha _).trans (if_neg h)

def handed (s : System) (loggerName : String) (level : Level) (e : Event) (as : List AppenderId) : System :=
  as.foldl (fun s a => (s.deliver loggerName level e a).2) s

theorem handed_append (as bs : List AppenderId) : s.handed loggerName level e (as ++ bs) =
    (s.handed loggerName level e as).handed loggerName level e bs :=
  List.foldl_append

theorem appenderAt?_handed_of_notMem {as : List AppenderId} (h : a ∉ as) :
    (s.handed loggerName level e as).appenderAt? a = s.appenderAt? a := by
  induction as generalizing s with
  | nil => rfl
  | cons b as ih =>
    obtain ⟨hb, has⟩ := not_or.mp (mt List.mem_cons.mpr h)
    exact (ih has).trans (appenderAt?_deliver_of_ne hb)

theorem deliverAll_cons_of_ok (h : (s.deliver loggerName level e a).1 = .ok ()) (as : List AppenderId) :
    s.deliverAll loggerName level e (a :: as) = (s.deliver loggerName level e a).2.deliverAll loggerName level e as := by
  have hpair : s.deliver loggerName level e a = (.ok (), (s.deliver loggerName level e a).2) := Prod.ext h rfl
  rw [deliverAll, hpair]

theorem deliverAll_cons_of_error {fault : Fault} (h : (s.deliver loggerName level e a).1 = .error fault)
    (as : List AppenderId) :
    s.deliverAll loggerName level e (a :: as) = (.error fault, (s.deliver loggerName level e a).2) := by
  have hpair : s.deliver loggerName level e a = (.error fault, (s.deliver loggerName level e a).2) := Prod.ext h rfl
  rw [deliverAll, hpair]

/-- Either all appenders have had the event, or those have had it up to one whose call was cut short. -/
theorem deliverAll_cases (s : System) (loggerName : String) (level : Level) (e : Event) (as : List AppenderId) :
    s.deliverAll loggerName level e as = (.ok (), s.handed loggerName level e as) ∨
    ∃ before a after fault, as = before ++ a :: after ∧
      s.deliverAll loggerName level e before = (.ok (), s.handed loggerName level e before) ∧
      ((s.handed loggerName level e before).deliver loggerName level e a).1 = .error fault ∧
      s.deliverAll loggerName level e as = (.error fault, s.handed loggerName level e (before ++ [a])) := by
  induction as generalizing s with
  | nil => exact .inl rfl
  | cons b as ih =>
    cases hb : (s.deliver loggerName level e b).1 with
    | error fault => exact .inr ⟨[], b, as, fault, rfl, rfl, hb, deliverAll_cons_of_error hb as⟩
    | ok u =>
      rw [deliverAll_cons_of_ok hb]
      rcases ih (s.deliver loggerName level e b).2 with hall | ⟨before, a, after, fault, rfl, hbefore, ha, hall⟩
      · exact .inl hall
      · exact .inr ⟨b :: before, a, after, fault, rfl, (deliverAll_cons_of_ok hb before).trans hbefore, ha, hall⟩

/-- However far it gets, the event has been handed to the first of the appenders. -/
theorem exists_handed (s : System) (loggerName : String) (level : Level) (e : Event) (as : List AppenderId) :
    ∃ had, had <+: as ∧ (s.deliverAll loggerName level e as).2 = s.handed loggerName level e had := by
  rcases s.deliverAll_cases loggerName level e as with hall | ⟨before, a, after, fault, hsplit, -, -, hall⟩
  · exact ⟨as, List.prefix_rfl, by rw [hall]⟩
  · exact ⟨before ++ [a], ⟨after, by rw [hsplit, List.append_assoc]; rfl⟩, by rw [hall]⟩

theorem deliverAll_append_of_ok {before : List AppenderId} (h : (s.deliverAll loggerName level e before).1 = .ok ())
    (as : List AppenderId) : s.deliverAll loggerName level e (before ++ as) =
      (s.handed loggerName level e before).deliverAll loggerName level e as := by
  induction before generalizing s with
  | nil => rfl
  | cons b before ih =>
    cases hb : (s.deliver loggerName level e b).1 with
    | ok u =>
      rw [deliverAll_cons_of_ok hb] at h
      rw [List.cons_append, deliverAll_cons_of_ok hb]
      exact ih h
    | error fault =>
      rw [deliverAll_cons_of_error hb] at h
      cases h

/-- In a call that returns every appender has had the event. -/
theorem deliverAll_of_ok {as : List AppenderId} (h : (s.deliverAll loggerName level e as).1 = .ok ()) :
    (s.deliverAll loggerName level e as).2 = s.handed loggerName level e as := by
  rcases s.deliverAll_cases loggerName level e as with hall | ⟨_, _, _, fault, -, -, -, hall⟩
  · rw [hall]
  · rw [hall] at h
    cases h

end

/-! ## What loggers do with their appenders -/

section
variable {s : System} {l : LoggerId} {x : Logger} {level : Level} {e : Event} {a : AppenderId}

theorem log_eq_deliverAll (hl : s.loggerAt? l = some x) (hlevel : x.enabled level = true) :
    s.log l level e = s.deliverAll x.name level e x.appenders := by
  simp only [log, hl, hlevel, if_true]

/-- A call of the logger is not cut short by an appender that stands before this one. -/
def ComesTo (s : System) (a : AppenderId) (l : LoggerId) (level : Level) (e : Event) : Prop :=
  ∀ x before after, s.loggerAt? l = some x → x.enabled level = true → x.appenders = before ++ a :: after →
    (s.deliverAll x.name level e before).1 = .ok ()

theorem comesTo_of_returns (h : (s.log l level e).1 = .ok ()) (a : AppenderId) : s.ComesTo a l level e := by
  intro x before after hl hlevel hsplit
  rw [log_eq_deliverAll hl hlevel, hsplit] at h
  rcases s.deliverAll_cases x.name level e before with hall | ⟨front, b, rest, fault, hbefore, hfront, hb, -⟩
  · rw [hall]
  · rw [hbefore, List.append_assoc, deliverAll_append_of_ok (by rw [hfront])] at h
    cases h.symm.trans (congrArg Prod.fst (deliverAll_cons_of_error hb _))

/-- If it comes to the appender, the event is handed to it and after it to others at most. -/
theorem ComesTo.exists_handed (h : s.ComesTo a l level e) (hl : s.loggerAt? l = some x) (hlevel : x.enabled level = true)
    {before after : List AppenderId} (hsplit : x.appenders = before ++ a :: after) :
    ∃ had, had <+: after ∧ (s.log l level e).2 = s.handed x.name level e (before ++ a :: had) := by
  rw [log_eq_deliverAll hl hlevel, hsplit, deliverAll_append_of_ok (h x before after hl hlevel hsplit)]
  cases ha : ((s.handed x.name level e before).deliver x.name level e a).1 with
  | error fault =>
    refine ⟨[], List.nil_prefix, ?_⟩
    rw [deliverAll_cons_of_error ha, handed_append]
    rfl
  | ok u =>
    obtain ⟨had, hhad, hrest⟩ := System.exists_handed
      ((s.handed x.name level e before).deliver x.name level e a).2 x.name level e after
    refine ⟨had, hhad, ?_⟩
    rw [deliverAll_cons_of_ok ha, hrest, handed_append]
    rfl

end

section
variable {P : System → Prop} {s : System} {level : Level} {e : Event}

/-- What delivering to one appender keeps, handing on keeps. -/
theorem handed_of_deliver {loggerName : String} (hdeliver : ∀ s a, P s → P (s.deliver loggerName level e a).2) (h : P s)
    (as : List AppenderId) : P (s.handed loggerName level e as) := by
  induction as generalizing s with
  | nil => exact h
  | cons a as ih => exact ih (hdeliver s a h)

/-- The same, however far the call gets. -/
theorem log_of_deliver (hdeliver : ∀ s loggerName a, P s → P (s.deliver loggerName level e a).2) (h : P s)
    (l : LoggerId) : P (s.log l level e).2 := by
  unfold log
  split
  · next x hx =>
    have hhanded := fun as => handed_of_deliver (fun s => hdeliver s x.name) h as
    split
    · rcases s.deliverAll_cases x.name level e x.appenders with hall | ⟨before, a, _, _, -, -, -, hall⟩
      · rw [hall]
        exact hhanded x.appenders
      · rw [hall]
        exact hhanded (before ++ [a])
    · exact h
  · exact h

theorem logWith_of_deliver (hdeliver : ∀ s loggerName e a, P s → P (s.deliver loggerName level e a).2) (h : P s)
    (l : LoggerId) (e : Unit → Event) : P (s.logWith l level e).2 := by
  unfold logWith
  split
  · split
    · exact log_of_deliver (fun s loggerName => hdeliver s loggerName _) h l
    · exact h
  · exact h

/-- What flushing one appender keeps, flushing a logger keeps, however far it gets. -/
theorem flush_of_flushAppender (hflush : ∀ s a, P s → P (s.flushAppender a).2) (h : P s) (l : LoggerId) :
    P (s.flush l).2 := by
  have hall : ∀ (as : List AppenderId) (s : System), P s → P (s.flushAll as).2 := by
    intro as
    induction as with
    | nil => exact fun s h => h
    | cons a as ih =>
      intro s h
      have ha := hflush s a h
      unfold flushAll
      split
      · next t ht => rw [ht] at ha; exact ih t ha
      · next e t ht => rw [ht] at ha; exact ha
  unfold flush
  split
  · exact hall _ s h
  · exact h

end

/-! ## Loggers and registries -/

structure SameLoggers (s t : System) : Prop where
  loggers : t.loggers = s.loggers
  registries : t.registries = s.registries

namespace SameLoggers

theorem refl (s : System) : s.SameLoggers s := ⟨rfl, rfl⟩

theorem trans {s t u : System} (h : s.SameLoggers t) (h' : t.SameLoggers u) : s.SameLoggers u :=
  ⟨h'.loggers.trans h.loggers, h'.registries.trans h.registries⟩

theorem loggerAt? {s t : System} (h : s.SameLoggers t) (l : LoggerId) : t.loggerAt? l = s.loggerAt? l := by
  rw [System.loggerAt?, System.loggerAt?, h.loggers]

theorem registryAt? {s t : System} (h : s.SameLoggers t) (i : RegistryId) : t.registryAt? i = s.registryAt? i := by
  rw [System.registryAt?, System.registryAt?, h.registries]

end SameLoggers

section
variable (s : System)

theorem sameLoggers_addFileAppender (path : String) (mode : FileMode) (level : Level) (formatter : Formatter) :
    s.SameLoggers (s.addFileAppender path mode level formatter).2 := by
  unfold addFileAppender
  split
  · exact ⟨rfl, rfl⟩
  · exact ⟨rfl, rfl⟩

theorem sameLoggers_setPattern (a : AppenderId) (pattern : String) : s.SameLoggers (s.setPattern a pattern).2 := by
  unfold setPattern
  split
  · exact ⟨rfl, rfl⟩
  · exact .refl s

theorem sameLoggers_reopen (a : AppenderId) : s.SameLoggers (s.reopen a).2 := by
  unfold reopen
  split
  · exact ⟨rfl, rfl⟩
  · exact .refl s

theorem sameLoggers_flushAppender (a : AppenderId) : s.SameLoggers (s.flushAppender a).2 := by
  unfold flushAppender
  split
  · exact ⟨rfl, rfl⟩
  · exact .refl s

theorem sameLoggers_deliver (loggerName : String) (level : Level) (e : Event) (a : AppenderId) :
    s.SameLoggers (s.deliver loggerName level e a).2 := by
  unfold deliver
  split
  · exact ⟨rfl, rfl⟩
  · exact .refl s

theorem sameLoggers_log (l : LoggerId) (level : Level) (e : Event) : s.SameLoggers (s.log l level e).2 :=
  log_of_deliver (fun t loggerName a h => h.trans (t.sameLoggers_deliver loggerName level e a)) (.refl s) l

theorem sameLoggers_logWith (l : LoggerId) (level : Level) (e : Unit → Event) :
    s.SameLoggers (s.logWith l level e).2 :=
  logWith_of_deliver (fun t loggerName e a h => h.trans (t.sameLoggers_deliver loggerName level e a)) (.refl s) l e

theorem sameLoggers_flush (l : LoggerId) : s.SameLoggers (s.flush l).2 :=
  flush_of_flushAppender (fun t a h => h.trans (t.sameLoggers_flushAppender a)) (.refl s) l

end

section
variable {s : System} {l m : LoggerId}

theorem loggerAt?_addLogger (x : Logger) : (s.addLogger x).2.loggerAt? m =
    if m = ⟨s.loggers.size⟩ then some x else s.loggerAt? m := by
  by_cases h : m = ⟨s.loggers.size⟩
  · subst h
    simp [loggerAt?, addLogger]
  · have hi : m.index ≠ s.loggers.size := fun hi => h (congrArg LoggerId.mk hi)
    simp [loggerAt?, addLogger, Array.getElem?_push, h, hi]

theorem loggerAt?_modifyLogger (f : Logger → Logger) : (s.modifyLogger l f).loggerAt? m =
    if m = l then (s.loggerAt? m).map f else s.loggerAt? m := by
  by_cases h : m = l
  · subst h
    simp [loggerAt?, modifyLogger, Array.getElem?_modify]
  · have hi : l.index ≠ m.index := fun hi => h (congrArg LoggerId.mk hi.symm)
    simp [loggerAt?, modifyLogger, Array.getElem?_modify, h, hi]

theorem index_lt_of_loggerAt? {x : Logger} (h : s.loggerAt? l = some x) : l.index < s.loggers.size :=
  (Array.getElem?_eq_some_iff.mp h).1

theorem ne_of_loggerAt? {x : Logger} (h : s.loggerAt? l = some x) : l ≠ ⟨s.loggers.size⟩ := by
  rintro rfl
  exact Nat.lt_irrefl _ (index_lt_of_loggerAt? h)

end

end Logline.System
