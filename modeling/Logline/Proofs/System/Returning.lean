import Logline.Proofs.Appender.Returning
import Logline.Proofs.System.History

/-!
# Actions that return

Only calls that log an event or open a path again can be cut short, by the error stream. No action limits that
stream, so on a host where it has no limit every action of a run returns.
-/

namespace Logline.System

open Output

def Action.Returns (s : System) : Action → Prop
  | deliver a loggerName level e => (s.deliver loggerName level e a).1 = .ok ()
  | reopen a => ∃ isOpen, (s.reopen a).1 = .ok isOpen
  | call (.log l level e) => (s.log l level e).1 = .ok ()
  | logWith l level e => ∃ made, (s.logWith l level e).1 = .ok made
  | _ => True

/-- Each of some actions has the property in the system in which its turn comes. -/
def Throughout (P : System → Action → Prop) (s : System) : List Action → Prop
  | [] => True
  | k :: ks => P s k ∧ Throughout P (k.perform s) ks

section
variable {P Q : System → Action → Prop} {s : System}

theorem throughout_append {ks ms : List Action} : Throughout P s (ks ++ ms) ↔
    Throughout P s ks ∧ Throughout P (ks.foldl (fun s k => k.perform s) s) ms := by
  induction ks generalizing s with
  | nil => exact iff_of_eq (true_and _).symm
  | cons k ks ih => exact (and_congr_right fun _ => ih).trans and_assoc.symm

theorem Throughout.mono (hPQ : ∀ s k, P s k → Q s k) {ks : List Action} (h : Throughout P s ks) : Throughout Q s ks := by
  induction ks generalizing s with
  | nil => trivial
  | cons k ks ih => exact ⟨hPQ s k h.1, ih h.2⟩

end

/-! ## The limit of the error stream -/

section
variable (s : System)

theorem limit_deliver (loggerName : String) (level : Level) (e : Event) (a : AppenderId) :
    (s.deliver loggerName level e a).2.host.stderr.limit = s.host.stderr.limit := by
  unfold deliver
  split
  · exact Appender.limit_log _ loggerName level e s.host
  · rfl

theorem limit_log (l : LoggerId) (level : Level) (e : Event) :
    (s.log l level e).2.host.stderr.limit = s.host.stderr.limit :=
  log_of_deliver (P := fun t => t.host.stderr.limit = s.host.stderr.limit)
    (fun t loggerName a h => (t.limit_deliver loggerName level e a).trans h) rfl l

theorem limit_logWith (l : LoggerId) (level : Level) (e : Unit → Event) :
    (s.logWith l level e).2.host.stderr.limit = s.host.stderr.limit :=
  logWith_of_deliver (P := fun t => t.host.stderr.limit = s.host.stderr.limit)
    (fun t loggerName e a h => (t.limit_deliver loggerName level e a).trans h) rfl l e

theorem limit_reopen (a : AppenderId) : (s.reopen a).2.host.stderr.limit = s.host.stderr.limit := by
  unfold reopen
  split
  · exact Sink.limit_reopen _ s.host
  · rfl

theorem limit_flushAppender (a : AppenderId) : (s.flushAppender a).2.host.stderr.limit = s.host.stderr.limit := by
  unfold flushAppender
  split
  · exact Sink.limit_flush _ s.host
  · rfl

theorem limit_addFileAppender (path : String) (mode : FileMode) (level : Level) (formatter : Formatter) :
    (s.addFileAppender path mode level formatter).2.host.stderr.limit = s.host.stderr.limit := by
  unfold addFileAppender
  split <;> rfl

theorem limit_get (i : RegistryId) (name : String) : (s.get i name).2.host.stderr.limit = s.host.stderr.limit := by
  unfold get
  split
  · rfl
  · split <;> rfl

theorem limit_install (i : RegistryId) (plan : Config.LoggerPlan) (ids : List AppenderId) :
    (s.install i plan ids).host.stderr.limit = s.host.stderr.limit := by
  have hget := s.limit_get i plan.name
  unfold install
  split
  · next ht => rw [ht] at hget; exact hget
  · next ht => rw [ht] at hget; exact hget

theorem limit_makeAppender (shared : Option String) (plan : Config.AppenderPlan) :
    (s.makeAppender shared plan).2.host.stderr.limit = s.host.stderr.limit := by
  unfold makeAppender
  split
  · rfl
  · split
    · rfl
    · exact s.limit_addFileAppender ..
    · rfl

theorem limit_configure (i : RegistryId) (config : Config) :
    (s.configure i config).2.host.stderr.limit = s.host.stderr.limit :=
  configure_of_makeAppender (P := fun t => t.host.stderr.limit = s.host.stderr.limit)
    (fun t shared plan h => (t.limit_makeAppender shared plan).trans h)
    (fun t i plan ids h => (t.limit_install i plan ids).trans h) rfl i config

/-- What others do to the host apart, no action limits the error stream or lifts its limit. -/
theorem limit_perform (k : Action) (hk : ∀ change, k = .outside change → ∀ h, (change h).stderr.limit = h.stderr.limit) :
    (k.perform s).host.stderr.limit = s.host.stderr.limit := by
  cases k with
  | outside change => exact hk change rfl s.host
  | addFileAppender path mode level formatter => exact s.limit_addFileAppender path mode level formatter
  | deliver a loggerName level e => exact s.limit_deliver loggerName level e a
  | setPattern a pattern =>
    simp only [Action.perform, setPattern]
    split <;> rfl
  | reopen a => exact s.limit_reopen a
  | flushAppender a => exact s.limit_flushAppender a
  | call c =>
    cases c with
    | log l level e => exact s.limit_log l level e
    | _ => rfl
  | logWith l level e => exact s.limit_logWith l level e
  | flush l =>
    exact flush_of_flushAppender (P := fun t => t.host.stderr.limit = s.host.stderr.limit)
      (fun t a h => (t.limit_flushAppender a).trans h) rfl l
  | addRegistry root =>
    simp only [Action.perform]
    split <;> rfl
  | get i name => exact s.limit_get i name
  | configure i config => exact s.limit_configure i config
  | addAppender | setFormatter | addLogger | buildLogger | newRegistry => rfl

end

/-! ## Hosts on which every call returns -/

section
variable {s : System} (hroom : s.host.stderr.limit = none)
include hroom

theorem deliver_returns (loggerName : String) (level : Level) (e : Event) (a : AppenderId) :
    (s.deliver loggerName level e a).1 = .ok () := by
  unfold deliver
  split
  · exact Appender.log_returns _ loggerName level e hroom
  · rfl

theorem deliverAll_returns (loggerName : String) (level : Level) (e : Event) (as : List AppenderId) :
    (s.deliverAll loggerName level e as).1 = .ok () := by
  induction as generalizing s with
  | nil => rfl
  | cons a as ih =>
    rw [deliverAll_cons_of_ok (deliver_returns hroom loggerName level e a)]
    exact ih ((s.limit_deliver loggerName level e a).trans hroom)

theorem log_returns (l : LoggerId) (level : Level) (e : Event) : (s.log l level e).1 = .ok () := by
  unfold log
  split
  · split
    · exact deliverAll_returns hroom _ level e _
    · rfl
  · rfl

theorem Action.returns_of_unlimited (k : Action) : k.Returns s := by
  cases k with
  | deliver a loggerName level e => exact deliver_returns hroom loggerName level e a
  | reopen a =>
    simp only [Returns, System.reopen]
    split
    · exact Sink.reopen_returns _ hroom
    · exact ⟨false, rfl⟩
  | call c =>
    cases c with
    | log l level e => exact log_returns hroom l level e
    | _ => trivial
  | logWith l level e =>
    simp only [Returns, System.logWith]
    split
    · split
      · simp only [log_returns hroom l level]
        exact ⟨true, rfl⟩
      · exact ⟨false, rfl⟩
    · exact ⟨false, rfl⟩
  | _ => trivial

theorem returns_throughout {ks : List Action}
    (houtside : ∀ change, .outside change ∈ ks → ∀ h, (change h).stderr.limit = h.stderr.limit) :
    Throughout (fun s k => k.Returns s) s ks := by
  induction ks generalizing s with
  | nil => trivial
  | cons k ks ih =>
    have hk : ∀ change, k = .outside change → ∀ h, (change h).stderr.limit = h.stderr.limit :=
      fun change h => houtside change (List.mem_cons.mpr (.inl h.symm))
    exact ⟨k.returns_of_unlimited hroom, ih ((s.limit_perform k hk).trans hroom) fun change h =>
      houtside change (List.mem_cons_of_mem k h)⟩

end

end Logline.System
