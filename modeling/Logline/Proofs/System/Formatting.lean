import Logline.Proofs.System.Every

/-!
# Formatters that tell what they render

A formatter keeps its pattern beside the items that it renders. They are never apart: a pattern that does not
compile leaves both as they were, and nothing else that is done to a system touches them.
-/

namespace Logline

open Output

namespace Formatter

def Tells (f : Formatter) : Prop :=
  Pattern.compile f.pattern = .ok f.items

variable {f g : Formatter} {pattern : String} {e : Error}

theorem tells_iff : f.Tells ↔ ofPattern f.pattern = .ok f := by
  unfold Tells ofPattern
  cases Pattern.compile f.pattern with
  | error e => exact ⟨nofun, nofun⟩
  | ok items =>
    constructor
    · rintro ⟨⟩
      rfl
    · intro h
      exact congrArg (fun r : Except Error Formatter => r.map Formatter.items) h

theorem tells_of_ofPattern (h : ofPattern pattern = .ok f) : f.Tells ∧ f.pattern = pattern := by
  unfold ofPattern at h
  cases hc : Pattern.compile pattern with
  | error e => rw [hc] at h; cases h
  | ok items => rw [hc] at h; cases h; exact ⟨hc, rfl⟩

/-- The standard pattern compiles, so the standard formatter is never left without items. -/
theorem tells_standard : standard.Tells := by
  have hc : (Pattern.compileChars standardPattern.toList).isOk = true := by cbv
  unfold Tells standard Pattern.compile
  cases h : Pattern.compileChars standardPattern.toList with
  | error u => rw [h] at hc; cases hc
  | ok items => rfl

/-- Either nothing changes, or nothing is left of what there was. -/
theorem reset_cases (f : Formatter) (pattern : String) :
    (∃ e, ofPattern pattern = .error e ∧ f.reset pattern = (.error e, f)) ∨
      ∃ g, ofPattern pattern = .ok g ∧ f.reset pattern = (.ok (), g) := by
  cases hp : ofPattern pattern with
  | error e => exact .inl ⟨e, rfl, by rw [reset, hp]⟩
  | ok g => exact .inr ⟨g, rfl, by rw [reset, hp]⟩

theorem Tells.reset (h : f.Tells) (pattern : String) : (f.reset pattern).2.Tells := by
  rcases f.reset_cases pattern with ⟨e, -, hr⟩ | ⟨g, hp, hr⟩
  · rwa [hr]
  · rw [hr]
    exact (tells_of_ofPattern hp).1

theorem Tells.eq_iff (hf : f.Tells) (hg : g.Tells) : f = g ↔ f.pattern = g.pattern := by
  refine ⟨congrArg pattern, fun h => ?_⟩
  have hfg := (tells_iff.mp hf).symm.trans ((congrArg ofPattern h).trans (tells_iff.mp hg))
  exact Except.ok.inj hfg

end Formatter

/-! ## Appenders -/

namespace Appender

theorem formatter_log (x : Appender) (loggerName : String) (level : Level) (e : Event) (h : Host) :
    (x.log loggerName level e h).2.1.formatter = x.formatter := by
  obtain ⟨sink, hlog⟩ := x.log_eq loggerName level e h
  rw [hlog]

theorem setPattern_cases (x : Appender) (pattern : String) :
    (∃ e, Formatter.ofPattern pattern = .error e ∧ x.setPattern pattern = (.error e, x)) ∨
      ∃ f, Formatter.ofPattern pattern = .ok f ∧ x.setPattern pattern = (.ok (), x.setFormatter f) := by
  rcases x.formatter.reset_cases pattern with ⟨e, hp, hr⟩ | ⟨f, hp, hr⟩
  · exact .inl ⟨e, hp, by rw [setPattern, hr]⟩
  · exact .inr ⟨f, hp, by rw [setPattern, hr]; rfl⟩

end Appender

/-! ## Systems -/

namespace System

def Telling (s : System) : Prop :=
  ∀ a x, s.appenderAt? a = some x → x.formatter.Tells

variable {s t : System}

theorem telling_empty (host : Host) : Telling { host } :=
  each_empty host

theorem setAppender_of_appenderAt? {a : AppenderId} {x : Appender} (h : s.appenderAt? a = some x) :
    s.setAppender a x = s := by
  obtain ⟨hlt, hx⟩ := Array.getElem?_eq_some_iff.mp h
  rw [setAppender, Array.set!_eq_setIfInBounds, Array.setIfInBounds_def, dif_pos hlt, ← hx, Array.set_getElem_self]

theorem setPattern_cases {a : AppenderId} {x : Appender} (hx : s.appenderAt? a = some x) (pattern : String) :
    (∃ e, Formatter.ofPattern pattern = .error e ∧ s.setPattern a pattern = (.error e, s)) ∨
      ∃ f t, Formatter.ofPattern pattern = .ok f ∧ s.setPattern a pattern = (.ok (), t) ∧
        t.appenderAt? a = some (x.setFormatter f) := by
  rcases x.setPattern_cases pattern with ⟨e, hp, hset⟩ | ⟨f, hp, hset⟩
  · exact .inl ⟨e, hp, by simp only [setPattern, hx, hset, setAppender_of_appenderAt? hx]⟩
  · exact .inr ⟨f, s.setAppender a (x.setFormatter f), hp, by simp only [setPattern, hx, hset],
      (appenderAt?_setAppender hx _).trans (if_pos rfl)⟩

theorem lasting_tells : Lasting (fun _ x => x.formatter.Tells) (fun _ => True) Formatter.Tells where
  log _ x loggerName level e h hx := (x.formatter_log loggerName level e h).symm ▸ hx
  reopen _ _ _ hx := hx
  flush _ _ _ hx := hx
  setLevel _ _ _ hx := hx
  setPattern _ _ pattern hx := hx.reset pattern
  setFormatter _ _ _ hf _ := hf
  made _ _ _ _ _ hf := hf
  console := trivial
  opened _ _ _ _ _ _ := trivial
  standard := Formatter.tells_standard
  compiled _ _ hf := (Formatter.tells_of_ofPattern hf).1

end System

end Logline
