import Mathlib.Data.List.Basic
import Logline.Proofs.System.Preparation

/-!
# Configurations that are refused

A configuration that offends is refused before anything is made. One that does not is refused for the first
appender that cannot be made. Either way no logger is touched.
-/

namespace Logline

open Output

namespace Config

/-! ## Offences -/

structure LoggerPlan.Valid (l : LoggerPlan) : Prop where
  name : Text.isBlank l.name = false
  files : ∀ a ∈ l.appenders, a.kind = .file → a.file ≠ none

/-- What is wrong with a logger; its name comes before its appenders. -/
inductive LoggerPlan.Offends (l : LoggerPlan) : Error → Prop
  | name (h : Text.isBlank l.name = true) : Offends l (.invalidConfiguration "logger" "name must not be empty")
  | file (h : Text.isBlank l.name = false) {a : AppenderPlan} (ha : a ∈ l.appenders) (hk : a.kind = .file)
    (hf : a.file = none) :
    Offends l (.invalidConfiguration ("logger '" ++ l.name ++ "'") "file appender requires a 'file' path")

def Offends (c : Config) (e : Error) : Prop :=
  ∃ before l after, c.loggers = before ++ l :: after ∧ (∀ m ∈ before, m.Valid) ∧ l.Offends e

theorem AppenderPlan.lacksFile_iff {a : AppenderPlan} : a.lacksFile = true ↔ a.kind = .file ∧ a.file = none := by
  simp [lacksFile]

theorem LoggerPlan.offence?_eq_none_iff {l : LoggerPlan} : l.offence? = none ↔ l.Valid := by
  unfold offence?
  split
  · next h => exact ⟨nofun, fun hv => by rw [hv.name] at h; cases h⟩
  next h =>
  split
  · next hany =>
    obtain ⟨a, ha, hlacks⟩ := List.any_eq_true.mp hany
    obtain ⟨hk, hf⟩ := AppenderPlan.lacksFile_iff.mp hlacks
    exact ⟨nofun, fun hv => absurd hf (hv.files a ha hk)⟩
  · next hany =>
    refine ⟨fun _ => ⟨Bool.eq_false_iff.mpr h, fun a ha hk hf => ?_⟩, fun _ => rfl⟩
    exact hany (List.any_eq_true.mpr ⟨a, ha, AppenderPlan.lacksFile_iff.mpr ⟨hk, hf⟩⟩)

theorem LoggerPlan.offence?_eq_some_iff {l : LoggerPlan} {e : Error} : l.offence? = some e ↔ l.Offends e := by
  unfold offence?
  split
  · next h =>
    constructor
    · rintro ⟨⟩
      exact .name h
    · rintro (_ | ⟨h', -⟩)
      · rfl
      · rw [h] at h'; cases h'
  next h =>
  have h := Bool.eq_false_iff.mpr h
  split
  · next hany =>
    obtain ⟨a, ha, hlacks⟩ := List.any_eq_true.mp hany
    obtain ⟨hk, hf⟩ := AppenderPlan.lacksFile_iff.mp hlacks
    constructor
    · rintro ⟨⟩
      exact .file h ha hk hf
    · rintro (h' | -)
      · rw [h] at h'; cases h'
      · rfl
  · next hany =>
    refine ⟨nofun, ?_⟩
    rintro (h' | ⟨-, ha, hk, hf⟩)
    · rw [h] at h'; cases h'
    · exact absurd (List.any_eq_true.mpr ⟨_, ha, AppenderPlan.lacksFile_iff.mpr ⟨hk, hf⟩⟩) hany

theorem validate_eq_error_iff {c : Config} {e : Error} : c.validate = .error e ↔ c.Offends e := by
  have hoffence : c.offence? = some e ↔ c.Offends e := by
    simp only [offence?, List.findSome?_eq_some_iff, LoggerPlan.offence?_eq_some_iff, LoggerPlan.offence?_eq_none_iff,
      Offends]
    constructor
    · rintro ⟨before, l, after, hsplit, hl, hbefore⟩
      exact ⟨before, l, after, hsplit, hbefore, hl⟩
    · rintro ⟨before, l, after, hsplit, hbefore, hl⟩
      exact ⟨before, l, after, hsplit, hl, hbefore⟩
  rw [← hoffence, validate]
  split
  · next e' he => rw [he]; simp
  · next he => rw [he]; simp

theorem valid_of_validate {c : Config} (h : c.validate = .ok ()) : ∀ l ∈ c.loggers, l.Valid := by
  intro l hl
  unfold validate at h
  split at h
  · cases h
  · next he => exact LoggerPlan.offence?_eq_none_iff.mp (List.findSome?_eq_none_iff.mp he l hl)

theorem Offends.component_ne {c : Config} {component message : String}
    (h : c.Offends (.invalidConfiguration component message)) : component ≠ "file appender" := by
  obtain ⟨-, l, -, -, -, hl⟩ := h
  cases hl with
  | name => decide
  | file =>
    intro heq
    have hlist := congrArg String.toList heq
    simp at hlist

theorem LoggerPlan.Valid.lacksFile {l : LoggerPlan} (h : l.Valid) {a : AppenderPlan} (ha : a ∈ l.appenders) :
    a.lacksFile = false :=
  Bool.eq_false_iff.mpr fun hlacks =>
    have ⟨hk, hf⟩ := AppenderPlan.lacksFile_iff.mp hlacks
    h.files a ha hk hf

end Config

namespace System

open Config

variable (s : System) (registry : RegistryId) {config : Config}

theorem configure_of_offends {e : Error} (h : config.Offends e) : s.configure registry config = (.error e, s) := by
  rw [configure, validate_eq_error_iff.mpr h]

/-- A configuration that does not offend is put into effect, or refused for its first fault. -/
theorem configure_cases (h : config.validate = .ok ()) :
    (∃ prepared t, s.Prepared t config.loggers prepared ∧ s.configure registry config =
      (.ok (), prepared.foldl (fun s (plan, ids) => s.install registry plan ids) t)) ∨
    ∃ e t, s.Failed t config.wanted e ∧ s.configure registry config = (.error e, t) := by
  rw [configure, h]
  rcases s.prepare_cases fun l hl a ha => (valid_of_validate h l hl).lacksFile ha with
    ⟨prepared, t, hprepare, hprepared⟩ | ⟨e, t, hprepare, hfailed⟩
  · exact .inl ⟨prepared, t, hprepared, by simp only [hprepare]⟩
  · exact .inr ⟨e, t, hfailed, by simp only [hprepare]⟩

theorem Failed.ne_invalidConfiguration {s t : System} {ws : List Wanted} {e : Error} (h : s.Failed t ws e)
    (component message : String) : e ≠ .invalidConfiguration component message := by
  obtain ⟨-, w, -, -, -, hw⟩ := h.fault
  cases hw <;> nofun

/-- When a configuration is refused, loggers and registries are as they were, and so is every appender there
was. If the configuration offends it is refused for its first offence, before anything has been made.
Otherwise it is refused if and only if, in the order of the document, there is a first appender whose
pattern does not compile or whose file cannot be opened, and for that fault; the disk is then as it was when
that appender's turn came. -/
theorem configure_refused (config : Config) :
    let r := (s.configure registry config).1
    let t := (s.configure registry config).2
    (∀ e, r = .error e → s.Grows t) ∧
    (∀ e, config.validate = .error e ↔ config.Offends e) ∧
    (∀ component message, r = .error (.invalidConfiguration component message) ↔
      config.Offends (.invalidConfiguration component message)) ∧
    (∀ e, config.Offends e → r = .error e ∧ t = s) ∧
    ((∀ e, ¬ config.Offends e) → ∀ e d, r = .error e ∧ t.host.disk = d ↔
      Wanted.FirstFault config.wanted s.host.disk d e) ∧
    r ≠ .error (.invalidConfiguration "file appender" "missing 'file' path") := by
  intro r t
  have hoffends : ∀ {e}, config.Offends e → r = .error e ∧ t = s := fun h => by
    have hc := s.configure_of_offends registry h
    exact ⟨congrArg Prod.fst hc, congrArg Prod.snd hc⟩
  have hinvalid : ∀ component message, r = .error (.invalidConfiguration component message) ↔
      config.Offends (.invalidConfiguration component message) := by
    refine fun component message => ⟨fun hr => ?_, fun h => (hoffends h).1⟩
    cases hv : config.validate with
    | error e =>
      have he := validate_eq_error_iff.mp hv
      cases (hoffends he).1.symm.trans hr
      exact he
    | ok u =>
      rcases s.configure_cases registry hv with ⟨prepared, t', -, hc⟩ | ⟨e, t', hfailed, hc⟩
      · cases (congrArg Prod.fst hc).symm.trans hr
      · cases (congrArg Prod.fst hc).symm.trans hr
        exact absurd rfl (hfailed.ne_invalidConfiguration component message)
  refine ⟨fun e hr => ?_, fun e => validate_eq_error_iff, hinvalid, fun e => hoffends, fun hnone e d => ?_,
    fun hr => (hinvalid _ _ |>.mp hr).component_ne rfl⟩
  · cases hv : config.validate with
    | error e' =>
      rw [(hoffends (validate_eq_error_iff.mp hv)).2]
      exact .refl s
    | ok u =>
      rcases s.configure_cases registry hv with ⟨prepared, t', -, hc⟩ | ⟨e', t', hfailed, hc⟩
      · cases (congrArg Prod.fst hc).symm.trans hr
      · have ht : t = t' := congrArg Prod.snd hc
        rw [ht]
        exact hfailed.grows
  · have hv : config.validate = .ok () := by
      cases hv : config.validate with
      | ok u => rfl
      | error e' => exact absurd (validate_eq_error_iff.mp hv) (hnone e')
    rcases s.configure_cases registry hv with ⟨prepared, t', hprepared, hc⟩ | ⟨e', t', hfailed, hc⟩
    · have hr : r = .ok () := congrArg Prod.fst hc
      rw [hr]
      constructor
      · rintro ⟨⟨⟩, -⟩
      · exact fun h => absurd h hprepared.made.opens.not_firstFault
    · have hr : r = .error e' := congrArg Prod.fst hc
      have ht : t = t' := congrArg Prod.snd hc
      rw [hr, ht]
      constructor
      · rintro ⟨⟨⟩, rfl⟩
        exact hfailed.fault
      · intro h
        obtain ⟨rfl, rfl⟩ := hfailed.fault.unique h
        exact ⟨rfl, rfl⟩

/-- A logger without a name is what the configuration is refused for, and nothing has been made. -/
theorem configure_refused_nameless :
    let s := after [.newRegistry] {}
    let config : Config := { loggers := [{ name := " ", level := .info }] }
    (s.configure ⟨0⟩ config).1 = .error (.invalidConfiguration "logger" "name must not be empty") ∧
      (s.configure ⟨0⟩ config).2 = s := by
  intro s config
  obtain ⟨-, -, -, hoffends, -⟩ := s.configure_refused ⟨0⟩ config
  exact hoffends _ ⟨[], _, [], rfl, nofun, .name (by decide +kernel)⟩

end System

end Logline
