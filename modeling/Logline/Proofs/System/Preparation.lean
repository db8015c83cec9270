import Mathlib.Data.List.Forall2
import Logline.Proofs.Output.Naming
import Logline.Proofs.System.History

/-!
# Making what a configuration asks for

The appenders of a configuration are made one after the other, in the order of the document, up to the first
that cannot be made. Appenders are added and files opened on the way; nothing else changes.
-/

namespace Logline

open Output

theorem Formatter.exists_of_ofPattern_eq_error {pattern : String} {e : Error}
    (h : Formatter.ofPattern pattern = .error e) : ∃ position message, e = .patternSyntax pattern position message := by
  unfold ofPattern Pattern.compile at h
  cases hc : Pattern.compileChars pattern.toList with
  | ok is => rw [hc] at h; cases h
  | error u => rw [hc] at h; cases h; exact ⟨_, _, rfl⟩

theorem Sink.File.opened_eq (path : String) (mode : FileMode) (d : Disk) : Sink.File.opened path mode d =
    match d.openFile path (mode == .truncate) with
    | (.ok handle, d') => (.ok { path, mode, writer := some ⟨handle, .empty⟩ }, d')
    | (.error e, d') => (.error (.fileAppender path e.message), d') := by
  have hclose : ({ path, mode } : Sink.File).close d = ({ path, mode }, d) := rfl
  rw [opened, reopen, hclose]
  cases ho : d.openFile path (mode == .truncate) with
  | mk r d' => cases r <;> simp only [ho]

/-! ## One appender -/

namespace Config

/-- An appender that is asked for, with the pattern that its logger has for those without one. -/
structure Wanted where
  shared : Option String
  plan : AppenderPlan

def LoggerPlan.wanted (l : LoggerPlan) : List Wanted :=
  l.appenders.map (⟨l.pattern, ·⟩)

def wanted (c : Config) : List Wanted :=
  c.loggers.flatMap LoggerPlan.wanted

namespace Wanted

def pattern (w : Wanted) : String :=
  System.effectivePattern w.shared w.plan

inductive Opens (w : Wanted) (d : Disk) : Disk → Prop
  | console {f : Formatter} (hp : Formatter.ofPattern w.pattern = .ok f) (hk : w.plan.kind = .console) : Opens w d d
  | file {f : Formatter} {path : String} {handle : Handle} {d' : Disk} (hp : Formatter.ofPattern w.pattern = .ok f)
    (hk : w.plan.kind = .file) (hf : w.plan.file = some path)
    (ho : d.openFile path (w.plan.mode == .truncate) = (.ok handle, d')) : Opens w d d'

inductive Faulty (w : Wanted) (d : Disk) : Error → Prop
  | pattern {position : Nat} {message : String}
    (hp : Formatter.ofPattern w.pattern = .error (.patternSyntax w.pattern position message)) :
    Faulty w d (.patternSyntax w.pattern position message)
  | file {f : Formatter} {path : String} {fault : Fault} {d' : Disk} (hp : Formatter.ofPattern w.pattern = .ok f)
    (hk : w.plan.kind = .file) (hf : w.plan.file = some path)
    (ho : d.openFile path (w.plan.mode == .truncate) = (.error fault, d')) :
    Faulty w d (.fileAppender path fault.message)

structure Describes (w : Wanted) (a : Appender) : Prop where
  sink : match w.plan.kind with
    | .console => a.sink = .console {}
    | .file => ∃ f, a.sink = .file f ∧ w.plan.file = some f.path ∧ f.mode = w.plan.mode ∧ f.isOpen = true
  level : a.level = w.plan.level.getD .debug
  formatter : Formatter.ofPattern w.pattern = .ok a.formatter
  metrics : a.metrics = {}

variable {w : Wanted} {d d' d'' : Disk} {e e' : Error}

theorem Opens.unique (h : w.Opens d d') (h' : w.Opens d d'') : d' = d'' := by
  cases h with
  | console hp hk =>
    cases h' with
    | console => rfl
    | file hp' hk' => rw [hk] at hk'; cases hk'
  | file hp hk hf ho =>
    cases h' with
    | console hp' hk' => rw [hk] at hk'; cases hk'
    | file hp' hk' hf' ho' =>
      rw [hf] at hf'; cases hf'
      rw [ho] at ho'; cases ho'
      rfl

theorem Opens.not_faulty (h : w.Opens d d') : ¬ w.Faulty d e := by
  intro h'
  cases h with
  | console hp hk =>
    cases h' with
    | pattern hp' => rw [hp] at hp'; cases hp'
    | file hp' hk' => rw [hk] at hk'; cases hk'
  | file hp hk hf ho =>
    cases h' with
    | pattern hp' => rw [hp] at hp'; cases hp'
    | file hp' hk' hf' ho' =>
      rw [hf] at hf'; cases hf'
      rw [ho] at ho'; cases ho'

theorem Faulty.unique (h : w.Faulty d e) (h' : w.Faulty d e') : e = e' := by
  cases h with
  | pattern hp =>
    cases h' with
    | pattern hp' => rw [hp] at hp'; exact Except.error.inj hp'
    | file hp' => rw [hp] at hp'; cases hp'
  | file hp hk hf ho =>
    cases h' with
    | pattern hp' => rw [hp] at hp'; cases hp'
    | file hp' hk' hf' ho' =>
      rw [hf] at hf'; cases hf'
      rw [ho] at ho'; cases ho'
      rfl

inductive OpensAll : List Wanted → Disk → Disk → Prop
  | nil (d : Disk) : OpensAll [] d d
  | cons {w : Wanted} {ws : List Wanted} {d d' d'' : Disk} (h : w.Opens d d') (hs : OpensAll ws d' d'') :
    OpensAll (w :: ws) d d''

/-- The first that cannot be made, and the disk when its turn comes. -/
def FirstFault (ws : List Wanted) (d d' : Disk) (e : Error) : Prop :=
  ∃ before w after, ws = before ++ w :: after ∧ OpensAll before d d' ∧ w.Faulty d' e

variable {ws vs : List Wanted}

theorem OpensAll.append (h : OpensAll ws d d') (h' : OpensAll vs d' d'') : OpensAll (ws ++ vs) d d'' := by
  induction h with
  | nil d => exact h'
  | cons h _ ih => exact .cons h (ih h')

theorem FirstFault.append (h : FirstFault ws d d' e) (vs : List Wanted) : FirstFault (ws ++ vs) d d' e := by
  obtain ⟨before, w, after, rfl, hs, hw⟩ := h
  exact ⟨before, w, after ++ vs, by simp, hs, hw⟩

theorem OpensAll.firstFault (h : OpensAll ws d d') (h' : FirstFault vs d' d'' e) : FirstFault (ws ++ vs) d d'' e := by
  obtain ⟨before, w, after, rfl, hs, hw⟩ := h'
  exact ⟨ws ++ before, w, after, by simp, h.append hs, hw⟩

theorem firstFault_cons : FirstFault (w :: ws) d d' e ↔
    d' = d ∧ w.Faulty d e ∨ ∃ d'', w.Opens d d'' ∧ FirstFault ws d'' d' e := by
  constructor
  · rintro ⟨before, v, after, heq, hs, hv⟩
    cases hs with
    | nil => cases heq; exact .inl ⟨rfl, hv⟩
    | cons h hs => cases heq; exact .inr ⟨_, h, _, v, after, rfl, hs, hv⟩
  · rintro (⟨rfl, hw⟩ | ⟨d'', h, hs⟩)
    · exact ⟨[], w, ws, rfl, .nil d', hw⟩
    · exact (OpensAll.cons h (.nil d'')).firstFault hs

theorem not_firstFault_nil : ¬ FirstFault [] d d' e := by
  rintro ⟨before, w, after, heq, -⟩
  simp at heq

theorem FirstFault.unique (h : FirstFault ws d d' e) (h' : FirstFault ws d d'' e') : d' = d'' ∧ e = e' := by
  induction ws generalizing d with
  | nil => exact absurd h not_firstFault_nil
  | cons w ws ih =>
    rcases firstFault_cons.mp h with ⟨rfl, hw⟩ | ⟨c, hc, h⟩
    · rcases firstFault_cons.mp h' with ⟨rfl, hw'⟩ | ⟨c', hc', -⟩
      · exact ⟨rfl, hw.unique hw'⟩
      · exact absurd hw hc'.not_faulty
    · rcases firstFault_cons.mp h' with ⟨rfl, hw'⟩ | ⟨c', hc', h'⟩
      · exact absurd hw' hc.not_faulty
      · cases hc.unique hc'
        exact ih h h'

theorem OpensAll.not_firstFault (h : OpensAll ws d d') : ¬ FirstFault ws d d'' e := by
  induction h with
  | nil d => exact not_firstFault_nil
  | cons h _ ih =>
    intro hf
    rcases firstFault_cons.mp hf with ⟨rfl, hw⟩ | ⟨c, hc, hf⟩
    · exact h.not_faulty hw
    · cases h.unique hc
      exact ih hf

end Wanted

end Config

namespace System

open Config

/-- Appenders may have been added and the disk may have changed; everything else is as it was. -/
structure Grows (s t : System) : Prop where
  same : s.SameLoggers t
  appenders : ∀ id a, s.appenderAt? id = some a → t.appenderAt? id = some a
  host : ∃ disk, t.host = { s.host with disk }

variable {s t u : System}

theorem Grows.refl (s : System) : s.Grows s :=
  ⟨.refl s, fun _ _ h => h, s.host.disk, rfl⟩

theorem Grows.trans (h : s.Grows t) (h' : t.Grows u) : s.Grows u := by
  obtain ⟨disk, hdisk⟩ := h.host
  obtain ⟨disk', hdisk'⟩ := h'.host
  exact ⟨h.same.trans h'.same, fun id a ha => h'.appenders id a (h.appenders id a ha), disk', by rw [hdisk', hdisk]⟩

theorem grows_addAppender (s : System) (disk : Disk) (sink : Sink) (level : Level) (formatter : Formatter) :
    s.Grows ({ s with host := { s.host with disk } }.addAppender sink level formatter).2 where
  same := ⟨rfl, rfl⟩
  appenders _ _ ha := (appenderAt?_addAppender ..).trans ((if_neg (ne_of_appenderAt? ha)).trans ha)
  host := ⟨disk, rfl⟩

def Stands (s : System) (w : Wanted) (id : AppenderId) : Prop :=
  ∃ a, s.appenderAt? id = some a ∧ a.id = id ∧ w.Describes a

theorem Stands.mono {w : Wanted} {id : AppenderId} (h : s.Stands w id) (hg : s.Grows t) : t.Stands w id := by
  obtain ⟨a, ha, hid, hw⟩ := h
  exact ⟨a, hg.appenders id a ha, hid, hw⟩

/-- All that was asked for has been made, under the next numbers. -/
structure Made (s t : System) (ws : List Wanted) (ids : List AppenderId) : Prop where
  grows : s.Grows t
  opens : Wanted.OpensAll ws s.host.disk t.host.disk
  size : t.appenders.size = s.appenders.size + ws.length
  numbers : ids = (List.range' s.appenders.size ws.length).map AppenderId.mk
  stand : List.Forall₂ t.Stands ws ids

structure Failed (s t : System) (ws : List Wanted) (e : Error) : Prop where
  grows : s.Grows t
  fault : Wanted.FirstFault ws s.host.disk t.host.disk e

variable {ws vs : List Wanted} {ids jds : List AppenderId} {e : Error}

theorem Made.nil (s : System) : s.Made s [] [] :=
  ⟨.refl s, .nil _, rfl, rfl, .nil⟩

theorem Made.append (h : s.Made t ws ids) (h' : t.Made u vs jds) : s.Made u (ws ++ vs) (ids ++ jds) where
  grows := h.grows.trans h'.grows
  opens := h.opens.append h'.opens
  size := by rw [h'.size, h.size, List.length_append, Nat.add_assoc]
  numbers := by
    rw [h.numbers, h'.numbers, h.size, ← List.map_append, List.length_append, List.range'_append_1]
  stand := List.rel_append (h.stand.imp fun _ _ hs => hs.mono h'.grows) h'.stand

theorem Failed.append (h : s.Failed t ws e) (vs : List Wanted) : s.Failed t (ws ++ vs) e :=
  ⟨h.grows, h.fault.append vs⟩

theorem Made.failed (h : s.Made t ws ids) (h' : t.Failed u vs e) : s.Failed u (ws ++ vs) e :=
  ⟨h.grows.trans h'.grows, h.opens.firstFault h'.fault⟩

theorem Made.addAppender {w : Wanted} {disk : Disk} (hopens : w.Opens s.host.disk disk) {sink : Sink}
    {formatter : Formatter} (hw : w.Describes ⟨⟨s.appenders.size⟩, w.plan.level.getD .debug, formatter, sink, {}⟩) :
    s.Made ({ s with host := { s.host with disk } }.addAppender sink (w.plan.level.getD .debug) formatter).2 [w]
      [⟨s.appenders.size⟩] where
  grows := s.grows_addAppender disk sink _ formatter
  opens := .cons hopens (.nil _)
  size := Array.size_push ..
  numbers := rfl
  stand := .cons ⟨_, (appenderAt?_addAppender ..).trans (if_pos rfl), rfl, hw⟩ .nil

/-! ## Making them -/

theorem makeAppender_cases (s : System) {w : Wanted} (hw : w.plan.lacksFile = false) :
    (∃ t, s.makeAppender w.shared w.plan = (.ok ⟨s.appenders.size⟩, t) ∧ s.Made t [w] [⟨s.appenders.size⟩]) ∨
      ∃ e, s.makeAppender w.shared w.plan = (.error e, s) ∧ s.Failed s [w] e := by
  have hfailed : ∀ {e}, w.Faulty s.host.disk e → s.Failed s [w] e := fun h =>
    ⟨.refl s, [], w, [], rfl, .nil _, h⟩
  cases hp : Formatter.ofPattern w.pattern with
  | error e =>
    obtain ⟨position, message, rfl⟩ := Formatter.exists_of_ofPattern_eq_error hp
    have hp' : Formatter.ofPattern (effectivePattern w.shared w.plan) = _ := hp
    exact .inr ⟨_, by rw [makeAppender, hp'], hfailed (.pattern hp)⟩
  | ok formatter =>
    have hp' : Formatter.ofPattern (effectivePattern w.shared w.plan) = _ := hp
    cases hk : w.plan.kind with
    | console =>
      have hdescribes : w.Describes ⟨⟨s.appenders.size⟩, w.plan.level.getD .debug, formatter, .console {}, {}⟩ :=
        ⟨by rw [hk], rfl, hp, rfl⟩
      refine .inl ⟨_, ?_, Made.addAppender (.console hp hk) hdescribes⟩
      simp only [makeAppender, hp', hk]
      rfl
    | file =>
      cases hf : w.plan.file with
      | none => simp [AppenderPlan.lacksFile, hk, hf] at hw
      | some path =>
        cases ho : s.host.disk.openFile path (w.plan.mode == .truncate) with
        | mk r disk =>
          cases r with
          | error fault =>
            cases Disk.openFile_error ho
            refine .inr ⟨.fileAppender path fault.message, ?_, hfailed (.file hp hk hf ho)⟩
            simp only [makeAppender, hp', hk, hf, addFileAppender, Sink.File.opened_eq, ho]
          | ok handle =>
            have hdescribes : w.Describes ⟨⟨s.appenders.size⟩, w.plan.level.getD .debug, formatter,
                .file { path, mode := w.plan.mode, writer := some ⟨handle, .empty⟩ }, {}⟩ :=
              ⟨by rw [hk]; exact ⟨_, rfl, hf, rfl, rfl⟩, rfl, hp, rfl⟩
            refine .inl ⟨_, ?_, Made.addAppender (.file hp hk hf ho) hdescribes⟩
            simp only [makeAppender, hp', hk, hf, addFileAppender, Sink.File.opened_eq, ho]
            rfl

theorem makeAppenders_cases (s : System) (shared : Option String) {plans : List AppenderPlan}
    (hplans : ∀ plan ∈ plans, plan.lacksFile = false) :
    (∃ ids t, s.makeAppenders shared plans = (.ok ids, t) ∧ s.Made t (plans.map (⟨shared, ·⟩)) ids) ∨
      ∃ e t, s.makeAppenders shared plans = (.error e, t) ∧ s.Failed t (plans.map (⟨shared, ·⟩)) e := by
  induction plans generalizing s with
  | nil => exact .inl ⟨[], s, rfl, .nil s⟩
  | cons plan plans ih =>
    obtain ⟨hplan, hplans⟩ := List.forall_mem_cons.mp hplans
    rw [makeAppenders, List.map_cons]
    rcases s.makeAppender_cases (w := ⟨shared, plan⟩) hplan with ⟨t, hmake, hmade⟩ | ⟨e, hmake, hfailed⟩
    · rcases ih t hplans with ⟨ids, u, hrest, hmade'⟩ | ⟨e, u, hrest, hfailed⟩
      · exact .inl ⟨⟨s.appenders.size⟩ :: ids, u, by simp only [hmake, hrest], hmade.append hmade'⟩
      · exact .inr ⟨e, u, by simp only [hmake, hrest], hmade.failed hfailed⟩
    · exact .inr ⟨e, s, by simp only [hmake], hfailed.append _⟩

structure Prepared (s t : System) (plans : List LoggerPlan) (prepared : List (LoggerPlan × List AppenderId)) :
    Prop where
  made : s.Made t (plans.flatMap LoggerPlan.wanted) (prepared.flatMap Prod.snd)
  plans : prepared.map Prod.fst = plans
  stand : ∀ p ∈ prepared, List.Forall₂ t.Stands p.1.wanted p.2

theorem prepare_cases (s : System) {plans : List LoggerPlan}
    (hplans : ∀ plan ∈ plans, ∀ a ∈ plan.appenders, a.lacksFile = false) :
    (∃ prepared t, s.prepare plans = (.ok prepared, t) ∧ s.Prepared t plans prepared) ∨
      ∃ e t, s.prepare plans = (.error e, t) ∧ s.Failed t (plans.flatMap LoggerPlan.wanted) e := by
  induction plans generalizing s with
  | nil => exact .inl ⟨[], s, rfl, .nil s, rfl, nofun⟩
  | cons plan plans ih =>
    obtain ⟨hplan, hplans⟩ := List.forall_mem_cons.mp hplans
    rw [prepare, List.flatMap_cons]
    rcases s.makeAppenders_cases plan.pattern hplan with ⟨ids, t, hmake, hmade⟩ | ⟨e, t, hmake, hfailed⟩
    · rcases ih t hplans with ⟨prepared, u, hrest, hprepared⟩ | ⟨e, u, hrest, hfailed⟩
      · refine .inl ⟨(plan, ids) :: prepared, u, by simp only [hmake, hrest], ?_, by simp [hprepared.plans], ?_⟩
        · exact hmade.append hprepared.made
        · have hstand := hmade.stand.imp fun _ _ hs => Stands.mono hs hprepared.made.grows
          exact List.forall_mem_cons.mpr ⟨hstand, hprepared.stand⟩
      · exact .inr ⟨e, u, by simp only [hmake, hrest], hmade.failed hfailed⟩
    · exact .inr ⟨e, t, by simp only [hmake], hfailed.append _⟩

end System

end Logline
