import Mathlib.Data.List.Basic
import Logline.Proofs.System.Pair
import Logline.Proofs.System.Refusal
import Logline.Proofs.System.Returning

/-!
# Neighbours

Two runs that treat loggers and one appender the same, and other appenders as they like: what these are,
where they write, how they are set and opened again and whether they fail. If none of them writes at the
site of that appender, it counts and writes the same in both runs, as long as no call is cut short before its
turn: nothing else that an appender does reaches another one through the loggers they share.
-/

namespace Logline

open Output

/-! ## Configurations that correspond -/

namespace Config

def Wanted.site? (w : Wanted) : Option Site :=
  match w.plan.kind with
  | .console => some (.outlet .stdout)
  | .file => w.plan.file.map .file

def Wanted.making? (w : Wanted) : Option System.Action :=
  match Formatter.ofPattern w.pattern, w.plan.kind, w.plan.file with
  | .ok f, .console, _ => some (.addAppender (.console {}) (w.plan.level.getD .debug) f)
  | .ok f, .file, some path => some (.addFileAppender path w.plan.mode (w.plan.level.getD .debug) f)
  | _, _, _ => none

/-- One appender for another, if it is not the one in question; that one is the same in both. -/
def Wanted.StandsFor (a : AppenderId) (st : Site) (d d' : Disk) (n : Nat) (w w' : Wanted) : Prop :=
  if a = ⟨n⟩ then w = w' ∧ w.site? = some st
  else (∀ site, w.site? = some site → site.Apart d st) ∧ ∀ site, w'.site? = some site → site.Apart d' st

def Wanted.AllStandFor (a : AppenderId) (st : Site) (d d' : Disk) : Nat → List Wanted → List Wanted → Prop
  | _, [], [] => True
  | n, w :: ws, w' :: ws' => w.StandsFor a st d d' n w' ∧ AllStandFor a st d d' (n + 1) ws ws'
  | _, _, _ => False

def LoggerPlan.AllStandFor (a : AppenderId) (st : Site) (d d' : Disk) : Nat → List LoggerPlan → List LoggerPlan → Prop
  | _, [], [] => True
  | n, l :: ls, l' :: ls' => l.name = l'.name ∧ l.level = l'.level ∧ Wanted.AllStandFor a st d d' n l.wanted l'.wanted ∧
      AllStandFor a st d d' (n + l.appenders.length) ls ls'
  | _, _, _ => False

end Config

namespace System

open Config

theorem id_of_addFileAppender {s t : System} {path : String} {mode : FileMode} {level : Level} {formatter : Formatter}
    {id : AppenderId} (h : s.addFileAppender path mode level formatter = (.ok id, t)) : id = ⟨s.appenders.size⟩ := by
  unfold addFileAppender at h
  split at h
  · cases h; rfl
  · cases h

theorem making_of_makeAppender {s t : System} {w : Wanted} {id : AppenderId}
    (h : s.makeAppender w.shared w.plan = (.ok id, t)) : ∃ k site, w.making? = some k ∧ w.site? = some site ∧
      k.Makes s site ∧ id = ⟨s.appenders.size⟩ ∧ t = k.perform s := by
  have hpattern : w.pattern = effectivePattern w.shared w.plan := rfl
  unfold makeAppender at h
  split at h
  · cases h
  · next f hf =>
    split at h
    · next hk =>
      cases h
      refine ⟨.addAppender (.console {}) (w.plan.level.getD .debug) f, .outlet .stdout, ?_, ?_, ⟨trivial, rfl⟩, rfl, rfl⟩
      · rw [Wanted.making?, hpattern, hf, hk]
      · rw [Wanted.site?, hk]
    · next path hk hpath =>
      refine ⟨.addFileAppender path w.plan.mode (w.plan.level.getD .debug) f, .file path, ?_, ?_, ⟨?_, rfl⟩,
        id_of_addFileAppender h, ?_⟩
      · rw [Wanted.making?, hpattern, hf, hk, hpath]
      · rw [Wanted.site?, hk, hpath]
        rfl
      · rw [h]
        rfl
      · rw [Action.perform, h]
    · cases h

theorem makeAppenders_cons {s t : System} {shared : Option String} {plan : AppenderPlan} {plans : List AppenderPlan}
    {ids : List AppenderId} (h : s.makeAppenders shared (plan :: plans) = (.ok ids, t)) : ∃ id u rest,
      s.makeAppender shared plan = (.ok id, u) ∧ u.makeAppenders shared plans = (.ok rest, t) ∧ ids = id :: rest := by
  unfold makeAppenders at h
  split at h
  · cases h
  · next id u hu =>
    split at h
    · next rest v hv =>
      cases h
      exact ⟨id, u, rest, hu, hv, rfl⟩
    · cases h

theorem prepare_cons {s t : System} {plan : LoggerPlan} {plans : List LoggerPlan}
    {prepared : List (LoggerPlan × List AppenderId)} (h : s.prepare (plan :: plans) = (.ok prepared, t)) : ∃ ids u rest,
      s.makeAppenders plan.pattern plan.appenders = (.ok ids, u) ∧ u.prepare plans = (.ok rest, t) ∧
        prepared = (plan, ids) :: rest := by
  unfold prepare at h
  split at h
  · cases h
  · next ids u hu =>
    split at h
    · next rest v hv =>
      cases h
      exact ⟨ids, u, rest, hu, hv, rfl⟩
    · cases h

section
variable {h₀ h₀' : Host} {a : AppenderId} {st : Site} (hansi : h₀.ansi = h₀'.ansi) (hst : st ≠ .outlet .stderr)
include hansi hst

theorem Pair.makeAppender {s t s' t' : System} (h : Pair h₀ h₀' a st s t)
    (hsize : t.appenders.size = s.appenders.size) (w w' : Wanted) {id id' : AppenderId}
    (hw : w.StandsFor a st h₀.disk h₀'.disk s.appenders.size w')
    (hs : s.makeAppender w.shared w.plan = (.ok id, s')) (ht : t.makeAppender w'.shared w'.plan = (.ok id', t')) :
    Pair h₀ h₀' a st s' t' ∧ id = id' ∧ s'.appenders.size = s.appenders.size + 1 ∧
      t'.appenders.size = s'.appenders.size := by
  obtain ⟨k, site, hk, hsite, hmakes, rfl, rfl⟩ := making_of_makeAppender hs
  obtain ⟨k', site', hk', hsite', hmakes', rfl, rfl⟩ := making_of_makeAppender ht
  refine ⟨?_, by rw [hsize], hmakes.size, by rw [hmakes.size, hmakes'.size, hsize]⟩
  unfold Wanted.StandsFor at hw
  split at hw
  · next ha =>
    obtain ⟨rfl, hown⟩ := hw
    obtain rfl : k = k' := Option.some.inj (hk.symm.trans hk')
    obtain rfl : site = st := Option.some.inj (hsite.symm.trans hown)
    exact h.own hansi hst ha (by rw [hsize]; exact ha) hmakes
  · next ha =>
    exact h.quiet (h.left.quiet_making hst ha hmakes (hw.1 site hsite))
      (h.right.quiet_making hst (by rw [hsize]; exact ha) hmakes' (hw.2 site' hsite'))

theorem Pair.makeAppenders {s t s' t' : System} (h : Pair h₀ h₀' a st s t)
    (hsize : t.appenders.size = s.appenders.size) {shared shared' : Option String} {plans plans' : List AppenderPlan}
    {ids ids' : List AppenderId}
    (hw : Wanted.AllStandFor a st h₀.disk h₀'.disk s.appenders.size (plans.map (⟨shared, ·⟩)) (plans'.map (⟨shared', ·⟩)))
    (hs : s.makeAppenders shared plans = (.ok ids, s')) (ht : t.makeAppenders shared' plans' = (.ok ids', t')) :
    Pair h₀ h₀' a st s' t' ∧ ids = ids' ∧ s'.appenders.size = s.appenders.size + plans.length ∧
      t'.appenders.size = s'.appenders.size := by
  induction plans generalizing plans' s t ids ids' with
  | nil =>
    cases plans' with
    | cons plan' plans' => exact hw.elim
    | nil =>
      cases hs
      cases ht
      exact ⟨h, rfl, rfl, hsize⟩
  | cons plan plans ih =>
    cases plans' with
    | nil => exact hw.elim
    | cons plan' plans' =>
      obtain ⟨hfor, hrest⟩ := hw
      obtain ⟨id, u, jds, hu, hs', rfl⟩ := makeAppenders_cons hs
      obtain ⟨id', v, jds', hv, ht', rfl⟩ := makeAppenders_cons ht
      obtain ⟨hfirst, rfl, hone, hsize'⟩ := h.makeAppender hansi hst hsize ⟨shared, plan⟩ ⟨shared', plan'⟩ hfor hu hv
      rw [← hone] at hrest
      obtain ⟨hpair, rfl, hall, hsize''⟩ := ih hfirst hsize' hrest hs' ht'
      exact ⟨hpair, rfl, by rw [hall, hone, List.length_cons]; omega, hsize''⟩

theorem Pair.prepare {s t s' t' : System} (h : Pair h₀ h₀' a st s t) (hsize : t.appenders.size = s.appenders.size)
    {plans plans' : List LoggerPlan} {prepared prepared' : List (LoggerPlan × List AppenderId)}
    (hw : LoggerPlan.AllStandFor a st h₀.disk h₀'.disk s.appenders.size plans plans')
    (hs : s.prepare plans = (.ok prepared, s')) (ht : t.prepare plans' = (.ok prepared', t')) :
    Pair h₀ h₀' a st s' t' ∧
      List.Forall₂ (fun p p' => p.1.name = p'.1.name ∧ p.1.level = p'.1.level ∧ p.2 = p'.2) prepared prepared' := by
  induction plans generalizing plans' s t prepared prepared' with
  | nil =>
    cases plans' with
    | cons plan' plans' => exact hw.elim
    | nil =>
      cases hs
      cases ht
      exact ⟨h, .nil⟩
  | cons plan plans ih =>
    cases plans' with
    | nil => exact hw.elim
    | cons plan' plans' =>
      obtain ⟨hname, hlevel, hfor, hrest⟩ := hw
      obtain ⟨ids, u, rest, hu, hs', rfl⟩ := prepare_cons hs
      obtain ⟨ids', v, rest', hv, ht', rfl⟩ := prepare_cons ht
      obtain ⟨hfirst, rfl, hmade, hsize'⟩ := h.makeAppenders hansi hst hsize hfor hu hv
      rw [← hmade] at hrest
      obtain ⟨hpair, hall⟩ := ih hfirst hsize' hrest hs' ht'
      exact ⟨hpair, .cons ⟨hname, hlevel, rfl⟩ hall⟩

end

theorem blind_install (i : RegistryId) (plan : LoggerPlan) (ids : List AppenderId) :
    Pair.Blind fun s => s.install i plan ids := by
  intro s host appenders
  simp only [install, get, registryAt?]
  cases s.registries[i.index]? with
  | none => rfl
  | some r =>
    simp only
    cases r.lookup plan.name <;> rfl

theorem configure_of_isOk {s : System} {i : RegistryId} {config : Config} (h : (s.configure i config).1.isOk) :
    ∃ prepared t, s.prepare config.loggers = (.ok prepared, t) ∧
      (s.configure i config).2 = prepared.foldl (fun s p => s.install i p.1 p.2) t := by
  unfold configure at h ⊢
  split at h
  · cases h
  · split at h
    · cases h
    · next prepared t hprepare => exact ⟨prepared, t, hprepare, rfl⟩

theorem Pair.configure {h₀ h₀' : Host} {a : AppenderId} {st : Site} {s t : System} (h : Pair h₀ h₀' a st s t)
    (hansi : h₀.ansi = h₀'.ansi) (hst : st ≠ .outlet .stderr) (hsize : t.appenders.size = s.appenders.size)
    {i : RegistryId} {config config' : Config}
    (hw : LoggerPlan.AllStandFor a st h₀.disk h₀'.disk s.appenders.size config.loggers config'.loggers)
    (hs : (s.configure i config).1.isOk) (ht : (t.configure i config').1.isOk) :
    Pair h₀ h₀' a st (s.configure i config).2 (t.configure i config').2 := by
  obtain ⟨prepared, u, hu, hs'⟩ := configure_of_isOk hs
  obtain ⟨prepared', v, hv, ht'⟩ := configure_of_isOk ht
  obtain ⟨hpair, hall⟩ := h.prepare hansi hst hsize hw hu hv
  rw [hs', ht']
  clear hu hv hs' ht'
  induction hall generalizing u v with
  | nil => exact hpair
  | @cons p p' _ _ hp _ ih =>
    obtain ⟨plan, ids⟩ := p
    obtain ⟨plan', ids'⟩ := p'
    obtain ⟨hname, hlevel, hids⟩ := hp
    refine ih _ _ ?_
    have hinstall : v.install i plan' ids' = v.install i plan ids := by
      simp only [install, show plan'.name = plan.name from hname.symm, show plan'.level = plan.level from hlevel.symm,
        show ids' = ids from hids.symm]
    show Pair _ _ _ _ (u.install i plan ids) (v.install i plan' ids')
    rw [hinstall]
    exact hpair.blind (blind_install i plan ids)

/-! ## Neighbours of one run -/

def NewApart (a : AppenderId) (st : Site) (d : Disk) (s t : System) : Prop :=
  ∀ b x, s.appenderAt? b = none → t.appenderAt? b = some x → b ≠ a ∧ x.sink.site.Apart d st

theorem NewApart.split {a : AppenderId} {st : Site} {d : Disk} {s t u : System} (h : NewApart a st d s u)
    (hs : s.Grows t) (ht : t.Grows u) : NewApart a st d s t ∧ NewApart a st d t u := by
  refine ⟨fun b x hb hx => h b x hb (ht.appenders b x hx), fun b x hb hx => h b x ?_ hx⟩
  cases hy : s.appenderAt? b with
  | none => rfl
  | some y => cases hb.symm.trans (hs.appenders b y hy)

section
variable (s : System) (shared : Option String)

theorem makeAppenders_cons_snd (plan : AppenderPlan) (plans : List AppenderPlan) :
    (s.makeAppenders shared (plan :: plans)).2 = match s.makeAppender shared plan with
      | (.ok _, t) => (t.makeAppenders shared plans).2
      | (.error _, t) => t := by
  rw [makeAppenders]
  obtain ⟨r, t⟩ := s.makeAppender shared plan
  cases r with
  | error e => rfl
  | ok id =>
    simp only
    split
    · next h => rw [h]
    · next h => rw [h]

theorem prepare_cons_snd (plan : LoggerPlan) (plans : List LoggerPlan) :
    (s.prepare (plan :: plans)).2 = match s.makeAppenders plan.pattern plan.appenders with
      | (.ok _, t) => (t.prepare plans).2
      | (.error _, t) => t := by
  rw [prepare]
  obtain ⟨r, t⟩ := s.makeAppenders plan.pattern plan.appenders
  cases r with
  | error e => rfl
  | ok ids =>
    simp only
    split
    · next h => rw [h]
    · next h => rw [h]

theorem grows_makeAppender (plan : AppenderPlan) : s.Grows (s.makeAppender shared plan).2 := by
  unfold makeAppender
  split
  · exact .refl s
  · split
    · exact s.grows_addAppender s.host.disk _ _ _
    · unfold addFileAppender
      split
      · exact s.grows_addAppender _ _ _ _
      · exact ⟨⟨rfl, rfl⟩, fun _ _ h => h, _, rfl⟩
    · exact .refl s

theorem grows_makeAppenders (plans : List AppenderPlan) : s.Grows (s.makeAppenders shared plans).2 :=
  makeAppenders_of_makeAppender (fun t shared plan h => h.trans (t.grows_makeAppender shared plan)) (.refl s) shared
    plans

theorem grows_prepare (plans : List LoggerPlan) : s.Grows (s.prepare plans).2 :=
  prepare_of_makeAppender (fun t shared plan h => h.trans (t.grows_makeAppender shared plan)) (.refl s) plans

end

namespace Kept

variable {h₀ : Host} {a : AppenderId} {st : Site} {s : System} (hst : st ≠ .outlet .stderr) (hs : s.Kept h₀ a st)
include hst hs

theorem quiet_new {k : Action} {site : Site} (hk : k.Makes s site) (hnew : NewApart a st h₀.disk s (k.perform s)) :
    Quiet h₀ a st s (k.perform s) := by
  obtain ⟨x, hx, rfl⟩ := hs.new_making hk
  obtain ⟨hne, hapart⟩ := hnew _ x (Array.getElem?_eq_none (Nat.le_refl _)) hx
  exact hs.quiet_making hst hne.symm hk hapart

theorem quiet_makeAppender {w : Wanted} (hw : w.plan.lacksFile = false)
    (hnew : NewApart a st h₀.disk s (s.makeAppender w.shared w.plan).2) :
    Quiet h₀ a st s (s.makeAppender w.shared w.plan).2 := by
  rcases s.makeAppender_cases hw with ⟨t, ht, -⟩ | ⟨e, ht, -⟩
  · obtain ⟨k, site, -, -, hk, -, rfl⟩ := making_of_makeAppender ht
    rw [ht] at hnew ⊢
    exact hs.quiet_new hst hk hnew
  · rw [ht]
    exact hs.refl

theorem quiet_makeAppenders (shared : Option String) {plans : List AppenderPlan}
    (hplans : ∀ plan ∈ plans, plan.lacksFile = false)
    (hnew : NewApart a st h₀.disk s (s.makeAppenders shared plans).2) :
    Quiet h₀ a st s (s.makeAppenders shared plans).2 := by
  induction plans generalizing s with
  | nil => exact hs.refl
  | cons plan plans ih =>
    obtain ⟨hplan, hplans⟩ := List.forall_mem_cons.mp hplans
    have hquiet := hs.quiet_makeAppender hst (w := ⟨shared, plan⟩) hplan
    rw [makeAppenders_cons_snd] at hnew ⊢
    rcases s.makeAppender_cases (w := ⟨shared, plan⟩) hplan with ⟨t, ht, hmade⟩ | ⟨e, ht, -⟩
    · simp only [ht] at hnew hquiet ⊢
      -- appenders stay, so that what is new half-way is new at the end
      obtain ⟨hfirst, hlater⟩ := hnew.split hmade.grows (t.grows_makeAppenders shared plans)
      exact (hquiet hfirst).trans (ih (hquiet hfirst).kept hplans hlater)
    · simp only [ht]
      exact hs.refl

theorem quiet_prepare {plans : List LoggerPlan} (hplans : ∀ plan ∈ plans, ∀ x ∈ plan.appenders, x.lacksFile = false)
    (hnew : NewApart a st h₀.disk s (s.prepare plans).2) : Quiet h₀ a st s (s.prepare plans).2 := by
  induction plans generalizing s with
  | nil => exact hs.refl
  | cons plan plans ih =>
    obtain ⟨hplan, hplans⟩ := List.forall_mem_cons.mp hplans
    have hquiet := hs.quiet_makeAppenders hst plan.pattern hplan
    rw [prepare_cons_snd] at hnew ⊢
    rcases s.makeAppenders_cases plan.pattern hplan with ⟨ids, t, ht, hmade⟩ | ⟨e, t, ht, -⟩
    · simp only [ht] at hnew hquiet ⊢
      obtain ⟨hfirst, hlater⟩ := hnew.split hmade.grows (t.grows_prepare plans)
      exact (hquiet hfirst).trans (ih (hquiet hfirst).kept hplans hlater)
    · simp only [ht] at hnew hquiet ⊢
      exact hquiet hnew

theorem quiet_configure {i : RegistryId} {config : Config} (hrefused : (s.configure i config).1.isOk = false)
    (hnew : NewApart a st h₀.disk s (s.configure i config).2) : Quiet h₀ a st s (s.configure i config).2 := by
  cases hv : config.validate with
  | error e =>
    simp only [configure, hv]
    exact hs.refl
  | ok u =>
    have hquiet := hs.quiet_prepare hst fun plan hplan x hx => (valid_of_validate hv plan hplan).lacksFile hx
    cases hp : s.prepare config.loggers with
    | mk r t =>
      simp only [configure, hv, hp] at hrefused hnew hquiet ⊢
      cases r with
      | ok prepared => cases hrefused
      | error e => exact hquiet hnew

end Kept

/-! ## Runs side by side -/

def Action.Common (a : AppenderId) (st : Site) (s t : System) : Action → Prop
  | outside _ | addAppender .. | addFileAppender .. | configure .. => False
  | newRegistry => t.appenders.size = s.appenders.size ∧ a ≠ ⟨s.appenders.size⟩ ∧ st ≠ .outlet .stdout
  | _ => True

def Action.ComesTo (a : AppenderId) (s : System) : Action → Prop
  | call (.log l level e) => s.ComesTo a l level e
  | logWith l level e => ∀ x, s.loggerAt? l = some x → s.ComesTo a l level ((e ()).withLoggerName x.name)
  | _ => True

theorem Action.comesTo_of_returns (a : AppenderId) (s : System) {k : Action} (h : k.Returns s) : k.ComesTo a s := by
  cases k with
  | call c =>
    cases c with
    | log l level e => exact System.comesTo_of_returns h a
    | _ => trivial
  | logWith l level e =>
    intro x hl
    obtain ⟨made, hmade⟩ := h
    cases hlevel : x.enabled level with
    | false =>
      intro y before after hy henabled
      cases hl.symm.trans hy
      cases hlevel.symm.trans henabled
    | true =>
      apply System.comesTo_of_returns
      simp only [System.logWith, hl, hlevel, if_true] at hmade
      cases hlog : (s.log l level ((e ()).withLoggerName x.name)).1 with
      | ok u => rfl
      | error fault =>
        rw [hlog] at hmade
        cases hmade
  | _ => trivial

/-- Done with other appenders, which write elsewhere, or to the host but for the disk and the site, or refused. -/
def Action.Elsewhere (a : AppenderId) (st : Site) (d : Disk) (s : System) : Action → Prop
  | outside change => ∀ h, (change h).disk = h.disk ∧ (change h).ansi = h.ansi ∧ st.view (change h) = st.view h
  | addAppender sink level formatter => sink.Blank ∧ NewApart a st d s (s.addAppender sink level formatter).2
  | addFileAppender path mode level formatter => NewApart a st d s (s.addFileAppender path mode level formatter).2
  | configure i config => (s.configure i config).1.isOk = false ∧ NewApart a st d s (s.configure i config).2
  | k => ∃ b, k.appender? = some b ∧ b ≠ a

section
variable {h₀ h₀' : Host} {a : AppenderId} {st : Site} {s t : System} (hst : st ≠ .outlet .stderr)
include hst

theorem Kept.quiet_elsewhere (hs : s.Kept h₀ a st) {k : Action} (hk : k.Elsewhere a st h₀.disk s) :
    Quiet h₀ a st s (k.perform s) := by
  unfold Action.Elsewhere at hk
  split at hk
  · next change =>
    obtain ⟨hdisk, hansi, hview⟩ := hk s.host
    refine ⟨⟨hs.sound, ⟨?_, hansi.trans hs.later.ansi⟩, fun b x hb => ?_, hs.site⟩, ⟨rfl, rfl⟩, hview, rfl⟩
    · rw [Action.perform, hdisk]
      exact hs.later.disk
    · rw [Action.perform, hdisk]
      exact hs.anchored b x hb
  · next sink level formatter =>
    have hmakes : (Action.addAppender sink level formatter).Makes s sink.site := ⟨hk.1, rfl⟩
    exact hs.quiet_new hst hmakes hk.2
  · next path mode level formatter =>
    cases hok : (s.addFileAppender path mode level formatter).1.isOk with
    | true =>
      have hmakes : (Action.addFileAppender path mode level formatter).Makes s (.file path) := ⟨hok, rfl⟩
      exact hs.quiet_new hst hmakes hk
    | false =>
      simp only [Action.perform, addFileAppender_eq, hok]
      exact hs.refl
  · exact hs.quiet_configure hst hk.1 hk.2
  · obtain ⟨b, hb, hne⟩ := hk
    obtain ⟨g, hg, hperform⟩ := Action.perform_eq_touch hb
    rw [hperform]
    exact hs.quiet_touch hg hst hne

theorem Pair.common (h : Pair h₀ h₀' a st s t) (hansi : h₀.ansi = h₀'.ansi) (hsound : s.Sound) {k : Action}
    (hk : k.Common a st s t) (hs : k.ComesTo a s) (ht : k.ComesTo a t) :
    Pair h₀ h₀' a st (k.perform s) (k.perform t) := by
  cases hb : k.appender? with
  | some b =>
    obtain ⟨g, hg, hperform⟩ := Action.perform_eq_touch hb
    rw [hperform, hperform]
    exact h.touch hansi hst hg b
  | none =>
    cases k with
    | outside | addAppender | addFileAppender | configure => exact hk.elim
    | deliver | setPattern | setFormatter | reopen | flushAppender => cases hb
    | addLogger | buildLogger => exact h.blind fun _ _ _ => rfl
    | call c =>
      cases c with
      | log l level e => exact h.log hansi hst (hsound.nodup l) hs ht
      | setThreshold => cases hb
      | _ => exact h.blind fun _ _ _ => rfl
    | logWith l level e => exact h.logWith hansi hst (hsound.nodup l) hs ht
    | flush l => exact h.quiet (h.left.quiet_flush l) (h.right.quiet_flush l)
    | newRegistry => exact h.newRegistry hst hk.1 hk.2.1 hk.2.2
    | addRegistry root =>
      simp only [Action.perform, h.loggers.loggerAt?]
      split
      · exact h.blind (f := fun s => (s.addRegistry { root }).2) fun _ _ _ => rfl
      · exact h
    | get i name => exact h.blind (Pair.blind_get i name)

end

/-- Two runs with the same steps on loggers and on one appender, at a site where no other appender writes.
What other appenders there are, and what is done with them, may differ. The runs are put together step by
step, so that what holds of them holds after each of their steps. -/
inductive Beside (a : AppenderId) (st : Site) (host host' : Host) : List Action → List Action → Prop
  | nil : Beside a st host host' [] []
  | both {p q : List Action} (h : Beside a st host host' p q) (k : Action)
    (hk : k.Common a st (after p host) (after q host')) : Beside a st host host' (p ++ [k]) (q ++ [k])
  | left {p q : List Action} (h : Beside a st host host' p q) (k : Action)
    (hk : k.Elsewhere a st host.disk (after p host)) : Beside a st host host' (p ++ [k]) q
  | right {p q : List Action} (h : Beside a st host host' p q) (k : Action)
    (hk : k.Elsewhere a st host'.disk (after q host')) : Beside a st host host' p (q ++ [k])
  | own {p q : List Action} (h : Beside a st host host' p q) (k : Action) (ha : a = ⟨(after p host).appenders.size⟩)
    (ha' : a = ⟨(after q host').appenders.size⟩) (hk : k.Makes (after p host) st) :
    Beside a st host host' (p ++ [k]) (q ++ [k])
  | configured {p q : List Action} (h : Beside a st host host' p q) (i : RegistryId) (config config' : Config)
    (hsize : (after q host').appenders.size = (after p host).appenders.size)
    (hfor : LoggerPlan.AllStandFor a st host.disk host'.disk (after p host).appenders.size config.loggers config'.loggers)
    (hok : ((after p host).configure i config).1.isOk) (hok' : ((after q host').configure i config').1.isOk) :
    Beside a st host host' (p ++ [.configure i config]) (q ++ [.configure i config'])

theorem after_concat (p : List Action) (k : Action) (host : Host) : after (p ++ [k]) host = k.perform (after p host) :=
  List.foldl_concat _ _ _ _

theorem Beside.pair {a : AppenderId} {st : Site} {host host' : Host} {p q : List Action} (hsound : host.disk.Sound)
    (hsound' : host'.disk.Sound) (hansi : host.ansi = host'.ansi) (hst : st ≠ .outlet .stderr)
    (hview : st.view host = st.view host') (h : Beside a st host host' p q)
    (hp : Throughout (fun s k => k.ComesTo a s) { host } p)
    (hq : Throughout (fun s k => k.ComesTo a s) { host := host' } q) :
    Pair host host' a st (after p host) (after q host') := by
  induction h with
  | nil =>
    have hkept : ∀ k : Host, k.disk.Sound → Kept k a st { host := k } := by
      intro k hk
      refine ⟨hk, .refl k, fun b x hb => ?_, fun b x hb => ?_⟩
      · simp [appenderAt?] at hb
      · simp [appenderAt?] at hb
    exact ⟨hkept host hsound, hkept host' hsound', ⟨rfl, rfl⟩, hview, .none⟩
  | @both p q h k hk ih =>
    obtain ⟨hp, hcomes, -⟩ := throughout_append.mp hp
    obtain ⟨hq, hcomes', -⟩ := throughout_append.mp hq
    rw [after_concat, after_concat]
    exact (ih hp hq).common hst hansi (sound_after p host) hk hcomes hcomes'
  | left h k hk ih =>
    have hpair := ih (throughout_append.mp hp).1 hq
    rw [after_concat]
    exact hpair.quiet (hpair.left.quiet_elsewhere hst hk) hpair.right.refl
  | right h k hk ih =>
    have hpair := ih hp (throughout_append.mp hq).1
    rw [after_concat]
    exact hpair.quiet hpair.left.refl (hpair.right.quiet_elsewhere hst hk)
  | own h k ha ha' hk ih =>
    rw [after_concat, after_concat]
    exact (ih (throughout_append.mp hp).1 (throughout_append.mp hq).1).own hansi hst ha ha' hk
  | configured h i config config' hsize hfor hok hok' ih =>
    rw [after_concat, after_concat]
    exact (ih (throughout_append.mp hp).1 (throughout_append.mp hq).1).configure hansi hst hsize hfor hok hok'

-- A neighbour on a full error stream, ahead of the appender, cuts the call short.
example :
    let e : Event := { fileName := "f", line := 1, elapsed := 0, threadId := 1, fiberId := 0, time := 0, content := "x" }
    let f : Formatter := ⟨"%m", [.message]⟩
    let p : List Action := [.addAppender (.console { outlet := .stderr }) .debug f,
      .addAppender (.console { outlet := .memory 0 }) .debug f, .buildLogger "l" .debug [⟨0⟩, ⟨1⟩]]
    let s := after p { memories := #[{}], stderr := { limit := some 0 } }
    (s.log ⟨0⟩ .info e).1.isOk = false ∧
      ((s.log ⟨0⟩ .info e).2.appenderAt? ⟨1⟩).map Appender.metrics = some {} := by
  decide +kernel

end System

end Logline
