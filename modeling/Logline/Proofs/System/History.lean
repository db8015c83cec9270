import Logline.Proofs.System.Frame
import Logline.System.Configure

/-!
# Histories

All that can be done to a logging system, in any order, while others do as they please to the host. After
any history a logger has each of its appenders once, and a registry knows different loggers by different
names, the root apart.
-/

namespace Logline.System

open Output

inductive Call
  | log (logger : LoggerId) (level : Level) (e : Event)
  | setLevel (logger : LoggerId) (level : Level)
  | setThreshold (appender : AppenderId) (level : Level)
  | add (logger : LoggerId) (appender : AppenderId)
  | remove (logger : LoggerId) (appender : AppenderId)
  | clear (logger : LoggerId)
  | set (logger : LoggerId) (appenders : List AppenderId)

def Call.apply : Call → System → System
  | log l level e, s => (s.log l level e).2
  | setLevel l level, s => s.modifyLogger l (·.setLevel level)
  | setThreshold a level, s => s.modifyAppender a (·.setLevel level)
  | add l a, s => s.modifyLogger l (·.add a)
  | remove l a, s => s.modifyLogger l (·.remove a)
  | clear l, s => s.modifyLogger l Logger.clear
  | set l as, s => s.modifyLogger l (·.set as)

def calls (cs : List Call) (s : System) : System :=
  cs.foldl (fun s c => c.apply s) s

inductive Action
  | outside (change : Host → Host)
  | addAppender (sink : Sink) (level : Level) (formatter : Formatter)
  | addFileAppender (path : String) (mode : FileMode) (level : Level) (formatter : Formatter)
  | deliver (appender : AppenderId) (loggerName : String) (level : Level) (e : Event)
  | setPattern (appender : AppenderId) (pattern : String)
  | setFormatter (appender : AppenderId) (formatter : Formatter)
  | reopen (appender : AppenderId)
  | flushAppender (appender : AppenderId)
  | addLogger (name : String) (level : Level)
  | buildLogger (name : String) (level : Level) (appenders : List AppenderId)
  | call (c : Call)
  | logWith (logger : LoggerId) (level : Level) (e : Unit → Event)
  | flush (logger : LoggerId)
  | newRegistry
  | addRegistry (root : LoggerId)
  | get (registry : RegistryId) (name : String)
  | configure (registry : RegistryId) (config : Config)

def Action.perform : Action → System → System
  | outside change, s => { s with host := change s.host }
  | addAppender sink level formatter, s => (s.addAppender sink level formatter).2
  | addFileAppender path mode level formatter, s => (s.addFileAppender path mode level formatter).2
  | deliver a loggerName level e, s => (s.deliver loggerName level e a).2
  | setPattern a pattern, s => (s.setPattern a pattern).2
  | setFormatter a formatter, s => s.modifyAppender a (·.setFormatter formatter)
  | reopen a, s => (s.reopen a).2
  | flushAppender a, s => (s.flushAppender a).2
  | addLogger name level, s => (s.addLogger { name, level }).2
  | buildLogger name level as, s => (s.addLogger (Logger.build name level as)).2
  | call c, s => c.apply s
  | logWith l level e, s => (s.logWith l level e).2
  | flush l, s => (s.flush l).2
  | newRegistry, s => s.newRegistry.2
  -- a registry can only be made around a logger that there is
  | addRegistry root, s => if (s.loggerAt? root).isSome then (s.addRegistry { root }).2 else s
  | get i name, s => (s.get i name).2
  | configure i config, s => (s.configure i config).2

def after (history : List Action) (host : Host) : System :=
  history.foldl (fun s a => a.perform s) { host }

/-! ## Sound systems -/

structure Holds (s : System) (r : Registry) : Prop where
  root : ∃ x, s.loggerAt? r.root = some x
  named : ∀ p ∈ r.named, p.1 ≠ Registry.rootName ∧ p.2 ≠ r.root ∧ ∃ x, s.loggerAt? p.2 = some x ∧ x.name = p.1
  sorted : (r.named.map Prod.fst).Pairwise (· < ·)

structure Sound (s : System) : Prop where
  nodup : ∀ l x, s.loggerAt? l = some x → x.appenders.Nodup
  registry : ∀ i r, s.registryAt? i = some r → s.Holds r

def KeepsNames (s t : System) : Prop :=
  ∀ l x, s.loggerAt? l = some x → ∃ y, t.loggerAt? l = some y ∧ y.name = x.name

variable {s t : System}

theorem Holds.mono {r : Registry} (h : s.Holds r) (hk : s.KeepsNames t) : t.Holds r where
  root := by
    obtain ⟨x, hx⟩ := h.root
    obtain ⟨y, hy, -⟩ := hk _ _ hx
    exact ⟨y, hy⟩
  named p hp := by
    obtain ⟨hname, hroot, x, hx, hxname⟩ := h.named p hp
    obtain ⟨y, hy, hyname⟩ := hk _ _ hx
    exact ⟨hname, hroot, y, hy, hyname.trans hxname⟩
  sorted := h.sorted

theorem Sound.empty (host : Host) : Sound { host } where
  nodup l x h := by simp [loggerAt?] at h
  registry i r h := by simp [registryAt?] at h

theorem Sound.of_sameLoggers (h : s.Sound) (he : s.SameLoggers t) : t.Sound where
  nodup l x hx := h.nodup l x (he.loggerAt? l ▸ hx)
  registry i r hr := (h.registry i r (he.registryAt? i ▸ hr)).mono fun l x hx =>
    ⟨x, (he.loggerAt? l).trans hx, rfl⟩

theorem keepsNames_addLogger (s : System) (x : Logger) : s.KeepsNames (s.addLogger x).2 := by
  intro l y hy
  exact ⟨y, by rw [loggerAt?_addLogger, if_neg (ne_of_loggerAt? hy), hy], rfl⟩

theorem Sound.addLogger (h : s.Sound) {x : Logger} (hx : x.appenders.Nodup) : (s.addLogger x).2.Sound where
  nodup l y hy := by
    rw [loggerAt?_addLogger] at hy
    split at hy
    · cases hy; exact hx
    · exact h.nodup l y hy
  registry i r hr := (h.registry i r hr).mono (s.keepsNames_addLogger x)

theorem Sound.modifyLogger (h : s.Sound) (l : LoggerId) {f : Logger → Logger} (hname : ∀ x, (f x).name = x.name)
    (hf : ∀ x : Logger, x.appenders.Nodup → (f x).appenders.Nodup) : (s.modifyLogger l f).Sound where
  nodup m y hy := by
    rw [loggerAt?_modifyLogger] at hy
    split at hy
    · obtain ⟨x, hx, rfl⟩ := Option.map_eq_some_iff.mp hy
      exact hf x (h.nodup m x hx)
    · exact h.nodup m y hy
  registry i r hr := (h.registry i r hr).mono fun m x hx => by
    rw [loggerAt?_modifyLogger]
    split
    · exact ⟨f x, by rw [hx]; rfl, hname x⟩
    · exact ⟨x, hx, rfl⟩

theorem registryAt?_addRegistry (r : Registry) (i : RegistryId) : (s.addRegistry r).2.registryAt? i =
    if i = ⟨s.registries.size⟩ then some r else s.registryAt? i := by
  by_cases h : i = ⟨s.registries.size⟩
  · subst h
    simp [registryAt?, addRegistry]
  · have hi : i.index ≠ s.registries.size := fun hi => h (congrArg RegistryId.mk hi)
    simp [registryAt?, addRegistry, Array.getElem?_push, h, hi]

theorem Sound.addRegistry (h : s.Sound) {root : LoggerId} {x : Logger} (hx : s.loggerAt? root = some x) :
    (s.addRegistry { root }).2.Sound where
  nodup := h.nodup
  registry i r hr := by
    rw [registryAt?_addRegistry] at hr
    split at hr
    · cases hr
      exact { root := ⟨x, hx⟩, named := fun p hp => (nomatch hp), sorted := List.Pairwise.nil }
    · exact (h.registry i r hr).mono fun l x hx => ⟨x, hx, rfl⟩

/-! ## Getting a logger by its name -/

section
variable {i : RegistryId} {r : Registry} (hr : s.registryAt? i = some r) {name : String}
include hr

theorem get_of_lookup {l : LoggerId} (hl : r.lookup name = some l) : s.get i name = (some l, s) := by
  simp only [get, hr, hl]

/-- A new logger comes after all there are; it takes the threshold that the root has then. -/
theorem get_of_unknown (hn : r.lookup name = none) : ∃ t, s.get i name = (some ⟨s.loggers.size⟩, t) ∧
    t.appenders = s.appenders ∧ t.host = s.host ∧
    (∀ l, t.loggerAt? l = if l = ⟨s.loggers.size⟩ then
      some { name, level := ((s.loggerAt? r.root).map Logger.level).getD .debug } else s.loggerAt? l) ∧
    ∀ j, t.registryAt? j = if j = i then some (r.insert name ⟨s.loggers.size⟩) else s.registryAt? j := by
  have hlt : i.index < s.registries.size := (Array.getElem?_eq_some_iff.mp hr).1
  simp only [get, hr, hn]
  refine ⟨_, rfl, rfl, rfl, fun l => loggerAt?_addLogger _, fun j => ?_⟩
  by_cases h : j = i
  · subst h
    simp [registryAt?, addLogger, hlt]
  · have hi : i.index ≠ j.index := fun hi => h (congrArg RegistryId.mk hi.symm)
    simp [registryAt?, addLogger, Array.getElem?_setIfInBounds_ne hi, h]

end

/-- A registry that gets to know a new logger under its name. -/
theorem Holds.insert {r : Registry} (h : s.Holds r) {name : String} (hn : r.lookup name = none) {x : Logger}
    (hx : x.name = name) {l : LoggerId} (hl : t.loggerAt? l = some x) (hroot : l ≠ r.root)
    (hk : s.KeepsNames t) : t.Holds (r.insert name l) := by
  have hold := h.mono hk
  refine ⟨hold.root, fun p hp => ?_, Registry.pairwise_place h.sorted (Registry.forall_ne_of_lookup hn)⟩
  rcases Registry.mem_place.mp hp with rfl | hp
  · exact ⟨Registry.ne_rootName_of_lookup hn, hroot, x, hl, hx⟩
  · exact hold.named p hp

theorem Sound.get (h : s.Sound) (i : RegistryId) (name : String) : (s.get i name).2.Sound := by
  cases hr : s.registryAt? i with
  | none => rw [System.get, hr]; exact h
  | some r =>
    cases hn : r.lookup name with
    | some l => rw [get_of_lookup hr hn]; exact h
    | none =>
      obtain ⟨t, hget, -, -, hloggers, hregistries⟩ := get_of_unknown hr hn
      rw [hget]
      have hk : s.KeepsNames t := fun l x hx => ⟨x, by rw [hloggers, if_neg (ne_of_loggerAt? hx), hx], rfl⟩
      refine ⟨fun l x hx => ?_, fun j r' hr' => ?_⟩
      · rw [hloggers] at hx
        split at hx
        · cases hx; exact List.nodup_nil
        · exact h.nodup l x hx
      · rw [hregistries] at hr'
        split at hr'
        · cases hr'
          obtain ⟨x, hx⟩ := (h.registry i r hr).root
          exact (h.registry i r hr).insert hn rfl (by rw [hloggers, if_pos rfl]) (ne_of_loggerAt? hx).symm hk
        · exact (h.registry j r' hr').mono hk

/-! ## Configuring -/

theorem sameLoggers_makeAppender (s : System) (shared : Option String) (plan : Config.AppenderPlan) :
    s.SameLoggers (s.makeAppender shared plan).2 := by
  unfold makeAppender
  split
  · exact .refl s
  · split
    · exact ⟨rfl, rfl⟩
    · exact s.sameLoggers_addFileAppender ..
    · exact .refl s

section
variable {P : System → Prop} (hmake : ∀ s shared plan, P s → P (s.makeAppender shared plan).2)
include hmake

/-- What making one appender keeps, making some keeps, whether or not all of them can be made. -/
theorem makeAppenders_of_makeAppender (h : P s) (shared : Option String) (plans : List Config.AppenderPlan) :
    P (s.makeAppenders shared plans).2 := by
  induction plans generalizing s with
  | nil => exact h
  | cons plan plans ih =>
    have hplan := hmake s shared plan h
    unfold makeAppenders
    split
    · next e t ht => rw [ht] at hplan; exact hplan
    · next id t ht =>
      rw [ht] at hplan
      have hrest := ih hplan
      split
      · next ids u hu => rw [hu] at hrest; exact hrest
      · next e u hu => rw [hu] at hrest; exact hrest

theorem prepare_of_makeAppender (h : P s) (plans : List Config.LoggerPlan) : P (s.prepare plans).2 := by
  induction plans generalizing s with
  | nil => exact h
  | cons plan plans ih =>
    have hplan := makeAppenders_of_makeAppender hmake h plan.pattern plan.appenders
    unfold prepare
    split
    · next e t ht => rw [ht] at hplan; exact hplan
    · next ids t ht =>
      rw [ht] at hplan
      have hrest := ih hplan
      split
      · next prepared u hu => rw [hu] at hrest; exact hrest
      · next e u hu => rw [hu] at hrest; exact hrest

/-- What making one appender and installing one logger keep, a configuration keeps, refused or not. -/
theorem configure_of_makeAppender (hinstall : ∀ s i plan ids, P s → P (s.install i plan ids)) (h : P s)
    (i : RegistryId) (config : Config) : P (s.configure i config).2 := by
  have hprepare := prepare_of_makeAppender hmake h config.loggers
  unfold configure
  split
  · exact h
  · split
    · next e t ht => rw [ht] at hprepare; exact hprepare
    · next prepared t ht =>
      rw [ht] at hprepare
      clear ht
      induction prepared generalizing t with
      | nil => exact hprepare
      | cons p prepared ih => exact ih _ (hinstall t i p.1 p.2 hprepare)

end

theorem Sound.install (h : s.Sound) (i : RegistryId) (plan : Config.LoggerPlan) (ids : List AppenderId) :
    (s.install i plan ids).Sound := by
  have hget := h.get i plan.name
  unfold System.install
  split
  · next l t ht =>
    rw [ht] at hget
    exact hget.modifyLogger l (fun _ => rfl) fun x _ => (x.setLevel plan.level).nodup_set ids
  · next t ht => rw [ht] at hget; exact hget

theorem Sound.configure (h : s.Sound) (i : RegistryId) (config : Config) : (s.configure i config).2.Sound :=
  configure_of_makeAppender (fun s shared plan h => h.of_sameLoggers (s.sameLoggers_makeAppender shared plan))
    (fun _ i plan ids h => h.install i plan ids) h i config

/-! ## Any history -/

theorem Sound.apply (h : s.Sound) (c : Call) : (c.apply s).Sound := by
  cases c with
  | log l level e => exact h.of_sameLoggers (s.sameLoggers_log l level e)
  | setLevel l level => exact h.modifyLogger l (fun _ => rfl) fun _ hx => hx
  | setThreshold a level => exact h.of_sameLoggers ⟨rfl, rfl⟩
  | add l a =>
    refine h.modifyLogger l (fun x => ?_) fun x hx => Logger.nodup_add hx a
    unfold Logger.add
    split <;> rfl
  | remove l a => exact h.modifyLogger l (fun _ => rfl) fun x hx => Logger.nodup_remove hx a
  | clear l => exact h.modifyLogger l (fun _ => rfl) fun _ _ => List.nodup_nil
  | set l as => exact h.modifyLogger l (fun _ => rfl) fun x _ => x.nodup_set as

theorem Sound.newRegistry (h : s.Sound) : s.newRegistry.2.Sound := by
  have happender := h.of_sameLoggers (t := (s.addConsoleAppender .debug Formatter.standard).2) ⟨rfl, rfl⟩
  have hlogger := happender.addLogger (x := ({ name := Registry.rootName } : Logger).add ⟨s.appenders.size⟩)
    (Logger.nodup_add List.nodup_nil _)
  exact hlogger.addRegistry ((loggerAt?_addLogger _).trans (if_pos rfl))

theorem Sound.perform (h : s.Sound) (a : Action) : (a.perform s).Sound := by
  cases a with
  | outside change => exact h.of_sameLoggers ⟨rfl, rfl⟩
  | addAppender sink level formatter => exact h.of_sameLoggers ⟨rfl, rfl⟩
  | addFileAppender path mode level formatter => exact h.of_sameLoggers (s.sameLoggers_addFileAppender ..)
  | deliver a loggerName level e => exact h.of_sameLoggers (s.sameLoggers_deliver ..)
  | setPattern a pattern => exact h.of_sameLoggers (s.sameLoggers_setPattern ..)
  | setFormatter a formatter => exact h.of_sameLoggers ⟨rfl, rfl⟩
  | reopen a => exact h.of_sameLoggers (s.sameLoggers_reopen a)
  | flushAppender a => exact h.of_sameLoggers (s.sameLoggers_flushAppender a)
  | addLogger name level => exact h.addLogger List.nodup_nil
  | buildLogger name level as => exact h.addLogger (Logger.nodup_set _ as)
  | call c => exact h.apply c
  | logWith l level e => exact h.of_sameLoggers (s.sameLoggers_logWith l level e)
  | flush l => exact h.of_sameLoggers (s.sameLoggers_flush l)
  | newRegistry => exact h.newRegistry
  | addRegistry root =>
    simp only [Action.perform]
    split
    · next hroot =>
      obtain ⟨x, hx⟩ := Option.isSome_iff_exists.mp hroot
      exact h.addRegistry hx
    · exact h
  | get i name => exact h.get i name
  | configure i config => exact h.configure i config

theorem sound_after (history : List Action) (host : Host) : (after history host).Sound := by
  have hrun : ∀ (history : List Action) (s : System), s.Sound → (history.foldl (fun s a => a.perform s) s).Sound := by
    intro history
    induction history with
    | nil => exact fun s h => h
    | cons a history ih => exact fun s h => ih _ (h.perform a)
  exact hrun history _ (.empty host)

end Logline.System
