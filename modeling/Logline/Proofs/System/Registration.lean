import Logline.Proofs.System.Installation
import Logline.Proofs.Text.ByteOrder

/-!
# One logger for each name

Whatever is done to a system, a name that a registry knows leads to the same logger from then on. Names
become known by being asked for and by configurations that are accepted, and in no other way.
-/

namespace Logline

namespace Registry

/-! ## Names that become known -/

structure Gains (r : Registry) (ns : List String) (r' : Registry) : Prop where
  root : r'.root = r.root
  kept : ∀ n l, r.lookup n = some l → r'.lookup n = some l
  names : ∀ n, n ∈ r'.names ↔ n ∈ r.names ∨ n ∈ ns

theorem Gains.refl (r : Registry) : r.Gains [] r :=
  ⟨rfl, fun _ _ h => h, by simp⟩

theorem Gains.trans {r r' r'' : Registry} {ns ms : List String} (h : r.Gains ns r') (h' : r'.Gains ms r'') :
    r.Gains (ns ++ ms) r'' where
  root := h'.root.trans h.root
  kept n l hl := h'.kept n l (h.kept n l hl)
  names n := by rw [h'.names, h.names, List.mem_append, or_assoc]

theorem gains_insert {r : Registry} {n : String} (hn : r.lookup n = none) (l : LoggerId) :
    r.Gains [n] (r.insert n l) where
  root := rfl
  kept m k hk := by
    have hne : m ≠ n := by
      rintro rfl
      rw [hn] at hk
      cases hk
    rw [lookup_insert hn, if_neg hne, hk]
  names m := by
    rw [mem_names_iff, mem_names_iff, lookup_insert hn, List.mem_singleton]
    by_cases hm : m = n <;> simp [hm]

end Registry

namespace System

open Output Config

def run (s : System) (as : List Action) : System :=
  as.foldl (fun s a => a.perform s) s

def Action.registers (i : RegistryId) (s : System) : Action → List String
  | get j name => if j = i ∧ (s.registryAt? i).isSome then [name] else []
  | configure j config =>
    if j = i ∧ (s.registryAt? i).isSome ∧ (s.configure i config).1.isOk then config.loggers.map LoggerPlan.name else []
  | _ => []

def registered (i : RegistryId) : System → List Action → List String
  | _, [] => []
  | s, a :: as => a.registers i s ++ registered i (a.perform s) as

variable {s t u : System} {i j : RegistryId} {r : Registry} {n : String} {l : LoggerId}

theorem Sound.run (h : s.Sound) (as : List Action) : (s.run as).Sound := by
  induction as generalizing s with
  | nil => exact h
  | cons a as ih => exact ih (h.perform a)

/-! ## Actions on appenders -/

def Action.onLoggers : Action → Bool
  | addLogger .. | buildLogger .. | call _ | newRegistry | addRegistry _ | get .. | configure .. => true
  | _ => false

theorem sameLoggers_perform (s : System) {a : Action} (h : a.onLoggers = false) : s.SameLoggers (a.perform s) := by
  cases a with
  | outside | addAppender | setFormatter => exact ⟨rfl, rfl⟩
  | addFileAppender => exact s.sameLoggers_addFileAppender ..
  | deliver => exact s.sameLoggers_deliver ..
  | setPattern => exact s.sameLoggers_setPattern ..
  | reopen => exact s.sameLoggers_reopen _
  | flushAppender => exact s.sameLoggers_flushAppender _
  | logWith => exact s.sameLoggers_logWith ..
  | flush => exact s.sameLoggers_flush _
  | addLogger | buildLogger | call | newRegistry | addRegistry | get | configure => cases h

/-! ## What an action makes of a registry -/

theorem registries_call (c : Call) (s : System) : (c.apply s).registries = s.registries := by
  cases c with
  | log l level e => exact (s.sameLoggers_log l level e).registries
  | setLevel | setThreshold | add | remove | clear | set => rfl

theorem registryAt?_get_of_ne (h : i ≠ j) (name : String) : (s.get j name).2.registryAt? i = s.registryAt? i := by
  cases hr : s.registryAt? j with
  | none => rw [get, hr]
  | some r =>
    cases hl : r.lookup name with
    | some l => rw [get_of_lookup hr hl]
    | none =>
      obtain ⟨t, hget, -, -, -, hregistries⟩ := get_of_unknown hr hl
      rw [hget, hregistries, if_neg h]

theorem gains_get (hr : s.registryAt? i = some r) (name : String) :
    ∃ r', (s.get i name).2.registryAt? i = some r' ∧ r.Gains [name] r' := by
  cases hl : r.lookup name with
  | some l =>
    rw [get_of_lookup hr hl]
    have hname : name ∈ r.names := Registry.mem_names_iff.mpr (by rw [hl]; rfl)
    refine ⟨r, hr, rfl, fun _ _ h => h, fun m => ⟨.inl, ?_⟩⟩
    rintro (hm | hm)
    · exact hm
    · rw [List.mem_singleton.mp hm]
      exact hname
  | none =>
    obtain ⟨t, hget, -, -, -, hregistries⟩ := get_of_unknown hr hl
    rw [hget]
    exact ⟨_, (hregistries i).trans (if_pos rfl), Registry.gains_insert hl _⟩

theorem registryAt?_install_of_ne (h : i ≠ j) (plan : LoggerPlan) (ids : List AppenderId) :
    (s.install j plan ids).registryAt? i = s.registryAt? i := by
  have hget := registryAt?_get_of_ne (s := s) h plan.name
  unfold install
  split
  · next ht => rw [ht] at hget; exact hget
  · next ht => rw [ht] at hget; exact hget

theorem registryAt?_installAll_of_ne (h : i ≠ j) (ps : List (LoggerPlan × List AppenderId)) (s : System) :
    (installAll j ps s).registryAt? i = s.registryAt? i := by
  induction ps generalizing s with
  | nil => rfl
  | cons p ps ih => exact (ih _).trans (registryAt?_install_of_ne h p.1 p.2)

/-- A configuration is refused with loggers and registries as they were, or its loggers are installed. -/
theorem configure_outcome (s : System) (i : RegistryId) (config : Config) :
    (∃ e t, s.configure i config = (.error e, t) ∧ s.SameLoggers t) ∨
    ∃ prepared t, s.configure i config = (.ok (), installAll i prepared t) ∧ s.SameLoggers t := by
  cases hv : config.validate with
  | error e => exact .inl ⟨e, s, by rw [configure, hv], .refl s⟩
  | ok _ =>
    rcases s.configure_cases i hv with ⟨prepared, t, hprepared, hc⟩ | ⟨e, t, hfailed, hc⟩
    · exact .inr ⟨prepared, t, hc, hprepared.made.grows.same⟩
    · exact .inl ⟨e, t, hc, hfailed.grows.same⟩

theorem registryAt?_configure_of_ne (h : i ≠ j) (config : Config) :
    (s.configure j config).2.registryAt? i = s.registryAt? i := by
  rcases s.configure_outcome j config with ⟨e, t, hc, hsame⟩ | ⟨prepared, t, hc, hsame⟩
  · rw [hc]
    exact hsame.registryAt? i
  · rw [hc]
    exact (registryAt?_installAll_of_ne h prepared t).trans (hsame.registryAt? i)

theorem gains_configure (hs : s.Sound) (hr : s.registryAt? i = some r) (config : Config) :
    ∃ r', (s.configure i config).2.registryAt? i = some r' ∧
      r.Gains (if (s.configure i config).1.isOk then config.loggers.map LoggerPlan.name else []) r' := by
  rcases s.configure_outcome i config with ⟨e, t, hc, hsame⟩ | ⟨prepared, t, hc, -⟩
  · rw [hc]
    exact ⟨r, (hsame.registryAt? i).trans hr, .refl r⟩
  · have hconfigured := configured_of_ok hs (by rw [hr]; rfl) hc
    obtain ⟨q, r', hq, hr', hroot, -, hnames⟩ := hconfigured.names
    cases hr.symm.trans hq
    rw [hc]
    refine ⟨r', hr', hroot, fun n l hl => ?_, hnames⟩
    rw [← find?_of_registryAt? hr']
    exact hconfigured.kept n l ((find?_of_registryAt? hr n).trans hl)

theorem gains_perform (hs : s.Sound) (hr : s.registryAt? i = some r) (a : Action) :
    ∃ r', (a.perform s).registryAt? i = some r' ∧ r.Gains (a.registers i s) r' := by
  have hne : i ≠ ⟨s.registries.size⟩ := by
    rintro rfl
    exact Nat.lt_irrefl _ (Array.getElem?_eq_some_iff.mp hr).1
  have hpushed : ∀ (t : System) (q : Registry), t.registries = s.registries →
      ∃ r', (t.addRegistry q).2.registryAt? i = some r' ∧ r.Gains [] r' := by
    intro t q ht
    refine ⟨r, ?_, .refl r⟩
    rw [registryAt?_addRegistry, ht, if_neg hne, registryAt?, ht]
    exact hr
  cases a with
  | addLogger | buildLogger => exact ⟨r, hr, .refl r⟩
  | call c =>
    refine ⟨r, ?_, .refl r⟩
    rw [Action.perform, registryAt?, registries_call]
    exact hr
  | newRegistry => exact hpushed _ _ rfl
  | addRegistry root =>
    simp only [Action.perform]
    split
    · exact hpushed s _ rfl
    · exact ⟨r, hr, .refl r⟩
  | get j name =>
    by_cases hj : j = i
    · subst hj
      simp only [Action.registers, hr, Option.isSome_some, and_self, if_true]
      exact gains_get hr name
    · simp only [Action.registers, hj, false_and, if_false]
      exact ⟨r, (registryAt?_get_of_ne (Ne.symm hj) name).trans hr, .refl r⟩
  | configure j config =>
    by_cases hj : j = i
    · subst hj
      simp only [Action.registers, hr, Option.isSome_some, true_and]
      exact gains_configure hs hr config
    · simp only [Action.registers, hj, false_and, if_false]
      exact ⟨r, (registryAt?_configure_of_ne (Ne.symm hj) config).trans hr, .refl r⟩
  | _ => exact ⟨r, ((s.sameLoggers_perform rfl).registryAt? i).trans hr, .refl r⟩

theorem gains_run (hs : s.Sound) (hr : s.registryAt? i = some r) (as : List Action) :
    ∃ r', (s.run as).registryAt? i = some r' ∧ r.Gains (registered i s as) r' := by
  induction as generalizing s r with
  | nil => exact ⟨r, hr, .refl r⟩
  | cons a as ih =>
    obtain ⟨q, hq, hgains⟩ := gains_perform hs hr a
    obtain ⟨r', hr', hrest⟩ := ih (hs.perform a) hq
    exact ⟨r', hr', hgains.trans hrest⟩

/-! ## Names known since the registry was made -/

theorem registers_of_none (h : s.registryAt? i = none) (a : Action) : a.registers i s = [] := by
  cases a with
  | get | configure => simp [Action.registers, h]
  | _ => rfl

theorem registryAt?_get_of_none (h : s.registryAt? i = none) (j : RegistryId) (name : String) :
    (s.get j name).2.registryAt? i = none := by
  by_cases hj : i = j
  · subst hj
    rw [get, h]
    exact h
  · rw [registryAt?_get_of_ne hj, h]

theorem installAll_of_none (h : s.registryAt? i = none) (ps : List (LoggerPlan × List AppenderId)) :
    installAll i ps s = s := by
  induction ps with
  | nil => rfl
  | cons p ps ih =>
    have hinstall : s.install i p.1 p.2 = s := by rw [install, get, h]
    show installAll i ps (s.install i p.1 p.2) = s
    rw [hinstall, ih]

theorem registryAt?_configure_of_none (h : s.registryAt? i = none) (j : RegistryId) (config : Config) :
    (s.configure j config).2.registryAt? i = none := by
  by_cases hj : i = j
  · subst hj
    rcases s.configure_outcome i config with ⟨e, t, hc, hsame⟩ | ⟨prepared, t, hc, hsame⟩
    · rw [hc]
      exact (hsame.registryAt? i).trans h
    · have ht : t.registryAt? i = none := (hsame.registryAt? i).trans h
      rw [hc, installAll_of_none ht]
      exact ht
  · rw [registryAt?_configure_of_ne hj, h]

theorem named_perform_of_none (h : s.registryAt? i = none) (a : Action) (hr : (a.perform s).registryAt? i = some r) :
    r.named = [] := by
  have hpushed : ∀ (t : System) (q : Registry), t.registries = s.registries → q.named = [] →
      (t.addRegistry q).2.registryAt? i = some r → r.named = [] := by
    intro t q ht hq hr
    rw [registryAt?_addRegistry] at hr
    split at hr
    · cases hr
      exact hq
    · rw [registryAt?, ht] at hr
      cases h.symm.trans hr
  cases a with
  | addLogger | buildLogger => cases h.symm.trans hr
  | call c =>
    rw [Action.perform, registryAt?, registries_call] at hr
    cases h.symm.trans hr
  | newRegistry => exact hpushed _ _ rfl rfl hr
  | addRegistry root =>
    simp only [Action.perform] at hr
    split at hr
    · exact hpushed s _ rfl rfl hr
    · cases h.symm.trans hr
  | get j name => cases (registryAt?_get_of_none h j name).symm.trans hr
  | configure j config => cases (registryAt?_configure_of_none h j config).symm.trans hr
  | _ => cases (((s.sameLoggers_perform rfl).registryAt? i).trans h).symm.trans hr

theorem names_run (hs : s.Sound) (hnone : s.registryAt? i = none) (as : List Action)
    (hr : (s.run as).registryAt? i = some r) (n : String) :
    n ∈ r.names ↔ n = Registry.rootName ∨ n ∈ registered i s as := by
  induction as generalizing s with
  | nil => cases hnone.symm.trans hr
  | cons a as ih =>
    have hregistered : registered i s (a :: as) = registered i (a.perform s) as := by
      rw [registered, registers_of_none hnone, List.nil_append]
    rw [hregistered]
    -- from the action on that makes it, the registry gains names; before, none are known to it
    cases hq : (a.perform s).registryAt? i with
    | none => exact ih (hs.perform a) hq hr
    | some q =>
      obtain ⟨r', hr', hgains⟩ := gains_run (hs.perform a) hq as
      cases hr'.symm.trans hr
      rw [hgains.names]
      simp [Registry.names, named_perform_of_none hnone a hq]

/-! ## Loggers that nothing is done to -/

def Call.logger? : Call → Option LoggerId
  | log l .. | setLevel l _ | add l _ | remove l _ | clear l | set l _ => some l
  | setThreshold .. => none

/-- The action is a call on the logger, or a configuration that one of the logger's names stands in. -/
def Action.On (l : LoggerId) (s : System) : Action → Prop
  | call c => c.logger? = some l
  | configure i config => ∃ n ∈ config.loggers.map LoggerPlan.name, s.find? i n = some l
  | _ => False

def Spared (l : LoggerId) : System → List Action → Prop
  | _, [] => True
  | s, a :: as => ¬ a.On l s ∧ Spared l (a.perform s) as

theorem loggerAt?_get {x : Logger} (hx : s.loggerAt? l = some x) (i : RegistryId) (name : String) :
    (s.get i name).2.loggerAt? l = some x := by
  cases hr : s.registryAt? i with
  | none => rw [get, hr]; exact hx
  | some r =>
    cases hl : r.lookup name with
    | some k => rw [get_of_lookup hr hl]; exact hx
    | none =>
      obtain ⟨t, hget, -, -, hloggers, -⟩ := get_of_unknown hr hl
      rw [hget, hloggers, if_neg (ne_of_loggerAt? hx), hx]

theorem loggerAt?_call {c : Call} (h : c.logger? ≠ some l) (s : System) :
    (c.apply s).loggerAt? l = s.loggerAt? l := by
  have hmodify : ∀ {k : LoggerId} (f : Logger → Logger), some k ≠ some l →
      (s.modifyLogger k f).loggerAt? l = s.loggerAt? l := by
    intro k f hk
    rw [loggerAt?_modifyLogger, if_neg]
    intro he
    exact hk (congrArg some he.symm)
  cases c with
  | log k level e => exact (s.sameLoggers_log k level e).loggerAt? l
  | setThreshold => rfl
  | setLevel | add | remove | clear | set => exact hmodify _ h

theorem loggerAt?_configure (hs : s.Sound) {x : Logger} (hx : s.loggerAt? l = some x) {config : Config}
    (h : ∀ n ∈ config.loggers.map LoggerPlan.name, s.find? i n ≠ some l) :
    (s.configure i config).2.loggerAt? l = some x := by
  cases hr : s.registryAt? i with
  | some r =>
    rcases s.configure_outcome i config with ⟨e, t, hc, hsame⟩ | ⟨prepared, t, hc, -⟩
    · rw [hc]
      exact (hsame.loggerAt? l).trans hx
    · rw [hc]
      exact (configured_of_ok hs (by rw [hr]; rfl) hc).frame l x hx h
  | none =>
    rcases s.configure_outcome i config with ⟨e, t, hc, hsame⟩ | ⟨prepared, t, hc, hsame⟩
    · rw [hc]
      exact (hsame.loggerAt? l).trans hx
    · rw [hc, installAll_of_none ((hsame.registryAt? i).trans hr)]
      exact (hsame.loggerAt? l).trans hx

theorem loggerAt?_perform (hs : s.Sound) {x : Logger} (hx : s.loggerAt? l = some x) {a : Action} (h : ¬ a.On l s) :
    (a.perform s).loggerAt? l = some x := by
  have hpushed : ∀ y, (s.addLogger y).2.loggerAt? l = some x := by
    intro y
    rw [loggerAt?_addLogger, if_neg (ne_of_loggerAt? hx), hx]
  cases a with
  | addLogger | buildLogger => exact hpushed _
  | call c => exact (loggerAt?_call h s).trans hx
  | newRegistry => exact hpushed _
  | addRegistry root =>
    simp only [Action.perform]
    split
    · exact hx
    · exact hx
  | get i name => exact loggerAt?_get hx i name
  | configure i config => exact loggerAt?_configure hs hx fun n hn hfind => h ⟨n, hn, hfind⟩
  | _ => exact ((s.sameLoggers_perform rfl).loggerAt? l).trans hx

theorem loggerAt?_run (hs : s.Sound) {x : Logger} (hx : s.loggerAt? l = some x) {as : List Action}
    (h : Spared l s as) : (s.run as).loggerAt? l = some x := by
  induction as generalizing s with
  | nil => exact hx
  | cons a as ih =>
    obtain ⟨ha, has⟩ := h
    exact ih (hs.perform a) (loggerAt?_perform hs hx ha) has

/-! ## Names for life -/

/-- From now on the name leads to the logger, whatever is done. -/
def Leads (s : System) (i : RegistryId) (n : String) (l : LoggerId) : Prop :=
  ∀ later, (s.run later).find? i n = some l ∧ (s.run later).get i n = (some l, s.run later)

theorem Sound.leads (hs : s.Sound) (h : s.find? i n = some l) : s.Leads i n l := by
  intro later
  obtain ⟨r, hr, hl⟩ := exists_registry_of_find? h
  obtain ⟨r', hr', hgains⟩ := gains_run hs hr later
  have hfind : (s.run later).find? i n = some l := by
    rw [find?_of_registryAt? hr']
    exact hgains.kept n l hl
  exact ⟨hfind, get_of_find? hfind⟩

structure Registration (s : System) (i : RegistryId) (r : Registry) (known : List String) : Prop where
  root : s.Leads i Registry.rootName r.root
  got : ∀ n, ∃ l u, s.get i n = (some l, u) ∧ u.Leads i n l
  configured : ∀ config u, s.configure i config = (.ok (), u) →
    ∀ n ∈ config.loggers.map LoggerPlan.name, ∃ l, u.Leads i n l
  refused : ∀ config e u, s.configure i config = (.error e, u) →
    u.loggers = s.loggers ∧ u.registries = s.registries
  distinct : ∀ n m l, s.find? i n = some l → s.find? i m = some l → n = m
  name : ∀ n l, s.find? i n = some l → n ≠ Registry.rootName → ∃ x, s.loggerAt? l = some x ∧ x.name = n
  /-- A new logger takes the root's level of the moment, and then changes only by what is done to it. -/
  new : ∀ n, s.find? i n = none → ∃ l u x, s.get i n = (some l, u) ∧ s.loggerAt? l = none ∧ l ≠ r.root ∧
    s.loggerAt? r.root = some x ∧ u.loggerAt? l = some { name := n, level := x.level, appenders := [] } ∧
    ∀ later, Spared l u later → (u.run later).loggerAt? l = u.loggerAt? l
  names : ∃ ns, r.names = Registry.rootName :: ns ∧ ns.Pairwise (fun n m => Text.bytes n < Text.bytes m) ∧
    Registry.rootName ∉ ns ∧ ∀ n, n ∈ ns ↔ n ≠ Registry.rootName ∧ n ∈ known

theorem Sound.of_get (hs : s.Sound) {answer : Option LoggerId} (h : s.get i n = (answer, u)) : u.Sound := by
  have hu := hs.get i n
  rwa [h] at hu

theorem Sound.of_configure (hs : s.Sound) {config : Config} {answer : Except Error Unit}
    (h : s.configure i config = (answer, u)) : u.Sound := by
  have hu := hs.configure i config
  rwa [h] at hu

theorem Sound.got (hs : s.Sound) (hr : s.registryAt? i = some r) (n : String) :
    ∃ l u, s.get i n = (some l, u) ∧ u.Leads i n l := by
  cases hl : r.lookup n with
  | some l =>
    have hfind : s.find? i n = some l := (find?_of_registryAt? hr n).trans hl
    exact ⟨l, s, get_of_find? hfind, hs.leads hfind⟩
  | none =>
    obtain ⟨u, hget, -, -, -, hregistries⟩ := get_of_unknown hr hl
    have hu : u.Sound := hs.of_get hget
    refine ⟨_, u, hget, hu.leads ?_⟩
    rw [find?_of_registryAt? ((hregistries i).trans (if_pos rfl)), Registry.lookup_insert hl, if_pos rfl]

theorem Sound.configured (hs : s.Sound) (hr : s.registryAt? i = some r) {config : Config}
    (hc : s.configure i config = (.ok (), u)) (hn : n ∈ config.loggers.map LoggerPlan.name) :
    ∃ l, u.Leads i n l := by
  have hu : u.Sound := hs.of_configure hc
  obtain ⟨q, r', -, hr', -, -, hnames⟩ := (configured_of_ok hs (by rw [hr]; rfl) hc).names
  have hsome : (r'.lookup n).isSome := Registry.mem_names_iff.mp ((hnames n).mpr (.inr hn))
  obtain ⟨l, hl⟩ := Option.isSome_iff_exists.mp hsome
  exact ⟨l, hu.leads ((find?_of_registryAt? hr' n).trans hl)⟩

theorem Sound.new (hs : s.Sound) (hr : s.registryAt? i = some r) (hn : s.find? i n = none) :
    ∃ l u x, s.get i n = (some l, u) ∧ s.loggerAt? l = none ∧ l ≠ r.root ∧ s.loggerAt? r.root = some x ∧
      u.loggerAt? l = some { name := n, level := x.level, appenders := [] } ∧
      ∀ later, Spared l u later → (u.run later).loggerAt? l = u.loggerAt? l := by
  rw [find?_of_registryAt? hr] at hn
  obtain ⟨u, hget, -, -, hloggers, -⟩ := get_of_unknown hr hn
  obtain ⟨x, hx⟩ := (hs.registry i r hr).root
  have hu : u.Sound := hs.of_get hget
  have hnew := (hloggers _).trans (if_pos rfl)
  rw [hx] at hnew
  refine ⟨_, u, x, hget, Array.getElem?_eq_none (Nat.le_refl _), (ne_of_loggerAt? hx).symm, hx, hnew, ?_⟩
  intro later hlater
  rw [hnew]
  exact loggerAt?_run hu hnew hlater

theorem Sound.registration (hs : s.Sound) (hr : s.registryAt? i = some r) {known : List String}
    (hnames : ∀ n, n ∈ r.names ↔ n = Registry.rootName ∨ n ∈ known) : s.Registration i r known where
  root := hs.leads ((find?_of_registryAt? hr _).trans r.lookup_rootName)
  got n := hs.got hr n
  configured config u hc n hn := hs.configured hr hc hn
  refused config e u hc := by
    rcases s.configure_outcome i config with ⟨e', t, hc', hsame⟩ | ⟨prepared, t, hc', -⟩
    · cases hc'.symm.trans hc
      exact ⟨hsame.loggers, hsame.registries⟩
    · cases hc'.symm.trans hc
  distinct n m l := hs.find?_inj
  name n l hl hn := by
    rw [find?_of_registryAt? hr] at hl
    obtain ⟨-, -, hx⟩ := (hs.registry i r hr).named _ (Holds.mem_named hn hl)
    exact hx
  new n := hs.new hr
  names := by
    have hholds := hs.registry i r hr
    have hroot : Registry.rootName ∉ r.named.map Prod.fst := (List.nodup_cons.mp hholds.nodup_names).1
    refine ⟨_, rfl, hholds.sorted.imp fun {n m} => (Text.lt_iff_bytes_lt n m).mp, hroot, ?_⟩
    intro n
    have hn := hnames n
    rw [Registry.names, List.mem_cons] at hn
    constructor
    · intro hmem
      have hne : n ≠ Registry.rootName := fun he => hroot (he ▸ hmem)
      exact ⟨hne, (hn.mp (.inr hmem)).resolve_left hne⟩
    · rintro ⟨hne, hmem⟩
      exact (hn.mpr (.inr hmem)).resolve_left hne

/-- After any history each registry has one logger for each of its names, and will have the same one. Its
names are the root's and, in the order of their bytes, those that became known since it was made. -/
theorem registration_after (history : List Action) (host : Host) (i : RegistryId) (r : Registry)
    (hr : (after history host).registryAt? i = some r) :
    (after history host).Registration i r (registered i { host } history) := by
  have hnone : ({ host } : System).registryAt? i = none := by simp [registryAt?]
  exact (sound_after history host).registration hr (names_run (.empty host) hnone history hr)

/-- A registry around a logger of another one, with names that a letter beyond `z` sets apart. -/
theorem registration_after_shared :
    let history : List Action := [.newRegistry, .get ⟨0⟩ "b", .addRegistry ⟨1⟩, .get ⟨1⟩ "é",
      .configure ⟨1⟩ { loggers := [{ name := "z", level := .warn }] }]
    let s := after history {}
    s.registryAt? ⟨1⟩ = some { root := ⟨1⟩, named := [("z", ⟨3⟩), ("é", ⟨2⟩)] } ∧
      registered ⟨1⟩ {} history = ["é", "z"] ∧ s.Leads ⟨1⟩ "root" ⟨1⟩ ∧
      ∃ l u, s.get ⟨1⟩ "a" = (some l, u) ∧ u.Leads ⟨1⟩ "a" l := by
  intro history s
  have hr : s.registryAt? ⟨1⟩ = some { root := ⟨1⟩, named := [("z", ⟨3⟩), ("é", ⟨2⟩)] } := by cbv
  have hregistered : registered ⟨1⟩ {} history = ["é", "z"] := by cbv
  have h := registration_after history {} ⟨1⟩ _ hr
  exact ⟨hr, hregistered, h.root, h.got "a"⟩

end System

end Logline
