import Mathlib
import Logline.Proofs.System.Refusal

/-!
# Configurations put into effect

Once all its appenders are made, a configuration goes through its loggers in the order of the document. Of
those with one name the last stays in effect, and a logger that no name of the configuration leads to is
left alone.
-/

namespace Logline.System

open Output Config

/-! ## Finding loggers -/

def find? (s : System) (i : RegistryId) (name : String) : Option LoggerId :=
  (s.registryAt? i).bind (·.lookup name)

section
variable {s t : System} {i : RegistryId} {r : Registry} {n m : String} {l : LoggerId}

theorem find?_of_registryAt? (hr : s.registryAt? i = some r) (name : String) : s.find? i name = r.lookup name := by
  rw [find?, hr]
  rfl

theorem exists_registry_of_find? (h : s.find? i n = some l) : ∃ r, s.registryAt? i = some r ∧ r.lookup n = some l :=
  Option.bind_eq_some_iff.mp h

theorem SameLoggers.find? (h : s.SameLoggers t) (i : RegistryId) (name : String) : t.find? i name = s.find? i name := by
  rw [System.find?, System.find?, h.registryAt?]

theorem get_of_find? (h : s.find? i n = some l) : s.get i n = (some l, s) := by
  obtain ⟨r, hr, hl⟩ := exists_registry_of_find? h
  exact get_of_lookup hr hl

/-- A logger that is got and leaves the system as it is was known. -/
theorem find?_of_get (hr : s.registryAt? i = some r) (h : s.get i n = (some l, s)) : s.find? i n = some l := by
  rw [find?_of_registryAt? hr]
  cases hl : r.lookup n with
  | some k =>
    rw [get_of_lookup hr hl] at h
    exact (Prod.mk.inj h).1
  | none =>
    obtain ⟨t, hget, -, -, hloggers, -⟩ := get_of_unknown hr hl
    cases hget.symm.trans h
    have hnew := (hloggers ⟨s.loggers.size⟩).trans (if_pos rfl)
    exact absurd rfl (ne_of_loggerAt? hnew)

theorem Holds.mem_named (hn : n ≠ Registry.rootName) (hl : r.lookup n = some l) : (n, l) ∈ r.named := by
  rw [Registry.lookup_of_ne hn] at hl
  obtain ⟨before, after, he, -⟩ := List.lookup_eq_some_iff.mp hl
  rw [he]
  exact List.mem_append_right _ List.mem_cons_self

theorem Holds.exists_of_lookup (h : s.Holds r) (hl : r.lookup n = some l) : ∃ x, s.loggerAt? l = some x := by
  by_cases hn : n = Registry.rootName
  · rw [hn, Registry.lookup_rootName] at hl
    cases hl
    exact h.root
  · obtain ⟨-, -, x, hx, -⟩ := h.named _ (mem_named hn hl)
    exact ⟨x, hx⟩

/-- Different names lead to different loggers. -/
theorem Holds.lookup_inj (h : s.Holds r) (hn : r.lookup n = some l) (hm : r.lookup m = some l) : n = m := by
  have hroot : ∀ {k}, r.lookup k = some l → k ≠ Registry.rootName → l ≠ r.root := fun hk hne =>
    (h.named _ (mem_named hne hk)).2.1
  by_cases hnr : n = Registry.rootName <;> by_cases hmr : m = Registry.rootName
  · rw [hnr, hmr]
  · rw [hnr, Registry.lookup_rootName] at hn
    cases hn
    exact absurd rfl (hroot hm hmr)
  · rw [hmr, Registry.lookup_rootName] at hm
    cases hm
    exact absurd rfl (hroot hn hnr)
  · obtain ⟨-, -, x, hx, hxn⟩ := h.named _ (mem_named hnr hn)
    obtain ⟨-, -, y, hy, hym⟩ := h.named _ (mem_named hmr hm)
    cases hx.symm.trans hy
    exact hxn.symm.trans hym

theorem Sound.find?_inj (h : s.Sound) (hn : s.find? i n = some l) (hm : s.find? i m = some l) : n = m := by
  obtain ⟨r, hr, hn⟩ := exists_registry_of_find? hn
  rw [find?_of_registryAt? hr] at hm
  exact (h.registry i r hr).lookup_inj hn hm

theorem Holds.nodup_names (h : s.Holds r) : r.names.Nodup := by
  refine List.nodup_cons.mpr ⟨fun hm => ?_, h.sorted.imp fun hlt => ?_⟩
  · obtain ⟨p, hp, hname⟩ := List.mem_map.mp hm
    exact (h.named p hp).1 hname
  · exact String.ne_of_lt hlt

end

/-! ## One logger -/

/-- A logger that was known under the name, or is new, has been given the level and the appenders. -/
structure Installs (s t : System) (i : RegistryId) (plan : LoggerPlan) (ids : List AppenderId) (l : LoggerId) :
    Prop where
  known : t.find? i plan.name = some l
  before : s.find? i plan.name = some l ∨ s.find? i plan.name = none ∧ s.loggerAt? l = none
  logger : ∃ x, t.loggerAt? l = some x ∧ x.level = plan.level ∧ x.appenders = ids.eraseDups
  names : ∀ n, n ≠ plan.name → t.find? i n = s.find? i n
  loggers : ∀ m, m ≠ l → t.loggerAt? m = s.loggerAt? m
  appenders : t.appenders = s.appenders

variable {s t u : System} {i : RegistryId}

theorem exists_installs (hs : s.Sound) {r : Registry} (hr : s.registryAt? i = some r) (plan : LoggerPlan)
    (ids : List AppenderId) : ∃ l, s.Installs (s.install i plan ids) i plan ids l := by
  have hmodify : ∀ {t : System} {l x}, t.loggerAt? l = some x → ∃ y,
      (t.modifyLogger l fun x => (x.setLevel plan.level).set ids).loggerAt? l = some y ∧ y.level = plan.level ∧
        y.appenders = ids.eraseDups := fun hx =>
    ⟨_, by rw [loggerAt?_modifyLogger, if_pos rfl, hx]; rfl, rfl, rfl⟩
  cases hl : r.lookup plan.name with
  | some l =>
    have hfind : s.find? i plan.name = some l := (find?_of_registryAt? hr _).trans hl
    obtain ⟨x, hx⟩ := (hs.registry i r hr).exists_of_lookup hl
    have hinstall : s.install i plan ids = s.modifyLogger l fun x => (x.setLevel plan.level).set ids := by
      rw [install, get_of_lookup hr hl]
    rw [hinstall]
    exact ⟨l, hfind, .inl hfind, hmodify hx, fun n _ => rfl, fun m hm => by rw [loggerAt?_modifyLogger, if_neg hm], rfl⟩
  | none =>
    have hfind : s.find? i plan.name = none := (find?_of_registryAt? hr _).trans hl
    obtain ⟨t, hget, happenders, -, hloggers, hregistries⟩ := get_of_unknown hr hl
    have hinstall : s.install i plan ids =
        t.modifyLogger ⟨s.loggers.size⟩ fun x => (x.setLevel plan.level).set ids := by
      rw [install, hget]
    have hnew : ∀ n, t.find? i n = if n = plan.name then some ⟨s.loggers.size⟩ else s.find? i n := fun n => by
      rw [find?_of_registryAt? ((hregistries i).trans (if_pos rfl)), Registry.lookup_insert hl,
        find?_of_registryAt? hr]
    have hfresh : s.loggerAt? ⟨s.loggers.size⟩ = none := Array.getElem?_eq_none (Nat.le_refl _)
    rw [hinstall]
    refine ⟨_, (hnew _).trans (if_pos rfl), .inr ⟨hfind, hfresh⟩, hmodify ((hloggers _).trans (if_pos rfl)),
      fun n hn => (hnew n).trans (if_neg hn), fun m hm => ?_, happenders⟩
    rw [loggerAt?_modifyLogger, if_neg hm, hloggers, if_neg hm]

/-! ## All loggers -/

def installAll (i : RegistryId) (ps : List (LoggerPlan × List AppenderId)) (s : System) : System :=
  ps.foldl (fun s (plan, ids) => s.install i plan ids) s

structure Installed (s u : System) (i : RegistryId) (ps : List (LoggerPlan × List AppenderId)) : Prop where
  sound : u.Sound
  appenders : u.appenders = s.appenders
  kept : ∀ n l, s.find? i n = some l → u.find? i n = some l
  known : ∀ p ∈ ps, (u.find? i p.1.name).isSome
  others : ∀ n, (∀ p ∈ ps, p.1.name ≠ n) → u.find? i n = s.find? i n
  frame : ∀ m x, s.loggerAt? m = some x → (∀ p ∈ ps, s.find? i p.1.name ≠ some m) → u.loggerAt? m = some x
  last : ∀ before p after, ps = before ++ p :: after → (∀ q ∈ after, q.1.name ≠ p.1.name) →
    ∃ l x, u.find? i p.1.name = some l ∧ u.loggerAt? l = some x ∧ x.level = p.1.level ∧ x.appenders = p.2.eraseDups

theorem Installs.kept {plan : LoggerPlan} {ids : List AppenderId} {l k : LoggerId} {n : String}
    (h : s.Installs t i plan ids l) (hn : s.find? i n = some k) : t.find? i n = some k := by
  by_cases he : n = plan.name
  · rcases h.before with hl | ⟨hl, -⟩
    · rw [he, h.known, ← hl, ← he, hn]
    · rw [he, hl] at hn
      cases hn
  · rw [h.names n he, hn]

theorem Installed.cons {p : LoggerPlan × List AppenderId} {ps : List (LoggerPlan × List AppenderId)} {l : LoggerId}
    (ht : t.Sound) (h : s.Installs t i p.1 p.2 l) (hrest : t.Installed u i ps) : s.Installed u i (p :: ps) where
  sound := hrest.sound
  appenders := hrest.appenders.trans h.appenders
  kept n k hn := hrest.kept n k (h.kept hn)
  known := by
    refine List.forall_mem_cons.mpr ⟨?_, hrest.known⟩
    rw [hrest.kept _ _ h.known]
    rfl
  others n hn := by
    obtain ⟨hp, hps⟩ := List.forall_mem_cons.mp hn
    rw [hrest.others n hps, h.names n (Ne.symm hp)]
  frame m x hx hm := by
    obtain ⟨hp, hps⟩ := List.forall_mem_cons.mp hm
    have hne : m ≠ l := by
      rintro rfl
      rcases h.before with hl | ⟨-, hl⟩
      · exact hp hl
      · rw [hx] at hl
        cases hl
    refine hrest.frame m x ((h.loggers m hne).trans hx) fun q hq hfind => ?_
    by_cases he : q.1.name = p.1.name
    · rw [he, h.known] at hfind
      exact hne (Option.some.inj hfind).symm
    · rw [h.names _ he] at hfind
      exact hps q hq hfind
  last before q after hsplit hafter := by
    cases before with
    | cons b before =>
      obtain ⟨-, hps⟩ := List.cons.inj hsplit
      exact hrest.last before q after hps hafter
    | nil =>
      obtain ⟨rfl, rfl⟩ := List.cons.inj hsplit
      obtain ⟨x, hx, hlevel, hids⟩ := h.logger
      -- No later name leads to this logger, since another name would lead to another.
      have hframe := hrest.frame l x hx fun q hq hfind => hafter q hq (ht.find?_inj hfind h.known)
      exact ⟨l, x, hrest.kept _ _ h.known, hframe, hlevel, hids⟩

theorem installed_installAll (hs : s.Sound) {r : Registry} (hr : s.registryAt? i = some r)
    (ps : List (LoggerPlan × List AppenderId)) : s.Installed (installAll i ps s) i ps := by
  induction ps generalizing s r with
  | nil => exact ⟨hs, rfl, fun _ _ h => h, nofun, fun _ _ => rfl, fun _ _ h _ => h, by simp⟩
  | cons p ps ih =>
    obtain ⟨l, hinstalls⟩ := exists_installs hs hr p.1 p.2
    have ht := hs.install i p.1 p.2
    obtain ⟨r', hr', -⟩ := exists_registry_of_find? hinstalls.known
    exact .cons ht hinstalls (ih ht hr')

/-! ## A configuration -/

theorem exists_last {α β : Type} {f : α → β} {b : β} {as : List α} (h : b ∈ as.map f) :
    ∃ before a after, as = before ++ a :: after ∧ f a = b ∧ b ∉ after.map f := by
  induction as with
  | nil => simp at h
  | cons a as ih =>
    by_cases hb : b ∈ as.map f
    · obtain ⟨before, c, after, rfl, hc, hafter⟩ := ih hb
      exact ⟨a :: before, c, after, rfl, hc, hafter⟩
    · rw [List.map_cons, List.mem_cons] at h
      exact ⟨[], a, as, rfl, (h.resolve_right hb).symm, hb⟩

/-- What a configuration that has been put into effect makes of a system. -/
structure Configured (s u : System) (i : RegistryId) (config : Config) : Prop where
  appenders : ∀ id a, s.appenderAt? id = some a → u.appenderAt? id = some a
  /-- A logger that was known is still the one that its name leads to. -/
  kept : ∀ n l, s.find? i n = some l → u.find? i n = some l
  others : ∀ n, n ∉ config.loggers.map LoggerPlan.name → u.find? i n = s.find? i n
  frame : ∀ l x, s.loggerAt? l = some x →
    (∀ n ∈ config.loggers.map LoggerPlan.name, s.find? i n ≠ some l) → u.loggerAt? l = some x
  /-- Of the loggers with one name the last is in effect, with new appenders as it asks for. -/
  last : ∀ before plan after, config.loggers = before ++ plan :: after →
    plan.name ∉ after.map LoggerPlan.name → ∃ l x, u.get i plan.name = (some l, u) ∧
      u.loggerAt? l = some x ∧ x.level = plan.level ∧ List.Forall₂ u.Stands plan.wanted x.appenders ∧
      x.appenders.Nodup ∧ ∀ a ∈ x.appenders, s.appenderAt? a = none
  distinct : ∀ n ∈ config.loggers.map LoggerPlan.name, ∀ m ∈ config.loggers.map LoggerPlan.name, n ≠ m →
    ∀ l k x y, u.find? i n = some l → u.find? i m = some k → u.loggerAt? l = some x → u.loggerAt? k = some y →
      x.appenders.Disjoint y.appenders
  names : ∃ r r', s.registryAt? i = some r ∧ u.registryAt? i = some r' ∧ r'.root = r.root ∧ r'.names.Nodup ∧
    ∀ n, n ∈ r'.names ↔ n ∈ r.names ∨ n ∈ config.loggers.map LoggerPlan.name

section
variable {plans : List LoggerPlan} {prepared : List (LoggerPlan × List AppenderId)}

theorem Prepared.nodup (h : s.Prepared t plans prepared) : (prepared.flatMap Prod.snd).Nodup := by
  have hrange : (List.range' s.appenders.size (plans.flatMap LoggerPlan.wanted).length).Nodup := List.nodup_range'
  rw [h.made.numbers]
  exact hrange.map fun n m hnm => congrArg AppenderId.index hnm

theorem Prepared.fresh (h : s.Prepared t plans prepared) {p : LoggerPlan × List AppenderId} (hp : p ∈ prepared) :
    ∀ a ∈ p.2, s.appenderAt? a = none := by
  intro a ha
  have hm : a ∈ prepared.flatMap Prod.snd := List.mem_flatMap.mpr ⟨p, hp, ha⟩
  rw [h.made.numbers] at hm
  obtain ⟨n, hn, rfl⟩ := List.mem_map.mp hm
  exact Array.getElem?_eq_none (List.mem_range'_1.mp hn).1

theorem Prepared.disjoint (h : s.Prepared t plans prepared) {p q : LoggerPlan × List AppenderId}
    (hp : p ∈ prepared) (hq : q ∈ prepared) (hne : p ≠ q) : p.2.Disjoint q.2 := by
  have hpairwise := (List.nodup_flatMap.mp h.nodup).2
  have : Std.Symm (Function.onFun List.Disjoint fun p : LoggerPlan × List AppenderId => p.2) :=
    ⟨fun _ _ hd _ hb ha => hd ha hb⟩
  exact hpairwise.forall hp hq hne

theorem Prepared.split (h : s.Prepared t plans prepared) {before after : List LoggerPlan} {plan : LoggerPlan}
    (hsplit : plans = before ++ plan :: after) : ∃ before' p after', prepared = before' ++ p :: after' ∧
      p.1 = plan ∧ after'.map Prod.fst = after := by
  have hmap := h.plans.trans hsplit
  obtain ⟨before', rest, rfl, -, hrest⟩ := List.map_eq_append_iff.mp hmap
  obtain ⟨p, after', rfl, hp, hafter⟩ := List.map_eq_cons_iff.mp hrest
  exact ⟨before', p, after', rfl, hp, hafter⟩

theorem Prepared.names (h : s.Prepared t plans prepared) :
    prepared.map (fun p => p.1.name) = plans.map LoggerPlan.name := by
  rw [← h.plans, List.map_map]
  rfl

/-- The last logger of a name has just the appenders that were made for it. -/
theorem Prepared.last (h : s.Prepared t plans prepared) (hi : t.Installed u i prepared)
    {before after : List (LoggerPlan × List AppenderId)} {p : LoggerPlan × List AppenderId}
    (hsplit : prepared = before ++ p :: after) (hafter : p.1.name ∉ after.map fun p => p.1.name) :
    p ∈ prepared ∧ ∃ l x, u.find? i p.1.name = some l ∧ u.loggerAt? l = some x ∧ x.level = p.1.level ∧
      x.appenders = p.2 := by
  have hp : p ∈ prepared := hsplit ▸ List.mem_append_right _ List.mem_cons_self
  obtain ⟨l, x, hl, hx, hlevel, hids⟩ := hi.last before p after hsplit fun q hq he =>
    hafter (List.mem_map.mpr ⟨q, hq, he⟩)
  have hnodup : p.2.Nodup := (List.nodup_flatMap.mp h.nodup).1 p hp
  exact ⟨hp, l, x, hl, hx, hlevel, hids.trans (eraseDups_of_nodup hnodup)⟩

theorem Prepared.distinct (h : s.Prepared t plans prepared) (hi : t.Installed u i prepared) {n m : String}
    (hn : n ∈ plans.map LoggerPlan.name) (hm : m ∈ plans.map LoggerPlan.name) (hne : n ≠ m) {l k : LoggerId}
    {x y : Logger} (hl : u.find? i n = some l) (hk : u.find? i m = some k) (hx : u.loggerAt? l = some x)
    (hy : u.loggerAt? k = some y) : x.appenders.Disjoint y.appenders := by
  rw [← h.names] at hn hm
  obtain ⟨before, p, after, hsplit, rfl, hafter⟩ := exists_last hn
  obtain ⟨before', q, after', hsplit', rfl, hafter'⟩ := exists_last hm
  obtain ⟨hp, l', x', hl', hx', -, hids⟩ := h.last hi hsplit hafter
  obtain ⟨hq, k', y', hk', hy', -, hids'⟩ := h.last hi hsplit' hafter'
  cases hl.symm.trans hl'
  cases hk.symm.trans hk'
  cases hx.symm.trans hx'
  cases hy.symm.trans hy'
  rw [hids, hids']
  exact h.disjoint hp hq fun he => hne (congrArg (fun p => p.1.name) he)

end

/-- A registry comes to know the names of what is installed, each once, and no others. -/
theorem Installed.names {ps : List (LoggerPlan × List AppenderId)} {r : Registry} (hr : s.registryAt? i = some r)
    (h : s.Installed u i ps) : ∃ r', u.registryAt? i = some r' ∧ r'.root = r.root ∧ r'.names.Nodup ∧
      ∀ n, n ∈ r'.names ↔ n ∈ r.names ∨ n ∈ ps.map fun p => p.1.name := by
  have hroot : s.find? i Registry.rootName = some r.root := (find?_of_registryAt? hr _).trans r.lookup_rootName
  obtain ⟨r', hr', hroot'⟩ := exists_registry_of_find? (h.kept _ _ hroot)
  rw [r'.lookup_rootName] at hroot'
  refine ⟨r', hr', Option.some.inj hroot', (h.sound.registry i r' hr').nodup_names, fun n => ?_⟩
  rw [Registry.mem_names_iff, Registry.mem_names_iff, ← find?_of_registryAt? hr, ← find?_of_registryAt? hr']
  by_cases hn : n ∈ ps.map fun p => p.1.name
  · obtain ⟨p, hp, rfl⟩ := List.mem_map.mp hn
    simp [hn, h.known p hp]
  · rw [h.others n fun p hp he => hn (List.mem_map.mpr ⟨p, hp, he⟩)]
    simp [hn]

theorem configured_of_prepared (hs : s.Sound) {r : Registry} (hr : s.registryAt? i = some r) {config : Config}
    {prepared : List (LoggerPlan × List AppenderId)} (h : s.Prepared t config.loggers prepared) :
    s.Configured (installAll i prepared t) i config := by
  have hsame := h.made.grows.same
  have hr' : t.registryAt? i = some r := (hsame.registryAt? i).trans hr
  have hi := installed_installAll (hs.of_sameLoggers hsame) hr' prepared
  have hfind : ∀ n, t.find? i n = s.find? i n := hsame.find? i
  have hnames := h.names
  generalize installAll i prepared t = u at hi
  have happenders : ∀ id, u.appenderAt? id = t.appenderAt? id := fun id => by
    rw [appenderAt?, appenderAt?, hi.appenders]
  have hstand : ∀ w id, t.Stands w id → u.Stands w id := by
    rintro w id ⟨a, ha, hid, hw⟩
    exact ⟨a, (happenders id).trans ha, hid, hw⟩
  refine ⟨fun id a ha => ?_, fun n l hl => ?_, fun n hn => ?_, fun l x hx hl => ?_,
    fun before plan after hsplit hafter => ?_, fun n hn m hm hne l k x y => h.distinct hi hn hm hne, ?_⟩
  · exact (happenders id).trans (h.made.grows.appenders id a ha)
  · exact hi.kept n l ((hfind n).trans hl)
  · refine (hi.others n fun p hp he => hn ?_).trans (hfind n)
    rw [← hnames]
    exact List.mem_map.mpr ⟨p, hp, he⟩
  · refine hi.frame l x ((hsame.loggerAt? l).trans hx) fun p hp he => ?_
    rw [hfind] at he
    exact hl p.1.name (hnames ▸ List.mem_map_of_mem hp) he
  · obtain ⟨before', p, after', hprepared, rfl, rfl⟩ := h.split hsplit
    rw [List.map_map] at hafter
    obtain ⟨hp, l, x, hl, hx, hlevel, hids⟩ := h.last hi hprepared hafter
    refine ⟨l, x, get_of_find? hl, hx, hlevel, ?_⟩
    rw [hids]
    exact ⟨(h.stand p hp).imp hstand, (List.nodup_flatMap.mp h.nodup).1 p hp, h.fresh hp⟩
  · obtain ⟨r', hr'', hroot, hnodup, hmem⟩ := hi.names hr'
    exact ⟨r, r', hr, hr'', hroot, hnodup, hnames ▸ hmem⟩

theorem configured_of_ok (hs : s.Sound) (hr : (s.registryAt? i).isSome) {config : Config}
    (hok : s.configure i config = (.ok (), u)) : s.Configured u i config := by
  obtain ⟨r, hr⟩ := Option.isSome_iff_exists.mp hr
  cases hv : config.validate with
  | error e =>
    rw [configure, hv] at hok
    cases hok
  | ok _ =>
    rcases s.configure_cases i hv with ⟨prepared, t, hprepared, hc⟩ | ⟨e, t, -, hc⟩
    · cases hc.symm.trans hok
      exact configured_of_prepared hs hr hprepared
    · cases hc.symm.trans hok

end Logline.System
