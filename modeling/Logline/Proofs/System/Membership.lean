import Mathlib.Data.List.Nodup
import Logline.Describe
import Logline.Proofs.Logger.OrderedSet
import Logline.Proofs.System.Every
import Logline.Proofs.System.Registration

/-!
# The appenders of a logger, in any history

Appenders are numbered as they are made, wherever that happens, so no two have the same number. A logger's
appenders are the ordered set that comes of all that has been asked of it: by its builder, by calls on it and
by configurations that one of its names stands in.
-/

namespace Logline.System

open Output Config Logger

variable {s t : System} {l : LoggerId} {x : Logger} {i : RegistryId}

/-! ## Numbers -/

theorem lasting_number : Lasting (fun a x => x.id = a) (fun _ => True) fun _ => True where
  log a x loggerName level e h hx := by
    obtain ⟨sink, hlog⟩ := x.log_eq loggerName level e h
    rw [hlog]
    exact hx
  reopen _ _ _ hx := hx
  flush _ _ _ hx := hx
  setLevel _ _ _ hx := hx
  setPattern _ _ _ hx := hx
  setFormatter _ _ _ _ hx := hx
  made _ _ _ _ _ _ := rfl
  console := trivial
  opened _ _ _ _ _ _ := trivial
  standard := trivial
  compiled _ _ _ := trivial

theorem ids_of_numbered (h : s.Each fun a x => x.id = a) :
    s.appenders.toList.map Appender.id = (List.range s.appenders.size).map AppenderId.mk := by
  refine List.ext_getElem (by simp) fun n hn _ => ?_
  have hlt : n < s.appenders.size := by simpa using hn
  simpa using h ⟨n⟩ s.appenders[n] (Array.getElem?_eq_getElem hlt)

theorem nodup_ids_of_numbered (h : s.Each fun a x => x.id = a) : (s.appenders.toList.map Appender.id).Nodup := by
  rw [ids_of_numbered h]
  exact List.nodup_range.map fun n m hnm => congrArg AppenderId.index hnm

/-- What a logger knows its appenders by are their numbers. -/
theorem ids_appendersOf (h : s.Each fun a x => x.id = a) (x : Logger) :
    (s.appendersOf x).map Appender.id = x.appenders.filter fun a => (s.appenderAt? a).isSome := by
  rw [appendersOf, List.map_filterMap, ← List.filterMap_eq_filter]
  refine List.filterMap_congr fun a _ => ?_
  cases ha : s.appenderAt? a with
  | none => simp [Option.guard, ha]
  | some y => simp [Option.guard, ha, h a y ha]

/-! ## What is asked of a logger -/

def Call.edits (l : LoggerId) : Call → List Edit
  | add k a => if k = l then [.add a] else []
  | remove k a => if k = l then [.remove a] else []
  | clear k => if k = l then [.clear] else []
  | set k as => if k = l then [.set as] else []
  | _ => []

/-- The appenders that were made for a logger, each time one of its names stands in a configuration. -/
def setsOf (s : System) (i : RegistryId) (l : LoggerId) (prepared : List (LoggerPlan × List AppenderId)) : List Edit :=
  prepared.filterMap fun p => if s.find? i p.1.name = some l then some (.set p.2) else none

def Action.edits (l : LoggerId) (s : System) : Action → List Edit
  | call c => c.edits l
  | configure i config =>
    match config.validate, (s.prepare config.loggers).1 with
    | .ok (), .ok prepared => s.setsOf i l prepared
    | _, _ => []
  | _ => []

def edits (l : LoggerId) : System → List Action → List Edit
  | _, [] => []
  | s, k :: ks => k.edits l s ++ edits l (k.perform s) ks

def Lists (s : System) (l : LoggerId) (set : OrderedSet AppenderId) : Prop :=
  ∃ x, s.loggerAt? l = some x ∧ x.appenders = set.toList

variable {set : OrderedSet AppenderId}

theorem Lists.of_loggerAt? (h : s.Lists l set) (heq : t.loggerAt? l = s.loggerAt? l) : t.Lists l set := by
  obtain ⟨x, hx, hset⟩ := h
  exact ⟨x, heq.trans hx, hset⟩

theorem Lists.modifyLogger (h : s.Lists l set) (k : LoggerId) {f : Logger → Logger} {es : List Edit}
    (hf : ∀ (x : Logger) set, x.appenders = set.toList → (f x).appenders = (edited es set).toList) :
    (s.modifyLogger k f).Lists l (edited (if k = l then es else []) set) := by
  obtain ⟨x, hx, hset⟩ := h
  by_cases hk : k = l
  · refine ⟨f x, ?_, ?_⟩
    · rw [loggerAt?_modifyLogger, if_pos hk.symm, hx]
      rfl
    · rw [if_pos hk]
      exact hf x set hset
  · rw [if_neg hk]
    exact ⟨x, by rw [loggerAt?_modifyLogger, if_neg (Ne.symm hk), hx], hset⟩

theorem Lists.apply (h : s.Lists l set) (c : Call) : (c.apply s).Lists l (edited (c.edits l) set) := by
  cases c with
  | log k level e => exact h.of_loggerAt? ((s.sameLoggers_log k level e).loggerAt? l)
  | setThreshold a level => exact h
  | setLevel k level =>
    have hlevel : (s.modifyLogger k (·.setLevel level)).Lists l (edited (if k = l then [] else []) set) :=
      h.modifyLogger k fun _ _ hset => hset
    rwa [ite_self] at hlevel
  | add k a => exact h.modifyLogger k fun _ _ hset => appenders_edit hset (.add a)
  | remove k a => exact h.modifyLogger k fun _ _ hset => appenders_edit hset (.remove a)
  | clear k => exact h.modifyLogger k fun _ _ hset => appenders_edit hset .clear
  | set k as => exact h.modifyLogger k fun _ _ hset => appenders_edit hset (.set as)

/-! ## Configurations -/

theorem Lists.install (hs : s.Sound) {r : Registry} (hr : s.registryAt? i = some r) (h : s.Lists l set)
    (plan : LoggerPlan) (ids : List AppenderId) :
    (s.install i plan ids).Lists l (edited (s.setsOf i l [(plan, ids)]) set) ∧
      ∀ name, (s.install i plan ids).find? i name = some l ↔ s.find? i name = some l := by
  obtain ⟨x, hx, hset⟩ := h
  obtain ⟨k, hinstalls⟩ := exists_installs hs hr plan ids
  -- a logger that there was is the one installed only if the name led to it
  have hname : k = l ↔ s.find? i plan.name = some l := by
    constructor
    · rintro rfl
      rcases hinstalls.before with hk | ⟨-, hk⟩
      · exact hk
      · cases hk.symm.trans hx
    · intro hl
      exact Option.some.inj (hinstalls.known.symm.trans (hinstalls.kept hl))
  refine ⟨?_, fun name => ⟨fun hl => ?_, hinstalls.kept⟩⟩
  · by_cases hk : k = l
    · obtain ⟨y, hy, -, happenders⟩ := hinstalls.logger
      simp only [setsOf, List.filterMap_cons, List.filterMap_nil, if_pos (hname.mp hk)]
      exact ⟨y, hk ▸ hy, happenders.trans (OrderedSet.toList_insertAll_empty ids).symm⟩
    · simp only [setsOf, List.filterMap_cons, List.filterMap_nil, if_neg (mt hname.mpr hk)]
      exact ⟨x, (hinstalls.loggers l (Ne.symm hk)).trans hx, hset⟩
  · by_cases hn : name = plan.name
    · rw [hn, hinstalls.known] at hl
      rw [hn]
      exact hname.mp (Option.some.inj hl)
    · rw [← hinstalls.names name hn, hl]

theorem Lists.installAll (hs : s.Sound) {r : Registry} (hr : s.registryAt? i = some r) (h : s.Lists l set)
    (ps : List (LoggerPlan × List AppenderId)) : (installAll i ps s).Lists l (edited (s.setsOf i l ps) set) := by
  induction ps generalizing s r set with
  | nil => exact h
  | cons p ps ih =>
    obtain ⟨hp, hfind⟩ := h.install hs hr p.1 p.2
    obtain ⟨k, hinstalls⟩ := exists_installs hs hr p.1 p.2
    obtain ⟨r', hr', -⟩ := exists_registry_of_find? hinstalls.known
    have hps := ih (hs.install i p.1 p.2) hr' hp
    have hsets : (s.install i p.1 p.2).setsOf i l ps = s.setsOf i l ps := by
      simp only [setsOf, hfind]
    rw [hsets, ← edited_append, setsOf, setsOf, ← List.filterMap_append] at hps
    exact hps

theorem Lists.configure (hs : s.Sound) (h : s.Lists l set) (i : RegistryId) (config : Config) :
    (s.configure i config).2.Lists l (edited ((Action.configure i config).edits l s) set) := by
  have hsame : s.SameLoggers (s.prepare config.loggers).2 :=
    prepare_of_makeAppender (fun t shared plan h => h.trans (t.sameLoggers_makeAppender shared plan)) (.refl s) _
  unfold System.configure Action.edits
  simp only
  cases config.validate with
  | error e => exact h
  | ok u =>
    generalize s.prepare config.loggers = made at hsame
    obtain ⟨r, t⟩ := made
    have ht : t.Lists l set := h.of_loggerAt? (hsame.loggerAt? l)
    cases r with
    | error e => exact ht
    | ok prepared =>
      show (System.installAll i prepared t).Lists l (edited (s.setsOf i l prepared) set)
      cases hr : t.registryAt? i with
      | none =>
        have hfind : ∀ name, s.find? i name = none := fun name => by
          rw [← hsame.find? i, System.find?, hr]
          rfl
        have hsets : s.setsOf i l prepared = [] := by simp [setsOf, hfind]
        rw [installAll_of_none hr, hsets]
        exact ht
      | some r =>
        have hsets : t.setsOf i l prepared = s.setsOf i l prepared := by simp only [setsOf, hsame.find?]
        rw [← hsets]
        exact ht.installAll (hs.of_sameLoggers hsame) hr prepared

/-! ## Any history -/

theorem Lists.perform (hs : s.Sound) (h : s.Lists l set) (k : Action) :
    (k.perform s).Lists l (edited (k.edits l s) set) := by
  cases k with
  | call c => exact h.apply c
  | configure i config => exact h.configure hs i config
  | _ =>
    obtain ⟨x, hx, hset⟩ := h
    exact ⟨x, loggerAt?_perform hs hx not_false, hset⟩

theorem Lists.run (hs : s.Sound) (h : s.Lists l set) (ks : List Action) :
    (s.run ks).Lists l (edited (edits l s ks) set) := by
  induction ks generalizing s set with
  | nil => exact h
  | cons k ks ih =>
    rw [edits, edited_append]
    exact ih (hs.perform k) (h.perform hs k)

/-- No two appenders that have been made anywhere have the same number. A logger that has been built, and then
used in any way, has the appenders of the ordered set to which the same has been done, each once; their number
is what is told of it. Giving it appenders all at once is giving them one by one to an empty logger. -/
theorem appenders_ordered (history : List Action) (host : Host) (name : String) (steps : List Builder.Step)
    (ks : List Action) :
    let built := (steps.foldl Builder.take { name }).build
    let s := ((after history host).addLogger built).2
    let l : LoggerId := ⟨(after history host).loggers.size⟩
    let u := s.run ks
    let set := edited (steps.flatMap Builder.Step.edits ++ edits l s ks) .empty
    (u.appenders.toList.map Appender.id).Nodup ∧
    (∃ x, u.loggerAt? l = some x ∧ x.appenders = set.toList ∧ x.appenders.Nodup ∧
      (u.appendersOf x).map Appender.id = set.toList.filter (fun a => (u.appenderAt? a).isSome) ∧
      x.description = described "Logger" [("name", Text.quoted x.name), ("level", x.level.description),
        ("appenders", Text.decimal set.toList.length)]) ∧
    (∀ (x : Logger) as, x.set as = as.foldl Logger.add x.clear) ∧
    ∀ name level as, Logger.build name level as = as.foldl Logger.add { name, level } := by
  intro built s l u set
  have hs : s.Sound := (sound_after history host).addLogger (Logger.nodup_set _ _)
  have hmade : s.Each fun a x => x.id = a :=
    ((each_empty host).run lasting_number history (fun _ _ _ _ => trivial) fun _ _ _ _ => trivial).of_appenders rfl
  have hnumbered : u.Each fun a x => x.id = a :=
    hmade.run lasting_number ks (fun _ _ _ _ => trivial) fun _ _ _ _ => trivial
  have hbuilt : s.Lists l (edited (steps.flatMap Builder.Step.edits) .empty) :=
    ⟨built, (loggerAt?_addLogger built).trans (if_pos rfl), Builder.appenders_build steps name⟩
  obtain ⟨x, hx, hset⟩ := hbuilt.run hs ks
  rw [← edited_append] at hset
  refine ⟨nodup_ids_of_numbered hnumbered, ⟨x, hx, hset, hset ▸ set.nodup, ?_, ?_⟩, Logger.set_eq_foldl_add, ?_⟩
  · rw [← hset]
    exact ids_appendersOf hnumbered x
  · rw [← hset]
    rfl
  · exact fun name level as => Logger.set_eq_foldl_add _ as

end Logline.System
