import Logline.Proofs.System.Membership

/-!
# Flushing a logger

The appenders of a logger are flushed in order, up to the first whose sink cannot be. Whether a sink can be
flushed does not depend on those flushed before it, so the outcome can be told from the state before. A flush
leaves nothing but its count.
-/

namespace Logline

open Output

/-! ## Sinks -/

namespace Sink

theorem File.flush_congr (f : File) (d d' : Disk) :
    (f.flush d).1 = (f.flush d').1 ∧ (f.flush d).2.1 = (f.flush d').2.1 := by
  obtain ⟨path, mode, writer⟩ := f
  cases writer with
  | none => exact ⟨rfl, rfl⟩
  | some w =>
    obtain ⟨r, b, c, hb, hc, hhandle, hpending⟩ := OpenFile.likeness_handle.streamFlush
      (b := ⟨⟨w.handle, d⟩, w.pending⟩) (c := ⟨⟨w.handle, d'⟩, w.pending⟩) ⟨rfl, rfl⟩
    simp only [File.flush, File.onWriter, FileWriter.onDisk, hb, hc, hhandle, hpending, and_self]

variable (x : Sink)

theorem flush_congr {h h' : Host} (hfails : ∀ o, (h'.outlet o).flushFails = (h.outlet o).flushFails) :
    (x.flush h').1 = (x.flush h).1 ∧ (x.flush h').2.1 = (x.flush h).2.1 := by
  cases x with
  | console c =>
    refine ⟨?_, rfl⟩
    show (if (h'.outlet c.outlet).flushFails then _ else _) = if (h.outlet c.outlet).flushFails then _ else _
    rw [hfails]
  | file f =>
    obtain ⟨hr, hs⟩ := f.flush_congr h'.disk h.disk
    exact ⟨hr, congrArg file hs⟩

/-- A flush is counted where the sink writes, if that is an outlet. -/
theorem outlet?_flush (h : Host) (o : Outlet) : (x.flush h).2.2.outlet? o =
    (h.outlet? o).map (·.flushed (if x.site = .outlet o then 1 else 0)) := by
  cases x with
  | console c =>
    show (h.setOutlet c.outlet ((h.outlet c.outlet).flushed 1)).outlet? o = _
    rw [Host.outlet?_setOutlet]
    by_cases ho : o = c.outlet
    · subst ho
      have hsite : (console c).site = .outlet c.outlet := rfl
      rw [if_pos rfl, if_pos hsite, h.outlet_eq]
      cases h.outlet? c.outlet <;> rfl
    · have hsite : (console c).site ≠ .outlet o := fun hs => ho (Site.outlet.inj hs).symm
      rw [if_neg ho, if_neg hsite]
      cases h.outlet? o <;> rfl
  | file f =>
    rw [if_neg (by nofun)]
    show ({ h with disk := (f.flush h.disk).2.2 } : Host).outlet? o = _
    cases o with
    | memory i =>
      show h.memories[i]? = h.memories[i]?.map _
      cases h.memories[i]? <;> rfl
    | _ => rfl

theorem flush_of_not_ready (hready : x.isReady = false) (h : Host) : (x.flush h).1 = .ok () := by
  cases x with
  | console c => cases hready
  | file f =>
    obtain ⟨path, mode, writer⟩ := f
    cases writer with
    | none => rfl
    | some w => cases hready

end Sink

namespace Appender

variable (x : Appender) (h : Host)

theorem fst_flush : (x.flush h).1 =
    (x.sink.flush h).1.mapError fun fault => .ioOperation "flushing log sink" ("appender " ++ x.label) fault := by
  simp only [flush]
  cases (x.sink.flush h).1 <;> rfl

end Appender

/-! ## Systems -/

namespace System

def Flushes (s : System) (a : AppenderId) : Prop :=
  ∀ y, s.appenderAt? a = some y → (y.sink.flush s.host).1 = .ok ()

theorem flushes_iff {s : System} {a : AppenderId} {y : Appender} (hy : s.appenderAt? a = some y) :
    s.Flushes a ↔ (y.sink.flush s.host).1 = .ok () := by
  refine ⟨fun h => h y hy, fun h z hz => ?_⟩
  obtain rfl := Option.some.inj (hy.symm.trans hz)
  exact h

def flushed (s : System) (as : List AppenderId) : System :=
  as.foldl (fun s a => (s.flushAppender a).2) s

theorem flushed_snoc (s : System) (as : List AppenderId) (a : AppenderId) :
    s.flushed (as ++ [a]) = ((s.flushed as).flushAppender a).2 :=
  List.foldl_concat ..

def consolesOn (s : System) (o : Outlet) (as : List AppenderId) : Nat :=
  as.countP fun a => (s.appenderAt? a).any fun y => y.sink.site = .outlet o

/-- Each of the appenders has been flushed once, and no other has. A sink is as its own flush leaves it, and an
outlet has been flushed once for each console among them. -/
structure FlushedOnce (s : System) (as : List AppenderId) (t : System) : Prop where
  run : t = s.flushed as
  nodup : as.Nodup
  loggers : s.SameLoggers t
  appender : ∀ b, t.appenderAt? b =
    (s.appenderAt? b).map fun y => if b ∈ as then { y with sink := (y.sink.flush s.host).2.1 } else y
  outlet : ∀ o, t.host.outlet? o = (s.host.outlet? o).map (·.flushed (s.consolesOn o as))

section
variable {s : System} {a : AppenderId} (o : Outlet) (as : List AppenderId)

theorem consolesOn_snoc_of_none (ha : s.appenderAt? a = none) : s.consolesOn o (as ++ [a]) = s.consolesOn o as := by
  rw [consolesOn, List.countP_append, List.countP_singleton, ha]
  rfl

theorem consolesOn_snoc_of_some {y : Appender} (ha : s.appenderAt? a = some y) :
    s.consolesOn o (as ++ [a]) = s.consolesOn o as + if y.sink.site = .outlet o then 1 else 0 := by
  rw [consolesOn, List.countP_append, List.countP_singleton, ha]
  simp only [Option.any_some, decide_eq_true_eq]
  rfl

end

namespace FlushedOnce

variable {s t : System} {as done : List AppenderId} {a : AppenderId}

theorem nil (s : System) : s.FlushedOnce [] s where
  run := rfl
  nodup := .nil
  loggers := .refl s
  appender b := by cases s.appenderAt? b <;> rfl
  outlet o := by cases s.host.outlet? o <;> rfl

theorem flushFails (h : s.FlushedOnce as t) (o : Outlet) :
    (t.host.outlet o).flushFails = (s.host.outlet o).flushFails := by
  rw [t.host.outlet_eq, s.host.outlet_eq, h.outlet]
  cases s.host.outlet? o <;> rfl

section
variable (h : s.FlushedOnce done t) (ha : a ∉ done)
include h ha

theorem appenderAt?_of_notMem : t.appenderAt? a = s.appenderAt? a := by
  rw [h.appender]
  cases s.appenderAt? a with
  | none => rfl
  | some y => rw [Option.map_some, if_neg ha]

theorem nodup_snoc : (done ++ [a]).Nodup := by
  rw [← List.concat_eq_append]
  exact List.Nodup.concat ha h.nodup

theorem snoc_of_none (hnone : s.appenderAt? a = none) :
    t.flushAppender a = (.ok (), t) ∧ s.FlushedOnce (done ++ [a]) t := by
  have hstill : t.flushAppender a = (.ok (), t) := by
    rw [System.flushAppender, h.appenderAt?_of_notMem ha, hnone]
  refine ⟨hstill, ⟨?_, h.nodup_snoc ha, h.loggers, fun b => ?_, fun o => ?_⟩⟩
  · rw [flushed_snoc, ← h.run, hstill]
  · rw [h.appender]
    by_cases hb : b = a
    · rw [hb, hnone]
      rfl
    · simp only [List.mem_append, List.mem_singleton, hb, or_false]
  · rw [h.outlet, consolesOn_snoc_of_none o done hnone]

/-- It is flushed as it would have been in the beginning. -/
theorem snoc_of_some {y : Appender} (hy : s.appenderAt? a = some y) :
    (t.flushAppender a).1 = (y.flush s.host).1 ∧ s.FlushedOnce (done ++ [a]) (t.flushAppender a).2 := by
  have hturn := (h.appenderAt?_of_notMem ha).trans hy
  obtain ⟨hr, hsink⟩ := y.sink.flush_congr h.flushFails
  refine ⟨?_, ⟨?_, h.nodup_snoc ha, h.loggers.trans (t.sameLoggers_flushAppender a), fun b => ?_, fun o => ?_⟩⟩
  · rw [System.flushAppender, hturn]
    show (y.flush t.host).1 = _
    rw [y.fst_flush, y.fst_flush, hr]
  · rw [flushed_snoc, ← h.run]
  · rw [flushAppender_eq_touch, appenderAt?_touch _ hturn]
    by_cases hb : b = a
    · rw [if_pos hb, hb, hy, Option.map_some, if_pos (by simp), ← hsink]
      rfl
    · rw [if_neg hb, h.appender]
      simp only [List.mem_append, List.mem_singleton, hb, or_false]
  · rw [flushAppender_eq_touch, touch_of_appenderAt? _ hturn]
    show (y.sink.flush t.host).2.2.outlet? o = _
    rw [Sink.outlet?_flush, h.outlet, Option.map_map, consolesOn_snoc_of_some o done hy]
    exact congrArg (Option.map · _) (funext fun m => m.flushed_flushed ..)

end

/-- Apart from what their sinks had pending, appenders are as they were, and nothing has been written to an outlet. -/
theorem unchanged (h : s.FlushedOnce as t) :
    (∀ b y, s.appenderAt? b = some y → ∃ sink, t.appenderAt? b = some { y with sink }) ∧
    ∀ o, (t.host.outlet? o).map Memory.content = (s.host.outlet? o).map Memory.content := by
  refine ⟨fun b y hy => ?_, fun o => ?_⟩
  · rw [h.appender, hy, Option.map_some]
    split
    · exact ⟨_, rfl⟩
    · exact ⟨y.sink, rfl⟩
  · rw [h.outlet, Option.map_map]
    rfl

end FlushedOnce

structure StopsAt (s : System) (as before : List AppenderId) (a : AppenderId) (y : Appender) (fault : Fault) :
    Prop where
  split : ∃ rest, as = before ++ a :: rest
  before : ∀ b ∈ before, s.Flushes b
  appender : s.appenderAt? a = some y
  refused : (y.sink.flush s.host).1 = .error fault

section
variable {s t : System} {done as before : List AppenderId} {a : AppenderId} {y : Appender} {fault : Fault}

theorem StopsAt.cons (h : s.StopsAt as before a y fault) {b : AppenderId} (hb : s.Flushes b) :
    s.StopsAt (b :: as) (b :: before) a y fault where
  split := h.split.imp fun _ hsplit => by rw [hsplit, List.cons_append]
  before := List.forall_mem_cons.mpr ⟨hb, h.before⟩
  appender := h.appender
  refused := h.refused

theorem StopsAt.not_flushes (h : s.StopsAt as before a y fault) : ¬ ∀ b ∈ as, s.Flushes b := by
  intro hall
  obtain ⟨rest, rfl⟩ := h.split
  have hok := (flushes_iff h.appender).mp (hall a (by simp))
  rw [h.refused] at hok
  cases hok

theorem FlushedOnce.flushAppender_cases (h : s.FlushedOnce done t) (ha : a ∉ done) :
    (s.Flushes a ∧ ∃ u, t.flushAppender a = (.ok (), u) ∧ s.FlushedOnce (done ++ [a]) u) ∨
    ∃ y fault u, s.appenderAt? a = some y ∧ (y.sink.flush s.host).1 = .error fault ∧
      t.flushAppender a = (.error (.ioOperation "flushing log sink" ("appender " ++ y.label) fault), u) ∧
      s.FlushedOnce (done ++ [a]) u := by
  cases hy : s.appenderAt? a with
  | none =>
    obtain ⟨hstill, honce⟩ := h.snoc_of_none ha hy
    exact .inl ⟨fun y hy' => (by rw [hy] at hy'; cases hy'), t, hstill, honce⟩
  | some y =>
    obtain ⟨hr, honce⟩ := h.snoc_of_some ha hy
    rw [y.fst_flush] at hr
    cases hflush : (y.sink.flush s.host).1 with
    | ok u => exact .inl ⟨(flushes_iff hy).mpr hflush, _, Prod.ext (by rw [hr, hflush]; rfl) rfl, honce⟩
    | error fault => exact .inr ⟨y, fault, _, rfl, hflush, Prod.ext (by rw [hr, hflush]; rfl) rfl, honce⟩

/-- With some appenders flushed already, and others to come: all of these are flushed, or those up to the first
whose sink cannot be. -/
theorem FlushedOnce.flushAll_cases (h : s.FlushedOnce done t) (hn : (done ++ as).Nodup) :
    ((∀ a ∈ as, s.Flushes a) ∧ ∃ u, t.flushAll as = (.ok (), u) ∧ s.FlushedOnce (done ++ as) u) ∨
    ∃ before a y fault u, s.StopsAt as before a y fault ∧
      t.flushAll as = (.error (.ioOperation "flushing log sink" ("appender " ++ y.label) fault), u) ∧
      s.FlushedOnce (done ++ (before ++ [a])) u := by
  induction as generalizing t done with
  | nil => exact .inl ⟨by simp, t, rfl, by rwa [List.append_nil]⟩
  | cons a as ih =>
    have ha : a ∉ done := fun hm => (List.nodup_append.mp hn).2.2 a hm a List.mem_cons_self rfl
    rcases h.flushAppender_cases ha with ⟨hflushes, u, hu, honce⟩ | ⟨y, fault, u, hy, hfault, hu, honce⟩
    · have hrest : t.flushAll (a :: as) = u.flushAll as := by rw [flushAll, hu]
      rw [List.append_cons] at hn ⊢
      rw [hrest]
      rcases ih honce hn with ⟨hall, v, hv, hlast⟩ | ⟨before, b, y, fault, v, hstops, hv, hlast⟩
      · exact .inl ⟨List.forall_mem_cons.mpr ⟨hflushes, hall⟩, v, hv, hlast⟩
      · exact .inr ⟨a :: before, b, y, fault, v, hstops.cons hflushes, hv, by simpa using hlast⟩
    · refine .inr ⟨[], a, y, fault, u, ⟨⟨as, rfl⟩, by simp, hy, hfault⟩, ?_, honce⟩
      rw [flushAll, hu]

end

end System

end Logline
