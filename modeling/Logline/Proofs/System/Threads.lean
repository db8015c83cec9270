import Mathlib
import Logline.Proofs.Appender.Ledger
import Logline.Proofs.System.Routing

/-!
# Threads that share a logger

Each thread logs its own events, and hands an event to one appender after the other. Threads take turns in
any order, so that events reach different appenders in different orders. A thread ends with a call that is cut
short. If every appender has a memory of its own, none is; what an appender counts does then not depend on the
order of turns, and what it writes only in its order.
-/

namespace Logline.System

open Output

/-! ## Steps -/

structure Turn where
  appender : AppenderId
  level : Level
  event : Event

/-- The events a thread has still to log, and what is left to do for the one it is at. -/
structure Thread where
  todo : List (Level × Event)
  turns : List Turn := []

def turnsOf (x : Logger) (p : Level × Event) : List Turn :=
  if x.enabled p.1 then x.appenders.map (⟨·, p.1, p.2⟩) else []

/-- A thread makes its next call of an appender, or begins its next event. A call that is cut short is its last. -/
def Thread.step (l : LoggerId) (t : Thread) (s : System) : Thread × System :=
  match s.loggerAt? l, t with
  | some x, ⟨todo, turn :: rest⟩ =>
    match s.deliver x.name turn.level turn.event turn.appender with
    | (.ok (), s) => (⟨todo, rest⟩, s)
    | (.error _, s) => (⟨[], []⟩, s)
  | some x, ⟨p :: todo, []⟩ => (⟨todo, turnsOf x p⟩, s)
  | _, t => (t, s)

variable {ι : Type} [DecidableEq ι]

def interleave (l : LoggerId) : List ι → (ι → Thread) → System → (ι → Thread) × System
  | [], ts, s => (ts, s)
  | i :: schedule, ts, s =>
    let (t, s) := (ts i).step l s
    interleave l schedule (Function.update ts i t) s

def Thread.Finished (t : Thread) : Prop :=
  t.todo = [] ∧ t.turns = []

instance (t : Thread) : Decidable t.Finished :=
  inferInstanceAs (Decidable (t.todo = [] ∧ t.turns = []))

def takes (s : System) (name : String) (ts : List Turn) : System :=
  ts.foldl (fun s t => (s.deliver name t.level t.event t.appender).2) s

section
variable {s : System} {l : LoggerId} {x : Logger} {todo : List (Level × Event)} {turn : Turn} {rest : List Turn}

theorem step_of_ok (hx : s.loggerAt? l = some x)
    (h : (s.deliver x.name turn.level turn.event turn.appender).1 = .ok ()) :
    Thread.step l ⟨todo, turn :: rest⟩ s = (⟨todo, rest⟩, (s.deliver x.name turn.level turn.event turn.appender).2) := by
  have hpair : s.deliver x.name turn.level turn.event turn.appender =
      (.ok (), (s.deliver x.name turn.level turn.event turn.appender).2) := Prod.ext h rfl
  simp only [Thread.step, hx]
  rw [hpair]

theorem step_of_error (hx : s.loggerAt? l = some x) {fault : Fault}
    (h : (s.deliver x.name turn.level turn.event turn.appender).1 = .error fault) :
    Thread.step l ⟨todo, turn :: rest⟩ s = (⟨[], []⟩, (s.deliver x.name turn.level turn.event turn.appender).2) := by
  have hpair : s.deliver x.name turn.level turn.event turn.appender =
      (.error fault, (s.deliver x.name turn.level turn.event turn.appender).2) := Prod.ext h rfl
  simp only [Thread.step, hx]
  rw [hpair]

theorem step_of_no_turns (hx : s.loggerAt? l = some x) (p : Level × Event) :
    Thread.step l ⟨p :: todo, []⟩ s = (⟨todo, turnsOf x p⟩, s) := by
  simp only [Thread.step, hx]

theorem step_of_finished : Thread.step l ⟨[], []⟩ s = (⟨[], []⟩, s) := by
  unfold Thread.step
  cases s.loggerAt? l <;> rfl

end

theorem sameLoggers_step {l : LoggerId} (t : Thread) (s : System) : s.SameLoggers (t.step l s).2 := by
  unfold Thread.step
  split
  · split
    · next hd => exact (congrArg (s.SameLoggers ·.2) hd).mp (s.sameLoggers_deliver ..)
    · next hd => exact (congrArg (s.SameLoggers ·.2) hd).mp (s.sameLoggers_deliver ..)
  · exact .refl s
  · exact .refl s

theorem appender_mem_of_turnsOf {x : Logger} {p : Level × Event} {t : Turn} (h : t ∈ turnsOf x p) :
    t.appender ∈ x.appenders := by
  unfold turnsOf at h
  split at h
  · obtain ⟨a, ha, rfl⟩ := List.mem_map.mp h
    exact ha
  · cases h

/-! ## The order of turns -/

def share {β : Type} (i : ι) (order : List (ι × β)) : List β :=
  (order.filter (·.1 = i)).map Prod.snd

def Thread.work (x : Logger) (t : Thread) : List Turn :=
  t.turns ++ t.todo.flatMap (turnsOf x)

theorem Thread.Finished.work {t : Thread} (h : t.Finished) (x : Logger) : t.work x = [] := by
  rw [Thread.work, h.1, h.2]
  rfl

section
variable {β : Type} {i j : ι} {order : List (ι × β)}

theorem share_cons_self (b : β) : share i ((i, b) :: order) = b :: share i order := by
  simp [share]

theorem share_cons_of_ne (h : i ≠ j) (b : β) : share j ((i, b) :: order) = share j order := by
  simp [share, h]

theorem share_filter (p : β → Bool) : share i (order.filter fun q => p q.2) = (share i order).filter p := by
  rw [share, share, List.filter_map, List.filter_filter, List.filter_filter]
  congr 2
  funext q
  exact Bool.and_comm _ _

theorem share_map {γ : Type} (f : β → γ) : share i (order.map fun q => (q.1, f q.2)) = (share i order).map f := by
  rw [share, share, List.filter_map, List.map_map, List.map_map]
  rfl

theorem perm_of_share {order' : List (ι × β)} (h : ∀ i, share i order = share i order') : order.Perm order' := by
  classical
  -- a member is counted among those of its own thread
  have hcount : ∀ (o : List (ι × β)) (i : ι) (b : β), o.count (i, b) = (share i o).count b := by
    intro o i b
    induction o with
    | nil => rfl
    | cons p o ih =>
      obtain ⟨j, c⟩ := p
      by_cases hj : j = i
      · subst hj
        rw [share_cons_self, List.count_cons, List.count_cons, ih]
        simp
      · rw [share_cons_of_ne hj, List.count_cons, ih]
        simp [hj]
  rw [List.perm_iff_count]
  intro p
  rw [hcount, hcount, h]

end

/-! ## One thread alone -/

def logAll (s : System) (l : LoggerId) : List (Level × Event) → System
  | [] => s
  | p :: ps =>
    match s.log l p.1 p.2 with
    | (.ok (), s) => s.logAll l ps
    | (.error _, s) => s

/-- Makes calls of appenders, and then logs events; the first call that is cut short is the last. -/
def carryOn (s : System) (l : LoggerId) (name : String) (todo : List (Level × Event)) : List Turn → System
  | [] => s.logAll l todo
  | t :: ts =>
    match s.deliver name t.level t.event t.appender with
    | (.ok (), s) => s.carryOn l name todo ts
    | (.error _, s) => s

section
variable {s : System} {l : LoggerId} {x : Logger} {name : String} {turn : Turn}

theorem carryOn_cons_of_ok (h : (s.deliver name turn.level turn.event turn.appender).1 = .ok ())
    (todo : List (Level × Event)) (rest : List Turn) : s.carryOn l name todo (turn :: rest) =
      (s.deliver name turn.level turn.event turn.appender).2.carryOn l name todo rest := by
  have hpair : s.deliver name turn.level turn.event turn.appender =
      (.ok (), (s.deliver name turn.level turn.event turn.appender).2) := Prod.ext h rfl
  rw [carryOn, hpair]

theorem carryOn_cons_of_error {fault : Fault} (h : (s.deliver name turn.level turn.event turn.appender).1 = .error fault)
    (todo : List (Level × Event)) (rest : List Turn) :
    s.carryOn l name todo (turn :: rest) = (s.deliver name turn.level turn.event turn.appender).2 := by
  have hpair : s.deliver name turn.level turn.event turn.appender =
      (.error fault, (s.deliver name turn.level turn.event turn.appender).2) := Prod.ext h rfl
  rw [carryOn, hpair]

theorem carryOn_map (name : String) (todo : List (Level × Event)) (level : Level) (e : Event) (as : List AppenderId) :
    s.carryOn l name todo (as.map (⟨·, level, e⟩)) = match s.deliverAll name level e as with
      | (.ok (), t) => t.logAll l todo
      | (.error _, t) => t := by
  induction as generalizing s with
  | nil => rfl
  | cons a as ih =>
    rw [List.map_cons, carryOn, deliverAll]
    split <;> simp only [*]

theorem logAll_cons (hx : s.loggerAt? l = some x) (p : Level × Event) (ps : List (Level × Event)) :
    s.logAll l (p :: ps) = s.carryOn l x.name ps (turnsOf x p) := by
  by_cases he : x.enabled p.1 = true
  · rw [turnsOf, if_pos he, carryOn_map, logAll, log_eq_deliverAll hx he]
  · simp only [turnsOf, if_neg he, logAll, log, hx, carryOn]

/-- A thread that is alone makes the calls it has begun and logs its events one after the other. -/
theorem interleave_alone (hx : s.loggerAt? l = some x) (t : Thread) (schedule : List Unit)
    (h : ((interleave l schedule (fun _ => t) s).1 ()).Finished) :
    (interleave l schedule (fun _ => t) s).2 = s.carryOn l x.name t.todo t.turns := by
  induction schedule generalizing s t with
  | nil =>
    obtain ⟨htodo, hturns⟩ : t.todo = [] ∧ t.turns = [] := h
    rw [htodo, hturns]
    rfl
  | cons i schedule ih =>
    have hupdate : ∀ u : Thread, Function.update (fun _ : Unit => t) i u = fun _ => u := fun u => funext fun _ => rfl
    simp only [interleave, hupdate] at h ⊢
    have hx' : (t.step l s).2.loggerAt? l = some x := ((sameLoggers_step t s).loggerAt? l).trans hx
    rw [ih hx' _ h]
    clear ih h hupdate
    match t with
    | ⟨todo, turn :: rest⟩ =>
      cases hr : (s.deliver x.name turn.level turn.event turn.appender).1 with
      | ok u =>
        rw [step_of_ok hx hr, carryOn_cons_of_ok hr]
      | error fault =>
        rw [step_of_error hx hr, carryOn_cons_of_error hr]
        rfl
    | ⟨p :: todo, []⟩ =>
      rw [step_of_no_turns hx]
      exact (logAll_cons hx p todo).symm
    | ⟨[], []⟩ => rw [step_of_finished]

end

/-! ## Every run can be brought to its end -/

section
variable {s : System} {l : LoggerId} {x : Logger}

theorem interleave_append (first second : List ι) (ts : ι → Thread) (s : System) :
    interleave l (first ++ second) ts s =
      interleave l second (interleave l first ts s).1 (interleave l first ts s).2 := by
  induction first generalizing ts s with
  | nil => rfl
  | cons i first ih => exact ih _ _

theorem sameLoggers_interleave (schedule : List ι) (ts : ι → Thread) (s : System) :
    s.SameLoggers (interleave l schedule ts s).2 := by
  induction schedule generalizing ts s with
  | nil => exact .refl s
  | cons i schedule ih => exact (sameLoggers_step (ts i) s).trans (ih _ _)

theorem interleave_of_notMem {schedule : List ι} {i : ι} (h : i ∉ schedule) (ts : ι → Thread) (s : System) :
    (interleave l schedule ts s).1 i = ts i := by
  induction schedule generalizing ts s with
  | nil => rfl
  | cons j schedule ih =>
    obtain ⟨hj, hschedule⟩ := not_or.mp (mt List.mem_cons.mpr h)
    exact (ih hschedule _ _).trans (Function.update_of_ne hj _ _)

def Thread.size (x : Logger) (t : Thread) : Nat :=
  t.todo.length + (t.work x).length

theorem size_step (hx : s.loggerAt? l = some x) {t : Thread} {n : Nat} (h : t.size x ≤ n + 1) :
    (t.step l s).1.size x ≤ n := by
  match t with
  | ⟨todo, turn :: rest⟩ =>
    simp only [Thread.size, Thread.work, List.cons_append, List.length_cons] at h
    cases hr : (s.deliver x.name turn.level turn.event turn.appender).1 with
    | ok u =>
      rw [step_of_ok hx hr]
      simp only [Thread.size, Thread.work]
      omega
    | error fault =>
      rw [step_of_error hx hr]
      exact Nat.zero_le n
  | ⟨p :: todo, []⟩ =>
    simp only [Thread.size, Thread.work, List.nil_append, List.length_cons, List.flatMap_cons] at h
    rw [step_of_no_turns hx]
    simp only [Thread.size, Thread.work]
    omega
  | ⟨[], []⟩ =>
    rw [step_of_finished]
    exact Nat.zero_le n

theorem finished_of_size {t : Thread} (h : t.size x = 0) : t.Finished := by
  obtain ⟨htodo, hwork⟩ := Nat.add_eq_zero_iff.mp h
  exact ⟨List.length_eq_zero_iff.mp htodo, (List.append_eq_nil_iff.mp (List.length_eq_zero_iff.mp hwork)).1⟩

theorem finished_replicate (hx : s.loggerAt? l = some x) (i : ι) {n : Nat} (ts : ι → Thread)
    (h : (ts i).size x ≤ n) : ((interleave l (List.replicate n i) ts s).1 i).Finished := by
  induction n generalizing ts s with
  | zero => exact finished_of_size (Nat.le_zero.mp h)
  | succ n ih =>
    have hx' : ((ts i).step l s).2.loggerAt? l = some x := ((sameLoggers_step (ts i) s).loggerAt? l).trans hx
    apply ih hx'
    rw [Function.update_self]
    exact size_step hx h

/-- Whatever some threads have to log, there is an order of turns in which they finish. -/
theorem exists_schedule [Finite ι] (hx : s.loggerAt? l = some x) (ts : ι → Thread) :
    ∃ schedule, ∀ i, ((interleave l schedule ts s).1 i).Finished := by
  -- each thread in turn takes all the steps it has left
  have hlist : ∀ is : List ι, is.Nodup → ∃ schedule, ∀ i ∈ is, ((interleave l schedule ts s).1 i).Finished := by
    intro is
    induction is with
    | nil => exact fun _ => ⟨[], nofun⟩
    | cons i is ih =>
      intro hnodup
      obtain ⟨hi, his⟩ := List.nodup_cons.mp hnodup
      obtain ⟨schedule, hschedule⟩ := ih his
      have hx' : (interleave l schedule ts s).2.loggerAt? l = some x :=
        ((sameLoggers_interleave schedule ts s).loggerAt? l).trans hx
      let n := ((interleave l schedule ts s).1 i).size x
      refine ⟨schedule ++ List.replicate n i, List.forall_mem_cons.mpr ⟨?_, fun j hj => ?_⟩⟩
      · rw [interleave_append]
        exact finished_replicate hx' i _ (Nat.le_refl n)
      · have hne : j ∉ List.replicate n i := by
          intro hm
          exact hi (List.eq_of_mem_replicate hm ▸ hj)
        rw [interleave_append, interleave_of_notMem hne]
        exact hschedule j hj
  have := Fintype.ofFinite ι
  obtain ⟨schedule, h⟩ := hlist Finset.univ.toList (Finset.nodup_toList _)
  exact ⟨schedule, fun i => h i (Finset.mem_toList.mpr (Finset.mem_univ i))⟩

end

/-! ## Appenders with memories of their own -/

structure Steady (s : System) (w : Nat) (a : AppenderId) (y : Appender) (c : Sink.Console) (m : Memory) : Prop where
  appender : s.appenderAt? a = some y
  sink : y.sink = .console c
  outlet : c.outlet = .memory w
  memory : s.host.memories[w]? = some m
  limit : m.limit = none
  flush : m.flushFails = false

def rendering (y : Appender) (c : Sink.Console) (ansi : Bool) (loggerName : String) (p : Level × Event) : ByteArray :=
  (String.join (c.pieces ansi y.formatter loggerName p.1 p.2)).toUTF8

def verdict (y : Appender) (p : Level × Event) : Fate :=
  if p.1 < y.level then .filtered else .written

section
variable {s : System} {w : Nat} {a : AppenderId} {y : Appender} {c : Sink.Console} {m : Memory}

theorem Steady.outlet_eq (h : s.Steady w a y c m) : s.host.outlet c.outlet = m := by
  rw [h.outlet]
  simp [Host.outlet, h.memory]

def filled (y : Appender) (c : Sink.Console) (ansi : Bool) (loggerName : String) (m : Memory)
    (ps : List (Level × Event)) : Memory :=
  let passed := ps.filter (y.level ≤ ·.1)
  (m.taking (joined (passed.map (rendering y c ansi loggerName)))).flushed passed.length

theorem Steady.log (h : s.Steady w a y c m) (loggerName : String) (p : Level × Event) :
    y.log loggerName p.1 p.2 s.host = (.ok (), y.record (verdict y p),
      if p.1 < y.level then s.host
      else s.host.setOutlet c.outlet (filled y c s.host.ansi loggerName m [p])) := by
  by_cases hl : p.1 < y.level
  · rw [Appender.log_of_lt hl, verdict, if_pos hl, if_pos hl]
  · have hdeliver : Output.deliver ((c.pieces s.host.ansi y.formatter loggerName p.1 p.2).map String.toUTF8) m =
        (.ok (), filled y c s.host.ansi loggerName m [p]) := by
      have hleft : m.left = none := by rw [Memory.left, h.limit]; rfl
      have hle : y.level ≤ p.1 := Level.not_lt.mp hl
      rw [Memory.deliver_eq, hleft, joined_toUTF8]
      simp [fitting, h.flush, filled, rendering, hle]
    have hy : { y with sink := .console c } = y := by rw [← h.sink]
    rw [Appender.log, if_neg hl, h.sink, if_pos (show (Sink.console c).isReady = true from rfl), if_neg hl, verdict,
      if_neg hl]
    simp only [Sink.write, Sink.Console.write, Host.onOutlet, h.outlet_eq, hdeliver, hy]

theorem filled_of_lt {p : Level × Event} (hl : p.1 < y.level) (ansi : Bool) (loggerName : String) :
    filled y c ansi loggerName m [p] = m := by
  have hle : ¬ y.level ≤ p.1 := Level.not_le.mpr hl
  simp [filled, hle, Memory.taking, Memory.flushed]

theorem filled_cons (p : Level × Event) (ps : List (Level × Event)) (ansi : Bool) (loggerName : String) :
    filled y c ansi loggerName m (p :: ps) =
      filled y c ansi loggerName (filled y c ansi loggerName m [p]) ps := by
  by_cases hle : y.level ≤ p.1
  · simp [filled, hle, Memory.taking, Memory.flushed, ByteArray.append_assoc, Nat.add_assoc, Nat.add_comm]
  · rw [filled_of_lt (Level.not_le.mp hle)]
    simp [filled, hle]

theorem Steady.memories (h : s.Steady w a y c m) (loggerName : String) (p : Level × Event) (v : Nat) :
    (y.log loggerName p.1 p.2 s.host).2.2.memories[v]? =
      if v = w then some (filled y c s.host.ansi loggerName m [p]) else s.host.memories[v]? := by
  have hw : w < s.host.memories.size := (Array.getElem?_eq_some_iff.mp h.memory).1
  rw [h.log]
  by_cases hl : p.1 < y.level
  · rw [if_pos hl, filled_of_lt hl, ← h.memory]
    split
    · next hv => rw [hv]
    · rfl
  · rw [if_neg hl, h.outlet]
    by_cases hv : v = w
    · subst hv
      simp [Host.setOutlet, hw]
    · simp [Host.setOutlet, hv, Array.getElem?_setIfInBounds_ne (Ne.symm hv)]

theorem Steady.ansi (h : s.Steady w a y c m) (loggerName : String) (p : Level × Event) :
    (s.deliver loggerName p.1 p.2 a).2.host.ansi = s.host.ansi := by
  rw [deliver_of_appenderAt? h.appender, h.log, h.outlet]
  show (if p.1 < y.level then s.host else _).ansi = _
  split <;> rfl

theorem Steady.deliver (h : s.Steady w a y c m) (loggerName : String) (p : Level × Event) :
    (s.deliver loggerName p.1 p.2 a).2.Steady w a (y.record (verdict y p)) c
      (filled y c s.host.ansi loggerName m [p]) where
  appender := by rw [appenderAt?_deliver h.appender, h.log]
  sink := h.sink
  outlet := h.outlet
  memory := by
    rw [deliver_of_appenderAt? h.appender]
    exact (h.memories loggerName p w).trans (if_pos rfl)
  limit := h.limit
  flush := h.flush

theorem Steady.deliver_other {v : Nat} {b : AppenderId} {z : Appender} {d : Sink.Console} {n : Memory}
    (hb : s.Steady v b z d n) (h : s.Steady w a y c m) (hne : b ≠ a) (hv : v ≠ w) (loggerName : String)
    (p : Level × Event) : (s.deliver loggerName p.1 p.2 a).2.Steady v b z d n where
  appender := (appenderAt?_deliver_of_ne hne).trans hb.appender
  sink := hb.sink
  outlet := hb.outlet
  memory := by
    rw [deliver_of_appenderAt? h.appender]
    exact ((h.memories loggerName p v).trans (if_neg hv)).trans hb.memory
  limit := hb.limit
  flush := hb.flush

end

def heard (a : AppenderId) (ts : List Turn) : List (Level × Event) :=
  (ts.filter (·.appender = a)).map fun t => (t.level, t.event)

def recorded (y : Appender) (ps : List (Level × Event)) : Appender :=
  { y with metrics := ps.foldl (fun m p => m.record (verdict y p)) y.metrics }

section
variable {memory : AppenderId → Nat} {as : List AppenderId}

structure OwnMemories (s : System) (memory : AppenderId → Nat) (as : List AppenderId) : Prop where
  steady : ∀ a ∈ as, ∃ y c m, s.Steady (memory a) a y c m
  apart : ∀ a ∈ as, ∀ b ∈ as, memory a = memory b → a = b

theorem OwnMemories.deliver {s : System} (h : s.OwnMemories memory as) {a : AppenderId} (ha : a ∈ as)
    (loggerName : String) (p : Level × Event) : (s.deliver loggerName p.1 p.2 a).2.OwnMemories memory as := by
  obtain ⟨y, c, m, hy⟩ := h.steady a ha
  refine ⟨fun b hb => ?_, h.apart⟩
  by_cases hba : b = a
  · subst hba
    exact ⟨_, _, _, hy.deliver loggerName p⟩
  · obtain ⟨z, d, n, hz⟩ := h.steady b hb
    exact ⟨z, d, n, hz.deliver_other hy hba (mt (h.apart b hb a ha) hba) loggerName p⟩

theorem OwnMemories.returns {s : System} (h : s.OwnMemories memory as) {a : AppenderId} (ha : a ∈ as)
    (loggerName : String) (p : Level × Event) : (s.deliver loggerName p.1 p.2 a).1 = .ok () := by
  obtain ⟨y, c, m, hy⟩ := h.steady a ha
  rw [deliver_of_appenderAt? hy.appender, hy.log]

theorem steady_takes {s : System} (h : s.OwnMemories memory as) {ts : List Turn} (hts : ∀ t ∈ ts, t.appender ∈ as)
    {a : AppenderId} (ha : a ∈ as) {y : Appender} {c : Sink.Console} {m : Memory}
    (hs : s.Steady (memory a) a y c m) (loggerName : String) :
    (s.takes loggerName ts).Steady (memory a) a (recorded y (heard a ts)) c
      (filled y c s.host.ansi loggerName m (heard a ts)) := by
  induction ts generalizing s y m with
  | nil =>
    have hm : filled y c s.host.ansi loggerName m [] = m := by simp [filled, Memory.taking, Memory.flushed]
    show s.Steady (memory a) a y c (filled y c s.host.ansi loggerName m [])
    rw [hm]
    exact hs
  | cons t ts ih =>
    obtain ⟨ht, hts⟩ := List.forall_mem_cons.mp hts
    have hown := h.deliver ht loggerName (t.level, t.event)
    obtain ⟨z, d, n, hz⟩ := h.steady _ ht
    have hansi := hz.ansi loggerName (t.level, t.event)
    by_cases hta : t.appender = a
    · have hheard : heard a (t :: ts) = (t.level, t.event) :: heard a ts := by simp [heard, hta]
      rw [hta] at hown hansi
      have hrest := ih hown hts (hs.deliver loggerName (t.level, t.event))
      rw [hansi] at hrest
      rw [hheard, filled_cons]
      subst hta
      exact hrest
    · have hheard : heard a (t :: ts) = heard a ts := by simp [heard, hta]
      have hne := mt (h.apart a ha _ ht) (Ne.symm hta)
      have hrest := ih hown hts (hs.deliver_other hz (Ne.symm hta) hne loggerName (t.level, t.event))
      rw [hansi] at hrest
      rw [hheard]
      exact hrest

end

/-! ## Any two orders -/

section
variable {s : System} {l : LoggerId} {x : Logger} {memory : AppenderId → Nat}

/-- Only a turn changes the system; to begin an event is to have the same work before one. -/
theorem exists_order (hx : s.loggerAt? l = some x) (hown : s.OwnMemories memory x.appenders) (schedule : List ι)
    (ts : ι → Thread) (hts : ∀ i, ∀ t ∈ (ts i).turns, t.appender ∈ x.appenders) :
    ∃ order : List (ι × Turn), (interleave l schedule ts s).2 = s.takes x.name (order.map Prod.snd) ∧
      ∀ i, (ts i).work x = share i order ++ ((interleave l schedule ts s).1 i).work x := by
  induction schedule generalizing ts s with
  | nil => exact ⟨[], rfl, fun i => rfl⟩
  | cons i schedule ih =>
    have hupdate : ∀ u : Thread, (∀ t ∈ u.turns, t.appender ∈ x.appenders) →
        ∀ j, ∀ t ∈ (Function.update ts i u j).turns, t.appender ∈ x.appenders := by
      intro u hu j
      by_cases hij : j = i
      · rw [hij, Function.update_self]
        exact hu
      · rw [Function.update_of_ne hij]
        exact hts j
    have hturns := hts i
    match hi : ts i with
    | ⟨todo, turn :: rest⟩ =>
      rw [hi] at hturns
      obtain ⟨hturn, hrest⟩ := List.forall_mem_cons.mp hturns
      let u := (s.deliver x.name turn.level turn.event turn.appender).2
      have hu : u.loggerAt? l = some x := ((s.sameLoggers_deliver _ _ _ _).loggerAt? l).trans hx
      have hown' : u.OwnMemories memory x.appenders := hown.deliver hturn x.name (turn.level, turn.event)
      have hstep : interleave l (i :: schedule) ts s =
          interleave l schedule (Function.update ts i ⟨todo, rest⟩) u := by
        rw [interleave, hi, step_of_ok hx (hown.returns hturn x.name (turn.level, turn.event))]
      obtain ⟨order, hsystem, hwork⟩ := ih hu hown' (Function.update ts i ⟨todo, rest⟩) (hupdate _ hrest)
      refine ⟨(i, turn) :: order, by rw [hstep, hsystem]; rfl, fun j => ?_⟩
      have hj := hwork j
      rw [hstep]
      by_cases hij : i = j
      · subst hij
        rw [Function.update_self] at hj
        rw [share_cons_self, List.cons_append, ← hj, hi]
        rfl
      · rw [Function.update_of_ne (Ne.symm hij)] at hj
        rw [share_cons_of_ne hij, hj]
    | ⟨p :: todo, []⟩ =>
      have hstep : interleave l (i :: schedule) ts s =
          interleave l schedule (Function.update ts i ⟨todo, turnsOf x p⟩) s := by
        rw [interleave, hi, step_of_no_turns hx]
      obtain ⟨order, hsystem, hwork⟩ := ih hx hown (Function.update ts i ⟨todo, turnsOf x p⟩)
        (hupdate _ fun t ht => appender_mem_of_turnsOf ht)
      refine ⟨order, by rw [hstep, hsystem], fun j => ?_⟩
      have hj := hwork j
      rw [hstep]
      by_cases hij : i = j
      · subst hij
        rw [Function.update_self] at hj
        rw [← hj, hi]
        rfl
      · rw [Function.update_of_ne (Ne.symm hij)] at hj
        exact hj
    | ⟨[], []⟩ =>
      have hstep : interleave l (i :: schedule) ts s = interleave l schedule ts s := by
        rw [interleave, hi, step_of_finished, ← hi]
        simp only [Function.update_eq_self]
      rw [hstep]
      exact ih hx hown ts hts

end

def reached (a : AppenderId) (order : List (ι × Turn)) : List (ι × Level × Event) :=
  (order.filter (·.2.appender = a)).map fun p => (p.1, p.2.level, p.2.event)

theorem share_reached (i : ι) (a : AppenderId) (order : List (ι × Turn)) :
    share i (reached a order) = heard a (share i order) := by
  have hmap : share i (reached a order) = (share i (order.filter (·.2.appender = a))).map fun t => (t.level, t.event) :=
    share_map fun t : Turn => (t.level, t.event)
  exact hmap.trans (congrArg _ (share_filter fun t : Turn => t.appender = a))

omit [DecidableEq ι] in
theorem map_reached (a : AppenderId) (order : List (ι × Turn)) :
    (reached a order).map Prod.snd = heard a (order.map Prod.snd) := by
  rw [reached, heard, List.filter_map, List.map_map, List.map_map]
  rfl

theorem heard_turnsOf {x : Logger} (hn : x.appenders.Nodup) {a : AppenderId} (ha : a ∈ x.appenders)
    (p : Level × Event) : heard a (turnsOf x p) = if x.enabled p.1 then [p] else [] := by
  rw [turnsOf]
  split
  · rw [heard, List.filter_map, List.map_map]
    have hfilter : x.appenders.filter (fun b => decide (b = a)) = [a] := by
      rw [List.filter_eq]
      rw [List.count_eq_one_of_mem hn ha]
      rfl
    show (x.appenders.filter fun b => decide (b = a)).map _ = _
    rw [hfilter]
    rfl
  · rfl

theorem heard_program {x : Logger} (hn : x.appenders.Nodup) {a : AppenderId} (ha : a ∈ x.appenders)
    (ps : List (Level × Event)) : heard a (ps.flatMap (turnsOf x)) = ps.filter (x.enabled ·.1) := by
  induction ps with
  | nil => rfl
  | cons p ps ih =>
    have happend : heard a (turnsOf x p ++ ps.flatMap (turnsOf x)) =
        heard a (turnsOf x p) ++ heard a (ps.flatMap (turnsOf x)) := by simp [heard]
    rw [List.flatMap_cons, happend, heard_turnsOf hn ha, ih, List.filter_cons]
    split <;> rfl

theorem recorded_perm (y : Appender) {ps qs : List (Level × Event)} (h : ps.Perm qs) :
    recorded y ps = recorded y qs := by
  have hcomm : ∀ (m : Metrics) (f g : Fate), (m.record f).record g = (m.record g).record f := by
    intro m f g
    cases f <;> cases g <;> rfl
  have : RightCommutative fun (m : Metrics) p => m.record (verdict y p) := ⟨fun m p q => hcomm m _ _⟩
  rw [recorded, recorded, h.foldl_eq]

theorem verdict_eq_written_iff {y : Appender} {p : Level × Event} : verdict y p = .written ↔ y.level ≤ p.1 := by
  by_cases hl : p.1 < y.level
  · simp [verdict, hl, Level.not_le.mpr hl]
  · simp [verdict, hl, Level.not_lt.mp hl]

theorem verdict_ne_dropped (y : Appender) (p : Level × Event) : verdict y p ≠ .dropped := by
  unfold verdict
  split <;> nofun

theorem count_recorded (y : Appender) (ps : List (Level × Event)) (f : Fate) :
    (recorded y ps).metrics.count f = y.metrics.count f + UInt64.ofNat (ps.countP (verdict y · = f)) := by
  have hfold : ∀ m : Metrics, (ps.foldl (fun m p => m.record (verdict y p)) m).count f =
      m.count f + UInt64.ofNat (ps.countP (verdict y · = f)) := by
    induction ps with
    | nil => simp
    | cons p ps ih =>
      intro m
      rw [List.foldl_cons, ih, Metrics.count_record, List.countP_cons]
      by_cases hf : verdict y p = f
      · rw [if_pos hf, if_pos (decide_eq_true hf), UInt64.ofNat_add, UInt64.add_assoc]
        exact congrArg _ (UInt64.add_comm _ _)
      · simp [hf]
  exact hfold y.metrics

/-- What an appender has written of the events of some threads: whole renderings of those that pass both
thresholds, each thread's in its own order. -/
structure Writes (s t : System) (x : Logger) (programs : ι → List (Level × Event)) (a : AppenderId) (y : Appender)
    (c : Sink.Console) (order : List (ι × Level × Event)) : Prop where
  threads : ∀ i, share i order = (programs i).filter fun p => x.enabled p.1 && decide (y.level ≤ p.1)
  content : (t.host.outlet c.outlet).content = (s.host.outlet c.outlet).content ++
    joined (order.map fun p => rendering y c s.host.ansi x.name p.2)
  counts : ∃ z, t.appenderAt? a = some z ∧ z.metrics.written = y.metrics.written + UInt64.ofNat order.length ∧
    z.metrics.dropped = y.metrics.dropped

section
variable {s : System} {l : LoggerId} {x : Logger} {memory : AppenderId → Nat}
variable {programs : ι → List (Level × Event)}

theorem exists_order_of_finished (hx : s.loggerAt? l = some x) (hown : s.OwnMemories memory x.appenders)
    (schedule : List ι)
    (h : ∀ i, ((interleave l schedule (fun i => ⟨programs i, []⟩) s).1 i).Finished) : ∃ order : List (ι × Turn),
    (interleave l schedule (fun i => ⟨programs i, []⟩) s).2 = s.takes x.name (order.map Prod.snd) ∧
      (∀ i, share i order = (programs i).flatMap (turnsOf x)) ∧ ∀ t ∈ order.map Prod.snd, t.appender ∈ x.appenders := by
  obtain ⟨order, hsystem, hwork⟩ := exists_order hx hown schedule (fun i => ⟨programs i, []⟩) nofun
  have hshare : ∀ i, share i order = (programs i).flatMap (turnsOf x) := by
    intro i
    have hi := hwork i
    rw [(h i).work, List.append_nil] at hi
    exact hi.symm
  refine ⟨order, hsystem, hshare, fun t ht => ?_⟩
  obtain ⟨⟨i, t⟩, hp, rfl⟩ := List.mem_map.mp ht
  have hmem : t ∈ share i order := List.mem_map.mpr ⟨(i, t), List.mem_filter.mpr ⟨hp, by simp⟩, rfl⟩
  rw [hshare] at hmem
  obtain ⟨p, -, hp⟩ := List.mem_flatMap.mp hmem
  exact appender_mem_of_turnsOf hp

theorem writes_takes (hown : s.OwnMemories memory x.appenders) (hn : x.appenders.Nodup) {order : List (ι × Turn)}
    (hshare : ∀ i, share i order = (programs i).flatMap (turnsOf x))
    (happenders : ∀ t ∈ order.map Prod.snd, t.appender ∈ x.appenders) {a : AppenderId} (ha : a ∈ x.appenders)
    {y : Appender} {c : Sink.Console} {m : Memory} (hy : s.Steady (memory a) a y c m) :
    Writes s (s.takes x.name (order.map Prod.snd)) x programs a y c
      ((reached a order).filter fun p => y.level ≤ p.2.1) where
  threads i := by
    rw [share_filter fun p : Level × Event => decide (y.level ≤ p.1), share_reached, hshare, heard_program hn ha,
      List.filter_filter]
    congr 1
    funext p
    exact Bool.and_comm _ _
  content := by
    have ht := steady_takes hown happenders ha hy x.name
    rw [ht.outlet_eq, hy.outlet_eq, ← map_reached, filled, List.filter_map, List.map_map]
    rfl
  counts := by
    have ht := steady_takes hown happenders ha hy x.name
    have hwritten : (heard a (order.map Prod.snd)).countP (verdict y · = .written) =
        ((reached a order).filter fun p => y.level ≤ p.2.1).length := by
      rw [← map_reached, List.countP_map, List.countP_eq_length_filter]
      simp only [Function.comp_def, verdict_eq_written_iff]
    have hdropped : (heard a (order.map Prod.snd)).countP (verdict y · = .dropped) = 0 := by
      simp [verdict_ne_dropped]
    refine ⟨_, ht.appender, ?_, ?_⟩
    · rw [← hwritten]
      exact count_recorded y _ .written
    · have hcount := count_recorded y (heard a (order.map Prod.snd)) .dropped
      rw [hdropped] at hcount
      exact hcount.trans (UInt64.add_zero _)

theorem appenderAt?_takes_of_notMem {a : AppenderId} (name : String) {ts : List Turn}
    (h : ∀ t ∈ ts, t.appender ≠ a) : (s.takes name ts).appenderAt? a = s.appenderAt? a := by
  induction ts generalizing s with
  | nil => rfl
  | cons t ts ih =>
    obtain ⟨ht, hts⟩ := List.forall_mem_cons.mp h
    exact (ih hts).trans (appenderAt?_deliver_of_ne (Ne.symm ht))

end

/-- Threads log through a logger whose appenders have memories of their own that never fail. However they
take turns, at the end every appender has counted the same, and the same renderings stand in its memory,
each thread's in the order in which it logged them. -/
theorem interleave_agree (history : List Action) (host : Host) (l : LoggerId) (x : Logger)
    (memory : AppenderId → Nat) (programs : ι → List (Level × Event)) (first second : List ι)
    (hx : (after history host).loggerAt? l = some x) (hown : (after history host).OwnMemories memory x.appenders)
    (hfirst : ∀ i, ((interleave l first (fun i => ⟨programs i, []⟩) (after history host)).1 i).Finished)
    (hsecond : ∀ i, ((interleave l second (fun i => ⟨programs i, []⟩) (after history host)).1 i).Finished) :
    let s := after history host
    let t := (interleave l first (fun i => ⟨programs i, []⟩) s).2
    let u := (interleave l second (fun i => ⟨programs i, []⟩) s).2
    (∀ a, t.appenderAt? a = u.appenderAt? a) ∧ ∀ a ∈ x.appenders, ∃ y c order order',
      s.appenderAt? a = some y ∧ y.sink = .console c ∧ order.Perm order' ∧
      Writes s t x programs a y c order ∧ Writes s u x programs a y c order' := by
  intro s t u
  have hn : x.appenders.Nodup := (sound_after history host).nodup l x hx
  obtain ⟨order, ht, hshare, happenders⟩ := exists_order_of_finished hx hown first hfirst
  obtain ⟨order', hu, hshare', happenders'⟩ := exists_order_of_finished hx hown second hsecond
  have hperm : ∀ a, (reached a order).Perm (reached a order') := by
    intro a
    apply perm_of_share
    intro i
    rw [share_reached, share_reached, hshare, hshare']
  refine ⟨fun a => ?_, fun a ha => ?_⟩
  · rw [show t = _ from ht, show u = _ from hu]
    by_cases ha : a ∈ x.appenders
    · obtain ⟨y, c, m, hy⟩ := hown.steady a ha
      have hheard : (heard a (order.map Prod.snd)).Perm (heard a (order'.map Prod.snd)) := by
        rw [← map_reached, ← map_reached]
        exact (hperm a).map _
      rw [(steady_takes hown happenders ha hy x.name).appender, (steady_takes hown happenders' ha hy x.name).appender,
        recorded_perm y hheard]
    · have hnot : ∀ {order : List (ι × Turn)}, (∀ t ∈ order.map Prod.snd, t.appender ∈ x.appenders) →
          ∀ t ∈ order.map Prod.snd, t.appender ≠ a := by
        rintro order h t ht rfl
        exact ha (h t ht)
      rw [appenderAt?_takes_of_notMem x.name (hnot happenders), appenderAt?_takes_of_notMem x.name (hnot happenders')]
  · obtain ⟨y, c, m, hy⟩ := hown.steady a ha
    refine ⟨y, c, _, _, hy.appender, hy.sink, (hperm a).filter fun p => y.level ≤ p.2.1, ?_, ?_⟩
    · rw [show t = _ from ht]
      exact writes_takes hown hn hshare happenders ha hy
    · rw [show u = _ from hu]
      exact writes_takes hown hn hshare' happenders' ha hy

/-- Two threads and two appenders, one of which keeps an event back; the events reach the appenders in two
different orders. -/
theorem interleave_agree_two :
    let e (content : String) : Event :=
      { fileName := "f", line := 1, elapsed := 0, threadId := 1, fiberId := 0, time := 0, content }
    let history : List Action := [.addAppender (.console { outlet := .memory 0 }) .debug ⟨"%m", [.message]⟩,
      .addAppender (.console { outlet := .memory 1, colours := true }) .warn ⟨"%m", [.message]⟩,
      .buildLogger "l" .info [⟨0⟩, ⟨1⟩]]
    let host : Host := { memories := #[{}, {}] }
    let s := after history host
    let programs : Bool → List (Level × Event) := fun i =>
      if i then [(.info, e "a"), (.debug, e "b")] else [(.error, e "c")]
    let first : List Bool := [true, true, true, true, false, false, false]
    let second : List Bool := [true, false, false, true, true, false, true]
    let t := (interleave ⟨0⟩ first (fun i => ⟨programs i, []⟩) s).2
    let u := (interleave ⟨0⟩ second (fun i => ⟨programs i, []⟩) s).2
    t.appenderAt? ⟨1⟩ = u.appenderAt? ⟨1⟩ ∧ (t.host.outlet (.memory 0)).content = "ac".toUTF8 ∧
      (u.host.outlet (.memory 0)).content = "ca".toUTF8 := by
  intro e history host s programs first second t u
  have hx : s.loggerAt? ⟨0⟩ = some { name := "l", level := .info, appenders := [⟨0⟩, ⟨1⟩] } := by cbv
  have hown : s.OwnMemories AppenderId.index [⟨0⟩, ⟨1⟩] := by
    constructor
    · rw [List.forall_mem_cons, List.forall_mem_singleton]
      exact ⟨⟨_, _, _, rfl, rfl, rfl, rfl, rfl, rfl⟩, ⟨_, _, _, rfl, rfl, rfl, rfl, rfl, rfl⟩⟩
    · intro a _ b _ hindex
      exact congrArg AppenderId.mk hindex
  have hfirst : ∀ i, ((interleave ⟨0⟩ first (fun i => ⟨programs i, []⟩) (after history host)).1 i).Finished := by
    decide +kernel
  have hsecond : ∀ i, ((interleave ⟨0⟩ second (fun i => ⟨programs i, []⟩) (after history host)).1 i).Finished := by
    decide +kernel
  have h := (interleave_agree history host ⟨0⟩ _ AppenderId.index programs first second hx hown hfirst hsecond).1
  exact ⟨h ⟨1⟩, by decide +kernel, by decide +kernel⟩

end Logline.System
