import Mathlib.Data.List.Basic
import Logline.Proofs.System.Returning

/-!
# Routing

A logger hands an event at or above its threshold to each of its appenders, once and in order, unless one of
them cuts the call short. What an appender counts over any calls that return are therefore the events that
reached it, whatever loggers it is shared by.
-/

namespace Logline.System

open Output

/-! ## One event -/

section
variable {s : System} {l : LoggerId} {x : Logger} {level : Level}

theorem log_of_below (hx : s.loggerAt? l = some x) (hl : level < x.level) (e : Event) :
    s.log l level e = (.ok (), s) := by
  have he : x.enabled level = false := decide_eq_false (Level.not_le.mpr hl)
  simp only [log, hx, he, Bool.false_eq_true, if_false]

theorem log_of_enabled (hx : s.loggerAt? l = some x) (hl : ¬ level < x.level) (e : Event) :
    s.log l level e = s.deliverAll x.name level e x.appenders :=
  log_eq_deliverAll hx (decide_eq_true (Level.not_lt.mp hl))

/-- In a call that returns every appender of the logger has had the event. -/
theorem log_of_returns (hx : s.loggerAt? l = some x) (hl : ¬ level < x.level) {e : Event}
    (h : (s.log l level e).1 = .ok ()) : (s.log l level e).2 = s.handed x.name level e x.appenders := by
  rw [log_of_enabled hx hl] at h ⊢
  exact deliverAll_of_ok h

end

section
variable {s : System} {a : AppenderId} {y : Appender}

/-- An appender that stands once among others is as before when its turn comes, and as after its turn
when all have had theirs. -/
theorem appenderAt?_handed {before after : List AppenderId} (hn : (before ++ a :: after).Nodup)
    (ha : s.appenderAt? a = some y) (loggerName : String) (level : Level) (e : Event) :
    (s.handed loggerName level e before).appenderAt? a = some y ∧
      (s.handed loggerName level e (before ++ a :: after)).appenderAt? a =
        some (y.log loggerName level e (s.handed loggerName level e before).host).2.1 := by
  obtain ⟨-, hafter, hdisjoint⟩ := List.nodup_append.mp hn
  have hbefore : a ∉ before := fun hm => hdisjoint a hm a List.mem_cons_self rfl
  have hturn : (s.handed loggerName level e before).appenderAt? a = some y := by
    rw [appenderAt?_handed_of_notMem hbefore, ha]
  refine ⟨hturn, ?_⟩
  rw [handed_append]
  exact (appenderAt?_handed_of_notMem (List.nodup_cons.mp hafter).1).trans (appenderAt?_deliver hturn)

end

/-! ## Counting over calls -/

def Answers (s : System) (cs : List Call) : Prop :=
  Throughout (fun s k => k.Returns s) s (cs.map .call)

/-- The call logs an event that a logger lets through to the appender. -/
def Call.reaches (a : AppenderId) (s : System) : Call → Bool
  | .log l level _ => (s.loggerAt? l).any fun x => decide (x.level ≤ level ∧ a ∈ x.appenders)
  | _ => false

def Call.passes (a : AppenderId) (s : System) : Call → Bool
  | .log l level e =>
    (Call.log l level e).reaches a s && (s.appenderAt? a).any fun y => decide (y.level ≤ level)
  | _ => false

/-- How many of some calls have a property when their turn comes. -/
def tally (p : System → Call → Bool) : List Call → System → Nat
  | [], _ => 0
  | c :: cs, s => (p s c).toNat + tally p cs (c.apply s)

def Counted (x y : Appender) (reached passed : Nat) : Prop :=
  ∃ n : Fate → Nat, (∀ f, y.metrics.count f = x.metrics.count f + UInt64.ofNat (n f)) ∧
    n .written + n .filtered + n .dropped = reached ∧ n .written + n .dropped = passed

namespace Counted

theorem of_metrics_eq {x y : Appender} (h : y.metrics = x.metrics) : Counted x y 0 0 :=
  ⟨fun _ => 0, fun f => by simp [h], rfl, rfl⟩

theorem trans {x y z : Appender} {r p r' p' : Nat} (h : Counted x y r p) (h' : Counted y z r' p') :
    Counted x z (r + r') (p + p') := by
  obtain ⟨n, hn, hr, hp⟩ := h
  obtain ⟨n', hn', hr', hp'⟩ := h'
  refine ⟨fun f => n f + n' f, fun f => ?_, by simp only; omega, by simp only; omega⟩
  rw [hn', hn, UInt64.ofNat_add, UInt64.add_assoc]

theorem log (x : Appender) (loggerName : String) (level : Level) (e : Event) (h : Host) :
    Counted x (x.log loggerName level e h).2.1 1 (decide (x.level ≤ level)).toNat := by
  have hcount : ∀ f, (x.log loggerName level e h).2.1.metrics.count f = x.metrics.count f +
      UInt64.ofNat (if x.fate loggerName level e h = f then 1 else 0) := by
    intro f
    rw [x.metrics_log, Metrics.count_record]
    split
    · rfl
    · exact (UInt64.add_zero _).symm
  refine ⟨_, hcount, by cases x.fate loggerName level e h <;> rfl, ?_⟩
  by_cases hl : level < x.level
  · rw [(x.fate_eq_filtered_iff loggerName level e h).mpr hl, decide_eq_false (Level.not_le.mpr hl)]
    rfl
  · have hne : x.fate loggerName level e h ≠ .filtered := mt (x.fate_eq_filtered_iff loggerName level e h).mp hl
    rw [decide_eq_true (Level.not_lt.mp hl)]
    cases hf : x.fate loggerName level e h with
    | filtered => exact absurd hf hne
    | written => rfl
    | dropped => rfl

end Counted

section
variable {s : System} {a : AppenderId} {x : Appender}

theorem counted_log (hs : s.Sound) (ha : s.appenderAt? a = some x) {l : LoggerId} {level : Level} {e : Event}
    (hreturns : (s.log l level e).1 = .ok ()) : ∃ y, (s.log l level e).2.appenderAt? a = some y ∧
      Counted x y ((Call.log l level e).reaches a s).toNat ((Call.log l level e).passes a s).toNat := by
  cases hl : s.loggerAt? l with
  | none =>
    refine ⟨x, by rw [log, hl]; exact ha, ?_⟩
    simpa [Call.reaches, Call.passes, hl] using Counted.of_metrics_eq rfl
  | some logger =>
    by_cases hlevel : level < logger.level
    · refine ⟨x, by rw [log_of_below hl hlevel]; exact ha, ?_⟩
      have hle : ¬ logger.level ≤ level := Level.not_le.mpr hlevel
      simpa [Call.reaches, Call.passes, hl, hle] using Counted.of_metrics_eq rfl
    have hle : logger.level ≤ level := Level.not_lt.mp hlevel
    by_cases hmem : a ∈ logger.appenders
    · obtain ⟨before, after, hsplit⟩ := List.append_of_mem hmem
      have hnodup := hs.nodup l logger hl
      rw [hsplit] at hnodup
      obtain ⟨-, hafter⟩ := appenderAt?_handed hnodup ha logger.name level e
      refine ⟨_, by rw [log_of_returns hl hlevel hreturns, hsplit]; exact hafter, ?_⟩
      simpa [Call.reaches, Call.passes, hl, hle, hmem, ha] using Counted.log x logger.name level e _
    · refine ⟨x, by rw [log_of_returns hl hlevel hreturns, appenderAt?_handed_of_notMem hmem]; exact ha, ?_⟩
      simpa [Call.reaches, Call.passes, hl, hmem] using Counted.of_metrics_eq rfl

theorem counted_apply (hs : s.Sound) (ha : s.appenderAt? a = some x) {c : Call} (hc : (Action.call c).Returns s) :
    ∃ y, (c.apply s).appenderAt? a = some y ∧ Counted x y (c.reaches a s).toNat (c.passes a s).toNat := by
  cases c with
  | log l level e => exact counted_log hs ha hc
  | setThreshold b level =>
    by_cases hb : a = b
    · subst hb
      exact ⟨x.setLevel level, by simp [Call.apply, appenderAt?_modifyAppender, ha], .of_metrics_eq rfl⟩
    · exact ⟨x, by simp [Call.apply, appenderAt?_modifyAppender, hb, ha], .of_metrics_eq rfl⟩
  | setLevel l level => exact ⟨x, ha, .of_metrics_eq rfl⟩
  | add l b => exact ⟨x, ha, .of_metrics_eq rfl⟩
  | remove l b => exact ⟨x, ha, .of_metrics_eq rfl⟩
  | clear l => exact ⟨x, ha, .of_metrics_eq rfl⟩
  | set l as => exact ⟨x, ha, .of_metrics_eq rfl⟩

theorem counted_calls (hs : s.Sound) (ha : s.appenderAt? a = some x) {cs : List Call} (hcs : s.Answers cs) :
    ∃ y, (calls cs s).appenderAt? a = some y ∧
      Counted x y (tally (Call.reaches a) cs s) (tally (Call.passes a) cs s) := by
  induction cs generalizing s x with
  | nil => exact ⟨x, ha, .of_metrics_eq rfl⟩
  | cons c cs ih =>
    obtain ⟨y, hy, hcount⟩ := counted_apply hs ha hcs.1
    obtain ⟨z, hz, hrest⟩ := ih (hs.apply c) hy hcs.2
    exact ⟨z, hz, hcount.trans hrest⟩

end

theorem sound_calls {s : System} (hs : s.Sound) (cs : List Call) : (calls cs s).Sound := by
  induction cs generalizing s with
  | nil => exact hs
  | cons c cs ih => exact ih (hs.apply c)

theorem limit_calls (s : System) (cs : List Call) : (calls cs s).host.stderr.limit = s.host.stderr.limit := by
  induction cs generalizing s with
  | nil => rfl
  | cons c cs ih => exact (ih (c.apply s)).trans (s.limit_perform (.call c) nofun)

theorem answers_of_unlimited {s : System} (hroom : s.host.stderr.limit = none) (cs : List Call) : s.Answers cs := by
  refine returns_throughout hroom fun change h => ?_
  obtain ⟨c, -, hc⟩ := List.mem_map.mp h
  cases hc

/-- After any history and any calls on top of it, an event below its logger's threshold changes nothing,
and any other is handed on under the logger's name: each appender of the logger, which has it once, logs it
when those before it have, and no other appender changes. An appender's own threshold keeps an event from
sink and host. A call that is cut short hands the event to the first of them only; on an error stream without
limit every call returns. Over calls that return an appender counts, each by its fate, as many events as reached
it, and as written or lost as many as passed its own threshold too. -/
theorem routing_after (history : List Action) (host : Host) (cs : List Call) :
    let s := after history host
    let t := calls cs s
    (∀ l x level e, t.loggerAt? l = some x → level < x.level → t.log l level e = (.ok (), t)) ∧
    (∀ l x level e, t.loggerAt? l = some x → ¬ level < x.level →
      ((t.log l level e).1 = .ok () → (t.log l level e).2 = t.handed x.name level e x.appenders) ∧
      (∃ had, had <+: x.appenders ∧ (t.log l level e).2 = t.handed x.name level e had) ∧
      (∀ b, b ∉ x.appenders → (t.log l level e).2.appenderAt? b = t.appenderAt? b) ∧
      ∀ before a after y, x.appenders = before ++ a :: after → t.appenderAt? a = some y →
        let u := t.handed x.name level e before
        a ∉ before ∧ a ∉ after ∧
        u.appenderAt? a = some y ∧
        t.handed x.name level e (before ++ [a]) = { u.setAppender a (y.log x.name level e u.host).2.1 with
          host := (y.log x.name level e u.host).2.2 } ∧
        ((t.log l level e).1 = .ok () →
          (t.log l level e).2.appenderAt? a = some (y.log x.name level e u.host).2.1) ∧
        (level < y.level → y.log x.name level e u.host = (.ok (), y.record .filtered, u.host))) ∧
    (s.host.stderr.limit = none → s.Answers cs ∧ ∀ l level e, (t.log l level e).1 = .ok ()) ∧
    (s.Answers cs → ∀ a x, s.appenderAt? a = some x → ∃ (y : Appender) (n : Fate → Nat), t.appenderAt? a = some y ∧
      (∀ f, y.metrics.count f = x.metrics.count f + UInt64.ofNat (n f)) ∧
      n .written + n .filtered + n .dropped = tally (Call.reaches a) cs s ∧
      n .written + n .dropped = tally (Call.passes a) cs s) := by
  intro s t
  have hs : s.Sound := sound_after history host
  have ht : t.Sound := sound_calls hs cs
  refine ⟨fun l x level e hx hl => log_of_below hx hl e, fun l x level e hx hl => ?_, fun hroom => ⟨?_, ?_⟩,
    fun hcs a x ha => ?_⟩
  · obtain ⟨had, hhad, hlog⟩ := t.exists_handed x.name level e x.appenders
    rw [← log_of_enabled hx hl] at hlog
    refine ⟨log_of_returns hx hl, ⟨had, hhad, hlog⟩, fun b hb => ?_, ?_⟩
    · rw [hlog]
      exact appenderAt?_handed_of_notMem (mt (hhad.subset ·) hb)
    intro before a after y hsplit ha u
    have hnodup := ht.nodup l x hx
    rw [hsplit] at hnodup
    obtain ⟨hturn, hdone⟩ := appenderAt?_handed hnodup ha x.name level e
    obtain ⟨-, hafter, hdisjoint⟩ := List.nodup_append.mp hnodup
    refine ⟨fun hm => hdisjoint a hm a List.mem_cons_self rfl, (List.nodup_cons.mp hafter).1, hturn, ?_, fun hok => ?_,
      fun hlt => Appender.log_of_lt hlt x.name e u.host⟩
    · rw [handed_append]
      exact congrArg Prod.snd (deliver_of_appenderAt? hturn)
    · rw [log_of_returns hx hl hok, hsplit]
      exact hdone
  · exact answers_of_unlimited hroom cs
  · exact fun l level e => log_returns ((s.limit_calls cs).trans hroom) l level e
  · obtain ⟨y, hy, n, hn⟩ := counted_calls hs ha hcs
    exact ⟨y, n, hy, hn⟩

/-- Two loggers that share an appender, which is added twice to one of them and taken from the other. -/
theorem routing_after_shared :
    let e : Event := { fileName := "f", line := 1, elapsed := 0, threadId := 1, fiberId := 0, time := 0, content := "x" }
    let f : Formatter := ⟨"%m", [.message]⟩
    let history : List Action := [.addAppender (.console { outlet := .memory 0 }) .debug f,
      .addAppender (.console { outlet := .memory 1 }) .warn f, .buildLogger "k" .info [⟨0⟩, ⟨1⟩],
      .buildLogger "l" .debug [⟨1⟩]]
    let cs : List Call := [.log ⟨0⟩ .info e, .add ⟨1⟩ ⟨0⟩, .add ⟨1⟩ ⟨0⟩, .log ⟨1⟩ .debug e, .log ⟨0⟩ .debug e,
      .remove ⟨0⟩ ⟨0⟩, .log ⟨0⟩ .error e]
    let t := calls cs (after history { memories := #[{}, {}] })
    t.log ⟨0⟩ .debug e = (.ok (), t) ∧
      t.log ⟨0⟩ .info e = (.ok (), t.handed "k" .info e [⟨1⟩]) ∧
      ∃ (y : Appender) (n : Fate → Nat), t.appenderAt? ⟨1⟩ = some y ∧
        (∀ f, y.metrics.count f = UInt64.ofNat (n f)) ∧
        n .written + n .filtered + n .dropped = 3 ∧ n .written + n .dropped = 1 := by
  intro e f history cs t
  obtain ⟨hbelow, hhanded, hunlimited, hcounts⟩ := routing_after history { memories := #[{}, {}] } cs
  obtain ⟨hanswers, hreturns⟩ := hunlimited rfl
  have hlogger : t.loggerAt? ⟨0⟩ = some { name := "k", level := .info, appenders := [⟨1⟩] } := by decide +kernel
  refine ⟨hbelow ⟨0⟩ _ .debug e hlogger (by decide), ?_, ?_⟩
  · have hreturn : (t.log ⟨0⟩ .info e).1 = .ok () := hreturns ⟨0⟩ .info e
    have hall : (t.log ⟨0⟩ .info e).2 = t.handed "k" .info e [⟨1⟩] :=
      (hhanded ⟨0⟩ _ .info e hlogger (by decide)).1 hreturn
    rw [← hreturn, ← hall]
  · have hfirst : (after history { memories := #[{}, {}] }).appenderAt? ⟨1⟩ =
        some { id := ⟨1⟩, level := .warn, formatter := f, sink := .console { outlet := .memory 1 } } := by cbv
    obtain ⟨y, n, hy, hcount, hreached, hpassed⟩ := hcounts hanswers ⟨1⟩ _ hfirst
    refine ⟨y, n, hy, fun f => ?_, hreached.trans (by decide +kernel), hpassed.trans (by decide +kernel)⟩
    rw [hcount f]
    cases f <;> exact UInt64.zero_add _

end Logline.System
