import Logline.Appender

/-!
# The fate of an event

An appender counts every event it is handed once, by what became of it. Logging changes nothing else of
it but its sink, and neither sink nor host hears of an event below the threshold.
-/

namespace Logline.Appender

open Output

def fate (a : Appender) (loggerName : String) (level : Level) (e : Event) (h : Host) : Fate :=
  if level < a.level then .filtered
  else if a.sink.isReady then
    match (a.sink.write a.formatter loggerName level e h).1 with
    | .ok () => .written
    | .error _ => .dropped
  else .dropped

section
variable (a : Appender) (loggerName : String) (level : Level) (e : Event) (h : Host)

theorem log_eq : ∃ sink, (a.log loggerName level e h).2.1 =
    { a with sink, metrics := a.metrics.record (a.fate loggerName level e h) } := by
  unfold log fate
  split
  · exact ⟨a.sink, rfl⟩
  · split
    · split
      · next sink h' hw => exact ⟨sink, by rw [hw]; rfl⟩
      · next sink h' hw => exact ⟨sink, by rw [hw]; rfl⟩
    · exact ⟨a.sink, rfl⟩

theorem metrics_log : (a.log loggerName level e h).2.1.metrics = a.metrics.record (a.fate loggerName level e h) := by
  obtain ⟨sink, hlog⟩ := a.log_eq loggerName level e h
  rw [hlog]

/-- What holds of the sink before, and of what a write makes of it, holds of it in the end. -/
theorem sink_log {P : Sink → Prop} (hkept : P a.sink)
    (hwritten : P (a.sink.write a.formatter loggerName level e h).2.1) : P (a.log loggerName level e h).2.1.sink := by
  unfold log
  split
  · exact hkept
  · split
    · split
      · next hw => rw [hw] at hwritten; exact hwritten
      · next hw => rw [hw] at hwritten; exact hwritten
    · exact hkept

/-- One count goes up by one. -/
theorem count_log (c : Fate) : (a.log loggerName level e h).2.1.metrics.count c =
    a.metrics.count c + if c = a.fate loggerName level e h then 1 else 0 := by
  rw [metrics_log, Metrics.count_record]
  split
  · next hc => rw [if_pos hc.symm]
  · next hc => rw [if_neg (Ne.symm hc), UInt64.add_zero]

theorem fate_eq_filtered_iff : a.fate loggerName level e h = .filtered ↔ level < a.level := by
  unfold fate
  split
  · next hl => simp [hl]
  · next hl =>
    simp only [hl, iff_false]
    split
    · split <;> nofun
    · nofun

end

/-- What holds of the host, and holds once a line has been told, holds whether or not a failure is told. -/
theorem host_report {P : Host → Prop} {h : Host} (hkept : P h) (htold : ∀ line, P (h.complain line).2) (a : Appender)
    (fault : Fault) : P (a.report fault h).2 := by
  unfold report
  split
  · exact htold _
  · exact hkept

theorem isReady_of_written {a : Appender} {loggerName : String} {level : Level} {e : Event} {h : Host}
    (hw : a.fate loggerName level e h = .written) : a.sink.isReady = true := by
  unfold fate at hw
  split at hw
  · cases hw
  · split at hw
    · assumption
    · cases hw

theorem log_of_lt {a : Appender} {level : Level} (hl : level < a.level) (loggerName : String) (e : Event)
    (h : Host) : a.log loggerName level e h = (.ok (), a.record .filtered, h) :=
  if_pos hl

end Logline.Appender
