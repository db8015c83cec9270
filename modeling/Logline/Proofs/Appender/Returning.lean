import Logline.Proofs.Appender.Fate
import Logline.Proofs.Output.ErrorStream

/-!
# Calls that return

A call of an appender is cut short only by the error stream, when a failure is to be told there and the line does
not go through. The event has been counted by then, and opening the path again has failed. Where the stream has
no limit every call returns.
-/

namespace Logline

open Output

namespace Sink

theorem limit_write (f : Formatter) (loggerName : String) (level : Level) (e : Event) (x : Sink) (h : Host) :
    (x.write f loggerName level e h).2.2.stderr.limit = h.stderr.limit := by
  cases x with
  | console c => exact h.limit_setOutlet (Memory.limit_deliver _ _)
  | file s => rfl

theorem limit_reopen (x : Sink) (h : Host) : (x.reopen h).2.2.stderr.limit = h.stderr.limit := by
  cases x with
  | console c => rfl
  | file s =>
    simp only [reopen, File.reopenOrComplain]
    split
    · rfl
    · exact Host.limit_complain _ _

theorem limit_flush (x : Sink) (h : Host) : (x.flush h).2.2.stderr.limit = h.stderr.limit := by
  cases x with
  | console c => exact h.limit_setOutlet rfl
  | file s => rfl

theorem reopen_returns (x : Sink) {h : Host} (hroom : h.stderr.limit = none) : ∃ isOpen, (x.reopen h).1 = .ok isOpen := by
  cases x with
  | console c => exact ⟨true, rfl⟩
  | file s =>
    simp only [reopen, File.reopenOrComplain]
    split
    · exact ⟨true, rfl⟩
    · next e _ =>
      have htold := Host.complain_of_unlimited (h := { h with disk := (s.reopen h.disk).2.2 }) hroom
      exact ⟨false, by simp only [htold]; rfl⟩

end Sink

namespace Appender

inductive Ending (a : Appender) (loggerName : String) (level : Level) (e : Event) (h : Host) :
    Except Fault Unit × Appender × Host → Prop
  | filtered (hl : level < a.level) : Ending a loggerName level e h (.ok (), a.record .filtered, h)
  | closed (hl : ¬ level < a.level) (hready : a.sink.isReady = false) :
    Ending a loggerName level e h (.ok (), a.record .dropped, h)
  | written (hl : ¬ level < a.level) (hready : a.sink.isReady = true) {sink : Sink} {k : Host}
    (hw : a.sink.write a.formatter loggerName level e h = (.ok (), sink, k)) :
    Ending a loggerName level e h (.ok (), { a with sink }.record .written, k)
  | refused (hl : ¬ level < a.level) (hready : a.sink.isReady = true) {sink : Sink} {k : Host} {fault : Fault}
    (hw : a.sink.write a.formatter loggerName level e h = (.error fault, sink, k)) :
    Ending a loggerName level e h ((a.report fault k).1, { a with sink }.record .dropped, (a.report fault k).2)

theorem ending_log (a : Appender) (loggerName : String) (level : Level) (e : Event) (h : Host) :
    a.Ending loggerName level e h (a.log loggerName level e h) := by
  unfold log
  split
  · next hl => exact .filtered hl
  · next hl =>
    split
    · next hready =>
      split
      · next hw => exact .written hl hready hw
      · next hw => exact .refused hl hready hw
    · next hready => exact .closed hl (Bool.eq_false_iff.mpr hready)

theorem report_returns (a : Appender) (fault : Fault) {h : Host} (hroom : h.stderr.limit = none) :
    (a.report fault h).1 = .ok () := by
  unfold report
  split
  · rw [Host.complain_of_unlimited hroom]
  · rfl

section
variable (a : Appender) (loggerName : String) (level : Level) (e : Event) (h : Host)

theorem limit_log : (a.log loggerName level e h).2.2.stderr.limit = h.stderr.limit := by
  have hend := a.ending_log loggerName level e h
  have hwrite := a.sink.limit_write a.formatter loggerName level e h
  generalize a.log loggerName level e h = after at hend ⊢
  cases hend with
  | filtered | closed => rfl
  | written hl hready hw =>
    rw [hw] at hwrite
    exact hwrite
  | refused hl hready hw =>
    rw [hw] at hwrite
    exact host_report (P := fun k => k.stderr.limit = h.stderr.limit) hwrite
      (fun line => (Host.limit_complain _ line).trans hwrite) a _

variable {h}

theorem log_returns (hroom : h.stderr.limit = none) : (a.log loggerName level e h).1 = .ok () := by
  have hend := a.ending_log loggerName level e h
  have hwrite := a.sink.limit_write a.formatter loggerName level e h
  generalize a.log loggerName level e h = after at hend ⊢
  cases hend with
  | filtered | closed | written => rfl
  | refused hl hready hw =>
    rw [hw] at hwrite
    exact a.report_returns _ (hwrite.trans hroom)

end

end Appender

end Logline
