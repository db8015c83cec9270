/-!
# Metrics of an appender

Counts of events written, kept back by the threshold, and lost. Counts are machine words.
-/

namespace Logline

/-- What became of an event. -/
inductive Fate
  | written
  | filtered
  | dropped
  deriving DecidableEq, Repr

structure Metrics where
  written : UInt64 := 0
  filtered : UInt64 := 0
  dropped : UInt64 := 0
  deriving DecidableEq, Repr

namespace Metrics

def count (m : Metrics) : Fate → UInt64
  | .written => m.written
  | .filtered => m.filtered
  | .dropped => m.dropped

def record (m : Metrics) : Fate → Metrics
  | .written => { m with written := m.written + 1 }
  | .filtered => { m with filtered := m.filtered + 1 }
  | .dropped => { m with dropped := m.dropped + 1 }

theorem count_record (m : Metrics) (a b : Fate) :
    (m.record a).count b = if a = b then m.count b + 1 else m.count b := by
  cases a <;> cases b <;> rfl

/-- The percentage of the events let through by the threshold that were lost. -/
def dropRate (m : Metrics) : Float :=
  let total := m.dropped + m.written
  if total = 0 then 0.0 else m.dropped.toFloat / total.toFloat * 100.0

end Metrics

end Logline
