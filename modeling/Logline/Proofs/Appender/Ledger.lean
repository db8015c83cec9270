import Logline.Proofs.Appender.Fate
import Logline.Proofs.Output.Memory

/-!
# The ledger of an appender

Every event that is logged makes an entry: its fate, the bytes the writer took of it and whether it was
flushed. What an appender counts and its writer holds after any calls are the sums of the entries.
-/

namespace Logline

open Output

namespace Output.Host

theorem outlet_setOutlet {h : Host} {i : Nat} (hi : i < h.memories.size) (m : Memory) :
    (h.setOutlet (.memory i) m).outlet (.memory i) = m := by
  simp [setOutlet, outlet, hi]

theorem size_setOutlet (h : Host) (i : Nat) (m : Memory) :
    (h.setOutlet (.memory i) m).memories.size = h.memories.size := by
  simp [setOutlet]

theorem outlet_congr {h k : Host} (he : h.memories = k.memories) (i : Nat) :
    h.outlet (.memory i) = k.outlet (.memory i) := by
  simp [outlet, he]

end Output.Host

namespace Appender

/-! ## Calls -/

inductive Call
  | log (loggerName : String) (level : Level) (e : Event)
  | setLevel (level : Level)
  | setPattern (pattern : String)
  | setFormatter (formatter : Formatter)

def Call.apply : Call → Appender × Host → Appender × Host
  | log loggerName level e, (a, h) => (a.log loggerName level e h).2
  | setLevel level, (a, h) => (a.setLevel level, h)
  | setPattern pattern, (a, h) => ((a.setPattern pattern).2, h)
  | setFormatter formatter, (a, h) => (a.setFormatter formatter, h)

def run (calls : List Call) (s : Appender × Host) : Appender × Host :=
  calls.foldl (fun s c => c.apply s) s

structure Settings where
  level : Level
  formatter : Formatter

def settings (a : Appender) : Settings :=
  ⟨a.level, a.formatter⟩

/-- A pattern that does not compile leaves the formatter in force. -/
def Settings.after (s : Settings) : Call → Settings
  | .log .. => s
  | .setLevel level => { s with level }
  | .setPattern pattern =>
    match Formatter.ofPattern pattern with
    | .ok formatter => { s with formatter }
    | .error _ => s
  | .setFormatter formatter => { s with formatter }

/-! ## Entries -/

structure Entry where
  fate : Fate
  /-- What the writer took of the rendering. -/
  taken : ByteArray
  flushed : Bool

/-- The entry of an event, given the room its writer has left and whether its flush fails. -/
def Settings.entry (s : Settings) (room : Option Nat) (flushFails : Bool) (loggerName : String) (level : Level)
    (e : Event) : Entry :=
  let rendering := (s.formatter.format loggerName level e).toUTF8
  if level < s.level then { fate := .filtered, taken := .empty, flushed := false }
  else if fitting room rendering = rendering then
    { fate := if flushFails then .dropped else .written, taken := rendering, flushed := true }
  else { fate := .dropped, taken := fitting room rendering, flushed := false }

def Settings.ledger (flushFails : Bool) : Settings → Option Nat → List Call → List Entry
  | _, _, [] => []
  | s, room, .log loggerName level e :: calls =>
    let x := s.entry room flushFails loggerName level e
    x :: s.ledger flushFails (roomAfter room x.taken) calls
  | s, room, c :: calls => (s.after c).ledger flushFails room calls

section
variable {s : Settings} {room : Option Nat} {loggerName : String} {level : Level} {e : Event}

theorem entry_of_lt (flushFails : Bool) (hl : level < s.level) :
    s.entry room flushFails loggerName level e = { fate := .filtered, taken := .empty, flushed := false } :=
  if_pos hl

theorem entry_of_fitting (flushFails : Bool) (hl : ¬ level < s.level)
    (hf : fitting room (s.formatter.format loggerName level e).toUTF8 =
      (s.formatter.format loggerName level e).toUTF8) :
    s.entry room flushFails loggerName level e =
      { fate := if flushFails then .dropped else .written,
        taken := (s.formatter.format loggerName level e).toUTF8, flushed := true } := by
  rw [Settings.entry, if_neg hl, if_pos hf]

theorem entry_of_not_fitting (flushFails : Bool) (hl : ¬ level < s.level)
    (hf : ¬ fitting room (s.formatter.format loggerName level e).toUTF8 =
      (s.formatter.format loggerName level e).toUTF8) :
    s.entry room flushFails loggerName level e =
      { fate := .dropped, taken := fitting room (s.formatter.format loggerName level e).toUTF8,
        flushed := false } := by
  rw [Settings.entry, if_neg hl, if_neg hf]

end

/-! ## One event -/

def onMemory (i : Nat) : Sink :=
  .console { outlet := .memory i }

theorem write_onMemory (f : Formatter) (loggerName : String) (level : Level) (e : Event) (i : Nat) (h : Host) :
    (onMemory i).write f loggerName level e h =
      let d := deliver ((f.pieces loggerName level e).map String.toUTF8) (h.outlet (.memory i))
      (d.1, onMemory i, h.setOutlet (.memory i) d.2) := rfl

theorem joined_pieces (f : Formatter) (loggerName : String) (level : Level) (e : Event) :
    joined ((f.pieces loggerName level e).map String.toUTF8) = (f.format loggerName level e).toUTF8 :=
  joined_toUTF8 _

section
variable {a : Appender} {i : Nat} (hs : a.sink = onMemory i)
variable {loggerName : String} {level : Level} {e : Event}
include hs

theorem log_of_delivered (hl : ¬ level < a.level) {h : Host} {m : Memory}
    (hd : deliver ((a.formatter.pieces loggerName level e).map String.toUTF8) (h.outlet (.memory i)) = (.ok (), m)) :
    a.log loggerName level e h = (.ok (), a.record .written, h.setOutlet (.memory i) m) := by
  have ha : { a with sink := onMemory i } = a := by rw [← hs]
  rw [log, if_neg hl, hs, if_pos (show (onMemory i).isReady = true from rfl), write_onMemory]
  simp only [hd, ha]

/-- The failure may be told on the error stream; no memory hears of it. -/
theorem log_of_not_delivered (hl : ¬ level < a.level) {h : Host} {m : Memory} {fault : Fault}
    (hd : deliver ((a.formatter.pieces loggerName level e).map String.toUTF8) (h.outlet (.memory i)) =
      (.error fault, m)) :
    (a.log loggerName level e h).2.1 = a.record .dropped ∧
      (a.log loggerName level e h).2.2.memories = (h.setOutlet (.memory i) m).memories := by
  have ha : { a with sink := onMemory i } = a := by rw [← hs]
  rw [log, if_neg hl, hs, if_pos (show (onMemory i).isReady = true from rfl), write_onMemory]
  simp only [hd, ha, true_and]
  exact host_report (P := fun k => k.memories = (h.setOutlet (.memory i) m).memories) rfl (fun _ => rfl) a fault

end

section
variable {a : Appender} {h : Host} {i : Nat} (hs : a.sink = onMemory i) (hi : i < h.memories.size)
include hs hi

theorem log_onMemory (loggerName : String) (level : Level) (e : Event) :
    let m := h.outlet (.memory i)
    let x := a.settings.entry m.left m.flushFails loggerName level e
    (a.log loggerName level e h).2.1 = a.record x.fate ∧
      (a.log loggerName level e h).2.2.memories.size = h.memories.size ∧
      (a.log loggerName level e h).2.2.outlet (.memory i) = (m.taking x.taken).flushed x.flushed.toNat := by
  intro m x
  have hd := Memory.deliver_eq ((a.formatter.pieces loggerName level e).map String.toUTF8) m
  rw [joined_pieces] at hd
  have hset : ∀ {k : Host} {m' : Memory}, k.memories = (h.setOutlet (.memory i) m').memories →
      k.memories.size = h.memories.size ∧ k.outlet (.memory i) = m' := fun hk =>
    ⟨by rw [hk, Host.size_setOutlet], by rw [Host.outlet_congr hk, Host.outlet_setOutlet hi]⟩
  by_cases hl : level < a.level
  · rw [show x = _ from entry_of_lt m.flushFails hl, log, if_pos hl]
    exact ⟨rfl, rfl, by rw [Memory.taking_empty]; rfl⟩
  by_cases hf : fitting m.left (a.formatter.format loggerName level e).toUTF8 =
      (a.formatter.format loggerName level e).toUTF8
  · rw [if_pos hf] at hd
    rw [show x = _ from entry_of_fitting m.flushFails hl hf]
    cases hff : m.flushFails with
    | true =>
      simp only [hff, if_true] at hd
      obtain ⟨hlog, hmem⟩ := log_of_not_delivered hs hl hd
      obtain ⟨hsize, hout⟩ := hset hmem
      exact ⟨hlog, hsize, hout⟩
    | false =>
      simp only [hff] at hd
      rw [log_of_delivered hs hl hd]
      obtain ⟨hsize, hout⟩ := hset rfl
      exact ⟨rfl, hsize, hout⟩
  · rw [if_neg hf] at hd
    rw [show x = _ from entry_of_not_fitting m.flushFails hl hf]
    obtain ⟨hlog, hmem⟩ := log_of_not_delivered hs hl hd
    obtain ⟨hsize, hout⟩ := hset hmem
    exact ⟨hlog, hsize, hout⟩

end

/-! ## Any calls -/

structure Accounts (i : Nat) (book : List Entry) (s t : Appender × Host) : Prop where
  sink : t.1.sink = s.1.sink
  size : t.2.memories.size = s.2.memories.size
  count : ∀ f, t.1.metrics.count f = s.1.metrics.count f + UInt64.ofNat (book.countP (·.fate = f))
  outlet : t.2.outlet (.memory i) = ((s.2.outlet (.memory i)).taking (joined (book.map Entry.taken))).flushed
    (book.countP Entry.flushed)

theorem Accounts.nil {i : Nat} (a b : Appender) (hsink : b.sink = a.sink) (hmetrics : b.metrics = a.metrics)
    (h : Host) : Accounts i [] (a, h) (b, h) where
  sink := hsink
  size := rfl
  count f := by simp [hmetrics]
  outlet := by simp [Memory.taking, Memory.flushed]

theorem Accounts.single {i : Nat} {x : Entry} {s t : Appender × Host} (ha : t.1 = s.1.record x.fate)
    (hsize : t.2.memories.size = s.2.memories.size)
    (hout : t.2.outlet (.memory i) = ((s.2.outlet (.memory i)).taking x.taken).flushed x.flushed.toNat) :
    Accounts i [x] s t where
  sink := by rw [ha]; rfl
  size := hsize
  count f := by
    rw [ha]
    show (s.1.metrics.record x.fate).count f = _
    rw [Metrics.count_record]
    by_cases hf : x.fate = f
    · simp [hf]
    · simp [hf]
  outlet := by
    have hn : [x].countP Entry.flushed = x.flushed.toNat := by
      cases hx : x.flushed <;> simp [hx]
    rw [hout, hn]
    simp

theorem Accounts.trans {i : Nat} {b c : List Entry} {s t u : Appender × Host} (h : Accounts i b s t)
    (h' : Accounts i c t u) : Accounts i (b ++ c) s u where
  sink := h'.sink.trans h.sink
  size := h'.size.trans h.size
  count f := by
    rw [h'.count, h.count, List.countP_append, UInt64.ofNat_add, UInt64.add_assoc]
  outlet := by
    rw [h'.outlet, h.outlet]
    simp [Memory.taking, Memory.flushed, ByteArray.append_assoc, Nat.add_assoc]

theorem Accounts.left_eq {i : Nat} {book : List Entry} {s t : Appender × Host} (h : Accounts i book s t) :
    (t.2.outlet (.memory i)).left = roomAfter (s.2.outlet (.memory i)).left (joined (book.map Entry.taken)) := by
  rw [h.outlet, ← Memory.left_taking]
  rfl

theorem Accounts.flushFails_eq {i : Nat} {book : List Entry} {s t : Appender × Host} (h : Accounts i book s t) :
    (t.2.outlet (.memory i)).flushFails = (s.2.outlet (.memory i)).flushFails := by
  rw [h.outlet]
  rfl

theorem settings_log (a : Appender) (loggerName : String) (level : Level) (e : Event) (h : Host) :
    (a.log loggerName level e h).2.1.settings = a.settings := by
  obtain ⟨sink, hlog⟩ := a.log_eq loggerName level e h
  rw [hlog]
  rfl

theorem settings_apply (c : Call) (a : Appender) (h : Host) : (c.apply (a, h)).1.settings = a.settings.after c := by
  cases c with
  | log loggerName level e => exact settings_log a loggerName level e h
  | setLevel level => rfl
  | setPattern pattern =>
    simp only [Call.apply, setPattern, Formatter.reset, settings, Settings.after]
    cases Formatter.ofPattern pattern <;> rfl
  | setFormatter formatter => rfl

theorem accounts_apply {a : Appender} {h : Host} {i : Nat} (hs : a.sink = onMemory i)
    (hi : i < h.memories.size) (c : Call) :
    Accounts i (a.settings.ledger (h.outlet (.memory i)).flushFails (h.outlet (.memory i)).left [c]) (a, h)
      (c.apply (a, h)) := by
  cases c with
  | log loggerName level e =>
    obtain ⟨hlog, hsize, hout⟩ := log_onMemory hs hi loggerName level e
    exact .single hlog hsize hout
  | setLevel level => exact .nil a (a.setLevel level) rfl rfl h
  | setPattern pattern => exact .nil a (a.setPattern pattern).2 rfl rfl h
  | setFormatter formatter => exact .nil a (a.setFormatter formatter) rfl rfl h

/-! ## The ledger of one call after the other -/

section
variable (flushFails : Bool)

theorem ledger_cons (s : Settings) (room : Option Nat) (c : Call) (calls : List Call) :
    s.ledger flushFails room (c :: calls) = s.ledger flushFails room [c] ++ (s.after c).ledger flushFails
      (roomAfter room (joined ((s.ledger flushFails room [c]).map Entry.taken))) calls := by
  cases c with
  | log loggerName level e => simp [Settings.ledger, Settings.after]
  | setLevel level => simp [Settings.ledger, roomAfter_empty]
  | setPattern pattern => simp [Settings.ledger, roomAfter_empty]
  | setFormatter formatter => simp [Settings.ledger, roomAfter_empty]

theorem ledger_append (s : Settings) (room : Option Nat) (calls more : List Call) :
    s.ledger flushFails room (calls ++ more) = s.ledger flushFails room calls ++
      (calls.foldl Settings.after s).ledger flushFails
        (roomAfter room (joined ((s.ledger flushFails room calls).map Entry.taken))) more := by
  induction calls generalizing s room with
  | nil => simp [Settings.ledger, roomAfter_empty]
  | cons c calls ih =>
    rw [List.cons_append, ledger_cons, ih, ledger_cons flushFails s room c calls, List.foldl_cons]
    simp [List.append_assoc, roomAfter_roomAfter]

end

theorem accounts_run (calls : List Call) {a : Appender} {h : Host} {i : Nat} (hs : a.sink = onMemory i)
    (hi : i < h.memories.size) :
    Accounts i (a.settings.ledger (h.outlet (.memory i)).flushFails (h.outlet (.memory i)).left calls) (a, h)
      (run calls (a, h)) := by
  induction calls generalizing a h with
  | nil => exact .nil a a rfl rfl h
  | cons c calls ih =>
    have hc := accounts_apply hs hi c
    have ht := ih (hc.sink.trans hs) (by rw [hc.size]; exact hi)
    rw [settings_apply, hc.left_eq, hc.flushFails_eq] at ht
    rw [ledger_cons]
    exact hc.trans ht

theorem settings_run (calls : List Call) (a : Appender) (h : Host) :
    (run calls (a, h)).1.settings = calls.foldl Settings.after a.settings := by
  induction calls generalizing a h with
  | nil => rfl
  | cons c calls ih =>
    rw [List.foldl_cons, ← settings_apply c a h]
    exact ih _ _

/-! ## What an entry says -/

section
variable (s : Settings) (room : Option Nat) (flushFails : Bool) (loggerName : String) (level : Level) (e : Event)

theorem entry_fate_eq_filtered_iff :
    (s.entry room flushFails loggerName level e).fate = .filtered ↔ level < s.level := by
  by_cases hl : level < s.level
  · simp [entry_of_lt flushFails hl, hl]
  by_cases hf : fitting room (s.formatter.format loggerName level e).toUTF8 =
      (s.formatter.format loggerName level e).toUTF8
  · cases flushFails <;> simp [entry_of_fitting _ hl hf, hl]
  · simp [entry_of_not_fitting flushFails hl hf, hl]

theorem entry_fate_eq_written_iff : (s.entry room flushFails loggerName level e).fate = .written ↔
    ¬ level < s.level ∧ fitting room (s.formatter.format loggerName level e).toUTF8 =
      (s.formatter.format loggerName level e).toUTF8 ∧ flushFails = false := by
  by_cases hl : level < s.level
  · simp [entry_of_lt flushFails hl, hl]
  by_cases hf : fitting room (s.formatter.format loggerName level e).toUTF8 =
      (s.formatter.format loggerName level e).toUTF8
  · simp only [entry_of_fitting flushFails hl hf, hl, hf, not_false_eq_true, true_and]
    cases flushFails <;> simp
  · simp only [entry_of_not_fitting flushFails hl hf, hf, false_and, and_false, reduceCtorEq]

theorem entry_taken : (s.entry room flushFails loggerName level e).taken =
    if level < s.level then .empty else fitting room (s.formatter.format loggerName level e).toUTF8 := by
  by_cases hl : level < s.level
  · simp [entry_of_lt flushFails hl, hl]
  by_cases hf : fitting room (s.formatter.format loggerName level e).toUTF8 =
      (s.formatter.format loggerName level e).toUTF8
  · rw [entry_of_fitting flushFails hl hf, if_neg hl, hf]
  · rw [entry_of_not_fitting flushFails hl hf, if_neg hl]

theorem entry_flushed_iff : (s.entry room flushFails loggerName level e).flushed = true ↔
    ¬ level < s.level ∧ fitting room (s.formatter.format loggerName level e).toUTF8 =
      (s.formatter.format loggerName level e).toUTF8 := by
  by_cases hl : level < s.level
  · simp [entry_of_lt flushFails hl, hl]
  by_cases hf : fitting room (s.formatter.format loggerName level e).toUTF8 =
      (s.formatter.format loggerName level e).toUTF8
  · simp only [entry_of_fitting flushFails hl hf, hl, hf, not_false_eq_true, and_self]
  · simp only [entry_of_not_fitting flushFails hl hf, hf, and_false, Bool.false_eq_true]

end

/-- After any calls on an appender with a console on a memory: the counts are those of the fates in the
ledger, the memory holds in order what was taken of each event, and it was flushed once for each event
taken whole. One more event makes one more entry, by the threshold and the formatter then in force and the
room then left, and adds one to the count of its fate alone. -/
theorem run_console (a : Appender) (h : Host) (i : Nat) (hs : a.sink = .console { outlet := .memory i })
    (hi : i < h.memories.size) (calls : List Call) :
    let m := h.outlet (.memory i)
    let book := a.settings.ledger m.flushFails m.left calls
    let t := run calls (a, h)
    let m' := t.2.outlet (.memory i)
    (∀ f, t.1.metrics.count f = a.metrics.count f + UInt64.ofNat (book.countP (·.fate = f))) ∧
    m'.content = m.content ++ joined (book.map Entry.taken) ∧
    m'.flushes = m.flushes + book.countP Entry.flushed ∧
    ∀ loggerName level e,
      let now := calls.foldl Settings.after a.settings
      let rendering := (now.formatter.format loggerName level e).toUTF8
      ∃ x, a.settings.ledger m.flushFails m.left (calls ++ [.log loggerName level e]) = book ++ [x] ∧
        (∀ f, (t.1.log loggerName level e t.2).2.1.metrics.count f =
          t.1.metrics.count f + if x.fate = f then 1 else 0) ∧
        (x.fate = .filtered ↔ level < now.level) ∧
        (x.fate = .written ↔
          ¬ level < now.level ∧ fitting m'.left rendering = rendering ∧ m.flushFails = false) ∧
        x.taken = (if level < now.level then .empty else fitting m'.left rendering) ∧
        (x.flushed = true ↔ ¬ level < now.level ∧ fitting m'.left rendering = rendering) := by
  intro m book t m'
  have hrun : Accounts i book (a, h) t := accounts_run calls hs hi
  refine ⟨hrun.count, by rw [show m' = _ from hrun.outlet]; rfl, by rw [show m' = _ from hrun.outlet]; rfl, ?_⟩
  intro loggerName level e now rendering
  have hroom : m'.left = roomAfter m.left (joined (book.map Entry.taken)) := hrun.left_eq
  have hnow : t.1.settings = now := settings_run calls a h
  have hsnoc := ledger_append m.flushFails a.settings m.left calls [.log loggerName level e]
  rw [← hroom] at hsnoc
  refine ⟨now.entry m'.left m.flushFails loggerName level e, hsnoc, fun f => ?_,
    entry_fate_eq_filtered_iff .., entry_fate_eq_written_iff .., entry_taken .., entry_flushed_iff ..⟩
  have hlog := (log_onMemory (hrun.sink.trans hs) (by rw [hrun.size]; exact hi) loggerName level e).1
  rw [hnow, show (t.2.outlet (.memory i)).flushFails = m.flushFails from hrun.flushFails_eq] at hlog
  rw [hlog]
  show (t.1.metrics.record _).count f = _
  rw [Metrics.count_record]
  split
  · rfl
  · exact (UInt64.add_zero _).symm

/-- A writer of three bytes: an event below the threshold, one written whole, and one cut short under
another pattern. -/
theorem run_console_short_writer :
    let e (content : String) : Event :=
      { fileName := "f", line := 1, elapsed := 0, threadId := 1, fiberId := 0, time := 0, content }
    let a : Appender :=
      { id := ⟨0⟩, level := .info, formatter := ⟨"%m", [.message]⟩, sink := .console { outlet := .memory 0 } }
    let h : Host := { memories := #[{ limit := some 3 }] }
    let calls : List Call := [.log "l" .debug (e "a"), .log "l" .info (e "ab"), .setPattern "%p%m",
      .setLevel .debug, .log "l" .debug (e "c")]
    a.sink = .console { outlet := .memory 0 } ∧ 0 < h.memories.size ∧
      (∀ f, (run calls (a, h)).1.metrics.count f = 1) ∧
      ((run calls (a, h)).2.outlet (.memory 0)).content = "abD".toUTF8 ∧
      ((run calls (a, h)).2.outlet (.memory 0)).flushes = 1 := by
  intro e a h calls
  have hs : a.sink = .console { outlet := .memory 0 } := rfl
  have hi : 0 < h.memories.size := Nat.one_pos
  have hp : Formatter.ofPattern "%p%m" = .ok ⟨"%p%m", [.level, .message]⟩ := by cbv
  have hfirst : a.settings.ledger false (some 3) [.log "l" .debug (e "a"), .log "l" .info (e "ab")] =
      [⟨.filtered, .empty, false⟩, ⟨.written, "ab".toUTF8, true⟩] := rfl
  have hlast : (Settings.mk .info ⟨"%p%m", [.level, .message]⟩).ledger false (some 1)
      [.setLevel .debug, .log "l" .debug (e "c")] = [⟨.dropped, "D".toUTF8, false⟩] := rfl
  have hbook : a.settings.ledger (h.outlet (.memory 0)).flushFails (h.outlet (.memory 0)).left calls =
      [⟨.filtered, .empty, false⟩, ⟨.written, "ab".toUTF8, true⟩, ⟨.dropped, "D".toUTF8, false⟩] := by
    have happend := ledger_append false a.settings (some 3) [.log "l" .debug (e "a"), .log "l" .info (e "ab")]
      [.setPattern "%p%m", .setLevel .debug, .log "l" .debug (e "c")]
    rw [hfirst, ledger_cons] at happend
    simp only [List.foldl, Settings.after, hp] at happend
    rw [← hlast]
    exact happend
  obtain ⟨hcount, hcontent, hflushes, -⟩ := run_console a h 0 hs hi calls
  rw [hbook] at hcount hcontent hflushes
  refine ⟨hs, hi, fun f => ?_, ?_, ?_⟩
  · rw [hcount]
    cases f <;> rfl
  · rw [hcontent]
    decide +kernel
  · rw [hflushes]
    rfl

end Appender

end Logline
