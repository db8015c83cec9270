import Logline.Proofs.Appender.Ledger
import Logline.Proofs.Appender.Returning

/-!
# The course of an appender

An appender logs, is opened again and flushed, and gets other settings, while others do as they please to the
host. It loses an event silently when its sink is closed, and otherwise when the write is refused; the count
of lost events does not tell these apart, and it is from this count that a refusal is told or not.
-/

namespace Logline.Appender

open Output

/-! ## What becomes of an event -/

inductive Loss
  | closed
  | refused
  deriving DecidableEq, Repr

def loss? (a : Appender) (loggerName : String) (level : Level) (e : Event) (h : Host) : Option Loss :=
  if level < a.level then none
  else if a.sink.isReady then
    match (a.sink.write a.formatter loggerName level e h).1 with
    | .ok () => none
    | .error _ => some .refused
  else some .closed

theorem dropped_log (a : Appender) (loggerName : String) (level : Level) (e : Event) (h : Host) :
    (a.log loggerName level e h).2.1.metrics.dropped =
      a.metrics.dropped + if (a.loss? loggerName level e h).isSome then 1 else 0 := by
  have hend := a.ending_log loggerName level e h
  unfold loss?
  generalize a.log loggerName level e h = after at hend ⊢
  cases hend with
  | filtered hl => simp [hl, record, Metrics.record]
  | closed hl hready => simp [hl, hready, record, Metrics.record]
  | written hl hready hw => simp [hl, hready, hw, record, Metrics.record]
  | refused hl hready hw => simp [hl, hready, hw, record, Metrics.record]

theorem exists_of_refused {a : Appender} {loggerName : String} {level : Level} {e : Event} {h : Host}
    (hr : a.loss? loggerName level e h = some .refused) : ∃ fault sink k,
      a.sink.write a.formatter loggerName level e h = (.error fault, sink, k) ∧
      (a.log loggerName level e h) = ((a.report fault k).1, { a with sink }.record .dropped, (a.report fault k).2) := by
  have hend := a.ending_log loggerName level e h
  unfold loss? at hr
  generalize a.log loggerName level e h = after at hend ⊢
  cases hend with
  | filtered hl => simp [hl] at hr
  | closed hl hready => simp [hl, hready] at hr
  | written hl hready hw => simp [hl, hready, hw] at hr
  | refused hl hready hw => exact ⟨_, _, _, hw, rfl⟩

/-! ## Steps -/

inductive Step
  | call (c : Call)
  | reopen
  | flush
  | outside (change : Host → Host)

def Step.apply : Step → Appender × Host → Appender × Host
  | call c, s => c.apply s
  | reopen, (a, h) => (a.reopen h).2
  | flush, (a, h) => (a.flush h).2
  | outside change, (a, h) => (a, change h)

def Step.returns : Step → Appender × Host → Bool
  | call (.log loggerName level e), (a, h) => (a.log loggerName level e h).1.isOk
  | reopen, (a, h) => (a.reopen h).1.isOk
  | _, _ => true

def course (steps : List Step) (s : Appender × Host) : Appender × Host :=
  steps.foldl (fun s st => st.apply s) s

theorem course_cons (st : Step) (steps : List Step) (s : Appender × Host) :
    course (st :: steps) s = course steps (st.apply s) := rfl

def Step.loss? : Step → Appender × Host → Option Loss
  | call (.log loggerName level e), (a, h) => a.loss? loggerName level e h
  | _, _ => none

def losses (reason : Loss) : List Step → Appender × Host → Nat
  | [], _ => 0
  | st :: steps, s => (if st.loss? s = some reason then 1 else 0) + losses reason steps (st.apply s)

theorem dropped_apply (st : Step) (s : Appender × Host) :
    (st.apply s).1.metrics.dropped = s.1.metrics.dropped + if (st.loss? s).isSome then 1 else 0 := by
  obtain ⟨a, h⟩ := s
  cases st with
  | call c =>
    cases c with
    | log loggerName level e => exact a.dropped_log loggerName level e h
    | setLevel | setPattern | setFormatter => exact (UInt64.add_zero _).symm
  | reopen | flush | outside => exact (UInt64.add_zero _).symm

/-- Both kinds of losses go into one count. -/
theorem dropped_course (steps : List Step) (s : Appender × Host) : (course steps s).1.metrics.dropped =
    s.1.metrics.dropped + UInt64.ofNat (losses .closed steps s + losses .refused steps s) := by
  induction steps generalizing s with
  | nil => exact (UInt64.add_zero _).symm
  | cons st steps ih =>
    have hboth : (if (st.loss? s).isSome then 1 else 0 : UInt64) = UInt64.ofNat
        ((if st.loss? s = some .closed then 1 else 0) + if st.loss? s = some .refused then 1 else 0) := by
      cases st.loss? s with
      | none => rfl
      | some reason => cases reason <;> rfl
    rw [course_cons, ih, dropped_apply, hboth, losses, losses, UInt64.add_assoc, ← UInt64.ofNat_add]
    congr 2
    omega

/-! ## The first refusal -/

theorem isReported_ofNat (n : Nat) :
    isReported (UInt64.ofNat n) = true ↔ n % 2 ^ 64 = 0 ∨ (n + 1) % 2 ^ 64 % 1000 = 0 := by
  have hone : UInt64.ofNat n + 1 = UInt64.ofNat (n + 1) := (UInt64.ofNat_add n 1).symm
  rw [isReported, hone, Bool.or_eq_true, beq_iff_eq, beq_iff_eq, ← UInt64.toNat_inj, ← UInt64.toNat_inj]
  simp

/-- The first write that a new appender's sink refuses is told, in one line, if and only if no event has been
lost to a closed sink before it, or 999 of a thousand have. If it is told the call ends as the line does, which
goes through whole on an error stream without limit; if not, it returns. -/
theorem first_refusal (x : Appender) (h : Host) (steps : List Step) (loggerName : String) (level : Level) (e : Event)
    (hnew : x.metrics = {}) (hfirst : losses .refused steps (x, h) = 0) :
    let (y, k) := course steps (x, h)
    let lost := losses .closed steps (x, h)
    y.loss? loggerName level e k = some .refused → ∃ fault sink k',
      y.sink.write y.formatter loggerName level e k = (.error fault, sink, k') ∧
      ((y.log loggerName level e k).1, (y.log loggerName level e k).2.2) =
        (if lost % 2 ^ 64 = 0 ∨ (lost + 1) % 2 ^ 64 % 1000 = 0 then k'.complain (y.complaint fault) else (.ok (), k')) ∧
      (k.stderr.limit = none → k'.complain (y.complaint fault) =
        (.ok (), { k' with stderr := k'.stderr.taking (y.complaint fault ++ "\n").toUTF8 })) := by
  have hdropped := dropped_course steps (x, h)
  generalize course steps (x, h) = s at hdropped
  obtain ⟨y, k⟩ := s
  intro hrefused
  obtain ⟨fault, sink, k', hw, hlog⟩ := exists_of_refused hrefused
  have hlimit := y.sink.limit_write y.formatter loggerName level e k
  rw [hw] at hlimit
  refine ⟨fault, sink, k', hw, ?_, fun hroom => Host.complain_of_unlimited (hlimit.trans hroom) _⟩
  have hzero : y.metrics.dropped = UInt64.ofNat (losses .closed steps (x, h)) := by
    rw [hfirst, Nat.add_zero, hnew] at hdropped
    exact hdropped.trans (UInt64.zero_add _)
  simp only [hlog, report, hzero, isReported_ofNat]

/-- A new appender that is open on the full device, which an event below the threshold does not reach. -/
theorem first_refusal_told :
    let e : Event :=
      { fileName := "f", line := 1, elapsed := 0, threadId := 1, fiberId := 0, time := 0, content := "x" }
    let f : Sink.File := { path := "full", mode := .append, writer := some ⟨⟨.full, none⟩, .empty⟩ }
    let x : Appender := { id := ⟨0⟩, level := .info, formatter := ⟨"%m", [.message]⟩, sink := .file f }
    let s := course [.call (.log "l" .debug e)] (x, {})
    x.metrics = {} ∧ losses .refused [.call (.log "l" .debug e)] (x, {}) = 0 ∧
      s.1.loss? "l" .info e s.2 = some .refused ∧ ∃ fault sink k,
        s.1.sink.write s.1.formatter "l" .info e s.2 = (.error fault, sink, k) ∧
        (s.1.log "l" .info e s.2).1 = .ok () ∧ (s.1.log "l" .info e s.2).2.2 =
          { k with stderr := k.stderr.taking (s.1.complaint fault ++ "\n").toUTF8 } := by
  intro e f x s
  have hnew : x.metrics = {} := rfl
  have hfirst : losses .refused [.call (.log "l" .debug e)] (x, {}) = 0 := rfl
  have hrefused : s.1.loss? "l" .info e s.2 = some .refused := by cbv
  obtain ⟨fault, sink, k, hw, hlog, htold⟩ := first_refusal x {} _ "l" .info e hnew hfirst hrefused
  rw [if_pos (.inl rfl), htold rfl] at hlog
  obtain ⟨hreturns, htold⟩ := Prod.mk.inj hlog
  exact ⟨hnew, hfirst, hrefused, fault, sink, k, hw, hreturns, htold⟩

/-- Once an event has been lost to the closed sink, nothing is said of the first write that is refused. -/
theorem first_refusal_untold :
    ¬ ∀ (x : Appender) (h : Host) (steps : List Step) (loggerName : String) (level : Level) (e : Event),
      x.metrics = {} → losses .refused steps (x, h) = 0 →
      let (y, k) := course steps (x, h)
      k.stderr.limit = none → y.loss? loggerName level e k = some .refused → ∃ fault sink k',
        y.sink.write y.formatter loggerName level e k = (.error fault, sink, k') ∧
        (y.log loggerName level e k).2.2 = (k'.complain (y.complaint fault)).2 := by
  intro hall
  let e : Event := { fileName := "f", line := 1, elapsed := 0, threadId := 1, fiberId := 0, time := 0, content := "x" }
  let f : Sink.File := { path := "full", mode := .append }
  let x : Appender := { id := ⟨0⟩, level := .info, formatter := ⟨"%m", [.message]⟩, sink := .file f }
  let y : Appender := { x with sink := .file { f with writer := some ⟨⟨.full, none⟩, .empty⟩ } }
  let h : Host := { disk := { workingDirectory := devices } }
  have hopen : h.disk.openFile "full" false = (.ok ⟨.full, none⟩, h.disk) := by cbv
  have hreopen : (x.record .dropped).reopen h = (.ok true, y.record .dropped, h) := by
    have hmode : (FileMode.append == FileMode.truncate) = false := rfl
    simp only [reopen, record, x, f, Sink.reopen, Sink.File.reopenOrComplain, Sink.File.reopen, Sink.File.close,
      Sink.File.flush, Sink.File.onWriter, hmode, hopen]
    rfl
  have hcourse : course [.call (.log "l" .info e), .reopen] (x, h) = (y.record .dropped, h) :=
    congrArg Prod.snd hreopen
  have hfirst : losses .refused [.call (.log "l" .info e), .reopen] (x, h) = 0 := rfl
  have hlog := hall x h [.call (.log "l" .info e), .reopen] "l" .info e rfl hfirst
  rw [hcourse] at hlog
  obtain ⟨fault, sink, k, hw, hlog⟩ := hlog rfl (by cbv)
  have hwrite : (y.record .dropped).sink.write y.formatter "l" .info e h = (.error (.os .noSpace),
      .file { path := "full", mode := .append, writer := some ⟨⟨.full, none⟩, "x".toUTF8⟩ }, h) := by cbv
  have hsilent : ((y.record .dropped).log "l" .info e h).2.2.stderr.content.size = 0 := by cbv
  cases hwrite.symm.trans hw
  rw [hlog] at hsilent
  exact absurd hsilent (by decide +kernel)

end Logline.Appender
