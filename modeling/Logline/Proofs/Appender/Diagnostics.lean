import Logline.Proofs.Appender.Course

/-!
# What is said of failures on a console

An appender on a console loses an event only when the write fails. So the count of lost events is the count of
failures, and from it follows for which of them a line is due: the first and every thousandth. A line that is due
is told whole or cuts the call short.
-/

namespace Logline

open Output

def Output.Host.complain? (h : Host) : Option String → Except Fault Unit × Host
  | some line => h.complain line
  | none => (.ok (), h)

namespace Appender

/-! ## One event -/

def due? (a : Appender) (loggerName : String) (level : Level) (e : Event) (h : Host) : Option String :=
  if level < a.level then none
  else if a.sink.isReady then
    match (a.sink.write a.formatter loggerName level e h).1 with
    | .ok () => none
    | .error fault => if isReported a.metrics.dropped then some (a.complaint fault) else none
  else none

def served (a : Appender) (loggerName : String) (level : Level) (e : Event) (h : Host) : Host :=
  if level < a.level then h
  else if a.sink.isReady then (a.sink.write a.formatter loggerName level e h).2.2
  else h

/-- What the sink takes of the event if it is a console on the error stream. -/
def share (a : Appender) (loggerName : String) (level : Level) (e : Event) (h : Host) : ByteArray :=
  match a.sink with
  | .console c =>
    if level < a.level ∨ c.outlet ≠ .stderr then .empty
    else fitting h.stderr.left (String.join (c.pieces h.ansi a.formatter loggerName level e)).toUTF8
  | .file _ => .empty

section
variable (a : Appender) (loggerName : String) (level : Level) (e : Event) (h : Host)

theorem host_log : ((a.log loggerName level e h).1, (a.log loggerName level e h).2.2) =
    (a.served loggerName level e h).complain? (a.due? loggerName level e h) := by
  have hend := a.ending_log loggerName level e h
  unfold due? served
  generalize a.log loggerName level e h = after at hend ⊢
  cases hend with
  | filtered hl => simp only [hl, if_true]; rfl
  | closed hl hready => simp only [hl, hready, Bool.false_eq_true, if_false]; rfl
  | written hl hready hw => simp only [hl, hready, hw, if_true, if_false]; rfl
  | refused hl hready hw =>
    simp only [hl, hready, hw, if_true, if_false, report]
    split <;> rfl

theorem isSome_due?_iff : (a.due? loggerName level e h).isSome = true ↔
    a.loss? loggerName level e h = some .refused ∧ isReported a.metrics.dropped = true := by
  unfold due? loss?
  split
  · simp
  · split
    · cases (a.sink.write a.formatter loggerName level e h).1 with
      | ok => simp
      | error fault => simp only [true_and]; split <;> simp_all
    · simp

theorem exists_of_due? {line : String} (hline : a.due? loggerName level e h = some line) :
    ∃ fault, line = a.complaint fault := by
  unfold due? at hline
  split at hline
  · cases hline
  · split at hline
    · split at hline
      · cases hline
      · next fault hw =>
        split at hline
        · exact ⟨fault, (Option.some.inj hline).symm⟩
        · cases hline
    · cases hline

theorem content_served : (a.served loggerName level e h).stderr.content =
    h.stderr.content ++ a.share loggerName level e h := by
  unfold served share
  cases hs : a.sink with
  | file f => split <;> [skip; split] <;> exact ByteArray.append_empty.symm
  | console c =>
    by_cases hl : level < a.level
    · simp only [hl, true_or, if_true]
      exact ByteArray.append_empty.symm
    simp only [hl, false_or, if_false, show (Sink.console c).isReady = true from rfl, if_true, Sink.write,
      Sink.Console.write, Host.onOutlet]
    by_cases ho : c.outlet = .stderr
    · simp only [ho, ne_eq, not_true_eq_false, if_false]
      show (deliver _ h.stderr).2.content = _
      rw [Memory.deliver_eq, joined_toUTF8]
      split
      · next hfit => rw [hfit]; rfl
      · rfl
    · rw [if_pos ho, Host.stderr_setOutlet ho]
      exact ByteArray.append_empty.symm

end

/-! ## Steps -/

def Step.due? : Step → Appender × Host → Option String
  | call (.log loggerName level e), (a, h) => a.due? loggerName level e h
  | _, _ => none

def Step.served : Step → Appender × Host → Host
  | call (.log loggerName level e), (a, h) => a.served loggerName level e h
  | st, s => (st.apply s).2

def Step.share : Step → Appender × Host → ByteArray
  | call (.log loggerName level e), (a, h) => a.share loggerName level e h
  | _, _ => .empty

def Step.told? (st : Step) (s : Appender × Host) : Option String :=
  if st.returns s then st.due? s else none

def said : List Step → Appender × Host → List String
  | [], _ => []
  | st :: steps, s => (st.told? s).toList ++ said steps (st.apply s)

def cuts : List Step → Appender × Host → Nat
  | [], _ => 0
  | st :: steps, s => (if st.returns s then 0 else 1) + cuts steps (st.apply s)

/-- What some steps put on the error stream if all of them return. -/
def heard : List Step → Appender × Host → List ByteArray
  | [], _ => []
  | st :: steps, s => st.share s :: (st.told? s).toList.map lineBytes ++ heard steps (st.apply s)

theorem isSome_due?_step_iff (st : Step) (s : Appender × Host) : (st.due? s).isSome = true ↔
    st.loss? s = some .refused ∧ isReported s.1.metrics.dropped = true := by
  obtain ⟨a, h⟩ := s
  cases st with
  | call c =>
    cases c with
    | log loggerName level e => exact a.isSome_due?_iff loggerName level e h
    | setLevel | setPattern | setFormatter => simp [Step.due?, Step.loss?]
  | reopen | flush | outside => simp [Step.due?, Step.loss?]

section
variable {st : Step} {s : Appender × Host} {line : String}

theorem loss?_of_due? (hdue : st.due? s = some line) : st.loss? s = some .refused :=
  ((isSome_due?_step_iff st s).mp (Option.isSome_of_eq_some hdue)).1

theorem due?_of_told? (htold : st.told? s = some line) : st.due? s = some line ∧ st.returns s = true := by
  unfold Step.told? at htold
  split at htold
  · next hreturns => exact ⟨htold, hreturns⟩
  · cases htold

end

theorem said_append (steps more : List Step) (s : Appender × Host) :
    said (steps ++ more) s = said steps s ++ said more (course steps s) := by
  induction steps generalizing s with
  | nil => rfl
  | cons st steps ih =>
    rw [List.cons_append, said, said, ih, course_cons, List.append_assoc]

/-! ## How many of some failures are told -/

/-- The first, and every thousandth. -/
def told (n : Nat) : Nat :=
  if n = 0 then 0 else 1 + n / 1000

theorem told_succ {n : Nat} (hn : n + 1 < 2 ^ 64) :
    told (n + 1) = told n + if isReported (UInt64.ofNat n) = true then 1 else 0 := by
  simp only [isReported_ofNat, Nat.mod_eq_of_lt (Nat.lt_of_succ_lt hn), Nat.mod_eq_of_lt hn]
  unfold told
  split
  · omega
  · split
    · split
      · omega
      · omega
    · split
      · omega
      · omega

/-! ## A console -/

structure OnConsole (c : Sink.Console) (id : AppenderId) (x : Appender) : Prop where
  sink : x.sink = .console c
  id : x.id = id

def Step.SparesStderr : Step → Prop
  | outside change => ∀ h, (change h).stderr = h.stderr
  | _ => True

namespace OnConsole

variable {c : Sink.Console} {id : AppenderId} {s : Appender × Host}

theorem complaint_eq {x y : Appender} (hx : x.OnConsole c id) (hy : y.OnConsole c id) (fault : Fault) :
    x.complaint fault = y.complaint fault := by
  unfold complaint label
  rw [hx.sink, hy.sink, hx.id, hy.id]

section
variable (hs : s.1.OnConsole c id) (st : Step)
include hs

/-- A console is never closed. -/
theorem loss?_ne_closed : st.loss? s ≠ some .closed := by
  intro hclosed
  obtain ⟨x, h⟩ := s
  cases st with
  | call call =>
    cases call with
    | log loggerName level e =>
      have hready : x.sink.isReady = true := by
        rw [hs.sink]
        rfl
      simp only [Step.loss?, loss?, hready, if_true] at hclosed
      split at hclosed
      · cases hclosed
      · split at hclosed
        · cases hclosed
        · cases hclosed
    | setLevel | setPattern | setFormatter => cases hclosed
  | reopen | flush | outside => cases hclosed

theorem apply : (st.apply s).1.OnConsole c id := by
  obtain ⟨⟨id', level, formatter, sink, metrics⟩, h⟩ := s
  obtain ⟨rfl, rfl⟩ := hs
  cases st with
  | call call =>
    cases call with
    | log loggerName lv e =>
      refine ⟨?_, ?_⟩
      · exact sink_log (P := (· = .console c)) _ loggerName lv e h rfl rfl
      · obtain ⟨sink, hlog⟩ := log_eq ⟨id', level, formatter, .console c, metrics⟩ loggerName lv e h
        rw [Step.apply, Call.apply, hlog]
    | setLevel | setPattern | setFormatter => exact ⟨rfl, rfl⟩
  | reopen | flush | outside => exact ⟨rfl, rfl⟩

/-- A line that is due decides how the step ends; without one it returns. -/
theorem ends : (st.apply s).2 = ((st.served s).complain? (st.due? s)).2 ∧
    st.returns s = ((st.served s).complain? (st.due? s)).1.isOk := by
  obtain ⟨⟨id', level, formatter, sink, metrics⟩, h⟩ := s
  obtain ⟨rfl, rfl⟩ := hs
  cases st with
  | call call =>
    cases call with
    | log loggerName lv e =>
      have hlog := host_log ⟨id', level, formatter, .console c, metrics⟩ loggerName lv e h
      exact ⟨congrArg Prod.snd hlog, congrArg (fun p => p.1.isOk) hlog⟩
    | setLevel | setPattern | setFormatter => exact ⟨rfl, rfl⟩
  | reopen | flush | outside => exact ⟨rfl, rfl⟩

/-- Either a line is due and is told or cuts the call short, or none is due and the call returns. -/
theorem told?_cases : (st.due? s = none ∧ st.told? s = none ∧ st.returns s = true) ∨
    ∃ line, st.due? s = some line ∧ (st.told? s = some line ∧ st.returns s = true ∨
      st.told? s = none ∧ st.returns s = false) := by
  obtain ⟨-, hreturns⟩ := hs.ends st
  unfold Step.told?
  cases hdue : st.due? s with
  | none =>
    rw [hdue] at hreturns
    exact .inl ⟨rfl, ite_self _, hreturns⟩
  | some line =>
    refine .inr ⟨line, rfl, ?_⟩
    cases st.returns s with
    | true => exact .inl ⟨rfl, rfl⟩
    | false => exact .inr ⟨rfl, rfl⟩

variable {st}

theorem refused_of_cut (hcut : st.returns s = false) : st.loss? s = some .refused := by
  rcases hs.told?_cases st with ⟨-, -, hreturns⟩ | ⟨line, hdue, -⟩
  · cases hcut.symm.trans hreturns
  · exact loss?_of_due? hdue

variable (st)

theorem length_told? : (st.told? s).toList.length + (if st.returns s then 0 else 1) =
    if st.loss? s = some .refused ∧ isReported s.1.metrics.dropped = true then 1 else 0 := by
  have hdue := isSome_due?_step_iff st s
  rcases hs.told?_cases st with ⟨hnone, htold, hreturns⟩ | ⟨line, hsome, ⟨htold, hreturns⟩ | ⟨htold, hreturns⟩⟩
  · rw [hnone] at hdue
    rw [htold, hreturns, if_neg (mt hdue.mpr Bool.false_ne_true)]
    rfl
  · rw [hsome] at hdue
    rw [htold, hreturns, if_pos (hdue.mp rfl)]
    rfl
  · rw [hsome] at hdue
    rw [htold, hreturns, if_pos (hdue.mp rfl)]
    rfl

end

theorem after_course (hs : s.1.OnConsole c id) (steps : List Step) : (course steps s).1.OnConsole c id := by
  induction steps generalizing s with
  | nil => exact hs
  | cons st steps ih => exact ih (hs.apply st)

/-- As the count of lost events goes up with every failure, so does that of the lines told and the calls cut
short. -/
theorem told_add_length_said (steps : List Step) (hs : s.1.OnConsole c id) {n : Nat}
    (hn : s.1.metrics.dropped = UInt64.ofNat n) (hlt : n + losses .refused steps s < 2 ^ 64) :
    told n + ((said steps s).length + cuts steps s) = told (n + losses .refused steps s) := by
  -- `n` failures came before these steps
  induction steps generalizing s n with
  | nil => rfl
  | cons st steps ih =>
    have hdropped := dropped_apply st s
    have hlength := hs.length_told? st
    rw [losses] at hlt ⊢
    rw [said, List.length_append, cuts, Nat.add_add_add_comm, hlength, hn, ← Nat.add_assoc]
    by_cases hr : st.loss? s = some .refused
    · simp only [hr, if_true, true_and, Option.isSome_some] at hdropped hlt ⊢
      rw [← Nat.add_assoc n, ← told_succ (by omega)]
      exact ih (hs.apply st) (by rw [hdropped, hn, UInt64.ofNat_add]; rfl) (by omega)
    · have hnone : st.loss? s = none := by
        cases hl : st.loss? s with
        | none => rfl
        | some reason =>
          cases reason with
          | closed => exact absurd hl (hs.loss?_ne_closed st)
          | refused => exact absurd hl hr
      simp only [hnone, reduceCtorEq, false_and, if_false, Option.isSome_none, Bool.false_eq_true,
        UInt64.add_zero, Nat.zero_add, Nat.add_zero] at hdropped hlt ⊢
      exact ih (hs.apply st) (hdropped.trans hn) hlt

theorem exists_of_mem_said {x : Appender} (hx : x.OnConsole c id) (steps : List Step)
    (hs : s.1.OnConsole c id) {line : String} (hline : line ∈ said steps s) : ∃ fault, line = x.complaint fault := by
  induction steps generalizing s with
  | nil => cases hline
  | cons st steps ih =>
    rcases List.mem_append.mp hline with hline | hline
    · obtain ⟨hdue, -⟩ := due?_of_told? (Option.mem_toList.mp hline)
      obtain ⟨y, h⟩ := s
      cases st with
      | call call =>
        cases call with
        | log loggerName level e =>
          obtain ⟨fault, hfault⟩ := y.exists_of_due? loggerName level e h hdue
          exact ⟨fault, hfault.trans (hs.complaint_eq hx fault)⟩
        | setLevel | setPattern | setFormatter => cases hdue
      | reopen | flush | outside => cases hdue
    · exact ih (hs.apply st) hline

/-! ## The error stream -/

section
variable (hs : s.1.OnConsole c id) {st : Step} (hst : st.SparesStderr)
include hs hst

theorem limit_apply : (st.apply s).2.stderr.limit = s.2.stderr.limit := by
  obtain ⟨x, h⟩ := s
  cases st with
  | call call =>
    cases call with
    | log loggerName level e => exact x.limit_log loggerName level e h
    | setLevel | setPattern | setFormatter => rfl
  | reopen => exact x.sink.limit_reopen h
  | flush => exact x.sink.limit_flush h
  | outside change => exact congrArg Memory.limit (hst h)

theorem content_served : (st.served s).stderr.content = s.2.stderr.content ++ st.share s := by
  obtain ⟨⟨id', level, formatter, sink, metrics⟩, h⟩ := s
  obtain ⟨rfl, rfl⟩ := hs
  have hsame : ∀ {k : Host}, k.stderr.content = h.stderr.content →
      k.stderr.content = h.stderr.content ++ .empty := fun hk => hk.trans ByteArray.append_empty.symm
  cases st with
  | call call =>
    cases call with
    | log loggerName lv e => exact Appender.content_served _ loggerName lv e h
    | setLevel | setPattern | setFormatter => exact hsame rfl
  | reopen => exact hsame rfl
  | flush =>
    refine hsame ?_
    show ((c.flush h).2).stderr.content = _
    unfold Sink.Console.flush Host.onOutlet
    cases c.outlet <;> rfl
  | outside change => exact hsame (congrArg Memory.content (hst h))

/-- A step puts on the error stream what its sink takes there and the line it tells; the beginning of a line
stands there too if the call is cut short. -/
theorem content_apply : ∃ rest, (st.apply s).2.stderr.content =
    s.2.stderr.content ++ st.share s ++ joined ((st.told? s).toList.map lineBytes) ++ rest ∧
      (st.returns s = true → rest = .empty) := by
  have hserved := hs.content_served hst
  obtain ⟨hhost, hreturns⟩ := hs.ends st
  rcases hs.told?_cases st with ⟨hdue, htold, -⟩ | ⟨line, hdue, hline⟩
  · rw [hdue] at hhost
    refine ⟨.empty, ?_, fun _ => rfl⟩
    rw [htold, hhost]
    show (st.served s).stderr.content = _
    rw [hserved]
    simp
  · rw [hdue] at hhost hreturns
    obtain ⟨rest, hcontent, hwhole⟩ := (st.served s).content_complain line
    have hafter := (congrArg (fun h : Host => h.stderr.content) hhost).trans hcontent
    rw [hserved] at hafter
    rcases hline with ⟨htold, hok⟩ | ⟨htold, hcut⟩
    · rw [htold, hafter, hwhole (hreturns.symm.trans hok)]
      exact ⟨.empty, by simp, fun _ => rfl⟩
    · rw [htold, hafter]
      refine ⟨rest, by simp, fun hok => ?_⟩
      cases hok.symm.trans hcut

theorem returns_of_unlimited (hroom : s.2.stderr.limit = none) : st.returns s = true := by
  obtain ⟨x, h⟩ := s
  cases st with
  | call call =>
    cases call with
    | log loggerName level e =>
      rw [Step.returns, x.log_returns loggerName level e hroom]
      rfl
    | setLevel | setPattern | setFormatter => rfl
  | reopen =>
    obtain ⟨isOpen, hok⟩ := x.sink.reopen_returns hroom
    show (x.sink.reopen h).1.isOk = true
    rw [hok]
    rfl
  | flush | outside => rfl

end

section
variable {steps : List Step} (hsteps : ∀ st ∈ steps, st.SparesStderr) (hs : s.1.OnConsole c id)
include hsteps hs

theorem cuts_eq_zero (hroom : s.2.stderr.limit = none) : cuts steps s = 0 := by
  induction steps generalizing s with
  | nil => rfl
  | cons st steps ih =>
    obtain ⟨hst, hsteps⟩ := List.forall_mem_cons.mp hsteps
    rw [cuts, hs.returns_of_unlimited hst hroom, ih hsteps (hs.apply st) ((hs.limit_apply hst).trans hroom)]
    rfl

theorem content_course (hcuts : cuts steps s = 0) :
    (course steps s).2.stderr.content = s.2.stderr.content ++ joined (heard steps s) := by
  induction steps generalizing s with
  | nil => exact ByteArray.append_empty.symm
  | cons st steps ih =>
    obtain ⟨hst, hsteps⟩ := List.forall_mem_cons.mp hsteps
    obtain ⟨hcut, hrest⟩ := Nat.add_eq_zero_iff.mp hcuts
    have hreturns : st.returns s = true := by
      by_contra hne
      rw [if_neg hne] at hcut
      cases hcut
    obtain ⟨rest, hcontent, hempty⟩ := hs.content_apply hst
    rw [course_cons, ih hsteps (hs.apply st) hrest, hcontent, hempty hreturns, heard]
    simp [ByteArray.append_assoc]

end

/-- Unless the console is the error stream itself, only lines stand there. -/
theorem joined_heard (ho : c.outlet ≠ .stderr) (hs : s.1.OnConsole c id) (steps : List Step) :
    joined (heard steps s) = joined ((said steps s).map lineBytes) := by
  induction steps generalizing s with
  | nil => rfl
  | cons st steps ih =>
    have hshare : st.share s = .empty := by
      obtain ⟨x, h⟩ := s
      cases st with
      | call call =>
        cases call with
        | log loggerName level e =>
          have hsink : x.sink = .console c := hs.sink
          simp [Step.share, share, hsink, ho]
        | setLevel | setPattern | setFormatter => rfl
      | reopen | flush | outside => rfl
    rw [heard, said, List.map_append, List.cons_append, joined_cons, joined_append, joined_append, hshare,
      ih (hs.apply st), ByteArray.empty_append]

end OnConsole

end Appender

end Logline
