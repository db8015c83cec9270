import Logline.Proofs.Appender.Opening
import Logline.Proofs.Output.Sharing
import Logline.Proofs.System.Every

/-!
# Appenders that share a file

Appenders that have the same file open are writers that share it: those in append mode write at its end, and
those in truncate mode each at a position of its own. So what one of them writes stays whole until one in
truncate mode writes over it; and if these find themselves at the end of the file whenever they write, the
events follow one another in the order of the calls.
-/

namespace Logline

open Output

/-! ## Sinks -/

namespace Sink

def Settled : Sink → Prop
  | console _ => True
  | file f => f.Settled

def Made : Sink → Prop
  | console _ => True
  | file f => ∃ attempts, f.Made f.path f.mode attempts

theorem Made.settled {x : Sink} (h : x.Made) : x.Settled := by
  cases x with
  | console c => trivial
  | file f =>
    obtain ⟨attempts, hmade⟩ := h
    obtain ⟨target, hbound, -⟩ := hmade.bound
    exact hbound.settled

theorem Settled.write {x : Sink} (h : x.Settled) (f : Formatter) (loggerName : String) (level : Level) (e : Event)
    (k : Host) : (x.write f loggerName level e k).2.1.Settled := by
  cases x with
  | console c => trivial
  | file s => exact File.Settled.write h f loggerName level e

theorem Settled.flush {x : Sink} (h : x.Settled) (k : Host) : (x.flush k).2.1.Settled := by
  cases x with
  | console c => trivial
  | file s => exact File.Settled.flush h

theorem Settled.reopen {x : Sink} (h : x.Settled) (k : Host) : (x.reopen k).2.1.Settled := by
  cases x with
  | console c => trivial
  | file s =>
    have hs : (s.reopen k.disk).2.1.Settled := File.Settled.reopen s k.disk
    simp only [Sink.reopen, File.reopenOrComplain]
    split <;> exact hs

end Sink

/-! ## Appenders -/

namespace Appender

/-- Where the appender's sink writes next, if not at the end of its file. -/
def position? (x : Appender) : Option Nat :=
  match x.sink with
  | .file f => f.writer.bind (·.handle.position)
  | .console _ => none

def mode? (x : Appender) : Option FileMode :=
  match x.sink with
  | .file f => some f.mode
  | .console _ => none

variable {x : Appender} {id : FileId}

theorem settled_log (hx : x.sink.Settled) (loggerName : String) (level : Level) (e : Event) (h : Host) :
    (x.log loggerName level e h).2.1.sink.Settled :=
  x.sink_log loggerName level e h hx (hx.write x.formatter loggerName level e h)

theorem exists_writer (hid : x.file? = some id) : ∃ f w, x.sink = .file f ∧ f.writer = some w ∧
    w.handle.target = .file id := by
  unfold file? at hid
  split at hid
  · next f hf =>
    obtain ⟨w, hw, ht⟩ := Option.bind_eq_some_iff.mp hid
    exact ⟨f, w, hf, hw, Target.file?_eq_some_iff.mp ht⟩
  · cases hid

theorem log_of_open (hx : x.sink.Settled) (hid : x.file? = some id) {level : Level} (hl : ¬ level < x.level)
    (loggerName : String) (e : Event) (h : Host) : ∃ f w, x.sink = .file f ∧ f.writer = some w ∧
      w.handle.target = .file id ∧
      let o := OpenFile.placed (x.formatter.format loggerName level e).toUTF8 ⟨w.handle, h.disk⟩
      x.log loggerName level e h =
        (.ok (), { x with sink := .file { f with writer := some ⟨o.handle, .empty⟩ } }.record .written,
          { h with disk := o.disk }) := by
  obtain ⟨f, w, hf, hw, ht⟩ := exists_writer hid
  have hsettled : f.Settled := by rwa [hf] at hx
  exact ⟨f, w, hf, hw, ht, log_of_writer hf hw ht (hsettled.pending w id hw ht) hl loggerName e⟩

/-- In truncate mode, and in no other, an appender has a position of its own. -/
theorem position?_eq_none_iff (hx : x.sink.Settled) (hid : x.file? = some id) :
    x.position? = none ↔ x.mode? = some .append := by
  obtain ⟨f, w, hf, hw, -⟩ := exists_writer hid
  rw [hf] at hx
  rw [position?, mode?, hf]
  simp only [hw, Option.bind_some, Option.some.injEq]
  exact hx.position w hw

end Appender

/-! ## Systems -/

namespace System

theorem lasting_settled : Lasting (fun _ x => x.sink.Settled) Sink.Made fun _ => True where
  log _ _ loggerName level e h hx := Appender.settled_log hx loggerName level e h
  reopen _ _ h hx := hx.reopen h
  flush _ _ h hx := hx.flush h
  setLevel _ _ _ hx := hx
  setPattern _ _ _ hx := hx
  setFormatter _ _ _ _ hx := hx
  made _ _ _ _ hsink _ := hsink.settled
  console := trivial
  opened path mode d file d' ho := by
    have hmade := Sink.File.Made.opened ho
    obtain ⟨target, hbound, -⟩ := hmade.bound
    rw [← hbound.path, ← hbound.mode] at hmade
    exact ⟨[true], hmade⟩
  standard := trivial
  compiled _ _ _ := trivial

def shared (s : System) (id : FileId) : Shared AppenderId where
  content := s.host.disk.content id
  position a := (s.appenderAt? a).bind Appender.position?

structure Logging where
  appender : AppenderId
  loggerName : String
  level : Level
  event : Event

def logged (ls : List Logging) (s : System) : System :=
  ls.foldl (fun s l => (s.deliver l.loggerName l.level l.event l.appender).2) s

def text? (s : System) (l : Logging) : Option (AppenderId × ByteArray) :=
  match s.appenderAt? l.appender with
  | some x =>
    if l.level < x.level then none
    else some (l.appender, (x.formatter.format l.loggerName l.level l.event).toUTF8)
  | none => none

def texts (s : System) (ls : List Logging) : List (AppenderId × ByteArray) :=
  ls.filterMap s.text?

def OpenOn (s : System) (id : FileId) (a : AppenderId) : Prop :=
  ∃ x, s.appenderAt? a = some x ∧ x.file? = some id ∧ x.sink.Settled

/-- Appenders have written to the file in turn, and nothing has been lost. -/
structure Served (id : FileId) (s t : System) (ws : List (AppenderId × ByteArray)) : Prop where
  shared : t.shared id = (s.shared id).writes ws
  size : t.host.disk.contents.size = s.host.disk.contents.size
  others : ∀ other, other ≠ id → t.host.disk.content other = s.host.disk.content other
  opened : ∀ b, s.OpenOn id b → t.OpenOn id b
  appender : ∀ b x, s.appenderAt? b = some x → ∃ y, t.appenderAt? b = some y ∧ y.level = x.level ∧
    y.formatter = x.formatter ∧ y.metrics.dropped = x.metrics.dropped ∧
    y.metrics.written = x.metrics.written + UInt64.ofNat (ws.countP (·.1 = b))
  absent : ∀ b, s.appenderAt? b = none → t.appenderAt? b = none

namespace Served

variable {id : FileId} {s t u : System} {ws vs : List (AppenderId × ByteArray)}

theorem refl (id : FileId) (s : System) : Served id s s [] :=
  ⟨rfl, rfl, fun _ _ => rfl, fun _ h => h, fun _ x hx => ⟨x, hx, rfl, rfl, rfl, (UInt64.add_zero _).symm⟩, fun _ h => h⟩

theorem trans (h : Served id s t ws) (h' : Served id t u vs) : Served id s u (ws ++ vs) where
  shared := by rw [h'.shared, h.shared, Shared.writes_append]
  size := h'.size.trans h.size
  others other ho := (h'.others other ho).trans (h.others other ho)
  opened b hb := h'.opened b (h.opened b hb)
  appender b x hx := by
    obtain ⟨y, hy, hlevel, hformatter, hdropped, hwritten⟩ := h.appender b x hx
    obtain ⟨z, hz, hlevel', hformatter', hdropped', hwritten'⟩ := h'.appender b y hy
    refine ⟨z, hz, hlevel'.trans hlevel, hformatter'.trans hformatter, hdropped'.trans hdropped, ?_⟩
    rw [hwritten', hwritten, List.countP_append, UInt64.ofNat_add, UInt64.add_assoc]
  absent b hb := h'.absent b (h.absent b hb)

theorem text? (h : Served id s t ws) (l : Logging) : t.text? l = s.text? l := by
  unfold System.text?
  cases ha : s.appenderAt? l.appender with
  | none => rw [h.absent _ ha]
  | some x =>
    obtain ⟨y, hy, hlevel, hformatter, -⟩ := h.appender _ x ha
    simp only [hy, hlevel, hformatter]

end Served

section
variable {id : FileId} {s t : System} {a : AppenderId} {x y : Appender}

theorem shared_of_touched (hx : s.appenderAt? a = some x)
    (ht : ∀ b, t.appenderAt? b = if b = a then some y else s.appenderAt? b)
    (hcontent : t.host.disk.content id = s.host.disk.content id) (hposition : y.position? = x.position?) :
    t.shared id = s.shared id := by
  unfold shared
  rw [hcontent]
  congr 1
  funext b
  rw [ht]
  split
  · next hb => rw [hb, hx]; exact hposition
  · rfl

/-- What is placed in the file is written to it at the position that the appender has. -/
theorem shared_of_placed (hid : id < s.host.disk.contents.size) (hx : s.appenderAt? a = some x)
    (ht : ∀ b, t.appenderAt? b = if b = a then some y else s.appenderAt? b) {handle : Handle}
    (htarget : handle.target = .file id) (hposition : x.position? = handle.position) (bytes : ByteArray)
    (hdisk : t.host.disk = (OpenFile.placed bytes ⟨handle, s.host.disk⟩).disk)
    (hafter : y.position? = (OpenFile.placed bytes ⟨handle, s.host.disk⟩).handle.position) :
    t.shared id = (s.shared id).write a bytes := by
  have hown : (s.shared id).position a = handle.position := by
    show (s.appenderAt? a).bind Appender.position? = _
    rw [hx, Option.bind_some, hposition]
  by_cases hne : bytes.size = 0
  · rw [OpenFile.placed, if_pos hne] at hdisk hafter
    rw [Shared.write, if_pos hne]
    exact shared_of_touched hx ht (by rw [hdisk]) (hafter.trans hposition.symm)
  · rw [OpenFile.placed_of_file htarget hne] at hdisk hafter
    rw [Shared.write, if_neg hne, hown]
    cases hp : handle.position with
    | none =>
      rw [hp] at hposition
      simp only [hp, Option.map_none] at hdisk hafter
      rw [← shared_of_touched (t := { t with host := s.host }) hx ht rfl (hafter.trans hposition.symm)]
      show System.shared t id = _
      unfold shared
      rw [hdisk, Disk.content_setContent hid, if_pos rfl]
      rfl
    | some k =>
      simp only [hp, Option.map_some] at hdisk hafter
      unfold shared
      rw [hdisk, Disk.content_setContent hid, if_pos rfl]
      congr 1
      funext b
      rw [ht, Function.update_apply]
      split
      · exact hafter
      · rfl

/-- One appender has done its part, and the others have done nothing. -/
theorem served_of_touched {ws : List (AppenderId × ByteArray)} (hx : s.appenderAt? a = some x)
    (ht : ∀ b, t.appenderAt? b = if b = a then some y else s.appenderAt? b) (hws : ∀ w ∈ ws, w.1 = a)
    (hshared : t.shared id = (s.shared id).writes ws)
    (hdisk : Disk.Rewritten (.file id) s.host.disk t.host.disk) (hopen : y.file? = some id ∧ y.sink.Settled)
    (hsettings : y.level = x.level ∧ y.formatter = x.formatter)
    (hmetrics : y.metrics.dropped = x.metrics.dropped ∧
      y.metrics.written = x.metrics.written + UInt64.ofNat ws.length) : Served id s t ws where
  shared := hshared
  size := hdisk.size
  others other ho := hdisk.content other fun h => ho (Target.file.inj h).symm
  opened b hb := by
    by_cases he : b = a
    · exact ⟨y, (ht b).trans (if_pos he), hopen⟩
    · obtain ⟨z, hz, hb⟩ := hb
      exact ⟨z, (ht b).trans ((if_neg he).trans hz), hb⟩
  appender b z hz := by
    by_cases he : b = a
    · rw [he, hx] at hz
      cases hz
      have hcount : ws.countP (·.1 = b) = ws.length := by
        rw [List.countP_eq_length]
        exact fun w hw => decide_eq_true ((hws w hw).trans he.symm)
      refine ⟨y, (ht b).trans (if_pos he), hsettings.1, hsettings.2, hmetrics.1, ?_⟩
      rw [hcount]
      exact hmetrics.2
    · have hcount : ws.countP (·.1 = b) = 0 := by
        rw [List.countP_eq_zero]
        exact fun w hw h => he ((of_decide_eq_true h).symm.trans (hws w hw))
      refine ⟨z, (ht b).trans ((if_neg he).trans hz), rfl, rfl, rfl, ?_⟩
      rw [hcount]
      exact (UInt64.add_zero _).symm
  absent b hb := by
    have he : b ≠ a := by
      rintro rfl
      cases hb.symm.trans hx
    exact (ht b).trans ((if_neg he).trans hb)

theorem served_deliver (hid : id < s.host.disk.contents.size) {l : Logging} (hopen : s.OpenOn id l.appender) :
    Served id s (s.deliver l.loggerName l.level l.event l.appender).2 (s.text? l).toList := by
  obtain ⟨x, hx, hfile, hsettled⟩ := hopen
  have hhost : (s.deliver l.loggerName l.level l.event l.appender).2.host =
      (x.log l.loggerName l.level l.event s.host).2.2 := by rw [deliver_of_appenderAt? hx]
  have hat : ∀ b, (s.deliver l.loggerName l.level l.event l.appender).2.appenderAt? b =
      if b = l.appender then some (x.log l.loggerName l.level l.event s.host).2.1 else s.appenderAt? b := fun b => by
    rw [deliver_of_appenderAt? hx]
    exact appenderAt?_setAppender hx _
  have hafter := Appender.settled_log hsettled l.loggerName l.level l.event s.host
  generalize (s.deliver l.loggerName l.level l.event l.appender).2 = t at hhost hat ⊢
  by_cases hl : l.level < x.level
  · have htext : s.text? l = none := by simp only [text?, hx, if_pos hl]
    rw [Appender.log_of_lt hl] at hat hhost
    rw [htext]
    have hdisk : t.host.disk = s.host.disk := by rw [hhost]
    exact served_of_touched hx hat nofun (shared_of_touched hx hat (by rw [hdisk]) rfl) (hdisk ▸ .refl _ _)
      ⟨hfile, hsettled⟩ ⟨rfl, rfl⟩ ⟨rfl, (UInt64.add_zero _).symm⟩
  · have htext : s.text? l = some (l.appender, (x.formatter.format l.loggerName l.level l.event).toUTF8) := by
      simp only [text?, hx, if_neg hl]
    obtain ⟨f, w, hf, hw, htarget, hlog⟩ := Appender.log_of_open hsettled hfile hl l.loggerName l.event s.host
    generalize (x.formatter.format l.loggerName l.level l.event).toUTF8 = bytes at htext hlog
    rw [hlog] at hat hafter hhost
    rw [htext]
    have hposition : x.position? = w.handle.position := by
      rw [Appender.position?, hf]
      simp only [hw, Option.bind_some]
    have hdisk : t.host.disk = (OpenFile.placed bytes ⟨w.handle, s.host.disk⟩).disk := by rw [hhost]
    have hconfined := (OpenFile.confined_placed ⟨w.handle, s.host.disk⟩ bytes).2
    have htarget' := OpenFile.target_placed (o := ⟨w.handle, s.host.disk⟩) htarget bytes
    refine served_of_touched hx hat (fun v hv => ?_) (shared_of_placed hid hx hat htarget hposition bytes hdisk rfl) ?_
      ⟨?_, hafter⟩ ⟨rfl, rfl⟩ ⟨rfl, rfl⟩
    · rw [List.mem_singleton.mp hv]
    · rw [hdisk, ← htarget]
      exact hconfined
    · exact congrArg Target.file? htarget'

/-- A call on an appender that has the file open returns. -/
theorem deliver_of_openOn (hopen : s.OpenOn id a) (loggerName : String) (level : Level) (e : Event) :
    (s.deliver loggerName level e a).1 = .ok () := by
  obtain ⟨x, hx, hfile, hsettled⟩ := hopen
  rw [deliver_of_appenderAt? hx]
  by_cases hl : level < x.level
  · rw [Appender.log_of_lt hl]
  · obtain ⟨f, w, -, -, -, hlog⟩ := Appender.log_of_open hsettled hfile hl loggerName e s.host
    rw [hlog]

theorem served_logged (hid : id < s.host.disk.contents.size) (ls : List Logging)
    (hopen : ∀ l ∈ ls, s.OpenOn id l.appender) : Served id s (logged ls s) (s.texts ls) := by
  induction ls generalizing s with
  | nil => exact .refl id s
  | cons l ls ih =>
    obtain ⟨hl, hls⟩ := List.forall_mem_cons.mp hopen
    have hfirst := served_deliver hid hl
    have hrest := ih (by rw [hfirst.size]; exact hid) fun k hk => hfirst.opened _ (hls k hk)
    have htexts : s.texts (l :: ls) =
        (s.text? l).toList ++ (s.deliver l.loggerName l.level l.event l.appender).2.texts ls := by
      have hsame : texts (s.deliver l.loggerName l.level l.event l.appender).2 ls = s.texts ls :=
        List.filterMap_congr fun k _ => hfirst.text? k
      rw [hsame, texts, List.filterMap_cons]
      cases s.text? l <;> rfl
    rw [htexts]
    exact hfirst.trans hrest

end

theorem mem_texts {s : System} {ls : List Logging} {w : AppenderId × ByteArray} (hw : w ∈ s.texts ls) :
    ∃ l ∈ ls, l.appender = w.1 := by
  obtain ⟨l, hl, ht⟩ := List.mem_filterMap.mp hw
  refine ⟨l, hl, ?_⟩
  unfold text? at ht
  split at ht
  · split at ht
    · cases ht
    · cases ht; rfl
  · cases ht

theorem texts_append (s : System) (ls ks : List Logging) : s.texts (ls ++ ks) = s.texts ls ++ s.texts ks :=
  List.filterMap_append

section
variable {s : System} {id : FileId} {a : AppenderId} (hid : id < s.host.disk.contents.size)

theorem position_of_openOn {x : Appender} (h : s.OpenOn id a) (hx : s.appenderAt? a = some x) :
    (s.shared id).position a = none ↔ x.mode? = some .append := by
  obtain ⟨y, hy, hfile, hsettled⟩ := h
  cases hy.symm.trans hx
  show (s.appenderAt? a).bind Appender.position? = none ↔ _
  rw [hx]
  exact Appender.position?_eq_none_iff hsettled hfile

include hid

/-- What a call has its appender write is whole in the file when it returns, and until it is written over. -/
theorem extract_logged {before rest : List Logging} {l : Logging} {bytes : ByteArray}
    (hopen : ∀ k ∈ before ++ l :: rest, s.OpenOn id k.appender) (htext : s.text? l = some (a, bytes)) :
    let u := (logged before s).shared id
    let v := (logged (before ++ [l]) s).shared id
    v.content.extract (u.place a) (u.place a + bytes.size) = bytes ∧
      (v.PassAll (u.place a) (u.place a + bytes.size) (s.texts rest) →
        ((logged (before ++ l :: rest) s).host.disk.content id).extract (u.place a) (u.place a + bytes.size) =
          bytes) := by
  intro u v
  rw [List.append_cons] at hopen ⊢
  have hupto : ∀ k ∈ before ++ [l], s.OpenOn id k.appender := fun k hk => hopen k (List.mem_append_left _ hk)
  have hu := served_logged hid before fun k hk => hupto k (List.mem_append_left _ hk)
  have hv := served_logged hid (before ++ [l]) hupto
  have hall := served_logged hid (before ++ [l] ++ rest) hopen
  have hone : v = u.write a bytes := by
    have htexts : s.texts [l] = [(a, bytes)] := by simp [texts, htext]
    show shared (logged (before ++ [l]) s) id = _
    rw [hv.shared, texts_append, htexts, Shared.writes_append, ← hu.shared]
    rfl
  have hlast : (logged (before ++ [l] ++ rest) s).host.disk.content id = (v.writes (s.texts rest)).content := by
    refine (congrArg Shared.content hall.shared).trans ?_
    rw [texts_append, Shared.writes_append, ← hv.shared]
  rw [hlast, hone]
  exact ⟨u.extract_write_self a bytes, Shared.extract_writes_self⟩

end

/-- Appenders that have open the file of a path, in whatever modes, write every event at or above their
thresholds and lose none, and every call returns. The file then holds what writers that share it make of it, of which those in append
mode, and no others, write at the end. So an event is whole in the file when its call returns, and stays so
unless it is written over by one of an appender in truncate mode. If every event is written at what is then
the end of the file, as it is when all appenders are in append mode, the file ends with all of them in the
order of the calls. -/
theorem shared_file_logged (history : List Action) (host : Host) (path : String) (id : FileId) (ls : List Logging)
    (hmade : ∀ k ∈ history, ∀ sink ∈ k.sink?, sink.Made) (hdisk : (after history host).host.disk.Sound)
    (hid : (after history host).host.disk.fileAt? path = some id)
    (hopen : ∀ l ∈ ls, ∃ x, (after history host).appenderAt? l.appender = some x ∧
      x.file? = (after history host).host.disk.fileAt? path) :
    let s := after history host
    let t := logged ls s
    (∀ a x, s.appenderAt? a = some x → ∃ y, t.appenderAt? a = some y ∧ y.metrics.dropped = x.metrics.dropped ∧
      y.metrics.written = x.metrics.written + UInt64.ofNat ((s.texts ls).countP (·.1 = a))) ∧
    t.shared id = (s.shared id).writes (s.texts ls) ∧
    (∀ l ∈ ls, ∀ x, s.appenderAt? l.appender = some x →
      ((s.shared id).position l.appender = none ↔ x.mode? = some .append)) ∧
    (∀ before l rest a bytes, ls = before ++ l :: rest → s.text? l = some (a, bytes) →
      let u := (logged before s).shared id
      let v := (logged (before ++ [l]) s).shared id
      v.content.extract (u.place a) (u.place a + bytes.size) = bytes ∧
      (v.PassAll (u.place a) (u.place a + bytes.size) (s.texts rest) →
        (t.host.disk.content id).extract (u.place a) (u.place a + bytes.size) = bytes)) ∧
    ((s.shared id).AllAtEnd (s.texts ls) →
      t.host.disk.content id = s.host.disk.content id ++ joined ((s.texts ls).map Prod.snd)) ∧
    ((∀ l ∈ ls, ∀ x, s.appenderAt? l.appender = some x → x.mode? = some .append) →
      t.host.disk.content id = s.host.disk.content id ++ joined ((s.texts ls).map Prod.snd)) ∧
    ∀ before l rest, ls = before ++ l :: rest →
      ((logged before s).deliver l.loggerName l.level l.event l.appender).1 = .ok () := by
  intro s t
  have hlt : id < s.host.disk.contents.size := hdisk.lt_of_fileAt? hid
  have hsettled : s.Each fun _ x => x.sink.Settled :=
    (each_empty host).run lasting_settled history hmade fun _ _ _ _ => trivial
  have hopened : ∀ l ∈ ls, s.OpenOn id l.appender := fun l hl => by
    obtain ⟨x, hx, hfile⟩ := hopen l hl
    exact ⟨x, hx, hfile.trans hid, hsettled _ x hx⟩
  have hserved := served_logged hlt ls hopened
  have hmode : ∀ l ∈ ls, ∀ x, s.appenderAt? l.appender = some x →
      ((s.shared id).position l.appender = none ↔ x.mode? = some .append) :=
    fun l hl x hx => position_of_openOn (hopened l hl) hx
  have hend : (s.shared id).AllAtEnd (s.texts ls) →
      t.host.disk.content id = s.host.disk.content id ++ joined ((s.texts ls).map Prod.snd) :=
    fun h => (congrArg Shared.content hserved.shared).trans (Shared.content_writes_of_allAtEnd h)
  refine ⟨fun a x hx => ?_, hserved.shared, hmode, fun before l rest a bytes hsplit htext => ?_, hend,
    fun happend => ?_, fun before l rest hsplit => ?_⟩
  · obtain ⟨y, hy, -, -, hdropped, hwritten⟩ := hserved.appender a x hx
    exact ⟨y, hy, hdropped, hwritten⟩
  · subst hsplit
    exact extract_logged hlt hopened htext
  · refine hend (Shared.allAtEnd_of_no_position fun w hw => ?_)
    obtain ⟨l, hl, hw⟩ := mem_texts hw
    obtain ⟨x, hx, -⟩ := hopen l hl
    rw [← hw]
    exact (hmode l hl x hx).mpr (happend l hl x hx)
  · subst hsplit
    have hbefore := served_logged hlt before fun k hk => hopened k (List.mem_append_left _ hk)
    exact deliver_of_openOn (hbefore.opened l.appender (hopened l (List.mem_append_right _ List.mem_cons_self))) ..

/-- Two appenders on a path that led nowhere have the same file open. -/
theorem open_two {mode : FileMode} {s : System}
    (hs : s = after [.addFileAppender "x" .truncate .debug ⟨"%m", [.message]⟩,
      .addFileAppender "x" mode .info ⟨"%m", [.message]⟩] {}) :
    s.host.disk.Sound ∧ s.host.disk.fileAt? "x" = some 0 ∧
      ∀ a : AppenderId, a.index < 2 → ∃ x, s.appenderAt? a = some x ∧ x.file? = s.host.disk.fileAt? "x" := by
  have hdisk : s.host.disk.entries = ({} : Disk).entries ++ [(["tmp", "", "x"], .file 0)] ∧
      s.host.disk.contents = #[.empty] := by rw [hs]; cases mode <;> cbv
  have hid : s.host.disk.fileAt? "x" = some 0 := by rw [hs]; cases mode <;> cbv
  have hfirst : (s.appenderAt? ⟨0⟩).bind Appender.file? = some 0 := by rw [hs]; cases mode <;> cbv
  have hsecond : (s.appenderAt? ⟨1⟩).bind Appender.file? = some 0 := by rw [hs]; cases mode <;> cbv
  refine ⟨fun p id h => ?_, hid, fun a ha => ?_⟩
  · rw [hdisk.1] at h
    obtain ⟨-, rfl⟩ : p = ["tmp", "", "x"] ∧ id = 0 := by simpa [devices] using h
    rw [hdisk.2]
    exact Nat.one_pos
  · rw [hid]
    rcases a with ⟨_ | _ | n⟩
    · exact Option.bind_eq_some_iff.mp hfirst
    · exact Option.bind_eq_some_iff.mp hsecond
    · exact absurd ha (Nat.not_lt.mpr (Nat.le_add_left 2 n))

/-- An appender in truncate mode and one in append mode, which keeps one of its events back. -/
theorem shared_file_logged_mixed :
    let e (content : String) : Event :=
      { fileName := "f", line := 1, elapsed := 0, threadId := 1, fiberId := 0, time := 0, content }
    let f : Formatter := ⟨"%m", [.message]⟩
    let history : List Action := [.addFileAppender "x" .truncate .debug f, .addFileAppender "x" .append .info f]
    let ls : List Logging := [⟨⟨0⟩, "l", .info, e "ab"⟩, ⟨⟨1⟩, "l", .debug, e "-"⟩, ⟨⟨1⟩, "l", .info, e "c"⟩]
    (logged ls (after history {})).host.disk.content 0 = "abc".toUTF8 := by
  intro e f history ls
  obtain ⟨hdisk, hid, hopen⟩ := open_two (s := after history {}) rfl
  have htexts : (after history {}).texts ls = [(⟨0⟩, "ab".toUTF8), (⟨1⟩, "c".toUTF8)] := by cbv
  have hall : ((after history {}).shared 0).AllAtEnd ((after history {}).texts ls) := by
    rw [htexts]
    exact ⟨by cbv, by cbv, trivial⟩
  have hempty : (after history {}).host.disk.content 0 = .empty := by cbv
  obtain ⟨-, -, -, -, hend, -⟩ := shared_file_logged history {} "x" 0 ls (by simp [history, Action.sink?]) hdisk hid
    fun l hl => hopen l.appender (by revert l; simp [ls])
  rw [hend hall, htexts, hempty]
  decide +kernel

/-- Two appenders in truncate mode: the event of the second is written over that of the first. -/
theorem shared_file_overwritten :
    ¬ ∀ (history : List Action) (host : Host) (path : String) (id : FileId) (ls : List Logging),
      (∀ k ∈ history, ∀ sink ∈ k.sink?, sink.Made) → (after history host).host.disk.Sound →
      (after history host).host.disk.fileAt? path = some id →
      (∀ l ∈ ls, ∃ x, (after history host).appenderAt? l.appender = some x ∧
        x.file? = (after history host).host.disk.fileAt? path) →
      ∃ earlier, (logged ls (after history host)).host.disk.content id =
        earlier ++ joined (((after history host).texts ls).map Prod.snd) := by
  intro hall
  let e (content : String) : Event :=
    { fileName := "f", line := 1, elapsed := 0, threadId := 1, fiberId := 0, time := 0, content }
  let f : Formatter := ⟨"%m", [.message]⟩
  let history : List Action := [.addFileAppender "x" .truncate .debug f, .addFileAppender "x" .truncate .info f]
  let ls : List Logging := [⟨⟨0⟩, "l", .info, e "aaaa"⟩, ⟨⟨1⟩, "l", .info, e "bb"⟩]
  obtain ⟨hdisk, hid, hopen⟩ := open_two (s := after history {}) rfl
  obtain ⟨earlier, hcontent⟩ := hall history {} "x" 0 ls (by simp [history, Action.sink?]) hdisk hid
    fun l hl => hopen l.appender (by revert l; simp [ls])
  have htexts : (after history {}).texts ls = [(⟨0⟩, "aaaa".toUTF8), (⟨1⟩, "bb".toUTF8)] := by cbv
  have hbytes : (logged ls (after history {})).host.disk.content 0 = "bbaa".toUTF8 := by cbv
  have hjoined : (joined [("aaaa".toUTF8), "bb".toUTF8]).size = 6 := by decide +kernel
  have hfour : "bbaa".toUTF8.size = 4 := by decide +kernel
  have hsize := congrArg ByteArray.size hcontent
  rw [htexts, hbytes, ByteArray.size_append, hfour] at hsize
  have hsix : 4 = earlier.size + 6 := hsize.trans (congrArg (earlier.size + ·) hjoined)
  omega

end System

end Logline
