import Mathlib.Data.List.Basic
import Logline.Proofs.Appender.Filing
import Logline.Proofs.System.Frame

/-!
# What files receive

Appenders on files in append mode are made, asked, opened again and given up, in any number on any paths,
while names are moved and dropped around them. An appender writes to the file that its path named when it
was last opened; each file holds what it held at first and then, in order, all that was counted as written
to it.
-/

namespace Logline

open Output

namespace System

def drop (s : System) (a : AppenderId) : System :=
  match s.appenderAt? a with
  | some x =>
    let (x, host) := x.drop s.host
    { s.setAppender a x with host }
  | none => s

def alterDisk (s : System) (action : Disk → Except Fault Disk) : System :=
  match action s.host.disk with
  | .ok disk => { s with host := { s.host with disk } }
  | .error _ => s

/-! ## Deposits -/

/-- An event that was counted as written, with the file its appender had open. -/
structure Deposit where
  appender : AppenderId
  file : Option FileId
  rendering : ByteArray

def filed (ds : List Deposit) (id : FileId) : ByteArray :=
  joined ((ds.filter (·.file = some id)).map Deposit.rendering)

theorem filed_append (ds es : List Deposit) (id : FileId) : filed (ds ++ es) id = filed ds id ++ filed es id := by
  simp [filed]

/-- The disk has gained what some deposits put into its files, and nothing else; what was written outside
of files is nothing. -/
structure Gained (d d' : Disk) (ds : List Deposit) : Prop where
  sound : d.Sound → d'.Sound
  size : d.contents.size ≤ d'.contents.size
  content : ∀ id, d'.content id = d.content id ++ filed ds id
  outside : ∀ x ∈ ds, x.file = none → x.rendering = .empty

namespace Gained

theorem of_kept {d d' : Disk} (h : d.Kept d') : Gained d d' [] :=
  ⟨h.sound, h.size, fun id => by rw [h.content]; simp [filed], nofun⟩

theorem trans {d d' d'' : Disk} {ds es : List Deposit} (h : Gained d d' ds) (h' : Gained d' d'' es) :
    Gained d d'' (ds ++ es) where
  sound hd := h'.sound (h.sound hd)
  size := Nat.le_trans h.size h'.size
  content id := by rw [h'.content, h.content, filed_append, ByteArray.append_assoc]
  outside x hx := (List.mem_append.mp hx).elim (h.outside x) (h'.outside x)

theorem grown {d : Disk} {id : FileId} (hid : id < d.contents.size) (a : AppenderId) (rendering : ByteArray) :
    Gained d (d.grown id rendering) [⟨a, some id, rendering⟩] where
  sound hd p i hm := by
    rw [Disk.size_grown]
    exact hd p i hm
  size := Nat.le_of_eq (d.size_grown id rendering).symm
  content other := by
    by_cases h : other = id
    · subst h
      simp [Disk.content_grown hid, filed]
    · simp [Disk.content_grown_of_ne h, filed, Ne.symm h]
  outside x hx := by
    obtain rfl := List.mem_singleton.mp hx
    exact nofun

theorem of_no_file {d : Disk} {o : Option Deposit} (h : ∀ x, o = some x → x.file = none ∧ x.rendering = .empty) :
    Gained d d o.toList where
  sound := id
  size := Nat.le_refl _
  content id := by
    cases o with
    | none => simp [filed]
    | some x => simp [filed, (h x rfl).1]
  outside x hx _ := (h x (Option.mem_toList.mp hx)).2

end Gained

/-! ## What an appender does when asked -/

inductive Request
  | log (loggerName : String) (level : Level) (e : Event)
  | setLevel (level : Level)
  | setPattern (pattern : String)
  | reopen
  | flush
  | drop

namespace Request

def act : Request → Appender → Host → Appender × Host
  | log loggerName level e, x, h => (x.log loggerName level e h).2
  | setLevel level, x, h => (x.setLevel level, h)
  | setPattern pattern, x, h => ((x.setPattern pattern).2, h)
  | reopen, x, h => (x.reopen h).2
  | flush, x, h => (x.flush h).2
  | drop, x, h => x.drop h

/-- To log an event makes a deposit if it raises the count of written events. -/
def deposit (a : AppenderId) (x : Appender) (h : Host) : Request → Option Deposit
  | log loggerName level e =>
    if (x.log loggerName level e h).2.1.metrics.written = x.metrics.written then none
    else some ⟨a, x.file?, (x.formatter.format loggerName level e).toUTF8⟩
  | _ => none

variable {x : Appender} {h : Host}

theorem deposit_log (a : AppenderId) (x : Appender) (h : Host) (loggerName : String) (level : Level) (e : Event) :
    (log loggerName level e).deposit a x h = if x.fate loggerName level e h = .written then
      some ⟨a, x.file?, (x.formatter.format loggerName level e).toUTF8⟩ else none := by
  rw [deposit, x.metrics_log]
  cases x.fate loggerName level e h <;> simp [Metrics.record]

theorem deposit_of_lt {level : Level} (hl : level < x.level) (a : AppenderId) (loggerName : String) (e : Event) :
    (log loggerName level e).deposit a x h = none := by
  rw [deposit_log, (x.fate_eq_filtered_iff loggerName level e h).mpr hl]
  exact if_neg nofun

theorem deposit_of_file? (hx : x.Appends h.disk) {id : FileId} (hid : x.file? = some id) {level : Level}
    (hl : ¬ level < x.level) (a : AppenderId) (loggerName : String) (e : Event) :
    (log loggerName level e).deposit a x h =
      some ⟨a, some id, (x.formatter.format loggerName level e).toUTF8⟩ := by
  have hne : (x.record .written).metrics.written ≠ x.metrics.written := by
    show x.metrics.written + 1 ≠ x.metrics.written
    simp
  rw [deposit, Appender.log_of_file? hx hid hl, if_neg hne, hid]

theorem countP_deposit (r : Request) (a b : AppenderId) (x : Appender) (h : Host) :
    (r.deposit a x h).toList.countP (·.appender = b) = if b = a then (r.deposit a x h).toList.length else 0 := by
  cases r with
  | log loggerName level e =>
    rw [deposit_log]
    by_cases hb : a = b
    · split <;> simp [hb]
    · split <;> simp [hb, Ne.symm hb]
  | _ => simp [deposit]

theorem written_act (r : Request) (a : AppenderId) (x : Appender) (h : Host) : (r.act x h).1.metrics.written =
    x.metrics.written + UInt64.ofNat (r.deposit a x h).toList.length := by
  cases r with
  | log loggerName level e =>
    rw [act, deposit_log, x.metrics_log]
    cases x.fate loggerName level e h with
    | written => rfl
    | filtered => exact (UInt64.add_zero _).symm
    | dropped => exact (UInt64.add_zero _).symm
  | setLevel level => exact (UInt64.add_zero _).symm
  | setPattern pattern => exact (UInt64.add_zero _).symm
  | reopen => exact (UInt64.add_zero _).symm
  | flush => exact (UInt64.add_zero _).symm
  | drop =>
    have hdrop : (x.drop h).1.metrics = x.metrics := by
      unfold Appender.drop
      split <;> rfl
    exact (congrArg Metrics.written hdrop).trans (UInt64.add_zero _).symm

section
variable (hx : x.Appends h.disk)
include hx

theorem path_act (hd : h.disk.Sound) (r : Request) : (r.act x h).1.path? = x.path? := by
  cases r with
  | log loggerName level e => exact x.path_log loggerName level e
  | setLevel level => rfl
  | setPattern pattern => rfl
  | reopen => exact (Appender.reopen_appends hx hd).1
  | flush => exact (Appender.flush_appends hx).1
  | drop => exact (Appender.drop_appends hx).1

theorem file_act {r : Request} (hreopen : r ≠ .reopen) (hdrop : r ≠ .drop) : (r.act x h).1.file? = x.file? := by
  cases r with
  | log loggerName level e =>
    by_cases hno : x.file? = none ∨ level < x.level
    · obtain ⟨-, -, hfile, -⟩ := Appender.log_of_no_file hx loggerName e hno
      exact hfile
    · obtain ⟨hfile, hl⟩ := not_or.mp hno
      obtain ⟨id, hid⟩ := Option.ne_none_iff_exists'.mp hfile
      rw [act, Appender.log_of_file? hx hid hl]
      rfl
  | setLevel level => rfl
  | setPattern pattern => rfl
  | reopen => exact absurd rfl hreopen
  | flush =>
    obtain ⟨-, -, hfile, -⟩ := Appender.flush_appends hx
    exact hfile
  | drop => exact absurd rfl hdrop

/-- Whatever is asked, the disk gains the deposit, and nothing stays behind in the sink. -/
theorem act_appends (hd : h.disk.Sound) (r : Request) (a : AppenderId) :
    Gained h.disk (r.act x h).2.disk (r.deposit a x h).toList ∧ (r.act x h).1.Appends (r.act x h).2.disk := by
  cases r with
  | log loggerName level e =>
    by_cases hno : x.file? = none ∨ level < x.level
    · obtain ⟨hdisk, happends, -, hempty⟩ := Appender.log_of_no_file hx loggerName e hno
      rw [act, hdisk]
      refine ⟨.of_no_file fun d hdeposit => ?_, happends⟩
      rw [deposit_log] at hdeposit
      split at hdeposit
      · next hwritten =>
        cases hdeposit
        refine ⟨hno.resolve_right fun hl => ?_, hempty hwritten⟩
        rw [(x.fate_eq_filtered_iff loggerName level e h).mpr hl] at hwritten
        cases hwritten
      · cases hdeposit
    · obtain ⟨hfile, hl⟩ := not_or.mp hno
      obtain ⟨id, hid⟩ := Option.ne_none_iff_exists'.mp hfile
      rw [deposit_of_file? hx hid hl, act, Appender.log_of_file? hx hid hl]
      exact ⟨.grown (Appender.lt_of_file? hx hid) a _, hx.mono (Nat.le_of_eq (Disk.size_grown ..).symm)⟩
  | setLevel level => exact ⟨.of_kept (.refl _), hx⟩
  | setPattern pattern => exact ⟨.of_kept (.refl _), hx⟩
  | reopen =>
    obtain ⟨-, hkept, happends, -⟩ := Appender.reopen_appends hx hd
    exact ⟨.of_kept hkept, happends⟩
  | flush =>
    obtain ⟨-, hdisk, -, happends⟩ := Appender.flush_appends hx
    rw [act, hdisk]
    exact ⟨.of_kept (.refl _), happends⟩
  | drop =>
    obtain ⟨-, hdisk, -, happends⟩ := Appender.drop_appends hx
    rw [act, hdisk]
    exact ⟨.of_kept (.refl _), happends⟩

end

end Request

def Request.send (a : AppenderId) : Request → System → System
  | log loggerName level e, s => (s.deliver loggerName level e a).2
  | setLevel level, s => s.modifyAppender a (·.setLevel level)
  | setPattern pattern, s => (s.setPattern a pattern).2
  | reopen, s => (s.reopen a).2
  | flush, s => (s.flushAppender a).2
  | drop, s => s.drop a

section
variable {s : System} {a : AppenderId}

/-- The appender that is asked acts, and no other one. -/
theorem Request.send_of_appenderAt? {x : Appender} (ha : s.appenderAt? a = some x) (r : Request) :
    (r.send a s).host = (r.act x s.host).2 ∧
      ∀ b, (r.send a s).appenderAt? b = if b = a then some (r.act x s.host).1 else s.appenderAt? b := by
  have hset : ∀ (y : Appender) b, (s.setAppender a y).appenderAt? b = if b = a then some y else s.appenderAt? b :=
    fun y b => appenderAt?_setAppender ha y
  cases r with
  | log loggerName level e => rw [send, deliver_of_appenderAt? ha]; exact ⟨rfl, hset _⟩
  | setLevel level =>
    refine ⟨rfl, fun b => (appenderAt?_modifyAppender _).trans ?_⟩
    split
    · next hb => rw [hb, ha]; rfl
    · rfl
  | setPattern pattern => simp only [send, System.setPattern, ha]; exact ⟨rfl, hset _⟩
  | reopen => simp only [send, System.reopen, ha]; exact ⟨rfl, hset _⟩
  | flush => simp only [send, flushAppender, ha]; exact ⟨rfl, hset _⟩
  | drop => simp only [send, System.drop, ha]; exact ⟨rfl, hset _⟩

theorem Request.send_of_none (ha : s.appenderAt? a = none) (r : Request) :
    (r.send a s).host = s.host ∧ ∀ b, (r.send a s).appenderAt? b = s.appenderAt? b := by
  cases r with
  | log loggerName level e => rw [send, deliver, ha]; exact ⟨rfl, fun _ => rfl⟩
  | setLevel level =>
    refine ⟨rfl, fun b => (appenderAt?_modifyAppender _).trans ?_⟩
    split
    · next hb => rw [hb, ha]; rfl
    · rfl
  | setPattern pattern => rw [send, System.setPattern, ha]; exact ⟨rfl, fun _ => rfl⟩
  | reopen => rw [send, System.reopen, ha]; exact ⟨rfl, fun _ => rfl⟩
  | flush => rw [send, flushAppender, ha]; exact ⟨rfl, fun _ => rfl⟩
  | drop => rw [send, System.drop, ha]; exact ⟨rfl, fun _ => rfl⟩

end

/-! ## Calls -/

inductive FileCall
  | create (path : String) (level : Level) (formatter : Formatter)
  | createClosed (path : String) (level : Level) (formatter : Formatter)
  | ask (appender : AppenderId) (request : Request)
  | rename (path target : String)
  | remove (path : String)

namespace FileCall

def apply : FileCall → System → System
  | create path level formatter, s => (s.addFileAppender path .append level formatter).2
  | createClosed path level formatter, s => (s.addAppender (.file { path, mode := .append }) level formatter).2
  | ask a r, s => r.send a s
  | rename path target, s => s.alterDisk (·.rename path target)
  | remove path, s => s.alterDisk (·.removeFile path)

def deposit (s : System) : FileCall → Option Deposit
  | ask a r => (s.appenderAt? a).bind fun x => r.deposit a x s.host
  | _ => none

def opens (s : System) : FileCall → Option (AppenderId × String)
  | create path level formatter =>
    match (s.addFileAppender path .append level formatter).1 with
    | .ok a => some (a, path)
    | .error _ => none
  | ask a .reopen =>
    match (s.reopen a).1 with
    | .ok true => ((s.appenderAt? a).bind Appender.path?).map (a, ·)
    | _ => none
  | _ => none

end FileCall

def fileCalls (cs : List FileCall) (s : System) : System :=
  cs.foldl (fun s c => c.apply s) s

def deposits : List FileCall → System → List Deposit
  | [], _ => []
  | c :: cs, s => (c.deposit s).toList ++ deposits cs (c.apply s)

structure Filing (s : System) : Prop where
  sound : s.host.disk.Sound
  appends : ∀ a x, s.appenderAt? a = some x → x.Appends s.host.disk

def written (s : System) (a : AppenderId) : UInt64 :=
  ((s.appenderAt? a).map fun x => x.metrics.written).getD 0

structure Step (c : FileCall) (s t : System) (ds : List Deposit) : Prop where
  gained : Gained s.host.disk t.host.disk ds
  filing : t.Filing
  kept : ∀ a x, s.appenderAt? a = some x → ∃ y, t.appenderAt? a = some y ∧ y.path? = x.path? ∧
    (c ≠ .ask a .reopen → c ≠ .ask a .drop → y.file? = x.file?)
  written : ∀ a, t.written a = s.written a + UInt64.ofNat (ds.countP (·.appender = a))

variable {s t : System}

namespace Step

theorem of_kept {c : FileCall} (hs : s.Filing) (ha : ∀ a, t.appenderAt? a = s.appenderAt? a)
    (hk : s.host.disk.Kept t.host.disk) : Step c s t [] where
  gained := .of_kept hk
  filing := ⟨hk.sound hs.sound, fun a x hx => (hs.appends a x (ha a ▸ hx)).mono hk.size⟩
  kept a x hx := ⟨x, (ha a).trans hx, rfl, fun _ _ => rfl⟩
  written a := by simp [System.written, ha]

/-- A new appender has counted nothing yet. -/
theorem of_added (hs : s.Filing) {d : Disk} (hk : s.host.disk.Kept d) {f : Sink.File} (hf : f.Appends d)
    {c : FileCall} (level : Level) (formatter : Formatter) :
    Step c s ({ s with host := { s.host with disk := d } }.addAppender (.file f) level formatter).2 [] := by
  have ha := fun a => appenderAt?_addAppender (s := { s with host := { s.host with disk := d } }) (b := a)
    (.file f) level formatter
  refine ⟨.of_kept hk, ⟨hk.sound hs.sound, fun a x hx => ?_⟩, fun a x hx => ?_, fun a => ?_⟩
  · rw [ha] at hx
    split at hx
    · cases hx; exact ⟨f, rfl, hf⟩
    · exact (hs.appends a x hx).mono hk.size
  · exact ⟨x, by rw [ha, if_neg (ne_of_appenderAt? hx)]; exact hx, rfl, fun _ _ => rfl⟩
  · simp only [System.written, ha]
    split
    · next h =>
      have hnone : s.appenderAt? a = none := by
        cases hx : s.appenderAt? a with
        | none => rfl
        | some x => exact absurd h (ne_of_appenderAt? hx)
      rw [hnone]
      rfl
    · exact (UInt64.add_zero _).symm

theorem ask (hs : s.Filing) (a : AppenderId) (r : Request) :
    Step (.ask a r) s (r.send a s) ((FileCall.ask a r).deposit s).toList := by
  cases ha : s.appenderAt? a with
  | none =>
    obtain ⟨hhost, happenders⟩ := r.send_of_none ha
    rw [FileCall.deposit, ha]
    exact of_kept hs happenders (by rw [hhost]; exact .refl _)
  | some x =>
    obtain ⟨hhost, happenders⟩ := r.send_of_appenderAt? ha
    have hx := hs.appends a x ha
    obtain ⟨hgained, happends⟩ := Request.act_appends hx hs.sound r a
    have hwritten := r.written_act a x s.host
    rw [FileCall.deposit, ha]
    change Step _ _ _ (r.deposit a x s.host).toList
    refine ⟨by rw [hhost]; exact hgained, ⟨?_, fun b y hy => ?_⟩, fun b y hy => ?_, fun b => ?_⟩
    · rw [hhost]; exact hgained.sound hs.sound
    · rw [happenders] at hy
      rw [hhost]
      split at hy
      · cases hy; exact happends
      · exact (hs.appends b y hy).mono hgained.size
    · rw [happenders]
      split
      · next hb =>
        subst hb
        obtain rfl : x = y := Option.some.inj (ha.symm.trans hy)
        exact ⟨_, rfl, Request.path_act hx hs.sound r, fun hreopen hdrop =>
          Request.file_act hx (fun h => hreopen (h ▸ rfl)) fun h => hdrop (h ▸ rfl)⟩
      · exact ⟨y, hy, rfl, fun _ _ => rfl⟩
    · rw [r.countP_deposit, System.written, System.written, happenders]
      split
      · next hb => rw [hb, ha]; exact hwritten
      · exact (UInt64.add_zero _).symm

end Step

/-- What a new appender's sink is like. -/
theorem addFileAppender_cases (hd : s.host.disk.Sound) (path : String) (level : Level) (formatter : Formatter) :
    ∃ d', s.host.disk.Kept d' ∧
    ((∃ e, s.addFileAppender path .append level formatter = (.error e, { s with host := { s.host with disk := d' } })) ∨
    ∃ f : Sink.File, f.path = path ∧ f.Appends d' ∧ f.file? = d'.fileAt? path ∧
      (∀ id, s.host.disk.fileAt? path = some id → d'.fileAt? path = some id) ∧
      s.addFileAppender path .append level formatter = (.ok ⟨s.appenders.size⟩,
        ({ s with host := { s.host with disk := d' } }.addAppender (.file f) level formatter).2)) := by
  obtain ⟨r, f, d', hreopen, hpath, happends, hkept, hopened⟩ :=
    Sink.File.reopen_appends (.of_closed rfl rfl s.host.disk : ({ path, mode := .append } : Sink.File).Appends _) hd
  refine ⟨d', hkept, ?_⟩
  cases r with
  | error e => 
    exact .inl ⟨_, by simp only [addFileAppender, Sink.File.opened, hreopen]; rfl⟩
  | ok u =>
    obtain ⟨hfile, hnamed⟩ := hopened rfl
    exact .inr ⟨f, hpath, happends, hfile, hnamed, by simp only [addFileAppender, Sink.File.opened, hreopen]; rfl⟩

theorem alterDisk_cases (s : System) (action : Disk → Except Fault Disk) :
    s.alterDisk action = s ∨
      ∃ d', action s.host.disk = .ok d' ∧ s.alterDisk action = { s with host := { s.host with disk := d' } } := by
  unfold alterDisk
  split
  · next d' hd => exact .inr ⟨d', hd, rfl⟩
  · exact .inl rfl

theorem step_apply (hs : s.Filing) (c : FileCall) : Step c s (c.apply s) (c.deposit s).toList := by
  cases c with
  | create path level formatter =>
    obtain ⟨d', hk, ⟨e, hadd⟩ | ⟨f, -, hf, -, -, hadd⟩⟩ := addFileAppender_cases hs.sound path level formatter
    · rw [FileCall.apply, hadd]
      exact .of_kept hs (fun _ => rfl) hk
    · rw [FileCall.apply, hadd]
      exact .of_added hs hk hf level formatter
  | createClosed path level formatter => exact .of_added hs (.refl _) (.of_closed rfl rfl _) level formatter
  | ask a r => exact .ask hs a r
  | rename path target =>
    rcases s.alterDisk_cases (·.rename path target) with h | ⟨d', hd, h⟩
    · rw [FileCall.apply, h]; exact .of_kept hs (fun _ => rfl) (.refl _)
    · rw [FileCall.apply, h]; exact .of_kept hs (fun _ => rfl) (Disk.kept_rename hd)
  | remove path =>
    rcases s.alterDisk_cases (·.removeFile path) with h | ⟨d', hd, h⟩
    · rw [FileCall.apply, h]; exact .of_kept hs (fun _ => rfl) (.refl _)
    · rw [FileCall.apply, h]; exact .of_kept hs (fun _ => rfl) (Disk.kept_removeFile hd)

/-! ## Runs -/

theorem gained_fileCalls (hs : s.Filing) (cs : List FileCall) : (fileCalls cs s).Filing ∧
    Gained s.host.disk (fileCalls cs s).host.disk (deposits cs s) ∧
    ∀ a, (fileCalls cs s).written a = s.written a + UInt64.ofNat ((deposits cs s).countP (·.appender = a)) := by
  induction cs generalizing s with
  | nil => exact ⟨hs, .of_kept (.refl _), fun a => (UInt64.add_zero _).symm⟩
  | cons c cs ih =>
    have hstep := step_apply hs c
    obtain ⟨hfiling, hgained, hwritten⟩ := ih hstep.filing
    refine ⟨hfiling, hstep.gained.trans hgained, fun a => ?_⟩
    rw [deposits, List.countP_append, UInt64.ofNat_add, ← UInt64.add_assoc, ← hstep.written]
    exact hwritten a

theorem deposits_append (cs ds : List FileCall) (s : System) :
    deposits (cs ++ ds) s = deposits cs s ++ deposits ds (fileCalls cs s) := by
  induction cs generalizing s with
  | nil => rfl
  | cons c cs ih =>
    rw [List.cons_append, deposits, ih, deposits, List.append_assoc]
    rfl

/-- An appender keeps its path, and its file until it is opened again or given up. -/
theorem path_fileCalls (hs : s.Filing) {a : AppenderId} {x : Appender} (ha : s.appenderAt? a = some x)
    {cs : List FileCall} (hreopen : .ask a .reopen ∉ cs) (hdrop : .ask a .drop ∉ cs) :
    ∃ y, (fileCalls cs s).appenderAt? a = some y ∧ y.path? = x.path? ∧ y.file? = x.file? := by
  induction cs generalizing s x with
  | nil => exact ⟨x, ha, rfl, rfl⟩
  | cons c cs ih =>
    obtain ⟨hc, hreopen⟩ := not_or.mp (mt List.mem_cons.mpr hreopen)
    obtain ⟨hc', hdrop⟩ := not_or.mp (mt List.mem_cons.mpr hdrop)
    have hstep := step_apply hs c
    obtain ⟨y, hy, hpath, hfile⟩ := hstep.kept a x ha
    obtain ⟨z, hz, hpath', hfile'⟩ := ih hstep.filing hy hreopen hdrop
    exact ⟨z, hz, hpath'.trans hpath, hfile'.trans (hfile (Ne.symm hc) (Ne.symm hc'))⟩

/-- An appender that is opened has the file that its path then names, which is the one it named before if
it named one. -/
theorem file_of_opens (hs : s.Filing) {c : FileCall} {a : AppenderId} {path : String}
    (hc : c.opens s = some (a, path)) : ∃ y, (c.apply s).appenderAt? a = some y ∧ y.path? = some path ∧
      y.file? = (c.apply s).host.disk.fileAt? path ∧
      ∀ id, s.host.disk.fileAt? path = some id → (c.apply s).host.disk.fileAt? path = some id := by
  cases c with
  | create path' level formatter =>
    obtain ⟨d', -, ⟨e, hadd⟩ | ⟨f, hpath, hf, hfile, hnamed, hadd⟩⟩ :=
      addFileAppender_cases hs.sound path' level formatter
    · rw [FileCall.opens, hadd] at hc
      cases hc
    · rw [FileCall.opens, hadd] at hc
      cases hc
      rw [FileCall.apply, hadd]
      exact ⟨_, (appenderAt?_addAppender ..).trans (if_pos rfl), congrArg some hpath, hfile, hnamed⟩
  | ask b r =>
    cases r with
    | reopen =>
      rw [FileCall.opens] at hc
      split at hc
      · next hok =>
        obtain ⟨path', hx, hpair⟩ := Option.map_eq_some_iff.mp hc
        cases hpair
        obtain ⟨x, ha, hpath⟩ := Option.bind_eq_some_iff.mp hx
        obtain ⟨hhost, happenders⟩ := Request.send_of_appenderAt? ha .reopen
        obtain ⟨hpath', -, -, hopened⟩ := Appender.reopen_appends (hs.appends _ x ha) hs.sound
        have hok : (x.reopen s.host).1 = .ok true := by simpa only [System.reopen, ha] using hok
        obtain ⟨hfile, hnamed⟩ := hopened path hpath hok
        rw [FileCall.apply, hhost, happenders, if_pos rfl]
        exact ⟨_, rfl, hpath'.trans hpath, hfile, hnamed⟩
      · cases hc
    | _ => cases hc
  | createClosed path' level formatter => cases hc
  | rename path' target => cases hc
  | remove path' => cases hc

theorem filing_start {host : Host} (hd : host.disk.Sound) : Filing { host } where
  sound := hd
  appends a x h := by simp [appenderAt?] at h

/-- After any calls on appenders in append mode, each file holds what it held at first and then the
renderings of the events written to it, in the order of the calls; an appender's count tells how many it
wrote. An appender with a file open puts an event at or above its threshold whole into that file, and
nothing anywhere else, before the call returns; no other call adds a byte to any file. Once opened on a path
an appender has open the file that the path named then, whatever becomes of the name, until it is opened
again or given up. -/
theorem content_fileCalls (host : Host) (hd : host.disk.Sound) (cs : List FileCall) :
    let s := fileCalls cs { host }
    let ds := deposits cs { host }
    (∀ id, s.host.disk.content id = host.disk.content id ++ filed ds id) ∧
    (∀ d ∈ ds, d.file = none → d.rendering = .empty) ∧
    (∀ a x, s.appenderAt? a = some x → x.metrics.written = UInt64.ofNat (ds.countP (·.appender = a))) ∧
    (∀ a x id, s.appenderAt? a = some x → x.file? = some id → ∀ loggerName level e,
      let c := FileCall.ask a (.log loggerName level e)
      let rendering := (x.formatter.format loggerName level e).toUTF8
      (level < x.level → deposits (cs ++ [c]) { host } = ds ∧ (c.apply s).host.disk = s.host.disk) ∧
      (¬ level < x.level → deposits (cs ++ [c]) { host } = ds ++ [⟨a, some id, rendering⟩] ∧
        (c.apply s).host.disk = s.host.disk.grown id rendering)) ∧
    (∀ c : FileCall, (∀ a loggerName level e, c ≠ .ask a (.log loggerName level e)) →
      ∀ id, (c.apply s).host.disk.content id = s.host.disk.content id) ∧
    ∀ (c : FileCall) a path, c.opens s = some (a, path) →
      let t := c.apply s
      (∀ id, s.host.disk.fileAt? path = some id → t.host.disk.fileAt? path = some id) ∧
      ∀ later, .ask a .reopen ∉ later → .ask a .drop ∉ later →
        ∃ y, (fileCalls later t).appenderAt? a = some y ∧ y.path? = some path ∧
          y.file? = t.host.disk.fileAt? path := by
  intro s ds
  obtain ⟨hs, hgained, hwritten⟩ := gained_fileCalls (filing_start hd) cs
  refine ⟨hgained.content, hgained.outside, fun a x ha => ?_, fun a x id ha hid loggerName level e => ?_,
    fun c hc id => ?_, fun c a path hc => ?_⟩
  · have hcount := hwritten a
    rw [written, ha] at hcount
    exact hcount.trans (UInt64.zero_add _)
  · intro c rendering
    have hx := hs.appends a x ha
    have hdeposit : deposits (cs ++ [c]) { host } = ds ++ ((Request.log loggerName level e).deposit a x s.host).toList := by
      rw [deposits_append, deposits, deposits, List.append_nil, FileCall.deposit, ha]
      rfl
    have hdisk : (c.apply s).host.disk = (x.log loggerName level e s.host).2.2.disk :=
      congrArg Host.disk (Request.send_of_appenderAt? ha _).1
    refine ⟨fun hl => ?_, fun hl => ?_⟩
    · rw [hdeposit, Request.deposit_of_lt hl, hdisk, Appender.log_of_lt hl]
      exact ⟨List.append_nil ds, rfl⟩
    · rw [hdeposit, Request.deposit_of_file? hx hid hl, hdisk, Appender.log_of_file? hx hid hl]
      exact ⟨rfl, rfl⟩
  · have hnone : c.deposit s = none := by
      cases c with
      | ask a r =>
        cases r with
        | log loggerName level e => exact absurd rfl (hc a loggerName level e)
        | _ => simp [FileCall.deposit, Request.deposit]
      | _ => rfl
    refine ((step_apply hs c).gained.content id).trans ?_
    rw [hnone]
    exact ByteArray.append_empty
  · intro t
    obtain ⟨x, hx, hpath, hfile, hnamed⟩ := file_of_opens hs hc
    refine ⟨hnamed, fun later hreopen hdrop => ?_⟩
    obtain ⟨y, hy, hpath', hfile'⟩ := path_fileCalls (step_apply hs c).filing hx hreopen hdrop
    exact ⟨y, hy, hpath'.trans hpath, hfile'.trans hfile⟩

/-- Two appenders on one file, which gets another name before the second is opened again. -/
theorem content_fileCalls_renamed :
    let e (content : String) : Event :=
      { fileName := "f", line := 1, elapsed := 0, threadId := 1, fiberId := 0, time := 0, content }
    let f : Formatter := ⟨"%m", [.message]⟩
    let cs : List FileCall := [.create "a" .debug f, .create "a" .warn f, .ask ⟨0⟩ (.log "l" .debug (e "1")),
      .ask ⟨1⟩ (.log "l" .info (e "-")), .ask ⟨1⟩ (.log "l" .warn (e "2")), .rename "a" "b",
      .ask ⟨0⟩ (.log "l" .debug (e "3")), .ask ⟨1⟩ .reopen, .ask ⟨1⟩ (.log "l" .warn (e "4")),
      .ask ⟨0⟩ (.log "l" .debug (e "5")), .ask ⟨0⟩ .drop]
    Disk.Sound {} ∧ (fileCalls cs {}).host.disk.content 0 = "1235".toUTF8 ∧
      (fileCalls cs {}).host.disk.content 1 = "4".toUTF8 := by
  intro e f cs
  have hfiled : filed (deposits cs {}) 0 = "1235".toUTF8 ∧ filed (deposits cs {}) 1 = "4".toUTF8 := by cbv
  obtain ⟨hcontent, -⟩ := content_fileCalls {} Disk.sound_default cs
  refine ⟨Disk.sound_default, (hcontent 0).trans ?_, (hcontent 1).trans ?_⟩
  · rw [hfiled.1]; exact ByteArray.empty_append
  · rw [hfiled.2]; exact ByteArray.empty_append

end System

end Logline
