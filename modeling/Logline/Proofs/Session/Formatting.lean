import Logline.Proofs.System.Formatting
import Logline.Session.Run

/-!
# Formatters of a session

Formatters are stored under names and copied into appenders, and both can be given other patterns. Whatever a
session has done, and whichever of its steps have failed, each of them tells what it renders.
-/

namespace Logline.Session

open Output
open Logline.System (lasting_tells)

def Has (s : Session) (f : Formatter) : Prop :=
  (∃ name, (name, f) ∈ s.formatters) ∨ ∃ a x, s.system.appenderAt? a = some x ∧ x.formatter = f

structure Telling (s : Session) : Prop where
  stored : ∀ p ∈ s.formatters, p.2.Tells
  system : s.system.Telling

theorem Telling.of_has {s : Session} (h : s.Telling) {f : Formatter} (hf : s.Has f) : f.Tells := by
  rcases hf with ⟨name, hf⟩ | ⟨a, x, hx, rfl⟩
  · exact h.stored _ hf
  · exact h.system a x hx

theorem Table.mem_put {α : Type} {t : Table α} {name : String} {x : α} {p : String × α} (h : p ∈ t.put name x) :
    p = (name, x) ∨ p ∈ t := by
  rcases List.mem_cons.mp h with rfl | h
  · exact .inl rfl
  · exact .inr (List.mem_filter.mp h).1

theorem Table.mem_of_lookup {α : Type} {t : Table α} {name : String} {x : α} (h : t.lookup name = some x) :
    (name, x) ∈ t := by
  induction t with
  | nil => cases h
  | cons p t ih =>
    obtain ⟨n, y⟩ := p
    rw [List.lookup_cons] at h
    split at h
    · next hn => cases h; rw [eq_of_beq hn]; exact List.mem_cons_self
    · exact List.mem_cons_of_mem _ (ih h)

/-! ## Actions that keep formatters telling -/

variable {α β : Type}

theorem run_bind (act : Action α) (f : α → Action β) (s : Session) :
    (act >>= f).run s = match act.run s with
      | (.ok x, t) => (f x).run t
      | (.error o, t) => (.error o, t) := by
  show (match act.run s with | (r, t) => ExceptT.bindCont f r t) = _
  rcases act.run s with ⟨x | o, t⟩ <;> rfl

/-- After the action formatters tell if they did before it, whether or not it fails; if it does not, its
result is as said. -/
def Yields (act : Action α) (post : α → Prop) : Prop :=
  ∀ s : Session, s.Telling → (act.run s).2.Telling ∧ ∀ x, (act.run s).1 = .ok x → post x

def Keeps (act : Action α) : Prop :=
  Yields act fun _ => True

theorem Yields.bind {act : Action α} {f : α → Action β} {post : α → Prop} {post' : β → Prop} (h : Yields act post)
    (hf : ∀ x, post x → Yields (f x) post') : Yields (act >>= f) post' := by
  intro s hs
  obtain ⟨ht, hx⟩ := h s hs
  rw [run_bind]
  revert ht hx
  rcases act.run s with ⟨o | x, t⟩
  · exact fun ht _ => ⟨ht, nofun⟩
  · exact fun ht hx => hf x (hx x rfl) t ht

theorem yields_pure {x : α} {post : α → Prop} (h : post x) : Yields (pure x) post := by
  intro s hs
  refine ⟨hs, ?_⟩
  rintro _ ⟨⟩
  exact h

theorem yields_throw (o : Outcome) (post : α → Prop) : Yields (throw o) post :=
  fun _ hs => ⟨hs, nofun⟩

theorem yields_get : Yields get Telling := by
  intro s hs
  refine ⟨hs, ?_⟩
  rintro _ ⟨⟩
  exact hs

theorem yields_find {table : Session → Table α} {post : α → Prop}
    (h : ∀ s, s.Telling → ∀ p ∈ table s, post p.2) (name : String) : Yields (find table name) post :=
  yields_get.bind fun s hs => by
    split
    · next x hx => exact yields_pure (h s hs _ (Table.mem_of_lookup hx))
    · exact yields_throw _ _

theorem yields_findFormatter (name : String) : Yields (find formatters name) Formatter.Tells :=
  yields_find (fun _ hs => hs.stored) name

theorem yields_orFailed {r : Except Error α} {post : α → Prop} (h : ∀ x, r = .ok x → post x) :
    Yields (orFailed r) post := by
  cases r with
  | ok x => exact yields_pure (h x rfl)
  | error e => exact yields_throw _ _

/-! ### Actions of which nothing is said but that -/

theorem Yields.keeps {act : Action α} {post : α → Prop} (h : Yields act post) : Keeps act :=
  fun s hs => ⟨(h s hs).1, fun _ _ => trivial⟩

theorem Keeps.bind {act : Action α} {f : α → Action β} {post : β → Prop} (h : Keeps act)
    (hf : ∀ x, Yields (f x) post) : Yields (act >>= f) post :=
  Yields.bind h fun x _ => hf x

theorem keeps_pure (x : α) : Keeps (pure x) :=
  yields_pure trivial

theorem keeps_throw (o : Outcome) : Keeps (throw o : Action α) :=
  yields_throw o _

theorem keeps_get : Keeps get :=
  yields_get.keeps

theorem keeps_modify {g : Session → Session} (hg : ∀ s, s.Telling → (g s).Telling) :
    Keeps (modify g : Action PUnit) :=
  fun s hs => ⟨hg s hs, fun _ _ => trivial⟩

theorem keeps_find (table : Session → Table α) (name : String) : Keeps (find table name) :=
  yields_find (fun _ _ _ _ => trivial) name

theorem keeps_orFailed (r : Except Error α) : Keeps (orFailed r) :=
  yields_orFailed fun _ _ => trivial

theorem keeps_orFault (r : Except Fault α) : Keeps (orFault r) := by
  cases r with
  | ok x => exact keeps_pure x
  | error f => exact keeps_throw _

theorem keeps_mapM {f : α → Action β} {l : List α} (hf : ∀ x ∈ l, Keeps (f x)) : Keeps (l.mapM f) := by
  induction l with
  | nil => exact keeps_pure []
  | cons x l ih =>
    obtain ⟨hx, hl⟩ := List.forall_mem_cons.mp hf
    rw [List.mapM_cons]
    exact hx.bind fun y => Keeps.bind (ih hl) fun ys => keeps_pure (y :: ys)

theorem keeps_onSystem {f : System → α × System}
    (hf : ∀ s : System, s.Each (fun _ x => x.formatter.Tells) → (f s).2.Each fun _ x => x.formatter.Tells) :
    Keeps (onSystem f) :=
  fun s hs => ⟨⟨hs.stored, hf s.system hs.system⟩, fun _ _ => trivial⟩

theorem keeps_inTurn {calls : List (System → Except Fault Unit × System)} (hcalls : ∀ call ∈ calls, ∀ s : System,
    s.Each (fun _ x => x.formatter.Tells) → (call s).2.Each fun _ x => x.formatter.Tells) : Keeps (inTurn calls) :=
  (keeps_mapM fun call h => (keeps_onSystem (hcalls call h)).bind keeps_orFault).bind fun _ => keeps_pure _

theorem keeps_onHost (f : Host → α × Host) : Keeps (onHost f) :=
  keeps_onSystem fun _ hs => hs.of_appenders rfl

theorem keeps_onDisk (f : Disk → α × Disk) : Keeps (onDisk f) :=
  keeps_onHost _

theorem keeps_alter (f : Disk → Except Fault Disk) : Keeps (alter f) :=
  keeps_get.bind fun _ => (keeps_orFault _).bind fun _ => (keeps_onDisk _).bind fun _ => keeps_pure _

theorem keeps_findAppender (name : String) : Keeps (findAppender name) :=
  (keeps_find _ name).bind fun _ => keeps_get.bind fun _ => by
    split
    · exact keeps_pure _
    · exact keeps_throw _

theorem keeps_findLogger (name : String) : Keeps (findLogger name) :=
  (keeps_find _ name).bind fun _ => keeps_get.bind fun _ => by
    split
    · exact keeps_pure _
    · exact keeps_throw _

theorem keeps_findRegistry (name : String) : Keeps (findRegistry name) :=
  (keeps_find _ name).bind fun _ => keeps_get.bind fun _ => by
    split
    · exact keeps_pure _
    · exact keeps_throw _

theorem keeps_resolve (e : EventSource) : Keeps (resolve e) := by
  cases e with
  | given e => exact keeps_pure e
  | stored name => exact keeps_find events name

/-- What is stored is no formatter. -/
theorem keeps_store {g : Session → Session} (hf : ∀ s, (g s).formatters = s.formatters)
    (hs : ∀ s, (g s).system = s.system) : Keeps (modify g : Action PUnit) :=
  keeps_modify fun s h => ⟨by rw [hf]; exact h.stored, by rw [hs]; exact h.system⟩

theorem keeps_storeFormatter (name : String) {f : Formatter} (hf : f.Tells) : Keeps (storeFormatter name f) := by
  refine keeps_modify fun s hs => ⟨fun p hp => ?_, hs.system⟩
  rcases Table.mem_put hp with rfl | hp
  · exact hf
  · exact hs.stored p hp

theorem keeps_storeSink (name : String) (f : Sink.File) : Keeps (storeSink name f) :=
  keeps_store (fun _ => rfl) fun _ => rfl

theorem keeps_storeEvent (name : String) (e : Event) : Keeps (storeEvent name e) :=
  Keeps.bind (keeps_store (fun _ => rfl) fun _ => rfl) fun _ => keeps_pure _

theorem keeps_storeAppender (name : String) (a : AppenderId) : Keeps (storeAppender name a) :=
  Keeps.bind (keeps_store (fun _ => rfl) fun _ => rfl) fun _ => keeps_pure _

theorem keeps_storeLogger (name : String) (l : LoggerId) : Keeps (storeLogger name l) :=
  keeps_store (fun _ => rfl) fun _ => rfl

theorem keeps_storeRegistry (name : String) (i : RegistryId) : Keeps (storeRegistry name i) :=
  Keeps.bind (keeps_store (fun _ => rfl) fun _ => rfl) fun _ => keeps_pure _

theorem keeps_changeAppender (name : String) {f : Appender → Appender}
    (hf : ∀ x, x.formatter.Tells → (f x).formatter.Tells) : Keeps (changeAppender name f) :=
  (keeps_findAppender name).bind fun (a, _) =>
    (keeps_onSystem fun _ hs => hs.modifyAppender a hf).bind fun _ => keeps_pure _

theorem keeps_changeLogger (name : String) (f : Logger → Logger) : Keeps (changeLogger name f) :=
  (keeps_findLogger name).bind fun _ =>
    (keeps_onSystem fun _ hs => hs.of_appenders rfl).bind fun _ => keeps_pure _

theorem keeps_metricsOf (name : String) : Keeps (metricsOf name) :=
  (keeps_findLogger name).bind fun _ => keeps_get.bind fun _ => keeps_pure _

theorem keeps_tellLogger (name : String) (l : LoggerId) : Keeps (tellLogger name l) :=
  (keeps_storeLogger name l).bind fun _ => (keeps_findLogger name).bind fun _ => keeps_pure _

theorem keeps_newAppender (name : String) (level : Level) {f : Formatter} (hf : f.Tells) (sink : SinkSource) :
    Keeps (newAppender name level f sink) := by
  have hadd : ∀ sink : Sink, Keeps (onSystem (·.addAppender sink level f) >>= storeAppender name) := fun sink =>
    (keeps_onSystem fun _ hs => hs.addAppender lasting_tells trivial level hf).bind fun a => keeps_storeAppender name a
  cases sink with
  | stdout colours => exact hadd _
  | stderr colours => exact hadd _
  | writer writer colours => exact (keeps_find _ writer).bind fun _ => hadd _
  | file path mode =>
    exact (keeps_onSystem fun _ hs => hs.addFileAppender lasting_tells path mode level hf).bind fun r =>
      (keeps_orFailed r).bind fun a => keeps_storeAppender name a
  | stored sink =>
    exact (keeps_find _ sink).bind fun _ => Keeps.bind (keeps_store (fun _ => rfl) fun _ => rfl) fun _ => hadd _

/-! ## Steps -/

/-- No step parts a formatter's pattern from its items, whatever becomes of the step. -/
theorem keeps_perform (st : Step) : Keeps (perform st) := by
  cases st with
  | writer name limit flushFails =>
    exact (keeps_onHost _).bind fun _ => Keeps.bind (keeps_store (fun _ => rfl) fun _ => rfl) fun _ => keeps_pure _
  | flushes name => exact (keeps_find _ name).bind fun _ => keeps_get.bind fun _ => keeps_pure _
  | fileSink name path mode isOpened =>
    cases isOpened with
    | true =>
      exact (keeps_onDisk _).bind fun r => (keeps_orFailed r).bind fun f => (keeps_storeSink name f).bind fun _ =>
        keeps_pure _
    | false => exact (keeps_storeSink name _).bind fun _ => keeps_pure _
  | sinkInfo name => exact (keeps_find _ name).bind fun _ => keeps_pure _
  | sinkReopen name =>
    exact (keeps_find _ name).bind fun _ => (keeps_onHost _).bind fun _ => (keeps_storeSink name _).bind fun _ =>
      (keeps_orFault _).bind fun _ => keeps_pure _
  | writeFile path text => exact (keeps_onDisk _).bind fun _ => (keeps_orFault _).bind fun _ => keeps_pure _
  | fileContent path => exact keeps_get.bind fun _ => (keeps_orFault _).bind fun _ => keeps_pure _
  | renameFile path target => rw [perform]; exact keeps_alter _
  | removeFile path => rw [perform]; exact keeps_alter _
  | makeDirectory path => rw [perform]; exact keeps_alter _
  | formatter name pattern =>
    cases pattern with
    | none => exact (keeps_storeFormatter name Formatter.tells_standard).bind fun _ => keeps_pure _
    | some pattern =>
      exact (yields_orFailed fun _ h => (Formatter.tells_of_ofPattern h).1).bind fun _ hf =>
        (keeps_storeFormatter name hf).bind fun _ => keeps_pure _
  | resetFormatter name pattern =>
    exact (yields_findFormatter name).bind fun _ hf => (keeps_storeFormatter name (hf.reset pattern)).bind fun _ =>
      (keeps_orFailed _).bind fun _ => keeps_pure _
  | formatterInfo name => exact (keeps_find _ name).bind fun _ => keeps_pure _
  | formatterEqual a b => exact (keeps_find _ a).bind fun _ => (keeps_find _ b).bind fun _ => keeps_pure _
  | format name logger level e =>
    exact (keeps_find _ name).bind fun _ => (keeps_resolve e).bind fun _ => keeps_pure _
  | formatTo name writer logger level e =>
    exact (keeps_find _ name).bind fun _ => (keeps_find _ writer).bind fun _ => (keeps_resolve e).bind fun _ =>
      (keeps_onHost _).bind fun _ => (keeps_orFault _).bind fun _ => keeps_pure _
  | event name e => exact (keeps_resolve e).bind fun _ => (keeps_storeEvent name _).bind fun _ => keeps_pure _
  | pushContent name text => exact (keeps_find _ name).bind fun _ => keeps_storeEvent name _
  | withFields name content threadName loggerName => exact (keeps_find _ name).bind fun _ => keeps_storeEvent name _
  | eventInfo name => exact (keeps_find _ name).bind fun _ => keeps_pure _
  | eventEqual a b => exact (keeps_find _ a).bind fun _ => (keeps_find _ b).bind fun _ => keeps_pure _
  | here file line => exact keeps_pure _
  | metrics name records =>
    exact keeps_get.bind fun _ => Keeps.bind (keeps_store (fun _ => rfl) fun _ => rfl) fun _ => keeps_pure _
  | appender name level formatter sink =>
    cases formatter with
    | standard => exact keeps_newAppender name level Formatter.tells_standard sink
    | pattern text =>
      exact (yields_orFailed fun _ h => (Formatter.tells_of_ofPattern h).1).bind fun _ hf =>
        keeps_newAppender name level hf sink
    | stored stored =>
      exact (yields_findFormatter stored).bind fun _ hf => keeps_newAppender name level hf sink
  | appenderInfo name => exact (keeps_findAppender name).bind fun _ => keeps_pure _
  | appenderDescription name => exact (keeps_findAppender name).bind fun _ => keeps_pure _
  | appenderLog name logger level e times =>
    exact (keeps_findAppender name).bind fun (a, _) => (keeps_resolve e).bind fun e =>
      (keeps_inTurn fun _ hcall _ hs => by
        rw [List.eq_of_mem_replicate hcall]
        exact hs.deliver lasting_tells logger level e a).bind fun _ =>
      (keeps_findAppender name).bind fun _ => keeps_pure _
  | appenderLevel name level => rw [perform]; exact keeps_changeAppender name fun _ hx => hx
  | appenderPattern name pattern =>
    exact (keeps_findAppender name).bind fun (a, _) =>
      (keeps_onSystem fun _ hs => hs.setPattern lasting_tells a pattern).bind fun _ =>
      (keeps_orFailed _).bind fun _ => keeps_pure _
  | appenderFormatter name formatter =>
    exact (yields_findFormatter formatter).bind fun _ hf => keeps_changeAppender name fun _ _ => hf
  | appenderReopen name =>
    exact (keeps_findAppender name).bind fun (a, _) =>
      (keeps_onSystem fun _ hs => hs.reopen lasting_tells a).bind fun _ => (keeps_orFault _).bind fun _ =>
      keeps_pure _
  | appenderFlush name =>
    exact (keeps_findAppender name).bind fun (a, _) =>
      (keeps_onSystem fun _ hs => hs.flushAppender lasting_tells a).bind fun _ =>
      (keeps_orFailed _).bind fun _ => keeps_pure _
  | logger name loggerName level =>
    exact (keeps_onSystem fun _ hs => hs.of_appenders rfl).bind fun _ => (keeps_storeLogger name _).bind fun _ =>
      keeps_pure _
  | buildLogger name loggerName level as =>
    exact (keeps_mapM fun _ _ => keeps_find _ _).bind fun _ => (keeps_onSystem fun _ hs => hs.of_appenders rfl).bind fun _ =>
      (keeps_storeLogger name _).bind fun _ => keeps_pure _
  | loggerInfo name => exact (keeps_findLogger name).bind fun _ => keeps_get.bind fun _ => keeps_pure _
  | loggerDescription name => exact (keeps_findLogger name).bind fun _ => keeps_pure _
  | add name appender => exact (keeps_find _ appender).bind fun _ => keeps_changeLogger name _
  | remove name appender => exact (keeps_find _ appender).bind fun _ => keeps_changeLogger name _
  | clear name => rw [perform]; exact keeps_changeLogger name _
  | setAppenders name as => exact (keeps_mapM fun _ _ => keeps_find _ _).bind fun _ => keeps_changeLogger name _
  | loggerLevel name level => rw [perform]; exact keeps_changeLogger name _
  | loggerFlush name =>
    exact (keeps_findLogger name).bind fun (l, _) => (keeps_onSystem fun _ hs => hs.flush lasting_tells l).bind fun _ =>
      (keeps_orFailed _).bind fun _ => keeps_pure _
  | log name level e times =>
    exact (keeps_findLogger name).bind fun (l, _) => (keeps_resolve e).bind fun e =>
      (keeps_inTurn fun _ hcall _ hs => by
        rw [List.eq_of_mem_replicate hcall]
        exact hs.log lasting_tells l level e).bind fun _ =>
      keeps_metricsOf name
  | logHere name level content =>
    exact (keeps_findLogger name).bind fun (l, _) =>
      (keeps_onSystem fun _ hs => hs.logWith lasting_tells l level _).bind fun _ => (keeps_orFault _).bind fun _ =>
      keeps_pure _
  | concurrent name level threads each =>
    exact (keeps_findLogger name).bind fun (l, _) =>
      (keeps_inTurn fun _ hcall _ hs => by
        obtain ⟨e, -, rfl⟩ := List.mem_map.mp hcall
        exact hs.log lasting_tells l level e).bind fun _ =>
      keeps_metricsOf name
  | grab name logger index =>
    refine (keeps_findLogger logger).bind fun (_, l) => ?_
    dsimp only
    cases l.appenders[index]? with
    | some a => exact keeps_storeAppender name a
    | none => exact keeps_throw _
  | same a b => exact (keeps_find _ a).bind fun _ => (keeps_find _ b).bind fun _ => keeps_pure _
  | registry name root =>
    cases root with
    | none => exact (keeps_onSystem fun _ hs => hs.newRegistry lasting_tells).bind fun _ => keeps_storeRegistry name _
    | some root =>
      exact (keeps_find _ root).bind fun _ => (keeps_onSystem fun _ hs => hs.of_appenders rfl).bind fun _ =>
        keeps_storeRegistry name _
  | get registry loggerName name =>
    refine (keeps_findRegistry registry).bind fun (i, _) => (keeps_onSystem fun _ hs => hs.get i loggerName).bind
      fun l => ?_
    cases l with
    | some l => exact keeps_tellLogger name l
    | none => exact keeps_throw _
  | lookup registry loggerName name =>
    refine (keeps_findRegistry registry).bind fun (_, r) => ?_
    dsimp only
    cases r.lookup loggerName with
    | some l => exact keeps_tellLogger name l
    | none => exact keeps_pure _
  | root registry name => exact (keeps_findRegistry registry).bind fun _ => keeps_tellLogger name _
  | names registry => exact (keeps_findRegistry registry).bind fun _ => keeps_pure _
  | configure registry source =>
    exact (keeps_findRegistry registry).bind fun (i, _) => (keeps_orFailed _).bind fun config =>
      (keeps_onSystem fun _ hs => hs.configure lasting_tells i config).bind fun _ =>
        (keeps_orFailed _).bind fun _ => keeps_pure _

theorem Telling.step {s : Session} (h : s.Telling) (st : Step) : (s.step st).2.Telling :=
  (keeps_perform st s h).1

theorem Telling.steps {s : Session} (h : s.Telling) (script : List Step) : (s.steps script).2.Telling := by
  induction script generalizing s with
  | nil => exact h
  | cons st script ih => exact ih (h.step st)

theorem telling_empty (host : Host) : Telling { system := { host } } :=
  ⟨nofun, System.telling_empty host⟩

/-- Whatever a session has done and whichever of its steps have failed, the pattern of every formatter it has,
stored or in an appender, compiles to the formatter's items. Another pattern that does not compile changes
nothing, and of one that does the formatter is as if it were new. So an appender renders what a new formatter of
its pattern would, and formatters of one pattern are the same. -/
theorem formatters_tell (host : Host) (script : List Step) :
    let s := (({ system := { host } } : Session).steps script).2
    (∀ f, s.Has f → Pattern.compile f.pattern = .ok f.items) ∧
    (∀ f, s.Has f → ∀ pattern,
      (∃ e, Formatter.ofPattern pattern = .error e ∧ f.reset pattern = (.error e, f)) ∨
      ∃ g, Formatter.ofPattern pattern = .ok g ∧ f.reset pattern = (.ok (), g)) ∧
    (∀ a x, s.system.appenderAt? a = some x → ∀ pattern,
      (∃ e, Formatter.ofPattern pattern = .error e ∧ s.system.setPattern a pattern = (.error e, s.system)) ∨
      ∃ f t, Formatter.ofPattern pattern = .ok f ∧ s.system.setPattern a pattern = (.ok (), t) ∧
        t.appenderAt? a = some (x.setFormatter f)) ∧
    (∀ a x, s.system.appenderAt? a = some x → ∃ f, Formatter.ofPattern x.formatter.pattern = .ok f ∧
      ∀ loggerName level e, x.formatter.format loggerName level e = f.format loggerName level e ∧
        ∀ h, x.log loggerName level e h = (x.setFormatter f).log loggerName level e h) ∧
    ∀ f g, s.Has f → s.Has g → (f = g ↔ f.pattern = g.pattern) := by
  intro s
  have hs : s.Telling := (telling_empty host).steps script
  refine ⟨fun f hf => hs.of_has hf, fun f _ => f.reset_cases, fun a x hx => System.setPattern_cases hx, fun a x hx => ?_,
    fun f g hf hg => (hs.of_has hf).eq_iff (hs.of_has hg)⟩
  have hfresh := Formatter.tells_iff.mp (hs.system a x hx)
  exact ⟨x.formatter, hfresh, fun loggerName level e => ⟨rfl, fun h => rfl⟩⟩

/-- A pattern that does not compile leaves the formatter with the one it had. -/
theorem formatters_tell_kept :
    let s := (({} : Session).steps [.formatter "f" (some "%m"), .resetFormatter "f" "%d\x7b"]).2
    s.formatters = [("f", ⟨"%m", [.message]⟩)] ∧ Pattern.compile "%m" = .ok [.message] := by
  intro s
  have hstored : s.formatters = [("f", ⟨"%m", [.message]⟩)] := by decide +kernel
  have hf : s.Has ⟨"%m", [.message]⟩ := by
    refine .inl ⟨"f", ?_⟩
    rw [hstored]
    exact List.mem_cons_self
  exact ⟨hstored, (formatters_tell {} _).1 _ hf⟩

end Logline.Session
