import Logline.Proofs.Output.Prospect
import Logline.Proofs.System.Refusal

/-!
# Files that a refused configuration has emptied

Files are opened while appenders are made, and what is to be truncated is emptied then. When a later
appender cannot be made that is not undone; all other files hold what they held.
-/

namespace Logline

open Output

namespace Config.Wanted

def Empties (w : Wanted) (d : Disk) (id : FileId) : Prop :=
  w.plan.kind = .file ∧ w.plan.mode = .truncate ∧ ∃ path, w.plan.file = some path ∧ d.fileAt? path = some id

/-- Of the files that there were, those that some appenders were to empty are empty, and the others hold what
they held. -/
structure Emptied (ws : List Wanted) (d d' : Disk) : Prop where
  later : d.Later d'
  empty : ∀ id < d.contents.size, (∃ w ∈ ws, w.Empties d id) → d'.content id = .empty
  kept : ∀ id < d.contents.size, (∀ w ∈ ws, ¬ w.Empties d id) → d'.content id = d.content id

variable {w : Wanted} {ws : List Wanted} {d d' d'' : Disk}

theorem Opens.later (h : w.Opens d d') : d.Later d' := by
  cases h with
  | console _ _ => exact .refl d
  | @file _ path _ _ _ _ _ ho =>
    have := Disk.Later.openFile d path (w.plan.mode == .truncate)
    rwa [ho] at this

theorem Opens.content_of_empties (h : w.Opens d d') {id : FileId} (hw : w.Empties d id) : d'.content id = .empty := by
  obtain ⟨hkind, hmode, path, hfile, hat⟩ := hw
  cases h with
  | console _ hk => rw [hkind] at hk; cases hk
  | file _ _ hf ho =>
    cases hfile.symm.trans hf
    have hcontent := d.content_openFile path (w.plan.mode == .truncate) id
    rw [ho] at hcontent
    exact hcontent.trans (if_pos ⟨by rw [hmode]; rfl, hat⟩)

theorem Opens.content_of_not_empties (h : w.Opens d d') {id : FileId} (hw : ¬ w.Empties d id) :
    d'.content id = d.content id := by
  cases h with
  | console _ _ => rfl
  | @file _ path _ _ _ hk hf ho =>
    have hcontent := d.content_openFile path (w.plan.mode == .truncate) id
    rw [ho] at hcontent
    refine hcontent.trans (if_neg ?_)
    rintro ⟨hmode, hat⟩
    exact hw ⟨hk, by simpa using hmode, path, hf, hat⟩

theorem Empties.iff_of_later (h : d.Later d') {id : FileId} (hid : id < d.contents.size) :
    w.Empties d' id ↔ w.Empties d id := by
  constructor
  · rintro ⟨hkind, hmode, path, hfile, hat⟩
    exact ⟨hkind, hmode, path, hfile, h.fileAt?_of_lt hid hat⟩
  · rintro ⟨hkind, hmode, path, hfile, hat⟩
    exact ⟨hkind, hmode, path, hfile, h.fileAt?_some hat⟩

/-- What one appender empties stays empty, and what it keeps the next ones find as it was. -/
theorem OpensAll.emptied (h : OpensAll ws d d') : Emptied ws d d' := by
  induction h with
  | nil d => exact ⟨.refl d, fun _ _ ⟨_, hv, _⟩ => absurd hv List.not_mem_nil, fun _ _ _ => rfl⟩
  | @cons w ws d d' d'' hw _ ih =>
    have hlater := hw.later
    have hiff : ∀ id < d.contents.size, ∀ v : Wanted, v.Empties d' id ↔ v.Empties d id :=
      fun id hid v => Empties.iff_of_later hlater hid
    refine ⟨hlater.trans ih.later, fun id hid hempties => ?_, fun id hid hnone => ?_⟩
    · have hlt := Nat.lt_of_lt_of_le hid hlater.size
      by_cases hrest : ∃ v ∈ ws, v.Empties d' id
      · exact ih.empty id hlt hrest
      · obtain ⟨v, hv, hempties⟩ := hempties
        rcases List.mem_cons.mp hv with rfl | hv
        · rw [ih.kept id hlt fun v hv h => hrest ⟨v, hv, h⟩, hw.content_of_empties hempties]
        · exact absurd ⟨v, hv, (hiff id hid v).mpr hempties⟩ hrest
    · obtain ⟨hfirst, hrest⟩ := List.forall_mem_cons.mp hnone
      rw [ih.kept id (Nat.lt_of_lt_of_le hid hlater.size) fun v hv h => hrest v hv ((hiff id hid v).mp h),
        hw.content_of_not_empties hfirst]

end Config.Wanted

namespace System

open Config

/-- A configuration that is refused leaves every file its name, and its content but for the files that
appenders in truncate mode have emptied: those that come, in the order of the document, before the first that
cannot be made. If the configuration offends, none comes before. -/
theorem content_refused (s : System) (registry : RegistryId) {config : Config} {e : Error}
    (h : (s.configure registry config).1 = .error e) :
    let d := s.host.disk
    let d' := (s.configure registry config).2.host.disk
    (∀ path id, d.fileAt? path = some id → d'.fileAt? path = some id) ∧
    ∃ made, (config.Offends e ∧ made = [] ∨
        ∃ w rest, config.wanted = made ++ w :: rest ∧ Wanted.OpensAll made d d' ∧ w.Faulty d' e) ∧
      ∀ id < d.contents.size, ((∃ w ∈ made, w.Empties d id) → d'.content id = .empty) ∧
        ((∀ w ∈ made, ¬ w.Empties d id) → d'.content id = d.content id) := by
  intro d d'
  cases hv : config.validate with
  | error e' =>
    have he := validate_eq_error_iff.mp hv
    have hc := s.configure_of_offends registry he
    rw [hc] at h
    cases h
    have hd : d' = d := congrArg (fun r : Except Error Unit × System => r.2.host.disk) hc
    rw [hd]
    exact ⟨fun _ _ hat => hat, [], .inl ⟨he, rfl⟩, fun _ _ =>
      ⟨fun ⟨_, hw, _⟩ => absurd hw List.not_mem_nil, fun _ => rfl⟩⟩
  | ok _ =>
    rcases s.configure_cases registry hv with ⟨prepared, t, -, hc⟩ | ⟨e', t, hfailed, hc⟩
    · cases (congrArg Prod.fst hc).symm.trans h
    · cases (congrArg Prod.fst hc).symm.trans h
      have hd : d' = t.host.disk := congrArg (fun r : Except Error Unit × System => r.2.host.disk) hc
      obtain ⟨made, w, rest, hsplit, hopens, hfaulty⟩ := hfailed.fault
      rw [← hd] at hopens hfaulty
      have hemptied := hopens.emptied
      exact ⟨fun _ _ hat => hemptied.later.fileAt?_some hat, made, .inr ⟨w, rest, hsplit, hopens, hfaulty⟩,
        fun id hid => ⟨hemptied.empty id hid, hemptied.kept id hid⟩⟩

/-- The third appender cannot be made: the first has emptied its file, and the second has kept its own. -/
theorem content_refused_third :
    let s : System := {
      host := { disk := ((Disk.writeFile {} "x" "old".toUTF8).2.writeFile "y" "kept".toUTF8).2 }
      loggers := #[{ name := Registry.rootName }]
      registries := #[{ root := ⟨0⟩ }] }
    let config : Config := { loggers := [{ name := "a", pattern := some "%m", appenders :=
      [{ kind := .file, file := some "x", mode := .truncate }, { kind := .file, file := some "y" },
        { kind := .file, file := some "." }] }] }
    let t := (s.configure ⟨0⟩ config).2
    (s.configure ⟨0⟩ config).1 = .error (.fileAppender "." (Fault.os .isADirectory).message) ∧
      t.host.disk.content 0 = .empty ∧ t.host.disk.content 1 = "kept".toUTF8 := by
  intro s config t
  have hr : (s.configure ⟨0⟩ config).1 = .error (.fileAppender "." (Fault.os .isADirectory).message) := by cbv
  have hx : s.host.disk.fileAt? "x" = some 0 := by cbv
  -- the text of the fault is kept closed
  obtain ⟨m, hm⟩ : ∃ m, (s.configure ⟨0⟩ config).1 = .error (.fileAppender "." m) := ⟨_, hr⟩
  obtain ⟨-, made, hmade, hcontent⟩ := content_refused s ⟨0⟩ hm
  rcases hmade with ⟨⟨-, l, -, -, -, ho⟩, -⟩ | ⟨w, rest, hsplit, -, hw⟩
  · cases ho
  cases hw with
  | file _ _ hf _ =>
    have hmade : made = config.wanted.take 2 := by
      rcases made with _ | ⟨_, _ | ⟨_, _ | ⟨_, l⟩⟩⟩
      · cases hsplit
        exact absurd hf (by decide)
      · cases hsplit
        exact absurd hf (by decide)
      · cases hsplit
        rfl
      · injections
        exact absurd ‹[] = l ++ w :: rest› (by simp)
    rw [hmade] at hcontent
    refine ⟨hr, (hcontent 0 (by cbv)).1 ⟨_, List.mem_cons_self, rfl, rfl, "x", rfl, hx⟩,
      ((hcontent 1 (by cbv)).2 ?_).trans (by cbv)⟩
    rintro _ (_ | ⟨_, _ | ⟨_, ⟨⟩⟩⟩) ⟨-, hmode, path, hfile, hat⟩
    · cases hfile
      cases hx.symm.trans hat
    · cases hmode

/-- What was emptied stays so although the configuration is refused. -/
theorem content_not_kept_of_refused :
    ¬ ∀ (s : System) (registry : RegistryId) (config : Config) (e : Error), (s.registryAt? registry).isSome →
      (s.configure registry config).1 = .error e → ∀ path id, s.host.disk.fileAt? path = some id →
        (s.configure registry config).2.host.disk.content id = s.host.disk.content id := by
  intro h
  let s : System := {
    host := { disk := (Disk.writeFile {} "x" "old".toUTF8).2 }
    loggers := #[{ name := Registry.rootName }]
    registries := #[{ root := ⟨0⟩ }] }
  let config : Config := { loggers := [{ name := "a", pattern := some "%m", appenders :=
    [{ kind := .file, file := some "x", mode := .truncate }, { kind := .file, file := some "." }] }] }
  have hr : (s.configure ⟨0⟩ config).1 = .error (.fileAppender "." (Fault.os .isADirectory).message) := by cbv
  have hold : s.host.disk.content 0 = "old".toUTF8 := by cbv
  have hempty : (s.configure ⟨0⟩ config).2.host.disk.content 0 = .empty := by cbv
  have hkept := h s ⟨0⟩ config _ rfl hr "x" 0 (by cbv)
  rw [hold, hempty] at hkept
  exact absurd (congrArg ByteArray.size hkept) (by decide)

end System

end Logline
