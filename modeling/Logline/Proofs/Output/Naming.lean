import Mathlib.Data.List.Basic
import Logline.Output.Disk.Actions

/-!
# The file that a path names

Opening a path without emptying leads to the file that it names, or makes an empty one under that name; it
changes no content. Renaming and removing move and drop names, and change no content either.
-/

namespace Logline.Output

def Target.file? : Target → Option FileId
  | file id => some id
  | full => none

theorem Target.file?_eq_some_iff {target : Target} {id : FileId} : target.file? = some id ↔ target = .file id := by
  cases target <;> simp [file?]

theorem exists_of_bind_eq_ok {ε α β : Type} {x : Except ε α} {f : α → Except ε β} {b : β}
    (h : x >>= f = .ok b) : ∃ a, x = .ok a ∧ f a = .ok b := by
  cases x with
  | error e => cases h
  | ok a => exact ⟨a, rfl, h⟩

namespace Disk

def Sound (d : Disk) : Prop :=
  ∀ p id, (p, Node.file id) ∈ d.entries → id < d.contents.size

theorem sound_default : Sound {} := by
  intro p id h
  simp [devices] at h

def fileAt? (d : Disk) (path : String) : Option FileId :=
  match d.place path with
  | .ok (.entry parent name false) =>
    match d.lookUp parent name with
    | .ok (some (.file id)) => some id
    | _ => none
  | _ => none

variable {d d' : Disk}

theorem mem_entries_of_find? {p : Path} {n : Node} (h : d.find? p = some n) (hn : n ≠ .directory) :
    (p, n) ∈ d.entries := by
  unfold find? at h
  split at h
  · exact absurd (Option.some.inj h).symm hn
  · obtain ⟨before, after, he, -⟩ := List.lookup_eq_some_iff.mp h
    rw [he]
    exact List.mem_append_right _ List.mem_cons_self

theorem find?_of_lookUp {parent : Path} {name : String} {n : Option Node} (h : d.lookUp parent name = .ok n) :
    d.find? (parent ++ [name]) = n := by
  unfold lookUp at h
  split at h
  · cases h
  · exact Except.ok.inj h

theorem Sound.lt_of_lookUp (hd : d.Sound) {parent : Path} {name : String} {id : FileId}
    (h : d.lookUp parent name = .ok (some (.file id))) : id < d.contents.size :=
  hd _ id (mem_entries_of_find? (find?_of_lookUp h) (by simp))

theorem Sound.lt_of_fileAt? (hd : d.Sound) {path : String} {id : FileId} (h : d.fileAt? path = some id) :
    id < d.contents.size := by
  unfold fileAt? at h
  split at h
  · split at h
    · next hl =>
      cases h
      exact hd.lt_of_lookUp hl
    · cases h
  · cases h

/-! ## A disk with more names -/

section
variable (hf : ∀ p, d.find? p = some .directory → d'.find? p = some .directory)
include hf

/-- A way leads over directories; it is found where these are, whatever else there is. -/
theorem walk_mono {names : List String} {base result : Path} (h : d.walk base names = .ok result) :
    d'.walk base names = .ok result := by
  induction names generalizing base with
  | nil => exact h
  | cons name names ih =>
    rw [walk] at h ⊢
    split
    · next hdot => rw [if_pos hdot] at h; exact ih h
    next hdot =>
    rw [if_neg hdot] at h
    split
    · next hup => rw [if_pos hup] at h; exact ih h
    next hup =>
    rw [if_neg hup] at h
    cases hl : d.lookUp base name with
    | error e => rw [hl] at h; cases h
    | ok found =>
      rw [hl] at h
      rcases found with _ | (id | _ | _)
      · cases h
      · cases h
      · have hl' : d'.lookUp base name = .ok (some .directory) := by
          have hfound := hf _ (find?_of_lookUp hl)
          unfold lookUp at hl ⊢
          split at hl
          · cases hl
          · next hlen => rw [if_neg hlen, hfound]
        rw [hl']
        exact ih h
      · cases h

theorem place_mono (hw : d'.workingDirectory = d.workingDirectory) {path : String} {q : Place}
    (h : d.place path = .ok q) : d'.place path = .ok q := by
  unfold place at h ⊢
  cases hnul : refuseNul path with
  | error e => rw [hnul] at h; cases h
  | ok u =>
    simp only [hnul, bind, Except.bind] at h ⊢
    split at h
    · cases h
    next hne =>
    split at h
    · cases h
    next hlen =>
    rw [if_neg hne, if_neg hlen, hw]
    cases hbase : d.walk (if path.startsWith "/" then [] else d.workingDirectory) (names path).dropLast with
    | error e => simp only [hbase] at h; cases h
    | ok base =>
      simp only [hbase] at h
      rw [walk_mono hf hbase]
      exact h

end

theorem find?_addFile {p : Path} (hp : d.find? p = none) (q : Path) :
    (d.addFile p).2.find? q = if q = p then some (.file d.contents.size) else d.find? q := by
  have hne : p ≠ [] := by
    rintro rfl
    simp [find?] at hp
  have hlookup : d.entries.lookup p = none := by simpa [find?, hne] using hp
  by_cases hq : q = p
  · subst hq
    simp [find?, addFile, addEntry, hne, List.lookup_append, hlookup]
  · have hb : (q == p) = false := beq_eq_false_iff_ne.mpr hq
    simp [find?, addFile, addEntry, hq, List.lookup_append, List.lookup_cons, hb]

/-! ## Opening -/

/-- All that opening a path can do. -/
theorem openFile_cases (d : Disk) (path : String) (emptied : Bool) :
    let position := if emptied then some 0 else none
    (∃ e, d.openFile path emptied = (.error e, d)) ∨
    ∃ parent name, d.place path = .ok (.entry parent name false) ∧
      (d.lookUp parent name = .ok (some .full) ∧ d.openFile path emptied = (.ok ⟨.full, position⟩, d) ∨
      (∃ id, d.lookUp parent name = .ok (some (.file id)) ∧ d.openFile path emptied =
        (.ok ⟨.file id, position⟩, if emptied then d.setContent id .empty else d)) ∨
      d.lookUp parent name = .ok none ∧ d.openFile path emptied =
        (.ok ⟨.file d.contents.size, position⟩, (d.addFile (parent ++ [name])).2)) := by
  intro position
  unfold openFile
  cases hp : d.place path with
  | error e => exact .inl ⟨e, rfl⟩
  | ok q =>
    cases q with
    | directory base => exact .inl ⟨_, rfl⟩
    | entry parent name asDirectory =>
      cases asDirectory with
      | true => exact .inl ⟨_, rfl⟩
      | false =>
        cases hl : d.lookUp parent name with
        | error e => exact .inl ⟨e, by simp only [hl, Bool.false_eq_true, if_false]⟩
        | ok found =>
          simp only [hl, Bool.false_eq_true, if_false]
          cases found with
          | none => exact .inr ⟨parent, name, rfl, .inr (.inr ⟨hl, rfl⟩)⟩
          | some node =>
            cases node with
            | directory => exact .inl ⟨_, rfl⟩
            | full => exact .inr ⟨parent, name, rfl, .inl ⟨hl, rfl⟩⟩
            | file id => exact .inr ⟨parent, name, rfl, .inr (.inl ⟨id, hl, rfl⟩)⟩

theorem openFile_error {path : String} {emptied : Bool} {e : Fault} (h : d.openFile path emptied = (.error e, d')) :
    d' = d := by
  rcases d.openFile_cases path emptied with ⟨e', ho⟩ | ⟨parent, name, -, ⟨-, ho⟩ | ⟨id, -, ho⟩ | ⟨-, ho⟩⟩
  · rw [ho] at h; exact (Prod.mk.inj h).2.symm
  all_goals rw [ho] at h; cases h

theorem fileAt?_eq {path : String} {parent : Path} {name : String} (hp : d.place path = .ok (.entry parent name false))
    {n : Option Node} (hl : d.lookUp parent name = .ok n) :
    d.fileAt? path = match n with | some (.file id) => some id | _ => none := by
  simp only [fileAt?, hp, hl]
  rcases n with _ | (id | _ | _) <;> rfl

/-! ## Contents that are kept -/

/-- No file has lost or gained a byte; files may have been added, and names moved or dropped. -/
structure Kept (d d' : Disk) : Prop where
  sound : d.Sound → d'.Sound
  size : d.contents.size ≤ d'.contents.size
  content : ∀ id, d'.content id = d.content id

namespace Kept

theorem refl (d : Disk) : d.Kept d := ⟨id, Nat.le_refl _, fun _ => rfl⟩

theorem of_entries (hc : d'.contents = d.contents)
    (he : ∀ p n, (p, n) ∈ d'.entries → ∃ q, (q, n) ∈ d.entries) : d.Kept d' where
  sound hd p id hm := by
    obtain ⟨q, hq⟩ := he p _ hm
    rw [hc]
    exact hd q id hq
  size := Nat.le_of_eq (congrArg Array.size hc).symm
  content id := by rw [Disk.content, Disk.content, hc]

theorem addFile (d : Disk) (p : Path) : d.Kept (d.addFile p).2 where
  sound hd q id hm := by
    simp only [Disk.addFile, addEntry, List.mem_append, List.mem_singleton, Prod.mk.injEq, Node.file.injEq,
      Array.size_push] at hm ⊢
    rcases hm with hm | ⟨-, rfl⟩
    · exact Nat.lt_succ_of_lt (hd q id hm)
    · exact Nat.lt_succ_self _
  size := by simp [Disk.addFile]
  content id := by
    simp only [Disk.content, Disk.addFile, Array.getElem?_push]
    split
    · next h => simp [h]
    · rfl

end Kept

/-- A path that has been opened without emptying leads to the file that it then names, which is the one it
named before if it named one. -/
theorem openFile_appending {path : String} {handle : Handle} (h : d.openFile path false = (.ok handle, d')) :
    handle.position = none ∧ handle.target.file? = d'.fileAt? path ∧
      (∀ id, d.fileAt? path = some id → d'.fileAt? path = some id) ∧ d.Kept d' := by
  rcases d.openFile_cases path false with
    ⟨e, ho⟩ | ⟨parent, name, hp, ⟨hl, ho⟩ | ⟨id, hl, ho⟩ | ⟨hl, ho⟩⟩
  · rw [ho] at h; cases h
  · rw [ho] at h; cases h
    exact ⟨rfl, (fileAt?_eq hp hl).symm, fun _ hid => hid, .refl d⟩
  · rw [ho] at h; cases h
    exact ⟨rfl, (fileAt?_eq hp hl).symm, fun _ hid => hid, .refl d⟩
  · rw [ho] at h; cases h
    have hfound := find?_of_lookUp hl
    have hf : ∀ p n, d.find? p = some n → (d.addFile (parent ++ [name])).2.find? p = some n := by
      intro p n hn
      have hne : p ≠ parent ++ [name] := by
        rintro rfl
        rw [hfound] at hn
        cases hn
      rw [find?_addFile hfound, if_neg hne, hn]
    have hp' := place_mono (fun p => hf p _) rfl hp
    have hl' : (d.addFile (parent ++ [name])).2.lookUp parent name = .ok (some (.file d.contents.size)) := by
      have hlen : ¬ nameLimit < name.utf8ByteSize := by
        intro hlen
        rw [lookUp, if_pos hlen] at hl
        cases hl
      rw [lookUp, if_neg hlen]
      exact congrArg _ ((find?_addFile hfound _).trans (if_pos rfl))
    refine ⟨rfl, (fileAt?_eq hp' hl').symm, fun id hid => ?_, .addFile d _⟩
    rw [fileAt?_eq hp hl] at hid
    cases hid

/-! ## Renaming and removing -/

theorem kept_dropEntry (d : Disk) (p : Path) : d.Kept (d.dropEntry p) :=
  .of_entries rfl fun q _ hm => ⟨q, (List.mem_filter.mp hm).1⟩

theorem kept_removeFile {path : String} (h : d.removeFile path = .ok d') : d.Kept d' := by
  obtain ⟨q, -, h⟩ := exists_of_bind_eq_ok h
  cases q with
  | directory base => cases h
  | entry parent name asDirectory =>
    obtain ⟨found, -, h⟩ := exists_of_bind_eq_ok h
    rcases found with _ | (id | _ | _)
    · cases h
    · simp only at h
      split at h
      · cases h
      · cases h; exact d.kept_dropEntry _
    · cases h
    · simp only at h
      split at h
      · cases h
      · cases h; exact d.kept_dropEntry _

theorem kept_move {source target : Path} {node : Node} (h : d.move source node target = .ok d') : d.Kept d' := by
  unfold move at h
  split at h
  · cases h; exact .refl d
  split at h
  · cases h
  split at h
  · cases h
  split at h
  · cases h
  · cases h
    refine .of_entries rfl fun p n hm => ?_
    obtain ⟨⟨q, n'⟩, hq, he⟩ := List.mem_map.mp hm
    obtain ⟨-, rfl⟩ := Prod.mk.inj he
    exact ⟨q, (List.mem_filter.mp hq).1⟩

theorem kept_rename {path target : String} (h : d.rename path target = .ok d') : d.Kept d' := by
  obtain ⟨-, -, h⟩ := exists_of_bind_eq_ok h
  obtain ⟨-, -, h⟩ := exists_of_bind_eq_ok h
  obtain ⟨source, -, h⟩ := exists_of_bind_eq_ok h
  obtain ⟨goal, -, h⟩ := exists_of_bind_eq_ok h
  split at h
  · cases h
  split at h
  · obtain ⟨found, -, h⟩ := exists_of_bind_eq_ok h
    split at h
    · cases h
    · obtain ⟨-, -, h⟩ := exists_of_bind_eq_ok h
      split at h
      · cases h
      · exact kept_move h
  · cases h

end Disk

end Logline.Output
