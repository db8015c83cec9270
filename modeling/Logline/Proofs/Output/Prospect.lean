import Mathlib.Data.List.Basic
import Logline.Proofs.Output.Likeness
import Logline.Proofs.Output.Naming

/-!
# What a path has in store

Opening paths adds files where there was nothing, and directories stay what they are. So a path leads to
the same entry of the same directory for good, and whether it can be opened does not depend on what has been
opened before.
-/

namespace Logline.Output

def Node.file? : Node → Option FileId
  | file id => some id
  | _ => none

namespace Disk

def slot? (d : Disk) (path : String) : Option Path :=
  match d.place path with
  | .ok (.entry parent name false) => if nameLimit < name.utf8ByteSize then none else some (parent ++ [name])
  | _ => none

inductive Prospect
  | refused
  | full
  | fresh
  | file (content : ByteArray)

def prospect (d : Disk) (path : String) : Prospect :=
  match (d.slot? path).map d.find? with
  | none | some (some .directory) => .refused
  | some (some .full) => .full
  | some (some (.file id)) => .file (d.content id)
  | some none => .fresh

def Prospect.content? : Prospect → Option ByteArray
  | file content => some content
  | _ => none

variable {d d' d'' : Disk} {path : String} {p : Path}

/-! ## Opening by entries -/

theorem slot?_of_place {parent : Path} {name : String} (hp : d.place path = .ok (.entry parent name false))
    {found : Option Node} (hl : d.lookUp parent name = .ok found) : d.slot? path = some (parent ++ [name]) := by
  have hlen : ¬ nameLimit < name.utf8ByteSize := by
    intro hlen
    rw [lookUp, if_pos hlen] at hl
    cases hl
  simp only [slot?, hp, if_neg hlen]

theorem openFile_of_no_slot (h : d.slot? path = none) (emptied : Bool) :
    ∃ e, d.openFile path emptied = (.error e, d) := by
  rcases d.openFile_cases path emptied with ⟨e, ho⟩ | ⟨parent, name, hp, hl⟩
  · exact ⟨e, ho⟩
  · obtain ⟨found, hl⟩ : ∃ found, d.lookUp parent name = .ok found := by
      rcases hl with ⟨hl, -⟩ | ⟨id, hl, -⟩ | ⟨hl, -⟩ <;> exact ⟨_, hl⟩
    cases h.symm.trans (slot?_of_place hp hl)

theorem openFile_of_slot (h : d.slot? path = some p) (emptied : Bool) :
    d.openFile path emptied =
      let position := if emptied then some 0 else none
      match d.find? p with
      | some .directory => (.error (.os .isADirectory), d)
      | some .full => (.ok ⟨.full, position⟩, d)
      | some (.file id) => (.ok ⟨.file id, position⟩, if emptied then d.setContent id .empty else d)
      | none => (.ok ⟨.file d.contents.size, position⟩, (d.addFile p).2) := by
  unfold slot? at h
  split at h
  · next parent name hp =>
    split at h
    · cases h
    · next hlen =>
      cases h
      simp only [openFile, hp, lookUp, hlen, Bool.false_eq_true, if_false]
      cases hfind : d.find? (parent ++ [name]) with
      | none => rfl
      | some n => cases n <;> rfl
  · cases h

theorem fileAt?_eq_slot (d : Disk) (path : String) :
    d.fileAt? path = (d.slot? path).bind fun p => (d.find? p).bind Node.file? := by
  rw [fileAt?, slot?]
  cases d.place path with
  | error e => rfl
  | ok q =>
    cases q with
    | directory base => rfl
    | entry parent name asDirectory =>
      cases asDirectory with
      | true => rfl
      | false =>
        simp only [lookUp]
        by_cases hlen : nameLimit < name.utf8ByteSize
        · rw [if_pos hlen, if_pos hlen]
          rfl
        · rw [if_neg hlen, if_neg hlen, Option.bind_some]
          cases d.find? (parent ++ [name]) with
          | none => rfl
          | some n => cases n <;> rfl

theorem content?_prospect (d : Disk) (path : String) :
    (d.prospect path).content? = (d.fileAt? path).map d.content := by
  rw [fileAt?_eq_slot, prospect]
  cases d.slot? path with
  | none => rfl
  | some p =>
    rw [Option.map_some, Option.bind_some]
    cases d.find? p with
    | none => rfl
    | some n => cases n <;> rfl

/-! ## A disk on which paths have been opened and files written -/

/-- What there was is there, and what is new are files, each under one name. -/
structure Later (d d' : Disk) : Prop where
  workingDirectory : d'.workingDirectory = d.workingDirectory
  size : d.contents.size ≤ d'.contents.size
  kept : ∀ p n, d.find? p = some n → d'.find? p = some n
  new : ∀ p n, d.find? p = none → d'.find? p = some n →
    ∃ id, n = .file id ∧ d.contents.size ≤ id ∧ id < d'.contents.size
  inj : ∀ p q id, d.find? p = none → d.find? q = none → d'.find? p = some (.file id) →
    d'.find? q = some (.file id) → p = q

namespace Later

theorem refl (d : Disk) : d.Later d where
  workingDirectory := rfl
  size := Nat.le_refl _
  kept _ _ h := h
  new p n h h' := by cases h.symm.trans h'
  inj p q id h _ h' := by cases h.symm.trans h'

/-- A name that was there before leads to what it led to; a file under a new one has a new number. -/
theorem find?_of_lt (h : d.Later d') {id : FileId} (hid : id < d.contents.size) (hp : d'.find? p = some (.file id)) :
    d.find? p = some (.file id) := by
  cases hfind : d.find? p with
  | some n => rw [← h.kept p n hfind, hp]
  | none =>
    obtain ⟨j, hj, hle, -⟩ := h.new p _ hfind hp
    cases hj
    exact absurd hid (Nat.not_lt.mpr hle)

theorem trans (h : d.Later d') (h' : d'.Later d'') : d.Later d'' where
  workingDirectory := h'.workingDirectory.trans h.workingDirectory
  size := Nat.le_trans h.size h'.size
  kept p n hn := h'.kept p n (h.kept p n hn)
  new p n hp hn := by
    cases hfind : d'.find? p with
    | none =>
      obtain ⟨id, rfl, hle, hlt⟩ := h'.new p n hfind hn
      exact ⟨id, rfl, Nat.le_trans h.size hle, hlt⟩
    | some m =>
      obtain ⟨id, rfl, hle, hlt⟩ := h.new p m hp hfind
      cases hn.symm.trans (h'.kept p _ hfind)
      exact ⟨id, rfl, hle, Nat.lt_of_lt_of_le hlt h'.size⟩
  inj p q id hp hq hpid hqid := by
    have hback : ∀ r, d'.find? r = none → d''.find? r = some (.file id) → d'.contents.size ≤ id := by
      intro r hr hrid
      obtain ⟨j, hj, hle, -⟩ := h'.new r _ hr hrid
      cases hj
      exact hle
    by_cases hid : id < d'.contents.size
    · exact h.inj p q id hp hq (h'.find?_of_lt hid hpid) (h'.find?_of_lt hid hqid)
    · have hnone : ∀ r, d.find? r = none → d''.find? r = some (.file id) → d'.find? r = none := by
        intro r hr hrid
        cases hfind : d'.find? r with
        | none => rfl
        | some n =>
          obtain ⟨j, rfl, -, hlt⟩ := h.new r n hr hfind
          cases hrid.symm.trans (h'.kept r _ hfind)
          exact absurd hlt hid
      exact h'.inj p q id (hnone p hp hpid) (hnone q hq hqid) hpid hqid

theorem of_rewritten {target : Target} (h : Rewritten target d d') : d.Later d' := by
  have hfind : ∀ p, d'.find? p = d.find? p := fun p => by rw [find?, find?, h.entries]
  refine ⟨h.workingDirectory, Nat.le_of_eq h.size.symm, fun p n hn => (hfind p).trans hn, fun p n hp hn => ?_,
    fun p q id hp _ hn => ?_⟩
  · cases hp.symm.trans ((hfind p).symm.trans hn)
  · cases hp.symm.trans ((hfind p).symm.trans hn)

theorem addFile (hp : d.find? p = none) : d.Later (d.addFile p).2 := by
  have hfind := find?_addFile hp
  have hsize : (d.addFile p).2.contents.size = d.contents.size + 1 := by simp [Disk.addFile]
  have hnew : ∀ q n, d.find? q = none → (d.addFile p).2.find? q = some n →
      q = p ∧ n = .file d.contents.size := by
    intro q n hq hn
    rw [hfind] at hn
    split at hn
    · next he => exact ⟨he, (Option.some.inj hn).symm⟩
    · rw [hq] at hn
      cases hn
  refine ⟨rfl, by rw [hsize]; exact Nat.le_succ _, fun q n hn => ?_, fun q n hq hn => ?_,
    fun q r id hq hr hqid hrid => (hnew q _ hq hqid).1.trans (hnew r _ hr hrid).1.symm⟩
  · have hne : q ≠ p := by
      rintro rfl
      rw [hp] at hn
      cases hn
    rw [hfind, if_neg hne, hn]
  · exact ⟨_, (hnew q n hq hn).2, Nat.le_refl _, by rw [hsize]; exact Nat.lt_succ_self _⟩

theorem openFile (d : Disk) (path : String) (emptied : Bool) : d.Later (d.openFile path emptied).2 := by
  cases he : d.slot? path with
  | none =>
    obtain ⟨e, ho⟩ := openFile_of_no_slot he emptied
    rw [ho]
    exact .refl d
  | some p =>
    rw [openFile_of_slot he]
    cases hfind : d.find? p with
    | none => exact .addFile hfind
    | some n =>
      cases n with
      | directory => exact .refl d
      | full => exact .refl d
      | file id =>
        cases emptied with
        | false => exact .refl d
        | true => exact .of_rewritten (rewritten_setContent d id _)

section
variable (h : d.Later d')
include h

theorem place_eq_ok_iff {q : Place} : d'.place path = .ok q ↔ d.place path = .ok q := by
  constructor
  · refine place_mono (fun p hp => ?_) h.workingDirectory.symm
    cases hfind : d.find? p with
    | some n => rw [← h.kept p n hfind, hp]
    | none =>
      obtain ⟨id, hid, -⟩ := h.new p _ hfind hp
      cases hid
  · exact place_mono (fun p => h.kept p _) h.workingDirectory

theorem slot?_eq (path : String) : d'.slot? path = d.slot? path := by
  unfold slot?
  cases hp : d.place path with
  | ok q => rw [h.place_eq_ok_iff.mpr hp]
  | error e =>
    cases hp' : d'.place path with
    | error e' => rfl
    | ok q => rw [h.place_eq_ok_iff.mp hp'] at hp; cases hp

theorem fileAt?_of_lt {id : FileId} (hid : id < d.contents.size) (hp : d'.fileAt? path = some id) :
    d.fileAt? path = some id := by
  rw [fileAt?_eq_slot, h.slot?_eq] at hp
  rw [fileAt?_eq_slot]
  cases he : d.slot? path with
  | none => rw [he] at hp; cases hp
  | some p =>
    rw [he, Option.bind_some] at hp
    obtain ⟨n, hn, hfile⟩ := Option.bind_eq_some_iff.mp hp
    cases n with
    | file j =>
      cases hfile
      rw [Option.bind_some, h.find?_of_lt hid hn]
      rfl
    | _ => cases hfile

theorem fileAt?_some {id : FileId} (hp : d.fileAt? path = some id) : d'.fileAt? path = some id := by
  rw [fileAt?_eq_slot] at hp ⊢
  rw [h.slot?_eq]
  obtain ⟨p, hslot, hp⟩ := Option.bind_eq_some_iff.mp hp
  obtain ⟨n, hn, hfile⟩ := Option.bind_eq_some_iff.mp hp
  rw [hslot, Option.bind_some, h.kept p n hn, Option.bind_some, hfile]

theorem lt_of_fileAt? (hd : d.Sound) {id : FileId} (hp : d'.fileAt? path = some id) : id < d'.contents.size := by
  by_cases hid : id < d.contents.size
  · exact Nat.lt_of_lt_of_le hid h.size
  · rw [fileAt?_eq_slot] at hp
    obtain ⟨p, -, hp⟩ := Option.bind_eq_some_iff.mp hp
    obtain ⟨n, hn, hfile⟩ := Option.bind_eq_some_iff.mp hp
    cases n with
    | file j =>
      cases hfile
      cases hfind : d.find? p with
      | none =>
        obtain ⟨k, hk, -, hlt⟩ := h.new p _ hfind hn
        cases hk
        exact hlt
      | some m =>
        cases hn.symm.trans (h.kept p m hfind)
        exact absurd (hd p id (mem_entries_of_find? hfind nofun)) hid
    | _ => cases hfile

end

end Later

/-! ## Paths that lead to different places -/

def Apart (d : Disk) (p q : String) : Prop :=
  (∀ e, d.slot? p = some e → d.slot? q ≠ some e) ∧ ∀ id, d.fileAt? p = some id → d.fileAt? q ≠ some id

theorem exists_slot_of_fileAt? {id : FileId} (h : d.fileAt? path = some id) :
    ∃ e, d.slot? path = some e ∧ d.find? e = some (.file id) := by
  rw [fileAt?_eq_slot] at h
  obtain ⟨e, he, hfind⟩ := Option.bind_eq_some_iff.mp h
  obtain ⟨n, hn, hfile⟩ := Option.bind_eq_some_iff.mp hfind
  cases n with
  | file j =>
    cases hfile
    exact ⟨e, he, hn⟩
  | _ => cases hfile

theorem fileAt?_of_find? {e : Path} (he : d.slot? path = some e) {id : FileId} (hfind : d.find? e = some (.file id)) :
    d.fileAt? path = some id := by
  rw [fileAt?_eq_slot, he, Option.bind_some, hfind]
  rfl

theorem prospect_of_fileAt? {id : FileId} (h : d.fileAt? path = some id) :
    d.prospect path = .file (d.content id) := by
  obtain ⟨e, he, hfind⟩ := exists_slot_of_fileAt? h
  simp only [prospect, he, Option.map_some, hfind]

theorem prospect_congr (hslot : d'.slot? path = d.slot? path)
    (hfind : ∀ p, d.slot? path = some p → d'.find? p = d.find? p)
    (hcontent : ∀ id, d.fileAt? path = some id → d'.content id = d.content id) :
    d'.prospect path = d.prospect path := by
  rw [prospect, prospect, hslot]
  cases hp : d.slot? path with
  | none => rfl
  | some p =>
    rw [Option.map_some, Option.map_some, hfind p hp]
    cases hn : d.find? p with
    | none => rfl
    | some n =>
      cases n with
      | file id => exact congrArg Prospect.file (hcontent id (fileAt?_of_find? hp hn))
      | _ => rfl

theorem Rewritten.find? {target : Target} (h : Rewritten target d d') (p : Path) : d'.find? p = d.find? p := by
  rw [Disk.find?, Disk.find?, h.entries]

theorem Rewritten.prospect {target : Target} (h : Rewritten target d d')
    (hne : ∀ id, target = .file id → d.fileAt? path ≠ some id) : d'.prospect path = d.prospect path := by
  refine prospect_congr ((Later.of_rewritten h).slot?_eq path) (fun e _ => h.find? e) fun id hid => ?_
  exact h.content id fun ht => hne id ht hid

theorem Later.fileAt?_ne {d₀ : Disk} (h : d₀.Later d) (hd : d₀.Sound) {p q : String} (hpq : d₀.Apart p q)
    {id : FileId} (hp : d.fileAt? p = some id) : d.fileAt? q ≠ some id := by
  intro hq
  -- a file that there was is found under names that there were, and a new one under one name only
  by_cases hid : id < d₀.contents.size
  · exact hpq.2 id (h.fileAt?_of_lt hid hp) (h.fileAt?_of_lt hid hq)
  · obtain ⟨e, he, hfind⟩ := exists_slot_of_fileAt? hp
    obtain ⟨e', he', hfind'⟩ := exists_slot_of_fileAt? hq
    rw [h.slot?_eq] at he he'
    have hnone : ∀ r, d.find? r = some (.file id) → d₀.find? r = none := by
      intro r hr
      cases hn : d₀.find? r with
      | none => rfl
      | some n =>
        cases hr.symm.trans (h.kept r n hn)
        exact absurd (hd r id (mem_entries_of_find? hn nofun)) hid
    obtain rfl := h.inj e e' id (hnone e hfind) (hnone e' hfind') hfind hfind'
    exact hpq.1 e he he'

theorem Later.prospect_openFile {d₀ : Disk} (h : d₀.Later d) (hd : d₀.Sound) {p q : String} (hpq : d₀.Apart p q)
    (emptied : Bool) : (d.openFile p emptied).2.prospect q = d.prospect q := by
  cases he : d.slot? p with
  | none =>
    obtain ⟨e, ho⟩ := openFile_of_no_slot he emptied
    rw [ho]
  | some e =>
    rw [openFile_of_slot he]
    cases hfind : d.find? e with
    | none =>
      refine prospect_congr ((Later.addFile hfind).slot?_eq q) (fun e' he' => ?_) fun id _ => (Kept.addFile d e).content id
      rw [find?_addFile hfind, if_neg]
      rintro rfl
      rw [h.slot?_eq] at he he'
      exact hpq.1 _ he he'
    | some n =>
      cases n with
      | directory => rfl
      | full => rfl
      | file id =>
        cases emptied with
        | false => rfl
        | true =>
          refine (rewritten_setContent d id _).prospect fun j hj => ?_
          cases hj
          exact h.fileAt?_ne hd hpq (fileAt?_of_find? he hfind)

/-- What an opening comes to, by what the path has in store. -/
theorem openFile_prospect (d : Disk) (path : String)
    (hlt : ∀ id, d.fileAt? path = some id → id < d.contents.size) (emptied : Bool) :
    let position := if emptied then some 0 else none
    match d.prospect path with
    | .refused => ∃ e, d.openFile path emptied = (.error e, d)
    | .full => d.openFile path emptied = (.ok ⟨.full, position⟩, d)
    | .file content => ∃ id d', d.openFile path emptied = (.ok ⟨.file id, position⟩, d') ∧ d'.fileAt? path = some id ∧
        d'.prospect path = .file (if emptied then .empty else content)
    | .fresh => ∃ id d', d.openFile path emptied = (.ok ⟨.file id, position⟩, d') ∧ d'.fileAt? path = some id ∧
        d'.prospect path = .file .empty := by
  intro position
  cases he : d.slot? path with
  | none =>
    simp only [prospect, he, Option.map_none]
    exact openFile_of_no_slot he emptied
  | some e =>
    have ho := openFile_of_slot he emptied
    simp only [prospect, he, Option.map_some]
    cases hfind : d.find? e with
    | none =>
      have hat : (d.addFile e).2.fileAt? path = some d.contents.size :=
        fileAt?_of_find? (((Later.addFile hfind).slot?_eq path).trans he) ((find?_addFile hfind e).trans (if_pos rfl))
      rw [hfind] at ho
      refine ⟨_, _, ho, hat, ?_⟩
      have hcontent : (d.addFile e).2.content d.contents.size = .empty := by simp [addFile, content]
      rw [← hcontent]
      exact prospect_of_fileAt? hat
    | some n =>
      rw [hfind] at ho
      cases n with
      | directory => exact ⟨_, ho⟩
      | full => exact ho
      | file id =>
        have hat := fileAt?_of_find? he hfind
        cases emptied with
        | false => exact ⟨_, _, ho, hat, prospect_of_fileAt? hat⟩
        | true =>
          have hrewritten := rewritten_setContent d id .empty
          have hat' : (d.setContent id .empty).fileAt? path = some id :=
            fileAt?_of_find? (((Later.of_rewritten hrewritten).slot?_eq path).trans he) ((hrewritten.find? e).trans hfind)
          have hcontent : (d.setContent id .empty).content id = .empty :=
            (content_setContent (hlt id hat) _ _).trans (if_pos rfl)
          exact ⟨id, d.setContent id .empty, ho, hat', (prospect_of_fileAt? hat').trans (congrArg Prospect.file hcontent)⟩

/-! ## What opening leaves of a content -/

theorem content_setContent_empty (d : Disk) (id other : FileId) :
    (d.setContent id .empty).content other = if other = id then .empty else d.content other := by
  simp only [content, setContent, Array.set!_eq_setIfInBounds, Array.getElem?_setIfInBounds]
  split
  · next h =>
    subst h
    split <;> simp
  · next h => rw [if_neg (Ne.symm h)]

theorem content_openFile (d : Disk) (path : String) (emptied : Bool) (id : FileId) :
    (d.openFile path emptied).2.content id =
      if emptied = true ∧ d.fileAt? path = some id then .empty else d.content id := by
  rw [fileAt?_eq_slot]
  cases he : d.slot? path with
  | none =>
    obtain ⟨e, ho⟩ := openFile_of_no_slot he emptied
    simp [ho]
  | some p =>
    rw [openFile_of_slot he, Option.bind_some]
    cases hfind : d.find? p with
    | none => simp [(Kept.addFile d p).content id]
    | some n =>
      cases n with
      | directory => simp [Node.file?]
      | full => simp [Node.file?]
      | file j =>
        cases emptied with
        | false => simp
        | true => simp [Node.file?, content_setContent_empty, eq_comm]

end Disk

end Logline.Output
