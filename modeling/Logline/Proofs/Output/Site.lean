import Mathlib.Data.List.Basic
import Logline.Output.Host
import Logline.Proofs.Output.Memory
import Logline.Proofs.Output.Prospect

/-!
# Sites

A sink writes to an outlet of the host or to the file at a path. Of an outlet nothing matters to a writer
but what it holds and how it answers, and of a path nothing but what it has in store.
-/

namespace Logline.Output

/-! ## Hosts that have been written to -/

structure Host.Later (h h' : Host) : Prop where
  disk : h.disk.Later h'.disk
  ansi : h'.ansi = h.ansi

namespace Host

theorem Later.refl (h : Host) : h.Later h :=
  ⟨.refl _, rfl⟩

theorem Later.trans {h h' h'' : Host} (h₁ : h.Later h') (h₂ : h'.Later h'') : h.Later h'' :=
  ⟨h₁.disk.trans h₂.disk, h₂.ansi.trans h₁.ansi⟩

def outlet? (h : Host) : Outlet → Option Memory
  | .stdout => some h.stdout
  | .stderr => some h.stderr
  | .memory i => h.memories[i]?

theorem outlet_eq (h : Host) (o : Outlet) : h.outlet o = (h.outlet? o).getD {} := by
  cases o <;> rfl

theorem outlet?_setOutlet (h : Host) (o o' : Outlet) (m : Memory) :
    (h.setOutlet o m).outlet? o' = if o' = o then (h.outlet? o).map fun _ => m else h.outlet? o' := by
  cases o with
  | memory i =>
    cases o' with
    | memory j =>
      by_cases hj : j = i
      · subst hj
        by_cases hlt : j < h.memories.size <;> simp [outlet?, setOutlet, hlt]
      · simp [outlet?, setOutlet, hj, Array.getElem?_setIfInBounds_ne (Ne.symm hj)]
    | _ => simp [outlet?, setOutlet]
  | _ => cases o' <;> simp [outlet?, setOutlet]

theorem later_setOutlet (h : Host) (o : Outlet) (m : Memory) : h.Later (h.setOutlet o m) := by
  cases o <;> exact ⟨.refl _, rfl⟩

end Host

/-! ## Memories apart from their flushes -/

namespace Memory

def unflushed (m : Memory) : Memory :=
  { m with flushes := 0 }

theorem deliver_unflushed {m m' : Memory} (h : m.unflushed = m'.unflushed) (pieces : List ByteArray) :
    (deliver pieces m).1 = (deliver pieces m').1 ∧
      (deliver pieces m).2.unflushed = (deliver pieces m').2.unflushed := by
  obtain ⟨content, limit, flushFails, flushes⟩ := m
  obtain ⟨content', limit', flushFails', flushes'⟩ := m'
  cases h
  rw [deliver_eq, deliver_eq]
  have hleft : (⟨content, limit, flushFails, flushes⟩ : Memory).left = (⟨content, limit, flushFails, flushes'⟩ : Memory).left :=
    rfl
  rw [hleft]
  split
  · exact ⟨rfl, rfl⟩
  · exact ⟨rfl, rfl⟩

end Memory

/-! ## Where a sink writes -/

inductive Site
  | outlet (o : Outlet)
  | file (path : String)
  deriving DecidableEq, Repr

namespace Site

/-- What matters to who writes at a site. -/
inductive View
  | outlet (m : Option Memory)
  | path (p : Disk.Prospect)

def view (h : Host) : Site → View
  | outlet o => .outlet ((h.outlet? o).map Memory.unflushed)
  | file path => .path (h.disk.prospect path)

def bytes (h : Host) : Site → Option ByteArray
  | outlet o => (h.outlet? o).map Memory.content
  | file path => (h.disk.fileAt? path).map h.disk.content

def Apart (d : Disk) : Site → Site → Prop
  | outlet o, outlet o' => o ≠ o'
  | file p, file q => d.Apart p q
  | _, _ => True

theorem bytes_congr {st : Site} {h h' : Host} (hview : st.view h = st.view h') : st.bytes h = st.bytes h' := by
  cases st with
  | outlet o =>
    have hm : (h.outlet? o).map Memory.unflushed = (h'.outlet? o).map Memory.unflushed := View.outlet.inj hview
    have hcontent := congrArg (Option.map Memory.content) hm
    rw [Option.map_map, Option.map_map] at hcontent
    exact hcontent
  | file path =>
    have hp : h.disk.prospect path = h'.disk.prospect path := View.path.inj hview
    show (h.disk.fileAt? path).map h.disk.content = (h'.disk.fileAt? path).map h'.disk.content
    rw [← Disk.content?_prospect, hp, Disk.content?_prospect]

section
variable (h : Host) (o : Outlet) {st : Site}

theorem view_setOutlet (m : Memory) :
    (outlet o).view (h.setOutlet o m) = .outlet ((h.outlet? o).map fun _ => m.unflushed) := by
  rw [view, Host.outlet?_setOutlet, if_pos rfl, Option.map_map]
  rfl

theorem view_setOutlet_of_ne (hst : st ≠ outlet o) (m : Memory) : st.view (h.setOutlet o m) = st.view h := by
  cases st with
  | outlet o' =>
    have ho : o' ≠ o := fun ho => hst (congrArg outlet ho)
    rw [view, view, Host.outlet?_setOutlet, if_neg ho]
  | file path => cases o <;> rfl

/-- To flush an outlet makes no difference anywhere. -/
theorem view_setOutlet_of_unflushed {m : Memory} (hm : m.unflushed = (h.outlet o).unflushed) :
    st.view (h.setOutlet o m) = st.view h := by
  by_cases hst : st = outlet o
  · subst hst
    rw [view_setOutlet, hm, h.outlet_eq, view]
    cases h.outlet? o <;> rfl
  · exact view_setOutlet_of_ne h o hst m

variable {h} {h' : Host} {o} (hview : (outlet o).view h = (outlet o).view h')
include hview

theorem unflushed_outlet_congr : (h.outlet o).unflushed = (h'.outlet o).unflushed := by
  have hm : (h.outlet? o).map Memory.unflushed = (h'.outlet? o).map Memory.unflushed := View.outlet.inj hview
  rw [h.outlet_eq, h'.outlet_eq]
  generalize h.outlet? o = a, h'.outlet? o = b at hm
  cases a <;> cases b
  · rfl
  · cases hm
  · cases hm
  · exact Option.some.inj hm

theorem view_setOutlet_congr {m m' : Memory} (hm : m.unflushed = m'.unflushed) :
    (outlet o).view (h.setOutlet o m) = (outlet o).view (h'.setOutlet o m') := by
  have hthere := congrArg (Option.map fun _ => m'.unflushed) (View.outlet.inj hview)
  rw [Option.map_map, Option.map_map] at hthere
  rw [view_setOutlet, view_setOutlet, hm]
  exact congrArg View.outlet hthere

end

end Site

end Logline.Output
