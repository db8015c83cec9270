import Mathlib.Data.List.Basic
import Logline.Registry

/-!
# Names in a registry

The names other than that of the root stand in order, each once. Making a logger known under a new name
leaves every other name with the logger it had.
-/

namespace Logline.Registry

/-! ## Placing a name among names in order -/

section
variable {name : String} {id : LoggerId} {named : List (String × LoggerId)}

theorem mem_place {p : String × LoggerId} : p ∈ place name id named ↔ p = (name, id) ∨ p ∈ named := by
  induction named with
  | nil => simp [place]
  | cons q rest ih =>
    unfold place
    split
    · simp
    · simp only [List.mem_cons, ih]
      tauto

theorem pairwise_place (hs : (named.map Prod.fst).Pairwise (· < ·)) (hn : ∀ p ∈ named, p.1 ≠ name) :
    ((place name id named).map Prod.fst).Pairwise (· < ·) := by
  induction named with
  | nil => simp [place]
  | cons q rest ih =>
    obtain ⟨hq, hrest⟩ := List.pairwise_cons.mp hs
    unfold place
    split
    · next hlt =>
      refine List.pairwise_cons.mpr ⟨fun n hm => ?_, hs⟩
      rcases List.mem_cons.mp hm with rfl | hm
      · exact hlt
      · exact String.lt_trans hlt (hq n hm)
    · next hlt =>
      refine List.pairwise_cons.mpr ⟨fun n hm => ?_, ih hrest fun p hp => hn p (List.mem_cons_of_mem _ hp)⟩
      obtain ⟨p, hp, rfl⟩ := List.mem_map.mp hm
      rcases mem_place.mp hp with rfl | hp
      · exact Std.lt_of_le_of_ne (String.not_lt.mp hlt) (hn q List.mem_cons_self)
      · exact hq _ (List.mem_map_of_mem hp)

theorem lookup_cons_ite (n m : String) (i : LoggerId) :
    ((m, i) :: named).lookup n = if n = m then some i else named.lookup n := by
  by_cases h : n = m
  · simp [h]
  · simp [List.lookup_cons, beq_eq_false_iff_ne.mpr h, h]

theorem lookup_place (hn : ∀ p ∈ named, p.1 ≠ name) (n : String) :
    (place name id named).lookup n = if n = name then some id else named.lookup n := by
  induction named with
  | nil => exact lookup_cons_ite n name id
  | cons q rest ih =>
    obtain ⟨m, i⟩ := q
    have hm : m ≠ name := hn (m, i) List.mem_cons_self
    unfold place
    split
    · exact lookup_cons_ite n name id
    · rw [lookup_cons_ite, lookup_cons_ite, ih fun p hp => hn p (List.mem_cons_of_mem _ hp)]
      by_cases h : n = m
      · rw [if_pos h, if_pos h, if_neg (h ▸ hm)]
      · rw [if_neg h, if_neg h]

end

/-! ## Looking names up -/

variable {r : Registry}

theorem lookup_rootName (r : Registry) : r.lookup rootName = some r.root :=
  if_pos rfl

theorem lookup_of_ne {name : String} (h : name ≠ rootName) : r.lookup name = r.named.lookup name :=
  if_neg h

theorem mem_names_iff {name : String} : name ∈ r.names ↔ (r.lookup name).isSome := by
  by_cases h : name = rootName
  · simp [names, h, lookup_rootName]
  · rw [lookup_of_ne h, List.lookup_isSome_iff]
    simp only [names, List.mem_cons, h, false_or, List.mem_map, beq_iff_eq]
    exact ⟨fun ⟨p, hp, hname⟩ => ⟨p, hp, hname.symm⟩, fun ⟨p, hp, hname⟩ => ⟨p, hp, hname.symm⟩⟩

section
variable {name : String} (hn : r.lookup name = none)
include hn

theorem ne_rootName_of_lookup : name ≠ rootName := by
  rintro rfl
  rw [lookup_rootName] at hn
  cases hn

theorem forall_ne_of_lookup : ∀ p ∈ r.named, p.1 ≠ name := by
  rw [lookup_of_ne (ne_rootName_of_lookup hn), List.lookup_eq_none_iff] at hn
  exact fun p hp => Ne.symm (by simpa using hn p hp)

theorem lookup_insert (id : LoggerId) (n : String) :
    (r.insert name id).lookup n = if n = name then some id else r.lookup n := by
  by_cases h : n = rootName
  · have hne : n ≠ name := fun he => ne_rootName_of_lookup hn (he.symm.trans h)
    rw [if_neg hne, h]
    rfl
  · rw [lookup_of_ne h, lookup_of_ne h]
    exact lookup_place (forall_ne_of_lookup hn) n

end

end Logline.Registry
