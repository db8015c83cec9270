import Mathlib.Data.List.Chain
import Logline.Proofs.Output.Likeness

/-!
# Blocks

Pieces that go through a buffer reach the device in blocks. A block is a single piece or fits into the buffer,
and it ends only where the next piece would not have fitted. A delivery to a device that takes everything makes
one write for each block.
-/

namespace Logline.Output

/-! ## Watching a device -/

structure Watched (δ : Type) where
  device : δ
  writes : List ByteArray := []

namespace Watched

variable {δ : Type} [Device δ]

instance : Device (Watched δ) where
  write bytes w :=
    let (r, d) := Device.write bytes w.device
    (r, ⟨d, w.writes ++ [bytes]⟩)
  flush w :=
    let (r, d) := Device.flush w.device
    (r, { w with device := d })

theorem write_eq (bytes : ByteArray) (d : δ) (ws : List ByteArray) : Device.write bytes (⟨d, ws⟩ : Watched δ) =
    ((Device.write bytes d).1, ⟨(Device.write bytes d).2, ws ++ [bytes]⟩) := rfl

theorem flush_eq (d : δ) (ws : List ByteArray) : Device.flush (⟨d, ws⟩ : Watched δ) =
    ((Device.flush d).1, ⟨(Device.flush d).2, ws⟩) := rfl

theorem likeness : Likeness fun (w : Watched δ) (d : δ) => w.device = d where
  write w d h bytes := by
    subst h
    exact ⟨_, _, _, rfl, rfl, rfl⟩
  flush w d h := by
    subst h
    exact ⟨_, _, _, rfl, rfl, rfl⟩

end Watched

/-! ## Cutting pieces into blocks -/

def nonempty (pieces : List ByteArray) : List ByteArray :=
  pieces.filter fun p => p.size ≠ 0

theorem nonempty_append (ps qs : List ByteArray) : nonempty (ps ++ qs) = nonempty ps ++ nonempty qs :=
  List.filter_append ..

theorem nonempty_cons_of_eq {p : ByteArray} (h : p.size = 0) (ps : List ByteArray) : nonempty (p :: ps) = nonempty ps :=
  List.filter_cons_of_neg (by simpa using h)

theorem nonempty_cons_of_ne {p : ByteArray} (h : p.size ≠ 0) (ps : List ByteArray) :
    nonempty (p :: ps) = p :: nonempty ps :=
  List.filter_cons_of_pos (by simpa using h)

theorem joined_nonempty (pieces : List ByteArray) : joined (nonempty pieces) = joined pieces := by
  induction pieces with
  | nil => rfl
  | cons p pieces ih =>
    by_cases hp : p.size = 0
    · rw [nonempty_cons_of_eq hp, ih, joined_cons, ByteArray.size_eq_zero_iff.mp hp, ByteArray.empty_append]
    · rw [nonempty_cons_of_ne hp, joined_cons, ih, joined_cons]

theorem joined_flatten (blocks : List (List ByteArray)) : joined (blocks.map joined) = joined blocks.flatten := by
  induction blocks with
  | nil => rfl
  | cons b blocks ih => rw [List.map_cons, joined_cons, ih, List.flatten_cons, joined_append]

/-- The first piece of the next block is too long for what the block leaves of the buffer. -/
def Overflows (block next : List ByteArray) : Prop :=
  ∀ p ∈ next.head?, Buffered.capacity < (joined block).size + p.size

theorem overflows_of_ne {block : List ByteArray} {piece : ByteArray} (hne : piece.size ≠ 0)
    (hover : Buffered.capacity < (joined block).size + piece.size) (pieces : List ByteArray) :
    Overflows block (nonempty (piece :: pieces)) := by
  intro p hp
  rw [nonempty_cons_of_ne hne] at hp
  cases hp
  exact hover

theorem ne_zero_of_capacity_le {piece : ByteArray} (h : Buffered.capacity ≤ piece.size) : piece.size ≠ 0 :=
  Nat.ne_of_gt (Nat.lt_of_lt_of_le (by decide) h)

/-- Pieces in blocks, in order; the empty ones do not count. -/
structure Blocks (pieces : List ByteArray) (blocks : List (List ByteArray)) : Prop where
  flatten : blocks.flatten = nonempty pieces
  ne_nil : ∀ b ∈ blocks, b ≠ []
  within : ∀ b ∈ blocks, b.length = 1 ∨ (joined b).size ≤ Buffered.capacity
  overflow : blocks.IsChain Overflows

structure Gathered (last : List ByteArray) : Prop where
  nonempty : nonempty last = last
  fits : (joined last).size ≤ Buffered.capacity

theorem Gathered.nil : Gathered [] :=
  ⟨rfl, by simp⟩

def closing (last : List ByteArray) : List (List ByteArray) :=
  if last = [] then [] else [last]

theorem Gathered.joined_eq_empty {last : List ByteArray} (h : Gathered last) (hempty : (joined last).size = 0) :
    last = [] := by
  cases last with
  | nil => rfl
  | cons p last =>
    have hp : p.size = 0 := by
      rw [joined_cons, ByteArray.size_append] at hempty
      omega
    have hmem : p ∈ Output.nonempty (p :: last) := h.nonempty.symm ▸ List.mem_cons_self
    exact absurd hp (by simpa [Output.nonempty] using hmem)

theorem Gathered.map_closing {last : List ByteArray} (h : Gathered last) :
    (closing last).map joined = Output.nonempty [joined last] := by
  by_cases hempty : (joined last).size = 0
  · rw [nonempty_cons_of_eq hempty, h.joined_eq_empty hempty]
    rfl
  · have hne : last ≠ [] := fun hnil => hempty (by rw [hnil]; rfl)
    rw [nonempty_cons_of_ne hempty, closing, if_neg hne]
    rfl

namespace Blocks

variable {pieces : List ByteArray} {blocks : List (List ByteArray)}

theorem nil : Blocks [] [] :=
  ⟨rfl, by simp, by simp, .nil⟩

/-- A block before the others, if it could not take the piece that comes next. -/
theorem cons {block : List ByteArray} (hne : block ≠ []) (hblock : nonempty block = block)
    (hwithin : block.length = 1 ∨ (joined block).size ≤ Buffered.capacity)
    (hnext : Overflows block (nonempty pieces)) (h : Blocks pieces blocks) :
    Blocks (block ++ pieces) (block :: blocks) where
  flatten := by rw [List.flatten_cons, h.flatten, nonempty_append, hblock]
  ne_nil := List.forall_mem_cons.mpr ⟨hne, h.ne_nil⟩
  within := List.forall_mem_cons.mpr ⟨hwithin, h.within⟩
  overflow := by
    refine List.isChain_cons.mpr ⟨fun next hmem p hp => hnext p ?_, h.overflow⟩
    cases blocks with
    | nil => cases hmem
    | cons b rest =>
      cases hmem
      rw [← h.flatten, List.flatten_cons, List.head?_append, hp]
      rfl

theorem close {last : List ByteArray} (hlast : Gathered last) (hnext : last ≠ [] → Overflows last (nonempty pieces))
    (h : Blocks pieces blocks) : Blocks (last ++ pieces) (closing last ++ blocks) := by
  unfold closing
  split
  · next hnil => rw [hnil]; exact h
  · next hne => exact h.cons hne hlast.nonempty (.inr hlast.fits) (hnext hne)

theorem skip {last : List ByteArray} {piece : ByteArray} (hempty : piece.size = 0)
    (h : Blocks (last ++ pieces) blocks) : Blocks (last ++ piece :: pieces) blocks :=
  { h with flatten := by rw [h.flatten, nonempty_append, nonempty_append, nonempty_cons_of_eq hempty] }

/-- A piece of a block or more, which leaves no room for another. -/
theorem straight {piece : ByteArray} (hsize : Buffered.capacity ≤ piece.size) (h : Blocks pieces blocks) :
    Blocks (piece :: pieces) ([piece] :: blocks) := by
  have hover : Overflows [piece] (nonempty pieces) := by
    intro p hp
    have hne : p.size ≠ 0 := by simpa using (List.mem_filter.mp (List.mem_of_mem_head? hp)).2
    rw [joined_cons, joined_nil, ByteArray.append_empty]
    omega
  exact h.cons (by simp) (nonempty_cons_of_ne (ne_zero_of_capacity_le hsize) []) (.inl rfl) hover

theorem joined_map (h : Blocks pieces blocks) : joined (blocks.map joined) = joined pieces := by
  rw [joined_flatten, h.flatten, joined_nonempty]

/-- There is a single block if everything fits into the buffer or only one piece has anything in it. -/
theorem length_eq_one_iff (h : Blocks pieces blocks) (hne : nonempty pieces ≠ []) :
    blocks.length = 1 ↔ (joined pieces).size ≤ Buffered.capacity ∨ (nonempty pieces).length = 1 := by
  rw [← h.flatten] at hne ⊢
  rw [← h.joined_map, joined_flatten]
  match blocks, h with
  | [], _ => exact absurd rfl hne
  | [b], h => simpa [or_comm] using h.within b (by simp)
  | b :: b' :: rest, h =>
    refine iff_of_false (by simp) (not_or.mpr ⟨?_, ?_⟩)
    · cases b' with
      | nil => exact absurd rfl (h.ne_nil [] (by simp))
      | cons p b' =>
        have hover := (List.isChain_cons_cons.mp h.overflow).1 p rfl
        simp only [List.flatten_cons, List.cons_append, joined_append, joined_cons, ByteArray.size_append]
        omega
    · have hb := List.length_pos_iff.mpr (h.ne_nil b (by simp))
      have hb' := List.length_pos_iff.mpr (h.ne_nil b' (by simp))
      simp only [List.flatten_cons, List.length_append]
      omega

section
variable {b : List ByteArray}

theorem tail (h : Blocks pieces (b :: blocks)) : Blocks blocks.flatten blocks where
  flatten := by
    refine (List.filter_eq_self.mpr fun p hp => ?_).symm
    have hmem : p ∈ nonempty pieces := h.flatten ▸ List.mem_append_right b hp
    exact (List.mem_filter.mp hmem).2
  ne_nil := (List.forall_mem_cons.mp h.ne_nil).2
  within := (List.forall_mem_cons.mp h.within).2
  overflow := (List.isChain_cons.mp h.overflow).2

/-- No piece that follows a block would have had room in it. -/
theorem eq_nil_of_within (h : Blocks pieces (b :: blocks)) {more rest : List ByteArray}
    (hflatten : blocks.flatten = more ++ rest)
    (hwithin : (b ++ more).length = 1 ∨ (joined (b ++ more)).size ≤ Buffered.capacity) : more = [] := by
  cases more with
  | nil => rfl
  | cons p more =>
    have hb := List.length_pos_iff.mpr (h.ne_nil b (by simp))
    have hnext : Overflows b [p] := by
      match blocks, hflatten, h with
      | [] :: _, _, h => exact absurd rfl (h.ne_nil [] (by simp))
      | (q :: next) :: rest, hflatten, h =>
        rw [← (List.cons.inj hflatten).1]
        exact (List.isChain_cons_cons.mp h.overflow).1
    have hover := hnext p rfl
    simp only [List.length_append, List.length_cons, joined_append, joined_cons, ByteArray.size_append] at hwithin
    omega

theorem eq_nil (h : Blocks pieces blocks) (hnil : nonempty pieces = []) : blocks = [] := by
  cases blocks with
  | nil => rfl
  | cons b blocks =>
    have hflatten : b ++ blocks.flatten = [] := h.flatten.trans hnil
    exact absurd (List.append_eq_nil_iff.mp hflatten).1 (h.ne_nil b (by simp))

/-- There is only one way to cut pieces into blocks. -/
theorem unique {blocks' : List (List ByteArray)} (h : Blocks pieces blocks) (h' : Blocks pieces blocks') :
    blocks = blocks' := by
  induction blocks generalizing pieces blocks' with
  | nil => exact (h'.eq_nil h.flatten.symm).symm
  | cons b blocks ih =>
    cases blocks' with
    | nil => exact h.eq_nil h'.flatten.symm
    | cons b' blocks' =>
      have hflatten : b ++ blocks.flatten = b' ++ blocks'.flatten := h.flatten.trans h'.flatten.symm
      -- of the two first blocks one begins with the other, and cannot be longer
      have hb : b = b' := by
        rcases List.append_eq_append_iff.mp hflatten with ⟨more, rfl, hrest⟩ | ⟨more, rfl, hrest⟩
        · rw [h.eq_nil_of_within hrest (h'.within _ (by simp)), List.append_nil]
        · rw [h'.eq_nil_of_within hrest (h.within _ (by simp)), List.append_nil]
      subst hb
      have htail := h'.tail
      rw [← List.append_cancel_left hflatten] at htail
      rw [ih h.tail htail]

end

end Blocks

/-! ## The writes of a delivery -/

theorem Buffered.put_gathered {δ : Type} [Device δ] {piece pending : ByteArray} (hsize : piece.size < capacity)
    (hfits : pending.size + piece.size ≤ capacity) (d : δ) :
    Stream.put piece (⟨d, pending⟩ : Buffered δ) = (.ok (), ⟨d, pending ++ piece⟩) := by
  show put piece _ = _
  rw [put, if_neg (Nat.not_lt.mpr hfits), take, if_neg (Nat.not_le.mpr hsize)]

theorem deliver_cons_of_put {σ : Type} [Stream σ] {piece : ByteArray} {s s' : σ}
    (h : Stream.put piece s = (.ok (), s')) (pieces : List ByteArray) :
    deliver (piece :: pieces) s = deliver pieces s' := by
  rw [deliver, putAll, h]
  rfl

namespace TakesAll

variable {δ : Type} [Device δ] {Q : δ → Prop} {after : ByteArray → δ → δ} (hT : TakesAll Q after)
include hT

section
variable {d : δ} (hd : Q d) (ws : List ByteArray) {pending piece : ByteArray}
include hd

theorem write_watched {bytes : ByteArray} (hne : bytes.size ≠ 0) :
    Device.write bytes (⟨d, ws⟩ : Watched δ) = (.ok bytes.size, ⟨after bytes d, ws ++ [bytes]⟩) := by
  rw [Watched.write_eq, hT.write d hd bytes hne]

theorem drain_watched (pending : ByteArray) : Buffered.drain pending (⟨d, ws⟩ : Watched δ) =
    (.ok (), ⟨⟨after pending d, ws ++ nonempty [pending]⟩, .empty⟩) := by
  by_cases hne : pending.size = 0
  · rw [Buffered.drain, if_pos hne, nonempty_cons_of_eq hne, ByteArray.size_eq_zero_iff.mp hne, hT.empty]
    simp [nonempty]
  · rw [Buffered.drain_of_whole hne (hT.write_watched hd ws hne), nonempty_cons_of_ne hne]
    rfl

theorem flush_watched (pending : ByteArray) : Stream.flush (⟨⟨d, ws⟩, pending⟩ : Buffered (Watched δ)) =
    (.ok (), ⟨⟨after pending d, ws ++ nonempty [pending]⟩, .empty⟩) := by
  show Buffered.flush _ = _
  rw [Buffered.flush, hT.drain_watched hd]
  simp only [Watched.flush_eq, hT.flush _ (hT.kept d hd pending)]

theorem take_straight (hsize : Buffered.capacity ≤ piece.size) :
    Buffered.take piece (⟨⟨d, ws⟩, .empty⟩ : Buffered (Watched δ)) =
      (.ok (), ⟨⟨after piece d, ws ++ [piece]⟩, .empty⟩) := by
  have hne := ne_zero_of_capacity_le hsize
  rw [Buffered.take, if_pos hsize, writeAll_of_whole hne (hT.write_watched hd ws hne)]

theorem put_straight (hsize : Buffered.capacity ≤ piece.size) :
    Stream.put piece (⟨⟨d, ws⟩, pending⟩ : Buffered (Watched δ)) =
      (.ok (), ⟨⟨after piece (after pending d), ws ++ nonempty [pending] ++ [piece]⟩, .empty⟩) := by
  show Buffered.put piece _ = _
  rw [Buffered.put]
  split
  · rw [hT.drain_watched hd]
    exact hT.take_straight (hT.kept d hd pending) _ hsize
  · next hroom =>
    obtain rfl : pending = .empty := ByteArray.size_eq_zero_iff.mp (by simp only at hroom; omega)
    rw [hT.take_straight hd ws hsize, hT.empty]
    simp [nonempty]

theorem put_drained (hsize : piece.size < Buffered.capacity) (hover : Buffered.capacity < pending.size + piece.size) :
    Stream.put piece (⟨⟨d, ws⟩, pending⟩ : Buffered (Watched δ)) =
      (.ok (), ⟨⟨after pending d, ws ++ nonempty [pending]⟩, piece⟩) := by
  show Buffered.put piece _ = _
  rw [Buffered.put, if_pos hover, hT.drain_watched hd]
  simp only
  rw [Buffered.take, if_neg (Nat.not_le.mpr hsize), ByteArray.empty_append]

end

/-- What a piece does to the pieces gathered before it: the blocks that have gone to the device are those that
come first, however it goes on. -/
theorem put_watched {d : δ} (hd : Q d) (ws : List ByteArray) {last : List ByteArray} (hlast : Gathered last)
    (piece : ByteArray) : ∃ d' gone kept,
      Stream.put piece (⟨⟨d, ws⟩, joined last⟩ : Buffered (Watched δ)) =
        (.ok (), ⟨⟨d', ws ++ gone.map joined⟩, joined kept⟩) ∧
      Q d' ∧ Gathered kept ∧
      ∀ pieces blocks, Blocks (kept ++ pieces) blocks → Blocks (last ++ piece :: pieces) (gone ++ blocks) := by
  have hafter := hT.kept d hd (joined last)
  rcases Nat.lt_or_ge piece.size Buffered.capacity with hsize | hsize
  · rcases Nat.lt_or_ge Buffered.capacity ((joined last).size + piece.size) with hover | hroom
    · -- it does not fit, so what was gathered is a block, and the piece begins the next
      have hne : piece.size ≠ 0 := fun h => Nat.not_lt.mpr hlast.fits (by simpa [h] using hover)
      refine ⟨_, closing last, [piece], ?_, hafter, ⟨nonempty_cons_of_ne hne [], ?_⟩, fun pieces blocks h =>
        Blocks.close hlast (fun _ => overflows_of_ne hne hover pieces) h⟩
      · rw [hT.put_drained hd ws hsize hover, hlast.map_closing, joined_cons, joined_nil, ByteArray.append_empty]
      · simpa using Nat.le_of_lt hsize
    · -- it is gathered with the others
      have hput := Buffered.put_gathered hsize hroom (⟨d, ws⟩ : Watched δ)
      by_cases hempty : piece.size = 0
      · obtain rfl : piece = .empty := ByteArray.size_eq_zero_iff.mp hempty
        exact ⟨d, [], last, by simpa using hput, hd, hlast, fun pieces blocks h => h.skip hempty⟩
      · refine ⟨d, [], last ++ [piece], by simpa using hput, hd, ⟨?_, by simpa using hroom⟩,
          fun pieces blocks h => ?_⟩
        · rw [nonempty_append, hlast.nonempty, nonempty_cons_of_ne hempty]
          rfl
        · simpa using h
  · -- it is a block by itself, after what was gathered
    refine ⟨_, closing last ++ [[piece]], [], ?_, hT.kept _ hafter piece, .nil, fun pieces blocks h => ?_⟩
    · rw [hT.put_straight hd ws hsize, List.map_append, hlast.map_closing, ← List.append_assoc]
      simp
    · rw [List.append_assoc]
      refine Blocks.close hlast (fun hne => overflows_of_ne (ne_zero_of_capacity_le hsize) ?_ pieces) (h.straight hsize)
      have hpos : (joined last).size ≠ 0 := fun h => hne (hlast.joined_eq_empty h)
      omega

theorem writes_gathered (pieces : List ByteArray) {d : δ} (hd : Q d) (ws : List ByteArray) {last : List ByteArray}
    (hlast : Gathered last) : ∃ d' blocks,
      Output.deliver pieces (⟨⟨d, ws⟩, joined last⟩ : Buffered (Watched δ)) =
        (.ok (), ⟨⟨d', ws ++ blocks.map joined⟩, .empty⟩) ∧ Blocks (last ++ pieces) blocks := by
  -- over any pieces that may be in the buffer, as each step leaves others there
  induction pieces generalizing d ws last with
  | nil =>
    have hflush := hT.flush_watched hd ws (joined last)
    rw [← hlast.map_closing] at hflush
    have hclosed : Blocks (last ++ []) (closing last ++ []) :=
      Blocks.nil.close hlast fun _ p hp => absurd hp (Option.not_mem_none p)
    exact ⟨_, closing last, hflush, by simpa using hclosed⟩
  | cons p pieces ih =>
    obtain ⟨d', gone, kept, hput, hd', hkept, hblocks⟩ := hT.put_watched hd ws hlast p
    obtain ⟨d'', blocks, hdeliver, h⟩ := ih hd' (ws ++ gone.map joined) hkept
    refine ⟨d'', gone ++ blocks, ?_, hblocks pieces blocks h⟩
    rw [deliver_cons_of_put hput, hdeliver, List.map_append, List.append_assoc]

/-- One write for each block. -/
theorem writes_deliver (pieces : List ByteArray) {d : δ} (hd : Q d) : ∃ d' blocks,
      Output.deliver pieces (⟨⟨d, []⟩, .empty⟩ : Buffered (Watched δ)) =
        (.ok (), ⟨⟨d', blocks.map joined⟩, .empty⟩) ∧ Blocks pieces blocks :=
  hT.writes_gathered pieces hd [] .nil

end TakesAll

end Logline.Output
