import Mathlib
import Logline.Output.Memory

/-!
# What a memory takes

Of the pieces of a delivery a memory takes the longest beginning it has room for, wherever the pieces
are cut. It takes them whole, or fails; it is flushed if it has taken them whole.
-/

namespace Logline.Output

def joined (pieces : List ByteArray) : ByteArray :=
  pieces.foldr (· ++ ·) .empty

@[simp] theorem joined_nil : joined [] = .empty := rfl

@[simp] theorem joined_cons (p : ByteArray) (ps : List ByteArray) : joined (p :: ps) = p ++ joined ps := rfl

@[simp] theorem joined_append (ps qs : List ByteArray) : joined (ps ++ qs) = joined ps ++ joined qs := by
  induction ps with
  | nil => simp
  | cons p ps ih => rw [List.cons_append, joined_cons, joined_cons, ih, ByteArray.append_assoc]

theorem joined_toUTF8 (pieces : List String) : joined (pieces.map String.toUTF8) = (String.join pieces).toUTF8 := by
  induction pieces with
  | nil => rfl
  | cons p ps ih =>
    rw [List.map_cons, joined_cons, ih, String.join_cons]
    simp [String.toByteArray_append]

/-! ## The longest beginning that fits -/

/-- The longest beginning of some bytes that fits into the room left, which may be without end. -/
def fitting (room : Option Nat) (bytes : ByteArray) : ByteArray :=
  match room with
  | none => bytes
  | some n => bytes.extract 0 n

def roomAfter (room : Option Nat) (bytes : ByteArray) : Option Nat :=
  room.map (· - bytes.size)

theorem fitting_some_eq_self_iff {n : Nat} {bytes : ByteArray} :
    fitting (some n) bytes = bytes ↔ bytes.size ≤ n := by
  constructor
  · intro h
    have := congrArg ByteArray.size h
    simp only [fitting, ByteArray.size_extract] at this
    omega
  · intro h
    rw [fitting, ← Nat.max_eq_left h, ByteArray.extract_zero_max_size]

@[simp] theorem fitting_empty (room : Option Nat) : fitting room .empty = .empty := by
  cases room with
  | none => rfl
  | some n => exact fitting_some_eq_self_iff.mpr (Nat.zero_le n)

theorem fitting_eq_extract_min (n : Nat) (bytes : ByteArray) :
    fitting (some n) bytes = bytes.extract 0 (min n bytes.size) := by
  rcases Nat.le_total bytes.size n with h | h
  · rw [Nat.min_eq_right h, fitting_some_eq_self_iff.mpr h, ByteArray.extract_zero_size]
  · rw [Nat.min_eq_left h, fitting]

theorem fitting_fitting (room : Option Nat) (bytes : ByteArray) :
    fitting room (fitting room bytes) = fitting room bytes := by
  cases room with
  | none => rfl
  | some n =>
    rw [fitting_some_eq_self_iff, fitting, ByteArray.size_extract]
    omega

theorem roomAfter_empty (room : Option Nat) : roomAfter room .empty = room := by
  cases room <;> simp [roomAfter]

section
variable (room : Option Nat) (p q : ByteArray)

theorem roomAfter_roomAfter : roomAfter (roomAfter room p) q = roomAfter room (p ++ q) := by
  cases room with
  | none => rfl
  | some n => simp [roomAfter, Nat.sub_add_eq]

theorem fitting_append_of_eq (h : fitting room p = p) :
    fitting room (p ++ q) = p ++ fitting (roomAfter room p) q := by
  cases room with
  | none => rfl
  | some n =>
    have hp : p.extract 0 n = p := h
    simp [fitting, roomAfter, ByteArray.extract_append, hp]

theorem fitting_append_of_ne (h : fitting room p ≠ p) : fitting room (p ++ q) = fitting room p := by
  cases room with
  | none => exact absurd rfl h
  | some n =>
    have hn : n - p.size = 0 := by
      have := mt fitting_some_eq_self_iff.mpr h
      omega
    simp [fitting, ByteArray.extract_append, hn]

theorem roomAfter_append_of_ne (h : fitting room p ≠ p) : roomAfter room (p ++ q) = roomAfter room p := by
  cases room with
  | none => exact absurd rfl h
  | some n =>
    have := mt fitting_some_eq_self_iff.mpr h
    simp only [roomAfter, Option.map_some, ByteArray.size_append, Option.some.injEq]
    omega

theorem fitting_append_eq_iff :
    fitting room (p ++ q) = p ++ q ↔ fitting room p = p ∧ fitting (roomAfter room p) q = q := by
  cases room with
  | none => simp [fitting, roomAfter]
  | some n =>
    rw [roomAfter, Option.map_some, fitting_some_eq_self_iff, fitting_some_eq_self_iff,
      fitting_some_eq_self_iff, ByteArray.size_append]
    omega

end

/-! ## Writing to a memory -/

namespace Memory

def left (m : Memory) : Option Nat :=
  m.limit.map (· - m.content.size)

def taking (m : Memory) (bytes : ByteArray) : Memory :=
  { m with content := m.content ++ bytes }

theorem left_taking (m : Memory) (bytes : ByteArray) : (m.taking bytes).left = roomAfter m.left bytes := by
  cases h : m.limit with
  | none => simp [left, taking, roomAfter, h]
  | some l => simp [left, taking, roomAfter, h, Nat.sub_add_eq]

theorem taking_taking (m : Memory) (p q : ByteArray) : (m.taking p).taking q = m.taking (p ++ q) := by
  simp [taking, ByteArray.append_assoc]

theorem taking_empty (m : Memory) : m.taking .empty = m := by
  simp [taking]

theorem extract_room (m : Memory) (bytes : ByteArray) :
    bytes.extract 0 (m.room bytes.size) = fitting m.left bytes := by
  cases h : m.limit with
  | none => simp [room, left, fitting, h]
  | some l =>
    rcases Nat.le_total bytes.size (l - m.content.size) with hle | hle
    · have hf : fitting m.left bytes = bytes := by
        simp only [left, h, Option.map_some]
        exact fitting_some_eq_self_iff.mpr hle
      rw [hf]
      simp [room, h, Nat.min_eq_left hle]
    · simp [room, left, fitting, h, Nat.min_eq_right hle]

theorem room_le (m : Memory) (n : Nat) : m.room n ≤ n := by
  unfold room
  split
  · exact Nat.le_refl n
  · exact Nat.min_le_left _ _

theorem room_eq_iff (m : Memory) (bytes : ByteArray) : m.room bytes.size = bytes.size ↔ fitting m.left bytes = bytes := by
  rw [← extract_room]
  constructor
  · intro h; rw [h]; exact ByteArray.extract_zero_size
  · intro h
    have := congrArg ByteArray.size h
    have := m.room_le bytes.size
    simp only [ByteArray.size_extract] at *
    omega

/-- A write that is cut short leaves no room. -/
theorem room_taking_of_lt {m : Memory} {bytes : ByteArray} (h : m.room bytes.size < bytes.size) (n : Nat) :
    (m.taking (bytes.extract 0 (m.room bytes.size))).room n = 0 := by
  cases hl : m.limit with
  | none => simp [room, hl] at h
  | some l =>
    simp only [room, hl] at h
    simp only [room, taking, hl, ByteArray.size_append, ByteArray.size_extract]
    omega

theorem write_of_room_eq_zero {m : Memory} {bytes : ByteArray} (hne : bytes.size ≠ 0)
    (h : m.room bytes.size = 0) : m.write bytes = (.error .gone, m) := by
  simp [write, h, hne]

theorem write_of_room_ne_zero {m : Memory} {bytes : ByteArray} (h : m.room bytes.size ≠ 0) :
    m.write bytes = (.ok (m.room bytes.size), m.taking (bytes.extract 0 (m.room bytes.size))) := by
  simp [write, h, taking]

theorem writeAll_of_room_eq_zero {m : Memory} {bytes : ByteArray} (hne : bytes.size ≠ 0)
    (h : m.room bytes.size = 0) : Device.writeAll bytes m = (.error .gone, m) := by
  have hw : Device.write bytes m = _ := write_of_room_eq_zero hne h
  rw [Device.writeAll, if_neg hne, hw]

theorem writeAll_of_empty (m : Memory) {bytes : ByteArray} (h : bytes.size = 0) :
    Device.writeAll bytes m = (.ok (), m) := by
  rw [Device.writeAll, if_pos h]

theorem writeAll_eq (bytes : ByteArray) (m : Memory) : Device.writeAll bytes m =
    (if fitting m.left bytes = bytes then .ok () else .error .gone, m.taking (fitting m.left bytes)) := by
  rw [← extract_room]
  by_cases hne : bytes.size = 0
  · obtain rfl := ByteArray.size_eq_zero_iff.mp hne
    rw [writeAll_of_empty m hne, extract_room, fitting_empty, if_pos rfl, taking_empty]
  by_cases h : m.room bytes.size = 0
  · have hb : bytes.extract 0 0 ≠ bytes := by
      intro he
      exact hne (by rw [← he]; simp)
    rw [writeAll_of_room_eq_zero hne h, h, if_neg hb]
    simp [taking_empty]
  have hw : Device.write bytes m = _ := write_of_room_ne_zero h
  rw [Device.writeAll, if_neg hne, hw]
  simp only [h, if_false]
  -- after a first write that took something, the second finds nothing left to write or no room
  by_cases heq : m.room bytes.size = bytes.size
  · rw [heq, writeAll_of_empty _ (by simp)]
    simp
  · have hlt : m.room bytes.size < bytes.size := Nat.lt_of_le_of_ne (m.room_le _) heq
    have hb : bytes.extract 0 (m.room bytes.size) ≠ bytes := by
      rw [extract_room]
      exact mt (m.room_eq_iff bytes).mpr heq
    rw [writeAll_of_room_eq_zero (by simp; omega) (room_taking_of_lt hlt _), if_neg hb]

/-- A delivery to a memory, however its bytes are cut into pieces. -/
theorem putAll_eq (pieces : List ByteArray) (m : Memory) : putAll pieces m =
    (if fitting m.left (joined pieces) = joined pieces then .ok () else .error .gone,
      m.taking (fitting m.left (joined pieces))) := by
  induction pieces generalizing m with
  | nil => simp [putAll, taking_empty]
  | cons p ps ih =>
    have hput : Stream.put p m = _ := writeAll_eq p m
    rw [putAll, hput, joined_cons]
    by_cases h : fitting m.left p = p
    · simp only [h, if_true]
      rw [ih, left_taking, taking_taking, fitting_append_of_eq _ _ _ h]
      simp only [ByteArray.append_right_inj]
    · have hne : fitting m.left (p ++ joined ps) ≠ p ++ joined ps :=
        fun he => h ((fitting_append_eq_iff _ _ _).mp he).1
      rw [fitting_append_of_ne _ _ _ h] at hne ⊢
      simp only [h, if_false, hne]

def flushed (m : Memory) (times : Nat) : Memory :=
  { m with flushes := m.flushes + times }

theorem flushed_flushed (m : Memory) (i j : Nat) : (m.flushed i).flushed j = m.flushed (i + j) := by
  simp [flushed, Nat.add_assoc]

theorem deliver_eq (pieces : List ByteArray) (m : Memory) : deliver pieces m =
    if fitting m.left (joined pieces) = joined pieces then
      (if m.flushFails then .error .gone else .ok (), (m.taking (joined pieces)).flushed 1)
    else (.error .gone, m.taking (fitting m.left (joined pieces))) := by
  rw [deliver, putAll_eq]
  by_cases h : fitting m.left (joined pieces) = joined pieces
  · simp only [h, if_true]
    rfl
  · simp only [h, if_false]

end Memory

end Logline.Output
