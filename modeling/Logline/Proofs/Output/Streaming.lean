import Logline.Formatter
import Logline.Proofs.Output.Memory

/-!
# Streaming to any device

A device may take what it is offered in chunks as it likes, and may have room for a number of bytes only.
Of an event that is put on it piece by piece it has received, in the end, as much of the text as there was
room for.
-/

namespace Logline.Output

/-- A device with room for so many bytes, if there is an end to it. While there is room it takes something
of what it is offered; without, it fails. -/
structure Rationed {δ : Type} [Device δ] (received : δ → ByteArray) (room : δ → Option Nat) : Prop where
  takes : ∀ (bytes : ByteArray) (d : δ), bytes.size ≠ 0 → room d ≠ some 0 → ∃ n d',
    Device.write bytes d = (.ok n, d') ∧ 0 < n ∧ n ≤ bytes.size ∧
      fitting (room d) (bytes.extract 0 n) = bytes.extract 0 n ∧
      received d' = received d ++ bytes.extract 0 n ∧ room d' = roomAfter (room d) (bytes.extract 0 n)
  fails : ∀ (bytes : ByteArray) (d : δ), bytes.size ≠ 0 → room d = some 0 → ∃ fault d',
    Device.write bytes d = (.error fault, d') ∧ received d' = received d ∧ room d' = some 0

section
variable {δ : Type} [Device δ] (received : δ → ByteArray) (room : δ → Option Nat)

def Refused (r : Except Fault Unit × δ) : Prop :=
  ∃ fault bytes d, room d = some 0 ∧ bytes.size ≠ 0 ∧ Device.write bytes d = (.error fault, r.2) ∧
    r.1 = .error fault

structure Streamed (bytes : ByteArray) (d : δ) (r : Except Fault Unit × δ) : Prop where
  content : received r.2 = received d ++ fitting (room d) bytes
  left : room r.2 = roomAfter (room d) bytes
  whole : fitting (room d) bytes = bytes → r.1 = .ok ()
  refused : fitting (room d) bytes ≠ bytes → Refused room r

end

section
variable {δ : Type} [Device δ] {received : δ → ByteArray} {room : δ → Option Nat}

theorem Streamed.empty (d : δ) : Streamed received room .empty d (.ok (), d) where
  content := by simp
  left := (roomAfter_empty _).symm
  whole _ := rfl
  refused h := absurd (fitting_empty _) h

section
variable {p q : ByteArray} {d : δ} {r r' : Except Fault Unit × δ} (h : Streamed received room p d r)
include h

/-- What fits is followed by more. -/
theorem Streamed.append (hp : fitting (room d) p = p) (h' : Streamed received room q r.2 r') :
    Streamed received room (p ++ q) d r' where
  content := by rw [h'.content, h.content, h.left, fitting_append_of_eq _ _ _ hp, hp, ByteArray.append_assoc]
  left := by rw [h'.left, h.left, roomAfter_roomAfter]
  whole hpq := by
    refine h'.whole ?_
    rw [h.left]
    exact ((fitting_append_eq_iff _ _ _).mp hpq).2
  refused hpq := by
    refine h'.refused fun hq => hpq ?_
    rw [h.left] at hq
    exact (fitting_append_eq_iff _ _ _).mpr ⟨hp, hq⟩

/-- What does not fit is followed by nothing. -/
theorem Streamed.cut (hp : fitting (room d) p ≠ p) (q : ByteArray) : Streamed received room (p ++ q) d r where
  content := by rw [h.content, fitting_append_of_ne _ _ _ hp]
  left := by rw [h.left, roomAfter_append_of_ne _ _ _ hp]
  whole hpq := absurd ((fitting_append_eq_iff _ _ _).mp hpq).1 hp
  refused _ := h.refused hp

end

variable (h : Rationed received room)
include h

theorem Rationed.writeAll (bytes : ByteArray) (d : δ) :
    Streamed received room bytes d (Device.writeAll bytes d) := by
  rw [Device.writeAll]
  split
  · next hempty =>
    obtain rfl := ByteArray.size_eq_zero_iff.mp hempty
    exact .empty d
  next hne =>
  by_cases hroom : room d = some 0
  · obtain ⟨fault, d', hw, hcontent, hleft⟩ := h.fails bytes d hne hroom
    have hfit : fitting (room d) bytes = .empty := by simp [hroom, fitting]
    rw [hw]
    refine ⟨by simp [hcontent, hfit], by simp [hleft, hroom, roomAfter], fun he => ?_,
      fun _ => ⟨fault, bytes, d, hroom, hne, hw, rfl⟩⟩
    exact absurd (by rw [← he, hfit]; rfl) hne
  -- a chunk is taken, and what is left of the bytes is offered again
  · obtain ⟨n, d', hw, hpos, hle, hfit, hcontent, hleft⟩ := h.takes bytes d hne hroom
    have hchunk : Streamed received room (bytes.extract 0 n) d (.ok (), d') :=
      ⟨by rw [hcontent, hfit], hleft, fun _ => rfl, fun hn => absurd hfit hn⟩
    have hrest := hchunk.append hfit (Rationed.writeAll (bytes.extract n bytes.size) d')
    have hsplit : bytes.extract 0 n ++ bytes.extract n bytes.size = bytes := by simp [hle]
    rw [hsplit] at hrest
    rw [hw]
    simp only [Nat.ne_of_gt hpos, if_false]
    exact hrest
termination_by bytes.size
decreasing_by simp only [ByteArray.size_extract]; omega

theorem Rationed.putAll (pieces : List ByteArray) (d : δ) :
    Streamed received room (joined pieces) d (putAll pieces d) := by
  induction pieces generalizing d with
  | nil => exact .empty d
  | cons p ps ih =>
    have hp : Streamed received room p d (Stream.put p d) := h.writeAll p d
    rw [Output.putAll, joined_cons]
    generalize Stream.put p d = r at hp
    obtain ⟨r, d'⟩ := r
    by_cases hfit : fitting (room d) p = p
    · obtain rfl : r = .ok () := hp.whole hfit
      exact hp.append hfit (ih d')
    · obtain ⟨fault, bytes, d'', -, -, -, hr⟩ := hp.refused hfit
      obtain rfl : r = .error fault := hr
      exact hp.cut hfit _

end

/-! ## Memories -/

namespace Memory

theorem room_eq_zero_iff (m : Memory) {n : Nat} (hn : n ≠ 0) : m.room n = 0 ↔ m.left = some 0 := by
  cases hl : m.limit with
  | none => simp [room, left, hl, hn]
  | some l =>
    simp only [room, left, hl, Option.map_some, Option.some.injEq]
    omega

theorem rationed : Rationed Memory.content Memory.left where
  takes bytes m hne hleft := by
    have hroom : m.room bytes.size ≠ 0 := mt (m.room_eq_zero_iff hne).mp hleft
    refine ⟨_, _, write_of_room_ne_zero hroom, Nat.pos_of_ne_zero hroom, m.room_le _, ?_, rfl, m.left_taking _⟩
    rw [extract_room, fitting_fitting]
  fails bytes m hne hleft :=
    ⟨_, _, write_of_room_eq_zero hne ((m.room_eq_zero_iff hne).mpr hleft), rfl, hleft⟩

end Memory

end Logline.Output

namespace Logline.Formatter

open Output

/-- An event put piece by piece on a device with room for `n` bytes, which takes them in chunks as it likes:
the device has received the first `n` bytes of the text, or all of it if there are no more. All is well if
and only if the whole text fits; otherwise the last write failed, and its fault is handed on. A device with
room for everything receives the whole text. -/
theorem streamed_eq_format {δ : Type} [Device δ] {received : δ → ByteArray} {room : δ → Option Nat}
    (h : Rationed received room) (f : Formatter) (loggerName : String) (level : Level) (e : Event) (d : δ) :
    let text := (f.format loggerName level e).toUTF8
    let r := putAll ((f.pieces loggerName level e).map String.toUTF8) d
    (∀ n, room d = some n → received r.2 = received d ++ text.extract 0 (min n text.size) ∧
      (r.1 = .ok () ↔ text.size ≤ n) ∧ (n < text.size → Refused room r)) ∧
    (room d = none → received r.2 = received d ++ text ∧ r.1 = .ok ()) := by
  intro text r
  have htext : joined ((f.pieces loggerName level e).map String.toUTF8) = text := joined_toUTF8 _
  have hr : Streamed received room text d r := htext ▸ h.putAll _ d
  refine ⟨fun n hn => ?_, fun hn => ?_⟩
  · have hcontent := hr.content
    have hwhole := hr.whole
    have hrefused := hr.refused
    rw [hn] at hcontent hwhole hrefused
    rw [fitting_some_eq_self_iff] at hwhole
    rw [ne_eq, fitting_some_eq_self_iff, Nat.not_le] at hrefused
    refine ⟨?_, ⟨fun hok => ?_, hwhole⟩, hrefused⟩
    · rw [hcontent, fitting_eq_extract_min]
    · by_contra hlt
      obtain ⟨fault, -, -, -, -, -, herror⟩ := hrefused (Nat.not_le.mp hlt)
      cases hok.symm.trans herror
  · have hfit : fitting (room d) text = text := by rw [hn]; rfl
    exact ⟨by rw [hr.content, hfit], hr.whole hfit⟩

/-- A memory of two bytes, which cut a letter in the middle. -/
theorem streamed_eq_format_cut :
    let f : Formatter := ⟨"%m%n", [.message, .newLine]⟩
    let e : Event :=
      { fileName := "f", line := 1, elapsed := 0, threadId := 1, fiberId := 0, time := 0, content := "aé" }
    let m : Memory := { limit := some 2 }
    let r := putAll ((f.pieces "l" .info e).map String.toUTF8) m
    Rationed Memory.content Memory.left ∧ m.left = some 2 ∧ r.2.content = ⟨#[0x61, 0xC3]⟩ ∧ r.1 ≠ .ok () := by
  intro f e m r
  obtain ⟨h, -⟩ := streamed_eq_format Memory.rationed f "l" .info e m
  obtain ⟨hcontent, hok, -⟩ := h 2 rfl
  have htext : (f.format "l" .info e).toUTF8 = ⟨#[0x61, 0xC3, 0xA9, 0x0A]⟩ := by decide +kernel
  rw [htext] at hcontent hok
  exact ⟨Memory.rationed, rfl, hcontent, mt hok.mp (by decide)⟩

end Logline.Formatter
