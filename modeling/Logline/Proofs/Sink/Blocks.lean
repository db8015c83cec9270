import Logline.Proofs.Output.Blocks
import Logline.Proofs.Sink.File
import Logline.Proofs.Text.ByteOrder

/-!
# The writes of a file sink

An event is in the file whole when its delivery ends, but not always by one write: it is streamed piece by piece,
and a buffer has its size. One write is made if the text fits into the buffer or is a single piece; a longer text
of several pieces is cut into blocks between them.
-/

namespace Logline.Sink

open Output

theorem nonempty_toUTF8 (pieces : List String) :
    nonempty (pieces.map String.toUTF8) = (pieces.filter (· ≠ "")).map String.toUTF8 := by
  rw [nonempty, List.filter_map]
  congr 1
  refine List.filter_congr fun p _ => ?_
  simp

def FileWriter.watched (w : FileWriter) (d : Disk) : Buffered (Watched OpenFile) :=
  ⟨⟨⟨w.handle, d⟩, []⟩, w.pending⟩

namespace File

section
variable (f : File) (formatter : Formatter) (loggerName : String) (level : Level) (e : Event) (d : Disk)

def writes : List ByteArray :=
  match f.writer with
  | none => []
  | some w => (deliver ((formatter.pieces loggerName level e).map String.toUTF8) (w.watched d)).2.device.writes

/-- The delivery that is watched is the one that happens. -/
theorem write_eq_watched {w : FileWriter} (hw : f.writer = some w) :
    let x := deliver ((formatter.pieces loggerName level e).map String.toUTF8) (w.watched d)
    f.write formatter loggerName level e d =
      (x.1, { f with writer := some ⟨x.2.device.device.handle, x.2.pending⟩ }, x.2.device.device.disk) := by
  obtain ⟨path, mode, writer⟩ := f
  obtain rfl : writer = some w := hw
  obtain ⟨r, b, c, hb, hc, hdevice, hpending⟩ := Watched.likeness.deliver (b := w.watched d)
    (c := ⟨⟨w.handle, d⟩, w.pending⟩) ⟨rfl, rfl⟩ ((formatter.pieces loggerName level e).map String.toUTF8)
  simp only [write, onWriter, FileWriter.onDisk, hb, hc, hdevice, hpending]

end

section
variable {f : File} {w : FileWriter} (hw : f.writer = some w) {id : FileId} (ht : w.handle.target = .file id)
  (hp : w.pending = .empty) (formatter : Formatter) (loggerName : String) (level : Level) (e : Event) (d : Disk)
include hw ht hp

theorem writes_blocks : ∃ blocks, Blocks ((formatter.pieces loggerName level e).map String.toUTF8) blocks ∧
    f.writes formatter loggerName level e d = blocks.map joined := by
  obtain ⟨d', blocks, hdeliver, hblocks⟩ := OpenFile.takesAll_placed.writes_deliver
    ((formatter.pieces loggerName level e).map String.toUTF8) (d := ⟨w.handle, d⟩) ⟨id, ht⟩
  refine ⟨blocks, hblocks, ?_⟩
  rw [writes, hw]
  simp only [FileWriter.watched, hp, hdeliver]

theorem writes_eq_singleton_iff (hne : formatter.format loggerName level e ≠ "") :
    f.writes formatter loggerName level e d = [(formatter.format loggerName level e).toUTF8] ↔
      (formatter.format loggerName level e).toUTF8.size ≤ Buffered.capacity ∨
        ((formatter.pieces loggerName level e).filter (· ≠ "")).length = 1 := by
  obtain ⟨blocks, hblocks, hwrites⟩ := writes_blocks hw ht hp formatter loggerName level e d
  have hjoined : joined ((formatter.pieces loggerName level e).map String.toUTF8) =
      (formatter.format loggerName level e).toUTF8 := joined_toUTF8 _
  have hpieces : nonempty ((formatter.pieces loggerName level e).map String.toUTF8) ≠ [] := by
    intro hnil
    rw [← joined_nonempty, hnil] at hjoined
    exact hne (String.utf8ByteSize_eq_zero_iff.mp (congrArg ByteArray.size hjoined).symm)
  have hlength := hblocks.length_eq_one_iff hpieces
  rw [hjoined, nonempty_toUTF8, List.length_map] at hlength
  rw [← hlength, hwrites, ← hjoined, ← hblocks.joined_map]
  constructor
  · intro h
    have := congrArg List.length h
    simpa using this
  · intro h
    obtain ⟨b, rfl⟩ := List.length_eq_one_iff.mp h
    simp

/-- An event is delivered whole, in one write for each block of its pieces. That is a single write if the text
fits into the buffer or is all in one piece, and in no other case. -/
theorem event_in_blocks :
    let text := formatter.format loggerName level e
    let pieces := formatter.pieces loggerName level e
    let b := (deliver (pieces.map String.toUTF8) (w.watched d)).2
    let writes := f.writes formatter loggerName level e d
    f.write formatter loggerName level e d =
      (.ok (), { f with writer := some ⟨b.device.device.handle, b.pending⟩ }, b.device.device.disk) ∧
    writes = b.device.writes ∧ joined writes = text.toUTF8 ∧
    (∃ blocks, Blocks (pieces.map String.toUTF8) blocks) ∧
    (∀ blocks, Blocks (pieces.map String.toUTF8) blocks → writes = blocks.map joined) ∧
    (text ≠ "" → (writes = [text.toUTF8] ↔
      text.toUTF8.size ≤ Buffered.capacity ∨ (pieces.filter (· ≠ "")).length = 1)) := by
  intro text pieces b writes
  obtain ⟨blocks, hblocks, hwrites⟩ := writes_blocks hw ht hp formatter loggerName level e d
  have hwatched := f.write_eq_watched formatter loggerName level e d hw
  have hok := write_of_file hw ht hp formatter loggerName level e d
  refine ⟨?_, by simp only [writes, File.writes, hw, b, pieces], ?_, ⟨blocks, hblocks⟩, fun blocks' h => ?_,
    writes_eq_singleton_iff hw ht hp formatter loggerName level e d⟩
  · rw [hwatched, show (deliver _ (w.watched d)).1 = .ok () from congrArg Prod.fst (hwatched.symm.trans hok)]
  · rw [show writes = blocks.map joined from hwrites, hblocks.joined_map, joined_toUTF8]
    rfl
  · rw [h.unique hblocks]
    exact hwrites

end

/-- A message and the end of its line go out together. -/
theorem event_in_blocks_short :
    let w : FileWriter := ⟨⟨.file 0, none⟩, .empty⟩
    let f : File := ⟨"a.log", .append, some w⟩
    let formatter : Formatter := ⟨"%m%n", [.message, .newLine]⟩
    let e : Event :=
      { fileName := "f", line := 1, elapsed := 0, threadId := 1, fiberId := 0, time := 0, content := "ab" }
    f.writer = some w ∧ w.handle.target = .file 0 ∧ w.pending = .empty ∧
      f.writes formatter "l" .info e {} = ["ab\n".toUTF8] := by
  intro w f formatter e
  have hpieces : formatter.pieces "l" .info e = ["ab", "\n"] := rfl
  have hformat : formatter.format "l" .info e = "ab\n" := by
    rw [Formatter.format, hpieces]
    rfl
  obtain ⟨-, -, -, -, -, hsingle⟩ := event_in_blocks (f := f) (w := w) rfl rfl rfl formatter "l" .info e {}
  rw [hformat] at hsingle
  exact ⟨rfl, rfl, rfl, (hsingle (by decide)).mpr (.inl (by decide))⟩

/-! ## An event that is cut -/

theorem size_toUTF8_replicate (n : Nat) {c : Char} (hc : c.utf8Size = 1) :
    (String.ofList (List.replicate n c)).toUTF8.size = n := by
  have hlength : Text.byteLength (List.replicate n c) = (List.replicate n c).length :=
    Text.byteLength_of_forall_utf8Size fun c' h => List.eq_of_mem_replicate h ▸ hc
  rw [← String.toList_ofList (l := List.replicate n c), Text.byteLength_toList, String.toList_ofList,
    List.length_replicate] at hlength
  exact hlength

/-- A message of five thousand letters that is written twice does not go out in a single write. -/
theorem event_not_whole : ¬ ∀ (f : File) (w : FileWriter) (id : FileId) (formatter : Formatter) (loggerName : String)
    (level : Level) (e : Event) (d : Disk), f.writer = some w → w.handle.target = .file id → w.pending = .empty →
    formatter.format loggerName level e ≠ "" →
    f.writes formatter loggerName level e d = [(formatter.format loggerName level e).toUTF8] := by
  intro h
  let w : FileWriter := ⟨⟨.file 0, none⟩, .empty⟩
  let f : File := ⟨"a.log", .append, some w⟩
  let formatter : Formatter := ⟨"%m%m", [.message, .message]⟩
  let content := String.ofList (List.replicate 5000 'x')
  let e : Event :=
    { fileName := "f", line := 1, elapsed := 0, threadId := 1, fiberId := 0, time := 0, content }
  have hsize : content.toUTF8.size = 5000 := size_toUTF8_replicate 5000 rfl
  have hcontent : content ≠ "" := fun he => by rw [he] at hsize; exact absurd hsize (by decide)
  have hpieces : formatter.pieces "l" .info e = [content, content] := rfl
  have htwice : (formatter.format "l" .info e).toUTF8.size = 10000 := by
    rw [Formatter.format, hpieces, ← joined_toUTF8]
    simp only [List.map_cons, List.map_nil, joined_cons, joined_nil, ByteArray.append_empty, ByteArray.size_append,
      hsize]
  have hne : formatter.format "l" .info e ≠ "" := fun he => by rw [he] at htwice; exact absurd htwice (by decide)
  have hwhole := h f w 0 formatter "l" .info e {} rfl rfl rfl hne
  rw [writes_eq_singleton_iff rfl rfl rfl formatter "l" .info e {} hne, htwice, hpieces] at hwhole
  simp [hcontent, Buffered.capacity] at hwhole

end File

end Logline.Sink
