import Logline.Formatter
import Logline.Proofs.TimeFormat.Standard

/-!
# Lines of the standard pattern

In a line of the standard pattern tabs stand between the fields. If no name has a tab in it, the line tells all
of its fields, for no other field before the message can have one; the message is what is left.
-/

namespace Logline

namespace Level

theorem name_injective {l l' : Level} (h : l.name = l'.name) : l = l' := by
  revert h
  cases l <;> cases l' <;> decide

theorem tab_notMem_name (l : Level) : '\t' ∉ l.name.toList := by
  cases l <;> decide

end Level

namespace Formatter

open Pattern

/-! ## The fields of a line -/

theorem items_standard : standard.items =
    [.dateTime .standard, .tab, .threadId, .tab, .threadName, .tab, .fiberId, .tab,
      .literal "[", .level, .literal "]", .tab, .literal "[", .loggerName, .literal "]", .tab,
      .fileName, .literal ":", .lineNumber, .tab, .message, .newLine] := by cbv

def bracketed (s : List Char) : List Char :=
  '[' :: s ++ [']']

def place (e : Event) : List Char :=
  e.fileName.toList ++ ':' :: Text.digits e.line.toNat

theorem toList_format_standard (loggerName : String) (level : Level) (e : Event) :
    (standard.format loggerName level e).toList =
      TimeFormat.timeText e.time.toInt ++ '\t' :: (Text.digits e.threadId.toNat ++ '\t' :: (e.threadName.toList ++
        '\t' :: (Text.digits e.fiberId.toNat ++ '\t' :: (bracketed level.name.toList ++
        '\t' :: (bracketed (e.effectiveLogger loggerName).toList ++ '\t' :: (place e ++
        '\t' :: (e.content.toList ++ ['\n']))))))) := by
  simp [format, pieces, items_standard, Item.pieces, TimeFormat.timeText, bracketed, place, Text.decimal,
    String.join_cons, String.join_append]

/-! ## Cutting a line at its tabs -/

theorem cut_unique {c : Char} {a b s t : List Char} (ha : c ∉ a) (hb : c ∉ b) (h : a ++ c :: s = b ++ c :: t) :
    a = b ∧ s = t := by
  induction a generalizing b with
  | nil =>
    cases b with
    | nil => exact ⟨rfl, (List.cons.inj h).2⟩
    | cons d b => exact absurd (List.cons.inj h).1 (List.ne_of_not_mem_cons hb)
  | cons d a ih =>
    cases b with
    | nil => exact absurd (List.cons.inj h).1.symm (List.ne_of_not_mem_cons ha)
    | cons d' b =>
      obtain ⟨rfl, htail⟩ := List.cons.inj h
      obtain ⟨rfl, rfl⟩ := ih (List.not_mem_of_not_mem_cons ha) (List.not_mem_of_not_mem_cons hb) htail
      exact ⟨rfl, rfl⟩

theorem bracketed_injective {a b : List Char} (h : bracketed a = bracketed b) : a = b :=
  List.cons.inj (List.append_cancel_right h) |>.2

theorem notMem_bracketed {a : List Char} (ha : '\t' ∉ a) : '\t' ∉ bracketed a := by
  simp [bracketed, ha]

/-- The last colon of a place comes before the line, whatever the file is called. -/
theorem place_injective {e e' : Event} (h : place e = place e') : e.fileName = e'.fileName ∧ e.line = e'.line := by
  have hcolon : ∀ n, ':' ∉ (Text.digits n).reverse := fun n hmem =>
    Text.notMem_digits (by decide) n (List.mem_reverse.mp hmem)
  have hreverse := congrArg List.reverse h
  simp only [place, List.reverse_append, List.reverse_cons, List.append_assoc, List.singleton_append] at hreverse
  obtain ⟨hline, hfile⟩ := cut_unique (hcolon _) (hcolon _) hreverse
  exact ⟨String.toList_inj.mp (List.reverse_injective hfile),
    UInt32.toNat_inj.mp (Text.digits_injective (List.reverse_injective hline))⟩

theorem notMem_place {e : Event} (he : '\t' ∉ e.fileName.toList) : '\t' ∉ place e := by
  simp [place, he, Text.notMem_digits]

structure Untabbed (loggerName : String) (e : Event) : Prop where
  threadName : '\t' ∉ e.threadName.toList
  logger : '\t' ∉ (e.effectiveLogger loggerName).toList
  fileName : '\t' ∉ e.fileName.toList

/-- An event with a file name that has a colon in it, content of two lines, and a time far outside the calendar. -/
def sample (elapsed : UInt64) (loggerName : Option String) : Event where
  fileName := "a:1"
  line := 2
  elapsed
  threadId := 3
  fiberId := 0
  time := Int64.maxValue
  threadName := "main"
  content := "x\ty\n"
  loggerName

end Formatter

end Logline
