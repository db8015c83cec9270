import Logline.Proofs.Text.Decimal
import Logline.TimeFormat

/-!
# When a time format can be used

Of the parts of a format all but one have a text at any moment. So whether a format can be written out is a
matter of its own text, and one trial tells it for all times.
-/

namespace Logline.TimeFormat

variable (m : Moment)

theorem Field.text?_eq_none_iff (f : Field) : f.text? m = none ↔ f = .offsetAnySpelling := by
  cases f with
  | fraction places => cases places <;> exact ⟨nofun, nofun⟩
  | offsetAnySpelling => exact ⟨fun _ => rfl, fun _ => rfl⟩
  | _ => exact ⟨nofun, nofun⟩

theorem Part.text?_eq_none_iff (p : Part) : p.text? m = none ↔ p = .field .offsetAnySpelling := by
  cases p with
  | text | number => exact ⟨nofun, nofun⟩
  | field f => rw [Part.text?, Field.text?_eq_none_iff, Part.field.injEq]

theorem expand_eq_none_iff (ps : List Part) : expand m ps = none ↔ .field .offsetAnySpelling ∈ ps := by
  rw [expand, Option.map_eq_none_iff]
  induction ps with
  | nil => exact ⟨nofun, nofun⟩
  | cons p ps ih =>
    rw [List.mem_cons, ← ih, eq_comm (b := p), ← p.text?_eq_none_iff m, List.mapM_cons]
    cases p.text? m with
    | none => exact ⟨fun _ => .inl rfl, fun _ => rfl⟩
    | some s =>
      cases ps.mapM (Part.text? m) with
      | none => exact ⟨fun _ => .inr rfl, fun _ => rfl⟩
      | some ss => exact ⟨nofun, fun h => by rcases h with h | h <;> cases h⟩

/-- The text of the format alone decides. -/
theorem usableAt_iff (f : TimeFormat) : f.usableAt m = true ↔
    ∃ ps, read? f.text.toList = some ps ∧ .field .offsetAnySpelling ∉ ps := by
  rw [usableAt, textAt?]
  cases read? f.text.toList with
  | none => exact ⟨nofun, fun ⟨_, h, _⟩ => nomatch h⟩
  | some ps =>
    rw [Option.bind_some, Option.isSome_map, Option.isSome_iff_ne_none, ne_eq, expand_eq_none_iff]
    constructor
    · intro h
      exact ⟨ps, rfl, h⟩
    · rintro ⟨_, ⟨⟩, h⟩
      exact h

theorem usableAt_eq_isUsable (f : TimeFormat) : f.usableAt m = f.isUsable := by
  rw [Bool.eq_iff_iff, isUsable, usableAt_iff, usableAt_iff]

/-- One trial is enough. The format of a time item is found usable, or not, at whatever moment it is tried: it is
if and only if it can be read and asks nowhere for an offset in any spelling. If it is, a time of the calendar is
written out in it, by a clock at any offset, and its own text never stands in; another time is written as its
seconds in decimal. If it is not, every time is written as the text of the format. -/
theorem usable_once (f : TimeFormat) :
    (f.text ≠ "" → ofArgument f.text = f) ∧
    (∀ now, f.usableAt now = f.isUsable) ∧
    (f.isUsable = true ↔ ∃ ps, read? f.text.toList = some ps ∧ .field .offsetAnySpelling ∉ ps) ∧
    (f.isUsable = true → ∀ t offset,
      (Moment.inCalendar t = true → ∃ text, f.textAt? (Moment.ofSeconds t offset) = some text ∧
        f.pieces t offset = [text]) ∧
      (Moment.inCalendar t = false → String.join (f.pieces t offset) = toString t)) ∧
    (f.isUsable = false → ∀ t offset, f.pieces t offset = [f.text]) := by
  refine ⟨fun hne => if_neg hne, fun now => usableAt_eq_isUsable now f, usableAt_iff _ f,
    fun husable t offset => ⟨fun hin => ?_, fun hout => ?_⟩, fun husable t offset => ?_⟩
  · have hat : (f.textAt? (Moment.ofSeconds t offset)).isSome = true :=
      (usableAt_eq_isUsable (Moment.ofSeconds t offset) f).trans husable
    obtain ⟨text, htext⟩ := Option.isSome_iff_exists.mp hat
    refine ⟨text, htext, ?_⟩
    rw [pieces, if_pos husable, if_pos hin, htext]
    rfl
  · rw [pieces, if_pos husable, hout, if_neg Bool.false_ne_true]
    exact Text.signed_eq_repr t
  · rw [pieces, husable, if_neg Bool.false_ne_true]

/-- A clock at two times, of which the second is beyond the calendar, and an offset in any spelling. -/
theorem usable_once_clock :
    (∃ text, (ofArgument "%H:%M").textAt? (Moment.ofSeconds 0 0) = some text ∧
        (ofArgument "%H:%M").pieces 0 0 = [text]) ∧
      String.join ((ofArgument "%H:%M").pieces (10 ^ 15) 0) = "1000000000000000" ∧
      (ofArgument "%#z").pieces 0 0 = ["%#z"] := by
  obtain ⟨-, -, -, hwritten, -⟩ := usable_once (ofArgument "%H:%M")
  obtain ⟨hin, -⟩ := hwritten (by cbv) 0 0
  obtain ⟨-, hout⟩ := hwritten (by cbv) (10 ^ 15) 0
  have hkept := (usable_once (ofArgument "%#z")).2.2.2.2 (by cbv) 0 0
  exact ⟨hin (by decide +kernel), (hout (by decide +kernel)).trans (by decide +kernel),
    hkept.trans (by decide +kernel)⟩

/-- A century, a timestamp and a fraction can be written out, an offset in any spelling cannot. -/
example : (ofArgument "%C %+ %.f").isUsable = true ∧ (ofArgument "%#z").isUsable = false := by cbv

end Logline.TimeFormat
