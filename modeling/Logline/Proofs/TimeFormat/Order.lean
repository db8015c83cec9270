import Logline.Pattern.Item
import Logline.Proofs.Text.ByteOrder
import Logline.Proofs.TimeFormat.Standard

/-!
# The order of times in the standard format

From the year 0 to the year 9999 all fields of the standard format have fixed widths, and they stand in it from
the longest span of time to the shortest. So the texts sort as the times do.
-/

namespace Logline

namespace TimeFormat

/-! ## Fields of fixed width -/

theorem twoPlaces_eq_fill {v : Nat} (hv : v < 100) : twoPlaces v .zero = Text.fill '0' 2 (Text.digits v) := by
  rw [twoPlaces_zero, Text.fill_digits_succ, Text.fill_digits_one (by omega)]
  rfl

theorem twoPlaces_append_lt_iff {v w : Nat} (hv : v < 100) (hw : w < 100) (s t : List Char) :
    twoPlaces v .zero ++ s < twoPlaces w .zero ++ t ↔ v < w ∨ v = w ∧ s < t := by
  rw [twoPlaces_eq_fill hv, twoPlaces_eq_fill hw]
  exact Text.fill_digits_append_lt_iff hv hw s t

theorem twoPlaces_lt_iff {v w : Nat} (hv : v < 100) (hw : w < 100) :
    twoPlaces v .zero < twoPlaces w .zero ↔ v < w := by
  have happend := twoPlaces_append_lt_iff hv hw [] []
  simpa using happend

theorem yearText_eq_fill {y : Int} (hy : 0 ≤ y ∧ y ≤ 9999) :
    yearText y .zero = Text.fill '0' 4 (Text.digits y.toNat) := by
  rw [yearText, if_pos (by omega)]
  rfl

theorem yearText_append_lt_iff {y z : Int} (hy : 0 ≤ y ∧ y ≤ 9999) (hz : 0 ≤ z ∧ z ≤ 9999) (s t : List Char) :
    yearText y .zero ++ s < yearText z .zero ++ t ↔ y < z ∨ y = z ∧ s < t := by
  have hy' : y.toNat < 10 ^ (3 + 1) := by omega
  have hz' : z.toNat < 10 ^ (3 + 1) := by omega
  rw [yearText_eq_fill hy, yearText_eq_fill hz, Text.fill_digits_append_lt_iff hy' hz']
  exact or_congr (by omega) (and_congr_left' (by omega))

/-! ## Years of four digits -/

def YearOfFour (t : Int) : Prop :=
  0 ≤ (Moment.ofSeconds t).date.year ∧ (Moment.ofSeconds t).date.year ≤ 9999

section
variable {t t' : Int} (ht : YearOfFour t)
include ht

theorem YearOfFour.inCalendar : Moment.inCalendar t = true := by
  have hstart : yearStart 0 ≤ _ := yearStart_mono ht.1
  have hend : _ ≤ yearStart 10000 := yearStart_mono (Int.add_le_add_right ht.2 1)
  have hle := yearStart_yearOfDay_le ((t + 0) / 86400 + Moment.epochDay)
  have hlt := lt_yearStart_yearOfDay_succ ((t + 0) / 86400 + Moment.epochDay)
  have hfirst : yearStart 0 = 0 := rfl
  have hlast : yearStart 10000 = 3652425 := rfl
  have hepoch : Moment.epochDay = 719528 := rfl
  simp only [Moment.ofSeconds, Date.ofDay] at hstart hend
  simp only [Moment.inCalendar, Bool.and_eq_true, decide_eq_true_eq]
  omega

theorem length_clockText : (clockText (Moment.ofSeconds t)).length = 19 := by
  have hyear : (yearText (Moment.ofSeconds t).date.year .zero).length = 4 := by
    obtain ⟨hpos, hle⟩ := ht
    rw [yearText_eq_fill ⟨hpos, hle⟩]
    exact Text.length_fill_digits (by omega)
  simp only [clockText, List.length_append, hyear, length_twoPlaces, List.length_singleton]

theorem clockText_lt_iff (ht' : YearOfFour t') :
    clockText (Moment.ofSeconds t) < clockText (Moment.ofSeconds t') ↔ t < t' := by
  obtain ⟨hmonth, hday, hhour, hminute, hsecond⟩ := lt_hundred t
  obtain ⟨hmonth', hday', hhour', hminute', hsecond'⟩ := lt_hundred t'
  rw [← Moment.shown_lt_iff]
  -- field by field, the marks between them being the same
  simp only [clockText, Moment.shown, List.append_assoc, List.cons_append, List.nil_append, List.cons_lt_cons_self,
    yearText_append_lt_iff ht ht', twoPlaces_append_lt_iff hmonth hmonth', twoPlaces_append_lt_iff hday hday',
    twoPlaces_append_lt_iff hhour hhour', twoPlaces_append_lt_iff hminute hminute', twoPlaces_lt_iff hsecond hsecond',
    List.cons_lt_cons_iff, Nat.cast_lt, Nat.cast_inj, List.not_lt_nil, and_false, or_false]

end

/-! ## Bytes -/

theorem utf8Size_of_mem_clockText {c : Char} {t : Int} (hc : c ∈ clockText (Moment.ofSeconds t)) : c.utf8Size = 1 := by
  by_cases hmarks : c ∈ ['-', '+', ':', ' ']
  · fin_cases hmarks <;> rfl
  · refine Text.utf8Size_of_isDigit ?_
    by_contra hno
    exact notMem_clockText (Bool.not_eq_true _ ▸ hno) hmarks t hc

theorem length_bytes_clockText {t : Int} (ht : YearOfFour t) :
    (Text.bytes (String.ofList (clockText (Moment.ofSeconds t)))).length = 19 := by
  rw [Text.length_bytes, String.toList_ofList, Text.byteLength_of_forall_utf8Size fun _ => utf8Size_of_mem_clockText,
    length_clockText ht]

end TimeFormat

namespace Pattern.Item

/-- Times of years from 0 to 9999, written by a time item in the standard format, sort byte by byte as they
follow one another, and all their texts are of one length. -/
theorem standard_times_sort {argument : String} (hargument : argument = "" ∨ argument = TimeFormat.standardText)
    {item : Item} (hitem : ofLetter? 'd' argument = some item) {e e' : Event} (he : TimeFormat.YearOfFour e.time.toInt)
    (he' : TimeFormat.YearOfFour e'.time.toInt) (loggerName loggerName' : String) (level level' : Level) :
    let text := String.join (item.pieces loggerName level e)
    let text' := String.join (item.pieces loggerName' level' e')
    (e.time < e'.time ↔ Text.bytes text < Text.bytes text') ∧
      (Text.bytes text).length = 19 ∧ (Text.bytes text').length = 19 := by
  have hstandard : item = .dateTime .standard := by
    cases hitem
    rcases hargument with rfl | rfl <;> rfl
  have htext : ∀ (e : Event) loggerName level, TimeFormat.YearOfFour e.time.toInt →
      String.join (item.pieces loggerName level e) =
        String.ofList (TimeFormat.clockText (Moment.ofSeconds e.time.toInt)) := by
    intro e loggerName level he
    rw [hstandard, pieces, TimeFormat.pieces_standard, if_pos he.inCalendar, String.join_cons, String.join_nil,
      String.append_empty]
  intro text text'
  simp only [text, text', htext e loggerName level he, htext e' loggerName' level' he']
  refine ⟨?_, TimeFormat.length_bytes_clockText he, TimeFormat.length_bytes_clockText he'⟩
  rw [← Text.lt_iff_bytes_lt, Int64.lt_iff_toInt_lt, ← TimeFormat.clockText_lt_iff he he', String.lt_iff_toList_lt,
    String.toList_ofList, String.toList_ofList]

/-- The first and the last second that are written so. -/
theorem standard_times_sort_extremes :
    let e (time : Int64) : Event := { fileName := "f", line := 1, elapsed := 0, threadId := 1, fiberId := 0, time }
    let item : Item := .dateTime .standard
    (ofLetter? 'd' "" = some item ∧ TimeFormat.YearOfFour (e (-62167219200)).time.toInt ∧
      TimeFormat.YearOfFour (e 253402300799).time.toInt) ∧
      Text.bytes (String.join (item.pieces "l" .info (e (-62167219200)))) <
        Text.bytes (String.join (item.pieces "m" .warn (e 253402300799))) := by
  intro e item
  have hitem : ofLetter? 'd' "" = some item := rfl
  have hfirst : TimeFormat.YearOfFour (e (-62167219200)).time.toInt := by unfold TimeFormat.YearOfFour; decide
  have hlast : TimeFormat.YearOfFour (e 253402300799).time.toInt := by unfold TimeFormat.YearOfFour; decide
  obtain ⟨hsort, -, -⟩ := standard_times_sort (.inl rfl) hitem hfirst hlast "l" "m" .info .warn
  exact ⟨⟨hitem, hfirst, hlast⟩, hsort.mp (by decide)⟩

end Pattern.Item

end Logline
