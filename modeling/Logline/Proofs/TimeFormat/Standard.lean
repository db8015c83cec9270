import Logline.Proofs.Calendar
import Logline.Proofs.TimeFormat.Usability

/-!
# Times in the standard format

The standard format shows what a clock shows, and the years in it are at least four digits long. A time outside
the calendar is written as its seconds, which never looks like a date: so the text always tells the time.
-/

namespace Logline.TimeFormat

/-! ## Numbers of two places and years -/

theorem twoPlaces_zero (v : Nat) : twoPlaces v .zero = [Text.digit (v / 10), Text.digit (v % 10)] := by
  unfold twoPlaces
  cases v / 10 <;> rfl

theorem twoPlaces_injective {v w : Nat} (hv : v < 100) (hw : w < 100)
    (h : twoPlaces v .zero = twoPlaces w .zero) : v = w := by
  rw [twoPlaces_zero, twoPlaces_zero, List.cons.injEq, List.cons.injEq] at h
  have htens := Text.digit_injective (by omega) (by omega) h.1
  have hones := Text.digit_injective (by omega) (by omega) h.2.1
  omega

theorem length_twoPlaces (v : Nat) : (twoPlaces v .zero).length = 2 := by
  rw [twoPlaces_zero]
  rfl

theorem notMem_twoPlaces {c : Char} (hc : c.isDigit = false) {v : Nat} (hv : v < 100) : c ∉ twoPlaces v .zero := by
  have hdigit : ∀ d < 10, c ≠ Text.digit d := by
    rintro d hd rfl
    exact Bool.false_ne_true (hc.symm.trans (Text.isDigit_digit hd))
  rw [twoPlaces_zero, List.mem_cons, List.mem_singleton, not_or]
  exact ⟨hdigit _ (by omega), hdigit _ (by omega)⟩

def yearSign (y : Int) : List Char :=
  if 0 ≤ y ∧ y < 10000 then [] else if y < 0 then ['-'] else ['+']

theorem yearText_zero (y : Int) : yearText y .zero = yearSign y ++ Text.fill '0' 4 (Text.digits y.natAbs) := by
  unfold yearText yearSign
  split
  · next hy =>
    obtain ⟨n, rfl⟩ := Int.eq_ofNat_of_zero_le hy.1
    rfl
  · split <;> rfl

theorem mem_yearSign {c : Char} {y : Int} (hc : c ∈ yearSign y) : c = '-' ∨ c = '+' := by
  unfold yearSign at hc
  split at hc
  · cases hc
  · split at hc
    · exact .inl (List.mem_singleton.mp hc)
    · exact .inr (List.mem_singleton.mp hc)

theorem yearSign_eq_minus_iff {y : Int} : yearSign y = ['-'] ↔ y < 0 := by
  unfold yearSign
  split
  · next hy => exact ⟨nofun, fun hneg => absurd hy.1 (Int.not_le.mpr hneg)⟩
  · split
    · next hneg => exact ⟨fun _ => hneg, fun _ => rfl⟩
    · next hneg => exact ⟨nofun, fun h => absurd h hneg⟩

theorem notMem_yearText {c : Char} (hc : c.isDigit = false) (hminus : c ≠ '-') (hplus : c ≠ '+') (y : Int) :
    c ∉ yearText y .zero := by
  rw [yearText_zero, List.mem_append, not_or]
  exact ⟨fun hsign => (mem_yearSign hsign).elim hminus hplus, Text.notMem_fill_digits hc 4 _⟩

theorem yearText_injective {y z : Int} (h : yearText y .zero = yearText z .zero) : y = z := by
  rw [yearText_zero, yearText_zero] at h
  have hsign : ∀ y, (yearSign y).filter Char.isDigit = [] := by
    intro y
    refine List.filter_eq_nil_iff.mpr fun c hc => ?_
    rcases mem_yearSign hc with rfl | rfl <;> decide
  have hdigits : ∀ n, (Text.fill '0' 4 (Text.digits n)).filter Char.isDigit = Text.fill '0' 4 (Text.digits n) :=
    fun n => List.filter_eq_self.mpr fun c hc => Text.isDigit_of_mem_fill_digits hc
  have habs := congrArg (List.filter Char.isDigit) h
  rw [List.filter_append, List.filter_append, hsign, hsign, hdigits, hdigits, List.nil_append, List.nil_append] at habs
  have hnat := Text.fill_digits_injective habs
  rw [hnat, List.append_cancel_right_eq] at h
  have hneg : y < 0 ↔ z < 0 := by rw [← yearSign_eq_minus_iff, ← yearSign_eq_minus_iff, h]
  omega

/-! ## What a clock shows -/

def clockText (m : Moment) : List Char :=
  let two := fun v => twoPlaces v .zero
  yearText m.date.year .zero ++ ['-'] ++ two m.date.month ++ ['-'] ++ two m.date.day ++ [' '] ++
    two m.hour ++ [':'] ++ two m.minute ++ [':'] ++ two m.second

theorem read?_standard : read? standard.text.toList =
    some [zeros .year, sign '-', zeros .month, sign '-', zeros .day, sign ' ', zeros .hour, sign ':', zeros .minute,
      sign ':', zeros .second] := by cbv

theorem textAt?_standard (m : Moment) : standard.textAt? m = some (String.ofList (clockText m)) := by
  rw [textAt?, read?_standard, Option.bind_some]
  simp [expand, List.mapM_cons, zeros, sign, Part.text?, Number.text, clockText]

theorem pieces_standard (t : Int) : standard.pieces t =
    if Moment.inCalendar t then [String.ofList (clockText (Moment.ofSeconds t))] else Text.signedPieces t := by
  have husable : standard.isUsable = true := by rw [isUsable, usableAt, textAt?_standard, Option.isSome_some]
  rw [pieces, if_pos husable, textAt?_standard, Option.getD_some]

theorem append_twoPlaces_inj {s s' : List Char} {c : Char} {v v' : Nat} (hv : v < 100) (hv' : v' < 100)
    (h : s ++ [c] ++ twoPlaces v .zero = s' ++ [c] ++ twoPlaces v' .zero) : s = s' ∧ v = v' := by
  obtain ⟨h, htwo⟩ := List.append_inj' h (by rw [length_twoPlaces, length_twoPlaces])
  exact ⟨List.append_cancel_right h, twoPlaces_injective hv hv' htwo⟩

/-- All numbers but the year have two places. -/
theorem lt_hundred (t : Int) : (Moment.ofSeconds t).date.month < 100 ∧ (Moment.ofSeconds t).date.day < 100 ∧
    (Moment.ofSeconds t).hour < 100 ∧ (Moment.ofSeconds t).minute < 100 ∧ (Moment.ofSeconds t).second < 100 := by
  have hmonth := (Moment.ofSeconds t).date.month_le
  have hday : (Moment.ofSeconds t).date.day ≤ 31 := Date.day_ofDay_le _
  have hhour := Moment.hour_ofSeconds_lt t 0
  have hminute := (Moment.ofSeconds t).minute_lt
  have hsecond := (Moment.ofSeconds t).second_lt
  omega

theorem clockText_injective {t t' : Int} (h : clockText (Moment.ofSeconds t) = clockText (Moment.ofSeconds t')) :
    t = t' := by
  obtain ⟨hmonth, hday, hhour, hminute, hsecond⟩ := lt_hundred t
  obtain ⟨hmonth', hday', hhour', hminute', hsecond'⟩ := lt_hundred t'
  -- the text is taken apart from its end, where all widths are fixed
  obtain ⟨h, hs⟩ := append_twoPlaces_inj hsecond hsecond' h
  obtain ⟨h, hm⟩ := append_twoPlaces_inj hminute hminute' h
  obtain ⟨h, hh⟩ := append_twoPlaces_inj hhour hhour' h
  obtain ⟨h, hd⟩ := append_twoPlaces_inj hday hday' h
  obtain ⟨h, hmo⟩ := append_twoPlaces_inj hmonth hmonth' h
  exact Moment.eq_of_ofSeconds (yearText_injective h) hmo hd hh hm hs

theorem notMem_clockText {c : Char} (hc : c.isDigit = false) (hmarks : c ∉ ['-', '+', ':', ' ']) (t : Int) :
    c ∉ clockText (Moment.ofSeconds t) := by
  obtain ⟨hmonth, hday, hhour, hminute, hsecond⟩ := lt_hundred t
  simp only [List.mem_cons, List.not_mem_nil, or_false, not_or] at hmarks
  simp only [clockText, List.mem_append, List.mem_singleton, not_or, hmarks, not_false_eq_true, and_true,
    notMem_twoPlaces hc hmonth, notMem_twoPlaces hc hday, notMem_twoPlaces hc hhour, notMem_twoPlaces hc hminute,
    notMem_twoPlaces hc hsecond]
  exact notMem_yearText hc hmarks.1 hmarks.2.1 _

/-! ## The text of a time -/

def timeText (t : Int) : List Char :=
  (String.join (standard.pieces t)).toList

theorem timeText_of_inCalendar {t : Int} (hin : Moment.inCalendar t = true) :
    timeText t = clockText (Moment.ofSeconds t) := by
  rw [timeText, pieces_standard, if_pos hin, String.join_cons, String.join_nil, String.append_empty,
    String.toList_ofList]

theorem timeText_of_not_inCalendar {t : Int} (hout : ¬ Moment.inCalendar t = true) :
    timeText t = (Text.signed t).toList := by
  rw [timeText, pieces_standard, if_neg hout, Text.signed]

theorem blank_mem_timeText_iff (t : Int) : ' ' ∈ timeText t ↔ Moment.inCalendar t = true := by
  by_cases hin : Moment.inCalendar t = true
  · rw [timeText_of_inCalendar hin]
    refine ⟨fun _ => hin, fun _ => ?_⟩
    simp [clockText]
  · rw [timeText_of_not_inCalendar hin]
    exact ⟨fun h => absurd h (Text.notMem_signed rfl (by decide) t), fun h => absurd h hin⟩

theorem notMem_timeText {c : Char} (hc : c.isDigit = false) (hmarks : c ∉ ['-', '+', ':', ' ']) (t : Int) :
    c ∉ timeText t := by
  by_cases hin : Moment.inCalendar t = true
  · rw [timeText_of_inCalendar hin]
    exact notMem_clockText hc hmarks t
  · rw [timeText_of_not_inCalendar hin]
    exact Text.notMem_signed hc (fun h => hmarks (h ▸ List.mem_cons_self)) t

theorem timeText_injective {t t' : Int} (h : timeText t = timeText t') : t = t' := by
  -- only what a clock shows has a blank in it
  have hsame : Moment.inCalendar t = true ↔ Moment.inCalendar t' = true := by
    rw [← blank_mem_timeText_iff, ← blank_mem_timeText_iff, h]
  by_cases hin : Moment.inCalendar t = true
  · rw [timeText_of_inCalendar hin, timeText_of_inCalendar (hsame.mp hin)] at h
    exact clockText_injective h
  · rw [timeText_of_not_inCalendar hin, timeText_of_not_inCalendar (mt hsame.mpr hin), String.toList_inj,
      Text.signed_eq_repr, Text.signed_eq_repr] at h
    exact Int.repr_injective h

end Logline.TimeFormat
