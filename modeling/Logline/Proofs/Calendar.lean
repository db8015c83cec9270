import Mathlib
import Logline.Calendar

/-!
# What a clock shows tells the time

Year, month and day tell the day, and with the time of day the second. Times follow one another as what a clock
shows of them does, the year counting first and the second last.
-/

namespace Logline

theorem locate_cons (m : Nat) (ms : List Nat) (n : Nat) : locate (m :: ms) n =
    if n < m then (0, n) else ((locate ms (n - m)).1 + 1, (locate ms (n - m)).2) := rfl

theorem sum_take_locate (ms : List Nat) (n : Nat) : (ms.take (locate ms n).1).sum + (locate ms n).2 = n := by
  induction ms generalizing n with
  | nil => rw [locate, List.take_zero, List.sum_nil, Nat.zero_add]
  | cons m ms ih =>
    rw [locate_cons]
    split
    · rw [List.take_zero, List.sum_nil, Nat.zero_add]
    · next hn =>
      have hrest := ih (n - m)
      rw [List.take_succ_cons, List.sum_cons]
      omega

theorem locate_fst_le (ms : List Nat) (n : Nat) : (locate ms n).1 ≤ ms.length := by
  induction ms generalizing n with
  | nil => exact Nat.le_refl 0
  | cons m ms ih =>
    rw [locate_cons]
    split
    · exact Nat.zero_le _
    · exact Nat.succ_le_succ (ih (n - m))

theorem locate_snd_lt {ms : List Nat} {n b : Nat} (hms : ∀ m ∈ ms, m ≤ b) (hn : n < ms.sum) : (locate ms n).2 < b := by
  induction ms generalizing n with
  | nil => cases hn
  | cons m ms ih =>
    rw [locate_cons]
    split
    · next hlt => exact Nat.lt_of_lt_of_le hlt (hms m List.mem_cons_self)
    · next hlt =>
      rw [List.sum_cons] at hn
      exact ih (fun k hk => hms k (List.mem_cons_of_mem _ hk)) (by omega)

/-- Positions compare as the parts they fall into, and inside one part as the positions in it. -/
theorem lt_iff_locate (ms : List Nat) (n k : Nat) : n < k ↔
    (locate ms n).1 < (locate ms k).1 ∨ (locate ms n).1 = (locate ms k).1 ∧ (locate ms n).2 < (locate ms k).2 := by
  induction ms generalizing n k with
  | nil => simp [locate]
  | cons m ms ih =>
    have hrest := ih (n - m) (k - m)
    rw [locate_cons, locate_cons]
    by_cases hn : n < m
    · by_cases hk : k < m
      · simp [hn, hk]
      · simp [hn, hk]
        omega
    · by_cases hk : k < m
      · simp [hn, hk]
        omega
      · simp only [hn, hk, if_false]
        omega

theorem yearStart_mono {y z : Int} (h : y ≤ z) : yearStart y ≤ yearStart z := by
  unfold yearStart
  omega

namespace Date

theorem month_le (t : Date) : t.month ≤ 13 :=
  Nat.succ_le_succ (locate_fst_le _ _)

theorem day_ofDay_le (d : Int) : (ofDay d).day ≤ 31 := by
  have hord := ordinal_ofDay_lt d
  refine locate_snd_lt ?_ ?_
  · cases isLeapYear (ofDay d).year <;> decide
  · cases hleap : isLeapYear (ofDay d).year <;> rw [hleap] at hord <;> exact hord

theorem eq_of_ofDay {d d' : Int} (hyear : (ofDay d).year = (ofDay d').year)
    (hmonth : (ofDay d).month = (ofDay d').month) (hday : (ofDay d).day = (ofDay d').day) : d = d' := by
  have hord : (ofDay d).ordinal = (ofDay d').ordinal := by
    have hfst := Nat.succ.inj hmonth
    have hsnd := Nat.succ.inj hday
    rw [← hyear] at hfst hsnd
    rw [← sum_take_locate (monthLengths (isLeapYear (ofDay d).year)) (ofDay d).ordinal, hfst, hsnd, sum_take_locate]
  rw [← dayNumber_ofDay d, ← dayNumber_ofDay d', dayNumber, dayNumber, hyear, hord]

theorem lt_iff_year_ordinal (d d' : Int) : d < d' ↔ (ofDay d).year < (ofDay d').year ∨
    (ofDay d).year = (ofDay d').year ∧ (ofDay d).ordinal < (ofDay d').ordinal := by
  have hd : yearStart (ofDay d).year + (ofDay d).ordinal = d := dayNumber_ofDay d
  have hd' : yearStart (ofDay d').year + (ofDay d').ordinal = d' := dayNumber_ofDay d'
  have hend : d < yearStart ((ofDay d).year + 1) := lt_yearStart_yearOfDay_succ d
  have hend' : d' < yearStart ((ofDay d').year + 1) := lt_yearStart_yearOfDay_succ d'
  rcases lt_trichotomy (ofDay d).year (ofDay d').year with hlt | heq | hgt
  · have := yearStart_mono hlt
    omega
  · rw [heq] at hd ⊢
    omega
  · have := yearStart_mono hgt
    omega

theorem lt_iff_year_month_day (d d' : Int) : d < d' ↔ (ofDay d).year < (ofDay d').year ∨
    (ofDay d).year = (ofDay d').year ∧ ((ofDay d).month < (ofDay d').month ∨
      (ofDay d).month = (ofDay d').month ∧ (ofDay d).day < (ofDay d').day) := by
  rw [lt_iff_year_ordinal]
  refine or_congr_right (and_congr_right fun hyear => ?_)
  rw [lt_iff_locate (monthLengths (isLeapYear (ofDay d').year)), month, month, day, day, hyear]
  omega

end Date

namespace Moment

theorem hour_ofSeconds_lt (t offset : Int) : (ofSeconds t offset).hour < 24 := by
  have := clock_ofSeconds_lt t offset
  unfold hour
  omega

theorem minute_lt (m : Moment) : m.minute < 60 :=
  Nat.mod_lt _ (by decide)

theorem second_lt (m : Moment) : m.second < 60 :=
  Nat.mod_lt _ (by decide)

theorem clock_eq (m : Moment) : m.clock = 3600 * m.hour + 60 * m.minute + m.second := by
  unfold hour minute second
  omega

/-- Two times at which a clock shows the same are the same. -/
theorem eq_of_ofSeconds {t t' : Int} (hyear : (ofSeconds t).date.year = (ofSeconds t').date.year)
    (hmonth : (ofSeconds t).date.month = (ofSeconds t').date.month)
    (hday : (ofSeconds t).date.day = (ofSeconds t').date.day) (hhour : (ofSeconds t).hour = (ofSeconds t').hour)
    (hminute : (ofSeconds t).minute = (ofSeconds t').minute)
    (hsecond : (ofSeconds t).second = (ofSeconds t').second) : t = t' := by
  have hdate : (ofSeconds t).date.dayNumber = (ofSeconds t').date.dayNumber := by
    rw [ofSeconds, ofSeconds, Date.eq_of_ofDay hyear hmonth hday]
  have hclock : (ofSeconds t).clock = (ofSeconds t').clock := by
    rw [clock_eq, clock_eq, hhour, hminute, hsecond]
  rw [← seconds_ofSeconds t 0, ← seconds_ofSeconds t' 0, seconds, seconds, hdate, hclock]
  rfl

theorem lt_iff_day_clock (t t' : Int) : t < t' ↔
    (ofSeconds t).date.dayNumber < (ofSeconds t').date.dayNumber ∨
      (ofSeconds t).date.dayNumber = (ofSeconds t').date.dayNumber ∧ (ofSeconds t).clock < (ofSeconds t').clock := by
  have ht : ((ofSeconds t).date.dayNumber - epochDay) * 86400 + (ofSeconds t).clock - 0 = t := seconds_ofSeconds t 0
  have ht' : ((ofSeconds t').date.dayNumber - epochDay) * 86400 + (ofSeconds t').clock - 0 = t' := seconds_ofSeconds t' 0
  have hclock := clock_ofSeconds_lt t 0
  have hclock' := clock_ofSeconds_lt t' 0
  omega

def shown (m : Moment) : List Int :=
  [m.date.year, m.date.month, m.date.day, m.hour, m.minute, m.second]

theorem shown_lt_iff (t t' : Int) : (ofSeconds t).shown < (ofSeconds t').shown ↔ t < t' := by
  have hminute := (ofSeconds t).minute_lt
  have hminute' := (ofSeconds t').minute_lt
  have hsecond := (ofSeconds t).second_lt
  have hsecond' := (ofSeconds t').second_lt
  rw [lt_iff_day_clock, clock_eq, clock_eq]
  obtain ⟨d, hd⟩ : ∃ d, (ofSeconds t).date = Date.ofDay d := ⟨_, rfl⟩
  obtain ⟨d', hd'⟩ : ∃ d, (ofSeconds t').date = Date.ofDay d := ⟨_, rfl⟩
  -- that two days are the same is that neither is before the other
  have hlt := Date.lt_iff_year_month_day d d'
  have hgt := Date.lt_iff_year_month_day d' d
  simp only [shown, hd, hd', Date.dayNumber_ofDay, List.cons_lt_cons_iff, List.not_lt_nil, and_false, or_false]
  omega

end Moment

end Logline
