import Mathlib
import Logline.Text.Decimal

/-!
# Decimal text tells the number

Digits are the usual ones, so that a number can be told from its text, also when the text is filled up with
zeros in front. Numbers that are filled up to one width compare as their texts.
-/

namespace Logline.Text

theorem digit_eq_digitChar {d : Nat} (hd : d < 10) : digit d = d.digitChar := by
  have hall : ∀ d < 10, digit d = d.digitChar := by decide
  exact hall d hd

theorem digit_injective {a b : Nat} (ha : a < 10) (hb : b < 10) (h : digit a = digit b) : a = b := by
  rw [digit_eq_digitChar ha, digit_eq_digitChar hb] at h
  rw [← Nat.toNat_digitChar_sub_48_of_lt_ten ha, h, Nat.toNat_digitChar_sub_48_of_lt_ten hb]

theorem isDigit_digit {d : Nat} (hd : d < 10) : (digit d).isDigit = true := by
  rw [digit_eq_digitChar hd, Nat.isDigit_digitChar, decide_eq_true hd]

theorem digits_eq_toDigits (n : Nat) : digits n = Nat.toDigits 10 n := by
  induction n using digits.induct with
  | case1 n hn => rw [digits, if_pos hn, Nat.toDigits_of_lt_base hn, digit_eq_digitChar hn]
  | case2 n hn ih =>
    rw [digits, if_neg hn, ih, Nat.toDigits_of_base_le (by decide) (Nat.not_lt.mp hn),
      digit_eq_digitChar (Nat.mod_lt n (by decide))]

/-- Zeros in front do not count. -/
theorem fill_digits_injective {width : Nat} {a b : Nat} (h : fill '0' width (digits a) = fill '0' width (digits b)) :
    a = b := by
  have hvalue : ∀ n, Nat.ofDigitChars 10 (fill '0' width (digits n)) 0 = n := by
    intro n
    rw [fill, digits_eq_toDigits, Nat.ofDigitChars_append, Nat.ofDigitChars_replicate_zero, Nat.mul_zero,
      Nat.ofDigitChars_ten_toDigits]
  rw [← hvalue a, h, hvalue]

theorem digits_injective {a b : Nat} (h : digits a = digits b) : a = b :=
  fill_digits_injective (congrArg (fill '0' 0) h)

theorem isDigit_of_mem_fill_digits {c : Char} {width n : Nat} (hc : c ∈ fill '0' width (digits n)) :
    c.isDigit = true := by
  rcases List.mem_append.mp hc with hc | hc
  · rw [List.eq_of_mem_replicate hc]
    rfl
  · rw [digits_eq_toDigits] at hc
    exact Nat.isDigit_of_mem_toDigits (by decide) (by decide) hc

theorem notMem_fill_digits {c : Char} (hc : c.isDigit = false) (width n : Nat) : c ∉ fill '0' width (digits n) :=
  fun hmem => Bool.false_ne_true (hc.symm.trans (isDigit_of_mem_fill_digits hmem))

theorem notMem_digits {c : Char} (hc : c.isDigit = false) (n : Nat) : c ∉ digits n :=
  fun hmem => notMem_fill_digits hc 0 n (List.mem_append_right _ hmem)

theorem notMem_signed {c : Char} (hc : c.isDigit = false) (hminus : c ≠ '-') (i : Int) : c ∉ (signed i).toList := by
  rw [signed, signedPieces]
  split
  · simp only [String.join_cons, String.join_nil, String.append_empty, String.toList_append, decimal,
      String.toList_ofList, List.mem_append, not_or]
    exact ⟨fun h => hminus (List.mem_singleton.mp h), notMem_digits hc _⟩
  · simp only [String.join_cons, String.join_nil, String.append_empty, decimal, String.toList_ofList]
    exact notMem_digits hc _

/-! ## Order -/

theorem digit_lt_digit_iff {a b : Nat} (ha : a < 10) (hb : b < 10) : digit a < digit b ↔ a < b := by
  have hall : ∀ a < 10, ∀ b < 10, digit a < digit b ↔ a < b := by decide
  exact hall a ha b hb

/-- A digit, and what comes after it. -/
theorem digit_cons_lt_iff {a b : Nat} (ha : a < 10) (hb : b < 10) (s t : List Char) :
    digit a :: s < digit b :: t ↔ a < b ∨ a = b ∧ s < t := by
  have hinj : digit a = digit b ↔ a = b := ⟨digit_injective ha hb, fun h => by rw [h]⟩
  rw [List.cons_lt_cons_iff, digit_lt_digit_iff ha hb, hinj]

theorem fill_digits_one {n : Nat} (hn : n < 10) : fill '0' 1 (digits n) = [digit n] := by
  rw [digits, if_pos hn]
  rfl

theorem fill_digits_succ (width n : Nat) :
    fill '0' (width + 2) (digits n) = fill '0' (width + 1) (digits (n / 10)) ++ [digit (n % 10)] := by
  rw [digits]
  split
  · next hn =>
    rw [Nat.div_eq_of_lt hn, Nat.mod_eq_of_lt hn, digits, if_pos (by decide)]
    have hzero : [digit 0] = List.replicate 1 '0' := rfl
    simp only [fill, List.length_singleton, hzero, List.length_replicate, List.replicate_append_replicate]
    rfl
  · have hwidth : width + 2 - ((digits (n / 10)).length + 1) = width + 1 - (digits (n / 10)).length := by omega
    rw [fill, fill, List.length_append, List.append_assoc, List.length_singleton, hwidth]

theorem length_fill_digits {width n : Nat} (hn : n < 10 ^ (width + 1)) :
    (fill '0' (width + 1) (digits n)).length = width + 1 := by
  induction width generalizing n with
  | zero => rw [fill_digits_one (by omega), List.length_singleton]
  | succ width ih => rw [fill_digits_succ, List.length_append, ih (by omega), List.length_singleton]

/-- Numbers that are filled up to one width compare as their texts, and if they are the same what comes after
them decides. -/
theorem fill_digits_append_lt_iff {width a b : Nat} (ha : a < 10 ^ (width + 1)) (hb : b < 10 ^ (width + 1))
    (s t : List Char) : fill '0' (width + 1) (digits a) ++ s < fill '0' (width + 1) (digits b) ++ t ↔
      a < b ∨ a = b ∧ s < t := by
  induction width generalizing a b s t with
  | zero =>
    rw [fill_digits_one (by omega), fill_digits_one (by omega)]
    exact digit_cons_lt_iff (by omega) (by omega) s t
  | succ width ih =>
    rw [fill_digits_succ, fill_digits_succ, List.append_assoc, List.append_assoc, ih (by omega) (by omega),
      List.singleton_append, List.singleton_append, digit_cons_lt_iff (by omega) (by omega)]
    by_cases hst : s < t
    · simp only [hst, and_true]
      omega
    · simp only [hst, and_false, or_false]
      omega

/-! ## The usual text -/

theorem decimal_eq_repr (n : Nat) : decimal n = n.repr := by
  rw [decimal, digits_eq_toDigits, Nat.repr_eq_ofList_toDigits]

theorem signed_eq_repr (i : Int) : signed i = i.repr := by
  rw [signed, signedPieces, Int.repr_eq_if]
  split
  · next hi =>
    rw [if_neg (Int.not_le.mpr hi)]
    simp only [String.join_cons, String.join_nil, String.append_empty, decimal_eq_repr]
    congr 2
    omega
  · next hi =>
    rw [if_pos (Int.not_lt.mp hi)]
    simp only [String.join_cons, String.join_nil, String.append_empty, decimal_eq_repr]
    congr 1
    omega

end Logline.Text
