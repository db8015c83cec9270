import Mathlib.Data.List.Basic
import Mathlib.Data.Char
import Logline.Text.Length

/-!
# The order of texts and of their bytes

Texts are ordered character by character. That is also the order of the bytes of their encodings, which are as
many as the characters if all of these are small.
-/

namespace Logline.Text

open String

def bytes (s : String) : List UInt8 :=
  s.toUTF8.data.toList

theorem bytes_eq_flatMap (s : String) : bytes s = s.toList.flatMap utf8EncodeChar := by
  have h : s.toUTF8 = (s.toList.flatMap utf8EncodeChar).toByteArray := String.utf8Encode_toList.symm
  rw [bytes, h, List.toList_data_toByteArray]

theorem utf8EncodeChar_append_lt {c d : Char} (h : c < d) (xs ys : List UInt8) :
    utf8EncodeChar c ++ xs < utf8EncodeChar d ++ ys := by
  have hlt : c.val.toNat < d.val.toNat := h
  have hd : d.val.toNat < 0x110000 := by
    have := d.valid
    simp only [UInt32.isValidChar, Nat.isValidChar] at this
    omega
  unfold utf8EncodeChar
  generalize c.val.toNat = m at hlt
  generalize d.val.toNat = n at hlt hd
  -- Encodings of different lengths differ in the first byte already.
  simp only
  repeat' split
  all_goals
    simp only [List.cons_append, List.nil_append, List.cons_lt_cons_iff, UInt8.lt_iff_toNat_lt, ← UInt8.toNat_inj,
      UInt8.toNat_ofNat']
    try omega
  -- Of two encodings of four bytes the first digit that differs decides.
  rcases Nat.lt_or_ge (m / 262144) (n / 262144) with h | h
  · exact .inl (by omega)
  have h262144 : m / 262144 = n / 262144 := by omega
  refine .inr ⟨by rw [h262144], ?_⟩
  rcases Nat.lt_or_ge (m / 4096) (n / 4096) with h | h
  · exact .inl (by omega)
  have h4096 : m / 4096 = n / 4096 := by omega
  refine .inr ⟨by rw [h4096], ?_⟩
  rcases Nat.lt_or_ge (m / 64) (n / 64) with h | h
  · exact .inl (by omega)
  have h64 : m / 64 = n / 64 := by omega
  exact .inr ⟨by rw [h64], .inl (by omega)⟩

theorem append_lt_append_iff (p xs ys : List UInt8) : p ++ xs < p ++ ys ↔ xs < ys := by
  induction p with
  | nil => exact Iff.rfl
  | cons b p ih => rw [List.cons_append, List.cons_append, List.cons_lt_cons_self, ih]

theorem flatMap_utf8EncodeChar_lt_iff (s t : List Char) :
    s.flatMap utf8EncodeChar < t.flatMap utf8EncodeChar ↔ s < t := by
  induction s generalizing t with
  | nil =>
    cases t with
    | nil => simp
    | cons d t =>
      have hne : utf8EncodeChar d ≠ [] := utf8EncodeChar_ne_nil
      obtain ⟨b, bs, hb⟩ := List.exists_cons_of_ne_nil hne
      simp [hb]
  | cons c s ih =>
    cases t with
    | nil => simp
    | cons d t =>
      rw [List.flatMap_cons, List.flatMap_cons, List.cons_lt_cons_iff]
      rcases lt_trichotomy c d with hlt | rfl | hlt
      · exact iff_of_true (utf8EncodeChar_append_lt hlt _ _) (.inl hlt)
      · rw [append_lt_append_iff, ih]
        simp
      · refine iff_of_false (List.lt_asymm (utf8EncodeChar_append_lt hlt _ _)) ?_
        rintro (hcd | ⟨rfl, -⟩)
        · exact lt_asymm hlt hcd
        · exact lt_irrefl c hlt

theorem lt_iff_bytes_lt (s t : String) : s < t ↔ bytes s < bytes t := by
  rw [bytes_eq_flatMap, bytes_eq_flatMap, flatMap_utf8EncodeChar_lt_iff]
  rfl

/-! ## How many bytes there are -/

theorem length_bytes (s : String) : (bytes s).length = byteLength s.toList := by
  rw [byteLength_toList, bytes, Array.length_toList]
  rfl

theorem byteLength_of_forall_utf8Size {cs : List Char} (h : ∀ c ∈ cs, c.utf8Size = 1) : byteLength cs = cs.length := by
  induction cs with
  | nil => rfl
  | cons c cs ih =>
    obtain ⟨hc, hcs⟩ := List.forall_mem_cons.mp h
    rw [byteLength_cons, hc, ih hcs, List.length_cons, Nat.add_comm]

theorem utf8Size_of_isDigit {c : Char} (hc : c.isDigit = true) : c.utf8Size = 1 := by
  simp only [Char.isDigit, Bool.and_eq_true, decide_eq_true_eq] at hc
  exact Char.utf8Size_eq_one_iff.mpr (UInt32.le_trans hc.2 (by decide))

end Logline.Text
