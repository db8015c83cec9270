import Mathlib.Data.List.Forall2
import Logline.Level

/-!
# The words that name a level

A level is named by a word in letters of either case, and for an `I` the dotless one will do as well. No other
character has an upper case that stands in one of the words, or has a part in one, so nothing else names a level.
-/

namespace Logline

namespace Text

/-! ## Upper case -/

theorem exists_ofNat_eq {c : Char} (hc : c.toNat < 128) : ∃ n < 128, Char.ofNat n = c :=
  ⟨c.toNat, hc, Char.ofNat_toNat c⟩

theorem toNat_lt_of_isUpper {c : Char} (hc : c.isUpper = true) : c.toNat < 128 := by
  have hletter : c.val ≥ 'A'.val ∧ c.val ≤ 'Z'.val := of_decide_eq_true hc
  have hle : c.val.toNat ≤ 'Z'.val.toNat := hletter.2
  exact Nat.lt_of_le_of_lt hle (by decide)

theorem isUpper_ofNat {n : Nat} (hn : 128 ≤ n) : (Char.ofNat n).isUpper = false := by
  refine Bool.eq_false_iff.mpr fun h => ?_
  by_cases hvalid : n.isValidChar
  · have hn' : (Char.ofNat n).toNat = n := by
      rw [Char.ofNat, dif_pos hvalid]
      rfl
    exact Nat.not_lt.mpr hn (hn' ▸ toNat_lt_of_isUpper h)
  · rw [Char.ofNat, dif_neg hvalid] at h
    cases h

/-- A character is its own upper case, or is in a run of the table. -/
theorem upperCase_cases (c : Char) : upperCase c = [c] ∨ ∃ p ∈ runs, p.1.first ≤ c.toNat ∧ c.toNat ≤ p.1.last ∧
    upperCase c = Char.ofNat (p.1.upper + (c.toNat - p.1.first)) :: p.2.map Char.ofNat := by
  unfold upperCase
  split
  · next r rest hfind =>
    have hcovers := List.find?_some hfind
    simp only [Run.covers, Bool.and_eq_true, decide_eq_true_eq] at hcovers
    exact .inr ⟨(r, rest), List.mem_of_find?_eq_some hfind, hcovers.1.1, hcovers.1.2, rfl⟩
  · exact .inl rfl

/-- A run lies on one side of the end of ASCII, and beyond it what becomes a letter of ASCII is one character. -/
theorem beyond_of_mem_runs {p : Run × List Nat} (hp : p ∈ runs) :
    p.1.first = 'a'.toNat ∧ p.1.last = 'z'.toNat ∨
      128 ≤ p.1.first ∧ (p.1.upper < 128 → p.1.last = p.1.first) := by
  revert p
  decide +kernel

theorem upperCase_ascii {c : Char} (hc : c.toNat < 128) : upperCase c = [c.toUpper] := by
  by_cases hlower : 'a'.toNat ≤ c.toNat ∧ c.toNat ≤ 'z'.toNat
  · have hall : ∀ n < 26, upperCase (Char.ofNat ('a'.toNat + n)) = [(Char.ofNat ('a'.toNat + n)).toUpper] := by
      decide +kernel
    obtain ⟨n, hn⟩ := Nat.exists_eq_add_of_le hlower.1
    have hz : c.toNat < 'a'.toNat + 26 := Nat.lt_succ_of_le hlower.2
    have hletter := hall n (by omega)
    rwa [← hn, Char.ofNat_toNat] at hletter
  · have hupper : c.toUpper = c := dif_neg hlower
    rcases upperCase_cases c with hself | ⟨p, hp, hfirst, hlast, -⟩
    · rw [hself, hupper]
    · rcases beyond_of_mem_runs hp with ⟨ha, hz⟩ | ⟨hbeyond, -⟩
      · exact absurd ⟨ha ▸ hfirst, hz ▸ hlast⟩ hlower
      · exact absurd hc (Nat.not_lt.mpr (Nat.le_trans hbeyond hfirst))

/-! ## Spelling a word -/

def StandsFor (c u : Char) : Prop :=
  c = u ∨ c = u.toLower ∨ u = 'I' ∧ c = 'ı'

instance (c u : Char) : Decidable (StandsFor c u) :=
  inferInstanceAs (Decidable (_ ∨ _ ∨ _ ∧ _))

/-- The word is made of capital letters, and nothing stands in it that another character beyond ASCII than the
dotless `ı` has as its upper case. -/
structure Plain (word : List Char) : Prop where
  capitals : ∀ u ∈ word, u.isUpper = true
  apart : ∀ p ∈ runs, 128 ≤ p.1.first → p.1.upper < 128 → (p.1.upper :: p.2).map Char.ofNat <:+: word →
    p.1.first = 'ı'.toNat

theorem Plain.tail {u : Char} {word : List Char} (h : Plain (u :: word)) : Plain word where
  capitals v hv := h.capitals v (List.mem_cons_of_mem _ hv)
  apart p hp hfirst hupper hin := h.apart p hp hfirst hupper (hin.trans (List.suffix_cons u word).isInfix)

theorem upperCase_of_standsFor {c u : Char} (hu : u.isUpper = true) (h : StandsFor c u) : upperCase c = [u] := by
  have hcapital : ∀ n < 128, (Char.ofNat n).isUpper = true → (Char.ofNat n).toUpper = Char.ofNat n ∧
      (Char.ofNat n).toLower.toUpper = Char.ofNat n ∧ (Char.ofNat n).toLower.toNat < 128 := by decide
  obtain ⟨n, hn, rfl⟩ := exists_ofNat_eq (toNat_lt_of_isUpper hu)
  obtain ⟨hupper, hlower, hsmall⟩ := hcapital n hn hu
  rcases h with rfl | rfl | ⟨hi, rfl⟩
  · rw [upperCase_ascii (toNat_lt_of_isUpper hu), hupper]
  · rw [upperCase_ascii hsmall, hlower]
  · rw [hi]
    decide +kernel

/-- What a word in capital letters begins with, if it begins with the upper case of a character. -/
theorem exists_standsFor {c : Char} {word rest : List Char} (hword : Plain word) (h : upperCase c ++ rest = word) :
    ∃ u, upperCase c = [u] ∧ StandsFor c u := by
  by_cases hascii : c.toNat < 128
  · have hsmall : ∀ n < 128, (Char.ofNat n).toUpper.isUpper = true →
        Char.ofNat n = (Char.ofNat n).toUpper ∨ Char.ofNat n = (Char.ofNat n).toUpper.toLower := by decide
    rw [upperCase_ascii hascii] at h ⊢
    have hcapital := hword.capitals c.toUpper (h ▸ List.mem_cons_self)
    obtain ⟨n, hn, rfl⟩ := exists_ofNat_eq hascii
    exact ⟨_, rfl, (hsmall n hn hcapital).imp_right .inl⟩
  have hbeyond : 128 ≤ c.toNat := Nat.not_lt.mp hascii
  rcases upperCase_cases c with hself | ⟨p, hp, hfirst, hlast, hup⟩
  · rw [hself] at h
    exact absurd (toNat_lt_of_isUpper (hword.capitals c (h ▸ List.mem_cons_self))) hascii
  obtain ⟨-, hz⟩ | ⟨hrun, hsingle⟩ := beyond_of_mem_runs hp
  · exact absurd (Nat.le_trans hbeyond (hz ▸ hlast)) (by decide)
  rcases Nat.lt_or_ge p.1.upper 128 with hupper | hupper
  · have hc : c.toNat = p.1.first := Nat.le_antisymm (hsingle hupper ▸ hlast) hfirst
    rw [hc, Nat.sub_self, Nat.add_zero] at hup
    have hin : (p.1.upper :: p.2).map Char.ofNat <:+: word := by
      rw [List.map_cons, ← hup, ← h]
      exact (List.prefix_append _ _).isInfix
    have hdotless : c = 'ı' := Char.toNat_inj.mp (hc.trans (hword.apart p hp hrun hupper hin))
    subst hdotless
    exact ⟨'I', by decide +kernel, .inr (.inr ⟨rfl, rfl⟩)⟩
  · have hhead : Char.ofNat (p.1.upper + (c.toNat - p.1.first)) ∈ word := by
      rw [← h, hup]
      exact List.mem_cons_self
    have hcapital := hword.capitals _ hhead
    rw [isUpper_ofNat (Nat.le_add_right_of_le hupper)] at hcapital
    cases hcapital

/-- A text has a plain word as its upper case if and only if it spells it letter by letter. -/
theorem upperCaseAll_eq_iff {cs word : List Char} (hword : Plain word) :
    upperCaseAll cs = word ↔ List.Forall₂ StandsFor cs word := by
  unfold upperCaseAll
  induction cs generalizing word with
  | nil =>
    rw [List.flatMap_nil, List.forall₂_nil_left_iff]
    exact eq_comm
  | cons c cs ih =>
    rw [List.flatMap_cons]
    constructor
    · intro h
      obtain ⟨u, hu, hstands⟩ := exists_standsFor hword h
      rw [hu, List.singleton_append] at h
      subst h
      exact .cons hstands ((ih hword.tail).mp rfl)
    · intro h
      cases h with
      | @cons _ u _ us hstands hrest =>
        rw [upperCase_of_standsFor (hword.capitals u List.mem_cons_self) hstands, (ih hword.tail).mpr hrest]
        rfl

end Text

namespace Level

open Text

theorem plain_of_mem_words {w : String} {l : Level} (h : (w, l) ∈ words) : Plain w.toList := by
  have hcapitals : ∀ p ∈ words, p.1.toList.all Char.isUpper = true := by decide
  have hapart : ∀ p ∈ words, ∀ q ∈ runs, 128 ≤ q.1.first → q.1.upper < 128 →
      (q.1.upper :: q.2).map Char.ofNat <:+: p.1.toList → q.1.first = 'ı'.toNat := by decide +kernel
  exact ⟨List.all_eq_true.mp (hcapitals _ h), hapart _ h⟩

/-- No word stands in the table twice. -/
theorem lookup_words_eq_some_iff (w : String) (l : Level) : words.lookup w = some l ↔ (w, l) ∈ words := by
  have hall : ∀ p ∈ words, words.lookup p.1 = some p.2 := by decide
  refine ⟨fun h => ?_, hall (w, l)⟩
  obtain ⟨before, after, hsplit, -⟩ := List.lookup_eq_some_iff.mp h
  rw [hsplit]
  exact List.mem_append_right _ List.mem_cons_self

def Spells (text word : String) : Prop :=
  List.Forall₂ StandsFor text.toList word.toList

theorem parse_eq_ok_iff (text : String) (l : Level) : parse text = .ok l ↔ ∃ w, (w, l) ∈ words ∧ Spells text w := by
  have hparse : parse text = .ok l ↔ words.lookup (String.ofList (upperCaseAll text.toList)) = some l := by
    rw [parse]
    cases words.lookup (String.ofList (upperCaseAll text.toList)) with
    | none => exact ⟨nofun, nofun⟩
    | some l' => simp
  rw [hparse, lookup_words_eq_some_iff]
  constructor
  · intro h
    refine ⟨_, h, (upperCaseAll_eq_iff (plain_of_mem_words h)).mp ?_⟩
    rw [String.toList_ofList]
  · rintro ⟨w, h, hspells⟩
    rw [(upperCaseAll_eq_iff (plain_of_mem_words h)).mpr hspells, String.ofList_toList]
    exact h

/-- A text that is refused is what the error quotes. -/
theorem parse_eq_ok_or (text : String) : (∃ l, parse text = .ok l) ∨ parse text = .error ⟨text⟩ := by
  unfold parse
  split
  · exact .inl ⟨_, rfl⟩
  · exact .inr rfl

end Level

end Logline
