import Logline.Proofs.Pattern.Concatenation

/-!
# Items written as a pattern

Every list of items that a pattern can have is that of the pattern written here, in which braces
close each item against the next.
-/

namespace Logline.Pattern

/-- Text in which no sign begins a directive. -/
def escaped (text : List Char) : List Char :=
  text.flatMap fun c => if c = '%' then ['%', '%'] else [c]

def Item.written : Item → List Char
  | .literal text => escaped text.toList ++ ['%', '{', '}']
  | .dateTime f => '%' :: 'd' :: '{' :: f.text.toList ++ ['}']
  | i => '%' :: i.letter?.toList ++ ['{', '}']

def written (is : List Item) : String :=
  String.ofList (is.flatMap Item.written)

def Item.Writable : Item → Prop
  | .literal text => text ≠ ""
  | .dateTime f => f.text ≠ "" ∧ '}' ∉ f.text.toList
  | _ => True

/-! ## What is written is read back -/

theorem forall_mem_singleton_isAlpha {c : Char} (hc : c.isAlpha) : ∀ d ∈ [c], d.isAlpha := by
  intro d hd
  rw [List.mem_singleton.mp hd]
  exact hc

section
variable {rest : List Char} {ts : List Token} (hr : Splits rest ts)
include hr

theorem splits_escaped (text : List Char) :
    ∃ us, Splits (escaped text ++ rest) us ∧ ∀ literal, itemsAfter literal us = itemsAfter (literal ++ text) ts := by
  induction text with
  | nil => exact ⟨ts, hr, by simp⟩
  | cons c text ih =>
    obtain ⟨us, hus, hitems⟩ := ih
    by_cases hc : c = '%'
    · subst hc
      refine ⟨.percent :: us, .cons .percent hus, fun literal => ?_⟩
      rw [itemsAfter_isText .percent, hitems, List.append_assoc]
      rfl
    · have ht : Token.StandsBefore (.text [c]) [] := .text (by simp) (by simp [Ne.symm hc]) (by simp)
      obtain ⟨vs, (hvs : Splits _ vs), hv⟩ := reads_last ht ⟨by simp, by simp⟩ hus (.inl rfl)
      refine ⟨vs, ?_, fun literal => ?_⟩
      · simpa [escaped, hc, Token.spelling] using hvs
      · rw [hv, itemsAfter_isText .text, hitems, List.append_assoc]
        rfl

theorem splits_directive (flag argument : List Char) (hf : ∀ c ∈ flag, c.isAlpha) (hb : '}' ∉ argument) :
    Splits ('%' :: flag ++ '{' :: argument ++ '}' :: rest) (.directive flag (some argument) :: ts) := by
  have h : Splits ((Token.directive flag (some argument)).spelling ++ rest) _ := .cons (.argued hf hb) hr
  simpa [Token.spelling] using h

theorem splits_field {i : Item} {c : Char} (hl : i.letter? = some c) (hc : c ≠ 'd') :
    ∃ us, Splits ('%' :: c :: '{' :: '}' :: rest) us ∧ items us = i :: items ts := by
  have hf := forall_mem_singleton_isAlpha (isAlpha_of_letter? hl)
  exact ⟨_, splits_directive hr [c] [] hf (by simp), itemsAfter_directive (.field hc hl) ts⟩

theorem splits_time {argument : List Char} (hne : argument ≠ []) (hb : '}' ∉ argument) :
    ∃ us, Splits ('%' :: 'd' :: '{' :: argument ++ '}' :: rest) us ∧
      items us = .dateTime ⟨String.ofList argument⟩ :: items ts := by
  have hn : Names ['d'] ((some argument).getD []) (.dateTime ⟨String.ofList argument⟩) := .time hne
  have hf := forall_mem_singleton_isAlpha (show 'd'.isAlpha = true by decide)
  exact ⟨_, splits_directive hr ['d'] argument hf hb, itemsAfter_directive hn ts⟩

theorem splits_literal {text : List Char} (hne : text ≠ []) :
    ∃ us, Splits (escaped text ++ '%' :: '{' :: '}' :: rest) us ∧
      items us = .literal (String.ofList text) :: items ts := by
  obtain ⟨us, hus, hitems⟩ := splits_escaped (splits_directive hr [] [] (by simp) (by simp)) text
  refine ⟨us, hus, ?_⟩
  rw [items, hitems, itemsAfter_not_isText (by rintro t cs ⟨⟩ ⟨⟩), List.nil_append, withLiteral_of_ne_nil hne]
  rfl

theorem splits_written {i : Item} (h : i.Writable) :
    ∃ us, Splits (i.written ++ rest) us ∧ items us = i :: items ts := by
  cases i with
  | literal text =>
    have hne : text.toList ≠ [] := by simpa [Item.Writable] using h
    simpa [Item.written] using splits_literal hr hne
  | dateTime f =>
    have hne : f.text.toList ≠ [] := by simpa using h.1
    simpa [Item.written] using splits_time hr hne h.2
  | _ => exact splits_field hr rfl (by decide)

end

theorem exists_splits_written {is : List Item} (h : ∀ i ∈ is, i.Writable) :
    ∃ ts, Splits (is.flatMap Item.written) ts ∧ items ts = is := by
  induction is with
  | nil => exact ⟨[], .nil, rfl⟩
  | cons i is ih =>
    obtain ⟨ts, hts, hitems⟩ := ih fun j hj => h j (List.mem_cons_of_mem i hj)
    obtain ⟨us, hus, hi⟩ := splits_written hts (h i (List.mem_cons_self ..))
    exact ⟨us, by simpa using hus, by rw [hi, hitems]⟩

/-! ## What is read can be written -/

theorem Names.writable {flag argument : List Char} {i : Item} (h : Names flag argument i) (hb : '}' ∉ argument) :
    i.Writable := by
  cases h with
  | time hne => exact ⟨by simpa using hne, by simpa using hb⟩
  | standardTime => exact ⟨by decide, by decide⟩
  | field hc hl =>
    cases i with
    | literal text => cases hl
    | dateTime f => cases hl; exact absurd rfl hc
    | _ => trivial
  | unknown hne _ => simpa [Item.Writable] using hne

theorem Means.writable {ts : List Token} {is : List Item} (h : Means ts is)
    (hs : ∀ t ∈ ts, ∃ r, Token.StandsBefore t r) : ∀ i ∈ is, i.Writable := by
  induction h with
  | nil => simp
  | literal hne hrun _ _ ih =>
    have hl := flatten_ne_nil hrun hne fun t ht => hs t (List.mem_append_left _ ht)
    refine List.forall_mem_cons.mpr ⟨by simpa [Item.Writable] using hl, ih fun t ht => hs t (List.mem_append_right _ ht)⟩
  | directive hn _ ih =>
    refine List.forall_mem_cons.mpr ⟨hn.writable ?_, ih fun t ht => hs t (List.mem_cons_of_mem _ ht)⟩
    obtain ⟨r, hr⟩ := hs _ (List.mem_cons_self ..)
    cases hr with
    | plain _ _ _ => simp
    | argued _ hb => exact hb
  | separator _ ih => exact ih fun t ht => hs t (List.mem_cons_of_mem _ ht)
  | mark _ ih =>
    exact List.forall_mem_cons.mpr ⟨by simp [Item.Writable], ih fun t ht => hs t (List.mem_cons_of_mem _ ht)⟩

/-- The lists that patterns compile to are the writable ones, and each is that of the pattern it is
written as. -/
theorem compile_written (is : List Item) :
    ((∀ i ∈ is, i.Writable) → compile (written is) = .ok is) ∧
      ∀ pattern, compile pattern = .ok is → ∀ i ∈ is, i.Writable := by
  constructor
  · intro h
    obtain ⟨ts, hts, hitems⟩ := exists_splits_written h
    rw [← String.toList_ofList (l := is.flatMap Item.written)] at hts
    rw [written, hts.compile, hitems]
  · intro pattern hp
    rcases exists_splits_or_breaksOff pattern.toList with ⟨ts, hs⟩ | ⟨ts, flag, body, hb⟩
    · rw [hs.compile] at hp
      cases hp
      exact ((hs.means_iff _).mpr rfl).writable (Reads.mem_standsBefore hs)
    · rw [hb.compile] at hp
      cases hp

/-- A sign, a format with an opening brace, two literals side by side, and letters after a flag. -/
theorem compile_written_mixed :
    (∀ i ∈ [Item.literal "50%", .literal "\x7b", .dateTime ⟨"%H\x7b"⟩, .message, .literal "d"], i.Writable) ∧
      compile (written [.literal "50%", .literal "\x7b", .dateTime ⟨"%H\x7b"⟩, .message, .literal "d"]) =
        .ok [.literal "50%", .literal "\x7b", .dateTime ⟨"%H\x7b"⟩, .message, .literal "d"] := by
  have h : ∀ i ∈ [Item.literal "50%", .literal "\x7b", .dateTime ⟨"%H\x7b"⟩, .message, .literal "d"], i.Writable := by
    simp [Item.Writable]
  exact ⟨h, (compile_written _).1 h⟩

end Logline.Pattern
