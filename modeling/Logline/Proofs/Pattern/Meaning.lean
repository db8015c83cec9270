import Mathlib.Data.List.Forall2
import Logline.Pattern.Compile
import Logline.Proofs.Pattern.Grammar

/-!
# What the tokens of a pattern mean

Text between directives makes one literal, and every directive with a flag makes an item of its own.
`compile` gives what the tokens mean, or tells where the pattern breaks off.
-/

namespace Logline.Pattern

def Item.letter? : Item → Option Char
  | literal _ => none
  | message => some 'm'
  | level => some 'p'
  | elapsed => some 'r'
  | loggerName => some 'c'
  | threadId => some 't'
  | newLine => some 'n'
  | dateTime _ => some 'd'
  | fileName => some 'f'
  | lineNumber => some 'l'
  | tab => some 'T'
  | fiberId => some 'F'
  | threadName => some 'N'

inductive Names : List Char → List Char → Item → Prop
  | time {argument : List Char} : argument ≠ [] → Names ['d'] argument (.dateTime ⟨String.ofList argument⟩)
  | standardTime : Names ['d'] [] (.dateTime .standard)
  | field {c : Char} {argument : List Char} {i : Item} : c ≠ 'd' → i.letter? = some c → Names [c] argument i
  | unknown {flag argument : List Char} : flag ≠ [] → (∀ (i : Item) (c : Char), i.letter? = some c → flag ≠ [c]) →
      Names flag argument (.literal (String.ofList flag))

inductive Token.IsText : Token → List Char → Prop
  | text {run : List Char} : IsText (.text run) run
  | percent : IsText .percent ['%']
  | finalPercent : IsText .finalPercent ['%']

/-- The items that tokens mean. A directive without a flag means nothing, yet keeps two texts apart. -/
inductive Means : List Token → List Item → Prop
  | nil : Means [] []
  | literal {run ts : List Token} {texts : List (List Char)} {is : List Item} : run ≠ [] →
      List.Forall₂ Token.IsText run texts → (∀ t cs, ts.head? = some t → ¬ t.IsText cs) → Means ts is →
      Means (run ++ ts) (.literal (String.ofList texts.flatten) :: is)
  | directive {flag : List Char} {argument : Option (List Char)} {ts : List Token} {i : Item} {is : List Item} :
      Names flag (argument.getD []) i → Means ts is → Means (.directive flag argument :: ts) (i :: is)
  | separator {argument : List Char} {ts : List Token} {is : List Item} :
      Means ts is → Means (.directive [] (some argument) :: ts) is
  | mark {c : Char} {ts : List Token} {is : List Item} :
      Means ts is → Means (.mark c :: ts) (.literal (String.ofList [c]) :: is)

/-! ## The catalogue -/

theorem letter?_of_ofLetter? {c : Char} {argument : String} {i : Item} (h : Item.ofLetter? c argument = some i) :
    i.letter? = some c ∧ (c = 'd' → i = .dateTime (TimeFormat.ofArgument argument)) := by
  unfold Item.ofLetter? at h
  split at h <;> cases h
  all_goals exact ⟨rfl, by simp⟩

theorem ofLetter?_of_letter? {c : Char} {i : Item} (h : i.letter? = some c) (hc : c ≠ 'd') (argument : String) :
    Item.ofLetter? c argument = some i := by
  cases i <;> simp only [Item.letter?, Option.some.injEq, reduceCtorEq] at h <;> subst h
  case dateTime => exact absurd rfl hc
  all_goals rfl

theorem ofLetter?_eq_none {c : Char} (h : ∀ i : Item, i.letter? ≠ some c) (argument : String) :
    Item.ofLetter? c argument = none := by
  cases hi : Item.ofLetter? c argument with
  | none => rfl
  | some i => exact absurd (letter?_of_ofLetter? hi).1 (h i)

theorem isAlpha_of_letter? {c : Char} {i : Item} (h : i.letter? = some c) : c.isAlpha := by
  cases i <;> simp only [Item.letter?, Option.some.injEq, reduceCtorEq] at h <;> subst h <;> decide

theorem ofArgument_of_ne_nil {argument : List Char} (h : argument ≠ []) :
    TimeFormat.ofArgument (String.ofList argument) = ⟨String.ofList argument⟩ := by
  rw [TimeFormat.ofArgument, if_neg]
  intro he
  exact h (by simpa using he)

theorem names_iff {flag argument : List Char} {i : Item} :
    Names flag argument i ↔ Item.ofFlag? flag argument = some i := by
  constructor
  · intro h
    cases h with
    | time ha => simp [Item.ofFlag?, Item.ofLetter?, ofArgument_of_ne_nil ha]
    | standardTime => rfl
    | field hc hl => simp [Item.ofFlag?, ofLetter?_of_letter? hl hc]
    | unknown hne hu =>
      match flag with
      | [] => exact absurd rfl hne
      | [c] => rw [Item.ofFlag?, ofLetter?_eq_none fun i hl => hu i c hl rfl]; rfl
      | _ :: _ :: _ => rfl
  · intro h
    match flag with
    | [] => cases h
    | _ :: _ :: _ =>
      simp only [Item.ofFlag?, Option.some.injEq] at h
      subst h
      exact .unknown (by simp) (by simp)
    | [c] =>
      simp only [Item.ofFlag?, Option.some.injEq] at h
      cases hi : Item.ofLetter? c (String.ofList argument) with
      | none =>
        rw [hi] at h
        subst h
        refine .unknown (by simp) fun i d hl he => ?_
        obtain rfl : c = d := by simpa using he
        by_cases hd : c = 'd'
        · subst hd; cases hi
        · rw [ofLetter?_of_letter? hl hd] at hi; cases hi
      | some j =>
        rw [hi] at h
        obtain rfl : j = i := h
        obtain ⟨hl, ht⟩ := letter?_of_ofLetter? hi
        by_cases hc : c = 'd'
        · subst hc
          rw [ht rfl]
          by_cases ha : argument = []
          · subst ha; exact .standardTime
          · rw [ofArgument_of_ne_nil ha]; exact .time ha
        · exact .field hc hl

/-! ## Joining text -/

theorem Token.isText_iff {t : Token} {cs : List Char} : t.IsText cs ↔ t.literal? = some cs := by
  constructor
  · intro h; cases h <;> rfl
  · intro h
    cases t with
    | text run => cases h; exact .text
    | percent => cases h; exact .percent
    | finalPercent => cases h; exact .finalPercent
    | directive _ _ => cases h
    | mark _ => cases h

theorem itemsAfter_isText {t : Token} {cs : List Char} (h : t.IsText cs) (literal : List Char) (ts : List Token) :
    itemsAfter literal (t :: ts) = itemsAfter (literal ++ cs) ts := by
  simp only [itemsAfter, Token.isText_iff.mp h]

theorem itemsAfter_run {run : List Token} {texts : List (List Char)} (h : List.Forall₂ Token.IsText run texts)
    (literal : List Char) (ts : List Token) :
    itemsAfter literal (run ++ ts) = itemsAfter (literal ++ texts.flatten) ts := by
  induction h generalizing literal with
  | nil => simp
  | cons ht _ ih => rw [List.cons_append, itemsAfter_isText ht, ih, List.flatten_cons, List.append_assoc]

theorem itemsAfter_not_isText {ts : List Token} (h : ∀ t cs, ts.head? = some t → ¬ t.IsText cs)
    (literal : List Char) : itemsAfter literal ts = withLiteral literal (itemsAfter [] ts) := by
  cases ts with
  | nil => rfl
  | cons t ts =>
    have hn : t.literal? = none := by
      cases hl : t.literal? with
      | none => rfl
      | some cs => exact absurd (Token.isText_iff.mpr hl) (h t cs rfl)
    simp [itemsAfter, hn, withLiteral]

theorem withLiteral_of_ne_nil {literal : List Char} (h : literal ≠ []) (is : List Item) :
    withLiteral literal is = .literal (String.ofList literal) :: is := if_neg h

/-! ## Meaning and items -/

theorem Reads.mem_standsBefore {s rest : List Char} {ts : List Token} (h : Reads s ts rest) :
    ∀ t ∈ ts, ∃ r, Token.StandsBefore t r := by
  induction h with
  | nil => simp
  | cons ht _ ih => exact List.forall_mem_cons.mpr ⟨⟨_, ht⟩, ih⟩

theorem Token.IsText.ne_nil {t : Token} {cs rest : List Char} (h : t.IsText cs) (ht : t.StandsBefore rest) :
    cs ≠ [] := by
  cases h with
  | text => cases ht with | text hne _ _ => exact hne
  | percent => simp
  | finalPercent => simp

theorem flatten_ne_nil {run : List Token} {texts : List (List Char)} (h : List.Forall₂ Token.IsText run texts)
    (hne : run ≠ []) (hs : ∀ t ∈ run, ∃ r, Token.StandsBefore t r) : texts.flatten ≠ [] := by
  cases h with
  | nil => exact absurd rfl hne
  | cons ht _ =>
    obtain ⟨r, hr⟩ := hs _ (List.mem_cons_self ..)
    rw [List.flatten_cons]
    exact List.append_ne_nil_of_left_ne_nil (ht.ne_nil hr) _

theorem itemsAfter_directive {flag : List Char} {argument : Option (List Char)} {i : Item}
    (h : Names flag (argument.getD []) i) (ts : List Token) :
    items (.directive flag argument :: ts) = i :: items ts := by
  simp only [items, itemsAfter, Token.literal?, Token.item?, names_iff.mp h]
  rfl

theorem ofFlag?_mark {c : Char} (hc : ¬ c.isAlpha) : Item.ofFlag? [c] [] = some (.literal (String.ofList [c])) :=
  names_iff.mp (.unknown (by simp) fun _ _ hl he => hc (by
    obtain rfl : c = _ := by simpa using he
    exact isAlpha_of_letter? hl))

theorem items_mark {c : Char} (hc : ¬ c.isAlpha) (ts : List Token) :
    items (.mark c :: ts) = .literal (String.ofList [c]) :: items ts := by
  simp only [items, itemsAfter, Token.literal?, Token.item?, ofFlag?_mark hc]
  rfl

theorem Means.eq_items {ts : List Token} {is : List Item} (h : Means ts is)
    (hs : ∀ t ∈ ts, ∃ r, Token.StandsBefore t r) : is = items ts := by
  induction h with
  | nil => rfl
  | literal hne hrun hts _ ih =>
    have hl := flatten_ne_nil hrun hne fun t ht => hs t (List.mem_append_left _ ht)
    rw [items, itemsAfter_run hrun, itemsAfter_not_isText hts, List.nil_append, withLiteral_of_ne_nil hl,
      ih fun t ht => hs t (List.mem_append_right _ ht)]
    rfl
  | directive hn _ ih => rw [itemsAfter_directive hn, ih fun t ht => hs t (List.mem_cons_of_mem _ ht)]
  | separator _ ih => exact ih fun t ht => hs t (List.mem_cons_of_mem _ ht)
  | mark _ ih =>
    obtain ⟨r, hr⟩ := hs _ (List.mem_cons_self ..)
    cases hr with
    | mark hc _ _ => rw [items_mark hc, ih fun t ht => hs t (List.mem_cons_of_mem _ ht)]

theorem exists_names {flag : List Char} (hne : flag ≠ []) (argument : List Char) :
    ∃ i, Names flag argument i := by
  match flag with
  | [] => exact absurd rfl hne
  | [_] => exact ⟨_, names_iff.mpr rfl⟩
  | _ :: _ :: _ => exact ⟨_, names_iff.mpr rfl⟩

theorem means_cons {t : Token} {r : List Char} (ht : t.StandsBefore r) (hn : ∀ cs, ¬ t.IsText cs)
    {ts : List Token} (h : Means ts (items ts)) : Means (t :: ts) (items (t :: ts)) := by
  cases ht with
  | text _ _ _ => exact absurd .text (hn _)
  | percent => exact absurd .percent (hn _)
  | finalPercent => exact absurd .finalPercent (hn _)
  | plain hne _ _ =>
    obtain ⟨i, hi⟩ := exists_names hne []
    rw [itemsAfter_directive hi]
    exact .directive hi h
  | @argued flag argument _ _ _ =>
    by_cases hne : flag = []
    · subst hne; exact .separator h
    · obtain ⟨i, hi⟩ := exists_names hne argument
      have hi' : Names flag ((some argument).getD []) i := hi
      rw [itemsAfter_directive hi']
      exact .directive hi' h
  | mark hc _ _ => rw [items_mark hc]; exact .mark h

theorem Means.withRun {run ts : List Token} {texts : List (List Char)} {is : List Item}
    (hrun : List.Forall₂ Token.IsText run texts) (hs : ∀ t ∈ run, ∃ r, Token.StandsBefore t r)
    (hts : ∀ t cs, ts.head? = some t → ¬ t.IsText cs) (h : Means ts is) :
    Means (run ++ ts) (withLiteral texts.flatten is) := by
  by_cases hne : run = []
  · subst hne; cases hrun; exact h
  · rw [withLiteral_of_ne_nil (flatten_ne_nil hrun hne hs)]
    exact .literal hne hrun hts h

-- The literal that `itemsAfter` has gathered is the text of `run`, the tokens read last.
theorem means_itemsAfter : ∀ (ts run : List Token) (texts : List (List Char)),
    List.Forall₂ Token.IsText run texts → (∀ t ∈ run ++ ts, ∃ r, Token.StandsBefore t r) →
      Means (run ++ ts) (itemsAfter texts.flatten ts)
  | [], run, texts, hrun, hs =>
    Means.withRun hrun (fun t ht => hs t (List.mem_append_left _ ht)) (by simp) .nil
  | t :: ts, run, texts, hrun, hs => by
    by_cases ht : ∃ cs, t.IsText cs
    · obtain ⟨cs, ht⟩ := ht
      have ih := means_itemsAfter ts (run ++ [t]) (texts ++ [cs]) (List.rel_append hrun (.cons ht .nil))
        (by simpa using hs)
      rw [itemsAfter_isText ht]
      simpa using ih
    · have hn : ∀ cs, ¬ t.IsText cs := fun cs hc => ht ⟨cs, hc⟩
      have hhead : ∀ u cs, (t :: ts).head? = some u → ¬ u.IsText cs := by
        intro u cs hu; cases hu; exact hn cs
      obtain ⟨r, hr⟩ := hs t (by simp)
      have ih := means_itemsAfter ts [] [] .nil fun u hu => hs u (by simp [List.nil_append ts ▸ hu])
      rw [itemsAfter_not_isText hhead]
      exact Means.withRun hrun (fun u hu => hs u (List.mem_append_left _ hu)) hhead (means_cons hr hn ih)

theorem Splits.means_iff {s : List Char} {ts : List Token} (h : Splits s ts) (is : List Item) :
    Means ts is ↔ is = items ts := by
  refine ⟨fun hm => hm.eq_items (Reads.mem_standsBefore h), ?_⟩
  rintro rfl
  exact means_itemsAfter ts [] [] .nil (Reads.mem_standsBefore h)

/-! ## Compiling -/

theorem Splits.compile {pattern : String} {ts : List Token} (h : Splits pattern.toList ts) :
    compile pattern = .ok (items ts) := by
  rw [Pattern.compile, compileChars, h.scan]
  rfl

theorem BreaksOff.compile {pattern : String} {ts : List Token} {flag body : List Char}
    (h : BreaksOff pattern.toList ts flag body) :
    compile pattern = .error (.patternSyntax pattern (Text.byteLength (spellingOf ts))
      ("missing closing '\x7d' for argument of '%" ++ String.ofList flag ++ "'")) := by
  rw [Pattern.compile, compileChars, h.scan]
  rfl

/-- A pattern splits into tokens in exactly one way, or else breaks off in exactly one way; it
compiles to what the tokens mean, or fails at the byte where the directive without an end begins. -/
theorem compile_follows_grammar (pattern : String) :
    (∃ ts is, (∀ us, Splits pattern.toList us ↔ us = ts) ∧
      (∀ us flag body, ¬ BreaksOff pattern.toList us flag body) ∧
      (∀ js, Means ts js ↔ js = is) ∧ compile pattern = .ok is) ∨
    (∃ ts flag body, (∀ us, ¬ Splits pattern.toList us) ∧
      (∀ us f b, BreaksOff pattern.toList us f b ↔ us = ts ∧ f = flag ∧ b = body) ∧
      compile pattern = .error (.patternSyntax pattern (String.ofList (spellingOf ts)).utf8ByteSize
        ("missing closing '\x7d' for argument of '%" ++ String.ofList flag ++ "'"))) := by
  rcases exists_splits_or_breaksOff pattern.toList with ⟨ts, h⟩ | ⟨ts, flag, body, h⟩
  · have hu : ∀ us, Splits pattern.toList us ↔ us = ts := by
      refine fun us => ⟨fun h' => h'.unique h, ?_⟩
      rintro rfl; exact h
    exact .inl ⟨ts, items ts, hu, fun us flag body hb => h.not_breaksOff hb, h.means_iff, h.compile⟩
  · have hu : ∀ us f b, BreaksOff pattern.toList us f b ↔ us = ts ∧ f = flag ∧ b = body := by
      refine fun us f b => ⟨fun h' => h'.unique h, ?_⟩
      rintro ⟨rfl, rfl, rfl⟩; exact h
    have hc := h.compile
    rw [← String.toList_ofList (l := spellingOf ts), Text.byteLength_toList] at hc
    exact .inr ⟨ts, flag, body, fun us h' => h'.not_breaksOff h, hu, hc⟩

end Logline.Pattern
