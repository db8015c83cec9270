import Mathlib
import Logline.Formatter
import Logline.Proofs.Pattern.Meaning

/-!
# Patterns one after the other

A pattern that is split into tokens can be continued, unless its last token would take the beginning
of what follows for its own. What is read from the two is what is read from each, but for text that
runs across the seam, which is one token then and two before; to the items that is the same.
-/

namespace Logline.Pattern

def EndsWith (s : List Char) (t : Token) : Prop :=
  ∃ ts, Splits s (ts ++ [t])

/-- What may follow a token at the end of a pattern. -/
structure Token.Admits (t : Token) (b : List Char) : Prop where
  ne_finalPercent : t ≠ .finalPercent
  after_flag : ∀ flag, t = .directive flag none → ∀ c, b.head? = some c → ¬ c.isAlpha ∧ c ≠ '{'

/-! ## Reading across the seam -/

def ReadsLike (s : List Char) (us : List Token) (rest : List Char) : Prop :=
  ∃ vs, Reads s vs rest ∧ ∀ literal, itemsAfter literal vs = itemsAfter literal us

theorem Reads.like {s rest : List Char} {ts : List Token} (h : Reads s ts rest) : ReadsLike s ts rest :=
  ⟨ts, h, fun _ => rfl⟩

theorem head?_append {s b : List Char} (h : s ≠ []) : (s ++ b).head? = s.head? := by
  cases s with
  | nil => exact absurd rfl h
  | cons _ _ => rfl

-- A token looks at one character of what follows it, if there is one.
theorem Token.StandsBefore.of_head? {t : Token} {s r : List Char} (ht : t.StandsBefore s) (hs : s ≠ [])
    (hr : ∀ c, r.head? = some c → s.head? = some c) : t.StandsBefore r := by
  cases ht with
  | text hne hp hc => exact .text hne hp fun c h => hc c (hr c h)
  | percent => exact .percent
  | finalPercent => exact absurd rfl hs
  | plain hne hf hc => exact .plain hne hf fun c h => hc c (hr c h)
  | argued hf ha => exact .argued hf ha
  | mark hc hb hp => exact .mark hc hb hp

theorem Token.StandsBefore.append {t : Token} {s : List Char} (ht : t.StandsBefore s) (hs : s ≠ [])
    (b : List Char) : t.StandsBefore (s ++ b) :=
  ht.of_head? hs fun c hc => by rwa [head?_append hs] at hc

theorem itemsAfter_congr {ts us : List Token} (h : ∀ literal, itemsAfter literal ts = itemsAfter literal us)
    (t : Token) (literal : List Char) : itemsAfter literal (t :: ts) = itemsAfter literal (t :: us) := by
  simp only [itemsAfter, h]

theorem Ended.head? {rest : List Char} (h : Ended rest) : ∀ c, rest.head? = some c → c = '%' := by
  intro c hc
  rcases h with rfl | ⟨flag, body, hd⟩
  · cases hc
  · rw [hd.spelled] at hc; simpa using hc.symm

theorem reads_text_append {run b rest : List Char} {us : List Token} (hne : run ≠ []) (hp : '%' ∉ run)
    (hb : Reads b us rest) (hrest : Ended rest) : ReadsLike (run ++ b) (.text run :: us) rest := by
  have hcons : (∀ c, b.head? = some c → c = '%') → ReadsLike (run ++ b) (.text run :: us) rest := by
    intro h
    have ht : Token.StandsBefore (.text run) b := .text hne hp h
    exact (Reads.cons ht hb).like
  cases hb with
  | nil => exact hcons hrest.head?
  | @cons _ s _ ts hu hs =>
    cases hu with
    | @text run' _ hne' hp' hs' =>
      have ht : Token.StandsBefore (.text (run ++ run')) s := .text (by simp [hne]) (by simp [hp, hp']) hs'
      refine ⟨.text (run ++ run') :: ts, ?_, fun literal => by simp [itemsAfter, Token.literal?]⟩
      rw [Token.spelling, ← List.append_assoc]
      exact .cons ht hs
    | _ => exact hcons (by simp [Token.spelling, eq_comm])

theorem reads_last {t : Token} (ht : t.StandsBefore []) {b rest : List Char} (hadm : t.Admits b) {us : List Token}
    (hb : Reads b us rest) (hrest : Ended rest) : ReadsLike (t.spelling ++ b) (t :: us) rest := by
  have hcons : t.StandsBefore b → ReadsLike (t.spelling ++ b) (t :: us) rest := fun h => (Reads.cons h hb).like
  cases ht with
  | text hne hp _ => exact reads_text_append hne hp hb hrest
  | percent => exact hcons .percent
  | finalPercent => exact absurd rfl hadm.ne_finalPercent
  | plain hne hf _ => exact hcons (.plain hne hf (hadm.after_flag _ rfl))
  | argued hf ha => exact hcons (.argued hf ha)
  | mark hc hb hp => exact hcons (.mark hc hb hp)

/-- What two patterns are read as together means what they are read as apart. -/
theorem Splits.append {a b rest : List Char} {ts us : List Token} (ha : Splits a ts) (hb : Reads b us rest)
    (hrest : Ended rest) (hadm : ∀ t, ts.getLast? = some t → t.Admits b) :
    ReadsLike (a ++ b) (ts ++ us) rest := by
  unfold Splits at ha
  generalize hnil : ([] : List Char) = e at ha
  induction ha with
  | nil => subst hnil; exact hb.like
  | @cons t s e ts ht hs ih =>
    subst hnil
    by_cases hse : s = []
    -- the last token is the only one that sees the seam
    · subst hse
      obtain rfl : ts = [] := Splits.unique hs .nil
      rw [List.append_nil]
      exact reads_last ht (hadm t rfl) hb hrest
    · have hts : ts ≠ [] := by
        rintro rfl
        cases hs
        exact hse rfl
      obtain ⟨vs, hvs, hitems⟩ := ih (fun u hu => hadm u (by rw [List.getLast?_cons_of_ne_nil hts, hu])) rfl
      refine ⟨t :: vs, ?_, itemsAfter_congr hitems t⟩
      rw [List.append_assoc]
      exact .cons (ht.append hse b) hvs

theorem Splits.append_splits {a b : List Char} {ts us : List Token} (ha : Splits a ts) (hb : Splits b us)
    (hadm : ∀ t, ts.getLast? = some t → t.Admits b) : ∃ vs, Splits (a ++ b) vs ∧ items vs = items (ts ++ us) := by
  obtain ⟨vs, hvs, hitems⟩ := ha.append hb (.inl rfl) hadm
  exact ⟨vs, hvs, hitems []⟩

theorem Splits.append_breaksOff {a b flag body : List Char} {ts us : List Token} (ha : Splits a ts)
    (hb : BreaksOff b us flag body) (hadm : ∀ t, ts.getLast? = some t → t.Admits b) :
    ∃ vs, BreaksOff (a ++ b) vs flag body ∧ spellingOf vs = a ++ spellingOf us := by
  obtain ⟨rest, hr, hd⟩ := hb
  obtain ⟨vs, hvs, -⟩ := ha.append hr (.inr ⟨flag, body, hd⟩) hadm
  have h := hvs.eq_append
  rw [hr.eq_append, ← List.append_assoc] at h
  exact ⟨vs, ⟨rest, hvs, hd⟩, (List.append_cancel_right h).symm⟩

/-! ## Rendering across the seam -/

section
variable (loggerName : String) (level : Level) (e : Event)

def rendering (is : List Item) : String :=
  String.join (is.flatMap (Item.pieces loggerName level e))

theorem rendering_append (is js : List Item) : rendering loggerName level e (is ++ js) =
    rendering loggerName level e is ++ rendering loggerName level e js := by
  simp [rendering, String.join_append]

theorem rendering_withLiteral (literal : List Char) (is : List Item) :
    rendering loggerName level e (withLiteral literal is) =
      String.ofList literal ++ rendering loggerName level e is := by
  by_cases h : literal = []
  · subst h; simp [withLiteral]
  · rw [withLiteral_of_ne_nil h]
    simp [rendering, Item.pieces]

theorem rendering_nil : rendering loggerName level e [] = "" := rfl

theorem rendering_itemsAfter (literal : List Char) (ts : List Token) :
    rendering loggerName level e (itemsAfter literal ts) =
      String.ofList literal ++ rendering loggerName level e (items ts) := by
  induction ts generalizing literal with
  | nil => exact rendering_withLiteral loggerName level e literal []
  | cons t ts ih =>
    by_cases ht : ∃ cs, t.IsText cs
    · obtain ⟨cs, ht⟩ := ht
      rw [items, itemsAfter_isText ht, itemsAfter_isText ht, ih, ih, List.nil_append, String.ofList_append,
        String.append_assoc]
    · have hhead : ∀ u cs, (t :: ts).head? = some u → ¬ u.IsText cs := by
        intro u cs hu hc; cases hu; exact ht ⟨cs, hc⟩
      rw [itemsAfter_not_isText hhead, rendering_withLiteral]
      rfl

theorem rendering_items_cons (t : Token) (ts : List Token) : rendering loggerName level e (items (t :: ts)) =
    rendering loggerName level e (items [t]) ++ rendering loggerName level e (items ts) := by
  cases hl : t.literal? with
  | some cs =>
    have ht := Token.isText_iff.mpr hl
    rw [items, items, itemsAfter_isText ht, itemsAfter_isText ht, rendering_itemsAfter, rendering_itemsAfter]
    simp [items, itemsAfter, withLiteral, rendering_nil]
  | none =>
    have hitems : ∀ us, items (t :: us) = t.item?.toList ++ items us := fun us => by
      simp [items, itemsAfter, hl, withLiteral]
    rw [hitems, hitems, rendering_append, rendering_append, String.append_assoc]
    simp [items, itemsAfter, withLiteral, rendering_nil]

/-- A literal that is joined across a seam renders as its two parts do. -/
theorem rendering_items_append (ts us : List Token) : rendering loggerName level e (items (ts ++ us)) =
    rendering loggerName level e (items ts) ++ rendering loggerName level e (items us) := by
  induction ts with
  | nil => simp [items, itemsAfter, withLiteral, rendering_nil]
  | cons t ts ih =>
    rw [List.cons_append, rendering_items_cons, ih, rendering_items_cons loggerName level e t ts,
      String.append_assoc]

end

/-! ## Compiling two patterns as one -/

theorem ofPattern_eq_ok_iff {pattern : String} {f : Formatter} :
    Formatter.ofPattern pattern = .ok f ↔ ∃ ts, Splits pattern.toList ts ∧ f = ⟨pattern, items ts⟩ := by
  rcases exists_splits_or_breaksOff pattern.toList with ⟨ts, hs⟩ | ⟨ts, flag, body, hb⟩
  · rw [Formatter.ofPattern, hs.compile]
    constructor
    · intro h; cases h; exact ⟨ts, hs, rfl⟩
    · rintro ⟨us, hu, rfl⟩; rw [hu.unique hs]; rfl
  · rw [Formatter.ofPattern, hb.compile]
    constructor
    · intro h; cases h
    · rintro ⟨us, hu, _⟩; exact absurd hb hu.not_breaksOff

theorem EndsWith.of_getLast? {s : List Char} {ts : List Token} (h : Splits s ts) {t : Token}
    (ht : ts.getLast? = some t) : EndsWith s t := by
  obtain ⟨us, rfl⟩ := List.getLast?_eq_some_iff.mp ht
  exact ⟨us, h⟩

/-- Two patterns compile as one if neither the last sign nor the last flag of the first takes in what
follows: the second fails at its own place, or the text of both is one after the other. -/
theorem compile_append {a b : String} {f : Formatter} (ha : Formatter.ofPattern a = .ok f)
    (hfinal : ¬ EndsWith a.toList .finalPercent)
    (hflag : ∀ flag, EndsWith a.toList (.directive flag none) →
      ∀ c, b.toList.head? = some c → ¬ c.isAlpha ∧ c ≠ '{') :
    ((∃ e, compile (a ++ b) = .error e) ↔ ∃ e, compile b = .error e) ∧
    (∀ e, compile b = .error e → ∃ position message, e = .patternSyntax b position message ∧
      compile (a ++ b) = .error (.patternSyntax (a ++ b) (a.utf8ByteSize + position) message)) ∧
    (∀ g, Formatter.ofPattern b = .ok g → ∃ h, Formatter.ofPattern (a ++ b) = .ok h ∧
      ∀ loggerName level e,
        h.format loggerName level e = f.format loggerName level e ++ g.format loggerName level e) := by
  obtain ⟨ts, hs, rfl⟩ := ofPattern_eq_ok_iff.mp ha
  have hadm : ∀ t, ts.getLast? = some t → t.Admits b.toList := by
    intro t ht
    have he := EndsWith.of_getLast? hs ht
    refine ⟨?_, ?_⟩
    · rintro rfl; exact hfinal he
    · rintro flag rfl; exact hflag flag he
  rcases exists_splits_or_breaksOff b.toList with ⟨us, hb⟩ | ⟨us, flag, body, hb⟩
  · obtain ⟨vs, hv, hitems⟩ := hs.append_splits hb hadm
    rw [← String.toList_append] at hv
    refine ⟨by simp [hv.compile, hb.compile], ?_, ?_⟩
    · intro e he; rw [hb.compile] at he; cases he
    · intro g hg
      obtain ⟨us', hb', rfl⟩ := ofPattern_eq_ok_iff.mp hg
      obtain rfl := hb.unique hb'
      refine ⟨_, ofPattern_eq_ok_iff.mpr ⟨vs, hv, rfl⟩, fun loggerName level e => ?_⟩
      have h := rendering_items_append loggerName level e ts us
      rw [← hitems] at h
      exact h
  · obtain ⟨vs, hv, hspelled⟩ := hs.append_breaksOff hb hadm
    rw [← String.toList_append] at hv
    have hposition : Text.byteLength (spellingOf vs) = a.utf8ByteSize + Text.byteLength (spellingOf us) := by
      rw [hspelled, Text.byteLength_append, Text.byteLength_toList]
    have hc := hv.compile
    rw [hposition] at hc
    refine ⟨by simp [hc, hb.compile], ?_, ?_⟩
    · intro e he
      rw [hb.compile] at he
      cases he
      exact ⟨_, _, rfl, hc⟩
    · intro g hg
      obtain ⟨us', hb', -⟩ := ofPattern_eq_ok_iff.mp hg
      exact absurd hb hb'.not_breaksOff

/-- A flag is closed by a bracket, and the sharp of two bytes before it stays where it is. -/
theorem compile_append_flag_bracket :
    Formatter.ofPattern "♯%p" = .ok ⟨"♯%p", [.literal "♯", .level]⟩ ∧
    ¬ EndsWith "♯%p".toList .finalPercent ∧
    (∀ flag, EndsWith "♯%p".toList (.directive flag none) →
      ∀ c, "[♯%m".toList.head? = some c → ¬ c.isAlpha ∧ c ≠ '{') ∧
    ∃ h, Formatter.ofPattern ("♯%p" ++ "[♯%m") = .ok h ∧ ∀ loggerName level e,
      h.format loggerName level e = Formatter.format ⟨"♯%p", [.literal "♯", .level]⟩ loggerName level e ++
        Formatter.format ⟨"[♯%m", [.literal "[♯", .message]⟩ loggerName level e := by
  have hs : Splits "♯%p".toList [.text ['♯'], .directive ['p'] none] := scan_eq_ok_iff.mp (by cbv)
  have ha : Formatter.ofPattern "♯%p" = .ok ⟨"♯%p", [.literal "♯", .level]⟩ := by cbv
  have hb : Formatter.ofPattern "[♯%m" = .ok ⟨"[♯%m", [.literal "[♯", .message]⟩ := by cbv
  have hfinal : ¬ EndsWith "♯%p".toList .finalPercent := by
    rintro ⟨ts, h⟩
    have := congrArg List.getLast? (hs.unique h)
    simp at this
  have hflag : ∀ flag, EndsWith "♯%p".toList (.directive flag none) →
      ∀ c, "[♯%m".toList.head? = some c → ¬ c.isAlpha ∧ c ≠ '{' := by
    intro flag _ c hc
    obtain rfl : '[' = c := Option.some.inj hc
    decide
  obtain ⟨-, -, h⟩ := compile_append ha hfinal hflag
  exact ⟨ha, hfinal, hflag, h _ hb⟩

end Logline.Pattern
