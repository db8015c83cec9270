import Mathlib.Data.List.TakeWhile
import Logline.Pattern.Token

/-!
# The grammar of patterns

Which tokens may stand before which texts, and how a text is read as tokens. A pattern can be read
to its end in one way, or else up to a directive without an end in one way; `scan` finds which.
-/

namespace Logline.Pattern

/-- When a token may stand before a text: a run of text or letters is as long as it can be, and a
brace after a flag of letters opens its argument. -/
inductive Token.StandsBefore : Token → List Char → Prop
  | text {run rest : List Char} : run ≠ [] → '%' ∉ run → (∀ c, rest.head? = some c → c = '%') →
      StandsBefore (.text run) rest
  | percent {rest : List Char} : StandsBefore .percent rest
  | finalPercent : StandsBefore .finalPercent []
  | plain {flag rest : List Char} : flag ≠ [] → (∀ c ∈ flag, c.isAlpha) →
      (∀ c, rest.head? = some c → ¬ c.isAlpha ∧ c ≠ '{') → StandsBefore (.directive flag none) rest
  | argued {flag argument rest : List Char} : (∀ c ∈ flag, c.isAlpha) → '}' ∉ argument →
      StandsBefore (.directive flag (some argument)) rest
  | mark {c : Char} {rest : List Char} : ¬ c.isAlpha → c ≠ '{' → c ≠ '%' → StandsBefore (.mark c) rest

inductive Reads : List Char → List Token → List Char → Prop
  | nil {rest : List Char} : Reads rest [] rest
  | cons {t : Token} {s rest : List Char} {ts : List Token} : t.StandsBefore s → Reads s ts rest →
      Reads (t.spelling ++ s) (t :: ts) rest

def Splits (s : List Char) (ts : List Token) : Prop :=
  Reads s ts []

structure Dangles (flag body rest : List Char) : Prop where
  spelled : rest = '%' :: flag ++ '{' :: body
  letters : ∀ c ∈ flag, c.isAlpha
  unclosed : '}' ∉ body

/-- The tokens of a text up to a directive whose argument does not end. -/
def BreaksOff (s : List Char) (ts : List Token) (flag body : List Char) : Prop :=
  ∃ rest, Reads s ts rest ∧ Dangles flag body rest

/-! ## Runs of characters -/

section
variable {p : Char → Bool} {run rest : List Char}
variable (hrun : ∀ c ∈ run, p c) (hrest : ∀ c, rest.head? = some c → ¬ p c)
include hrun hrest

theorem takeWhile_run : (run ++ rest).takeWhile p = run := by
  rw [List.takeWhile_append_of_pos hrun]
  cases rest with
  | nil => simp
  | cons c r => simp [List.takeWhile_cons_of_neg (hrest c rfl)]

theorem dropWhile_run : (run ++ rest).dropWhile p = rest := by
  rw [List.dropWhile_append_of_pos hrun]
  cases rest with
  | nil => rfl
  | cons c r => exact List.dropWhile_cons_of_neg (hrest c rfl)

end

theorem forall_mem_bne {d : Char} {run : List Char} (h : d ∉ run) : ∀ c ∈ run, (c != d) = true := by
  intro c hc
  rw [bne_iff_ne]
  rintro rfl
  exact h hc

theorem head_dropWhile {p : Char → Bool} {s : List Char} {c : Char} (h : (s.dropWhile p).head? = some c) :
    ¬ p c := by
  have := List.head?_dropWhile_not p s
  rw [h] at this
  simpa using this

/-! ## The first token -/

theorem ne_of_isAlpha {c d : Char} (hc : c.isAlpha) (hd : ¬ d.isAlpha) : c ≠ d := by
  rintro rfl; exact hd hc

theorem dropWhile_letters {flag : List Char} (hf : ∀ c ∈ flag, c.isAlpha) (body : List Char) :
    (flag ++ '{' :: body).takeWhile Char.isAlpha = flag ∧
      (flag ++ '{' :: body).dropWhile Char.isAlpha = '{' :: body := by
  have hb : ∀ c, ('{' :: body).head? = some c → ¬ c.isAlpha := by
    intro c hc; simp only [List.head?_cons, Option.some.injEq] at hc; subst hc; decide
  exact ⟨takeWhile_run hf hb, dropWhile_run hf hb⟩

theorem exists_cons_brace {flag : List Char} (hf : ∀ c ∈ flag, c.isAlpha) (body : List Char) :
    ∃ c r, c ≠ '%' ∧ flag ++ '{' :: body = c :: r := by
  cases flag with
  | nil => exact ⟨'{', body, by decide, rfl⟩
  | cons c f => exact ⟨c, f ++ '{' :: body, ne_of_isAlpha (hf c (by simp)) (by decide), rfl⟩

theorem afterPercent_argued {flag argument : List Char} (hf : ∀ c ∈ flag, c.isAlpha) (ha : '}' ∉ argument)
    (rest : List Char) :
    afterPercent (flag ++ '{' :: (argument ++ '}' :: rest)) = .token (.directive flag (some argument)) rest := by
  have hp := forall_mem_bne ha
  have hq : ∀ c, ('}' :: rest).head? = some c → ¬ (c != '}') = true := fun c hc => by
    simp only [List.head?_cons, Option.some.injEq] at hc; simp [← hc]
  obtain ⟨ht, hd⟩ := dropWhile_letters hf (argument ++ '}' :: rest)
  obtain ⟨c, r, hc, hs⟩ := exists_cons_brace hf (argument ++ '}' :: rest)
  rw [hs] at ht hd ⊢
  rw [afterPercent.eq_3 c r hc, hd, ht]
  simp only [dropWhile_run hp hq, takeWhile_run hp hq]

theorem afterPercent_dangling {flag body : List Char} (hf : ∀ c ∈ flag, c.isAlpha) (hb : '}' ∉ body) :
    afterPercent (flag ++ '{' :: body) = .unclosed flag := by
  have hn : body.dropWhile (· != '}') = [] := by
    rw [List.dropWhile_eq_nil_iff]
    exact forall_mem_bne hb
  obtain ⟨ht, hd⟩ := dropWhile_letters hf body
  obtain ⟨c, r, hc, hs⟩ := exists_cons_brace hf body
  rw [hs] at ht hd ⊢
  rw [afterPercent.eq_3 c r hc, hd, ht]
  simp only [hn]

theorem Token.StandsBefore.beginning {t : Token} {rest : List Char} (h : t.StandsBefore rest) :
    beginning (t.spelling ++ rest) = .token t rest := by
  cases h with
  | @text run _ hne hrun hrest =>
    have hp := forall_mem_bne hrun
    have hq : ∀ c, rest.head? = some c → ¬ (c != '%') = true := fun c hc => by simp [hrest c hc]
    cases run with
    | nil => exact absurd rfl hne
    | cons c r =>
      have hr : ∀ d ∈ r, (d != '%') = true := fun d hd => hp d (List.mem_cons_of_mem c hd)
      have hc : c ≠ '%' := fun e => hrun (by simp [e])
      rw [Token.spelling, List.cons_append, beginning.eq_3 c _ hc, takeWhile_run hr hq, dropWhile_run hr hq]
  | percent => rfl
  | finalPercent => rfl
  | @plain flag _ hne hf hrest =>
    have hq : ∀ c, rest.head? = some c → ¬ c.isAlpha := fun c hc => (hrest c hc).1
    have ht := takeWhile_run hf hq
    have hd := dropWhile_run hf hq
    cases flag with
    | nil => exact absurd rfl hne
    | cons c f =>
      have hc := hf c (by simp)
      have hp := ne_of_isAlpha hc (d := '%') (by decide)
      rw [List.cons_append] at ht hd
      show afterPercent (c :: (f ++ rest)) = _
      rw [afterPercent.eq_3 c _ hp, hd, ht]
      split
      · exact absurd rfl (hrest _ rfl).2
      · simp [hc]
  | @argued flag argument _ hf ha =>
    have hs : (Token.directive flag (some argument)).spelling ++ rest =
        '%' :: (flag ++ '{' :: (argument ++ '}' :: rest)) := by simp [Token.spelling]
    rw [hs]
    exact afterPercent_argued hf ha rest
  | @mark c _ hc hb hp =>
    show afterPercent (c :: rest) = _
    rw [afterPercent.eq_3 c _ hp, List.dropWhile_cons_of_neg hc]
    split
    · rename_i h; exact absurd (List.cons.inj h).1 hb
    · simp [hc]

theorem Dangles.beginning {flag body rest : List Char} (h : Dangles flag body rest) :
    beginning rest = .unclosed flag := by
  obtain ⟨rfl, hf, hb⟩ := h
  exact afterPercent_dangling hf hb

theorem exists_text {c : Char} (hc : c ≠ '%') (r : List Char) :
    ∃ t rest, Token.StandsBefore t rest ∧ c :: r = t.spelling ++ rest := by
  refine ⟨.text (c :: r.takeWhile (· != '%')), r.dropWhile (· != '%'), .text (by simp) ?_ ?_, ?_⟩
  · intro hm
    rcases List.mem_cons.mp hm with h | h
    · exact hc h.symm
    · simpa using List.mem_takeWhile_imp h
  · intro d hd
    simpa using head_dropWhile hd
  · simp [Token.spelling]

theorem exists_directive {c : Char} (hc : c ≠ '%') (r : List Char) :
    (∃ t rest, Token.StandsBefore t rest ∧ '%' :: c :: r = t.spelling ++ rest) ∨
      ∃ flag body, Dangles flag body ('%' :: c :: r) := by
  have hf : ∀ d ∈ (c :: r).takeWhile Char.isAlpha, d.isAlpha := fun d hd => List.mem_takeWhile_imp hd
  have hs : (c :: r).takeWhile Char.isAlpha ++ (c :: r).dropWhile Char.isAlpha = c :: r :=
    List.takeWhile_append_dropWhile
  generalize hflag : (c :: r).takeWhile Char.isAlpha = flag at hf hs
  by_cases hb : ∃ body, (c :: r).dropWhile Char.isAlpha = '{' :: body
  · obtain ⟨body, hb⟩ := hb
    rw [hb] at hs
    by_cases hm : '}' ∈ body
    -- the argument runs to the first closing brace
    · obtain ⟨argument, rest, rfl, ha⟩ := List.eq_append_cons_of_mem hm
      refine .inl ⟨.directive flag (some argument), rest, .argued hf ha, ?_⟩
      simp [Token.spelling, ← hs]
    · exact .inr ⟨flag, body, by simp [← hs], hf, hm⟩
  · by_cases ha : c.isAlpha
    · refine .inl ⟨.directive flag none, (c :: r).dropWhile Char.isAlpha, .plain ?_ hf ?_, ?_⟩
      · rw [← hflag, List.takeWhile_cons_of_pos ha]; simp
      · intro d hd
        refine ⟨head_dropWhile hd, ?_⟩
        rintro rfl
        obtain ⟨body, hbody⟩ := List.head?_eq_some_iff.mp hd
        exact hb ⟨body, hbody⟩
      · rw [Token.spelling, List.cons_append, hs]
    · refine .inl ⟨.mark c, r, .mark ha ?_ hc, rfl⟩
      rintro rfl
      exact hb ⟨r, List.dropWhile_cons_of_neg (by decide)⟩

theorem exists_first (s : List Char) :
    s = [] ∨ (∃ t rest, Token.StandsBefore t rest ∧ s = t.spelling ++ rest) ∨ ∃ flag body, Dangles flag body s := by
  match s with
  | [] => exact .inl rfl
  | c :: r =>
    by_cases hc : c = '%'
    · subst hc
      match r with
      | [] => exact .inr (.inl ⟨.finalPercent, [], .finalPercent, rfl⟩)
      | d :: r =>
        by_cases hd : d = '%'
        · subst hd
          exact .inr (.inl ⟨.percent, r, .percent, rfl⟩)
        · exact .inr (exists_directive hd r)
    · exact .inr (.inl (exists_text hc r))

theorem Token.StandsBefore.spelling_ne_nil {t : Token} {rest : List Char} (h : t.StandsBefore rest) :
    t.spelling ≠ [] := by
  cases h with
  | text hne _ _ => exact hne
  | percent => simp [Token.spelling]
  | finalPercent => simp [Token.spelling]
  | plain _ _ _ => simp [Token.spelling]
  | argued _ _ => simp [Token.spelling]
  | mark _ _ _ => simp [Token.spelling]

/-! ## Readings -/

def spellingOf (ts : List Token) : List Char :=
  ts.flatMap Token.spelling

theorem Reads.eq_append {s rest : List Char} {ts : List Token} (h : Reads s ts rest) :
    s = spellingOf ts ++ rest := by
  induction h with
  | nil => rfl
  | cons _ _ ih => simp [spellingOf, ← List.append_assoc, ih]

def Ended (rest : List Char) : Prop :=
  rest = [] ∨ ∃ flag body, Dangles flag body rest

theorem Ended.beginning_ne {rest : List Char} (h : Ended rest) (t : Token) (s : List Char) :
    beginning rest ≠ .token t s := by
  rcases h with rfl | ⟨flag, body, hd⟩
  · simp [beginning]
  · simp [hd.beginning]

theorem exists_reads (s : List Char) : ∃ ts rest, Reads s ts rest ∧ Ended rest := by
  rcases exists_first s with h | ⟨t, r, ht, h⟩ | h
  · exact ⟨[], s, .nil, .inl h⟩
  · have hlt : r.length < s.length := by
      have := List.length_pos_iff.mpr ht.spelling_ne_nil
      rw [h, List.length_append]; omega
    obtain ⟨ts, rest, hr, hrest⟩ := exists_reads r
    exact ⟨t :: ts, rest, h ▸ .cons ht hr, hrest⟩
  · exact ⟨[], s, .nil, .inr h⟩
termination_by s.length

/-- There is one way to read a text as far as it goes. -/
theorem Reads.unique {s rest rest' : List Char} {ts ts' : List Token} (h : Reads s ts rest)
    (h' : Reads s ts' rest') (hr : Ended rest) (hr' : Ended rest') : ts = ts' ∧ rest = rest' := by
  induction h generalizing ts' with
  | nil =>
    cases h' with
    | nil => exact ⟨rfl, rfl⟩
    | cons ht _ => exact absurd ht.beginning (hr.beginning_ne _ _)
  | cons ht h ih =>
    generalize hs : Token.spelling _ ++ _ = s at h'
    cases h' with
    | nil => exact absurd (hs ▸ ht.beginning) (hr'.beginning_ne _ _)
    | cons ht' h' =>
      -- both readings take the token that `beginning` finds
      have hb := ht.beginning
      rw [hs, ht'.beginning] at hb
      simp only [Beginning.token.injEq] at hb
      obtain ⟨rfl, rfl⟩ := hb
      obtain ⟨rfl, rfl⟩ := ih h' hr
      exact ⟨rfl, rfl⟩

theorem Splits.unique {s : List Char} {ts us : List Token} (h : Splits s ts) (h' : Splits s us) : ts = us :=
  (Reads.unique h h' (.inl rfl) (.inl rfl)).1

theorem Splits.not_breaksOff {s : List Char} {ts us : List Token} {flag body : List Char} (h : Splits s ts) :
    ¬ BreaksOff s us flag body := by
  rintro ⟨rest, h', hd⟩
  obtain ⟨_, rfl⟩ := Reads.unique h h' (.inl rfl) (.inr ⟨flag, body, hd⟩)
  cases hd.spelled

theorem BreaksOff.unique {s : List Char} {ts us : List Token} {flag flag' body body' : List Char}
    (h : BreaksOff s ts flag body) (h' : BreaksOff s us flag' body') : ts = us ∧ flag = flag' ∧ body = body' := by
  obtain ⟨rest, hr, hd⟩ := h
  obtain ⟨rest', hr', hd'⟩ := h'
  obtain ⟨rfl, rfl⟩ := Reads.unique hr hr' (.inr ⟨_, _, hd⟩) (.inr ⟨_, _, hd'⟩)
  have hb := hd.beginning
  rw [hd'.beginning] at hb
  obtain rfl : flag' = flag := by simpa using hb
  have hs := hd.spelled.symm.trans hd'.spelled
  simp only [List.cons_append, List.cons.injEq, List.append_cancel_left_eq, true_and] at hs
  exact ⟨rfl, rfl, hs⟩

theorem exists_splits_or_breaksOff (s : List Char) :
    (∃ ts, Splits s ts) ∨ ∃ ts flag body, BreaksOff s ts flag body := by
  obtain ⟨ts, rest, h, rfl | ⟨flag, body, hd⟩⟩ := exists_reads s
  · exact .inl ⟨ts, h⟩
  · exact .inr ⟨ts, flag, body, rest, h, hd⟩

/-! ## What `scan` finds -/

theorem scan_eq (s : List Char) : scan s =
    match beginning s with
    | .nothing => .ok []
    | .unclosed flag => .error ⟨0, flag⟩
    | .token t rest =>
      match scan rest with
      | .ok ts => .ok (t :: ts)
      | .error u => .error { u with position := Text.byteLength t.spelling + u.position } := by
  rw [scan]
  split
  · next hb => rw [hb]
  · next hb => rw [hb]
  · next rest hb => cases hr : scan rest <;> simp only [hb, hr]

theorem scan_cons {t : Token} {s : List Char} (h : t.StandsBefore s) :
    scan (t.spelling ++ s) =
      match scan s with
      | .ok ts => .ok (t :: ts)
      | .error u => .error { u with position := Text.byteLength t.spelling + u.position } := by
  rw [scan_eq, h.beginning]

theorem Dangles.scan {flag body rest : List Char} (h : Dangles flag body rest) :
    scan rest = .error ⟨0, flag⟩ := by
  rw [scan_eq, h.beginning]

theorem Splits.scan {s : List Char} {ts : List Token} (h : Splits s ts) : scan s = .ok ts := by
  unfold Splits at h
  generalize hr : ([] : List Char) = rest at h
  induction h with
  | nil => subst hr; rw [scan_eq]; rfl
  | cons ht _ ih => rw [scan_cons ht, ih hr]

theorem BreaksOff.scan {s : List Char} {ts : List Token} {flag body : List Char}
    (h : BreaksOff s ts flag body) : scan s = .error ⟨Text.byteLength (spellingOf ts), flag⟩ := by
  obtain ⟨rest, h, hd⟩ := h
  induction h with
  | nil => exact hd.scan
  | cons ht _ ih => rw [scan_cons ht, ih hd]; simp [spellingOf]

theorem scan_eq_ok_iff {s : List Char} {ts : List Token} : scan s = .ok ts ↔ Splits s ts := by
  refine ⟨fun h => ?_, Splits.scan⟩
  rcases exists_splits_or_breaksOff s with ⟨us, hs⟩ | ⟨us, flag, body, hb⟩
  · rw [hs.scan] at h; cases h; exact hs
  · rw [hb.scan] at h; cases h

end Logline.Pattern
