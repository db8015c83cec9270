import Logline.Proofs.Pattern.Concatenation

/-!
# Patterns that break off

What stands before a directive without an end is a pattern of its own, and so is what follows once the
directive has been given an end. Only a closing brace gives it one.
-/

namespace Logline.Pattern

/-! ## Readings and what they leave -/

/-- Of what is left of a text only the first character matters, if there is one. -/
theorem Reads.exchange {s rest rest' : List Char} {ts : List Token} (h : Reads s ts rest) (hne : rest ≠ [])
    (hhead : ∀ c, rest'.head? = some c → rest.head? = some c) : Reads (spellingOf ts ++ rest') ts rest' := by
  induction h with
  | nil => exact .nil
  | @cons t s rest ts ht hs ih =>
    have hspell : spellingOf (t :: ts) ++ rest' = t.spelling ++ (spellingOf ts ++ rest') := by simp [spellingOf]
    rw [hspell]
    refine .cons (ht.of_head? ?_ ?_) (ih hne hhead)
    · rw [hs.eq_append]
      exact List.append_ne_nil_of_right_ne_nil _ hne
    · intro c hc
      rw [hs.eq_append]
      cases hspelled : spellingOf ts with
      | nil =>
        rw [hspelled] at hc
        exact hhead c hc
      | cons d spelled =>
        rw [hspelled] at hc
        exact hc

theorem Reads.trans {s r rest : List Char} {ts us : List Token} (h : Reads s ts r) (h' : Reads r us rest) :
    Reads s (ts ++ us) rest := by
  induction h with
  | nil => exact h'
  | cons ht _ ih => exact .cons ht (ih h')

section
variable {s flag body : List Char} {ts : List Token} (h : BreaksOff s ts flag body)
include h

theorem BreaksOff.letters : ∀ c ∈ flag, c.isAlpha := by
  obtain ⟨rest, -, hd⟩ := h
  exact hd.letters

theorem BreaksOff.unclosed : '}' ∉ body := by
  obtain ⟨rest, -, hd⟩ := h
  exact hd.unclosed

theorem BreaksOff.eq_append : s = spellingOf ts ++ '%' :: flag ++ '{' :: body := by
  obtain ⟨rest, hr, hd⟩ := h
  rw [hr.eq_append, hd.spelled]
  simp

/-- Before the directive all is read as it was, if a sign stands there again or nothing. -/
theorem BreaksOff.reads (rest : List Char) (hhead : ∀ c, rest.head? = some c → c = '%') :
    Reads (spellingOf ts ++ rest) ts rest := by
  obtain ⟨r, hr, hd⟩ := h
  refine hr.exchange (by simp [hd.spelled]) fun c hc => ?_
  rw [hhead c hc, hd.spelled]
  rfl

theorem BreaksOff.splits_before : Splits (spellingOf ts) ts := by
  have hr := h.reads [] (by simp)
  rwa [List.append_nil] at hr

theorem BreaksOff.append {more : List Char} (hm : '}' ∉ more) : BreaksOff (s ++ more) ts flag (body ++ more) := by
  have hd : Dangles flag (body ++ more) ('%' :: flag ++ '{' :: (body ++ more)) :=
    ⟨rfl, h.letters, by simp [h.unclosed, hm]⟩
  refine ⟨_, ?_, hd⟩
  rw [h.eq_append]
  simpa using h.reads ('%' :: flag ++ '{' :: (body ++ more)) (by simp [eq_comm])

theorem BreaksOff.reads_closed {more rest : List Char} {us : List Token} (hm : Reads more us rest) :
    Reads (s ++ '}' :: more) (ts ++ .directive flag (some body) :: us) rest := by
  have hclosed : Reads ((Token.directive flag (some body)).spelling ++ more) _ rest :=
    .cons (.argued h.letters h.unclosed) hm
  have hr := (h.reads _ (by simp [Token.spelling, eq_comm])).trans hclosed
  rw [h.eq_append]
  simpa [Token.spelling] using hr

theorem BreaksOff.spelling_closed (us : List Token) :
    spellingOf (ts ++ .directive flag (some body) :: us) = s ++ '}' :: spellingOf us := by
  rw [h.eq_append]
  simp [spellingOf, Token.spelling]

end

/-! ## Items before and after -/

theorem withLiteral_append (literal : List Char) (is js : List Item) :
    withLiteral literal (is ++ js) = withLiteral literal is ++ js := by
  unfold withLiteral
  split <;> rfl

/-- Text is not joined with what is no text. -/
theorem itemsAfter_append {us : List Token} (hus : ∀ t cs, us.head? = some t → ¬ t.IsText cs) (ts : List Token)
    (literal : List Char) : itemsAfter literal (ts ++ us) = itemsAfter literal ts ++ items us := by
  induction ts generalizing literal with
  | nil => rw [List.nil_append, itemsAfter_not_isText hus, itemsAfter, ← withLiteral_append, List.nil_append, items]
  | cons t ts ih =>
    rw [List.cons_append, itemsAfter, itemsAfter]
    cases t.literal? with
    | some cs => exact ih _
    | none =>
      dsimp only
      rw [ih, ← List.append_assoc, withLiteral_append]

theorem items_append_directive (ts us : List Token) (flag : List Char) (argument : Option (List Char)) :
    items (ts ++ .directive flag argument :: us) =
      items ts ++ ((Item.ofFlag? flag (argument.getD [])).toList ++ items us) := by
  rw [items, itemsAfter_append (by rintro t cs ⟨⟩ ⟨⟩)]
  rfl

theorem ofFlag?_eq_none_iff {flag argument : List Char} : Item.ofFlag? flag argument = none ↔ flag = [] := by
  match flag with
  | [] => simp [Item.ofFlag?]
  | [_] => simp [Item.ofFlag?]
  | _ :: _ :: _ => simp [Item.ofFlag?]

/-! ## Compiling -/

theorem getElem?_toUTF8_percent (u v : String) : (u ++ "%" ++ v).toUTF8[u.utf8ByteSize]? = some '%'.toUInt8 := by
  have hpercent : 0 < "%".utf8ByteSize := by decide
  have hlt : u.utf8ByteSize < (u ++ ("%" ++ v)).toUTF8.size := by simp [hpercent]
  rw [String.append_assoc, getElem?_pos (u ++ ("%" ++ v)).toUTF8 u.utf8ByteSize hlt]
  simp only [String.toUTF8_eq_toByteArray, String.toByteArray_append]
  rw [ByteArray.getElem_append_right (by simp), ByteArray.getElem_append_left (by simp [hpercent])]
  simp only [String.size_toByteArray, Nat.sub_self]
  rfl

theorem toList_closed (p s : String) : p.toList ++ '}' :: s.toList = (p ++ "\x7d" ++ s).toList := by
  simp

theorem exists_breaksOff_of_compile {pattern : String} {e : Error} (h : compile pattern = .error e) :
    ∃ ts flag body, BreaksOff pattern.toList ts flag body := by
  rcases exists_splits_or_breaksOff pattern.toList with ⟨ts, hs⟩ | hb
  · rw [hs.compile] at h
    cases h
  · exact hb

section
variable {p s : String} {ts us : List Token} {flag body : List Char} (h : BreaksOff p.toList ts flag body)
include h

theorem BreaksOff.compile_closed_of_splits (hs : Splits s.toList us) : Pattern.compile (p ++ "\x7d" ++ s) =
    .ok (items ts ++ (Item.ofFlag? flag body).toList ++ items us) := by
  have hclosed : Splits _ _ := h.reads_closed hs
  rw [toList_closed] at hclosed
  rw [hclosed.compile, items_append_directive, List.append_assoc]
  rfl

theorem BreaksOff.compile_closed_of_breaksOff {flag' body' : List Char} (hs : BreaksOff s.toList us flag' body') :
    Pattern.compile (p ++ "\x7d" ++ s) = .error (.patternSyntax (p ++ "\x7d" ++ s)
      (Text.byteLength (spellingOf us) + p.utf8ByteSize + 1)
      ("missing closing '\x7d' for argument of '%" ++ String.ofList flag' ++ "'")) := by
  obtain ⟨rest, hr, hd⟩ := hs
  have hclosed : BreaksOff _ _ flag' body' := ⟨rest, h.reads_closed hr, hd⟩
  rw [toList_closed] at hclosed
  have hposition : Text.byteLength (spellingOf (ts ++ .directive flag (some body) :: us)) =
      Text.byteLength (spellingOf us) + p.utf8ByteSize + 1 := by
    rw [h.spelling_closed, Text.byteLength_append, Text.byteLength_cons, Text.byteLength_toList,
      show Char.utf8Size '}' = 1 from rfl]
    omega
  rw [hclosed.compile, hposition]

end

/-- A pattern that does not compile fails at a sign. What stands before the sign compiles, and a brace
after its flag is not closed. More text without a closing brace leaves the failure as it is. A closing brace
mends it: the directive then has for its argument all that follows the opening brace, and what follows
the closing one compiles, or fails, as it does by itself. -/
theorem compile_closed {p : String} {e : Error} (h : compile p = .error e) :
    ∃ k message u flag body is, e = .patternSyntax p k message ∧
      p = u ++ "%" ++ flag ++ "\x7b" ++ body ∧ u.utf8ByteSize = k ∧ p.toUTF8[k]? = some '%'.toUInt8 ∧
      compile u = .ok is ∧ (∀ c ∈ flag.toList, c.isAlpha) ∧ '{' ∈ p.toList ∧ '}' ∉ body.toList ∧
      (∀ s : String, '}' ∉ s.toList → compile (p ++ s) = .error (.patternSyntax (p ++ s) k message)) ∧
      ∃ repaired : Option Item, (∀ i, repaired = some i ↔ Names flag.toList body.toList i) ∧
        (repaired = none ↔ flag = "") ∧ ∀ s : String,
        ((∃ e, compile (p ++ "\x7d" ++ s) = .error e) ↔ ∃ e, compile s = .error e) ∧
        (∀ e, compile s = .error e → ∃ position message', e = .patternSyntax s position message' ∧
          compile (p ++ "\x7d" ++ s) =
            .error (.patternSyntax (p ++ "\x7d" ++ s) (position + p.utf8ByteSize + 1) message')) ∧
        ∀ js, compile s = .ok js → compile (p ++ "\x7d" ++ s) = .ok (is ++ repaired.toList ++ js) := by
  obtain ⟨ts, flag, body, hb⟩ := exists_breaksOff_of_compile h
  have hp : p = String.ofList (spellingOf ts) ++ "%" ++ String.ofList flag ++ "\x7b" ++ String.ofList body := by
    rw [← String.toList_inj, hb.eq_append]
    simp
  have hsize : (String.ofList (spellingOf ts)).utf8ByteSize = Text.byteLength (spellingOf ts) := by
    rw [← Text.byteLength_toList, String.toList_ofList]
  have hbyte : p.toUTF8[(String.ofList (spellingOf ts)).utf8ByteSize]? = some '%'.toUInt8 := by
    rw [hp, String.append_assoc, String.append_assoc]
    exact getElem?_toUTF8_percent _ _
  have hbefore : Splits (String.ofList (spellingOf ts)).toList ts := by
    rw [String.toList_ofList]
    exact hb.splits_before
  rw [hb.compile] at h
  cases h
  refine ⟨_, _, String.ofList (spellingOf ts), String.ofList flag, String.ofList body, items ts, rfl, hp, hsize,
    hsize ▸ hbyte, hbefore.compile, ?_, ?_, ?_, fun s hs => ?_, Item.ofFlag? flag body, fun i => ?_, ?_, fun s => ?_⟩
  · rw [String.toList_ofList]
    exact hb.letters
  · rw [hb.eq_append]
    simp
  · rw [String.toList_ofList]
    exact hb.unclosed
  · have hmore := hb.append hs
    rw [← String.toList_append] at hmore
    exact hmore.compile
  · rw [String.toList_ofList, String.toList_ofList, names_iff]
  · rw [ofFlag?_eq_none_iff, String.ofList_eq_empty_iff]
  · rcases exists_splits_or_breaksOff s.toList with ⟨us, hs⟩ | ⟨us, flag', body', hs⟩
    · have hc := hb.compile_closed_of_splits hs
      rw [hs.compile, hc]
      exact ⟨by simp, by simp, fun js hjs => by cases hjs; rfl⟩
    · have hc := hb.compile_closed_of_breaksOff hs
      rw [hs.compile, hc]
      exact ⟨by simp, fun e he => by cases he; exact ⟨_, _, rfl, rfl⟩, by simp⟩

/-- A format that a brace closes, or that runs on; the sharp before it has three bytes. -/
theorem compile_closed_time :
    let p := "♯%%%d\x7b%H"
    let message := "missing closing '\x7d' for argument of '%d'"
    compile p = .error (.patternSyntax p 5 message) ∧
      compile (p ++ "[%m") = .error (.patternSyntax (p ++ "[%m") 5 message) ∧
      (∃ message', compile (p ++ "\x7d" ++ "%p\x7b") =
        .error (.patternSyntax (p ++ "\x7d" ++ "%p\x7b") 11 message')) ∧
      ∃ is, compile (p ++ "\x7d" ++ "%m") = .ok (is ++ [.message]) := by
  intro p message
  have hscan : compileChars p.toList = .error ⟨5, ['d']⟩ := by cbv
  have h : compile p = .error (.patternSyntax p 5 message) := by
    rw [compile, hscan]
    rfl
  have hfield : compileChars "%p\x7b".toList = .error ⟨0, ['p']⟩ := by cbv
  have hp : compile "%p\x7b" = .error (.patternSyntax "%p\x7b" 0 (Unclosed.message ⟨0, ['p']⟩)) := by
    rw [compile, hfield]
  have hm : compile "%m" = .ok [.message] := by cbv
  obtain ⟨k, message', u, flag, body, is, he, -, -, -, -, -, -, -, hmore, repaired, -, -, hclosed⟩ := compile_closed h
  cases he
  obtain ⟨-, herror, -⟩ := hclosed "%p\x7b"
  obtain ⟨position, message', he, hc⟩ := herror _ hp
  cases he
  exact ⟨h, hmore "[%m" (by decide), ⟨_, hc⟩, _, (hclosed "%m").2.2 _ hm⟩

end Logline.Pattern
