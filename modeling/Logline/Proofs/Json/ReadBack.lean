import Mathlib.Data.List.Forall2
import Logline.Json.Kind.FromText
import Logline.Json.Printer

/-!
# Reading what was printed

A reader takes a printed value off the text whatever blanks stand before it and whatever comes after it. The
laws are one for each way of printing: strings character by character, lists and objects part by part. A
record is read back through its draft, which each entry fills a little further.
-/

namespace Logline.Json

/-! ## Readers -/

section
variable {α β : Type}

theorem bind_eq_of_eq_ok {m : Reader α} {s s' : List Char} {x : α} (h : m s = .ok (x, s')) (f : α → Reader β) :
    (m >>= f) s = f x s' := by
  show (m s >>= fun p => f p.1 p.2) = _
  rw [h]
  rfl

theorem map_eq_of_eq_ok {m : Reader α} {s s' : List Char} {x : α} (h : m s = .ok (x, s')) (f : α → β) :
    (f <$> m) s = .ok (f x, s') := by
  show (m s >>= fun p => pure (f p.1, p.2)) = _
  rw [h]
  rfl

end

theorem advance_cons (c : Char) (r : List Char) : advance (c :: r) = .ok ((), r) := rfl

def Blank (gap : List Char) : Prop :=
  ∀ c ∈ gap, isBlank c = true

theorem blank_nil : Blank [] := nofun

theorem blank_space : Blank [' '] := by
  simp [Blank, isBlank]

theorem blank_newLine (depth : Nat) : Blank (newLine depth) := by
  intro c hc
  rcases List.mem_cons.mp hc with rfl | hc
  · rfl
  · rw [(List.mem_replicate.mp hc).2]
    rfl

section
variable {gap : List Char} (hgap : Blank gap) {c : Char} (hc : isBlank c = false) (r : List Char)
include hgap hc

theorem dropWhile_gap : (gap ++ c :: r).dropWhile isBlank = c :: r := by
  rw [List.dropWhile_append_of_pos hgap, List.dropWhile_cons_of_neg (by simp [hc])]

theorem peek_gap (atEnd : Fault) : peek atEnd (gap ++ c :: r) = .ok (c, c :: r) := by
  rw [peek, dropWhile_gap hgap hc]

end

/-! ## Values -/

def Begins (text : List Char) : Prop :=
  ∃ c r, text = c :: r ∧ (c = '"' ∨ c = '[' ∨ c = '{')

theorem not_isBlank_of_begins {c : Char} (h : c = '"' ∨ c = '[' ∨ c = '{') : isBlank c = false := by
  rcases h with rfl | rfl | rfl <;> rfl

/-- The reader takes the text, and of what is around it only the blanks before. -/
structure ReadsBack {α : Type} (reader : Reader α) (text : List Char) (x : α) : Prop where
  begins : Begins text
  takes : ∀ gap rest, Blank gap → reader (gap ++ (text ++ rest)) = .ok (x, rest)

theorem ReadsBack.map {α β : Type} {reader : Reader α} {text : List Char} {x : α} (h : ReadsBack reader text x)
    (f : α → β) : ReadsBack (f <$> reader) text (f x) :=
  ⟨h.begins, fun gap rest hgap => map_eq_of_eq_ok (h.takes gap rest hgap) f⟩

/-! ## Strings -/

theorem hexValue?_hexDigit {d : Nat} (h : d < 16) : hexValue? (Text.hexDigit d) = some d := by
  have hall : ∀ d : Fin 16, hexValue? (Text.hexDigit d) = some d.val := by decide
  exact hall ⟨d, h⟩

/-- An escape of one character reads as that character. -/
theorem escape_numbered {c : Char} (h : c.toNat < 0x20) (rest : List Char) :
    escape ('u' :: '0' :: '0' :: Text.hexDigit (c.toNat / 16) :: Text.hexDigit (c.toNat % 16) :: rest) =
      .ok (c, rest) := by
  have hhex : hexFour ('0' :: '0' :: Text.hexDigit (c.toNat / 16) :: Text.hexDigit (c.toNat % 16) :: rest) =
      .ok (c.toNat, rest) := by
    have hzero : hexValue? '0' = some 0 := rfl
    have hhigh := hexValue?_hexDigit (d := c.toNat / 16) (by omega)
    have hlow := hexValue?_hexDigit (d := c.toNat % 16) (by omega)
    simp [hexFour, List.mapM_cons, hzero, hhigh, hlow]
    omega
  have htrailing : isTrailing c.toNat = false := by simp [isTrailing]; omega
  have hleading : isLeading c.toNat = false := by simp [isLeading]; omega
  simp [escape, unicodeEscape, hhex, htrailing, hleading, bind, Except.bind, Char.ofNat_toNat]

section
variable {c : Char} {s r cs rest : List Char} (hr : stringBody r = .ok (cs, rest))
include hr

theorem stringBody_escape (h : escape s = .ok (c, r)) : stringBody ('\\' :: s) = .ok (c :: cs, rest) := by
  rw [stringBody]
  split
  · next e he => rw [h] at he; cases he
  · next d t he =>
    rw [h] at he
    cases he
    rw [hr]

theorem stringBody_plain (hquote : c ≠ '"') (hslash : c ≠ '\\') (hc : ¬ c.toNat < 0x20) :
    stringBody (c :: r) = .ok (c :: cs, rest) := by
  rw [stringBody.eq_4 c r hquote hslash, if_neg hc, hr]

theorem stringBody_escaped (c : Char) : stringBody (escaped c ++ r) = .ok (c :: cs, rest) := by
  unfold escaped
  split
  · exact stringBody_escape hr rfl
  · exact stringBody_escape hr rfl
  · exact stringBody_escape hr rfl
  · exact stringBody_escape hr rfl
  · exact stringBody_escape hr rfl
  · exact stringBody_escape hr rfl
  · exact stringBody_escape hr rfl
  · next hquote hslash _ _ _ _ _ =>
    split
    · next hc => exact stringBody_escape hr (escape_numbered hc r)
    · next hc => exact stringBody_plain hr hquote hslash hc

end

theorem stringBody_flatMap_escaped (s rest : List Char) : stringBody (s.flatMap escaped ++ '"' :: rest) = .ok (s, rest) := by
  induction s with
  | nil => rw [List.flatMap_nil, List.nil_append, stringBody]
  | cons c s ih =>
    rw [List.flatMap_cons, List.append_assoc]
    exact stringBody_escaped ih c

theorem stringLiteral_stringText (s : String) (rest : List Char) :
    stringLiteral (stringText s ++ rest) = .ok (s, rest) := by
  have hbody := stringBody_flatMap_escaped s.toList rest
  simp only [stringLiteral, stringText, List.cons_append, List.append_assoc, List.tail_cons, List.nil_append, hbody,
    String.ofList_toList]

theorem begins_stringText (s : String) : Begins (stringText s) :=
  ⟨'"', _, rfl, .inl rfl⟩

theorem peek_stringText {gap : List Char} (hgap : Blank gap) (s : String) (rest : List Char) (atEnd : Fault) :
    peek atEnd (gap ++ (stringText s ++ rest)) = .ok ('"', stringText s ++ rest) :=
  peek_gap hgap rfl _ atEnd

namespace FromText

theorem readsBack_string (expected s : String) : ReadsBack (string expected) (stringText s) s where
  begins := begins_stringText s
  takes gap rest hgap := by
    rw [string, bind_eq_of_eq_ok (peek_stringText hgap s rest _)]
    exact stringLiteral_stringText s rest

theorem readsBack_optional {α : Type} {value : Reader α} {text : List Char} {x : α} (h : ReadsBack value text x) :
    ReadsBack (optional value) text (some x) where
  begins := h.begins
  takes gap rest hgap := by
    obtain ⟨c, r, rfl, hc⟩ := h.begins
    have hvalue := map_eq_of_eq_ok (h.takes [] rest blank_nil) some
    rw [optional, List.cons_append, dropWhile_gap hgap (not_isBlank_of_begins hc)]
    split
    · next heq =>
      obtain ⟨rfl, -⟩ := List.cons.inj heq
      simp at hc
    · next heq => exact hvalue

theorem readsBack_variant {α : Type} {variants : List (String × α)} {name : String} {x : α}
    (h : variants.lookup name = some x) : ReadsBack (variant variants) (stringText name) x where
  begins := begins_stringText name
  takes gap rest hgap := by
    have hchoose : choose variants name = .ok x := by rw [choose, h]
    rw [variant, bind_eq_of_eq_ok (peek_stringText hgap name rest _)]
    show (stringLiteral >>= fun name => StateT.lift (choose variants name)) _ = _
    rw [bind_eq_of_eq_ok (stringLiteral_stringText name rest), hchoose]
    rfl

end FromText

/-! ## Lists -/

def separator (first : Bool) : List Char :=
  if first then [] else [',']

theorem lines_cons (depth : Nat) (p : List Char) (ps : List (List Char)) : lines depth (p :: ps) =
    newLine depth ++ (p ++ match ps with | [] => [] | _ => ',' :: lines depth ps) := by
  cases ps <;> simp [lines]

theorem nextElement_value {gap : List Char} (hgap : Blank gap) (first : Bool) {text : List Char} (h : Begins text)
    (rest : List Char) :
    nextElement first (separator first ++ (gap ++ (text ++ rest))) = .ok (true, text ++ rest) := by
  obtain ⟨c, r, rfl, hc⟩ := h
  have hpeek : ∀ atEnd, peek atEnd (gap ++ (c :: r ++ rest)) = .ok (c, c :: r ++ rest) :=
    peek_gap hgap (not_isBlank_of_begins hc) (r ++ rest)
  have hne : c ≠ ']' := by rcases hc with rfl | rfl | rfl <;> decide
  cases first with
  | true =>
    show (peek .endInList >>= _) (gap ++ (c :: r ++ rest)) = _
    rw [bind_eq_of_eq_ok (hpeek _)]
    split
    · exact absurd rfl hne
    · rfl
  | false =>
    have hcomma : peek .endInList (',' :: (gap ++ (c :: r ++ rest))) = .ok (',', ',' :: (gap ++ (c :: r ++ rest))) :=
      peek_gap blank_nil rfl _ _
    show (peek .endInList >>= _) (',' :: (gap ++ (c :: r ++ rest))) = _
    rw [bind_eq_of_eq_ok hcomma]
    show (advance >>= fun _ => peek .endInValue >>= _) (',' :: (gap ++ (c :: r ++ rest))) = _
    rw [bind_eq_of_eq_ok (advance_cons _ _), bind_eq_of_eq_ok (hpeek _)]
    split
    · exact absurd rfl hne
    · rfl

theorem nextElement_close {gap : List Char} (hgap : Blank gap) (first : Bool) (rest : List Char) :
    nextElement first (gap ++ ']' :: rest) = .ok (false, ']' :: rest) := by
  rw [nextElement, bind_eq_of_eq_ok (peek_gap hgap rfl rest _)]
  rfl

section
variable {α : Type} {element : Reader α} {parts : List (List Char)} {xs : List α}

/-- From the first part or from a comma on. -/
theorem elements_lines (h : List.Forall₂ (ReadsBack element) parts xs) (hne : parts ≠ []) {depth n : Nat}
    (hn : parts.length < n) (first : Bool) {gap : List Char} (hgap : Blank gap) (rest : List Char) :
    elements element n first (separator first ++ (lines depth parts ++ (gap ++ ']' :: rest))) =
      .ok (xs, ']' :: rest) := by
  induction h generalizing n first with
  | nil => exact absurd rfl hne
  | @cons p x ps xs hp hps ih =>
    obtain ⟨n, rfl⟩ : ∃ m, n = m + 1 := ⟨n - 1, by simp only [List.length_cons] at hn; omega⟩
    have hn : ps.length < n := by simpa using hn
    have hnext := nextElement_value (blank_newLine depth) first hp.begins
    have htake : ∀ r, element (p ++ r) = .ok (x, r) := fun r => hp.takes [] r blank_nil
    rw [lines_cons, elements]
    simp only [List.append_assoc]
    rw [bind_eq_of_eq_ok (hnext _)]
    simp only [if_true]
    rw [bind_eq_of_eq_ok (htake _)]
    cases hps with
    | nil =>
      obtain ⟨m, rfl⟩ : ∃ m, n = m + 1 := ⟨n - 1, by simp at hn; omega⟩
      have hend : elements element (m + 1) false (gap ++ ']' :: rest) = .ok ([], ']' :: rest) := by
        rw [elements, bind_eq_of_eq_ok (nextElement_close hgap false rest)]
        rfl
      rw [List.nil_append, bind_eq_of_eq_ok hend]
      rfl
    | cons hq hqs =>
      exact bind_eq_of_eq_ok (ih (by simp) hn false) _

theorem length_le_lines (depth : Nat) (parts : List (List Char)) : parts.length ≤ (lines depth parts).length := by
  induction parts with
  | nil => exact Nat.le_refl _
  | cons p ps ih =>
    rw [lines_cons]
    cases ps with
    | nil => simp [newLine]
    | cons q qs => simp only [List.length_append, List.length_cons] at ih ⊢; omega

end

def inside (depth : Nat) (parts : List (List Char)) : List Char :=
  if parts = [] then [] else lines (depth + 1) parts ++ newLine depth

theorem block_eq (first last : Char) (depth : Nat) (parts : List (List Char)) :
    block first last depth parts = first :: (inside depth parts ++ [last]) := by
  cases parts <;> simp [block, inside]

theorem length_le_inside (depth : Nat) (parts : List (List Char)) : parts.length ≤ (inside depth parts).length := by
  have hlines := length_le_lines (depth + 1) parts
  unfold inside
  split
  · next h => simp [h]
  · simp only [List.length_append]; omega

section
variable {α : Type} {element : Reader α} {parts : List (List Char)} {xs : List α}

theorem elements_inside (h : List.Forall₂ (ReadsBack element) parts xs) (depth : Nat) {n : Nat} (hn : parts.length < n)
    (rest : List Char) : elements element n true (inside depth parts ++ ']' :: rest) = .ok (xs, ']' :: rest) := by
  unfold inside
  split
  · next hnil =>
    subst hnil
    cases h
    obtain ⟨n, rfl⟩ : ∃ m, n = m + 1 := ⟨n - 1, by omega⟩
    rw [elements, bind_eq_of_eq_ok (nextElement_close blank_nil true rest)]
    rfl
  · next hne =>
    rw [List.append_assoc]
    exact elements_lines h hne hn true (blank_newLine depth) rest

theorem endList_close (rest : List Char) : endList (']' :: rest) = .ok ((), rest) := by
  have hpeek : peek .endInList (']' :: rest) = .ok (']', ']' :: rest) := peek_gap blank_nil rfl rest _
  rw [endList, bind_eq_of_eq_ok hpeek]
  rfl

theorem FromText.readsBack_sequence (h : List.Forall₂ (ReadsBack element) parts xs) (depth : Nat) :
    ReadsBack (sequence element) (listText depth parts) xs where
  begins := ⟨'[', _, block_eq .., .inr (.inl rfl)⟩
  takes gap rest hgap := by
    have hlength := length_le_inside depth parts
    have helements : elements element ((inside depth parts ++ ']' :: rest).length + 1) true
        (inside depth parts ++ ']' :: rest) = _ := elements_inside h depth (by simp; omega) rest
    rw [listText, block_eq, List.cons_append, List.append_assoc, sequence,
      bind_eq_of_eq_ok (peek_gap hgap rfl _ _)]
    show (advance >>= fun _ => _) _ = _
    rw [bind_eq_of_eq_ok (advance_cons _ _)]
    refine (bind_eq_of_eq_ok (m := fun s => elements element (s.length + 1) true s) helements _).trans ?_
    exact bind_eq_of_eq_ok (endList_close rest) _

end

/-! ## Objects -/

theorem nextKey_entry {gap : List Char} (hgap : Blank gap) (first : Bool) (key : String) (rest : List Char) :
    nextKey first (separator first ++ (gap ++ (stringText key ++ rest))) = .ok (some key, rest) := by
  have hliteral := map_eq_of_eq_ok (stringLiteral_stringText key rest) some
  cases first with
  | true =>
    show (peek .endInObject >>= _) (gap ++ (stringText key ++ rest)) = _
    rw [bind_eq_of_eq_ok (peek_stringText hgap key rest _)]
    exact hliteral
  | false =>
    have hcomma : peek .endInObject (',' :: (gap ++ (stringText key ++ rest))) =
        .ok (',', ',' :: (gap ++ (stringText key ++ rest))) := peek_gap blank_nil rfl _ _
    show (peek .endInObject >>= _) (',' :: (gap ++ (stringText key ++ rest))) = _
    rw [bind_eq_of_eq_ok hcomma]
    show (advance >>= fun _ => peek .endInValue >>= _) (',' :: (gap ++ (stringText key ++ rest))) = _
    rw [bind_eq_of_eq_ok (advance_cons _ _), bind_eq_of_eq_ok (peek_stringText hgap key rest _)]
    exact hliteral

theorem nextKey_close {gap : List Char} (hgap : Blank gap) (first : Bool) (rest : List Char) :
    nextKey first (gap ++ '}' :: rest) = .ok (none, '}' :: rest) := by
  rw [nextKey, bind_eq_of_eq_ok (peek_gap hgap rfl rest _)]
  rfl

theorem colon_cons (rest : List Char) : colon (':' :: rest) = .ok ((), rest) := by
  have hpeek : peek .endInObject (':' :: rest) = .ok (':', ':' :: rest) := peek_gap blank_nil rfl rest _
  rw [colon, bind_eq_of_eq_ok hpeek]
  rfl

theorem endObject_close (rest : List Char) : endObject ('}' :: rest) = .ok ((), rest) := by
  have hpeek : peek .endInObject ('}' :: rest) = .ok ('}', '}' :: rest) := peek_gap blank_nil rfl rest _
  rw [endObject, bind_eq_of_eq_ok hpeek]
  rfl

section
variable {δ α : Type} {shape : Shape δ α}

inductive Fills (shape : Shape δ α) : δ → List (String × List Char) → δ → Prop
  | nil (draft : δ) : Fills shape draft [] draft
  | cons {draft draft' filled : δ} {key : String} {text : List Char} {entries : List (String × List Char)}
    {field : Field δ} (hfield : shape.field? key = some field) (hset : field.isSet draft = false)
    (hread : ReadsBack (field.kind draft).read text draft') (hentries : Fills shape draft' entries filled) :
    Fills shape draft ((key, text) :: entries) filled

variable {draft filled : δ} {es : List (String × List Char)}

theorem Fills.append {draft' : δ} {fs : List (String × List Char)} (h : Fills shape draft es draft')
    (h' : Fills shape draft' fs filled) : Fills shape draft (es ++ fs) filled := by
  induction h with
  | nil => exact h'
  | cons hfield hset hread _ ih => exact .cons hfield hset hread (ih h')

namespace FromText

theorem entries_lines (h : Fills shape draft es filled) (hne : es ≠ []) {depth n : Nat} (hn : es.length < n)
    (first : Bool) {gap : List Char} (hgap : Blank gap) (rest : List Char) :
    entries shape n first draft (separator first ++ (lines depth (es.map entryText) ++ (gap ++ '}' :: rest))) =
      .ok (filled, '}' :: rest) := by
  induction h generalizing n first with
  | nil => exact absurd rfl hne
  | @cons draft draft' filled key text es field hfield hset hread hes ih =>
    obtain ⟨n, rfl⟩ : ∃ m, n = m + 1 := ⟨n - 1, by simp only [List.length_cons] at hn; omega⟩
    have hn : es.length < n := by simpa using hn
    have hkey := nextKey_entry (blank_newLine depth) first key
    have hread := fun r => hread.takes [' '] r blank_space
    rw [List.map_cons, lines_cons, entries, entryText]
    simp only [List.append_assoc]
    rw [bind_eq_of_eq_ok (hkey _)]
    simp only [hfield, hset, Bool.false_eq_true, if_false, List.cons_append, List.nil_append]
    rw [bind_eq_of_eq_ok (colon_cons _)]
    refine (bind_eq_of_eq_ok (hread _) _).trans ?_
    cases hes with
    | nil =>
      obtain ⟨m, rfl⟩ : ∃ m, n = m + 1 := ⟨n - 1, by simp at hn; omega⟩
      rw [entries]
      exact bind_eq_of_eq_ok (nextKey_close hgap false rest) _
    | cons hfield' hset' hread' hes' => exact ih (by simp) hn false

theorem entries_inside (h : Fills shape draft es filled) (depth : Nat) {n : Nat} (hn : es.length < n)
    (rest : List Char) : entries shape n true draft (inside depth (es.map entryText) ++ '}' :: rest) =
      .ok (filled, '}' :: rest) := by
  unfold inside
  split
  · next hnil =>
    obtain rfl := List.map_eq_nil_iff.mp hnil
    cases h
    obtain ⟨n, rfl⟩ : ∃ m, n = m + 1 := ⟨n - 1, by omega⟩
    rw [entries]
    exact bind_eq_of_eq_ok (nextKey_close blank_nil true rest) _
  · next hne =>
    rw [List.append_assoc]
    exact entries_lines h (mt List.map_eq_nil_iff.mpr hne) hn true (blank_newLine depth) rest

theorem readsBack_record {x : α} (h : Fills shape shape.empty es filled) (hx : shape.complete filled = .ok x)
    (depth : Nat) : ReadsBack (record shape) (objectText depth es) x where
  begins := ⟨'{', _, block_eq .., .inr (.inr rfl)⟩
  takes gap rest hgap := by
    have hlength := length_le_inside depth (es.map entryText)
    rw [List.length_map] at hlength
    have hentries : entries shape ((inside depth (es.map entryText) ++ '}' :: rest).length + 1) true shape.empty
        (inside depth (es.map entryText) ++ '}' :: rest) = _ := entries_inside h depth (by simp; omega) rest
    have hcomplete : (StateT.lift (shape.complete filled) : Reader α) ('}' :: rest) = .ok (x, '}' :: rest) := by
      rw [hx]
      rfl
    rw [objectText, block_eq, List.cons_append, List.append_assoc, record, bind_eq_of_eq_ok (peek_gap hgap rfl _ _)]
    show (advance >>= fun _ => _) _ = _
    rw [bind_eq_of_eq_ok (advance_cons _ _)]
    refine (bind_eq_of_eq_ok (m := fun s => entries shape (s.length + 1) true shape.empty s) hentries _).trans ?_
    refine (bind_eq_of_eq_ok hcomplete _).trans ?_
    exact bind_eq_of_eq_ok (endObject_close rest) _

end FromText

end

end Logline.Json
