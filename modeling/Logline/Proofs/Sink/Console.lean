import Logline.Proofs.Output.Memory
import Logline.Sink.Console

/-!
# Consoles with colours and without

With the switch for colours off, a console with colours does what one without does, although it writes the text
at once and the other piece by piece. With the switch on, the colours hide nothing: what is written tells the
text, and ends as a line does.
-/

namespace Logline.Sink

open Output

/-! ## Starting again after resets -/

theorem restarted_reset (start r : List Char) :
    restarted start (resetSequence ++ r) = resetSequence ++ (start ++ restarted start r) := by
  rw [← List.append_assoc]
  exact restarted.eq_1 start r

theorem restarted_cons (start : List Char) {c : Char} {r : List Char} (h : ¬ resetSequence <+: c :: r) :
    restarted start (c :: r) = c :: restarted start r := by
  refine restarted.eq_2 start c r fun r' hc hr => h ?_
  subst hc hr
  exact ⟨r', rfl⟩

/-- Escapes come from escapes: any other character stands where it stood. -/
theorem exists_of_restarted_eq_cons {start s out : List Char} {c : Char} (hc : c ≠ '\x1b')
    (h : restarted start s = c :: out) : ∃ r, s = c :: r ∧ restarted start r = out := by
  cases s with
  | nil => cases h
  | cons c' r =>
    by_cases hreset : resetSequence <+: c' :: r
    · obtain ⟨r', hr'⟩ := hreset
      rw [← hr', restarted_reset] at h
      exact absurd (List.cons.inj h).1.symm hc
    · rw [restarted_cons start hreset] at h
      obtain ⟨rfl, hout⟩ := List.cons.inj h
      exact ⟨r, rfl, hout⟩

/-- No reset is made up. -/
theorem reset_isPrefix_of_restarted {start s : List Char} (h : resetSequence <+: restarted start s) :
    resetSequence <+: s := by
  obtain ⟨out, hout⟩ := h
  cases s with
  | nil => cases hout
  | cons c r =>
    by_contra hreset
    rw [restarted_cons start hreset] at hout
    obtain ⟨rfl, hrest⟩ := List.cons.inj hout
    obtain ⟨r₁, hr₁, hrest₁⟩ := exists_of_restarted_eq_cons (by decide) hrest.symm
    obtain ⟨r₂, hr₂, hrest₂⟩ := exists_of_restarted_eq_cons (by decide) hrest₁
    obtain ⟨r₃, hr₃, -⟩ := exists_of_restarted_eq_cons (by decide) hrest₂
    exact hreset ⟨r₃, by rw [hr₁, hr₂, hr₃]; rfl⟩

theorem isPrefix_restarted_iff (start : List Char) {s : List Char} :
    resetSequence <+: restarted start s ↔ resetSequence <+: s := by
  refine ⟨reset_isPrefix_of_restarted, ?_⟩
  rintro ⟨r, rfl⟩
  rw [restarted_reset]
  exact List.prefix_append _ _

theorem restarted_injective (start : List Char) {a b : List Char} (h : restarted start a = restarted start b) :
    a = b := by
  -- a reset stands in front of `a` if and only if one stands in front of `b`
  induction a using restarted.induct generalizing b with
  | case1 r ih =>
    have ha : restarted start (resetSequence ++ r) = restarted start b := h
    obtain ⟨r', rfl⟩ : resetSequence <+: b := by
      rw [← isPrefix_restarted_iff start, ← ha, isPrefix_restarted_iff start]
      exact List.prefix_append _ _
    rw [restarted_reset, restarted_reset, List.append_cancel_left_eq, List.append_cancel_left_eq] at ha
    exact congrArg (resetSequence ++ ·) (ih ha)
  | case2 c r hne ih =>
    have hreset : ¬ resetSequence <+: c :: r := by
      rintro ⟨r', hr'⟩
      obtain ⟨rfl, rfl⟩ := List.cons.inj hr'
      exact hne r' rfl rfl
    have hreset' : ¬ resetSequence <+: b := by
      rwa [← isPrefix_restarted_iff start, ← h, isPrefix_restarted_iff start]
    rw [restarted_cons start hreset] at h
    cases b with
    | nil => cases h
    | cons c' r' =>
      rw [restarted_cons start hreset'] at h
      obtain ⟨rfl, hr⟩ := List.cons.inj h
      rw [ih hr]
  | case3 =>
    cases b with
    | nil => rfl
    | cons c r =>
      by_cases hreset : resetSequence <+: c :: r
      · obtain ⟨r', hr'⟩ := hreset
        rw [← hr', restarted_reset] at h
        cases h
      · rw [restarted_cons start hreset] at h
        cases h

/-! ## Newlines at the end -/

theorem body_append_newlines {s : List Char} (hs : s.getLast? ≠ some '\n') (k : Nat) :
    body (s ++ List.replicate k '\n') = s := by
  have hbody : ∀ s, body s = s.rdropWhile (· == '\n') := fun _ => rfl
  induction k with
  | zero =>
    rw [List.replicate_zero, List.append_nil, hbody, List.rdropWhile_eq_self_iff]
    intro hne hlast
    exact hs (by rw [List.getLast?_eq_some_getLast hne, eq_of_beq hlast])
  | succ k ih =>
    rw [List.replicate_succ', ← List.append_assoc, hbody, List.rdropWhile_concat_pos _ _ _ (by rfl)]
    exact ih

theorem getLast?_body (s : List Char) : (body s).getLast? ≠ some '\n' := by
  intro hlast
  have hne : body s ≠ [] := by
    intro hnil
    rw [hnil] at hlast
    cases hlast
  have hnot := List.rdropWhile_last_not (· == '\n') s hne
  rw [List.getLast?_eq_some_getLast hne, Option.some.injEq] at hlast
  exact hnot (beq_iff_eq.mpr hlast)

theorem tail_append_newlines {s : List Char} (hs : s.getLast? ≠ some '\n') (k : Nat) :
    tail (s ++ List.replicate k '\n') = List.replicate k '\n' := by
  have h := body_append_tail (s ++ List.replicate k '\n')
  rwa [body_append_newlines hs, List.append_cancel_left_eq] at h

/-! ## Coloured text -/

def painted (c : Colour) (s : List Char) : List Char :=
  startSequence c ++ restarted (startSequence c) s ++ resetSequence

theorem getLast?_painted (c : Colour) (s : List Char) : (painted c s).getLast? ≠ some '\n' := by
  have hlast : (painted c s).getLast? = some 'm' := List.getLast?_append_of_ne_nil _ (by decide)
  rw [hlast]
  decide

theorem painted_injective {c : Colour} {a b : List Char} (h : painted c a = painted c b) : a = b := by
  unfold painted at h
  rw [List.append_cancel_right_eq, List.append_cancel_left_eq] at h
  exact restarted_injective _ h

theorem toList_coloured (c : Colour) (text : String) : (coloured c text).toList =
    painted c (body text.toList) ++ List.replicate (tail text.toList).length '\n' := by
  rw [← tail_eq_replicate]
  exact String.toList_ofList

theorem coloured_injective {c : Colour} {a b : String} (h : coloured c a = coloured c b) : a = b := by
  have hlist : (coloured c a).toList = (coloured c b).toList := congrArg String.toList h
  rw [toList_coloured, toList_coloured] at hlist
  have hbody := congrArg body hlist
  have htail := congrArg tail hlist
  rw [body_append_newlines (getLast?_painted _ _), body_append_newlines (getLast?_painted _ _)] at hbody
  rw [tail_append_newlines (getLast?_painted _ _), tail_append_newlines (getLast?_painted _ _),
    ← tail_eq_replicate, ← tail_eq_replicate] at htail
  rw [← String.toList_inj, ← body_append_tail a.toList, ← body_append_tail b.toList, painted_injective hbody, htail]

/-! ## Consoles -/

namespace Console

variable (o : Outlet) (f : Formatter) (loggerName : String) (level : Level) (e : Event)

theorem joined_pieces_eq (c : Console) : joined ((c.pieces false f loggerName level e).map String.toUTF8) =
    (f.format loggerName level e).toUTF8 := by
  unfold pieces
  split
  · exact joined_toUTF8 [f.format loggerName level e]
  · exact joined_toUTF8 _

/-- Without colours switched on it does not matter whether a console has them. -/
theorem write_of_not_ansi (c : Console) {h : Host} (hoff : h.ansi = false) :
    c.write f loggerName level e h =
      h.onOutlet c.outlet (deliver [(f.format loggerName level e).toUTF8]) := by
  have hdeliver : (deliver ((c.pieces false f loggerName level e).map String.toUTF8) : Memory → _) =
      deliver [(f.format loggerName level e).toUTF8] := by
    funext m
    rw [Memory.deliver_eq, Memory.deliver_eq, joined_pieces_eq, joined_cons, joined_nil, ByteArray.append_empty]
  rw [write, hoff, hdeliver]

theorem write_of_ansi {h : Host} (hon : h.ansi = true) (hroom : (h.outlet o).limit = none)
    (hflush : (h.outlet o).flushFails = false) :
    Console.write { outlet := o, colours := true } f loggerName level e h =
      (.ok (), h.setOutlet o (((h.outlet o).taking
        (coloured level.colour (f.format loggerName level e)).toUTF8).flushed 1)) := by
  have hpieces : Console.pieces { outlet := o, colours := true } true f loggerName level e =
      [coloured level.colour (f.format loggerName level e)] := rfl
  have hfit : ∀ bytes, fitting (h.outlet o).left bytes = bytes := by simp [Memory.left, hroom, fitting]
  rw [write, hon, hpieces, Host.onOutlet, Memory.deliver_eq, if_pos (hfit _), hflush, joined_toUTF8]
  simp [String.join_cons]

end Console

/-- With the switch for colours off, a console with colours does all that one without does: the same bytes go
out, whatever the writer has room for, with the same outcome and as many flushes. With the switch on, and a
writer that takes everything, what goes out ends in a reset and the newlines at the end of the text, and no
two texts of a level look the same. -/
theorem coloured_beside_plain (o : Outlet) (level : Level) :
    (∀ f loggerName e h, h.ansi = false →
      Console.write { outlet := o, colours := true } f loggerName level e h =
        Console.write { outlet := o, colours := false } f loggerName level e h) ∧
    (∀ f loggerName e h, h.ansi = true → (h.outlet o).limit = none → (h.outlet o).flushFails = false →
      let sent := (coloured level.colour (f.format loggerName level e)).toUTF8
      Console.write { outlet := o, colours := true } f loggerName level e h =
        (.ok (), h.setOutlet o (((h.outlet o).taking sent).flushed 1))) ∧
    (∀ text : String, ∃ front body k, text.toList = body ++ List.replicate k '\n' ∧ body.getLast? ≠ some '\n' ∧
      coloured level.colour text = String.ofList (front ++ resetSequence ++ List.replicate k '\n')) ∧
    ∀ a b, (coloured level.colour a).toUTF8 = (coloured level.colour b).toUTF8 → a = b := by
  refine ⟨fun f loggerName e h hoff => ?_, fun f loggerName e h hon hroom hflush => ?_, fun text => ?_,
    fun a b hbytes => ?_⟩
  · rw [Console.write_of_not_ansi _ _ _ _ _ hoff, Console.write_of_not_ansi _ _ _ _ _ hoff]
  · exact Console.write_of_ansi o f loggerName level e hon hroom hflush
  · let start := startSequence level.colour
    refine ⟨start ++ restarted start (body text.toList), body text.toList, (tail text.toList).length, ?_,
      getLast?_body _, ?_⟩
    · rw [← tail_eq_replicate, body_append_tail]
    · rw [← String.toList_inj, toList_coloured, painted, String.toList_ofList]
  · exact coloured_injective (String.toByteArray_inj.mp hbytes)

/-- A memory that is full after a byte, one that takes everything, and a text that is a reset itself. -/
theorem coloured_beside_plain_reset :
    let e : Event := { fileName := "f", line := 1, elapsed := 0, threadId := 1, fiberId := 0, time := 0, content := "x" }
    let f : Formatter := ⟨"%m%n", [.message, .newLine]⟩
    let full : Host := { memories := #[{ limit := some 1 }], ansi := false }
    let roomy : Host := { memories := #[{}] }
    Console.write { outlet := .memory 0, colours := true } f "l" .error e full =
        Console.write { outlet := .memory 0, colours := false } f "l" .error e full ∧
      Console.write { outlet := .memory 0, colours := true } f "l" .error e roomy = (.ok (),
        roomy.setOutlet (.memory 0) ((({} : Memory).taking (coloured .red "x\n").toUTF8).flushed 1)) ∧
      (coloured .red "").toUTF8 ≠ (coloured .red "\x1b[0m").toUTF8 := by
  intro e f full roomy
  obtain ⟨hplain, hcoloured, -, hinjective⟩ := coloured_beside_plain (.memory 0) .error
  have htext : f.format "l" .error e = "x\n" := by decide +kernel
  refine ⟨hplain f "l" e full rfl, ?_, fun h => ?_⟩
  · rw [← htext]
    exact hcoloured f "l" e roomy rfl rfl rfl
  · exact absurd (hinjective "" "\x1b[0m" h) (by decide)

end Logline.Sink
