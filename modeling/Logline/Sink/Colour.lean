import Logline.Level

/-!
# Coloured text

Text goes between a sequence that starts the colour and one that resets it. A reset inside the text
is followed by the start again, and the newlines at the end of the text stay outside.
-/

namespace Logline.Sink

def resetSequence : List Char := ['\x1b', '[', '0', 'm']

def startSequence (c : Colour) : List Char :=
  ['\x1b', '['] ++ c.code.toList ++ ['m']

/-- Starts again after every reset. -/
def restarted (start : List Char) : List Char → List Char
  | '\x1b' :: '[' :: '0' :: 'm' :: r => resetSequence ++ start ++ restarted start r
  | c :: r => c :: restarted start r
  | [] => []

def body (s : List Char) : List Char :=
  (s.reverse.dropWhile (· == '\n')).reverse

def tail (s : List Char) : List Char :=
  s.reverse.takeWhile (· == '\n')

theorem tail_eq_replicate (s : List Char) : tail s = List.replicate (tail s).length '\n' :=
  List.eq_replicate_iff.2 ⟨rfl, fun c hc => by simpa using List.all_eq_true.1 List.all_takeWhile c hc⟩

theorem body_append_tail (s : List Char) : body s ++ tail s = s := by
  have h : tail s = (tail s).reverse := by rw [tail_eq_replicate, List.reverse_replicate]
  rw [h]
  simp [body, tail, ← List.reverse_append]

def coloured (c : Colour) (text : String) : String :=
  let s := text.toList
  String.ofList (startSequence c ++ restarted (startSequence c) (body s) ++ resetSequence ++ tail s)

end Logline.Sink
