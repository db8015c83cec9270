import Logline.Json.Fault
import Logline.Text.Length
import Logline.Text.Quoted

/-!
# Reading characters of a document

A reader takes what it reads off the front of the text. Blanks may stand before every value and
every sign; the first fault from the left is the fault of the document.
-/

namespace Logline.Json

/-- Takes a value off the front of a text. -/
abbrev Reader := StateT (List Char) (Except Fault)

def fail {α : Type} (f : Fault) : Reader α :=
  fun _ => .error f

def isBlank (c : Char) : Bool :=
  c == ' ' || c == '\n' || c == '\t' || c == '\r'

/-- The next character that is not blank; it stays. -/
def peek (atEnd : Fault) : Reader Char := fun s =>
  match s.dropWhile isBlank with
  | [] => .error atEnd
  | c :: r => .ok (c, c :: r)

def advance : Reader Unit := fun s =>
  .ok ((), s.tail)

def ident : List Char → Reader Unit
  | [] => pure ()
  | c :: cs => fun s =>
    match s with
    | [] => .error .endInValue
    | x :: r => if x = c then ident cs r else .error .expectedIdent

/-- Nothing but blanks may follow a document. -/
def finish : Reader Unit := fun s =>
  match s.dropWhile isBlank with
  | [] => .ok ((), [])
  | _ => .error .trailingCharacters

def Reader.run {α : Type} (reader : Reader α) (text : String) : Except Fault α := do
  let (x, rest) ← StateT.run reader text.toList
  let _ ← StateT.run finish rest
  pure x

/-! ## Strings -/

def hexValue? (c : Char) : Option Nat :=
  if '0' ≤ c ∧ c ≤ '9' then some (c.toNat - 48)
  else if 'a' ≤ c ∧ c ≤ 'f' then some (c.toNat - 87)
  else if 'A' ≤ c ∧ c ≤ 'F' then some (c.toNat - 55)
  else none

/-- Four hexadecimal digits. A text of fewer than four bytes ends too early, whatever it holds. -/
def hexFour (s : List Char) : Except Fault (Nat × List Char) :=
  match (s.take 4).mapM hexValue? with
  | some [a, b, c, d] => .ok (((a * 16 + b) * 16 + c) * 16 + d, s.drop 4)
  | _ => .error (if Text.byteLength s < 4 then .endInString else .invalidEscape)

def isLeading (n : Nat) : Bool := 0xd800 ≤ n && n < 0xdc00

def isTrailing (n : Nat) : Bool := 0xdc00 ≤ n && n < 0xe000

/-- The character of an escape by number. Numbers of a pair stand for one character; a leading one
must be followed by a trailing one. -/
def unicodeEscape (s : List Char) : Except Fault (Char × List Char) := do
  let (n, r) ← hexFour s
  if isTrailing n then .error .loneSurrogate
  else if isLeading n then
    match r with
    | '\\' :: 'u' :: r' =>
      let (m, rest) ← hexFour r'
      if isTrailing m then .ok (Char.ofNat ((n - 0xd800) * 1024 + (m - 0xdc00) + 0x10000), rest)
      else .error .loneSurrogate
    | [] | ['\\'] => .error .endInString
    | _ => .error .unfinishedSurrogate
  else .ok (Char.ofNat n, r)

def escape : List Char → Except Fault (Char × List Char)
  | [] => .error .endInString
  | '"' :: r => .ok ('"', r)
  | '\\' :: r => .ok ('\\', r)
  | '/' :: r => .ok ('/', r)
  | 'b' :: r => .ok ('\x08', r)
  | 'f' :: r => .ok ('\x0c', r)
  | 'n' :: r => .ok ('\n', r)
  | 'r' :: r => .ok ('\r', r)
  | 't' :: r => .ok ('\t', r)
  | 'u' :: r => unicodeEscape r
  | _ => .error .invalidEscape

theorem hexFour_length {s r : List Char} {n : Nat} (h : hexFour s = .ok (n, r)) : r.length ≤ s.length := by
  unfold hexFour at h
  split at h
  · simp only [Except.ok.injEq, Prod.mk.injEq] at h
    rw [← h.2, List.length_drop]; omega
  · cases h

theorem unicodeEscape_length {s r : List Char} {c : Char} (h : unicodeEscape s = .ok (c, r)) :
    r.length ≤ s.length := by
  unfold unicodeEscape at h
  cases hs : hexFour s with
  | error e => simp [hs, bind, Except.bind] at h
  | ok p =>
    obtain ⟨n, r₁⟩ := p
    have h₁ := hexFour_length hs
    simp only [hs, bind, Except.bind] at h
    split at h
    · cases h
    split at h
    · split at h
      · next r₂ =>
        cases hs₂ : hexFour r₂ with
        | error e => simp [hs₂] at h
        | ok q =>
          obtain ⟨m, r₃⟩ := q
          have h₂ := hexFour_length hs₂
          simp only [hs₂] at h
          split at h
          · simp only [Except.ok.injEq, Prod.mk.injEq] at h
            rw [← h.2]; simp only [List.length_cons] at *; omega
          · cases h
      all_goals cases h
    · simp only [Except.ok.injEq, Prod.mk.injEq] at h
      rw [← h.2]; exact h₁

theorem escape_length {s r : List Char} {c : Char} (h : escape s = .ok (c, r)) : r.length < s.length := by
  unfold escape at h
  split at h
  any_goals cases h
  any_goals simp
  · have := unicodeEscape_length h
    omega

def stringBody (s : List Char) : Except Fault (List Char × List Char) :=
  match s with
  | [] => .error .endInString
  | '"' :: r => .ok ([], r)
  | '\\' :: r =>
    match h : escape r with
    | .error e => .error e
    | .ok (c, rest) =>
      have := escape_length h
      match stringBody rest with
      | .ok (cs, rest') => .ok (c :: cs, rest')
      | .error e => .error e
  | c :: r =>
    if c.toNat < 0x20 then .error .controlCharacter
    else
      match stringBody r with
      | .ok (cs, rest) => .ok (c :: cs, rest)
      | .error e => .error e
termination_by s.length
decreasing_by all_goals simp only [List.length_cons]; omega

def stringLiteral : Reader String := fun s =>
  match stringBody s.tail with
  | .ok (cs, rest) => .ok (String.ofList cs, rest)
  | .error e => .error e

end Logline.Json
