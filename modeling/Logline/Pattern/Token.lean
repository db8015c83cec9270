import Logline.Text.Length

/-!
# Tokens of a pattern

A pattern is text with directives in it. A directive is `%` and a flag, the longest run of ASCII
letters, with an argument in braces if an opening brace follows; any other character after `%` is a
flag by itself. `%%` and a `%` at the very end stand for the sign. `scan` splits a pattern; it fails
only at an argument without an end.
-/

namespace Logline.Pattern

inductive Token
  | text (run : List Char)
  | percent
  | finalPercent
  | directive (flag : List Char) (argument : Option (List Char))
  | mark (c : Char)
  deriving DecidableEq, Repr

def Token.spelling : Token → List Char
  | text run => run
  | percent => ['%', '%']
  | finalPercent => ['%']
  | directive flag none => '%' :: flag
  | directive flag (some argument) => '%' :: flag ++ '{' :: argument ++ ['}']
  | mark c => ['%', c]

/-- A directive whose argument does not end, at the byte its `%` stands at. -/
structure Unclosed where
  position : Nat
  flag : List Char
  deriving DecidableEq, Repr

def Unclosed.message (u : Unclosed) : String :=
  "missing closing '\x7d' for argument of '%" ++ String.ofList u.flag ++ "'"

inductive Beginning
  | nothing
  | token (t : Token) (rest : List Char)
  | unclosed (flag : List Char)
  deriving DecidableEq, Repr

def afterPercent (s : List Char) : Beginning :=
  match s with
  | [] => .token .finalPercent []
  | '%' :: r => .token .percent r
  | c :: r =>
    let flag := s.takeWhile Char.isAlpha
    match s.dropWhile Char.isAlpha with
    | '{' :: body =>
      match body.dropWhile (· != '}') with
      | [] => .unclosed flag
      | _ :: rest => .token (.directive flag (some (body.takeWhile (· != '}')))) rest
    | rest => if c.isAlpha then .token (.directive flag none) rest else .token (.mark c) r

def beginning : List Char → Beginning
  | [] => .nothing
  | '%' :: r => afterPercent r
  | c :: r => .token (.text (c :: r.takeWhile (· != '%'))) (r.dropWhile (· != '%'))

theorem length_dropWhile_le (p : Char → Bool) (s : List Char) : (s.dropWhile p).length ≤ s.length :=
  (List.dropWhile_sublist p).length_le

theorem afterPercent_length {s : List Char} {t : Token} {rest : List Char}
    (h : afterPercent s = .token t rest) : rest.length ≤ s.length := by
  unfold afterPercent at h
  split at h
  · simp_all
  · simp only [Beginning.token.injEq] at h
    simp [← h.2]
  · rename_i c r _
    have hle := length_dropWhile_le Char.isAlpha (c :: r)
    dsimp only at h
    split at h
    · next body hb =>
      rw [hb] at hle
      split at h
      · cases h
      · next x rest' hx =>
        have := length_dropWhile_le (· != '}') body
        simp only [Beginning.token.injEq] at h
        rw [hx] at this
        simp only [List.length_cons] at *
        rw [← h.2]; omega
    · split at h
      · simp only [Beginning.token.injEq] at h
        rw [← h.2]; exact hle
      · simp only [Beginning.token.injEq] at h
        rw [← h.2]; simp

theorem beginning_length {s : List Char} {t : Token} {rest : List Char}
    (h : beginning s = .token t rest) : rest.length < s.length := by
  unfold beginning at h
  split at h
  · cases h
  · have := afterPercent_length h
    simp only [List.length_cons]; omega
  · next c r _ =>
    have := length_dropWhile_le (· != '%') r
    simp only [Beginning.token.injEq] at h
    rw [← h.2]; simp only [List.length_cons]; omega

def scan (s : List Char) : Except Unclosed (List Token) :=
  match h : beginning s with
  | .nothing => .ok []
  | .unclosed flag => .error ⟨0, flag⟩
  | .token t rest =>
    have := beginning_length h
    match scan rest with
    | .ok ts => .ok (t :: ts)
    | .error u => .error { u with position := Text.byteLength t.spelling + u.position }
termination_by s.length

end Logline.Pattern
