import Logline.Json.Brackets

/-!
# Skipping values

A value under a key that nobody wants is passed over: its text must be well-formed, but numbers may
be of any size and brackets nested to any depth.
-/

namespace Logline.Json

/-- An escape in a string that is passed over, after its backslash; numbers of pairs are not checked. -/
def skipEscape : List Char → Except Fault (List Char)
  | [] => .error .endInString
  | 'u' :: r => (hexFour r).map (·.2)
  | c :: r => if ['"', '\\', '/', 'b', 'f', 'n', 'r', 't'].contains c then .ok r else .error .invalidEscape

theorem skipEscape_length {s r : List Char} (h : skipEscape s = .ok r) : r.length < s.length := by
  unfold skipEscape at h
  split at h
  · cases h
  · next r' =>
    cases hs : hexFour r' with
    | error e => simp [hs, Except.map] at h
    | ok p =>
      have := hexFour_length hs
      simp only [hs, Except.map, Except.ok.injEq] at h
      subst h
      simp only [List.length_cons]; omega
  · split at h
    · simp only [Except.ok.injEq] at h
      simp [h]
    · cases h

/-- The rest after a string, whose opening mark is off. -/
def skipStringBody (s : List Char) : Except Fault (List Char) :=
  match s with
  | [] => .error .endInString
  | '"' :: r => .ok r
  | '\\' :: r =>
    match h : skipEscape r with
    | .error e => .error e
    | .ok rest =>
      have := skipEscape_length h
      skipStringBody rest
  | c :: r => if c.toNat < 0x20 then .error .controlCharacter else skipStringBody r
termination_by s.length
decreasing_by all_goals simp only [List.length_cons]; omega

def skipString : Reader Unit := fun s =>
  (skipStringBody s.tail).map ((), ·)

def someDigits (s : List Char) : Except Fault (List Char) :=
  match spanDigits s with
  | ([], _) => .error .invalidNumber
  | (_, rest) => .ok rest

def skipExponent (s : List Char) : Except Fault (List Char) :=
  match s with
  | c :: r =>
    if isExponentMark c then
      match r with
      | '+' :: r' | '-' :: r' => someDigits r'
      | _ => someDigits r
    else .ok s
  | [] => .ok []

def skipUnsigned (s : List Char) : Except Fault (List Char) :=
  match spanDigits s with
  | ([], _) => .error .invalidNumber
  | ('0' :: _ :: _, _) => .error .invalidNumber
  | (_, '.' :: r) => do skipExponent (← someDigits r)
  | (_, rest) => skipExponent rest

def skipNumber : Reader Unit := fun s =>
  match s with
  | '-' :: r => (skipUnsigned r).map ((), ·)
  | _ => (skipUnsigned s).map ((), ·)

inductive Frame
  | list
  | object
  deriving DecidableEq, Repr

def Frame.atEnd : Frame → Fault
  | list => .endInList
  | object => .endInObject

def Frame.atComma : Frame → Fault
  | list => .expectedCommaOrBracket
  | object => .expectedCommaOrBrace

def Frame.closes : Frame → Char → Bool
  | list, c => c == ']'
  | object, c => c == '}'

/-- What comes before a value: nothing in a list, a key in an object. -/
def skipKey : Frame → Reader Unit
  | .list => pure ()
  | .object => do
    match ← peek .endInObject with
    | '"' => skipString
    | _ => fail .keyNotString
    colon

/-- Where skipping stands: before a value, after the bracket that opened a frame, or after a value. -/
inductive Place
  | value
  | opened
  | valued
  deriving DecidableEq, Repr

/-- Passes over the rest of a value inside these open brackets. Each character takes at most two steps. -/
def skipFrom : Nat → Place → List Frame → Reader Unit
  | 0, _, _ => fail .endInValue
  | n + 1, .value, frames => do
    match ← peek .endInValue with
    | '[' => advance; skipFrom n .opened (.list :: frames)
    | '{' => advance; skipFrom n .opened (.object :: frames)
    | 'n' => ident ['n', 'u', 'l', 'l']; skipFrom n .valued frames
    | 't' => ident ['t', 'r', 'u', 'e']; skipFrom n .valued frames
    | 'f' => ident ['f', 'a', 'l', 's', 'e']; skipFrom n .valued frames
    | '"' => skipString; skipFrom n .valued frames
    | c =>
      if c == '-' || Text.isDigit c then skipNumber; skipFrom n .valued frames
      else fail .expectedValue
  | _ + 1, _, [] => pure ()
  | n + 1, place, frame :: frames => do
    let c ← peek frame.atEnd
    if c == ',' && place == .valued then
      advance
      skipKey frame
      skipFrom n .value (frame :: frames)
    else if frame.closes c then
      advance
      skipFrom n .valued frames
    else if place == .valued then fail frame.atComma
    else
      skipKey frame
      skipFrom n .value (frame :: frames)

def skipValue : Reader Unit := fun s =>
  skipFrom (2 * s.length + 2) .value [] s

end Logline.Json
