import Logline.Text.UpperCase

/-!
# Severity levels

Five levels in rising severity, their names, and the words that name them.
-/

namespace Logline

inductive Level
  | debug
  | info
  | warn
  | error
  | fatal
  deriving DecidableEq, Inhabited, Repr

inductive Colour
  | blue
  | green
  | yellow
  | red
  | brightRed
  deriving DecidableEq, Repr

/-- The number that selects the colour as foreground. -/
def Colour.code : Colour → String
  | .blue => "34"
  | .green => "32"
  | .yellow => "33"
  | .red => "31"
  | .brightRed => "91"

structure UnknownLevel where
  word : String
  deriving DecidableEq, Repr

def UnknownLevel.message (e : UnknownLevel) : String :=
  "Invalid log level: '" ++ e.word ++ "'"

namespace Level

def all : List Level := [debug, info, warn, error, fatal]

def rank : Level → Nat
  | debug => 1
  | info => 2
  | warn => 3
  | error => 4
  | fatal => 5

instance : LE Level := ⟨fun a b => a.rank ≤ b.rank⟩
instance : LT Level := ⟨fun a b => a.rank < b.rank⟩
instance (a b : Level) : Decidable (a ≤ b) := inferInstanceAs (Decidable (a.rank ≤ b.rank))
instance (a b : Level) : Decidable (a < b) := inferInstanceAs (Decidable (a.rank < b.rank))
instance : Ord Level := ⟨fun a b => compare a.rank b.rank⟩

theorem not_lt {a b : Level} : ¬ a < b ↔ b ≤ a := Nat.not_lt

theorem not_le {a b : Level} : ¬ a ≤ b ↔ b < a := Nat.not_le

def ofRank? : Nat → Option Level
  | 1 => some debug
  | 2 => some info
  | 3 => some warn
  | 4 => some error
  | 5 => some fatal
  | _ => none

theorem ofRank?_rank (l : Level) : ofRank? l.rank = some l := by
  cases l <;> rfl

def name : Level → String
  | debug => "DEBUG"
  | info => "INFO"
  | warn => "WARN"
  | error => "ERROR"
  | fatal => "FATAL"

/-- The name of the level with this rank; a rank without a level has a name of its own. -/
def nameOfRank (rank : Nat) : String :=
  match ofRank? rank with
  | some l => l.name
  | none => "NONE"

def colour : Level → Colour
  | debug => .blue
  | info => .green
  | warn => .yellow
  | error => .red
  | fatal => .brightRed

/-- The upper-case words that name a level. -/
def words : List (String × Level) :=
  [("DEBUG", debug), ("INFO", info), ("WARN", warn), ("WARNING", warn), ("ERROR", error), ("FATAL", fatal)]

def parse (word : String) : Except UnknownLevel Level :=
  match words.lookup (String.ofList (Text.upperCaseAll word.toList)) with
  | some l => .ok l
  | none => .error ⟨word⟩

end Level

end Logline
