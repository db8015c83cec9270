import Logline.Logger

/-!
# Registries

A registry knows loggers by name. Its root logger has a name that no other logger can take.
-/

namespace Logline

structure LoggerId where
  index : Nat
  deriving DecidableEq, Repr

/-- The loggers other than the root are in the order of their names. -/
structure Registry where
  root : LoggerId
  named : List (String × LoggerId) := []
  deriving DecidableEq, Repr

namespace Registry

def rootName : String := "root"

def lookup (r : Registry) (name : String) : Option LoggerId :=
  if name = rootName then some r.root else r.named.lookup name

/-- Puts a name in its place among names in order. -/
def place (name : String) (id : LoggerId) : List (String × LoggerId) → List (String × LoggerId)
  | [] => [(name, id)]
  | (n, i) :: rest => if name < n then (name, id) :: (n, i) :: rest else (n, i) :: place name id rest

def insert (r : Registry) (name : String) (id : LoggerId) : Registry :=
  { r with named := place name id r.named }

def names (r : Registry) : List String :=
  rootName :: r.named.map Prod.fst

end Registry

end Logline
