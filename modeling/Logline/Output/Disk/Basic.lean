import Logline.Output.Fault

/-!
# The disk

A tree of files and directories, in which paths start from the root or from a working directory. A
name leads to a file, and a file keeps its content whatever becomes of its names: who has it open goes
on writing to it.
-/

namespace Logline.Output

abbrev Path := List String

abbrev FileId := Nat

inductive Node
  | file (id : FileId)
  | directory
  /-- The device that has no room for anything. -/
  | full
  deriving DecidableEq, Repr

/-- The directory of devices, with a file system of its own. -/
def devices : Path := ["dev"]

/-- The working directory lies with what is kept for a while, under a name that no path can spell. -/
structure Disk where
  workingDirectory : Path := ["tmp", ""]
  entries : List (Path × Node) :=
    [(devices, .directory), (devices ++ ["full"], .full), (["tmp"], .directory), (["tmp", ""], .directory)]
  /-- The contents of all files there have ever been. -/
  contents : Array ByteArray := #[]

namespace Disk

def find? (d : Disk) (p : Path) : Option Node :=
  if p = [] then some .directory else d.entries.lookup p

def content (d : Disk) (id : FileId) : ByteArray :=
  d.contents[id]?.getD .empty

def setContent (d : Disk) (id : FileId) (bytes : ByteArray) : Disk :=
  { d with contents := d.contents.set! id bytes }

def addEntry (d : Disk) (p : Path) (n : Node) : Disk :=
  { d with entries := d.entries ++ [(p, n)] }

def dropEntry (d : Disk) (p : Path) : Disk :=
  { d with entries := d.entries.filter (·.1 ≠ p) }

def addFile (d : Disk) (p : Path) : FileId × Disk :=
  (d.contents.size, { d.addEntry p (.file d.contents.size) with contents := d.contents.push .empty })

/-- Every file below the working directory, with its path from there and its content. -/
def files (d : Disk) : List (String × ByteArray) :=
  d.entries.filterMap fun (p, n) =>
    match n with
    | .file id =>
      if d.workingDirectory <+: p then
        some ("/".intercalate (p.drop d.workingDirectory.length), d.content id)
      else none
    | _ => none

/-! ## Where a path leads -/

/-- What the text of a path names, the directory before its last name having been found: an entry of
that directory, perhaps with a mark that it is to be a directory itself; or that directory or its
parent, by a name of dots or by none. -/
inductive Place
  | entry (parent : Path) (name : String) (asDirectory : Bool)
  | directory (base : Path)
  deriving DecidableEq, Repr

def Place.base : Place → Path
  | entry parent _ _ => parent
  | directory base => base

/-- The longest name, in bytes, and the longest path. -/
def nameLimit : Nat := 255

def pathLimit : Nat := 4096

def lookUp (d : Disk) (parent : Path) (name : String) : Except Fault (Option Node) :=
  if nameLimit < name.utf8ByteSize then .error (.os .nameTooLong)
  else .ok (d.find? (parent ++ [name]))

/-- Goes from directory to directory, name by name; the root is its own parent. -/
def walk (d : Disk) (base : Path) : List String → Except Fault Path
  | [] => .ok base
  | name :: names =>
    if name = "." then d.walk base names
    else if name = ".." then d.walk base.dropLast names
    else
      match d.lookUp base name with
      | .error e => .error e
      | .ok (some .directory) => d.walk (base ++ [name]) names
      | .ok (some _) => .error (.os .notADirectory)
      | .ok none => .error (.os .noEntry)

def names (path : String) : List String :=
  (path.splitOn "/").filter (· ≠ "")

/-- A path with the character NUL is refused before anything is looked up. -/
def refuseNul (path : String) : Except Fault Unit :=
  if path.toList.contains '\x00' then .error .nulInPath else .ok ()

def place (d : Disk) (path : String) : Except Fault Place := do
  refuseNul path
  if path = "" then .error (.os .noEntry)
  else if pathLimit ≤ path.utf8ByteSize then .error (.os .nameTooLong)
  else
    let start := if path.startsWith "/" then [] else d.workingDirectory
    let base ← d.walk start (names path).dropLast
    match (names path).getLast? with
    | none | some "." | some ".." => .ok (.directory base)
    | some name => .ok (.entry base name (path.endsWith "/"))

end Disk

end Logline.Output
