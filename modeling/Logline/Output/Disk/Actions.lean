import Logline.Output.Disk.Open

/-!
# Actions on the disk

Reading, replacing, renaming and removing files, and making directories.
-/

namespace Logline.Output.Disk

def contentOf (d : Disk) (path : String) : Except Fault ByteArray := do
  match ← d.place path with
  | .directory _ => .error (.os .isADirectory)
  | .entry parent name asDirectory =>
    match ← d.lookUp parent name with
    | none => .error (.os .noEntry)
    | some .directory => .error (.os .isADirectory)
    | some (.file id) => if asDirectory then .error (.os .notADirectory) else .ok (d.content id)
    | some .full => if asDirectory then .error (.os .notADirectory) else .ok .empty

def writeFile (d : Disk) (path : String) (bytes : ByteArray) : Except Fault Unit × Disk :=
  match d.openFile path true with
  | (.error e, d) => (.error e, d)
  | (.ok handle, d) =>
    let (r, f) := Device.writeAll bytes (⟨handle, d⟩ : OpenFile)
    (r, f.disk)

def makeDirectory (d : Disk) (path : String) : Except Fault Disk := do
  match ← d.place path with
  | .directory _ => .error (.os .exists)
  | .entry parent name _ =>
    match ← d.lookUp parent name with
    | some _ => .error (.os .exists)
    | none => .ok (d.addEntry (parent ++ [name]) .directory)

def removeFile (d : Disk) (path : String) : Except Fault Disk := do
  match ← d.place path with
  | .directory _ => .error (.os .isADirectory)
  | .entry parent name asDirectory =>
    match ← d.lookUp parent name with
    | none => .error (.os .noEntry)
    | some .directory => .error (.os .isADirectory)
    | some _ => if asDirectory then .error (.os .notADirectory) else .ok (d.dropEntry (parent ++ [name]))

/-! ## Renaming -/

/-- The path of something below `source` once `source` is `target`. -/
def moved (source target p : Path) : Path :=
  if source <+: p then target ++ p.drop source.length else p

def isEmptyDirectory (d : Disk) (p : Path) : Bool :=
  d.entries.all fun (q, _) => !(p <+: q && p ≠ q)

/-- Why what stands at `source` may not take the place of what is at `target`. -/
def refusal? (d : Disk) (source : Path) (node : Node) (target : Path) : Option OsError :=
  let found := d.find? target
  if node = .directory ∧ found ≠ none ∧ found ≠ some .directory then some .notADirectory
  else if node ≠ .directory ∧ found = some .directory then some .isADirectory
  else if source = devices ∨ target = devices then some .busy
  else if found = some .directory ∧ !d.isEmptyDirectory target then some .notEmpty
  else none

/-- Gives what stands at `source` the path `target`, in place of what had it. -/
def move (d : Disk) (source : Path) (node : Node) (target : Path) : Except Fault Disk :=
  if source = target then .ok d
  else if source <+: target then .error (.os .invalidArgument)
  else if target <+: source then .error (.os .notEmpty)
  else
    match d.refusal? source node target with
    | some e => .error (.os e)
    | none =>
      let d := d.dropEntry target
      .ok { d with
        workingDirectory := moved source target d.workingDirectory
        entries := d.entries.map fun (p, n) => (moved source target p, n) }

def crosses (p q : Path) : Bool :=
  devices.isPrefixOf p != devices.isPrefixOf q

/-- Gives a file or a directory another name, in the same file system. -/
def rename (d : Disk) (path target : String) : Except Fault Disk := do
  refuseNul path
  refuseNul target
  let source ← d.place path
  let goal ← d.place target
  if crosses source.base goal.base then .error (.os .crossesDevices)
  else
    match source, goal with
    | .entry parent name asDirectory, .entry parent' name' asDirectory' =>
      match ← d.lookUp parent name with
      | none => .error (.os .noEntry)
      | some node =>
        let _ ← d.lookUp parent' name'
        if node ≠ .directory ∧ (asDirectory || asDirectory') then .error (.os .notADirectory)
        else d.move (parent ++ [name]) node (parent' ++ [name'])
    | _, _ => .error (.os .busy)

end Logline.Output.Disk
