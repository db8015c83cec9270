import Logline.Demo.Mask
import Logline.Demo.Programs

/-!
# Demonstrations

A demonstration program is run a number of times in a directory that may hold something beforehand.
What it prints and leaves behind is masked.
-/

namespace Logline.Demo

open Output

def program? : String → Option (Program Unit)
  | "basic_usage" => some basicUsage
  | "config_loading" => some configLoading
  | "file_logging" => some fileLogging
  | _ => none

/-- Makes a directory, and first those it lies in; one that cannot be made is left out. -/
def makeDirectories (disk : Disk) (names : List String) : Disk :=
  (List.range names.length).foldl
    (fun d n => (d.makeDirectory ("/".intercalate (names.take (n + 1)))).toOption.getD d) disk

def directory (dirs : List String) (files : List (String × String)) : Disk :=
  let disk := dirs.foldl (fun d path => makeDirectories d (Disk.names path)) {}
  files.foldl
    (fun d (path, text) => ((makeDirectories d (Disk.names path).dropLast).writeFile path text.toUTF8).2) disk

def Result.masked (r : Result) : Result :=
  { r with stdout := maskBytes r.stdout, stderr := maskBytes r.stderr }

def runTimes (p : Program Unit) : Nat → Disk → List Result × Disk
  | 0, disk => ([], disk)
  | n + 1, disk =>
    let (r, disk) := p.run disk
    let (rs, disk) := runTimes p n disk
    (r.masked :: rs, disk)

/-- The results of all runs and the files left in the end. -/
def demonstrate (p : Program Unit) (times : Nat) (disk : Disk) : List Result × List (String × ByteArray) :=
  let (rs, disk) := runTimes p times disk
  (rs, disk.files.map fun (path, bytes) => (path, maskBytes bytes))

end Logline.Demo
