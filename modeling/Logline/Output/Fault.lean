import Logline.Text.Decimal

/-!
# Faults of streams and files

Why a write, a flush or an operation on the disk failed, with the kind and the wording of each fault.
-/

namespace Logline.Output

inductive OsError
  | noEntry
  | busy
  | exists
  | crossesDevices
  | notADirectory
  | isADirectory
  | invalidArgument
  | noSpace
  | nameTooLong
  | notEmpty
  deriving DecidableEq, Repr

namespace OsError

def code : OsError → Nat
  | noEntry => 2
  | busy => 16
  | «exists» => 17
  | crossesDevices => 18
  | notADirectory => 20
  | isADirectory => 21
  | invalidArgument => 22
  | noSpace => 28
  | nameTooLong => 36
  | notEmpty => 39

def kind : OsError → String
  | noEntry => "NotFound"
  | busy => "ResourceBusy"
  | «exists» => "AlreadyExists"
  | crossesDevices => "CrossesDevices"
  | notADirectory => "NotADirectory"
  | isADirectory => "IsADirectory"
  | invalidArgument => "InvalidInput"
  | noSpace => "StorageFull"
  | nameTooLong => "InvalidFilename"
  | notEmpty => "DirectoryNotEmpty"

def text : OsError → String
  | noEntry => "No such file or directory"
  | busy => "Device or resource busy"
  | «exists» => "File exists"
  | crossesDevices => "Invalid cross-device link"
  | notADirectory => "Not a directory"
  | isADirectory => "Is a directory"
  | invalidArgument => "Invalid argument"
  | noSpace => "No space left on device"
  | nameTooLong => "File name too long"
  | notEmpty => "Directory not empty"

end OsError

inductive Fault
  | os (error : OsError)
  /-- A path holds the character NUL; the disk is not asked. -/
  | nulInPath
  /-- The reader of the stream is gone. -/
  | gone
  /-- A write that was offered bytes took none of them. -/
  | writeZero
  /-- A fault with a text of its own. -/
  | other (text : String)
  deriving DecidableEq, Repr

namespace Fault

def kind : Fault → String
  | os e => e.kind
  | nulInPath => "InvalidInput"
  | gone => "BrokenPipe"
  | writeZero => "WriteZero"
  | other _ => "Other"

def message : Fault → String
  | os e => e.text ++ " (os error " ++ Text.decimal e.code ++ ")"
  | nulInPath => "file name contained an unexpected NUL byte"
  | gone => "gone"
  | writeZero => "failed to write whole buffer"
  | other text => text

end Fault

end Logline.Output
