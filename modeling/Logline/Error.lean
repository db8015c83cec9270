import Logline.Json.Fault
import Logline.Output.Fault

/-!
# Errors

What can go wrong outside of delivering an event: in a pattern, in a configuration and in a file.
-/

namespace Logline

inductive Error
  /-- The pattern breaks off at the directive that begins at this byte. -/
  | patternSyntax (pattern : String) (position : Nat) (message : String)
  | ioOperation (operation message : String) (cause : Output.Fault)
  | io (cause : Output.Fault)
  | json (fault : Json.Fault)
  | invalidConfiguration (component message : String)
  | fileAppender (path message : String)
  deriving DecidableEq, Repr

namespace Error

def message : Error → String
  | patternSyntax pattern position message =>
    "log pattern format error at byte " ++ Text.decimal position ++ " of '" ++ pattern ++ "': " ++ message
  | ioOperation operation message _ => "IO error while " ++ operation ++ ": " ++ message
  | io cause => "IO error: " ++ cause.message
  | json fault => "JSON error: " ++ fault.message
  | invalidConfiguration component message => "Invalid configuration for " ++ component ++ ": " ++ message
  | fileAppender path message => "File appender error for '" ++ path ++ "': " ++ message

def isPatternError : Error → Bool
  | patternSyntax .. => true
  | _ => false

def cause? : Error → Option String
  | ioOperation _ _ cause => some cause.message
  | io cause => some cause.message
  | json fault => some fault.message
  | _ => none

end Error

end Logline
