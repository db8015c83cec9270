import Logline.Config.Basic
import Logline.Json.Printer

/-!
# Printing configurations

Fields stand in a fixed order; levels and modes are always written, what is absent is left out.
-/

namespace Logline

namespace Config

open Json

def AppenderPlan.entries (a : AppenderPlan) : List (String × List Char) :=
  [("type", stringText a.kind.name)] ++
    optionalEntry "level" (a.level.map fun l => stringText l.name) ++
    optionalEntry "formatter" (a.pattern.map stringText) ++
    optionalEntry "file" (a.file.map stringText) ++
    [("mode", stringText a.mode.name)]

def LoggerPlan.entries (l : LoggerPlan) : List (String × List Char) :=
  [("name", stringText l.name), ("level", stringText l.level.name)] ++
    optionalEntry "formatter" (l.pattern.map stringText) ++
    [("appenders", listText 3 (l.appenders.map fun a => objectText 4 a.entries))]

def document (c : Config) : List Char :=
  objectText 0 [("loggers", listText 1 (c.loggers.map fun l => objectText 2 l.entries))]

def print (c : Config) : String :=
  String.ofList c.document

end Config

end Logline
