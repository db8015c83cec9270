import Logline.TimeFormat.Directive

/-!
# Time formats

The format of a time item: its text, whether the text can be used, and what it makes of a time. A
format that cannot be used stands for its own text, and a time outside the calendar for its seconds.
-/

namespace Logline

structure TimeFormat where
  text : String
  deriving DecidableEq, Repr

namespace TimeFormat

def standardText : String := "%Y-%m-%d %H:%M:%S"

def standard : TimeFormat := ⟨standardText⟩

/-- The format an item's argument asks for; an empty one asks for the standard format. -/
def ofArgument (argument : String) : TimeFormat :=
  if argument = "" then standard else ⟨argument⟩

/-- The format written out at a moment; none if it cannot be. -/
def textAt? (f : TimeFormat) (m : Moment) : Option String :=
  (read? f.text.toList).bind fun ps => (expand m ps).map String.ofList

/-- Whether the format can be written out, as a trial at one moment shows. -/
def usableAt (f : TimeFormat) (now : Moment) : Bool :=
  (f.textAt? now).isSome

def isUsable (f : TimeFormat) : Bool :=
  f.usableAt (Moment.ofSeconds 0)

/-- What is written of a time by a clock at an offset from universal time. -/
def pieces (f : TimeFormat) (t : Int) (offset : Int := 0) : List String :=
  if f.isUsable then
    if Moment.inCalendar t then [(f.textAt? (Moment.ofSeconds t offset)).getD f.text] else Text.signedPieces t
  else [f.text]

end TimeFormat

end Logline
