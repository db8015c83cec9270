/-!
# Blank text

The white space of Unicode, and texts made of nothing else.
-/

namespace Logline.Text

/-- The white space characters of Unicode: ASCII blanks, the two line marks of Latin-1's controls and
the separators. -/
def isBlankChar (c : Char) : Bool :=
  let n := c.toNat
  (9 ≤ n && n ≤ 13) || n == 0x20 || n == 0x85 || n == 0xa0 || n == 0x1680 ||
    (0x2000 ≤ n && n ≤ 0x200a) || n == 0x2028 || n == 0x2029 || n == 0x202f || n == 0x205f || n == 0x3000

/-- Nothing is left of the text once white space is taken off its ends. -/
def isBlank (s : String) : Bool :=
  s.toList.all isBlankChar

end Logline.Text
