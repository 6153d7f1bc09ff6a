import SchemaHint.Text.Extending
import SchemaHint.Text.Unassigned

/-!
# Visible characters

`isVisible` tells the characters that show a shape of their own from those that show nothing
(controls, format characters, separators, fillers, private use), from code points without a
character and from the marks that only extend the character before them.
-/

namespace SchemaHint.Text

set_option autoImplicit false

/-- The code points of controls, format characters, fillers and other ignorable characters, private
use, and separators but the space. -/
def hiddenRanges : List CodeRange := [
  (0x0, 0x1F), (0x7F, 0xA0), (0xAD, 0xAD), (0x34F, 0x34F), (0x600, 0x605), (0x61C, 0x61C),
  (0x6DD, 0x6DD), (0x70F, 0x70F), (0x890, 0x891), (0x8E2, 0x8E2), (0x115F, 0x1160),
  (0x1680, 0x1680), (0x17B4, 0x17B5), (0x180B, 0x180F), (0x2000, 0x200F), (0x2028, 0x202F),
  (0x205F, 0x2064), (0x2066, 0x206F), (0x3000, 0x3000), (0x3164, 0x3164), (0xD800, 0xF8FF),
  (0xFE00, 0xFE0F), (0xFEFF, 0xFEFF), (0xFFA0, 0xFFA0), (0xFFF9, 0xFFFB), (0x110BD, 0x110BD),
  (0x110CD, 0x110CD), (0x13430, 0x1343F), (0x1BCA0, 0x1BCA3), (0x1D173, 0x1D17A),
  (0xE0001, 0xE0001), (0xE0020, 0xE007F), (0xE0100, 0xE01EF), (0xF0000, 0xFFFFD),
  (0x100000, 0x10FFFD)]

/-- A character that shows a shape of its own. -/
def isVisible (c : Char) : Bool :=
  let n := c.toNat
  if n < 0x7F then 0x20 ≤ n
  else !inRanges n hiddenRanges && !inRanges n extendingRanges && !inRanges n unassignedRanges

end SchemaHint.Text
