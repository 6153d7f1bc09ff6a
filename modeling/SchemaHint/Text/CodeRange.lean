/-!
# Ranges of code points

Classes of characters are given as ranges of code points in ascending order.
-/

namespace SchemaHint.Text

set_option autoImplicit false

/-- A range of code points, both ends included. -/
abbrev CodeRange := Nat × Nat

/-- Whether a code point lies in one of the ranges. -/
def inRanges (n : Nat) (ranges : List CodeRange) : Bool :=
  ranges.any fun r => r.1 ≤ n && n ≤ r.2

end SchemaHint.Text
