/-!
# Blanks

`isBlank` is the Unicode property White_Space, `trim` drops the blanks at both ends of a text and
`isBlankText` holds of the texts of which nothing is then left.
-/

namespace SchemaHint.Text

set_option autoImplicit false

/-- A character with the Unicode property White_Space. -/
def isBlank (c : Char) : Bool :=
  let n := c.toNat
  (0x9 ≤ n && n ≤ 0xD) || n == 0x20 || n == 0x85 || n == 0xA0 || n == 0x1680 ||
    (0x2000 ≤ n && n ≤ 0x200A) || n == 0x2028 || n == 0x2029 || n == 0x202F || n == 0x205F ||
    n == 0x3000

/-- The text without its leading blanks. -/
def trimStart (cs : List Char) : List Char := cs.dropWhile isBlank

/-- The text without its trailing blanks. -/
def trimEnd (cs : List Char) : List Char := (cs.reverse.dropWhile isBlank).reverse

/-- The text without the blanks at its two ends. -/
def trim (cs : List Char) : List Char := trimEnd (trimStart cs)

/-- A text made of blanks only, the empty one included. -/
def isBlankText (cs : List Char) : Bool := cs.all isBlank

end SchemaHint.Text
