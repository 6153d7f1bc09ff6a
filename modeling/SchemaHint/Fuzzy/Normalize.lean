/-!
# Normal form of compared texts

Texts are compared by their word characters alone, letters in lower case.
-/

namespace SchemaHint.Fuzzy

set_option autoImplicit false

/-- A letter or digit of ASCII, or the underscore. -/
def isWordChar (c : Char) : Bool := c.isAlphanum || c = '_'

/-- The word characters of a text, letters in lower case. -/
def normalizeChars (cs : List Char) : List Char := (cs.filter isWordChar).map Char.toLower

/-- The word characters of a text, letters in lower case. -/
def normalize (s : String) : String := String.ofList (normalizeChars s.toList)

end SchemaHint.Fuzzy
