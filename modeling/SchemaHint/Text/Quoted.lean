import SchemaHint.Text.Numeral
import SchemaHint.Text.Visible

/-!
# Quoted text

`quoted` writes a text between double quotes. The quote, the backslash, the line breaks, the tab
and NUL have two-character escapes; any other character that is not visible is written as its code
point in braces.
-/

namespace SchemaHint.Text

set_option autoImplicit false

/-- The digits of a number in base 16, in lower case and without leading zeros. -/
def hexDigits (n : Nat) : List Char := Nat.toDigits 16 n

/-- The written form of one character between quotes. -/
def escape (c : Char) : List Char :=
  if c = '"' then ['\\', '"']
  else if c = '\\' then ['\\', '\\']
  else if c = '\n' then ['\\', 'n']
  else if c = '\r' then ['\\', 'r']
  else if c = '\t' then ['\\', 't']
  else if c = '\x00' then ['\\', '0']
  else if isVisible c then [c]
  else ['\\', 'u', '\x7b'] ++ hexDigits c.toNat ++ ['\x7d']

/-- The text between double quotes, with escapes. -/
def quotedChars (cs : List Char) : List Char := '"' :: cs.flatMap escape ++ ['"']

/-- The text between double quotes, with escapes. -/
def quoted (s : String) : String := String.ofList (quotedChars s.toList)

end SchemaHint.Text
