/-!
# Decimal numerals

`digits` writes a natural number and `natural?` reads one; `word?` reads the numerals of 64-bit
words, which may carry a plus sign.
-/

namespace SchemaHint.Text

set_option autoImplicit false

/-- The number of different 64-bit words. -/
def wordLimit : Nat := 0x10000000000000000

/-- The decimal digits of a number, without leading zeros. -/
def digits (n : Nat) : List Char := Nat.toDigits 10 n

/-- The number that a row of decimal digits stands for. -/
def valueOfDigits (cs : List Char) : Nat :=
  cs.foldl (fun n c => 10 * n + (c.toNat - '0'.toNat)) 0

/-- Reads one or more decimal digits. -/
def natural? (cs : List Char) : Option Nat :=
  if cs.isEmpty then none else if cs.all Char.isDigit then some (valueOfDigits cs) else none

/-- The text without a leading plus sign. -/
def dropPlus : List Char → List Char
  | '+' :: cs => cs
  | cs => cs

/-- Reads the numeral of a 64-bit word: digits that may follow one plus sign. -/
def word? (cs : List Char) : Option Nat :=
  (natural? (dropPlus cs)).filter (· < wordLimit)

/-- The value of a hexadecimal digit. -/
def hexDigit? (c : Char) : Option Nat :=
  if c.isDigit then some (c.toNat - '0'.toNat)
  else if 'a' ≤ c ∧ c ≤ 'f' then some (c.toNat - 'a'.toNat + 10)
  else if 'A' ≤ c ∧ c ≤ 'F' then some (c.toNat - 'A'.toNat + 10)
  else none

/-- Reads one or more hexadecimal digits that may follow one plus sign. -/
def hexNatural? (cs : List Char) : Option Nat :=
  let ds := dropPlus cs
  if ds.isEmpty then none
  else ds.foldlM (fun n c => (hexDigit? c).map (16 * n + ·)) 0

end SchemaHint.Text
