import SchemaHint.Decimal.Reader
import SchemaHint.Sdl.Token

/-!
# Numbers in schema texts

`number?` reads the text of a number. It is an integer of 64 bits unless it holds a point or an
exponent mark.
-/

namespace SchemaHint.Sdl

set_option autoImplicit false

/-- Digits that do not start with a needless zero. -/
def isPlainDigits : List Char → Bool
  | [] => false
  | [c] => c.isDigit
  | c :: cs => c.isDigit && c ≠ '0' && cs.all Char.isDigit

/-- Plain digits that may follow a minus sign. -/
def isPlainInteger : List Char → Bool
  | '-' :: cs => isPlainDigits cs
  | cs => isPlainDigits cs

/-- The digits of an exponent: a sign or a digit from 1 to 8, and then digits. -/
def isExponent : List Char → Bool
  | [] => false
  | c :: cs => (c = '+' || c = '-' || ('1' ≤ c && c ≤ '8')) && cs.all Char.isDigit

/-- One or more digits. -/
def isFraction (cs : List Char) : Bool := !cs.isEmpty && cs.all Char.isDigit

/-- A mark of an exponent. -/
def isExponentMark (c : Char) : Bool := c = 'e' || c = 'E'

/-- The text before the last character with a property and the text after it. -/
def cutLast? (p : Char → Bool) (cs : List Char) : Option (List Char × List Char) :=
  let after := (cs.reverse.takeWhile (fun c => !p c)).reverse
  match cs.reverse.dropWhile (fun c => !p c) with
  | [] => none
  | _ :: before => some (before.reverse, after)

/-- Whether a text is that of a number with a point or an exponent. The last point divides the
integer from the fraction, and the last exponent mark, which must come after it, the fraction from
the exponent. -/
def isFloat (cs : List Char) : Bool :=
  match cutLast? (· = '.') cs with
  | none =>
    match cutLast? isExponentMark cs with
    | none => false
    | some (whole, exponent) => isPlainInteger whole && isExponent exponent
  | some (whole, rest) =>
    isPlainInteger whole &&
      match cutLast? isExponentMark rest with
      | none => isFraction rest
      | some (fraction, exponent) => isFraction fraction && isExponent exponent

/-- Whether an integer fits in 64 bits with its sign. -/
def isInt64 (n : Int) : Bool := -0x8000000000000000 ≤ n && n < 0x8000000000000000

/-- Reads the text of a number. -/
def number? (cs : List Char) : Option Token :=
  if cs.any (fun c => c = '.' || isExponentMark c) then
    if isFloat cs then (Binary64.read? cs).map .float else none
  else if isPlainInteger cs then
    ((Binary64.integer? cs).filter isInt64).map .int
  else none

end SchemaHint.Sdl
