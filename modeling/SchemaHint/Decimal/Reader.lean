import SchemaHint.Decimal.Binary64
import SchemaHint.Text.Numeral

/-!
# Reading decimals

`Binary64.ofDecimal` is the number nearest to `digits * 10 ^ exponent`. `Binary64.read?` reads a
numeral with an optional sign, a point and an exponent, or the name of a number that is not finite.
-/

namespace SchemaHint.Binary64

set_option autoImplicit false

/-- The number nearest to `digits * 10 ^ exponent`. Beyond the bounds tested first every such number
is infinite, respectively zero. -/
def ofDecimal (negative : Bool) (digits : Nat) (exponent : Int) : Binary64 :=
  let point : Int := (Text.digits digits).length + exponent
  if digits = 0 then zero negative
  else if point > 400 then .infinite negative
  else if point < -400 then zero negative
  else ofRatio negative (digits * Nat.pow 10 exponent.toNat) (Nat.pow 10 (-exponent).toNat)

/-- A sign in front of a text: whether it is a minus, and the rest. -/
def takeSign : List Char → Bool × List Char
  | '-' :: cs => (true, cs)
  | '+' :: cs => (false, cs)
  | cs => (false, cs)

/-- Reads digits with an optional sign. -/
def integer? (cs : List Char) : Option Int :=
  let (negative, ds) := takeSign cs
  (Text.natural? ds).map fun n => if negative then -(n : Int) else n

/-- The text before the exponent mark, and the exponent: zero without a mark, nothing if it is not
an integer. -/
def takeExponent (cs : List Char) : Option (List Char × Int) :=
  match cs.dropWhile (fun c => c ≠ 'e' ∧ c ≠ 'E') with
  | [] => some (cs, 0)
  | _ :: e => (integer? e).map (cs.takeWhile (fun c => c ≠ 'e' ∧ c ≠ 'E'), ·)

/-- Reads an unsigned numeral: digits with at most one point, of which at least one digit, and an
optional exponent. -/
def unsigned? (negative : Bool) (cs : List Char) : Option Binary64 := do
  let (mantissa, exponent) ← takeExponent cs
  let whole := mantissa.takeWhile Char.isDigit
  let rest := mantissa.dropWhile Char.isDigit
  let fraction ← match rest with
    | [] => some []
    | '.' :: ds => if ds.all Char.isDigit then some ds else none
    | _ => none
  if whole.isEmpty && fraction.isEmpty then none
  else some (ofDecimal negative (Text.valueOfDigits (whole ++ fraction)) (exponent - fraction.length))

/-- Reads a number: a signed numeral, or `inf`, `infinity` or `nan` in any case. -/
def read? (cs : List Char) : Option Binary64 :=
  let (negative, rest) := takeSign cs
  let word := String.ofList (rest.map Char.toLower)
  if word = "inf" ∨ word = "infinity" then some (.infinite negative)
  else if word = "nan" then some .nan
  else unsigned? negative rest

end SchemaHint.Binary64
