import SchemaHint.Decimal.Binary64
import SchemaHint.Text.Numeral

/-!
# The shortest decimal of a floating point number

`Binary64.shortest` gives the fewest decimal digits that read back as the number, and of those the
nearest to it, a tie going up. `Binary64.text` writes them without an exponent.
-/

namespace SchemaHint.Binary64

set_option autoImplicit false

/-- The numerator and denominator of `num / den * 10 ^ shift`. -/
def scaleTen (num den : Nat) (shift : Int) : Nat × Nat :=
  (num * Nat.pow 10 shift.toNat, den * Nat.pow 10 (-shift).toNat)

/-- The number of decimal digits before the point of `num / den`; it is at most zero when the
quotient is below one tenth. -/
def decimalPoint (num den : Nat) : Int :=
  let k : Int := (Text.digits num).length - (Text.digits den).length
  let (n, d) := scaleTen num den (-k)
  if d ≤ n then k + 1 else k

/-- The quarter steps of the mantissa between which the reals round to `m * 2 ^ e`. -/
def quarterBounds (m : Nat) (e : Int) : Nat × Nat :=
  if m = minMantissa ∧ e ≠ minExponent then (4 * m - 1, 4 * m + 2) else (4 * m - 2, 4 * m + 2)

/-- The decimal of `count` digits that reads back as `m * 2 ^ e`, if there is one: its digits as a
number and the power of ten of the last one. -/
def decimalOfLength? (m : Nat) (e : Int) (count : Nat) : Option (Nat × Int) :=
  let (vn, vd) := scaleTwo m 1 e
  let last := decimalPoint vn vd - count
  -- everything in units of `10 ^ last`, with the common denominator `4 * d`
  let (n, d) := scaleTen vn vd (-last)
  let low := n / d
  let (q, r) := quarterBounds m e
  let inside (k : Nat) : Bool :=
    let x := 4 * k * d * m
    let (lo, hi) := (n * q, n * r)
    if m % 2 = 0 then lo ≤ x && x ≤ hi else lo < x && x < hi
  let up := 2 * (n % d) ≥ d
  match inside low, inside (low + 1) with
  | true, true => some (if up then low + 1 else low, last)
  | true, false => some (low, last)
  | false, true => some (low + 1, last)
  | false, false => none

/-- The digits, as a number, and the power of ten of the last digit, of the shortest decimal that
reads back as `m * 2 ^ e`. -/
def shortest (m : Nat) (e : Int) : Nat × Int :=
  if m = 0 then (0, 0)
  else ((List.range 17).findSome? fun i => decimalOfLength? m e (i + 1)).getD (m, e)

/-- Writes `digits * 10 ^ last` without an exponent and without zeros after the last digit of a
fraction. -/
def positional (digits : Nat) (last : Int) : List Char :=
  let ds := Text.digits digits
  if 0 ≤ last then
    if digits = 0 then ['0'] else ds ++ List.replicate last.toNat '0'
  else
    let places := (-last).toNat
    let padded := List.replicate (places + 1 - ds.length) '0' ++ ds
    let whole := padded.take (padded.length - places)
    let fraction := ((padded.drop (padded.length - places)).reverse.dropWhile (· = '0')).reverse
    if fraction.isEmpty then whole else whole ++ '.' :: fraction

/-- The written form of a number. -/
def text : Binary64 → String
  | .nan => "NaN"
  | .infinite negative => if negative then "-inf" else "inf"
  | .finite negative m e =>
    let (ds, last) := shortest m e
    String.ofList ((if negative then ['-'] else []) ++ positional ds last)

end SchemaHint.Binary64
