/-!
# Binary floating point numbers of 64 bits

A `Binary64` is an infinity, not a number, or a signed `mantissa * 2 ^ exponent`. `ofRatio` rounds
a quotient of natural numbers to the nearest such number, ties going to the even mantissa;
`halvesLe` compares with a multiple of one half.
-/

namespace SchemaHint

set_option autoImplicit false

/-- A floating point number of 64 bits; a finite one has its mantissa below `2 ^ 53` and, unless the
exponent is the least, at least `2 ^ 52`. -/
inductive Binary64
  | nan
  | infinite (negative : Bool)
  | finite (negative : Bool) (mantissa : Nat) (exponent : Int)
deriving DecidableEq, Repr

namespace Binary64

/-- The least exponent of a finite number. -/
def minExponent : Int := -1074

/-- The greatest exponent of a finite number. -/
def maxExponent : Int := 971

/-- The least mantissa of a number whose exponent is not the least. -/
def minMantissa : Nat := 0x10000000000000

/-- Zero, with a sign. -/
def zero (negative : Bool) : Binary64 := .finite negative 0 minExponent

/-- The quotient rounded to a natural number, a tie going to the even neighbour. -/
def roundHalfEven (num den : Nat) : Nat :=
  let q := num / den
  let twice := 2 * (num % den)
  if twice < den then q else if twice > den then q + 1 else q + q % 2

/-- The numerator and denominator of `num / den * 2 ^ shift`. -/
def scaleTwo (num den : Nat) (shift : Int) : Nat × Nat :=
  (num * Nat.pow 2 shift.toNat, den * Nat.pow 2 (-shift).toNat)

/-- The exponent of the greatest power of two that is at most `num / den`, both positive. -/
def floorLog2 (num den : Nat) : Int :=
  let k : Int := (num.log2 : Int) - (den.log2 : Int)
  let (n, d) := scaleTwo num den (-k)
  if d ≤ n then k else k - 1

/-- The number nearest to `num / den`, for a positive `den`. -/
def ofRatio (negative : Bool) (num den : Nat) : Binary64 :=
  if num = 0 then zero negative
  else
    let e := max (floorLog2 num den - 52) minExponent
    let (n, d) := scaleTwo num den (-e)
    let m := roundHalfEven n d
    let (m, e) := if m = 2 * minMantissa then (minMantissa, e + 1) else (m, e)
    if e > maxExponent then .infinite negative else .finite negative m e

/-- The number nearest to a natural number. -/
def ofNat (n : Nat) : Binary64 := ofRatio false n 1

/-- Whether `halves / 2` is at most the number; nothing is at most `nan`. -/
def halvesLe (x : Binary64) (halves : Nat) : Bool :=
  match x with
  | .nan => false
  | .infinite negative => !negative
  | .finite negative m e =>
    if negative && m ≠ 0 then false
    else
      let (n, d) := scaleTwo m 1 (e + 1)
      halves * d ≤ n

end Binary64

end SchemaHint
